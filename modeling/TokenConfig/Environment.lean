import TokenConfig.Text.Utf8

/-!
# The environment of a program

Variables with values. A program is handed one byte string for each variable, its **entry**
(`TokenConfig.Environment.entry`): the name, `=` and the value. A look-up of a name
(`TokenConfig.Environment.get?`) takes the first entry that begins with the name and `=`, so the
name that is looked up may itself have an `=`: where `A` has the value `B=1`, a look-up of `A=B`
gives `1`.

A value is a byte string; `TokenConfig.Environment.text?` is its text, and a variable whose value is
no text counts as one that is not set.
-/

namespace TokenConfig

/-- The variables of a program. -/
structure Environment where
  /-- The variables with their values, in the order of their entries. -/
  bindings : List (String × Bytes)

namespace Environment

/-! ### Variables and their values -/

/-- No variable is set. -/
def empty : Environment := ⟨[]⟩

/-- Gives a variable a value in place of the one it had. Entries stand in the order of names. -/
def set (environment : Environment) (name : String) (value : Bytes) : Environment :=
  ⟨environment.bindings.filter (fun binding => binding.1 < name) ++ (name, value) ::
    environment.bindings.filter (fun binding => name < binding.1)⟩

/-- The environment in which each variable has the last of the values listed for it. -/
def ofList (bindings : List (String × Bytes)) : Environment :=
  bindings.foldl (fun environment binding => environment.set binding.1 binding.2) empty

/-! ### Entries -/

/-- The sign between the name and the value of an entry. -/
def equalsSign : UInt8 := 0x3d

/-- The start of an entry: the name of a variable and the sign after it. -/
def entryStart (name : String) : Bytes :=
  Utf8.encode name ++ [equalsSign]

/-- The byte string that hands a program a variable with its value. -/
def entry (name : String) (value : Bytes) : Bytes :=
  entryStart name ++ value

/-! ### Look-ups -/

/-- The value of a variable: what follows its name in the first entry that begins with it. -/
def get? (environment : Environment) (name : String) : Option Bytes :=
  environment.bindings.findSome? fun binding =>
    Bytes.after? (entryStart name) (entry binding.1 binding.2)

/-- Whether a variable is set. -/
def has (environment : Environment) (name : String) : Bool :=
  (environment.get? name).isSome

/-- The value of a variable as text. -/
def text? (environment : Environment) (name : String) : Option String :=
  (environment.get? name).bind Utf8.decode?

end Environment

end TokenConfig
