import TokenConfig.Environment
import TokenConfig.Event
import TokenConfig.Text.Blank
import TokenConfig.Text.Pieces

/-!
# Settings

A setting is switched on or off, and `TokenConfig.Setting.resolve` finds out which:

* the administrator's file decides if one of its lines is about the setting, and the first such line
  counts (`TokenConfig.Setting.inFile?`);
* otherwise a variable of the environment decides, if it is set;
* otherwise the program's own value stands.

A line has a name and a value on the two sides of its first `=`. Blanks around either do not matter;
a line that is empty, begins with `#`, has no `=` or is not text is about nothing. A value switches
on if it is `1` or `true` in any case of letters, and off otherwise.
-/

namespace TokenConfig

/-- A setting, and who decided on it. -/
structure Setting where
  /-- Whether it is switched on. -/
  value : Bool
  /-- Who decided. -/
  source : Source
deriving DecidableEq

namespace Setting

/-- The place of the administrator's file. -/
def filePath : String := "/etc/yubico/yubikey-config.conf"

/-- What the name of a setting's variable begins with. -/
def variableStart : String := "YUBIKEY_CONFIG_"

/-- The setting that refuses values too long for their field instead of cutting them. -/
def strictLengths : String := "STRICT_LENGTHS"

/-! ### Lines -/

/-- The byte that ends a line. -/
def newline : UInt8 := 0x0a

/-- Whether a value, given without blanks around it, switches on. -/
def switchesOn (value : List Char) : Bool :=
  value == ['1'] || value.map Char.toLower == "true".toList

/-- The name and the value of a line, without blanks around them, if the line is about a setting. -/
def ofLine? (line : Bytes) : Option (List Char × List Char) :=
  match Utf8.decode? line with
  | none => none
  | some text =>
    let content := Blank.trimChars text.toList
    if content.head? = some '#' then none
    else (splitFirst? '=' content).map fun (name, value) =>
      (Blank.trimChars name, Blank.trimChars value)

/-- What a file says about a setting: the value of the first line with its name. -/
def inFile? (content : Bytes) (key : String) : Option Bool :=
  ((pieces newline content).filterMap ofLine?).findSome? fun (name, value) =>
    if name = key.toList then some (switchesOn value) else none

/-- What the environment says about a setting. -/
def inEnvironment? (environment : Environment) (key : String) : Option Bool :=
  (environment.text? (variableStart ++ key)).map fun text =>
    switchesOn (Blank.trimChars text.toList)

/-! ### Resolution -/

/-- What the administrator's file says about a setting, if there is a file. -/
def byAdministrator? (file : Option Bytes) (key : String) : Logged (Option Bool) :=
  match file with
  | none => pure none
  | some content => do
    Logged.note (.settingsRead filePath)
    let found := inFile? content key
    Logged.noteIf found.isSome (.settingFound key)
    return found

/-- The value of a setting and who decided on it. The administrator's file need not be there. -/
def resolve (file : Option Bytes) (environment : Environment) (key : String) (fallback : Bool) :
    Logged Setting := do
  match ← byAdministrator? file key with
  | some value => return ⟨value, .administrator⟩
  | none =>
    match inEnvironment? environment key with
    | some value => return ⟨value, .user⟩
    | none => return ⟨fallback, .program⟩

end Setting

end TokenConfig
