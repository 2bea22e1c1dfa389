import TokenConfig.Bytes.Hex

/-!
# Words of named flags

A flag word is a string of bits some of which have names. Bits without a name are kept as they are:
a newer token may know them.

* `TokenConfig.Vocabulary` is the list of names, in the order they were declared. A name may stand
  for several bits, and two names may share bits.
* `TokenConfig.FlagWord` is a word over a vocabulary. Words over different vocabularies have
  different types, so the three flag bytes of a record cannot be mixed up.
* `TokenConfig.FlagWord.listed` are the flags that describe a word: in order of declaration, a flag
  that the word contains and that has a bit no listed flag has yet. A later name for the same bits
  is therefore never listed.
-/

namespace TokenConfig

/-- A name for some bits of a word. -/
structure Flag (width : Nat) where
  /-- The name. -/
  name : String
  /-- The bits that it stands for. -/
  mask : BitVec width
deriving DecidableEq

/-- The flags that a kind of word is described by. -/
structure Vocabulary (width : Nat) where
  /-- The name of the kind of word. -/
  title : String
  /-- The flags in order of declaration. -/
  flags : List (Flag width)

/-- Every bit that has a name. -/
def Vocabulary.known {width : Nat} (vocabulary : Vocabulary width) : BitVec width :=
  vocabulary.flags.foldl (fun bits flag => bits ||| flag.mask) 0

/-- A word over a vocabulary. -/
structure FlagWord {width : Nat} (vocabulary : Vocabulary width) where
  /-- The bits of the word, named or not. -/
  bits : BitVec width
deriving DecidableEq

namespace FlagWord

variable {width : Nat} {vocabulary : Vocabulary width}

/-! ### Sets of bits -/

/-- The word without bits. -/
def empty : FlagWord vocabulary :=
  ⟨0⟩

/-- The bits of either word. -/
def union (a b : FlagWord vocabulary) : FlagWord vocabulary :=
  ⟨a.bits ||| b.bits⟩

/-- The bits of both words. -/
def inter (a b : FlagWord vocabulary) : FlagWord vocabulary :=
  ⟨a.bits &&& b.bits⟩

/-- The bits of the first word that the second has not. -/
def diff (a b : FlagWord vocabulary) : FlagWord vocabulary :=
  ⟨a.bits &&& ~~~b.bits⟩

/-- The word after the bits of `mask` were switched on or off. Other bits stay as they are. -/
def set (word mask : FlagWord vocabulary) (on : Bool) : FlagWord vocabulary :=
  if on then word.union mask else word.diff mask

/-- Whether no bit is set. -/
def isEmpty (word : FlagWord vocabulary) : Bool :=
  word.bits == 0

/-- A bit after a switch: that of the switch where its mask has the bit, else the one before. -/
theorem getLsbD_set (word mask : FlagWord vocabulary) (on : Bool) (i : Nat) :
    (word.set mask on).bits.getLsbD i =
      if mask.bits.getLsbD i then on else word.bits.getLsbD i := by
  cases on <;> cases hm : mask.bits.getLsbD i <;> simp [set, union, diff, hm]
  intro h
  exact BitVec.lt_of_getLsbD h

/-! ### Description -/

/-- The flags of a list that describe `bits`, when the bits outside `remaining` are described
already. -/
def listedFrom (bits : BitVec width) : BitVec width → List (Flag width) → List (Flag width)
  | _, [] => []
  | remaining, flag :: rest =>
    if bits &&& flag.mask = flag.mask ∧ remaining &&& flag.mask ≠ 0 then
      flag :: listedFrom bits (remaining &&& ~~~flag.mask) rest
    else listedFrom bits remaining rest

/-- The flags that describe a word. -/
def listed (word : FlagWord vocabulary) : List (Flag width) :=
  listedFrom word.bits word.bits vocabulary.flags

/-- The names of the flags that describe a word. -/
def names (word : FlagWord vocabulary) : List String :=
  word.listed.map (·.name)

/-- The bits that no listed flag has. -/
def unlisted (word : FlagWord vocabulary) : BitVec width :=
  word.listed.foldl (fun bits flag => bits &&& ~~~flag.mask) word.bits

/-- The bits that have no name. -/
def unknown (word : FlagWord vocabulary) : BitVec width :=
  word.bits &&& ~~~vocabulary.known

/-- The word in one line: its kind, the names, and the bits that they leave as one number. -/
def description (word : FlagWord vocabulary) : String :=
  let rest := word.unlisted
  let marks :=
    if rest = 0 && !word.isEmpty then word.names else word.names ++ [Hex.marked 1 rest.toNat]
  vocabulary.title ++ "(" ++ " | ".intercalate marks ++ ")"

end FlagWord

end TokenConfig
