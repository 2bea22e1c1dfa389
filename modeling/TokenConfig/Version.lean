import TokenConfig.Bytes
import TokenConfig.Error
import TokenConfig.Text.Blank
import TokenConfig.Text.Decimal
import TokenConfig.Text.Pieces

/-!
# Firmware versions

A version has three components of one byte each. A token reports it as three bytes, which may be
followed by others; people write it with dots, as in `5.4.3`.

* `TokenConfig.Version.ofBytes?` and `TokenConfig.Version.parse` read the two forms,
  `TokenConfig.Version.toBytes` and `TokenConfig.Version.text` write them;
* versions are ordered by their first component that differs (`TokenConfig.Version.precedes`).
-/

namespace TokenConfig

/-- A firmware version. -/
structure Version where
  /-- The component that changes first. -/
  major : UInt8
  /-- The component that changes second. -/
  minor : UInt8
  /-- The component that changes last. -/
  patch : UInt8
deriving DecidableEq

namespace Version

/-- The number of bytes that hold a version. -/
def byteSize : Nat := 3

/-! ### As bytes -/

/-- The version in the first three bytes; bytes after them do not matter. -/
def ofBytes? : Bytes → Option Version
  | major :: minor :: patch :: _ => some ⟨major, minor, patch⟩
  | _ => none

/-- The three bytes of a version. -/
def toBytes (version : Version) : Bytes :=
  [version.major, version.minor, version.patch]

@[simp] theorem ofBytes?_toBytes_append (version : Version) (rest : Bytes) :
    ofBytes? (version.toBytes ++ rest) = some version := rfl

/-! ### As text -/

/-- The three components with dots between them. -/
def text (version : Version) : String :=
  toString version.major.toNat ++ "." ++ toString version.minor.toNat ++ "." ++
    toString version.patch.toNat

/-- A component of a version: a numeral of at most 255. -/
def component? (digits : List Char) : Option UInt8 :=
  (Decimal.parse? 255 digits).map Nat.toUInt8

/-- The version that `text` shows: exactly three components, two dots and, around them all, any
blanks. -/
def parse (text : String) : Except Error Version :=
  match pieces '.' (Blank.trimChars text.toList) with
  | [major, minor, patch] =>
    match component? major, component? minor, component? patch with
    | some a, some b, some c => .ok ⟨a, b, c⟩
    | _, _, _ => .error .parse
  | _ => .error .parse

/-! ### Order -/

/-- Whether a version is at most another: the first component that differs decides. -/
def precedes (a b : Version) : Bool :=
  if a.major != b.major then a.major < b.major
  else if a.minor != b.minor then a.minor < b.minor
  else a.patch ≤ b.patch

/-- The versions of a list in ascending order. -/
def sort (versions : List Version) : List Version :=
  versions.mergeSort precedes

end Version

end TokenConfig
