import TokenConfig.Bytes

/-!
# Hexadecimal text

Byte strings and numbers in base 16.

* `TokenConfig.Hex.encode` writes two lower-case digits a byte;
* `TokenConfig.Hex.decode` reads such text back, in either case of letters, and says which of two
  things is wrong with any other: an odd length, which is looked at first, or a character that is no
  digit;
* `TokenConfig.Hex.numeral` writes a number with at least a given count of digits.
-/

namespace TokenConfig

namespace Hex

/-! ### Digits -/

/-- The lower-case digit of a value below 16. -/
def digit (value : Nat) : Char :=
  if value < 10 then Char.ofNat ('0'.toNat + value) else Char.ofNat ('a'.toNat + (value - 10))

/-- The value of a digit, letters of either case. -/
def value? (c : Char) : Option UInt8 :=
  if '0' ≤ c ∧ c ≤ '9' then some (c.toNat - '0'.toNat).toUInt8
  else if 'a' ≤ c ∧ c ≤ 'f' then some (c.toNat - 'a'.toNat + 10).toUInt8
  else if 'A' ≤ c ∧ c ≤ 'F' then some (c.toNat - 'A'.toNat + 10).toUInt8
  else none

/-! ### Byte strings -/

/-- The two digits of a byte. -/
def byteDigits (byte : UInt8) : List Char :=
  [digit (byte.toNat / 16), digit (byte.toNat % 16)]

/-- The text of a byte string. -/
def encode (bytes : Bytes) : String :=
  String.ofList (bytes.flatMap byteDigits)

/-- What can be wrong with hexadecimal text. -/
inductive Fault where
  /-- The text takes an odd number of bytes. -/
  | oddLength
  /-- A character of the text is no digit. -/
  | notDigit
deriving DecidableEq

/-- The wording of a fault. -/
def Fault.message : Fault → String
  | .oddLength => "invalid Base16 length"
  | .notDigit => "invalid Base16 encoding"

/-- The bytes that pairs of digits stand for, after those in `done`, which come last first. -/
def decodePairs (done : Bytes) : List Char → Option Bytes
  | high :: low :: rest =>
    match value? high, value? low with
    | some h, some l => decodePairs ((16 * h + l) :: done) rest
    | _, _ => none
  | [_] => none
  | [] => some done.reverse

/-- The byte string that `text` stands for. The length is counted in the bytes of the text. -/
def decode (text : String) : Except Fault Bytes :=
  if text.utf8ByteSize % 2 = 1 then .error .oddLength
  else match decodePairs [] text.toList with
    | some bytes => .ok bytes
    | none => .error .notDigit

/-! ### Numbers -/

/-- The digits of a number, with zeros in front up to `width` of them. -/
def numeral (width number : Nat) : String :=
  let digits := Nat.toDigits 16 number
  String.ofList (List.replicate (width - digits.length) '0' ++ digits)

/-- A number with the mark of base 16 before its digits. -/
def marked (width number : Nat) : String :=
  "0x" ++ numeral width number

end Hex

end TokenConfig
