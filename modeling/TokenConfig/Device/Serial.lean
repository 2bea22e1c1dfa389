import TokenConfig.Error
import TokenConfig.Text.Blank
import TokenConfig.Text.Decimal

/-!
# Serial numbers

The serial number of a token is a number of 32 bits, written in decimal digits.
-/

namespace TokenConfig

/-- The serial number of a token. -/
structure Serial where
  /-- The number. -/
  number : UInt32
deriving DecidableEq

namespace Serial

/-- The number in decimal digits. -/
def text (serial : Serial) : String :=
  toString serial.number.toNat

/-- The serial number that `text` shows, with any blanks around it. -/
def parse (text : String) : Except Error Serial :=
  match Decimal.parse? 0xffffffff (Blank.trimChars text.toList) with
  | some number => .ok ⟨number.toUInt32⟩
  | none => .error .parse

end Serial

end TokenConfig
