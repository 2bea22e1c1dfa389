/-!
# Decimal numerals

How a whole number is written by hand: ASCII digits, any number of zeros in front, and at most one
`+` before them. `TokenConfig.Decimal.parse?` reads such text under an upper bound; a minus sign, a
blank, an empty digit string or a digit of another script is no numeral.
-/

namespace TokenConfig

namespace Decimal

/-- The digits of a numeral: what follows the sign, if there is one. -/
def unsigned : List Char → List Char
  | '+' :: digits => digits
  | digits => digits

/-- The value of a string of digits. -/
def value (digits : List Char) : Nat :=
  digits.foldl (fun number c => 10 * number + (c.toNat - '0'.toNat)) 0

/-- The number that `text` is a numeral of, if it is one and at most `bound`. -/
def parse? (bound : Nat) (text : List Char) : Option Nat :=
  let digits := unsigned text
  if digits.isEmpty || !digits.all Char.isDigit then none
  else if value digits ≤ bound then some (value digits) else none

/-- A number that is read is within the bound. -/
theorem le_of_parse? {bound number : Nat} {text : List Char} (h : parse? bound text = some number) :
    number ≤ bound := by
  simp only [parse?] at h
  split at h
  · cases h
  · split at h
    · next hle => cases h; exact hle
    · cases h

end Decimal

end TokenConfig
