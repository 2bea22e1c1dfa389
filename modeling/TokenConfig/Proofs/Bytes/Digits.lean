import TokenConfig.Proofs.Bytes.Number

/-!
# Numbers as byte strings

`TokenConfig.Bytes.toNat` reads a byte string as a number. This file goes the other way, in the two
forms in which numbers are written.

* In a field of fixed size a number has leading zeros: `TokenConfig.Bytes.digits` are its digits to
  the base 256, as many as asked for. Byte strings of one length and the numbers below a power of
  256 are the same thing (`TokenConfig.Bytes.toNat_digits_of_lt`,
  `TokenConfig.Bytes.digits_toNat`).
* Where no size is fixed a number has no leading zero, and one digit at least
  (`TokenConfig.Bytes.IsNumeral`). There is one such form
  (`TokenConfig.Bytes.IsNumeral.unique`), and it comes from any other one by taking the zeros off
  the front (`TokenConfig.Bytes.isNumeral_dropWhile`).
-/

namespace TokenConfig

namespace Bytes

/-! ### Fixed size -/

/-- The last `width` digits of a number to the base 256, the most significant one first. -/
def digits : (width number : Nat) → Bytes
  | 0, _ => []
  | width + 1, number => digits width (number / 256) ++ [(number % 256).toUInt8]

@[simp] theorem length_digits (width number : Nat) : (digits width number).length = width := by
  induction width generalizing number with
  | zero => rfl
  | succ width ih => rw [digits, List.length_append, ih, List.length_singleton]

theorem toNat_digits (width number : Nat) : toNat (digits width number) = number % 256 ^ width := by
  induction width generalizing number with
  | zero => rw [Nat.pow_zero, Nat.mod_one]; rfl
  | succ width ih =>
    have hlast : (number % 256).toUInt8.toNat = number % 256 :=
      UInt8.toNat_ofNat_of_lt' (Nat.mod_lt number (by decide))
    rw [digits, toNat_append_singleton, ih, hlast, Nat.pow_succ', Nat.mod_mul, Nat.add_comm]

/-- **A number that fits its field is read back.** -/
theorem toNat_digits_of_lt {width number : Nat} (h : number < 256 ^ width) :
    toNat (digits width number) = number := by
  rw [toNat_digits, Nat.mod_eq_of_lt h]

/-- **A byte string is the digits of its number**, in a field of its own length. -/
theorem digits_toNat (bytes : Bytes) : digits bytes.length (toNat bytes) = bytes := by
  induction bytes using List.reverseRecOn with
  | nil => rfl
  | append_singleton bytes byte ih =>
    have hbyte := byte.toNat_lt
    rw [List.length_append, List.length_singleton, digits, toNat_append_singleton,
      show (256 * toNat bytes + byte.toNat) / 256 = toNat bytes by omega, ih,
      show (256 * toNat bytes + byte.toNat) % 256 = byte.toNat by omega, Nat.toUInt8_eq,
      UInt8.ofNat_toNat]

/-- Byte strings of one length are equal if their numbers are. -/
theorem eq_of_toNat_eq {a b : Bytes} (hlength : a.length = b.length) (h : toNat a = toNat b) :
    a = b := by
  rw [← digits_toNat a, hlength, h, digits_toNat]

theorem digits_inj {width a b : Nat} (ha : a < 256 ^ width) (hb : b < 256 ^ width) :
    digits width a = digits width b ↔ a = b := by
  refine ⟨fun h => ?_, fun h => h ▸ rfl⟩
  rw [← toNat_digits_of_lt ha, h, toNat_digits_of_lt hb]

/-- A byte is its one digit. -/
theorem singleton_eq_digits (byte : UInt8) : [byte] = digits 1 byte.toNat := by
  have hbyte : toNat [byte] = byte.toNat := by simp [toNat]
  rw [← hbyte]
  exact (digits_toNat [byte]).symm

/-- The two bytes of a word are its two digits. -/
theorem bigEndian_eq_digits (word : UInt16) : bigEndian word = digits 2 word.toNat := by
  have hword := word.toNat_lt
  refine eq_of_toNat_eq (by simp) ?_
  rw [toNat_digits_of_lt (by omega)]
  simp only [bigEndian, toNat, List.foldl_cons, List.foldl_nil, UInt16.toNat_toUInt8,
    UInt16.toNat_shiftRight, Nat.shiftRight_eq_div_pow, UInt16.reduceToNat, Nat.reduceMod,
    Nat.reducePow]
  omega

/-- A word of 32 bits holds what up to four digits say. -/
theorem toNat_toWord_digits {width number : Nat} (hwidth : width ≤ 4) (h : number < 256 ^ width) :
    (toWord (digits width number)).toNat = number := by
  rw [toNat_toWord_of_length_le (by rw [length_digits]; exact hwidth), toNat_digits_of_lt h]

/-! ### Without leading zeros -/

/-- The form of a number without leading zeros, and with one digit at least. -/
structure IsNumeral (bytes : Bytes) (number : Nat) : Prop where
  /-- The digits are those of the number. -/
  toNat_eq : toNat bytes = number
  /-- There is a digit. -/
  length_pos : 1 ≤ bytes.length
  /-- A zero in front is the only digit. -/
  length_of_zero : bytes.head? = some 0 → bytes.length = 1

/-- A front that is not zero makes the number large. -/
theorem pow_le_toNat_cons {first : UInt8} (h : first ≠ 0) (bytes : Bytes) :
    256 ^ bytes.length ≤ toNat (first :: bytes) := by
  have hfirst : 1 ≤ first.toNat :=
    Nat.one_le_iff_ne_zero.mpr fun hzero => h (UInt8.toNat_inj.mp hzero)
  rw [toNat_cons]
  exact Nat.le_add_right_of_le (Nat.le_mul_of_pos_left _ hfirst)

/-- A numeral is no longer than any other form of its number. -/
theorem IsNumeral.length_le {a b : Bytes} {number : Nat} (ha : IsNumeral a number)
    (hb : toNat b = number) (hpos : 1 ≤ b.length) : a.length ≤ b.length := by
  obtain ⟨first, rest, rfl⟩ := List.exists_cons_of_length_pos ha.length_pos
  by_cases hfirst : first = 0
  · rw [ha.length_of_zero (by rw [hfirst, List.head?_cons])]
    exact hpos
  · -- the first digit alone says more than all of a shorter form could
    have hlarge := pow_le_toNat_cons hfirst rest
    have hsmall := toNat_lt b
    rw [ha.toNat_eq] at hlarge
    rw [hb] at hsmall
    exact (Nat.pow_lt_pow_iff_right (by decide)).mp (Nat.lt_of_le_of_lt hlarge hsmall)

/-- **A number has one numeral.** -/
theorem IsNumeral.unique {a b : Bytes} {number : Nat} (ha : IsNumeral a number)
    (hb : IsNumeral b number) : a = b :=
  eq_of_toNat_eq
    (Nat.le_antisymm (ha.length_le hb.toNat_eq hb.length_pos)
      (hb.length_le ha.toNat_eq ha.length_pos))
    (ha.toNat_eq.trans hb.toNat_eq.symm)

/-- A digit behind others is the numeral of its number as soon as the zeros in front are gone. -/
theorem isNumeral_dropWhile (front : Bytes) (last : UInt8) :
    IsNumeral (front.dropWhile (· == 0) ++ [last]) (toNat (front ++ [last])) := by
  induction front with
  | nil => exact ⟨rfl, Nat.le_refl 1, fun _ => rfl⟩
  | cons first front ih =>
    by_cases hfirst : first = 0
    · rw [List.dropWhile_cons_of_pos (by simpa using hfirst), List.cons_append, toNat_cons, hfirst,
        UInt8.toNat_zero, Nat.zero_mul, Nat.zero_add]
      exact ih
    · rw [List.dropWhile_cons_of_neg (by simpa using hfirst)]
      exact ⟨rfl, by simp, fun hzero => absurd (Option.some.inj hzero) hfirst⟩

end Bytes

end TokenConfig
