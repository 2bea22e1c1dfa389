import TokenConfig.Bytes.Hex
import TokenConfig.Device.Serial
import TokenConfig.Proofs.Text.Pieces
import TokenConfig.Proofs.Text.Trimming
import TokenConfig.Version

/-!
# Numbers as they are written

A number is written in decimal digits, or in digits of base 16 with zeros in front of them. Either
way the digits have a value, which is the number (`TokenConfig.Decimal.value_toDigits`,
`TokenConfig.Hex.numberOf_numeral`), so different numbers are written differently. What is written
of a version or a serial number is read back (`TokenConfig.Version.parse_text`,
`TokenConfig.Serial.parse_text`).
-/

namespace TokenConfig

/-! ### Base 10 -/

namespace Decimal

theorem value_toDigits (number : Nat) : value (Nat.toDigits 10 number) = number :=
  Nat.ofDigitChars_ten_toDigits

theorem isDigit_of_mem_toString {number : Nat} {c : Char} (h : c ∈ (toString number).toList) :
    c.isDigit = true := by
  rw [Nat.toString_eq_repr, Nat.toList_repr] at h
  exact Nat.isDigit_of_mem_toDigits (by decide) (by decide) h

/-- A character that is no digit is not among the digits of a number. -/
theorem not_mem_toString {number : Nat} {c : Char} (h : c.isDigit = false) :
    c ∉ (toString number).toList := fun hc => by
  rw [isDigit_of_mem_toString hc] at h
  cases h

/-- Different numbers have different digits. -/
theorem toString_injective : Function.Injective (toString : Nat → String) := by
  intro a b h
  have hdigits : Nat.toDigits 10 a = Nat.toDigits 10 b := by
    rw [← Nat.toList_repr, ← Nat.toList_repr]
    exact congrArg String.toList h
  rw [← value_toDigits a, hdigits, value_toDigits]

/-- **What is written of a number is read back**, if the number is within the bound. -/
theorem parse?_toString {bound number : Nat} (h : number ≤ bound) :
    parse? bound (toString number).toList = some number := by
  have hdigits : (toString number).toList = Nat.toDigits 10 number := Nat.toList_repr
  have hunsigned : unsigned (Nat.toDigits 10 number) = Nat.toDigits 10 number := by
    unfold unsigned
    split
    · next rest hrest =>
      -- the sign is no digit
      have hsign : '+' ∈ Nat.toDigits 10 number := hrest ▸ List.mem_cons_self
      exact absurd hsign (hdigits ▸ not_mem_toString (by decide))
    · rfl
  have hall : (Nat.toDigits 10 number).all Char.isDigit = true :=
    List.all_eq_true.mpr fun c hc => Nat.isDigit_of_mem_toDigits (by decide) (by decide) hc
  have hne : (Nat.toDigits 10 number).isEmpty = false :=
    List.isEmpty_eq_false_iff.mpr Nat.toDigits_ne_nil
  rw [hdigits, parse?, hunsigned, hne, hall, value_toDigits]
  exact if_pos h

end Decimal

/-! ### Base 16 -/

namespace Hex

/-- The number whose digits are given, the most significant one first. -/
def numberOf (digits : List Char) : Nat :=
  digits.foldl (fun number c => 16 * number + ((value? c).getD 0).toNat) 0

theorem toDigits_induction {p : Nat → Prop} (hsmall : ∀ n < 16, p n)
    (hlarge : ∀ n, 16 ≤ n → p (n / 16) → p n) (n : Nat) : p n := by
  induction n using Nat.strongRecOn with
  | ind n ih =>
    by_cases h : n < 16
    · exact hsmall n h
    · exact hlarge n (Nat.not_lt.mp h) (ih (n / 16) (by omega))

theorem numberOf_toDigits (number : Nat) : numberOf (Nat.toDigits 16 number) = number := by
  have hdigit : ∀ d < 16, ((value? (Nat.digitChar d)).getD 0).toNat = d := by decide
  induction number using toDigits_induction with
  | hsmall n hn =>
    rw [Nat.toDigits_of_lt_base hn, numberOf, List.foldl_cons, List.foldl_nil, hdigit n hn]
    omega
  | hlarge n hn ih =>
    rw [Nat.toDigits_of_base_le (by decide) hn, numberOf, List.foldl_append, ← numberOf, ih,
      List.foldl_cons, List.foldl_nil, hdigit _ (Nat.mod_lt n (by decide))]
    omega

theorem mem_toDigits {number : Nat} {c : Char} (h : c ∈ Nat.toDigits 16 number) :
    ∃ d < 16, c = Nat.digitChar d := by
  induction number using toDigits_induction with
  | hsmall n hn =>
    rw [Nat.toDigits_of_lt_base hn, List.mem_singleton] at h
    exact ⟨n, hn, h⟩
  | hlarge n hn ih =>
    rw [Nat.toDigits_of_base_le (by decide) hn, List.mem_append, List.mem_singleton] at h
    rcases h with hfront | hlast
    · exact ih hfront
    · exact ⟨n % 16, Nat.mod_lt n (by decide), hlast⟩

/-- Zeros in front do not matter. -/
theorem numberOf_numeral (width number : Nat) :
    numberOf (numeral width number).toList = number := by
  have hzeros : ∀ count, numberOf (List.replicate count '0') = 0 := by
    intro count
    induction count with
    | zero => rfl
    | succ count ih => exact ih
  rw [numeral, String.toList_ofList, numberOf, List.foldl_append, ← numberOf, hzeros, ← numberOf,
    numberOf_toDigits]

theorem mem_numeral {width number : Nat} {c : Char} (h : c ∈ (numeral width number).toList) :
    ∃ d < 16, c = Nat.digitChar d := by
  rw [numeral, String.toList_ofList, List.mem_append] at h
  rcases h with hzero | hdigit
  · exact ⟨0, by decide, List.eq_of_mem_replicate hzero⟩
  · exact mem_toDigits hdigit

/-- **Different numbers are written with different digits.** -/
theorem marked_injective (width : Nat) : Function.Injective (marked width) := by
  intro a b h
  rw [marked, marked, String.append_right_inj] at h
  rw [← numberOf_numeral width a, h, numberOf_numeral]

/-- The mark and the digits are all that is written. -/
theorem mem_marked {width number : Nat} {c : Char} (h : c ∈ (marked width number).toList) :
    c = 'x' ∨ ∃ d < 16, c = Nat.digitChar d := by
  rw [marked, String.toList_append, List.mem_append] at h
  rcases h with hmark | hdigits
  · have hcases : c = '0' ∨ c = 'x' := by simpa using hmark
    rcases hcases with rfl | rfl
    · exact .inr ⟨0, by decide, rfl⟩
    · exact .inl rfl
  · exact .inr (mem_numeral hdigits)

end Hex

/-! ### Versions and serial numbers -/

theorem Decimal.isBlank_of_isDigit {c : Char} (h : c.isDigit = true) :
    Blank.isBlank c = false := by
  have hrange : 48 ≤ c.toNat ∧ c.toNat ≤ 57 := by
    simpa [Char.isDigit, UInt32.le_iff_toNat_le] using h
  have hall : ∀ range ∈ Blank.ranges, range.2 < 48 ∨ 57 < range.1 := by decide
  rw [Blank.isBlank, List.any_eq_false]
  intro range hmem hin
  rw [Bool.and_eq_true, decide_eq_true_eq, decide_eq_true_eq] at hin
  rcases hall range hmem with hbelow | habove <;> omega

namespace Version

/-- The dots cut the text of a version into its components. -/
theorem pieces_text (version : Version) :
    pieces '.' version.text.toList = [(toString version.major.toNat).toList,
      (toString version.minor.toNat).toList, (toString version.patch.toNat).toList] := by
  have hdot : ∀ number : Nat, '.' ∉ (toString number).toList :=
    fun number => Decimal.not_mem_toString (by decide)
  have hdots : ".".toList = ['.'] := by decide
  rw [text, String.toList_append, String.toList_append, String.toList_append, String.toList_append,
    hdots, List.append_assoc, List.append_assoc, List.append_assoc]
  simp only [List.singleton_append]
  rw [pieces_append_cons (hdot _), pieces_append_cons (hdot _), pieces_of_not_mem (hdot _)]

theorem mem_text {version : Version} {c : Char} (h : c ∈ version.text.toList) :
    c.isDigit = true ∨ c = '.' := by
  have hdots : ".".toList = ['.'] := by decide
  rw [text, String.toList_append, String.toList_append, String.toList_append, String.toList_append,
    hdots] at h
  simp only [List.mem_append, List.mem_singleton] at h
  rcases h with (((h | h) | h) | h) | h
  · exact .inl (Decimal.isDigit_of_mem_toString h)
  · exact .inr h
  · exact .inl (Decimal.isDigit_of_mem_toString h)
  · exact .inr h
  · exact .inl (Decimal.isDigit_of_mem_toString h)

/-- A character that is no digit and no dot is not in the text of a version. -/
theorem not_mem_text {version : Version} {c : Char} (hdigit : c.isDigit = false) (hdot : c ≠ '.') :
    c ∉ version.text.toList := by
  intro h
  rcases mem_text h with hc | hc
  · rw [hdigit] at hc
    cases hc
  · exact hdot hc

/-- There is no blank in the text of a version. -/
theorem isBlank_of_mem_text {version : Version} {c : Char} (h : c ∈ version.text.toList) :
    Blank.isBlank c = false := by
  rcases mem_text h with hdigit | rfl
  · exact Decimal.isBlank_of_isDigit hdigit
  · decide

/-- **What is written of a version is read back.** -/
theorem parse_text (version : Version) : parse version.text = .ok version := by
  have hcomponent : ∀ byte : UInt8, component? (toString byte.toNat).toList = some byte := by
    intro byte
    rw [component?, Decimal.parse?_toString (Nat.le_of_lt_succ byte.toNat_lt), Option.map_some,
      Nat.toUInt8_eq, UInt8.ofNat_toNat]
  rw [parse, Blank.trimChars_of_not_blank fun c hc => isBlank_of_mem_text hc, pieces_text]
  simp only [hcomponent]

theorem text_injective : Function.Injective text := by
  intro a b h
  exact Except.ok.inj ((parse_text a).symm.trans (h ▸ parse_text b))

end Version

namespace Serial

/-- **What is written of a serial number is read back.** -/
theorem parse_text (serial : Serial) : parse serial.text = .ok serial := by
  have hblank : ∀ c ∈ serial.text.toList, Blank.isBlank c = false :=
    fun c hc => Decimal.isBlank_of_isDigit (Decimal.isDigit_of_mem_toString hc)
  rw [parse, Blank.trimChars_of_not_blank hblank, text,
    Decimal.parse?_toString (Nat.le_of_lt_succ serial.number.toNat_lt)]
  simp

theorem text_injective : Function.Injective text := by
  intro a b h
  exact Except.ok.inj ((parse_text a).symm.trans (h ▸ parse_text b))

end Serial

end TokenConfig
