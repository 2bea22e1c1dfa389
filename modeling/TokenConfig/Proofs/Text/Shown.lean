import Mathlib.Data.Nat.Digits.Defs
import TokenConfig.Proofs.Text.Numeral
import TokenConfig.Slot

/-!
# Which texts are read

Versions, serial numbers and slots are read from what people write. This file says which texts stand
for a value, and knows nothing of how a text is taken apart.

* `TokenConfig.Decimal.Shows`: a numeral is digits with at most one `+` before them, and any number
  of zeros in front does not matter. It is read if its number is within the bound
  (`TokenConfig.Decimal.parse?_eq_some_iff`).
* `TokenConfig.Version.Shows`, `TokenConfig.Serial.Shows` and `TokenConfig.Slot.Shows`: three
  numerals with two dots between them, one numeral, and one of two digits.
* `TokenConfig.ReadsShown`: a reader takes the texts that show a value between the blanks at their
  ends, and no others, and it reads back what is written of any value.

Each of the three readers is one of this kind (`TokenConfig.readsShown_parse`). Trimming is what
they have in common, so each has to be looked at on trimmed texts only
(`TokenConfig.ReadsShown.of_trimmed`).
-/

namespace TokenConfig

/-! ### Numerals -/

namespace Decimal

/-- `text` is a numeral of `number`: behind at most one `+` stand digits, at least one, the most
significant one first. -/
def Shows (text : List Char) (number : Nat) : Prop :=
  ∃ (sign : List Char) (digits : List Nat), text = sign ++ digits.map Nat.digitChar ∧
    (sign = [] ∨ sign = ['+']) ∧ digits ≠ [] ∧ (∀ digit ∈ digits, digit < 10) ∧
    Nat.ofDigits 10 digits.reverse = number

/-- The characters of digits are those that count as digits. -/
theorem forall_isDigit_iff {chars : List Char} :
    (∀ c ∈ chars, c.isDigit = true) ↔
      ∃ digits : List Nat, chars = digits.map Nat.digitChar ∧ ∀ digit ∈ digits, digit < 10 := by
  constructor
  · intro h
    have hrange : ∀ c ∈ chars, 48 ≤ c.toNat ∧ c.toNat ≤ 57 :=
      fun c hc => Char.isDigit_iff_toNat.mp (h c hc)
    refine ⟨chars.map fun c => c.toNat - 48, ?_, List.forall_mem_map.mpr fun c hc => ?_⟩
    · rw [List.map_map]
      refine (List.map_id chars).symm.trans (List.map_congr_left fun c hc => ?_)
      have hc := hrange c hc
      refine Char.toNat_inj.mp ?_
      rw [Function.comp_apply, Nat.toNat_digitChar_of_lt_ten (by omega), id]
      omega
    · have hc := hrange c hc
      omega
  · rintro ⟨digits, rfl, h⟩
    refine List.forall_mem_map.mpr fun digit hdigit => ?_
    rw [Nat.isDigit_digitChar, decide_eq_true (h digit hdigit)]

/-- The value of digits is the number that they are the digits of. -/
theorem value_map_digitChar {digits : List Nat} (h : ∀ digit ∈ digits, digit < 10) :
    value (digits.map Nat.digitChar) = Nat.ofDigits 10 digits.reverse := by
  induction digits using List.reverseRecOn with
  | nil => rfl
  | append_singleton digits digit ih =>
    have hten := h digit (List.mem_append_right _ (List.mem_singleton_self digit))
    have hdigit : digit.digitChar.toNat - '0'.toNat = digit :=
      Nat.toNat_digitChar_sub_48_of_lt_ten hten
    rw [List.map_append, value, List.foldl_append, ← value,
      ih fun other hother => h other (List.mem_append_left _ hother), List.reverse_append,
      List.reverse_singleton, List.singleton_append, Nat.ofDigits_cons, List.map_singleton,
      List.foldl_cons, List.foldl_nil, hdigit, Nat.add_comm]

/-- There is at most one sign, and no digit is one. -/
theorem unsigned_append {sign digits : List Char} (hsign : sign = [] ∨ sign = ['+'])
    (hdigits : ∀ c ∈ digits, c.isDigit = true) : unsigned (sign ++ digits) = digits := by
  rcases hsign with rfl | rfl
  · unfold unsigned
    split
    · next rest hrest =>
      rw [List.nil_append] at hrest
      exact absurd (hdigits '+' (hrest ▸ List.mem_cons_self)) (by decide)
    · rfl
  · rfl

theorem exists_append_unsigned (text : List Char) :
    ∃ sign, (sign = [] ∨ sign = ['+']) ∧ text = sign ++ unsigned text := by
  unfold unsigned
  split
  · exact ⟨['+'], .inr rfl, rfl⟩
  · exact ⟨[], .inl rfl, rfl⟩

/-- **A numeral is read** if its number is within the bound, and nothing else is. -/
theorem parse?_eq_some_iff {bound number : Nat} {text : List Char} :
    parse? bound text = some number ↔ Shows text number ∧ number ≤ bound := by
  constructor
  · intro h
    refine ⟨?_, le_of_parse? h⟩
    simp only [parse?, Option.ite_none_left_eq_some, Option.ite_none_right_eq_some,
      Bool.not_eq_true, Bool.or_eq_false_iff, Bool.not_eq_false', List.isEmpty_eq_false_iff,
      List.all_eq_true, Option.some.injEq] at h
    obtain ⟨⟨hne, hall⟩, -, hvalue⟩ := h
    obtain ⟨sign, hsign, htext⟩ := exists_append_unsigned text
    obtain ⟨digits, hdigits, hten⟩ := forall_isDigit_iff.mp hall
    rw [hdigits] at htext hvalue hne
    exact ⟨sign, digits, htext, hsign, fun hnil => hne (by rw [hnil, List.map_nil]), hten,
      (value_map_digitChar hten).symm.trans hvalue⟩
  · rintro ⟨⟨sign, digits, rfl, hsign, hne, hten, rfl⟩, hbound⟩
    have hall : ∀ c ∈ digits.map Nat.digitChar, c.isDigit = true :=
      forall_isDigit_iff.mpr ⟨digits, rfl, hten⟩
    have hnonempty : (digits.map Nat.digitChar).isEmpty = false :=
      List.isEmpty_eq_false_iff.mpr fun hnil => hne (List.map_eq_nil_iff.mp hnil)
    rw [parse?, unsigned_append hsign hall, hnonempty, List.all_eq_true.mpr hall,
      value_map_digitChar hten]
    exact if_pos hbound

/-- Signs and zeros in front do not matter. -/
example : Shows ['+', '0', '0', '7'] 7 :=
  ⟨['+'], [0, 0, 7], rfl, .inr rfl, by decide, by decide, by decide⟩

end Decimal

/-! ### The texts of a value -/

/-- `text` is three numerals with a dot between any two of them, and has no other dot. -/
def Version.Shows (text : List Char) (version : Version) : Prop :=
  ∃ major minor patch, IsCut '.' text [major, minor, patch] ∧
    Decimal.Shows major version.major.toNat ∧ Decimal.Shows minor version.minor.toNat ∧
    Decimal.Shows patch version.patch.toNat

/-- `text` is a numeral. -/
def Serial.Shows (text : List Char) (serial : Serial) : Prop :=
  Decimal.Shows text serial.number.toNat

/-- `text` is the one digit of a slot. -/
def Slot.Shows (text : List Char) : Slot → Prop
  | .one => text = ['1']
  | .two => text = ['2']

/-- A reader takes the texts that show a value, with any blanks at their ends, and gives that value.
Everything else is refused. -/
structure ReadsShown {α : Type} (parse : String → Except Error α) (text : α → String)
    (shows : List Char → α → Prop) : Prop where
  /-- A value is read where the text shows it between the blanks at its ends. -/
  ok_iff : ∀ whole value, parse whole = .ok value ↔
    ∃ middle, Blank.IsTrimmed whole.toList middle ∧ shows middle value
  /-- A text that shows no value there is refused, always with the same error. -/
  error_iff : ∀ whole fault, parse whole = .error fault ↔
    fault = .parse ∧ ∀ middle, Blank.IsTrimmed whole.toList middle → ∀ value, ¬ shows middle value
  /-- What is written of a value is read back, also with blanks around it. -/
  parse_padded : ∀ value (front back : String), (∀ c ∈ front.toList, Blank.isBlank c = true) →
    (∀ c ∈ back.toList, Blank.isBlank c = true) →
    parse (front ++ text value ++ back) = .ok value

/-- **From trimmed texts to all**: a reader that trims first, and gives its own texts back, is known
by what it reads of a trimmed text. -/
theorem ReadsShown.of_trimmed {α : Type} {parse : String → Except Error α} {text : α → String}
    {shows : List Char → α → Prop}
    (hok : ∀ whole value, parse whole = .ok value ↔ shows (Blank.trimChars whole.toList) value)
    (herror : ∀ whole fault, parse whole = .error fault → fault = .parse)
    (hback : ∀ value, parse (text value) = .ok value)
    (hblank : ∀ value, ∀ c ∈ (text value).toList, Blank.isBlank c = false) :
    ReadsShown parse text shows where
  ok_iff := by
    intro whole value
    simp only [Blank.isTrimmed_iff, exists_eq_left', hok]
  error_iff := by
    intro whole fault
    simp only [Blank.isTrimmed_iff, forall_eq', ← hok]
    constructor
    · intro h
      exact ⟨herror whole fault h, fun value hvalue => by simp [h] at hvalue⟩
    · rintro ⟨rfl, hnone⟩
      cases hparse : parse whole with
      | ok value => exact absurd hparse (hnone value)
      | error fault => rw [herror whole fault hparse]
  parse_padded := by
    intro value front back hfront hbackBlank
    have hmiddle : Blank.trimChars (front ++ text value ++ back).toList = (text value).toList := by
      refine Blank.trimChars_of_isTrimmed ⟨front.toList, back.toList, ?_, hfront, hbackBlank,
        fun c hc => hblank value c (List.mem_of_mem_head? hc),
        fun c hc => hblank value c (List.mem_of_getLast? hc)⟩
      rw [String.toList_append, String.toList_append]
    have hshows := (hok (text value) value).mp (hback value)
    rw [Blank.trimChars_of_not_blank (hblank value)] at hshows
    rw [hok, hmiddle]
    exact hshows

/-! ### The three readers -/

namespace Version

theorem component?_eq_some_iff {digits : List Char} {byte : UInt8} :
    component? digits = some byte ↔ Decimal.Shows digits byte.toNat := by
  simp only [component?, Option.map_eq_some_iff, Decimal.parse?_eq_some_iff]
  constructor
  · rintro ⟨number, ⟨hshows, hbound⟩, rfl⟩
    rwa [Nat.toUInt8_eq, UInt8.toNat_ofNat_of_lt' (Nat.lt_succ_of_le hbound)]
  · intro h
    refine ⟨byte.toNat, ⟨h, Nat.le_of_lt_succ byte.toNat_lt⟩, ?_⟩
    rw [Nat.toUInt8_eq, UInt8.ofNat_toNat]

theorem parse_eq_ok_iff {text : String} {version : Version} :
    parse text = .ok version ↔ Shows (Blank.trimChars text.toList) version := by
  constructor
  · intro h
    unfold parse at h
    split at h
    · next major minor patch hpieces =>
      split at h
      · next a b c ha hb hc =>
        obtain rfl := Except.ok.inj h
        exact ⟨major, minor, patch, isCut_iff.mpr hpieces.symm, component?_eq_some_iff.mp ha,
          component?_eq_some_iff.mp hb, component?_eq_some_iff.mp hc⟩
      · cases h
    · cases h
  · rintro ⟨major, minor, patch, hcut, hmajor, hminor, hpatch⟩
    rw [parse, ← isCut_iff.mp hcut]
    simp only [component?_eq_some_iff.mpr hmajor, component?_eq_some_iff.mpr hminor,
      component?_eq_some_iff.mpr hpatch]

theorem fault_eq_parse {text : String} {fault : Error}
    (h : parse text = .error fault) : fault = .parse := by
  unfold parse at h
  split at h
  · split at h
    · cases h
    · exact (Except.error.inj h).symm
  · exact (Except.error.inj h).symm

end Version

namespace Serial

theorem parse_eq_ok_iff {text : String} {serial : Serial} :
    parse text = .ok serial ↔ Shows (Blank.trimChars text.toList) serial := by
  have hnumber : parse text = .ok serial ↔
      Decimal.parse? 0xffffffff (Blank.trimChars text.toList) = some serial.number.toNat := by
    unfold parse
    split
    · next number hparse =>
      have hbound := Decimal.le_of_parse? hparse
      rw [hparse, Except.ok.injEq, Option.some.injEq]
      constructor
      · rintro rfl
        exact (UInt32.toNat_ofNat_of_lt' (Nat.lt_succ_of_le hbound)).symm
      · rintro rfl
        rw [Nat.toUInt32_eq, UInt32.ofNat_toNat]
    · next hparse =>
      rw [hparse]
      simp
  rw [hnumber, Decimal.parse?_eq_some_iff]
  exact and_iff_left (Nat.le_of_lt_succ serial.number.toNat_lt)

theorem fault_eq_parse {text : String} {fault : Error}
    (h : parse text = .error fault) : fault = .parse := by
  unfold parse at h
  split at h
  · cases h
  · exact (Except.error.inj h).symm

end Serial

namespace Slot

/-- **What is written of a slot is read back.** -/
theorem parse_text (slot : Slot) : parse slot.text = .ok slot := by
  cases slot <;> rfl

/-- There is no blank in the text of a slot. -/
theorem isBlank_of_mem_text {slot : Slot} {c : Char} (h : c ∈ slot.text.toList) :
    Blank.isBlank c = false := by
  have hone : Slot.one.text.toList = ['1'] := rfl
  have htwo : Slot.two.text.toList = ['2'] := rfl
  cases slot with
  | one =>
    rw [hone, List.mem_singleton] at h
    subst h
    decide
  | two =>
    rw [htwo, List.mem_singleton] at h
    subst h
    decide

theorem parse_eq_ok_iff {text : String} {slot : Slot} :
    parse text = .ok slot ↔ Shows (Blank.trimChars text.toList) slot := by
  unfold parse
  split
  · next h => cases slot <;> simp [Shows, h]
  · next h => cases slot <;> simp [Shows, h]
  · next hone htwo =>
    cases slot with
    | one => exact iff_of_false nofun hone
    | two => exact iff_of_false nofun htwo

theorem fault_eq_parse {text : String} {fault : Error}
    (h : parse text = .error fault) : fault = .parse := by
  unfold parse at h
  split at h
  · cases h
  · cases h
  · exact (Except.error.inj h).symm

end Slot

/-- **Versions, serial numbers and slots are read from the texts that show them**, with any blanks
around them, and from no others; and what is written of a value is read back as that value. -/
theorem readsShown_parse :
    ReadsShown Version.parse Version.text Version.Shows ∧
      ReadsShown Serial.parse Serial.text Serial.Shows ∧
      ReadsShown Slot.parse Slot.text Slot.Shows := by
  refine ⟨?_, ?_, ?_⟩
  · exact .of_trimmed (fun _ _ => Version.parse_eq_ok_iff) (fun _ _ => Version.fault_eq_parse)
      Version.parse_text fun version c hc => Version.isBlank_of_mem_text hc
  · exact .of_trimmed (fun _ _ => Serial.parse_eq_ok_iff) (fun _ _ => Serial.fault_eq_parse)
      Serial.parse_text fun serial c hc =>
        Decimal.isBlank_of_isDigit (Decimal.isDigit_of_mem_toString hc)
  · exact .of_trimmed (fun _ _ => Slot.parse_eq_ok_iff) (fun _ _ => Slot.fault_eq_parse)
      Slot.parse_text fun slot c hc => Slot.isBlank_of_mem_text hc

end TokenConfig
