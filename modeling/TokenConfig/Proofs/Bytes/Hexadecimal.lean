import TokenConfig.Bytes.Hex
import TokenConfig.Proofs.Text.Trimming

/-!
# Hexadecimal text

A byte is spelled by two digits of base 16, in either case of letters, and a byte string is spelled
by the digits of its bytes one behind the other (`TokenConfig.Hex.Spells`). That is what is decoded,
and nothing else (`TokenConfig.Hex.decode_eq_ok_iff`). What is encoded is the spelling in small
letters (`TokenConfig.Hex.spells_encode`).

An argument of the program may have blanks around the digits (`TokenConfig.Hex.Stands`).
-/

namespace TokenConfig

namespace Hex

/-! ### Digits -/

/-- A character is a digit of base 16 for a value, in either case. -/
def IsDigit (value : Nat) (c : Char) : Prop :=
  value < 16 ∧ (c = digit value ∨ c = (digit value).toUpper)

instance (value : Nat) (c : Char) : Decidable (IsDigit value c) :=
  inferInstanceAs (Decidable (_ ∧ _))

/-- Characters that have a value are ASCII. -/
theorem toNat_lt_of_value?_eq_some {c : Char} {value : UInt8} (h : value? c = some value) :
    c.toNat < 128 := by
  have hle : ∀ {bound : Char}, bound.toNat < 128 → c ≤ bound → c.toNat < 128 := by
    intro bound hbound hc
    exact (UInt32.le_iff_toNat_le.mp hc).trans_lt hbound
  unfold value? at h
  split at h
  · next hc => exact hle (by decide) hc.2
  · split at h
    · next hc => exact hle (by decide) hc.2
    · split at h
      · next hc => exact hle (by decide) hc.2
      · cases h

theorem value?_eq_some_iff {c : Char} {value : UInt8} :
    value? c = some value ↔ IsDigit value.toNat c := by
  constructor
  · intro h
    -- only few characters have a value, and each of them is a digit for it
    have hall : ∀ n < 128, ∀ value ∈ value? (Char.ofNat n),
        IsDigit value.toNat (Char.ofNat n) := by decide +kernel
    have hc := hall c.toNat (toNat_lt_of_value?_eq_some h)
    rw [Char.ofNat_toNat] at hc
    exact hc value h
  · rintro ⟨hlt, hc⟩
    have hall : ∀ n < 16, value? (digit n) = some n.toUInt8 ∧
        value? (digit n).toUpper = some n.toUInt8 := by decide
    obtain ⟨hlower, hupper⟩ := hall value.toNat hlt
    rw [Nat.toUInt8_eq, UInt8.ofNat_toNat] at hlower hupper
    rcases hc with rfl | rfl
    · exact hlower
    · exact hupper

theorem IsDigit.value?_eq {value : Nat} {c : Char} (h : IsDigit value c) :
    value? c = some value.toUInt8 := by
  have hvalue : value.toUInt8.toNat = value :=
    UInt8.toNat_ofNat_of_lt' (h.1.trans (by decide))
  rw [value?_eq_some_iff, hvalue]
  exact h

theorem IsDigit.utf8Size_eq {value : Nat} {c : Char} (h : IsDigit value c) : c.utf8Size = 1 := by
  rw [Char.utf8Size_eq_one_iff, UInt32.le_iff_toNat_le]
  exact Nat.le_of_lt_succ (toNat_lt_of_value?_eq_some h.value?_eq)

/-! ### Byte strings -/

/-- Characters spell a byte string: each byte by the digit of its upper half and that of its lower
half. -/
inductive Spells : List Char → Bytes → Prop where
  /-- No characters spell no bytes. -/
  | nil : Spells [] []
  /-- Two digits spell one byte more. -/
  | cons {high low : Char} {chars : List Char} {byte : UInt8} {bytes : Bytes}
    (hhigh : IsDigit (byte.toNat / 16) high) (hlow : IsDigit (byte.toNat % 16) low)
    (hrest : Spells chars bytes) : Spells (high :: low :: chars) (byte :: bytes)

theorem Spells.length_eq {chars : List Char} {bytes : Bytes} (h : Spells chars bytes) :
    chars.length = 2 * bytes.length := by
  induction h with
  | nil => rfl
  | cons hhigh hlow hrest ih =>
    simp only [List.length_cons, ih]
    omega

/-- Digits take a byte of text each. -/
theorem Spells.utf8ByteSize_eq {chars : List Char} {bytes : Bytes} (h : Spells chars bytes) :
    (String.ofList chars).utf8ByteSize = 2 * bytes.length := by
  induction h with
  | nil => rfl
  | @cons high low chars byte bytes hhigh hlow hrest ih =>
    have hsplit : String.ofList (high :: low :: chars) =
        String.singleton high ++ (String.singleton low ++ String.ofList chars) := by
      apply String.toList_inj.mp
      simp
    rw [hsplit, String.utf8ByteSize_append, String.utf8ByteSize_append,
      String.utf8ByteSize_singleton, String.utf8ByteSize_singleton, hhigh.utf8Size_eq,
      hlow.utf8Size_eq, ih, List.length_cons]
    omega

/-- Two characters with values spell the byte of these halves, and no other. -/
theorem spells_cons_iff {high low : Char} {h l : UInt8} (hhigh : value? high = some h)
    (hlow : value? low = some l) {chars : List Char} {bytes : Bytes} :
    Spells (high :: low :: chars) bytes ↔
      ∃ rest, bytes = (16 * h + l) :: rest ∧ Spells chars rest := by
  have hdigit := value?_eq_some_iff.mp hhigh
  have ldigit := value?_eq_some_iff.mp hlow
  have hbyte : (16 * h + l).toNat = 16 * h.toNat + l.toNat := by
    have := hdigit.1
    have := ldigit.1
    simp only [UInt8.toNat_add, UInt8.toNat_mul, UInt8.reduceToNat]
    omega
  constructor
  · rintro (_ | ⟨hhigh', hlow', hrest⟩)
    next byte rest =>
    refine ⟨rest, ?_, hrest⟩
    have hupper := hhigh'.value?_eq.symm.trans hhigh
    have hlower := hlow'.value?_eq.symm.trans hlow
    rw [List.cons.injEq, ← UInt8.toNat_inj, hbyte, ← Option.some.inj hupper,
      ← Option.some.inj hlower]
    refine ⟨?_, rfl⟩
    rw [Nat.toUInt8_eq, Nat.toUInt8_eq, UInt8.toNat_ofNat_of_lt' (hhigh'.1.trans (by decide)),
      UInt8.toNat_ofNat_of_lt' (hlow'.1.trans (by decide))]
    omega
  · rintro ⟨rest, rfl, hrest⟩
    have hupper : (16 * h + l).toNat / 16 = h.toNat := by
      have := ldigit.1
      omega
    have hlower : (16 * h + l).toNat % 16 = l.toNat := by
      have := ldigit.1
      omega
    exact .cons (hupper ▸ hdigit) (hlower ▸ ldigit) hrest

theorem decodePairs_eq_some_iff {done all : Bytes} {chars : List Char} :
    decodePairs done chars = some all ↔
      ∃ bytes, Spells chars bytes ∧ all = done.reverse ++ bytes := by
  fun_induction decodePairs done chars with
  | case1 done high low chars h l hlow hhigh ih =>
    simp only [ih, spells_cons_iff hhigh hlow]
    constructor
    · rintro ⟨bytes, hbytes, rfl⟩
      exact ⟨_, ⟨bytes, rfl, hbytes⟩, by simp⟩
    · rintro ⟨_, ⟨bytes, rfl, hbytes⟩, rfl⟩
      exact ⟨bytes, hbytes, by simp⟩
  | case2 done high low chars hnot =>
    refine iff_of_false (by simp) ?_
    rintro ⟨_, _ | ⟨hhigh, hlow, hrest⟩, rfl⟩
    exact hnot _ _ hhigh.value?_eq hlow.value?_eq
  | case3 done c =>
    refine iff_of_false (by simp) ?_
    rintro ⟨_, ⟨⟩, rfl⟩
  | case4 done =>
    constructor
    · rintro ⟨⟩
      exact ⟨[], .nil, (List.append_nil _).symm⟩
    · rintro ⟨_, ⟨⟩, rfl⟩
      rw [List.append_nil]

/-- **What is decoded** are the spellings of byte strings. -/
theorem decode_eq_ok_iff {text : String} {bytes : Bytes} :
    decode text = .ok bytes ↔ Spells text.toList bytes := by
  have hpairs : decodePairs [] text.toList = some bytes ↔ Spells text.toList bytes := by
    rw [decodePairs_eq_some_iff]
    simp
  rw [← hpairs, decode]
  split
  · next hodd =>
    -- a spelling has an even length
    refine iff_of_false (by simp) fun hsome => ?_
    have hsize := (hpairs.mp hsome).utf8ByteSize_eq
    rw [String.ofList_toList] at hsize
    omega
  · cases decodePairs [] text.toList <;> simp

theorem Spells.unique {chars : List Char} {bytes other : Bytes} (h : Spells chars bytes)
    (hother : Spells chars other) : bytes = other := by
  have hdecode : ∀ {bytes}, Spells chars bytes → decode (String.ofList chars) = .ok bytes :=
    fun h => decode_eq_ok_iff.mpr (String.toList_ofList ▸ h)
  exact Except.ok.inj ((hdecode h).symm.trans (hdecode hother))

/-- A byte is written by its two digits. -/
theorem spells_flatMap_byteDigits (bytes : Bytes) : Spells (bytes.flatMap byteDigits) bytes := by
  induction bytes with
  | nil => exact .nil
  | cons byte bytes ih =>
    have := byte.toNat_lt
    exact .cons ⟨by omega, .inl rfl⟩ ⟨by omega, .inl rfl⟩ ih

/-- **What is encoded** is a spelling, so it is decoded to the same bytes. -/
theorem spells_encode (bytes : Bytes) : Spells (encode bytes).toList bytes := by
  rw [encode, String.toList_ofList]
  exact spells_flatMap_byteDigits bytes

/-- The characters that are written are digits in small letters. -/
theorem mem_encode {bytes : Bytes} {c : Char} (h : c ∈ (encode bytes).toList) :
    ∃ value < 16, c = digit value := by
  rw [encode, String.toList_ofList, List.mem_flatMap] at h
  obtain ⟨byte, -, hc⟩ := h
  have := byte.toNat_lt
  rw [byteDigits, List.mem_cons, List.mem_singleton] at hc
  rcases hc with rfl | rfl
  · exact ⟨_, by omega, rfl⟩
  · exact ⟨_, by omega, rfl⟩

/-! ### Arguments -/

/-- A text stands for a byte string: between the blanks at its ends it spells the bytes. -/
def Stands (text : String) (bytes : Bytes) : Prop :=
  ∃ middle, Blank.IsTrimmed text.toList middle ∧ Spells middle bytes

theorem decode_trim_eq_ok_iff {text : String} {bytes : Bytes} :
    decode (Blank.trim text) = .ok bytes ↔ Stands text bytes := by
  rw [decode_eq_ok_iff, Blank.trim, String.toList_ofList, Stands]
  simp only [Blank.isTrimmed_iff, exists_eq_left']

theorem Stands.unique {text : String} {bytes other : Bytes} (h : Stands text bytes)
    (hother : Stands text other) : bytes = other :=
  Except.ok.inj ((decode_trim_eq_ok_iff.mpr h).symm.trans (decode_trim_eq_ok_iff.mpr hother))

end Hex

end TokenConfig
