import TokenConfig.Proofs.Bytes.Number
import TokenConfig.Tlv

/-!
# The written forms of a tagged value

A tagged value is written as a tag, a length and the bytes of the value. Which byte strings are tags
and which are lengths is said here without the functions that read them
(`TokenConfig.Tlv.IsTag`, `TokenConfig.Tlv.IsLength`); a length has several forms, of which the
shortest is but one. A `TokenConfig.Tlv.Encoding` is a choice of the three parts.

Reading accepts the encodings and nothing else, whatever follows them
(`TokenConfig.Tlv.parse?_eq_some_iff`), so the parts can be told from the bytes
(`TokenConfig.Tlv.Encoding.append_inj`): no encoding begins another one.
-/

namespace TokenConfig

namespace Tlv

/-! ### Tags and lengths -/

/-- The byte strings that are tags. -/
inductive IsTag : Bytes → Prop
  /-- One byte whose low five bits are not all set. -/
  | short (first : UInt8) (hfirst : first &&& 0x1f ≠ 0x1f) : IsTag [first]
  /-- A byte whose low five bits are all set, and one to three bytes of which exactly the last has
  its high bit clear. -/
  | long (first : UInt8) (middle : Bytes) (last : UInt8) (hfirst : first &&& 0x1f = 0x1f)
      (hmiddle : ∀ byte ∈ middle, byte &&& 0x80 ≠ 0) (hlast : last &&& 0x80 = 0)
      (hlength : middle.length ≤ 2) : IsTag (first :: (middle ++ [last]))

/-- The byte strings that stand for a length. -/
inductive IsLength : Bytes → Nat → Prop
  /-- One byte up to `0x7f`. -/
  | short (byte : UInt8) (hbyte : byte.toNat ≤ 0x7f) : IsLength [byte] byte.toNat
  /-- A byte that counts one to three others, and the digits of the length to the base 256, with
  leading zeros or without. -/
  | long (marker : UInt8) (digits : Bytes) (hmarker : marker.toNat = 0x80 + digits.length)
      (hpos : 1 ≤ digits.length) (hle : digits.length ≤ 3) :
      IsLength (marker :: digits) digits.toNat

/-- One way to write a tagged value. -/
structure Encoding where
  /-- The bytes of the tag. -/
  tagBytes : Bytes
  /-- The bytes of the length. -/
  lengthBytes : Bytes
  /-- The bytes of the value. -/
  value : Bytes
  /-- The tag is one. -/
  isTag : IsTag tagBytes
  /-- The length is that of the value. -/
  isLength : IsLength lengthBytes value.length

namespace Encoding

/-- The bytes of an encoding. -/
def bytes (encoding : Encoding) : Bytes :=
  encoding.tagBytes ++ encoding.lengthBytes ++ encoding.value

/-- The tag of an encoding, its bytes as one number. -/
def tag (encoding : Encoding) : UInt32 :=
  encoding.tagBytes.toWord

/-- What an encoding is read as. -/
def tlv (encoding : Encoding) : Tlv :=
  ⟨encoding.tag, encoding.value⟩

end Encoding

theorem IsTag.length_pos {front : Bytes} (h : IsTag front) : 1 ≤ front.length := by
  cases h <;> simp

theorem IsTag.length_le {front : Bytes} (h : IsTag front) : front.length ≤ 4 := by
  cases h with
  | short first hfirst => simp
  | long first middle last hfirst hmiddle hlast hlength =>
    simp only [List.length_cons, List.length_append, List.length_nil]
    omega

theorem IsLength.length_pos {front : Bytes} {length : Nat} (h : IsLength front length) :
    1 ≤ front.length := by
  cases h <;> simp

/-! ### Reading a tag -/

/-- A tag that begins with a byte other than zero leaves room exactly as long as it has fewer than
four bytes. -/
theorem extensible_lt_toWord_iff {first : UInt8} {more : Bytes} (hfirst : first ≠ 0)
    (hmore : more.length ≤ 3) :
    extensible < Bytes.toWord (first :: more) ↔ more.length = 3 := by
  have hpos : 0 < first.toNat := by
    refine Nat.pos_of_ne_zero fun hzero => hfirst ?_
    exact UInt8.toNat_inj.mp hzero
  have hbyte := first.toNat_lt
  have hlt := Bytes.toNat_lt more
  have hfour : (first :: more).length ≤ 4 := Nat.succ_le_succ hmore
  rw [UInt32.lt_iff_toNat_lt, Bytes.toNat_toWord_of_length_le hfour, Bytes.toNat_cons,
    show extensible.toNat = 256 ^ 3 - 1 from rfl]
  constructor
  · intro hroom
    by_contra hne
    have hpow : 256 ^ more.length ≤ 256 ^ 2 := Nat.pow_le_pow_right (by decide) (by omega)
    have hmul : first.toNat * 256 ^ more.length ≤ 255 * 256 ^ 2 :=
      Nat.mul_le_mul (by omega) hpow
    omega
  · intro hthree
    rw [hthree]
    omega

/-- **The rest of a tag**, when its first byte and some others have been read already. -/
theorem parseTagFrom_eq_some_iff {first : UInt8} (hfirst : first ≠ 0) {more bytes rest : Bytes}
    {tag : UInt32} (hmore : more.length ≤ 3) :
    parseTagFrom (Bytes.toWord (first :: more)) bytes = some (tag, rest) ↔
      ∃ middle last, bytes = middle ++ last :: rest ∧ (∀ byte ∈ middle, byte &&& 0x80 ≠ 0) ∧
        last &&& 0x80 = 0 ∧ more.length + middle.length ≤ 2 ∧
        Bytes.toWord (first :: (more ++ (middle ++ [last]))) = tag := by
  -- what was read is the word of `first :: more`, so `more` grows by a byte with every round
  induction bytes generalizing more with
  | nil => simp [parseTagFrom]
  | cons byte bytes ih =>
    rw [parseTagFrom]
    by_cases hfull : more.length = 3
    · rw [if_pos ((extensible_lt_toWord_iff hfirst hmore).mpr hfull)]
      constructor
      · intro h
        cases h
      · rintro ⟨middle, last, -, -, -, hlength, -⟩
        omega
    · rw [if_neg (mt (extensible_lt_toWord_iff hfirst hmore).mp hfull)]
      have hlonger : Bytes.toWord (first :: more) <<< 8 ||| byte.toUInt32 =
          Bytes.toWord (first :: (more ++ [byte])) :=
        (Bytes.toWord_append_singleton (first :: more) byte).symm
      simp only [hlonger]
      by_cases hlast : byte &&& 0x80 = 0
      · rw [if_pos (by rw [isLast, beq_iff_eq, hlast])]
        constructor
        · rintro ⟨⟩
          exact ⟨[], byte, rfl, by simp, hlast, by simp; omega, rfl⟩
        · rintro ⟨middle, last, hbytes, hmiddle, -, -, rfl⟩
          cases middle with
          | nil =>
            obtain ⟨rfl, rfl⟩ := List.cons.inj hbytes
            rfl
          | cons head middle =>
            obtain ⟨rfl, -⟩ := List.cons.inj hbytes
            exact absurd hlast (hmiddle _ List.mem_cons_self)
      · rw [if_neg (by rw [isLast, beq_iff_eq]; exact hlast),
          ih (by rw [List.length_append, List.length_singleton]; omega)]
        constructor
        · rintro ⟨middle, last, rfl, hmiddle, hclear, hlength, rfl⟩
          refine ⟨byte :: middle, last, rfl, ?_, hclear, ?_, by simp⟩
          · exact List.forall_mem_cons.mpr ⟨hlast, hmiddle⟩
          · rw [List.length_append, List.length_singleton] at hlength
            rw [List.length_cons]
            omega
        · rintro ⟨middle, last, hbytes, hmiddle, hclear, hlength, rfl⟩
          cases middle with
          | nil =>
            obtain ⟨rfl, -⟩ := List.cons.inj hbytes
            exact absurd hclear hlast
          | cons head middle =>
            obtain ⟨rfl, rfl⟩ := List.cons.inj hbytes
            refine ⟨middle, last, rfl, (List.forall_mem_cons.mp hmiddle).2, hclear, ?_, by simp⟩
            rw [List.length_cons] at hlength
            rw [List.length_append, List.length_singleton]
            omega

/-- **Reading a tag**: the tags are what is read, as their number. -/
theorem parseTag_eq_some_iff {tag : UInt32} {bytes rest : Bytes} :
    parseTag bytes = some (tag, rest) ↔
      ∃ front, IsTag front ∧ bytes = front ++ rest ∧ Bytes.toWord front = tag := by
  have hword : ∀ byte : UInt8, Bytes.toWord [byte] = byte.toUInt32 := fun byte => by
    simp [Bytes.toWord]
  cases bytes with
  | nil =>
    constructor
    · intro h
      cases h
    · rintro ⟨front, hfront, hbytes, -⟩
      have hpos := hfront.length_pos
      rw [(List.append_eq_nil_iff.mp hbytes.symm).1] at hpos
      cases hpos
  | cons first bytes =>
    rw [parseTag]
    by_cases hmore : first &&& 0x1f = 0x1f
    · have hfirst : first ≠ 0 := by
        rintro rfl
        exact absurd hmore (by decide)
      rw [if_pos (by rw [continues, beq_iff_eq, hmore]), ← hword,
        parseTagFrom_eq_some_iff hfirst (by simp)]
      constructor
      · rintro ⟨middle, last, rfl, hmiddle, hlast, hlength, rfl⟩
        rw [List.length_nil, Nat.zero_add] at hlength
        exact ⟨_, .long first middle last hmore hmiddle hlast hlength, by simp, rfl⟩
      · rintro ⟨front, hfront, hbytes, rfl⟩
        cases hfront with
        | short head hhead =>
          obtain ⟨rfl, -⟩ := List.cons.inj hbytes
          exact absurd hmore hhead
        | long head middle last hhead hmiddle hlast hlength =>
          obtain ⟨rfl, rfl⟩ := List.cons.inj hbytes
          exact ⟨middle, last, by simp, hmiddle, hlast, by simpa using hlength, rfl⟩
    · rw [if_neg (by rw [continues, beq_iff_eq]; exact hmore)]
      constructor
      · rintro ⟨⟩
        exact ⟨[first], .short first hmore, rfl, hword first⟩
      · rintro ⟨front, hfront, hbytes, rfl⟩
        cases hfront with
        | short head hhead =>
          obtain ⟨rfl, rfl⟩ := List.cons.inj hbytes
          rw [hword]
        | long head middle last hhead hmiddle hlast hlength =>
          obtain ⟨rfl, -⟩ := List.cons.inj hbytes
          exact absurd hhead hmore

/-- No tag begins another one. -/
theorem IsTag.append_inj {a b rest rest' : Bytes} (ha : IsTag a) (hb : IsTag b)
    (h : a ++ rest = b ++ rest') : a = b ∧ rest = rest' := by
  have hreadA : parseTag (a ++ rest) = some (a.toWord, rest) :=
    parseTag_eq_some_iff.mpr ⟨a, ha, rfl, rfl⟩
  have hreadB : parseTag (a ++ rest) = some (b.toWord, rest') :=
    parseTag_eq_some_iff.mpr ⟨b, hb, h, rfl⟩
  -- equal numbers would not make the tags equal, but what is left over does
  obtain rfl : rest = rest' := (Prod.mk.inj (Option.some.inj (hreadA.symm.trans hreadB))).2
  exact ⟨List.append_cancel_right h, rfl⟩

/-! ### Reading a length -/

/-- **Reading a length**: every form of it is read. -/
theorem parseLength_eq_some_iff {length : Nat} {bytes rest : Bytes} :
    parseLength bytes = some (length, rest) ↔
      ∃ front, IsLength front length ∧ bytes = front ++ rest := by
  cases bytes with
  | nil =>
    constructor
    · intro h
      cases h
    · rintro ⟨front, hfront, hbytes⟩
      have hpos := hfront.length_pos
      rw [(List.append_eq_nil_iff.mp hbytes.symm).1] at hpos
      cases hpos
  | cons first bytes =>
    -- the three branches on the first byte, said of numbers
    have hshort : first ≤ 0x7f ↔ first.toNat ≤ 0x7f := UInt8.le_iff_toNat_le
    have hlong : (0x81 ≤ first ∧ first ≤ 0x83) ↔ (0x81 ≤ first.toNat ∧ first.toNat ≤ 0x83) := by
      rw [UInt8.le_iff_toNat_le, UInt8.le_iff_toNat_le]
      rfl
    simp only [parseLength, hshort, hlong]
    constructor
    · intro h
      split at h
      · next hle =>
        cases h
        exact ⟨[first], .short first hle, rfl⟩
      · split at h
        · next hmarker =>
          obtain ⟨⟨digits, after⟩, hsplit, hpair⟩ := Option.map_eq_some_iff.mp h
          obtain ⟨rfl, hdigits⟩ := Bytes.split?_eq_some_iff.mp hsplit
          obtain ⟨rfl, rfl⟩ := Prod.mk.inj hpair
          exact ⟨first :: digits, .long first digits (by omega) (by omega) (by omega), rfl⟩
        · cases h
    · rintro ⟨front, hfront, hbytes⟩
      cases hfront with
      | short byte hbyte =>
        obtain ⟨rfl, rfl⟩ := List.cons.inj hbytes
        rw [if_pos hbyte]
      | long marker digits hmarker hpos hle =>
        obtain ⟨rfl, rfl⟩ := List.cons.inj hbytes
        have hsplit : Bytes.split? (first.toNat - 0x80) (digits ++ rest) = some (digits, rest) :=
          Bytes.split?_eq_some_iff.mpr ⟨rfl, by omega⟩
        rw [if_neg (by omega), if_pos (by omega), List.append_eq, hsplit, Option.map_some]

/-- No form of a length begins another one. -/
theorem IsLength.append_inj {a b rest rest' : Bytes} {lengthA lengthB : Nat}
    (ha : IsLength a lengthA) (hb : IsLength b lengthB) (h : a ++ rest = b ++ rest') :
    a = b ∧ lengthA = lengthB ∧ rest = rest' := by
  have hreadA : parseLength (a ++ rest) = some (lengthA, rest) :=
    parseLength_eq_some_iff.mpr ⟨a, ha, rfl⟩
  have hreadB : parseLength (a ++ rest) = some (lengthB, rest') :=
    parseLength_eq_some_iff.mpr ⟨b, hb, h⟩
  obtain ⟨rfl, rfl⟩ := Prod.mk.inj (Option.some.inj (hreadA.symm.trans hreadB))
  exact ⟨List.append_cancel_right h, rfl, rfl⟩

/-! ### Reading a tagged value -/

/-- **Reading a tagged value**: what is read is an encoding, whatever follows it, and every encoding
is read. -/
theorem parse?_eq_some_iff {tlv : Tlv} {bytes rest : Bytes} :
    parse? bytes = some (tlv, rest) ↔
      ∃ encoding : Encoding, bytes = encoding.bytes ++ rest ∧ encoding.tlv = tlv := by
  constructor
  · intro h
    unfold parse? at h
    split at h
    · cases h
    · next tag afterTag htag =>
      split at h
      · cases h
      · next length afterLength hlength =>
        split at h
        · cases h
        · next value after hvalue =>
          cases h
          obtain ⟨front, hfront, rfl, rfl⟩ := parseTag_eq_some_iff.mp htag
          obtain ⟨middle, hmiddle, rfl⟩ := parseLength_eq_some_iff.mp hlength
          obtain ⟨rfl, rfl⟩ := Bytes.split?_eq_some_iff.mp hvalue
          exact ⟨⟨front, middle, value, hfront, hmiddle⟩, by simp [Encoding.bytes], rfl⟩
  · rintro ⟨⟨front, middle, value, hfront, hmiddle⟩, rfl, rfl⟩
    have htag : parseTag (front ++ (middle ++ (value ++ rest))) =
        some (front.toWord, middle ++ (value ++ rest)) :=
      parseTag_eq_some_iff.mpr ⟨front, hfront, rfl, rfl⟩
    have hlength : parseLength (middle ++ (value ++ rest)) = some (value.length, value ++ rest) :=
      parseLength_eq_some_iff.mpr ⟨middle, hmiddle, rfl⟩
    have hvalue : Bytes.split? value.length (value ++ rest) = some (value, rest) :=
      Bytes.split?_eq_some_iff.mpr ⟨rfl, rfl⟩
    simp only [Encoding.bytes, List.append_assoc, parse?, htag, hlength, hvalue]
    rfl

namespace Encoding

/-- An encoding is read off the front of any bytes. -/
theorem parse?_append (encoding : Encoding) (rest : Bytes) :
    parse? (encoding.bytes ++ rest) = some (encoding.tlv, rest) :=
  parse?_eq_some_iff.mpr ⟨encoding, rfl, rfl⟩

/-- **No bit of a tag is lost**: a tag has four bytes at most. -/
theorem toNat_tag (encoding : Encoding) : encoding.tag.toNat = encoding.tagBytes.toNat :=
  Bytes.toNat_toWord_of_length_le encoding.isTag.length_le

/-- An encoding has at least a byte of tag and a byte of length. -/
theorem two_le_length (encoding : Encoding) : 2 ≤ encoding.bytes.length := by
  have htag := encoding.isTag.length_pos
  have hlength := encoding.isLength.length_pos
  simp only [bytes, List.length_append]
  omega

/-- **No encoding begins another one**: where two encodings begin the same bytes they are the same,
part by part. -/
theorem append_inj {a b : Encoding} {rest rest' : Bytes}
    (h : a.bytes ++ rest = b.bytes ++ rest') : a = b ∧ rest = rest' := by
  obtain ⟨tagA, lengthA, valueA, isTagA, isLengthA⟩ := a
  obtain ⟨tagB, lengthB, valueB, isTagB, isLengthB⟩ := b
  simp only [bytes, List.append_assoc] at h
  obtain ⟨rfl, hafterTag⟩ := isTagA.append_inj isTagB h
  obtain ⟨rfl, hcount, hafterLength⟩ := isLengthA.append_inj isLengthB hafterTag
  obtain ⟨rfl, rfl⟩ := List.append_inj hafterLength hcount
  exact ⟨rfl, rfl⟩

end Encoding

end Tlv

end TokenConfig
