import TokenConfig.Proofs.Bytes.Digits
import TokenConfig.Proofs.Tlv.Stream

/-!
# Writing tagged values

Writing puts down the number of the tag, the length and the value (`TokenConfig.Tlv.bytes`). It does
not look at the tag, while reading finds the end of a tag in its bits, so writing and reading agree
on some tags only.

* The bytes written for a tag are its numeral (`TokenConfig.Tlv.isNumeral_tagBytes`). The byte
  strings that are tags are numerals too (`TokenConfig.Tlv.IsTag.isNumeral`), so a tag that was read
  is written as it was (`TokenConfig.Tlv.IsTag.tagBytes_toWord`).
* Where the numeral of the tag is a tag, and the value is not too long
  (`TokenConfig.Tlv.Writable`), an encoding is written, the one with the shortest length
  (`TokenConfig.Tlv.shortest`). It is read back, alone and in a sequence
  (`TokenConfig.Tlv.parse?_bytes_append`, `TokenConfig.Tlv.decode?_flatMap_bytes`).
* No bytes at all are read to have a tag whose numeral is none
  (`TokenConfig.Tlv.isTag_tagBytes_of_parse?`).

So a tagged value is read back from behind its own bytes exactly if the numeral of its tag is a tag
(`TokenConfig.Tlv.write_parse_roundTrip`).
-/

namespace TokenConfig

namespace Tlv

/-! ### Tags -/

/-- **What is written for a tag**: its number without leading zeros. -/
theorem isNumeral_tagBytes (tag : UInt32) : Bytes.IsNumeral (tagBytes tag) tag.toNat := by
  have hnumber : Bytes.toNat ([(tag >>> 24).toUInt8, (tag >>> 16).toUInt8, (tag >>> 8).toUInt8] ++
      [tag.toUInt8]) = tag.toNat := by
    have htag := tag.toNat_lt
    simp only [List.cons_append, List.nil_append, Bytes.toNat, List.foldl_cons, List.foldl_nil,
      UInt32.toNat_toUInt8, UInt32.toNat_shiftRight, Nat.shiftRight_eq_div_pow, UInt32.reduceToNat,
      Nat.reduceMod, Nat.reducePow]
    omega
  rw [tagBytes, ← hnumber]
  exact Bytes.isNumeral_dropWhile _ _

theorem length_tagBytes_le (tag : UInt32) : (tagBytes tag).length ≤ 4 := by
  have hdigits : (Bytes.digits 4 tag.toNat).toNat = tag.toNat :=
    Bytes.toNat_digits_of_lt tag.toNat_lt
  have hle := (isNumeral_tagBytes tag).length_le hdigits (by simp)
  rwa [Bytes.length_digits] at hle

theorem toWord_tagBytes (tag : UInt32) : (tagBytes tag).toWord = tag := by
  apply UInt32.toNat_inj.mp
  rw [Bytes.toNat_toWord_of_length_le (length_tagBytes_le tag), (isNumeral_tagBytes tag).toNat_eq]

/-- A tag has no leading zero: of several bytes the first has some bits set. -/
theorem IsTag.isNumeral {front : Bytes} (h : IsTag front) :
    Bytes.IsNumeral front front.toNat := by
  refine ⟨rfl, h.length_pos, fun hzero => ?_⟩
  cases h with
  | short first hfirst => rfl
  | long first middle last hfirst hmiddle hlast hlength =>
    rw [Option.some.inj hzero] at hfirst
    exact absurd hfirst (by decide)

/-- **A tag that was read is written as it was.** -/
theorem IsTag.tagBytes_toWord {front : Bytes} (h : IsTag front) :
    tagBytes front.toWord = front := by
  refine (isNumeral_tagBytes front.toWord).unique ?_
  rw [Bytes.toNat_toWord_of_length_le h.length_le]
  exact h.isNumeral

/-! ### Lengths -/

/-- **What is written for a length** stands for it. -/
theorem isLength_lengthBytes {length : Nat} (h : length ≤ maxLength) :
    IsLength (lengthBytes length) length := by
  have hmax : maxLength = 0x00ffffff := rfl
  -- each of the longer forms is a marker and the digits that it counts
  have hlong : ∀ (marker : UInt8) (digits : Bytes), marker.toNat = 0x80 + digits.length →
      1 ≤ digits.length → digits.length ≤ 3 → digits.toNat = length →
      IsLength (marker :: digits) length := by
    rintro marker digits hmarker hpos hle rfl
    exact .long marker digits hmarker hpos hle
  unfold lengthBytes
  split
  · next hshort =>
    have hbyte : length.toUInt8.toNat = length :=
      UInt8.toNat_ofNat_of_lt' (hshort.trans_lt (by decide))
    have := IsLength.short length.toUInt8 (by omega)
    rwa [hbyte] at this
  · split
    · exact hlong _ _ rfl (by simp) (by simp) (by simp [Bytes.toNat]; omega)
    · split
      · exact hlong _ _ rfl (by simp) (by simp) (by simp [Bytes.toNat]; omega)
      · exact hlong _ _ rfl (by simp) (by simp) (by simp [Bytes.toNat]; omega)

/-! ### Tagged values -/

/-- The bytes of a tagged value: the numeral of the tag, the shortest length, the value. -/
def bytes (tlv : Tlv) : Bytes :=
  tagBytes tlv.tag ++ lengthBytes tlv.value.length ++ tlv.value

theorem encode_of_length_le {tlv : Tlv} (h : tlv.value.length ≤ maxLength) :
    tlv.encode = .ok tlv.bytes :=
  if_pos h

/-- A tagged value whose bytes are an encoding. -/
structure Writable (tlv : Tlv) : Prop where
  /-- The numeral of the tag is a tag. -/
  isTag : IsTag (tagBytes tlv.tag)
  /-- There is a form of the length. -/
  length_le : tlv.value.length ≤ maxLength

/-- The encoding of a tagged value that has the shortest length. -/
def shortest (tlv : Tlv) (h : tlv.Writable) : Encoding :=
  ⟨tagBytes tlv.tag, lengthBytes tlv.value.length, tlv.value, h.isTag,
    isLength_lengthBytes h.length_le⟩

theorem bytes_shortest (tlv : Tlv) (h : tlv.Writable) : (tlv.shortest h).bytes = tlv.bytes := rfl

@[simp] theorem tlv_shortest (tlv : Tlv) (h : tlv.Writable) : (tlv.shortest h).tlv = tlv := by
  rw [Encoding.tlv, Encoding.tag, shortest, toWord_tagBytes]

/-! ### Reading what was written -/

/-- **What was written is read back**, whatever follows it. -/
theorem parse?_bytes_append {tlv : Tlv} (h : tlv.Writable) (rest : Bytes) :
    parse? (tlv.bytes ++ rest) = some (tlv, rest) := by
  rw [← bytes_shortest tlv h, Encoding.parse?_append, tlv_shortest]

/-- Tagged values written one behind the other are encodings one behind the other. -/
theorem exists_concat_eq_flatMap_bytes {tlvs : List Tlv} (h : ∀ tlv ∈ tlvs, tlv.Writable) :
    ∃ encodings, Encoding.concat encodings = tlvs.flatMap bytes ∧
      encodings.map (·.tlv) = tlvs := by
  induction tlvs with
  | nil => exact ⟨[], rfl, rfl⟩
  | cons tlv tlvs ih =>
    obtain ⟨hfirst, hrest⟩ := List.forall_mem_cons.mp h
    obtain ⟨encodings, hbytes, htlvs⟩ := ih hrest
    refine ⟨tlv.shortest hfirst :: encodings, ?_, ?_⟩
    · rw [Encoding.concat_cons, bytes_shortest, hbytes, List.flatMap_cons]
    · rw [List.map_cons, tlv_shortest, htlvs]

/-- **A sequence that was written is read back.** -/
theorem decode?_flatMap_bytes {tlvs : List Tlv} (h : ∀ tlv ∈ tlvs, tlv.Writable) :
    decode? (tlvs.flatMap bytes) = some tlvs := by
  obtain ⟨encodings, hbytes, htlvs⟩ := exists_concat_eq_flatMap_bytes h
  exact decode?_eq_some_iff.mpr ⟨encodings, hbytes.symm, htlvs⟩

/-- **What is read has a tag that can be written**, whatever bytes it is read from. -/
theorem isTag_tagBytes_of_parse? {bytes rest : Bytes} {tlv : Tlv}
    (h : parse? bytes = some (tlv, rest)) : IsTag (tagBytes tlv.tag) := by
  obtain ⟨encoding, -, rfl⟩ := parse?_eq_some_iff.mp h
  rw [Encoding.tlv, Encoding.tag, encoding.isTag.tagBytes_toWord]
  exact encoding.isTag

theorem parse_eq_ok_iff {bytes rest : Bytes} {tlv : Tlv} :
    parse bytes = .ok (tlv, rest) ↔ parse? bytes = some (tlv, rest) := by
  rw [parse]
  cases parse? bytes <;> simp

/-- **Which tagged values are read back.** A value is refused if it is longer than `0x00ffffff`
bytes, and nothing is written then. Otherwise the numeral of the tag, a form of the length and the
value are written, whatever the buffer holds. Whatever follows them, they are read back as what was
written exactly if the numeral of the tag is a tag; if it is none, no tagged value with this tag is
ever read from them. -/
theorem write_parse_roundTrip (tag : UInt32) (value : Bytes) :
    (∀ buffer fault, (write buffer ⟨tag, value⟩).1 = .error fault ↔
      0x00ffffff < value.length ∧ fault = .size) ∧
    (0x00ffffff < value.length → ∀ buffer, (write buffer ⟨tag, value⟩).2 = buffer) ∧
    (value.length ≤ 0x00ffffff → ∃ numeral length bytes, Bytes.IsNumeral numeral tag.toNat ∧
      IsLength length value.length ∧ bytes = numeral ++ length ++ value ∧
      (∀ buffer, write buffer ⟨tag, value⟩ = (.ok bytes.length, buffer ++ bytes)) ∧
      (∀ rest, parse (bytes ++ rest) = .ok (⟨tag, value⟩, rest) ↔ IsTag numeral) ∧
      (¬ IsTag numeral → ∀ rest read after, parse (bytes ++ rest) = .ok (read, after) →
        read.tag ≠ tag)) := by
  have hmax : maxLength = 0x00ffffff := rfl
  refine ⟨fun buffer fault => ?_, fun hlong buffer => ?_, fun hlength => ?_⟩
  · unfold write encode
    by_cases hlength : value.length ≤ maxLength
    · simp [hlength, show ¬ 0x00ffffff < value.length by omega]
    · simp [hlength, show 0x00ffffff < value.length by omega, eq_comm]
  · rw [write, encode, if_neg (by simpa [hmax] using hlong)]
  · have hle : value.length ≤ maxLength := by rw [hmax]; exact hlength
    have hread : ∀ {bytes rest : Bytes} {read : Tlv}, parse bytes = .ok (read, rest) →
        IsTag (tagBytes read.tag) := fun h => isTag_tagBytes_of_parse? (parse_eq_ok_iff.mp h)
    refine ⟨tagBytes tag, lengthBytes value.length, _, isNumeral_tagBytes tag,
      isLength_lengthBytes hle, rfl, fun buffer => ?_, fun rest => ⟨hread, fun htag => ?_⟩, ?_⟩
    · rw [write, encode_of_length_le hle]
      rfl
    · have hwritable : Writable ⟨tag, value⟩ := ⟨htag, hle⟩
      exact parse_eq_ok_iff.mpr (parse?_bytes_append hwritable rest)
    · rintro htag rest read after h rfl
      exact htag (hread h)

end Tlv

end TokenConfig
