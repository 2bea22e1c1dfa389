import TokenConfig.Proofs.Tlv.Written

/-!
# The shortest form of a length

A length has several forms, and every one of them is read, so reading a tagged value and writing it
again need not give the bytes that were there. The tag comes out the same
(`TokenConfig.Tlv.IsTag.tagBytes_toWord`), and of the length the form that is written is the
shortest one (`TokenConfig.Tlv.length_lengthBytes_le`). Forms of a length that take as many bytes
are the same (`TokenConfig.Tlv.IsLength.eq_of_length_eq`), so there is one shortest form only
(`TokenConfig.Tlv.isShortest_iff`). Hence what is written is no longer than what was read, is the
same if the length was as short as it can be, and is read as the same in any case
(`TokenConfig.Tlv.write_of_parse`).
-/

namespace TokenConfig

namespace Tlv

/-! ### The forms of a length -/

/-- The forms of a length, told apart by how they begin. -/
theorem isLength_iff {front : Bytes} {length : Nat} :
    IsLength front length ↔
      (∃ byte : UInt8, front = [byte] ∧ length = byte.toNat ∧ length ≤ 0x7f) ∨
        ∃ (marker : UInt8) (digits : Bytes), front = marker :: digits ∧ length = digits.toNat ∧
          marker.toNat = 0x80 + digits.length ∧ 1 ≤ digits.length ∧ digits.length ≤ 3 := by
  constructor
  · rintro (⟨byte, hbyte⟩ | ⟨marker, digits, hmarker, hpos, hle⟩)
    · exact .inl ⟨byte, rfl, rfl, hbyte⟩
    · exact .inr ⟨marker, digits, rfl, rfl, hmarker, hpos, hle⟩
  · rintro (⟨byte, rfl, rfl, hbyte⟩ | ⟨marker, digits, rfl, rfl, hmarker, hpos, hle⟩)
    · exact .short byte hbyte
    · exact .long marker digits hmarker hpos hle

/-- A length that has a form is not too long to be written. -/
theorem IsLength.le_maxLength {front : Bytes} {length : Nat} (h : IsLength front length) :
    length ≤ maxLength := by
  have hmax : maxLength = 256 ^ 3 - 1 := rfl
  rcases isLength_iff.mp h with ⟨byte, -, -, hle⟩ | ⟨marker, digits, -, rfl, -, -, hle⟩
  · omega
  · have hlt := Bytes.toNat_lt digits
    have hpow : 256 ^ digits.length ≤ 256 ^ 3 := Nat.pow_le_pow_right (by decide) hle
    omega

/-- **Forms that take as many bytes are the same.** -/
theorem IsLength.eq_of_length_eq {a b : Bytes} {length : Nat} (ha : IsLength a length)
    (hb : IsLength b length) (h : a.length = b.length) : a = b := by
  rcases isLength_iff.mp ha with
    ⟨byte, rfl, hbyte, -⟩ | ⟨marker, digits, rfl, hdigits, hmarker, hpos, -⟩
  · rcases isLength_iff.mp hb with ⟨other, rfl, hother, -⟩ | ⟨_, others, rfl, -, -, hpos, -⟩
    · rw [UInt8.toNat_inj.mp (hbyte.symm.trans hother)]
    · simp only [List.length_cons, List.length_nil] at h
      omega
  · rcases isLength_iff.mp hb with
      ⟨_, rfl, -⟩ | ⟨otherMarker, others, rfl, hothers, hotherMarker, -, -⟩
    · simp only [List.length_cons, List.length_nil] at h
      omega
    · have hcount : digits.length = others.length := Nat.succ.inj h
      rw [Bytes.eq_of_toNat_eq hcount (hdigits.symm.trans hothers),
        UInt8.toNat_inj.mp (show marker.toNat = otherMarker.toNat by omega)]

/-- **No form is shorter than the one that is written.** -/
theorem length_lengthBytes_le {front : Bytes} {length : Nat} (h : IsLength front length) :
    (lengthBytes length).length ≤ front.length := by
  rcases isLength_iff.mp h with ⟨byte, rfl, -, hle⟩ | ⟨marker, digits, rfl, rfl, -, hpos, hle⟩
  · rw [lengthBytes, if_pos hle]
    rfl
  · -- a number with one digit is not written with two, and so on
    have hlt := Bytes.toNat_lt digits
    rw [List.length_cons]
    rcases (by omega : digits.length = 1 ∨ digits.length = 2 ∨ digits.length = 3) with
      hcount | hcount | hcount <;>
      rw [hcount] at hlt ⊢ <;>
      unfold lengthBytes <;>
      split_ifs <;>
      simp only [List.length_cons, List.length_nil] <;>
      omega

/-- A form of a length, and none is shorter. -/
structure IsShortest (front : Bytes) (length : Nat) : Prop where
  /-- The bytes are a form of the length. -/
  isLength : IsLength front length
  /-- Every other form takes as many bytes or more. -/
  length_le : ∀ other, IsLength other length → front.length ≤ other.length

/-- **There is one shortest form**, the one that is written. -/
theorem isShortest_iff {front : Bytes} {length : Nat} (h : IsLength front length) :
    IsShortest front length ↔ lengthBytes length = front := by
  have hwritten : IsLength (lengthBytes length) length := isLength_lengthBytes h.le_maxLength
  constructor
  · intro hshortest
    exact hwritten.eq_of_length_eq h
      (Nat.le_antisymm (length_lengthBytes_le h) (hshortest.length_le _ hwritten))
  · rintro rfl
    exact ⟨h, fun other hother => length_lengthBytes_le hother⟩

/-! ### Writing what was read -/

namespace Encoding

/-- What is read of an encoding can be written. -/
theorem writable_tlv (encoding : Encoding) : encoding.tlv.Writable where
  isTag := by
    rw [tlv, tag, encoding.isTag.tagBytes_toWord]
    exact encoding.isTag
  length_le := encoding.isLength.le_maxLength

/-- The encoding that is written for what is read of this one. -/
def rewritten (encoding : Encoding) : Encoding :=
  encoding.tlv.shortest encoding.writable_tlv

/-- The tag is written as it was. -/
theorem tagBytes_rewritten (encoding : Encoding) :
    encoding.rewritten.tagBytes = encoding.tagBytes :=
  encoding.isTag.tagBytes_toWord

theorem bytes_rewritten (encoding : Encoding) :
    encoding.rewritten.bytes =
      encoding.tagBytes ++ Tlv.lengthBytes encoding.value.length ++ encoding.value :=
  congrArg (· ++ _ ++ _) encoding.tagBytes_rewritten

/-- **Nothing gets longer.** -/
theorem length_bytes_rewritten_le (encoding : Encoding) :
    encoding.rewritten.bytes.length ≤ encoding.bytes.length := by
  have hlength := length_lengthBytes_le encoding.isLength
  rw [bytes_rewritten, bytes]
  simp only [List.length_append]
  omega

/-- **What stays as it was** are the encodings with the shortest length. -/
theorem bytes_rewritten_eq_iff (encoding : Encoding) :
    encoding.rewritten.bytes = encoding.bytes ↔
      IsShortest encoding.lengthBytes encoding.value.length := by
  rw [isShortest_iff encoding.isLength, bytes_rewritten, bytes, List.append_left_inj,
    List.append_right_inj]

end Encoding

/-- **Writing what was read.** A tagged value that is read takes two bytes at least. It can be
written, into any buffer, and then it has the tag bytes that were read, is not longer than what was
read, is the same just if the length that was read is as short as it can be, and is read as the same
tagged value, with the same bytes behind it. -/
theorem write_of_parse {bytes rest : Bytes} {tlv : Tlv} (h : parse bytes = .ok (tlv, rest)) :
    ∃ read written : Encoding, bytes = read.bytes ++ rest ∧ read.tlv = tlv ∧
      2 ≤ read.bytes.length ∧
      (∀ buffer, write buffer tlv = (.ok written.bytes.length, buffer ++ written.bytes)) ∧
      written.tagBytes = read.tagBytes ∧ written.bytes.length ≤ read.bytes.length ∧
      (written.bytes = read.bytes ↔ IsShortest read.lengthBytes read.value.length) ∧
      parse (written.bytes ++ rest) = .ok (tlv, rest) := by
  obtain ⟨read, rfl, rfl⟩ := parse?_eq_some_iff.mp (parse_eq_ok_iff.mp h)
  refine ⟨read, read.rewritten, rfl, rfl, read.two_le_length, fun buffer => ?_,
    read.tagBytes_rewritten, read.length_bytes_rewritten_le, read.bytes_rewritten_eq_iff, ?_⟩
  · rw [write, encode_of_length_le read.writable_tlv.length_le, Encoding.rewritten, bytes_shortest]
  · rw [parse_eq_ok_iff, Encoding.parse?_append, Encoding.rewritten, tlv_shortest]

/-- A length of one with a leading zero. It is written with one byte where three were read. -/
theorem write_of_parse_padded :
    ∃ read written : Encoding, read.bytes = [0x7f, 0x49, 0x82, 0x00, 0x01, 0x05] ∧
      written.bytes = [0x7f, 0x49, 0x01, 0x05] ∧
      parse (read.bytes ++ [0xaa]) = .ok (⟨0x7f49, [0x05]⟩, [0xaa]) ∧
      write [] ⟨0x7f49, [0x05]⟩ = (.ok 4, written.bytes) ∧
      ¬ IsShortest read.lengthBytes read.value.length ∧
      parse (written.bytes ++ [0xaa]) = .ok (⟨0x7f49, [0x05]⟩, [0xaa]) := by
  have hparse : parse [0x7f, 0x49, 0x82, 0x00, 0x01, 0x05, 0xaa] =
      .ok (⟨0x7f49, [0x05]⟩, [0xaa]) := by decide
  obtain ⟨read, written, hread, -, -, hwrite, -, -, hiff, hagain⟩ := write_of_parse hparse
  have hreadBytes : read.bytes = [0x7f, 0x49, 0x82, 0x00, 0x01, 0x05] :=
    (List.append_cancel_right hread).symm
  have hwritten : written.bytes = [0x7f, 0x49, 0x01, 0x05] :=
    (congrArg Prod.snd (hwrite [])).symm
  refine ⟨read, written, hreadBytes, hwritten, hreadBytes ▸ hparse, ?_, ?_, hagain⟩
  · rw [hwrite, hwritten]
    rfl
  · rw [← hiff, hreadBytes, hwritten]
    decide

end Tlv

end TokenConfig
