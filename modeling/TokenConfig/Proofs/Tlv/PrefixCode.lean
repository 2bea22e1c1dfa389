import Mathlib.Data.List.Infix
import TokenConfig.Proofs.Tlv.WriteAll

/-!
# Cutting a sequence of tagged values

No encoding begins another one, so the bytes of an encoding decide where it ends. They are read as
the same tagged value whatever follows them, and a part of them is not read at all
(`TokenConfig.Tlv.Encoding.parse?_eq_none_of_append`).

Of a sequence this means that it can be cut only where one encoding ends and the next one begins:
what is left behind encodings at the front of others are others again
(`TokenConfig.Tlv.Encoding.concat_eq_concat_append_iff`). Hence bytes behind a sequence that is
decoded are refused with it if they are refused alone
(`TokenConfig.TagMap.decode_append_eq_error_iff`), and a front of such a sequence is decoded if it
was not cut within an encoding (`TokenConfig.TagMap.exists_decode_iff_of_isPrefix`).

`TokenConfig.Tlv.parse_prefix_free` puts both together: bytes that are missing are noticed, wherever
they are missing.
-/

namespace TokenConfig

namespace Tlv

variable {bytes rest front cut : Bytes}

theorem parse_eq_error_iff {fault : Error} :
    parse bytes = .error fault ↔ fault = .malformed .notTagged ∧ parse? bytes = none := by
  rw [parse]
  cases parse? bytes <;> simp [eq_comm]

namespace Encoding

variable {encodings done : List Encoding}

/-- **Nothing is read of a part of an encoding.** What was read would be an encoding that begins
this one. -/
theorem parse?_eq_none_of_append {encoding : Encoding} (h : encoding.bytes = front ++ cut)
    (hcut : cut ≠ []) : parse? front = none := by
  cases hread : parse? front with
  | none => rfl
  | some read =>
    obtain ⟨other, rfl, -⟩ := parse?_eq_some_iff.mp hread
    rw [← List.append_nil encoding.bytes, List.append_assoc] at h
    obtain ⟨-, hnothing⟩ := append_inj h
    exact absurd (List.append_eq_nil_iff.mp hnothing.symm).2 hcut

theorem concat_append (front rest : List Encoding) :
    concat (front ++ rest) = concat front ++ concat rest :=
  List.flatMap_append

/-- **What is left behind encodings** at the front of a sequence is the rest of the sequence. -/
theorem concat_eq_concat_append_iff :
    concat encodings = concat done ++ rest ↔
      ∃ left, encodings = done ++ left ∧ rest = concat left := by
  constructor
  · intro h
    -- one encoding at a time is taken off both sides
    induction done generalizing encodings with
    | nil => exact ⟨encodings, rfl, h.symm⟩
    | cons first done ih =>
      cases encodings with
      | nil =>
        exact absurd (List.append_eq_nil_iff.mp h.symm).1 (concat_cons_ne_nil first done)
      | cons head encodings =>
        rw [concat_cons, concat_cons, List.append_assoc] at h
        obtain ⟨rfl, hrest⟩ := append_inj h
        obtain ⟨left, rfl, rfl⟩ := ih hrest
        exact ⟨left, rfl, rfl⟩
  · rintro ⟨left, rfl, rfl⟩
    exact concat_append done left

end Encoding

end Tlv

namespace TagMap

open Tlv (Encoding)

variable {front rest : Bytes} {map : TagMap} {fault : Error}

/-- **Bytes behind a sequence** are refused with it if they are refused alone. -/
theorem decode_append_eq_error_iff (h : decode front = .ok map) :
    decode (front ++ rest) = .error fault ↔ decode rest = .error fault := by
  obtain ⟨done, rfl, -⟩ := decode_eq_ok_iff.mp h
  rw [decode_eq_error_iff, decode_eq_error_iff]
  refine and_congr_right fun _ => ⟨fun hnone left hrest => ?_, fun hnone encodings hbytes => ?_⟩
  · exact hnone (done ++ left) (by rw [hrest, Encoding.concat_append])
  · obtain ⟨left, -, hrest⟩ := Encoding.concat_eq_concat_append_iff.mp hbytes.symm
    exact hnone left hrest

/-- **Where a sequence can be cut**: behind one of its encodings, or before them all. -/
theorem exists_decode_iff_of_isPrefix {encodings : List Encoding}
    (h : front <+: Encoding.concat encodings) :
    (∃ map, decode front = .ok map) ↔
      ∃ done, done <+: encodings ∧ front = Encoding.concat done := by
  constructor
  · rintro ⟨map, hdecode⟩
    obtain ⟨done, rfl, -⟩ := decode_eq_ok_iff.mp hdecode
    obtain ⟨rest, hrest⟩ := h
    obtain ⟨left, rfl, -⟩ := Encoding.concat_eq_concat_append_iff.mp hrest.symm
    exact ⟨done, List.prefix_append done left, rfl⟩
  · rintro ⟨done, -, rfl⟩
    exact ⟨_, decode_eq_ok_iff.mpr ⟨done, rfl, rfl⟩⟩

end TagMap

namespace Tlv

/-- **Missing bytes are noticed.** The bytes that a tagged value was read from are read as the same
tagged value whatever follows them, and every proper front of them is refused. Behind a sequence
that is decoded, bytes are refused just if they are refused alone; if they are decoded, so is the
whole, and their values come before those of the sequence. A front of a sequence that is decoded is
decoded itself just if it ends where one of the encodings ends, or is empty. -/
theorem parse_prefix_free :
    (∀ bytes rest tlv, parse bytes = .ok (tlv, rest) → ∃ consumed, bytes = consumed ++ rest ∧
      (∀ other, parse (consumed ++ other) = .ok (tlv, other)) ∧
      ∀ front, front <+: consumed → front ≠ consumed →
        parse front = .error (.malformed .notTagged)) ∧
    (∀ front map, TagMap.decode front = .ok map → ∀ rest,
      (∀ fault, TagMap.decode (front ++ rest) = .error fault ↔
        TagMap.decode rest = .error fault) ∧
      ∀ more, TagMap.decode rest = .ok more → ∃ both, TagMap.decode (front ++ rest) = .ok both ∧
        ∀ tag, both.get? tag = (more.get? tag).or (map.get? tag)) ∧
    ∀ bytes map, TagMap.decode bytes = .ok map → ∃ encodings, bytes = Encoding.concat encodings ∧
      ∀ front, front <+: bytes → ((∃ part, TagMap.decode front = .ok part) ↔
        ∃ done, done <+: encodings ∧ front = Encoding.concat done) := by
  refine ⟨fun bytes rest tlv h => ?_, fun front map hfront rest => ⟨fun fault => ?_, ?_⟩,
    fun bytes map h => ?_⟩
  · obtain ⟨encoding, rfl, rfl⟩ := parse?_eq_some_iff.mp (parse_eq_ok_iff.mp h)
    refine ⟨encoding.bytes, rfl, fun other => parse_eq_ok_iff.mpr (encoding.parse?_append other),
      fun front hfront hproper => ?_⟩
    obtain ⟨cut, hcut⟩ := hfront
    refine parse_eq_error_iff.mpr ⟨rfl, Encoding.parse?_eq_none_of_append hcut.symm ?_⟩
    rintro rfl
    exact hproper ((List.append_nil front).symm.trans hcut)
  · exact TagMap.decode_append_eq_error_iff hfront
  · exact fun more hrest => TagMap.exists_decode_append hfront hrest
  · obtain ⟨encodings, rfl, -⟩ := TagMap.decode_eq_ok_iff.mp h
    exact ⟨encodings, rfl, fun front hfront => TagMap.exists_decode_iff_of_isPrefix hfront⟩

/-- A tag of two bytes and a length in more bytes than it needs, in front of other bytes and cut
anywhere; and two of them in a row, of which the second is cut. -/
theorem parse_prefix_free_of_long_length :
    ∃ bytes : Bytes, bytes = [0x5f, 0x24, 0x82, 0x00, 0x02, 7, 8] ∧
      (∀ other, parse (bytes ++ other) = .ok (⟨0x5f24, [7, 8]⟩, other)) ∧
      (∀ front, front <+: bytes → front ≠ bytes → parse front = .error (.malformed .notTagged)) ∧
      (∃ both, TagMap.decode (bytes ++ [0x5f, 0x24, 0x01, 9, 0x02, 0x00]) = .ok both ∧
        both.get? 0x5f24 = some [9] ∧ both.get? 0x02 = some []) ∧
      ¬ ∃ part, TagMap.decode (bytes ++ [0x5f, 0x24]) = .ok part := by
  let first : Encoding := ⟨[0x5f, 0x24], [0x82, 0x00, 0x02], [7, 8],
    .long 0x5f [] 0x24 (by decide) (by simp) (by decide) (by decide),
    .long 0x82 [0x00, 0x02] (by decide) (by decide) (by decide)⟩
  let second : Encoding := ⟨[0x5f, 0x24], [0x01], [9],
    .long 0x5f [] 0x24 (by decide) (by simp) (by decide) (by decide), .short 1 (by decide)⟩
  let third : Encoding := ⟨[0x02], [0x00], [], .short 0x02 (by decide), .short 0 (by decide)⟩
  obtain ⟨hparse, hbehind, hcut⟩ := parse_prefix_free
  have hread : parse ([0x5f, 0x24, 0x82, 0x00, 0x02, 7, 8] ++ [0x01]) =
      .ok (⟨0x5f24, [7, 8]⟩, [0x01]) := by decide
  obtain ⟨consumed, hconsumed, hother, hfront⟩ := hparse _ _ _ hread
  obtain rfl := (List.append_cancel_right hconsumed).symm
  have hdecode : TagMap.decode (Encoding.concat [first]) = .ok _ :=
    TagMap.decode_eq_ok_iff.mpr ⟨[first], rfl, rfl⟩
  have hmore : TagMap.decode (Encoding.concat [second, third]) = .ok _ :=
    TagMap.decode_eq_ok_iff.mpr ⟨[second, third], rfl, rfl⟩
  obtain ⟨both, hboth, hget⟩ := (hbehind _ _ hdecode _).2 _ hmore
  have htwo : TagMap.decode (Encoding.concat [first, second]) = .ok _ :=
    TagMap.decode_eq_ok_iff.mpr ⟨[first, second], rfl, rfl⟩
  obtain ⟨encodings, hsame, hwhere⟩ := hcut _ _ htwo
  obtain rfl := Encoding.concat_injective hsame
  refine ⟨_, rfl, hother, hfront, ⟨both, hboth, (hget _).trans rfl, (hget _).trans rfl⟩, ?_⟩
  -- the cut is in the second of the two, so it is neither before, between nor behind them
  rw [hwhere _ ⟨[0x01, 9], rfl⟩]
  rintro ⟨done, hdone, hends⟩
  rw [← List.mem_inits] at hdone
  simp only [List.inits, List.map_cons, List.map_nil, List.mem_cons, List.not_mem_nil,
    or_false] at hdone
  rcases hdone with rfl | rfl | rfl <;> exact absurd hends (by decide)

end Tlv

end TokenConfig
