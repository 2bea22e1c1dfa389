import Mathlib.Data.List.Basic
import TokenConfig.Proofs.Checksum.Register
import TokenConfig.Slot.Builder
import TokenConfig.Slot.Record

/-!
# The layout of a record

A record is its fields one behind the other, and nothing else: what is put together field by field
is read back field by field (`TokenConfig.Field.slice_flatMap`), and a byte string that has the
length of a record is put together from what is read in it (`TokenConfig.Field.flatMap_slice`).
Neither statement says anything about a particular field; the sizes and the order of the fields are
all that they use.

For a built record that means: every field holds what the builder puts there
(`TokenConfig.Builder.slice_build`), and the record is accepted
(`TokenConfig.Builder.exists_parse_build`).
-/

namespace TokenConfig

namespace Field

/-! ### Sizes -/

theorem totalSize_cons (field : Field) (fields : List Field) :
    totalSize (field :: fields) = field.size + totalSize fields := by
  have hfold : ∀ (total : ℕ) (fields : List Field),
      fields.foldl (fun total field => total + field.size) total = total + totalSize fields := by
    intro total fields
    induction fields generalizing total with
    | nil => rfl
    | cons first rest ih =>
      rw [totalSize, List.foldl_cons, List.foldl_cons, ih, ih]
      omega
  rw [totalSize, List.foldl_cons, hfold, Nat.zero_add]

theorem totalSize_append (front rest : List Field) :
    totalSize (front ++ rest) = totalSize front + totalSize rest := by
  induction front with
  | nil => exact (Nat.zero_add _).symm
  | cons field front ih => rw [List.cons_append, totalSize_cons, totalSize_cons, ih, Nat.add_assoc]

variable {image : Field → Bytes}

theorem length_flatMap (h : ∀ field, (image field).length = field.size) (fields : List Field) :
    (fields.flatMap image).length = totalSize fields := by
  induction fields with
  | nil => rfl
  | cons field fields ih => rw [List.flatMap_cons, List.length_append, ih, h, totalSize_cons]

/-! ### Places -/

/-- Every field has its place among all of them. -/
theorem exists_all_eq (field : Field) : ∃ rest, all = field.before ++ field :: rest := by
  cases field <;> exact ⟨_, rfl⟩

/-- What stands before a field is what comes before it, because no field comes twice. -/
theorem before_eq {front rest : List Field} {field : Field} (h : all = front ++ field :: rest) :
    field.before = front := by
  have hnodup : (front ++ field :: rest).Nodup := h ▸ (by decide : all.Nodup)
  have hne : ∀ other ∈ front, decide (other ≠ field) = true := fun other hother =>
    decide_eq_true ((List.nodup_append.mp hnodup).2.2 other hother field List.mem_cons_self)
  rw [before, h, List.takeWhile_append_of_pos hne, List.takeWhile_cons_of_neg (by simp),
    List.append_nil]

/-! ### Reading and putting together -/

/-- The bytes that a record has in a field. -/
def slice (field : Field) (bytes : Bytes) : Bytes :=
  (bytes.drop field.offset).take field.size

/-- **What is put into a field is read there.** -/
theorem slice_flatMap (h : ∀ field, (image field).length = field.size) (field : Field) :
    field.slice (all.flatMap image) = image field := by
  obtain ⟨rest, hall⟩ := exists_all_eq field
  have hoffset : (field.before.flatMap image).length = field.offset := length_flatMap h _
  rw [slice, hall, List.flatMap_append, List.flatMap_cons, ← hoffset, List.drop_left, ← h field,
    List.take_left]

/-- The fields from some place on make up the rest of a record from there. -/
theorem flatMap_slice_of_append {bytes : Bytes} (hlength : bytes.length = recordSize) :
    ∀ front rest : List Field, all = front ++ rest →
      rest.flatMap (slice · bytes) = bytes.drop (totalSize front)
  | front, [], hall => by
    have hfront : totalSize front = bytes.length := by
      rw [hlength, recordSize, hall, List.append_nil]
    rw [hfront, List.drop_length, List.flatMap_nil]
  | front, field :: rest, hall => by
    -- the front grows with every field that is read, so it stays a front of all the fields
    have hbefore : field.offset = totalSize front := by rw [offset, before_eq hall]
    have hrest := flatMap_slice_of_append hlength (front ++ [field]) rest
      (by rw [hall, List.append_assoc]; rfl)
    rw [List.flatMap_cons, hrest, totalSize_append, slice, hbefore, totalSize_cons,
      show totalSize [] = 0 from rfl, Nat.add_zero, ← List.drop_drop, List.take_append_drop]

/-- **A record is what is read in its fields.** -/
theorem flatMap_slice {bytes : Bytes} (h : bytes.length = recordSize) :
    all.flatMap (slice · bytes) = bytes :=
  flatMap_slice_of_append h [] all rfl

theorem length_slice {bytes : Bytes} (h : bytes.length = recordSize) (field : Field) :
    (field.slice bytes).length = field.size := by
  obtain ⟨rest, hall⟩ := exists_all_eq field
  have htotal : bytes.length = field.offset + (field.size + totalSize rest) := by
    rw [h, recordSize, hall, totalSize_append, totalSize_cons, offset]
  rw [slice, List.length_take, List.length_drop]
  omega

/-- The fields before a given one make up the front of a record. -/
theorem flatMap_slice_before {bytes : Bytes} (h : bytes.length = recordSize) (field : Field) :
    field.before.flatMap (slice · bytes) = bytes.take field.offset := by
  obtain ⟨rest, hall⟩ := exists_all_eq field
  have hfront : (field.before.flatMap (slice · bytes)).length = field.offset :=
    length_flatMap (length_slice h) _
  conv => rhs; rw [← flatMap_slice h, hall, List.flatMap_append, ← hfront, List.take_left]

end Field

/-! ### Built records -/

namespace Builder

/-- What a built record has in a field. Of all the fields only that of the checksum is not filled
from a part of the builder. -/
def image (builder : Builder) : Field → Bytes
  | .checksum => Bytes.littleEndian (~~~Checksum.crc16 builder.body)
  | field => builder.fieldBytes field

theorem length_image (builder : Builder) (field : Field) :
    (builder.image field).length = field.size := by
  cases field <;> first | rfl | exact builder.length_fieldBytes _

theorem image_of_ne_checksum (builder : Builder) {field : Field} (h : field ≠ .checksum) :
    builder.image field = builder.fieldBytes field := by
  cases field <;> first | rfl | exact absurd rfl h

theorem body_eq (builder : Builder) :
    builder.body = Field.checksum.before.flatMap builder.image := by
  refine List.flatMap_congr fun field hfield => (builder.image_of_ne_checksum ?_).symm
  rintro rfl
  exact absurd hfield (by decide)

/-- A built record is the images of its fields. -/
theorem build_eq (builder : Builder) : builder.build = Field.all.flatMap builder.image := by
  have hall : Field.all = Field.checksum.before ++ [.checksum, .currentAccessCode] := by decide
  rw [hall, List.flatMap_append, ← body_eq, build, List.append_assoc]
  simp only [List.flatMap_cons, List.flatMap_nil, List.append_nil, image]

/-- **A field of a built record holds what the builder puts there.** -/
theorem slice_build (builder : Builder) (field : Field) :
    field.slice builder.build = builder.image field := by
  rw [build_eq, Field.slice_flatMap builder.length_image]

theorem take_configSize_build (builder : Builder) :
    builder.build.take Field.configSize =
      builder.body ++ Bytes.littleEndian (~~~Checksum.crc16 builder.body) := by
  have hlength : (builder.body ++ Bytes.littleEndian (~~~Checksum.crc16 builder.body)).length =
      Field.configSize := by
    rw [List.length_append, length_body, Bytes.length_littleEndian]
    rfl
  rw [build, ← hlength, List.take_left]

end Builder

/-! ### Acceptance -/

namespace SlotRecord

/-- **An accepted record is the byte string it was read from**, and a byte string that some record
has is accepted as that record. -/
theorem parse_eq_ok_iff {bytes : Bytes} {record : SlotRecord} :
    parse bytes = .ok record ↔ record.bytes = bytes := by
  obtain ⟨held, hlength, hverified⟩ := record
  constructor
  · intro h
    unfold parse at h
    split at h
    · split at h
      · cases h
        rfl
      · cases h
    · cases h
  · rintro rfl
    rw [parse, dif_pos hlength, dif_pos hverified]

theorem field_eq (record : SlotRecord) (field : Field) :
    record.field field = field.slice record.bytes := rfl

end SlotRecord

/-- **Every built record is accepted.** -/
theorem Builder.exists_parse_build (builder : Builder) :
    ∃ record, SlotRecord.parse builder.build = .ok record ∧ record.bytes = builder.build := by
  have hverified : Checksum.verify (builder.build.take Field.configSize) = true := by
    rw [take_configSize_build]
    exact Checksum.verify_append_littleEndian _
  exact ⟨⟨builder.build, builder.length_build, hverified⟩, SlotRecord.parse_eq_ok_iff.mpr rfl, rfl⟩

end TokenConfig
