import Mathlib.Data.List.GetD
import TokenConfig.Proofs.Slot.LastStep

/-!
# Which byte strings are built

A record says some things twice or not at all: how much of the first field is used, and nothing in
the two reserved bytes. A builder writes these parts in one way only, so not every record that is
accepted is the record of a builder. `TokenConfig.SlotRecord.Canonical` is what is asked beyond
acceptance: the count of the first field fits it, what is not counted of it is zero, and so are the
reserved bytes.

* What acceptance itself asks is `TokenConfig.SlotRecord.exists_parse_iff`: the length of a record,
  and the complement of the checksum behind the bytes that it covers.
* Every built record is canonical (`TokenConfig.Builder.canonical_build`), and the values read from
  a canonical record build it again (`TokenConfig.SlotRecord.build_run_steps`).

Both together say which byte strings are built (`TokenConfig.Builder.exists_build_run_iff`).
-/

namespace TokenConfig

/-! ### Fields of fixed size -/

namespace Bytes

/-- A field whose bytes from `count` on are zero is the front of it, padded. -/
theorem zeroPadded_take {size count : Nat} {bytes : Bytes} (hlength : bytes.length = size)
    (hcount : count ≤ size) (hzero : ∀ i, count ≤ i → i < size → bytes.getD i 0 = 0) :
    zeroPadded size (bytes.take count) = bytes := by
  have htake : ((bytes.take count).take size).length = count := by
    simp only [List.length_take]
    omega
  apply List.ext_getElem
  · rw [length_zeroPadded, hlength]
  · intro i hi hi'
    simp only [zeroPadded]
    by_cases hlt : i < count
    · rw [List.getElem_append_left (by omega)]
      simp
    · have hbyte := hzero i (by omega) (by omega)
      rw [List.getD_eq_getElem _ _ hi'] at hbyte
      rw [List.getElem_append_right (by omega), List.getElem_replicate, hbyte]

end Bytes

namespace Field

/-- A byte of a field is the byte of the record at the place of the field. -/
theorem getD_slice (field : Field) (bytes : Bytes) {i : Nat} (h : i < field.size) :
    (field.slice bytes).getD i 0 = bytes.getD (field.offset + i) 0 := by
  simp [slice, h]

end Field

namespace SlotRecord

/-! ### What is accepted -/

theorem verify_take_iff {bytes : Bytes} (h : bytes.length = 58) :
    Checksum.verify (bytes.take Field.configSize) = true ↔
      Bytes.ofLittleEndian ((bytes.drop 50).take 2) = ~~~Checksum.crc16 (bytes.take 50) := by
  obtain ⟨a, b, hpair⟩ := List.length_eq_two.mp (Field.length_slice h .checksum)
  have hslice : (bytes.drop 50).take 2 = [a, b] := hpair
  have htake : bytes.take Field.configSize = bytes.take 50 ++ [a, b] := by
    rw [← hslice]
    exact List.take_add
  rw [htake, Checksum.verify_append_pair_iff, hslice]

/-- **What is accepted**: the length of a record, and bytes 50 and 51 that are the complement of the
checksum of the 50 bytes before them. -/
theorem exists_parse_iff (bytes : Bytes) :
    (∃ record, parse bytes = .ok record) ↔
      bytes.length = 58 ∧
        Bytes.ofLittleEndian ((bytes.drop 50).take 2) = ~~~Checksum.crc16 (bytes.take 50) := by
  constructor
  · rintro ⟨record, h⟩
    obtain rfl := parse_eq_ok_iff.mp h
    exact ⟨record.length_eq, (verify_take_iff record.length_eq).mp record.verified⟩
  · rintro ⟨hlength, hchecksum⟩
    exact ⟨⟨bytes, hlength, (verify_take_iff hlength).mpr hchecksum⟩, parse_eq_ok_iff.mpr rfl⟩

/-- **What is refused**: a wrong length as such, whatever else is wrong, and a wrong checksum where
the length is right. -/
theorem parse_eq_error_iff (bytes : Bytes) (fault : Error) :
    parse bytes = .error fault ↔
      bytes.length ≠ 58 ∧ fault = .size ∨
        bytes.length = 58 ∧ fault = .checksum ∧
          Bytes.ofLittleEndian ((bytes.drop 50).take 2) ≠ ~~~Checksum.crc16 (bytes.take 50) := by
  have hsize : Field.recordSize = 58 := rfl
  unfold parse
  by_cases hlength : bytes.length = 58
  · have hverify := verify_take_iff hlength
    by_cases hverified : Checksum.verify (bytes.take Field.configSize) = true
    · simp [hsize, hlength, hverified, hverify.mp hverified]
    · have hchecksum := fun heq => hverified (hverify.mpr heq)
      simp only [hsize, hlength, hverified]
      simpa [eq_comm (a := Error.checksum)] using fun _ => hchecksum
  · simp [hsize, hlength, eq_comm]

/-! ### Canonical records -/

/-- What sets the records of builders apart: they are accepted, the count at position 44 is not
beyond the first field, bytes of that field which are not counted are zero, and so are the two
reserved bytes. -/
structure Canonical (bytes : Bytes) : Prop where
  /-- The bytes are accepted as a record. -/
  accepted : ∃ record, parse bytes = .ok record
  /-- The count fits the first field. -/
  count_le : (bytes.getD 44 0).toNat ≤ 16
  /-- What is not counted is zero. -/
  uncounted_eq_zero : ∀ i, (bytes.getD 44 0).toNat ≤ i → i < 16 → bytes.getD i 0 = 0
  /-- The reserved bytes are zero. -/
  reserved_eq_zero : bytes.getD 48 0 = 0 ∧ bytes.getD 49 0 = 0

/-- A field of one byte is read at its place. -/
theorem byte_eq_getD (record : SlotRecord) (field : Field) (h : field.size = 1) :
    record.byte field = record.bytes.getD field.offset 0 := by
  obtain ⟨value, hvalue⟩ := List.length_eq_one_iff.mp
    ((Field.length_slice record.length_eq field).trans h)
  have hplace := field.getD_slice record.bytes (i := 0) (by omega)
  rw [Nat.add_zero] at hplace
  rw [← hplace, byte, field_eq, hvalue]
  rfl

/-- The bytes that `TokenConfig.SlotRecord.Canonical` speaks of are held by three fields. -/
theorem canonical_iff (record : SlotRecord) :
    Canonical record.bytes ↔
      record.fixedLength.toNat ≤ 16 ∧
        (∀ i, record.fixedLength.toNat ≤ i → i < 16 → (record.field .fixed).getD i 0 = 0) ∧
        record.field .reserved = [0, 0] := by
  have hcount : record.bytes.getD 44 0 = record.fixedLength :=
    (record.byte_eq_getD .fixedLength rfl).symm
  have hfixed : ∀ i, i < 16 → (record.field .fixed).getD i 0 = record.bytes.getD i 0 := by
    intro i hi
    have h := Field.fixed.getD_slice record.bytes hi
    rwa [show Field.fixed.offset = 0 from rfl, Nat.zero_add] at h
  obtain ⟨a, b, hpair⟩ := List.length_eq_two.mp (Field.length_slice record.length_eq .reserved)
  have ha : a = record.bytes.getD 48 0 := by
    have h := Field.reserved.getD_slice record.bytes (i := 0) (by decide)
    rwa [hpair] at h
  have hb : b = record.bytes.getD 49 0 := by
    have h := Field.reserved.getD_slice record.bytes (i := 1) (by decide)
    rwa [hpair] at h
  have hreserved : record.field .reserved = [0, 0] ↔
      record.bytes.getD 48 0 = 0 ∧ record.bytes.getD 49 0 = 0 := by
    rw [field_eq, hpair, ← ha, ← hb]
    simp
  rw [hreserved, ← hcount]
  constructor
  · rintro ⟨-, hle, hzero, hzeros⟩
    exact ⟨hle, fun i hge hlt => (hfixed i hlt).trans (hzero i hge hlt), hzeros⟩
  · rintro ⟨hle, hzero, hzeros⟩
    exact ⟨⟨record, parse_eq_ok_iff.mpr rfl⟩, hle,
      fun i hge hlt => (hfixed i hlt).symm.trans (hzero i hge hlt), hzeros⟩

/-! ### Building again -/

/-- The steps that give a new builder everything read from a record. -/
def steps (record : SlotRecord) : List Builder.Step :=
  [.fixed record.fixed, .uid (record.field .uid), .key .aes (record.field .key),
    .accessCode (record.field .accessCode),
    .currentAccessCode (record.field .currentAccessCode), .configFlags record.configFlags,
    .extendedFlags record.extendedFlags, .ticketFlags record.ticketFlags]

/-- What a new builder holds after them. -/
theorem value_run_steps (record : SlotRecord) :
    (Builder.empty.run record.steps).value =
      { fixed := some (.cut _ record.fixed)
        uid := some (.cut _ (record.field .uid))
        key := some (.cut _ ((record.field .key).take Field.key.size))
        accessCode := some (.cut _ (record.field .accessCode))
        currentAccessCode := some (.cut _ (record.field .currentAccessCode))
        configFlags := record.configFlags
        extendedFlags := record.extendedFlags
        ticketFlags := record.ticketFlags } := rfl

/-- The byte of a field of one byte is the field. -/
theorem field_eq_byte (record : SlotRecord) {field : Field} (h : field.size = 1) :
    record.field field = [record.byte field] := by
  obtain ⟨value, hvalue⟩ := List.length_eq_one_iff.mp
    ((Field.length_slice record.length_eq field).trans h)
  rw [byte, field_eq, hvalue]
  rfl

/-- Every field but the checksum is filled again with what was read from it. -/
theorem image_run_steps {record : SlotRecord} (h : Canonical record.bytes) {field : Field}
    (hne : field ≠ .checksum) :
    (Builder.empty.run record.steps).value.image field = record.field field := by
  obtain ⟨hle, hzero, hreserved⟩ := record.canonical_iff.mp h
  have hlength : ∀ field, (record.field field).length = Field.size field :=
    Field.length_slice record.length_eq
  have hwhole : ∀ field, Bytes.zeroPadded (Field.size field)
      ((record.field field).take (Field.size field)) = record.field field := fun field =>
    Bytes.zeroPadded_take (hlength field) (Nat.le_refl _) (fun i hge hlt => by omega)
  have hfixed : record.fixed.take 16 = (record.field .fixed).take record.fixedLength.toNat := by
    rw [fixed, List.take_take, Nat.min_eq_right hle]
  rw [Builder.image_of_ne_checksum _ hne, Builder.fieldBytes, value_run_steps]
  -- only the first field is read without its padding; it gets back zeros, which is what was there
  cases field with
  | fixed =>
    change Bytes.zeroPadded 16 (record.fixed.take 16) = _
    rw [hfixed]
    exact Bytes.zeroPadded_take (hlength .fixed) hle hzero
  | uid | accessCode | currentAccessCode => exact hwhole _
  | key =>
    change Bytes.zeroPadded 16 (((record.field .key).take 16).take 16) = _
    rw [List.take_take, Nat.min_self]
    exact hwhole .key
  | fixedLength =>
    have hcount : (record.fixed.take 16).length = record.fixedLength.toNat := by
      rw [hfixed, List.length_take, hlength .fixed, Field.size, Nat.min_eq_left hle]
    change Bytes.zeroPadded 1 [(record.fixed.take 16).length.toUInt8] = _
    rw [hcount, field_eq_byte record rfl, Nat.toUInt8_eq, UInt8.ofNat_toNat]
    rfl
  | extendedFlags | ticketFlags | configFlags => exact (field_eq_byte record rfl).symm
  | reserved => exact hreserved.symm
  | checksum => exact absurd rfl hne

/-- **A canonical record is built again from what is read from it.** The checksum needs no copying:
it is accepted because it is the one that building computes. -/
theorem build_run_steps {record : SlotRecord} (h : Canonical record.bytes) :
    (Builder.empty.run record.steps).value.build = record.bytes := by
  have hbody : (Builder.empty.run record.steps).value.body = record.bytes.take 50 := by
    have hfront := Field.flatMap_slice_before record.length_eq .checksum
    rw [Builder.body_eq]
    refine Eq.trans ?_ hfront
    refine List.flatMap_congr fun field hfield => image_run_steps h ?_
    rintro rfl
    exact absurd hfield (by decide)
  -- the body is the same again, so its checksum is the one that was accepted
  have hchecksum : (Builder.empty.run record.steps).value.image .checksum =
      record.field .checksum := by
    obtain ⟨a, b, hpair⟩ := List.length_eq_two.mp (Field.length_slice record.length_eq .checksum)
    have hstored : Bytes.ofLittleEndian [a, b] = ~~~Checksum.crc16 (record.bytes.take 50) := by
      rw [← hpair]
      exact (verify_take_iff record.length_eq).mp record.verified
    rw [Builder.image, hbody, ← hstored, Bytes.littleEndian_ofLittleEndian_pair, field_eq, hpair]
  rw [Builder.build_eq]
  refine Eq.trans ?_ (Field.flatMap_slice record.length_eq)
  refine List.flatMap_congr fun field _ => ?_
  by_cases hne : field = .checksum
  · rw [hne, hchecksum, field_eq]
  · rw [image_run_steps h hne, field_eq]

end SlotRecord

namespace Builder

/-! ### The image of building -/

/-- **Every built record is canonical.** -/
theorem canonical_build (builder : Builder) : SlotRecord.Canonical builder.build := by
  obtain ⟨record, -, hbytes⟩ := builder.exists_parse_build
  have hfixed := field_of_bytes_eq_build hbytes .fixed
  have hreserved := field_of_bytes_eq_build hbytes .reserved
  rw [image_eq _ (by decide)] at hfixed hreserved
  rw [← hbytes, record.canonical_iff, fixedLength_of_bytes_eq_build hbytes, hfixed]
  refine ⟨builder.length_contents_le .fixed, fun i hge _ => ?_, hreserved⟩
  rw [List.getD_append_right _ _ _ _ hge]
  simp

/-- **Which byte strings are built.** A byte string is accepted if it has 58 bytes and bytes 50 and
51 are, low byte first, the complement of the checksum of those before them; any other length is an
error of size, any other checksum an error of its own. Of the accepted ones exactly the canonical
ones come out of a new builder by some steps, and the steps that hand it back what was read are
such steps. -/
theorem exists_build_run_iff (bytes : Bytes) :
    ((∃ record, SlotRecord.parse bytes = .ok record) ↔
      bytes.length = 58 ∧
        Bytes.ofLittleEndian ((bytes.drop 50).take 2) = ~~~Checksum.crc16 (bytes.take 50)) ∧
    (∀ fault, SlotRecord.parse bytes = .error fault ↔
      bytes.length ≠ 58 ∧ fault = .size ∨
        bytes.length = 58 ∧ fault = .checksum ∧
          Bytes.ofLittleEndian ((bytes.drop 50).take 2) ≠ ~~~Checksum.crc16 (bytes.take 50)) ∧
    ((∃ steps, (empty.run steps).value.build = bytes) ↔ SlotRecord.Canonical bytes) ∧
    (SlotRecord.Canonical bytes → ∃ record, SlotRecord.parse bytes = .ok record ∧
      (empty.run record.steps).value.build = bytes) := by
  have hagain : SlotRecord.Canonical bytes → ∃ record, SlotRecord.parse bytes = .ok record ∧
      (empty.run record.steps).value.build = bytes := by
    intro hcanonical
    obtain ⟨record, hparse⟩ := hcanonical.accepted
    obtain rfl := SlotRecord.parse_eq_ok_iff.mp hparse
    exact ⟨record, hparse, SlotRecord.build_run_steps hcanonical⟩
  refine ⟨SlotRecord.exists_parse_iff bytes, SlotRecord.parse_eq_error_iff bytes, ⟨?_, ?_⟩, hagain⟩
  · rintro ⟨steps, rfl⟩
    exact canonical_build _
  · -- of the steps that lead to a record, those that hand back what was read are one choice
    intro hcanonical
    obtain ⟨record, -, hbuild⟩ := hagain hcanonical
    exact ⟨record.steps, hbuild⟩

end Builder

end TokenConfig
