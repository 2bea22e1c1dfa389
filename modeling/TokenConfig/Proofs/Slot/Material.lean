import TokenConfig.Proofs.Slot.LastStep

/-!
# Key material in a record

Key material is dealt out over the first fields of a record, and each field is padded for itself.
Put together again the padded fields are the material, padded as a whole: the cuts are where the
fields meet, and a field is short only where the material ends.

* `TokenConfig.Bytes.zeroPadded_append` is the reason: padding a value for two places one behind the
  other is padding its front for the one and its rest for the other.
* `TokenConfig.Bytes.zeroPadded_static` says it of scan codes, which fill the first three fields,
  and `TokenConfig.Bytes.zeroPadded_hmacSha1` of an HMAC key, which fills the key field and goes on
  in the private identifier.
* `TokenConfig.KeyMode.split_take` says that material which is too long is dealt out like the front
  of it that a record has room for.

`TokenConfig.SlotRecord.HoldsMaterial` is what this comes to for a record, and
`TokenConfig.Builder.setKey_stores` says it of the record of a builder that was given material and
nothing else.
-/

namespace TokenConfig

namespace Bytes

/-! ### Padding -/

/-- **Padding for two places**: the front of a value goes to the first, the rest to the second. -/
theorem zeroPadded_append (front rest : Nat) (bytes : Bytes) :
    zeroPadded (front + rest) bytes =
      zeroPadded front (bytes.take front) ++ zeroPadded rest (bytes.drop front) := by
  rcases Nat.le_total bytes.length front with hle | hle
  · have hzeros : front + rest - bytes.length = (front - bytes.length) + rest := by omega
    simp only [zeroPadded, List.take_of_length_le hle,
      List.take_of_length_le (hle.trans (Nat.le_add_right front rest)),
      List.drop_eq_nil_of_le hle, List.take_nil, List.nil_append, List.length_nil, Nat.sub_zero,
      hzeros, List.replicate_add, List.append_assoc]
  · have hzeros : front + rest - bytes.length = rest - (bytes.length - front) := by omega
    have htake : (bytes.take front).length = front := List.length_take_of_le hle
    simp only [zeroPadded, List.take_take, Nat.min_self, htake, Nat.sub_self, List.replicate_zero,
      List.append_nil, List.length_drop, List.take_add, List.append_assoc, hzeros]

/-- A value that is cut where its field ends anyway is padded as it is. -/
theorem zeroPadded_take_of_le {size count : Nat} (h : size ≤ count) (bytes : Bytes) :
    zeroPadded size (bytes.take count) = zeroPadded size bytes := by
  rw [zeroPadded, zeroPadded, List.take_take, Nat.min_eq_left h, List.length_take]
  congr 2
  omega

/-- A value that fits is padded behind its end. -/
theorem zeroPadded_of_length_le {size : Nat} {bytes : Bytes} (h : bytes.length ≤ size) :
    zeroPadded size bytes = bytes ++ List.replicate (size - bytes.length) 0 := by
  rw [zeroPadded, List.take_of_length_le h]

/-- A value of exact size is neither cut nor padded. -/
theorem Exactly.zeroPadded_take {size : Nat} (value : Exactly size) :
    zeroPadded size (value.bytes.take size) = value.bytes := by
  rw [zeroPadded_take_of_le (Nat.le_refl size), zeroPadded_of_length_le value.length_eq.le,
    value.length_eq, Nat.sub_self, List.replicate_zero, List.append_nil]

/-! ### Material that was dealt out -/

/-- **Scan codes in the first three fields.** -/
theorem zeroPadded_static (material : Bytes) :
    zeroPadded 16 (material.take 16) ++ zeroPadded 6 ((material.take 22).drop 16) ++
      zeroPadded 16 ((material.take 38).drop 22) = zeroPadded 38 material := by
  have hfirst := zeroPadded_append 16 22 material
  have hrest := zeroPadded_append 6 16 (material.drop 16)
  rw [List.drop_drop] at hrest
  rw [List.drop_take, List.drop_take, hfirst, hrest, List.append_assoc,
    zeroPadded_take_of_le (Nat.le_refl 16) (material.drop 22)]

/-- **An HMAC key in the key field and the private identifier**, of which two bytes stay zero. -/
theorem zeroPadded_hmacSha1 (material : Bytes) :
    zeroPadded 16 (material.take 16) ++ (zeroPadded 6 ((material.take 20).drop 16)).take 4 =
        zeroPadded 20 material ∧
      (zeroPadded 6 ((material.take 20).drop 16)).drop 4 = [0, 0] := by
  have hrest : zeroPadded 6 ((material.take 20).drop 16) =
      zeroPadded 4 (material.drop 16) ++ [0, 0] := by
    have hshort : ((material.take 20).drop 16).drop 4 = [] :=
      List.drop_eq_nil_of_le (by rw [List.length_drop, List.length_take]; omega)
    rw [show 6 = 4 + 2 from rfl, zeroPadded_append 4 2, hshort, List.drop_take, List.take_take,
      zeroPadded_take_of_le (by decide)]
    rfl
  have hlength : (zeroPadded 4 (material.drop 16)).length = 4 := length_zeroPadded _ _
  rw [hrest, show 20 = 16 + 4 from rfl, zeroPadded_append 16 4]
  constructor
  · rw [List.take_left' hlength]
  · rw [List.drop_left' hlength]

end Bytes

namespace Builder

/-- A part of material that ends before the part begins is none. -/
theorem getD_ite_drop_take (start finish : Nat) (material : Bytes) :
    (if start < material.length then some ((material.take finish).drop start) else none).getD [] =
      (material.take finish).drop start := by
  split
  · rfl
  · next h =>
    refine (List.drop_eq_nil_of_le ?_).symm
    rw [List.length_take]
    omega

/-- What two identifiers and an AES key leave in the first three fields. -/
theorem lastBytes_aes (publicId uid key : Bytes) :
    lastBytes [.fixed publicId, .uid uid, .key .aes key] .fixed = publicId.take 16 ∧
      lastBytes [.fixed publicId, .uid uid, .key .aes key] .uid = uid.take 6 ∧
      lastBytes [.fixed publicId, .uid uid, .key .aes key] .key = key.take 16 :=
  ⟨rfl, rfl, rfl⟩

/-- What an HMAC key leaves in the first three fields. -/
theorem lastBytes_hmacSha1 (material : Bytes) :
    lastBytes [.key .hmacSha1 material] .fixed = [] ∧
      lastBytes [.key .hmacSha1 material] .uid = (material.take 20).drop 16 ∧
      lastBytes [.key .hmacSha1 material] .key = material.take 16 := by
  refine ⟨rfl, ?_, rfl⟩
  rw [lastBytes, lastGiven_singleton]
  exact getD_ite_drop_take 16 20 material

/-- What scan codes leave in the first three fields. -/
theorem lastBytes_static (material : Bytes) :
    lastBytes [.key .static material] .fixed = material.take 16 ∧
      lastBytes [.key .static material] .uid = (material.take 22).drop 16 ∧
      lastBytes [.key .static material] .key = (material.take 38).drop 22 := by
  refine ⟨?_, ?_, ?_⟩
  · rw [lastBytes, lastGiven_singleton]
    cases material <;> rfl
  · rw [lastBytes, lastGiven_singleton]
    exact getD_ite_drop_take 16 22 material
  · rw [lastBytes, lastGiven_singleton]
    exact getD_ite_drop_take 22 38 material

/-- A field that is not the checksum holds what the builder has for it, padded. -/
theorem field_eq_zeroPadded {builder : Builder} {record : SlotRecord}
    (h : record.bytes = builder.build) {field : Field} (hne : field ≠ .checksum) :
    record.field field = Bytes.zeroPadded field.size (builder.contents field) := by
  rw [field_of_bytes_eq_build h, image_of_ne_checksum _ hne, fieldBytes]

end Builder

/-- The front of a record is its first three fields. -/
theorem SlotRecord.take_eq_fields (record : SlotRecord) :
    record.bytes.take 38 = record.field .fixed ++ record.field .uid ++ record.field .key := by
  have hfront := Field.flatMap_slice_before record.length_eq .accessCode
  rw [show Field.accessCode.offset = 38 from rfl] at hfront
  rw [← hfront, List.append_assoc]
  exact congrArg _ (congrArg _ (List.append_nil _))

/-! ### Material that is too long -/

namespace KeyMode

/-- A part that ends within a front of the material is a part of this front. -/
theorem part?_take {start finish count : Nat} (hstart : start < count) (hfinish : finish ≤ count)
    (material : Bytes) :
    part? start finish (material.take count) = part? start finish material := by
  have hreach : start < (material.take count).length ↔ start < material.length := by
    rw [List.length_take]
    omega
  simp only [part?, hreach, List.take_take, Nat.min_eq_left hfinish]

/-- **Only what a record has room for is dealt out.** -/
theorem split_take (mode : KeyMode) (material : Bytes) :
    mode.split (material.take mode.capacity) = mode.split material := by
  cases mode with
  | aes => simp only [split, capacity, List.take_take, Nat.min_self]
  | hmacSha1 =>
    have hkey : Field.key.size < Field.hmacKeySize := by decide
    simp only [split, capacity, List.take_take, Nat.min_eq_left hkey.le,
      part?_take hkey (Nat.le_refl _)]
  | static =>
    have hfixed := part?_take (by decide : Field.fixed.offset < Field.scanCodesSize)
      (by decide : Field.fixed.finish ≤ Field.scanCodesSize) material
    have huid := part?_take (by decide : Field.uid.offset < Field.scanCodesSize)
      (by decide : Field.uid.finish ≤ Field.scanCodesSize) material
    have hkey := part?_take (by decide : Field.key.offset < Field.scanCodesSize)
      (by decide : Field.key.finish ≤ Field.scanCodesSize) material
    simp only [split, capacity, hfixed, huid, hkey]

end KeyMode

/-! ### Material in a record of its own -/

/-- Where a record has key material. An AES key has a field of its own; an HMAC key goes on in the
private identifier, of which two bytes are left; scan codes go through the first three fields. What
there is no material for is zero. -/
def SlotRecord.HoldsMaterial (record : SlotRecord) (material : Bytes) : KeyMode → Prop
  | .aes =>
    record.field .key = material.take 16 ++ List.replicate (16 - material.length) 0 ∧
      record.field .fixed = List.replicate 16 0 ∧ record.field .uid = List.replicate 6 0 ∧
      record.fixedLength = 0
  | .hmacSha1 =>
    record.field .key ++ (record.field .uid).take 4 =
        material.take 20 ++ List.replicate (20 - material.length) 0 ∧
      record.field .fixed = List.replicate 16 0 ∧ (record.field .uid).drop 4 = [0, 0] ∧
      record.fixedLength = 0
  | .static =>
    record.field .fixed ++ record.field .uid ++ record.field .key =
        material.take 38 ++ List.replicate (38 - material.length) 0 ∧
      record.fixedLength.toNat = min material.length 16

namespace Builder

/-- The fields for values. The first three are those that key material goes to. -/
def valueFields : List Field :=
  [.fixed, .uid, .key, .accessCode, .currentAccessCode]

/-- What steps leave in a field for a value of a new builder. -/
theorem contents_run_of_mem_valueFields {field : Field} (h : field ∈ valueFields)
    (steps : List Step) : (empty.run steps).value.contents field = lastBytes steps field := by
  have hne : field ≠ .fixedLength := by
    rintro rfl
    exact absurd h (by decide)
  have hempty : empty.contents field = [] := by
    cases field <;> first | rfl | exact absurd h (by decide)
  rw [contents_run steps hne, hempty, lastBytes]

/-- What steps leave in the first three fields of a new builder. -/
theorem contents_run_of_mem {field : Field} (h : field ∈ [Field.fixed, .uid, .key])
    (steps : List Step) : (empty.run steps).value.contents field = lastBytes steps field :=
  contents_run_of_mem_valueFields (List.mem_append_left [Field.accessCode, .currentAccessCode] h)
    steps

variable {builder : Builder} {record : SlotRecord}

/-- What a record has in one of its first three fields, given what the builder has there. -/
theorem field_eq_zeroPadded_of_mem (hbytes : record.bytes = builder.build) {field : Field}
    (h : field ∈ [Field.fixed, .uid, .key]) {bytes : Bytes}
    (hcontents : builder.contents field = bytes) :
    record.field field = Bytes.zeroPadded field.size bytes := by
  have hne : field ≠ .checksum := by
    rintro rfl
    exact absurd h (by decide)
  rw [field_eq_zeroPadded hbytes hne, hcontents]

/-- **A record whose first three fields material has filled holds it.** -/
theorem holdsMaterial_of_contents (hbytes : record.bytes = builder.build) {mode : KeyMode}
    {material : Bytes} (hcontents : ∀ field ∈ [Field.fixed, .uid, .key],
      builder.contents field = lastBytes [.key mode material] field) :
    record.HoldsMaterial material mode := by
  have hfield : ∀ field ∈ [Field.fixed, .uid, .key], record.field field =
      Bytes.zeroPadded field.size (lastBytes [.key mode material] field) :=
    fun field hmem => field_eq_zeroPadded_of_mem hbytes hmem (hcontents field hmem)
  have hfixed : record.field .fixed = Bytes.zeroPadded 16 _ := hfield .fixed (by decide)
  have huid : record.field .uid = Bytes.zeroPadded 6 _ := hfield .uid (by decide)
  have hkey : record.field .key = Bytes.zeroPadded 16 _ := hfield .key (by decide)
  have hcount := fixedLength_of_bytes_eq_build hbytes
  rw [hcontents .fixed (by decide)] at hcount
  cases mode with
  | aes =>
    exact ⟨hkey.trans (Bytes.zeroPadded_take_of_le (Nat.le_refl 16) material), hfixed, huid,
      UInt8.toNat_inj.mp hcount⟩
  | hmacSha1 =>
    obtain ⟨hnone, hrest, hfront⟩ := lastBytes_hmacSha1 material
    obtain ⟨hwhole, hzeros⟩ := Bytes.zeroPadded_hmacSha1 material
    rw [hnone] at hfixed hcount
    rw [hrest] at huid
    rw [hfront] at hkey
    rw [SlotRecord.HoldsMaterial, hkey, huid]
    exact ⟨hwhole, hfixed, hzeros, UInt8.toNat_inj.mp hcount⟩
  | static =>
    obtain ⟨hfront, hmiddle, hrest⟩ := lastBytes_static material
    rw [hfront] at hfixed hcount
    rw [hmiddle] at huid
    rw [hrest] at hkey
    rw [SlotRecord.HoldsMaterial, hfixed, huid, hkey, Bytes.zeroPadded_static, hcount,
      List.length_take, Nat.min_comm]
    exact ⟨rfl, rfl⟩

/-- **Key material is stored whole, once and in its place.** Material that is too long leaves a
builder as the front of it does that a record has room for. The record of a new builder that was
given material is accepted, and holds this front with zeros behind it in the fields of its kind, one
part behind the other. The rest of the first three fields is zero, and so is the length of the
public identifier unless scan codes begin there. -/
theorem setKey_stores (mode : KeyMode) (material : Bytes) :
    (∀ builder : Builder, (builder.setKey mode material).value =
      (builder.setKey mode (material.take mode.capacity)).value) ∧
    ∃ record, SlotRecord.parse (empty.setKey mode material).value.build = .ok record ∧
      record.bytes = (empty.setKey mode material).value.build ∧
      record.HoldsMaterial material mode := by
  refine ⟨fun builder => ?_, ?_⟩
  · rw [value_setKey, value_setKey, KeyMode.split_take]
  · obtain ⟨record, hparse, hbytes⟩ := (empty.setKey mode material).value.exists_parse_build
    -- the step alone is a run
    exact ⟨record, hparse, hbytes, holdsMaterial_of_contents hbytes fun field hfield =>
      contents_run_of_mem hfield [.key mode material]⟩

end Builder

end TokenConfig
