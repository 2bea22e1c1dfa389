import TokenConfig.Proofs.LastGiven
import TokenConfig.Proofs.Slot.Layout

/-!
# The last step decides

Steps on a builder may come in any order and any number of times, and a step with key material
reaches up to three fields, depending on the kind of the key and on how much material there is. All
the same each field is decided by **one** step, the last one that reaches it.

* `TokenConfig.Builder.Step.gives` tells what a step gives to a field, if it reaches the field at
  all. It speaks of positions in the material only, and knows nothing of how material is dealt out.
* `TokenConfig.Builder.lastBytes` is what steps give to a field last.
* `TokenConfig.Builder.contents_apply` is the law of one step, `TokenConfig.Builder.part_run` turns
  a law of this form into one of any number of steps.

So a record that was built by steps reads back as the last value given to each field, followed by
zeros (`TokenConfig.Builder.parse_build_run`): a shorter value leaves nothing of a longer one before
it.
-/

namespace TokenConfig

namespace Builder

/-! ### What a step gives -/

/-- What a step gives to a field, if it reaches the field. An HMAC key reaches the private
identifier only by what lies beyond its first 16 bytes; the scan codes of a static password reach
the three fields from positions 0, 16 and 22 on. -/
def Step.gives : Step → Field → Option Bytes
  | .fixed bytes, .fixed => some (bytes.take 16)
  | .uid bytes, .uid => some (bytes.take 6)
  | .accessCode bytes, .accessCode => some (bytes.take 6)
  | .currentAccessCode bytes, .currentAccessCode => some (bytes.take 6)
  | .configFlags flags, .configFlags => some [flagByte flags]
  | .extendedFlags flags, .extendedFlags => some [flagByte flags]
  | .ticketFlags flags, .ticketFlags => some [flagByte flags]
  | .key .aes material, .key => some (material.take 16)
  | .key .hmacSha1 material, .key => some (material.take 16)
  | .key .hmacSha1 material, .uid =>
    if 16 < material.length then some ((material.take 20).drop 16) else none
  | .key .static material, .fixed => if material ≠ [] then some (material.take 16) else none
  | .key .static material, .uid =>
    if 16 < material.length then some ((material.take 22).drop 16) else none
  | .key .static material, .key =>
    if 22 < material.length then some ((material.take 38).drop 22) else none
  | _, _ => none

/-- The flags that a step gives to the configuration flags. -/
def Step.configFlags? : Step → Option ConfigFlags
  | .configFlags flags => some flags
  | _ => none

/-- The flags that a step gives to the extended flags. -/
def Step.extendedFlags? : Step → Option ExtendedFlags
  | .extendedFlags flags => some flags
  | _ => none

/-- The flags that a step gives to the ticket flags. -/
def Step.ticketFlags? : Step → Option TicketFlags
  | .ticketFlags flags => some flags
  | _ => none

/-- The bytes that steps give to a field last, none if they give it nothing. -/
def lastBytes (steps : List Step) (field : Field) : Bytes :=
  (lastGiven (·.gives field) steps).getD []

/-- **From one step to all**: a part of the builder that every step either gives a value or leaves
as it was is, after any steps, the last value given to it. -/
theorem part_run {α : Type} (part : Builder → α) {given : Step → Option α}
    (h : ∀ builder step, part (builder.apply step).value = (given step).getD (part builder))
    (builder : Builder) (steps : List Step) :
    part (builder.run steps).value = (lastGiven given steps).getD (part builder) := by
  induction steps generalizing builder with
  | nil => rfl
  | cons step steps ih =>
    rw [run, Logged.value_bind, ih, h, lastGiven_cons]
    cases lastGiven given steps <;> rfl

/-! ### One step -/

/-- A new value that may be absent, cut to its field, or else the old one. -/
theorem bytesOf_cut_or {size : Nat} (new : Option Bytes) (old : Option (Bytes.AtMost size)) :
    bytesOf ((new.map (Bytes.AtMost.cut size)).or old) =
      (new.map (List.take size)).getD (bytesOf old) := by
  cases new <;> rfl

/-- Key material changes the first three fields, each by its own part of the material. -/
theorem value_setKey (builder : Builder) (mode : KeyMode) (material : Bytes) :
    (builder.setKey mode material).value =
      { builder with
        fixed := ((mode.split material).fixed.map (.cut _)).or builder.fixed
        uid := ((mode.split material).uid.map (.cut _)).or builder.uid
        key := ((mode.split material).key.map (.cut _)).or builder.key } := by
  simp only [setKey, Logged.value_bind]
  cases (mode.split material).fixed <;> cases (mode.split material).uid <;>
    cases (mode.split material).key <;> rfl

/-- A part of key material fits the field that it is meant for. -/
theorem part?_map_take {start finish size : Nat} (h : finish ≤ start + size) (material : Bytes) :
    (KeyMode.part? start finish material).map (List.take size) =
      KeyMode.part? start finish material := by
  have hfits : ((material.take finish).drop start).length ≤ size := by
    rw [List.length_drop, List.length_take]
    omega
  unfold KeyMode.part?
  split
  · rw [Option.map_some, List.take_of_length_le hfits]
  · rfl

/-- Key material gives its parts to the fields, and no part is cut a second time. -/
theorem contents_setKey (builder : Builder) (mode : KeyMode) (material : Bytes) {field : Field}
    (h : field ≠ .fixedLength) :
    (builder.setKey mode material).value.contents field =
      ((Step.key mode material).gives field).getD (builder.contents field) := by
  have hfull : (some (material.take 16)).map (List.take 16) = some (material.take 16) := by
    rw [Option.map_some, List.take_take, Nat.min_self]
  rw [value_setKey]
  -- each kind of key has its own parts, and each part fits the one field that it is meant for
  cases field with
  | fixed =>
    rw [contents, bytesOf_cut_or]
    cases mode with
    | aes | hmacSha1 => rfl
    | static =>
      change ((KeyMode.part? 0 16 material).map (List.take 16)).getD _ = _
      rw [part?_map_take (by omega)]
      simp [KeyMode.part?, Step.gives, List.length_pos_iff, contents]
  | uid =>
    rw [contents, bytesOf_cut_or]
    cases mode with
    | aes => rfl
    | hmacSha1 =>
      change ((KeyMode.part? 16 20 material).map (List.take 6)).getD _ = _
      rw [part?_map_take (by omega)]
      rfl
    | static =>
      change ((KeyMode.part? 16 22 material).map (List.take 6)).getD _ = _
      rw [part?_map_take (by omega)]
      rfl
  | key =>
    rw [contents, bytesOf_cut_or]
    cases mode with
    | aes | hmacSha1 =>
      change ((some (material.take 16)).map (List.take 16)).getD _ = _
      rw [hfull]
      rfl
    | static =>
      change ((KeyMode.part? 22 38 material).map (List.take 16)).getD _ = _
      rw [part?_map_take (by omega)]
      rfl
  | fixedLength => exact absurd rfl h
  | _ => cases mode <;> rfl

/-- **One step**: it gives a field what `TokenConfig.Builder.Step.gives` says, and leaves the other
fields as they were. The byte that counts the first field is not given by any step. -/
theorem contents_apply (builder : Builder) (step : Step) {field : Field}
    (h : field ≠ .fixedLength) :
    (builder.apply step).value.contents field =
      (step.gives field).getD (builder.contents field) := by
  cases step with
  | key mode material => exact contents_setKey builder mode material h
  | _ => cases field <;> first | rfl | exact absurd rfl h

/-! ### Any number of steps -/

/-- What steps leave in a field of a new builder. -/
theorem contents_run (steps : List Step) {field : Field} (h : field ≠ .fixedLength) :
    (empty.run steps).value.contents field =
      (lastGiven (·.gives field) steps).getD (empty.contents field) :=
  part_run (contents · field) (fun builder step => contents_apply builder step h) empty steps

/-- The flags of each kind are changed by the steps with flags of that kind, and by no others. -/
theorem flags_apply (builder : Builder) (step : Step) :
    (builder.apply step).value.configFlags = step.configFlags?.getD builder.configFlags ∧
      (builder.apply step).value.extendedFlags = step.extendedFlags?.getD builder.extendedFlags ∧
      (builder.apply step).value.ticketFlags = step.ticketFlags?.getD builder.ticketFlags := by
  cases step with
  | key mode material =>
    rw [apply, value_setKey]
    exact ⟨rfl, rfl, rfl⟩
  | _ => exact ⟨rfl, rfl, rfl⟩

/-- What steps leave in the flags of a new builder. -/
theorem flags_run (steps : List Step) :
    (empty.run steps).value.configFlags = (lastGiven Step.configFlags? steps).getD .empty ∧
      (empty.run steps).value.extendedFlags = (lastGiven Step.extendedFlags? steps).getD .empty ∧
      (empty.run steps).value.ticketFlags = (lastGiven Step.ticketFlags? steps).getD .empty :=
  ⟨part_run configFlags (fun builder step => (flags_apply builder step).1) empty steps,
    part_run extendedFlags (fun builder step => (flags_apply builder step).2.1) empty steps,
    part_run ticketFlags (fun builder step => (flags_apply builder step).2.2) empty steps⟩

/-! ### Reading back -/

/-- A value that a builder holds fits its field. -/
theorem length_contents_le (builder : Builder) (field : Field) :
    (builder.contents field).length ≤ field.size := by
  have hvalue : ∀ {size : Nat} (value : Option (Bytes.AtMost size)),
      (bytesOf value).length ≤ size := by
    intro size value
    cases value with
    | none => exact Nat.zero_le size
    | some value => exact value.length_le
  cases field with
  | fixed | uid | key | accessCode | currentAccessCode => exact hvalue _
  | reserved | checksum => exact Nat.zero_le _
  | _ => exact Nat.le_refl 1

/-- A field that is not the checksum holds a value and zeros behind it. -/
theorem image_eq (builder : Builder) {field : Field} (h : field ≠ .checksum) :
    builder.image field = builder.contents field ++
      List.replicate (field.size - (builder.contents field).length) 0 := by
  rw [image_of_ne_checksum _ h, fieldBytes, Bytes.zeroPadded,
    List.take_of_length_le (builder.length_contents_le field)]

section Parsed

variable {builder : Builder} {record : SlotRecord}

/-- What a record that was built is read to have in its fields. -/
theorem field_of_bytes_eq_build (h : record.bytes = builder.build) (field : Field) :
    record.field field = builder.image field := by
  rw [SlotRecord.field_eq, h, slice_build]

/-- The byte that counts the first field counts what the builder holds of it. -/
theorem fixedLength_of_bytes_eq_build (h : record.bytes = builder.build) :
    record.fixedLength.toNat = (builder.contents .fixed).length := by
  have hle : (builder.contents .fixed).length ≤ 16 := builder.length_contents_le .fixed
  have hbyte : record.fixedLength = (builder.contents .fixed).length.toUInt8 := by
    rw [SlotRecord.fixedLength, SlotRecord.byte, field_of_bytes_eq_build h]
    rfl
  rw [hbyte, Nat.toUInt8_eq, UInt8.toNat_ofNat']
  omega

/-- The public identifier is read without the zeros behind it. -/
theorem fixed_of_bytes_eq_build (h : record.bytes = builder.build) :
    record.fixed = builder.contents .fixed := by
  rw [SlotRecord.fixed, fixedLength_of_bytes_eq_build h, field_of_bytes_eq_build h,
    image_eq builder (by decide), List.take_left]

/-- All eight bits of each kind of flags are read back. -/
theorem flags_of_bytes_eq_build (h : record.bytes = builder.build) :
    record.configFlags = builder.configFlags ∧ record.extendedFlags = builder.extendedFlags ∧
      record.ticketFlags = builder.ticketFlags := by
  simp only [SlotRecord.configFlags, SlotRecord.extendedFlags, SlotRecord.ticketFlags,
    SlotRecord.byte, field_of_bytes_eq_build h]
  exact ⟨rfl, rfl, rfl⟩

end Parsed

/-- **A record reads back as the last steps made it.** Whatever steps a new builder goes through,
its record is accepted. Each value field holds the value given to it last, cut to the field, and
zeros behind it; the public identifier and its length are those of the value given last; the flags
of each kind are the ones given last, named or not. -/
theorem parse_build_run (steps : List Step) :
    ∃ record, SlotRecord.parse (empty.run steps).value.build = .ok record ∧
      record.bytes = (empty.run steps).value.build ∧
      (∀ field ∈ [Field.fixed, .uid, .key, .accessCode, .currentAccessCode],
        record.field field = lastBytes steps field ++
          List.replicate (field.size - (lastBytes steps field).length) 0) ∧
      record.fixed = lastBytes steps .fixed ∧
      record.fixedLength.toNat = (lastBytes steps .fixed).length ∧
      record.configFlags = (lastGiven Step.configFlags? steps).getD .empty ∧
      record.extendedFlags = (lastGiven Step.extendedFlags? steps).getD .empty ∧
      record.ticketFlags = (lastGiven Step.ticketFlags? steps).getD .empty := by
  obtain ⟨record, hparse, hbytes⟩ := (empty.run steps).value.exists_parse_build
  obtain ⟨hconfig, hextended, hticket⟩ := flags_of_bytes_eq_build hbytes
  obtain ⟨hconfig', hextended', hticket'⟩ := flags_run steps
  -- a value field of the new builder is empty, so nothing stands in for a value never given
  have hcontents : ∀ field ∈ [Field.fixed, .uid, .key, .accessCode, .currentAccessCode],
      (empty.run steps).value.contents field = lastBytes steps field := by
    intro field hfield
    have hne : field ≠ .fixedLength := by
      rintro rfl
      exact absurd hfield (by decide)
    have hempty : empty.contents field = [] := by
      cases field <;> first | rfl | exact absurd hfield (by decide)
    rw [contents_run steps hne, hempty, lastBytes]
  refine ⟨record, hparse, hbytes, fun field hfield => ?_, ?_, ?_, hconfig.trans hconfig',
    hextended.trans hextended', hticket.trans hticket'⟩
  · have hne : field ≠ .checksum := by
      rintro rfl
      exact absurd hfield (by decide)
    rw [field_of_bytes_eq_build hbytes, image_eq _ hne, hcontents field hfield]
  · rw [fixed_of_bytes_eq_build hbytes, hcontents .fixed (by decide)]
  · rw [fixedLength_of_bytes_eq_build hbytes, hcontents .fixed (by decide)]

/-- A short HMAC key leaves the private identifier as it was. -/
example : lastBytes [.uid [1, 2, 3, 4, 5, 6], .key .hmacSha1 (List.replicate 16 7)] .uid =
    [1, 2, 3, 4, 5, 6] := by decide

end Builder

end TokenConfig
