import TokenConfig.Proofs.Slot.Material
import TokenConfig.Proofs.Slot.Truncation
import TokenConfig.Slot.Configuration

/-!
# A credential is carried whole

A credential is refused if it is too long for a record, and otherwise it is never cut: the bounds
that `TokenConfig.Credential.fits` looks at are the ones at which a builder would begin to cut
(`TokenConfig.Credential.TooLong`). What is adjusted afterwards are codes and flags. These do not
reach the first three fields, so the record of an adjusted configuration is accepted and holds the
credential (`TokenConfig.SlotConfiguration.ofCredential_holds`), with each access code the last one
that was given.

* `TokenConfig.SlotRecord.Holds` says where a record has a credential.
* `TokenConfig.SlotConfiguration.builder_adjustAll` makes steps of adjustments, so that the laws of
  steps on a builder serve here as well.
-/

namespace TokenConfig

/-! ### Credentials that fit -/

namespace Credential

/-- Whether some part of a credential is longer than the room that a record has for it. -/
def TooLong : Credential → Prop
  | .yubicoOtp publicId _ _ => 16 < publicId.length
  | .hmacSha1 key _ | .hotp key _ => 20 < key.length
  | .staticPassword scanCodes => 38 < scanCodes.length
  | .staticTicket fixed _ _ => 16 < fixed.length
  | .update => False

theorem fits_iff (credential : Credential) : credential.fits = true ↔ ¬ credential.TooLong := by
  cases credential with
  | update => exact iff_of_true rfl not_false
  | _ => exact decide_eq_true_iff.trans Nat.not_lt.symm

/-- A credential that fits is put into a record without a word. -/
theorem report_steps {credential : Credential} (h : ¬ credential.TooLong) :
    credential.steps.flatMap Builder.Step.report = [] := by
  cases credential with
  | yubicoOtp publicId uid key | staticTicket publicId uid key =>
    have hid : (Builder.Step.fixed publicId).report = [] := if_neg h
    have huid : (Builder.Step.uid uid.bytes).report = [] := if_neg uid.length_eq.not_gt
    have hkey : (Builder.Step.key .aes key.bytes).report = [] := if_neg key.length_eq.not_gt
    simp only [steps, List.flatMap_cons, hid, huid, hkey, List.flatMap_nil, List.append_nil]
  | hmacSha1 key _ | hotp key _ => exact (List.append_nil _).trans (if_neg h)
  | staticPassword scanCodes => exact (List.append_nil _).trans (if_neg h)
  | update => rfl

/-- A credential is no access code. -/
theorem lastBytes_steps_eq_nil (credential : Credential) {field : Field}
    (h : field ∈ [Field.accessCode, .currentAccessCode]) :
    Builder.lastBytes credential.steps field = [] := by
  cases field <;> first | exact absurd h (by decide) | (cases credential <;> rfl)

end Credential

/-! ### Records that hold a credential -/

namespace SlotRecord

/-- Where a record has a credential. Identifiers and an AES key have a field each. An HMAC key goes
on in the private identifier, of which two bytes are left, and scan codes fill the first three
fields, which an update leaves empty. -/
def Holds (record : SlotRecord) : Credential → Prop
  | .yubicoOtp publicId uid key | .staticTicket publicId uid key =>
    record.fixed = publicId ∧ record.fixedLength.toNat = publicId.length ∧
      record.field .uid = uid.bytes ∧ record.field .key = key.bytes
  | .hmacSha1 key _ | .hotp key _ =>
    record.field .key ++ (record.field .uid).take 4 =
        key ++ List.replicate (20 - key.length) 0 ∧
      (record.field .uid).drop 4 = [0, 0] ∧ record.fixedLength = 0
  | .staticPassword scanCodes =>
    record.bytes.take 38 = scanCodes ++ List.replicate (38 - scanCodes.length) 0 ∧
      record.fixedLength.toNat = min scanCodes.length 16
  | .update => record.bytes.take 38 = List.replicate 38 0 ∧ record.fixedLength = 0

/-- **A record whose first three fields a credential has filled holds it**, provided that nothing of
it was cut. -/
theorem holds_of_contents {builder : Builder} {record : SlotRecord}
    (hbytes : record.bytes = builder.build) {credential : Credential}
    (hshort : ¬ credential.TooLong)
    (hcontents : ∀ field ∈ [Field.fixed, .uid, .key],
      builder.contents field = Builder.lastBytes credential.steps field) :
    record.Holds credential := by
  cases credential with
  | yubicoOtp publicId uid key | staticTicket publicId uid key =>
    obtain ⟨hfront, hmiddle, hrest⟩ := Builder.lastBytes_aes publicId uid.bytes key.bytes
    have hid : builder.contents .fixed = publicId := by
      rw [hcontents .fixed (by decide), Credential.steps, hfront,
        List.take_of_length_le (Nat.not_lt.mp hshort)]
    have huid := Builder.field_eq_zeroPadded_of_mem hbytes (by decide)
      ((hcontents .uid (by decide)).trans hmiddle)
    have hkey := Builder.field_eq_zeroPadded_of_mem hbytes (by decide)
      ((hcontents .key (by decide)).trans hrest)
    refine ⟨?_, ?_, huid.trans uid.zeroPadded_take, hkey.trans key.zeroPadded_take⟩
    · rw [Builder.fixed_of_bytes_eq_build hbytes, hid]
    · rw [Builder.fixedLength_of_bytes_eq_build hbytes, hid]
  | hmacSha1 key _ | hotp key _ =>
    have hholds : record.HoldsMaterial key .hmacSha1 :=
      Builder.holdsMaterial_of_contents hbytes hcontents
    obtain ⟨hwhole, -, hzeros, hcount⟩ := hholds
    rw [List.take_of_length_le (Nat.not_lt.mp hshort)] at hwhole
    exact ⟨hwhole, hzeros, hcount⟩
  | staticPassword scanCodes =>
    have hholds : record.HoldsMaterial scanCodes .static :=
      Builder.holdsMaterial_of_contents hbytes hcontents
    obtain ⟨hwhole, hcount⟩ := hholds
    rw [List.take_of_length_le (Nat.not_lt.mp hshort)] at hwhole
    exact ⟨record.take_eq_fields.trans hwhole, hcount⟩
  | update =>
    have hzero : ∀ field ∈ [Field.fixed, .uid, .key], record.field field =
        Bytes.zeroPadded field.size [] :=
      fun field hmem => Builder.field_eq_zeroPadded_of_mem hbytes hmem (hcontents field hmem)
    have hcount := Builder.fixedLength_of_bytes_eq_build hbytes
    rw [hcontents .fixed (by decide)] at hcount
    rw [Holds, take_eq_fields, hzero .fixed (by decide), hzero .uid (by decide),
      hzero .key (by decide)]
    exact ⟨rfl, UInt8.toNat_inj.mp hcount⟩

end SlotRecord

/-! ### Adjusted configurations -/

namespace SlotConfiguration

/-- The step on the builder that an adjustment amounts to. Flags are kept beside the builder, so
adjusting them is none. -/
def Adjustment.step? : Adjustment → Option Builder.Step
  | .accessCode bytes => some (.accessCode bytes)
  | .currentAccessCode bytes => some (.currentAccessCode bytes)
  | .ticketFlags _ _ | .configFlags _ _ | .extendedFlags _ _ => none

/-- What an adjustment gives to a field, if it reaches the field. -/
def Adjustment.gives (adjustment : Adjustment) (field : Field) : Option Bytes :=
  adjustment.step?.bind (·.gives field)

/-- The access code that an adjustment gives. -/
def Adjustment.accessCode? : Adjustment → Option Bytes
  | .accessCode bytes => some bytes
  | _ => none

/-- The current access code that an adjustment gives. -/
def Adjustment.currentAccessCode? : Adjustment → Option Bytes
  | .currentAccessCode bytes => some bytes
  | _ => none

/-- Adjustments do not reach the fields that hold a credential. -/
theorem Adjustment.gives_eq_none (adjustment : Adjustment) {field : Field}
    (h : field ∈ [Field.fixed, .uid, .key]) : adjustment.gives field = none := by
  cases field <;> first | exact absurd h (by decide) | (cases adjustment <;> rfl)

theorem Adjustment.gives_accessCode (adjustment : Adjustment) :
    adjustment.gives .accessCode = adjustment.accessCode?.map (List.take 6) := by
  cases adjustment <;> rfl

theorem Adjustment.gives_currentAccessCode (adjustment : Adjustment) :
    adjustment.gives .currentAccessCode = adjustment.currentAccessCode?.map (List.take 6) := by
  cases adjustment <;> rfl

/-- Adjustments are steps on the builder. -/
theorem builder_adjustAll (config : SlotConfiguration) (adjustments : List Adjustment) :
    (config.adjustAll adjustments).value.builder =
      (config.builder.run (adjustments.filterMap Adjustment.step?)).value := by
  induction adjustments generalizing config with
  | nil => rfl
  | cons adjustment rest ih =>
    rw [adjustAll, Logged.value_bind, ih]
    cases adjustment <;> rfl

section Values

variable {field : Field} (hfield : field ∈ [Field.fixed, .uid, .key, .accessCode,
  .currentAccessCode])
include hfield

theorem contents_empty_of_value : Builder.empty.contents field = [] := by
  cases field <;> first | rfl | exact absurd hfield (by decide)

/-- The flags that a configuration adds are not among the values. -/
theorem contents_toBuilder (config : SlotConfiguration) :
    config.toBuilder.value.contents field = config.builder.contents field := by
  cases field <;> first | rfl | exact absurd hfield (by decide)

variable {config : SlotConfiguration} {steps : List Builder.Step}
  (hsteps : config.builder = (Builder.empty.run steps).value) (adjustments : List Adjustment)
include hsteps

/-- **What an adjusted configuration has in a field**: what an adjustment gave to it last, or else
what the steps before all adjustments put there. -/
theorem contents_adjustAll :
    (config.adjustAll adjustments).value.toBuilder.value.contents field =
      (lastGiven (·.gives field) adjustments).getD (Builder.lastBytes steps field) := by
  have hne : field ≠ .fixedLength := by
    rintro rfl
    exact absurd hfield (by decide)
  rw [contents_toBuilder hfield, builder_adjustAll,
    Builder.part_run (Builder.contents · field)
      (fun builder step => Builder.contents_apply builder step hne),
    lastGiven_filterMap, hsteps, Builder.contents_run _ hne, contents_empty_of_value hfield,
    Builder.lastBytes]
  rfl

/-- A field that the steps did not reach has the value in the record that was adjusted last. -/
theorem field_of_bytes_eq_build_adjustAll {record : SlotRecord}
    (hbytes : record.bytes = (config.adjustAll adjustments).value.toBuilder.value.build)
    {value? : Adjustment → Option Bytes}
    (hgives : ∀ adjustment : Adjustment,
      adjustment.gives field = (value? adjustment).map (List.take field.size))
    (hnil : Builder.lastBytes steps field = []) :
    record.field field =
      Bytes.zeroPadded field.size ((lastGiven value? adjustments).getD []) := by
  have hne : field ≠ .checksum := by
    rintro rfl
    exact absurd hfield (by decide)
  rw [Builder.field_eq_zeroPadded hbytes hne, contents_adjustAll hfield hsteps, hnil,
    funext hgives, lastGiven_map_value]
  cases lastGiven value? adjustments with
  | none => rfl
  | some value => exact Bytes.zeroPadded_take_of_le (Nat.le_refl _) value

end Values

/-- An accepted credential fits. It is accepted without an event, and its steps are all that the
builder has seen. -/
theorem of_ofCredential_eq_ok {credential : Credential} {configured : Logged SlotConfiguration}
    (h : ofCredential credential = .ok configured) :
    ¬ credential.TooLong ∧ configured.events = [] ∧
      configured.value.builder = (Builder.empty.run credential.steps).value := by
  unfold ofCredential at h
  split at h
  · next hfits =>
    obtain rfl := Except.ok.inj h
    have hshort := credential.fits_iff.mp hfits
    refine ⟨hshort, ?_, by cases credential <;> rfl⟩
    rw [withValues, Logged.events_bind, Builder.events_run, credential.report_steps hshort]
    rfl
  · cases h

/-- What is refused is too long. -/
theorem ofCredential_eq_error_iff (credential : Credential) (fault : Error) :
    ofCredential credential = .error fault ↔ fault = .argument ∧ credential.TooLong := by
  have hfits := credential.fits_iff
  unfold ofCredential
  split
  · next h => simp [hfits.mp h]
  · next h =>
    have hlong : credential.TooLong := not_not.mp (mt hfits.mpr h)
    simp [hlong, eq_comm]

/-- **Credentials are carried whole.** A credential is refused exactly if some part of it is too
long, and what is accepted is accepted without an event. Whatever codes and flags are adjusted
afterwards, the record is accepted and holds the credential, and each access code is the one given
last, cut to its field or followed by zeros. -/
theorem ofCredential_holds (credential : Credential) :
    (∀ fault, ofCredential credential = .error fault ↔
      fault = .argument ∧ credential.TooLong) ∧
      ∀ configured, ofCredential credential = .ok configured →
        configured.events = [] ∧
          ∀ adjustments, ∃ record,
            SlotRecord.parse (configured.value.adjustAll adjustments).value.build.value =
                .ok record ∧
              record.Holds credential ∧
              record.field .accessCode = Bytes.zeroPadded 6
                ((lastGiven Adjustment.accessCode? adjustments).getD []) ∧
              record.field .currentAccessCode = Bytes.zeroPadded 6
                ((lastGiven Adjustment.currentAccessCode? adjustments).getD []) := by
  refine ⟨ofCredential_eq_error_iff credential, fun configured h => ?_⟩
  obtain ⟨hshort, hevents, hsteps⟩ := of_ofCredential_eq_ok h
  refine ⟨hevents, fun adjustments => ?_⟩
  obtain ⟨record, hparse, hbytes⟩ :=
    (configured.value.adjustAll adjustments).value.toBuilder.value.exists_parse_build
  refine ⟨record, hparse, SlotRecord.holds_of_contents hbytes hshort fun field hfield => ?_,
    field_of_bytes_eq_build_adjustAll (by decide) hsteps adjustments hbytes
      Adjustment.gives_accessCode (credential.lastBytes_steps_eq_nil (by decide)),
    field_of_bytes_eq_build_adjustAll (by decide) hsteps adjustments hbytes
      Adjustment.gives_currentAccessCode (credential.lastBytes_steps_eq_nil (by decide))⟩
  have hvalue : field ∈ [Field.fixed, .uid, .key, .accessCode, .currentAccessCode] :=
    List.mem_append_left [Field.accessCode, .currentAccessCode] hfield
  have hnone : lastGiven (·.gives field) adjustments = none :=
    lastGiven_eq_none_iff.mpr fun adjustment _ => adjustment.gives_eq_none hfield
  rw [contents_adjustAll hvalue hsteps, hnone, Option.getD_none]

end SlotConfiguration

end TokenConfig
