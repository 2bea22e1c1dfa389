import TokenConfig.Proofs.Device.Payload
import TokenConfig.Proofs.Slot.Credential
import TokenConfig.Proofs.Slot.Switches

/-!
# Redaction

To **redact** a byte string is to put as many zeros in its place; to redact anything that holds
identifiers, keys or codes is to redact these and to keep the rest. Two values that redact to the
same differ in the contents of such byte strings at most, and in neither their lengths
(`TokenConfig.Bytes.redacted_eq_iff`) nor anything else.

What is decided, said or described along the way from a credential to a record depends on lengths
only, and so it is the same for a value and for the redacted one:

* a step on a builder commutes with redaction (`TokenConfig.Builder.redacted_apply`) and says the
  same (`TokenConfig.Builder.Step.report_redacted`), and an adjustment of a configuration does so
  too (`TokenConfig.SlotConfiguration.redacted_adjust`,
  `TokenConfig.SlotConfiguration.events_adjust_redacted`);
* credentials that redact to the same are refused or become configurations that redact to the same
  (`TokenConfig.SlotConfiguration.ofCredential_alike`);
* a description shows nothing that redaction takes away (`TokenConfig.Builder.description_redacted`,
  `TokenConfig.SlotConfiguration.description_redacted`). A record does not commute with redaction,
  as its checksum goes over everything; but what its description shows of it are parts of the
  builder (`TokenConfig.SlotRecord.description_eq`);
* a configuration of the device is encoded for a request if it is for the redacted request, to as
  many bytes (`TokenConfig.DeviceConfig.length_sentBytes_redacted`).
-/

namespace TokenConfig

/-! ### Byte strings -/

namespace Bytes

/-- As many zeros as there are bytes. -/
def redacted (bytes : Bytes) : Bytes :=
  List.replicate bytes.length 0

@[simp] theorem length_redacted (bytes : Bytes) : bytes.redacted.length = bytes.length :=
  List.length_replicate

/-- The length is all that is left. -/
theorem redacted_eq_iff {a b : Bytes} : a.redacted = b.redacted ↔ a.length = b.length := by
  constructor
  · intro h
    rw [← length_redacted a, h, length_redacted]
  · intro h
    rw [redacted, h, redacted]

theorem redacted_take (count : Nat) (bytes : Bytes) :
    redacted (bytes.take count) = bytes.redacted.take count := by
  rw [redacted, redacted, List.take_replicate, List.length_take]

theorem redacted_drop (count : Nat) (bytes : Bytes) :
    redacted (bytes.drop count) = bytes.redacted.drop count := by
  rw [redacted, redacted, List.drop_replicate, List.length_drop]

/-- Zeros in place of a value that fits. -/
def AtMost.redacted {size : Nat} (value : AtMost size) : AtMost size :=
  ⟨value.bytes.redacted, (length_redacted value.bytes).trans_le value.length_le⟩

/-- Zeros in place of a value that fills its field. -/
def Exactly.redacted {size : Nat} (value : Exactly size) : Exactly size :=
  ⟨value.bytes.redacted, (length_redacted value.bytes).trans value.length_eq⟩

theorem redacted_cut (size : Nat) (bytes : Bytes) :
    (AtMost.cut size bytes).redacted = AtMost.cut size bytes.redacted := by
  rw [AtMost.cut, AtMost.redacted, AtMost.cut, AtMost.mk.injEq, redacted_take]

end Bytes

namespace KeyMode

theorem map_redacted_part? (start finish : Nat) (material : Bytes) :
    (part? start finish material).map Bytes.redacted = part? start finish material.redacted := by
  rw [part?, part?, Bytes.length_redacted]
  split
  · rw [Option.map_some, Bytes.redacted_drop, Bytes.redacted_take]
  · rfl

/-- Which fields get a part of key material, and of what length, depends on its length. -/
theorem split_redacted (mode : KeyMode) (material : Bytes) :
    mode.split material.redacted =
      { fixed := (mode.split material).fixed.map Bytes.redacted
        uid := (mode.split material).uid.map Bytes.redacted
        key := (mode.split material).key.map Bytes.redacted } := by
  cases mode with
  | aes | hmacSha1 | static =>
    simp only [split, map_redacted_part?, Option.map_some, Option.map_none, Bytes.redacted_take]

end KeyMode

/-! ### Builders -/

namespace Builder

/-- Zeros in place of every value. -/
def redacted (builder : Builder) : Builder :=
  { builder with
    fixed := builder.fixed.map (·.redacted)
    uid := builder.uid.map (·.redacted)
    key := builder.key.map (·.redacted)
    accessCode := builder.accessCode.map (·.redacted)
    currentAccessCode := builder.currentAccessCode.map (·.redacted) }

/-- Zeros in place of the value that a step sets. -/
def Step.redacted : Step → Step
  | .fixed bytes => .fixed bytes.redacted
  | .uid bytes => .uid bytes.redacted
  | .key mode material => .key mode material.redacted
  | .accessCode bytes => .accessCode bytes.redacted
  | .currentAccessCode bytes => .currentAccessCode bytes.redacted
  | .configFlags flags => .configFlags flags
  | .extendedFlags flags => .extendedFlags flags
  | .ticketFlags flags => .ticketFlags flags

/-- What a step says is about a length. -/
theorem Step.report_redacted (step : Step) : step.redacted.report = step.report := by
  cases step <;> simp only [redacted, report, Bytes.length_redacted]

/-- A new value where there is one, or else the old one, with zeros in place of either. -/
theorem map_redacted_cut_or {size : Nat} (new : Option Bytes) (old : Option (Bytes.AtMost size)) :
    ((new.map (Bytes.AtMost.cut size)).or old).map (·.redacted) =
      ((new.map Bytes.redacted).map (.cut size)).or (old.map (·.redacted)) := by
  cases new with
  | none => rfl
  | some bytes => exact congrArg some (Bytes.redacted_cut size bytes)

/-- **A step commutes with redaction.** -/
theorem redacted_apply (builder : Builder) (step : Step) :
    (builder.apply step).value.redacted = (builder.redacted.apply step.redacted).value := by
  cases step with
  | key mode material =>
    simp only [apply, Step.redacted, value_setKey, redacted, KeyMode.split_redacted,
      map_redacted_cut_or]
  | configFlags flags | extendedFlags flags | ticketFlags flags => rfl
  | fixed bytes | uid bytes | accessCode bytes | currentAccessCode bytes =>
    simp only [redacted, apply, Step.redacted, setFixed, setUid, setAccessCode,
      setCurrentAccessCode, fit, Logged.value_bind, Logged.value_pure, Option.map_some,
      Bytes.redacted_cut]

/-- Steps one after another commute with redaction. -/
theorem redacted_run (builder : Builder) (steps : List Step) :
    (builder.run steps).value.redacted =
      (builder.redacted.run (steps.map Step.redacted)).value := by
  induction steps generalizing builder with
  | nil => rfl
  | cons step steps ih =>
    rw [run, Logged.value_bind, ih, redacted_apply]
    rfl

/-- **The description of a builder shows lengths** and flags. -/
theorem description_redacted (builder : Builder) :
    builder.redacted.description = builder.description := by
  have hlength : ∀ {size : Nat} (value : Option (Bytes.AtMost size)),
      (value.map (·.redacted)).map (·.bytes.length) = value.map (·.bytes.length) := by
    intro size value
    cases value with
    | none => rfl
    | some value => exact congrArg some (Bytes.length_redacted value.bytes)
  simp only [description, redacted, hlength]

theorem length_contents_redacted (builder : Builder) (field : Field) :
    (builder.redacted.contents field).length = (builder.contents field).length := by
  have hvalue : ∀ {size : Nat} (value : Option (Bytes.AtMost size)),
      (bytesOf (value.map (·.redacted))).length = (bytesOf value).length := by
    intro size value
    cases value with
    | none => rfl
    | some value => exact Bytes.length_redacted value.bytes
  cases field with
  | fixed | uid | key | accessCode | currentAccessCode => exact hvalue _
  | _ => rfl

end Builder

/-- **The description of a record shows what the builder had**: the length of the first field, and
flags. -/
theorem SlotRecord.description_eq {record : SlotRecord} {builder : Builder}
    (h : record.bytes = builder.build) :
    record.description = Braced.partly "SlotRecord" [
      Braced.part "fixed_len" (toString (builder.redacted.contents .fixed).length),
      Braced.part "cfg_flags" builder.redacted.configFlags.description,
      Braced.part "ext_flags" builder.redacted.extendedFlags.description,
      Braced.part "tkt_flags" builder.redacted.ticketFlags.description] := by
  obtain ⟨hconfig, hextended, hticket⟩ := Builder.flags_of_bytes_eq_build h
  rw [description, Builder.fixedLength_of_bytes_eq_build h, hconfig, hextended, hticket,
    Builder.length_contents_redacted]
  rfl

/-! ### Configurations of a slot -/

namespace Credential

/-- Zeros in place of the parts of a credential. -/
def redacted : Credential → Credential
  | .yubicoOtp publicId privateId key =>
    .yubicoOtp publicId.redacted privateId.redacted key.redacted
  | .hmacSha1 key touch => .hmacSha1 key.redacted touch
  | .hotp key eightDigits => .hotp key.redacted eightDigits
  | .staticPassword scanCodes => .staticPassword scanCodes.redacted
  | .staticTicket fixed uid key => .staticTicket fixed.redacted uid.redacted key.redacted
  | .update => .update

/-- Whether a credential fits is a matter of lengths. -/
theorem fits_redacted (credential : Credential) : credential.redacted.fits = credential.fits := by
  cases credential <;> simp only [redacted, fits, Bytes.length_redacted]

theorem steps_redacted (credential : Credential) :
    credential.redacted.steps = credential.steps.map Builder.Step.redacted := by
  cases credential <;> rfl

end Credential

namespace SlotConfiguration

/-- Zeros in place of the values of a configuration. -/
def redacted (config : SlotConfiguration) : SlotConfiguration :=
  { config with builder := config.builder.redacted }

/-- Zeros in place of the code that an adjustment sets. -/
def Adjustment.redacted : Adjustment → Adjustment
  | .accessCode bytes => .accessCode bytes.redacted
  | .currentAccessCode bytes => .currentAccessCode bytes.redacted
  | .ticketFlags mask on => .ticketFlags mask on
  | .configFlags mask on => .configFlags mask on
  | .extendedFlags mask on => .extendedFlags mask on

/-- Values that are put into a configuration commute with redaction. -/
theorem redacted_withValues (config : SlotConfiguration) (steps : List Builder.Step) :
    (config.withValues steps).value.redacted =
      (config.redacted.withValues (steps.map Builder.Step.redacted)).value := by
  simp only [withValues, Logged.value_bind, Logged.value_pure, redacted, Builder.redacted_run]

theorem events_withValues (config : SlotConfiguration) (steps : List Builder.Step) :
    (config.withValues steps).events = steps.flatMap Builder.Step.report := by
  rw [withValues, Logged.events_bind, Logged.events_pure, List.append_nil, Builder.events_run]

theorem events_withValues_redacted (config : SlotConfiguration) (steps : List Builder.Step) :
    (config.redacted.withValues (steps.map Builder.Step.redacted)).events =
      (config.withValues steps).events := by
  simp only [events_withValues, List.flatMap_map, Builder.Step.report_redacted]

theorem ofKind_redacted (credential : Credential) :
    ofKind credential.redacted = (ofKind credential).redacted := by
  cases credential <;> rfl

/-- **Credentials that redact to the same** are both refused, or become configurations that redact
to the same and say the same. -/
theorem ofCredential_alike {credential other : Credential}
    (h : credential.redacted = other.redacted) :
    (ofCredential credential = .error .argument ∧ ofCredential other = .error .argument) ∨
      ∃ configured otherConfigured, ofCredential credential = .ok configured ∧
        ofCredential other = .ok otherConfigured ∧
        configured.value.redacted = otherConfigured.value.redacted ∧
        configured.events = otherConfigured.events := by
  have hfits : credential.fits = other.fits := by
    rw [← credential.fits_redacted, h, other.fits_redacted]
  have hsteps : credential.steps.map Builder.Step.redacted =
      other.steps.map Builder.Step.redacted := by
    rw [← credential.steps_redacted, h, other.steps_redacted]
  have hkind : (ofKind credential).redacted = (ofKind other).redacted := by
    rw [← ofKind_redacted, h, ofKind_redacted]
  rw [ofCredential, ofCredential, hfits]
  cases other.fits with
  | false => exact .inl ⟨rfl, rfl⟩
  | true =>
    refine .inr ⟨_, _, rfl, rfl, ?_, ?_⟩
    · rw [redacted_withValues, hkind, hsteps, ← redacted_withValues]
    · rw [← events_withValues_redacted, hkind, hsteps, events_withValues_redacted]

/-- **An adjustment commutes with redaction.** -/
theorem redacted_adjust (config : SlotConfiguration) (adjustment : Adjustment) :
    (config.adjust adjustment).value.redacted =
      (config.redacted.adjust adjustment.redacted).value := by
  cases adjustment with
  | accessCode bytes | currentAccessCode bytes => exact redacted_withValues config _
  | ticketFlags mask on | configFlags mask on | extendedFlags mask on => rfl

theorem events_adjust_redacted (config : SlotConfiguration) (adjustment : Adjustment) :
    (config.redacted.adjust adjustment.redacted).events = (config.adjust adjustment).events := by
  cases adjustment with
  | accessCode bytes => exact events_withValues_redacted config [.accessCode bytes]
  | currentAccessCode bytes => exact events_withValues_redacted config [.currentAccessCode bytes]
  | ticketFlags mask on | configFlags mask on | extendedFlags mask on => rfl

/-- **The description of a configuration shows lengths** and flags. -/
theorem description_redacted (config : SlotConfiguration) :
    config.redacted.description = config.description := by
  rw [description, redacted, Builder.description_redacted, description]

end SlotConfiguration

/-! ### Configurations of the device -/

/-- How many bytes tagged values take depends on the lengths of the values. -/
theorem Tag.length_flatMap_bytes_tlvs_congr {value other : Tag → Option Bytes}
    (h : ∀ tag, (value tag).map List.length = (other tag).map List.length) (tags : List Tag) :
    ((tlvs value tags).flatMap Tlv.bytes).length =
      ((tlvs other tags).flatMap Tlv.bytes).length := by
  induction tags with
  | nil => rfl
  | cons tag tags ih =>
    have htag := h tag
    rw [tlvs, tlvs, List.filterMap_cons, List.filterMap_cons]
    cases hvalue : value tag with
    | none =>
      have hother : other tag = none := by
        rw [hvalue, Option.map_none, eq_comm, Option.map_eq_none_iff] at htag
        exact htag
      rw [hother]
      exact ih
    | some bytes =>
      rw [hvalue, Option.map_some, eq_comm, Option.map_eq_some_iff] at htag
      obtain ⟨otherBytes, hother, hlength⟩ := htag
      rw [hother]
      simp only [Option.map_some, List.flatMap_cons, List.length_append, Tlv.bytes, hlength]
      exact congrArg _ ih

namespace DeviceConfig

/-- Zeros in place of the codes of a request. -/
def Request.redacted (request : Request) : Request :=
  { request with
    currentLock := request.currentLock.map Bytes.redacted
    newLock := request.newLock.map Bytes.redacted }

/-- Whether a configuration can be sent depends on the lengths of the codes. -/
theorem encodable_redacted_iff {config : DeviceConfig} {request : Request} :
    Encodable config request.redacted ↔ Encodable config request := by
  have hcode : ∀ {code : Option Bytes},
      (∀ bytes ∈ code.map Bytes.redacted, bytes.length = 16) ↔
        ∀ bytes ∈ code, bytes.length = 16 := by
    intro code
    cases code <;> simp
  constructor
  · intro h
    exact ⟨hcode.mp h.currentLock, hcode.mp h.newLock, h.enabled, h.deviceFlags⟩
  · intro h
    exact ⟨hcode.mpr h.currentLock, hcode.mpr h.newLock, h.enabled, h.deviceFlags⟩

/-- How much is sent depends on the lengths of the codes. -/
theorem length_sentBytes_redacted (config : DeviceConfig) (request : Request) :
    (sentBytes config request.redacted).length = (sentBytes config request).length := by
  have hcode : ∀ code : Option Bytes,
      (code.map Bytes.redacted).map List.length = code.map List.length := by
    intro code
    cases code <;> simp
  refine Tag.length_flatMap_bytes_tlvs_congr (fun tag => ?_) sentTags
  cases tag with
  | unlock | configLock => exact hcode _
  | _ => rfl

end DeviceConfig

end TokenConfig
