import TokenConfig.Device.Info
import TokenConfig.Proofs.Tlv.Stream

/-!
# Responses, and the transports they report

A response is read in three steps, each of which can refuse it: it has a first byte, this byte
counts the others, and the others are tagged values. `TokenConfig.DeviceInfo.parse_eq_ok_iff` and
`TokenConfig.DeviceInfo.parse_eq_error_iff` say which responses are read and why the others are not.

What a token then says about its transports depends on six tags, on the version that is used, and on
the faults of that version.

* Corrections are made one after another, but the outcome depends only on which ones there are
  (`TokenConfig.Reported.foldl_fix`).
* `TokenConfig.DeviceInfo.Reports` is what tagged values say about the version and the transports,
  written with the numbers of the tags.
* Every response that is read has its transports reported like that
  (`TokenConfig.DeviceInfo.parse_reports`).
-/

namespace TokenConfig

/-! ### Transports -/

theorem PerTransport.mem_transports_iff {α : Type} {values : PerTransport α}
    {transport : Transport} :
    transport ∈ values.transports ↔ values.get? transport ≠ .none := by
  have hall : transport ∈ Transport.all := by cases transport <;> decide
  rw [transports, List.mem_filter, Option.isSome_iff_ne_none]
  exact and_iff_right hall

/-! ### Corrections -/

theorem Correction.mem_ofVersion_iff {version : Version} {correction : Correction} :
    correction ∈ ofVersion version ↔ applies version correction = true := by
  have hall : correction ∈ all := by cases correction <;> decide
  rw [ofVersion, List.mem_filter]
  exact and_iff_right hall

namespace Reported

theorem supported_fix (reported : Reported) (correction : Correction) :
    (reported.fix correction).supported =
      if correction = .supportedMissing then unreportedCapabilities else reported.supported := by
  cases correction <;> rfl

theorem enabled_fix (reported : Reported) (correction : Correction) :
    (reported.fix correction).enabled =
      if correction = .enabledWrong then none else reported.enabled := by
  cases correction <;> rfl

/-- **Corrections do not depend on their order**: a part of the report that one correction replaces,
and the others keep, is replaced if this correction is among those that are made. -/
theorem foldl_fix {α : Type} (part : Reported → α) (fault : Correction) (value : α)
    (hfix : ∀ reported correction, part (fix reported correction) =
      if correction = fault then value else part reported)
    (reported : Reported) (corrections : List Correction) :
    part (corrections.foldl fix reported) =
      if fault ∈ corrections then value else part reported := by
  induction corrections generalizing reported with
  | nil => rfl
  | cons correction corrections ih =>
    -- a later correction of the same fault hides this one
    rw [List.foldl_cons, ih, hfix]
    by_cases hlater : fault ∈ corrections
    · rw [if_pos hlater, if_pos (List.mem_cons_of_mem _ hlater)]
    · rw [if_neg hlater]
      simp only [List.mem_cons, hlater, or_false, eq_comm]

/-- **The one version that does not report what it supports.** -/
theorem supported_correct (reported : Reported) (version : Version) :
    (reported.correct version).value.supported =
      if version = ⟨4, 2, 4⟩ then unreportedCapabilities else reported.supported := by
  rw [correct, foldl_fix (·.supported) .supportedMissing unreportedCapabilities supported_fix]
  simp only [Correction.mem_ofVersion_iff, Correction.applies, beq_iff_eq]

/-- **The versions whose report of what is enabled is not used.** -/
theorem enabled_correct (reported : Reported) (version : Version) :
    (reported.correct version).value.enabled =
      if version.major = 4 then none else reported.enabled := by
  rw [correct, foldl_fix (·.enabled) .enabledWrong none enabled_fix]
  simp only [Correction.mem_ofVersion_iff, Correction.applies, beq_iff_eq]

end Reported

/-! ### Versions -/

theorem Version.ofBytes?_eq_some_iff {bytes : Bytes} {version : Version} :
    ofBytes? bytes = some version ↔ 3 ≤ bytes.length ∧ version.toBytes = bytes.take 3 := by
  constructor
  · intro h
    match bytes, h with
    | major :: minor :: patch :: rest, h =>
      obtain rfl := Option.some.inj h
      exact ⟨by simp, rfl⟩
  · rintro ⟨hlength, htake⟩
    have hbytes : bytes = version.toBytes ++ bytes.drop 3 := by
      rw [htake, List.take_append_drop]
    rw [hbytes, ofBytes?_toBytes_append]

theorem Version.ofBytes?_eq_none_iff {bytes : Bytes} :
    ofBytes? bytes = none ↔ bytes.length < 3 := by
  match bytes with
  | [] => simp [ofBytes?]
  | [_] => simp [ofBytes?]
  | [_, _] => simp [ofBytes?]
  | _ :: _ :: _ :: _ => simp [ofBytes?]

namespace DeviceInfo

variable {values : TagMap} {fallback : Version}

theorem value_versionOf (values : TagMap) (fallback : Version) :
    (versionOf values fallback).value =
      ((values.get? Tag.firmwareVersion.code).bind Version.ofBytes?).getD fallback := by
  rw [versionOf]
  cases hvalue : values.get? Tag.firmwareVersion.code with
  | none => rfl
  | some value => cases hversion : Version.ofBytes? value <;> simp [hversion]

/-! ### The steps of reading -/

/-- **The responses that are read.** -/
theorem parse_eq_ok_iff {response : Bytes} {read : Logged DeviceInfo} :
    parse response fallback = .ok read ↔
      ∃ count payload values, response = count :: payload ∧ payload.length = count.toNat ∧
        TagMap.decode payload = .ok values ∧ ofTags values fallback = read := by
  constructor
  · intro h
    match response, h with
    | count :: payload, h =>
      rw [parse] at h
      split at h
      · next hcount =>
        split at h
        · next values hdecode =>
          exact ⟨count, payload, values, rfl, hcount, hdecode, Except.ok.inj h⟩
        · cases h
      · cases h
  · rintro ⟨count, payload, values, rfl, hcount, hdecode, rfl⟩
    simp only [parse, if_pos hcount, hdecode]

/-- **The responses that are refused**, each for the first step that fails. -/
theorem parse_eq_error_iff {response : Bytes} {fault : Error} :
    parse response fallback = .error fault ↔
      response = [] ∧ fault = .malformed .emptyResponse ∨
      ∃ count payload, response = count :: payload ∧
        (payload.length ≠ count.toNat ∧ fault = .malformed .wrongLength ∨
          payload.length = count.toNat ∧ (∀ values, TagMap.decode payload ≠ .ok values) ∧
            fault = .malformed .notTagged) := by
  match response with
  | [] => simp [parse, eq_comm]
  | count :: payload =>
    rw [parse]
    by_cases hcount : payload.length = count.toNat
    · rw [if_pos hcount]
      cases hdecode : TagMap.decode payload with
      | ok values => simp [hcount, hdecode]
      | error cause =>
        obtain ⟨rfl, -⟩ := TagMap.decode_eq_error_iff.mp hdecode
        simp [hcount, hdecode, eq_comm]
    · simp [hcount, eq_comm]

/-! ### What is reported -/

/-- The capabilities that the value of a tag stands for, if the tag is there. -/
def capabilitiesAt (values : TagMap) (tag : UInt32) : Option Capabilities :=
  (values.get? tag).map fun value => ⟨value.toWord.toBitVec⟩

/-- What tagged values say about the version and the transports of a token. -/
structure Reports (values : TagMap) (fallback : Version) (info : DeviceInfo) : Prop where
  /-- The version is made of the first three bytes of its value. -/
  version_of_long : ∀ value, values.get? 0x05 = some value → 3 ≤ value.length →
    info.version.toBytes = value.take 3
  /-- Without a value, or with one that is too short, it is the one that the caller gives. -/
  version_of_short : (∀ value, values.get? 0x05 = some value → value.length < 3) →
    info.version = fallback
  /-- USB is always supported, NFC if it has capabilities, and nothing else. -/
  mem_supported : ∀ transport, transport ∈ info.supported.transports ↔
    transport = .usb ∨ transport = .nfc ∧ 0x0d ∈ values.tags
  /-- One version does not report what it supports over USB. -/
  supported_usb : info.supported.get? .usb =
    some (if info.version = ⟨4, 2, 4⟩ then ⟨0x3f⟩ else (capabilitiesAt values 0x01).getD ⟨0⟩)
  /-- What is supported over NFC is what is reported. -/
  supported_nfc : info.supported.get? .nfc = capabilitiesAt values 0x0d
  /-- USB is enabled if that is reported and can be believed, NFC if it is supported. -/
  mem_enabled : ∀ transport, transport ∈ info.config.enabled.transports ↔
    transport = .usb ∧ 0x03 ∈ values.tags ∧ info.version.major ≠ 4 ∨
      transport = .nfc ∧ 0x0d ∈ values.tags
  /-- What is enabled over USB is what is reported, as it stands. -/
  enabled_usb : info.version.major ≠ 4 →
    info.config.enabled.get? .usb = capabilitiesAt values 0x03
  /-- What is enabled over NFC is what is reported, nothing if there is no report. -/
  enabled_nfc : 0x0d ∈ values.tags →
    info.config.enabled.get? .nfc = some ((capabilitiesAt values 0x0e).getD ⟨0⟩)

theorem capabilitiesAt_ne_none_iff {tag : UInt32} :
    capabilitiesAt values tag ≠ none ↔ tag ∈ values.tags := by
  rw [capabilitiesAt, Ne, Option.map_eq_none_iff, TagMap.mem_tags_iff]

theorem getD_capabilitiesAt (values : TagMap) (tag : UInt32) :
    (capabilitiesAt values tag).getD ⟨0⟩ = capabilitiesOf (values.word tag) := by
  rw [TagMap.word, capabilitiesAt]
  cases values.get? tag <;> rfl

/-- **The version that is used.** -/
theorem version_ofTags (values : TagMap) (fallback : Version) :
    (ofTags values fallback).value.version =
      ((values.get? 0x05).bind Version.ofBytes?).getD fallback :=
  value_versionOf values fallback

/-- **What is supported**, after corrections. -/
theorem supported_ofTags (values : TagMap) (fallback : Version) :
    (ofTags values fallback).value.supported = ⟨some
      (if (ofTags values fallback).value.version = ⟨4, 2, 4⟩ then ⟨0x3f⟩
        else (capabilitiesAt values 0x01).getD ⟨0⟩), capabilitiesAt values 0x0d⟩ := by
  -- the corrections are those of the version that is used, so the version stays folded
  rw [getD_capabilitiesAt]
  exact congrArg (PerTransport.mk · _) (congrArg some (Reported.supported_correct _ _))

/-- **What is enabled**, after corrections. -/
theorem enabled_ofTags (values : TagMap) (fallback : Version) :
    (ofTags values fallback).value.config.enabled =
      ⟨if (ofTags values fallback).value.version.major = 4 then none
          else capabilitiesAt values 0x03,
        (capabilitiesAt values 0x0d).map fun _ => (capabilitiesAt values 0x0e).getD ⟨0⟩⟩ := by
  rw [getD_capabilitiesAt]
  exact congrArg (PerTransport.mk · _) (Reported.enabled_correct _ _)

/-- **The transports that tagged values report.** -/
theorem reports_ofTags (values : TagMap) (fallback : Version) :
    Reports values fallback (ofTags values fallback).value := by
  have hversion := version_ofTags values fallback
  have hsupported := supported_ofTags values fallback
  have henabled := enabled_ofTags values fallback
  generalize (ofTags values fallback).value = info at hversion hsupported henabled
  constructor
  case version_of_long =>
    intro value hvalue hlong
    rw [hvalue, Option.bind_some] at hversion
    obtain ⟨version, hread⟩ := Option.ne_none_iff_exists'.mp
      (Version.ofBytes?_eq_none_iff.not.mpr (Nat.not_lt.mpr hlong))
    rw [hversion, hread]
    exact (Version.ofBytes?_eq_some_iff.mp hread).2
  case version_of_short =>
    intro hshort
    rw [hversion]
    cases hvalue : values.get? 0x05 with
    | none => rfl
    | some value =>
      rw [Option.bind_some, Version.ofBytes?_eq_none_iff.mpr (hshort value hvalue)]
      rfl
  case mem_supported =>
    intro transport
    rw [PerTransport.mem_transports_iff, hsupported, ← capabilitiesAt_ne_none_iff]
    cases transport <;> simp [PerTransport.get?]
  case supported_usb => rw [hsupported]; rfl
  case supported_nfc => rw [hsupported]; rfl
  case mem_enabled =>
    intro transport
    rw [PerTransport.mem_transports_iff, henabled, ← capabilitiesAt_ne_none_iff,
      ← capabilitiesAt_ne_none_iff]
    cases transport <;> simp [PerTransport.get?, and_comm]
  case enabled_usb =>
    intro hmajor
    rw [henabled]
    exact if_neg hmajor
  case enabled_nfc =>
    intro hnfc
    obtain ⟨capabilities, hreported⟩ :=
      Option.ne_none_iff_exists'.mp (capabilitiesAt_ne_none_iff.mpr hnfc)
    rw [henabled, PerTransport.get?, hreported, Option.map_some]

/-- **Which responses are read, why the others are refused, and which transports are reported.** A
response is read if its first byte counts the others and these are tagged values; else the first of
these steps that fails is what is wrong with it. The version and the transports of what is read are
those that the tagged values report. -/
theorem parse_reports (response : Bytes) (fallback : Version) :
    ((∃ read, parse response fallback = .ok read) ↔
      ∃ count payload values, response = count :: payload ∧ payload.length = count.toNat ∧
        TagMap.decode payload = .ok values) ∧
    (∀ fault, parse response fallback = .error fault ↔
      response = [] ∧ fault = .malformed .emptyResponse ∨
      ∃ count payload, response = count :: payload ∧
        (payload.length ≠ count.toNat ∧ fault = .malformed .wrongLength ∨
          payload.length = count.toNat ∧ (∀ values, TagMap.decode payload ≠ .ok values) ∧
            fault = .malformed .notTagged)) ∧
    Malformation.emptyResponse.message = "empty response" ∧
    Malformation.wrongLength.message = "invalid length" ∧
    Malformation.notTagged.message = "invalid TLV encoding" ∧
    ∀ count payload values read, response = count :: payload →
      TagMap.decode payload = .ok values → parse response fallback = .ok read →
      Reports values fallback read.value := by
  refine ⟨?_, fun fault => parse_eq_error_iff, rfl, rfl, rfl, ?_⟩
  · constructor
    · rintro ⟨read, hread⟩
      obtain ⟨count, payload, values, hresponse, hcount, hdecode, -⟩ := parse_eq_ok_iff.mp hread
      exact ⟨count, payload, values, hresponse, hcount, hdecode⟩
    · rintro ⟨count, payload, values, hresponse, hcount, hdecode⟩
      exact ⟨ofTags values fallback,
        parse_eq_ok_iff.mpr ⟨count, payload, values, hresponse, hcount, hdecode, rfl⟩⟩
  · rintro count payload values read rfl hdecode hread
    obtain ⟨_, _, others, ⟨rfl, rfl⟩, -, hothers, rfl⟩ := parse_eq_ok_iff.mp hread
    rw [hothers] at hdecode
    obtain rfl := Except.ok.inj hdecode
    exact reports_ofTags others fallback

end DeviceInfo

end TokenConfig
