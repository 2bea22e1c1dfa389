import TokenConfig.Proofs.CommandLine.Info
import TokenConfig.Proofs.Device.Numbers

/-!
# What is corrected is reported

A response that is read is not always taken at its word: a version that is too short is not used,
and what a firmware version is known to report wrongly is corrected. The log says so. It has first
the tags of the response, then a notice of the version if it is too short, and then one for each
fault of the version that is used, in the order in which faults are corrected
(`TokenConfig.DeviceInfo.events_ofTags`).

Which notices there are depends on the same things as what is read does. So where the information
differs from what the response says there is a notice of it, and a response that is refused leaves
no trace in the log of a run (`TokenConfig.DeviceInfo.parse_notices`).
-/

namespace TokenConfig

/-! ### Faults of a version -/

/-- **The faults of a version**, in their order. -/
theorem Correction.ofVersion_eq (version : Version) :
    ofVersion version =
      if version = ⟨4, 2, 4⟩ then [.supportedMissing, .enabledWrong]
      else if version.major = 4 then [.enabledWrong]
      else [] := by
  have happlies : ofVersion version =
      (if version = ⟨4, 2, 4⟩ then [.supportedMissing] else []) ++
        if version.major = 4 then [.enabledWrong] else [] := by
    by_cases hsupported : version = ⟨4, 2, 4⟩ <;> by_cases henabled : version.major = 4 <;>
      simp [ofVersion, all, applies, hsupported, henabled]
  rw [happlies]
  split
  · next h =>
    subst h
    rfl
  · rfl

namespace DeviceInfo

open Tlv (Encoding)

variable {values : TagMap} {fallback : Version}

/-! ### What reading says -/

/-- The notice of a version that is too short, given the value of its tag. -/
def versionNotice (value : Option Bytes) (fallback : Version) : List Event :=
  match value with
  | some value => if value.length < 3 then [.versionIgnored value.length fallback] else []
  | none => []

/-- The notices of the faults of a version. -/
def faultNotices (version : Version) : List Event :=
  if version = ⟨4, 2, 4⟩ then
    [.corrected version .supportedMissing, .corrected version .enabledWrong]
  else if version.major = 4 then [.corrected version .enabledWrong]
  else []

theorem events_versionOf (values : TagMap) (fallback : Version) :
    (versionOf values fallback).events = versionNotice (values.get? 0x05) fallback := by
  have hcode : values.get? Tag.firmwareVersion.code = values.get? 0x05 := rfl
  rw [versionOf, hcode]
  cases values.get? 0x05 with
  | none => rfl
  | some value =>
    by_cases hshort : value.length < 3
    · simp [versionNotice, Version.ofBytes?_eq_none_iff.mpr hshort, hshort]
    · obtain ⟨version, hversion⟩ :=
        Option.ne_none_iff_exists'.mp (mt Version.ofBytes?_eq_none_iff.mp hshort)
      simp [versionNotice, hversion, hshort]

theorem events_correct (reported : Reported) (version : Version) :
    (reported.correct version).events = faultNotices version := by
  rw [Reported.correct, Correction.ofVersion_eq, faultNotices]
  split
  · rfl
  · split <;> rfl

/-- A fault is noticed just if the version has it. -/
theorem mem_faultNotices_iff {version : Version} {fault : Correction} :
    .corrected version fault ∈ faultNotices version ↔ fault.applies version = true := by
  rw [← events_correct ⟨.empty, none⟩ version, ← Correction.mem_ofVersion_iff, Reported.correct,
    List.mem_map]
  simp

/-- **What reading says**: the tags, then the version if it is too short, then the faults of the
version that is used. -/
theorem events_ofTags (values : TagMap) (fallback : Version) :
    (ofTags values fallback).events = .responseTags values.tags ::
      (versionNotice (values.get? 0x05) fallback ++
        faultNotices (ofTags values fallback).value.version) := by
  have hversion : (ofTags values fallback).value.version = (versionOf values fallback).value := rfl
  rw [hversion, ← events_versionOf, ofTags]
  simp only [Logged.events_bind, Logged.events_note, events_correct, Logged.events_pure,
    List.append_nil, List.singleton_append]

/-- Two bytes are no version, and the one that is used instead has both faults. -/
example : (ofTags (TagMap.ofList [⟨0x05, [4, 2]⟩, ⟨0x03, [0x3f]⟩]) ⟨4, 2, 4⟩).events =
    [.responseTags [0x03, 0x05], .versionIgnored 2 ⟨4, 2, 4⟩,
      .corrected ⟨4, 2, 4⟩ .supportedMissing, .corrected ⟨4, 2, 4⟩ .enabledWrong] := by
  decide

/-- A fault of the version that is used is noticed. -/
theorem corrected_mem_events {fault : Correction}
    (h : fault.applies (ofTags values fallback).value.version = true) :
    .corrected (ofTags values fallback).value.version fault ∈ (ofTags values fallback).events := by
  rw [events_ofTags]
  exact List.mem_cons_of_mem _ (List.mem_append_right _ (mem_faultNotices_iff.mpr h))

/-- **Supported capabilities that were not reported** are noticed. -/
theorem corrected_mem_of_supported_ne
    (h : ((ofTags values fallback).value.supported.get? .usb).map (·.bits.toNat) ≠
      some (values.word 0x01).toNat) :
    .corrected (ofTags values fallback).value.version .supportedMissing ∈
      (ofTags values fallback).events := by
  refine corrected_mem_events (beq_iff_eq.mpr ?_)
  by_contra hversion
  refine h ?_
  rw [supported_ofTags, if_neg hversion, getD_capabilitiesAt]
  rfl

/-- **Enabled capabilities that were reported and are missing** are noticed. -/
theorem corrected_mem_of_enabled_eq_none (hreported : values.get? 0x03 ≠ none)
    (h : (ofTags values fallback).value.config.enabled.get? .usb = none) :
    .corrected (ofTags values fallback).value.version .enabledWrong ∈
      (ofTags values fallback).events := by
  refine corrected_mem_events (beq_iff_eq.mpr ?_)
  by_contra hmajor
  rw [enabled_ofTags, if_neg hmajor] at h
  exact hreported (Option.map_eq_none_iff.mp h)

/-- **A version that was reported and is not used** is noticed. -/
theorem versionIgnored_mem_events {value : Bytes} (hvalue : values.get? 0x05 = some value)
    (h : (ofTags values fallback).value.version.toBytes ≠ value.take 3) :
    .versionIgnored value.length fallback ∈ (ofTags values fallback).events := by
  have hshort : value.length < 3 := by
    by_contra hlong
    exact h ((reports_ofTags values fallback).version_of_long value hvalue (Nat.not_lt.mp hlong))
  rw [events_ofTags, hvalue, versionNotice, if_pos hshort]
  exact List.mem_cons_of_mem _ (List.mem_append_left _ List.mem_cons_self)

end DeviceInfo

/-! ### How it is said -/

namespace Event

theorem line_responseTags (tags : List UInt32) :
    (responseTags tags).line = "TRACE device info tags: [" ++
      ", ".intercalate (tags.map fun tag => Hex.numeral 2 tag.toNat) ++ "]" := by
  have hline : (responseTags tags).line = "TRACE" ++ " " ++ ("device info tags: [" ++
      ", ".intercalate (tags.map fun tag => Hex.numeral 2 tag.toNat) ++ "]") := rfl
  rw [hline]
  simp [← String.append_assoc]

theorem line_versionIgnored (length : Nat) (fallback : Version) :
    (versionIgnored length fallback).line = "WARN ignoring " ++ toString length ++
      "-byte firmware version, using " ++ fallback.text := by
  have hline : (versionIgnored length fallback).line = "WARN" ++ " " ++ ("ignoring " ++
      toString length ++ "-byte firmware version, using " ++ fallback.text) := rfl
  rw [hline]
  simp [← String.append_assoc]

theorem line_corrected (version : Version) (fault : Correction) :
    (corrected version fault).line =
      "DEBUG firmware " ++ version.text ++ ": " ++ fault.description := by
  have hline : (corrected version fault).line =
      "DEBUG" ++ " " ++ ("firmware " ++ version.text ++ ": " ++ fault.description) := rfl
  rw [hline]
  simp [← String.append_assoc]

end Event

/-! ### What a run logs -/

namespace Info

variable {text : String} {response : Bytes} {fallback : Version}

/-- A run that is given a response does what is to be done about it. -/
theorem run_of_stands (h : Hex.Stands text response) :
    run ⟨fallback, text⟩ = match DeviceInfo.parse response fallback with
      | .error fault => .fail ("can't decode device info: " ++ fault.message)
      | .ok read => ⟨some (), read.events.map .note ++ entries read.value⟩ := by
  have hresponse : decodeArgument "response" text = pure response :=
    (Session.Reads.decodeArgument "response" text response []).mpr ⟨h, rfl⟩
  rw [run, hresponse, pure_bind]
  cases DeviceInfo.parse response fallback <;> rfl

/-- The lines on a device are not in the log. -/
theorem events_entries (info : DeviceInfo) : Output.events (entries info) = [] := by
  refine List.filterMap_eq_nil_iff.mpr fun output houtput => ?_
  obtain ⟨-, -⟩ := legible_entries info output houtput
  rfl

/-- Whether the events are all that is logged by a run that is given the response, in any way. -/
def Logs (response : Bytes) (fallback : Version) (events : List Event) : Prop :=
  ∀ text, Hex.Stands text response → ∀ line, CommandLine.Asks line (.info ⟨fallback, text⟩) →
    ∀ surroundings, Output.events (CommandLine.run surroundings line).outputs = events

theorem logs_of_parse_eq_error {fault : Error}
    (h : DeviceInfo.parse response fallback = .error fault) : Logs response fallback [] := by
  intro text htext line hline surroundings
  rw [CommandLine.run_of_asks hline, CommandLine.outputs_report, CommandLine.perform,
    run_of_stands htext, h]
  rfl

theorem logs_of_parse_eq_ok {read : Logged DeviceInfo}
    (h : DeviceInfo.parse response fallback = .ok read) : Logs response fallback read.events := by
  intro text htext line hline surroundings
  rw [CommandLine.run_of_asks hline, CommandLine.outputs_report, CommandLine.perform,
    run_of_stands htext, h]
  have hnotes : Output.events (read.events.map .note) = read.events := by
    rw [Output.events, List.filterMap_map]
    exact List.filterMap_some
  have happend : Output.events (read.events.map .note ++ entries read.value) =
      Output.events (read.events.map .note) ++ Output.events (entries read.value) :=
    List.filterMap_append
  rw [happend, hnotes, events_entries, List.append_nil]

end Info

/-! ### Every response -/

namespace DeviceInfo

open Tlv (Encoding)

variable {fallback : Version}

/-- Whether the log says what is in encodings, and where the information does not follow them. -/
structure Noticed (encodings : List Encoding) (fallback : Version) (read : Logged DeviceInfo) :
    Prop where
  /-- The events are the tags, each of them once and in ascending order, the version if it is too
  short, and the faults of the version that is used. -/
  events : ∃ tags : List UInt32, tags.Pairwise (· < ·) ∧
    (∀ tag, tag ∈ tags ↔ ∃ encoding ∈ encodings, encoding.tag = tag) ∧
    read.events = .responseTags tags ::
      (versionNotice (lastValue 0x05 encodings) fallback ++ faultNotices read.value.version)
  /-- The version that is used is the reported one, unless that is missing or too short. -/
  version : read.value.version =
    ((lastValue 0x05 encodings).bind Version.ofBytes?).getD fallback
  /-- What is supported over USB is what is reported, or there is a notice. -/
  supported :
    (read.value.supported.get? .usb).map (·.bits.toNat) ≠
      some (lastNumber encodings 0x01 % 2 ^ 32) →
    .corrected read.value.version .supportedMissing ∈ read.events
  /-- What is reported as enabled over USB is there, or there is a notice. -/
  enabled : lastValue 0x03 encodings ≠ none → read.value.config.enabled.get? .usb = none →
    .corrected read.value.version .enabledWrong ∈ read.events
  /-- The version is the one that is reported, or there is a notice. -/
  ignored : ∀ value, lastValue 0x05 encodings = some value →
    read.value.version.toBytes ≠ value.take 3 → .versionIgnored value.length fallback ∈ read.events

/-- **What the map of encodings is read as is noticed.** -/
theorem noticed_ofTags (encodings : List Encoding) (fallback : Version) :
    Noticed encodings fallback (ofTags (TagMap.ofList (encodings.map (·.tlv))) fallback) := by
  have hlast := get?_ofList_encodings encodings
  constructor
  case events =>
    refine ⟨_, List.pairwise_map.mpr (TagMap.ofList (encodings.map (·.tlv))).ascending, ?_,
      hlast 0x05 ▸ events_ofTags _ fallback⟩
    intro tag
    rw [← TagMap.tags, TagMap.mem_tags_iff, Ne, TagMap.get?_ofList_eq_none_iff,
      List.forall_mem_map]
    push Not
    rfl
  case version => rw [version_ofTags, hlast]
  case supported =>
    intro h
    rw [← toNat_word] at h
    exact corrected_mem_of_supported_ne h
  case enabled =>
    intro hreported h
    rw [← hlast] at hreported
    exact corrected_mem_of_enabled_eq_none hreported h
  case ignored =>
    intro value hvalue h
    rw [← hlast] at hvalue
    exact versionIgnored_mem_events hvalue h

/-- **What is corrected is reported.** A response that is refused leaves nothing in the log of a
run. One that is read leaves one line on its tags, one on its version if that is too short, and one
on each fault of the version that is used, which the last clauses word; and wherever the information
is not what the response says, there is such a line. -/
theorem parse_notices (response : Bytes) (fallback : Version) :
    (∀ fault, parse response fallback = .error fault → Info.Logs response fallback []) ∧
    (∀ read, parse response fallback = .ok read →
      Info.Logs response fallback read.events ∧
        ∃ encodings, response = respond encodings ∧ Noticed encodings fallback read) ∧
    (∀ tags, (Event.responseTags tags).line = "TRACE device info tags: [" ++
      ", ".intercalate (tags.map fun tag => Hex.numeral 2 tag.toNat) ++ "]") ∧
    (∀ length version, (Event.versionIgnored length version).line = "WARN ignoring " ++
      toString length ++ "-byte firmware version, using " ++ version.text) ∧
    (∀ version, (Event.corrected version .supportedMissing).line = "DEBUG firmware " ++
      version.text ++ ": " ++ "4.2.4 does not report supported capabilities") ∧
    ∀ version, (Event.corrected version .enabledWrong).line = "DEBUG firmware " ++
      version.text ++ ": " ++ "4.x reports enabled USB capabilities incorrectly" := by
  refine ⟨fun fault hfault => Info.logs_of_parse_eq_error hfault, ?_, Event.line_responseTags,
    Event.line_versionIgnored, fun version => Event.line_corrected version .supportedMissing,
    fun version => Event.line_corrected version .enabledWrong⟩
  intro read hread
  refine ⟨Info.logs_of_parse_eq_ok hread, ?_⟩
  obtain ⟨encodings, rfl, rfl⟩ := exists_eq_ofTags_of_parse hread
  exact ⟨encodings, rfl, noticed_ofTags encodings fallback⟩

/-- A version of two bytes in a response that says what is enabled over USB and not what is
supported, taken to be of version 4.2.4: the log has a line on each of the three that is not what
the response says. With another count in front the response is refused, and nothing is in the
log. -/
theorem parse_notices_of_short_version :
    ∃ read encodings, parse [0x08, 0x05, 0x02, 4, 2, 0x03, 0x02, 0x02, 0x3b] ⟨4, 2, 4⟩ = .ok read ∧
      read.value.config.enabled.get? .usb = none ∧
      respond encodings = [0x08, 0x05, 0x02, 4, 2, 0x03, 0x02, 0x02, 0x3b] ∧
      Noticed encodings ⟨4, 2, 4⟩ read ∧
      (∀ surroundings, (Output.events (CommandLine.run surroundings
          ["info", "--default-version=4.2.4", "08050204020302023b"]).outputs).map Event.line =
        ["TRACE device info tags: [03, 05]",
          "WARN ignoring 2-byte firmware version, using 4.2.4",
          "DEBUG firmware 4.2.4: 4.2.4 does not report supported capabilities",
          "DEBUG firmware 4.2.4: 4.x reports enabled USB capabilities incorrectly"]) ∧
      ∀ surroundings, Output.events (CommandLine.run surroundings
        ["info", "--default-version=4.2.4", "09050204020302023b"]).outputs = [] := by
  let given : List Encoding := [
    ⟨[0x05], [0x02], [4, 2], .short _ (by decide), .short 2 (by decide)⟩,
    ⟨[0x03], [0x02], [0x02, 0x3b], .short _ (by decide), .short 2 (by decide)⟩]
  have hread := parse_respond (show (Encoding.concat given).length ≤ 255 by decide) ⟨4, 2, 4⟩
  obtain ⟨-, haccepted, -⟩ := parse_notices (respond given) ⟨4, 2, 4⟩
  obtain ⟨hlogs, encodings, hsame, hnoticed⟩ := haccepted _ hread
  obtain ⟨hrefused, -⟩ := parse_notices [0x09, 0x05, 0x02, 4, 2, 0x03, 0x02, 0x02, 0x3b] ⟨4, 2, 4⟩
  have hline : CommandLine.Asks ["info", "--default-version=4.2.4", "08050204020302023b"]
      (.info ⟨⟨4, 2, 4⟩, "08050204020302023b"⟩) := by decide +kernel
  have hlong : CommandLine.Asks ["info", "--default-version=4.2.4", "09050204020302023b"]
      (.info ⟨⟨4, 2, 4⟩, "09050204020302023b"⟩) := by decide +kernel
  refine ⟨_, encodings, hread, by decide +kernel, hsame.symm, hnoticed, fun surroundings => ?_,
    hrefused _ rfl _ (Hex.decode_trim_eq_ok_iff.mp (by rfl)) _ hlong⟩
  rw [hlogs _ (Hex.decode_trim_eq_ok_iff.mp (by rfl)) _ hline]
  decide +kernel

end DeviceInfo

end TokenConfig
