import TokenConfig.Proofs.CommandLine.Record
import TokenConfig.Proofs.Secrecy.Reading

/-!
# Secrets are in the record, and nowhere else

The subcommand `otp` is given identifiers, keys and codes, logs the configuration that it makes of
them, and names what it refuses. What it writes does not depend on the contents of what it is given,
but for the digits of the record (`TokenConfig.Otp.run_hides`).

* The sessions of two runs with arguments that redact to the same are alike up to the record
  (`TokenConfig.Otp.alike_prepared`), whose builders redact to the same. So what is said of making
  the record, the slot and the command are the same too (`TokenConfig.Otp.run_alike`).
* Runs that write the same but for a record differ in the line of the record on the output, and in
  nothing else that is seen of them (`TokenConfig.Report.SameButRecord.of_outputs`): neither in the
  stream of errors, with the log between the messages, nor in the log alone, whatever a logger shows
  and in whichever words.
-/

namespace TokenConfig

/-! ### What is written -/

namespace Output

/-- The same is written, but for the digits of a record at the end. -/
inductive SameButRecord : List Output → List Output → Prop where
  /-- The same is written. -/
  | same (outputs : List Output) : SameButRecord outputs outputs
  /-- A record is shown, after the same. -/
  | shown (front : List Output) (record other : SlotRecord) :
    SameButRecord (front ++ [.entry "record" (Hex.encode record.bytes)])
      (front ++ [.entry "record" (Hex.encode other.bytes)])

namespace SameButRecord

variable {outputs other : List Output}

theorem append_left (h : SameButRecord outputs other) (front : List Output) :
    SameButRecord (front ++ outputs) (front ++ other) := by
  cases h with
  | same outputs => exact .same _
  | shown rest record other =>
    rw [← List.append_assoc, ← List.append_assoc]
    exact .shown _ record other

/-- A record is not seen on the error output, whatever a logger writes there. -/
theorem errorStream_eq (h : SameButRecord outputs other) (style : Style)
    (logged : Event → String) :
    errorStream style logged outputs = errorStream style logged other := by
  cases h with
  | same outputs => rfl
  | shown front record other =>
    rw [errorStream, errorStream, List.map_append, List.map_append]
    rfl

theorem stderr_eq (h : SameButRecord outputs other) (style : Style) :
    stderr style outputs = stderr style other := by
  rw [← errorStream_of_silent, h.errorStream_eq, errorStream_of_silent]

theorem events_eq (h : SameButRecord outputs other) : events outputs = events other := by
  cases h with
  | same outputs => rfl
  | shown front record other =>
    rw [events, events, List.filterMap_append, List.filterMap_append]
    rfl

/-- The record is the last line, if there is one. -/
theorem stdout_eq (h : SameButRecord outputs other) (style : Style) :
    stdout style outputs = stdout style other ∨
      ∃ (front : String) (record otherRecord : SlotRecord),
        stdout style outputs = front ++ Otp.recordLine (Hex.encode record.bytes) style ∧
        stdout style other = front ++ Otp.recordLine (Hex.encode otherRecord.bytes) style := by
  cases h with
  | same outputs => exact .inl rfl
  | shown front record other =>
    have hline : ∀ record : SlotRecord,
        stdout style (front ++ [.entry "record" (Hex.encode record.bytes)]) =
          stdout style front ++ Otp.recordLine (Hex.encode record.bytes) style := by
      intro record
      rw [stdout_append, stdout_cons, Otp.recordLine_eq]
      exact congrArg _ String.append_empty
    exact .inr ⟨_, record, other, hline record, hline other⟩

end SameButRecord

end Output

/-- Two runs end alike, and nothing but the digits of a record in the last line of the output tells
them apart. -/
structure Report.SameButRecord (report other : Report) : Prop where
  /-- The exit codes are the same. -/
  exit : report.exit = other.exit
  /-- The same is written in the same order, to whichever channel, but for a record at the end. -/
  outputs : Output.SameButRecord report.outputs other.outputs
  /-- The error outputs as they are seen are the same, whatever a logger writes between the
  messages. -/
  errorStream : ∀ style logged, Output.errorStream style logged report.outputs =
    Output.errorStream style logged other.outputs
  /-- The messages on the error outputs are the same. -/
  stderr : ∀ style, Output.stderr style report.outputs = Output.stderr style other.outputs
  /-- The logs are the same, whatever a logger shows. -/
  log : ∀ shown, report.log shown = other.log shown
  /-- The outputs are the same, or have records in their last lines and are the same before. -/
  stdout : ∀ style, Output.stdout style report.outputs = Output.stdout style other.outputs ∨
    ∃ (front : String) (record otherRecord : SlotRecord),
      Output.stdout style report.outputs =
        front ++ Otp.recordLine (Hex.encode record.bytes) style ∧
      Output.stdout style other.outputs =
        front ++ Otp.recordLine (Hex.encode otherRecord.bytes) style

/-- **What is seen** of runs that write the same but for a record. -/
theorem Report.SameButRecord.of_outputs {report other : Report} (hexit : report.exit = other.exit)
    (h : Output.SameButRecord report.outputs other.outputs) : report.SameButRecord other where
  exit := hexit
  outputs := h
  errorStream := h.errorStream_eq
  stderr := h.stderr_eq
  log shown := by rw [Report.log, h.events_eq, Report.log]
  stdout := h.stdout_eq

theorem Report.SameButRecord.refl (report : Report) : report.SameButRecord report :=
  .of_outputs rfl (.same _)

namespace Otp

/-! ### One run beside the other -/

/-- Configurations that redact to the same are shown alike, but for the record. -/
theorem showRecord_alike {config other : SlotConfiguration}
    (h : config.redacted = other.redacted) (slot : Slot) :
    Output.SameButRecord (showRecord slot config).outputs (showRecord slot other).outputs := by
  -- neither what is left out of an update nor the command has to do with the values
  have hevents : config.build.events = other.build.events :=
    congrArg (fun config => config.build.events) h
  have hcommand : config.command slot = other.command slot :=
    congrArg (fun config => config.command slot) h
  obtain ⟨record, -, hrecord⟩ := config.toBuilder.value.exists_parse_build
  obtain ⟨otherRecord, -, hother⟩ := other.toBuilder.value.exists_parse_build
  have hbytes : config.build.value = record.bytes := hrecord.symm
  have hotherBytes : other.build.value = otherRecord.bytes := hother.symm
  rw [showRecord_eq, showRecord_eq, hbytes, hotherBytes, hevents, hcommand]
  exact (Output.SameButRecord.shown [.entry "slot" slot.text,
    .entry "command" (Hex.marked 2 (other.command slot).toNat)] record otherRecord).append_left _

/-- **Two runs with arguments that redact to the same** end alike and write the same, but for the
record. -/
theorem run_alike {surroundings other : Surroundings}
    (hfile : surroundings.settingsFile = other.settingsFile)
    (henvironment : surroundings.environment = other.environment)
    {arguments otherArguments : Arguments} (hgiven : arguments.preset.generates = false)
    (h : arguments.redacted = otherArguments.redacted) :
    (run surroundings arguments).result = (run other otherArguments).result ∧
      Output.SameButRecord (run surroundings arguments).outputs
        (run other otherArguments).outputs := by
  have hstrict : strictLengths surroundings = strictLengths other := by
    rw [strictLengths, strictLengths, hfile, henvironment]
  have hsetting : settingEvents surroundings = settingEvents other := by
    rw [settingEvents, settingEvents, hfile, henvironment]
  have hslot : arguments.slot = otherArguments.slot := (Arguments.mk.inj h).1
  have halike := @alike_prepared other (strictLengths other) _ _ hgiven h
  rw [run_eq, run_eq, hstrict, hsetting, hslot,
    prepared_congr_surroundings surroundings other _ hgiven]
  generalize prepared other (strictLengths other) arguments = session,
    prepared other (strictLengths other) otherArguments = otherSession at halike ⊢
  obtain ⟨result, outputs⟩ := session
  obtain ⟨otherResult, otherOutputs⟩ := otherSession
  obtain ⟨rfl, hresult⟩ := halike
  cases hresult with
  | none => exact ⟨rfl, .same _⟩
  | @some config otherConfig hconfig =>
    have hends : ∀ config, (showRecord otherArguments.slot config).result = some () :=
      fun config => congrArg Session.result (showRecord_eq otherArguments.slot config)
    exact ⟨(hends config).trans (hends otherConfig).symm,
      ((showRecord_alike hconfig otherArguments.slot).append_left outputs).append_left _⟩

theorem sameButRecord_of_asks {surroundings other : Surroundings}
    (hfile : surroundings.settingsFile = other.settingsFile)
    (henvironment : surroundings.environment = other.environment) {line otherLine : List String}
    {arguments otherArguments : Arguments} (hline : CommandLine.Asks line (.otp arguments))
    (hother : CommandLine.Asks otherLine (.otp otherArguments))
    (hgiven : arguments.preset.generates = false)
    (h : arguments.redacted = otherArguments.redacted) :
    (CommandLine.run surroundings line).SameButRecord (CommandLine.run other otherLine) := by
  obtain ⟨hresult, houtputs⟩ := run_alike hfile henvironment hgiven h
  rw [CommandLine.run_of_asks hline, CommandLine.run_of_asks hother]
  refine .of_outputs (CommandLine.exit_report_congr hresult) ?_
  rw [CommandLine.outputs_report, CommandLine.outputs_report]
  exact houtputs

/-- **Secrets are in the record, and nowhere else.** Two runs of the subcommand take place in the
same environment and with the same administrator's file, and nothing is to be made up. Then they
have the same exit code, the same error output with the same log in it, and the same output but for
the digits of the record, if they ask for the same but for the contents of what is given in
hexadecimal; and so they do, whether they can be read or not, if their lines are the same but for
these. What may differ are texts that stand for as many bytes. -/
theorem run_hides {surroundings other : Surroundings}
    (hfile : surroundings.settingsFile = other.settingsFile)
    (henvironment : surroundings.environment = other.environment) :
    (∀ line otherLine arguments otherArguments, CommandLine.Asks line (.otp arguments) →
      CommandLine.Asks otherLine (.otp otherArguments) → arguments.preset.generates = false →
      arguments.redacted = otherArguments.redacted →
      (CommandLine.run surroundings line).SameButRecord (CommandLine.run other otherLine)) ∧
    (∀ line otherLine, CommandLine.redactedLine line = CommandLine.redactedLine otherLine →
      (∀ arguments, CommandLine.Asks ("otp" :: line) (.otp arguments) →
        arguments.preset.generates = false) →
      (CommandLine.run surroundings ("otp" :: line)).SameButRecord
        (CommandLine.run other ("otp" :: otherLine))) ∧
    ∀ text otherText, Hex.redacted text = Hex.redacted otherText ↔
      text = otherText ∨ ∃ bytes otherBytes, Hex.Stands text bytes ∧
        Hex.Stands otherText otherBytes ∧ bytes.length = otherBytes.length := by
  refine ⟨fun line otherLine arguments otherArguments hline hother hgiven h =>
    sameButRecord_of_asks hfile henvironment hline hother hgiven h,
    fun line otherLine h hgiven => ?_, fun text otherText => Hex.redacted_eq_iff⟩
  rcases CommandLine.reported_or_asks h with
    ⟨report, hreport⟩ | ⟨arguments, otherArguments, hline, hother, hsame⟩
  · rw [(hreport surroundings).1, (hreport other).2]
    exact .refl report
  · exact sameButRecord_of_asks hfile henvironment hline hother (hgiven _ hline) hsame

/-- Other keys and access codes, which are cut, in a line that is the same otherwise, and in one of
another form. The records differ, and nothing else does: not the warning, nor the events of the log
before and after it. -/
theorem run_hides_of_cut_codes :
    ∃ (first second third : List String) (surroundings : Surroundings)
      (report : List String → Report),
      first = ["--access-code", "00112233445566", "hmac-sha1", "--key=0102"] ∧
      second = ["--access-code", " FFeeddccbbaa99", "hmac-sha1", "--key=3f3f "] ∧
      third = ["-s2", "--access-code=77777777777777", "hmac-sha1", "--key", "0000"] ∧
      report = (fun line => CommandLine.run surroundings ("otp" :: line)) ∧
      (report first).SameButRecord (report second) ∧
      (report first).SameButRecord (report third) ∧
      (report first).outputs ≠ (report second).outputs ∧
      (report first).exit = 0 ∧
      Output.stderr .plain (report first).outputs =
        "warning: access code truncated to 6 bytes\n" ∧
      Output.errorStream .plain (fun event => event.level.name ++ "\n") (report second).outputs =
        "DEBUG\nDEBUG\nwarning: access code truncated to 6 bytes\nDEBUG\n" := by
  let surroundings : Surroundings := ⟨none, .empty, fun _ => 0⟩
  have hline : CommandLine.Asks ["otp", "--access-code", "00112233445566", "hmac-sha1",
      "--key=0102"] (.otp ⟨.two, some "00112233445566", none,
        .hmacSha1 (some "0102") false false⟩) := by decide +kernel
  have hthird : CommandLine.Asks ["otp", "-s2", "--access-code=77777777777777", "hmac-sha1",
      "--key", "0000"] (.otp ⟨.two, some "77777777777777", none,
        .hmacSha1 (some "0000") false false⟩) := by decide +kernel
  obtain ⟨hasked, hlines, -⟩ := @run_hides surroundings surroundings rfl rfl
  refine ⟨_, _, _, surroundings, _, rfl, rfl, rfl, rfl, hlines _ _ (by decide +kernel) ?_,
    hasked _ _ _ _ hline hthird rfl (by decide +kernel), by decide +kernel, by decide +kernel,
    by decide +kernel, by decide +kernel⟩
  intro arguments harguments
  obtain ⟨rfl⟩ := Invocation.otp.inj (Option.some.inj (harguments.symm.trans hline))
  rfl

end Otp

end TokenConfig
