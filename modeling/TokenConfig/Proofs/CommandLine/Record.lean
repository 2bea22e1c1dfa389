import TokenConfig.Proofs.CommandLine.Otp
import TokenConfig.Proofs.CommandLine.Words
import TokenConfig.Proofs.Slot.Switches

/-!
# A record has all that was given

The subcommand `otp` either shows a record or gives up. Either way nothing that was given is dropped
in silence: a record that is shown has every part of the credential and every access code
(`TokenConfig.Otp.Shows`), with a warning on each code that is cut, and a run that gives up shows
nothing at all. Which of the two it is depends on the arguments, and on the setting on strict
lengths if an access code is too long (`TokenConfig.Otp.run_keeps`). The texts of the lines and the
codes of the commands are written out in `TokenConfig.Otp.recordLines`,
`TokenConfig.Otp.commandCode` and `TokenConfig.Otp.warningLine`.

* What is accepted becomes a configuration (`TokenConfig.Otp.prepared_eq_some_iff`), whose record is
  read back field by field (`TokenConfig.Otp.exists_record`).
* The three channels of a run are put together from those of its parts
  (`TokenConfig.Otp.exists_shows`).
-/

namespace TokenConfig

namespace SlotConfiguration

theorem adjustAll_append (config : SlotConfiguration) (front rest : List Adjustment) :
    (config.adjustAll (front ++ rest)).value =
      ((config.adjustAll front).value.adjustAll rest).value := by
  induction front generalizing config with
  | nil => rfl
  | cons adjustment front ih => exact ih _

theorem program_adjustAll (config : SlotConfiguration) (adjustments : List Adjustment) :
    (config.adjustAll adjustments).value.program = config.program := by
  induction adjustments generalizing config with
  | nil => rfl
  | cons adjustment rest ih => exact (ih _).trans (config.program_adjust adjustment)

end SlotConfiguration

namespace Otp

/-! ### What is shown -/

/-- The line of the digits of a record, as plain text and with escape sequences around its name. -/
def recordLine (digits : String) : Style → String
  | .plain => "              record: " ++ digits ++ "\n"
  | .coloured => "\x1b[0m\x1b[1m              record:\x1b[0m " ++ digits ++ "\n"

/-- The three lines of a record, as plain text and with escape sequences around the names. -/
def recordLines (number code digits : String) (style : Style) : String :=
  match style with
  | .plain =>
    "                slot: " ++ number ++ "\n" ++
    ("             command: " ++ code ++ "\n") ++ recordLine digits .plain
  | .coloured =>
    "\x1b[0m\x1b[1m                slot:\x1b[0m " ++ number ++ "\n" ++
    ("\x1b[0m\x1b[1m             command:\x1b[0m " ++ code ++ "\n") ++ recordLine digits .coloured

/-- The code of the command that sends the record of a credential to a slot. -/
def commandCode : Slot → Preset → String
  | .one, .update => "0x04"
  | .two, .update => "0x05"
  | .one, _ => "0x01"
  | .two, _ => "0x03"

/-- The small digit of a number below 16. -/
def smallDigit (value : Nat) : Char :=
  "0123456789abcdef".toList.getD value '?'

/-- The line of a warning, as plain text and with escape sequences around its head. -/
def warningLine (message : String) : Style → String
  | .plain => "warning: " ++ message ++ "\n"
  | .coloured => "\x1b[0m\x1b[0m\x1b[1m\x1b[33mwarning:\x1b[0m " ++ message ++ "\n"

/-- The warning that a code is cut, if there is a code and it is too long. -/
def cutWarning (style : Style) (name : String) : Option Bytes → String
  | some code =>
    if 6 < code.length then warningLine (name ++ " truncated to 6 bytes") style else ""
  | none => ""

/-- A run shows a record that has all that was given. -/
structure Shows (arguments : Arguments) (made : Credential) (code current : Option Bytes)
    (record : SlotRecord) (outputs : List Output) : Prop where
  /-- The output are three lines, on the slot, the command and the record. -/
  stdout : ∀ style, Output.stdout style outputs =
    recordLines (slotNumber arguments.slot) (commandCode arguments.slot arguments.preset)
      (Hex.encode record.bytes) style
  /-- The record is written in 116 small digits. -/
  digits : (Hex.encode record.bytes).length = 116 ∧
    ∀ c ∈ (Hex.encode record.bytes).toList, c ∈ "0123456789abcdef".toList
  /-- There are two for each byte, that of its upper half first. -/
  spelled : (Hex.encode record.bytes).toList = record.bytes.flatMap fun byte =>
    [smallDigit (byte.toNat / 16), smallDigit (byte.toNat % 16)]
  /-- They are decoded to a record that is accepted. -/
  accepted : ∃ bytes, Hex.decode (Hex.encode record.bytes) = .ok bytes ∧
    SlotRecord.parse bytes = .ok record
  /-- The record holds the credential. -/
  holds : record.Holds made
  /-- It has the access code, cut or with zeros behind it. -/
  accessCode : record.field .accessCode = Bytes.zeroPadded 6 (code.getD [])
  /-- It has the current access code, cut or with zeros behind it. -/
  currentAccessCode : record.field .currentAccessCode = Bytes.zeroPadded 6 (current.getD [])
  /-- The error output are the warnings on codes that are cut. -/
  stderr : ∀ style, Output.stderr style outputs =
    cutWarning style "access code" code ++ cutWarning style "current access code" current

/-- The record of an accepted credential with access codes has the credential and the codes. -/
theorem exists_record {made : Credential} {configured : Logged SlotConfiguration}
    (h : SlotConfiguration.ofCredential made = .ok configured) (code current : Option Bytes) :
    ∃ record : SlotRecord,
      record.bytes = (configured.value.adjustAll (codeAdjustments code current)).value.build.value ∧
      record.Holds made ∧
      record.field .accessCode = Bytes.zeroPadded 6 (code.getD []) ∧
      record.field .currentAccessCode = Bytes.zeroPadded 6 (current.getD []) := by
  obtain ⟨hshort, -, hsteps⟩ := SlotConfiguration.of_ofCredential_eq_ok h
  have hcode : lastGiven SlotConfiguration.Adjustment.accessCode? (codeAdjustments code current) =
      code := by
    cases code <;> cases current <;> rfl
  have hcurrent : lastGiven SlotConfiguration.Adjustment.currentAccessCode?
      (codeAdjustments code current) = current := by
    cases code <;> cases current <;> rfl
  obtain ⟨record, -, hbytes⟩ := (configured.value.adjustAll
    (codeAdjustments code current)).value.toBuilder.value.exists_parse_build
  refine ⟨record, hbytes, SlotRecord.holds_of_contents hbytes hshort fun field hfield => ?_, ?_, ?_⟩
  · rw [SlotConfiguration.contents_adjustAll (List.mem_append_left [_, _] hfield) hsteps,
      lastGiven_eq_none_iff.mpr fun adjustment _ => adjustment.gives_eq_none hfield,
      Option.getD_none]
  · have hgives := SlotConfiguration.Adjustment.gives_accessCode
    have hfield := SlotConfiguration.field_of_bytes_eq_build_adjustAll (by decide) hsteps _ hbytes
      hgives (made.lastBytes_steps_eq_nil (by decide))
    rw [hfield, hcode]
    rfl
  · have hgives := SlotConfiguration.Adjustment.gives_currentAccessCode
    have hfield := SlotConfiguration.field_of_bytes_eq_build_adjustAll (by decide) hsteps _ hbytes
      hgives (made.lastBytes_steps_eq_nil (by decide))
    rw [hfield, hcurrent]
    rfl

/-- A warning is written on a line of its own. -/
theorem onStderr_warning (style : Style) (message : String) :
    (Output.warning message).onStderr style = warningLine message style := by
  have hplain : "warning:" ++ " " = "warning: " := by decide
  have hcoloured : Style.reset ++ Style.reset ++ Style.bold ++ Colour.start .yellow ++ "warning:" ++
      Style.reset ++ " " = "\x1b[0m\x1b[0m\x1b[1m\x1b[33mwarning:\x1b[0m " := by decide
  cases style
  · exact congrArg (· ++ message ++ "\n") hplain
  · exact congrArg (· ++ message ++ "\n") hcoloured

/-- The warnings on a code. -/
theorem stderr_cutNotice (style : Style) {field : Field} (h : field.size = 6)
    (code : Option Bytes) : Output.stderr style (code.toList.flatMap (cutNotice field)) =
      cutWarning style field.label code := by
  have hmessage : ∀ name : String,
      name ++ " truncated to " ++ toString 6 ++ " bytes" = name ++ " truncated to 6 bytes" := by
    intro name
    rw [String.append_assoc, String.append_assoc]
    exact congrArg (name ++ ·) (by decide)
  cases code with
  | none => rfl
  | some code =>
    rw [Option.toList_some, List.flatMap_singleton, cutNotice, cutWarning, h]
    split
    · rw [Output.stderr_cons, onStderr_warning, hmessage]
      exact String.append_empty
    · rfl

theorem entry_plain {name start : String} (h : rightAligned 20 name ++ ":" ++ " " = start)
    (value : String) : Style.entry .plain name value = start ++ value ++ "\n" :=
  congrArg (· ++ value ++ "\n") h

theorem entry_coloured {name start : String}
    (h : Style.reset ++ Style.bold ++ (rightAligned 20 name ++ ":") ++ Style.reset ++ " " = start)
    (value : String) : Style.entry .coloured name value = start ++ value ++ "\n" :=
  congrArg (· ++ value ++ "\n") h

/-- The line of a record is that of a named value. -/
theorem recordLine_eq (digits : String) (style : Style) :
    recordLine digits style = style.entry "record" digits := by
  have hplain : rightAligned 20 "record" ++ ":" ++ " " = "              record: " := by decide
  have hcoloured : Style.reset ++ Style.bold ++ (rightAligned 20 "record" ++ ":") ++ Style.reset ++
      " " = "\x1b[0m\x1b[1m              record:\x1b[0m " := by decide
  cases style
  · exact (entry_plain hplain digits).symm
  · exact (entry_coloured hcoloured digits).symm

/-- The lines of a record are those of three named values. -/
theorem recordLines_eq (number code digits : String) (style : Style) :
    recordLines number code digits style =
      style.entry "slot" number ++ style.entry "command" code ++ style.entry "record" digits := by
  rw [← recordLine_eq]
  cases style
  · have hslot : rightAligned 20 "slot" ++ ":" ++ " " = "                slot: " := by decide
    have hcommand : rightAligned 20 "command" ++ ":" ++ " " = "             command: " := by decide
    rw [entry_plain hslot, entry_plain hcommand]
    rfl
  · have hslot : Style.reset ++ Style.bold ++ (rightAligned 20 "slot" ++ ":") ++ Style.reset ++
        " " = "\x1b[0m\x1b[1m                slot:\x1b[0m " := by decide
    have hcommand : Style.reset ++ Style.bold ++ (rightAligned 20 "command" ++ ":") ++
        Style.reset ++ " " = "\x1b[0m\x1b[1m             command:\x1b[0m " := by decide
    rw [entry_coloured hslot, entry_coloured hcommand]
    rfl

theorem text_eq_slotNumber (slot : Slot) : slot.text = slotNumber slot := by
  cases slot <;> rfl

/-- The code of the command depends on the slot, and on whether its credential is kept. -/
theorem marked_command (slot : Slot) (preset : Preset) :
    Hex.marked 2 (slot.command (if preset = .update then .update else .configure)).toNat =
      commandCode slot preset := by
  have hconfigure : Hex.marked 2 (Slot.command .one .configure).toNat = "0x01" ∧
      Hex.marked 2 (Slot.command .two .configure).toNat = "0x03" := by decide
  have hupdate : Hex.marked 2 (Slot.command .one .update).toNat = "0x04" ∧
      Hex.marked 2 (Slot.command .two .update).toNat = "0x05" := by decide
  cases preset with
  | update =>
    rw [if_pos rfl]
    cases slot
    · exact hupdate.1
    · exact hupdate.2
  | _ =>
    rw [if_neg nofun]
    cases slot
    · exact hconfigure.1
    · exact hconfigure.2

/-- The lines of a record are all that is shown of it. -/
theorem stdout_showRecord (style : Style) (slot : Slot) (config : SlotConfiguration) :
    Output.stdout style (showRecord slot config).outputs =
      style.entry "slot" slot.text ++
        style.entry "command" (Hex.marked 2 (config.command slot).toNat) ++
        style.entry "record" (Hex.encode config.build.value) := by
  rw [showRecord_eq, Output.stdout_append, Output.stdout_eq_empty _ Output.unshown_of_mem_map_note,
    String.empty_append]
  simp only [Output.stdout_cons, Output.onStdout, String.append_assoc]
  exact congrArg _ (congrArg _ String.append_empty)

theorem stderr_showRecord (style : Style) (slot : Slot) (config : SlotConfiguration) :
    Output.stderr style (showRecord slot config).outputs = "" := by
  rw [showRecord_eq, Output.stderr_append, Output.stderr_map_note]
  rfl

/-- The credential decides on the program. -/
theorem program_of_describes {preset : Preset} {made : Credential} (h : preset.Describes made)
    {configured : Logged SlotConfiguration}
    (hok : SlotConfiguration.ofCredential made = .ok configured) :
    configured.value.program = if preset = .update then .update else .configure := by
  obtain ⟨hshort, -⟩ := SlotConfiguration.of_ofCredential_eq_ok hok
  obtain ⟨_, hok', hprogram, -⟩ := SlotConfiguration.exists_ofCredential_eq_ok hshort
  obtain rfl := Except.ok.inj (hok.symm.trans hok')
  have hupdate : made = .update ↔ preset = .update := by
    cases h <;> simp
  rw [hupdate] at hprogram
  split
  · next hpreset => exact hprogram.mpr hpreset
  · next hpreset =>
    cases hcase : configured.value.program with
    | configure => rfl
    | update => exact absurd (hprogram.mp hcase) hpreset

/-- Two small digits are written for each byte. -/
theorem toList_encode (bytes : Bytes) : (Hex.encode bytes).toList = bytes.flatMap fun byte =>
    [smallDigit (byte.toNat / 16), smallDigit (byte.toNat % 16)] := by
  have hdigit : ∀ value < 16, Hex.digit value = smallDigit value := by decide
  rw [Hex.encode, String.toList_ofList]
  refine List.flatMap_congr fun byte _ => ?_
  have hbyte := byte.toNat_lt
  rw [Hex.byteDigits, hdigit _ (by omega), hdigit _ (by omega)]

/-- The digits of a record. -/
theorem digits_record (record : SlotRecord) :
    (Hex.encode record.bytes).length = 116 ∧
      ∀ c ∈ (Hex.encode record.bytes).toList, c ∈ "0123456789abcdef".toList := by
  constructor
  · rw [← String.length_toList, (Hex.spells_encode record.bytes).length_eq, record.length_eq]
    rfl
  · intro c hc
    obtain ⟨value, hvalue, rfl⟩ := Hex.mem_encode hc
    have hall : ∀ n < 16, Hex.digit n ∈ "0123456789abcdef".toList := by decide
    exact hall value hvalue

/-- **A run that accepts its arguments** shows a record that has all that was given. -/
theorem exists_shows {surroundings : Surroundings} {arguments : Arguments}
    (hgiven : arguments.preset.generates = false) {outputs : List Output}
    (h : run surroundings arguments = ⟨some (), outputs⟩) :
    ∃ made code current record, Accepted (strictLengths surroundings) arguments made code current ∧
      Shows arguments made code current record outputs := by
  obtain ⟨events, hrun⟩ := exists_run_eq surroundings arguments
  obtain ⟨hresult, rfl⟩ := Session.mk.inj (hrun.symm.trans h)
  obtain ⟨config, front, rest, hprepared, hshown, hboth⟩ := Session.bind_eq_some_iff.mp
    (show _ >>= _ = Session.mk (some ()) _ by rw [← hresult])
  have hsilent := unshown_prepared surroundings (strictLengths surroundings) hgiven
  rw [hprepared] at hsilent
  obtain ⟨made, code, current, configured, haccepted, hok, rfl, rfl⟩ :=
    (prepared_eq_some_iff hgiven).mp hprepared
  obtain ⟨record, hbytes, hholds, hcode, hcurrent⟩ := exists_record hok code current
  rw [codeAdjustments, SlotConfiguration.adjustAll_append] at hbytes
  have hrest : rest = (showRecord arguments.slot _).outputs := congrArg Session.outputs hshown.symm
  refine ⟨made, code, current, record, haccepted, ?_, digits_record record,
    toList_encode record.bytes, ⟨record.bytes, Hex.decode_eq_ok_iff.mpr (Hex.spells_encode _),
      SlotRecord.parse_eq_ok_iff.mpr rfl⟩, hholds, hcode, hcurrent, ?_⟩
  · intro style
    rw [Output.stdout_append, Output.stdout_eq_empty _ Output.unshown_of_mem_map_note, hboth,
      Output.stdout_append, Output.stdout_eq_empty _ hsilent, hrest, stdout_showRecord, hbytes,
      SlotConfiguration.command, SlotConfiguration.program_adjustAll,
      SlotConfiguration.program_adjustAll, program_of_describes haccepted.describes hok,
      marked_command, text_eq_slotNumber, ← recordLines_eq, String.empty_append,
      String.empty_append]
  · intro style
    rw [Output.stderr_append, Output.stderr_map_note, hboth, Output.stderr_append, hrest,
      stderr_showRecord, Output.stderr_cons, Output.stderr_append, Output.stderr_append,
      Output.stderr_append, Output.stderr_map_note, Output.stderr_map_note,
      stderr_cutNotice style rfl, stderr_cutNotice style rfl, Output.onStderr]
    simp only [String.empty_append, String.append_empty]
    rfl

/-- Arguments that can be accepted are. -/
theorem result_run_of_accepted {surroundings : Surroundings} {arguments : Arguments}
    (hgiven : arguments.preset.generates = false) {made : Credential} {code current : Option Bytes}
    (h : Accepted (strictLengths surroundings) arguments made code current) :
    (run surroundings arguments).result = some () := by
  obtain ⟨events, hrun⟩ := exists_run_eq surroundings arguments
  obtain ⟨configured, hok, -⟩ := SlotConfiguration.exists_ofCredential_eq_ok h.fits
  rw [hrun, (prepared_eq_some_iff hgiven).mpr ⟨made, code, current, configured, h, hok, rfl, rfl⟩]
  rfl

/-- A run that gives up has shown nothing. -/
theorem stdout_run_of_result_eq_none {surroundings : Surroundings} {arguments : Arguments}
    (hgiven : arguments.preset.generates = false)
    (h : (run surroundings arguments).result = none) (style : Style) :
    Output.stdout style (run surroundings arguments).outputs = "" := by
  obtain ⟨events, hrun⟩ := exists_run_eq surroundings arguments
  rw [hrun] at h ⊢
  have hnone := Session.bind_eq_of_result_eq_none (fun config => by rw [showRecord_eq]; simp) h
  rw [hnone, Output.stdout_append, Output.stdout_eq_empty _ Output.unshown_of_mem_map_note,
    Output.stdout_eq_empty _ (unshown_prepared _ _ hgiven), String.append_empty]

/-- How a run ends that has to make a record. -/
inductive Ends (strict : Bool) (arguments : Arguments) (report : Report) : Prop where
  /-- It shows the record of what it has accepted. -/
  | shown {made : Credential} {code current : Option Bytes} {record : SlotRecord}
    (exit : report.exit = 0) (accepted : Accepted strict arguments made code current)
    (shows : Shows arguments made code current record report.outputs)
  /-- It gives up on what cannot be accepted, and shows nothing. -/
  | refused (exit : report.exit = 1) (silent : ∀ style, Output.stdout style report.outputs = "")
    (not_accepted : ∀ made code current, ¬ Accepted strict arguments made code current)

theorem ends_report_run (surroundings : Surroundings) {arguments : Arguments}
    (hgiven : arguments.preset.generates = false) :
    Ends (strictLengths surroundings) arguments
      (CommandLine.report (run surroundings arguments)) := by
  rcases CommandLine.exit_report (run surroundings arguments) with hzero | hone
  · obtain ⟨made, code, current, record, haccepted, hshows⟩ :=
      exists_shows hgiven ((CommandLine.exit_report_eq_zero_iff _).mp hzero)
    exact .shown hzero haccepted (CommandLine.outputs_report _ ▸ hshows)
  · have hnone := (CommandLine.exit_report_eq_one_iff _).mp hone
    refine .refused hone (fun style => ?_) fun made code current haccepted => ?_
    · rw [CommandLine.outputs_report, stdout_run_of_result_eq_none hgiven hnone]
    · cases hnone.symm.trans (result_run_of_accepted hgiven haccepted)

/-! ### Whether lengths are strict -/

/-- With no access code that is too long, all runs come to the same. -/
theorem sameButLog_report_run (surroundings other : Surroundings) {arguments : Arguments}
    (hgiven : arguments.preset.generates = false) (hshort : ¬ arguments.OverLong) :
    (CommandLine.report (run surroundings arguments)).SameButLog
      (CommandLine.report (run other arguments)) := by
  obtain ⟨events, hrun⟩ := exists_run_eq surroundings arguments
  obtain ⟨otherEvents, hother⟩ := exists_run_eq other arguments
  rw [prepared_congr surroundings other _ (strictLengths other) hgiven hshort] at hrun
  rw [hrun, hother]
  refine ⟨CommandLine.exit_report_congr rfl, fun style => ?_, fun style => ?_⟩
  · rw [CommandLine.outputs_report, CommandLine.outputs_report, Output.stdout_append,
      Output.stdout_append, Output.stdout_eq_empty _ Output.unshown_of_mem_map_note,
      Output.stdout_eq_empty _ Output.unshown_of_mem_map_note]
  · rw [CommandLine.outputs_report, CommandLine.outputs_report, Output.stderr_append,
      Output.stderr_append, Output.stderr_map_note, Output.stderr_map_note]

/-- Strict lengths take no access code that is too long. -/
theorem Accepted.not_overLong {arguments : Arguments} {made : Credential}
    {code current : Option Bytes} (h : Accepted true arguments made code current) :
    ¬ arguments.OverLong := by
  have hfits : ∀ {text : String} {given : Option String} {code : Option Bytes}, given = some text →
      Option.Rel Hex.Stands given code → (∀ bytes ∈ code, bytes.length ≤ 6) →
      ∀ bytes, Hex.Stands text bytes → bytes.length ≤ 6 := by
    rintro text _ _ rfl (_ | _) hle bytes hbytes
    next other hother =>
    rw [hbytes.unique hother]
    exact hle other rfl
  obtain ⟨hcode, hcurrent⟩ := h.whole rfl
  rintro ⟨text, htext | htext, bytes, hbytes, hlong⟩
  · exact Nat.not_lt.mpr (hfits htext h.accessCode hcode bytes hbytes) hlong
  · exact Nat.not_lt.mpr (hfits htext h.currentAccessCode hcurrent bytes hbytes) hlong

/-- **Nothing that is given is dropped in silence.** The arguments ask for a record, with nothing to
be made up. If they are accepted, the run exits with 0 and shows a record that has all of them, each
access code that is too long being cut with a warning. Otherwise it exits with 1 and shows nothing.
Whether lengths are strict makes a difference for access codes that are too long only: these are not
accepted then, and other arguments come to the same wherever they are given. Any arguments can be
given, in words that have each text after the name of what it is for. -/
theorem run_keeps {line : List String} {arguments : Arguments}
    (hline : CommandLine.Asks line (.otp arguments)) (hgiven : arguments.preset.generates = false) :
    (∀ surroundings, Ends (strictLengths surroundings) arguments
      (CommandLine.run surroundings line)) ∧
    (¬ arguments.OverLong → ∀ surroundings other,
      (CommandLine.run surroundings line).SameButLog (CommandLine.run other line)) ∧
    (arguments.OverLong → ∀ surroundings, strictLengths surroundings = true →
      (CommandLine.run surroundings line).exit = 1) ∧
    ∀ given : Arguments, CommandLine.Asks given.words (.otp given) := by
  have hrun : ∀ surroundings, CommandLine.run surroundings line =
      CommandLine.report (run surroundings arguments) :=
    fun surroundings => CommandLine.run_of_asks hline surroundings
  simp only [hrun]
  refine ⟨fun surroundings => ends_report_run surroundings hgiven,
    fun hshort surroundings other => sameButLog_report_run surroundings other hgiven hshort,
    fun hlong surroundings hstrict => ?_, CommandLine.asks_otp⟩
  cases ends_report_run surroundings hgiven with
  | shown _ haccepted _ =>
    rw [hstrict] at haccepted
    exact absurd hlong haccepted.not_overLong
  | refused hexit _ _ => exact hexit

/-- An access code of seven bytes. It is cut where lengths are not strict: the record ends in six of
its bytes, the flags and the checksum. Where a variable makes them strict it is refused. -/
theorem run_keeps_of_seven_bytes :
    ∃ (line : List String) (arguments : Arguments) (cut refused : Report),
      line = ["otp", "-s", "1", "--access-code", "01020304050607", "static-password", " 0405 "] ∧
      cut = CommandLine.run ⟨none, .empty, fun _ => 0⟩ line ∧
      refused = CommandLine.run
        ⟨none, ⟨[("YUBIKEY_CONFIG_STRICT_LENGTHS", Utf8.encode "1")]⟩, fun _ => 0⟩ line ∧
      CommandLine.Asks line (.otp arguments) ∧ arguments.preset.generates = false ∧
      arguments.OverLong ∧
      (∀ surroundings, Ends (strictLengths surroundings) arguments
        (CommandLine.run surroundings line)) ∧
      cut.exit = 0 ∧
      Output.stdout .plain cut.outputs =
        "                slot: 1\n             command: 0x01\n              record: " ++
        "04050000000000000000000000000000000000000000000000000000000000000000000000000102030405" ++
        "06023420020000abd9000000000000\n" ∧
      Output.stderr .plain cut.outputs = "warning: access code truncated to 6 bytes\n" ∧
      refused.exit = 1 ∧ Output.stdout .plain refused.outputs = "" ∧
      Output.stderr .plain refused.outputs =
        "error: access code is 7 bytes, at most 6 allowed\n" ∧
      CommandLine.Asks ["otp", "--slot=1", "--access-code=01020304050607", "static-password", "--",
        " 0405 "] (.otp arguments) := by
  let arguments : Arguments := ⟨.one, some "01020304050607", none, .staticPassword " 0405 "⟩
  have hline : CommandLine.Asks
      ["otp", "-s", "1", "--access-code", "01020304050607", "static-password", " 0405 "]
      (.otp arguments) := by decide +kernel
  obtain ⟨hends, -, hstrict, hasks⟩ := run_keeps hline rfl
  have hlong : arguments.OverLong := ⟨_, .inl rfl, [1, 2, 3, 4, 5, 6, 7],
    Hex.decode_trim_eq_ok_iff.mp (by rfl), by decide⟩
  have hwords : arguments.words = ["otp", "--slot=1", "--access-code=01020304050607",
      "static-password", "--", " 0405 "] := by decide +kernel
  exact ⟨_, arguments, _, _, rfl, rfl, rfl, hline, rfl, hlong, hends, by decide +kernel,
    by decide +kernel, by decide +kernel, hstrict hlong _ (by decide +kernel), by decide +kernel,
    by decide +kernel, hwords ▸ hasks arguments⟩

end Otp

end TokenConfig
