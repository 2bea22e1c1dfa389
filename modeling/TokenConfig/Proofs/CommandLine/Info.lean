import TokenConfig.Proofs.CommandLine.Capabilities
import TokenConfig.Proofs.CommandLine.Lines
import TokenConfig.Proofs.CommandLine.Reading
import TokenConfig.Proofs.Device.Response

/-!
# What is shown of a device tells which device it is

The subcommand `info` shows what a response says, or gives up and shows nothing. What it shows
leaves no doubt about the device but one: over USB, that no capability is enabled looks like no
report on what is enabled (`TokenConfig.DeviceInfo.ShownAlike`). This is
`TokenConfig.Info.run_shows`.

The names and values are read off the output (`TokenConfig.Output.stdout_inj`), and they tell what
the device is (`TokenConfig.Info.entries_inj`): every value is written in a way of its own, and the
lines on NFC, which may be left out, are not taken for the ones that follow. This needs that a
response says something about every other part of a device (`TokenConfig.DeviceInfo.Complete`).
-/

namespace TokenConfig

namespace DeviceInfo

/-! ### What a response says -/

/-- Everything is there but what is about NFC, which is there or is not as a whole. -/
structure Complete (info : DeviceInfo) : Prop where
  /-- USB is supported. -/
  usb : ∃ supported, info.supported.usb = some supported
  /-- NFC is supported or not, and it is said what is enabled over it in the one case only. -/
  nfc : info.supported.nfc = none ∧ info.config.enabled.nfc = none ∨
    ∃ supported enabled, info.supported.nfc = some supported ∧
      info.config.enabled.nfc = some enabled
  /-- The seconds until the token ejects itself are there. -/
  autoEject : ∃ seconds, info.config.autoEjectTimeout = some seconds
  /-- The seconds that a challenge waits are there. -/
  challengeResponse : ∃ seconds, info.config.challengeResponseTimeout = some seconds
  /-- The flags are there. -/
  deviceFlags : ∃ flags, info.config.deviceFlags = some flags

/-- **A response says something about every part.** -/
theorem complete_of_parse {response : Bytes} {fallback : Version} {read : Logged DeviceInfo}
    (h : parse response fallback = .ok read) : read.value.Complete := by
  obtain ⟨count, payload, values, rfl, -, -, rfl⟩ := parse_eq_ok_iff.mp h
  refine ⟨⟨_, rfl⟩, ?_, ⟨_, rfl⟩, ⟨_, rfl⟩, ⟨_, rfl⟩⟩
  rw [enabled_ofTags, supported_ofTags]
  cases capabilitiesAt values 0x0d with
  | none => exact .inl ⟨rfl, rfl⟩
  | some supported => exact .inr ⟨supported, _, rfl, rfl⟩

/-- The information with something else on what is enabled over USB. -/
def withUsbEnabled (info : DeviceInfo) (enabled : Option Capabilities) : DeviceInfo :=
  { info with
    config := { info.config with enabled := { info.config.enabled with usb := enabled } } }

theorem withUsbEnabled_eq (info : DeviceInfo) (enabled : Option Capabilities) :
    info.withUsbEnabled enabled = ⟨info.version, info.serial, info.formFactor, info.isFips,
      info.isSecurityKey, info.isLocked, info.supported,
      ⟨⟨enabled, info.config.enabled.nfc⟩, info.config.autoEjectTimeout,
        info.config.challengeResponseTimeout, info.config.deviceFlags⟩⟩ :=
  rfl

/-- The information on two devices is the same, or differs in one thing only: for one of them it is
not said what is enabled over USB, and for the other it is said that nothing is. -/
structure ShownAlike (info other : DeviceInfo) : Prop where
  /-- All but what is enabled over USB is the same. -/
  others : info.withUsbEnabled none = other.withUsbEnabled none
  /-- This is the same too, or absent on one side and empty on the other. -/
  usb : info.config.enabled.usb = other.config.enabled.usb ∨
    info.config.enabled.usb = none ∧ other.config.enabled.usb = some .empty ∨
    info.config.enabled.usb = some .empty ∧ other.config.enabled.usb = none

end DeviceInfo

/-! ### Values -/

/-- A value that may be missing is seen, unless it is the one that is shown for a missing one. -/
theorem getD_eq_getD_iff {α : Type} {a b : Option α} {fallback : α} :
    a.getD fallback = b.getD fallback ↔
      a = b ∨ a = none ∧ b = some fallback ∨ a = some fallback ∧ b = none := by
  cases a <;> cases b <;> simp [eq_comm]

theorem FormFactor.text_injective : Function.Injective text := by
  have hmem : ∀ formFactor : FormFactor, formFactor ∈ all := by
    intro formFactor
    cases formFactor <;> decide
  have hall : ∀ a ∈ all, ∀ b ∈ all, a.text = b.text → a = b := by decide
  exact fun a b h => hall a (hmem a) b (hmem b) h

namespace Info

/-- What is shown of a serial number, or of its absence. -/
def serialText : Option Serial → String
  | some serial => serial.text
  | none => nothing

theorem serialText_injective : Function.Injective serialText := by
  have hne : ∀ serial : Serial, serial.text ≠ nothing := by
    intro serial h
    have hin : '<' ∈ serial.text.toList := h ▸ by decide
    exact Decimal.not_mem_toString (by decide) hin
  rintro (_ | a) (_ | b) h
  · rfl
  · exact absurd h.symm (hne b)
  · exact absurd h (hne a)
  · exact congrArg some (Serial.text_injective h)

/-! ### Lines -/

theorem entries_eq (info : DeviceInfo) :
    entries info = [.entry "version" info.version.text,
      .entry "serial" (serialText info.serial), .entry "form factor" info.formFactor.text,
      .entry "FIPS" (toString info.isFips), .entry "security key" (toString info.isSecurityKey),
      .entry "locked" (toString info.isLocked)] ++
      (transportEntries info .usb ++ (transportEntries info .nfc ++ [])) ++
      entry? "auto-eject timeout" (fun seconds => toString seconds.toNat)
        info.config.autoEjectTimeout ++
      entry? "chal-resp timeout" (fun seconds => toString seconds.toNat)
        info.config.challengeResponseTimeout ++
      entry? "device flags" (fun flags => Hex.marked 2 flags.bits.toNat)
        info.config.deviceFlags :=
  rfl

/-- **An absent set is shown as an empty one.** -/
theorem transportEntries_eq (info : DeviceInfo) (transport : Transport) :
    transportEntries info transport = (info.supported.get? transport).elim [] fun supported =>
      [.entry (transport.text ++ " supported") (capabilityText supported),
        .entry (transport.text ++ " enabled")
          (capabilityText ((info.config.enabled.get? transport).getD .empty))] := by
  rw [transportEntries]
  cases info.supported.get? transport with
  | none => rfl
  | some supported => cases info.config.enabled.get? transport <;> rfl

/-- The lines on a device that nothing is missing of. Those on NFC are between the others. -/
theorem entries_of_some {info : DeviceInfo} {usb : Capabilities} {eject : UInt16} {wait : UInt8}
    {flags : DeviceFlags} (husb : info.supported.usb = some usb)
    (heject : info.config.autoEjectTimeout = some eject)
    (hwait : info.config.challengeResponseTimeout = some wait)
    (hflags : info.config.deviceFlags = some flags) :
    entries info =
      .entry "version" info.version.text :: .entry "serial" (serialText info.serial) ::
      .entry "form factor" info.formFactor.text :: .entry "FIPS" (toString info.isFips) ::
      .entry "security key" (toString info.isSecurityKey) ::
      .entry "locked" (toString info.isLocked) ::
      .entry "USB supported" (capabilityText usb) ::
      .entry "USB enabled" (capabilityText (info.config.enabled.usb.getD .empty)) ::
      (transportEntries info .nfc ++ .entry "auto-eject timeout" (toString eject.toNat) ::
        [.entry "chal-resp timeout" (toString wait.toNat),
          .entry "device flags" (Hex.marked 2 flags.bits.toNat)]) := by
  rw [entries_eq, transportEntries_eq info .usb, PerTransport.get?, husb, heject, hwait, hflags]
  simp only [List.append_assoc, List.cons_append, List.nil_append, List.append_nil, entry?,
    Option.elim_some]
  rfl

/-- The lines on NFC are told from the one that follows. -/
theorem nfcEntries_inj {a b : DeviceInfo} (ha : a.Complete) (hb : b.Complete)
    {eject otherEject : String} {rest otherRest : List Output}
    (h : transportEntries a .nfc ++ .entry "auto-eject timeout" eject :: rest =
      transportEntries b .nfc ++ .entry "auto-eject timeout" otherEject :: otherRest) :
    a.supported.nfc = b.supported.nfc ∧ a.config.enabled.nfc = b.config.enabled.nfc ∧
      eject = otherEject ∧ rest = otherRest := by
  rw [transportEntries_eq, transportEntries_eq, PerTransport.get?, PerTransport.get?,
    PerTransport.get?, PerTransport.get?] at h
  rcases ha.nfc with ⟨hnone, hoff⟩ | ⟨nfc, on, hsome, hon⟩ <;>
    rcases hb.nfc with ⟨hotherNone, hotherOff⟩ | ⟨otherNfc, otherOn, hotherSome, hotherOn⟩
  · rw [hnone, hotherNone] at h
    obtain ⟨hfirst, hrest⟩ := List.cons.inj h
    exact ⟨hnone.trans hotherNone.symm, hoff.trans hotherOff.symm, (Output.entry.inj hfirst).2,
      hrest⟩
  · rw [hnone, hotherSome] at h
    exact absurd (Output.entry.inj (List.cons.inj h).1).1 (by decide)
  · rw [hsome, hotherNone] at h
    exact absurd (Output.entry.inj (List.cons.inj h).1).1 (by decide)
  · rw [hsome, hotherSome, hon, hotherOn] at h
    simp only [Option.elim_some, List.cons_append, List.nil_append, List.cons.injEq,
      Output.entry.injEq, true_and, Option.getD_some] at h
    obtain ⟨hsupported, henabled, heject, hrest⟩ := h
    rw [hsome, hotherSome, hon, hotherOn, capabilityText_injective hsupported,
      capabilityText_injective henabled]
    exact ⟨rfl, rfl, heject, hrest⟩

/-- What is shown does not depend on more than the set that is enabled over USB, empty or absent. -/
theorem entries_withUsbEnabled {info : DeviceInfo} {enabled : Option Capabilities}
    (h : enabled.getD .empty = info.config.enabled.usb.getD .empty) :
    entries (info.withUsbEnabled enabled) = entries info := by
  have husb : transportEntries (info.withUsbEnabled enabled) .usb = transportEntries info .usb := by
    rw [transportEntries_eq, transportEntries_eq]
    exact congrArg (fun shown => (info.supported.usb).elim [] fun supported =>
      [Output.entry "USB supported" (capabilityText supported),
        Output.entry "USB enabled" (capabilityText shown)]) h
  rw [entries_eq, entries_eq, husb]
  rfl

/-- **The lines tell what the device is**, but for an empty set that may be an absent one. -/
theorem entries_inj {a b : DeviceInfo} (ha : a.Complete) (hb : b.Complete) :
    entries a = entries b ↔ a.ShownAlike b := by
  constructor
  · intro h
    obtain ⟨usb, husb⟩ := ha.usb
    obtain ⟨otherUsb, hotherUsb⟩ := hb.usb
    obtain ⟨eject, heject⟩ := ha.autoEject
    obtain ⟨otherEject, hotherEject⟩ := hb.autoEject
    obtain ⟨wait, hwait⟩ := ha.challengeResponse
    obtain ⟨otherWait, hotherWait⟩ := hb.challengeResponse
    obtain ⟨flags, hflags⟩ := ha.deviceFlags
    obtain ⟨otherFlags, hotherFlags⟩ := hb.deviceFlags
    rw [entries_of_some husb heject hwait hflags,
      entries_of_some hotherUsb hotherEject hotherWait hotherFlags] at h
    simp only [List.cons.injEq, Output.entry.injEq, true_and] at h
    obtain ⟨hversion, hserial, hform, hfips, hkey, hlocked, husbText, henabledText, hrest⟩ := h
    obtain ⟨hnfc, hnfcEnabled, hejectText, hlast⟩ := nfcEntries_inj ha hb hrest
    simp only [List.cons.injEq, Output.entry.injEq, true_and, and_true] at hlast
    obtain ⟨hwaitText, hflagsText⟩ := hlast
    have hbool : ∀ x y : Bool, toString x = toString y → x = y := by decide
    have hsupported : a.supported = b.supported := congrArg₂ PerTransport.mk
      (by rw [husb, hotherUsb, capabilityText_injective husbText]) hnfc
    have hsameEject : eject = otherEject :=
      UInt16.toNat_inj.mp (Decimal.toString_injective hejectText)
    have hsameWait : wait = otherWait := UInt8.toNat_inj.mp (Decimal.toString_injective hwaitText)
    have hsameFlags : flags = otherFlags :=
      congrArg FlagWord.mk (BitVec.eq_of_toNat_eq (Hex.marked_injective 2 hflagsText))
    refine ⟨?_, getD_eq_getD_iff.mp (capabilityText_injective henabledText)⟩
    rw [DeviceInfo.withUsbEnabled_eq, DeviceInfo.withUsbEnabled_eq, Version.text_injective hversion,
      serialText_injective hserial, FormFactor.text_injective hform, hbool _ _ hfips,
      hbool _ _ hkey, hbool _ _ hlocked, hsupported, hnfcEnabled, heject, hotherEject, hwait,
      hotherWait, hflags, hotherFlags, hsameEject, hsameWait, hsameFlags]
  · rintro ⟨hothers, husb⟩
    have hb : a.withUsbEnabled b.config.enabled.usb = b :=
      congrArg (fun info => info.withUsbEnabled b.config.enabled.usb) hothers
    calc entries a = entries (a.withUsbEnabled b.config.enabled.usb) :=
          (entries_withUsbEnabled (getD_eq_getD_iff.mpr husb).symm).symm
      _ = entries b := congrArg entries hb

/-! ### Reading the lines -/

theorem oneLine_capabilityText (capabilities : Capabilities) :
    '\n' ∉ (capabilityText capabilities).toList := by
  intro h
  rcases mem_capabilityText h with hletter | hblank | hopen | hclose
  · cases hletter
  · cases hblank
  · cases hopen
  · cases hclose

theorem oneLine_marked (width number : Nat) : '\n' ∉ (Hex.marked width number).toList := by
  have hdigit : ∀ d < 16, '\n' ≠ Nat.digitChar d := by decide
  intro h
  rcases Hex.mem_marked h with hmark | ⟨d, hd, hchar⟩
  · cases hmark
  · exact hdigit d hd hchar

theorem legible_entry? {α : Type} {name : String} (hname : IsName name) {text : α → String}
    (htext : ∀ value, '\n' ∉ (text value).toList) (value : Option α) :
    ∀ output ∈ entry? name text value, output.Legible := by
  cases value with
  | none => exact List.forall_mem_nil _
  | some value => exact List.forall_mem_singleton.mpr (.entry hname (htext value))

theorem legible_transportEntries (info : DeviceInfo) (transport : Transport) :
    ∀ output ∈ transportEntries info transport, output.Legible := by
  have hnames : IsName (transport.text ++ " supported") ∧
      IsName (transport.text ++ " enabled") := by
    cases transport <;> decide
  rw [transportEntries_eq]
  cases info.supported.get? transport with
  | none => exact List.forall_mem_nil _
  | some supported =>
    exact List.forall_mem_cons.mpr ⟨.entry hnames.1 (oneLine_capabilityText _),
      List.forall_mem_singleton.mpr (.entry hnames.2 (oneLine_capabilityText _))⟩

/-- **Every line can be read**, whatever the device is. -/
theorem legible_entries (info : DeviceInfo) : ∀ output ∈ entries info, output.Legible := by
  have hdigits : ∀ number : Nat, '\n' ∉ (toString number).toList :=
    fun number => Decimal.not_mem_toString (by decide)
  have hversion : '\n' ∉ info.version.text.toList :=
    Version.not_mem_text (by decide) (by decide)
  have hserial : '\n' ∉ (serialText info.serial).toList := by
    cases info.serial with
    | none => decide
    | some serial => exact hdigits _
  have hform : '\n' ∉ info.formFactor.text.toList := by
    cases info.formFactor <;> decide
  have hbool : ∀ answer : Bool, '\n' ∉ (toString answer).toList := by decide
  rw [entries_eq]
  simp only [List.forall_mem_append]
  refine ⟨⟨⟨⟨?_, legible_transportEntries info .usb, legible_transportEntries info .nfc,
    List.forall_mem_nil _⟩, legible_entry? (by decide) (fun _ => hdigits _) _⟩,
    legible_entry? (by decide) (fun _ => hdigits _) _⟩,
    legible_entry? (by decide) (fun _ => oneLine_marked 2 _) _⟩
  simp only [List.forall_mem_cons]
  exact ⟨.entry (by decide) hversion, .entry (by decide) hserial, .entry (by decide) hform,
    .entry (by decide) (hbool _), .entry (by decide) (hbool _), .entry (by decide) (hbool _),
    List.forall_mem_nil _⟩

end Info

/-! ### Arguments -/

namespace CommandLine

theorem parseFrom_infoCommand (version : Version) (response : String) :
    infoCommand.parseFrom .start ["--default-version", version.text, "--", response] =
      .ok ⟨[], [("default-version", version.text)], [], some response⟩ := by
  have hversion : Token.ofString version.text = .word :=
    Token.ofString_of_not_mem (Version.not_mem_text (by decide) (by decide))
  have haccepts : (Version.parse version.text).toBool = true := by
    rw [Version.parse_text]
    rfl
  obtain ⟨option, hwaits, hlong, hkind⟩ : ∃ option : CommandOption,
      Progress.start.advance infoCommand "--default-version" =
        .ok ⟨[], [], none, none, some option, false⟩ ∧ option.long = "default-version" ∧
      option.kind = .value "DEFAULT_VERSION" false (some fallbackVersion.text) fun text =>
        (Version.parse text).toBool := ⟨_, rfl, rfl, rfl⟩
  have hgiven : Progress.advance ⟨[], [], none, none, some option, false⟩ infoCommand
      version.text = .ok ⟨[], [], none, some (option, version.text), none, false⟩ := by
    rw [Progress.advance, hversion]
  have hescape : Progress.advance ⟨[], [], none, some (option, version.text), none, false⟩
      infoCommand "--" = .ok ⟨[], [], none, some (option, version.text), none, true⟩ := rfl
  -- the value of the option is looked at when the response comes
  have hsettle : Progress.settle ⟨[], [], none, some (option, version.text), none, true⟩ =
      .ok ⟨[("default-version", version.text)], [], none, none, none, true⟩ := by
    simp [Progress.settle, Progress.accept, hlong, hkind, haccepts]
  have hword : Progress.advance ⟨[], [], none, some (option, version.text), none, true⟩
      infoCommand response =
        .ok ⟨[("default-version", version.text)], [], some response, none, none, true⟩ := by
    change Progress.word _ _ _ = _
    rw [Progress.word, hsettle]
    rfl
  have hfinish : Progress.finish
      ⟨[("default-version", version.text)], [], some response, none, none, true⟩ infoCommand =
        .ok ⟨[], [("default-version", version.text)], [], some response⟩ := rfl
  have hleaf : infoCommand.subcommands = [] := rfl
  rw [Command.parseFrom_cons hleaf hwaits, Command.parseFrom_cons hleaf hgiven,
    Command.parseFrom_cons hleaf hescape, Command.parseFrom_cons hleaf hword, Command.parseFrom,
    hleaf, hfinish]
  rfl

/-- **Any response and version can be given**, whatever characters the response has. -/
theorem asks_info (arguments : Info.Arguments) :
    Asks ["info", "--default-version", arguments.fallback.text, "--", arguments.response]
      (.info arguments) := by
  obtain ⟨version, response⟩ := arguments
  have hsub : Progress.start.subcommand? program "info" = some infoCommand := rfl
  have hparse : program.parse ["info", "--default-version", version.text, "--", response] =
      .ok ⟨["info"], [("default-version", version.text)], [], some response⟩ := by
    rw [Command.parse_cons_of_subcommand hsub rfl, Command.parse, parseFrom_infoCommand]
    rfl
  rw [Asks, hparse]
  simp [Except.toOption, invocation?, Matches.value?, Version.parse_text]

end CommandLine

namespace Info

/-! ### Whole runs -/

/-- The response among the arguments is read, and this is what it says. -/
def Arguments.Describes (arguments : Arguments) (read : Logged DeviceInfo) : Prop :=
  ∃ response, Hex.Stands arguments.response response ∧
    DeviceInfo.parse response arguments.fallback = .ok read

/-- The part of a run before something is shown. -/
def readResponse (arguments : Arguments) : Session (Logged DeviceInfo) := do
  let response ← decodeArgument "response" arguments.response
  match DeviceInfo.parse response arguments.fallback with
  | .error fault => .fail ("can't decode device info: " ++ fault.message)
  | .ok read => pure read

theorem run_eq (arguments : Arguments) :
    run arguments = readResponse arguments >>= fun read =>
      ⟨some (), read.events.map .note ++ entries read.value⟩ := by
  rw [run, readResponse, bind_assoc]
  refine congrArg _ (funext fun response => ?_)
  cases DeviceInfo.parse response arguments.fallback <;> rfl

theorem reads_readResponse (arguments : Arguments) :
    (readResponse arguments).Reads arguments.Describes := by
  refine Session.Reads.bind (.decodeArgument _ _) fun response => ?_
  cases DeviceInfo.parse response arguments.fallback with
  | error fault => exact (Session.Reads.of_result_eq_none rfl).congr fun read => by simp
  | ok read => exact (Session.Reads.pure read).congr fun other => by simp [eq_comm]

theorem unshown_readResponse (arguments : Arguments) : (readResponse arguments).Unshown := by
  refine Session.Unshown.bind (.decodeArgument _ _) fun response => ?_
  split
  · exact .fail _
  · exact .pure _

/-- How a run ends that has to show a device. -/
inductive Ends (arguments : Arguments) (report : Report) : Prop where
  /-- It shows the lines on the device that is described. -/
  | shown {read : Logged DeviceInfo} (exit : report.exit = 0) (describes : arguments.Describes read)
    (stdout : ∀ style, Output.stdout style report.outputs =
      Output.stdout style (entries read.value))
  /-- It gives up on what cannot be read, and shows nothing. -/
  | refused (exit : report.exit = 1) (not_describes : ∀ read, ¬ arguments.Describes read)
    (silent : ∀ style, Output.stdout style report.outputs = "")

theorem ends_report_run (arguments : Arguments) :
    Ends arguments (CommandLine.report (run arguments)) := by
  have hreads := reads_readResponse arguments
  have hunshown := unshown_readResponse arguments
  have hrun := run_eq arguments
  cases hresponse : readResponse arguments with
  | mk result outputs =>
    rw [hresponse] at hreads hunshown hrun
    cases result with
    | none =>
      have hend : run arguments = ⟨none, outputs⟩ := hrun
      rw [hend]
      refine .refused rfl (fun read hread => ?_) fun style => ?_
      · cases (hreads read []).mpr ⟨hread, rfl⟩
      · rw [CommandLine.outputs_report, Output.stdout_eq_empty style hunshown]
    | some read =>
      obtain ⟨hread, rfl⟩ := (hreads read outputs).mp rfl
      have hend : run arguments = ⟨some (), read.events.map .note ++ entries read.value⟩ := hrun
      rw [hend]
      refine .shown rfl hread fun style => ?_
      rw [CommandLine.outputs_report, Output.stdout_append,
        Output.stdout_eq_empty style Output.unshown_of_mem_map_note, String.empty_append]

/-- What is described is read off the arguments alone. -/
theorem Arguments.Describes.unique {arguments : Arguments} {read other : Logged DeviceInfo}
    (h : arguments.Describes read) (hother : arguments.Describes other) : read = other := by
  obtain ⟨response, hstands, hparse⟩ := h
  obtain ⟨otherResponse, hotherStands, hotherParse⟩ := hother
  rw [hstands.unique hotherStands, hotherParse] at hparse
  exact (Except.ok.inj hparse).symm

/-- A run that can read the response shows what it says. -/
theorem Ends.stdout_eq {arguments : Arguments} {report : Report} (h : Ends arguments report)
    {read : Logged DeviceInfo} (hread : arguments.Describes read) (style : Style) :
    Output.stdout style report.outputs = Output.stdout style (entries read.value) := by
  cases h with
  | shown _ hother hstdout => rw [hstdout, hread.unique hother]
  | refused _ hnone _ => exact absurd hread (hnone read)

theorem Arguments.Describes.complete {arguments : Arguments} {read : Logged DeviceInfo}
    (h : arguments.Describes read) : read.value.Complete := by
  obtain ⟨response, -, hparse⟩ := h
  exact DeviceInfo.complete_of_parse hparse

/-- **What is shown of a device tells which device it is.** A run exits with 0 if the response among
its arguments is read, and otherwise exits with 1 and shows nothing. The outputs of two runs that
read a response are equal just if both responses say the same about the device, an empty set being
taken for an absent one where it is about what is enabled over USB. Every response and version can
be given in some arguments, and every set of capabilities is shown differently. -/
theorem run_shows {line otherLine : List String} {arguments otherArguments : Arguments}
    (hline : CommandLine.Asks line (.info arguments))
    (hother : CommandLine.Asks otherLine (.info otherArguments))
    (surroundings otherSurroundings : Surroundings) :
    ((CommandLine.run surroundings line).exit = 0 ↔ ∃ read, arguments.Describes read) ∧
    ((¬ ∃ read, arguments.Describes read) → (CommandLine.run surroundings line).exit = 1 ∧
      ∀ style, Output.stdout style (CommandLine.run surroundings line).outputs = "") ∧
    (∀ read otherRead, arguments.Describes read → otherArguments.Describes otherRead → ∀ style,
      Output.stdout style (CommandLine.run surroundings line).outputs =
          Output.stdout style (CommandLine.run otherSurroundings otherLine).outputs ↔
        read.value.ShownAlike otherRead.value) ∧
    (∀ given : Arguments, CommandLine.Asks
      ["info", "--default-version", given.fallback.text, "--", given.response] (.info given)) ∧
    Function.Injective capabilityText := by
  have hends : Ends arguments (CommandLine.run surroundings line) := by
    rw [CommandLine.run_of_asks hline]
    exact ends_report_run arguments
  have hotherEnds : Ends otherArguments (CommandLine.run otherSurroundings otherLine) := by
    rw [CommandLine.run_of_asks hother]
    exact ends_report_run otherArguments
  refine ⟨?_, ?_, ?_, CommandLine.asks_info, capabilityText_injective⟩
  · cases hends with
    | shown hexit hread _ => exact iff_of_true hexit ⟨_, hread⟩
    | refused hexit hnone _ =>
      rw [hexit]
      exact iff_of_false Nat.one_ne_zero fun ⟨read, hread⟩ => hnone read hread
  · intro hnone
    cases hends with
    | shown _ hread _ => exact absurd ⟨_, hread⟩ hnone
    | refused hexit _ hsilent => exact ⟨hexit, hsilent⟩
  · intro read otherRead hread hotherRead style
    rw [hends.stdout_eq hread, hotherEnds.stdout_eq hotherRead,
      Output.stdout_inj (legible_entries _) (legible_entries _),
      entries_inj hread.complete hotherRead.complete]

/-- Nothing is said on what is enabled over USB, or that it is nothing: the two look alike. -/
theorem run_shows_of_nothing_enabled :
    ∃ read otherRead, Arguments.Describes ⟨⟨3, 0, 0⟩, " 00 "⟩ read ∧
      Arguments.Describes ⟨⟨3, 0, 0⟩, "03030100"⟩ otherRead ∧ read.value ≠ otherRead.value ∧
      CommandLine.Asks ["info", " 00 "] (.info ⟨⟨3, 0, 0⟩, " 00 "⟩) ∧
      CommandLine.Asks ["info", "03030100"] (.info ⟨⟨3, 0, 0⟩, "03030100"⟩) ∧
      ∀ surroundings, (CommandLine.run surroundings ["info", " 00 "]).exit = 0 ∧
        ∀ style, Output.stdout style (CommandLine.run surroundings ["info", " 00 "]).outputs =
          Output.stdout style (CommandLine.run surroundings ["info", "03030100"]).outputs := by
  have hread : Arguments.Describes ⟨⟨3, 0, 0⟩, " 00 "⟩
      (DeviceInfo.ofTags TagMap.empty ⟨3, 0, 0⟩) :=
    ⟨[0], Hex.decode_trim_eq_ok_iff.mp (by rfl), DeviceInfo.parse_eq_ok_iff.mpr ⟨0, [], _, rfl, rfl,
      TagMap.decode_eq_ok_iff.mpr ⟨[], rfl, rfl⟩, rfl⟩⟩
  have hother : Arguments.Describes ⟨⟨3, 0, 0⟩, "03030100"⟩
      (DeviceInfo.ofTags (TagMap.empty.insert 3 [0]) ⟨3, 0, 0⟩) :=
    ⟨[3, 3, 1, 0], Hex.decode_trim_eq_ok_iff.mp (by rfl), DeviceInfo.parse_eq_ok_iff.mpr
      ⟨3, [3, 1, 0], _, rfl, rfl, TagMap.decode_eq_ok_iff.mpr
        ⟨[⟨[3], [1], [0], .short 3 (by decide), .short 1 (by decide)⟩], rfl, rfl⟩, rfl⟩⟩
  have hline : CommandLine.Asks ["info", " 00 "] (.info ⟨⟨3, 0, 0⟩, " 00 "⟩) := by decide +kernel
  have hotherLine : CommandLine.Asks ["info", "03030100"] (.info ⟨⟨3, 0, 0⟩, "03030100"⟩) := by
    decide +kernel
  refine ⟨_, _, hread, hother, by decide +kernel, hline, hotherLine, fun surroundings => ?_⟩
  obtain ⟨hexit, -, halike, -⟩ := run_shows hline hotherLine surroundings surroundings
  exact ⟨hexit.mpr ⟨_, hread⟩, fun style => (halike _ _ hread hother style).mpr
    ⟨by decide +kernel, .inr (.inl ⟨by decide +kernel, by decide +kernel⟩)⟩⟩

end Info

end TokenConfig
