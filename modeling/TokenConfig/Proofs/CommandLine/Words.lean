import TokenConfig.Proofs.CommandLine.Reading
import TokenConfig.Proofs.CommandLine.Session

/-!
# Words that ask for a record

What is known of runs of the subcommand `otp` is said of what its arguments ask for. This file gives
the words: for every slot, credential and access codes there is a line that asks for just these
(`TokenConfig.CommandLine.asks_otp`), whatever characters the texts have that are given.

The line has each value behind `=` in the argument of its option, and scan codes behind two dashes
(`TokenConfig.Otp.Arguments.words`). What it says of the credential (`TokenConfig.Otp.Preset.said`)
is read by a subcommand of its own (`TokenConfig.CommandLine.exists_declares_said`), and is taken
for that credential whatever is said of the slot and of access codes before it
(`TokenConfig.CommandLine.preset?_said`).
-/

namespace TokenConfig

namespace Otp

/-! ### What is said -/

/-- What is said of a credential. -/
structure Said where
  /-- Its kind. -/
  kind : String
  /-- The options of its kind, with the values that are given. -/
  values : List (String × Option String)
  /-- The flags of its kind, and whether they are set. -/
  flags : List (String × Bool)
  /-- The operand, if its kind has one. -/
  operand : Option String

/-- What is said of a credential that is given in arguments. -/
def Preset.said : Preset → Said
  | .yubicoOtp publicId privateId key generate =>
    ⟨"yubico-otp", [("public-id", some publicId), ("private-id", privateId), ("key", key)],
      [("generate", generate)], none⟩
  | .hmacSha1 key generate touch =>
    ⟨"hmac-sha1", [("key", key)], [("generate", generate), ("touch", touch)], none⟩
  | .hotp key generate eightDigits =>
    ⟨"hotp", [("key", key)], [("generate", generate), ("digits8", eightDigits)], none⟩
  | .staticPassword scanCodes => ⟨"static-password", [], [], some scanCodes⟩
  | .staticTicket fixed uid key =>
    ⟨"static-ticket", [("fixed", some fixed), ("uid", some uid), ("key", some key)], [], none⟩
  | .update => ⟨"update", [], [], none⟩

/-- The number of a slot. -/
def slotNumber : Slot → String
  | .one => "1"
  | .two => "2"

/-- What is said of the slot and of access codes. -/
def Arguments.saidBefore (arguments : Arguments) : List (String × Option String) :=
  [("slot", some (slotNumber arguments.slot)), ("access-code", arguments.accessCode),
    ("current-access-code", arguments.currentAccessCode)]

/-- Words that ask for a record. -/
def Arguments.words (arguments : Arguments) : List String :=
  let said := arguments.preset.said
  "otp" :: (Command.wordsOf arguments.saidBefore [] none ++
    said.kind :: Command.wordsOf said.values said.flags said.operand)

end Otp

namespace CommandLine

open Otp

/-! ### How it is read -/

theorem takes_of_find? {command : Command} {name shown : String} {required : Bool}
    {option : CommandOption} (hname : '=' ∉ name.toList)
    (hfound : command.options.find? (fun option => option.long == name) = some option)
    (hkind : option.kind = .value shown required none fun _ => true) (given : Option String) :
    ∀ value ∈ given, command.Takes name value :=
  fun _ _ => ⟨hname, option, hfound, shown, required, none, fun _ => true, hkind, rfl⟩

/-- Every kind of credential is declared, with what may be said of it, and needs no more. -/
theorem exists_declares_said (preset : Preset) :
    ∃ sub, otpCommand.subcommand? preset.said.kind = some sub ∧ sub.name = preset.said.kind ∧
      sub.Declares preset.said.values preset.said.flags preset.said.operand ∧
      Progress.finish ⟨Command.valuesGiven preset.said.values, Command.flagsSet preset.said.flags,
          preset.said.operand, none, none, preset.said.operand.isSome⟩ sub =
        .ok ⟨[], Command.valuesGiven preset.said.values, Command.flagsSet preset.said.flags,
          preset.said.operand⟩ := by
  cases preset with
  | yubicoOtp publicId privateId key generate =>
    refine ⟨_, rfl, rfl, ⟨rfl, ?_, (by decide : ["public-id", "private-id", "key"].Nodup), ?_,
      (by decide : ["generate"].Nodup), nofun⟩, ?_⟩
    · simp only [Preset.said, List.forall_mem_cons]
      exact ⟨takes_of_find? (by decide) rfl rfl _, takes_of_find? (by decide) rfl rfl _,
        takes_of_find? (by decide) rfl rfl _, List.forall_mem_nil _⟩
    · simp only [Preset.said, List.forall_mem_singleton]
      exact ⟨rfl, _, rfl, rfl⟩
    · cases privateId <;> cases key <;> rfl
  | hmacSha1 key generate touch =>
    refine ⟨_, rfl, rfl, ⟨rfl, ?_, (by decide : ["key"].Nodup), ?_,
      (by decide : ["generate", "touch"].Nodup), nofun⟩, ?_⟩
    · simp only [Preset.said, List.forall_mem_singleton]
      exact takes_of_find? (by decide) rfl rfl _
    · simp only [Preset.said, List.forall_mem_cons]
      exact ⟨⟨rfl, _, rfl, rfl⟩, ⟨rfl, _, rfl, rfl⟩, List.forall_mem_nil _⟩
    · cases key <;> rfl
  | hotp key generate eightDigits =>
    refine ⟨_, rfl, rfl, ⟨rfl, ?_, (by decide : ["key"].Nodup), ?_,
      (by decide : ["generate", "digits8"].Nodup), nofun⟩, ?_⟩
    · simp only [Preset.said, List.forall_mem_singleton]
      exact takes_of_find? (by decide) rfl rfl _
    · simp only [Preset.said, List.forall_mem_cons]
      exact ⟨⟨rfl, _, rfl, rfl⟩, ⟨rfl, _, rfl, rfl⟩, List.forall_mem_nil _⟩
    · cases key <;> rfl
  | staticPassword scanCodes =>
    exact ⟨_, rfl, rfl, ⟨rfl, List.forall_mem_nil _, List.nodup_nil, List.forall_mem_nil _,
      List.nodup_nil, fun _ => rfl⟩, rfl⟩
  | staticTicket fixed uid key =>
    refine ⟨_, rfl, rfl, ⟨rfl, ?_, (by decide : ["fixed", "uid", "key"].Nodup),
      List.forall_mem_nil _, List.nodup_nil, nofun⟩, rfl⟩
    simp only [Preset.said, List.forall_mem_cons]
    exact ⟨takes_of_find? (by decide) rfl rfl _, takes_of_find? (by decide) rfl rfl _,
      takes_of_find? (by decide) rfl rfl _, List.forall_mem_nil _⟩
  | update =>
    exact ⟨_, rfl, rfl, ⟨rfl, List.forall_mem_nil _, List.nodup_nil, List.forall_mem_nil _,
      List.nodup_nil, nofun⟩, rfl⟩

theorem nodup_saidBefore (arguments : Arguments) : (arguments.saidBefore.map Prod.fst).Nodup :=
  (by decide : ["slot", "access-code", "current-access-code"].Nodup)

/-- The slot and the access codes are read by the subcommand `otp` itself. -/
theorem parseFrom_saidBefore (arguments : Arguments) (rest : List String) :
    otpCommand.parse (Command.wordsOf arguments.saidBefore [] none ++ rest) =
      otpCommand.parseFrom
        (Command.readSoFar (Command.valuesGiven arguments.saidBefore) []) rest := by
  have hnames : otpCommand.NamesSubcommands := by
    unfold Command.NamesSubcommands
    decide
  have hslot : ∀ value ∈ some (slotNumber arguments.slot),
      Command.Takes otpCommand "slot" value := by
    rintro _ ⟨⟩
    refine ⟨by decide, _, rfl, _, _, _, _, rfl, ?_⟩
    cases arguments.slot <;> rfl
  have htakes : ∀ one ∈ arguments.saidBefore, ∀ value ∈ one.2,
      Command.Takes otpCommand one.1 value := by
    simp only [Arguments.saidBefore, List.forall_mem_cons]
    exact ⟨hslot, takes_of_find? (by decide) rfl rfl _, takes_of_find? (by decide) rfl rfl _,
      List.forall_mem_nil _⟩
  have hread := @Command.parseFrom_values otpCommand [] [] hnames arguments.saidBefore htakes
    (nodup_saidBefore arguments) rest
  rw [Command.wordsOf, List.flatMap_nil, Option.toList_none, List.flatMap_nil, List.append_nil,
    List.append_nil, Command.parse, Progress.start, ← Command.readSoFar, hread, List.nil_append]

/-- The values of all options. -/
theorem lookup_said (arguments : Arguments) (name : String) :
    (Command.valuesGiven arguments.saidBefore ++
        Command.valuesGiven arguments.preset.said.values).lookup name =
      (arguments.saidBefore.lookup name).join.or
        (arguments.preset.said.values.lookup name).join := by
  obtain ⟨_, -, -, hdeclares, -⟩ := exists_declares_said arguments.preset
  rw [List.lookup_append, Command.lookup_valuesGiven (nodup_saidBefore arguments),
    Command.lookup_valuesGiven hdeclares.nodup]

/-- What is said of a credential is taken for it, whatever is said before of the slot and of access
codes. -/
theorem preset?_said (arguments : Arguments) (path : List String) :
    preset? arguments.preset.said.kind ⟨path,
      Command.valuesGiven arguments.saidBefore ++
        Command.valuesGiven arguments.preset.said.values,
      Command.flagsSet arguments.preset.said.flags, arguments.preset.said.operand⟩ =
        some arguments.preset := by
  unfold preset?
  simp only [Matches.value?, lookup_said]
  cases arguments.preset with
  | yubicoOtp publicId privateId key generate => cases generate <;> rfl
  | hmacSha1 key generate touch => cases generate <;> cases touch <;> rfl
  | hotp key generate eightDigits => cases generate <;> cases eightDigits <;> rfl
  | staticPassword scanCodes => rfl
  | staticTicket fixed uid key => rfl
  | update => rfl

/-- What is said is taken for what was to be said. -/
theorem invocation?_said (arguments : Arguments) :
    invocation? ⟨["otp", arguments.preset.said.kind],
      Command.valuesGiven arguments.saidBefore ++
        Command.valuesGiven arguments.preset.said.values,
      Command.flagsSet arguments.preset.said.flags, arguments.preset.said.operand⟩ =
        some (.otp arguments) := by
  -- the options of a credential are none of those before it
  have hslot : arguments.preset.said.values.lookup "slot" = none := by
    cases arguments.preset <;> rfl
  have hcode : arguments.preset.said.values.lookup "access-code" = none := by
    cases arguments.preset <;> rfl
  have hcurrent : arguments.preset.said.values.lookup "current-access-code" = none := by
    cases arguments.preset <;> rfl
  have hparse : Slot.parse (slotNumber arguments.slot) = .ok arguments.slot := by
    cases arguments.slot <;> rfl
  have hbefore : arguments.saidBefore.lookup "slot" = some (some (slotNumber arguments.slot)) ∧
      arguments.saidBefore.lookup "access-code" = some arguments.accessCode ∧
      arguments.saidBefore.lookup "current-access-code" = some arguments.currentAccessCode :=
    ⟨rfl, rfl, rfl⟩
  simp [invocation?, Matches.value?, lookup_said, preset?_said, hslot, hcode, hcurrent, hbefore,
    hparse, Except.toOption]

/-- **Any record can be asked for**, whatever characters the texts have that are given. -/
theorem asks_otp (arguments : Arguments) : Asks arguments.words (.otp arguments) := by
  obtain ⟨sub, hsub, hname, hdeclares, hfinish⟩ := exists_declares_said arguments.preset
  have houter : (Command.readSoFar (Command.valuesGiven arguments.saidBefore) []).finish
      otpCommand = .ok ⟨[], Command.valuesGiven arguments.saidBefore, [], none⟩ := by
    obtain ⟨slot, code, current, preset⟩ := arguments
    cases code <;> cases current <;> rfl
  have hparse := (parseFrom_saidBefore arguments _).trans
    (Command.parseFrom_cons_of_subcommand rfl hsub (hdeclares.parse_wordsOf.trans hfinish) houter)
  have hotp : Progress.start.subcommand? program "otp" = some otpCommand := rfl
  rw [Asks, Arguments.words, Command.parse_cons_of_subcommand hotp rfl, hparse, hname]
  exact invocation?_said arguments

end CommandLine

end TokenConfig
