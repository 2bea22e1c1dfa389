import TokenConfig.Proofs.CommandLine.Session
import TokenConfig.Proofs.Slot.Credential

/-!
# What the subcommand `otp` accepts

A run of the subcommand reads its arguments one after the other and gives up at the first that is no
good. `TokenConfig.Otp.Accepted` says which arguments are good, and as what they are taken, without
an order: those that stand for the parts of a credential
(`TokenConfig.Otp.Preset.Describes`) which fits a record, and for two access codes, which may be
missing. These are the ones that a configuration is made of
(`TokenConfig.Otp.prepared_eq_some_iff`).

Before a record is shown nothing else is (`TokenConfig.Otp.unshown_prepared`). It does not matter
where a run takes place, except for access codes that are too long
(`TokenConfig.Otp.prepared_congr`). All this is said of runs that have no secret to make up
(`TokenConfig.Otp.Preset.generates`).
-/

namespace TokenConfig

namespace Otp

/-! ### What arguments describe -/

/-- Whether a secret is to be made up. -/
def Preset.generates : Preset → Bool
  | .yubicoOtp _ _ _ generate | .hmacSha1 _ generate _ | .hotp _ generate _ => generate
  | .staticPassword _ | .staticTicket .. | .update => false

/-- A credential is the one that arguments describe: it is of their kind, and each of its parts is
what an argument stands for. -/
inductive Preset.Describes : Preset → Credential → Prop where
  /-- One-time passwords, with both secrets given. -/
  | yubicoOtp {publicText privateText keyText : String} {generate : Bool} {publicId : Bytes}
    {privateId : Bytes.Exactly Field.uid.size} {key : Bytes.Exactly Field.key.size}
    (hpublicId : Hex.Stands publicText publicId)
    (hprivateId : Hex.Stands privateText privateId.bytes)
    (hkey : Hex.Stands keyText key.bytes) :
    Describes (.yubicoOtp publicText (some privateText) (some keyText) generate)
      (.yubicoOtp publicId privateId key)
  /-- Answers to challenges, with the key given. -/
  | hmacSha1 {keyText : String} {generate touch : Bool} {key : Bytes}
    (hkey : Hex.Stands keyText key) :
    Describes (.hmacSha1 (some keyText) generate touch) (.hmacSha1 key touch)
  /-- Counted one-time passwords, with the key given. -/
  | hotp {keyText : String} {generate eightDigits : Bool} {key : Bytes}
    (hkey : Hex.Stands keyText key) :
    Describes (.hotp (some keyText) generate eightDigits) (.hotp key eightDigits)
  /-- A static password. -/
  | staticPassword {scanText : String} {scanCodes : Bytes} (hscan : Hex.Stands scanText scanCodes) :
    Describes (.staticPassword scanText) (.staticPassword scanCodes)
  /-- A password that the token derives. -/
  | staticTicket {fixedText uidText keyText : String} {fixed : Bytes}
    {uid : Bytes.Exactly Field.uid.size} {key : Bytes.Exactly Field.key.size}
    (hfixed : Hex.Stands fixedText fixed) (huid : Hex.Stands uidText uid.bytes)
    (hkey : Hex.Stands keyText key.bytes) :
    Describes (.staticTicket fixedText uidText keyText) (.staticTicket fixed uid key)
  /-- An update. -/
  | update : Describes .update .update

theorem reads_exactArgument (size : Nat) (name text : String) :
    (exactArgument size name text).Reads fun value => Hex.Stands text value.bytes := by
  refine ((Session.Reads.decodeArgument name text).bind fun bytes => ?_).congr fun value =>
    exists_eq_right'
  rw [Bytes.Exactly.ofBytes?]
  by_cases hlength : bytes.length = size
  · rw [dif_pos hlength]
    refine (Session.Reads.pure _).congr fun value => ?_
    rw [Bytes.Exactly.mk.injEq, eq_comm]
  · rw [dif_neg hlength]
    refine (Session.Reads.of_result_eq_none rfl).congr fun value => ?_
    refine iff_of_false not_false ?_
    rintro rfl
    exact hlength value.length_eq

theorem reads_secret (surroundings : Surroundings) (flag : String) (start size : Nat)
    (text : Option String) :
    (secret surroundings flag start size text false).Reads fun value =>
      ∃ given, text = some given ∧ Hex.Stands given value.bytes := by
  cases text with
  | none => exact (Session.Reads.of_result_eq_none rfl).congr (by simp)
  | some text =>
    rw [secret, given, pure_bind]
    exact (reads_exactArgument size flag text).congr (by simp)

theorem reads_hmacKey (surroundings : Surroundings) (text : Option String) :
    (hmacKey surroundings text false).Reads fun key =>
      ∃ given, text = some given ∧ Hex.Stands given key := by
  cases text with
  | none => exact (Session.Reads.of_result_eq_none rfl).congr (by simp)
  | some text =>
    rw [hmacKey, given, pure_bind]
    exact (Session.Reads.decodeArgument "key" text).congr (by simp)

/-- **The credential is the one that the arguments describe**, and nothing is written. -/
theorem reads_credential (surroundings : Surroundings) {preset : Preset}
    (h : preset.generates = false) : (credential surroundings preset).Reads preset.Describes := by
  have hdecode := Session.Reads.decodeArgument
  have hsecret := reads_secret surroundings
  have hkey := reads_hmacKey surroundings
  cases preset with
  | yubicoOtp publicText privateText keyText generate =>
    obtain rfl : generate = false := h
    refine ((hdecode _ _).bind fun publicId => (hsecret _ _ _ _).bind fun privateId =>
      (hsecret _ _ _ _).bind fun key => .pure _).congr fun made => ?_
    constructor
    · rintro ⟨publicId, hpublicId, privateId, ⟨_, rfl, hprivateId⟩, key, ⟨_, rfl, hkey⟩, rfl⟩
      exact .yubicoOtp hpublicId hprivateId hkey
    · intro hmade
      cases hmade with
      | yubicoOtp hpublicId hprivateId hkey =>
        exact ⟨_, hpublicId, _, ⟨_, rfl, hprivateId⟩, _, ⟨_, rfl, hkey⟩, rfl⟩
  | hmacSha1 keyText generate touch =>
    obtain rfl : generate = false := h
    refine ((hkey _).bind fun key => .pure _).congr fun made => ?_
    constructor
    · rintro ⟨key, ⟨_, rfl, hkey⟩, rfl⟩
      exact .hmacSha1 hkey
    · rintro ⟨⟩
      next hkey => exact ⟨_, ⟨_, rfl, hkey⟩, rfl⟩
  | hotp keyText generate eightDigits =>
    obtain rfl : generate = false := h
    refine ((hkey _).bind fun key => .pure _).congr fun made => ?_
    constructor
    · rintro ⟨key, ⟨_, rfl, hkey⟩, rfl⟩
      exact .hotp hkey
    · rintro ⟨⟩
      next hkey => exact ⟨_, ⟨_, rfl, hkey⟩, rfl⟩
  | staticPassword scanText =>
    refine ((hdecode _ _).bind fun scanCodes => .pure _).congr fun made => ?_
    constructor
    · rintro ⟨scanCodes, hscan, rfl⟩
      exact .staticPassword hscan
    · rintro ⟨⟩
      next hscan => exact ⟨_, hscan, rfl⟩
  | staticTicket fixedText uidText keyText =>
    refine ((reads_exactArgument _ _ _).bind fun uid => (reads_exactArgument _ _ _).bind fun key =>
      (hdecode _ _).bind fun fixed => .pure _).congr fun made => ?_
    constructor
    · rintro ⟨uid, huid, key, hkey, fixed, hfixed, rfl⟩
      exact .staticTicket hfixed huid hkey
    · rintro ⟨⟩
      next hfixed huid hkey => exact ⟨_, huid, _, hkey, _, hfixed, rfl⟩
  | update =>
    refine (Session.Reads.pure _).congr fun made => ?_
    constructor
    · rintro rfl
      exact .update
    · rintro ⟨⟩
      rfl

/-- What a configuration is made of is accepted in silence. -/
theorem reads_configuration (credential : Credential) :
    (configuration credential).Reads fun config => ∃ configured : Logged SlotConfiguration,
      SlotConfiguration.ofCredential credential = .ok configured ∧ config = configured.value := by
  unfold configuration
  cases hmade : SlotConfiguration.ofCredential credential with
  | error fault => exact (Session.Reads.of_result_eq_none rfl).congr (by simp)
  | ok configured =>
    obtain ⟨-, hevents, -⟩ := SlotConfiguration.of_ofCredential_eq_ok hmade
    intro config outputs
    rw [Session.ofLogged_eq_some_iff, hevents, List.map_nil]
    simp

/-! ### Access codes -/

/-- What is written about a code: that it is cut, if it is too long. -/
def cutNotice (field : Field) (code : Bytes) : List Output :=
  if field.size < code.length then
    [.warning (field.label ++ " truncated to " ++ toString field.size ++ " bytes")]
  else []

/-- **A code that goes into the record.** It is what the argument stands for; where lengths are
strict it fits its field, and otherwise it is mentioned if it does not. -/
theorem codeArgument_eq_some_iff {strict : Bool} {field : Field} {text : String} {code : Bytes}
    {outputs : List Output} :
    codeArgument strict field text = ⟨some code, outputs⟩ ↔
      Hex.Stands text code ∧ (strict = true → code.length ≤ field.size) ∧
        outputs = cutNotice field code := by
  rw [codeArgument, (Session.Reads.decodeArgument _ _).bind_eq_some_iff, cutNotice]
  constructor
  · rintro ⟨bytes, hbytes, hrest⟩
    by_cases hfits : bytes.length ≤ field.size
    · rw [if_pos hfits] at hrest
      obtain ⟨rfl, rfl⟩ := Session.pure_eq_some_iff.mp hrest
      exact ⟨hbytes, fun _ => hfits, (if_neg (Nat.not_lt.mpr hfits)).symm⟩
    · rw [if_neg hfits] at hrest
      cases strict with
      | true => cases congrArg Session.result hrest
      | false =>
        obtain ⟨⟨⟩, rfl⟩ := Session.mk.inj hrest
        exact ⟨hbytes, nofun, (if_pos (Nat.not_le.mp hfits)).symm⟩
  · rintro ⟨hcode, hstrict, rfl⟩
    refine ⟨code, hcode, ?_⟩
    by_cases hfits : code.length ≤ field.size
    · rw [if_pos hfits, if_neg (Nat.not_lt.mpr hfits)]
      rfl
    · have hlenient : strict = false := Bool.eq_false_iff.mpr (mt hstrict hfits)
      rw [if_neg hfits, if_pos (Nat.not_le.mp hfits), hlenient]
      rfl

/-- A code that may be missing, as an adjustment. -/
theorem withCode_eq_some_iff {strict : Bool} {field : Field}
    {adjustment : Bytes → SlotConfiguration.Adjustment} {text : Option String}
    {config adjusted : SlotConfiguration} {outputs : List Output} :
    withCode strict field adjustment text config = ⟨some adjusted, outputs⟩ ↔
      ∃ code : Option Bytes, Option.Rel Hex.Stands text code ∧
        (strict = true → ∀ bytes ∈ code, bytes.length ≤ field.size) ∧
        adjusted = (config.adjustAll (code.toList.map adjustment)).value ∧
        outputs = code.toList.flatMap (cutNotice field) ++
          (config.adjustAll (code.toList.map adjustment)).events.map .note := by
  cases text with
  | none =>
    rw [withCode, Session.pure_eq_some_iff]
    constructor
    · rintro ⟨rfl, rfl⟩
      exact ⟨none, .none, fun _ => nofun, rfl, rfl⟩
    · rintro ⟨_, ⟨⟩, -, rfl, rfl⟩
      exact ⟨rfl, rfl⟩
  | some text =>
    have hsingle : ∀ code, config.adjustAll [adjustment code] = config.adjust (adjustment code) :=
      fun code => bind_pure _
    rw [withCode, Session.bind_eq_some_iff]
    simp only [codeArgument_eq_some_iff, Session.ofLogged_eq_some_iff]
    constructor
    · rintro ⟨code, _, _, ⟨hcode, hstrict, rfl⟩, ⟨rfl, rfl⟩, rfl⟩
      refine ⟨some code, .some hcode, fun hon bytes hbytes => ?_, ?_⟩
      · exact Option.mem_some.mp hbytes ▸ hstrict hon
      · rw [Option.toList_some, List.map_singleton, hsingle, List.flatMap_singleton]
        exact ⟨rfl, rfl⟩
    · rintro ⟨_, _ | _, hstrict, rfl, rfl⟩
      next code hcode =>
      refine ⟨code, _, _, ⟨hcode, fun hon => hstrict hon code rfl, rfl⟩, ⟨?_, rfl⟩, ?_⟩
      · rw [Option.toList_some, List.map_singleton, hsingle]
      · rw [Option.toList_some, List.map_singleton, hsingle, List.flatMap_singleton]

/-! ### A run -/

/-- The configuration that the arguments ask for. -/
def prepared (surroundings : Surroundings) (strict : Bool) (arguments : Arguments) :
    Session SlotConfiguration := do
  let credential ← credential surroundings arguments.preset
  let config ← configuration credential
  .write (.note (.programChosen arguments.slot config.description))
  let config ← withCode strict .accessCode .accessCode arguments.accessCode config
  withCode strict .currentAccessCode .currentAccessCode arguments.currentAccessCode config

/-- Whether lengths are strict: they are not, unless the setting on them is switched on. -/
def strictLengths (surroundings : Surroundings) : Bool :=
  (Setting.resolve surroundings.settingsFile surroundings.environment "STRICT_LENGTHS"
    false).value.value

/-- What the log tells of the setting on strict lengths. -/
def settingEvents (surroundings : Surroundings) : List Event :=
  let setting := Setting.resolve surroundings.settingsFile surroundings.environment
    Setting.strictLengths false
  setting.events ++
    [.settingResolved Setting.strictLengths setting.value.value setting.value.source]

/-- **A run** looks up whether lengths are strict, of which only the log tells, and shows the record
of the configuration that the arguments ask for. -/
theorem run_eq (surroundings : Surroundings) (arguments : Arguments) :
    run surroundings arguments =
      let shown := prepared surroundings (strictLengths surroundings) arguments >>=
        showRecord arguments.slot
      ⟨shown.result, (settingEvents surroundings).map .note ++ shown.outputs⟩ := by
  simp only [run, prepared, settingEvents, bind_assoc, Session.ofLogged_bind, List.map_append,
    List.append_assoc]
  rfl

theorem exists_run_eq (surroundings : Surroundings) (arguments : Arguments) :
    ∃ events : List Event, run surroundings arguments =
      let shown := prepared surroundings (strictLengths surroundings) arguments >>=
        showRecord arguments.slot
      ⟨shown.result, events.map .note ++ shown.outputs⟩ :=
  ⟨_, run_eq surroundings arguments⟩

/-- What is written when a record is shown. -/
theorem showRecord_eq (slot : Slot) (config : SlotConfiguration) :
    showRecord slot config = ⟨some (), config.build.events.map .note ++
      [.entry "slot" slot.text, .entry "command" (Hex.marked 2 (config.command slot).toNat),
        .entry "record" (Hex.encode config.build.value)]⟩ :=
  rfl

/-- Arguments are accepted as a credential and two access codes, either of which may be missing:
they stand for these, the credential fits a record, and so do the codes if lengths are strict. -/
structure Accepted (strict : Bool) (arguments : Arguments) (made : Credential)
    (code current : Option Bytes) : Prop where
  /-- The credential is the one that is described. -/
  describes : arguments.preset.Describes made
  /-- It fits a record. -/
  fits : ¬ made.TooLong
  /-- The access code is the one that is given. -/
  accessCode : Option.Rel Hex.Stands arguments.accessCode code
  /-- The current access code is the one that is given. -/
  currentAccessCode : Option.Rel Hex.Stands arguments.currentAccessCode current
  /-- Strict lengths take codes that are not cut. -/
  whole : strict = true →
    (∀ bytes ∈ code, bytes.length ≤ 6) ∧ ∀ bytes ∈ current, bytes.length ≤ 6

/-- Access codes as adjustments. -/
def codeAdjustments (code current : Option Bytes) : List SlotConfiguration.Adjustment :=
  code.toList.map .accessCode ++ current.toList.map .currentAccessCode

/-- **What becomes of accepted arguments**, and what is written on the way: on the error output that
a code is cut, and else nothing but events. -/
theorem prepared_eq_some_iff {surroundings : Surroundings} {strict : Bool} {arguments : Arguments}
    (h : arguments.preset.generates = false) {config : SlotConfiguration} {outputs : List Output} :
    prepared surroundings strict arguments = ⟨some config, outputs⟩ ↔
      ∃ made code current configured,
        Accepted strict arguments made code current ∧
        SlotConfiguration.ofCredential made = .ok configured ∧
        let first := configured.value.adjustAll (code.toList.map .accessCode)
        let second := first.value.adjustAll (current.toList.map .currentAccessCode)
        config = second.value ∧
        outputs = .note (.programChosen arguments.slot configured.value.description) ::
          (code.toList.flatMap (cutNotice .accessCode) ++ first.events.map .note ++
            (current.toList.flatMap (cutNotice .currentAccessCode) ++
              second.events.map .note)) := by
  rw [prepared, (reads_credential surroundings h).bind_eq_some_iff]
  simp only [(reads_configuration _).bind_eq_some_iff]
  simp only [Session.bind_eq_some_iff, withCode_eq_some_iff, Session.write_eq_some_iff]
  constructor
  · rintro ⟨made, hmade, _, ⟨configured, hok, rfl⟩, _, _, _, rfl, ⟨_, _, _,
      ⟨code, hcode, hstrict, rfl, rfl⟩, ⟨current, hcurrent, hstrict', rfl, rfl⟩, rfl⟩, rfl⟩
    exact ⟨made, code, current, configured, ⟨hmade, (SlotConfiguration.of_ofCredential_eq_ok hok).1,
      hcode, hcurrent, fun hon => ⟨hstrict hon, hstrict' hon⟩⟩, hok, rfl, rfl⟩
  · rintro ⟨made, code, current, configured, haccepted, hok, rfl, rfl⟩
    exact ⟨made, haccepted.describes, _, ⟨configured, hok, rfl⟩, (), _, _, rfl, ⟨_, _, _,
      ⟨code, haccepted.accessCode, fun hon => (haccepted.whole hon).1, rfl, rfl⟩,
      ⟨current, haccepted.currentAccessCode, fun hon => (haccepted.whole hon).2, rfl, rfl⟩, rfl⟩,
      rfl⟩

/-! ### What is not shown -/

theorem unshown_exactArgument (size : Nat) (name text : String) :
    (exactArgument size name text).Unshown := by
  refine (Session.Unshown.decodeArgument name text).bind fun bytes => ?_
  cases Bytes.Exactly.ofBytes? size bytes with
  | some value => exact .pure value
  | none => exact (Session.Unshown.write (Output.unshown_failure _)).bind fun _ => .fail _

theorem unshown_secret (surroundings : Surroundings) (flag : String) (start size : Nat)
    (text : Option String) : (secret surroundings flag start size text false).Unshown := by
  cases text with
  | none => exact .fail _
  | some text =>
    rw [secret, given, pure_bind]
    exact unshown_exactArgument size flag text

theorem unshown_hmacKey (surroundings : Surroundings) (text : Option String) :
    (hmacKey surroundings text false).Unshown := by
  cases text with
  | none => exact .fail _
  | some text =>
    rw [hmacKey, given, pure_bind]
    exact .decodeArgument "key" text

/-- Nothing is shown of a credential that is not made up. -/
theorem unshown_credential (surroundings : Surroundings) {preset : Preset}
    (h : preset.generates = false) : (credential surroundings preset).Unshown := by
  have hdecode := Session.Unshown.decodeArgument
  have hsecret := unshown_secret surroundings
  have hkey := unshown_hmacKey surroundings
  cases preset with
  | yubicoOtp publicText privateText keyText generate =>
    obtain rfl : generate = false := h
    exact (hdecode _ _).bind fun _ => (hsecret _ _ _ _).bind fun _ =>
      (hsecret _ _ _ _).bind fun _ => .pure _
  | hmacSha1 keyText generate touch =>
    obtain rfl : generate = false := h
    exact (hkey _).bind fun _ => .pure _
  | hotp keyText generate eightDigits =>
    obtain rfl : generate = false := h
    exact (hkey _).bind fun _ => .pure _
  | staticPassword scanText => exact (hdecode _ _).bind fun _ => .pure _
  | staticTicket fixedText uidText keyText =>
    exact (unshown_exactArgument _ _ _).bind fun _ => (unshown_exactArgument _ _ _).bind fun _ =>
      (hdecode _ _).bind fun _ => .pure _
  | update => exact .pure _

theorem unshown_withCode (strict : Bool) (field : Field)
    (adjustment : Bytes → SlotConfiguration.Adjustment) (text : Option String)
    (config : SlotConfiguration) : (withCode strict field adjustment text config).Unshown := by
  cases text with
  | none => exact .pure _
  | some text =>
    refine Session.Unshown.bind ?_ fun _ => .ofLogged _
    refine (Session.Unshown.decodeArgument _ _).bind fun code => ?_
    split
    · exact .pure _
    · split
      · exact .fail _
      · exact (Session.Unshown.write (Output.unshown_warning _)).bind fun _ => .pure _

/-- **Nothing is shown before the record is.** -/
theorem unshown_prepared (surroundings : Surroundings) (strict : Bool) {arguments : Arguments}
    (h : arguments.preset.generates = false) :
    (prepared surroundings strict arguments).Unshown := by
  refine (unshown_credential surroundings h).bind fun made => .bind ?_ fun config =>
    (Session.Unshown.write (Output.unshown_note _)).bind fun _ =>
      (unshown_withCode strict _ _ _ _).bind fun _ => unshown_withCode strict _ _ _ _
  unfold configuration
  split
  · exact .ofLogged _
  · exact .fail _

/-! ### What does not matter -/

theorem secret_congr (surroundings other : Surroundings) (flag : String) (start size : Nat)
    (text : Option String) : secret surroundings flag start size text false =
      secret other flag start size text false := by
  cases text <;> rfl

/-- Without secrets that are made up, the surroundings do not matter for a credential. -/
theorem credential_congr (surroundings other : Surroundings) {preset : Preset}
    (h : preset.generates = false) :
    credential surroundings preset = credential other preset := by
  cases preset with
  | yubicoOtp publicText privateText keyText generate =>
    obtain rfl : generate = false := h
    simp only [credential, secret_congr surroundings other]
  | hmacSha1 keyText generate touch | hotp keyText generate eightDigits =>
    obtain rfl : generate = false := h
    cases keyText <;> rfl
  | _ => rfl

/-- Without secrets that are made up, it does not matter for a configuration where it is made. -/
theorem prepared_congr_surroundings (surroundings other : Surroundings) (strict : Bool)
    {arguments : Arguments} (hgiven : arguments.preset.generates = false) :
    prepared surroundings strict arguments = prepared other strict arguments := by
  rw [prepared, prepared, credential_congr surroundings other hgiven]

/-- For a code that fits its field it does not matter whether lengths are strict. -/
theorem codeArgument_congr (strict other : Bool) {field : Field} {text : String}
    (h : ∀ code, Hex.Stands text code → code.length ≤ field.size) :
    codeArgument strict field text = codeArgument other field text := by
  rw [codeArgument, codeArgument, decodeArgument]
  cases hdecode : Hex.decode (Blank.trim text) with
  | error fault => rfl
  | ok code =>
    have hfits := h code (Hex.decode_trim_eq_ok_iff.mp hdecode)
    simp only [pure_bind, if_pos hfits]

/-- Some access code stands for more bytes than there is room for. -/
def Arguments.OverLong (arguments : Arguments) : Prop :=
  ∃ text, (arguments.accessCode = some text ∨ arguments.currentAccessCode = some text) ∧
    ∃ code, Hex.Stands text code ∧ 6 < code.length

/-- **The same comes of the same arguments**, wherever they are given, and whether lengths are
strict or not as long as no access code is too long. -/
theorem prepared_congr (surroundings otherSurroundings : Surroundings) (strict other : Bool)
    {arguments : Arguments} (hgiven : arguments.preset.generates = false)
    (hshort : ¬ arguments.OverLong) :
    prepared surroundings strict arguments = prepared otherSurroundings other arguments := by
  have hcode : ∀ (field : Field) (adjustment : Bytes → SlotConfiguration.Adjustment)
      {text : Option String},
      (∀ value, text = some value → ∀ code, Hex.Stands value code → code.length ≤ field.size) →
      withCode strict field adjustment text = withCode other field adjustment text := by
    intro field adjustment text hfits
    funext config
    cases text with
    | none => rfl
    | some value => rw [withCode, withCode, codeArgument_congr strict other (hfits value rfl)]
  have hle : ∀ {value}, (arguments.accessCode = some value ∨
      arguments.currentAccessCode = some value) → ∀ code, Hex.Stands value code → code.length ≤ 6 :=
    fun hvalue code hstands =>
      Nat.not_lt.mp fun hlong => hshort ⟨_, hvalue, code, hstands, hlong⟩
  rw [prepared_congr_surroundings surroundings otherSurroundings strict hgiven, prepared, prepared,
    hcode .accessCode .accessCode fun value hvalue => hle (.inl hvalue),
    hcode .currentAccessCode .currentAccessCode fun value hvalue => hle (.inr hvalue)]

end Otp

end TokenConfig
