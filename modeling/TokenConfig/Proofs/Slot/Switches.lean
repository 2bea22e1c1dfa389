import TokenConfig.Proofs.Slot.Credential

/-!
# The flags of a configuration in use

A configuration is adjusted and its record is made, in any order and any number of times. Making the
record is the only thing that looks at which flags an update may change, and it looks at a copy: the
flags that are kept know nothing of it. So there are two things to say of the flags, and a run of
actions can come between any two of them.

* What is **kept** is decided bit by bit, by the last switch whose mask has the bit, and else by the
  kind of credential (`TokenConfig.Credential.startBits`). The masks may overlap and may have bits
  without a name.
* What is **sent** is what is kept, for an update without the bits that it may not change. These
  bits, if there are any, are worth a warning, and nothing else is.

`TokenConfig.SlotConfiguration.Follows` says both of a configuration that actions have led to, and
`TokenConfig.SlotConfiguration.flags_of_run` says that it holds after any actions, at every record
that is made on the way.
-/

namespace TokenConfig

/-! ### The three flag bytes -/

/-- The kinds of flags that a record has. -/
inductive FlagKind where
  /-- The ticket flags. -/
  | ticket
  /-- The configuration flags. -/
  | config
  /-- The extended flags. -/
  | extended
deriving DecidableEq

/-- The bits of each kind that an update may send. -/
def FlagKind.sendable : FlagKind → BitVec 8
  | .ticket => 0x20
  | .config => 0xff
  | .extended => 0x24

/-- The bits that a kind of credential starts with. -/
def Credential.startBits : Credential → FlagKind → BitVec 8
  | .yubicoOtp .., .ticket => 0x20
  | .yubicoOtp .., .config => 0x00
  | .yubicoOtp .., .extended => 0x34
  | .hmacSha1 .., .ticket => 0x40
  | .hmacSha1 _ touch, .config => if touch then 0x2e else 0x26
  | .hmacSha1 .., .extended => 0x24
  | .hotp .., .ticket => 0x60
  | .hotp _ eightDigits, .config => if eightDigits then 0x02 else 0x00
  | .hotp .., .extended => 0x34
  | .staticPassword _, .ticket => 0x20
  | .staticPassword _, .config => 0x02
  | .staticPassword _, .extended => 0x34
  | .staticTicket .., .ticket => 0x20
  | .staticTicket .., .config => 0x20
  | .staticTicket .., .extended => 0x34
  | .update, .ticket => 0x20
  | .update, .config => 0x00
  | .update, .extended => 0x24

/-- The bits of a record. -/
def SlotRecord.flagBits (record : SlotRecord) : FlagKind → BitVec 8
  | .ticket => record.ticketFlags.bits
  | .config => record.configFlags.bits
  | .extended => record.extendedFlags.bits

namespace SlotConfiguration

/-- The bits that a configuration keeps. -/
def flagBits (config : SlotConfiguration) : FlagKind → BitVec 8
  | .ticket => config.ticketFlags.bits
  | .config => config.configFlags.bits
  | .extended => config.extendedFlags.bits

/-- The mask and the position of the switch that an adjustment is, if it is one of a kind. -/
def Adjustment.switch? (kind : FlagKind) : Adjustment → Option (BitVec 8 × Bool)
  | .ticketFlags mask on => if kind = .ticket then some (mask.bits, on) else none
  | .configFlags mask on => if kind = .config then some (mask.bits, on) else none
  | .extendedFlags mask on => if kind = .extended then some (mask.bits, on) else none
  | .accessCode _ | .currentAccessCode _ => none

/-- What an adjustment says of a bit, if it switches the bit. -/
def Adjustment.bit? (kind : FlagKind) (i : Nat) (adjustment : Adjustment) : Option Bool :=
  (adjustment.switch? kind).bind fun (mask, on) => if mask.getLsbD i then some on else none

/-! ### Actions -/

/-- One thing that is done with a configuration. -/
inductive Action where
  /-- Adjust it. -/
  | adjust (adjustment : Adjustment)
  /-- Make its record. -/
  | build
deriving DecidableEq

/-- The adjustment that an action is, if it is one. -/
def Action.adjustment? : Action → Option Adjustment
  | .adjust adjustment => some adjustment
  | .build => none

/-- What an action says of a bit, if it switches the bit. -/
def Action.bit? (kind : FlagKind) (i : Nat) (action : Action) : Option Bool :=
  action.adjustment?.bind (Adjustment.bit? kind i)

/-- Does actions one after another. The records that are made come with the configuration. -/
def perform (config : SlotConfiguration) : List Action → Logged (SlotConfiguration × List Bytes)
  | [] => pure (config, [])
  | .adjust adjustment :: rest => do
    let config ← config.adjust adjustment
    config.perform rest
  | .build :: rest => do
    let record ← config.build
    let (final, records) ← config.perform rest
    return (final, record :: records)

/-- The warning about dropped bits, if there are any. -/
def dropped (kind : RestrictedFlags) (bits : BitVec 8) : List Event :=
  if bits = 0 then [] else [.flagsDropped kind bits]

/-- What the flags are after actions on the configuration of a credential. -/
structure Follows (credential : Credential) (actions : List Action) (config : SlotConfiguration) :
    Prop where
  /-- A bit that is kept is what the last switch of it says, or else what it was at the start. -/
  kept : ∀ kind i, (config.flagBits kind).getLsbD i =
    (lastGiven (Action.bit? kind i) actions).getD ((credential.startBits kind).getLsbD i)
  /-- The record has the bits that are kept, for an update only those that may be sent. -/
  sent : ∃ record, SlotRecord.parse config.build.value = .ok record ∧
    ∀ kind, record.flagBits kind =
      if credential = .update then config.flagBits kind &&& kind.sendable
      else config.flagBits kind
  /-- Making the record says which bits of an update are not sent, and nothing else. -/
  said : config.build.events =
    if credential = .update then
      dropped .ticket (config.flagBits .ticket &&& ~~~0x20) ++
        dropped .extended (config.flagBits .extended &&& ~~~0x24)
    else []

/-! ### What is kept -/

/-- **One switch.** -/
theorem flagBits_adjust (config : SlotConfiguration) (adjustment : Adjustment) (kind : FlagKind)
    (i : Nat) : ((config.adjust adjustment).value.flagBits kind).getLsbD i =
      (adjustment.bit? kind i).getD ((config.flagBits kind).getLsbD i) := by
  have hset : ∀ {vocabulary : Vocabulary 8} (word mask : FlagWord vocabulary) (on : Bool),
      (word.set mask on).bits.getLsbD i =
        (if mask.bits.getLsbD i then some on else none).getD (word.bits.getLsbD i) := by
    intro vocabulary word mask on
    rw [FlagWord.getLsbD_set]
    split <;> rfl
  cases adjustment with
  | accessCode bytes | currentAccessCode bytes => cases kind <;> rfl
  | ticketFlags mask on =>
    cases kind with
    | ticket => exact hset _ mask on
    | config | extended => rfl
  | configFlags mask on =>
    cases kind with
    | config => exact hset _ mask on
    | ticket | extended => rfl
  | extendedFlags mask on =>
    cases kind with
    | extended => exact hset _ mask on
    | ticket | config => rfl

theorem program_adjust (config : SlotConfiguration) (adjustment : Adjustment) :
    (config.adjust adjustment).value.program = config.program := by
  cases adjustment <;> rfl

/-- **A run of actions on the flags**: each bit is switched by the last action that reaches it. -/
theorem flagBits_perform (config : SlotConfiguration) (actions : List Action) (kind : FlagKind)
    (i : Nat) : ((config.perform actions).value.1.flagBits kind).getLsbD i =
      (lastGiven (Action.bit? kind i) actions).getD ((config.flagBits kind).getLsbD i) := by
  induction actions generalizing config with
  | nil => rfl
  | cons action rest ih =>
    rw [lastGiven_cons]
    cases action with
    | adjust adjustment =>
      rw [perform, Logged.value_bind, ih, flagBits_adjust]
      cases lastGiven (Action.bit? kind i) rest <;> rfl
    | build =>
      refine (ih config).trans ?_
      cases lastGiven (Action.bit? kind i) rest <;> rfl

theorem program_perform (config : SlotConfiguration) (actions : List Action) :
    (config.perform actions).value.1.program = config.program := by
  induction actions generalizing config with
  | nil => rfl
  | cons action rest ih =>
    cases action with
    | adjust adjustment => exact (ih _).trans (config.program_adjust adjustment)
    | build => exact ih config

/-! ### Records on the way -/

/-- **Making a record leaves no trace**: without the records the same adjustments lead to the same
configuration. -/
theorem perform_eq_adjustAll (config : SlotConfiguration) (actions : List Action) :
    (config.perform actions).value.1 =
      (config.adjustAll (actions.filterMap Action.adjustment?)).value := by
  induction actions generalizing config with
  | nil => rfl
  | cons action rest ih =>
    cases action with
    | adjust adjustment => exact ih _
    | build => exact ih config

/-- **Actions after others** go on from the configuration that these have led to. -/
theorem perform_append (config : SlotConfiguration) (front rest : List Action) :
    config.perform (front ++ rest) = do
      let (middle, records) ← config.perform front
      let (final, more) ← middle.perform rest
      return (final, records ++ more) := by
  induction front generalizing config with
  | nil => simp [perform]
  | cons action front ih => cases action <;> simp [perform, ih]

/-- **A record on the way** is that of the configuration there, and what comes after goes on from
the same configuration. -/
theorem perform_append_build {config middle final : SlotConfiguration} {front rest : List Action}
    {records more : List Bytes} {events words : List Event}
    (hfront : config.perform front = ⟨(middle, records), events⟩)
    (hrest : middle.perform rest = ⟨(final, more), words⟩) :
    config.perform (front ++ .build :: rest) =
      ⟨(final, records ++ middle.build.value :: more),
        events ++ (middle.build.events ++ words)⟩ := by
  rw [perform_append, hfront]
  simp [bind, pure, perform, hrest]

/-- Making a record again and again gives the same record and says the same. -/
theorem perform_replicate_build (config : SlotConfiguration) (n : Nat) :
    config.perform (List.replicate n .build) =
      ⟨(config, List.replicate n config.build.value),
        (List.replicate n config.build.events).flatten⟩ := by
  induction n with
  | zero => rfl
  | succ n ih =>
    rw [List.replicate_succ, perform, ih]
    simp [bind, pure, List.replicate_succ]

/-! ### What is sent -/

theorem value_permitted {vocabulary : Vocabulary 8} (program : Program) (kind : RestrictedFlags)
    (updatable flags : FlagWord vocabulary) :
    (permitted program kind updatable flags).value.bits =
      if program = .update then flags.bits &&& updatable.bits else flags.bits := by
  cases program <;> rfl

theorem events_permitted {vocabulary : Vocabulary 8} (program : Program) (kind : RestrictedFlags)
    (updatable flags : FlagWord vocabulary) :
    (permitted program kind updatable flags).events =
      if program = .update then dropped kind (flags.bits &&& ~~~updatable.bits) else [] := by
  cases program with
  | configure => rfl
  | update =>
    rw [if_pos rfl, dropped, permitted, Logged.events_bind, Logged.events_noteIf]
    by_cases h : flags.bits &&& ~~~updatable.bits = 0 <;> simp [FlagWord.isEmpty, FlagWord.diff, h]

/-- The record of a configuration is accepted, and has the flags that its program may send. -/
theorem exists_parse_build_flagBits (config : SlotConfiguration) :
    ∃ record, SlotRecord.parse config.build.value = .ok record ∧
      ∀ kind, record.flagBits kind =
        if config.program = .update then config.flagBits kind &&& kind.sendable
        else config.flagBits kind := by
  obtain ⟨record, hparse, hbytes⟩ := config.toBuilder.value.exists_parse_build
  obtain ⟨hconfig, hextended, hticket⟩ := Builder.flags_of_bytes_eq_build hbytes
  refine ⟨record, hparse, fun kind => ?_⟩
  cases kind with
  | ticket => exact (congrArg FlagWord.bits hticket).trans (value_permitted ..)
  | extended => exact (congrArg FlagWord.bits hextended).trans (value_permitted ..)
  | config =>
    -- an update is kept from no configuration flag
    have hall : config.flagBits .config &&& FlagKind.config.sendable = config.flagBits .config :=
      BitVec.and_allOnes
    rw [hall, ite_self]
    exact congrArg FlagWord.bits hconfig

/-- What making a record says: which flags of an update are dropped. -/
theorem events_build (config : SlotConfiguration) :
    config.build.events =
      if config.program = .update then
        dropped .ticket (config.flagBits .ticket &&& ~~~0x20) ++
          dropped .extended (config.flagBits .extended &&& ~~~0x24)
      else [] := by
  simp only [build, toBuilder, Logged.events_bind, Logged.events_pure, List.append_nil,
    events_permitted]
  split <;> rfl

/-! ### What is worth a warning -/

/-- What a step on a builder says is no warning. -/
theorem level_of_mem_report {step : Builder.Step} {event : Event} (h : event ∈ step.report) :
    event.level = .debug := by
  cases step with
  | configFlags flags | extendedFlags flags | ticketFlags flags => cases h
  | _ =>
    rw [Builder.Step.report, List.mem_ite_nil_right, List.mem_singleton] at h
    rw [h.2]
    rfl

/-- What an adjustment says is no warning. -/
theorem level_of_mem_events_adjust {config : SlotConfiguration} {adjustment : Adjustment}
    {event : Event} (h : event ∈ (config.adjust adjustment).events) : event.level = .debug := by
  have hsteps : ∀ steps, event ∈ (config.withValues steps).events → event.level = .debug := by
    intro steps hmem
    rw [withValues, Logged.events_bind, Logged.events_pure, List.append_nil, Builder.events_run,
      List.mem_flatMap] at hmem
    obtain ⟨step, -, hstep⟩ := hmem
    exact level_of_mem_report hstep
  cases adjustment with
  | accessCode bytes | currentAccessCode bytes => exact hsteps _ h
  | ticketFlags mask on | configFlags mask on | extendedFlags mask on => cases h

/-- **Nothing is worth a warning** where no update is made. -/
theorem level_of_mem_events_perform {config : SlotConfiguration}
    (hprogram : config.program ≠ .update) {actions : List Action} {event : Event}
    (h : event ∈ (config.perform actions).events) : event.level = .debug := by
  induction actions generalizing config with
  | nil => cases h
  | cons action rest ih =>
    cases action with
    | adjust adjustment =>
      rcases List.mem_append.mp h with hfirst | hrest
      · exact level_of_mem_events_adjust hfirst
      · exact ih (by rwa [program_adjust]) hrest
    | build =>
      have hquiet : config.build.events = [] := (events_build config).trans (if_neg hprogram)
      rw [perform, Logged.events_bind, hquiet, List.nil_append, Logged.events_bind,
        Logged.events_pure, List.append_nil] at h
      exact ih hprogram h

/-! ### The configuration of a credential -/

theorem flagBits_ofKind (credential : Credential) (kind : FlagKind) :
    (ofKind credential).flagBits kind = credential.startBits kind := by
  cases credential with
  | hmacSha1 key touch => cases kind <;> cases touch <;> rfl
  | hotp key eightDigits => cases kind <;> cases eightDigits <;> rfl
  | _ => cases kind <;> rfl

theorem program_ofKind (credential : Credential) :
    (ofKind credential).program = .update ↔ credential = .update := by
  cases credential <;> simp [ofKind, keyboard, base]

theorem flagBits_withValues (config : SlotConfiguration) (steps : List Builder.Step)
    (kind : FlagKind) : (config.withValues steps).value.flagBits kind = config.flagBits kind := by
  cases kind <;> rfl

/-- A credential that fits is accepted, with the program and the flags of its kind. -/
theorem exists_ofCredential_eq_ok {credential : Credential} (h : ¬ credential.TooLong) :
    ∃ configured, ofCredential credential = .ok configured ∧
      (configured.value.program = .update ↔ credential = .update) ∧
      ∀ kind, configured.value.flagBits kind = credential.startBits kind :=
  ⟨(ofKind credential).withValues credential.steps, if_pos (credential.fits_iff.mpr h),
    program_ofKind credential, fun kind =>
      (flagBits_withValues _ _ kind).trans (flagBits_ofKind credential kind)⟩

/-- What becomes of the flags that a configuration starts with. -/
theorem follows_perform {config : SlotConfiguration} {credential : Credential}
    (hprogram : config.program = .update ↔ credential = .update)
    (hstart : ∀ kind, config.flagBits kind = credential.startBits kind) (actions : List Action) :
    Follows credential actions (config.perform actions).value.1 := by
  have hupdate : (config.perform actions).value.1.program = .update ↔ credential = .update := by
    rw [program_perform, hprogram]
  obtain ⟨record, hparse, hbits⟩ := (config.perform actions).value.1.exists_parse_build_flagBits
  refine ⟨fun kind i => ?_, ⟨record, hparse, fun kind => ?_⟩, ?_⟩
  · rw [flagBits_perform, hstart]
  · rw [hbits, if_congr hupdate rfl rfl]
  · rw [events_build, if_congr hupdate rfl rfl]

/-- **The flags in use.** A credential that fits is accepted, and its configuration goes through any
adjustments and makes any records on the way. However it got where it is, its flags are as
`TokenConfig.SlotConfiguration.Follows` says. The records have not changed it; the next one is made
from what it is now and leaves it as it is, so that the same record, with the same words, is made as
often as asked for. That flags are dropped is a warning which names the kind and the bits; adjusting
gives none, and without an update there are none at all. -/
theorem flags_of_run {credential : Credential} (h : ¬ credential.TooLong) :
    (∀ kind bits, (Event.flagsDropped kind bits).level = .warn ∧
      (Event.flagsDropped kind bits).message = "dropping " ++ kind.label ++ " flags " ++
        Hex.marked 2 bits.toNat ++ " not allowed in an update") ∧
    ∃ configured, ofCredential credential = .ok configured ∧
      ∀ actions final records events,
        configured.value.perform actions = ⟨(final, records), events⟩ →
          Follows credential actions final ∧
          final = (configured.value.adjustAll (actions.filterMap Action.adjustment?)).value ∧
          (∀ rest last more words, final.perform rest = ⟨(last, more), words⟩ →
            configured.value.perform (actions ++ .build :: rest) =
              ⟨(last, records ++ final.build.value :: more),
                events ++ (final.build.events ++ words)⟩) ∧
          (∀ n, final.perform (List.replicate n .build) =
            ⟨(final, List.replicate n final.build.value),
              (List.replicate n final.build.events).flatten⟩) ∧
          (∀ adjustment, ∀ event ∈ (final.adjust adjustment).events, event.level ≠ .warn) ∧
          (credential ≠ .update → ∀ event ∈ events, event.level ≠ .warn) := by
  obtain ⟨configured, hok, hprogram, hstart⟩ := exists_ofCredential_eq_ok h
  refine ⟨fun _ _ => ⟨rfl, rfl⟩, configured, hok, fun actions final records events hrun => ?_⟩
  have hfinal : (configured.value.perform actions).value.1 = final := by rw [hrun]
  have hevents : (configured.value.perform actions).events = events := by rw [hrun]
  refine ⟨hfinal ▸ follows_perform hprogram hstart actions,
    hfinal ▸ perform_eq_adjustAll configured.value actions,
    fun rest last more words hrest => perform_append_build hrun hrest,
    perform_replicate_build final, fun adjustment event hevent => ?_,
    fun hcredential event hevent => ?_⟩
  · rw [level_of_mem_events_adjust hevent]
    decide
  · rw [← hevents] at hevent
    rw [level_of_mem_events_perform (mt hprogram.mp hcredential) hevent]
    decide

/-- An update whose masks overlap and have bits without a name. A record is made on the way, and
what it drops is kept all the same, except where it is switched off afterwards. -/
theorem flags_of_run_update :
    ∃ configured, ofCredential .update = .ok configured ∧ ∃ final records events,
      configured.value.perform [.adjust (.ticketFlags ⟨0x81⟩ true),
          .adjust (.extendedFlags ⟨0xc0⟩ true), .build, .adjust (.ticketFlags ⟨0x21⟩ false)] =
        ⟨(final, records), events⟩ ∧
      Follows .update [.adjust (.ticketFlags ⟨0x81⟩ true), .adjust (.extendedFlags ⟨0xc0⟩ true),
        .build, .adjust (.ticketFlags ⟨0x21⟩ false)] final ∧
      events.map Event.line = ["WARN dropping ticket flags 0x81 not allowed in an update",
        "WARN dropping extended flags 0xc0 not allowed in an update"] ∧
      final.flagBits .ticket = 0x80 ∧ final.flagBits .extended = 0xe4 := by
  obtain ⟨-, configured, hok, hrun⟩ := @flags_of_run .update not_false
  obtain rfl := Except.ok.inj hok
  exact ⟨_, rfl, _, _, _, rfl, (hrun _ _ _ _ rfl).1, by decide +kernel, rfl, rfl⟩

end SlotConfiguration

end TokenConfig
