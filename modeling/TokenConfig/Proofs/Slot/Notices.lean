import Mathlib.Logic.Function.Basic
import TokenConfig.Proofs.Slot.Material
import TokenConfig.Proofs.Slot.Truncation
import TokenConfig.Slot.Record

/-!
# One notice for each input that is cut

Steps on builders, records that are made of them and records that are read come in any order, and
the builders may take turns. What such a sequence says in the log can be told from the steps alone:
a step whose input is longer than the room for it has one notice, and nothing else has any.

* `TokenConfig.Builder.Step.input?` is what a step brings along, by what name and how much room
  there is for it. `TokenConfig.Builder.Step.notice?` words the notice.
* `TokenConfig.Builder.Step.kept_eq_min` says that the room is no mere number: this many bytes of
  an input that is too long are kept, over all the fields that get a part of it.
* `TokenConfig.Builder.act` is one action and `TokenConfig.Builder.perform` are many, one after
  another.

Key material is where a second notice could come from, since each part of it goes through a field
with a room of its own. The parts fit, so there is none (`TokenConfig.Builder.events_setKey`); and
all the notices are those of the steps, in their order (`TokenConfig.Builder.notices_perform`).
-/

namespace TokenConfig

namespace Builder

/-! ### The notice of a step -/

/-- Bytes that a step brings along. -/
structure Step.Input where
  /-- What they are called. -/
  name : String
  /-- How many of them there is room for. -/
  room : Nat
  /-- The bytes. -/
  bytes : Bytes

/-- The bytes that a step brings along, if they are not flags. -/
def Step.input? : Step → Option Input
  | .fixed bytes => some ⟨"fixed", 16, bytes⟩
  | .uid bytes => some ⟨"uid", 6, bytes⟩
  | .key .aes material => some ⟨"Aes key material", 16, material⟩
  | .key .hmacSha1 material => some ⟨"HmacSha1 key material", 20, material⟩
  | .key .static material => some ⟨"Static key material", 38, material⟩
  | .accessCode bytes => some ⟨"access code", 6, bytes⟩
  | .currentAccessCode bytes => some ⟨"current access code", 6, bytes⟩
  | .configFlags _ | .extendedFlags _ | .ticketFlags _ => none

/-- The notice of bytes that there is no room for, with how much it matters. -/
def Step.Input.notice? (input : Step.Input) : Option (Level × String) :=
  if input.room < input.bytes.length then
    some (.debug, input.name ++ " truncated from " ++ toString input.bytes.length ++ " to " ++
      toString input.room ++ " bytes")
  else none

/-- The notice of a step. -/
def Step.notice? (step : Step) : Option (Level × String) :=
  step.input?.bind Input.notice?

/-- An event that says what the notice says is the notice. -/
theorem Step.Input.notice?_eq (input : Step.Input) {event : Event} (hlevel : event.level = .debug)
    (hmessage : event.message = input.name ++ Event.cut input.bytes.length input.room) :
    ((if input.room < input.bytes.length then [event] else []).map fun event =>
      (event.level, event.message)) = input.notice?.toList := by
  unfold Event.cut at hmessage
  simp only [← String.append_assoc] at hmessage
  rw [notice?]
  split
  · rw [List.map_singleton, hlevel, hmessage, Option.toList_some]
  · rfl

/-- **What a step says is its notice.** -/
theorem Step.map_report (step : Step) :
    (step.report.map fun event => (event.level, event.message)) = step.notice?.toList := by
  cases step with
  | fixed bytes => exact Input.notice?_eq ⟨_, _, bytes⟩ rfl rfl
  | uid bytes => exact Input.notice?_eq ⟨_, _, bytes⟩ rfl rfl
  | key mode material => cases mode <;> exact Input.notice?_eq ⟨_, _, material⟩ rfl rfl
  | accessCode bytes => exact Input.notice?_eq ⟨_, _, bytes⟩ rfl rfl
  | currentAccessCode bytes => exact Input.notice?_eq ⟨_, _, bytes⟩ rfl rfl
  | configFlags flags | extendedFlags flags | ticketFlags flags => rfl

/-! ### What is kept -/

/-- The number of bytes that a step leaves in the fields for values of a new builder. -/
def Step.kept (step : Step) : Nat :=
  (valueFields.map fun field => ((empty.apply step).value.contents field).length).sum

/-- **There is as much room as is kept**: no byte is lost that there is room for, and of an input
that is too long no more is kept. -/
theorem Step.kept_eq_min {step : Step} {input : Input} (h : step.input? = some input) :
    step.kept = min input.bytes.length input.room := by
  -- the step alone is a run
  have hkept : step.kept = (valueFields.map fun field => (lastBytes [step] field).length).sum :=
    congrArg List.sum (List.map_congr_left fun field hfield =>
      congrArg List.length (contents_run_of_mem_valueFields hfield [step]))
  rw [hkept]
  simp only [valueFields, List.map_cons, List.map_nil, List.sum_cons, List.sum_nil]
  cases step with
  | fixed bytes | uid bytes | accessCode bytes | currentAccessCode bytes =>
    obtain rfl := Option.some.inj h
    simp [lastBytes, lastGiven_singleton, gives, Nat.min_comm]
  | key mode material =>
    cases mode with
    | aes =>
      obtain rfl := Option.some.inj h
      simp [lastBytes, lastGiven_singleton, gives, Nat.min_comm]
    | hmacSha1 =>
      obtain rfl := Option.some.inj h
      obtain ⟨hfixed, huid, hkey⟩ := lastBytes_hmacSha1 material
      rw [hfixed, huid, hkey]
      simp only [lastBytes, lastGiven_singleton, gives, Option.getD_none, List.length_nil,
        List.length_drop, List.length_take]
      omega
    | static =>
      obtain rfl := Option.some.inj h
      obtain ⟨hfixed, huid, hkey⟩ := lastBytes_static material
      rw [hfixed, huid, hkey]
      simp only [lastBytes, lastGiven_singleton, gives, Option.getD_none, List.length_nil,
        List.length_drop, List.length_take]
      omega
  | configFlags flags | extendedFlags flags | ticketFlags flags => cases h

/-! ### Any number of actions -/

/-- One thing that is done with builders and records. There is a builder at every place. -/
inductive Action where
  /-- Do a step with the builder at a place. -/
  | apply (place : Nat) (step : Step)
  /-- Make the record of the builder at a place. -/
  | build (place : Nat)
  /-- Read a record. -/
  | parse (bytes : Bytes)

/-- What an action gives besides a builder that has changed. -/
inductive Outcome where
  /-- The record of a builder. -/
  | built (bytes : Bytes)
  /-- What was read, or why nothing was. -/
  | parsed (result : Except Error SlotRecord)

/-- Does one action. -/
def act (builders : Nat → Builder) : Action → Logged ((Nat → Builder) × Option Outcome)
  | .apply place step => do
    let builder ← (builders place).apply step
    return (Function.update builders place builder, none)
  | .build place => return (builders, some (.built (builders place).build))
  | .parse bytes => return (builders, some (.parsed (SlotRecord.parse bytes)))

/-- Does actions one after another. -/
def perform (builders : Nat → Builder) : List Action → Logged ((Nat → Builder) × List Outcome)
  | [] => pure (builders, [])
  | action :: rest => do
    let acted ← act builders action
    let done ← perform acted.1 rest
    return (done.1, acted.2.toList ++ done.2)

/-- What an action says. Only steps say anything. -/
def Action.report : Action → List Event
  | .apply _ step => step.report
  | .build _ | .parse _ => []

/-- The notice of an action. -/
def Action.notice? : Action → Option (Level × String)
  | .apply _ step => step.notice?
  | .build _ | .parse _ => none

theorem events_act (builders : Nat → Builder) (action : Action) :
    (act builders action).events = action.report := by
  cases action with
  | apply place step =>
    rw [act, Logged.events_bind, events_apply, Logged.events_pure, List.append_nil, Action.report]
  | build place | parse bytes => rfl

theorem events_perform (builders : Nat → Builder) (actions : List Action) :
    (perform builders actions).events = actions.flatMap Action.report := by
  induction actions generalizing builders with
  | nil => rfl
  | cons action rest ih =>
    rw [perform, Logged.events_bind, Logged.events_bind, Logged.events_pure, List.append_nil,
      events_act, ih, List.flatMap_cons]

theorem Action.map_report (action : Action) :
    (action.report.map fun event => (event.level, event.message)) = action.notice?.toList := by
  cases action with
  | apply place step => exact step.map_report
  | build place | parse bytes => rfl

/-- **What is cut is reported, and reported once.** Whatever builders there are, and whatever is
done with them and with records, in any order: what is said are the notices of the steps with an
input that is too long, one for each and in their order. A notice gives the length of the input and
the number of bytes that are kept of it. -/
theorem notices_perform (builders : Nat → Builder) (actions : List Action) :
    ((perform builders actions).events.map fun event => (event.level, event.message)) =
        actions.filterMap Action.notice? ∧
      ∀ step input, Step.input? step = some input →
        step.kept = min input.bytes.length input.room := by
  refine ⟨?_, fun step input => Step.kept_eq_min⟩
  rw [events_perform, List.map_flatMap, List.filterMap_eq_flatMap_toList]
  exact List.flatMap_congr fun action _ => action.map_report

/-- Scan codes that are too long for all the fields together are reported once, and neither the
fields nor the record have anything to add. -/
example : [Action.apply 0 (.key .static (List.replicate 45 7)), .build 0,
    .apply 1 (.uid [1, 2, 3, 4, 5, 6])].filterMap Action.notice? =
      [(.debug, "Static key material truncated from 45 to 38 bytes")] := by
  decide +kernel

end Builder

end TokenConfig
