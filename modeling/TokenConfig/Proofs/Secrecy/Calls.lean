import Mathlib.Data.List.Forall2
import TokenConfig.Proofs.Secrecy.Redaction

/-!
# What is seen of secrets

A program that makes records **calls** one operation after another, each with new arguments or on
what an earlier call has given (`TokenConfig.Call`, `TokenConfig.Call.run`): it starts builders and
goes on from them, turns credentials into configurations and adjusts them, makes records and reads
them back, and encodes configurations of the device together with the codes that lock it. What there
is to see of a call (`TokenConfig.View`) is whether it was refused and why, the description of what
it gave, and what it said in the log.

Two programs that make the same calls, but with other identifiers, keys and codes of the same
lengths, are seen to do the same (`TokenConfig.Call.views_eq`). What both have got at any time is
alike (`TokenConfig.Product.Alike`), which means that it is the same after redaction. Only of
records it means that the builders are that they are made from, since the checksum of a record goes
over what redaction takes away. Each call on what is alike says the same and gives what is alike
again (`TokenConfig.Call.answeredAlike_answer`).
-/

namespace TokenConfig

/-! ### Calls and what they give -/

/-- What a call gives. -/
inductive Product where
  /-- A builder. -/
  | builder (builder : Builder)
  /-- The configuration of a slot. -/
  | configuration (config : SlotConfiguration)
  /-- A record that was built. -/
  | built (bytes : Bytes)
  /-- A record that was read. -/
  | record (record : SlotRecord)
  /-- A payload for the device. -/
  | payload (bytes : Bytes)
  /-- Nothing but an error. -/
  | refusal (fault : Error)
  /-- Nothing, as there was nothing of the right kind to call on. -/
  | nothing
deriving DecidableEq

/-- What can be done with a product. -/
inductive Use where
  /-- Do a step with a builder. -/
  | apply (step : Builder.Step)
  /-- Adjust a configuration. -/
  | adjust (adjustment : SlotConfiguration.Adjustment)
  /-- Turn a configuration into a builder. -/
  | toBuilder
  /-- Make the record of a builder or a configuration. -/
  | build
  /-- Read a record that was built. -/
  | parse
deriving DecidableEq

/-- A call of an operation, with new arguments or on what an earlier call has given. -/
inductive Call where
  /-- Start a new builder. -/
  | newBuilder
  /-- Turn a credential into a configuration. -/
  | preset (credential : Credential)
  /-- Make the payload of a configuration of the device. -/
  | encode (config : DeviceConfig) (request : DeviceConfig.Request)
  /-- Use what the call at a place has given. Places are counted from zero. -/
  | on (place : Nat) (use : Use)
deriving DecidableEq

/-- What comes of a use, and what it says. A product of another kind than asked for is of no use. -/
def Product.used : Product → Use → Logged Product
  | .builder value, .apply step => .builder <$> value.apply step
  | .configuration config, .adjust adjustment => .configuration <$> config.adjust adjustment
  | .configuration config, .toBuilder => .builder <$> config.toBuilder
  | .builder value, .build => pure (.built value.build)
  | .configuration config, .build => .built <$> config.build
  | .built bytes, .parse =>
    match SlotRecord.parse bytes with
    | .ok value => pure (.record value)
    | .error fault => pure (.refusal fault)
  | _, _ => pure .nothing

/-- The use with zeros in place of every identifier, key and code. -/
def Use.redacted : Use → Use
  | .apply step => .apply step.redacted
  | .adjust adjustment => .adjust adjustment.redacted
  | .toBuilder => .toBuilder
  | .build => .build
  | .parse => .parse

namespace Call

/-- What a call gives, and what it says. -/
def answer (products : List Product) : Call → Logged Product
  | .newBuilder => pure (.builder .empty)
  | .preset credential =>
    match SlotConfiguration.ofCredential credential with
    | .ok configured => .configuration <$> configured
    | .error fault => pure (.refusal fault)
  | .encode config request =>
    match config.encode request with
    | .ok payload => .payload <$> payload
    | .error fault => pure (.refusal fault)
  | .on place use => (products[place]?.getD .nothing).used use

/-- What calls one after another give and say, when earlier ones have given `products`. -/
def run (products : List Product) : List Call → List (Logged Product)
  | [] => []
  | call :: rest =>
    let answered := answer products call
    answered :: run (products ++ [answered.value]) rest

/-- The call with zeros in place of every identifier, key and code. -/
def redacted : Call → Call
  | .newBuilder => .newBuilder
  | .preset credential => .preset credential.redacted
  | .encode config request => .encode config request.redacted
  | .on place use => .on place use.redacted

end Call

/-! ### What is seen -/

/-- What there is to see of a call. -/
structure View where
  /-- The error, if the call was refused. -/
  fault : Option Error
  /-- The description of what it gave, if there is one. -/
  description : Option String
  /-- What it said, each time with how much it matters. -/
  log : List (Level × String)
deriving DecidableEq

namespace Product

/-- The error, if that is what a call gave. -/
def fault? : Product → Option Error
  | .refusal fault => some fault
  | _ => none

/-- The description of a product. The bytes of a record or a payload have none. -/
def description? : Product → Option String
  | .builder value => some value.description
  | .configuration config => some config.description
  | .record value => some value.description
  | _ => none

/-- Products that look the same. -/
inductive Alike : Product → Product → Prop where
  /-- Builders with values of the same lengths, and with the same flags. -/
  | builder {builder other : Builder} (h : builder.redacted = other.redacted) :
    Alike (.builder builder) (.builder other)
  /-- Configurations with values of the same lengths, and with the same flags. -/
  | configuration {config other : SlotConfiguration} (h : config.redacted = other.redacted) :
    Alike (.configuration config) (.configuration other)
  /-- The records of two such builders. -/
  | built {builder other : Builder} (h : builder.redacted = other.redacted) :
    Alike (.built builder.build) (.built other.build)
  /-- The records of two such builders, after they were read. -/
  | record {builder other : Builder} {record otherRecord : SlotRecord}
    (hbytes : record.bytes = builder.build) (hother : otherRecord.bytes = other.build)
    (h : builder.redacted = other.redacted) : Alike (.record record) (.record otherRecord)
  /-- Any two payloads. -/
  | payload (bytes other : Bytes) : Alike (.payload bytes) (.payload other)
  /-- Twice the same error. -/
  | refusal (fault : Error) : Alike (.refusal fault) (.refusal fault)
  /-- Twice nothing. -/
  | nothing : Alike .nothing .nothing

theorem Alike.fault?_eq {product other : Product} (h : Alike product other) :
    product.fault? = other.fault? := by
  cases h <;> rfl

/-- **Products that look the same are described alike.** -/
theorem Alike.description?_eq {product other : Product} (h : Alike product other) :
    product.description? = other.description? := by
  cases h with
  | builder h =>
    rw [description?, description?, ← Builder.description_redacted, h,
      Builder.description_redacted]
  | configuration h =>
    rw [description?, description?, ← SlotConfiguration.description_redacted, h,
      SlotConfiguration.description_redacted]
  | record hbytes hother h =>
    rw [description?, description?, SlotRecord.description_eq hbytes,
      SlotRecord.description_eq hother, h]
  | built h | payload bytes other | refusal fault | nothing => rfl

end Product

/-- What there is to see of a call that gave and said something. -/
def Logged.view (answered : Logged Product) : View where
  fault := answered.value.fault?
  description := answered.value.description?
  log := answered.events.map fun event => (event.level, event.message)

namespace Call

/-! ### One call -/

/-- Answers that look the same and say the same. -/
structure AnsweredAlike (answered other : Logged Product) : Prop where
  /-- What they give looks the same. -/
  value : answered.value.Alike other.value
  /-- What they say is the same. -/
  events : answered.events = other.events

theorem AnsweredAlike.view_eq {answered other : Logged Product} (h : AnsweredAlike answered other) :
    answered.view = other.view := by
  rw [Logged.view, Logged.view, h.value.fault?_eq, h.value.description?_eq, h.events]

theorem AnsweredAlike.pure {product other : Product} (h : product.Alike other) :
    AnsweredAlike (Pure.pure product) (Pure.pure other) :=
  ⟨h, rfl⟩

theorem AnsweredAlike.map {α : Type} {answered other : Logged α} {product : α → Product}
    (hvalue : (product answered.value).Alike (product other.value))
    (hevents : answered.events = other.events) :
    AnsweredAlike (product <$> answered) (product <$> other) :=
  ⟨hvalue, congrArg (· ++ []) hevents⟩

theorem answeredAlike_apply {builder other : Builder} (h : builder.redacted = other.redacted)
    {step otherStep : Builder.Step} (hstep : step.redacted = otherStep.redacted) :
    AnsweredAlike (.builder <$> builder.apply step) (.builder <$> other.apply otherStep) := by
  refine .map (.builder ?_) ?_
  · rw [Builder.redacted_apply, h, hstep, ← Builder.redacted_apply]
  · rw [Builder.events_apply, ← step.report_redacted, hstep, otherStep.report_redacted,
      Builder.events_apply]

/-- The record of a builder is accepted, so reading it back gives a record. -/
theorem used_parse (builder : Builder) :
    ∃ record : SlotRecord, record.bytes = builder.build ∧
      (Product.built builder.build).used .parse = pure (.record record) := by
  obtain ⟨record, hparse, hbytes⟩ := builder.exists_parse_build
  exact ⟨record, hbytes, by rw [Product.used, hparse]⟩

section Configuration

variable {config other : SlotConfiguration} (h : config.redacted = other.redacted)
include h

theorem answeredAlike_adjust {adjustment otherAdjustment : SlotConfiguration.Adjustment}
    (hadjustment : adjustment.redacted = otherAdjustment.redacted) :
    AnsweredAlike (.configuration <$> config.adjust adjustment)
      (.configuration <$> other.adjust otherAdjustment) := by
  refine .map (.configuration ?_) ?_
  · rw [SlotConfiguration.redacted_adjust, h, hadjustment, ← SlotConfiguration.redacted_adjust]
  · rw [← SlotConfiguration.events_adjust_redacted, h, hadjustment,
      SlotConfiguration.events_adjust_redacted]

/-- What is left out of an update, and what is said of it, does not depend on the values. -/
theorem redacted_toBuilder :
    config.toBuilder.value.redacted = other.toBuilder.value.redacted ∧
      config.toBuilder.events = other.toBuilder.events :=
  ⟨congrArg (fun config => config.toBuilder.value) h,
    congrArg (fun config => config.toBuilder.events) h⟩

end Configuration

theorem answeredAlike_preset {credential other : Credential}
    (h : credential.redacted = other.redacted) (products others : List Product) :
    AnsweredAlike (answer products (.preset credential)) (answer others (.preset other)) := by
  rcases SlotConfiguration.ofCredential_alike h with
    ⟨hrefused, hotherRefused⟩ | ⟨configured, otherConfigured, hok, hotherOk, hvalue, hevents⟩
  · rw [answer, answer, hrefused, hotherRefused]
    exact .pure (.refusal .argument)
  · rw [answer, answer, hok, hotherOk]
    exact .map (.configuration hvalue) hevents

theorem answeredAlike_encode {request other : DeviceConfig.Request}
    (h : request.redacted = other.redacted) (config : DeviceConfig)
    (products others : List Product) :
    AnsweredAlike (answer products (.encode config request))
      (answer others (.encode config other)) := by
  have hiff : DeviceConfig.Encodable config request ↔ DeviceConfig.Encodable config other := by
    rw [← DeviceConfig.encodable_redacted_iff, h, DeviceConfig.encodable_redacted_iff]
  have hlength : (DeviceConfig.sentBytes config request).length =
      (DeviceConfig.sentBytes config other).length := by
    rw [← DeviceConfig.length_sentBytes_redacted, h, DeviceConfig.length_sentBytes_redacted]
  rw [answer, answer]
  by_cases hfits : DeviceConfig.Encodable config request
  · rw [(DeviceConfig.guarded_encode config request).ok hfits,
      (DeviceConfig.guarded_encode config other).ok (hiff.mp hfits)]
    exact .map (.payload _ _) (by rw [hlength])
  · rw [(DeviceConfig.guarded_encode config request).error hfits,
      (DeviceConfig.guarded_encode config other).error (mt hiff.mpr hfits)]
    exact .pure (.refusal _)

/-- **One use** of products that look the same. -/
theorem answeredAlike_used {product otherProduct : Product} (h : product.Alike otherProduct)
    {use other : Use} (huse : use.redacted = other.redacted) :
    AnsweredAlike (product.used use) (otherProduct.used other) := by
  cases use <;> cases other <;> simp only [Use.redacted, reduceCtorEq, Use.apply.injEq,
    Use.adjust.injEq] at huse
  case apply.apply step otherStep =>
    cases h with
    | builder hbuilder => exact answeredAlike_apply hbuilder huse
    | _ => exact .pure .nothing
  case adjust.adjust adjustment otherAdjustment =>
    cases h with
    | configuration hconfig => exact answeredAlike_adjust hconfig huse
    | _ => exact .pure .nothing
  case toBuilder.toBuilder =>
    cases h with
    | configuration hconfig =>
      exact .map (.builder (redacted_toBuilder hconfig).1) (redacted_toBuilder hconfig).2
    | _ => exact .pure .nothing
  case build.build =>
    cases h with
    | builder hbuilder => exact .pure (.built hbuilder)
    | configuration hconfig =>
      exact .map (.built (redacted_toBuilder hconfig).1)
        (congrArg (· ++ []) (redacted_toBuilder hconfig).2)
    | _ => exact .pure .nothing
  case parse.parse =>
    cases h with
    | @built builder otherBuilder hbuilder =>
      obtain ⟨record, hbytes, hused⟩ := used_parse builder
      obtain ⟨otherRecord, hotherBytes, hotherUsed⟩ := used_parse otherBuilder
      rw [hused, hotherUsed]
      exact .pure (.record hbytes hotherBytes hbuilder)
    | _ => exact .pure .nothing

section Run

variable {products otherProducts : List Product}
  (h : List.Forall₂ Product.Alike products otherProducts)
include h

theorem alike_getD (place : Nat) :
    (products[place]?.getD .nothing).Alike (otherProducts[place]?.getD .nothing) := by
  induction h generalizing place with
  | nil => exact .nothing
  | cons hfirst hrest ih =>
    cases place with
    | zero => exact hfirst
    | succ place => exact ih place

/-- **One call**: on products that look the same, calls that differ in contents only give products
that look the same, and say the same. -/
theorem answeredAlike_answer {call other : Call} (hcall : call.redacted = other.redacted) :
    AnsweredAlike (answer products call) (answer otherProducts other) := by
  cases call <;> cases other <;> simp only [redacted, reduceCtorEq, Call.preset.injEq,
    Call.encode.injEq, Call.on.injEq] at hcall
  case newBuilder.newBuilder => exact .pure (.builder rfl)
  case preset.preset credential otherCredential => exact answeredAlike_preset hcall _ _
  case encode.encode config request otherConfig otherRequest =>
    obtain ⟨rfl, hrequest⟩ := hcall
    exact answeredAlike_encode hrequest config _ _
  case on.on place use otherPlace otherUse =>
    obtain ⟨rfl, huse⟩ := hcall
    exact answeredAlike_used (alike_getD h place) huse

/-- **Any number of calls** after products that look the same. -/
theorem view_run {calls others : List Call} (hcalls : calls.map redacted = others.map redacted) :
    (run products calls).map Logged.view = (run otherProducts others).map Logged.view := by
  induction calls generalizing products otherProducts others with
  | nil =>
    obtain rfl := List.map_eq_nil_iff.mp hcalls.symm
    rfl
  | cons call rest ih =>
    obtain ⟨other, otherRest, rfl, hcall, hrest⟩ := List.map_eq_cons_iff.mp hcalls.symm
    have hanswer := answeredAlike_answer h hcall.symm
    rw [run, run, List.map_cons, List.map_cons, hanswer.view_eq,
      ih (List.rel_append h (.cons hanswer.value .nil)) hrest.symm]

end Run

/-! ### Secrets -/

/-- **Contents are not seen.** Two programs that make the same calls in the same order, where
corresponding identifiers, keys and codes have the same length and everything else is the same, are
seen to do the same: each call is refused or not, and for the same reason, gives something of the
same description, and says the same. -/
theorem views_eq {calls others : List Call} (h : calls.map redacted = others.map redacted) :
    (run [] calls).map Logged.view = (run [] others).map Logged.view :=
  view_run .nil h

/-- Two programs with other secrets. They make other records and are seen to do the same, which is
to cut a key and an access code, to read a record back, and to be refused a lock code that is too
short. -/
theorem views_eq_of_cut_codes :
    ∃ program : UInt8 → List Call,
      program = (fun secret => [.newBuilder,
        .on 0 (.apply (.key .hmacSha1 (List.replicate 21 secret))), .on 1 .build, .on 2 .parse,
        .preset (.staticPassword [secret, 7, 9]),
        .on 4 (.adjust (.accessCode (List.replicate 8 secret))), .on 5 .build,
        .encode .empty ⟨true, some (List.replicate 15 secret), none⟩]) ∧
      (program 1).map redacted = (program 2).map redacted ∧
      (run [] (program 1)).map Logged.view = (run [] (program 2)).map Logged.view ∧
      (run [] (program 1)).map (·.value) ≠ (run [] (program 2)).map (·.value) ∧
      (run [] (program 1)).flatMap (·.view.log) =
        [(.debug, "HmacSha1 key material truncated from 21 to 20 bytes"),
          (.debug, "access code truncated from 8 to 6 bytes")] ∧
      (run [] (program 1)).filterMap (·.view.fault) = [.argument] :=
  ⟨_, rfl, rfl, views_eq rfl, by decide +kernel, by decide +kernel, by decide +kernel⟩

end Call

end TokenConfig
