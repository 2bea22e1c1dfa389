import Mathlib.Data.List.Basic
import TokenConfig.Slot.Builder

/-!
# What is cut is reported

A builder refuses nothing. An input that is too long is cut, and the log says so, once for each
step: key material is dealt out over several fields, but what a field gets of it fits
(`TokenConfig.KeyMode.length_le_of_mem_split`), so the fields have nothing to add.

`TokenConfig.Builder.Step.report` is what a step says. A run says what its steps say, in their order
(`TokenConfig.Builder.events_run`), whatever the builder held before.
-/

namespace TokenConfig

/-- **What a field gets of key material fits it.** -/
theorem KeyMode.length_le_of_mem_split (mode : KeyMode) (material : Bytes) :
    (∀ bytes ∈ (mode.split material).fixed, bytes.length ≤ 16) ∧
      (∀ bytes ∈ (mode.split material).uid, bytes.length ≤ 6) ∧
      ∀ bytes ∈ (mode.split material).key, bytes.length ≤ 16 := by
  have hpart : ∀ {start finish size : Nat}, finish ≤ start + size →
      ∀ bytes ∈ part? start finish material, bytes.length ≤ size := by
    intro start finish size hsize bytes hbytes
    unfold part? at hbytes
    split at hbytes
    · obtain rfl := Option.some.inj hbytes
      rw [List.length_drop, List.length_take]
      omega
    · cases hbytes
  have hfull : ∀ bytes ∈ some (material.take 16), bytes.length ≤ 16 := by
    rintro bytes ⟨⟩
    exact List.length_take_le 16 material
  have hnone : ∀ {size : Nat}, ∀ bytes ∈ (none : Option Bytes), bytes.length ≤ size := by
    rintro size bytes ⟨⟩
  cases mode with
  | aes => exact ⟨hnone, hnone, hfull⟩
  | hmacSha1 => exact ⟨hnone, hpart (by decide), hfull⟩
  | static => exact ⟨hpart (by decide), hpart (by decide), hpart (by decide)⟩

namespace Builder

/-- What a step says: that it cuts its input, if there is no room for all of it. -/
def Step.report : Step → List Event
  | .fixed bytes => if 16 < bytes.length then [.valueCut .fixed bytes.length] else []
  | .uid bytes => if 6 < bytes.length then [.valueCut .uid bytes.length] else []
  | .key mode material =>
    if mode.capacity < material.length then [.materialCut mode material.length] else []
  | .accessCode bytes => if 6 < bytes.length then [.valueCut .accessCode bytes.length] else []
  | .currentAccessCode bytes =>
    if 6 < bytes.length then [.valueCut .currentAccessCode bytes.length] else []
  | .configFlags _ | .extendedFlags _ | .ticketFlags _ => []

theorem events_setFixed (builder : Builder) (bytes : Bytes) :
    (builder.setFixed bytes).events = (fit .fixed bytes).events :=
  List.append_nil _

theorem events_setUid (builder : Builder) (bytes : Bytes) :
    (builder.setUid bytes).events = (fit .uid bytes).events :=
  List.append_nil _

theorem events_setKeyField (builder : Builder) (bytes : Bytes) :
    (builder.setKeyField bytes).events = (fit .key bytes).events :=
  List.append_nil _

/-- A field says nothing of a part that fits it. -/
theorem events_setIfAny {field : Field} {set : Builder → Bytes → Logged Builder}
    (hset : ∀ builder bytes, (set builder bytes).events = (fit field bytes).events)
    {part : Option Bytes} (hpart : ∀ bytes ∈ part, bytes.length ≤ field.size) (builder : Builder) :
    (setIfAny set part builder).events = [] := by
  cases part with
  | none => rfl
  | some bytes => exact (hset builder bytes).trans (if_neg (Nat.not_lt.mpr (hpart bytes rfl)))

/-- Key material is reported once, and not again for the fields it is dealt out over. -/
theorem events_setKey (builder : Builder) (mode : KeyMode) (material : Bytes) :
    (builder.setKey mode material).events = (Step.key mode material).report := by
  obtain ⟨hfixed, huid, hkey⟩ := mode.length_le_of_mem_split material
  simp only [setKey, Logged.events_bind, Logged.events_noteIf,
    events_setIfAny events_setFixed hfixed, events_setIfAny events_setUid huid,
    events_setIfAny events_setKeyField hkey, List.append_nil, Step.report, decide_eq_true_eq]

/-- **What one step says.** -/
theorem events_apply (builder : Builder) (step : Step) :
    (builder.apply step).events = step.report := by
  cases step with
  | fixed bytes => exact events_setFixed builder bytes
  | uid bytes => exact events_setUid builder bytes
  | key mode material => exact events_setKey builder mode material
  | accessCode bytes | currentAccessCode bytes => exact List.append_nil _
  | configFlags flags | extendedFlags flags | ticketFlags flags => rfl

/-- **What a run says** is what its steps say. -/
theorem events_run (builder : Builder) (steps : List Step) :
    (builder.run steps).events = steps.flatMap Step.report := by
  induction steps generalizing builder with
  | nil => rfl
  | cons step steps ih =>
    rw [run, Logged.events_bind, events_apply, ih, List.flatMap_cons]

end Builder

end TokenConfig
