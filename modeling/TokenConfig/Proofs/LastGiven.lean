import Mathlib.Data.List.Basic

/-!
# The last value given

Where something is said several times the last word counts: steps that set the same field, values
behind the same tag. `TokenConfig.lastGiven` is the last of the values that the items of a list
give, when an item may also give none: the value of an item behind which no item gives one
(`TokenConfig.lastGiven_eq_some_iff`).
-/

namespace TokenConfig

variable {α β : Type} {given : α → Option β}

/-- The last of the values that items give. -/
def lastGiven (given : α → Option β) (items : List α) : Option β :=
  (items.filterMap given).getLast?

@[simp] theorem lastGiven_nil : lastGiven given [] = none := rfl

/-- A value that is given later wins. -/
theorem lastGiven_append (front rest : List α) :
    lastGiven given (front ++ rest) = (lastGiven given rest).or (lastGiven given front) := by
  rw [lastGiven, List.filterMap_append, List.getLast?_append]
  rfl

theorem lastGiven_singleton (item : α) : lastGiven given [item] = given item := by
  unfold lastGiven
  cases h : given item with
  | none => rw [List.filterMap_cons_none h]; rfl
  | some value => rw [List.filterMap_cons_some h]; rfl

theorem lastGiven_cons (item : α) (items : List α) :
    lastGiven given (item :: items) = (lastGiven given items).or (given item) := by
  rw [← List.singleton_append, lastGiven_append, lastGiven_singleton]

theorem lastGiven_map {γ : Type} (f : γ → α) (items : List γ) :
    lastGiven given (items.map f) = lastGiven (given ∘ f) items := by
  rw [lastGiven, List.filterMap_map]
  rfl

theorem lastGiven_filterMap {γ : Type} (f : γ → Option α) (items : List γ) :
    lastGiven given (items.filterMap f) = lastGiven (fun item => (f item).bind given) items := by
  rw [lastGiven, List.filterMap_filterMap]
  rfl

theorem lastGiven_map_value {γ : Type} (f : β → γ) (items : List α) :
    lastGiven (fun item => (given item).map f) items = (lastGiven given items).map f := by
  rw [lastGiven, lastGiven, ← List.map_filterMap, List.getLast?_map]

/-- Where one item alone gives a value, it does not matter what else is in the list. -/
theorem lastGiven_ite_eq [DecidableEq α] (f : α → Option β) (chosen : α) (items : List α) :
    lastGiven (fun item => if item = chosen then f item else none) items =
      if chosen ∈ items then f chosen else none := by
  induction items with
  | nil => rfl
  | cons item items ih =>
    rw [lastGiven_cons, ih]
    by_cases hitem : item = chosen
    · subst hitem
      rw [if_pos rfl, if_pos List.mem_cons_self]
      split
      · exact Option.or_self
      · exact Option.none_or
    · rw [if_neg hitem, Option.or_none]
      simp only [List.mem_cons, Ne.symm hitem, false_or]

/-- No value is the last one exactly if no item gives one. -/
theorem lastGiven_eq_none_iff {items : List α} :
    lastGiven given items = none ↔ ∀ item ∈ items, given item = none := by
  simp [lastGiven]

/-- The last value given is the value of an item after which none is given. -/
theorem lastGiven_eq_some_iff {items : List α} {value : β} :
    lastGiven given items = some value ↔
      ∃ front item rest, items = front ++ item :: rest ∧ given item = some value ∧
        ∀ later ∈ rest, given later = none := by
  induction items with
  | nil => simp
  | cons first items ih =>
    rw [lastGiven_cons, Option.or_eq_some_iff, ih, lastGiven_eq_none_iff]
    constructor
    · rintro (⟨front, item, rest, rfl, hitem, hrest⟩ | ⟨hnone, hfirst⟩)
      · exact ⟨first :: front, item, rest, rfl, hitem, hrest⟩
      · exact ⟨[], first, items, rfl, hfirst, hnone⟩
    · rintro ⟨front, item, rest, hitems, hitem, hrest⟩
      cases front with
      | nil =>
        obtain ⟨rfl, rfl⟩ := List.cons.inj hitems
        exact Or.inr ⟨hrest, hitem⟩
      | cons head front =>
        obtain ⟨rfl, rfl⟩ := List.cons.inj hitems
        exact Or.inl ⟨front, item, rest, rfl, hitem, hrest⟩

end TokenConfig
