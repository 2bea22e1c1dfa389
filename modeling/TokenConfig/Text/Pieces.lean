/-!
# Cutting a list at separators

* `TokenConfig.pieces` – the parts of a list between the occurrences of a separator, empty ones
  included: there is always one part more than there are separators;
* `TokenConfig.splitFirst?` – the two parts around the first occurrence, if there is one.

Nothing else about either has to be known than `TokenConfig.intercalate_pieces` and
`TokenConfig.not_mem_of_mem_pieces` for the one, and `TokenConfig.splitFirst?_eq_some_iff` for the
other.

Lines of a file, components of a version number and the two sides of a `name = value` line are all
read this way.
-/

namespace TokenConfig

variable {α : Type} [BEq α]

/-- The parts of `items` between the occurrences of `separator`. -/
def pieces (separator : α) (items : List α) : List (List α) :=
  items.foldr
    (fun item parts =>
      if item == separator then [] :: parts
      else match parts with
        | [] => [[item]]
        | part :: rest => (item :: part) :: rest)
    [[]]

/-- The items before the first `separator` and those after it. -/
def splitFirst? (separator : α) (items : List α) : Option (List α × List α) :=
  match items.dropWhile (· != separator) with
  | [] => none
  | _ :: after => some (items.takeWhile (· != separator), after)

/-! ### The parts of a list -/

@[simp] theorem pieces_nil (separator : α) : pieces separator [] = [[]] := rfl

/-- A list has at least one part. -/
theorem pieces_ne_nil (separator : α) (items : List α) : pieces separator items ≠ [] := by
  cases items with
  | nil => simp
  | cons item rest =>
    rw [pieces, List.foldr_cons]
    split
    · simp
    · split <;> simp

theorem pieces_cons_separator [LawfulBEq α] (separator : α) (items : List α) :
    pieces separator (separator :: items) = [] :: pieces separator items := by
  rw [pieces, List.foldr_cons, if_pos (beq_self_eq_true separator)]
  rfl

theorem pieces_cons_of_ne [LawfulBEq α] {separator item : α} (h : item ≠ separator)
    (items : List α) :
    ∃ part rest, pieces separator items = part :: rest ∧
      pieces separator (item :: items) = (item :: part) :: rest := by
  obtain ⟨part, rest, hp⟩ := List.exists_cons_of_ne_nil (pieces_ne_nil separator items)
  refine ⟨part, rest, hp, ?_⟩
  rw [pieces] at hp
  rw [pieces, List.foldr_cons, if_neg (by simpa using h), hp]

/-- The parts with the separator between them are the list again. -/
theorem intercalate_pieces [LawfulBEq α] (separator : α) (items : List α) :
    [separator].intercalate (pieces separator items) = items := by
  induction items with
  | nil => rfl
  | cons item items ih =>
    by_cases h : item = separator
    · subst h
      obtain ⟨part, rest, hp⟩ := List.exists_cons_of_ne_nil (pieces_ne_nil item items)
      rw [pieces_cons_separator, hp]
      rw [hp] at ih
      simpa [List.intercalate] using ih
    · obtain ⟨part, rest, hp, hc⟩ := pieces_cons_of_ne h items
      rw [hc]
      rw [hp] at ih
      cases rest with
      | nil => simpa [List.intercalate] using ih
      | cons next rest => simpa [List.intercalate] using ih

/-- No part has a separator in it. -/
theorem not_mem_of_mem_pieces [LawfulBEq α] {separator : α} {items part : List α}
    (h : part ∈ pieces separator items) : separator ∉ part := by
  induction items generalizing part with
  | nil =>
    rw [pieces_nil, List.mem_singleton] at h
    simp [h]
  | cons item items ih =>
    by_cases hi : item = separator
    · subst hi
      rw [pieces_cons_separator] at h
      rcases List.mem_cons.mp h with rfl | h
      · simp
      · exact ih h
    · obtain ⟨first, rest, hp, hc⟩ := pieces_cons_of_ne hi items
      rw [hc] at h
      rcases List.mem_cons.mp h with rfl | h
      · have hfirst : separator ∉ first := ih (by simp [hp])
        simp [hfirst, Ne.symm hi]
      · exact ih (by simp [hp, h])

/-! ### The first separator -/

/-- A list is split at its first separator: the front has none. -/
theorem splitFirst?_eq_some_iff [LawfulBEq α] {separator : α} {items front after : List α} :
    splitFirst? separator items = some (front, after) ↔
      items = front ++ separator :: after ∧ separator ∉ front := by
  induction items generalizing front with
  | nil => simp [splitFirst?]
  | cons item items ih =>
    by_cases h : item = separator
    · subst h
      simp only [splitFirst?, bne_self_eq_false, Bool.false_eq_true, not_false_eq_true,
        List.dropWhile_cons_of_neg, List.takeWhile_cons_of_neg, Option.some.injEq, Prod.mk.injEq]
      constructor
      · rintro ⟨rfl, rfl⟩
        simp
      · rintro ⟨he, hf⟩
        cases front with
        | nil => simpa using he
        | cons first rest =>
          rw [List.cons_append, List.cons.injEq] at he
          exact absurd (he.1 ▸ List.mem_cons_self) hf
    · have hne : (item != separator) = true := by simpa using h
      have hsplit : splitFirst? separator (item :: items) =
          (splitFirst? separator items).map fun parts => (item :: parts.1, parts.2) := by
        unfold splitFirst?
        rw [List.dropWhile_cons, List.takeWhile_cons, if_pos hne, if_pos hne]
        cases items.dropWhile (· != separator) <;> rfl
      rw [hsplit, Option.map_eq_some_iff]
      constructor
      · rintro ⟨⟨first, rest⟩, hs, hp⟩
        cases hp
        obtain ⟨rfl, hf⟩ := ih.mp hs
        simp [hf, Ne.symm h]
      · rintro ⟨he, hf⟩
        cases front with
        | nil =>
          rw [List.nil_append, List.cons.injEq] at he
          exact absurd he.1 h
        | cons first rest =>
          rw [List.cons_append, List.cons.injEq] at he
          obtain ⟨rfl, he⟩ := he
          exact ⟨(rest, after), ih.mpr ⟨he, fun hm => hf (List.mem_cons_of_mem _ hm)⟩, rfl⟩

end TokenConfig
