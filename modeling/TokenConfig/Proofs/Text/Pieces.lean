import Mathlib.Data.List.Basic
import TokenConfig.Text.Pieces

/-!
# There is one way to cut a list

`TokenConfig.pieces` cuts a list at a separator. That its parts have no separator in them, and are
the list again when separators are put between them, leaves no choice: `TokenConfig.IsCut` says just
this, and parts of which it holds are the pieces (`TokenConfig.isCut_iff`). So whatever is written
with separators between its parts, or with one behind each, can be told apart part by part
(`TokenConfig.pieces_intercalate`, `TokenConfig.append_cons_inj`).
-/

namespace TokenConfig

variable {α : Type} [BEq α] [LawfulBEq α] {separator : α}

/-- Cutting is what the standard library calls splitting on an element. -/
theorem pieces_eq_splitOn (separator : α) (items : List α) :
    pieces separator items = items.splitOn separator := by
  induction items with
  | nil => rfl
  | cons item items ih =>
    rw [List.splitOn_cons_eq_if_modifyHead, ← ih]
    by_cases h : item = separator
    · subst h
      rw [pieces_cons_separator, if_pos (beq_self_eq_true item)]
    · obtain ⟨part, rest, hpieces, hcons⟩ := pieces_cons_of_ne h items
      rw [hcons, hpieces, if_neg (by simpa using h), List.modifyHead_cons]

/-- Parts that make up a list, with the separator between any two of them and in none. -/
structure IsCut (separator : α) (items : List α) (parts : List (List α)) : Prop where
  /-- There is a part, be it an empty one. -/
  ne_nil : parts ≠ []
  /-- The parts with separators between them are the list. -/
  intercalate_eq : [separator].intercalate parts = items
  /-- No part has a separator. -/
  not_mem : ∀ part ∈ parts, separator ∉ part

/-- **What is put together with separators is cut into the same parts.** -/
theorem pieces_intercalate {parts : List (List α)} (h : ∀ part ∈ parts, separator ∉ part)
    (hne : parts ≠ []) : pieces separator ([separator].intercalate parts) = parts := by
  rw [pieces_eq_splitOn, List.splitOn_intercalate separator h hne]

/-- **There is one way to cut a list.** -/
theorem isCut_iff {items : List α} {parts : List (List α)} :
    IsCut separator items parts ↔ parts = pieces separator items := by
  constructor
  · rintro ⟨hne, rfl, hparts⟩
    exact (pieces_intercalate hparts hne).symm
  · rintro rfl
    exact ⟨pieces_ne_nil separator items, intercalate_pieces separator items,
      fun part hpart => not_mem_of_mem_pieces hpart⟩

omit [BEq α] [LawfulBEq α] in
/-- What is put together has nothing but the separator and what the parts have. -/
theorem mem_of_mem_intercalate {parts : List (List α)} {item : α}
    (h : item ∈ [separator].intercalate parts) :
    item = separator ∨ ∃ part ∈ parts, item ∈ part := by
  induction parts with
  | nil => cases h
  | cons part parts ih =>
    cases parts with
    | nil =>
      rw [List.intercalate_singleton] at h
      exact .inr ⟨part, List.mem_singleton_self part, h⟩
    | cons next rest =>
      rw [List.intercalate_cons_cons, List.mem_append, List.mem_append, List.mem_singleton] at h
      rcases h with (hfirst | hseparator) | hrest
      · exact .inr ⟨part, List.mem_cons_self, hfirst⟩
      · exact .inl hseparator
      · obtain hseparator | ⟨other, hother, hitem⟩ := ih hrest
        · exact .inl hseparator
        · exact .inr ⟨other, List.mem_cons_of_mem part hother, hitem⟩

/-- A list without a separator is one part. -/
theorem pieces_of_not_mem {part : List α} (h : separator ∉ part) : pieces separator part = [part] :=
  (pieces_eq_splitOn separator part).trans (List.splitOn_eq_singleton h)

/-- The first part ends at the first separator. -/
theorem pieces_append_cons {part : List α} (h : separator ∉ part) (rest : List α) :
    pieces separator (part ++ separator :: rest) = part :: pieces separator rest := by
  rw [pieces_eq_splitOn, pieces_eq_splitOn, List.splitOn_append_cons_self_of_not_mem h]

/-- What is in front of the first separator, and what is behind it, can be told apart. -/
theorem append_cons_inj {a b rest other : List α} (ha : separator ∉ a) (hb : separator ∉ b) :
    a ++ separator :: rest = b ++ separator :: other ↔ a = b ∧ rest = other := by
  constructor
  · intro h
    have hpieces := congrArg (pieces separator) h
    rw [pieces_append_cons ha, pieces_append_cons hb] at hpieces
    obtain rfl := (List.cons.inj hpieces).1
    exact ⟨rfl, (List.cons.inj (List.append_cancel_left h)).2⟩
  · rintro ⟨rfl, rfl⟩
    rfl

end TokenConfig
