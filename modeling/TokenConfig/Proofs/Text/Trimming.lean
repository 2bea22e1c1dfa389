import Mathlib.Data.List.DropRight
import TokenConfig.Text.Blank

/-!
# What is left of a text without the blanks at its ends

`TokenConfig.Blank.trimChars` drops blanks, first at the one end and then at the other.
`TokenConfig.Blank.IsTrimmed` says what is to be left, without saying how to get there: a middle
part that does not begin or end with a blank, with nothing but blanks on both sides of it. There is
one such part (`TokenConfig.Blank.isTrimmed_iff`).
-/

namespace TokenConfig

namespace Blank

/-- `middle` is what `text` has between the blanks at its ends. -/
def IsTrimmed (text middle : List Char) : Prop :=
  ∃ front back, text = front ++ middle ++ back ∧ (∀ c ∈ front, isBlank c = true) ∧
    (∀ c ∈ back, isBlank c = true) ∧ (∀ c ∈ middle.head?, isBlank c = false) ∧
    ∀ c ∈ middle.getLast?, isBlank c = false

/-- Blanks are dropped up to the first character that is none. -/
theorem dropWhile_isBlank_append {front rest : List Char} (hfront : ∀ c ∈ front, isBlank c = true)
    (hrest : ∀ c ∈ rest.head?, isBlank c = false) : (front ++ rest).dropWhile isBlank = rest := by
  rw [List.dropWhile_append_of_pos hfront]
  cases rest with
  | nil => rfl
  | cons c rest => exact List.dropWhile_cons_of_neg (by simpa using hrest c rfl)

theorem trimChars_of_isTrimmed {text middle : List Char} (h : IsTrimmed text middle) :
    trimChars text = middle := by
  obtain ⟨front, back, rfl, hfront, hback, hfirst, hlast⟩ := h
  rw [trimChars, List.append_assoc]
  cases hmiddle : middle with
  | nil =>
    -- with nothing in the middle all of the text is blank
    have hall : (front ++ ([] ++ back)).dropWhile isBlank = [] := by
      rw [List.nil_append, List.dropWhile_append_of_pos hfront, List.dropWhile_eq_nil_iff]
      exact hback
    rw [hall]
    rfl
  | cons c rest =>
    rw [← hmiddle, dropWhile_isBlank_append hfront, List.reverse_append,
      dropWhile_isBlank_append, List.reverse_reverse]
    · simpa using hback
    · simpa using hlast
    · rw [hmiddle] at hfirst ⊢
      exact hfirst

theorem isTrimmed_trimChars (text : List Char) : IsTrimmed text (trimChars text) := by
  have htrim : trimChars text = (text.dropWhile isBlank).rdropWhile isBlank := rfl
  obtain ⟨back, hback⟩ := List.rdropWhile_prefix isBlank (text.dropWhile isBlank)
  refine ⟨text.takeWhile isBlank, (text.dropWhile isBlank).rtakeWhile isBlank, ?_, ?_, ?_, ?_, ?_⟩
  · rw [htrim, List.append_assoc, List.rdropWhile_append_rtakeWhile,
      List.takeWhile_append_dropWhile]
  · exact fun c hc => List.mem_takeWhile_imp hc
  · exact fun c hc => List.mem_rtakeWhile_imp hc
  · -- what is dropped at the end leaves the beginning alone
    intro c hc
    rw [← htrim] at hback
    refine head?_dropWhile_isBlank text c ?_
    rw [← hback, List.head?_append, Option.mem_def.mp hc]
    rfl
  · intro c hc
    have hne : trimChars text ≠ [] := by
      intro hnil
      rw [hnil] at hc
      cases hc
    rw [List.getLast?_eq_some_getLast hne] at hc
    obtain rfl := Option.some.inj hc
    exact Bool.eq_false_iff.mpr (List.rdropWhile_last_not isBlank _ hne)

/-- **Trimming leaves what stands between the blanks**, and there is no other such part. -/
theorem isTrimmed_iff {text middle : List Char} :
    IsTrimmed text middle ↔ trimChars text = middle := by
  refine ⟨trimChars_of_isTrimmed, ?_⟩
  rintro rfl
  exact isTrimmed_trimChars text

/-- Text without blanks is left as it is. -/
theorem trimChars_of_not_blank {text : List Char} (h : ∀ c ∈ text, isBlank c = false) :
    trimChars text = text := by
  refine trimChars_of_isTrimmed ⟨[], [], ?_, nofun, nofun, fun c hc => ?_, fun c hc => ?_⟩
  · rw [List.nil_append, List.append_nil]
  · exact h c (List.mem_of_mem_head? hc)
  · exact h c (List.mem_of_getLast? hc)

end Blank

end TokenConfig
