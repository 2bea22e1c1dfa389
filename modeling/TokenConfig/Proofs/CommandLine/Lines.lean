import TokenConfig.Proofs.CommandLine.Session
import TokenConfig.Proofs.Text.Pieces

/-!
# Named values are read off the output

A named value is written on a line of its own: the name in a column, a colon, and the value. On a
terminal with colours there are escape sequences around it. A name has no colon and does not begin
with a blank (`TokenConfig.IsName`), and neither a name nor a value goes on in a second line
(`TokenConfig.Output.Legible`). So the names and values that were written, and their order, are read
off the output, with colours or without (`TokenConfig.Output.stdout_inj`).
-/

namespace TokenConfig

/-! ### Names in a column -/

theorem mem_rightAligned {width : Nat} {text : String} {c : Char}
    (h : c ∈ (rightAligned width text).toList) : c = ' ' ∨ c ∈ text.toList := by
  rw [rightAligned, String.toList_append, String.toList_ofList, List.mem_append] at h
  exact h.imp_left List.eq_of_mem_replicate

/-- Names without a blank in front can be read off their column. -/
theorem rightAligned_inj {width : Nat} {a b : String} (ha : a.toList.head? ≠ some ' ')
    (hb : b.toList.head? ≠ some ' ') : rightAligned width a = rightAligned width b ↔ a = b := by
  have hdrop : ∀ {text : String}, text.toList.head? ≠ some ' ' →
      (rightAligned width text).toList.dropWhile (· == ' ') = text.toList := by
    intro text htext
    rw [rightAligned, String.toList_append, String.toList_ofList,
      List.dropWhile_append_of_pos (by simp)]
    cases hchars : text.toList with
    | nil => rfl
    | cons c rest =>
      rw [hchars, List.head?_cons] at htext
      exact List.dropWhile_cons_of_neg (by simpa using fun h => htext (congrArg some h))
  refine ⟨fun h => String.toList_injective ?_, fun h => h ▸ rfl⟩
  rw [← hdrop ha, h, hdrop hb]

/-- A name that ends at the colon behind it, on one line. -/
structure IsName (name : String) : Prop where
  /-- The blanks in front belong to the column. -/
  start : name.toList.head? ≠ some ' '
  /-- The first colon is the one behind the name. -/
  colon : ':' ∉ name.toList
  /-- It does not go on in a second line. -/
  oneLine : '\n' ∉ name.toList

instance : DecidablePred IsName := fun name =>
  decidable_of_iff (name.toList.head? ≠ some ' ' ∧ ':' ∉ name.toList ∧ '\n' ∉ name.toList)
    ⟨fun ⟨start, colon, oneLine⟩ => ⟨start, colon, oneLine⟩,
      fun ⟨start, colon, oneLine⟩ => ⟨start, colon, oneLine⟩⟩

/-! ### Lines -/

namespace Style

/-- What is written before a name. -/
def opening : Style → String
  | .plain => ""
  | .coloured => reset ++ bold

/-- What is written between the colon behind a name and the value. -/
def gap : Style → String
  | .plain => " "
  | .coloured => reset ++ " "

/-- The line of a named value, without its end. -/
def line (style : Style) (name value : String) : List Char :=
  style.opening.toList ++ ((rightAligned 20 name).toList ++
    ':' :: (style.gap.toList ++ value.toList))

theorem toList_entry (style : Style) (name value : String) :
    (style.entry name value).toList = style.line name value ++ ['\n'] := by
  have hcolon : ":".toList = [':'] := by decide
  have hend : "\n".toList = ['\n'] := by decide
  cases style <;> simp [entry, line, opening, gap, hcolon, hend]

variable {style : Style} {name value : String}

theorem not_mem_line (hname : IsName name) (hvalue : '\n' ∉ value.toList) :
    '\n' ∉ style.line name value := by
  have hopening : '\n' ∉ style.opening.toList := by cases style <;> decide
  have hgap : '\n' ∉ style.gap.toList := by cases style <;> decide
  have haligned : '\n' ∉ (rightAligned 20 name).toList := fun h =>
    (mem_rightAligned h).elim (by decide) hname.oneLine
  simp only [line, List.mem_append, List.mem_cons, not_or]
  exact ⟨hopening, haligned, by decide, hgap, hvalue⟩

/-- **Name and value are read off a line.** -/
theorem line_inj {otherName otherValue : String} (hname : IsName name)
    (hother : IsName otherName) : style.line name value = style.line otherName otherValue ↔
      name = otherName ∧ value = otherValue := by
  have hcolon : ∀ {name}, IsName name → ':' ∉ (rightAligned 20 name).toList := fun hname h =>
    (mem_rightAligned h).elim (by decide) hname.colon
  rw [line, line, List.append_cancel_left_eq, append_cons_inj (hcolon hname) (hcolon hother),
    List.append_cancel_left_eq, String.toList_inj, String.toList_inj,
    rightAligned_inj hname.start hother.start]

end Style

namespace Output

/-- A named value that can be read off what is written of it. -/
inductive Legible : Output → Prop where
  /-- Name and value are on one line, and the colon is between them. -/
  | entry {name value : String} (isName : IsName name) (oneLine : '\n' ∉ value.toList) :
    Legible (entry name value)

theorem Legible.stdout_cons_ne_empty {style : Style} {output : Output} (h : output.Legible)
    (rest : List Output) : stdout style (output :: rest) ≠ "" := by
  obtain ⟨hname, hvalue⟩ := h
  intro hempty
  have hchars := congrArg String.toList hempty
  rw [stdout_cons, onStdout, String.toList_append, Style.toList_entry] at hchars
  simp at hchars

/-- **All names and values are read off the output.** -/
theorem stdout_inj {style : Style} {a b : List Output} (ha : ∀ output ∈ a, output.Legible)
    (hb : ∀ output ∈ b, output.Legible) : stdout style a = stdout style b ↔ a = b := by
  refine ⟨fun h => ?_, fun h => h ▸ rfl⟩
  induction a generalizing b with
  | nil =>
    cases b with
    | nil => rfl
    | cons other b => exact absurd h.symm ((hb other List.mem_cons_self).stdout_cons_ne_empty b)
  | cons output a ih =>
    cases b with
    | nil => exact absurd h ((ha output List.mem_cons_self).stdout_cons_ne_empty a)
    | cons other b =>
      obtain ⟨⟨hname, hvalue⟩, hrest⟩ := List.forall_mem_cons.mp ha
      obtain ⟨⟨hotherName, hotherValue⟩, hotherRest⟩ := List.forall_mem_cons.mp hb
      -- the first line ends at the first line break, on both sides
      have hchars := congrArg String.toList h
      rw [stdout_cons, stdout_cons, onStdout, onStdout, String.toList_append,
        String.toList_append, Style.toList_entry, Style.toList_entry, List.append_assoc,
        List.append_assoc, List.singleton_append, List.singleton_append,
        append_cons_inj (Style.not_mem_line hname hvalue)
          (Style.not_mem_line hotherName hotherValue),
        Style.line_inj hname hotherName, String.toList_inj] at hchars
      obtain ⟨⟨rfl, rfl⟩, htail⟩ := hchars
      rw [ih hrest hotherRest htail]

end Output

end TokenConfig
