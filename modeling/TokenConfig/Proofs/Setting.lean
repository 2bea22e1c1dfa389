import Mathlib.Data.List.Forall2
import TokenConfig.Proofs.Text.Pieces
import TokenConfig.Proofs.Text.Trimming
import TokenConfig.Setting

/-!
# Who decides on a setting

The administrator's file is bytes that anybody may have put together: some of its lines may be no
text, or text without a meaning, and several may be about one setting. All the same it is decided
by a single line, or not at all.

* `TokenConfig.Setting.Gives` says of a line alone that it gives a setting a value, without saying
  how the line is taken apart; `TokenConfig.Setting.FirstGives` says of a file which line counts.
* `TokenConfig.Setting.SwitchesOn` lists the values that switch on.
* `TokenConfig.Setting.resolve_decided`: the first line that gives a value decides, whatever else is
  in the file and whatever the environment and the program say. Without such a line the variable of
  the setting decides, if it is set to a text, and else the program.
-/

namespace TokenConfig

namespace Setting

/-! ### Values -/

/-- The values that switch on: `1`, and `true` with small or capital letters. -/
def SwitchesOn (value : List Char) : Prop :=
  value = ['1'] ∨
    List.Forall₂ (· ∈ ·) value [['t', 'T'], ['r', 'R'], ['u', 'U'], ['e', 'E']]

/-- The characters that a small letter stands for, in any case of letters. -/
theorem toLower_eq_iff {c small capital : Char} (hcapital : 65 ≤ capital.toNat ∧ capital.toNat ≤ 90)
    (hsmall : small.toNat = capital.toNat + 32) :
    c.toLower = small ↔ c = small ∨ c = capital := by
  have hA : 'A'.val.toNat = 65 := rfl
  have hZ : 'Z'.val.toNat = 90 := rfl
  have ha : 'a'.val.toNat = 97 := rfl
  rw [← Char.toNat_val] at hcapital hsmall
  rw [← Char.toNat_val] at hsmall
  change dite (c.val ≥ 'A'.val ∧ c.val ≤ 'Z'.val) _ _ = small ↔ _
  simp only [Char.ext_iff, ← UInt32.toNat_inj, ge_iff_le, UInt32.le_iff_toNat_le]
  split
  · simp only [UInt32.toNat_add, UInt32.toNat_sub, hA, ha]
    omega
  · omega

theorem switchesOn_iff {value : List Char} : switchesOn value = true ↔ SwitchesOn value := by
  have ht : ∀ c : Char, c.toLower = 't' ↔ c ∈ ['t', 'T'] := fun c => by
    simpa using toLower_eq_iff (by decide) (by decide)
  have hr : ∀ c : Char, c.toLower = 'r' ↔ c ∈ ['r', 'R'] := fun c => by
    simpa using toLower_eq_iff (by decide) (by decide)
  have hu : ∀ c : Char, c.toLower = 'u' ↔ c ∈ ['u', 'U'] := fun c => by
    simpa using toLower_eq_iff (by decide) (by decide)
  have he : ∀ c : Char, c.toLower = 'e' ↔ c ∈ ['e', 'E'] := fun c => by
    simpa using toLower_eq_iff (by decide) (by decide)
  have htrue : value.map Char.toLower = ['t', 'r', 'u', 'e'] ↔
      List.Forall₂ (· ∈ ·) value [['t', 'T'], ['r', 'R'], ['u', 'U'], ['e', 'E']] := by
    match value with
    | [a, b, c, d] =>
      simp only [List.map_cons, List.map_nil, List.cons.injEq, ht, hr, hu, he, and_true,
        List.forall₂_cons, List.Forall₂.nil]
    | [] | [_] | [_, _] | [_, _, _] | _ :: _ :: _ :: _ :: _ :: _ => simp
  rw [switchesOn, Bool.or_eq_true, beq_iff_eq, beq_iff_eq, SwitchesOn, ← htrue]
  rfl

/-! ### Lines -/

/-- A line gives a setting a value: it is text which, without the blanks around it, does not begin
with `#` and has an `=`; before the first `=` stands the name of the setting and behind it the
value, with any blanks around either. -/
def Gives (line : Bytes) (key : String) (value : List Char) : Prop :=
  ∃ text content name rest, line = Utf8.encode text ∧ Blank.IsTrimmed text.toList content ∧
    content.head? ≠ some '#' ∧ content = name ++ '=' :: rest ∧ '=' ∉ name ∧
    Blank.IsTrimmed name key.toList ∧ Blank.IsTrimmed rest value

/-- The line of a file that counts gives a setting a value, and no line before it gives one. -/
def FirstGives (content : Bytes) (key : String) (value : List Char) : Prop :=
  ∃ front line rest, IsCut newline content (front ++ line :: rest) ∧ Gives line key value ∧
    ∀ earlier ∈ front, ∀ other, ¬ Gives earlier key other

/-- What a line gives is what is read in it. -/
theorem gives_iff {line : Bytes} {key : String} {value : List Char} :
    Gives line key value ↔ ofLine? line = some (key.toList, value) := by
  unfold Gives ofLine?
  constructor
  · rintro ⟨text, content, name, rest, rfl, hcontent, hcomment, rfl, hname, hkey, hvalue⟩
    have hsplit : splitFirst? '=' (name ++ '=' :: rest) = some (name, rest) :=
      splitFirst?_eq_some_iff.mpr ⟨rfl, hname⟩
    simp only [Utf8.decode?_encode, Blank.isTrimmed_iff.mp hcontent, if_neg hcomment, hsplit,
      Option.map_some, Blank.isTrimmed_iff.mp hkey, Blank.isTrimmed_iff.mp hvalue]
  · intro h
    split at h
    · cases h
    · next text htext =>
      simp only at h
      split at h
      · cases h
      · next hcomment =>
        obtain ⟨⟨name, rest⟩, hsplit, hread⟩ := Option.map_eq_some_iff.mp h
        obtain ⟨hcontent, hname⟩ := splitFirst?_eq_some_iff.mp hsplit
        obtain ⟨hkey, hvalue⟩ := Prod.mk.inj hread
        exact ⟨text, _, name, rest, Utf8.decode?_eq_some_iff.mp htext,
          Blank.isTrimmed_trimChars _, hcomment, hcontent, hname, Blank.isTrimmed_iff.mpr hkey,
          Blank.isTrimmed_iff.mpr hvalue⟩

/-! ### The file -/

/-- What one line says about a setting. -/
def inLine? (key : String) (line : Bytes) : Option Bool :=
  (ofLine? line).bind fun (name, value) =>
    if name = key.toList then some (switchesOn value) else none

theorem inLine?_eq_some_iff {line : Bytes} {key : String} {on : Bool} :
    inLine? key line = some on ↔ ∃ value, Gives line key value ∧ switchesOn value = on := by
  simp only [gives_iff]
  rw [inLine?, Option.bind_eq_some_iff]
  constructor
  · rintro ⟨⟨name, value⟩, hread, hname⟩
    simp only [Option.ite_none_right_eq_some, Option.some.injEq] at hname
    exact ⟨value, hname.1 ▸ hread, hname.2⟩
  · rintro ⟨value, hread, rfl⟩
    exact ⟨_, hread, if_pos rfl⟩

theorem inLine?_eq_none_iff {line : Bytes} {key : String} :
    inLine? key line = none ↔ ∀ value, ¬ Gives line key value := by
  rw [Option.eq_none_iff_forall_ne_some]
  constructor
  · intro h value hgives
    exact h _ (inLine?_eq_some_iff.mpr ⟨value, hgives, rfl⟩)
  · intro h on hon
    obtain ⟨value, hgives, -⟩ := inLine?_eq_some_iff.mp hon
    exact h value hgives

/-- A file is read line by line, up to the first that says something. -/
theorem inFile?_eq_findSome? (content : Bytes) (key : String) :
    inFile? content key = (pieces newline content).findSome? (inLine? key) := by
  rw [inFile?, ← List.head?_filterMap, List.filterMap_filterMap, List.head?_filterMap]
  rfl

/-- **One line of a file counts**, the first that gives the setting a value. -/
theorem inFile?_eq_some_iff {content : Bytes} {key : String} {on : Bool} :
    inFile? content key = some on ↔
      ∃ value, FirstGives content key value ∧ switchesOn value = on := by
  rw [inFile?_eq_findSome?, List.findSome?_eq_some_iff]
  constructor
  · rintro ⟨front, line, rest, hlines, hline, hfront⟩
    obtain ⟨value, hgives, hon⟩ := inLine?_eq_some_iff.mp hline
    exact ⟨value, ⟨front, line, rest, isCut_iff.mpr hlines.symm, hgives,
      fun earlier hearlier => inLine?_eq_none_iff.mp (hfront earlier hearlier)⟩, hon⟩
  · rintro ⟨value, ⟨front, line, rest, hcut, hgives, hfront⟩, hon⟩
    exact ⟨front, line, rest, (isCut_iff.mp hcut).symm,
      inLine?_eq_some_iff.mpr ⟨value, hgives, hon⟩,
      fun earlier hearlier => inLine?_eq_none_iff.mpr (hfront earlier hearlier)⟩

/-- **A file says nothing** of a setting if no line of it does. -/
theorem inFile?_eq_none_iff {content : Bytes} {key : String} :
    inFile? content key = none ↔
      ∀ lines, IsCut newline content lines → ∀ line ∈ lines, ∀ value, ¬ Gives line key value := by
  rw [inFile?_eq_findSome?, List.findSome?_eq_none_iff]
  simp only [isCut_iff, forall_eq, inLine?_eq_none_iff]

/-- Where some line gives a value, a first line gives one. -/
theorem exists_firstGives_iff {content : Bytes} {key : String} :
    (∃ value, FirstGives content key value) ↔
      ∃ lines, IsCut newline content lines ∧ ∃ line ∈ lines, ∃ value, Gives line key value := by
  constructor
  · rintro ⟨value, front, line, rest, hcut, hgives, -⟩
    exact ⟨_, hcut, line, List.mem_append_right _ List.mem_cons_self, value, hgives⟩
  · rintro ⟨lines, hcut, line, hline, value, hgives⟩
    have hsome : inFile? content key ≠ none := fun hnone =>
      inFile?_eq_none_iff.mp hnone lines hcut line hline value hgives
    obtain ⟨on, hon⟩ := Option.ne_none_iff_exists'.mp hsome
    obtain ⟨first, hfirst, -⟩ := inFile?_eq_some_iff.mp hon
    exact ⟨first, hfirst⟩

theorem inFile?_eq_none_of_not_firstGives {content : Bytes} {key : String}
    (h : ∀ value, ¬ FirstGives content key value) : inFile? content key = none := by
  rw [Option.eq_none_iff_forall_ne_some]
  intro on hon
  obtain ⟨value, hfirst, -⟩ := inFile?_eq_some_iff.mp hon
  exact h value hfirst

/-! ### The environment -/

theorem inEnvironment?_of_get? {environment : Environment} {key text : String} {value : List Char}
    (hget : environment.get? ("YUBIKEY_CONFIG_" ++ key) = some (Utf8.encode text))
    (hvalue : Blank.IsTrimmed text.toList value) :
    inEnvironment? environment key = some (switchesOn value) := by
  rw [inEnvironment?, Environment.text?, variableStart, hget, Option.bind_some,
    Utf8.decode?_encode, Option.map_some, Blank.isTrimmed_iff.mp hvalue]

theorem inEnvironment?_eq_none {environment : Environment} {key : String}
    (h : ∀ text, environment.get? ("YUBIKEY_CONFIG_" ++ key) ≠ some (Utf8.encode text)) :
    inEnvironment? environment key = none := by
  rw [inEnvironment?, Environment.text?, variableStart, Option.map_eq_none_iff,
    Option.bind_eq_none_iff]
  intro bytes hbytes
  rw [Option.eq_none_iff_forall_ne_some]
  intro text htext
  exact h text (Utf8.decode?_eq_some_iff.mp htext ▸ hbytes)

/-! ### Resolution -/

/-- What a setting comes out as: the word of the file, or else that of the environment, or else that
of the program. -/
theorem value_resolve (file : Option Bytes) (environment : Environment) (key : String)
    (fallback : Bool) :
    (resolve file environment key fallback).value =
      match file.bind (inFile? · key), inEnvironment? environment key with
      | some value, _ => ⟨value, .administrator⟩
      | none, some value => ⟨value, .user⟩
      | none, none => ⟨fallback, .program⟩ := by
  have hadministrator : (byAdministrator? file key).value = file.bind (inFile? · key) := by
    cases file <;> rfl
  rw [resolve, Logged.value_bind, hadministrator]
  cases file.bind (inFile? · key) with
  | some value => rfl
  | none => cases inEnvironment? environment key <;> rfl

/-- **Who decides on a setting.** If some line of the administrator's file gives a value, the first
such line decides, and neither another line nor the environment nor the program has a say. Else the
variable of the setting decides, if it is set to a text, and else the program. A value given as text
switches on if it is one of a few spellings, and off otherwise. -/
theorem resolve_decided (key : String) :
    (∀ content, (∃ value, FirstGives content key value) ↔
      ∃ lines, IsCut newline content lines ∧ ∃ line ∈ lines, ∃ value, Gives line key value) ∧
    (∀ content value, FirstGives content key value → ∀ environment fallback,
      ∃ on, (resolve (some content) environment key fallback).value = ⟨on, .administrator⟩ ∧
        (on = true ↔ SwitchesOn value)) ∧
    ∀ file : Option Bytes, (∀ content ∈ file, ∀ value, ¬ FirstGives content key value) →
      ∀ environment : Environment,
        (∀ text value, environment.get? ("YUBIKEY_CONFIG_" ++ key) = some (Utf8.encode text) →
          Blank.IsTrimmed text.toList value → ∀ fallback,
          ∃ on, (resolve file environment key fallback).value = ⟨on, .user⟩ ∧
            (on = true ↔ SwitchesOn value)) ∧
        ((∀ text, environment.get? ("YUBIKEY_CONFIG_" ++ key) ≠ some (Utf8.encode text)) →
          ∀ fallback, (resolve file environment key fallback).value = ⟨fallback, .program⟩) := by
  refine ⟨fun content => exists_firstGives_iff, fun content value hfirst environment fallback => ?_,
    fun file hnot environment => ?_⟩
  · refine ⟨switchesOn value, ?_, switchesOn_iff⟩
    rw [value_resolve, Option.bind_some, inFile?_eq_some_iff.mpr ⟨value, hfirst, rfl⟩]
  · have hfile : file.bind (inFile? · key) = none := by
      rw [Option.bind_eq_none_iff]
      exact fun content hcontent => inFile?_eq_none_of_not_firstGives (hnot content hcontent)
    constructor
    · intro text value hget hvalue fallback
      refine ⟨switchesOn value, ?_, switchesOn_iff⟩
      rw [value_resolve, hfile, inEnvironment?_of_get? hget hvalue]
    · intro hget fallback
      rw [value_resolve, hfile, inEnvironment?_eq_none hget]

end Setting

end TokenConfig
