import TokenConfig.Proofs.CommandLine.Reading
import TokenConfig.Proofs.Secrecy.Arguments

/-!
# Secrets on the command line

Which arguments of a command line hold secrets is decided while it is read: one that an option for
secrets waits for, one that begins with such an option and `=`, and one that is taken as the
operand. `TokenConfig.Command.redactedFrom` writes zeros in place of their digits, and leaves out
what comes after a fault; `TokenConfig.CommandLine.redactedLine` does so with the arguments of the
subcommand `otp`. At the same place two lines that redact to the same have the same argument, or
secrets that stand for as many bytes (`TokenConfig.Hex.redacted_eq_iff`).

**Reading commutes with redaction** (`TokenConfig.Command.parseFrom_redactedFrom`). The reason is
that the declaration of the subcommand is discreet (`TokenConfig.Command.Discreet`): whatever an
option for secrets is given, it takes. Also, text that stands for bytes is never taken for an option
(`TokenConfig.Hex.ofString_redacted`). So lines that redact to the same are refused alike, or ask
for the same but for secrets (`TokenConfig.CommandLine.reported_or_asks`).
-/

namespace TokenConfig

/-! ### Secrets -/

/-- The options of the subcommand `otp` that have a value in hexadecimal. -/
def secretOptions : List String :=
  ["access-code", "current-access-code", "public-id", "private-id", "key", "fixed", "uid"]

/-- Zeros in place of the digits of a value, if the option is for secrets. -/
def redactedValue (option value : String) : String :=
  if option ∈ secretOptions then Hex.redacted value else value

/-- Zeros in place of the digits of all secrets among the values of options. -/
def redactedValues (values : List (String × String)) : List (String × String) :=
  values.map fun given => (given.1, redactedValue given.1 given.2)

theorem lookup_redactedValues (values : List (String × String)) (option : String) :
    (redactedValues values).lookup option = (values.lookup option).map (redactedValue option) := by
  induction values with
  | nil => rfl
  | cons given rest ih =>
    obtain ⟨name, value⟩ := given
    rw [redactedValues] at ih ⊢
    rw [List.map_cons, List.lookup_cons, List.lookup_cons]
    by_cases hname : option = name
    · subst hname
      simp
    · rw [beq_false_of_ne hname]
      exact ih

namespace Hex

/-- What stands for bytes has no dash. -/
theorem Stands.not_mem {text : String} {bytes : Bytes} (h : Stands text bytes) :
    '-' ∉ text.toList := by
  have hspells : ∀ {middle bytes}, Spells middle bytes → '-' ∉ middle := by
    intro middle bytes h
    induction h with
    | nil => exact List.not_mem_nil
    | cons hhigh hlow hrest ih =>
      have hdigit : ∀ {value}, ¬ IsDigit value '-' := fun h => by cases h.value?_eq
      rw [List.mem_cons, List.mem_cons]
      rintro (rfl | rfl | hin)
      · exact hdigit hhigh
      · exact hdigit hlow
      · exact ih hin
  obtain ⟨middle, ⟨front, back, htext, hfront, hback, -⟩, hmiddle⟩ := h
  rw [htext, List.mem_append, List.mem_append]
  rintro ((hin | hin) | hin)
  · cases hfront _ hin
  · exact hspells hmiddle hin
  · cases hback _ hin

/-- **The form of an argument** is the same after redaction. -/
theorem ofString_redacted (text : String) :
    redacted text = text ∨
      Token.ofString text = .word ∧ Token.ofString (redacted text) = .word := by
  by_cases h : ∃ bytes, Stands text bytes
  · obtain ⟨bytes, hbytes⟩ := h
    rw [hbytes.redacted_eq]
    exact .inr ⟨Token.ofString_of_not_mem hbytes.not_mem,
      Token.ofString_of_not_mem (stands_encode bytes.redacted).not_mem⟩
  · exact .inl (redacted_eq_self (not_exists.mp h))

end Hex

theorem ofString_redactedValue (option value : String) :
    redactedValue option value = value ∨
      Token.ofString value = .word ∧ Token.ofString (redactedValue option value) = .word := by
  rw [redactedValue]
  split
  · exact Hex.ofString_redacted value
  · exact .inl rfl

/-- A long option is the same option with its value redacted. -/
theorem ofString_long_redactedValue {text option value : String}
    (h : Token.ofString text = .long option (some value)) :
    Token.ofString ("--" ++ option ++ "=" ++ redactedValue option value) =
      .long option (some (redactedValue option value)) :=
  Token.ofString_eq_long_some_iff.mpr ⟨rfl, (Token.ofString_eq_long_some_iff.mp h).2⟩

/-! ### Declarations -/

/-- An option for secrets has a value that may be anything, nothing in its place, and no short
form. -/
def CommandOption.Discreet (option : CommandOption) : Prop :=
  option.long ∈ secretOptions → option.short = none ∧
    ∃ name required, option.kind = .value name required none fun _ => true

/-- A declaration is discreet if no option looks into secrets, and where there are subcommands a
word can be nothing but the name of one. -/
inductive Command.Discreet : Command → Prop where
  /-- The same has to hold of the subcommands. -/
  | intro {command : Command} (options : ∀ option ∈ command.options, option.Discreet)
    (names : ∀ sub ∈ command.subcommands, Token.ofString sub.name = .word)
    (operand : command.subcommands ≠ [] → command.operand = none)
    (subcommands : ∀ sub ∈ command.subcommands, Discreet sub) : Discreet command

/-! ### Progress -/

namespace Progress

/-- Zeros in place of the digits of the secrets so far. -/
def redacted (progress : Progress) : Progress :=
  { progress with
    values := redactedValues progress.values
    operand := progress.operand.map Hex.redacted
    pending := progress.pending.map fun given => (given.1, redactedValue given.1.long given.2) }

/-- A word, with zeros in place of its digits if it is taken as the operand. -/
def redactedWord (progress : Progress) (command : Command) (text : String) : String :=
  if command.operand.isSome && progress.operand.isNone then Hex.redacted text else text

/-- An argument that names no subcommand, with zeros in place of the digits of a secret in it. -/
def redactedArgument (progress : Progress) (command : Command) (text : String) : String :=
  match progress.awaiting with
  | some option => redactedValue option.long text
  | none =>
    if progress.literal then progress.redactedWord command text
    else match Token.ofString text with
      | .word => progress.redactedWord command text
      | .long name (some value) => "--" ++ name ++ "=" ++ redactedValue name value
      | .escape | .long _ none | .short _ => text

/-- The options whose values have not been looked at are discreet. -/
structure Discreet (progress : Progress) : Prop where
  /-- The one with a value is. -/
  pending : ∀ given ∈ progress.pending, given.1.Discreet
  /-- The one that waits for its value is. -/
  awaiting : ∀ option ∈ progress.awaiting, option.Discreet

theorem discreet_start : start.Discreet :=
  ⟨by simp [start], by simp [start]⟩

/-- A step of the reading, and the same step on redacted progress: both interrupt the reading in the
same way, or they come to the same but for redaction. -/
inductive Redacts : Except Interruption Progress → Except Interruption Progress → Prop where
  /-- The reading goes on. -/
  | ok {progress : Progress} (h : progress.Discreet) :
    Redacts (.ok progress) (.ok progress.redacted)
  /-- The reading ends. -/
  | error (interruption : Interruption) : Redacts (.error interruption) (.error interruption)

theorem Redacts.bind {step zeroed : Except Interruption Progress}
    {next zeroedNext : Progress → Except Interruption Progress} (h : Redacts step zeroed)
    (hnext : ∀ progress, step = .ok progress → progress.Discreet →
      Redacts (next progress) (zeroedNext progress.redacted)) :
    Redacts (step >>= next) (zeroed >>= zeroedNext) := by
  cases h with
  | ok h => exact hnext _ rfl h
  | error interruption => exact .error interruption

/-- What follows a step of the reading commutes with redaction too. -/
theorem Redacts.bind_eq_map {α : Type} {step zeroed : Except Interruption Progress}
    {next zeroedNext : Progress → Except Interruption α} {zero : α → α} (h : Redacts step zeroed)
    (hnext : ∀ progress : Progress, progress.Discreet →
      zeroedNext progress.redacted = (next progress).map zero) :
    zeroed >>= zeroedNext = (step >>= next).map zero := by
  cases h with
  | ok h => exact hnext _ h
  | error interruption => rfl

variable {progress : Progress}

/-- A discreet option takes in a redacted value as it does the value. -/
theorem redacts_accept (hprogress : progress.Discreet) {option : CommandOption}
    (hoption : option.Discreet) (value : String) :
    Redacts (progress.accept option value)
      (progress.redacted.accept option (redactedValue option.long value)) := by
  have hseen : (progress.redacted.values.lookup option.long).isSome =
      (progress.values.lookup option.long).isSome := by
    rw [redacted, lookup_redactedValues, Option.isSome_map]
  have htaken : { progress.redacted with
        values := progress.redacted.values ++ [(option.long, redactedValue option.long value)] } =
      redacted { progress with values := progress.values ++ [(option.long, value)] } := by
    rw [redacted, redacted, redactedValues, redactedValues, List.map_append]
    rfl
  rw [accept, accept, hseen, htaken]
  by_cases hsecret : option.long ∈ secretOptions
  · obtain ⟨-, name, required, hkind⟩ := hoption hsecret
    simp only [hkind]
    split
    · exact .error _
    · exact .ok ⟨hprogress.pending, hprogress.awaiting⟩
  · rw [redactedValue, if_neg hsecret]
    cases option.kind with
    | value name required fallback accepts =>
      dsimp only
      split
      · exact .error _
      · split
        · exact .ok ⟨hprogress.pending, hprogress.awaiting⟩
        · exact .error _
    | flag | help | version => exact .error _

theorem redacts_settle (hprogress : progress.Discreet) :
    Redacts progress.settle progress.redacted.settle := by
  obtain ⟨values, flags, operand, pending, awaiting, literal⟩ := progress
  cases awaiting with
  | some option => exact .error _
  | none =>
    cases pending with
    | none => exact .ok hprogress
    | some given => exact redacts_accept ⟨by simp, by simp⟩ (hprogress.pending given rfl) given.2

/-- Looking at a value leaves the operand as it is. -/
theorem operand_of_settle {settled : Progress} (h : progress.settle = .ok settled) :
    settled.operand = progress.operand := by
  unfold settle accept at h
  grind

/-- A discreet option is taken alike. -/
theorem redacts_option (hprogress : progress.Discreet) (command : Command)
    {option : CommandOption} (hoption : option.Discreet) (attached : Option String) :
    Redacts (progress.option command option attached)
      (progress.redacted.option command option (attached.map (redactedValue option.long))) := by
  refine (redacts_settle hprogress).bind fun settled _ hsettled => ?_
  cases hkind : option.kind with
  | value name required fallback accepts =>
    cases attached with
    | some value => exact redacts_accept hsettled hoption value
    | none => exact .ok ⟨hsettled.pending, fun _ h => Option.some.inj h ▸ hoption⟩
  | flag =>
    cases attached with
    | some value => exact .error _
    | none =>
      have hflags : settled.redacted.flags = settled.flags := rfl
      simp only [Option.map_none, hflags]
      split
      · exact .error _
      · exact .ok ⟨hsettled.pending, hsettled.awaiting⟩
  | help | version => cases attached <;> exact .error _

/-- Options in their short form are not for secrets. -/
theorem redacts_letters {command : Command} (hcommand : ∀ option ∈ command.options, option.Discreet)
    (letters : List Char) (hprogress : progress.Discreet) :
    Redacts (progress.letters command letters) (progress.redacted.letters command letters) := by
  induction letters generalizing progress with
  | nil => exact .ok hprogress
  | cons letter rest ih =>
    rw [Progress.letters, Progress.letters]
    cases hfound : command.options.find? fun option => option.short == some letter with
    | none => exact .error _
    | some found =>
      have hdiscreet := hcommand found (List.mem_of_find?_eq_some hfound)
      have hshort : found.short = some letter := by simpa using List.find?_some hfound
      have hopen : found.long ∉ secretOptions := fun hsecret => by
        cases hshort.symm.trans (hdiscreet hsecret).1
      have hplain : ∀ attached : Option String, Redacts (progress.option command found attached)
          (progress.redacted.option command found attached) := by
        intro attached
        have hsame : attached.map (redactedValue found.long) = attached := by
          cases attached <;> simp [redactedValue, hopen]
        simpa only [hsame] using redacts_option hprogress command hdiscreet attached
      have hgoes : Redacts (progress.option command found none >>= (·.letters command rest))
          (progress.redacted.option command found none >>= (·.letters command rest)) :=
        (hplain none).bind fun next _ hnext => ih hnext
      dsimp only
      split
      · exact hplain _
      · exact hplain _
      · exact hplain _
      · exact hgoes

/-- A word is taken as the operand, or for none. -/
theorem redacts_word (hprogress : progress.Discreet) (command : Command) (text : String) :
    Redacts (progress.word command text)
      (progress.redacted.word command (progress.redactedWord command text)) := by
  refine (redacts_settle hprogress).bind fun settled hsettle hsettled => ?_
  have hoperand : settled.redacted.operand = settled.operand.map Hex.redacted := rfl
  rw [redactedWord, ← operand_of_settle hsettle, hoperand]
  cases command.operand with
  | none => exact .error _
  | some operand =>
    cases settled.operand with
    | none =>
      rw [Option.isSome_some, Option.isNone_none, Bool.and_self, if_pos rfl]
      exact .ok ⟨hsettled.pending, hsettled.awaiting⟩
    | some taken => exact .error _

theorem ofString_redactedWord {text : String} (h : Token.ofString text = .word)
    (command : Command) : Token.ofString (progress.redactedWord command text) = .word := by
  rw [redactedWord]
  split
  · rcases Hex.ofString_redacted text with hsame | ⟨-, hredacted⟩
    · rw [hsame, h]
    · exact hredacted
  · exact h

section Advance

variable {command : Command} (hcommand : ∀ option ∈ command.options, option.Discreet)
  (hprogress : progress.Discreet)
include hcommand hprogress

/-- Options in their long form are found by their names, and have the values of these. -/
theorem redacts_long (name : String) (attached : Option String) :
    Redacts
      (match command.options.find? fun option => option.long == name with
        | some found => progress.option command found attached
        | none => .error (.fault (.unknownOption ("--" ++ name))))
      (match command.options.find? fun option => option.long == name with
        | some found =>
          progress.redacted.option command found (attached.map (redactedValue name))
        | none => .error (.fault (.unknownOption ("--" ++ name)))) := by
  cases hfound : command.options.find? fun option => option.long == name with
  | none => exact .error _
  | some found =>
    obtain rfl : found.long = name := by simpa using List.find?_some hfound
    exact redacts_option hprogress command (hcommand found (List.mem_of_find?_eq_some hfound))
      attached

/-- **One argument** is read alike. -/
theorem redacts_advance (text : String) :
    Redacts (progress.advance command text)
      (progress.redacted.advance command (progress.redactedArgument command text)) := by
  have hawaiting : progress.redacted.awaiting = progress.awaiting := rfl
  have hliteral : progress.redacted.literal = progress.literal := rfl
  have hword := redacts_word hprogress command text
  have hlong := redacts_long hcommand hprogress
  rw [advance, advance, redactedArgument, hawaiting, hliteral]
  cases hoption : progress.awaiting with
  | some option =>
    have hgiven : Redacts
        (.ok { progress with awaiting := none, pending := some (option, text) })
        (.ok { progress.redacted with
          awaiting := none, pending := some (option, redactedValue option.long text) }) :=
      .ok ⟨fun _ h => Option.some.inj h ▸ hprogress.awaiting option hoption, by simp⟩
    dsimp only
    rcases ofString_redactedValue option.long text with hsame | ⟨hform, hredacted⟩
    · rw [hsame] at hgiven ⊢
      split
      · exact hgiven
      · exact .error _
    · rw [hform, hredacted]
      exact hgiven
  | none =>
    dsimp only
    split
    · exact hword
    · cases hform : Token.ofString text with
      | word =>
        simp only [ofString_redactedWord hform]
        exact hword
      | escape =>
        simp only [hform]
        exact .ok ⟨hprogress.pending, by simp⟩
      | short letters =>
        simp only [hform]
        exact redacts_letters hcommand letters hprogress
      | long name attached =>
        cases attached with
        | none =>
          simp only [hform]
          exact hlong name none
        | some value =>
          simp only [ofString_long_redactedValue hform]
          exact hlong name (some value)

end Advance

/-! ### The end of the arguments -/

/-- An option that was not given has nothing in its place that redaction changes. -/
theorem finalValue_redacted {option : CommandOption} (hoption : option.Discreet) :
    progress.redacted.finalValue option = (progress.finalValue option).map redactedValues := by
  rw [finalValue, finalValue, redacted, lookup_redactedValues]
  cases hkind : option.kind with
  | value name required fallback accepts =>
    dsimp only
    cases progress.values.lookup option.long with
    | some value => rfl
    | none =>
      cases fallback with
      | some value =>
        have hopen : option.long ∉ secretOptions := fun hsecret => by
          obtain ⟨-, _, _, hnone⟩ := hoption hsecret
          cases hkind.symm.trans hnone
        simp [Except.map, redactedValues, redactedValue, hopen]
      | none => cases required <;> rfl
  | flag | help | version => rfl

theorem finalValues_redacted {options : List CommandOption}
    (hoptions : ∀ option ∈ options, option.Discreet) :
    progress.redacted.finalValues options =
      (progress.finalValues options).map redactedValues := by
  induction options with
  | nil => rfl
  | cons option rest ih =>
    obtain ⟨hoption, hrest⟩ := List.forall_mem_cons.mp hoptions
    rw [finalValues, finalValues, finalValue_redacted hoption, ih hrest]
    cases progress.finalValue option with
    | error interruption => rfl
    | ok front =>
      cases progress.finalValues rest with
      | error interruption => rfl
      | ok back => exact congrArg Except.ok List.map_append.symm

end Progress

/-- Zeros in place of the digits of the secrets among what arguments say. -/
def Matches.redacted (found : Matches) : Matches :=
  { found with
    values := redactedValues found.values
    operand := found.operand.map Hex.redacted }

/-- **The end of the arguments** is the same after redaction. -/
theorem Progress.finish_redacted {command : Command}
    (hcommand : ∀ option ∈ command.options, option.Discreet) {progress : Progress}
    (hprogress : progress.Discreet) :
    progress.redacted.finish command = (progress.finish command).map Matches.redacted := by
  refine (redacts_settle hprogress).bind_eq_map fun settled _ => ?_
  have hoperand : settled.redacted.operand = settled.operand.map Hex.redacted := rfl
  rw [finalValues_redacted hcommand, hoperand]
  cases settled.finalValues command.options with
  | error interruption => rfl
  | ok values => cases command.operand <;> cases settled.operand <;> rfl

/-! ### All arguments -/

namespace Command

variable {command : Command} {progress : Progress}

theorem mem_of_subcommand? {sub : Command} {text : String}
    (h : progress.subcommand? command text = some sub) : sub ∈ command.subcommands := by
  rw [Progress.subcommand?] at h
  split at h
  · exact List.mem_of_find?_eq_some h
  · cases h

/-- A word that is no option is among the arguments after redaction if it was before, where it may
be a subcommand. -/
theorem redactedArgument_eq_iff (hoperand : command.operand = none)
    (hword : progress.atWord = true) {name : String} (hname : Token.ofString name = .word)
    (text : String) : progress.redactedArgument command text = name ↔ text = name := by
  have hwhole : progress.redactedWord command text = text := by
    rw [Progress.redactedWord, hoperand]
    rfl
  obtain ⟨hawaiting, hliteral⟩ : progress.awaiting = none ∧ progress.literal = false := by
    simpa [Progress.atWord] using hword
  rw [Progress.redactedArgument, hawaiting, hliteral]
  dsimp only
  split
  · contradiction
  · split
    · rw [hwhole]
    · next option value hform =>
      -- an option is no word, redacted or not
      refine iff_of_false ?_ ?_ <;> rintro rfl
      · cases (ofString_long_redactedValue hform).symm.trans hname
      · cases hform.symm.trans hname
    all_goals rfl

theorem subcommand?_redactedArgument (hcommand : command.Discreet) {text : String}
    (h : progress.subcommand? command text = none) :
    progress.redacted.subcommand? command (progress.redactedArgument command text) = none := by
  have hatWord : progress.redacted.atWord = progress.atWord := rfl
  rw [Progress.subcommand?] at h ⊢
  rw [hatWord]
  split
  · next hword =>
    rw [if_pos hword, subcommand?, List.find?_eq_none] at h
    rw [subcommand?, List.find?_eq_none]
    intro sub hsub hnamed
    obtain ⟨-, hnames, hoperand, -⟩ := hcommand
    have hsame := redactedArgument_eq_iff (hoperand (List.ne_nil_of_mem hsub)) hword
      (hnames sub hsub) text
    exact h sub hsub (beq_iff_eq.mpr (hsame.mp (beq_iff_eq.mp hnamed).symm).symm)
  · rfl

/-- Whether help is asked for does not depend on secrets. -/
theorem asksHelp_redactedArgument (hcommand : command.Discreet) (text : String) :
    (progress.redacted.atWord && command.hasHelp &&
      progress.redactedArgument command text == helpName) =
        (progress.atWord && command.hasHelp && text == helpName) := by
  have hatWord : progress.redacted.atWord = progress.atWord := rfl
  rw [hatWord, Bool.eq_iff_iff]
  simp only [Bool.and_eq_true, beq_iff_eq]
  refine and_congr_right fun ⟨hword, hhas⟩ => ?_
  have hne : command.subcommands ≠ [] := by simpa [hasHelp] using hhas
  obtain ⟨-, -, hoperand, -⟩ := hcommand
  exact redactedArgument_eq_iff (hoperand hne) hword (by decide) text

/-- The arguments with zeros in place of the digits of the secrets among them, when some have been
read before. Names of subcommands stay, and so does all that is asked help on. What follows a fault
is left out, as it is not read. -/
def redactedFrom (command : Command) (progress : Progress) : List String → List String
  | [] => []
  | text :: rest =>
    match progress.subcommand? command text with
    | some sub => text :: sub.redactedFrom .start rest
    | none =>
      if progress.atWord && command.hasHelp && text == helpName then text :: rest
      else progress.redactedArgument command text ::
        match progress.advance command text with
        | .ok next => command.redactedFrom next rest
        | .error _ => []

/-- **Reading commutes with redaction.** -/
theorem parseFrom_redactedFrom (hcommand : command.Discreet) (hprogress : progress.Discreet)
    (line : List String) :
    command.parseFrom progress.redacted (command.redactedFrom progress line) =
      (command.parseFrom progress line).map Matches.redacted := by
  induction line generalizing command progress with
  | nil =>
    obtain ⟨hoptions, -, -, -⟩ := hcommand
    rw [redactedFrom, parseFrom, parseFrom]
    split
    · exact Progress.finish_redacted hoptions hprogress
    · rfl
  | cons text rest ih =>
    have hsame : progress.redacted.subcommand? command = progress.subcommand? command := rfl
    have hatWord : progress.redacted.atWord = progress.atWord := rfl
    obtain ⟨hoptions, -, -, hsubcommands⟩ := id hcommand
    rw [redactedFrom, parseFrom]
    cases hsub : progress.subcommand? command text with
    | some sub =>
      have hinner := ih (hsubcommands sub (mem_of_subcommand? hsub)) Progress.discreet_start
      have hstart : Progress.start.redacted = .start := rfl
      simp only [parseFrom, hsame, hsub, Progress.finish_redacted hoptions hprogress]
      rw [hstart] at hinner
      rw [hinner]
      cases sub.parseFrom .start rest with
      | error interruption => rfl
      | ok inner =>
        cases progress.finish command with
        | error interruption => rfl
        | ok outer =>
          exact congrArg Except.ok (congrArg (Matches.mk _ · _ _) List.map_append.symm)
    | none =>
      have hnone := subcommand?_redactedArgument hcommand hsub
      have hhelp := @asksHelp_redactedArgument command progress hcommand text
      dsimp only
      split
      · next hasked =>
        rw [parseFrom, hsame, hsub, hatWord]
        dsimp only
        rw [if_pos hasked]
        rfl
      · next hasked =>
        have hstep := Progress.redacts_advance hoptions hprogress text
        rw [parseFrom, hnone]
        dsimp only
        rw [hhelp, if_neg hasked]
        generalize progress.advance command text = step,
          progress.redacted.advance _ _ = zeroed at hstep ⊢
        cases hstep with
        | error interruption => rfl
        | ok hnext => exact ih hcommand hnext

end Command

/-! ### The subcommand `otp` -/

namespace CommandLine

theorem discreet_of_not_mem {option : CommandOption} (h : option.long ∉ secretOptions) :
    option.Discreet :=
  fun hsecret => absurd hsecret h

theorem discreet_textOption (long name summary : String) :
    (textOption long name summary).Discreet :=
  fun _ => ⟨rfl, name, false, rfl⟩

theorem discreet_requiredOption (long name summary : String) :
    (requiredOption long name summary).Discreet :=
  fun _ => ⟨rfl, name, true, rfl⟩

theorem discreet_leaf (name summary : String) {options : List CommandOption}
    (h : ∀ option ∈ options, option.Discreet) (operand : Option (String × String)) :
    (leaf name summary options operand).Discreet := by
  refine .intro ?_ (List.forall_mem_nil _) (absurd rfl) (List.forall_mem_nil _)
  exact List.forall_mem_append.mpr
    ⟨h, List.forall_mem_singleton.mpr (discreet_of_not_mem (by decide))⟩

/-- **The declaration of the subcommand is discreet.** -/
theorem discreet_otpCommand : otpCommand.Discreet := by
  have htext := discreet_textOption
  have hrequired := discreet_requiredOption
  refine .intro ?_ (by decide) (fun _ => rfl) ?_
  · simp only [otpCommand, List.forall_mem_cons]
    exact ⟨discreet_of_not_mem (by decide), htext _ _ _, htext _ _ _,
      discreet_of_not_mem (by decide), List.forall_mem_nil _⟩
  · have hflag : ∀ {long summary}, long ∉ secretOptions → (flagOption long summary).Discreet :=
      fun h => discreet_of_not_mem h
    simp only [otpCommand, presets, List.forall_mem_cons]
    refine ⟨discreet_leaf _ _ ?_ _, discreet_leaf _ _ ?_ _, discreet_leaf _ _ ?_ _,
      discreet_leaf _ _ ?_ _, discreet_leaf _ _ ?_ _, discreet_leaf _ _ ?_ _,
      List.forall_mem_nil _⟩
    · simp only [List.forall_mem_cons]
      exact ⟨hrequired _ _ _, htext _ _ _, htext _ _ _, hflag (by decide), List.forall_mem_nil _⟩
    · simp only [List.forall_mem_cons]
      exact ⟨htext _ _ _, hflag (by decide), hflag (by decide), List.forall_mem_nil _⟩
    · simp only [List.forall_mem_cons]
      exact ⟨htext _ _ _, hflag (by decide), hflag (by decide), List.forall_mem_nil _⟩
    · exact List.forall_mem_nil _
    · simp only [List.forall_mem_cons]
      exact ⟨hrequired _ _ _, hrequired _ _ _, hrequired _ _ _, List.forall_mem_nil _⟩
    · exact List.forall_mem_nil _

/-- The values of options for secrets, and of the others. -/
theorem value?_redacted (found : Matches) :
    (∀ option ∈ secretOptions,
      found.redacted.value? option = (found.value? option).map Hex.redacted) ∧
    ∀ option ∉ secretOptions, found.redacted.value? option = found.value? option := by
  have hvalue : ∀ option, found.redacted.value? option =
      (found.value? option).map (redactedValue option) :=
    lookup_redactedValues found.values
  refine ⟨fun option hsecret => ?_, fun option hopen => ?_⟩
  · rw [hvalue]
    exact congrArg (Option.map · _) (funext fun value => if_pos hsecret)
  · rw [hvalue, show redactedValue option = id from funext fun value => if_neg hopen]
    exact Option.map_id_apply

theorem preset?_redacted (name : String) (found : Matches) :
    preset? name found.redacted = (preset? name found).map Otp.Preset.redacted := by
  obtain ⟨hsecret, -⟩ := value?_redacted found
  have hhas : found.redacted.has = found.has := rfl
  have hoperand : found.redacted.operand = found.operand.map Hex.redacted := rfl
  unfold preset?
  rw [hhas, hoperand]
  split
  · rw [hsecret "public-id" (by decide), hsecret "private-id" (by decide),
      hsecret "key" (by decide)]
    cases found.value? "public-id" <;> rfl
  · rw [hsecret "key" (by decide)]
    rfl
  · rw [hsecret "key" (by decide)]
    rfl
  · cases found.operand <;> rfl
  · rw [hsecret "fixed" (by decide), hsecret "uid" (by decide), hsecret "key" (by decide)]
    cases found.value? "fixed" <;> cases found.value? "uid" <;> cases found.value? "key" <;> rfl
  · rfl
  · rfl

/-- What is asked for commutes with redaction. -/
theorem invocation?_redacted (found : Matches) {names : List String}
    (hpath : found.path = "otp" :: names) :
    ∃ asked : Option Otp.Arguments, invocation? found = asked.map .otp ∧
      invocation? found.redacted = (asked.map Otp.Arguments.redacted).map .otp := by
  obtain ⟨hsecret, hopen⟩ := value?_redacted found
  have hsame : found.redacted.path = found.path := rfl
  unfold invocation?
  rw [hsame, hpath]
  split
  · next hversion => exact absurd (List.cons.inj hversion).1 (by decide)
  · next name _ =>
    rw [hopen "slot" (by decide), hsecret "access-code" (by decide),
      hsecret "current-access-code" (by decide), preset?_redacted]
    cases found.value? "slot" with
    | none => exact ⟨none, rfl, rfl⟩
    | some slot =>
      dsimp only [Option.bind_eq_bind, Option.bind_some]
      cases (Slot.parse slot).toOption with
      | none => exact ⟨none, rfl, rfl⟩
      | some slot =>
        cases preset? name found with
        | none => exact ⟨none, rfl, rfl⟩
        | some preset => exact ⟨some ⟨slot, _, _, preset⟩, rfl, rfl⟩
  · next hinfo => exact absurd (List.cons.inj hinfo).1 (by decide)
  · exact ⟨none, rfl, rfl⟩

/-- The arguments of the subcommand with zeros in place of the digits of the secrets among them. -/
def redactedLine (line : List String) : List String :=
  otpCommand.redactedFrom .start line

theorem parse_redactedLine (line : List String) :
    otpCommand.parse (redactedLine line) = (otpCommand.parse line).map Matches.redacted :=
  Command.parseFrom_redactedFrom discreet_otpCommand Progress.discreet_start line

example : redactedLine ["-s1", "--access-code", "12fF", "static-password", "--", " 0a0B "] =
    ["-s1", "--access-code", "0000", "static-password", "--", "0000"] := by
  decide +kernel

/-- Lines that redact to the same cannot be read for the same reason, or say the same but for
secrets. -/
theorem parse_alike {line other : List String} (h : redactedLine line = redactedLine other) :
    (∃ interruption, program.parse ("otp" :: line) = .error interruption ∧
      program.parse ("otp" :: other) = .error interruption) ∨
    ∃ inner otherInner : Matches, inner.redacted = otherInner.redacted ∧
      program.parse ("otp" :: line) = .ok { inner with path := "otp" :: inner.path } ∧
      program.parse ("otp" :: other) =
        .ok { otherInner with path := "otp" :: otherInner.path } := by
  have hread : (otpCommand.parse line).map Matches.redacted =
      (otpCommand.parse other).map Matches.redacted := by
    rw [← parse_redactedLine, h, parse_redactedLine]
  have hparse := @Command.parse_cons_of_subcommand program otpCommand "otp" rfl rfl
  rw [hparse, hparse]
  generalize otpCommand.parse line = read, otpCommand.parse other = otherRead at hread ⊢
  cases read <;> cases otherRead
  case error.error interruption otherInterruption =>
    obtain rfl : interruption = otherInterruption := Except.error.inj hread
    exact .inl ⟨_, rfl, rfl⟩
  case ok.ok inner otherInner => exact .inr ⟨inner, otherInner, Except.ok.inj hread, rfl, rfl⟩
  all_goals cases hread

/-- **Lines that redact to the same** end in the same report wherever they are given, or ask for
arguments that redact to the same. -/
theorem reported_or_asks {line other : List String} (h : redactedLine line = redactedLine other) :
    (∃ report, ∀ surroundings, run surroundings ("otp" :: line) = report ∧
      run surroundings ("otp" :: other) = report) ∨
    ∃ arguments otherArguments, Asks ("otp" :: line) (.otp arguments) ∧
      Asks ("otp" :: other) (.otp otherArguments) ∧
      arguments.redacted = otherArguments.redacted := by
  rcases parse_alike h with
    ⟨interruption, hline, hother⟩ | ⟨inner, otherInner, hsame, hline, hother⟩
  · refine .inl ⟨interrupted interruption, fun surroundings => ?_⟩
    rw [run, hline, run, hother]
    exact ⟨rfl, rfl⟩
  · obtain ⟨asked, hasked, hredacted⟩ :=
      invocation?_redacted { inner with path := "otp" :: inner.path } rfl
    obtain ⟨otherAsked, hotherAsked, hotherRedacted⟩ :=
      invocation?_redacted { otherInner with path := "otp" :: otherInner.path } rfl
    have hmap : asked.map Otp.Arguments.redacted = otherAsked.map Otp.Arguments.redacted := by
      refine Option.map_injective (fun _ _ => Invocation.otp.inj) ?_
      rw [← hredacted, ← hotherRedacted]
      exact congrArg (fun found : Matches =>
        invocation? { found with path := "otp" :: found.path }) hsame
    cases asked <;> cases otherAsked <;> simp only [Option.map_none, Option.map_some, reduceCtorEq,
      Option.some.injEq] at hmap
    case none.none =>
      refine .inl ⟨interrupted (.fault (.missing "COMMAND")), fun surroundings => ?_⟩
      simp only [run, hline, hother, hasked, hotherAsked, Option.map_none, and_self]
    case some.some arguments otherArguments =>
      refine .inr ⟨arguments, otherArguments, ?_, ?_, hmap⟩
      · rw [Asks, hline]
        exact hasked
      · rw [Asks, hother]
        exact hotherAsked

end CommandLine

end TokenConfig
