import Mathlib.Data.List.Nodup
import TokenConfig.CommandLine.Grammar

/-!
# How arguments are read

What is known of `TokenConfig.Command.parse` for any declaration: what the form of an argument says
about its text, and how the reading goes on after a subcommand and after an argument that is none.

What options, flags and an operand are to say can be written down, each value in the argument of its
option (`TokenConfig.Command.wordsOf`). A command that declares them reads it back, whatever
characters the values and the operand have (`TokenConfig.Command.Declares.parse_wordsOf`).
-/

namespace TokenConfig

/-! ### One argument -/

namespace Token

/-- What has no dash is no option. -/
theorem ofString_of_not_mem {text : String} (h : '-' ∉ text.toList) : ofString text = .word := by
  unfold ofString
  split
  · rfl
  · next hchars => exact absurd (hchars ▸ List.mem_cons_self) h
  · next hchars => exact absurd (hchars ▸ List.mem_cons_self) h
  · next hchars => exact absurd (hchars ▸ List.mem_cons_self) h
  · rfl

/-- A long option has its value behind the first `=`. -/
theorem ofString_eq_long_some_iff {text name value : String} :
    ofString text = .long name (some value) ↔
      text = "--" ++ name ++ "=" ++ value ∧ '=' ∉ name.toList := by
  have hchars : ("--" ++ name ++ "=" ++ value).toList =
      '-' :: '-' :: (name.toList ++ '=' :: value.toList) := by
    simp [String.toList_append]
  constructor
  · intro h
    unfold ofString at h
    split at h
    case h_3 rest _ htext =>
      split at h
      case h_1 front after hsplit =>
        obtain ⟨rfl, hrest⟩ := Token.long.inj h
        obtain rfl := Option.some.inj hrest
        obtain ⟨rfl, hfront⟩ := splitFirst?_eq_some_iff.mp hsplit
        refine ⟨String.toList_injective ?_, ?_⟩
        · rw [htext, hchars, String.toList_ofList, String.toList_ofList]
        · rwa [String.toList_ofList]
      case h_2 => cases (Token.long.inj h).2
    all_goals cases h
  · rintro ⟨rfl, hname⟩
    have hsplit : splitFirst? '=' (name.toList ++ '=' :: value.toList) =
        some (name.toList, value.toList) := splitFirst?_eq_some_iff.mpr ⟨rfl, hname⟩
    unfold ofString
    rw [hchars]
    split
    case h_3 rest _ htext =>
      obtain rfl : _ = rest := (List.cons.inj (List.cons.inj htext).2).2
      simp only [hsplit, String.ofList_toList]
    case h_4 hno hchars => exact absurd (List.cons.inj hchars).2.symm (hno _)
    all_goals simp_all

end Token

/-! ### All arguments -/

namespace Command

variable {command : Command}

/-- A command without subcommands takes its arguments one after another. -/
theorem parseFrom_cons (hleaf : command.subcommands = []) {progress next : Progress}
    {text : String} (h : progress.advance command text = .ok next) (rest : List String) :
    command.parseFrom progress (text :: rest) = command.parseFrom next rest := by
  have hsub : progress.subcommand? command text = none := by
    rw [Progress.subcommand?, Command.subcommand?, hleaf, List.find?_nil, ite_self]
  have hhelp : command.hasHelp = false := by
    rw [Command.hasHelp, hleaf]
    rfl
  rw [Command.parseFrom, hsub, hhelp, Bool.and_false, Bool.false_and, h]
  rfl

/-- The name of a subcommand hands the rest over to it, where the command itself has been given
nothing and needs nothing. -/
theorem parse_cons_of_subcommand {sub : Command} {name : String}
    (hsub : Progress.start.subcommand? command name = some sub)
    (hfinish : Progress.start.finish command = .ok ⟨[], [], [], none⟩) (rest : List String) :
    command.parse (name :: rest) = match sub.parse rest with
      | .error interruption => .error (interruption.under sub.name)
      | .ok inner => .ok { inner with path := sub.name :: inner.path } := by
  simp only [parse, parseFrom, hsub, hfinish]
  cases sub.parseFrom .start rest <;> rfl

/-! ### Arguments that are written down -/

/-- The arguments that give values to options, set flags, and have an operand behind two dashes. -/
def wordsOf (values : List (String × Option String)) (flags : List (String × Bool))
    (operand : Option String) : List String :=
  values.flatMap (fun one => one.2.toList.map fun value => "--" ++ one.1 ++ "=" ++ value) ++
    (flags.flatMap (fun one => if one.2 then ["--" ++ one.1] else []) ++
      operand.toList.flatMap fun text => ["--", text])

/-- The options that have values. -/
def valuesGiven (values : List (String × Option String)) : List (String × String) :=
  values.flatMap fun one => one.2.toList.map fun value => (one.1, value)

/-- The flags that are set. -/
def flagsSet (flags : List (String × Bool)) : List String :=
  flags.flatMap fun one => if one.2 then [one.1] else []

theorem lookup_eq_none_of_not_mem {α : Type} {values : List (String × α)} {name : String}
    (h : name ∉ values.map Prod.fst) : values.lookup name = none := by
  refine List.lookup_eq_none_iff.mpr fun one hone => bne_iff_ne.mpr fun hsame => h ?_
  exact List.mem_map.mpr ⟨one, hone, hsame.symm⟩

/-- The value of an option among those that have values. -/
theorem lookup_valuesGiven {values : List (String × Option String)}
    (h : (values.map Prod.fst).Nodup) (name : String) :
    (valuesGiven values).lookup name = (values.lookup name).join := by
  induction values with
  | nil => rfl
  | cons one values ih =>
    obtain ⟨other, value⟩ := one
    obtain ⟨hnew, hnodup⟩ := List.nodup_cons.mp h
    rw [valuesGiven, List.flatMap_cons, List.lookup_append, ← valuesGiven, ih hnodup,
      List.lookup_cons]
    by_cases hname : name = other
    · subst hname
      rw [lookup_eq_none_of_not_mem hnew, beq_self_eq_true]
      cases value with
      | none => rfl
      | some text => simp
    · rw [beq_false_of_ne hname]
      cases value with
      | none => rfl
      | some text => simp [hname]

/-- A command has an option that takes a value. -/
def Takes (command : Command) (name value : String) : Prop :=
  '=' ∉ name.toList ∧
    ∃ option, command.options.find? (fun option => option.long == name) = some option ∧
      ∃ shown required fallback accepts,
        option.kind = .value shown required fallback accepts ∧ accepts value = true

/-- A command has a flag. -/
def HasFlag (command : Command) (name : String) : Prop :=
  Token.ofString ("--" ++ name) = .long name none ∧
    ∃ option, command.options.find? (fun option => option.long == name) = some option ∧
      option.kind = .flag

/-- A command without subcommands declares the options, the flags and the operand. -/
structure Declares (command : Command) (values : List (String × Option String))
    (flags : List (String × Bool)) (operand : Option String) : Prop where
  /-- It has no subcommands. -/
  leaf : command.subcommands = []
  /-- Its options take the values. -/
  takes : ∀ one ∈ values, ∀ value ∈ one.2, command.Takes one.1 value
  /-- No option comes twice. -/
  nodup : (values.map Prod.fst).Nodup
  /-- It has the flags. -/
  hasFlag : ∀ one ∈ flags, command.HasFlag one.1
  /-- No flag comes twice. -/
  nodup_flags : (flags.map Prod.fst).Nodup
  /-- It takes an operand if there is one. -/
  operand : operand.isSome → command.operand.isSome

/-- No subcommand has the name of an option. -/
def NamesSubcommands (command : Command) : Prop :=
  ∀ sub ∈ command.subcommands, Token.ofString sub.name = .word

/-- An option is no subcommand, so it is read by the command itself. -/
theorem parseFrom_cons_of_ne_word (hnames : command.NamesSubcommands)
    {progress next : Progress} {text : String} (htext : Token.ofString text ≠ .word)
    (h : progress.advance command text = .ok next) (rest : List String) :
    command.parseFrom progress (text :: rest) = command.parseFrom next rest := by
  have hsub : progress.subcommand? command text = none := by
    rw [Progress.subcommand?]
    split
    · refine List.find?_eq_none.mpr fun sub hsub hname => htext ?_
      rw [← eq_of_beq hname]
      exact hnames sub hsub
    · rfl
  have hhelp : (text == helpName) = false := by
    refine beq_false_of_ne fun hhelp => htext ?_
    rw [hhelp]
    rfl
  rw [Command.parseFrom, hsub, hhelp, Bool.and_false, h]
  rfl

/-- The progress at which options and flags have been read. -/
def readSoFar (values : List (String × String)) (flags : List String) : Progress :=
  ⟨values, flags, none, none, none, false⟩

variable {old : List (String × String)} {oldFlags : List String}

/-- An option with its value in the same argument. -/
theorem parseFrom_value (hnames : command.NamesSubcommands) {name value : String}
    (htakes : command.Takes name value) (hnew : name ∉ old.map Prod.fst) (rest : List String) :
    command.parseFrom (readSoFar old oldFlags) (("--" ++ name ++ "=" ++ value) :: rest) =
      command.parseFrom (readSoFar (old ++ [(name, value)]) oldFlags) rest := by
  obtain ⟨hname, option, hfound, shown, required, fallback, accepts, hkind, haccepts⟩ := htakes
  have hform :=
    Token.ofString_eq_long_some_iff.mpr ⟨(rfl : "--" ++ name ++ "=" ++ value = _), hname⟩
  obtain rfl : option.long = name := by simpa using List.find?_some hfound
  have hlookup := lookup_eq_none_of_not_mem hnew
  refine parseFrom_cons_of_ne_word hnames (by rw [hform]; nofun) ?_ rest
  simp [readSoFar, Progress.advance, hform, hfound, Progress.option, Progress.settle, hkind,
    Progress.accept, hlookup, haccepts, bind, Except.bind]

/-- A flag. -/
theorem parseFrom_flag (hnames : command.NamesSubcommands) {name : String}
    (hflag : command.HasFlag name) (hnew : name ∉ oldFlags) (rest : List String) :
    command.parseFrom (readSoFar old oldFlags) (("--" ++ name) :: rest) =
      command.parseFrom (readSoFar old (oldFlags ++ [name])) rest := by
  obtain ⟨hform, option, hfound, hkind⟩ := hflag
  obtain rfl : option.long = name := by simpa using List.find?_some hfound
  refine parseFrom_cons_of_ne_word hnames (by rw [hform]; nofun) ?_ rest
  simp [readSoFar, Progress.advance, hform, hfound, Progress.option, Progress.settle, hkind, hnew,
    bind, Except.bind]

/-- Options, those with values one after another. -/
theorem parseFrom_values (hnames : command.NamesSubcommands)
    (values : List (String × Option String))
    (htakes : ∀ one ∈ values, ∀ value ∈ one.2, command.Takes one.1 value)
    (hnodup : (old.map Prod.fst ++ values.map Prod.fst).Nodup) (rest : List String) :
    command.parseFrom (readSoFar old oldFlags)
        (values.flatMap (fun one => one.2.toList.map fun value =>
          "--" ++ one.1 ++ "=" ++ value) ++ rest) =
      command.parseFrom (readSoFar (old ++ valuesGiven values) oldFlags) rest := by
  induction values generalizing old with
  | nil => rw [valuesGiven, List.flatMap_nil, List.flatMap_nil, List.append_nil, List.nil_append]
  | cons one values ih =>
    obtain ⟨htake, hlater⟩ := List.forall_mem_cons.mp htakes
    obtain ⟨hname, hothers⟩ := List.nodup_cons.mp (List.nodup_middle.mp hnodup)
    obtain ⟨name, _ | value⟩ := one
    · exact ih hlater hothers
    · have hnew : name ∉ old.map Prod.fst := fun hold => hname (List.mem_append_left _ hold)
      have hrest : ((old ++ [(name, value)]).map Prod.fst ++ values.map Prod.fst).Nodup := by
        rwa [List.map_append, List.map_singleton, ← List.append_cons]
      refine (parseFrom_value hnames (htake value rfl) hnew _).trans ((ih hlater hrest).trans ?_)
      rw [← List.append_cons]
      rfl

/-- Flags, those that are set one after another. -/
theorem parseFrom_flags (hnames : command.NamesSubcommands) (flags : List (String × Bool))
    (hflags : ∀ one ∈ flags, command.HasFlag one.1)
    (hnodup : (oldFlags ++ flags.map Prod.fst).Nodup) (rest : List String) :
    command.parseFrom (readSoFar old oldFlags)
        (flags.flatMap (fun one => if one.2 then ["--" ++ one.1] else []) ++ rest) =
      command.parseFrom (readSoFar old (oldFlags ++ flagsSet flags)) rest := by
  induction flags generalizing oldFlags with
  | nil => rw [flagsSet, List.flatMap_nil, List.flatMap_nil, List.append_nil, List.nil_append]
  | cons one flags ih =>
    obtain ⟨hflag, hlater⟩ := List.forall_mem_cons.mp hflags
    obtain ⟨hname, hothers⟩ := List.nodup_cons.mp (List.nodup_middle.mp hnodup)
    obtain ⟨name, _ | _⟩ := one
    · exact ih hlater hothers
    · have hnew : name ∉ oldFlags := fun hold => hname (List.mem_append_left _ hold)
      have hrest : (oldFlags ++ [name] ++ flags.map Prod.fst).Nodup := by
        rwa [← List.append_cons]
      refine (parseFrom_flag hnames hflag hnew _).trans ((ih hlater hrest).trans ?_)
      rw [← List.append_cons]
      rfl

/-- **What is written down is read back** by a command that declares it. -/
theorem Declares.parse_wordsOf {values : List (String × Option String)}
    {flags : List (String × Bool)} {operand : Option String}
    (h : command.Declares values flags operand) :
    command.parse (wordsOf values flags operand) =
      Progress.finish ⟨valuesGiven values, flagsSet flags, operand, none, none, operand.isSome⟩
        command := by
  have hleaf := h.leaf
  have hnames : command.NamesSubcommands := by
    rw [NamesSubcommands, hleaf]
    exact List.forall_mem_nil _
  have hfront := @parseFrom_values command [] [] hnames values h.takes h.nodup
  have hmiddle := @parseFrom_flags command (valuesGiven values) [] hnames flags h.hasFlag
    h.nodup_flags
  rw [parse, wordsOf, Progress.start, ← readSoFar, hfront, List.nil_append, hmiddle,
    List.nil_append]
  cases operand with
  | none =>
    rw [Option.toList_none, List.flatMap_nil, parseFrom, hleaf]
    rfl
  | some text =>
    obtain ⟨declared, hdeclared⟩ := Option.isSome_iff_exists.mp (h.operand rfl)
    have hescape : (readSoFar (valuesGiven values) (flagsSet flags)).advance command "--" =
        .ok ⟨valuesGiven values, flagsSet flags, none, none, none, true⟩ := rfl
    have hword : Progress.advance ⟨valuesGiven values, flagsSet flags, none, none, none, true⟩
        command text =
          .ok ⟨valuesGiven values, flagsSet flags, some text, none, none, true⟩ := by
      simp [Progress.advance, Progress.word, Progress.settle, hdeclared, bind, Except.bind]
    rw [Option.toList_some, List.flatMap_singleton, parseFrom_cons hleaf hescape,
      parseFrom_cons hleaf hword, parseFrom, hleaf]
    rfl

/-- A subcommand that reads all that follows it. -/
theorem parseFrom_cons_of_subcommand {progress : Progress} (hword : progress.atWord = true)
    {sub : Command} {name : String} (hsub : command.subcommand? name = some sub)
    {rest : List String} {inner outer : Matches} (hinner : sub.parse rest = .ok inner)
    (houter : progress.finish command = .ok outer) :
    command.parseFrom progress (name :: rest) =
      .ok ⟨sub.name :: inner.path, outer.values ++ inner.values, outer.flags ++ inner.flags,
        inner.operand⟩ := by
  rw [parse] at hinner
  simp only [parseFrom, Progress.subcommand?, hword, if_true, hsub, hinner, houter]
  rfl

end Command

end TokenConfig
