import TokenConfig.CommandLine
import TokenConfig.Proofs.Bytes.Hexadecimal

/-!
# What a run of the program shows

A run is a session: it writes, and it comes to its end or gives up. This file has what the proofs on
the subcommands share.

* A session that consists of two parts comes to its end if both parts do, and has then written what
  they have written (`TokenConfig.Session.bind_eq_some_iff`). With one such statement for each thing
  a session can do, what has happened in a run that came to its end is read off its text.
* What is written for the log, or to the error output, is not seen on the output
  (`TokenConfig.Output.Unshown`).
* The end of a whole run is that of the session that the arguments ask for
  (`TokenConfig.CommandLine.run_of_asks`).
-/

namespace TokenConfig

namespace Session

variable {α β : Type} {outputs : List Output}

/-! ### Sessions that come to their end -/

/-- **Two parts one after the other** come to their end if both do. -/
theorem bind_eq_some_iff {session : Session α} {next : α → Session β} {b : β} :
    session >>= next = ⟨some b, outputs⟩ ↔
      ∃ a front rest, session = ⟨some a, front⟩ ∧ next a = ⟨some b, rest⟩ ∧
        outputs = front ++ rest := by
  obtain ⟨result, written⟩ := session
  cases result with
  | none =>
    refine iff_of_false (fun h => ?_) ?_
    · cases congrArg Session.result h
    · rintro ⟨a, front, rest, h, -⟩
      cases congrArg Session.result h
  | some a =>
    change Session.mk (next a).result (written ++ (next a).outputs) = _ ↔ _
    constructor
    · intro h
      obtain ⟨hresult, rfl⟩ := Session.mk.inj h
      exact ⟨a, written, (next a).outputs, rfl, by rw [← hresult], rfl⟩
    · rintro ⟨_, _, rest, ⟨⟩, hnext, rfl⟩
      rw [hnext]

@[simp] theorem pure_eq_some_iff {a b : α} :
    (pure a : Session α) = ⟨some b, outputs⟩ ↔ b = a ∧ outputs = [] := by
  change Session.mk (some a) [] = _ ↔ _
  rw [Session.mk.injEq, Option.some.injEq, eq_comm (a := a), eq_comm (a := [])]

theorem ofLogged_eq_some_iff {logged : Logged α} {a : α} :
    ofLogged logged = ⟨some a, outputs⟩ ↔
      a = logged.value ∧ outputs = logged.events.map .note := by
  rw [ofLogged, Session.mk.injEq, Option.some.injEq, eq_comm, eq_comm (b := outputs)]

theorem write_eq_some_iff {output : Output} {a : Unit} :
    write output = ⟨some a, outputs⟩ ↔ outputs = [output] := by
  rw [write, Session.mk.injEq, eq_comm (b := outputs)]
  exact and_iff_right rfl

/-! ### Sessions that only read -/

/-- A session comes to its end exactly with the results that have a property, and has then written
nothing. -/
def Reads (session : Session α) (p : α → Prop) : Prop :=
  ∀ a outputs, session = ⟨some a, outputs⟩ ↔ p a ∧ outputs = []

theorem Reads.congr {session : Session α} {p q : α → Prop} (h : session.Reads p)
    (hpq : ∀ a, p a ↔ q a) : session.Reads q :=
  fun a outputs => (h a outputs).trans (and_congr_left' (hpq a))

theorem Reads.pure (a : α) : (Pure.pure a : Session α).Reads (· = a) :=
  fun _ _ => pure_eq_some_iff

/-- A session that gives up has no result. -/
theorem Reads.of_result_eq_none {session : Session α} (h : session.result = none) :
    session.Reads fun _ => False := by
  intro a outputs
  refine iff_of_false (fun hsome => ?_) fun hfalse => hfalse.1
  rw [hsome] at h
  cases h

/-- What follows on a session that only reads is all that is written. -/
theorem Reads.bind_eq_some_iff {session : Session α} {next : α → Session β} {p : α → Prop}
    (h : session.Reads p) {b : β} :
    session >>= next = ⟨some b, outputs⟩ ↔ ∃ a, p a ∧ next a = ⟨some b, outputs⟩ := by
  rw [Session.bind_eq_some_iff]
  constructor
  · rintro ⟨a, front, rest, hfront, hrest, rfl⟩
    obtain ⟨ha, rfl⟩ := (h a front).mp hfront
    exact ⟨a, ha, hrest⟩
  · rintro ⟨a, ha, hrest⟩
    exact ⟨a, [], outputs, (h a []).mpr ⟨ha, rfl⟩, hrest, rfl⟩

theorem Reads.bind {session : Session α} {next : α → Session β} {p : α → Prop} {q : α → β → Prop}
    (h : session.Reads p) (hnext : ∀ a, (next a).Reads (q a)) :
    (session >>= next).Reads fun b => ∃ a, p a ∧ q a b := by
  intro b outputs
  rw [h.bind_eq_some_iff]
  constructor
  · rintro ⟨a, ha, hrest⟩
    obtain ⟨hb, rfl⟩ := (hnext a b outputs).mp hrest
    exact ⟨⟨a, ha, hb⟩, rfl⟩
  · rintro ⟨⟨a, ha, hb⟩, rfl⟩
    exact ⟨a, ha, (hnext a b []).mpr ⟨hb, rfl⟩⟩

/-- **A hexadecimal argument** is read as what it stands for. -/
theorem Reads.decodeArgument (name text : String) :
    (TokenConfig.decodeArgument name text).Reads (Hex.Stands text) := by
  have hdecode : ∀ bytes, Hex.Stands text bytes ↔ Hex.decode (Blank.trim text) = .ok bytes :=
    fun bytes => Hex.decode_trim_eq_ok_iff.symm
  unfold TokenConfig.decodeArgument
  cases hcase : Hex.decode (Blank.trim text) with
  | ok decoded =>
    refine (Reads.pure decoded).congr fun bytes => ?_
    rw [hdecode, hcase, Except.ok.injEq, eq_comm]
  | error fault =>
    refine (Reads.of_result_eq_none rfl).congr fun bytes => ?_
    rw [hdecode, hcase]
    exact iff_of_false not_false nofun

end Session

/-! ### The channels -/

namespace Output

variable (style : Style) (front rest : List Output)

theorem stdout_append : stdout style (front ++ rest) = stdout style front ++ stdout style rest := by
  rw [stdout, List.map_append, String.join_append, stdout, stdout]

theorem stderr_append : stderr style (front ++ rest) = stderr style front ++ stderr style rest := by
  rw [stderr, List.map_append, String.join_append, stderr, stderr]

theorem stdout_cons (output : Output) :
    stdout style (output :: rest) = output.onStdout style ++ stdout style rest := by
  rw [stdout, List.map_cons, String.join_cons, stdout]

theorem stderr_cons (output : Output) :
    stderr style (output :: rest) = output.onStderr style ++ stderr style rest := by
  rw [stderr, List.map_cons, String.join_cons, stderr]

theorem stderr_map_note (events : List Event) : stderr style (events.map .note) = "" := by
  induction events with
  | nil => rfl
  | cons event events ih => rw [List.map_cons, stderr_cons, ih, onStderr, String.append_empty]

/-- With a logger that writes nothing, the error output is its messages. -/
theorem errorStream_of_silent (outputs : List Output) :
    errorStream style (fun _ => "") outputs = stderr style outputs := by
  refine congrArg String.join (List.map_congr_left fun output _ => ?_)
  cases output <;> rfl

/-- An output that is not seen on the output. -/
def Unshown (output : Output) : Prop :=
  ∀ style, output.onStdout style = ""

theorem unshown_note (event : Event) : (note event).Unshown := fun _ => rfl

theorem unshown_warning (message : String) : (warning message).Unshown := fun _ => rfl

theorem unshown_failure (message : String) : (failure message).Unshown := fun _ => rfl

variable {outputs : List Output}

theorem stdout_eq_empty (h : ∀ output ∈ outputs, output.Unshown) : stdout style outputs = "" := by
  induction outputs with
  | nil => rfl
  | cons output rest ih =>
    obtain ⟨houtput, hrest⟩ := List.forall_mem_cons.mp h
    rw [stdout_cons, houtput, ih hrest, String.append_empty]

theorem unshown_of_mem_map_note {events : List Event} :
    ∀ output ∈ events.map note, output.Unshown := by
  intro output houtput
  obtain ⟨event, -, rfl⟩ := List.mem_map.mp houtput
  exact unshown_note event

end Output

namespace Session

variable {α β : Type}

/-- A session of which nothing is seen on the output. -/
def Unshown (session : Session α) : Prop :=
  ∀ output ∈ session.outputs, output.Unshown

theorem Unshown.pure (a : α) : (Pure.pure a : Session α).Unshown := by
  intro output houtput
  cases houtput

theorem Unshown.fail (message : String) : (Session.fail message : Session α).Unshown := by
  intro output houtput
  rw [List.mem_singleton.mp houtput]
  exact Output.unshown_failure message

theorem Unshown.write {output : Output} (h : output.Unshown) : (Session.write output).Unshown := by
  intro other hother
  rw [List.mem_singleton.mp hother]
  exact h

theorem Unshown.ofLogged (logged : Logged α) : (Session.ofLogged logged).Unshown :=
  Output.unshown_of_mem_map_note

theorem Unshown.bind {session : Session α} {next : α → Session β} (h : session.Unshown)
    (hnext : ∀ a, (next a).Unshown) : (session >>= next).Unshown := by
  obtain ⟨result, written⟩ := session
  cases result with
  | none => exact h
  | some a =>
    intro output houtput
    rcases List.mem_append.mp houtput with hfront | hrest
    · exact h output hfront
    · exact hnext a output hrest

/-- Where what follows does not give up, a session that gave up has done so before. -/
theorem bind_eq_of_result_eq_none {session : Session α} {next : α → Session β}
    (hnext : ∀ a, (next a).result ≠ none) (h : (session >>= next).result = none) :
    session >>= next = ⟨none, session.outputs⟩ := by
  obtain ⟨result, written⟩ := session
  cases result with
  | none => rfl
  | some a => exact absurd h (hnext a)

end Session

theorem Session.Unshown.decodeArgument (name text : String) :
    (TokenConfig.decodeArgument name text).Unshown := by
  unfold TokenConfig.decodeArgument
  split
  · exact .pure _
  · exact .fail _

/-! ### Whole runs -/

/-- Two runs end alike, and nothing but the log tells them apart. -/
structure Report.SameButLog (report other : Report) : Prop where
  /-- The exit codes are the same. -/
  exit : report.exit = other.exit
  /-- The outputs are the same. -/
  stdout : ∀ style, Output.stdout style report.outputs = Output.stdout style other.outputs
  /-- The error outputs are the same. -/
  stderr : ∀ style, Output.stderr style report.outputs = Output.stderr style other.outputs

namespace CommandLine

/-- The arguments of a run ask for something. -/
def Asks (line : List String) (invocation : Invocation) : Prop :=
  (program.parse line).toOption.bind invocation? = some invocation

instance (line : List String) (invocation : Invocation) : Decidable (Asks line invocation) :=
  inferInstanceAs (Decidable (_ = _))

/-- **A run does what its arguments ask for.** -/
theorem run_of_asks {line : List String} {invocation : Invocation} (h : Asks line invocation)
    (surroundings : Surroundings) :
    run surroundings line = report (perform surroundings invocation) := by
  obtain ⟨found, hfound, hinvocation⟩ := Option.bind_eq_some_iff.mp h
  rw [run]
  cases hparse : program.parse line with
  | error interruption =>
    rw [hparse] at hfound
    cases hfound
  | ok read =>
    rw [hparse] at hfound
    obtain rfl := Option.some.inj hfound
    simp only [hinvocation]

variable (session : Session Unit)

theorem outputs_report : (report session).outputs = session.outputs := by
  unfold report
  split <;> rfl

/-- The exit code is 0 if the session came to its end. -/
theorem exit_report_eq_zero_iff :
    (report session).exit = 0 ↔ session = ⟨some (), session.outputs⟩ := by
  obtain ⟨_ | ⟨⟨⟩⟩, outputs⟩ := session
  · simp [report]
  · simp [report]

/-- The exit code is 1 if the session gave up. -/
theorem exit_report_eq_one_iff : (report session).exit = 1 ↔ session.result = none := by
  obtain ⟨_ | ⟨⟨⟩⟩, outputs⟩ := session
  · simp [report]
  · simp [report]

/-- The exit code depends on the end of the session alone. -/
theorem exit_report_congr {session other : Session Unit} (h : session.result = other.result) :
    (report session).exit = (report other).exit := by
  unfold report
  rw [h]
  split <;> rfl

theorem exit_report : (report session).exit = 0 ∨ (report session).exit = 1 := by
  obtain ⟨_ | ⟨⟨⟩⟩, outputs⟩ := session
  · exact .inr rfl
  · exact .inl rfl

end CommandLine

end TokenConfig
