import TokenConfig.Environment
import TokenConfig.Event

/-!
# What a program writes

A run of the program writes lines to its output, messages to the error output, and events to the
log. They are kept in one list in their order (`TokenConfig.Output`), and rendered at the end for
the terminal at hand (`TokenConfig.Style`): with colours, or as plain text.

**Both outputs are taken to be open, and to take all that is written.** A run is not told whether
they do, so nothing is said here of a run whose lines cannot be written.

* `TokenConfig.Output.stdout`, `TokenConfig.Output.stderr` and `TokenConfig.Output.events` are the
  three channels of such a list.
* `TokenConfig.Output.errorStream` is the error output as it is seen, with the log in it. What a
  logger writes for an event is its own affair, and a parameter here.
* `TokenConfig.Session` is a computation that writes and may give up: its result is missing when it
  gave up, and what it had written by then stays written.
-/

namespace TokenConfig

/-! ### Terminals -/

/-- Whether a terminal shows colours. -/
inductive Style where
  /-- Plain text. -/
  | plain
  /-- Text with escape sequences. -/
  | coloured
deriving DecidableEq

namespace Style

/-- The style that the environment asks for: colours need a terminal that is named and not a dumb
one, and a user who has not declined them. -/
def ofEnvironment (environment : Environment) : Style :=
  let named := environment.has "TERM" && environment.text? "TERM" != some "dumb"
  if named && !environment.has "NO_COLOR" then .coloured else .plain

/-- The sequence that ends all colours. -/
def reset : String := "\x1b[0m"

/-- The sequence that starts bold text. -/
def bold : String := "\x1b[1m"

end Style

/-- The colours of a status. -/
inductive Colour where
  /-- Something went wrong. -/
  | red
  /-- Something was done. -/
  | green
  /-- Something should be noticed. -/
  | yellow
deriving DecidableEq

/-- The sequence that starts text in a colour. -/
def Colour.start : Colour → String
  | .red => "\x1b[31m"
  | .green => "\x1b[32m"
  | .yellow => "\x1b[33m"

/-- A text with blanks before it up to a width. -/
def rightAligned (width : Nat) (text : String) : String :=
  String.ofList (List.replicate (width - text.length) ' ') ++ text

namespace Style

/-- The line of a named value: the name in bold, in a column of its own. -/
def entry (style : Style) (name value : String) : String :=
  let head := rightAligned 20 name ++ ":"
  match style with
  | .plain => head ++ " " ++ value ++ "\n"
  | .coloured => reset ++ bold ++ head ++ reset ++ " " ++ value ++ "\n"

/-- The line of a message behind a status in bold and in colour. -/
def status (style : Style) (colour : Colour) (head message : String) : String :=
  match style with
  | .plain => head ++ " " ++ message ++ "\n"
  | .coloured => reset ++ reset ++ bold ++ colour.start ++ head ++ reset ++ " " ++ message ++ "\n"

end Style

/-! ### Written lines -/

/-- Something that a run of the program writes. -/
inductive Output where
  /-- Text as it is. -/
  | text (content : String)
  /-- A named value. -/
  | entry (name value : String)
  /-- A secret that was made up, under its name. -/
  | generated (name : String) (bytes : Bytes)
  /-- Something that the user should notice. -/
  | warning (message : String)
  /-- Why the run cannot go on. -/
  | failure (message : String)
  /-- An event for the log. -/
  | note (event : Event)
deriving DecidableEq

namespace Output

/-- What is written to the output. -/
def onStdout (style : Style) : Output → String
  | .text content => content
  | .entry name value => style.entry name value
  | .generated name bytes =>
    style.status .green (rightAligned 12 "Generated") (name ++ ": " ++ Hex.encode bytes)
  | .warning _ | .failure _ | .note _ => ""

/-- What is written to the error output. -/
def onStderr (style : Style) : Output → String
  | .warning message => style.status .yellow "warning:" message
  | .failure message => style.status .red "error:" message
  | .text _ | .entry .. | .generated .. | .note _ => ""

/-- What is written to the log. -/
def onLog : Output → Option Event
  | .note event => some event
  | .text _ | .entry .. | .generated .. | .warning _ | .failure _ => none

/-- The output of a run. -/
def stdout (style : Style) (outputs : List Output) : String :=
  String.join (outputs.map (onStdout style))

/-- The error output of a run. -/
def stderr (style : Style) (outputs : List Output) : String :=
  String.join (outputs.map (onStderr style))

/-- The events of a run. -/
def events (outputs : List Output) : List Event :=
  outputs.filterMap onLog

/-- What is seen on the error output, where a logger writes `logged event` for an event. -/
def onErrorStream (style : Style) (logged : Event → String) : Output → String
  | .note event => logged event
  | output => output.onStderr style

/-- The error output of a run as it is seen: its messages and its log in their order. -/
def errorStream (style : Style) (logged : Event → String) (outputs : List Output) : String :=
  String.join (outputs.map (onErrorStream style logged))

end Output

/-! ### Sessions -/

/-- A computation that writes and may give up. -/
structure Session (α : Type) where
  /-- The result, unless the computation gave up. -/
  result : Option α
  /-- What was written. -/
  outputs : List Output

namespace Session

variable {α β : Type}

/-- Goes on with the result of a computation, if there is one. -/
def andThen (session : Session α) (next : α → Session β) : Session β :=
  match session.result with
  | none => ⟨none, session.outputs⟩
  | some a => ⟨(next a).result, session.outputs ++ (next a).outputs⟩

instance : Monad Session where
  pure a := ⟨some a, []⟩
  bind := andThen

/-- Writes one thing. -/
def write (output : Output) : Session Unit :=
  ⟨some (), [output]⟩

/-- Writes why, and gives up. -/
def fail (message : String) : Session α :=
  ⟨none, [.failure message]⟩

/-- Writes the events of a value to the log. -/
def ofLogged (logged : Logged α) : Session α :=
  ⟨some logged.value, logged.events.map .note⟩

/-! Nothing follows where a session gave up. -/

@[simp] theorem fail_bind (message : String) (next : α → Session β) :
    (fail message >>= next) = fail message := rfl

@[simp] theorem write_bind (output : Output) (next : Unit → Session β) :
    (write output >>= next) = ⟨(next ()).result, output :: (next ()).outputs⟩ := rfl

@[simp] theorem ofLogged_bind (logged : Logged α) (next : α → Session β) :
    (ofLogged logged >>= next) =
      ⟨(next logged.value).result, logged.events.map .note ++ (next logged.value).outputs⟩ := rfl

instance : LawfulMonad Session :=
  LawfulMonad.mk' Session
    (by
      intro α ⟨result, outputs⟩
      cases result with
      | none => rfl
      | some a => simp [Functor.map, andThen])
    (fun _ _ => rfl)
    (by
      intro α β γ ⟨result, outputs⟩ f g
      cases result with
      | none => rfl
      | some a =>
        rcases hf : f a with ⟨second, more⟩
        cases second <;> simp [bind, andThen, hf])

end Session

end TokenConfig
