import TokenConfig.Text.Pieces

/-!
# Arguments of a program

How a command line is read, whatever the program. A `TokenConfig.Command` declares its options, the
operand that it takes, and its subcommands, and `TokenConfig.Command.parse` reads arguments
by such a declaration.

* An option is written `--name`, and some also `-n`. Its value is the next argument, or follows `=`
  in the same one; behind the short form the `=` may be missing. The next argument is no value if it
  begins with a dash, unless it is a dash alone.
* No option may come twice.
* An argument that names a subcommand hands the rest over to it, unless an option waits for a value.
* After `--` every argument is an operand.
* `--help`, `-h` and the subcommand `help` interrupt the reading at once, and so does a fault.

The value of an option is looked at when the next option or operand comes, or the arguments end;
with a subcommand, after those of the subcommand. This decides whether a request for help or a fault
before it comes first.
-/

namespace TokenConfig

/-! ### Declarations -/

/-- What an option is for. -/
inductive OptionKind where
  /-- It has a value, which `accepts` lets pass. Without a `fallback` it may be missing, unless it
  is `required`. -/
  | value (name : String) (required : Bool) (fallback : Option String) (accepts : String → Bool)
  /-- It is there or not. -/
  | flag
  /-- It asks for help. -/
  | help
  /-- It asks for the version of the program. -/
  | version

/-- An option of a command. -/
structure CommandOption where
  /-- The name behind two dashes. -/
  long : String
  /-- The letter behind one dash. -/
  short : Option Char
  /-- What the option is for. -/
  kind : OptionKind
  /-- What the option does. -/
  summary : String

/-- A command, which may have subcommands. -/
structure Command where
  /-- The name. -/
  name : String
  /-- What the command does. -/
  summary : String
  /-- The options. -/
  options : List CommandOption
  /-- The name of the operand and what it is, if the command takes one. -/
  operand : Option (String × String)
  /-- The subcommands; if there are any, one of them has to be given. -/
  subcommands : List Command

/-- The subcommand of a name. -/
def Command.subcommand? (command : Command) (name : String) : Option Command :=
  command.subcommands.find? fun sub => sub.name == name

/-- Why arguments cannot be read. -/
inductive UsageFault where
  /-- There is no such option. -/
  | unknownOption (text : String)
  /-- An option has no value. -/
  | missingValue (option : String)
  /-- An option that takes no value has one. -/
  | unexpectedValue (option : String)
  /-- An option came before. -/
  | repeated (option : String)
  /-- The value of an option is not of its form. -/
  | invalidValue (option value : String)
  /-- There is no place for an operand. -/
  | unexpectedOperand (text : String)
  /-- Something that is required is missing. -/
  | missing (name : String)
  /-- There is no such subcommand. -/
  | unknownSubcommand (name : String)
deriving DecidableEq

/-- The wording of a fault. -/
def UsageFault.message : UsageFault → String
  | .unknownOption text => "unexpected argument '" ++ text ++ "' found"
  | .missingValue option => "a value is required for '" ++ option ++ "' but none was supplied"
  | .unexpectedValue option => "unexpected value for '" ++ option ++ "' found"
  | .repeated option => "the argument '" ++ option ++ "' cannot be used multiple times"
  | .invalidValue option value => "invalid value '" ++ value ++ "' for '" ++ option ++ "'"
  | .unexpectedOperand text => "unexpected argument '" ++ text ++ "' found"
  | .missing name => "required argument '" ++ name ++ "' was not provided"
  | .unknownSubcommand name => "unrecognized subcommand '" ++ name ++ "'"

/-- Why the reading of arguments ends before the arguments do. -/
inductive Interruption where
  /-- The arguments cannot be read. -/
  | fault (fault : UsageFault)
  /-- Help was asked for on the command that is reached by `path`. -/
  | help (path : List String) (command : Command)
  /-- The version of the program was asked for. -/
  | version

/-- The interruption of a subcommand as its parent sees it. -/
def Interruption.under (name : String) : Interruption → Interruption
  | .help path command => .help (name :: path) command
  | .fault cause => .fault cause
  | .version => .version

/-- What arguments say. -/
structure Matches where
  /-- The names of the subcommands, the outer ones first. -/
  path : List String
  /-- The options with their values. -/
  values : List (String × String)
  /-- The flags that are there. -/
  flags : List String
  /-- The operand. -/
  operand : Option String
deriving DecidableEq

namespace Matches

/-- The value of an option. -/
def value? (found : Matches) (option : String) : Option String :=
  found.values.lookup option

/-- Whether a flag is there. -/
def has (found : Matches) (flag : String) : Bool :=
  found.flags.contains flag

end Matches

/-! ### One argument -/

/-- The forms of an argument. -/
inductive Token where
  /-- A value, an operand or a subcommand. -/
  | word
  /-- The two dashes after which everything is an operand. -/
  | escape
  /-- An option in its long form, perhaps with a value. -/
  | long (name : String) (attached : Option String)
  /-- Options in their short form, the last perhaps with a value. -/
  | short (letters : List Char)
deriving DecidableEq

/-- The form of an argument. -/
def Token.ofString (text : String) : Token :=
  match text.toList with
  | ['-'] => .word
  | ['-', '-'] => .escape
  | '-' :: '-' :: rest =>
    match splitFirst? '=' rest with
    | some (name, value) => .long (String.ofList name) (some (String.ofList value))
    | none => .long (String.ofList rest) none
  | '-' :: letters => .short letters
  | _ => .word

/-- How far the arguments of a command have been read. -/
structure Progress where
  /-- The options whose values were looked at, with these values. -/
  values : List (String × String)
  /-- The flags so far. -/
  flags : List String
  /-- The operand, if it came. -/
  operand : Option String
  /-- An option with a value that was not looked at yet. -/
  pending : Option (CommandOption × String)
  /-- An option that waits for its value. -/
  awaiting : Option CommandOption
  /-- Whether everything that follows is an operand. -/
  literal : Bool

namespace Progress

/-- Nothing has been read. -/
def start : Progress :=
  ⟨[], [], none, none, none, false⟩

/-- Takes in the value of an option. -/
def accept (progress : Progress) (option : CommandOption) (value : String) :
    Except Interruption Progress :=
  match option.kind with
  | .value _ _ _ accepts =>
    if (progress.values.lookup option.long).isSome then .error (.fault (.repeated option.long))
    else if accepts value then
      .ok { progress with values := progress.values ++ [(option.long, value)] }
    else .error (.fault (.invalidValue option.long value))
  | .flag | .help | .version => .error (.fault (.unexpectedValue option.long))

/-- Looks at the value that was not looked at yet. -/
def settle (progress : Progress) : Except Interruption Progress :=
  match progress.awaiting, progress.pending with
  | some option, _ => .error (.fault (.missingValue option.long))
  | none, some (option, value) => { progress with pending := none }.accept option value
  | none, none => .ok progress

/-- Takes an option of `command`, perhaps with a value in the same argument. -/
def option (progress : Progress) (command : Command) (option : CommandOption)
    (attached : Option String) : Except Interruption Progress := do
  let progress ← progress.settle
  match option.kind, attached with
  | .value .., some value => progress.accept option value
  | .value .., none => .ok { progress with awaiting := some option }
  | _, some _ => .error (.fault (.unexpectedValue option.long))
  | .flag, none =>
    if progress.flags.contains option.long then .error (.fault (.repeated option.long))
    else .ok { progress with flags := progress.flags ++ [option.long] }
  | .help, none => .error (.help [] command)
  | .version, none => .error .version

/-- Takes options in their short form. What follows the letter of an option with a value is the
value, an `=` before it apart. -/
def letters (progress : Progress) (command : Command) :
    List Char → Except Interruption Progress
  | [] => .ok progress
  | letter :: rest =>
    match command.options.find? fun option => option.short == some letter with
    | none => .error (.fault (.unknownOption (String.ofList ['-', letter])))
    | some found =>
      match found.kind, rest with
      | .value .., [] => progress.option command found none
      | .value .., '=' :: value => progress.option command found (some (String.ofList value))
      | .value .., value => progress.option command found (some (String.ofList value))
      | _, _ => do
        let progress ← progress.option command found none
        progress.letters command rest

/-- Takes an operand. -/
def word (progress : Progress) (command : Command) (text : String) :
    Except Interruption Progress := do
  let progress ← progress.settle
  match command.operand, progress.operand with
  | some _, none => .ok { progress with operand := some text }
  | _, _ => .error (.fault (.unexpectedOperand text))

/-- Takes an argument that names no subcommand. -/
def advance (progress : Progress) (command : Command) (text : String) :
    Except Interruption Progress :=
  match progress.awaiting with
  | some option =>
    match Token.ofString text with
    | .word => .ok { progress with awaiting := none, pending := some (option, text) }
    | _ => .error (.fault (.missingValue option.long))
  | none =>
    if progress.literal then progress.word command text
    else match Token.ofString text with
      | .word => progress.word command text
      | .escape => .ok { progress with literal := true }
      | .long name attached =>
        match command.options.find? fun option => option.long == name with
        | some found => progress.option command found attached
        | none => .error (.fault (.unknownOption ("--" ++ name)))
      | .short letters => progress.letters command letters

/-- Whether the next argument may name a subcommand. -/
def atWord (progress : Progress) : Bool :=
  progress.awaiting.isNone && !progress.literal

/-- The subcommand that the next argument names, if it may name one. -/
def subcommand? (progress : Progress) (command : Command) (text : String) : Option Command :=
  if progress.atWord then command.subcommand? text else none

/-- The value of an option at the end: the one that was given, or else its fallback. -/
def finalValue (progress : Progress) (option : CommandOption) :
    Except Interruption (List (String × String)) :=
  match option.kind with
  | .value _ required fallback _ =>
    match progress.values.lookup option.long, fallback, required with
    | some value, _, _ => .ok [(option.long, value)]
    | none, some value, _ => .ok [(option.long, value)]
    | none, none, true => .error (.fault (.missing ("--" ++ option.long)))
    | none, none, false => .ok []
  | .flag | .help | .version => .ok []

/-- The values of several options at the end. -/
def finalValues (progress : Progress) :
    List CommandOption → Except Interruption (List (String × String))
  | [] => .ok []
  | option :: rest => do
    let front ← progress.finalValue option
    let back ← progress.finalValues rest
    return front ++ back

/-- What the arguments of a command say when they are all read. -/
def finish (progress : Progress) (command : Command) : Except Interruption Matches := do
  let progress ← progress.settle
  let values ← progress.finalValues command.options
  match command.operand, progress.operand with
  | some (name, _), none => .error (.fault (.missing name))
  | _, operand => return ⟨[], values, progress.flags, operand⟩

end Progress

/-! ### All arguments -/

namespace Command

/-- The name of the subcommand that shows help. -/
def helpName : String := "help"

/-- Whether a command has the subcommand that shows help. -/
def hasHelp (command : Command) : Bool :=
  !command.subcommands.isEmpty

/-- Help on the subcommand that is reached by `path`. -/
def helpOn (command : Command) : List String → Interruption
  | [] => .help [] command
  | name :: rest =>
    match command.subcommand? name with
    | some sub => (sub.helpOn rest).under sub.name
    | none =>
      if command.hasHelp && name == helpName && rest.isEmpty then .help [] command
      else .fault (.unknownSubcommand name)

/-- What the arguments of a command say, when some of them have been read. -/
def parseFrom (command : Command) (progress : Progress) :
    List String → Except Interruption Matches
  | [] =>
    if command.subcommands.isEmpty then progress.finish command
    else .error (.fault (.missing "COMMAND"))
  | text :: rest =>
    match progress.subcommand? command text with
    | some sub =>
      match sub.parseFrom .start rest with
      | .error interruption => .error (interruption.under sub.name)
      | .ok inner => do
        let outer ← progress.finish command
        return {
          path := sub.name :: inner.path
          values := outer.values ++ inner.values
          flags := outer.flags ++ inner.flags
          operand := inner.operand }
    | none =>
      if progress.atWord && command.hasHelp && text == helpName then .error (command.helpOn rest)
      else do
        let progress ← progress.advance command text
        command.parseFrom progress rest

/-- What the arguments of a command say. -/
def parse (command : Command) (arguments : List String) : Except Interruption Matches :=
  command.parseFrom .start arguments

end Command

end TokenConfig
