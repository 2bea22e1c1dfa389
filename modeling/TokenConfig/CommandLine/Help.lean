import TokenConfig.CommandLine.Grammar

/-!
# Help on a command

`TokenConfig.Command.help` describes a command from its declaration: what it does, how it is called,
its subcommands and its options, in two columns.
-/

namespace TokenConfig

/-- Two columns, the left one as wide as its widest entry. -/
def columns (rows : List (String × String)) : String :=
  let width := rows.foldl (fun widest row => max widest row.1.length) 0
  String.join <| rows.map fun (left, right) =>
    let gap := String.ofList (List.replicate (width - left.length) ' ')
    "  " ++ left ++ gap ++ "  " ++ right ++ "\n"

/-- Two columns below a heading, or nothing if there are no rows. -/
def titled (heading : String) (rows : List (String × String)) : String :=
  if rows.isEmpty then "" else "\n" ++ heading ++ ":\n" ++ columns rows

/-- An option as it is written, and what it does. -/
def CommandOption.row (option : CommandOption) : String × String :=
  let short := match option.short with
    | some letter => String.ofList ['-', letter] ++ ", "
    | none => "    "
  let long := "--" ++ option.long
  match option.kind with
  | .value name _ (some fallback) _ =>
    (short ++ long ++ " <" ++ name ++ ">", option.summary ++ " [default: " ++ fallback ++ "]")
  | .value name _ none _ => (short ++ long ++ " <" ++ name ++ ">", option.summary)
  | .flag | .help | .version => (short ++ long, option.summary)

namespace Command

/-- How a command is called, behind the names that lead to it. -/
def usage (command : Command) (names : List String) : String :=
  let operand := match command.operand with
    | some (name, _) => " <" ++ name ++ ">"
    | none => ""
  let subcommand := if command.subcommands.isEmpty then "" else " <COMMAND>"
  "Usage: " ++ " ".intercalate names ++ " [OPTIONS]" ++ operand ++ subcommand ++ "\n"

/-- The description of a command that is called by `names`. -/
def help (command : Command) (names : List String) : String :=
  let helpRow := (helpName, "Print this message or the help of the given subcommand")
  let subcommands := command.subcommands.map fun sub => (sub.name, sub.summary)
  command.summary ++ "\n\n" ++ command.usage names ++
    titled "Commands" (if command.hasHelp then subcommands ++ [helpRow] else []) ++
    titled "Arguments" (command.operand.toList.map fun (name, what) =>
      ("<" ++ name ++ ">", what)) ++
    titled "Options" (command.options.map CommandOption.row)

end Command

end TokenConfig
