import TokenConfig.CommandLine.Output
import TokenConfig.Text.Blank

/-!
# What a run of the program depends on

Besides its arguments a run depends on the administrator's file, the environment and a source of
random bytes. Hexadecimal arguments are read here, in one way for all commands.
-/

namespace TokenConfig

/-- What a run depends on besides its arguments. -/
structure Surroundings where
  /-- The contents of the administrator's file, if there is one. -/
  settingsFile : Option Bytes
  /-- The variables of the program. -/
  environment : Environment
  /-- A stream of random bytes. -/
  randomness : Nat → UInt8

/-- The bytes that a hexadecimal argument stands for, with any blanks around it. The message about
any other argument names what it was to be. -/
def decodeArgument (name text : String) : Session Bytes :=
  match Hex.decode (Blank.trim text) with
  | .ok bytes => pure bytes
  | .error fault => .fail ("invalid hex in " ++ name ++ ": " ++ fault.message)

end TokenConfig
