/-!
# Who decided on a setting

The administrator decides in a file, the user by a variable of the environment, and where neither
does the program has a value of its own.
-/

namespace TokenConfig

/-- Who decided on a setting. -/
inductive Source where
  /-- The user, by a variable of the environment. -/
  | user
  /-- The administrator, by a line of the settings file. -/
  | administrator
  /-- Nobody, so the value is the program's own. -/
  | program
deriving DecidableEq

/-- The name of a source in messages to people. -/
def Source.label : Source → String
  | .user => "User"
  | .administrator => "Admin"
  | .program => "Default"

end TokenConfig
