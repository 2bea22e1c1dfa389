/-!
# Braced descriptions

Values with named parts are described in one line: a name, then the parts between braces, as in
`Point { x: 1, y: 2 }`. A description may leave parts out, and then says so by two dots at the end.
-/

namespace TokenConfig

namespace Braced

/-- One part of a description. -/
def part (name value : String) : String :=
  name ++ ": " ++ value

/-- A description that shows every part. -/
def full (title : String) (parts : List String) : String :=
  title ++ " \x7b " ++ ", ".intercalate parts ++ " \x7d"

/-- A description that holds some parts back. -/
def partly (title : String) (parts : List String) : String :=
  title ++ " \x7b " ++ ", ".intercalate parts ++ ", .. \x7d"

/-- An optional number: absent, or present with its value. -/
def optional : Option Nat → String
  | none => "None"
  | some number => "Some(" ++ toString number ++ ")"

end Braced

end TokenConfig
