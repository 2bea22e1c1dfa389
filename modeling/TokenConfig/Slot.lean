import TokenConfig.Bytes
import TokenConfig.Error
import TokenConfig.Text.Blank

/-!
# The two slots

A token has two slots, each with one credential: a short touch uses the first, a long touch the
second. A record is sent to a slot by a command whose code names the slot, and whether the record
replaces what is stored there or updates it.
-/

namespace TokenConfig

/-- A slot of a token. -/
inductive Slot where
  /-- The slot of a short touch. -/
  | one
  /-- The slot of a long touch. -/
  | two
deriving DecidableEq

/-- Whether a record replaces the credential of a slot or updates the one stored there. -/
inductive Program where
  /-- The slot gets a new credential. -/
  | configure
  /-- The slot keeps its credential; flags and access code change. -/
  | update
deriving DecidableEq

/-- The name of a program in descriptions. -/
def Program.name : Program → String
  | .configure => "Configure"
  | .update => "Update"

namespace Slot

/-- The identifier of the applet that manages the slots. -/
def appletId : Bytes := [0xa0, 0x00, 0x00, 0x05, 0x27, 0x20, 0x01, 0x01]

/-- The number of a slot as it is written. -/
def text : Slot → String
  | .one => "1"
  | .two => "2"

/-- The slot whose number `text` is, with any blanks around it. -/
def parse (text : String) : Except Error Slot :=
  match Blank.trimChars text.toList with
  | ['1'] => .ok .one
  | ['2'] => .ok .two
  | _ => .error .parse

/-- The code of the command that sends a program to a slot. -/
def command : Slot → Program → UInt8
  | .one, .configure => 0x01
  | .two, .configure => 0x03
  | .one, .update => 0x04
  | .two, .update => 0x05

end Slot

end TokenConfig
