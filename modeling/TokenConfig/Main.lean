import TokenConfig.CommandLine

/-!
# Running the program

The one part that touches the world: it collects what `TokenConfig.CommandLine.run` depends on, and
writes what that gives.
-/

namespace TokenConfig

/-- The variables that a run looks at. -/
def consulted : List String :=
  ["TERM", "NO_COLOR", CommandLine.logVariable, Setting.variableStart ++ Setting.strictLengths]

/-- The variables of `names` that are set. -/
def readEnvironment (names : List String) : IO Environment := do
  let bindings ← names.filterMapM fun name => do
    let value ← IO.getEnv name
    return value.map fun text => (name, Utf8.encode text)
  return .ofList bindings

/-- The contents of the administrator's file, if it can be read. -/
def readSettings : IO (Option Bytes) := do
  try
    let content ← IO.FS.readBinFile Setting.filePath
    return some content.toList
  catch _ => return none

/-- Random bytes for all secrets of a run. -/
def readRandomness : IO (Nat → UInt8) := do
  let bytes ← IO.getRandomBytes 64
  return fun i => bytes.data[i]?.getD 0

/-- What is written of an event, if it is shown. -/
def logText (shown : Event → Bool) (event : Event) : String :=
  if shown event then "[" ++ event.level.name ++ "] " ++ event.message ++ "\n" else ""

/-- Writes one part of what a run gives. -/
def writeOutput (style : Style) (logged : Event → String) (output : Output) : IO Unit := do
  IO.print (output.onStdout style)
  IO.eprint (output.onErrorStream style logged)

/-- A run of the program. -/
def runProgram (arguments : List String) : IO UInt32 := do
  let environment ← readEnvironment consulted
  let settings ← readSettings
  let randomness ← readRandomness
  let report := CommandLine.run ⟨settings, environment, randomness⟩ arguments
  let style := Style.ofEnvironment environment
  for output in report.outputs do
    writeOutput style (logText (CommandLine.showsInLog environment)) output
  return report.exit.toUInt32

end TokenConfig

/-- The program. -/
def main (arguments : List String) : IO UInt32 :=
  TokenConfig.runProgram arguments
