import TokenConfig.CommandLine.Help
import TokenConfig.CommandLine.Info
import TokenConfig.CommandLine.Otp

/-!
# The program

`ykconfig` makes the records that configure the slots of a token, and shows what a token says about
itself. `TokenConfig.CommandLine.program` declares its arguments, `TokenConfig.Invocation` is what
they say, and `TokenConfig.CommandLine.run` is a whole run: a function from the arguments and the
surroundings to an exit code and everything that is written.

The exit code is 0 for a run that came to its end, 1 for one that gave up, and 2 for arguments that
cannot be read.
-/

namespace TokenConfig

/-- What the arguments ask for. -/
inductive Invocation where
  /-- The name and the version of the program. -/
  | version
  /-- A record for a slot. -/
  | otp (arguments : Otp.Arguments)
  /-- The information about a device. -/
  | info (arguments : Info.Arguments)
deriving DecidableEq

/-- The end of a run. -/
structure Report where
  /-- The exit code. -/
  exit : Nat
  /-- Everything that was written. -/
  outputs : List Output

/-- The lines of the log of a run, where a logger shows the events that `shown` lets pass. -/
def Report.log (shown : Event → Bool) (report : Report) : List String :=
  ((Output.events report.outputs).filter shown).map Event.line

namespace CommandLine

/-! ### The arguments -/

/-- The name and the version of the program. -/
def title : String := "yubikey-config-cli 0.1.0"

/-- The option that asks for help. -/
def helpOption : CommandOption :=
  ⟨"help", some 'h', .help, "Print help"⟩

/-- An option with a value of any form, which may be missing. -/
def textOption (long name summary : String) : CommandOption :=
  ⟨long, none, .value name false none fun _ => true, summary⟩

/-- An option with a value of any form, which may not be missing. -/
def requiredOption (long name summary : String) : CommandOption :=
  ⟨long, none, .value name true none fun _ => true, summary⟩

/-- An option without a value. -/
def flagOption (long summary : String) : CommandOption :=
  ⟨long, none, .flag, summary⟩

/-- A subcommand without subcommands. -/
def leaf (name summary : String) (options : List CommandOption)
    (operand : Option (String × String)) : Command :=
  ⟨name, summary, options ++ [helpOption], operand, []⟩

/-- The kinds of credentials. -/
def presets : List Command := [
  leaf "yubico-otp" "Yubico OTP" [
    requiredOption "public-id" "PUBLIC_ID" "Public id (hex)",
    textOption "private-id" "PRIVATE_ID" "Private id (hex, 6 bytes)",
    textOption "key" "KEY" "AES key (hex, 16 bytes)",
    flagOption "generate" "Generate a random private id and key"] none,
  leaf "hmac-sha1" "HMAC-SHA1 challenge-response" [
    textOption "key" "KEY" "HMAC key (hex, up to 20 bytes)",
    flagOption "generate" "Generate a random 20-byte key",
    flagOption "touch" "Require touch to compute a response"] none,
  leaf "hotp" "OATH-HOTP" [
    textOption "key" "KEY" "HMAC key (hex, up to 20 bytes)",
    flagOption "generate" "Generate a random 20-byte key",
    flagOption "digits8" "Generate 8 digit codes instead of 6"] none,
  leaf "static-password" "Static password" []
    (some ("SCAN_CODES", "Keyboard scan codes (hex, up to 38 bytes)")),
  leaf "static-ticket" "Static password derived from an AES key" [
    requiredOption "fixed" "FIXED" "Fixed part (hex, up to 16 bytes)",
    requiredOption "uid" "UID" "Uid (hex, 6 bytes)",
    requiredOption "key" "KEY" "AES key (hex, 16 bytes)"] none,
  leaf "update" "Update the flags and access code of a programmed slot" [] none]

/-- The subcommand that makes a record. -/
def otpCommand : Command where
  name := "otp"
  summary := "build an OTP slot configuration record"
  options := [
    ⟨"slot", some 's',
      .value "SLOT" false (some Slot.two.text) fun text => (Slot.parse text).toBool,
      "Slot to program (1 or 2)"⟩,
    textOption "access-code" "ACCESS_CODE"
      "Access code protecting the slot after programming (hex)",
    textOption "current-access-code" "CURRENT_ACCESS_CODE"
      "Access code currently protecting the slot (hex)",
    helpOption]
  operand := none
  subcommands := presets

/-- The version of a device that reports none, unless another one is given. -/
def fallbackVersion : Version := ⟨3, 0, 0⟩

/-- The subcommand that shows the information about a device. -/
def infoCommand : Command :=
  leaf "info" "decode a device info response" [
    ⟨"default-version", none,
      .value "DEFAULT_VERSION" false (some fallbackVersion.text) fun text =>
        (Version.parse text).toBool,
      "Firmware version to assume when the response does not report one"⟩]
    (some ("RESPONSE", "Device info response, including its length byte (hex)"))

/-- The program. -/
def program : Command where
  name := "ykconfig"
  summary := "Command-line tool for building YubiKey OTP slot records and decoding device info"
  options := [helpOption, ⟨"version", some 'V', .version, "Print version"⟩]
  operand := none
  subcommands := [leaf "version" "display version information" [] none, otpCommand, infoCommand]

/-! ### What they say -/

/-- The credential that the arguments describe, by the name of its subcommand. -/
def preset? (name : String) (found : Matches) : Option Otp.Preset :=
  let generate := found.has "generate"
  match name with
  | "yubico-otp" => do
    let publicId ← found.value? "public-id"
    return .yubicoOtp publicId (found.value? "private-id") (found.value? "key") generate
  | "hmac-sha1" => some (.hmacSha1 (found.value? "key") generate (found.has "touch"))
  | "hotp" => some (.hotp (found.value? "key") generate (found.has "digits8"))
  | "static-password" => do
    let scanCodes ← found.operand
    return .staticPassword scanCodes
  | "static-ticket" => do
    let fixed ← found.value? "fixed"
    let uid ← found.value? "uid"
    let key ← found.value? "key"
    return .staticTicket fixed uid key
  | "update" => some .update
  | _ => none

/-- What the arguments ask for. -/
def invocation? (found : Matches) : Option Invocation :=
  match found.path with
  | ["version"] => some .version
  | ["otp", name] => do
    let slot ← found.value? "slot"
    let slot ← (Slot.parse slot).toOption
    let preset ← preset? name found
    return .otp ⟨slot, found.value? "access-code", found.value? "current-access-code", preset⟩
  | ["info"] => do
    let version ← found.value? "default-version"
    let version ← (Version.parse version).toOption
    let response ← found.operand
    return .info ⟨version, response⟩
  | _ => none

/-! ### A run -/

/-- Does what the arguments ask for. -/
def perform (surroundings : Surroundings) : Invocation → Session Unit
  | .version => .write (.text (title ++ "\n"))
  | .otp arguments => Otp.run surroundings arguments
  | .info arguments => Info.run arguments

/-- The end of a run that does what the arguments ask for. -/
def report (session : Session Unit) : Report :=
  match session.result with
  | some () => ⟨0, session.outputs⟩
  | none => ⟨1, session.outputs⟩

/-- The end of a run that was interrupted while its arguments were read. -/
def interrupted : Interruption → Report
  | .fault fault => ⟨2, [.failure fault.message]⟩
  | .help path command => ⟨0, [.text (command.help (program.name :: path))]⟩
  | .version => ⟨0, [.text (title ++ "\n")]⟩

/-- A whole run. -/
def run (surroundings : Surroundings) (arguments : List String) : Report :=
  match program.parse arguments with
  | .error interruption => interrupted interruption
  | .ok found =>
    match invocation? found with
    | some invocation => report (perform surroundings invocation)
    | none => interrupted (.fault (.missing "COMMAND"))

/-! ### The log -/

/-- The variable that switches the log on and tells what it shows. -/
def logVariable : String := "RUST_LOG"

/-- The threshold that a text names, in any case of letters. A text without a name asks for errors,
and `off` for nothing. A logger may know texts of other forms, such as those that name a part of the
program; what it shows for these is not told here, and they are taken for `off`. -/
def threshold? (text : String) : Option Level :=
  let name := (Blank.trimChars text.toList).map Char.toUpper
  if name.isEmpty then some .error else Level.all.find? fun level => level.name.toList == name

/-- Whether an event is shown in an environment that names a threshold, or names nothing. -/
def showsInLog (environment : Environment) (event : Event) : Bool :=
  match (environment.text? logVariable).bind threshold? with
  | some threshold => threshold.within event.level
  | none => false

/-- The lines of the log of a run in an environment that names a threshold, or names nothing. -/
def log (environment : Environment) (report : Report) : List String :=
  report.log (showsInLog environment)

end CommandLine

end TokenConfig
