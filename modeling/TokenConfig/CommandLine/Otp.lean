import TokenConfig.CommandLine.Surroundings
import TokenConfig.Setting
import TokenConfig.Slot.Configuration

/-!
# Making a record

The subcommand `otp` turns its arguments into the record of a credential and shows it together with
the command that sends it.

* A secret is given as an argument or made up, and exactly one of the two
  (`TokenConfig.Otp.given`).
* An access code that is too long is cut, and the user is told; where the setting on strict lengths
  is on, it is refused (`TokenConfig.Otp.codeArgument`).
* The first fault ends the run. Nothing is shown of a record then.

A record is shown to an output that takes all that is written (see `TokenConfig.Output`).
-/

namespace TokenConfig

namespace Otp

/-- A credential as it is given in arguments. -/
inductive Preset where
  /-- One-time passwords made by an AES key. -/
  | yubicoOtp (publicId : String) (privateId key : Option String) (generate : Bool)
  /-- Answers to challenges by HMAC-SHA1. -/
  | hmacSha1 (key : Option String) (generate touch : Bool)
  /-- Counted one-time passwords. -/
  | hotp (key : Option String) (generate eightDigits : Bool)
  /-- A password given by its scan codes. -/
  | staticPassword (scanCodes : String)
  /-- A password that the token derives from an AES key. -/
  | staticTicket (fixed uid key : String)
  /-- The credential that the slot has already. -/
  | update
deriving DecidableEq

/-- The arguments of the subcommand. -/
structure Arguments where
  /-- The slot to program. -/
  slot : Slot
  /-- The access code that protects the slot from now on. -/
  accessCode : Option String
  /-- The access code that protects the slot so far. -/
  currentAccessCode : Option String
  /-- The credential. -/
  preset : Preset
deriving DecidableEq

/-! ### Secrets -/

/-- Gives up because a configuration cannot be made. -/
def refuse {α : Type} (fault : Error) : Session α :=
  .fail ("can't build slot configuration: " ++ fault.message)

/-- The bytes of an argument that has to have exactly `size` of them. -/
def exactArgument (size : Nat) (name text : String) : Session (Bytes.Exactly size) := do
  let bytes ← decodeArgument name text
  match Bytes.Exactly.ofBytes? size bytes with
  | some value => return value
  | none =>
    .write (.failure
      (name ++ " must be " ++ toString size ++ " bytes, got " ++ toString bytes.length))
    refuse .argument

/-- The argument of a secret, or nothing if the secret is to be made up. -/
def given (flag : String) (value : Option String) (generate : Bool) : Session (Option String) :=
  match value, generate with
  | some text, false => pure (some text)
  | none, true => pure none
  | some _, true => .fail ("--" ++ flag ++ " and --generate can't be used together")
  | none, false => .fail ("one of --" ++ flag ++ " or --generate is required")

/-- A secret made up of random bytes from position `start` of the stream on. -/
def generated (surroundings : Surroundings) (name : String) (start size : Nat) :
    Session (Bytes.Exactly size) := do
  let secret := Bytes.Exactly.ofStream surroundings.randomness start size
  .write (.generated name secret.bytes)
  return secret

/-- A secret of exactly `size` bytes. -/
def secret (surroundings : Surroundings) (flag : String) (start size : Nat)
    (value : Option String) (generate : Bool) : Session (Bytes.Exactly size) := do
  match ← given flag value generate with
  | some text => exactArgument size flag text
  | none => generated surroundings flag start size

/-- A key for HMAC, which may be shorter than the room for it. -/
def hmacKey (surroundings : Surroundings) (value : Option String) (generate : Bool) :
    Session Bytes := do
  match ← given "key" value generate with
  | some text => decodeArgument "key" text
  | none =>
    let key ← generated surroundings "key" 0 Field.hmacKeySize
    return key.bytes

/-! ### The configuration -/

/-- The credential that the arguments describe. -/
def credential (surroundings : Surroundings) : Preset → Session Credential
  | .yubicoOtp publicId privateId key generate => do
    let publicId ← decodeArgument "public id" publicId
    let privateId ← secret surroundings "private-id" 0 Field.uid.size privateId generate
    let key ← secret surroundings "key" Field.uid.size Field.key.size key generate
    return .yubicoOtp publicId privateId key
  | .hmacSha1 key generate touch => do
    let key ← hmacKey surroundings key generate
    return .hmacSha1 key touch
  | .hotp key generate eightDigits => do
    let key ← hmacKey surroundings key generate
    return .hotp key eightDigits
  | .staticPassword scanCodes => do
    let scanCodes ← decodeArgument "scan codes" scanCodes
    return .staticPassword scanCodes
  | .staticTicket fixed uid key => do
    let uid ← exactArgument Field.uid.size "uid" uid
    let key ← exactArgument Field.key.size "key" key
    let fixed ← decodeArgument "fixed" fixed
    return .staticTicket fixed uid key
  | .update => return .update

/-- The configuration of a credential. -/
def configuration (credential : Credential) : Session SlotConfiguration :=
  match SlotConfiguration.ofCredential credential with
  | .ok config => .ofLogged config
  | .error fault => refuse fault

/-- The bytes of an access code. One that is too long is refused if `strict`, and else mentioned. -/
def codeArgument (strict : Bool) (field : Field) (text : String) : Session Bytes := do
  let bytes ← decodeArgument field.label text
  if bytes.length ≤ field.size then return bytes
  else if strict then
    .fail (field.label ++ " is " ++ toString bytes.length ++ " bytes, at most " ++
      toString field.size ++ " allowed")
  else do
    .write (.warning (field.label ++ " truncated to " ++ toString field.size ++ " bytes"))
    return bytes

/-- The configuration with an access code, if one is given. -/
def withCode (strict : Bool) (field : Field) (adjustment : Bytes → SlotConfiguration.Adjustment)
    (text : Option String) (config : SlotConfiguration) : Session SlotConfiguration :=
  match text with
  | none => pure config
  | some text => do
    let bytes ← codeArgument strict field text
    .ofLogged (config.adjust (adjustment bytes))

/-- Shows a record, and the slot and the command that it is sent with. The output takes all three
lines: a run in which it does not, and which ends with a message about that, is left out. -/
def showRecord (slot : Slot) (config : SlotConfiguration) : Session Unit := do
  let record ← .ofLogged config.build
  .write (.entry "slot" slot.text)
  .write (.entry "command" (Hex.marked 2 (config.command slot).toNat))
  .write (.entry "record" (Hex.encode record))

/-- The whole subcommand. -/
def run (surroundings : Surroundings) (arguments : Arguments) : Session Unit := do
  let strict ← .ofLogged
    (Setting.resolve surroundings.settingsFile surroundings.environment Setting.strictLengths false)
  .write (.note (.settingResolved Setting.strictLengths strict.value strict.source))
  let credential ← credential surroundings arguments.preset
  let config ← configuration credential
  .write (.note (.programChosen arguments.slot config.description))
  let config ← withCode strict.value .accessCode .accessCode arguments.accessCode config
  let config ←
    withCode strict.value .currentAccessCode .currentAccessCode arguments.currentAccessCode config
  showRecord arguments.slot config

end Otp

end TokenConfig
