import TokenConfig.Slot.Builder

/-!
# What a slot is programmed with

A `TokenConfig.Credential` is the credential that a slot is to hold, and
`TokenConfig.SlotConfiguration.ofCredential` turns it into a configuration: the values in their
fields (`TokenConfig.Credential.steps`), and the program and the flags that this kind of credential
needs (`TokenConfig.SlotConfiguration.ofKind`). A credential that does not fit whole is refused
(`TokenConfig.Credential.fits`), so that no part of one is ever cut.

A configuration can then be adjusted (`TokenConfig.SlotConfiguration.Adjustment`): access codes are
set, flags are switched on and off. `TokenConfig.SlotConfiguration.toBuilder` adds the flags to the
values, and leaves out of an update the flags that an update may not change; the log says which.
-/

namespace TokenConfig

/-- A credential for a slot. -/
inductive Credential where
  /-- One-time passwords made by an AES key, with a public identifier in front. -/
  | yubicoOtp (publicId : Bytes) (privateId : Bytes.Exactly Field.uid.size)
      (key : Bytes.Exactly Field.key.size)
  /-- Answers to challenges by HMAC-SHA1, perhaps only after a touch. -/
  | hmacSha1 (key : Bytes) (touch : Bool)
  /-- Counted one-time passwords of six or eight digits. -/
  | hotp (key : Bytes) (eightDigits : Bool)
  /-- A password given by its scan codes. -/
  | staticPassword (scanCodes : Bytes)
  /-- A password that the token derives from an AES key. -/
  | staticTicket (fixed : Bytes) (uid : Bytes.Exactly Field.uid.size)
      (key : Bytes.Exactly Field.key.size)
  /-- The credential that the slot has already. -/
  | update
deriving DecidableEq

namespace Credential

/-- Whether a record has room for a whole credential. -/
def fits : Credential → Bool
  | .yubicoOtp publicId _ _ => publicId.length ≤ Field.fixed.size
  | .hmacSha1 key _ => key.length ≤ KeyMode.hmacSha1.capacity
  | .hotp key _ => key.length ≤ KeyMode.hmacSha1.capacity
  | .staticPassword scanCodes => scanCodes.length ≤ KeyMode.static.capacity
  | .staticTicket fixed _ _ => fixed.length ≤ Field.fixed.size
  | .update => true

/-- The steps that put a credential into a record. -/
def steps : Credential → List Builder.Step
  | .yubicoOtp publicId privateId key =>
    [.fixed publicId, .uid privateId.bytes, .key .aes key.bytes]
  | .hmacSha1 key _ => [.key .hmacSha1 key]
  | .hotp key _ => [.key .hmacSha1 key]
  | .staticPassword scanCodes => [.key .static scanCodes]
  | .staticTicket fixed uid key => [.fixed fixed, .uid uid.bytes, .key .aes key.bytes]
  | .update => []

end Credential

/-- What a slot is programmed with. The flags are kept apart from those of the builder, which has
none until the record is made. -/
structure SlotConfiguration where
  /-- Whether the slot is configured anew or updated. -/
  program : Program
  /-- The values of the record. -/
  builder : Builder
  /-- The configuration flags. -/
  configFlags : ConfigFlags
  /-- The extended flags. -/
  extendedFlags : ExtendedFlags
  /-- The ticket flags. -/
  ticketFlags : TicketFlags
deriving DecidableEq

namespace SlotConfiguration

/-! ### From a credential -/

/-- A configuration without values. The serial number is visible to programs, and the slot can be
updated later. -/
def base (program : Program) : SlotConfiguration where
  program := program
  builder := .empty
  configFlags := .empty
  extendedFlags := ExtendedFlags.serialApiVisible.union ExtendedFlags.allowUpdate
  ticketFlags := .empty

/-- The base of everything that is typed: a touch is answered at once, and the output ends in a
carriage return. -/
def keyboard : SlotConfiguration :=
  let plain := base .configure
  { plain with
    ticketFlags := plain.ticketFlags.union TicketFlags.appendCr
    extendedFlags := plain.extendedFlags.union ExtendedFlags.fastTrigger }

/-- The configuration after steps on its builder. -/
def withValues (config : SlotConfiguration) (steps : List Builder.Step) :
    Logged SlotConfiguration := do
  let builder ← config.builder.run steps
  return { config with builder := builder }

/-- The configuration with the program and the flags that a kind of credential needs, and no values
yet. -/
def ofKind : Credential → SlotConfiguration
  | .yubicoOtp .. => keyboard
  | .hmacSha1 _ touch =>
    let plain := base .configure
    let answering := ConfigFlags.challengeHmac.union ConfigFlags.shortChallenge
    { plain with
      ticketFlags := plain.ticketFlags.union TicketFlags.challengeResponse
      configFlags := (plain.configFlags.union answering).set ConfigFlags.challengeTouch touch }
  | .hotp _ eightDigits =>
    { keyboard with
      ticketFlags := keyboard.ticketFlags.union TicketFlags.oathHotp
      configFlags := keyboard.configFlags.set ConfigFlags.eightDigits eightDigits }
  | .staticPassword _ =>
    { keyboard with configFlags := keyboard.configFlags.union ConfigFlags.shortTicket }
  | .staticTicket .. =>
    { keyboard with configFlags := keyboard.configFlags.union ConfigFlags.staticTicket }
  | .update =>
    let plain := base .update
    { plain with ticketFlags := plain.ticketFlags.union TicketFlags.appendCr }

/-- The configuration of a credential. A credential that does not fit whole is refused. -/
def ofCredential (credential : Credential) : Except Error (Logged SlotConfiguration) :=
  if credential.fits then .ok ((ofKind credential).withValues credential.steps)
  else .error .argument

/-! ### Adjustments -/

/-- One thing that can be changed about a configuration. -/
inductive Adjustment where
  /-- Set the access code that protects the slot from now on. -/
  | accessCode (bytes : Bytes)
  /-- Set the access code that protects the slot so far. -/
  | currentAccessCode (bytes : Bytes)
  /-- Switch ticket flags on or off. -/
  | ticketFlags (mask : TicketFlags) (on : Bool)
  /-- Switch configuration flags on or off. -/
  | configFlags (mask : ConfigFlags) (on : Bool)
  /-- Switch extended flags on or off. -/
  | extendedFlags (mask : ExtendedFlags) (on : Bool)
deriving DecidableEq

/-- Makes one change. -/
def adjust (config : SlotConfiguration) : Adjustment → Logged SlotConfiguration
  | .accessCode bytes => config.withValues [.accessCode bytes]
  | .currentAccessCode bytes => config.withValues [.currentAccessCode bytes]
  | .ticketFlags mask on => pure { config with ticketFlags := config.ticketFlags.set mask on }
  | .configFlags mask on => pure { config with configFlags := config.configFlags.set mask on }
  | .extendedFlags mask on =>
    pure { config with extendedFlags := config.extendedFlags.set mask on }

/-- Makes changes one after another. -/
def adjustAll (config : SlotConfiguration) : List Adjustment → Logged SlotConfiguration
  | [] => pure config
  | adjustment :: rest => do
    let config ← config.adjust adjustment
    config.adjustAll rest

/-! ### The record -/

/-- The flags of a kind that a program may send. What an update may not change is left out, and
worth an event. -/
def permitted {vocabulary : Vocabulary 8} (program : Program) (kind : RestrictedFlags)
    (updatable flags : FlagWord vocabulary) : Logged (FlagWord vocabulary) :=
  match program with
  | .configure => pure flags
  | .update => do
    let dropped := flags.diff updatable
    Logged.noteIf (!dropped.isEmpty) (.flagsDropped kind dropped.bits)
    return flags.inter updatable

/-- The builder with the values and the flags of a configuration. -/
def toBuilder (config : SlotConfiguration) : Logged Builder := do
  let ticket ← permitted config.program .ticket TicketFlags.updatable config.ticketFlags
  let extended ← permitted config.program .extended ExtendedFlags.updatable config.extendedFlags
  return { config.builder with
    configFlags := config.configFlags
    extendedFlags := extended
    ticketFlags := ticket }

/-- The record of a configuration. -/
def build (config : SlotConfiguration) : Logged Bytes := do
  let builder ← config.toBuilder
  return builder.build

/-- The code of the command that sends a configuration to a slot. -/
def command (config : SlotConfiguration) (slot : Slot) : UInt8 :=
  slot.command config.program

/-- The configuration in one line, which shows lengths and flags, and of no value its contents. -/
def description (config : SlotConfiguration) : String :=
  Braced.full "SlotConfiguration" [
    Braced.part "program" config.program.name,
    Braced.part "builder" config.builder.description,
    Braced.part "cfg_flags" config.configFlags.description,
    Braced.part "ext_flags" config.extendedFlags.description,
    Braced.part "tkt_flags" config.ticketFlags.description]

end SlotConfiguration

end TokenConfig
