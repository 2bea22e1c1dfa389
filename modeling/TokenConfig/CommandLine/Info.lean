import TokenConfig.CommandLine.Surroundings
import TokenConfig.Device.Info

/-!
# Showing the information about a device

The subcommand `info` reads a response, given in hexadecimal, and shows what it says, one line a
value. A value that is not there is shown as such, or its line is left out. All lines are shown to
an output that takes all that is written (see `TokenConfig.Output`).
-/

namespace TokenConfig

namespace Info

/-- The arguments of the subcommand. -/
structure Arguments where
  /-- The version of a device that does not report one. -/
  fallback : Version
  /-- The response in hexadecimal. -/
  response : String
deriving DecidableEq

/-- What is shown for a value that is not there. -/
def nothing : String := "<none>"

/-- A set of capabilities: the names of those that have one, then the others as one number. -/
def capabilityText (capabilities : Capabilities) : String :=
  if capabilities.isEmpty then nothing
  else
    let unknown := capabilities.unknown
    let rest := if unknown = 0 then [] else [Hex.marked 4 unknown.toNat]
    " ".intercalate (capabilities.names ++ rest)

/-- The lines on one transport. A transport that the device has not has no lines. -/
def transportEntries (info : DeviceInfo) (transport : Transport) : List Output :=
  match info.supported.get? transport with
  | none => []
  | some supported =>
    let enabled := match info.config.enabled.get? transport with
      | some capabilities => capabilityText capabilities
      | none => nothing
    [.entry (transport.text ++ " supported") (capabilityText supported),
      .entry (transport.text ++ " enabled") enabled]

/-- The line of a value that may be missing, with no line for a missing one. -/
def entry? {α : Type} (name : String) (text : α → String) : Option α → List Output
  | some value => [.entry name (text value)]
  | none => []

/-- The lines on a device. -/
def entries (info : DeviceInfo) : List Output :=
  let serial := match info.serial with
    | some serial => serial.text
    | none => nothing
  [.entry "version" info.version.text,
    .entry "serial" serial,
    .entry "form factor" info.formFactor.text,
    .entry "FIPS" (toString info.isFips),
    .entry "security key" (toString info.isSecurityKey),
    .entry "locked" (toString info.isLocked)] ++
  Transport.all.flatMap (transportEntries info) ++
  entry? "auto-eject timeout" (fun seconds => toString seconds.toNat)
    info.config.autoEjectTimeout ++
  entry? "chal-resp timeout" (fun seconds => toString seconds.toNat)
    info.config.challengeResponseTimeout ++
  entry? "device flags" (fun flags => Hex.marked 2 flags.bits.toNat) info.config.deviceFlags

/-- The whole subcommand. The output takes all lines: a run in which it does not, and which ends
with a message about that, is left out. -/
def run (arguments : Arguments) : Session Unit := do
  let response ← decodeArgument "response" arguments.response
  match DeviceInfo.parse response arguments.fallback with
  | .error fault => .fail ("can't decode device info: " ++ fault.message)
  | .ok info =>
    let info ← .ofLogged info
    ⟨some (), entries info⟩

end Info

end TokenConfig
