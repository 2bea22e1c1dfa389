import TokenConfig.Device.Capability
import TokenConfig.Device.Tag
import TokenConfig.Event
import TokenConfig.Tlv

/-!
# Configuring a device

A `TokenConfig.DeviceConfig` is what can be changed about a token as a whole. Every part of it is
optional: a configuration that was read holds what the token reported, a configuration that is sent
changes what it holds and nothing else.

`TokenConfig.DeviceConfig.encode` makes the payload that is sent: tagged values in a fixed order, at
most one of each tag, behind a byte that counts their bytes. A code that is not 16 bytes long is
refused, and so is a set of bits that does not fit the bytes it gets.
-/

namespace TokenConfig

/-- What can be changed about a token. -/
structure DeviceConfig where
  /-- The capabilities enabled over each transport. -/
  enabled : PerTransport Capabilities
  /-- The seconds until an unused token ejects itself. -/
  autoEjectTimeout : Option UInt16
  /-- The seconds that a challenge waits for a touch. -/
  challengeResponseTimeout : Option UInt8
  /-- The flags of the device. -/
  deviceFlags : Option DeviceFlags
deriving DecidableEq

/-- What goes with a configuration when it is sent. -/
structure DeviceConfig.Request where
  /-- Whether the token restarts after the change. -/
  reboot : Bool
  /-- The code that unlocks the configuration. -/
  currentLock : Option Bytes
  /-- The code that locks the configuration from now on; a code of zeros takes the lock away. -/
  newLock : Option Bytes
deriving DecidableEq

namespace DeviceConfig

/-- The identifier of the applet that manages the device. -/
def appletId : Bytes := [0xa0, 0x00, 0x00, 0x05, 0x27, 0x47, 0x11, 0x17]

/-- The number of bytes of a code that locks a configuration. -/
def lockCodeSize : Nat := 16

/-- The configuration that changes nothing. -/
def empty : DeviceConfig where
  enabled := .none
  autoEjectTimeout := none
  challengeResponseTimeout := none
  deviceFlags := none

/-! ### Steps -/

/-- One thing that can be asked of a configuration. -/
inductive Step where
  /-- Enable exactly these capabilities over a transport. -/
  | enabled (transport : Transport) (capabilities : Capabilities)
  /-- Set the seconds until an unused token ejects itself. -/
  | autoEject (seconds : UInt16)
  /-- Set the seconds that a challenge waits for a touch. -/
  | challengeResponse (seconds : UInt8)
  /-- Set the flags of the device. -/
  | deviceFlags (flags : DeviceFlags)
deriving DecidableEq

/-- Does one step. -/
def apply (config : DeviceConfig) : Step → DeviceConfig
  | .enabled transport capabilities =>
    { config with enabled := config.enabled.set transport capabilities }
  | .autoEject seconds => { config with autoEjectTimeout := some seconds }
  | .challengeResponse seconds => { config with challengeResponseTimeout := some seconds }
  | .deviceFlags flags => { config with deviceFlags := some flags }

/-- Does steps one after another. -/
def run (config : DeviceConfig) (steps : List Step) : DeviceConfig :=
  steps.foldl apply config

/-! ### The payload -/

/-- The bytes of a code, if it has the right number of them. -/
def lockBytes (code : Bytes) : Except Error Bytes :=
  if code.length = lockCodeSize then .ok code else .error .argument

/-- The two bytes of a set of capabilities, if it fits them. -/
def capabilityBytes (capabilities : Capabilities) : Except Error Bytes :=
  if capabilities.bits.toNat ≤ 0xffff then
    .ok (Bytes.bigEndian capabilities.bits.toNat.toUInt16)
  else .error .argument

/-- The byte of the flags of a device, if they fit it. -/
def flagBytes (flags : DeviceFlags) : Except Error Bytes :=
  if flags.bits.toNat ≤ 0xff then .ok [flags.bits.toNat.toUInt8] else .error .argument

/-- The tagged value of a part, if the part is there. -/
def tagged {α : Type} (tag : Tag) (bytes : α → Except Error Bytes) :
    Option α → Except Error (List Tlv)
  | none => .ok []
  | some value =>
    match bytes value with
    | .ok bytes => .ok [⟨tag.code, bytes⟩]
    | .error fault => .error fault

/-- The tagged values of a configuration and of what goes with it, in their order. -/
def tlvs (config : DeviceConfig) (request : Request) : Except Error (List Tlv) := do
  let reboot ← tagged .reboot (fun _ => .ok []) (if request.reboot then some () else none)
  let unlock ← tagged .unlock lockBytes request.currentLock
  let usb ← tagged .usbEnabled capabilityBytes config.enabled.usb
  let nfc ← tagged .nfcEnabled capabilityBytes config.enabled.nfc
  let eject ← tagged .autoEjectTimeout (fun s => .ok (Bytes.bigEndian s)) config.autoEjectTimeout
  let wait ← tagged .challengeResponseTimeout (fun s => .ok [s]) config.challengeResponseTimeout
  let flags ← tagged .deviceFlags flagBytes config.deviceFlags
  let lock ← tagged .configLock lockBytes request.newLock
  return reboot ++ unlock ++ usb ++ nfc ++ eject ++ wait ++ flags ++ lock

/-- The bytes of tagged values one behind the other. -/
def concatenated : List Tlv → Except Error Bytes
  | [] => .ok []
  | tlv :: rest => do
    let front ← tlv.encode
    let back ← concatenated rest
    return front ++ back

/-- The payload of a configuration: a byte that counts the bytes behind it, then these bytes. -/
def encode (config : DeviceConfig) (request : Request) : Except Error (Logged Bytes) := do
  let values ← config.tlvs request
  let payload ← concatenated values
  if payload.length ≤ 0xff then
    return ⟨payload.length.toUInt8 :: payload, [.configEncoded payload.length]⟩
  else throw .size

end DeviceConfig

end TokenConfig
