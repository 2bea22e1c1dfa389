import TokenConfig.Device.Config
import TokenConfig.Device.FormFactor
import TokenConfig.Device.Serial
import TokenConfig.Tlv.TagMap

/-!
# What a device says about itself

A token answers the question for its information with a byte that counts the bytes behind it, and
tagged values. `TokenConfig.DeviceInfo.parse` reads such a response.

* A token that does not report its firmware version gets the one that the caller gives.
* Numbers may have any number of bytes; what does not fit the number read is lost at the top.
* The values that a firmware version is known to get wrong are corrected
  (`TokenConfig.Reported.correct`), and every correction is an event.
-/

namespace TokenConfig

/-- The information about a token. -/
structure DeviceInfo where
  /-- The firmware version. -/
  version : Version
  /-- The serial number, if the token shows one. -/
  serial : Option Serial
  /-- The shape. -/
  formFactor : FormFactor
  /-- Whether the token is one of the certified series. -/
  isFips : Bool
  /-- Whether the token is one of the security-key series. -/
  isSecurityKey : Bool
  /-- Whether the configuration is locked. -/
  isLocked : Bool
  /-- The capabilities supported over each transport that the token has. -/
  supported : PerTransport Capabilities
  /-- The present configuration. -/
  config : DeviceConfig
deriving DecidableEq

/-- What a token reports about USB. -/
structure Reported where
  /-- The capabilities supported. -/
  supported : Capabilities
  /-- The capabilities enabled, if reported. -/
  enabled : Option Capabilities
deriving DecidableEq

namespace Reported

/-- The capabilities of a token whose firmware does not report them. -/
def unreportedCapabilities : Capabilities := ⟨0x3f⟩

/-- Makes one correction. -/
def fix (reported : Reported) : Correction → Reported
  | .supportedMissing => { reported with supported := unreportedCapabilities }
  | .enabledWrong => { reported with enabled := none }

/-- Corrects what a firmware version reports wrongly. -/
def correct (reported : Reported) (version : Version) : Logged Reported :=
  let corrections := Correction.ofVersion version
  ⟨corrections.foldl fix reported, corrections.map (.corrected version)⟩

end Reported

namespace DeviceInfo

/-- The bit beside the form factor that marks the certified series. -/
def fipsMark : UInt32 := 0x80

/-- The bit beside the form factor that marks the security-key series. -/
def securityKeyMark : UInt32 := 0x40

/-- Capabilities as a response holds them. -/
def capabilitiesOf (word : UInt32) : Capabilities :=
  ⟨word.toBitVec⟩

/-- The number that a response has for a tag, zero if it has none. -/
def word (values : TagMap) (tag : Tag) : UInt32 :=
  values.word tag.code

/-- The capabilities that a response has for a tag, if it has the tag. -/
def capabilities? (values : TagMap) (tag : Tag) : Option Capabilities :=
  (values.get? tag.code).map fun value => capabilitiesOf value.toWord

/-- The firmware version that a response reports, or else `fallback`. A version that is too short to
be one is worth an event. -/
def versionOf (values : TagMap) (fallback : Version) : Logged Version :=
  match values.get? Tag.firmwareVersion.code with
  | none => pure fallback
  | some value =>
    match Version.ofBytes? value with
    | some version => pure version
    | none => ⟨fallback, [.versionIgnored value.length fallback]⟩

/-- The serial number of a response; zero means that the token shows none. -/
def serialOf (values : TagMap) : Option Serial :=
  let number := word values .serial
  if number = 0 then none else some ⟨number⟩

/-- The information in the tagged values of a response. -/
def ofTags (values : TagMap) (fallback : Version) : Logged DeviceInfo := do
  Logged.note (.responseTags values.tags)
  let version ← versionOf values fallback
  let usb ← Reported.correct
    { supported := capabilitiesOf (word values .usbSupported)
      enabled := capabilities? values .usbEnabled } version
  let nfcSupported := capabilities? values .nfcSupported
  let nfcEnabled := nfcSupported.map fun _ => capabilitiesOf (word values .nfcEnabled)
  let form := word values .formFactor
  return {
    version := version
    serial := serialOf values
    formFactor := .ofCode form
    isFips := form &&& fipsMark != 0
    isSecurityKey := form &&& securityKeyMark != 0
    isLocked := word values .configLock == 1
    supported := ⟨some usb.supported, nfcSupported⟩
    config := {
      enabled := ⟨usb.enabled, nfcEnabled⟩
      autoEjectTimeout := some (word values .autoEjectTimeout).toUInt16
      challengeResponseTimeout := some (word values .challengeResponseTimeout).toUInt8
      deviceFlags := some ⟨(word values .deviceFlags).toBitVec⟩ } }

/-- Reads a response. `fallback` is the version of a token that does not report one. -/
def parse (response : Bytes) (fallback : Version) : Except Error (Logged DeviceInfo) :=
  match response with
  | [] => .error (.malformed .emptyResponse)
  | count :: payload =>
    if payload.length = count.toNat then
      match TagMap.decode payload with
      | .ok values => .ok (ofTags values fallback)
      | .error fault => .error fault
    else .error (.malformed .wrongLength)

/-- The transports that a token has. -/
def transports (info : DeviceInfo) : List Transport :=
  info.supported.transports

end DeviceInfo

end TokenConfig
