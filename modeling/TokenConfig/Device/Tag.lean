import TokenConfig.Bytes

/-!
# The tags of device information

What a token reports about itself, and what is sent to it to change its configuration, are tagged
values. `TokenConfig.Tag` names the tags and `TokenConfig.Tag.code` numbers them.
-/

namespace TokenConfig

/-- A tag of device information. -/
inductive Tag where
  /-- The capabilities supported over USB. -/
  | usbSupported
  /-- The serial number. -/
  | serial
  /-- The capabilities enabled over USB. -/
  | usbEnabled
  /-- The form factor and two marks beside it. -/
  | formFactor
  /-- The firmware version. -/
  | firmwareVersion
  /-- The seconds until an unused token ejects itself. -/
  | autoEjectTimeout
  /-- The seconds that a challenge waits for a touch. -/
  | challengeResponseTimeout
  /-- The flags of the device. -/
  | deviceFlags
  /-- Whether the configuration is locked, or the code that locks it. -/
  | configLock
  /-- The code that unlocks the configuration. -/
  | unlock
  /-- Restart after the change. -/
  | reboot
  /-- The capabilities supported over NFC. -/
  | nfcSupported
  /-- The capabilities enabled over NFC. -/
  | nfcEnabled
deriving DecidableEq

namespace Tag

/-- The number of a tag. -/
def code : Tag → UInt32
  | .usbSupported => 0x01
  | .serial => 0x02
  | .usbEnabled => 0x03
  | .formFactor => 0x04
  | .firmwareVersion => 0x05
  | .autoEjectTimeout => 0x06
  | .challengeResponseTimeout => 0x07
  | .deviceFlags => 0x08
  | .configLock => 0x0a
  | .unlock => 0x0b
  | .reboot => 0x0c
  | .nfcSupported => 0x0d
  | .nfcEnabled => 0x0e

/-- Different tags have different numbers. -/
theorem code_injective {a b : Tag} (h : a.code = b.code) : a = b := by
  cases a <;> cases b <;> first | rfl | exact absurd h (by decide)

end Tag

end TokenConfig
