import TokenConfig.Flags

/-!
# Transports and capabilities

A token is reached over USB and, if it has an antenna, over NFC. Over each of these transports it
offers some of its applications, its *capabilities*; which ones it offers can be configured.
-/

namespace TokenConfig

/-! ### Transports -/

/-- A way to reach a token. -/
inductive Transport where
  /-- Plugged in. -/
  | usb
  /-- Held close. -/
  | nfc
deriving DecidableEq

namespace Transport

/-- The transports in their order. -/
def all : List Transport :=
  [.usb, .nfc]

/-- The name of a transport. -/
def text : Transport → String
  | .usb => "USB"
  | .nfc => "NFC"

end Transport

/-- Something that each transport may or may not have. -/
structure PerTransport (α : Type) where
  /-- What USB has. -/
  usb : Option α
  /-- What NFC has. -/
  nfc : Option α
deriving DecidableEq

namespace PerTransport

variable {α : Type}

/-- Nothing for either transport. -/
def none : PerTransport α :=
  ⟨.none, .none⟩

/-- What a transport has. -/
def get? (values : PerTransport α) : Transport → Option α
  | .usb => values.usb
  | .nfc => values.nfc

/-- The values after one transport was given another one. -/
def set (values : PerTransport α) (transport : Transport) (value : α) : PerTransport α :=
  match transport with
  | .usb => { values with usb := some value }
  | .nfc => { values with nfc := some value }

/-- The transports that have a value. -/
def transports (values : PerTransport α) : List Transport :=
  Transport.all.filter fun transport => (values.get? transport).isSome

/-- A transport has what it was given; the other one keeps what it had. -/
theorem get?_set (values : PerTransport α) (transport other : Transport) (value : α) :
    (values.set transport value).get? other =
      if other = transport then some value else values.get? other := by
  cases transport <;> cases other <;> rfl

end PerTransport

/-! ### Capabilities -/

/-- The names of the applications of a token. -/
def capabilityVocabulary : Vocabulary 32 where
  title := "Capability"
  flags := [
    ⟨"OTP", 0x01⟩,
    ⟨"U2F", 0x02⟩,
    ⟨"OPENPGP", 0x08⟩,
    ⟨"PIV", 0x10⟩,
    ⟨"OATH", 0x20⟩,
    ⟨"HSMAUTH", 0x100⟩,
    ⟨"FIDO2", 0x200⟩]

/-- A set of applications of a token. -/
abbrev Capabilities := FlagWord capabilityVocabulary

/-! ### Behaviour of the device -/

/-- The names of the flags for the whole device. -/
def deviceVocabulary : Vocabulary 32 where
  title := "DeviceFlags"
  flags := [
    ⟨"REMOTE_WAKEUP", 0x40⟩,
    ⟨"EJECT", 0x80⟩]

/-- Flags for the whole device. -/
abbrev DeviceFlags := FlagWord deviceVocabulary

end TokenConfig
