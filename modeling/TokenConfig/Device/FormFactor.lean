/-!
# Form factors

The shape of a token. It is reported in the low four bits of a word whose higher bits say other
things; a value that stands for no shape is read as `TokenConfig.FormFactor.unknown`.
-/

namespace TokenConfig

/-- The shape of a token. -/
inductive FormFactor where
  /-- Not reported, or a shape without a name here. -/
  | unknown
  /-- For a keychain, with a USB-A plug. -/
  | usbAKeychain
  /-- Small enough to stay plugged in, with a USB-A plug. -/
  | usbANano
  /-- For a keychain, with a USB-C plug. -/
  | usbCKeychain
  /-- Small enough to stay plugged in, with a USB-C plug. -/
  | usbCNano
  /-- For a keychain, with a USB-C and a Lightning plug. -/
  | usbCLightning
  /-- With a fingerprint reader and a USB-A plug. -/
  | usbABio
  /-- With a fingerprint reader and a USB-C plug. -/
  | usbCBio
deriving DecidableEq

namespace FormFactor

/-- The shapes, each at the place of its code. -/
def all : List FormFactor :=
  [.unknown, .usbAKeychain, .usbANano, .usbCKeychain, .usbCNano, .usbCLightning, .usbABio, .usbCBio]

/-- The code of a shape. -/
def code (formFactor : FormFactor) : Nat :=
  all.idxOf formFactor

/-- The shape whose code is in the low four bits of a word. -/
def ofCode (word : UInt32) : FormFactor :=
  all[(word &&& 0x0f).toNat]?.getD .unknown

/-- The name of a shape for people. -/
def text : FormFactor → String
  | .unknown => "Unknown"
  | .usbAKeychain => "Keychain (USB-A)"
  | .usbANano => "Nano (USB-A)"
  | .usbCKeychain => "Keychain (USB-C)"
  | .usbCNano => "Nano (USB-C)"
  | .usbCLightning => "Keychain (USB-C, Lightning)"
  | .usbABio => "Bio (USB-A)"
  | .usbCBio => "Bio (USB-C)"

/-- Every shape is the one of its code. -/
theorem ofCode_code (formFactor : FormFactor) :
    ofCode formFactor.code.toUInt32 = formFactor := by
  cases formFactor <;> rfl

end FormFactor

end TokenConfig
