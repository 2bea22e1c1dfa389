import Mathlib.Data.Nat.Bitwise
import TokenConfig.Proofs.Device.LastValue

/-!
# The numbers of a response

The values of a response have any number of bytes, and what they are read into has 8, 16 or 32 bits.
Reading goes through a word of 32 bits, which keeps the number modulo `2 ^ 32`
(`TokenConfig.DeviceInfo.toNat_word`), and what is made of the word depends on the number alone:

* a narrower word keeps the number modulo a smaller power of two, which divides `2 ^ 32`;
* a mark is one bit of the number (`TokenConfig.and_mark_ne_zero`);
* the form factor is the remainder modulo 16 (`TokenConfig.FormFactor.ofCode_eq_ofNibble`).

`TokenConfig.DeviceInfo.HasNumbers` says it for all the numbers of a device, with the numbers of the
tags, and `TokenConfig.DeviceInfo.parse_numbers` for every response that is read.
-/

namespace TokenConfig

/-! ### Parts of a word -/

/-- **A mark is a bit of the number.** -/
theorem and_mark_ne_zero {word mark : UInt32} {place : Nat} (h : mark.toNat = 2 ^ place) :
    (word &&& mark != 0) = word.toNat.testBit place := by
  have hand : (word &&& mark).toNat = (word.toNat.testBit place).toNat * 2 ^ place := by
    rw [UInt32.toNat_and, h, Nat.and_two_pow]
  have hzero : word &&& mark = 0 ↔ word.toNat.testBit place = false := by
    rw [← UInt32.toNat_inj, hand]
    cases word.toNat.testBit place <;> simp
  rw [bne, Bool.eq_iff_iff]
  simp [hzero]

namespace FormFactor

/-- The shape that a number below 16 stands for. -/
def ofNibble : Nat → FormFactor
  | 1 => .usbAKeychain
  | 2 => .usbANano
  | 3 => .usbCKeychain
  | 4 => .usbCNano
  | 5 => .usbCLightning
  | 6 => .usbABio
  | 7 => .usbCBio
  | _ => .unknown

/-- **The shape is in the low four bits**, and none of the others matters. -/
theorem ofCode_eq_ofNibble (word : UInt32) : ofCode word = ofNibble (word.toNat % 16) := by
  have hlow : (word &&& 0x0f).toNat = word.toNat % 16 := by
    rw [UInt32.toNat_and]
    exact Nat.and_two_pow_sub_one_eq_mod word.toNat 4
  have hall : ∀ code, all[code]?.getD .unknown = ofNibble code := by
    intro code
    match code with
    | 0 | 1 | 2 | 3 | 4 | 5 | 6 | 7 => rfl
    | code + 8 => rfl
  rw [ofCode, hlow, hall]

end FormFactor

namespace DeviceInfo

open Tlv (Encoding)

variable {values : TagMap} {fallback : Version}

/-! ### Numbers of any size -/

/-- The number that the last value of a tag stands for, zero if the tag is missing. It has no
bound. -/
def lastNumber (encodings : List Encoding) (tag : UInt32) : Nat :=
  Bytes.toNat ((lastValue tag encodings).getD [])

/-- **The word of a tag keeps its number modulo `2 ^ 32`.** -/
theorem toNat_word (encodings : List Encoding) (tag : UInt32) :
    ((TagMap.ofList (encodings.map (·.tlv))).word tag).toNat =
      lastNumber encodings tag % 2 ^ 32 := by
  rw [TagMap.word, get?_ofList_encodings, lastNumber]
  cases lastValue tag encodings with
  | none => rfl
  | some value => exact Bytes.toNat_toWord value

/-- The numbers of a device, where `number` has the number behind each tag. -/
structure HasNumbers (info : DeviceInfo) (number : UInt32 → Nat) : Prop where
  /-- The serial number has 32 bits, and none is shown if they are zero. -/
  serial : info.serial.map (·.number.toNat) =
    if number 0x02 % 2 ^ 32 = 0 then none else some (number 0x02 % 2 ^ 32)
  /-- The time until a token ejects itself has 16 bits. -/
  autoEjectTimeout : info.config.autoEjectTimeout.map (·.toNat) = some (number 0x06 % 2 ^ 16)
  /-- The time to wait for a touch has 8 bits. -/
  challengeResponseTimeout :
    info.config.challengeResponseTimeout.map (·.toNat) = some (number 0x07 % 2 ^ 8)
  /-- The flags of the device have 32 bits. -/
  deviceFlags : info.config.deviceFlags.map (·.bits.toNat) = some (number 0x08 % 2 ^ 32)
  /-- A configuration is locked if its 32 bits are the number one. -/
  isLocked : info.isLocked = true ↔ number 0x0a % 2 ^ 32 = 1
  /-- The mark of the certified series is a bit beside the form factor. -/
  isFips : info.isFips = (number 0x04).testBit 7
  /-- The mark of the security-key series is another one. -/
  isSecurityKey : info.isSecurityKey = (number 0x04).testBit 6
  /-- The form factor is in the four lowest bits. -/
  formFactor : info.formFactor = .ofNibble (number 0x04 % 16)

/-- **What is made of words** whose numbers are known modulo `2 ^ 32`. -/
theorem hasNumbers_ofTags {number : UInt32 → Nat}
    (hword : ∀ tag, (values.word tag).toNat = number tag % 2 ^ 32) (fallback : Version) :
    (ofTags values fallback).value.HasNumbers number := by
  have hbit : ∀ {place : Nat} (mark : UInt32), mark.toNat = 2 ^ place → place < 32 →
      (values.word 0x04 &&& mark != 0) = (number 0x04).testBit place := by
    intro place mark hmark hplace
    rw [and_mark_ne_zero hmark, hword, Nat.testBit_mod_two_pow, decide_eq_true hplace,
      Bool.true_and]
  constructor
  case serial =>
    have hserial : (ofTags values fallback).value.serial =
        if values.word 0x02 = 0 then none else some ⟨values.word 0x02⟩ := rfl
    have hzero : values.word 0x02 = 0 ↔ number 0x02 % 2 ^ 32 = 0 := by
      rw [← UInt32.toNat_inj, hword]
      rfl
    rw [hserial, ← hword]
    simp only [hzero, hword]
    split
    · rfl
    · exact congrArg some (hword 0x02)
  case autoEjectTimeout =>
    have hnarrow : (values.word 0x06).toUInt16.toNat = number 0x06 % 2 ^ 16 := by
      rw [UInt32.toNat_toUInt16, hword, Nat.mod_mod_of_dvd _ (by decide)]
    exact congrArg some hnarrow
  case challengeResponseTimeout =>
    have hnarrow : (values.word 0x07).toUInt8.toNat = number 0x07 % 2 ^ 8 := by
      rw [UInt32.toNat_toUInt8, hword, Nat.mod_mod_of_dvd _ (by decide)]
    exact congrArg some hnarrow
  case deviceFlags => exact congrArg some (hword 0x08)
  case isLocked =>
    have hlocked : (ofTags values fallback).value.isLocked = (values.word 0x0a == 1) := rfl
    rw [hlocked, beq_iff_eq, ← UInt32.toNat_inj, hword]
    rfl
  case isFips => exact hbit fipsMark rfl (by decide)
  case isSecurityKey => exact hbit securityKeyMark rfl (by decide)
  case formFactor =>
    have hform : (ofTags values fallback).value.formFactor = .ofCode (values.word 0x04) := rfl
    rw [hform, FormFactor.ofCode_eq_ofNibble, hword, Nat.mod_mod_of_dvd _ (by decide)]

/-- **The numbers of every response that is read** are those of the last values of its tags. -/
theorem parse_numbers {response : Bytes} {read : Logged DeviceInfo}
    (h : parse response fallback = .ok read) :
    ∃ encodings, response = respond encodings ∧ read.value.HasNumbers (lastNumber encodings) := by
  obtain ⟨encodings, rfl, rfl⟩ := exists_eq_ofTags_of_parse h
  exact ⟨encodings, rfl, hasNumbers_ofTags (toNat_word encodings) fallback⟩

/-- Numbers of more than 32 bits, and both marks beside a form factor: the serial number and the
lock lose what is above, and the tag that comes twice counts with its last value. -/
theorem parse_numbers_of_long_values :
    ∃ read, parse [0x15, 0x0a, 0x01, 0x00, 0x02, 0x05, 1, 0, 0, 0, 7, 0x04, 0x02, 0x01, 0xc3,
        0x0a, 0x05, 1, 0, 0, 0, 1] ⟨5, 4, 3⟩ = .ok read ∧
      read.value.serial.map (·.number.toNat) = some 7 ∧ read.value.isLocked = true ∧
      read.value.isFips = true ∧ read.value.isSecurityKey = true ∧
      read.value.formFactor = .usbCKeychain := by
  let encodings : List Encoding := [
    ⟨[0x0a], [0x01], [0x00], .short _ (by decide), .short 1 (by decide)⟩,
    ⟨[0x02], [0x05], [1, 0, 0, 0, 7], .short _ (by decide), .short 5 (by decide)⟩,
    ⟨[0x04], [0x02], [0x01, 0xc3], .short _ (by decide), .short 2 (by decide)⟩,
    ⟨[0x0a], [0x05], [1, 0, 0, 0, 1], .short _ (by decide), .short 5 (by decide)⟩]
  have hread := parse_respond (show (Encoding.concat encodings).length ≤ 255 by decide) ⟨5, 4, 3⟩
  obtain ⟨others, hsame, hnumbers⟩ := parse_numbers hread
  obtain rfl := respond_injective hsame
  have hserial : lastNumber encodings 0x02 = 2 ^ 32 + 7 := by decide
  have hlock : lastNumber encodings 0x0a = 2 ^ 32 + 1 := by decide
  have hform : lastNumber encodings 0x04 = 0x1c3 := by decide
  refine ⟨_, hread, ?_, ?_, ?_, ?_, ?_⟩
  · rw [hnumbers.serial, hserial]
    rfl
  · exact hnumbers.isLocked.mpr (by rw [hlock]; rfl)
  · rw [hnumbers.isFips, hform]
    rfl
  · rw [hnumbers.isSecurityKey, hform]
    rfl
  · rw [hnumbers.formFactor, hform]
    rfl

end DeviceInfo

end TokenConfig
