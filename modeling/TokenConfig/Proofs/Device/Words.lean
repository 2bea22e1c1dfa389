import Mathlib.Data.List.DropRight
import Mathlib.Data.Nat.Digits.Defs
import TokenConfig.Proofs.Device.Payload

/-!
# Words that are read

Every number that a token reports is read into a word of 32 bits, whatever the number of bytes that
it comes in. The word is the number modulo `2 ^ 32`
(`TokenConfig.Bytes.toNat_toWord`), and `256 ^ 4` is `2 ^ 32`, so a word is made of the last four
bytes alone (`TokenConfig.Bytes.toWord_append`); zeros in front are lost on the number already.

What is written of a configuration has two bytes or one, so nothing is lost on it.
`TokenConfig.DeviceConfig.number?` is the number that a configuration has for a tag, and
`TokenConfig.Bytes.toWord_reads` says, besides what a word is in general, that this number is read
where the configuration was written.
-/

namespace TokenConfig

/-! ### What a word is made of -/

namespace Bytes

/-- The number of a byte string has its bytes for digits. -/
theorem toNat_eq_ofDigits (bytes : Bytes) :
    toNat bytes = Nat.ofDigits 256 (bytes.reverse.map UInt8.toNat) := by
  induction bytes using List.reverseRecOn with
  | nil => rfl
  | append_singleton bytes byte ih =>
    rw [toNat_append_singleton, ih, List.reverse_append, List.reverse_singleton,
      List.singleton_append, List.map_cons, Nat.ofDigits_cons, Nat.add_comm]

/-- **Four bytes fill a word**: what stands before them is lost. -/
theorem toWord_append (front : Bytes) {rest : Bytes} (h : 4 ≤ rest.length) :
    toWord (front ++ rest) = toWord rest := by
  have hpow : 256 ^ rest.length = 2 ^ 32 * 256 ^ (rest.length - 4) :=
    (pow_mul_pow_sub 256 h).symm
  apply UInt32.toNat_inj.mp
  rw [toNat_toWord, toNat_toWord, toNat_append, hpow, Nat.mul_left_comm, Nat.mul_add_mod]

/-- **The last four bytes** decide, or all bytes if there are fewer. -/
theorem toWord_rtake (bytes : Bytes) : toWord (bytes.rtake 4) = toWord bytes := by
  rw [List.rtake]
  rcases Nat.le_total bytes.length 4 with hshort | hlong
  · rw [Nat.sub_eq_zero_of_le hshort, List.drop_zero]
  · have hlength : (bytes.drop (bytes.length - 4)).length = 4 := by
      rw [List.length_drop]
      omega
    conv_rhs => rw [← List.take_append_drop (bytes.length - 4) bytes]
    exact (toWord_append _ hlength.ge).symm

theorem toNat_replicate_zero_append (count : Nat) (bytes : Bytes) :
    toNat (List.replicate count 0 ++ bytes) = toNat bytes := by
  induction count with
  | zero => rfl
  | succ count ih =>
    rw [List.replicate_succ, List.cons_append, toNat_cons, ih, UInt8.toNat_zero, Nat.zero_mul,
      Nat.zero_add]

/-- Zeros in front do not matter. -/
theorem toWord_replicate_zero_append (count : Nat) (bytes : Bytes) :
    toWord (List.replicate count 0 ++ bytes) = toWord bytes := by
  apply UInt32.toNat_inj.mp
  rw [toNat_toWord, toNat_toWord, toNat_replicate_zero_append]

/-! ### Numbers that were written -/

theorem toWord_bigEndian (word : UInt16) : toWord (bigEndian word) = word.toUInt32 := by
  apply UInt32.toNat_inj.mp
  rw [bigEndian_eq_digits, toNat_toWord_digits (by decide) word.toNat_lt, UInt16.toNat_toUInt32]

theorem toWord_singleton (byte : UInt8) : toWord [byte] = byte.toUInt32 := by
  apply UInt32.toNat_inj.mp
  rw [singleton_eq_digits, toNat_toWord_digits (by decide) byte.toNat_lt, UInt8.toNat_toUInt32]

end Bytes

namespace DeviceConfig

variable {config : DeviceConfig} {request : Request} {values : TagMap}

/-- The number that a configuration has for a tag, if it has one. -/
def number? (config : DeviceConfig) : Tag → Option Nat
  | .usbEnabled => (config.enabled.get? .usb).map (·.bits.toNat)
  | .nfcEnabled => (config.enabled.get? .nfc).map (·.bits.toNat)
  | .autoEjectTimeout => config.autoEjectTimeout.map (·.toNat)
  | .challengeResponseTimeout => config.challengeResponseTimeout.map (·.toNat)
  | .deviceFlags => config.deviceFlags.map (·.bits.toNat)
  | _ => none

/-- A part that was written with enough digits is read as it was. -/
theorem map_toWord_digits {α : Type} {number : α → Nat} {width : Nat} (hwidth : width ≤ 4)
    {part : Option α} (h : ∀ value ∈ part, number value < 256 ^ width) :
    (part.map fun value => Bytes.digits width (number value)).map
      (fun bytes => (Bytes.toWord bytes).toNat) = part.map number := by
  cases part with
  | none => rfl
  | some value => exact congrArg some (Bytes.toNat_toWord_digits hwidth (h value rfl))

/-- **Each number of a configuration is read** where the configuration was written. -/
theorem Sends.number?_eq (hfits : Encodable config request) (h : Sends config request values)
    {tag : Tag} (hnumber : config.number? tag ≠ none) :
    (values.get? tag.code).map (fun bytes => (Bytes.toWord bytes).toNat) = config.number? tag := by
  cases tag with
  | usbEnabled =>
    refine (congrArg _ h.usb).trans (map_toWord_digits (by decide) fun set hset => ?_)
    exact Nat.lt_succ_of_le (hfits.enabled .usb set hset)
  | nfcEnabled =>
    refine (congrArg _ h.nfc).trans (map_toWord_digits (by decide) fun set hset => ?_)
    exact Nat.lt_succ_of_le (hfits.enabled .nfc set hset)
  | autoEjectTimeout =>
    refine (congrArg _ h.autoEject).trans (map_toWord_digits (by decide) fun seconds _ => ?_)
    exact seconds.toNat_lt
  | challengeResponseTimeout =>
    refine (congrArg _ h.challengeResponse).trans
      (map_toWord_digits (by decide) fun seconds _ => ?_)
    exact seconds.toNat_lt
  | deviceFlags =>
    refine (congrArg _ h.deviceFlags).trans (map_toWord_digits (by decide) fun flags hflags => ?_)
    exact Nat.lt_succ_of_le (hfits.deviceFlags flags hflags)
  | _ => exact absurd rfl hnumber

end DeviceConfig

/-- **What is read into a word.** A byte string of any length is read as the number whose digits to
the base 256 are its bytes, modulo `2 ^ 32`. So nothing but its last four bytes matters, and no
zeros in front of it do. The two bytes of a word of 16 bits and a single byte are read as what they
were made of; in particular each number of a configuration is read where the configuration was
written. -/
theorem Bytes.toWord_reads :
    (∀ bytes, (toWord bytes).toNat = Nat.ofDigits 256 (bytes.reverse.map UInt8.toNat) % 2 ^ 32) ∧
    (∀ bytes, toWord (bytes.rtake 4) = toWord bytes) ∧
    (∀ count bytes, toWord (List.replicate count 0 ++ bytes) = toWord bytes) ∧
    (∀ word, toWord (bigEndian word) = word.toUInt32) ∧
    (∀ byte, toWord [byte] = byte.toUInt32) ∧
    ∀ (config : DeviceConfig) request written, config.encode request = .ok written →
      ∃ count payload values, written.value = count :: payload ∧
        TagMap.decode payload = .ok values ∧ ∀ tag, config.number? tag ≠ none →
          (values.get? tag.code).map (fun bytes => (toWord bytes).toNat) = config.number? tag := by
  refine ⟨fun bytes => ?_, toWord_rtake, toWord_replicate_zero_append, toWord_bigEndian,
    toWord_singleton, fun config request written hwritten => ?_⟩
  · rw [toNat_toWord, toNat_eq_ofDigits]
  · obtain ⟨hfits, rfl⟩ := (DeviceConfig.guarded_encode config request).eq_ok_iff.mp hwritten
    exact ⟨_, _, _, rfl, DeviceConfig.decode_sentBytes hfits, fun tag hnumber =>
      (DeviceConfig.sends_ofList_sentTlvs config request).number?_eq hfits hnumber⟩

end TokenConfig
