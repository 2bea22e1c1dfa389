import Mathlib.Data.List.Induction
import Mathlib.Tactic.Linarith
import Mathlib.Tactic.Ring
import TokenConfig.Bytes

/-!
# Byte strings as numbers

A byte string is a number written to the base 256. `TokenConfig.Bytes.toNat` is that number without
any bound; `TokenConfig.Bytes.toWord` computes in 32 bits, and gives the number modulo `2 ^ 32`
(`TokenConfig.Bytes.toNat_toWord`), so that nothing is lost of four bytes or fewer
(`TokenConfig.Bytes.toNat_toWord_of_length_le`).

A word of 16 bits and its two bytes, the low one first, are two forms of the same thing
(`TokenConfig.Bytes.ofLittleEndian_littleEndian`,
`TokenConfig.Bytes.littleEndian_ofLittleEndian_pair`).
-/

namespace TokenConfig

namespace Bytes

/-! ### The most significant byte first -/

theorem toNat_append_singleton (bytes : Bytes) (byte : UInt8) :
    toNat (bytes ++ [byte]) = 256 * toNat bytes + byte.toNat := by
  rw [toNat, List.foldl_append]
  rfl

/-- The bytes behind a front move its value up by one place each. -/
theorem toNat_append (front rest : Bytes) :
    toNat (front ++ rest) = toNat front * 256 ^ rest.length + toNat rest := by
  induction rest using List.reverseRecOn with
  | nil => simp [toNat]
  | append_singleton rest byte ih =>
    rw [← List.append_assoc, toNat_append_singleton, ih, toNat_append_singleton, List.length_append,
      List.length_singleton, Nat.pow_succ]
    ring

theorem toNat_cons (byte : UInt8) (bytes : Bytes) :
    toNat (byte :: bytes) = byte.toNat * 256 ^ bytes.length + toNat bytes := by
  have h := toNat_append [byte] bytes
  rwa [List.singleton_append, show toNat [byte] = byte.toNat by simp [toNat]] at h

theorem toNat_lt (bytes : Bytes) : toNat bytes < 256 ^ bytes.length := by
  induction bytes with
  | nil => simp [toNat]
  | cons byte bytes ih =>
    have hbyte := byte.toNat_lt
    rw [toNat_cons, List.length_cons, Nat.pow_succ]
    nlinarith

/-! ### In 32 bits -/

theorem toWord_append_singleton (bytes : Bytes) (byte : UInt8) :
    toWord (bytes ++ [byte]) = toWord bytes <<< 8 ||| byte.toUInt32 := by
  rw [toWord, List.foldl_append]
  rfl

/-- One more byte moves the word up by eight bits, and what leaves it at the top is lost. -/
theorem toNat_shiftLeft_or (word : UInt32) (byte : UInt8) :
    (word <<< 8 ||| byte.toUInt32).toNat = (256 * word.toNat + byte.toNat) % 2 ^ 32 := by
  have hbyte := byte.toNat_lt
  have hshift : (word <<< 8).toNat = 2 ^ 8 * (word.toNat % 2 ^ 24) := by
    rw [UInt32.toNat_shiftLeft, show (8 : UInt32).toNat % 32 = 8 from rfl, Nat.shiftLeft_eq]
    omega
  rw [UInt32.toNat_or, hshift, UInt8.toNat_toUInt32, ← Nat.two_pow_add_eq_or_of_lt hbyte]
  omega

/-- **The word of a byte string is its number modulo `2 ^ 32`.** -/
theorem toNat_toWord (bytes : Bytes) : (toWord bytes).toNat = toNat bytes % 2 ^ 32 := by
  induction bytes using List.reverseRecOn with
  | nil => rfl
  | append_singleton bytes byte ih =>
    rw [toWord_append_singleton, toNat_shiftLeft_or, ih, toNat_append_singleton]
    omega

/-- **A word holds four bytes whole.** -/
theorem toNat_toWord_of_length_le {bytes : Bytes} (h : bytes.length ≤ 4) :
    (toWord bytes).toNat = toNat bytes := by
  have hlt : toNat bytes < 2 ^ 32 :=
    Nat.lt_of_lt_of_le (toNat_lt bytes) (Nat.pow_le_pow_right (by decide) h)
  rw [toNat_toWord, Nat.mod_eq_of_lt hlt]

/-! ### Words as two bytes, the low one first -/

theorem toNat_ofLittleEndian_pair (a b : UInt8) :
    (ofLittleEndian [a, b]).toNat = a.toNat + 256 * b.toNat := by
  have ha := a.toNat_lt
  have hb := b.toNat_lt
  simp only [ofLittleEndian, toNat, List.reverse_cons, List.reverse_nil, List.nil_append,
    List.cons_append, List.foldl_cons, List.foldl_nil, UInt16.toNat_ofNat']
  omega

/-- The two bytes of a word are read back as the word. -/
@[simp] theorem ofLittleEndian_littleEndian (word : UInt16) :
    ofLittleEndian (littleEndian word) = word := by
  have hw := word.toNat_lt
  apply UInt16.toNat_inj.mp
  rw [littleEndian, toNat_ofLittleEndian_pair]
  simp only [UInt16.toNat_toUInt8, UInt16.toNat_shiftRight, Nat.shiftRight_eq_div_pow,
    UInt16.reduceToNat, Nat.reduceMod, Nat.reducePow]
  omega

/-- Two bytes are the bytes of the word they are read as. -/
@[simp] theorem littleEndian_ofLittleEndian_pair (a b : UInt8) :
    littleEndian (ofLittleEndian [a, b]) = [a, b] := by
  have ha := a.toNat_lt
  have hb := b.toNat_lt
  simp only [littleEndian, List.cons.injEq, and_true, ← UInt8.toNat_inj, UInt16.toNat_toUInt8,
    UInt16.toNat_shiftRight, Nat.shiftRight_eq_div_pow, UInt16.reduceToNat, Nat.reduceMod,
    Nat.reducePow, toNat_ofLittleEndian_pair]
  omega

/-- The two bytes of a word do not overlap, so they are added without a carry. -/
theorem ofLittleEndian_pair (a b : UInt8) :
    ofLittleEndian [a, b] = a.toUInt16 ^^^ ofLittleEndian [0, b] := by
  have ha := a.toNat_lt
  have hhigh : (ofLittleEndian [0, b]).toNat = 256 * b.toNat := by
    rw [toNat_ofLittleEndian_pair, UInt8.toNat_zero, Nat.zero_add]
  apply UInt16.toNat_inj.mp
  rw [UInt16.toNat_xor, UInt8.toNat_toUInt16, hhigh, toNat_ofLittleEndian_pair]
  have hmod := @Nat.xor_mod_two_pow a.toNat (256 * b.toNat) 8
  have hdiv := @Nat.xor_div_two_pow a.toNat (256 * b.toNat) 8
  rw [Nat.mod_eq_of_lt ha, show 256 * b.toNat % 2 ^ 8 = 0 by omega, Nat.xor_zero] at hmod
  rw [Nat.div_eq_of_lt ha, show 256 * b.toNat / 2 ^ 8 = b.toNat by omega, Nat.zero_xor] at hdiv
  omega

end Bytes

end TokenConfig
