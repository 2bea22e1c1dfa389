import Mathlib.Data.List.Induction
import Mathlib.Data.Nat.Bitwise
import TokenConfig.Proofs.Checksum.Register

/-!
# The register bit by bit

The register takes in a byte at once and then moves eight times. It could as well take in one bit
before each move: a bit that enters later waits, in a place from which the moves bring it down just
in time. So the checksum of a byte string depends on its bits as they come
(`TokenConfig.Checksum.foldl_feed`), and where a byte ends does not matter.

* `TokenConfig.Bytes.bit` numbers the bits of a byte string, the bytes in order and the lowest bit
  of each first.
* `TokenConfig.Checksum.absorb` is the register after the first bits of a stream. It is linear in
  the register and the stream together (`TokenConfig.Checksum.absorb_xor`).
* Up to sixteen bits can be added as one number before the moves
  (`TokenConfig.Checksum.absorb_eq_step_iterate`), which is the reason for all of this.
-/

namespace TokenConfig

namespace Bytes

/-! ### The bits of a byte string -/

/-- The bit at a position: the bytes in order, the lowest bit of each first. -/
def bit (bytes : Bytes) (i : ℕ) : Bool :=
  (bytes.getD (i / 8) 0).toNat.testBit (i % 8)

/-- A byte has no bits beyond its eight. -/
theorem testBit_toNat_of_le (byte : UInt8) {i : ℕ} (h : 8 ≤ i) : byte.toNat.testBit i = false :=
  Nat.testBit_lt_two_pow (byte.toNat_lt.trans_le (Nat.pow_le_pow_right (by decide) h))

/-- The bits of one byte, by byte and place. -/
theorem bit_eight_mul_add (bytes : Bytes) (j : ℕ) {i : ℕ} (h : i < 8) :
    bytes.bit (8 * j + i) = (bytes.getD j 0).toNat.testBit i := by
  have hbyte : (8 * j + i) / 8 = j := by omega
  have hplace : (8 * j + i) % 8 = i := by omega
  rw [bit, hbyte, hplace]

theorem bit_append_left {bytes : Bytes} {i : ℕ} (h : i < 8 * bytes.length) (rest : Bytes) :
    bit (bytes ++ rest) i = bit bytes i := by
  rw [bit, bit, List.getD_append _ _ _ _ (Nat.div_lt_of_lt_mul h)]

/-- **Byte strings with the same bits are equal.** -/
theorem ext_bit {a b : Bytes} (hlength : b.length = a.length)
    (h : ∀ i < 8 * a.length, a.bit i = b.bit i) : a = b := by
  refine List.ext_getElem hlength.symm fun j hja hjb => ?_
  apply UInt8.toNat_inj.mp
  apply Nat.eq_of_testBit_eq
  intro i
  rcases Nat.lt_or_ge i 8 with hi | hi
  · have hbit := h (8 * j + i) (by omega)
    rwa [bit_eight_mul_add a j hi, bit_eight_mul_add b j hi, List.getD_eq_getElem _ _ hja,
      List.getD_eq_getElem _ _ hjb] at hbit
  · rw [testBit_toNat_of_le _ hi, testBit_toNat_of_le _ hi]

end Bytes

namespace Checksum

/-! ### One bit before each move -/

/-- The register that holds one bit, at the place where bits enter. -/
def entering (bit : Bool) : UInt16 :=
  if bit then 1 else 0

/-- The register after the first bits of a stream. -/
def absorb (register : UInt16) (stream : ℕ → Bool) : ℕ → UInt16
  | 0 => register
  | n + 1 => step (absorb register stream n ^^^ entering (stream n))

variable {register : UInt16} {stream other : ℕ → Bool}

theorem entering_xor (a b : Bool) : entering (a ^^ b) = entering a ^^^ entering b := by
  cases a <;> cases b <;> decide

/-- **Absorbing is linear.** -/
theorem absorb_xor (a b : UInt16) (stream other : ℕ → Bool) (n : ℕ) :
    absorb (a ^^^ b) (fun i => stream i ^^ other i) n =
      absorb a stream n ^^^ absorb b other n := by
  induction n with
  | zero => rfl
  | succ n ih =>
    rw [absorb, ih, entering_xor, absorb, absorb, ← step_xor]
    congr 1
    ac_rfl

/-- The bits that come later do not matter yet. -/
theorem absorb_congr {n : ℕ} (h : ∀ i < n, stream i = other i) :
    absorb register stream n = absorb register other n := by
  induction n with
  | zero => rfl
  | succ n ih => rw [absorb, absorb, ih fun i hi => h i (by omega), h n (by omega)]

/-- Absorbing goes on from where it stopped. -/
theorem absorb_add (m n : ℕ) : absorb register stream (m + n) =
    absorb (absorb register stream m) (fun i => stream (m + i)) n := by
  induction n with
  | zero => rfl
  | succ n ih => rw [← Nat.add_assoc, absorb, ih, absorb]

/-- **Where a stream is silent** the register only moves. -/
theorem absorb_add_of_silent {m n : ℕ} (h : ∀ i, m ≤ i → i < m + n → stream i = false) :
    absorb register stream (m + n) = step^[n] (absorb register stream m) := by
  induction n with
  | zero => rfl
  | succ n ih =>
    have hlast : entering (stream (m + n)) = 0 := by
      rw [h (m + n) (by omega) (by omega)]
      rfl
    rw [← Nat.add_assoc, absorb, ih fun i hi hlt => h i hi (by omega), hlast, UInt16.xor_zero,
      Function.iterate_succ_apply']

/-! ### Many bits at once -/

/-- The number whose binary digits are the first bits of a stream, the lowest digit first. -/
def word (stream : ℕ → Bool) : ℕ → UInt16
  | 0 => 0
  | n + 1 => word stream n ^^^ entering (stream n) <<< n.toUInt16

theorem toNat_entering_shiftLeft (bit : Bool) {n : ℕ} (h : n < 16) :
    (entering bit <<< n.toUInt16).toNat = bit.toNat * 2 ^ n := by
  have hn : n.toUInt16.toNat = n := UInt16.toNat_ofNat_of_lt' (h.trans (by decide))
  have hpow : 2 ^ n < 2 ^ 16 := Nat.pow_lt_pow_right (by decide) h
  rw [UInt16.toNat_shiftLeft, hn, Nat.mod_eq_of_lt h, Nat.shiftLeft_eq]
  cases bit with
  | false => simp [entering]
  | true =>
    rw [entering, if_pos rfl, UInt16.toNat_one, Bool.toNat_true, Nat.one_mul, Nat.mod_eq_of_lt hpow]

/-- The digits of a word are the bits that it was made of. -/
theorem testBit_word {n : ℕ} (h : n ≤ 16) (i : ℕ) :
    (word stream n).toNat.testBit i = (decide (i < n) && stream i) := by
  induction n with
  | zero => simp [word]
  | succ n ih =>
    have hbit : ((stream n).toNat * 2 ^ n).testBit i = (decide (n = i) && stream n) := by
      cases stream n <;> simp [Nat.testBit_two_pow]
    rw [word, UInt16.toNat_xor, Nat.testBit_xor, ih (by omega),
      toNat_entering_shiftLeft _ (by omega), hbit]
    rcases Nat.lt_trichotomy i n with hlt | rfl | hgt
    · simp [hlt, hlt.ne', Nat.lt_succ_of_lt hlt]
    · simp
    · simp [hgt.ne, Nat.not_lt.mpr hgt.le, Nat.not_lt.mpr (Nat.succ_le_of_lt hgt)]

/-- **Up to sixteen bits at once**: absorbing them is adding the word they make and moving as many
times. -/
theorem absorb_eq_step_iterate {n : ℕ} (h : n ≤ 16) :
    absorb register stream n = step^[n] (register ^^^ word stream n) := by
  induction n with
  | zero => exact UInt16.xor_zero.symm
  | succ n ih =>
    -- the bit that enters last has waited `n` places up, and `n` moves have brought it down
    have hdown : step^[n] (entering (stream n) <<< n.toUInt16) = entering (stream n) := by
      apply UInt16.toNat_inj.mp
      rw [step_iterate_shift n (toNat_entering_shiftLeft (stream n) (by omega))]
      cases stream n <;> rfl
    rw [absorb, ih (by omega), word, Function.iterate_succ_apply', ← UInt16.xor_assoc,
      step_iterate_xor n _ (entering _ <<< _), hdown]

/-! ### Bytes -/

theorem feed_eq_absorb (byte : UInt8) :
    feed register byte = absorb register byte.toNat.testBit 8 := by
  have hword : byte.toUInt16 = word byte.toNat.testBit 8 := by
    apply UInt16.toNat_inj.mp
    apply Nat.eq_of_testBit_eq
    intro i
    rw [testBit_word (by decide), UInt8.toNat_toUInt16]
    rcases Nat.lt_or_ge i 8 with hi | hi
    · simp [hi]
    · simp [Bytes.testBit_toNat_of_le byte hi]
  rw [feed_eq, hword, absorb_eq_step_iterate (by decide)]

/-- **The register after a byte string** is the register after its bits. -/
theorem foldl_feed (bytes : Bytes) :
    bytes.foldl feed register = absorb register bytes.bit (8 * bytes.length) := by
  induction bytes using List.reverseRecOn with
  | nil => rfl
  | append_singleton bytes byte ih =>
    have hfront : ∀ i < 8 * bytes.length, Bytes.bit (bytes ++ [byte]) i = Bytes.bit bytes i :=
      fun i hi => Bytes.bit_append_left hi [byte]
    have hlast : ∀ i < 8, Bytes.bit (bytes ++ [byte]) (8 * bytes.length + i) =
        byte.toNat.testBit i := by
      intro i hi
      rw [Bytes.bit_eight_mul_add _ _ hi, List.getD_append_right _ _ _ _ (Nat.le_refl _),
        Nat.sub_self, List.getD_cons_zero]
    rw [List.foldl_append, ih, List.foldl_cons, List.foldl_nil, feed_eq_absorb,
      List.length_append, List.length_singleton, Nat.mul_add, absorb_add, absorb_congr hfront,
      absorb_congr hlast]

theorem crc16_eq_absorb (bytes : Bytes) :
    crc16 bytes = absorb initial bytes.bit (8 * bytes.length) :=
  foldl_feed bytes

end Checksum

end TokenConfig
