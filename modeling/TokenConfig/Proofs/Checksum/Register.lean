import Mathlib.Data.List.Basic
import Mathlib.Logic.Function.Iterate
import TokenConfig.Checksum
import TokenConfig.Proofs.Bytes.Number

/-!
# The register of the checksum

What the checksum is worth rests on two facts about the register, both stated here of one bit and
then of any number of them:

* a move of the register is **linear**: moving the sum of two registers is summing the registers
  moved (`TokenConfig.Checksum.step_xor`, `TokenConfig.Checksum.step_iterate_xor`);
* a move **loses nothing** (`TokenConfig.Checksum.step_injective`).

Two bytes fed one after the other are one word added at once
(`TokenConfig.Checksum.feed_feed`). Since the residue is where a register of ones gets by sixteen
moves, exactly one pair of bytes takes a register there
(`TokenConfig.Checksum.feed_feed_eq_residue_iff`): the complement of the checksum so far. One byte
alone does not (`TokenConfig.Checksum.verify_singleton`), so verification accepts the data that ends
in the complement of its own checksum, and no other (`TokenConfig.Checksum.verify_iff`).
-/

namespace TokenConfig

namespace Checksum

/-! ### One move -/

/-- What a move adds to the shifted register. -/
def feedback (register : UInt16) : UInt16 :=
  if register &&& 1 = 1 then generator else 0

theorem step_eq (register : UInt16) : step register = (register >>> 1) ^^^ feedback register := by
  unfold step feedback
  split <;> simp

theorem and_one_eq_one_iff (register : UInt16) : register &&& 1 = 1 ↔ register.toNat % 2 = 1 := by
  rw [← UInt16.toNat_inj, UInt16.toNat_and, show (1 : UInt16).toNat = 1 from rfl,
    Nat.and_one_is_mod]

theorem feedback_xor (a b : UInt16) : feedback (a ^^^ b) = feedback a ^^^ feedback b := by
  simp only [feedback, and_one_eq_one_iff, UInt16.toNat_xor, Nat.xor_mod_two_eq_one]
  by_cases ha : a.toNat % 2 = 1 <;> by_cases hb : b.toNat % 2 = 1 <;> simp [ha, hb]

/-- **A move is linear.** -/
theorem step_xor (a b : UInt16) : step (a ^^^ b) = step a ^^^ step b := by
  simp only [step_eq, UInt16.shiftRight_xor, feedback_xor]
  ac_rfl

/-- Where the lowest bit is not set, a move halves. -/
theorem toNat_step_of_even {register : UInt16} (h : register.toNat % 2 = 0) :
    (step register).toNat = register.toNat / 2 := by
  have hlow : ¬register &&& 1 = 1 := by
    rw [and_one_eq_one_iff]
    omega
  simp [step, hlow, Nat.shiftRight_eq_div_pow]

/-- The register of zeros is the only one that a move makes zero: the feedback has the highest bit,
which a shifted register has not. -/
theorem eq_zero_of_step_eq_zero {register : UInt16} (h : step register = 0) : register = 0 := by
  have hlt := register.toNat_lt
  -- an even register is halved; an odd one keeps the highest bit of the feedback
  rcases Nat.mod_two_eq_zero_or_one register.toNat with heven | hodd
  · have hhalf := toNat_step_of_even heven
    rw [h, UInt16.toNat_zero] at hhalf
    exact UInt16.toNat_inj.mp (by rw [UInt16.toNat_zero]; omega)
  · rw [step, if_pos ((and_one_eq_one_iff register).mpr hodd), UInt16.xor_eq_zero_iff] at h
    have hval := congrArg UInt16.toNat h
    rw [UInt16.toNat_shiftRight, show generator.toNat = 0x8408 from rfl,
      show (1 : UInt16).toNat % 16 = 1 from rfl, Nat.shiftRight_eq_div_pow] at hval
    omega

/-- **A move loses nothing.** -/
theorem step_injective : Function.Injective step := by
  intro a b h
  have hdiff : step (a ^^^ b) = 0 := by rw [step_xor, h, UInt16.xor_self]
  exact UInt16.xor_eq_zero_iff.mp (eq_zero_of_step_eq_zero hdiff)

/-! ### Many moves -/

theorem step_iterate_xor (n : ℕ) (a b : UInt16) :
    step^[n] (a ^^^ b) = step^[n] a ^^^ step^[n] b := by
  induction n generalizing a b with
  | zero => rfl
  | succ n ih => rw [Function.iterate_succ_apply, step_xor, ih]; rfl

/-- A byte in the high half of the register comes down whole by eight moves. -/
theorem step_iterate_shift (n : ℕ) {value : ℕ} {register : UInt16}
    (h : register.toNat = value * 2 ^ n) : (step^[n] register).toNat = value := by
  induction n generalizing register with
  | zero => simpa using h
  | succ n ih =>
    -- the register is a multiple of two before each move, so there is no feedback
    rw [Function.iterate_succ_apply]
    apply ih
    have hval : register.toNat = 2 * (value * 2 ^ n) := by
      rw [h, Nat.pow_succ]
      ac_rfl
    rw [toNat_step_of_even (by omega)]
    omega

theorem feed_eq (register : UInt16) (byte : UInt8) :
    feed register byte = step^[8] (register ^^^ byte.toUInt16) := rfl

/-- **Two bytes at once**: feeding two bytes is adding the word they make and moving sixteen
times. -/
theorem feed_feed (register : UInt16) (a b : UInt8) :
    feed (feed register a) b = step^[16] (register ^^^ Bytes.ofLittleEndian [a, b]) := by
  -- the second byte waits in the high half until the first one is moved out
  have hhigh : (Bytes.ofLittleEndian [0, b]).toNat = b.toNat * 2 ^ 8 := by
    rw [Bytes.toNat_ofLittleEndian_pair, UInt8.toNat_zero]
    omega
  have hdown : step^[8] (Bytes.ofLittleEndian [0, b]) = b.toUInt16 :=
    UInt16.toNat_inj.mp (by rw [step_iterate_shift 8 hhigh, UInt8.toNat_toUInt16])
  calc
    feed (feed register a) b =
        step^[8] (step^[8] (register ^^^ a.toUInt16) ^^^
          step^[8] (Bytes.ofLittleEndian [0, b])) := by rw [feed_eq, feed_eq, hdown]
    _ = step^[8] (step^[8] (register ^^^ Bytes.ofLittleEndian [a, b])) := by
        rw [← step_iterate_xor, UInt16.xor_assoc, ← Bytes.ofLittleEndian_pair]
    _ = step^[16] (register ^^^ Bytes.ofLittleEndian [a, b]) :=
        (Function.iterate_add_apply step 8 8 _).symm

/-! ### The residue -/

/-- Sixteen moves take a register of ones to the residue. -/
theorem step_iterate_initial : step^[16] initial = residue := by
  simp only [Function.iterate_succ_apply, Function.iterate_zero, id]
  decide

/-- **From every register exactly one pair of bytes leads to the residue**: the complement of the
register, the low byte first. -/
theorem feed_feed_eq_residue_iff {register : UInt16} {a b : UInt8} :
    feed (feed register a) b = residue ↔ Bytes.ofLittleEndian [a, b] = ~~~register := by
  have hones : register ^^^ ~~~register = initial := by
    rw [UInt16.xor_not, UInt16.xor_self]
    rfl
  -- both registers reach the residue by the same moves, so they were equal before
  rw [feed_feed, ← step_iterate_initial, (step_injective.iterate 16).eq_iff, ← hones,
    UInt16.xor_right_inj]

/-- **What verification asks of the last two bytes**: they are the complement of the checksum of the
bytes before them, the low byte first. -/
theorem verify_append_pair_iff (front : Bytes) (a b : UInt8) :
    verify (front ++ [a, b]) = true ↔ Bytes.ofLittleEndian [a, b] = ~~~crc16 front := by
  rw [verify, beq_iff_eq, crc16_append, List.foldl_cons, List.foldl_cons, List.foldl_nil,
    feed_feed_eq_residue_iff]

/-- Data followed by the complement of its checksum carries its own checksum. -/
theorem verify_append_littleEndian (front : Bytes) :
    verify (front ++ Bytes.littleEndian (~~~crc16 front)) = true :=
  (verify_append_pair_iff front _ _).mpr (Bytes.ofLittleEndian_littleEndian _)

/-- One byte does not lead to the residue: it leaves the high half of the register as it is. -/
theorem verify_singleton (byte : UInt8) : verify [byte] = false := by
  have hbyte : byte.toUInt16 >>> 8 = 0 := by
    have := byte.toNat_lt
    apply UInt16.toNat_inj.mp
    rw [UInt16.toNat_shiftRight, UInt8.toNat_toUInt16, Nat.shiftRight_eq_div_pow]
    exact Nat.div_eq_of_lt this
  have hhalf : (initial ^^^ byte.toUInt16) >>> 8 = initial >>> 8 := by
    rw [UInt16.shiftRight_xor, hbyte, UInt16.xor_zero]
  have hhigh : step^[8] initial >>> 8 ≠ initial >>> 8 := by
    simp only [Function.iterate_succ_apply, Function.iterate_zero, id]
    decide
  rw [verify, beq_eq_false_iff_ne, ← step_iterate_initial]
  -- eight moves after the byte, and eight more than that without it
  intro h
  have hregister : initial ^^^ byte.toUInt16 = step^[8] initial :=
    step_injective.iterate 8 (h.trans (Function.iterate_add_apply step 8 8 initial))
  exact hhigh (hregister ▸ hhalf)

/-- **What verification means.** Data is accepted exactly if it has two bytes at least, and the last
two are the complement of the checksum of those before them, the low byte first. -/
theorem verify_iff (data : Bytes) :
    verify data = true ↔ 2 ≤ data.length ∧
      data.drop (data.length - 2) =
        Bytes.littleEndian (~~~crc16 (data.take (data.length - 2))) := by
  rcases Nat.lt_or_ge data.length 2 with hshort | hlong
  · refine iff_of_false ?_ fun h => Nat.not_le.mpr hshort h.1
    match data, hshort with
    | [], _ => decide
    | [byte], _ => rw [verify_singleton]; decide
  · obtain ⟨a, b, hlast⟩ := List.length_eq_two.mp
      (show (data.drop (data.length - 2)).length = 2 by rw [List.length_drop]; omega)
    have hsplit := List.take_append_drop (data.length - 2) data
    rw [hlast] at hsplit
    have hverify := verify_append_pair_iff (data.take (data.length - 2)) a b
    rw [hsplit] at hverify
    rw [hverify, hlast, and_iff_right hlong]
    constructor
    · intro h
      rw [← h, Bytes.littleEndian_ofLittleEndian_pair]
    · intro h
      rw [h, Bytes.ofLittleEndian_littleEndian]

end Checksum

end TokenConfig
