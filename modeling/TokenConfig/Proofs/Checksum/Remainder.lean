import Mathlib.Algebra.CharP.Two
import Mathlib.Algebra.Field.ZMod
import Mathlib.Algebra.Polynomial.Div
import Mathlib.Data.ZMod.Basic
import Mathlib.Tactic.ComputeDegree
import Mathlib.Tactic.LinearCombination
import TokenConfig.Proofs.Checksum.Serial

/-!
# The checksum is a remainder

Bits are coefficients over the field of two elements, so a stream of bits is a polynomial
(`TokenConfig.Checksum.ofBits`): the bit that comes first has the highest power. The register is one
too, its lowest bit being the one that leaves first, and a move of it is one line of a long division
by `X ^ 16 + X ^ 12 + X ^ 5 + 1`: multiply by `X`, and take the divisor away if the power 16 has
come up (`TokenConfig.Checksum.ofRegister_step`).

A bit that enters before a move is added at the power 15, and so is one coefficient more at the
power 16 after it. Hence the register after a stream is what is left of the stream when it is
divided (`TokenConfig.Checksum.exists_quotient_absorb`). That the register is not zero at the start
is as if there were sixteen ones before the stream. As a remainder is unique, the checksum is the
one that any division gives (`TokenConfig.Checksum.crc16_eq_reversed_remainder`), its bits in
reverse order.
-/

open Polynomial

namespace TokenConfig

namespace Checksum

/-! ### Bits as coefficients -/

/-- A bit as an element of the field of two elements. -/
def coefficient (bit : Bool) : ZMod 2 :=
  if bit then 1 else 0

theorem coefficient_eq_one_iff {bit : Bool} : coefficient bit = 1 ↔ bit = true := by
  cases bit <;> decide

theorem coefficient_xor (a b : Bool) : coefficient (a ^^ b) = coefficient a + coefficient b := by
  cases a <;> cases b <;> decide

/-- The polynomial of the first `n` bits of a stream. The first bit has the highest power. -/
noncomputable def ofBits (stream : ℕ → Bool) (n : ℕ) : (ZMod 2)[X] :=
  ∑ i ∈ Finset.range n, C (coefficient (stream i)) * X ^ (n - 1 - i)

variable {stream other : ℕ → Bool} {n : ℕ}

/-- One bit more moves the others up by a power. -/
theorem ofBits_succ (stream : ℕ → Bool) (n : ℕ) :
    ofBits stream (n + 1) = X * ofBits stream n + C (coefficient (stream n)) := by
  rw [ofBits, Finset.sum_range_succ, ofBits, Finset.mul_sum]
  congr 1
  · refine Finset.sum_congr rfl fun i hi => ?_
    have hpower : n + 1 - 1 - i = n - 1 - i + 1 := by
      have := Finset.mem_range.mp hi
      omega
    rw [hpower, pow_succ']
    ring
  · simp

/-- The first bit has the highest power, and the others are a stream of their own. -/
theorem ofBits_succ' (stream : ℕ → Bool) (n : ℕ) :
    ofBits stream (n + 1) =
      C (coefficient (stream 0)) * X ^ n + ofBits (fun i => stream (i + 1)) n := by
  rw [ofBits, Finset.sum_range_succ', add_comm, ofBits]
  congr 1
  refine Finset.sum_congr rfl fun i hi => ?_
  rw [show n + 1 - 1 - (i + 1) = n - 1 - i by omega]

theorem ofBits_congr (h : ∀ i < n, stream i = other i) : ofBits stream n = ofBits other n :=
  Finset.sum_congr rfl fun i hi => by rw [h i (Finset.mem_range.mp hi)]

theorem ofBits_xor (stream other : ℕ → Bool) (n : ℕ) :
    ofBits (fun i => stream i ^^ other i) n = ofBits stream n + ofBits other n := by
  simp only [ofBits, coefficient_xor, C_add, add_mul, Finset.sum_add_distrib]

theorem coeff_ofBits (stream : ℕ → Bool) (n k : ℕ) :
    (ofBits stream n).coeff k = if k < n then coefficient (stream (n - 1 - k)) else 0 := by
  induction n generalizing k with
  | zero => simp [ofBits]
  | succ n ih =>
    rw [ofBits_succ]
    cases k with
    | zero => simp
    | succ k =>
      rw [coeff_add, coeff_X_mul, ih, coeff_C_succ, add_zero]
      simp only [Nat.add_lt_add_iff_right, show n + 1 - 1 - (k + 1) = n - 1 - k by omega]

theorem degree_ofBits_lt (stream : ℕ → Bool) (n : ℕ) : (ofBits stream n).degree < n := by
  rw [degree_lt_iff_coeff_zero]
  intro k hk
  rw [coeff_ofBits, if_neg (Nat.not_lt.mpr hk)]

/-! ### The register -/

/-- The polynomial of a register, the lowest bit of which has the power 15. -/
noncomputable def ofRegister (register : UInt16) : (ZMod 2)[X] :=
  ofBits register.toNat.testBit 16

/-- What the checksum is divided by. -/
noncomputable def divisor : (ZMod 2)[X] :=
  X ^ 16 + X ^ 12 + X ^ 5 + 1

theorem ofRegister_xor (a b : UInt16) : ofRegister (a ^^^ b) = ofRegister a + ofRegister b := by
  rw [ofRegister, ofRegister, ofRegister, ← ofBits_xor]
  exact ofBits_congr fun i _ => by rw [UInt16.toNat_xor, Nat.testBit_xor]

/-- The bit that leaves is the one of the power 16. -/
theorem ofRegister_shiftRight (register : UInt16) :
    X * ofRegister register =
      C (coefficient (register.toNat.testBit 0)) * X ^ 16 + ofRegister (register >>> 1) := by
  have hshift : ∀ i, (register >>> 1).toNat.testBit i = register.toNat.testBit (i + 1) := by
    intro i
    rw [UInt16.toNat_shiftRight, show (1 : UInt16).toNat % 16 = 1 from rfl, Nat.testBit_shiftRight,
      Nat.add_comm]
  have htop : register.toNat.testBit 16 = false := Nat.testBit_lt_two_pow register.toNat_lt
  have hrest : ofRegister (register >>> 1) =
      X * ofBits (fun i => register.toNat.testBit (i + 1)) 15 := by
    rw [ofRegister, ofBits_congr fun i _ => hshift i, ofBits_succ, htop]
    simp [coefficient]
  rw [hrest, ofRegister, ofBits_succ']
  ring

theorem ofRegister_generator : ofRegister generator = X ^ 12 + X ^ 5 + 1 := by
  have hbits : ∀ i < 16, generator.toNat.testBit i = (i == 3 || i == 10 || i == 15) := by decide
  rw [ofRegister, ofBits_congr hbits]
  simp [ofBits, coefficient, Finset.sum_range_succ]

theorem ofRegister_initial : ofRegister initial = ∑ i ∈ Finset.range 16, X ^ i := by
  have hbits : ∀ i < 16, initial.toNat.testBit i = true := by decide
  rw [ofRegister, ofBits_congr hbits, ← Finset.sum_range_reflect]
  simp [ofBits, coefficient]

theorem ofRegister_entering (bit : Bool) :
    ofRegister (entering bit) = C (coefficient bit) * X ^ 15 := by
  have hbits : ∀ i < 16, (entering bit).toNat.testBit i = (i == 0 && bit) := by
    cases bit <;> decide
  rw [ofRegister, ofBits_congr hbits, ofBits_succ']
  simp [ofBits, coefficient]

/-- **A move of the register is one line of a long division.** -/
theorem ofRegister_step (register : UInt16) :
    ofRegister (step register) =
      X * ofRegister register + C (coefficient (register.toNat.testBit 0)) * divisor := by
  have htwo : (2 : (ZMod 2)[X]) = 0 := CharTwo.two_eq_zero
  have hfeedback : ofRegister (feedback register) =
      C (coefficient (register.toNat.testBit 0)) * (X ^ 12 + X ^ 5 + 1) := by
    by_cases hlow : register &&& 1 = 1
    · have hbit : register.toNat.testBit 0 = true := by
        rw [Nat.testBit_zero, decide_eq_true_eq, ← and_one_eq_one_iff, hlow]
      rw [feedback, if_pos hlow, ofRegister_generator, hbit]
      simp [coefficient]
    · have hbit : register.toNat.testBit 0 = false := by
        rw [Nat.testBit_zero, decide_eq_false_iff_not, ← and_one_eq_one_iff]
        exact hlow
      rw [feedback, if_neg hlow, hbit]
      simp [coefficient, ofRegister, ofBits]
  rw [step_eq, ofRegister_xor, hfeedback, ofRegister_shiftRight, divisor]
  linear_combination (-(C (coefficient (register.toNat.testBit 0)) * X ^ 16)) * htwo

/-! ### Division -/

theorem monic_divisor : divisor.Monic := by
  unfold divisor
  monicity!

theorem degree_divisor : divisor.degree = 16 := by
  unfold divisor
  compute_degree!

/-- **The register after a stream is what is left of the stream**, and of sixteen bits before it
that are those of the register at the start. -/
theorem exists_quotient_absorb (register : UInt16) (stream : ℕ → Bool) (n : ℕ) :
    ∃ quotient, X ^ 16 * ofBits stream n + X ^ n * ofRegister register =
      divisor * quotient + ofRegister (absorb register stream n) := by
  induction n with
  | zero => exact ⟨0, by simp [ofBits, absorb]⟩
  | succ n ih =>
    obtain ⟨quotient, hquotient⟩ := ih
    let moved := absorb register stream n ^^^ entering (stream n)
    have hmove : ofRegister (absorb register stream (n + 1)) =
        X * (ofRegister (absorb register stream n) + C (coefficient (stream n)) * X ^ 15) +
          C (coefficient (moved.toNat.testBit 0)) * divisor := by
      rw [absorb, ofRegister_step, ofRegister_xor, ofRegister_entering]
    refine ⟨X * quotient - C (coefficient (moved.toNat.testBit 0)), ?_⟩
    rw [hmove, ofBits_succ]
    linear_combination X * hquotient

/-- What is divided for a checksum: the bits of the byte string, the lowest bit of each byte first,
with sixteen zeros behind them, and sixteen ones added to the first sixteen of all these bits. -/
noncomputable def dividend (bytes : Bytes) : (ZMod 2)[X] :=
  X ^ 16 * ofBits bytes.bit (8 * bytes.length) +
    X ^ (8 * bytes.length) * ∑ i ∈ Finset.range 16, X ^ i

/-- **The checksum is the remainder of a division**, its bits in reverse order. -/
theorem crc16_eq_reversed_remainder (bytes : Bytes) :
    (dividend bytes %ₘ divisor).degree < 16 ∧
      ∀ i < 16, (crc16 bytes).toNat.testBit i = true ↔
        (dividend bytes %ₘ divisor).coeff (15 - i) = 1 := by
  obtain ⟨quotient, hquotient⟩ :=
    exists_quotient_absorb initial bytes.bit (8 * bytes.length)
  rw [ofRegister_initial, ← crc16_eq_absorb] at hquotient
  have hdegree : (ofRegister (crc16 bytes)).degree < 16 := degree_ofBits_lt _ 16
  have hremainder : dividend bytes %ₘ divisor = ofRegister (crc16 bytes) :=
    (div_modByMonic_unique quotient _ monic_divisor
      ⟨(add_comm _ _).trans hquotient.symm, hdegree.trans_eq degree_divisor.symm⟩).2
  rw [hremainder]
  refine ⟨hdegree, fun i hi => ?_⟩
  rw [ofRegister, coeff_ofBits, if_pos (by omega), coefficient_eq_one_iff,
    show 16 - 1 - (15 - i) = i by omega]

end Checksum

end TokenConfig
