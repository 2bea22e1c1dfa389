import Mathlib.Algebra.BigOperators.Group.Finset.Basic
import Mathlib.Algebra.Field.ZMod
import Mathlib.Data.List.Iterate
import TokenConfig.Proofs.Checksum.Serial
import TokenConfig.Proofs.Slot.Layout

/-!
# Which errors the checksum notices

Two byte strings of one length that are both accepted take the register to the same residue. By
linearity the bits in which they differ, taken in from a register of zeros, leave zeros
(`TokenConfig.Checksum.absorb_differences`). So an error goes unnoticed exactly if the register
forgets it, and for three kinds of errors it cannot:

* a **burst** is added as one word of sixteen bits, and moving the register loses nothing
  (`TokenConfig.Checksum.absorb_ne_zero_of_isBurst`);
* an **odd number** of errors changes the parity of the register, which moving keeps, because the
  feedback has three bits and replaces one (`TokenConfig.Checksum.parity_absorb`);
* of **two errors** the first would have to come round to where it started when the second one
  enters, and a single bit does not come round so soon
  (`TokenConfig.Checksum.step_iterate_one_ne_one`).

A record is short enough for the third, so one, two or three wrong bits before the current access
code, and any burst there, make it refused (`TokenConfig.Checksum.detects_errors`).
-/

namespace TokenConfig

/-- The positions at which two byte strings of one length have different bits. -/
def Bytes.differing (a b : Bytes) : Finset ℕ :=
  {i ∈ Finset.range (8 * a.length) | a.bit i ≠ b.bit i}

/-- Positions that lie within sixteen consecutive ones. -/
def IsBurst (positions : Finset ℕ) : Prop :=
  ∃ start, ∀ i ∈ positions, start ≤ i ∧ i < start + 16

namespace Checksum

variable {register : UInt16} {stream : ℕ → Bool} {n : ℕ}

/-! ### The positions that a stream marks -/

/-- The positions of the first bits of a stream that are set. -/
def marked (stream : ℕ → Bool) (n : ℕ) : Finset ℕ :=
  {i ∈ Finset.range n | stream i = true}

theorem mem_marked {i : ℕ} : i ∈ marked stream n ↔ i < n ∧ stream i = true := by
  rw [marked, Finset.mem_filter, Finset.mem_range]

theorem eq_false_of_notMem_marked {i : ℕ} (hi : i < n) (h : i ∉ marked stream n) :
    stream i = false := by
  rw [← Bool.not_eq_true]
  exact fun hmark => h (mem_marked.mpr ⟨hi, hmark⟩)

theorem step_iterate_zero (n : ℕ) : step^[n] 0 = 0 :=
  Function.iterate_fixed (by decide) n

theorem step_iterate_eq_zero_iff : step^[n] register = 0 ↔ register = 0 := by
  rw [← step_iterate_zero n, (step_injective.iterate n).eq_iff, step_iterate_zero]

/-- A register of zeros stays one as long as nothing is marked. -/
theorem absorb_zero_of_silent (h : ∀ i < n, stream i = false) : absorb 0 stream n = 0 := by
  have hmove : absorb 0 stream (0 + n) = step^[n] (absorb 0 stream 0) :=
    absorb_add_of_silent fun i _ hi => h i (by omega)
  rwa [Nat.zero_add, absorb, step_iterate_zero] at hmove

/-! ### Bursts -/

/-- **A burst is not forgotten.** -/
theorem absorb_ne_zero_of_isBurst (hne : (marked stream n).Nonempty)
    (h : IsBurst (marked stream n)) : absorb 0 stream n ≠ 0 := by
  obtain ⟨start, hburst⟩ := h
  obtain ⟨i, hi⟩ := hne
  obtain ⟨hge, hlt⟩ := hburst i hi
  obtain ⟨hn, hmark⟩ := mem_marked.mp hi
  -- the data may end before the sixteen positions do
  obtain ⟨m, k, hm, hnmk, him, hend⟩ : ∃ m k, m ≤ 16 ∧ n = start + m + k ∧ i - start < m ∧
      (k = 0 ∨ m = 16) := by
    refine ⟨min 16 (n - start), n - start - min 16 (n - start), ?_, ?_, ?_, ?_⟩ <;> omega
  have hoff : ∀ j < n, ¬ (start ≤ j ∧ j < start + 16) → stream j = false := fun j hj hout =>
    eq_false_of_notMem_marked hj fun hmem => hout (hburst j hmem)
  have hbefore : absorb 0 stream start = 0 :=
    absorb_zero_of_silent fun j hj => hoff j (by omega) (by omega)
  have hword : absorb 0 stream (start + m) = step^[m] (word (fun j => stream (start + j)) m) := by
    rw [absorb_add, hbefore, absorb_eq_step_iterate hm, UInt16.zero_xor]
  have hafter : absorb 0 stream n = step^[k] (absorb 0 stream (start + m)) := by
    rw [hnmk]
    exact absorb_add_of_silent fun j hj hjk => hoff j (by omega) (by omega)
  rw [hafter, hword]
  intro hzero
  have hnone := step_iterate_eq_zero_iff.mp (step_iterate_eq_zero_iff.mp hzero)
  have hbit : (word (fun j => stream (start + j)) m).toNat.testBit (i - start) =
      (decide (i - start < m) && stream (start + (i - start))) := testBit_word hm _
  rw [hnone, Nat.add_sub_cancel' hge, hmark, UInt16.toNat_zero, Nat.zero_testBit] at hbit
  simp [him] at hbit

/-! ### Odd numbers of errors -/

/-- The number of bits that are set in a register, modulo two. -/
def parity (register : UInt16) : ZMod 2 :=
  ∑ i ∈ Finset.range 16, if register.toNat.testBit i then 1 else 0

theorem parity_xor (a b : UInt16) : parity (a ^^^ b) = parity a + parity b := by
  rw [parity, parity, parity, ← Finset.sum_add_distrib]
  refine Finset.sum_congr rfl fun i _ => ?_
  rw [UInt16.toNat_xor, Nat.testBit_xor]
  cases a.toNat.testBit i <;> cases b.toNat.testBit i <;> decide

/-- What a shift takes off the parity is the bit that leaves. -/
theorem parity_shiftRight (register : UInt16) :
    parity (register >>> 1) + (if register.toNat.testBit 0 then 1 else 0) = parity register := by
  have hshift : ∀ i, (register >>> 1).toNat.testBit i = register.toNat.testBit (i + 1) := by
    intro i
    rw [UInt16.toNat_shiftRight, show (1 : UInt16).toNat % 16 = 1 from rfl, Nat.testBit_shiftRight,
      Nat.add_comm]
  have htop : register.toNat.testBit 16 = false := Nat.testBit_lt_two_pow register.toNat_lt
  simp only [parity, hshift]
  rw [← Finset.sum_range_succ' (fun i => if register.toNat.testBit i then (1 : ZMod 2) else 0),
    Finset.sum_range_succ, htop, if_neg Bool.false_ne_true, add_zero]

/-- The feedback has three bits, an odd number, wherever there is feedback at all. -/
theorem parity_feedback (register : UInt16) :
    parity (feedback register) = if register.toNat.testBit 0 then 1 else 0 := by
  simp only [feedback, and_one_eq_one_iff, Nat.testBit_zero, decide_eq_true_eq]
  split <;> decide

/-- **A move keeps the parity.** -/
theorem parity_step (register : UInt16) : parity (step register) = parity register := by
  rw [step_eq, parity_xor, parity_feedback, parity_shiftRight]

theorem parity_entering (bit : Bool) : parity (entering bit) = if bit then 1 else 0 := by
  cases bit <;> decide

theorem card_marked_succ (stream : ℕ → Bool) (n : ℕ) :
    (marked stream (n + 1)).card = (marked stream n).card + if stream n then 1 else 0 := by
  rw [marked, marked, Finset.range_add_one, Finset.filter_insert]
  split
  · rw [Finset.card_insert_of_notMem (by simp)]
  · rfl

/-- **The parity counts what was marked.** -/
theorem parity_absorb (register : UInt16) (stream : ℕ → Bool) (n : ℕ) :
    parity (absorb register stream n) = parity register + (marked stream n).card := by
  induction n with
  | zero => simp [absorb, marked]
  | succ n ih =>
    rw [absorb, parity_step, parity_xor, ih, parity_entering, card_marked_succ, Nat.cast_add,
      add_assoc, Nat.cast_ite, Nat.cast_one, Nat.cast_zero]

/-- **An odd number of errors is not forgotten.** -/
theorem absorb_ne_zero_of_odd (h : Odd (marked stream n).card) : absorb 0 stream n ≠ 0 := by
  intro hzero
  have hparity := parity_absorb 0 stream n
  rw [hzero, left_eq_add] at hparity
  exact ZMod.natCast_ne_zero_iff_odd.mpr h hparity

/-! ### Two errors -/

/-- **A single bit does not come round** within the length of a configuration. -/
theorem step_iterate_one_ne_one (hpos : 0 < n) (h : n < 416) : step^[n] 1 ≠ 1 := by
  have horbit : (1 : UInt16) ∉ List.iterate step (step 1) 415 := by decide
  intro hround
  refine horbit (List.mem_iterate.mpr ⟨n - 1, by omega, ?_⟩)
  rw [← Function.iterate_succ_apply, Nat.succ_eq_add_one, Nat.sub_add_cancel hpos, hround]

/-- Behind the last mark the register moves with the mark in it. -/
theorem absorb_of_last_mark {p : ℕ} (hp : p < n) (hmark : stream p = true)
    (h : ∀ i, p < i → i < n → stream i = false) :
    absorb register stream n = step^[n - p] (absorb register stream p ^^^ 1) := by
  have hmove : absorb register stream (p + 1 + (n - p - 1)) = step^[n - p - 1] _ :=
    absorb_add_of_silent fun i _ _ => h i (by omega) (by omega)
  rw [absorb, hmark, entering, if_pos rfl, ← Function.iterate_succ_apply] at hmove
  rwa [show p + 1 + (n - p - 1) = n by omega, show (n - p - 1).succ = n - p by omega] at hmove

/-- **Two errors are not forgotten** within the length of a configuration. -/
theorem absorb_ne_zero_of_card_eq_two (hn : n ≤ 416) (h : (marked stream n).card = 2) :
    absorb 0 stream n ≠ 0 := by
  obtain ⟨p, q, hlt, hpair⟩ : ∃ p q, p < q ∧ marked stream n = {p, q} := by
    obtain ⟨p, q, hne, hpair⟩ := Finset.card_eq_two.mp h
    rcases Nat.lt_or_gt_of_ne hne with hlt | hgt
    · exact ⟨p, q, hlt, hpair⟩
    · exact ⟨q, p, hgt, hpair.trans (Finset.pair_comm p q)⟩
  have hmem : ∀ i, i ∈ marked stream n ↔ i = p ∨ i = q := fun i => by rw [hpair]; simp
  obtain ⟨hp, hmarkp⟩ := mem_marked.mp ((hmem p).mpr (Or.inl rfl))
  obtain ⟨hq, hmarkq⟩ := mem_marked.mp ((hmem q).mpr (Or.inr rfl))
  have hoff : ∀ i < n, i ≠ p → i ≠ q → stream i = false := fun i hi hip hiq =>
    eq_false_of_notMem_marked hi fun hi => ((hmem i).mp hi).elim hip hiq
  have hbefore : absorb 0 stream p = 0 :=
    absorb_zero_of_silent fun i hi => hoff i (by omega) (by omega) (by omega)
  have hbetween : absorb 0 stream q = step^[q - p] 1 := by
    rw [absorb_of_last_mark hlt hmarkp fun i _ _ => hoff i (by omega) (by omega) (by omega),
      hbefore, UInt16.zero_xor]
  have hend : absorb 0 stream n = step^[n - q] (step^[q - p] 1 ^^^ 1) := by
    rw [absorb_of_last_mark hq hmarkq fun i _ _ => hoff i (by omega) (by omega) (by omega),
      hbetween]
  rw [hend, Ne, step_iterate_eq_zero_iff, UInt16.xor_eq_zero_iff]
  exact step_iterate_one_ne_one (by omega) (by omega)

/-! ### Errors in data -/

/-- What is asked of wrong positions in data of `size` bytes: that there are some, and that they are
a burst, or odd in number, or two in data no longer than a configuration. -/
def Noticeable (positions : Finset ℕ) (size : ℕ) : Prop :=
  positions.Nonempty ∧
    (IsBurst positions ∨ Odd positions.card ∨ positions.card = 2 ∧ size ≤ 52)

theorem absorb_ne_zero_of_noticeable {size : ℕ} (h : Noticeable (marked stream (8 * size)) size) :
    absorb 0 stream (8 * size) ≠ 0 := by
  rcases h with ⟨hne, hburst | hodd | ⟨htwo, hsize⟩⟩
  · exact absorb_ne_zero_of_isBurst hne hburst
  · exact absorb_ne_zero_of_odd hodd
  · exact absorb_ne_zero_of_card_eq_two (by omega) htwo

section Data

variable {data other : Bytes}

theorem differing_eq_marked (data other : Bytes) :
    data.differing other =
      marked (fun i => data.bit i ^^ other.bit i) (8 * data.length) := by
  refine Finset.filter_congr fun i _ => ?_
  rw [bne_iff_ne]

/-- Data that differs does so in some bit. -/
theorem differing_nonempty (hlength : other.length = data.length) (hne : other ≠ data) :
    (data.differing other).Nonempty := by
  by_contra hnone
  rw [Finset.not_nonempty_iff_eq_empty, Bytes.differing, Finset.filter_eq_empty_iff] at hnone
  exact hne (Bytes.ext_bit hlength fun i hi => not_not.mp (hnone (Finset.mem_range.mpr hi))).symm

/-- **Differences that both sides hide**: data of one length with one checksum differs by a stream
that a register of zeros forgets. -/
theorem absorb_differences (hlength : other.length = data.length)
    (h : crc16 other = crc16 data) :
    absorb 0 (fun i => data.bit i ^^ other.bit i) (8 * data.length) = 0 := by
  have hxor := absorb_xor initial initial data.bit other.bit (8 * data.length)
  rwa [UInt16.xor_self, ← crc16_eq_absorb, ← hlength, ← crc16_eq_absorb, h, UInt16.xor_self,
    hlength] at hxor

/-- **What verification notices.** -/
theorem verify_eq_false_of_noticeable (hlength : other.length = data.length)
    (hverify : verify data = true) (h : Noticeable (data.differing other) data.length) :
    verify other = false := by
  rw [← Bool.not_eq_true]
  intro hother
  rw [differing_eq_marked] at h
  rw [verify, beq_iff_eq] at hverify hother
  exact absorb_ne_zero_of_noticeable h (absorb_differences hlength (hother.trans hverify.symm))

end Data

/-! ### Errors in records -/

/-- Byte strings that differ only in their fronts do so where the fronts do. -/
theorem differing_take {bytes other : Bytes} {size : ℕ} (hlength : other.length = bytes.length)
    (hsize : size ≤ bytes.length) (h : ∀ i ∈ bytes.differing other, i < 8 * size) :
    Bytes.differing (bytes.take size) (other.take size) = bytes.differing other := by
  have hbit : ∀ {bytes : Bytes} {i : ℕ}, size ≤ bytes.length → i < 8 * size →
      Bytes.bit (bytes.take size) i = bytes.bit i := by
    intro bytes i hsize hi
    have hfront : i < 8 * (bytes.take size).length := by rwa [List.length_take_of_le hsize]
    have hwhole := Bytes.bit_append_left hfront (bytes.drop size)
    rwa [List.take_append_drop, eq_comm] at hwhole
  ext i
  have hmem : i ∈ bytes.differing other → i < 8 * size := h i
  simp only [Bytes.differing, Finset.mem_filter, Finset.mem_range,
    List.length_take_of_le hsize] at hmem ⊢
  constructor
  · rintro ⟨hi, hne⟩
    rw [hbit hsize hi, hbit (hsize.trans hlength.ge) hi] at hne
    exact ⟨by omega, hne⟩
  · rintro ⟨hi, hne⟩
    have hfront := hmem ⟨hi, hne⟩
    exact ⟨hfront, by rwa [hbit hsize hfront, hbit (hsize.trans hlength.ge) hfront]⟩

/-- Few errors are two or odd in number. -/
theorem noticeable_of_card_le_three {positions : Finset ℕ} {size : ℕ} (hsize : size ≤ 52)
    (hsome : positions.Nonempty) (h : positions.card ≤ 3 ∨ IsBurst positions) :
    Noticeable positions size := by
  refine ⟨hsome, ?_⟩
  rcases h with hthree | hburst
  · have hpos := Finset.card_pos.mpr hsome
    rcases (by omega : positions.card = 2 ∨ positions.card % 2 = 1) with htwo | hodd
    · exact Or.inr (Or.inr ⟨htwo, hsize⟩)
    · exact Or.inr (Or.inl (Nat.odd_iff.mpr hodd))
  · exact Or.inl hburst

/-- **What makes a record refused**: errors in the part that is verified which are noticed there. -/
theorem parse_eq_error_of_noticeable {record : SlotRecord} {other : Bytes}
    (hlength : other.length = record.bytes.length)
    (hfront : ∀ i ∈ record.bytes.differing other, i < 8 * 52)
    (h : Noticeable (record.bytes.differing other) 52) :
    SlotRecord.parse other = .error .checksum := by
  have hsize : record.bytes.length = 58 := record.length_eq
  have htake : (record.bytes.take 52).length = 52 := List.length_take_of_le (by omega)
  have hlengths : (other.take 52).length = (record.bytes.take 52).length := by
    rw [htake, List.length_take_of_le (by omega)]
  have hrefused : verify (other.take 52) = false := by
    refine verify_eq_false_of_noticeable hlengths record.verified ?_
    rwa [differing_take hlength (by omega) hfront, htake]
  rw [SlotRecord.parse, dif_pos (hlength.trans record.length_eq), dif_neg]
  rw [Bool.not_eq_true]
  exact hrefused

/-- **Which errors are noticed.** Where data carries its own checksum, other data of the same length
does not if the bits in which the two differ lie within sixteen consecutive positions, or are odd in
number, or are two in data of at most 52 bytes. So an accepted record with one, two or three wrong
bits before the current access code, or with any burst of wrong bits there, is refused for its
checksum. -/
theorem detects_errors {data other : Bytes} (hlength : other.length = data.length)
    (hne : other ≠ data) :
    (verify data = true → IsBurst (data.differing other) ∨ Odd (data.differing other).card ∨
        (data.differing other).card = 2 ∧ data.length ≤ 52 → verify other = false) ∧
      ∀ record, SlotRecord.parse data = .ok record →
        (∀ i ∈ data.differing other, i < 8 * 52) →
        (data.differing other).card ≤ 3 ∨ IsBurst (data.differing other) →
        SlotRecord.parse other = .error .checksum := by
  have hsome := differing_nonempty hlength hne
  constructor
  · intro hverify herror
    exact verify_eq_false_of_noticeable hlength hverify ⟨hsome, herror⟩
  · intro record hparse hfront herror
    obtain rfl := SlotRecord.parse_eq_ok_iff.mp hparse
    exact parse_eq_error_of_noticeable hlength hfront
      (noticeable_of_card_le_three (Nat.le_refl 52) hsome herror)

/-- The record of a new builder, with one wrong bit in the first byte, one in the configuration
flags and one in the checksum itself. -/
theorem detects_errors_three_bits :
    ((Builder.empty.build.set 0 0x01).set 47 0x80).set 50 0x14 ≠ Builder.empty.build ∧
      SlotRecord.parse (((Builder.empty.build.set 0 0x01).set 47 0x80).set 50 0x14) =
        .error .checksum := by
  obtain ⟨record, hparse, -⟩ := Builder.empty.exists_parse_build
  have hne : ((Builder.empty.build.set 0 0x01).set 47 0x80).set 50 0x14 ≠ Builder.empty.build := by
    decide
  exact ⟨hne, (detects_errors (by decide) hne).2 record hparse (by decide +kernel)
    (Or.inl (by decide +kernel))⟩

end Checksum

end TokenConfig
