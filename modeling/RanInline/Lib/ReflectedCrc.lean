/-
Module: RanInline.Lib.ReflectedCrc
Purpose: Checksums whose register is shifted towards the least significant bit, over any width
  and generator: the register that takes a byte bit by bit, and the table that takes it at
  once.
Trusted boundary: none
Main exports: crcShift, crcByte, crcBit, byteBits, crcShift_iterate_xor, crcByte_eq_table,
  crcByte_eq_bits
-/
import Mathlib.Logic.Function.Iterate
import Mathlib.Tactic.Common

namespace RanInline.Lib

variable {w : Nat} (generator : BitVec w)

/-- One shift of the register. -/
def crcShift (register : BitVec w) : BitVec w :=
  if register.getLsbD 0 then generator ^^^ (register >>> 1) else register >>> 1

/-- The register after a byte, taken bit by bit. -/
def crcByte (register : BitVec w) (byte : BitVec 8) : BitVec w :=
  (crcShift generator)^[8] (register ^^^ byte.setWidth w)

theorem crcShift_xor (one two : BitVec w) :
    crcShift generator (one ^^^ two) = crcShift generator one ^^^ crcShift generator two := by
  simp only [crcShift, BitVec.getLsbD_xor, BitVec.ushiftRight_xor_distrib]
  cases one.getLsbD 0 <;> cases two.getLsbD 0
  · simp
  · simp only [Bool.false_xor, if_true, Bool.false_eq_true, if_false]
    rw [← BitVec.xor_assoc, BitVec.xor_comm generator, BitVec.xor_assoc]
  · simp [BitVec.xor_assoc]
  · simp only [Bool.xor_true, Bool.not_true, Bool.false_eq_true, if_false, if_true]
    -- the generator is added twice
    rw [BitVec.xor_comm generator (one >>> 1), BitVec.xor_assoc, ← BitVec.xor_assoc generator,
      BitVec.xor_self, BitVec.zero_xor]

/-- The register is linear in its start. -/
theorem crcShift_iterate_xor (n : Nat) (one two : BitVec w) :
    (crcShift generator)^[n] (one ^^^ two) =
      (crcShift generator)^[n] one ^^^ (crcShift generator)^[n] two := by
  induction n generalizing one two with
  | zero => rfl
  | succ n inductionHypothesis =>
      rw [Function.iterate_succ_apply, Function.iterate_succ_apply, Function.iterate_succ_apply,
        crcShift_xor, inductionHypothesis]

/-- While only zeros leave the register, it is shifted and nothing else. -/
theorem crcShift_iterate_of_low_zero {n : Nat} {register : BitVec w}
    (low : ∀ i < n, register.getLsbD i = false) :
    (crcShift generator)^[n] register = register >>> n := by
  induction n with
  | zero => simp
  | succ n inductionHypothesis =>
      rw [Function.iterate_succ_apply', inductionHypothesis fun i less => low i (by omega),
        crcShift, BitVec.getLsbD_ushiftRight, low (n + 0) (by omega), if_neg Bool.false_ne_true,
        BitVec.shiftRight_add]

/-- The byte that leaves the register and the byte that enters it choose the table entry; the
rest of the register is shifted by eight. -/
theorem crcByte_eq_table (register : BitVec w) (byte : BitVec 8) :
    crcByte generator register byte =
      (crcShift generator)^[8] ((register.setWidth 8 ^^^ byte).setWidth w) ^^^ register >>> 8 := by
  have split : register ^^^ byte.setWidth w =
      (register.setWidth 8 ^^^ byte).setWidth w ^^^ (register >>> 8 <<< 8) := by
    refine BitVec.eq_of_getLsbD_eq fun i inside => ?_
    rcases Nat.lt_or_ge i 8 with low | high
    · simp [inside, low]
    · have outside : byte.getLsbD i = false := BitVec.getLsbD_of_ge byte i high
      simp [inside, Nat.not_lt.mpr high, outside, show 8 + (i - 8) = i by omega]
  have shifted : (crcShift generator)^[8] (register >>> 8 <<< 8) = register >>> 8 := by
    rw [crcShift_iterate_of_low_zero generator (n := 8) fun i less => by simp [less]]
    refine BitVec.eq_of_getLsbD_eq fun i inside => ?_
    simp only [BitVec.getLsbD_ushiftRight, BitVec.getLsbD_shiftLeft]
    rcases Nat.lt_or_ge (8 + i) w with within | beyond
    · simp [within]
    · simp [BitVec.getLsbD_of_ge register (8 + i) beyond]
  rw [crcByte, split, crcShift_iterate_xor, shifted]

/-- The register after one bit, which meets the bit that leaves. -/
def crcBit (register : BitVec w) (bit : Bool) : BitVec w :=
  if xor (register.getLsbD 0) bit then generator ^^^ (register >>> 1) else register >>> 1

/-- The bits of a byte, the least significant one first. -/
def byteBits (byte : BitVec 8) : List Bool :=
  (List.range 8).map byte.getLsbD

theorem crcBit_eq_shift (positive : 0 < w) (register : BitVec w) (bit : Bool) :
    crcBit generator register bit =
      crcShift generator (register ^^^ (BitVec.ofBool bit).setWidth w) := by
  have leaving : (register ^^^ (BitVec.ofBool bit).setWidth w).getLsbD 0 =
      xor (register.getLsbD 0) bit := by
    rw [BitVec.getLsbD_xor, BitVec.getLsbD_setWidth]
    cases bit <;> simp [positive]
  have rest : (register ^^^ (BitVec.ofBool bit).setWidth w) >>> 1 = register >>> 1 := by
    refine BitVec.eq_of_getLsbD_eq fun i _ => ?_
    simp
  rw [crcBit, crcShift, leaving, rest]

/-- The first `n` bits of a byte enter the register one by one, or all at once. -/
theorem foldl_crcBit (byte : BitVec 8) (register : BitVec w) {n : Nat} (wide : n ≤ w) :
    ((List.range n).map byte.getLsbD).foldl (crcBit generator) register =
      (crcShift generator)^[n] (register ^^^ (byte.setWidth n).setWidth w) := by
  induction n with
  | zero =>
      have empty : (byte.setWidth 0).setWidth w = 0#w := by
        rw [BitVec.eq_nil (byte.setWidth 0)]
        exact BitVec.setWidth_zero w 0
      rw [empty, BitVec.xor_zero]
      rfl
  | succ n inductionHypothesis =>
      have split : (byte.setWidth (n + 1)).setWidth w =
          (byte.setWidth n).setWidth w ^^^ ((BitVec.ofBool (byte.getLsbD n)).setWidth w <<< n) := by
        refine BitVec.eq_of_getLsbD_eq fun i inside => ?_
        simp only [BitVec.getLsbD_setWidth, BitVec.getLsbD_xor, BitVec.getLsbD_shiftLeft, inside]
        rcases Nat.lt_trichotomy i n with less | rfl | more
        · simp [less, Nat.lt_succ_of_lt less]
        · simp [show 0 < w by omega]
        · have above : (BitVec.ofBool (byte.getLsbD n)).getLsbD (i - n) = false :=
            BitVec.getLsbD_of_ge _ _ (by omega)
          simp [above, show ¬ i < n + 1 by omega, show ¬ i < n by omega]
      have arrived : (crcShift generator)^[n] ((BitVec.ofBool (byte.getLsbD n)).setWidth w <<< n) =
          (BitVec.ofBool (byte.getLsbD n)).setWidth w := by
        rw [crcShift_iterate_of_low_zero generator fun i less => by simp [less]]
        refine BitVec.eq_of_getLsbD_eq fun i inside => ?_
        rw [BitVec.getLsbD_ushiftRight, BitVec.getLsbD_shiftLeft]
        rcases Nat.lt_or_ge (n + i) w with within | beyond
        · simp [within]
        · have above : (BitVec.ofBool (byte.getLsbD n)).getLsbD i = false :=
            BitVec.getLsbD_of_ge _ _ (by omega)
          simp [above]
      rw [Function.iterate_succ_apply', split, ← BitVec.xor_assoc,
        crcShift_iterate_xor generator n (_ ^^^ _), arrived, List.range_succ, List.map_append,
        List.foldl_append, inductionHypothesis (by omega), List.map_singleton, List.foldl_cons,
        List.foldl_nil, crcBit_eq_shift generator (by omega)]

/-- A byte at once is its bits one by one. -/
theorem crcByte_eq_bits (wide : 8 ≤ w) (register : BitVec w) (byte : BitVec 8) :
    crcByte generator register byte = (byteBits byte).foldl (crcBit generator) register := by
  rw [byteBits, foldl_crcBit generator byte register wide, BitVec.setWidth_eq, crcByte]

end RanInline.Lib
