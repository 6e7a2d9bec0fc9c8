/-
Module: RanInline.Lib.LinearSequence
Purpose: Linear recurrences over bits, and shift registers that hold a window of such a
  sequence with its first bit on top.
Trusted boundary: none
Main exports: linearSequence, linearSequence_add, HoldsWindow, HoldsWindow.top,
  HoldsWindow.shift
-/
import Mathlib.Data.List.Basic
import Mathlib.Tactic.SplitIfs

namespace RanInline.Lib

/-- The sequence with given first `order` bits, in which every later bit is the sum of the
bits at `taps` in the window of `order` bits before it. -/
def linearSequence {order : Nat} (taps : List (Fin order)) (initial : Nat → Bool) (n : Nat) :
    Bool :=
  if n < order then initial n
  else taps.foldl
    (fun sum (tap : Fin order) => xor sum (linearSequence taps initial (n - order + tap.val)))
    false
termination_by n
decreasing_by
  have := tap.isLt
  omega

variable {order : Nat} {taps : List (Fin order)} {initial : Nat → Bool}

theorem linearSequence_initial {n : Nat} (first : n < order) :
    linearSequence taps initial n = initial n := by
  rw [linearSequence, if_pos first]

/-- The recurrence. -/
theorem linearSequence_add (taps : List (Fin order)) (initial : Nat → Bool) (n : Nat) :
    linearSequence taps initial (n + order) =
      taps.foldl
        (fun sum (tap : Fin order) => xor sum (linearSequence taps initial (n + tap.val)))
        false := by
  rw [linearSequence, if_neg (Nat.not_lt.mpr (Nat.le_add_left order n)), Nat.add_sub_cancel]

/-- The register holds the bits of `sequence` from `n` on, the first of them on top, and its
bits below the window are clear. -/
def HoldsWindow {width : Nat} (order : Nat) (sequence : Nat → Bool) (n : Nat)
    (register : BitVec width) : Prop :=
  ∀ i < width, register.getLsbD (width - 1 - i) = (decide (i < order) && sequence (n + i))

namespace HoldsWindow

variable {width n : Nat} {sequence : Nat → Bool} {register feedback : BitVec width}

/-- The top bit of the register moved up by `tap`. -/
theorem top (holds : HoldsWindow order sequence n register) {tap : Nat} (inWindow : tap < order)
    (fits : order ≤ width) :
    (register <<< tap).getLsbD (width - 1) = sequence (n + tap) := by
  have bit := holds tap (by omega)
  rw [decide_eq_true inWindow, Bool.true_and] at bit
  rw [BitVec.getLsbD_shiftLeft, decide_eq_true (by omega : width - 1 < width),
    decide_eq_false (by omega : ¬ width - 1 < tap), bit]
  rfl

/-- A shift that feeds the next bit of the sequence in behind the window moves the window
on. -/
theorem shift (holds : HoldsWindow order sequence n register) (fits : order ≤ width)
    (feeds : ∀ j, feedback.getLsbD j =
      (decide (j = width - order) && sequence (n + order))) :
    HoldsWindow order sequence (n + 1) ((register <<< 1) ^^^ feedback) := by
  intro i inside
  rw [BitVec.getLsbD_xor, BitVec.getLsbD_shiftLeft, feeds]
  by_cases last : i + 1 = order
  · have incoming : width - 1 - i = width - order := by omega
    have shifted : n + 1 + i = n + order := by omega
    have cleared : (!decide (width - 1 - i < 1) && register.getLsbD (width - 1 - i - 1)) =
        false := by
      by_cases bottom : width - 1 - i < 1
      · simp [bottom]
      · have bit := holds (i + 1) (by omega)
        rw [show width - 1 - (i + 1) = width - 1 - i - 1 by omega] at bit
        simp [bit, last]
    rw [Bool.and_assoc, cleared, incoming, shifted, decide_eq_true (by omega : i < order)]
    simp
  · have other : ¬ width - 1 - i = width - order := by omega
    by_cases bottom : width - 1 - i < 1
    · have outside : ¬ i < order := by omega
      simp [bottom, other, outside]
    · have bit := holds (i + 1) (by omega)
      have window : i < order ↔ i + 1 < order := by omega
      rw [show width - 1 - i - 1 = width - 1 - (i + 1) by omega, bit,
        show n + 1 + i = n + (i + 1) by omega]
      simp [bottom, other, window]
      omega

end HoldsWindow

end RanInline.Lib
