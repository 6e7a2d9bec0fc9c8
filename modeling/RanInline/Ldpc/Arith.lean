/-
Module: RanInline.Ldpc.Arith
Purpose: The char arithmetic of ldpc_decode.cl on log-likelihood ratios, and its exact
  values on the ranges the decoder keeps to.
Trusted boundary: none
Main exports: llrAdd, llrSub, llrAbs, llrIsinf, llrScale, SoftRange, MessageRange
-/
import Mathlib.Data.Int.Basic
import Mathlib.Tactic.SplitIfs

namespace RanInline.Ldpc

/-- A conversion to `char`: eight bits, signed. -/
def toChar (x : Int) : Int := Int.bmod x 256

/-- `LLR_MAX`. -/
def llrMax : Int := 120

/-- `LLR_INF`. -/
def llrInf : Int := 127

/-- `SCALE_NUM`. -/
def scaleNum : Int := 4

/-- `SCALE_DEN`. -/
def scaleDen : Int := 5

/-- `llr_add`.  The sum is a `short` and does not overflow. -/
def llrAdd (a b : Int) : Int :=
  if a = llrInf ∨ b = llrInf then llrInf
  else if a = -llrInf ∨ b = -llrInf then -llrInf
  else
    let s := a + b
    if s > llrMax then llrInf
    else if s < -llrMax then -llrInf
    else toChar s

/-- `llr_sub`. -/
def llrSub (a b : Int) : Int :=
  let d := a - b
  if d > llrMax then llrMax
  else if d < -llrMax then -llrMax
  else toChar d

/-- `llr_abs`. -/
def llrAbs (a : Int) : Int :=
  toChar (if a < 0 then -a else a)

/-- `llr_isinf`. -/
def llrIsinf (a : Int) : Prop := llrAbs a = llrInf

instance (a : Int) : Decidable (llrIsinf a) := inferInstanceAs (Decidable (_ = _))

/-- `llr_scale`. -/
def llrScale (a : Int) : Int :=
  if llrIsinf a then a
  else
    let mag := llrAbs a
    let scaled := toChar ((mag * scaleNum + Int.tdiv scaleDen 2).tdiv scaleDen)
    if a < 0 then toChar (-scaled) else scaled

/-! ### The values on the ranges of the decoder -/

/-- The range of the channel LLRs and of the soft values. -/
def SoftRange (x : Int) : Prop := -120 ≤ x ∧ x ≤ 120 ∨ x = 127 ∨ x = -127

/-- The range of the messages from check nodes. -/
def MessageRange (x : Int) : Prop := -96 ≤ x ∧ x ≤ 96

instance (x : Int) : Decidable (SoftRange x) := inferInstanceAs (Decidable (_ ∨ _))

instance (x : Int) : Decidable (MessageRange x) := inferInstanceAs (Decidable (_ ∧ _))

theorem toChar_eq {x : Int} (lower : -128 ≤ x) (upper : x ≤ 127) : toChar x = x := by
  rw [toChar, Int.bmod]
  split_ifs <;> omega

/-- `llr_sub` is the difference, clamped. -/
theorem llrSub_eq (a b : Int) : llrSub a b = max (-120) (min 120 (a - b)) := by
  rw [llrSub, llrMax]
  split_ifs with above below
  · omega
  · omega
  · rw [toChar_eq (by omega) (by omega)]
    omega

theorem llrAbs_eq {a : Int} (lower : -127 ≤ a) (upper : a ≤ 127) : llrAbs a = a.natAbs := by
  rw [llrAbs, toChar_eq (by split_ifs <;> omega) (by split_ifs <;> omega)]
  split_ifs <;> omega

/-- A magnitude below infinity is scaled by four fifths, rounding half up. -/
theorem llrScale_eq {m : Int} (nonneg : 0 ≤ m) (small : m ≤ 120) :
    llrScale m = (4 * m + 2) / 5 := by
  have abs : llrAbs m = m := by rw [llrAbs_eq (by omega) (by omega)]; omega
  have finite : ¬ llrIsinf m := by rw [llrIsinf, abs, llrInf]; omega
  have half : Int.tdiv scaleDen 2 = 2 := rfl
  rw [llrScale, if_neg finite, abs, if_neg (by omega), half, scaleNum, scaleDen,
    Int.tdiv_eq_ediv_of_nonneg (by omega), toChar_eq (by omega) (by omega)]
  omega

/-- The sum of a soft value and a change of a message. -/
theorem llrAdd_eq {a d : Int} (soft : SoftRange a) (small : -120 ≤ d ∧ d ≤ 120) :
    llrAdd a d =
      if a = 127 ∨ a = -127 then a
      else if a + d > 120 then 127
      else if a + d < -120 then -127
      else a + d := by
  rw [SoftRange] at soft
  rw [llrAdd, llrInf, llrMax]
  by_cases infinite : a = 127 ∨ a = -127
  · rw [if_pos infinite]
    rcases infinite with rfl | rfl
    · rw [if_pos (.inl rfl)]
    · rw [if_neg (by omega), if_pos (.inl rfl)]
  · rw [if_neg (by omega), if_neg (by omega), if_neg infinite]
    dsimp only
    split_ifs
    · rfl
    · rfl
    · exact toChar_eq (by omega) (by omega)

end RanInline.Ldpc
