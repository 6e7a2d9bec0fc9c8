/-
Module: RanInline.Tail.CbSegment
Purpose: The sizes of oi_p2_cb_segment.cpp: code blocks, lifting size, filler and padding, and
  the rate-matched lengths.  No subtraction underflows and every part has its place.
Trusted boundary: none
Main exports: OiP2CbSegmentParams, oiP2CbSegmentCompute, oiP2ComputeRmLength, SegmentSizes,
  segmentSizes, sum_rmLength
-/
import Mathlib.Algebra.Order.Floor.Div
import Mathlib.Algebra.BigOperators.Group.Finset.Basic
import Mathlib.Tactic.Ring
import RanInline.Ldpc.BaseGraph

namespace RanInline.Tail

open RanInline.Ldpc

/-- `kLiftingSizes`. -/
def kLiftingSizes : List Nat :=
  [2, 3, 4, 5, 6, 7, 8, 9, 10, 11, 12, 13, 14, 15, 16, 18, 20, 22, 24, 26, 28, 30, 32, 36, 40, 44,
    48, 52, 56, 60, 64, 72, 80, 88, 96, 104, 112, 120, 128, 144, 160, 176, 192, 208, 224, 240,
    256, 288, 320, 352, 384]

/-- `compute_tb_crc_size`. -/
def computeTbCrcSize (tbsBits : Nat) : Nat := if tbsBits ≤ 3824 then 16 else 24

/-- `max_segment_length`. -/
def maxSegmentLength : BaseGraph → Nat
  | .bg1 => 8448
  | .bg2 => 3840

/-- `compute_nof_codeblocks`. -/
def computeNofCodeblocks (tbsBits : Nat) (baseGraph : BaseGraph) : Nat :=
  let tbAndCrcBits := tbsBits + computeTbCrcSize tbsBits
  if tbAndCrcBits ≤ maxSegmentLength baseGraph then 1
  else
    let denom := maxSegmentLength baseGraph - 24
    (tbAndCrcBits + denom - 1) / denom

/-- `ref_length` of `compute_lifting_size`. -/
def refLength (baseGraph : BaseGraph) (nofTbBitsIn : Nat) : Nat :=
  match baseGraph with
  | .bg1 => 22
  | .bg2 =>
      if 640 < nofTbBitsIn then 10
      else if 560 < nofTbBitsIn then 9
      else if 192 < nofTbBitsIn then 8
      else 6

/-- `nof_tb_bits_out`: the bits of a transport block with its CRC and those of its code
blocks. -/
def nofTbBitsOut (tbsBits nofSegments : Nat) : Nat :=
  let nofTbBitsIn := tbsBits + computeTbCrcSize tbsBits
  if 1 < nofSegments then nofTbBitsIn + 24 * nofSegments else nofTbBitsIn

/-- `compute_lifting_size`. -/
def computeLiftingSize (tbsBits : Nat) (baseGraph : BaseGraph) (nofSegments : Nat) : Nat :=
  let nofTbBitsIn := tbsBits + computeTbCrcSize tbsBits
  let totalRefLength := nofSegments * refLength baseGraph nofTbBitsIn
  (kLiftingSizes.find? fun ls => nofTbBitsOut tbsBits nofSegments ≤ ls * totalRefLength).getD 0

/-- `compute_codeblock_size`. -/
def computeCodeblockSize (baseGraph : BaseGraph) (liftingSize : Nat) : Nat :=
  match baseGraph with
  | .bg1 => 22 * liftingSize
  | .bg2 => 10 * liftingSize

/-- `divide_ceil_u32`. -/
def divideCeil (a b : Nat) : Nat := (a + b - 1) / b

/-- `oi_p2_cb_segment_params`. -/
structure OiP2CbSegmentParams where
  baseGraph : BaseGraph
  nofSegments : Nat
  liftingSize : Nat
  segmentLength : Nat
  codewordLength : Nat
  nofFillerBits : Nat
  nofCrcBits : Nat
  tbCrcBits : Nat
  cbInfoBits : Nat
  cbInfoBitsLast : Nat
  zeroPad : Nat
deriving DecidableEq, Repr

/-- `oi_p2_cb_segment_compute`, for the base graph that the code rate selects. -/
def oiP2CbSegmentCompute (tbSizeBits : Nat) (baseGraph : BaseGraph) : OiP2CbSegmentParams :=
  let tbCrcBits := computeTbCrcSize tbSizeBits
  let nofSegments := computeNofCodeblocks tbSizeBits baseGraph
  let liftingSize := computeLiftingSize tbSizeBits baseGraph nofSegments
  let segmentLength := computeCodeblockSize baseGraph liftingSize
  let codewordLength := segmentLength * match baseGraph with
    | .bg1 => 3
    | .bg2 => 5
  let nofCrcBits := if 1 < nofSegments then 24 else 0
  let bitsOut := nofTbBitsOut tbSizeBits nofSegments
  let cbInfoBits := divideCeil bitsOut nofSegments - nofCrcBits
  let zeroPad := (cbInfoBits + nofCrcBits) * nofSegments - bitsOut
  let nofFillerBits := segmentLength - cbInfoBits - nofCrcBits
  let cbInfoBitsLast := cbInfoBits - tbCrcBits - zeroPad
  { baseGraph, nofSegments, liftingSize, segmentLength, codewordLength, nofFillerBits, nofCrcBits,
    tbCrcBits, cbInfoBits, cbInfoBitsLast, zeroPad }

/-- `oi_p2_compute_rm_length`. -/
def oiP2ComputeRmLength (nofSymbolsPerLayer nofSegments qm cbIndex : Nat) : Nat :=
  let nofShortSegments := nofSegments - nofSymbolsPerLayer % nofSegments
  let nofSymbolsThisCb :=
    if cbIndex < nofShortSegments then nofSymbolsPerLayer / nofSegments
    else divideCeil nofSymbolsPerLayer nofSegments
  nofSymbolsThisCb * qm

/-! ### Sizes of a segmentation -/

/-- The sizes fit together: nothing underflows, and the parts of a code block, of the last
code block and of the transport block add up. -/
structure SegmentSizes (tbSizeBits : Nat) (params : OiP2CbSegmentParams) : Prop where
  segments : 1 ≤ params.nofSegments
  lifting : params.liftingSize ∈ kLiftingSizes
  segment : params.segmentLength = params.baseGraph.nVnInfo * params.liftingSize
  codeword : params.codewordLength = params.baseGraph.nShort * params.liftingSize
  crc : params.nofCrcBits = if 1 < params.nofSegments then 24 else 0
  tbCrc : params.tbCrcBits = computeTbCrcSize tbSizeBits
  layout : params.cbInfoBits + params.nofCrcBits + params.nofFillerBits = params.segmentLength
  punctured : 2 * params.liftingSize ≤ params.cbInfoBits + params.nofCrcBits
  last : params.cbInfoBitsLast + params.tbCrcBits + params.zeroPad = params.cbInfoBits
  total : params.nofSegments * params.cbInfoBits =
    tbSizeBits + params.tbCrcBits + params.zeroPad

/-- All code blocks but the last hold a whole payload of the transport block. -/
theorem SegmentSizes.last_block {tbSizeBits : Nat} {params : OiP2CbSegmentParams}
    (sizes : SegmentSizes tbSizeBits params) :
    (params.nofSegments - 1) * params.cbInfoBits + params.cbInfoBitsLast = tbSizeBits := by
  have last := sizes.last
  have total := sizes.total
  obtain ⟨n, count⟩ := Nat.exists_eq_add_of_le' sizes.segments
  rw [count, Nat.succ_mul] at total
  rw [count, Nat.add_sub_cancel]
  omega

theorem divideCeil_le_iff {a b c : Nat} (positive : 0 < b) : divideCeil a b ≤ c ↔ a ≤ b * c := by
  rw [divideCeil, ← Nat.ceilDiv_eq_add_pred_div]
  exact ceilDiv_le_iff_le_mul positive

theorem le_mul_divideCeil (a : Nat) {b : Nat} (positive : 0 < b) : a ≤ b * divideCeil a b :=
  (divideCeil_le_iff positive).mp (Nat.le_refl _)

theorem mul_divideCeil_lt (a : Nat) {b : Nat} (positive : 0 < b) : b * divideCeil a b < a + b := by
  have smaller : divideCeil a b - 1 < divideCeil a b ∨ divideCeil a b = 0 := by omega
  rcases smaller with less | zero
  · have above := Nat.lt_of_not_le (mt (divideCeil_le_iff positive).mpr (Nat.not_le.mpr less))
    have split : b * divideCeil a b = b * (divideCeil a b - 1) + b := by
      rw [← Nat.mul_succ]
      congr 1
      omega
    omega
  · rw [zero]
    omega

/-- The lifting sizes at most double from one to the next, and none is a multiple of 33. -/
theorem kLiftingSizes_facts : ∀ z ∈ kLiftingSizes, 2 ≤ z ∧ z ≤ 384 ∧ z % 33 ≠ 0 ∧
    lsToIdx.getD z 255 ≠ 255 ∧ (z = 2 ∨ ∃ smaller ∈ kLiftingSizes, smaller < z ∧ z ≤ 2 * smaller) := by
  decide +kernel

/-- The smallest lifting size that is large enough. -/
theorem find_kLiftingSizes {total out : Nat} (possible : out ≤ 384 * total) :
    ∃ z, kLiftingSizes.find? (fun ls => out ≤ ls * total) = some z ∧ z ∈ kLiftingSizes ∧
      out ≤ z * total ∧ ∀ smaller ∈ kLiftingSizes, smaller < z → smaller * total < out := by
  have sorted : kLiftingSizes.Pairwise (· < ·) := by decide +kernel
  cases found : kLiftingSizes.find? (fun ls => out ≤ ls * total) with
  | none =>
      have all := List.find?_eq_none.mp found 384 (by decide)
      simp only [decide_eq_true_eq] at all
      exact absurd possible all
  | some z =>
      obtain ⟨enough, before, behind, split, notEnough⟩ := List.find?_eq_some_iff_append.mp found
      have member : z ∈ kLiftingSizes := List.mem_of_find?_eq_some found
      refine ⟨z, rfl, member, of_decide_eq_true enough, fun smaller inside less => ?_⟩
      rw [split] at inside sorted
      rcases List.mem_append.mp inside with early | late
      · have short := notEnough smaller early
        simp only [Bool.not_eq_true', decide_eq_false_iff_not] at short
        exact Nat.lt_of_not_le short
      · rcases List.mem_cons.mp late with rfl | later
        · exact absurd less (Nat.lt_irrefl _)
        · have ordered := (List.pairwise_append.mp sorted).2.1
          exact absurd (List.rel_of_pairwise_cons ordered later) (Nat.lt_asymm less)

theorem computeTbCrcSize_cases (tbsBits : Nat) :
    computeTbCrcSize tbsBits = 16 ∨ computeTbCrcSize tbsBits = 24 := by
  rw [computeTbCrcSize]
  split_ifs
  · exact .inl rfl
  · exact .inr rfl

/-- Either one code block holds everything, or there are as many as it takes. -/
theorem computeNofCodeblocks_cases (tbsBits : Nat) (baseGraph : BaseGraph) :
    (computeNofCodeblocks tbsBits baseGraph = 1 ∧
        tbsBits + computeTbCrcSize tbsBits ≤ maxSegmentLength baseGraph) ∨
      (2 ≤ computeNofCodeblocks tbsBits baseGraph ∧
        maxSegmentLength baseGraph < tbsBits + computeTbCrcSize tbsBits ∧
        (computeNofCodeblocks tbsBits baseGraph - 1) * (maxSegmentLength baseGraph - 24) <
          tbsBits + computeTbCrcSize tbsBits ∧
        tbsBits + computeTbCrcSize tbsBits ≤
          computeNofCodeblocks tbsBits baseGraph * (maxSegmentLength baseGraph - 24)) := by
  rw [computeNofCodeblocks]
  generalize tbsBits + computeTbCrcSize tbsBits = bits
  dsimp only
  split_ifs with one
  · exact .inl ⟨rfl, one⟩
  · right
    cases baseGraph <;> simp only [maxSegmentLength] at one ⊢ <;> omega

/-- The code blocks of `compute_nof_codeblocks` can be lifted. -/
theorem nofTbBitsOut_le (tbsBits : Nat) (baseGraph : BaseGraph) :
    nofTbBitsOut tbsBits (computeNofCodeblocks tbsBits baseGraph) ≤
      384 * (computeNofCodeblocks tbsBits baseGraph *
        refLength baseGraph (tbsBits + computeTbCrcSize tbsBits)) := by
  rcases computeNofCodeblocks_cases tbsBits baseGraph with
    ⟨one, fits⟩ | ⟨several, large, _, fits⟩
  · rw [one, nofTbBitsOut]
    generalize tbsBits + computeTbCrcSize tbsBits = bits at fits
    cases baseGraph <;> simp only [maxSegmentLength, refLength] at fits ⊢ <;> split_ifs <;> omega
  · rw [nofTbBitsOut, if_pos (by omega)]
    generalize computeNofCodeblocks tbsBits baseGraph = blocks at fits several
    generalize tbsBits + computeTbCrcSize tbsBits = bits at fits large
    cases baseGraph with
    | bg1 =>
        simp only [maxSegmentLength, refLength] at fits ⊢
        omega
    | bg2 =>
        simp only [maxSegmentLength, refLength] at fits large ⊢
        split_ifs <;> omega

theorem refLength_bounds (baseGraph : BaseGraph) (bits : Nat) :
    6 ≤ refLength baseGraph bits ∧ refLength baseGraph bits ≤ baseGraph.nVnInfo := by
  cases baseGraph with
  | bg1 => exact ⟨Nat.le_of_ble_eq_true rfl, Nat.le_refl 22⟩
  | bg2 =>
      simp only [refLength, BaseGraph.nVnInfo]
      split_ifs <;> decide

theorem divideCeil_add_mul (a : Nat) {b : Nat} (positive : 0 < b) (c : Nat) :
    divideCeil (a + c * b) b = divideCeil a b + c := by
  have shifted : a + c * b + b - 1 = a + b - 1 + c * b := by omega
  rw [divideCeil, shifted, Nat.add_mul_div_right _ _ positive, divideCeil]

/-- The CRC bits of a code block. -/
def cbCrcBits (nofSegments : Nat) : Nat := if 1 < nofSegments then 24 else 0

theorem nofTbBitsOut_eq (tbsBits nofSegments : Nat) :
    nofTbBitsOut tbsBits nofSegments =
      tbsBits + computeTbCrcSize tbsBits + cbCrcBits nofSegments * nofSegments := by
  rw [nofTbBitsOut, cbCrcBits]
  split_ifs <;> omega

/-- The largest transport block of the standard, `MAX_TBS`. -/
def maxTbs : Nat := 1277992

/-- A code block holds its share of the transport block, which leaves room for the CRC and
the padding. -/
theorem share_bounds {tbsBits : Nat} (baseGraph : BaseGraph) (small : tbsBits ≤ maxTbs) :
    computeTbCrcSize tbsBits + (computeNofCodeblocks tbsBits baseGraph *
        divideCeil (tbsBits + computeTbCrcSize tbsBits)
          (computeNofCodeblocks tbsBits baseGraph) -
        (tbsBits + computeTbCrcSize tbsBits)) ≤
      divideCeil (tbsBits + computeTbCrcSize tbsBits)
        (computeNofCodeblocks tbsBits baseGraph) := by
  rcases computeNofCodeblocks_cases tbsBits baseGraph with ⟨one, _⟩ | ⟨several, _, full, _⟩
  · rw [one]
    simp only [divideCeil]
    omega
  · have crc := computeTbCrcSize_cases tbsBits
    have positive : 0 < computeNofCodeblocks tbsBits baseGraph := by omega
    have lower := le_mul_divideCeil (tbsBits + computeTbCrcSize tbsBits) positive
    have upper := mul_divideCeil_lt (tbsBits + computeTbCrcSize tbsBits) positive
    have filled : (computeNofCodeblocks tbsBits baseGraph - 1) * 3816 <
        tbsBits + computeTbCrcSize tbsBits := by
      refine Nat.lt_of_le_of_lt (Nat.mul_le_mul_left _ ?_) full
      cases baseGraph <;> decide
    generalize divideCeil (tbsBits + computeTbCrcSize tbsBits)
      (computeNofCodeblocks tbsBits baseGraph) = share at lower upper ⊢
    -- the padding is shorter than the number of blocks, and a share is longer than half a block
    have long : 358 ≤ share := by
      by_contra short
      have most : computeNofCodeblocks tbsBits baseGraph * share ≤
          computeNofCodeblocks tbsBits baseGraph * 357 := Nat.mul_le_mul_left _ (by omega)
      omega
    rw [maxTbs] at small
    omega

theorem nofSegments_pos (tbSizeBits : Nat) (baseGraph : BaseGraph) :
    0 < computeNofCodeblocks tbSizeBits baseGraph := by
  rcases computeNofCodeblocks_cases tbSizeBits baseGraph with ⟨one, _⟩ | ⟨several, _⟩ <;> omega

/-- `compute_lifting_size` finds the smallest lifting size that covers all the bits. -/
theorem isLeast_computeLiftingSize (tbsBits : Nat) (baseGraph : BaseGraph) :
    IsLeast
      {z | z ∈ kLiftingSizes ∧ nofTbBitsOut tbsBits (computeNofCodeblocks tbsBits baseGraph) ≤
        z * (computeNofCodeblocks tbsBits baseGraph *
          refLength baseGraph (tbsBits + computeTbCrcSize tbsBits))}
      (computeLiftingSize tbsBits baseGraph (computeNofCodeblocks tbsBits baseGraph)) := by
  obtain ⟨found, search, member, enough, tight⟩ :=
    find_kLiftingSizes (nofTbBitsOut_le tbsBits baseGraph)
  have value : computeLiftingSize tbsBits baseGraph (computeNofCodeblocks tbsBits baseGraph) =
      found := by
    rw [computeLiftingSize, search]
    rfl
  rw [value]
  refine ⟨⟨member, enough⟩, fun other ⟨standard, large⟩ => ?_⟩
  by_contra smaller
  exact Nat.not_lt.mpr large (tight other standard (Nat.lt_of_not_le smaller))

/-- The lifting size covers the code block, but not twice over. -/
theorem computeLiftingSize_bounds (tbsBits : Nat) (baseGraph : BaseGraph) :
    let blocks := computeNofCodeblocks tbsBits baseGraph
    let z := computeLiftingSize tbsBits baseGraph blocks
    z ∈ kLiftingSizes ∧ divideCeil (nofTbBitsOut tbsBits blocks) blocks ≤ baseGraph.nVnInfo * z ∧
      2 * z ≤ divideCeil (nofTbBitsOut tbsBits blocks) blocks := by
  intro blocks z
  have positive : 0 < blocks := nofSegments_pos tbsBits baseGraph
  obtain ⟨least, most⟩ := refLength_bounds baseGraph (tbsBits + computeTbCrcSize tbsBits)
  obtain ⟨⟨member, enough⟩, smallest⟩ := isLeast_computeLiftingSize tbsBits baseGraph
  refine ⟨member, ?_, ?_⟩
  · apply (divideCeil_le_iff positive).mpr
    calc nofTbBitsOut tbsBits blocks
        ≤ z * (blocks * refLength baseGraph (tbsBits + computeTbCrcSize tbsBits)) := enough
      _ = blocks * (refLength baseGraph (tbsBits + computeTbCrcSize tbsBits) * z) := by ring
      _ ≤ blocks * (baseGraph.nVnInfo * z) :=
          Nat.mul_le_mul_left blocks (Nat.mul_le_mul_right z most)
  · obtain ⟨_, _, _, _, two | ⟨smaller, inside, less, double⟩⟩ := kLiftingSizes_facts z member
    · -- the smallest lifting size: there are at least the bits of a CRC
      have crc := computeTbCrcSize_cases tbsBits
      have bits := nofTbBitsOut_eq tbsBits blocks
      rw [two]
      by_contra short
      have few := (divideCeil_le_iff positive).mp
        (show divideCeil (nofTbBitsOut tbsBits blocks) blocks ≤ 3 by omega)
      rw [bits, cbCrcBits] at few
      split_ifs at few <;> omega
    · have short := Nat.lt_of_not_le fun covered =>
        Nat.not_le.mpr less (smallest ⟨inside, covered⟩)
      have above : refLength baseGraph (tbsBits + computeTbCrcSize tbsBits) * smaller <
          divideCeil (nofTbBitsOut tbsBits blocks) blocks := by
        apply Nat.lt_of_not_le
        intro covered
        have enough := (divideCeil_le_iff positive).mp covered
        have same : smaller * (blocks * refLength baseGraph (tbsBits + computeTbCrcSize tbsBits)) =
            blocks * (refLength baseGraph (tbsBits + computeTbCrcSize tbsBits) * smaller) := by
          ring
        exact Nat.not_le.mpr short (same ▸ enough)
      have six := Nat.mul_le_mul_right smaller least
      omega

/-- A code block with its CRC takes an equal share of all the bits. -/
theorem divideCeil_nofTbBitsOut {nofSegments : Nat} (tbSizeBits : Nat)
    (positive : 0 < nofSegments) :
    divideCeil (nofTbBitsOut tbSizeBits nofSegments) nofSegments =
      divideCeil (tbSizeBits + computeTbCrcSize tbSizeBits) nofSegments +
        cbCrcBits nofSegments := by
  rw [nofTbBitsOut_eq, divideCeil_add_mul _ positive]

section Compute

variable {tbSizeBits : Nat} (baseGraph : BaseGraph)

/-- The payload of a code block is its share of the transport block with its CRC. -/
theorem cbInfoBits_eq (positive : 0 < computeNofCodeblocks tbSizeBits baseGraph) :
    (oiP2CbSegmentCompute tbSizeBits baseGraph).cbInfoBits =
      divideCeil (tbSizeBits + computeTbCrcSize tbSizeBits)
        (computeNofCodeblocks tbSizeBits baseGraph) := by
  have direct : (oiP2CbSegmentCompute tbSizeBits baseGraph).cbInfoBits =
      divideCeil (nofTbBitsOut tbSizeBits (computeNofCodeblocks tbSizeBits baseGraph))
          (computeNofCodeblocks tbSizeBits baseGraph) -
        cbCrcBits (computeNofCodeblocks tbSizeBits baseGraph) := rfl
  rw [direct, divideCeil_nofTbBitsOut tbSizeBits positive, Nat.add_sub_cancel]

/-- The padding fills up the last share. -/
theorem zeroPad_eq :
    (oiP2CbSegmentCompute tbSizeBits baseGraph).zeroPad =
      computeNofCodeblocks tbSizeBits baseGraph *
          (oiP2CbSegmentCompute tbSizeBits baseGraph).cbInfoBits -
        (tbSizeBits + computeTbCrcSize tbSizeBits) := by
  have direct : (oiP2CbSegmentCompute tbSizeBits baseGraph).zeroPad =
      ((oiP2CbSegmentCompute tbSizeBits baseGraph).cbInfoBits +
          cbCrcBits (computeNofCodeblocks tbSizeBits baseGraph)) *
        computeNofCodeblocks tbSizeBits baseGraph -
        nofTbBitsOut tbSizeBits (computeNofCodeblocks tbSizeBits baseGraph) := rfl
  rw [direct, nofTbBitsOut_eq, Nat.add_mul, Nat.add_sub_add_right, Nat.mul_comm]

/-- There are fewer padding bits than code blocks. -/
theorem zeroPad_lt :
    (oiP2CbSegmentCompute tbSizeBits baseGraph).zeroPad <
      computeNofCodeblocks tbSizeBits baseGraph := by
  have positive := nofSegments_pos tbSizeBits baseGraph
  have upper := mul_divideCeil_lt (tbSizeBits + computeTbCrcSize tbSizeBits) positive
  rw [zeroPad_eq, cbInfoBits_eq baseGraph positive]
  omega

theorem segmentLength_eq :
    (oiP2CbSegmentCompute tbSizeBits baseGraph).segmentLength =
      baseGraph.nVnInfo * (oiP2CbSegmentCompute tbSizeBits baseGraph).liftingSize := by
  cases baseGraph <;> rfl

theorem codewordLength_eq :
    (oiP2CbSegmentCompute tbSizeBits baseGraph).codewordLength =
      baseGraph.nShort * (oiP2CbSegmentCompute tbSizeBits baseGraph).liftingSize := by
  cases baseGraph with
  | bg1 => exact Nat.mul_right_comm 22 _ 3
  | bg2 => exact Nat.mul_right_comm 10 _ 5

/-- The sizes that `oi_p2_cb_segment_compute` gives fit together. -/
theorem segmentSizes (small : tbSizeBits ≤ maxTbs) :
    SegmentSizes tbSizeBits (oiP2CbSegmentCompute tbSizeBits baseGraph) := by
  have positive := nofSegments_pos tbSizeBits baseGraph
  have info := cbInfoBits_eq baseGraph positive
  have pad : (oiP2CbSegmentCompute tbSizeBits baseGraph).zeroPad = _ := zeroPad_eq baseGraph
  have room := share_bounds baseGraph small
  have lower := le_mul_divideCeil (tbSizeBits + computeTbCrcSize tbSizeBits) positive
  rw [← info] at room lower
  rw [← pad] at room
  obtain ⟨lifting, covers, punctured⟩ := computeLiftingSize_bounds tbSizeBits baseGraph
  rw [divideCeil_nofTbBitsOut tbSizeBits positive, ← info] at covers punctured
  refine ⟨positive, lifting, segmentLength_eq baseGraph, codewordLength_eq baseGraph, rfl, rfl, ?_,
    punctured, ?_, ?_⟩
  · have filler : (oiP2CbSegmentCompute tbSizeBits baseGraph).nofFillerBits =
        (oiP2CbSegmentCompute tbSizeBits baseGraph).segmentLength -
          (oiP2CbSegmentCompute tbSizeBits baseGraph).cbInfoBits -
          (oiP2CbSegmentCompute tbSizeBits baseGraph).nofCrcBits := rfl
    have covered : (oiP2CbSegmentCompute tbSizeBits baseGraph).cbInfoBits +
        (oiP2CbSegmentCompute tbSizeBits baseGraph).nofCrcBits ≤
        (oiP2CbSegmentCompute tbSizeBits baseGraph).segmentLength := by
      rw [segmentLength_eq]
      exact covers
    omega
  · have last : (oiP2CbSegmentCompute tbSizeBits baseGraph).cbInfoBitsLast =
        (oiP2CbSegmentCompute tbSizeBits baseGraph).cbInfoBits - computeTbCrcSize tbSizeBits -
          (oiP2CbSegmentCompute tbSizeBits baseGraph).zeroPad := rfl
    have tbCrc : (oiP2CbSegmentCompute tbSizeBits baseGraph).tbCrcBits =
        computeTbCrcSize tbSizeBits := rfl
    omega
  · change computeNofCodeblocks tbSizeBits baseGraph *
        (oiP2CbSegmentCompute tbSizeBits baseGraph).cbInfoBits =
      tbSizeBits + computeTbCrcSize tbSizeBits +
        (oiP2CbSegmentCompute tbSizeBits baseGraph).zeroPad
    omega

end Compute

theorem liftingSize_le (tbSizeBits : Nat) (baseGraph : BaseGraph) :
    (oiP2CbSegmentCompute tbSizeBits baseGraph).liftingSize ≤ maxLs := by
  have direct : (oiP2CbSegmentCompute tbSizeBits baseGraph).liftingSize =
      computeLiftingSize tbSizeBits baseGraph (computeNofCodeblocks tbSizeBits baseGraph) := rfl
  rw [direct, computeLiftingSize]
  cases found : kLiftingSizes.find? (fun ls =>
      nofTbBitsOut tbSizeBits (computeNofCodeblocks tbSizeBits baseGraph) ≤
        ls * (computeNofCodeblocks tbSizeBits baseGraph *
          refLength baseGraph (tbSizeBits + computeTbCrcSize tbSizeBits))) with
  | none => exact Nat.zero_le maxLs
  | some z => exact (kLiftingSizes_facts z (List.mem_of_find?_eq_some found)).2.1

/-! ### Rate-matched lengths -/

/-- A code block has the whole part of its share of the symbols, and the last ones have one
symbol more. -/
theorem oiP2ComputeRmLength_eq (nofSymbols qm : Nat) {nofSegments cb : Nat}
    (block : cb < nofSegments) :
    oiP2ComputeRmLength nofSymbols nofSegments qm cb =
      (nofSymbols / nofSegments +
        if nofSegments - nofSymbols % nofSegments ≤ cb then 1 else 0) * qm := by
  have positive : 0 < nofSegments := by omega
  rw [oiP2ComputeRmLength]
  by_cases short : cb < nofSegments - nofSymbols % nofSegments
  · rw [if_pos short, if_neg (Nat.not_le.mpr short), Nat.add_zero]
  · have rest : 0 < nofSymbols % nofSegments := by omega
    have below := Nat.mod_lt nofSymbols positive
    have up : divideCeil nofSymbols nofSegments = nofSymbols / nofSegments + 1 := by
      have split := Nat.div_add_mod nofSymbols nofSegments
      apply Nat.le_antisymm
      · rw [divideCeil_le_iff positive, Nat.mul_add, Nat.mul_one]
        omega
      · apply Nat.succ_le_of_lt
        apply Nat.lt_of_not_le
        rw [divideCeil_le_iff positive]
        omega
    rw [if_neg short, if_pos (Nat.le_of_not_lt short), up]

/-- The code blocks share the symbols. -/
theorem sum_rmLength (nofSymbols qm : Nat) {nofSegments : Nat} (segments : 1 ≤ nofSegments) :
    ∑ cb ∈ Finset.range nofSegments, oiP2ComputeRmLength nofSymbols nofSegments qm cb =
      nofSymbols * qm := by
  have below := Nat.mod_lt nofSymbols segments
  have prefixes : ∀ k ≤ nofSegments,
      ∑ cb ∈ Finset.range k, oiP2ComputeRmLength nofSymbols nofSegments qm cb =
        (k * (nofSymbols / nofSegments) +
          (k - (nofSegments - nofSymbols % nofSegments))) * qm := by
    intro k
    induction k with
    | zero =>
        intro _
        simp
    | succ k inductionHypothesis =>
        intro block
        rw [Finset.sum_range_succ, inductionHypothesis (by omega),
          oiP2ComputeRmLength_eq nofSymbols qm block, ← Nat.add_mul, Nat.succ_mul]
        congr 1
        split_ifs <;> omega
  have split := Nat.div_add_mod nofSymbols nofSegments
  rw [prefixes nofSegments (Nat.le_refl _)]
  congr 1
  omega

end RanInline.Tail
