/-
Module: RanInline.Tail.SegmentWords
Purpose: oi_p2_cb_segment_compute and oi_p2_compute_rm_length on machine words: for every
  transport block of the standard they compute the sizes of RanInline.Tail.CbSegment, nothing
  wraps around, and the slices of oi_p2_drain tile the LLRs.
Trusted boundary: none
Main exports: Word.oiP2CbSegmentCompute, Word.oiP2ComputeRmLength, Word.toParams_segmentFor,
  Word.Sizing, Word.segmentation_sizing, Word.drainSlices, Word.rm_lengths_tile
-/
import Mathlib.Data.List.Find
import RanInline.Tail.Dematch

namespace RanInline.Tail.Word

open RanInline.Ldpc

/-! ### The computation on `uint32_t` -/

/-- `compute_tb_crc_size`. -/
def computeTbCrcSize (tbsBits : UInt32) : UInt32 := if tbsBits ≤ 3824 then 16 else 24

/-- `get_ldpc_base_graph`. -/
def getLdpcBaseGraph (r : Float32) (aBits : UInt32) : BaseGraph :=
  if aBits ≤ 292 ∨ r ≤ 0.25 ∨ (aBits ≤ 3824 ∧ r ≤ 0.67) then .bg2 else .bg1

/-- `max_segment_length`. -/
def maxSegmentLength : BaseGraph → UInt32
  | .bg1 => 8448
  | .bg2 => 3840

/-- `compute_nof_codeblocks`. -/
def computeNofCodeblocks (tbsBits : UInt32) (baseGraph : BaseGraph) : UInt32 :=
  let tbAndCrcBits := tbsBits + computeTbCrcSize tbsBits
  if tbAndCrcBits ≤ maxSegmentLength baseGraph then 1
  else
    let denom := maxSegmentLength baseGraph - 24
    (tbAndCrcBits + denom - 1) / denom

/-- `ref_length` of `compute_lifting_size`. -/
def refLength (baseGraph : BaseGraph) (nofTbBitsIn : UInt32) : UInt32 :=
  match baseGraph with
  | .bg1 => 22
  | .bg2 =>
      if nofTbBitsIn > 640 then 10
      else if nofTbBitsIn > 560 then 9
      else if nofTbBitsIn > 192 then 8
      else 6

/-- `nof_tb_bits_out`. -/
def nofTbBitsOut (tbsBits nofSegments : UInt32) : UInt32 :=
  let nofTbBitsIn := tbsBits + computeTbCrcSize tbsBits
  if nofSegments > 1 then nofTbBitsIn + 24 * nofSegments else nofTbBitsIn

/-- `compute_lifting_size`.  The product in its loop has 64 bits. -/
def computeLiftingSize (tbsBits : UInt32) (baseGraph : BaseGraph) (nofSegments : UInt32) :
    UInt32 :=
  let nofTbBitsIn := tbsBits + computeTbCrcSize tbsBits
  let totalRefLength := nofSegments * refLength baseGraph nofTbBitsIn
  ((kLiftingSizes.map UInt32.ofNat).find? fun ls =>
    ls.toUInt64 * totalRefLength.toUInt64 ≥ (nofTbBitsOut tbsBits nofSegments).toUInt64).getD 0

/-- `compute_codeblock_size`. -/
def computeCodeblockSize (baseGraph : BaseGraph) (liftingSize : UInt32) : UInt32 :=
  match baseGraph with
  | .bg1 => 22 * liftingSize
  | .bg2 => 10 * liftingSize

/-- `divide_ceil_u32`. -/
def divideCeil (a b : UInt32) : UInt32 := (a + b - 1) / b

/-- `oi_p2_cb_segment_params`. -/
structure OiP2CbSegmentParams where
  baseGraph : BaseGraph
  nofSegments : UInt32
  liftingSize : UInt32
  segmentLength : UInt32
  codewordLength : UInt32
  nofFillerBits : UInt32
  nofCrcBits : UInt32
  tbCrcBits : UInt32
  cbInfoBits : UInt32
  cbInfoBitsLast : UInt32
  zeroPad : UInt32
deriving DecidableEq, Repr

/-- `oi_p2_cb_segment_compute`, once the base graph is selected. -/
def segmentFor (tbSizeBits : UInt32) (baseGraph : BaseGraph) : OiP2CbSegmentParams :=
  let tbCrcBits := computeTbCrcSize tbSizeBits
  let nofSegments := computeNofCodeblocks tbSizeBits baseGraph
  let liftingSize := computeLiftingSize tbSizeBits baseGraph nofSegments
  let segmentLength := computeCodeblockSize baseGraph liftingSize
  let codewordLength := segmentLength * match baseGraph with
    | .bg1 => 3
    | .bg2 => 5
  let nofCrcBits := if nofSegments > 1 then 24 else 0
  let bitsOut := nofTbBitsOut tbSizeBits nofSegments
  let cbInfoBits := divideCeil bitsOut nofSegments - nofCrcBits
  let zeroPad := (cbInfoBits + nofCrcBits) * nofSegments - bitsOut
  let nofFillerBits := segmentLength - cbInfoBits - nofCrcBits
  let cbInfoBitsLast := cbInfoBits - tbCrcBits - zeroPad
  { baseGraph, nofSegments, liftingSize, segmentLength, codewordLength, nofFillerBits, nofCrcBits,
    tbCrcBits, cbInfoBits, cbInfoBitsLast, zeroPad }

/-- `oi_p2_cb_segment_compute`. -/
def oiP2CbSegmentCompute (tbSizeBits : UInt32) (codeRate : Float32) : OiP2CbSegmentParams :=
  segmentFor tbSizeBits (getLdpcBaseGraph codeRate tbSizeBits)

/-- The sizes as numbers. -/
def OiP2CbSegmentParams.toParams (params : OiP2CbSegmentParams) : Tail.OiP2CbSegmentParams where
  baseGraph := params.baseGraph
  nofSegments := params.nofSegments.toNat
  liftingSize := params.liftingSize.toNat
  segmentLength := params.segmentLength.toNat
  codewordLength := params.codewordLength.toNat
  nofFillerBits := params.nofFillerBits.toNat
  nofCrcBits := params.nofCrcBits.toNat
  tbCrcBits := params.tbCrcBits.toNat
  cbInfoBits := params.cbInfoBits.toNat
  cbInfoBitsLast := params.cbInfoBitsLast.toNat
  zeroPad := params.zeroPad.toNat

/-- `nof_info_bits` of `k6_rate_dematch`. -/
def k6NofInfoBits (fullLength nofFillerBits : UInt32) : UInt32 :=
  let (bgK, liftingSize) : UInt32 × UInt32 :=
    if fullLength % 66 = 0 then (22, fullLength / 66) else (10, fullLength / 50)
  (bgK - 2) * liftingSize - nofFillerBits

/-- `oi_p2_compute_rm_length`. -/
def oiP2ComputeRmLength (nofSymbolsPerLayer nofSegments qm cbIndex : UInt32) : UInt32 :=
  let nofShortSegments := nofSegments - nofSymbolsPerLayer % nofSegments
  let nofSymbolsThisCb :=
    if cbIndex < nofShortSegments then nofSymbolsPerLayer / nofSegments
    else divideCeil nofSymbolsPerLayer nofSegments
  nofSymbolsThisCb * qm

/-- The loop of `oi_p2_drain`: `cw_offset` and `rm_length` of every code block, and
`cw_offset` behind the last one. -/
def drainLoop (nofSymbols nofSegments qm : UInt32) : Nat → List (UInt32 × UInt32) × UInt32
  | 0 => ([], 0)
  | cb + 1 =>
      let (slices, cwOffset) := drainLoop nofSymbols nofSegments qm cb
      let rmLength := oiP2ComputeRmLength nofSymbols nofSegments qm (UInt32.ofNat cb)
      (slices ++ [(cwOffset, rmLength)], cwOffset + rmLength)

/-- The parts of the LLR buffer that `oi_p2_drain` hands to the rate dematcher. -/
def drainSlices (nofSymbols nofSegments qm : UInt32) : List (UInt32 × UInt32) :=
  (drainLoop nofSymbols nofSegments qm nofSegments.toNat).1

/-! ### Nothing wraps around -/

/-- A choice between two words. -/
theorem toNat_ite {condition condition' : Prop} [Decidable condition] [Decidable condition']
    (same : condition ↔ condition') (first second : UInt32) :
    (if condition then first else second).toNat =
      if condition' then first.toNat else second.toNat := by
  by_cases holds : condition
  · rw [if_pos holds, if_pos (same.mp holds)]
  · rw [if_neg holds, if_neg (mt same.mpr holds)]

/-- Two subtractions that do not wrap. -/
theorem toNat_sub_sub {a b c : UInt32} (fits : b.toNat + c.toNat ≤ a.toNat) :
    (a - b - c).toNat = a.toNat - b.toNat - c.toNat := by
  have first : (a - b).toNat = a.toNat - b.toNat := by
    apply UInt32.toNat_sub_of_le
    rw [UInt32.le_iff_toNat_le]
    omega
  rw [UInt32.toNat_sub_of_le, first]
  rw [UInt32.le_iff_toNat_le, first]
  omega

section Compute

variable {tbSizeBits : UInt32}

theorem toNat_computeTbCrcSize (tbsBits : UInt32) :
    (computeTbCrcSize tbsBits).toNat = Tail.computeTbCrcSize tbsBits.toNat :=
  toNat_ite UInt32.le_iff_toNat_le 16 24

theorem toNat_tbAndCrcBits (small : tbSizeBits.toNat ≤ maxTbs) :
    (tbSizeBits + computeTbCrcSize tbSizeBits).toNat =
      tbSizeBits.toNat + Tail.computeTbCrcSize tbSizeBits.toNat := by
  have crc := computeTbCrcSize_cases tbSizeBits.toNat
  rw [maxTbs] at small
  rw [UInt32.toNat_add, toNat_computeTbCrcSize, Nat.mod_eq_of_lt (by omega)]

/-- `divide_ceil_u32` is exact when its sum fits. -/
theorem toNat_divideCeil {a b : UInt32} (positive : 0 < b.toNat)
    (fits : a.toNat + b.toNat < 2 ^ 32) :
    (divideCeil a b).toNat = Tail.divideCeil a.toNat b.toNat := by
  have sum : (a + b).toNat = a.toNat + b.toNat := by
    rw [UInt32.toNat_add, Nat.mod_eq_of_lt fits]
  have one : (1 : UInt32).toNat = 1 := rfl
  rw [divideCeil, Tail.divideCeil, UInt32.toNat_div, UInt32.toNat_sub_of_le, sum, one]
  rw [UInt32.le_iff_toNat_le, sum, one]
  omega

theorem toNat_computeNofCodeblocks (baseGraph : BaseGraph)
    (small : tbSizeBits.toNat ≤ maxTbs) :
    (computeNofCodeblocks tbSizeBits baseGraph).toNat =
      Tail.computeNofCodeblocks tbSizeBits.toNat baseGraph := by
  have bits := toNat_tbAndCrcBits small
  have crc := computeTbCrcSize_cases tbSizeBits.toNat
  have most : (maxSegmentLength baseGraph).toNat = Tail.maxSegmentLength baseGraph := by
    cases baseGraph <;> rfl
  have denom : (maxSegmentLength baseGraph - 24).toNat = Tail.maxSegmentLength baseGraph - 24 ∧
      0 < Tail.maxSegmentLength baseGraph - 24 ∧
      Tail.maxSegmentLength baseGraph - 24 ≤ 8424 := by
    cases baseGraph <;> exact ⟨rfl, by decide, by decide⟩
  rw [maxTbs] at small
  have ceil := @toNat_divideCeil (tbSizeBits + computeTbCrcSize tbSizeBits)
    (maxSegmentLength baseGraph - 24) (by omega) (by omega)
  rw [bits, denom.1] at ceil
  have single : tbSizeBits + computeTbCrcSize tbSizeBits ≤ maxSegmentLength baseGraph ↔
      tbSizeBits.toNat + Tail.computeTbCrcSize tbSizeBits.toNat ≤
        Tail.maxSegmentLength baseGraph := by
    rw [UInt32.le_iff_toNat_le, bits, most]
  refine (toNat_ite single 1 (divideCeil _ _)).trans ?_
  rw [ceil]
  rfl

/-- A transport block of the standard has at most 335 code blocks. -/
theorem computeNofCodeblocks_le {tbsBits : Nat} (baseGraph : BaseGraph)
    (small : tbsBits ≤ maxTbs) : Tail.computeNofCodeblocks tbsBits baseGraph ≤ 335 := by
  have crc := computeTbCrcSize_cases tbsBits
  rw [maxTbs] at small
  rcases computeNofCodeblocks_cases tbsBits baseGraph with ⟨one, _⟩ | ⟨_, _, full, _⟩
  · omega
  · cases baseGraph <;> simp only [Tail.maxSegmentLength] at full <;> omega

theorem toNat_nofTbBitsOut {nofSegments : UInt32} (small : tbSizeBits.toNat ≤ maxTbs)
    (few : nofSegments.toNat ≤ 335) :
    (nofTbBitsOut tbSizeBits nofSegments).toNat =
      Tail.nofTbBitsOut tbSizeBits.toNat nofSegments.toNat := by
  have bits := toNat_tbAndCrcBits small
  have crc := computeTbCrcSize_cases tbSizeBits.toNat
  have product : (24 * nofSegments).toNat = 24 * nofSegments.toNat := by
    rw [UInt32.toNat_mul]
    exact Nat.mod_eq_of_lt (show 24 * nofSegments.toNat < 2 ^ 32 by omega)
  rw [maxTbs] at small
  refine (toNat_ite UInt32.lt_iff_toNat_lt _ _).trans ?_
  rw [UInt32.toNat_add, bits, product, Nat.mod_eq_of_lt (by omega)]
  rfl

theorem toNat_refLength (baseGraph : BaseGraph) (bits : UInt32) :
    (refLength baseGraph bits).toNat = Tail.refLength baseGraph bits.toNat := by
  cases baseGraph with
  | bg1 => rfl
  | bg2 =>
      refine (toNat_ite UInt32.lt_iff_toNat_lt _ _).trans ?_
      rw [toNat_ite UInt32.lt_iff_toNat_lt, toNat_ite UInt32.lt_iff_toNat_lt]
      rfl

/-- The same search on words and on numbers. -/
theorem toNat_find_kLiftingSizes {large : UInt32 → Bool} {large' : Nat → Bool}
    (same : ∀ ls ∈ kLiftingSizes, large (UInt32.ofNat ls) = large' ls) :
    (((kLiftingSizes.map UInt32.ofNat).find? large).getD 0).toNat =
      (kLiftingSizes.find? large').getD 0 := by
  have search : kLiftingSizes.find? (large ∘ UInt32.ofNat) = kLiftingSizes.find? large' :=
    List.find?_congr same
  rw [List.find?_map, search]
  cases found : kLiftingSizes.find? large' with
  | none => rfl
  | some ls =>
      have less := (kLiftingSizes_facts ls (List.mem_of_find?_eq_some found)).2.1
      exact Nat.mod_eq_of_lt (show ls < 2 ^ 32 by omega)

theorem toNat_computeLiftingSize {nofSegments : UInt32} (baseGraph : BaseGraph)
    (small : tbSizeBits.toNat ≤ maxTbs) (few : nofSegments.toNat ≤ 335) :
    (computeLiftingSize tbSizeBits baseGraph nofSegments).toNat =
      Tail.computeLiftingSize tbSizeBits.toNat baseGraph nofSegments.toNat := by
  have bits := toNat_tbAndCrcBits small
  have bitsOut := toNat_nofTbBitsOut small few
  have reference := toNat_refLength baseGraph (tbSizeBits + computeTbCrcSize tbSizeBits)
  rw [bits] at reference
  obtain ⟨_, most⟩ := refLength_bounds baseGraph
    (tbSizeBits.toNat + Tail.computeTbCrcSize tbSizeBits.toNat)
  have columns : baseGraph.nVnInfo ≤ 22 := by cases baseGraph <;> decide
  have product : nofSegments.toNat * Tail.refLength baseGraph
      (tbSizeBits.toNat + Tail.computeTbCrcSize tbSizeBits.toNat) ≤ 335 * 22 :=
    Nat.mul_le_mul few (most.trans columns)
  have total : (nofSegments *
      refLength baseGraph (tbSizeBits + computeTbCrcSize tbSizeBits)).toNat =
        nofSegments.toNat * Tail.refLength baseGraph
          (tbSizeBits.toNat + Tail.computeTbCrcSize tbSizeBits.toNat) := by
    rw [UInt32.toNat_mul, reference, Nat.mod_eq_of_lt (by omega)]
  have large (ls : Nat) (member : ls ∈ kLiftingSizes) :
      (nofTbBitsOut tbSizeBits nofSegments).toUInt64 ≤ (UInt32.ofNat ls).toUInt64 *
          (nofSegments *
            refLength baseGraph (tbSizeBits + computeTbCrcSize tbSizeBits)).toUInt64 ↔
        Tail.nofTbBitsOut tbSizeBits.toNat nofSegments.toNat ≤ ls * (nofSegments.toNat *
          Tail.refLength baseGraph
            (tbSizeBits.toNat + Tail.computeTbCrcSize tbSizeBits.toNat)) := by
    have less := (kLiftingSizes_facts ls member).2.1
    have word : (UInt32.ofNat ls).toNat = ls := Nat.mod_eq_of_lt (by omega)
    have whole := Nat.mul_le_mul less product
    rw [UInt64.le_iff_toNat_le, UInt64.toNat_mul, UInt32.toNat_toUInt64, UInt32.toNat_toUInt64,
      UInt32.toNat_toUInt64, word, total, bitsOut, Nat.mod_eq_of_lt (by omega)]
  exact toNat_find_kLiftingSizes fun ls member => decide_eq_decide.mpr (large ls member)

section Fields

variable (baseGraph : BaseGraph) (small : tbSizeBits.toNat ≤ maxTbs)

include small

theorem toNat_liftingSize :
    (segmentFor tbSizeBits baseGraph).liftingSize.toNat =
      (Tail.oiP2CbSegmentCompute tbSizeBits.toNat baseGraph).liftingSize := by
  have segments := toNat_computeNofCodeblocks baseGraph small
  have few := computeNofCodeblocks_le baseGraph small
  rw [← segments] at few
  refine (toNat_computeLiftingSize baseGraph small few).trans ?_
  rw [segments]
  rfl

theorem toNat_segmentLength :
    (segmentFor tbSizeBits baseGraph).segmentLength.toNat =
      (Tail.oiP2CbSegmentCompute tbSizeBits.toNat baseGraph).segmentLength := by
  have lifting := toNat_liftingSize baseGraph small
  have most := liftingSize_le tbSizeBits.toNat baseGraph
  rw [maxLs, ← lifting] at most
  have product (columns : UInt32) (few : columns.toNat ≤ 22) :
      (columns * (segmentFor tbSizeBits baseGraph).liftingSize).toNat =
        columns.toNat * (Tail.oiP2CbSegmentCompute tbSizeBits.toNat baseGraph).liftingSize := by
    have bound := Nat.mul_le_mul few most
    rw [UInt32.toNat_mul, Nat.mod_eq_of_lt (by omega), lifting]
  have columns : (segmentFor tbSizeBits baseGraph).segmentLength =
      UInt32.ofNat baseGraph.nVnInfo * (segmentFor tbSizeBits baseGraph).liftingSize := by
    cases baseGraph <;> rfl
  have few : (UInt32.ofNat baseGraph.nVnInfo).toNat = baseGraph.nVnInfo ∧
      baseGraph.nVnInfo ≤ 22 := by
    cases baseGraph <;> decide
  rw [columns, product _ (by omega), few.1, segmentLength_eq]

theorem toNat_codewordLength :
    (segmentFor tbSizeBits baseGraph).codewordLength.toNat =
      (Tail.oiP2CbSegmentCompute tbSizeBits.toNat baseGraph).codewordLength := by
  have segment := toNat_segmentLength baseGraph small
  have length : (Tail.oiP2CbSegmentCompute tbSizeBits.toNat baseGraph).segmentLength ≤ 8448 := by
    have most := liftingSize_le tbSizeBits.toNat baseGraph
    have columns : baseGraph.nVnInfo ≤ 22 := by cases baseGraph <;> decide
    rw [segmentLength_eq]
    exact Nat.mul_le_mul columns most
  rw [← segment] at length
  have product (factor : UInt32) (few : factor.toNat ≤ 5) :
      ((segmentFor tbSizeBits baseGraph).segmentLength * factor).toNat =
        (Tail.oiP2CbSegmentCompute tbSizeBits.toNat baseGraph).segmentLength * factor.toNat := by
    have bound := Nat.mul_le_mul length few
    rw [UInt32.toNat_mul, Nat.mod_eq_of_lt (by omega), segment]
  cases baseGraph with
  | bg1 => exact product 3 (by decide)
  | bg2 => exact product 5 (by decide)

theorem toNat_nofCrcBits :
    (segmentFor tbSizeBits baseGraph).nofCrcBits.toNat =
      (Tail.oiP2CbSegmentCompute tbSizeBits.toNat baseGraph).nofCrcBits := by
  have several : computeNofCodeblocks tbSizeBits baseGraph > 1 ↔
      1 < Tail.computeNofCodeblocks tbSizeBits.toNat baseGraph := by
    rw [← toNat_computeNofCodeblocks baseGraph small]
    exact UInt32.lt_iff_toNat_lt
  exact toNat_ite several 24 0

/-- The bits of all code blocks fit into a word many times over. -/
theorem nofTbBitsOut_lt :
    Tail.nofTbBitsOut tbSizeBits.toNat (Tail.computeNofCodeblocks tbSizeBits.toNat baseGraph) <
      1300000 := by
  have few := computeNofCodeblocks_le baseGraph small
  have crc := computeTbCrcSize_cases tbSizeBits.toNat
  have most : cbCrcBits (Tail.computeNofCodeblocks tbSizeBits.toNat baseGraph) *
      Tail.computeNofCodeblocks tbSizeBits.toNat baseGraph ≤ 24 * 335 := by
    refine Nat.mul_le_mul ?_ few
    rw [cbCrcBits]
    split_ifs <;> decide
  rw [maxTbs] at small
  rw [nofTbBitsOut_eq]
  omega

theorem toNat_cbInfoBits :
    (segmentFor tbSizeBits baseGraph).cbInfoBits.toNat =
      (Tail.oiP2CbSegmentCompute tbSizeBits.toNat baseGraph).cbInfoBits := by
  have segments := toNat_computeNofCodeblocks baseGraph small
  have positive := nofSegments_pos tbSizeBits.toNat baseGraph
  have few := computeNofCodeblocks_le baseGraph small
  have out := toNat_nofTbBitsOut small (segments.trans_le few)
  rw [segments] at out
  have bound := nofTbBitsOut_lt baseGraph small
  have ceil := @toNat_divideCeil (nofTbBitsOut tbSizeBits (computeNofCodeblocks tbSizeBits
    baseGraph)) (computeNofCodeblocks tbSizeBits baseGraph) (by omega) (by omega)
  rw [out, segments] at ceil
  have crc := toNat_nofCrcBits baseGraph small
  have share := divideCeil_nofTbBitsOut tbSizeBits.toNat positive
  refine (UInt32.toNat_sub_of_le _ _ ?_).trans ?_
  · rw [UInt32.le_iff_toNat_le]
    refine (Nat.le_of_eq crc).trans ?_
    rw [ceil, share]
    exact Nat.le_add_left _ _
  · exact congrArg₂ (· - ·) ceil crc

theorem toNat_zeroPad :
    (segmentFor tbSizeBits baseGraph).zeroPad.toNat =
      (Tail.oiP2CbSegmentCompute tbSizeBits.toNat baseGraph).zeroPad := by
  have segments := toNat_computeNofCodeblocks baseGraph small
  have few := computeNofCodeblocks_le baseGraph small
  have positive := nofSegments_pos tbSizeBits.toNat baseGraph
  have out := toNat_nofTbBitsOut small (segments.trans_le few)
  rw [segments] at out
  have bound := nofTbBitsOut_lt baseGraph small
  have info := toNat_cbInfoBits baseGraph small
  have crc := toNat_nofCrcBits baseGraph small
  -- the blocks hold all the bits, and fewer bits more than there are blocks
  have whole : (Tail.oiP2CbSegmentCompute tbSizeBits.toNat baseGraph).cbInfoBits +
      (Tail.oiP2CbSegmentCompute tbSizeBits.toNat baseGraph).nofCrcBits =
        Tail.divideCeil (Tail.nofTbBitsOut tbSizeBits.toNat
          (Tail.computeNofCodeblocks tbSizeBits.toNat baseGraph))
          (Tail.computeNofCodeblocks tbSizeBits.toNat baseGraph) := by
    rw [cbInfoBits_eq baseGraph positive, divideCeil_nofTbBitsOut tbSizeBits.toNat positive]
    rfl
  have lower := le_mul_divideCeil (Tail.nofTbBitsOut tbSizeBits.toNat
    (Tail.computeNofCodeblocks tbSizeBits.toNat baseGraph)) positive
  have upper := mul_divideCeil_lt (Tail.nofTbBitsOut tbSizeBits.toNat
    (Tail.computeNofCodeblocks tbSizeBits.toNat baseGraph)) positive
  rw [← whole] at lower upper
  have once := Nat.le_mul_of_pos_left
    ((Tail.oiP2CbSegmentCompute tbSizeBits.toNat baseGraph).cbInfoBits +
      (Tail.oiP2CbSegmentCompute tbSizeBits.toNat baseGraph).nofCrcBits) positive
  have sum : ((segmentFor tbSizeBits baseGraph).cbInfoBits +
      (segmentFor tbSizeBits baseGraph).nofCrcBits).toNat =
        (Tail.oiP2CbSegmentCompute tbSizeBits.toNat baseGraph).cbInfoBits +
          (Tail.oiP2CbSegmentCompute tbSizeBits.toNat baseGraph).nofCrcBits := by
    rw [UInt32.toNat_add, info, crc, Nat.mod_eq_of_lt (by omega)]
  have product : (((segmentFor tbSizeBits baseGraph).cbInfoBits +
      (segmentFor tbSizeBits baseGraph).nofCrcBits) *
        computeNofCodeblocks tbSizeBits baseGraph).toNat =
      ((Tail.oiP2CbSegmentCompute tbSizeBits.toNat baseGraph).cbInfoBits +
        (Tail.oiP2CbSegmentCompute tbSizeBits.toNat baseGraph).nofCrcBits) *
          Tail.computeNofCodeblocks tbSizeBits.toNat baseGraph := by
    rw [UInt32.toNat_mul, sum, segments]
    rw [Nat.mul_comm] at lower upper
    exact Nat.mod_eq_of_lt (by omega)
  refine (UInt32.toNat_sub_of_le _ _ ?_).trans ?_
  · rw [UInt32.le_iff_toNat_le]
    refine (Nat.le_of_eq out).trans (lower.trans (Nat.le_of_eq ?_))
    rw [Nat.mul_comm]
    exact product.symm
  · exact congrArg₂ (· - ·) product out

theorem toNat_nofFillerBits :
    (segmentFor tbSizeBits baseGraph).nofFillerBits.toNat =
      (Tail.oiP2CbSegmentCompute tbSizeBits.toNat baseGraph).nofFillerBits := by
  have segment := toNat_segmentLength baseGraph small
  have info := toNat_cbInfoBits baseGraph small
  have crc := toNat_nofCrcBits baseGraph small
  have layout := (segmentSizes baseGraph small).layout
  have difference := @toNat_sub_sub (segmentFor tbSizeBits baseGraph).segmentLength
    (segmentFor tbSizeBits baseGraph).cbInfoBits (segmentFor tbSizeBits baseGraph).nofCrcBits
    (by omega)
  rw [segment, info, crc] at difference
  exact difference

theorem toNat_cbInfoBitsLast :
    (segmentFor tbSizeBits baseGraph).cbInfoBitsLast.toNat =
      (Tail.oiP2CbSegmentCompute tbSizeBits.toNat baseGraph).cbInfoBitsLast := by
  have info := toNat_cbInfoBits baseGraph small
  have pad := toNat_zeroPad baseGraph small
  have crc : (segmentFor tbSizeBits baseGraph).tbCrcBits.toNat =
      (Tail.oiP2CbSegmentCompute tbSizeBits.toNat baseGraph).tbCrcBits :=
    toNat_computeTbCrcSize tbSizeBits
  have last := (segmentSizes baseGraph small).last
  have difference := @toNat_sub_sub (segmentFor tbSizeBits baseGraph).cbInfoBits
    (segmentFor tbSizeBits baseGraph).tbCrcBits (segmentFor tbSizeBits baseGraph).zeroPad
    (by omega)
  rw [info, crc, pad] at difference
  exact difference

/-- The words are the numbers of `RanInline.Tail.CbSegment`. -/
theorem toParams_segmentFor :
    (segmentFor tbSizeBits baseGraph).toParams =
      Tail.oiP2CbSegmentCompute tbSizeBits.toNat baseGraph := by
  have segments : (segmentFor tbSizeBits baseGraph).nofSegments.toNat =
      (Tail.oiP2CbSegmentCompute tbSizeBits.toNat baseGraph).nofSegments :=
    toNat_computeNofCodeblocks baseGraph small
  have crc : (segmentFor tbSizeBits baseGraph).tbCrcBits.toNat =
      (Tail.oiP2CbSegmentCompute tbSizeBits.toNat baseGraph).tbCrcBits :=
    toNat_computeTbCrcSize tbSizeBits
  rw [OiP2CbSegmentParams.toParams, segments, toNat_liftingSize baseGraph small,
    toNat_segmentLength baseGraph small, toNat_codewordLength baseGraph small,
    toNat_nofFillerBits baseGraph small, toNat_nofCrcBits baseGraph small, crc,
    toNat_cbInfoBits baseGraph small, toNat_cbInfoBitsLast baseGraph small,
    toNat_zeroPad baseGraph small]
  rfl

end Fields

/-- What the sizes of a transport block have to satisfy.  The four differences are those of the
integers. -/
structure Sizing (tbSizeBits : Nat) (out : Tail.OiP2CbSegmentParams) : Prop where
  segments : 1 ≤ out.nofSegments
  lifting_ne_zero : out.liftingSize ≠ 0
  lifting_least : IsLeast
    {z | z ∈ kLiftingSizes ∧
      tbSizeBits + out.tbCrcBits + out.nofSegments * out.nofCrcBits ≤
        out.nofSegments * Tail.refLength out.baseGraph (tbSizeBits + out.tbCrcBits) * z}
    out.liftingSize
  cbInfoBits : (out.cbInfoBits : Int) =
    Tail.divideCeil (tbSizeBits + out.tbCrcBits + out.nofSegments * out.nofCrcBits)
      out.nofSegments - (out.nofCrcBits : Int)
  zeroPad : (out.zeroPad : Int) =
    ((out.cbInfoBits + out.nofCrcBits) * out.nofSegments : Nat) -
      (tbSizeBits + out.tbCrcBits + out.nofSegments * out.nofCrcBits : Nat)
  nofFillerBits : (out.nofFillerBits : Int) =
    (out.segmentLength : Int) - out.cbInfoBits - out.nofCrcBits
  cbInfoBitsLast : (out.cbInfoBitsLast : Int) =
    (out.cbInfoBits : Int) - out.tbCrcBits - out.zeroPad
  lifted : out.segmentLength = out.baseGraph.nVnInfo * out.liftingSize
  segmentLength : out.cbInfoBits + out.nofCrcBits + out.nofFillerBits = out.segmentLength
  tbSize : (out.nofSegments - 1) * out.cbInfoBits + out.cbInfoBitsLast = tbSizeBits
  padding : out.zeroPad < out.nofSegments
  codewordLength : out.codewordLength = out.baseGraph.nShort * out.liftingSize
  filler_le : out.nofFillerBits ≤ (out.baseGraph.nVnInfo - 2) * out.liftingSize

/-- The numbers fit together. -/
theorem sizing_of_compute {tbsBits : Nat} (baseGraph : BaseGraph) (small : tbsBits ≤ maxTbs) :
    Sizing tbsBits (Tail.oiP2CbSegmentCompute tbsBits baseGraph) := by
  have sizes := segmentSizes baseGraph small
  have positive := nofSegments_pos tbsBits baseGraph
  have least := isLeast_computeLiftingSize tbsBits baseGraph
  have padding : (Tail.oiP2CbSegmentCompute tbsBits baseGraph).zeroPad <
      (Tail.oiP2CbSegmentCompute tbsBits baseGraph).nofSegments := zeroPad_lt baseGraph
  have out : Tail.nofTbBitsOut tbsBits (Tail.oiP2CbSegmentCompute tbsBits baseGraph).nofSegments =
      tbsBits + (Tail.oiP2CbSegmentCompute tbsBits baseGraph).tbCrcBits +
        (Tail.oiP2CbSegmentCompute tbsBits baseGraph).nofSegments *
          (Tail.oiP2CbSegmentCompute tbsBits baseGraph).nofCrcBits := by
    rw [nofTbBitsOut_eq, Nat.mul_comm]
    rfl
  have share : Tail.divideCeil
      (Tail.nofTbBitsOut tbsBits (Tail.oiP2CbSegmentCompute tbsBits baseGraph).nofSegments)
      (Tail.oiP2CbSegmentCompute tbsBits baseGraph).nofSegments =
        (Tail.oiP2CbSegmentCompute tbsBits baseGraph).cbInfoBits +
          (Tail.oiP2CbSegmentCompute tbsBits baseGraph).nofCrcBits := by
    rw [cbInfoBits_eq baseGraph positive]
    exact divideCeil_nofTbBitsOut tbsBits positive
  have lifting : (Tail.oiP2CbSegmentCompute tbsBits baseGraph).liftingSize =
      Tail.computeLiftingSize tbsBits baseGraph (Tail.computeNofCodeblocks tbsBits baseGraph) := rfl
  rw [out] at share
  have whole := sizes.last_block
  have layout := sizes.layout
  have punctured := sizes.punctured
  have last := sizes.last
  have total := sizes.total
  have segment := sizes.segment
  refine ⟨positive, ?_, ?_, ?_, ?_, ?_, ?_, segment, layout, whole, padding, sizes.codeword, ?_⟩
  · have two := (kLiftingSizes_facts _ sizes.lifting).1
    omega
  · rw [← out, lifting]
    convert least using 4 with z
    rw [Nat.mul_comm _ z]
    exact Iff.rfl
  · rw [share]
    omega
  · have product : ((Tail.oiP2CbSegmentCompute tbsBits baseGraph).cbInfoBits +
        (Tail.oiP2CbSegmentCompute tbsBits baseGraph).nofCrcBits) *
          (Tail.oiP2CbSegmentCompute tbsBits baseGraph).nofSegments =
        (Tail.oiP2CbSegmentCompute tbsBits baseGraph).nofSegments *
            (Tail.oiP2CbSegmentCompute tbsBits baseGraph).cbInfoBits +
          (Tail.oiP2CbSegmentCompute tbsBits baseGraph).nofSegments *
            (Tail.oiP2CbSegmentCompute tbsBits baseGraph).nofCrcBits := by ring
    rw [product, total]
    omega
  · omega
  · omega
  · rw [Nat.sub_mul, ← segment]
    omega

/-- `k6_rate_dematch` finds the systematic bits behind the first two columns. -/
theorem toNat_k6NofInfoBits {out : OiP2CbSegmentParams} (baseGraph : BaseGraph)
    (member : out.liftingSize.toNat ∈ kLiftingSizes)
    (codeword : out.codewordLength.toNat = baseGraph.nShort * out.liftingSize.toNat)
    (fits : out.nofFillerBits.toNat ≤ (baseGraph.nVnInfo - 2) * out.liftingSize.toNat) :
    (k6NofInfoBits out.codewordLength out.nofFillerBits).toNat =
      (baseGraph.nVnInfo - 2) * out.liftingSize.toNat - out.nofFillerBits.toNat := by
  obtain ⟨_, small, allowed, _⟩ := kLiftingSizes_facts _ member
  have whole : out.codewordLength % 66 = 0 ↔ out.codewordLength.toNat % 66 = 0 := by
    rw [← UInt32.toNat_inj, UInt32.toNat_mod]
    rfl
  -- the systematic columns but two of them
  have region (columns : UInt32) (lifting : UInt32) (few : columns.toNat ≤ 20)
      (size : lifting.toNat = out.liftingSize.toNat)
      (enough : out.nofFillerBits.toNat ≤ columns.toNat * out.liftingSize.toNat) :
      (columns * lifting - out.nofFillerBits).toNat =
        columns.toNat * out.liftingSize.toNat - out.nofFillerBits.toNat := by
    have bound := Nat.mul_le_mul few small
    have product : (columns * lifting).toNat = columns.toNat * out.liftingSize.toNat := by
      rw [UInt32.toNat_mul, size, Nat.mod_eq_of_lt (by omega)]
    rw [UInt32.toNat_sub_of_le, product]
    rw [UInt32.le_iff_toNat_le, product]
    exact enough
  rw [k6NofInfoBits]
  cases baseGraph with
  | bg1 =>
      rw [BaseGraph.nShort] at codeword
      rw [if_pos (whole.mpr (by omega))]
      refine region 20 (out.codewordLength / 66) (by decide) ?_ fits
      rw [UInt32.toNat_div, codeword]
      exact Nat.mul_div_cancel_left _ (by decide)
  | bg2 =>
      rw [BaseGraph.nShort] at codeword
      rw [if_neg (mt whole.mp (by omega))]
      refine region 8 (out.codewordLength / 50) (by decide) ?_ fits
      rw [UInt32.toNat_div, codeword]
      exact Nat.mul_div_cancel_left _ (by decide)

/-- Every transport block of the standard has a consistent segmentation, whatever base graph its
code rate selects: the words are numbers that fit together, and `nof_info_bits` of
`k6_rate_dematch` counts the payload and its CRC behind the two punctured columns. -/
theorem segmentation_sizing (codeRate : Float32) (small : tbSizeBits.toNat ≤ maxTbs) :
    let out := oiP2CbSegmentCompute tbSizeBits codeRate
    Sizing tbSizeBits.toNat out.toParams ∧
      (k6NofInfoBits out.codewordLength out.nofFillerBits).toNat + 2 * out.liftingSize.toNat =
        out.cbInfoBits.toNat + out.nofCrcBits.toNat := by
  intro out
  have numbers := toParams_segmentFor (getLdpcBaseGraph codeRate tbSizeBits) small
  have sizing : Sizing tbSizeBits.toNat out.toParams := by
    rw [show out.toParams = _ from numbers]
    exact sizing_of_compute _ small
  refine ⟨sizing, ?_⟩
  clear_value out
  have info := toNat_k6NofInfoBits out.baseGraph sizing.lifting_least.1.1 sizing.codewordLength
    sizing.filler_le
  have layout : out.cbInfoBits.toNat + out.nofCrcBits.toNat + out.nofFillerBits.toNat =
    out.segmentLength.toNat := sizing.segmentLength
  have lifted : out.segmentLength.toNat = out.baseGraph.nVnInfo * out.liftingSize.toNat :=
    sizing.lifted
  have filler : out.nofFillerBits.toNat ≤ (out.baseGraph.nVnInfo - 2) * out.liftingSize.toNat :=
    sizing.filler_le
  have two : 2 * out.liftingSize.toNat ≤ out.baseGraph.nVnInfo * out.liftingSize.toNat := by
    apply Nat.mul_le_mul_right
    cases out.baseGraph <;> decide
  rw [Nat.sub_mul, ← lifted] at info filler
  omega

/-- A transport block of 200 bits. -/
theorem segmentation_sizing_of_200_bits :
    let out := oiP2CbSegmentCompute 200 0.5
    out.liftingSize = 28 ∧ Sizing 200 out.toParams ∧
      (k6NofInfoBits out.codewordLength out.nofFillerBits).toNat + 2 * out.liftingSize.toNat =
        out.cbInfoBits.toNat + out.nofCrcBits.toNat :=
  ⟨by decide, segmentation_sizing 0.5 (show UInt32.toNat 200 ≤ maxTbs by decide)⟩

end Compute

/-! ### The slices of the codeword -/

section Slices

variable {nofSymbols nofSegments qm : UInt32}

theorem divideCeil_le (n : Nat) {blocks : Nat} (positive : 0 < blocks) :
    Tail.divideCeil n blocks ≤ n :=
  (divideCeil_le_iff positive).mpr (Nat.le_mul_of_pos_left n positive)

theorem toNat_oiP2ComputeRmLength (fits : nofSymbols.toNat * qm.toNat < 2 ^ 32)
    (sum : nofSymbols.toNat + nofSegments.toNat < 2 ^ 32) {cb : Nat}
    (block : cb < nofSegments.toNat) :
    (oiP2ComputeRmLength nofSymbols nofSegments qm (UInt32.ofNat cb)).toNat =
      Tail.oiP2ComputeRmLength nofSymbols.toNat nofSegments.toNat qm.toNat cb := by
  have positive : 0 < nofSegments.toNat := by omega
  have index : (UInt32.ofNat cb).toNat = cb := Nat.mod_eq_of_lt (by omega)
  have rest : (nofSymbols % nofSegments).toNat = nofSymbols.toNat % nofSegments.toNat :=
    UInt32.toNat_mod _ _
  have below := Nat.mod_lt nofSymbols.toNat positive
  have short : (nofSegments - nofSymbols % nofSegments).toNat =
      nofSegments.toNat - nofSymbols.toNat % nofSegments.toNat := by
    rw [UInt32.toNat_sub_of_le, rest]
    rw [UInt32.le_iff_toNat_le, rest]
    omega
  have ceil := toNat_divideCeil positive sum
  have early : UInt32.ofNat cb < nofSegments - nofSymbols % nofSegments ↔
      cb < nofSegments.toNat - nofSymbols.toNat % nofSegments.toNat := by
    rw [UInt32.lt_iff_toNat_lt, index, short]
  have symbols := toNat_ite early (nofSymbols / nofSegments) (divideCeil nofSymbols nofSegments)
  rw [UInt32.toNat_div, ceil] at symbols
  have most : (if cb < nofSegments.toNat - nofSymbols.toNat % nofSegments.toNat then
      nofSymbols.toNat / nofSegments.toNat
      else Tail.divideCeil nofSymbols.toNat nofSegments.toNat) ≤ nofSymbols.toNat := by
    split_ifs
    · exact Nat.div_le_self _ _
    · exact divideCeil_le _ positive
  rw [oiP2ComputeRmLength, Tail.oiP2ComputeRmLength, UInt32.toNat_mul, symbols]
  exact Nat.mod_eq_of_lt (Nat.lt_of_le_of_lt (Nat.mul_le_mul_right _ most) fits)

/-- The offsets of the loop are those it has when it comes to each block. -/
theorem drainLoop_slices (nofSymbols nofSegments qm : UInt32) (blocks : Nat) :
    (drainLoop nofSymbols nofSegments qm blocks).1 = (List.range blocks).map fun cb =>
      ((drainLoop nofSymbols nofSegments qm cb).2,
        oiP2ComputeRmLength nofSymbols nofSegments qm (UInt32.ofNat cb)) := by
  induction blocks with
  | zero => rfl
  | succ cb inductionHypothesis =>
      rw [List.range_succ, List.map_append, ← inductionHypothesis]
      rfl

/-- `cw_offset` is what the blocks before it take: the sum does not wrap, since it stays below
the number of LLRs. -/
theorem toNat_drainLoop (fits : nofSymbols.toNat * qm.toNat < 2 ^ 32)
    (sum : nofSymbols.toNat + nofSegments.toNat < 2 ^ 32) {blocks : Nat}
    (within : blocks ≤ nofSegments.toNat) :
    (drainLoop nofSymbols nofSegments qm blocks).2.toNat =
      ∑ cb ∈ Finset.range blocks,
        Tail.oiP2ComputeRmLength nofSymbols.toNat nofSegments.toNat qm.toNat cb := by
  induction blocks with
  | zero => rfl
  | succ cb inductionHypothesis =>
      have most : ∑ block ∈ Finset.range (cb + 1),
          Tail.oiP2ComputeRmLength nofSymbols.toNat nofSegments.toNat qm.toNat block ≤
            nofSymbols.toNat * qm.toNat := by
        rw [← sum_rmLength nofSymbols.toNat qm.toNat (show 1 ≤ nofSegments.toNat by omega)]
        exact Finset.sum_le_sum_of_subset (Finset.range_mono within)
      have step : (drainLoop nofSymbols nofSegments qm (cb + 1)).2 =
          (drainLoop nofSymbols nofSegments qm cb).2 +
            oiP2ComputeRmLength nofSymbols nofSegments qm (UInt32.ofNat cb) := rfl
      rw [Finset.sum_range_succ] at most
      rw [Finset.sum_range_succ, step, UInt32.toNat_add, inductionHypothesis (by omega),
        toNat_oiP2ComputeRmLength fits sum within]
      exact Nat.mod_eq_of_lt (by omega)

/-- Intervals that start where the ones before them end make up one interval. -/
theorem flatMap_range'_sum (length : Nat → Nat) (blocks : Nat) :
    ((List.range blocks).flatMap fun block =>
      List.range' (∑ i ∈ Finset.range block, length i) (length block)) =
        List.range (∑ i ∈ Finset.range blocks, length i) := by
  induction blocks with
  | zero => rfl
  | succ block inductionHypothesis =>
      rw [List.range_succ, List.flatMap_append, inductionHypothesis, List.flatMap_singleton,
        Finset.sum_range_succ, List.range_eq_range', List.range_eq_range', ← List.range'_append_1,
        Nat.zero_add]

/-- The rate-matched lengths share the LLRs: in whole symbols, the longer ones last and none more
than a symbol longer than another, and the slices of `oi_p2_drain` follow each other from the
first LLR to the last one. -/
theorem rm_lengths_tile (segments : 1 ≤ nofSegments.toNat)
    (fits : nofSymbols.toNat * qm.toNat < 2 ^ 32)
    (sum : nofSymbols.toNat + nofSegments.toNat < 2 ^ 32) :
    let rmLength (cb : Nat) : UInt32 :=
      oiP2ComputeRmLength nofSymbols nofSegments qm (UInt32.ofNat cb)
    let slices := drainSlices nofSymbols nofSegments qm
    (∑ cb ∈ Finset.range nofSegments.toNat, (rmLength cb).toNat =
        nofSymbols.toNat * qm.toNat) ∧
      (∀ cb < nofSegments.toNat, qm.toNat ∣ (rmLength cb).toNat) ∧
      (∀ cb < nofSegments.toNat, ∀ earlier ≤ cb,
        (rmLength earlier).toNat ≤ (rmLength cb).toNat ∧
          (rmLength cb).toNat ≤ (rmLength earlier).toNat + qm.toNat) ∧
      slices.length = nofSegments.toNat ∧
      (∀ cb < nofSegments.toNat, ∃ cwOffset : UInt32,
        slices[cb]? = some (cwOffset, rmLength cb) ∧
          cwOffset.toNat = ∑ earlier ∈ Finset.range cb, (rmLength earlier).toNat ∧
          cwOffset.toNat + (rmLength cb).toNat ≤ nofSymbols.toNat * qm.toNat) ∧
      (slices.flatMap fun slice => List.range' slice.1.toNat slice.2.toNat) =
        List.range (nofSymbols.toNat * qm.toNat) := by
  intro rmLength slices
  have number {cb : Nat} (block : cb < nofSegments.toNat) : (rmLength cb).toNat =
      Tail.oiP2ComputeRmLength nofSymbols.toNat nofSegments.toNat qm.toNat cb :=
    toNat_oiP2ComputeRmLength fits sum block
  have total := sum_rmLength nofSymbols.toNat qm.toNat segments
  have offset {cb : Nat} (within : cb ≤ nofSegments.toNat) :
      (drainLoop nofSymbols nofSegments qm cb).2.toNat =
        ∑ earlier ∈ Finset.range cb, (rmLength earlier).toNat := by
    rw [toNat_drainLoop fits sum within]
    refine Finset.sum_congr rfl fun earlier member => ?_
    exact (number (Nat.lt_of_lt_of_le (Finset.mem_range.mp member) within)).symm
  have all : ∑ cb ∈ Finset.range nofSegments.toNat, (rmLength cb).toNat =
      nofSymbols.toNat * qm.toNat := by
    rw [← total]
    exact Finset.sum_congr rfl fun cb member => number (Finset.mem_range.mp member)
  have parts : slices = (List.range nofSegments.toNat).map fun cb =>
      ((drainLoop nofSymbols nofSegments qm cb).2, rmLength cb) :=
    drainLoop_slices nofSymbols nofSegments qm nofSegments.toNat
  refine ⟨all, fun cb block => ?_, fun cb block earlier before => ?_, ?_, fun cb block => ?_, ?_⟩
  · rw [number block, oiP2ComputeRmLength_eq _ _ block]
    exact Nat.dvd_mul_left _ _
  · rw [number block, number (Nat.lt_of_le_of_lt before block), oiP2ComputeRmLength_eq _ _ block,
      oiP2ComputeRmLength_eq _ _ (Nat.lt_of_le_of_lt before block), Nat.add_mul, Nat.add_mul]
    split_ifs <;> omega
  · rw [parts, List.length_map, List.length_range]
  · refine ⟨(drainLoop nofSymbols nofSegments qm cb).2, ?_, offset (Nat.le_of_lt block), ?_⟩
    · rw [parts, List.getElem?_map, List.getElem?_range block]
      rfl
    · rw [offset (Nat.le_of_lt block), ← Finset.sum_range_succ (fun i => (rmLength i).toNat), ← all]
      exact Finset.sum_le_sum_of_subset (Finset.range_mono block)
  · rw [parts, List.flatMap_map, ← all, ← flatMap_range'_sum]
    refine List.flatMap_congr fun cb member => ?_
    rw [offset (Nat.le_of_lt (List.mem_range.mp member))]

/-- Seven symbols of four LLRs for three blocks. -/
theorem rm_lengths_tile_of_seven_symbols :
    drainSlices 7 3 4 = [(0, 8), (8, 8), (16, 12)] ∧
      ((drainSlices 7 3 4).flatMap fun slice => List.range' slice.1.toNat slice.2.toNat) =
        List.range 28 :=
  ⟨by decide, (@rm_lengths_tile 7 3 4 (by decide) (by decide) (by decide)).2.2.2.2.2⟩

end Slices

end RanInline.Tail.Word
