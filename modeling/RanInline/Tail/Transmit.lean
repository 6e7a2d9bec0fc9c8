/-
Module: RanInline.Tail.Transmit
Purpose: What a transmitter sends for a transport block, with the layout of
  oi_p2_cb_segment.h and the rate matching of TS 38.212 5.4.2 for redundancy version 0.
Trusted boundary: none
Main exports: tbStream, cbPayload, Transmission, selectBits, interleave, Transmission.sentBits,
  Transmission.scrambledBits, LlrOf, getElem?_selectBits, getElem?_interleave,
  Transmission.getElem?_sentBits
-/
import RanInline.Ldpc.SignConsistent
import RanInline.Phy.Gold
import RanInline.Tail.CbSegment
import RanInline.Tail.Crc

namespace RanInline.Tail

open RanInline.Lib RanInline.Ldpc RanInline.Phy

/-- The CRC of a transport block. -/
def tbCrcPoly (tbSizeBits : Nat) : OiP2CrcPoly := if tbSizeBits ≤ 3824 then .crc16 else .crc24a

/-- The transport block with its CRC and the padding. -/
def tbStream (params : OiP2CbSegmentParams) (tb tbCrc : List Bool) : List Bool :=
  tb ++ tbCrc ++ List.replicate params.zeroPad false

/-- The payload of a code block. -/
def cbPayload (params : OiP2CbSegmentParams) (stream : List Bool) (cb : Nat) : List Bool :=
  (stream.drop (cb * params.cbInfoBits)).take params.cbInfoBits

/-- A transport block on its way: the parity bits that are attached to it and to its code
blocks, and for every code block a codeword that starts with the payload, its CRC and the
filler. -/
structure Transmission (shape : LdpcShape) (params : OiP2CbSegmentParams) (tb : List Bool) where
  tbCrc : List Bool
  cbCrc : Nat → List Bool
  codeword : Nat → Nat → Nat → Bool
  tbCrc_attached : CrcAttached (tbCrcPoly tb.length) tb tbCrc
  cbCrc_attached : ∀ cb < params.nofSegments, 1 < params.nofSegments →
    CrcAttached .crc24b (cbPayload params (tbStream params tb tbCrc) cb) (cbCrc cb)
  cbCrc_single : params.nofSegments = 1 → cbCrc 0 = []
  isCodeword : ∀ cb < params.nofSegments, IsCodeword shape (codeword cb)
  systematic : ∀ cb < params.nofSegments, ∀ k < params.segmentLength,
    some (codeword cb (k / params.liftingSize) (k % params.liftingSize)) =
      (cbPayload params (tbStream params tb tbCrc) cb ++ cbCrc cb ++
        List.replicate params.nofFillerBits false)[k]?

/-- Bit selection: the first two columns are dropped, the filler is skipped, and as many bits
are taken as there is room for. -/
def selectBits (params : OiP2CbSegmentParams) (codeword : List Bool) (rmLength : Nat) :
    List Bool :=
  let sendable := codeword.drop (2 * params.liftingSize)
  let systematic := params.segmentLength - 2 * params.liftingSize
  (sendable.take (systematic - params.nofFillerBits) ++ sendable.drop systematic).take rmLength

/-- Bit interleaving: written in `qm` rows, read column by column. -/
def interleave (qm : Nat) (bits : List Bool) : List Bool :=
  let columns := bits.length / qm
  (List.range bits.length).map fun n => bits.getD (n % qm * columns + n / qm) false

namespace Transmission

variable {shape : LdpcShape} {params : OiP2CbSegmentParams} {tb : List Bool}

/-- The bits of a codeword, column by column. -/
def codewordBits (sent : Transmission shape params tb) (cb : Nat) : List Bool :=
  (List.range (params.baseGraph.nVnFull * params.liftingSize)).map fun n =>
    sent.codeword cb (n / params.liftingSize) (n % params.liftingSize)

/-- The rate-matched bits of a code block. -/
def cbBits (sent : Transmission shape params tb) (nofSymbols qm cb : Nat) : List Bool :=
  interleave qm (selectBits params (sent.codewordBits cb)
    (oiP2ComputeRmLength nofSymbols params.nofSegments qm cb))

/-- The code blocks one after the other. -/
def sentBits (sent : Transmission shape params tb) (nofSymbols qm : Nat) : List Bool :=
  (List.range params.nofSegments).flatMap (sent.cbBits nofSymbols qm)

/-- The bits on the air. -/
def scrambledBits (sent : Transmission shape params tb) (nofSymbols qm : Nat)
    (cInit : BitVec 32) : List Bool :=
  (sent.sentBits nofSymbols qm).mapIdx fun n bit => xor bit (goldBit cInit n)

end Transmission

/-- A finite LLR of the right sign. -/
def LlrOf (bit : Bool) (llr : Int) : Prop :=
  if bit then -120 ≤ llr ∧ llr ≤ -1 else 1 ≤ llr ∧ llr ≤ 120

instance (bit : Bool) (llr : Int) : Decidable (LlrOf bit llr) :=
  inferInstanceAs (Decidable (if bit then _ else _))

/-! ### Where the bits go -/

section Places

variable {shape : LdpcShape} {params : OiP2CbSegmentParams} {tb : List Bool}

theorem nVnFull_mul (baseGraph : BaseGraph) (z : Nat) :
    baseGraph.nVnFull * z = 2 * z + baseGraph.nShort * z := by
  cases baseGraph <;> simp only [BaseGraph.nVnFull, BaseGraph.nShort] <;> omega

/-- The place in the codeword, behind the first two columns, of a selected bit. -/
def selectedPlace (params : OiP2CbSegmentParams) (k : Nat) : Nat :=
  if k < params.cbInfoBits + params.nofCrcBits - 2 * params.liftingSize then k
  else k + params.nofFillerBits

theorem SegmentSizes.segment_le (sizes : SegmentSizes tb.length params) :
    params.segmentLength ≤ params.baseGraph.nVnFull * params.liftingSize := by
  rw [sizes.segment]
  apply Nat.mul_le_mul_right
  cases params.baseGraph <;> decide

theorem getElem?_selectBits (sizes : SegmentSizes tb.length params) {codeword : List Bool}
    (length : codeword.length = params.baseGraph.nVnFull * params.liftingSize)
    {rmLength k : Nat} (inside : k < rmLength) :
    (selectBits params codeword rmLength)[k]? =
      codeword[2 * params.liftingSize + selectedPlace params k]? := by
  have layout := sizes.layout
  have punctured := sizes.punctured
  have within := sizes.segment_le
  have room : params.segmentLength - 2 * params.liftingSize - params.nofFillerBits =
      params.cbInfoBits + params.nofCrcBits - 2 * params.liftingSize := by omega
  rw [selectBits, selectedPlace]
  rw [List.getElem?_take, if_pos inside, room]
  split_ifs with early
  · rw [List.getElem?_append_left, List.getElem?_take, if_pos early, List.getElem?_drop]
    rw [List.length_take, List.length_drop]
    omega
  · have taken : ((codeword.drop (2 * params.liftingSize)).take
        (params.cbInfoBits + params.nofCrcBits - 2 * params.liftingSize)).length =
        params.cbInfoBits + params.nofCrcBits - 2 * params.liftingSize := by
      rw [List.length_take, List.length_drop]
      omega
    rw [List.getElem?_append_right (by omega), taken, List.getElem?_drop, List.getElem?_drop]
    congr 1
    omega

theorem length_selectBits (sizes : SegmentSizes tb.length params) {codeword : List Bool}
    (length : codeword.length = params.baseGraph.nVnFull * params.liftingSize) {rmLength : Nat}
    (fits : rmLength ≤ params.codewordLength - params.nofFillerBits) :
    (selectBits params codeword rmLength).length = rmLength := by
  have layout := sizes.layout
  have punctured := sizes.punctured
  have within := sizes.segment_le
  have columns := nVnFull_mul params.baseGraph params.liftingSize
  have codewordLength := sizes.codeword
  rw [selectBits]
  simp only [List.length_take, List.length_append, List.length_drop]
  omega

theorem length_interleave (qm : Nat) (bits : List Bool) :
    (interleave qm bits).length = bits.length := by
  simp [interleave]

/-- The bit with index `v` is found again in its row and column. -/
theorem getElem?_interleave {qm columns : Nat} {bits : List Bool}
    (length : bits.length = columns * qm) {v : Nat} (inside : v < bits.length) :
    (interleave qm bits)[v % columns * qm + v / columns]? = bits[v]? := by
  have positive : 0 < columns := by
    apply Nat.pos_of_ne_zero
    rintro rfl
    rw [length, Nat.zero_mul] at inside
    exact absurd inside (Nat.not_lt_zero v)
  have row : v / columns < qm := by
    rw [Nat.div_lt_iff_lt_mul positive, Nat.mul_comm]
    exact length ▸ inside
  have column : v % columns < columns := Nat.mod_lt v positive
  obtain ⟨division, remainder⟩ := flat_div_mod (v % columns) row
  have width : bits.length / qm = columns := by
    rw [length]
    exact Nat.mul_div_cancel columns (by omega)
  have bound : v % columns * qm + v / columns < bits.length := by
    rw [length]
    exact flat_lt column row
  have back : v / columns * columns + v % columns = v := Nat.div_add_mod' v columns
  rw [interleave]
  rw [width, List.getElem?_map, List.getElem?_range bound, Option.map_some, division, remainder,
    back, List.getD_eq_getElem?_getD, List.getElem?_eq_getElem inside, Option.getD_some]

theorem CrcAttached.length_tbCrc {tbCrc : List Bool}
    (attached : CrcAttached (tbCrcPoly tb.length) tb tbCrc) (sizes : SegmentSizes tb.length params) :
    tbCrc.length = params.tbCrcBits := by
  rw [attached.1, sizes.tbCrc, tbCrcPoly, computeTbCrcSize]
  split_ifs <;> rfl

/-- The payloads have one length, whatever the parity bits are. -/
theorem SegmentSizes.length_cbPayload (sizes : SegmentSizes tb.length params) {tbCrc : List Bool}
    (crc : tbCrc.length = params.tbCrcBits) {cb : Nat} (block : cb < params.nofSegments) :
    (cbPayload params (tbStream params tb tbCrc) cb).length = params.cbInfoBits := by
  have total := sizes.total
  have stream : (tbStream params tb tbCrc).length = params.nofSegments * params.cbInfoBits := by
    simp only [tbStream, List.length_append, List.length_replicate]
    omega
  have next : (cb + 1) * params.cbInfoBits ≤ params.nofSegments * params.cbInfoBits :=
    Nat.mul_le_mul_right _ block
  rw [Nat.succ_mul] at next
  rw [cbPayload, List.length_take, List.length_drop, stream]
  omega

namespace Transmission

variable (sent : Transmission shape params tb)

theorem length_tbCrc (sizes : SegmentSizes tb.length params) :
    sent.tbCrc.length = params.tbCrcBits :=
  sent.tbCrc_attached.length_tbCrc sizes

theorem length_cbPayload (sizes : SegmentSizes tb.length params) {cb : Nat}
    (block : cb < params.nofSegments) :
    (cbPayload params (tbStream params tb sent.tbCrc) cb).length = params.cbInfoBits :=
  sizes.length_cbPayload (sent.length_tbCrc sizes) block

theorem length_cbCrc (sizes : SegmentSizes tb.length params) {cb : Nat}
    (block : cb < params.nofSegments) : (sent.cbCrc cb).length = params.nofCrcBits := by
  rw [sizes.crc]
  split_ifs with several
  · exact (sent.cbCrc_attached cb block several).1
  · obtain rfl : cb = 0 := by omega
    rw [sent.cbCrc_single (by omega)]
    rfl

theorem length_codewordBits (cb : Nat) :
    (sent.codewordBits cb).length = params.baseGraph.nVnFull * params.liftingSize := by
  simp [codewordBits]

theorem getElem?_codewordBits {n : Nat}
    (inside : n < params.baseGraph.nVnFull * params.liftingSize) (cb : Nat) :
    (sent.codewordBits cb)[n]? =
      some (sent.codeword cb (n / params.liftingSize) (n % params.liftingSize)) := by
  rw [codewordBits, List.getElem?_map, List.getElem?_range inside, Option.map_some]

variable {nofSymbols qm : Nat}

theorem length_cbBits (sizes : SegmentSizes tb.length params) {cb : Nat}
    (fits : oiP2ComputeRmLength nofSymbols params.nofSegments qm cb ≤
      params.codewordLength - params.nofFillerBits) :
    (sent.cbBits nofSymbols qm cb).length =
      oiP2ComputeRmLength nofSymbols params.nofSegments qm cb := by
  rw [cbBits, length_interleave, length_selectBits sizes (sent.length_codewordBits cb) fits]

/-- Where a code block starts. -/
def offset (params : OiP2CbSegmentParams) (nofSymbols qm cb : Nat) : Nat :=
  ∑ earlier ∈ Finset.range cb, oiP2ComputeRmLength nofSymbols params.nofSegments qm earlier

theorem length_flatMap_cbBits (sizes : SegmentSizes tb.length params)
    (fits : ∀ cb < params.nofSegments, oiP2ComputeRmLength nofSymbols params.nofSegments qm cb ≤
      params.codewordLength - params.nofFillerBits) {cb : Nat} (block : cb ≤ params.nofSegments) :
    ((List.range cb).flatMap (sent.cbBits nofSymbols qm)).length =
      offset params nofSymbols qm cb := by
  induction cb with
  | zero => rfl
  | succ cb inductionHypothesis =>
      rw [List.range_succ, List.flatMap_append, List.length_append, inductionHypothesis (by omega),
        List.flatMap_singleton, sent.length_cbBits sizes (fits cb block), offset, offset,
        Finset.sum_range_succ]

/-- A code block starts behind the ones before it. -/
theorem getElem?_sentBits (sizes : SegmentSizes tb.length params)
    (fits : ∀ cb < params.nofSegments, oiP2ComputeRmLength nofSymbols params.nofSegments qm cb ≤
      params.codewordLength - params.nofFillerBits) {cb n : Nat} (block : cb < params.nofSegments)
    (inside : n < oiP2ComputeRmLength nofSymbols params.nofSegments qm cb) :
    (sent.sentBits nofSymbols qm)[offset params nofSymbols qm cb + n]? =
      (sent.cbBits nofSymbols qm cb)[n]? := by
  obtain ⟨rest, total⟩ : ∃ rest, params.nofSegments = cb + (1 + rest) :=
    ⟨params.nofSegments - cb - 1, by omega⟩
  have before := sent.length_flatMap_cbBits sizes fits (Nat.le_of_lt block)
  have length := sent.length_cbBits sizes (fits cb block)
  rw [sentBits, total, List.range_add, List.flatMap_append, List.getElem?_append_right (by omega),
    before, Nat.add_sub_cancel_left, List.range_add, List.map_append, List.flatMap_append]
  rw [List.getElem?_append_left]
  · simp
  · simpa [length] using inside

end Transmission

/-- Descrambling an LLR. -/
theorem LlrOf.descramble {bit flip : Bool} {llr : Int} (right : LlrOf (xor bit flip) llr) :
    LlrOf bit (if flip then toChar (-llr) else llr) := by
  have char (value : Int) (low : -120 ≤ value) (high : value ≤ 120) : toChar value = value := by
    rw [toChar]
    exact Int.bmod_eq_of_le (by omega) (by omega)
  cases bit <;> cases flip <;> simp [LlrOf] at right ⊢ <;> try exact right
  · rw [char (-llr) (by omega) (by omega)]
    omega
  · rw [char (-llr) (by omega) (by omega)]
    omega

end Places

end RanInline.Tail
