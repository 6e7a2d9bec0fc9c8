/-
Module: RanInline.Tail.Desegment
Purpose: oi_p2_cb_desegment of oi_p2_cb_segment.cpp: the CRC checks and the reassembly of a
  transport block from its decoded code blocks.
Trusted boundary: none
Main exports: setBit, copyBits, OiP2DesegStatus, oiP2CbDesegment, oiP2CbDesegment_ok
-/
import RanInline.Tail.Transmit

namespace RanInline.Tail

open RanInline.Lib RanInline.Ldpc

/-- `set_bit`.  A write behind the end of the buffer is `none`. -/
def setBit (data : List (BitVec 8)) (bitIdx : Nat) (val : Bool) : Option (List (BitVec 8)) :=
  data[bitIdx / 8]?.map fun byte => data.set (bitIdx / 8) (writeBit byte (7 - bitIdx % 8) val)

/-- The bits of a buffer as cells. -/
def bitCells : CheckedStore (List (BitVec 8)) Bool where
  size := fun data => 8 * data.length
  get := getBit
  set := setBit
  set_spec := by
    intro data bitIdx val inside
    have byte : bitIdx / 8 < data.length := by omega
    have read := List.getElem?_eq_getElem byte
    refine ⟨_, by rw [setBit, read, Option.map_some], by rw [List.length_set], fun other => ?_⟩
    rw [getBit, getBit, List.getElem?_set]
    by_cases same : other / 8 = bitIdx / 8
    · have places : 7 - other % 8 = 7 - bitIdx % 8 ↔ other = bitIdx := by omega
      rw [if_pos same.symm, if_pos byte, Option.map_some,
        getLsbD_writeBit _ (show 7 - bitIdx % 8 < 8 by omega), same, read, Option.map_some]
      by_cases here : other = bitIdx
      · rw [if_pos (places.mpr here), if_pos here]
      · rw [if_neg (mt places.mp here), if_neg here]
    · have apart : other ≠ bitIdx := fun equal => same (by rw [equal])
      rw [if_neg (Ne.symm same), if_neg apart]

/-- `copy_bits`. -/
def copyBits (dst : List (BitVec 8)) (dstBitOff : Nat) (src : List (BitVec 8))
    (srcBitOff nbits : Nat) : Option (List (BitVec 8)) :=
  bitCells.fill dst dstBitOff nbits fun i => getBit src (srcBitOff + i)

/-- `memcpy` of the first `count` bytes. -/
def memcpy (dst src : List (BitVec 8)) (count : Nat) : Option (List (BitVec 8)) :=
  if count ≤ dst.length ∧ count ≤ src.length then some (src.take count ++ dst.drop count) else none

/-- `oi_p2_deseg_status`. -/
inductive OiP2DesegStatus where
  | ok
  | errCbCrc
  | errTbCrc
deriving DecidableEq, Repr

/-- One turn of the first loop.  Behind a code block that fails its CRC nothing is read. -/
def cbCrcTurn (params : OiP2CbSegmentParams) (decodedCbs : List (List (BitVec 8))) (pass : Bool)
    (i : Nat) : Option Bool :=
  if pass then do
    let cb ← decodedCbs[i]?
    let crc ← oiP2CrcCalculate .crc24b cb 0 (params.cbInfoBits + params.nofCrcBits)
    return decide (crc = 0#32)
  else some false

/-- The first part: whether every code block passes its CRC, if it has one. -/
def cbCrcsPass (params : OiP2CbSegmentParams) (decodedCbs : List (List (BitVec 8))) :
    Option Bool :=
  if 0 < params.nofCrcBits then
    (List.range params.nofSegments).foldlM (cbCrcTurn params decodedCbs) true
  else some true

/-- One turn of the reassembly: the buffer and `out_bit_pos`. -/
def reassembleTurn (params : OiP2CbSegmentParams) (decodedCbs : List (List (BitVec 8)))
    (progress : List (BitVec 8) × Nat) (i : Nat) : Option (List (BitVec 8) × Nat) := do
  let nbits := if i = params.nofSegments - 1 then params.cbInfoBitsLast else params.cbInfoBits
  let cb ← decodedCbs[i]?
  let outTbBytes ← copyBits progress.1 progress.2 cb 0 nbits
  return (outTbBytes, progress.2 + nbits)

/-- The size of `scratch`, and of `tb_bytes_buf` of the caller. -/
def scratchBytes : Nat := 4096

/-- The third part: the CRC of the reassembled transport block.  `scratch` has any contents
at first. -/
def tbCrcPasses (params : OiP2CbSegmentParams) (tbSizeBits : Nat)
    (decodedCbs : List (List (BitVec 8))) (outTbBytes : List (BitVec 8))
    (scratch : Fin scratchBytes → BitVec 8) : Option Bool := do
  let tbBytes := divideCeil tbSizeBits 8
  let scratch ← memcpy (List.ofFn scratch) outTbBytes tbBytes
  let cb ← decodedCbs[params.nofSegments - 1]?
  let scratch ← copyBits scratch tbSizeBits cb params.cbInfoBitsLast params.tbCrcBits
  let tbPoly := if params.tbCrcBits = 16 then OiP2CrcPoly.crc16 else .crc24a
  let tbCrc ← oiP2CrcCalculate tbPoly scratch 0 (tbSizeBits + params.tbCrcBits)
  return decide (tbCrc = 0#32)

/-- `oi_p2_cb_desegment`: the status and the buffer for the transport block. -/
def oiP2CbDesegment (params : OiP2CbSegmentParams) (tbSizeBits : Nat)
    (decodedCbs : List (List (BitVec 8))) (outTbBytes : List (BitVec 8))
    (scratch : Fin scratchBytes → BitVec 8) : Option (OiP2DesegStatus × List (BitVec 8)) := do
  let cbsPass ← cbCrcsPass params decodedCbs
  if cbsPass then
    let (outTbBytes, _) ← (List.range params.nofSegments).foldlM
      (reassembleTurn params decodedCbs) (outTbBytes, 0)
    let tbPasses ← tbCrcPasses params tbSizeBits decodedCbs outTbBytes scratch
    return (if tbPasses then .ok else .errTbCrc, outTbBytes)
  else return (.errCbCrc, outTbBytes)

/-! ### Buffers that hold bits -/

section Holds

variable {data dst src : List (BitVec 8)} {offset : Nat} {bits : List Bool}

theorem HoldsBits.slice (holds : HoldsBits data offset bits) (start count : Nat) :
    HoldsBits data (offset + start) ((bits.drop start).take count) := by
  intro i inside
  rw [List.length_take, List.length_drop] at inside
  rw [List.getElem?_take, if_pos (by omega), List.getElem?_drop, Nat.add_assoc,
    holds (start + i) (by omega)]

theorem HoldsBits.append {more : List Bool} (holds : HoldsBits data offset bits)
    (behind : HoldsBits data (offset + bits.length) more) :
    HoldsBits data offset (bits ++ more) := by
  intro i inside
  rw [List.length_append] at inside
  rcases Nat.lt_or_ge i bits.length with early | late
  · rw [List.getElem?_append_left early, holds i early]
  · rw [List.getElem?_append_right late, ← behind (i - bits.length) (by omega)]
    congr 1
    omega

theorem HoldsBits.congr {other : List (BitVec 8)} (holds : HoldsBits data offset bits)
    (same : ∀ j < offset + bits.length, getBit other j = getBit data j) :
    HoldsBits other offset bits := by
  intro i inside
  rw [same (offset + i) (by omega), holds i inside]

/-- Copied bits are in place, and the other bits are as they were. -/
theorem copyBits_holds {srcOffset : Nat} (inside : offset + bits.length ≤ 8 * dst.length)
    (holds : HoldsBits src srcOffset bits) :
    ∃ after, copyBits dst offset src srcOffset bits.length = some after ∧
      after.length = dst.length ∧ HoldsBits after offset bits ∧
      ∀ j, j < offset ∨ offset + bits.length ≤ j → getBit after j = getBit dst j := by
  have defined (k : Nat) (less : k < bits.length) :
      getBit src (srcOffset + k) = some (bits.getD k false) := by
    rw [holds k less, List.getD_eq_getElem?_getD, List.getElem?_eq_getElem less,
      Option.getD_some]
  obtain ⟨after, copied, size, cells⟩ :=
    bitCells.fill_spec bits.length (fun i => getBit src (srcOffset + i)) (bits.getD · false)
      inside defined
  have length : after.length = dst.length := by
    have bytes : 8 * after.length = 8 * dst.length := size
    omega
  refine ⟨after, copied, length, fun i less => ?_, fun j apart => ?_⟩
  · refine (cells (offset + i)).trans ?_
    rw [if_pos (by omega), Nat.add_sub_cancel_left, ← defined i less, holds i less]
  · refine (cells j).trans ?_
    rw [if_neg (by omega)]
    rfl

theorem getBit_memcpy {count : Nat} (fitsDst : count ≤ dst.length)
    (fitsSrc : count ≤ src.length) :
    ∃ after, memcpy dst src count = some after ∧ after.length = dst.length ∧
      ∀ j < 8 * count, getBit after j = getBit src j := by
  refine ⟨src.take count ++ dst.drop count, if_pos ⟨fitsDst, fitsSrc⟩, ?_, fun j inside => ?_⟩
  · rw [List.length_append, List.length_take, List.length_drop]
    omega
  · rw [getBit, getBit, List.getElem?_append_left, List.getElem?_take, if_pos (by omega)]
    rw [List.length_take]
    omega

theorem HoldsBits.of_append {more : List Bool} (holds : HoldsBits data offset (bits ++ more)) :
    HoldsBits data offset bits := by
  intro i inside
  rw [holds i (by rw [List.length_append]; omega), List.getElem?_append_left inside]

theorem HoldsBits.behind_append {more : List Bool}
    (holds : HoldsBits data offset (bits ++ more)) :
    HoldsBits data (offset + bits.length) more := by
  intro i inside
  rw [Nat.add_assoc, holds _ (by rw [List.length_append]; omega),
    List.getElem?_append_right (Nat.le_add_right _ _), Nat.add_sub_cancel_left]

end Holds

/-! ### What each part finds -/

section Parts

variable {params : OiP2CbSegmentParams} {tb : List Bool} {decodedCbs : List (List (BitVec 8))}

/-- Every decoded code block starts with these bits. -/
def BlocksStart (params : OiP2CbSegmentParams) (decodedCbs : List (List (BitVec 8)))
    (bits : Nat → List Bool) : Prop :=
  ∀ cb < params.nofSegments, ∃ decoded, decodedCbs[cb]? = some decoded ∧
    HoldsBits decoded 0 (bits cb)

/-- The first part passes exactly the blocks that are multiples of the generator polynomial. -/
theorem cbCrcsPass_spec {bits : Nat → List Bool} (several : 0 < params.nofCrcBits)
    (starts : BlocksStart params decodedCbs bits)
    (lengths : ∀ cb < params.nofSegments,
      (bits cb).length = params.cbInfoBits + params.nofCrcBits) :
    ∃ pass, cbCrcsPass params decodedCbs = some pass ∧
      (pass = true ↔ ∀ cb < params.nofSegments,
        wordPoly (polyDef .crc24b).polynom ∣ bitsPoly (bits cb)) := by
  rw [cbCrcsPass, if_pos several]
  apply foldlM_range_invariant fun n pass => pass = true ↔
    ∀ cb < n, wordPoly (polyDef .crc24b).polynom ∣ bitsPoly (bits cb)
  · exact ⟨fun _ cb less => absurd less (Nat.not_lt_zero cb), fun _ => rfl⟩
  · intro n block pass soFar
    have next : (∀ cb < n + 1, wordPoly (polyDef .crc24b).polynom ∣ bitsPoly (bits cb)) ↔
        pass = true ∧ wordPoly (polyDef .crc24b).polynom ∣ bitsPoly (bits n) := by
      rw [soFar]
      exact Nat.forall_lt_succ_right
    rw [next]
    cases pass with
    | false => exact ⟨false, rfl, by simp⟩
    | true =>
        obtain ⟨decoded, found, holds⟩ := starts n block
        obtain ⟨crc, calculated, zero⟩ := oiP2CrcCalculate_eq_zero_iff .crc24b holds
        rw [lengths n block] at calculated
        refine ⟨decide (crc = 0#32), ?_, ?_⟩
        · simp [cbCrcTurn, found, calculated]
        · rw [decide_eq_true_iff, zero]
          exact (and_iff_right rfl).symm

/-- One turn appends the bits it copies, and keeps those behind them. -/
theorem reassembleTurn_holds (params : OiP2CbSegmentParams) {before decoded : List (BitVec 8)}
    {bits more : List Bool} {cb : Nat} (found : decodedCbs[cb]? = some decoded)
    (nbits : (if cb = params.nofSegments - 1 then params.cbInfoBitsLast else params.cbInfoBits) =
      more.length)
    (room : bits.length + more.length ≤ 8 * before.length) (holdsBefore : HoldsBits before 0 bits)
    (holds : HoldsBits decoded 0 more) :
    ∃ after, reassembleTurn params decodedCbs (before, bits.length) cb =
        some (after, (bits ++ more).length) ∧
      after.length = before.length ∧ HoldsBits after 0 (bits ++ more) ∧
      ∀ j, (bits ++ more).length ≤ j → getBit after j = getBit before j := by
  obtain ⟨after, copied, length, holdsAfter, kept⟩ := copyBits_holds room holds
  refine ⟨after, ?_, length, ?_, fun j behind => ?_⟩
  · simp [reassembleTurn, found, nbits, copied]
  · apply HoldsBits.append
    · apply holdsBefore.congr
      intro j inside
      exact kept j (.inl (by omega))
    · rwa [Nat.zero_add]
  · rw [List.length_append] at behind
    exact kept j (.inr behind)

/-- The part of the transport block that a code block holds. -/
def cbShare (params : OiP2CbSegmentParams) (tb : List Bool) (cb : Nat) : List Bool :=
  (tb.drop (cb * params.cbInfoBits)).take params.cbInfoBits

theorem length_cbShare_le (params : OiP2CbSegmentParams) (tb : List Bool) (cb : Nat) :
    (cbShare params tb cb).length ≤ params.cbInfoBits := by
  rw [cbShare]
  exact List.length_take_le _ _

theorem cb_mul_le (sizes : SegmentSizes tb.length params) {cb : Nat}
    (block : cb < params.nofSegments) : cb * params.cbInfoBits ≤ tb.length := by
  have whole := sizes.last_block
  have earlier : cb * params.cbInfoBits ≤ (params.nofSegments - 1) * params.cbInfoBits :=
    Nat.mul_le_mul_right _ (by omega)
  omega

/-- Every code block but the last holds a whole payload of it. -/
theorem length_cbShare (sizes : SegmentSizes tb.length params) {cb : Nat}
    (block : cb < params.nofSegments) :
    (cbShare params tb cb).length =
      if cb = params.nofSegments - 1 then params.cbInfoBitsLast else params.cbInfoBits := by
  have whole := sizes.last_block
  have last := sizes.last
  rw [cbShare, List.length_take, List.length_drop]
  split_ifs with final
  · rw [final]
    omega
  · have next : (cb + 1) * params.cbInfoBits ≤
        (params.nofSegments - 1) * params.cbInfoBits := Nat.mul_le_mul_right _ (by omega)
    rw [Nat.succ_mul] at next
    omega

/-- The reassembly joins the shares, and leaves the rest of the buffer alone. -/
theorem reassemble_spec (sizes : SegmentSizes tb.length params)
    (shares : BlocksStart params decodedCbs (cbShare params tb)) {outTbBytes : List (BitVec 8)}
    (room : tb.length ≤ 8 * outTbBytes.length) :
    ∃ after, (List.range params.nofSegments).foldlM (reassembleTurn params decodedCbs)
        (outTbBytes, 0) = some (after, tb.length) ∧
      after.length = outTbBytes.length ∧ HoldsBits after 0 tb ∧
      ∀ j, tb.length ≤ j → getBit after j = getBit outTbBytes j := by
  have loop : ∃ progress, (List.range params.nofSegments).foldlM
      (reassembleTurn params decodedCbs) (outTbBytes, 0) = some progress ∧
      progress.2 = (tb.take (params.nofSegments * params.cbInfoBits)).length ∧
      progress.1.length = outTbBytes.length ∧
      HoldsBits progress.1 0 (tb.take (params.nofSegments * params.cbInfoBits)) ∧
      ∀ j, (tb.take (params.nofSegments * params.cbInfoBits)).length ≤ j →
        getBit progress.1 j = getBit outTbBytes j := by
    apply foldlM_range_invariant fun n (progress : List (BitVec 8) × Nat) =>
      progress.2 = (tb.take (n * params.cbInfoBits)).length ∧
        progress.1.length = outTbBytes.length ∧
        HoldsBits progress.1 0 (tb.take (n * params.cbInfoBits)) ∧
        ∀ j, (tb.take (n * params.cbInfoBits)).length ≤ j →
          getBit progress.1 j = getBit outTbBytes j
    · refine ⟨by simp, rfl, fun i inside => ?_, fun j _ => rfl⟩
      simp at inside
    · rintro cb block ⟨before, position⟩ ⟨rfl, length, holdsBefore, keptBefore⟩
      obtain ⟨decoded, found, share⟩ := shares cb block
      have joined : tb.take (cb * params.cbInfoBits) ++ cbShare params tb cb =
          tb.take ((cb + 1) * params.cbInfoBits) := by
        rw [Nat.succ_mul, List.take_add, cbShare]
      have both := congrArg List.length joined
      rw [List.length_append] at both
      have fits : (tb.take (cb * params.cbInfoBits)).length + (cbShare params tb cb).length ≤
          8 * before.length := by
        have within := List.length_take_le' ((cb + 1) * params.cbInfoBits) tb
        change before.length = outTbBytes.length at length
        omega
      obtain ⟨after, turn, afterLength, holdsAfter, kept⟩ := reassembleTurn_holds params found
        (length_cbShare sizes block).symm fits holdsBefore share
      rw [joined] at turn holdsAfter kept
      refine ⟨_, turn, rfl, afterLength.trans length, holdsAfter, fun j behind => ?_⟩
      exact (kept j behind).trans (keptBefore j (by omega))
  obtain ⟨⟨after, position⟩, run, ends, length, holds, kept⟩ := loop
  have whole : tb.take (params.nofSegments * params.cbInfoBits) = tb := by
    apply List.take_of_length_le
    have total := sizes.total
    omega
  rw [whole] at ends holds kept
  exact ⟨after, by rw [run, ← ends], length, holds, kept⟩

/-- The third part passes exactly the multiples of the generator polynomial. -/
theorem tbCrcPasses_spec (sizes : SegmentSizes tb.length params) {tbCrc : List Bool}
    (crc : tbCrc.length = params.tbCrcBits)
    (behind : ∃ decoded, decodedCbs[params.nofSegments - 1]? = some decoded ∧
      HoldsBits decoded params.cbInfoBitsLast tbCrc)
    (small : tb.length + computeTbCrcSize tb.length ≤ 8 * scratchBytes)
    {outTbBytes : List (BitVec 8)} (room : tb.length ≤ 8 * outTbBytes.length)
    (holdsOut : HoldsBits outTbBytes 0 tb) (scratch : Fin scratchBytes → BitVec 8) :
    ∃ pass, tbCrcPasses params tb.length decodedCbs outTbBytes scratch = some pass ∧
      (pass = true ↔ wordPoly (polyDef (tbCrcPoly tb.length)).polynom ∣
        bitsPoly (tb ++ tbCrc)) := by
  have bytes : divideCeil tb.length 8 ≤ scratchBytes ∧ divideCeil tb.length 8 ≤ outTbBytes.length ∧
      tb.length ≤ 8 * divideCeil tb.length 8 := by
    simp only [divideCeil]
    omega
  have size : (List.ofFn scratch).length = scratchBytes := List.length_ofFn
  obtain ⟨first, copied, firstLength, same⟩ := getBit_memcpy
    (show divideCeil tb.length 8 ≤ (List.ofFn scratch).length by omega) bytes.2.1
  have holdsFirst : HoldsBits first 0 tb := by
    apply holdsOut.congr
    intro j inside
    exact same j (by omega)
  obtain ⟨decoded, found, holdsCrc⟩ := behind
  obtain ⟨second, appended, _, holdsSecond, kept⟩ := copyBits_holds
    (show tb.length + tbCrc.length ≤ 8 * first.length by
      rw [crc, sizes.tbCrc, firstLength, size]
      exact small) holdsCrc
  have holdsBoth : HoldsBits second 0 (tb ++ tbCrc) := by
    apply HoldsBits.append
    · apply holdsFirst.congr
      intro j inside
      exact kept j (.inl (by omega))
    · rwa [Nat.zero_add]
  obtain ⟨remainder, calculated, zero⟩ :=
    oiP2CrcCalculate_eq_zero_iff (tbCrcPoly tb.length) holdsBoth
  rw [List.length_append, crc] at calculated
  rw [crc] at appended
  have poly : (if params.tbCrcBits = 16 then OiP2CrcPoly.crc16 else .crc24a) =
      tbCrcPoly tb.length := by
    rw [sizes.tbCrc, computeTbCrcSize, tbCrcPoly]
    split_ifs <;> simp_all
  refine ⟨decide (remainder = 0#32), ?_, decide_eq_true_iff.trans zero⟩
  simp [tbCrcPasses, copied, found, appended, poly, calculated]

/-- Once the code blocks pass, the transport block is in place, and the status tells whether its
CRC is right. -/
theorem oiP2CbDesegment_of_cbsPass (sizes : SegmentSizes tb.length params)
    (cbsPass : cbCrcsPass params decodedCbs = some true)
    (shares : BlocksStart params decodedCbs (cbShare params tb)) {tbCrc : List Bool}
    (crc : tbCrc.length = params.tbCrcBits)
    (behind : ∃ decoded, decodedCbs[params.nofSegments - 1]? = some decoded ∧
      HoldsBits decoded params.cbInfoBitsLast tbCrc)
    (small : tb.length + computeTbCrcSize tb.length ≤ 8 * scratchBytes)
    {outTbBytes : List (BitVec 8)} (room : tb.length ≤ 8 * outTbBytes.length)
    (scratch : Fin scratchBytes → BitVec 8) :
    ∃ status out, oiP2CbDesegment params tb.length decodedCbs outTbBytes scratch =
        some (status, out) ∧
      out.length = outTbBytes.length ∧ HoldsBits out 0 tb ∧
      (∀ j, tb.length ≤ j → getBit out j = getBit outTbBytes j) ∧
      (status = .ok ↔ wordPoly (polyDef (tbCrcPoly tb.length)).polynom ∣
        bitsPoly (tb ++ tbCrc)) := by
  obtain ⟨out, reassembled, length, holds, kept⟩ := reassemble_spec sizes shares room
  obtain ⟨tbPasses, checked, divides⟩ :=
    tbCrcPasses_spec sizes crc behind small (by omega) holds scratch
  refine ⟨if tbPasses then .ok else .errTbCrc, out, ?_, length, holds, kept, ?_⟩
  · simp [oiP2CbDesegment, cbsPass, reassembled, checked]
  · rw [← divides]
    cases tbPasses <;> simp

end Parts

/-! ### Right code blocks give the transport block -/

section Decoded

variable {params : OiP2CbSegmentParams} {tb tbCrc : List Bool}
  {decodedCbs : List (List (BitVec 8))}

/-- The payload of a code block starts with its share. -/
theorem take_cbPayload (sizes : SegmentSizes tb.length params) (tbCrc : List Bool) {cb : Nat}
    (block : cb < params.nofSegments) :
    (cbPayload params (tbStream params tb tbCrc) cb).take (cbShare params tb cb).length =
      cbShare params tb cb := by
  have start := cb_mul_le sizes block
  rw [cbPayload, tbStream, List.append_assoc, List.drop_append_of_le_length start,
    List.take_take, Nat.min_eq_left (length_cbShare_le params tb cb)]
  rw [cbShare, List.length_take, List.take_append_of_le_length (Nat.min_le_right _ _),
    ← List.take_eq_take_min]

/-- The CRC of the transport block follows its bits in the last code block. -/
theorem last_block_crc (sizes : SegmentSizes tb.length params)
    (crc : tbCrc.length = params.tbCrcBits) :
    ((cbPayload params (tbStream params tb tbCrc) (params.nofSegments - 1)).drop
      params.cbInfoBitsLast).take params.tbCrcBits = tbCrc := by
  have last := sizes.last
  have whole := sizes.last_block
  rw [cbPayload, List.drop_take, List.drop_drop, whole, List.take_take,
    Nat.min_eq_left (by omega), tbStream, List.append_assoc, List.drop_left, ← crc,
    List.take_left]

variable {cbCrc : Nat → List Bool}

/-- Blocks that start with their payloads start with their shares. -/
theorem BlocksStart.shares (sizes : SegmentSizes tb.length params)
    (starts : BlocksStart params decodedCbs fun cb =>
      cbPayload params (tbStream params tb tbCrc) cb ++ cbCrc cb) :
    BlocksStart params decodedCbs (cbShare params tb) := by
  intro cb block
  obtain ⟨decoded, found, holds⟩ := starts cb block
  refine ⟨decoded, found, ?_⟩
  have share := holds.of_append
  rw [← List.take_append_drop (cbShare params tb cb).length
    (cbPayload params (tbStream params tb tbCrc) cb), take_cbPayload sizes tbCrc block] at share
  exact share.of_append

theorem BlocksStart.behind (sizes : SegmentSizes tb.length params)
    (crc : tbCrc.length = params.tbCrcBits)
    (starts : BlocksStart params decodedCbs fun cb =>
      cbPayload params (tbStream params tb tbCrc) cb ++ cbCrc cb) :
    ∃ decoded, decodedCbs[params.nofSegments - 1]? = some decoded ∧
      HoldsBits decoded params.cbInfoBitsLast tbCrc := by
  have segments := sizes.segments
  obtain ⟨decoded, found, holds⟩ := starts (params.nofSegments - 1) (by omega)
  have slice := holds.of_append.slice params.cbInfoBitsLast params.tbCrcBits
  rw [last_block_crc sizes crc, Nat.zero_add] at slice
  exact ⟨decoded, found, slice⟩

/-- `oi_p2_cb_desegment` on blocks with the right parity bits: the transport block is in place,
and nothing else has changed. -/
theorem oiP2CbDesegment_of_attached (sizes : SegmentSizes tb.length params)
    (tbAttached : CrcAttached (tbCrcPoly tb.length) tb tbCrc)
    (cbAttached : 1 < params.nofSegments → ∀ cb < params.nofSegments,
      CrcAttached .crc24b (cbPayload params (tbStream params tb tbCrc) cb) (cbCrc cb))
    (starts : BlocksStart params decodedCbs fun cb =>
      cbPayload params (tbStream params tb tbCrc) cb ++ cbCrc cb)
    (small : tb.length + computeTbCrcSize tb.length ≤ 8 * scratchBytes)
    {outTbBytes : List (BitVec 8)} (room : tb.length ≤ 8 * outTbBytes.length)
    (scratch : Fin scratchBytes → BitVec 8) :
    ∃ out, oiP2CbDesegment params tb.length decodedCbs outTbBytes scratch = some (.ok, out) ∧
      out.length = outTbBytes.length ∧ HoldsBits out 0 tb ∧
      ∀ j, tb.length ≤ j → getBit out j = getBit outTbBytes j := by
  have crc := tbAttached.length_tbCrc sizes
  have cbsPass : cbCrcsPass params decodedCbs = some true := by
    by_cases several : 1 < params.nofSegments
    · have crcBits : params.nofCrcBits = 24 := by rw [sizes.crc, if_pos several]
      obtain ⟨pass, checked, divides⟩ := cbCrcsPass_spec (by omega) starts fun cb block => by
        rw [List.length_append, sizes.length_cbPayload crc block, (cbAttached several cb block).1,
          crcBits]
        rfl
      rw [checked, divides.mpr fun cb block => (cbAttached several cb block).2]
    · rw [cbCrcsPass, sizes.crc, if_neg several, if_neg (by decide)]
  obtain ⟨status, out, run, length, holds, kept, passes⟩ := oiP2CbDesegment_of_cbsPass sizes
    cbsPass (starts.shares sizes) crc (starts.behind sizes crc) small room scratch
  rw [passes.mpr tbAttached.2] at run
  exact ⟨out, run, length, holds, kept⟩

variable {shape : LdpcShape}

/-- Every decoded code block starts with its payload and its CRC. -/
def RightBlocks (sent : Transmission shape params tb) (decodedCbs : List (List (BitVec 8))) :
    Prop :=
  ∀ cb < params.nofSegments, ∃ decoded, decodedCbs[cb]? = some decoded ∧
    HoldsBits decoded 0
      (cbPayload params (tbStream params tb sent.tbCrc) cb ++ sent.cbCrc cb)

variable {sent : Transmission shape params tb}

/-- `oi_p2_cb_desegment` gives back the transport block from right code blocks. -/
theorem oiP2CbDesegment_ok (sizes : SegmentSizes tb.length params)
    (right : RightBlocks sent decodedCbs)
    (small : tb.length + computeTbCrcSize tb.length ≤ 8 * scratchBytes)
    {outTbBytes : List (BitVec 8)} (room : tb.length ≤ 8 * outTbBytes.length)
    (scratch : Fin scratchBytes → BitVec 8) :
    ∃ out, oiP2CbDesegment params tb.length decodedCbs outTbBytes scratch = some (.ok, out) ∧
      HoldsBits out 0 tb := by
  obtain ⟨out, run, _, holds, _⟩ := oiP2CbDesegment_of_attached sizes sent.tbCrc_attached
    (fun several cb block => sent.cbCrc_attached cb block several) right small room scratch
  exact ⟨out, run, holds⟩

end Decoded

end RanInline.Tail
