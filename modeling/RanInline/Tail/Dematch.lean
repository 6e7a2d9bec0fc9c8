/-
Module: RanInline.Tail.Dematch
Purpose: The kernel k6_rate_dematch for one code block, with every access checked, against
  the rate matching of the transmitter.
Trusted boundary: none
Main exports: oiK6ReadDeinterleaved, k6RateDematch, k6RateDematch_spec, k6RateDematch_agrees
-/
import RanInline.Tail.Transmit

namespace RanInline.Tail

open RanInline.Lib RanInline.Ldpc

/-- `OI_K6_LLR_INFTY`. -/
def oiK6LlrInfty : Int := 127

/-- `oi_k6_read_deinterleaved`.  `none` is a read outside the buffer or a division by
zero. -/
def oiK6ReadDeinterleaved (llrIn : List Int) (base rmLength modulationOrder virtualIdx : Nat) :
    Option Int :=
  if modulationOrder ≤ 1 then llrIn[base + virtualIdx]?
  else
    let k := rmLength / modulationOrder
    if k = 0 then none
    else
      let i := virtualIdx % k
      let j := virtualIdx / k
      llrIn[base + (i * modulationOrder + j)]?

/-- `BG_K` and `lifting_size`, as the kernel derives them from the codeword length. -/
def k6BaseGraph (fullLength : Nat) : Nat × Nat :=
  if fullLength % 66 = 0 then (22, fullLength / 66) else (10, fullLength / 50)

/-- `k6_rate_dematch` for the work item `cb`. -/
def k6RateDematch (cb : Nat) (llrIn : List Int)
    (rmLength fullLength nofFillerBits shiftK0 modulationOrder : Nat) (cbLlrOut : List Int) :
    Option (List Int) := do
  let myIn := cb * rmLength
  let myOut := cb * fullLength
  let bufferLength := fullLength
  let (bgK, liftingSize) := k6BaseGraph fullLength
  let nofSystematicBits := (bgK - 2) * liftingSize
  let nofInfoBits := nofSystematicBits - nofFillerBits
  let out ← (listCells Int).fill cbLlrOut myOut fullLength fun _ => some 0
  let tmpIdx := shiftK0
  let virtualIdx := 0
  let remainingIn := rmLength
  -- systematic region
  let nbitsSystematic := if tmpIdx < nofInfoBits then min (nofInfoBits - tmpIdx) remainingIn else 0
  let out ← (listCells Int).fill out (myOut + tmpIdx) nbitsSystematic fun k =>
    oiK6ReadDeinterleaved llrIn myIn rmLength modulationOrder (virtualIdx + k)
  let tmpIdx := tmpIdx + nbitsSystematic
  let virtualIdx := virtualIdx + nbitsSystematic
  let remainingIn := remainingIn - nbitsSystematic
  -- filler bits
  let out ← (listCells Int).fill out (myOut + nofInfoBits) nofFillerBits fun _ =>
    some oiK6LlrInfty
  let tmpIdx := if tmpIdx < nofSystematicBits then nofSystematicBits else tmpIdx
  -- parity region
  let nbitsParity := min (bufferLength - tmpIdx) remainingIn
  (listCells Int).fill out (myOut + tmpIdx) nbitsParity fun k =>
    oiK6ReadDeinterleaved llrIn myIn rmLength modulationOrder (virtualIdx + k)

/-! ### What the kernel writes -/

/-- The LLRs behind the first two columns: the received ones, the infinite ones of the
filler, and zeros where nothing was sent. -/
def dematched (nofInfoBits nofFillerBits rmLength : Nat) (received : Nat → Int) (k : Nat) : Int :=
  if k < nofInfoBits then if k < rmLength then received k else 0
  else if k < nofInfoBits + nofFillerBits then oiK6LlrInfty
  else if k - nofFillerBits < rmLength then received (k - nofFillerBits) else 0

theorem k6RateDematch_spec {llrIn cbLlrOut : List Int}
    {rmLength fullLength nofFillerBits modulationOrder nofInfoBits : Nat} (received : Nat → Int)
    (systematic : ((k6BaseGraph fullLength).1 - 2) * (k6BaseGraph fullLength).2 =
      nofInfoBits + nofFillerBits)
    (within : nofInfoBits + nofFillerBits ≤ fullLength)
    (fits : rmLength ≤ fullLength - nofFillerBits) (length : cbLlrOut.length = fullLength)
    (reads : ∀ v < rmLength,
      oiK6ReadDeinterleaved llrIn 0 rmLength modulationOrder v = some (received v)) :
    ∃ out, k6RateDematch 0 llrIn rmLength fullLength nofFillerBits 0 modulationOrder cbLlrOut =
        some out ∧ out.length = fullLength ∧
      ∀ k < fullLength,
        out[k]? = some (dematched nofInfoBits nofFillerBits rmLength received k) := by
  have info : nofInfoBits + nofFillerBits - nofFillerBits = nofInfoBits :=
    Nat.add_sub_cancel _ _
  -- the four loops, one after the other
  obtain ⟨cleared, clear, clearedLength, clearedCells⟩ :=
    fill_listCells fullLength (fun _ => some 0) (fun _ => 0)
      (show 0 + fullLength ≤ cbLlrOut.length by omega) (fun _ _ => rfl)
  obtain ⟨first, systematicLoop, firstLength, firstCells⟩ :=
    fill_listCells (min nofInfoBits rmLength)
      (fun k => oiK6ReadDeinterleaved llrIn 0 rmLength modulationOrder (0 + k)) received
      (show 0 + min nofInfoBits rmLength ≤ cleared.length by omega)
      (fun k less => by rw [Nat.zero_add, reads k (by omega)])
  obtain ⟨second, fillerLoop, secondLength, secondCells⟩ :=
    fill_listCells nofFillerBits (fun _ => some oiK6LlrInfty) (fun _ => oiK6LlrInfty)
      (show nofInfoBits + nofFillerBits ≤ first.length by omega) (fun _ _ => rfl)
  obtain ⟨out, parityLoop, outLength, outCells⟩ :=
    fill_listCells (rmLength - min nofInfoBits rmLength)
      (fun k => oiK6ReadDeinterleaved llrIn 0 rmLength modulationOrder
        (min nofInfoBits rmLength + k))
      (fun k => received (min nofInfoBits rmLength + k))
      (show nofInfoBits + nofFillerBits + (rmLength - min nofInfoBits rmLength) ≤
        second.length by omega)
      (fun k less => reads _ (by omega))
  refine ⟨out, ?_, by omega, fun k inside => ?_⟩
  · have taken : (if 0 < nofInfoBits then min nofInfoBits rmLength else 0) =
        min nofInfoBits rmLength := by
      split_ifs <;> omega
    have behind : (if min nofInfoBits rmLength < nofInfoBits + nofFillerBits then
        nofInfoBits + nofFillerBits else min nofInfoBits rmLength) =
        nofInfoBits + nofFillerBits := by
      split_ifs <;> omega
    have rest : min (fullLength - (nofInfoBits + nofFillerBits))
        (rmLength - min nofInfoBits rmLength) = rmLength - min nofInfoBits rmLength := by
      omega
    simp only [Nat.zero_add] at systematicLoop
    simp only [k6RateDematch, systematic, info, Nat.zero_mul, Nat.zero_add, Nat.sub_zero, taken,
      behind, rest, clear, systematicLoop, fillerLoop, parityLoop, Option.bind_eq_bind,
      Option.bind_some]
  · rw [outCells, secondCells, firstCells, clearedCells, dematched]
    by_cases early : k < nofInfoBits
    · rw [if_neg (by omega), if_neg (by omega), if_pos early]
      split_ifs <;> first | omega | rfl
    · by_cases filler : k < nofInfoBits + nofFillerBits
      · rw [if_neg (by omega), if_pos (by omega), if_neg early, if_pos filler]
      · rw [if_neg early, if_neg filler]
        by_cases sent : k - nofFillerBits < rmLength
        · have back : min nofInfoBits rmLength + (k - (nofInfoBits + nofFillerBits)) =
              k - nofFillerBits := by omega
          rw [if_pos (by omega), if_pos sent, back]
        · rw [if_neg (by omega), if_neg (by omega), if_neg (by omega), if_pos (by omega),
            if_neg sent]

/-! ### Against the transmitter -/

theorem LlrOf.softRange {bit : Bool} {llr : Int} (right : LlrOf bit llr) : SoftRange llr := by
  cases bit <;> simp [LlrOf] at right <;> exact .inl (by omega)

theorem LlrOf.agrees {bit : Bool} {llr : Int} (right : LlrOf bit llr) : Agrees bit llr := by
  cases bit <;> simp [LlrOf] at right <;> simp <;> omega

theorem LlrOf.ne_zero {bit : Bool} {llr : Int} (right : LlrOf bit llr) : llr ≠ 0 := by
  cases bit <;> simp [LlrOf] at right <;> omega

theorem agrees_zero (bit : Bool) : SoftRange 0 ∧ Agrees bit 0 := by
  cases bit <;> decide

theorem oiK6ReadDeinterleaved_eq (llrIn : List Int) {columns qm v : Nat} (order : 1 ≤ qm)
    (inside : v < columns * qm) :
    oiK6ReadDeinterleaved llrIn 0 (columns * qm) qm v =
      llrIn[v % columns * qm + v / columns]? := by
  have width : columns * qm / qm = columns := Nat.mul_div_cancel columns order
  have positive : columns ≠ 0 := by
    rintro rfl
    rw [Nat.zero_mul] at inside
    exact absurd inside (Nat.not_lt_zero v)
  by_cases one : qm ≤ 1
  · obtain rfl : qm = 1 := by omega
    rw [Nat.mul_one] at inside
    rw [oiK6ReadDeinterleaved, if_pos one, Nat.mod_eq_of_lt inside, Nat.div_eq_of_lt inside,
      Nat.mul_one, Nat.zero_add, Nat.add_zero]
  · simp only [oiK6ReadDeinterleaved, if_neg one, width, if_neg positive, Nat.zero_add]

theorem k6BaseGraph_eq (baseGraph : BaseGraph) {z : Nat} (allowed : z % 33 ≠ 0) :
    k6BaseGraph (baseGraph.nShort * z) = (baseGraph.nVnInfo, z) := by
  cases baseGraph with
  | bg1 =>
      have whole : 66 * z % 66 = 0 := Nat.mul_mod_right 66 z
      have size : 66 * z / 66 = z := Nat.mul_div_cancel_left z (by decide)
      simp only [k6BaseGraph, BaseGraph.nShort, BaseGraph.nVnInfo, whole, if_true, size]
  | bg2 =>
      have part : ¬ 50 * z % 66 = 0 := by omega
      have size : 50 * z / 50 = z := Nat.mul_div_cancel_left z (by decide)
      simp only [k6BaseGraph, BaseGraph.nShort, BaseGraph.nVnInfo, part, if_false, size]

section Sent

variable {shape : LdpcShape} {params : OiP2CbSegmentParams} {tb : List Bool}
  {nofSymbols qm cb : Nat}

/-- The buffer has an LLR of the right sign for every bit. -/
def Carries (bits : List Bool) (llrs : List Int) : Prop :=
  ∀ (n : Nat) (bit : Bool), bits[n]? = some bit → ∃ llr, llrs[n]? = some llr ∧ LlrOf bit llr

/-- The codeword bit behind the first two columns. -/
def Transmission.sendableBit (sent : Transmission shape params tb) (cb k : Nat) : Bool :=
  sent.codeword cb ((2 * params.liftingSize + k) / params.liftingSize)
    ((2 * params.liftingSize + k) % params.liftingSize)

theorem selectedPlace_lt (sizes : SegmentSizes tb.length params) {rmLength v : Nat}
    (fits : rmLength ≤ params.codewordLength - params.nofFillerBits) (inside : v < rmLength) :
    2 * params.liftingSize + selectedPlace params v <
      params.baseGraph.nVnFull * params.liftingSize := by
  have columns := nVnFull_mul params.baseGraph params.liftingSize
  have codewordLength := sizes.codeword
  rw [selectedPlace]
  split_ifs <;> omega

/-- The LLR that the kernel reads for a selected bit belongs to its place in the codeword. -/
theorem llrOf_read (sizes : SegmentSizes tb.length params) (sent : Transmission shape params tb)
    {llrIn : List Int} {columns v : Nat}
    (rm : oiP2ComputeRmLength nofSymbols params.nofSegments qm cb = columns * qm)
    (fits : columns * qm ≤ params.codewordLength - params.nofFillerBits)
    (carries : Carries (sent.cbBits nofSymbols qm cb) llrIn) (inside : v < columns * qm) :
    ∃ llr, llrIn[v % columns * qm + v / columns]? = some llr ∧
      LlrOf (sent.sendableBit cb (selectedPlace params v)) llr := by
  have length := length_selectBits sizes (sent.length_codewordBits cb) fits
  apply carries
  rw [Transmission.cbBits, rm, getElem?_interleave length (by omega),
    getElem?_selectBits sizes (sent.length_codewordBits cb) inside,
    sent.getElem?_codewordBits (selectedPlace_lt sizes fits inside)]
  rfl

/-- The filler is sent as zeros. -/
theorem sendableBit_filler (sizes : SegmentSizes tb.length params)
    (sent : Transmission shape params tb) (block : cb < params.nofSegments) {k : Nat}
    (behind : params.cbInfoBits + params.nofCrcBits ≤ 2 * params.liftingSize + k)
    (inside : 2 * params.liftingSize + k < params.segmentLength) :
    sent.sendableBit cb k = false := by
  have payload := sent.length_cbPayload sizes block
  have crc := sent.length_cbCrc sizes block
  have layout := sizes.layout
  have bit := sent.systematic cb block _ inside
  rw [List.getElem?_append_right (by rw [List.length_append]; omega),
    List.getElem?_replicate_of_lt (by rw [List.length_append]; omega)] at bit
  exact Option.some.inj bit

/-- The kernel writes an LLR for the place: a received one, or that of a filler bit. -/
def IsReceived (params : OiP2CbSegmentParams) (rmLength k : Nat) : Prop :=
  if k < params.cbInfoBits + params.nofCrcBits - 2 * params.liftingSize then k < rmLength
  else k < params.cbInfoBits + params.nofCrcBits - 2 * params.liftingSize + params.nofFillerBits ∨
    k - params.nofFillerBits < rmLength

instance (params : OiP2CbSegmentParams) (rmLength k : Nat) :
    Decidable (IsReceived params rmLength k) :=
  inferInstanceAs (Decidable
    (if k < params.cbInfoBits + params.nofCrcBits - 2 * params.liftingSize then k < rmLength
      else _ ∨ _))

/-- Without noise the kernel leaves LLRs that do not contradict the codeword, and zeros only
where it wrote none. -/
theorem k6RateDematch_agrees (sizes : SegmentSizes tb.length params)
    (sent : Transmission shape params tb) (order : 1 ≤ qm) (block : cb < params.nofSegments)
    (fits : oiP2ComputeRmLength nofSymbols params.nofSegments qm cb ≤
      params.codewordLength - params.nofFillerBits) {llrIn cbLlrOut : List Int}
    (carries : Carries (sent.cbBits nofSymbols qm cb) llrIn)
    (length : cbLlrOut.length = params.codewordLength) :
    ∃ out, k6RateDematch 0 llrIn (oiP2ComputeRmLength nofSymbols params.nofSegments qm cb)
          params.codewordLength params.nofFillerBits 0 qm cbLlrOut = some out ∧
      out.length = params.codewordLength ∧
      ∀ k < params.codewordLength, ∃ llr, out[k]? = some llr ∧
        (SoftRange llr ∧ Agrees (sent.sendableBit cb k) llr) ∧
        (IsReceived params (oiP2ComputeRmLength nofSymbols params.nofSegments qm cb) k →
          llr ≠ 0) := by
  obtain ⟨columns, rm⟩ : ∃ columns,
      oiP2ComputeRmLength nofSymbols params.nofSegments qm cb = columns * qm := ⟨_, rfl⟩
  rw [rm] at fits ⊢
  have layout := sizes.layout
  have punctured := sizes.punctured
  obtain ⟨_, _, allowed, _⟩ := kLiftingSizes_facts _ sizes.lifting
  have graph := k6BaseGraph_eq params.baseGraph allowed
  rw [← sizes.codeword] at graph
  have systematic : ((k6BaseGraph params.codewordLength).1 - 2) *
      (k6BaseGraph params.codewordLength).2 =
      params.cbInfoBits + params.nofCrcBits - 2 * params.liftingSize + params.nofFillerBits := by
    rw [graph, Nat.sub_mul, ← sizes.segment]
    omega
  have within := sizes.segment_le
  have columnsFull := nVnFull_mul params.baseGraph params.liftingSize
  have codewordLength := sizes.codeword
  have received (v : Nat) (inside : v < columns * qm) :=
    llrOf_read sizes sent rm fits carries inside
  obtain ⟨out, run, outLength, cells⟩ :=
    k6RateDematch_spec (fun v => llrIn.getD (v % columns * qm + v / columns) 0) systematic
      (by omega) fits length (fun v inside => by
        obtain ⟨llr, found, _⟩ := received v inside
        rw [oiK6ReadDeinterleaved_eq llrIn order inside, List.getD_eq_getElem?_getD, found]
        rfl)
  refine ⟨out, run, outLength, fun k inside => ⟨_, cells k inside, ?_⟩⟩
  have sound (v : Nat) (sentBit : v < columns * qm) (place : selectedPlace params v = k) :
      LlrOf (sent.sendableBit cb k) (llrIn.getD (v % columns * qm + v / columns) 0) := by
    obtain ⟨llr, found, right⟩ := received v sentBit
    rw [List.getD_eq_getElem?_getD, found, Option.getD_some]
    rwa [place] at right
  rw [dematched, IsReceived]
  split_ifs with early sentEarly filler sentLate
  · have right := sound k sentEarly (if_pos early)
    exact ⟨⟨right.softRange, right.agrees⟩, fun _ => right.ne_zero⟩
  · exact ⟨agrees_zero _, fun sentEarly' => absurd sentEarly' sentEarly⟩
  · rw [sendableBit_filler sizes sent block (by omega) (by omega)]
    exact ⟨by decide, fun _ => by decide⟩
  · have right := sound (k - params.nofFillerBits) sentLate (by
      rw [selectedPlace, if_neg (by omega)]
      omega)
    exact ⟨⟨right.softRange, right.agrees⟩, fun _ => right.ne_zero⟩
  · exact ⟨agrees_zero _, fun known => absurd known (not_or.mpr ⟨filler, sentLate⟩)⟩

end Sent

end RanInline.Tail
