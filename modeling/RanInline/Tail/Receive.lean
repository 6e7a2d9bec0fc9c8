/-
Module: RanInline.Tail.Receive
Purpose: The receive tail of oi_p2_drain without noise: descrambling, the code blocks through
  rate dematching and oi_p2_ldpc_decode_cb, and the desegmentation.
Trusted boundary: none
Main exports: ldpcDecodeCb, decodedCb, TailInputs, tailTurn, tailKernels, receiveTail,
  receive_tail_without_noise
-/
import RanInline.Ldpc.Erasure
import RanInline.Tail.Dematch
import RanInline.Tail.Desegment

namespace RanInline.Tail

open RanInline.Lib RanInline.Ldpc RanInline.Phy

/-! ### One code block -/

/-- `llr_full`: two columns of zeros, then the LLRs of the rate dematcher. -/
def llrFull (bg : BaseGraph) (z : Nat) (cbLlr : List Int) : Option (List Int) :=
  (listCells Int).fill (List.replicate (bg.nVnFull * z) 0) (2 * z) (bg.nShort * z) (cbLlr[·]?)

/-- The memory of the kernel before it runs: the buffers for the messages and the output are
zeroed, the private arrays hold anything. -/
def preparedMemory (privateArrays : LdpcMemory) : LdpcMemory :=
  { privateArrays with
    c2v := fun _ _ _ => 0
    out := fun _ => 0 }

/-- `oi_p2_ldpc_decode_cb` up to the end of the kernel, for the table of shifts by set of
lifting sizes.  `none` is an access outside an array, `some none` the error return. -/
def ldpcDecodeCb (shiftsTable : Nat → Nat → Nat → Nat) (bg : BaseGraph) (z nIter : Nat)
    (privateArrays : LdpcMemory) (cbLlr : List Int) : Option (Option LdpcMemory) := do
  let lsIdx ← lsToIdx[z]?
  if lsIdx = 255 then return none
  else if fits : z ≤ maxLs then do
    let llr ← llrFull bg z cbLlr
    let final ← ldpcDecode (bg.shape z fits (shiftsTable lsIdx))
      (fun vn zi => llr.getD (vn * z + zi) 0) nIter (preparedMemory privateArrays)
    return some final
  else none

/-- `decoded_cbs[cb]`: the output buffer as it is read back, or the zeros it starts with. -/
def decodedCb (bg : BaseGraph) (z : Nat) : Option LdpcMemory → List (BitVec 8)
  | some final => (List.range ((bg.nVnInfo * z + 7) / 8)).map final.out
  | none => List.replicate ((bg.nVnInfo * z + 7) / 8) 0#8

/-! ### The tail -/

/-- The part of a host buffer that is copied to a device buffer. -/
def slice (host : List Int) (offset count : Nat) : Option (List Int) :=
  if offset + count ≤ host.length then some ((host.drop offset).take count) else none

/-- What the tail works on: the transport block size and the base graph of the MCS, the
demapped LLRs with their number of symbols and bits in a symbol, the tables and the number
of iterations of the decoder, and the memory that is not initialised. -/
structure TailInputs where
  tbsBits : Nat
  baseGraph : BaseGraph
  nofSymbols : Nat
  qm : Nat
  cInit : BitVec 32
  llr : Nat → Int
  shiftsTable : Nat → Nat → Nat → Nat
  nIter : Nat
  privateMemory : Nat → LdpcMemory
  tbBytesBuf : Fin scratchBytes → BitVec 8
  scratch : Fin scratchBytes → BitVec 8

namespace TailInputs

/-- `seg`. -/
def seg (inputs : TailInputs) : OiP2CbSegmentParams :=
  oiP2CbSegmentCompute inputs.tbsBits inputs.baseGraph

/-- `rm_length` of a code block. -/
def rmLength (inputs : TailInputs) (cb : Nat) : Nat :=
  oiP2ComputeRmLength inputs.nofSymbols inputs.seg.nofSegments inputs.qm cb

/-- `llr_host`: the LLRs behind the descrambler. -/
def llrHost (inputs : TailInputs) : List Int :=
  let totalLlrBytes := inputs.nofSymbols * inputs.qm
  (List.range totalLlrBytes).map (k5Descramble 0 inputs.llr inputs.cInit totalLlrBytes)

end TailInputs

/-- One turn of the loop over the code blocks: what the decoder left for each of them, and
`cw_offset`. -/
def tailTurn (inputs : TailInputs) (progress : List (Option LdpcMemory) × Nat) (cb : Nat) :
    Option (List (Option LdpcMemory) × Nat) := do
  let seg := inputs.seg
  let (results, cwOffset) := progress
  let rmLength := inputs.rmLength cb
  let inBuf ← slice inputs.llrHost cwOffset rmLength
  let cbLlr ← k6RateDematch 0 inBuf rmLength seg.codewordLength seg.nofFillerBits 0 inputs.qm
    (List.replicate seg.codewordLength 0)
  let result ← ldpcDecodeCb inputs.shiftsTable seg.baseGraph seg.liftingSize inputs.nIter
    (inputs.privateMemory cb) cbLlr
  return (results ++ [result], cwOffset + rmLength)

/-- The loop over the code blocks. -/
def tailKernels (inputs : TailInputs) : Option (List (Option LdpcMemory)) :=
  ((List.range inputs.seg.nofSegments).foldlM (tailTurn inputs) ([], 0)).map (·.1)

/-- The tail of `oi_p2_drain`: the status of the desegmentation and the buffer for the
transport block. -/
def receiveTail (inputs : TailInputs) : Option (OiP2DesegStatus × List (BitVec 8)) := do
  let seg := inputs.seg
  let results ← tailKernels inputs
  let ldpcOk := results.all (·.isSome)
  let decodedCbs := results.map (decodedCb seg.baseGraph seg.liftingSize)
  if ldpcOk then
    oiP2CbDesegment seg inputs.tbsBits decodedCbs (List.ofFn inputs.tbBytesBuf) inputs.scratch
  else return (.errTbCrc, List.ofFn inputs.tbBytesBuf)

/-! ### One code block without noise -/

section Block

variable {bg : BaseGraph} {z : Nat} {cbLlr : List Int}

theorem llrFull_spec (length : cbLlr.length = bg.nShort * z) :
    ∃ full, llrFull bg z cbLlr = some full ∧
      ∀ n : Nat, n < bg.nVnFull * z →
        full[n]? = some (if n < 2 * z then 0 else cbLlr.getD (n - 2 * z) 0) := by
  have columns := nVnFull_mul bg z
  obtain ⟨full, filled, _, cells⟩ :=
    fill_listCells (bg.nShort * z) (cbLlr[·]?) (cbLlr.getD · 0)
      (show 2 * z + bg.nShort * z ≤ (List.replicate (bg.nVnFull * z) (0 : Int)).length by
        rw [List.length_replicate]
        omega)
      (fun k less => by
        rw [List.getD_eq_getElem?_getD, List.getElem?_eq_getElem (by omega), Option.getD_some])
  refine ⟨full, filled, fun n inside => ?_⟩
  rw [cells]
  by_cases column : n < 2 * z
  · rw [if_neg (by omega), if_pos column, List.getElem?_replicate_of_lt inside]
  · rw [if_pos (by omega), if_neg column]

variable {params : OiP2CbSegmentParams} {tb : List Bool} {shape : LdpcShape} {cb : Nat}

/-- The padded LLRs of a code block do not contradict its codeword, and are zero only in the
first two columns and where the dematcher left a zero. -/
theorem channelAgrees_of_dematched (sent : Transmission shape params tb)
    (nodes : shape.nVnFull = params.baseGraph.nVnFull) (ls : shape.ls = params.liftingSize)
    (length : cbLlr.length = params.baseGraph.nShort * params.liftingSize) {known : Nat → Prop}
    (right : ∀ k < params.baseGraph.nShort * params.liftingSize, ∃ llr, cbLlr[k]? = some llr ∧
      (SoftRange llr ∧ Agrees (sent.sendableBit cb k) llr) ∧ (known k → llr ≠ 0)) :
    ∃ full, llrFull params.baseGraph params.liftingSize cbLlr = some full ∧
      ChannelAgrees shape (sent.codeword cb)
        (fun vn zi => full.getD (vn * params.liftingSize + zi) 0) ∧
      ∀ vn < shape.nVnFull, ∀ zi < shape.ls, 2 ≤ vn →
        known ((vn - 2) * params.liftingSize + zi) →
        full.getD (vn * params.liftingSize + zi) 0 ≠ 0 := by
  have columns := nVnFull_mul params.baseGraph params.liftingSize
  obtain ⟨full, padded, cells⟩ := llrFull_spec length
  have sound : ∀ vn < shape.nVnFull, ∀ zi < shape.ls,
      (SoftRange (full.getD (vn * params.liftingSize + zi) 0) ∧
        Agrees (sent.codeword cb vn zi) (full.getD (vn * params.liftingSize + zi) 0)) ∧
      (2 ≤ vn → known ((vn - 2) * params.liftingSize + zi) →
        full.getD (vn * params.liftingSize + zi) 0 ≠ 0) := by
    intro vn node zi position
    rw [nodes] at node
    rw [ls] at position
    have inside := flat_lt node position
    obtain ⟨row, column⟩ := flat_div_mod vn position
    rw [List.getD_eq_getElem?_getD, cells _ inside, Option.getD_some]
    split_ifs with punctured
    · refine ⟨agrees_zero _, fun behind => ?_⟩
      have := Nat.mul_le_mul_right params.liftingSize behind
      omega
    · obtain ⟨llr, found, ⟨range, agrees⟩, informed⟩ :=
        right (vn * params.liftingSize + zi - 2 * params.liftingSize) (by omega)
      have place : 2 * params.liftingSize +
          (vn * params.liftingSize + zi - 2 * params.liftingSize) =
          vn * params.liftingSize + zi := by omega
      rw [Transmission.sendableBit, place, row, column] at agrees
      rw [List.getD_eq_getElem?_getD, found, Option.getD_some]
      refine ⟨⟨range, agrees⟩, fun behind received => informed ?_⟩
      have start := Nat.mul_le_mul_right params.liftingSize behind
      rwa [Nat.sub_mul, ← Nat.sub_add_comm start] at received
  exact ⟨full, padded, ⟨fun vn node zi position => (sound vn node zi position).1.1,
    fun vn node zi position => (sound vn node zi position).1.2⟩,
    fun vn node zi position => (sound vn node zi position).2⟩

end Block

/-! ### The whole tail without noise -/

/-- The row of the shift table for the lifting size. -/
def TailInputs.shifts (inputs : TailInputs) : Nat → Nat → Nat :=
  inputs.shiftsTable (lsToIdx.getD inputs.seg.liftingSize 255)

/-- The shape of the code that the decoder is run with. -/
def TailInputs.shape (inputs : TailInputs) : LdpcShape :=
  inputs.baseGraph.shape inputs.seg.liftingSize
    (liftingSize_le inputs.tbsBits inputs.baseGraph) inputs.shifts

section Noiseless

variable {inputs : TailInputs} {tb : List Bool}

/-- The decoder is given an LLR for the position: one of the received ones, or that of a filler
bit. -/
def TailInputs.Known (inputs : TailInputs) (cb vn j : Nat) : Prop :=
  2 ≤ vn ∧ IsReceived inputs.seg (inputs.rmLength cb) ((vn - 2) * inputs.seg.liftingSize + j)

instance (inputs : TailInputs) (cb vn j : Nat) : Decidable (inputs.Known cb vn j) :=
  inferInstanceAs (Decidable (_ ∧ _))

/-- What the decoder leaves for a code block: no soft value contradicts the codeword, the
output bits are the signs, and what one iteration recovers is known. -/
structure BlockDone (sent : Transmission inputs.shape inputs.seg tb) (cb : Nat)
    (final : LdpcMemory) : Prop where
  agrees : ∀ vn < inputs.baseGraph.nVnFull, ∀ j < inputs.seg.liftingSize,
    Agrees (sent.codeword cb vn j) (final.soft vn j)
  output : ∀ vn < inputs.baseGraph.nVnInfo, ∀ j < inputs.seg.liftingSize,
    outputBit final (vn * inputs.seg.liftingSize + j) = decide (final.soft vn j < 0)
  recovered : 0 < inputs.nIter → ∀ vn < inputs.baseGraph.nVnFull, ∀ j < inputs.seg.liftingSize,
    Recovered inputs.shape (inputs.Known cb) vn j → final.soft vn j ≠ 0

theorem ldpcDecodeCb_done (sizes : SegmentSizes tb.length inputs.seg)
    (table : LiftedTable inputs.baseGraph inputs.seg.liftingSize inputs.shifts)
    (sent : Transmission inputs.shape inputs.seg tb) {cb : Nat}
    (block : cb < inputs.seg.nofSegments) {cbLlr : List Int}
    (length : cbLlr.length = inputs.seg.codewordLength)
    (right : ∀ k < inputs.seg.codewordLength, ∃ llr, cbLlr[k]? = some llr ∧
      (SoftRange llr ∧ Agrees (sent.sendableBit cb k) llr) ∧
      (IsReceived inputs.seg (inputs.rmLength cb) k → llr ≠ 0)) (privateArrays : LdpcMemory) :
    ∃ final, ldpcDecodeCb inputs.shiftsTable inputs.seg.baseGraph inputs.seg.liftingSize
        inputs.nIter privateArrays cbLlr = some (some final) ∧ BlockDone sent cb final := by
  rw [sizes.codeword] at length right
  obtain ⟨full, padded, channel, informed⟩ :=
    channelAgrees_of_dematched sent rfl rfl length right
  have regular : Regular inputs.shape :=
    table.regular (liftingSize_le inputs.tbsBits inputs.baseGraph)
  have zeroed : Zeroed inputs.shape (preparedMemory privateArrays) := fun _ _ _ _ _ _ => rfl
  obtain ⟨final, decoded, allAgree, bits⟩ :=
    (kernelRun_agrees regular (sent.isCodeword cb block) channel inputs.nIter zeroed).output
  have recovers : 0 < inputs.nIter → ∀ vn < inputs.baseGraph.nVnFull,
      ∀ j < inputs.seg.liftingSize, Recovered inputs.shape (inputs.Known cb) vn j →
        final.soft vn j ≠ 0 := by
    intro turn vn node j position recovered
    refine ldpcDecode_recovers regular (sent.isCodeword cb block) channel turn zeroed decoded node
      position (recovered.mono node position fun vn node j position known => ?_)
    exact informed vn node j position known.1 known.2
  refine ⟨final, ?_, allAgree.1, bits, recovers⟩
  obtain ⟨_, _, _, accepted, _⟩ := kLiftingSizes_facts _ sizes.lifting
  cases found : lsToIdx[inputs.seg.liftingSize]? with
  | none =>
      rw [List.getD_eq_getElem?_getD, found] at accepted
      exact absurd rfl accepted
  | some lsIdx =>
      have set : lsToIdx.getD inputs.seg.liftingSize 255 = lsIdx := by
        rw [List.getD_eq_getElem?_getD, found, Option.getD_some]
      rw [set] at accepted
      have run : ldpcDecode (inputs.seg.baseGraph.shape inputs.seg.liftingSize
            (liftingSize_le inputs.tbsBits inputs.baseGraph) (inputs.shiftsTable lsIdx))
          (fun vn zi => full.getD (vn * inputs.seg.liftingSize + zi) 0) inputs.nIter
          (preparedMemory privateArrays) = some final := by
        rw [← set]
        exact decoded
      have fits := liftingSize_le inputs.tbsBits inputs.baseGraph
      simp only [ldpcDecodeCb, found, Option.bind_eq_bind, Option.bind_some, if_neg accepted,
        dif_pos (show inputs.seg.liftingSize ≤ maxLs from fits), padded, run]
      rfl

/-- No bit is sent twice, and every LLR has the sign of the bit on the air. -/
structure Noiseless (sent : Transmission inputs.shape inputs.seg tb) : Prop where
  fits : ∀ cb < inputs.seg.nofSegments,
    inputs.rmLength cb ≤ inputs.seg.codewordLength - inputs.seg.nofFillerBits
  received : ∀ (n : Nat) (bit : Bool),
    (sent.scrambledBits inputs.nofSymbols inputs.qm inputs.cInit)[n]? = some bit →
      LlrOf bit (inputs.llr n)

/-- The LLRs of a code block are its part of the descrambled ones. -/
theorem Noiseless.slice_carries {sent : Transmission inputs.shape inputs.seg tb}
    (noiseless : Noiseless sent) (sizes : SegmentSizes tb.length inputs.seg) {cb : Nat}
    (block : cb < inputs.seg.nofSegments) :
    ∃ inBuf, slice inputs.llrHost
        (Transmission.offset inputs.seg inputs.nofSymbols inputs.qm cb) (inputs.rmLength cb) =
          some inBuf ∧
      Carries (sent.cbBits inputs.nofSymbols inputs.qm cb) inBuf := by
  have length := sent.length_cbBits sizes (noiseless.fits cb block)
  have total := sum_rmLength inputs.nofSymbols inputs.qm sizes.segments
  have host : inputs.llrHost.length = inputs.nofSymbols * inputs.qm := by
    simp [TailInputs.llrHost]
  have within : Transmission.offset inputs.seg inputs.nofSymbols inputs.qm cb +
      inputs.rmLength cb ≤ inputs.nofSymbols * inputs.qm := by
    have partSum := Finset.sum_le_sum_of_subset
      (f := oiP2ComputeRmLength inputs.nofSymbols inputs.seg.nofSegments inputs.qm)
      (Finset.range_subset_range.mpr (show cb + 1 ≤ inputs.seg.nofSegments from block))
    rw [Finset.sum_range_succ, total] at partSum
    exact partSum
  refine ⟨_, if_pos (by omega), fun n bit found => ?_⟩
  have inside : n < inputs.rmLength cb := by
    have bound := (List.getElem?_eq_some_iff.mp found).1
    rwa [length] at bound
  have scrambled : (sent.scrambledBits inputs.nofSymbols inputs.qm inputs.cInit)[
      Transmission.offset inputs.seg inputs.nofSymbols inputs.qm cb + n]? =
      some (xor bit (goldBit inputs.cInit
        (Transmission.offset inputs.seg inputs.nofSymbols inputs.qm cb + n))) := by
    rw [Transmission.scrambledBits, List.getElem?_mapIdx,
      sent.getElem?_sentBits sizes noiseless.fits block inside, found, Option.map_some]
  have right := (noiseless.received _ _ scrambled).descramble
  refine ⟨_, ?_, right⟩
  rw [List.getElem?_take, if_pos inside, List.getElem?_drop, TailInputs.llrHost,
    List.getElem?_map, List.getElem?_range (by omega), Option.map_some, k5Descramble_apply]
  have here : Transmission.offset inputs.seg inputs.nofSymbols inputs.qm cb + n <
      inputs.nofSymbols * inputs.qm := by omega
  simp [here]

/-- One turn decodes its code block. -/
theorem Noiseless.tailTurn_done {sent : Transmission inputs.shape inputs.seg tb}
    (noiseless : Noiseless sent) (sizes : SegmentSizes tb.length inputs.seg)
    (table : LiftedTable inputs.baseGraph inputs.seg.liftingSize inputs.shifts)
    (order : 1 ≤ inputs.qm) {cb : Nat} (block : cb < inputs.seg.nofSegments)
    (results : List (Option LdpcMemory)) :
    ∃ final, tailTurn inputs
        (results, Transmission.offset inputs.seg inputs.nofSymbols inputs.qm cb) cb =
          some (results ++ [some final],
            Transmission.offset inputs.seg inputs.nofSymbols inputs.qm (cb + 1)) ∧
      BlockDone sent cb final := by
  obtain ⟨inBuf, cut, carries⟩ := noiseless.slice_carries sizes block
  obtain ⟨cbLlr, dematched, length, right⟩ := k6RateDematch_agrees sizes sent order block
    (noiseless.fits cb block) carries List.length_replicate
  obtain ⟨final, decoded, done⟩ := ldpcDecodeCb_done sizes table sent block length right
    (inputs.privateMemory cb)
  have next : Transmission.offset inputs.seg inputs.nofSymbols inputs.qm (cb + 1) =
      Transmission.offset inputs.seg inputs.nofSymbols inputs.qm cb + inputs.rmLength cb :=
    Finset.sum_range_succ _ cb
  refine ⟨final, ?_, done⟩
  simp only [tailTurn, cut, Option.bind_eq_bind, Option.bind_some]
  rw [show k6RateDematch 0 inBuf (inputs.rmLength cb) _ _ 0 _ _ = some cbLlr from dematched, next]
  simp only [Option.bind_some, decoded]
  rfl

/-- The loop leaves every code block decoded. -/
theorem Noiseless.tailKernels_done {sent : Transmission inputs.shape inputs.seg tb}
    (noiseless : Noiseless sent) (sizes : SegmentSizes tb.length inputs.seg)
    (table : LiftedTable inputs.baseGraph inputs.seg.liftingSize inputs.shifts)
    (order : 1 ≤ inputs.qm) :
    ∃ finals : List LdpcMemory, tailKernels inputs = some (finals.map some) ∧
      finals.length = inputs.seg.nofSegments ∧
      ∀ (cb : Nat) (final : LdpcMemory), finals[cb]? = some final → BlockDone sent cb final := by
  have loop : ∃ progress, (List.range inputs.seg.nofSegments).foldlM (tailTurn inputs) ([], 0) =
      some progress ∧ ∃ finals : List LdpcMemory,
        progress = (finals.map some,
          Transmission.offset inputs.seg inputs.nofSymbols inputs.qm inputs.seg.nofSegments) ∧
        finals.length = inputs.seg.nofSegments ∧
        ∀ (cb : Nat) (final : LdpcMemory), finals[cb]? = some final →
          BlockDone sent cb final := by
    apply foldlM_range_invariant fun n (progress : List (Option LdpcMemory) × Nat) =>
      ∃ finals : List LdpcMemory,
        progress = (finals.map some,
          Transmission.offset inputs.seg inputs.nofSymbols inputs.qm n) ∧
        finals.length = n ∧
        ∀ (cb : Nat) (final : LdpcMemory), finals[cb]? = some final → BlockDone sent cb final
    · exact ⟨[], rfl, rfl, fun _ _ found => by simp at found⟩
    · rintro n block _ ⟨finals, rfl, length, done⟩
      obtain ⟨final, turn, finished⟩ :=
        noiseless.tailTurn_done sizes table order block (finals.map some)
      refine ⟨_, turn, finals ++ [final], by rw [List.map_append]; rfl, by simp [length],
        fun cb other found => ?_⟩
      rcases Nat.lt_or_ge cb finals.length with earlier | last
      · rw [List.getElem?_append_left earlier] at found
        exact done cb other found
      · rw [List.getElem?_append_right last, List.getElem?_singleton] at found
        split_ifs at found with here
        cases found
        obtain rfl : cb = n := by omega
        exact finished
  obtain ⟨_, run, finals, rfl, length, done⟩ := loop
  refine ⟨finals, ?_, length, done⟩
  rw [tailKernels, run]
  rfl

/-- A code block without an erased bit is decoded right. -/
theorem holdsBits_decodedCb (sizes : SegmentSizes tb.length inputs.seg)
    {sent : Transmission inputs.shape inputs.seg tb} {cb : Nat}
    (block : cb < inputs.seg.nofSegments) {final : LdpcMemory} (done : BlockDone sent cb final)
    (known : ∀ k < inputs.seg.cbInfoBits + inputs.seg.nofCrcBits,
      final.soft (k / inputs.seg.liftingSize) (k % inputs.seg.liftingSize) ≠ 0) :
    HoldsBits (decodedCb inputs.seg.baseGraph inputs.seg.liftingSize (some final)) 0
      (cbPayload inputs.seg (tbStream inputs.seg tb sent.tbCrc) cb ++ sent.cbCrc cb) := by
  have payload := sent.length_cbPayload sizes block
  have crc := sent.length_cbCrc sizes block
  have layout := sizes.layout
  have segment : inputs.seg.segmentLength =
      inputs.baseGraph.nVnInfo * inputs.seg.liftingSize := sizes.segment
  obtain ⟨two, _⟩ := kLiftingSizes_facts _ sizes.lifting
  intro k inside
  rw [List.length_append, payload, crc] at inside
  have within : k < inputs.seg.segmentLength := by omega
  have node : k / inputs.seg.liftingSize < inputs.baseGraph.nVnInfo := by
    rw [Nat.div_lt_iff_lt_mul (by omega)]
    omega
  have position : k % inputs.seg.liftingSize < inputs.seg.liftingSize :=
    Nat.mod_lt k (by omega)
  have fullNode : k / inputs.seg.liftingSize < inputs.baseGraph.nVnFull :=
    Nat.lt_of_lt_of_le node inputs.shape.nVnInfo_le
  have bit := done.output _ node _ position
  rw [Nat.div_add_mod', decide_neg_eq_of_agrees (done.agrees _ fullNode _ position)
    (.inl (known k inside))] at bit
  have sentBit := sent.systematic cb block k within
  rw [List.getElem?_append_left (by rw [List.length_append]; omega), ← bit] at sentBit
  have byte : k / 8 < (inputs.seg.baseGraph.nVnInfo * inputs.seg.liftingSize + 7) / 8 := by
    change k / 8 < (inputs.baseGraph.nVnInfo * inputs.seg.liftingSize + 7) / 8
    omega
  rw [← sentBit, Nat.zero_add, getBit, decodedCb, List.getElem?_map, List.getElem?_range byte,
    Option.map_some, Option.map_some]
  rfl

/-- The receive tail without noise.  For every transport block that fits the scratch buffer,
both base graphs, every table whose shifts are at most the lifting size, every modulation
order and number of symbols for which no code block is sent twice, every scrambling and
iteration count, and all LLRs of the right signs: the decoder runs for every code block and
none of its soft values has the sign of the wrong bit; and the desegmentation is passed
with exactly the bits of the transport block, unless the soft value of some information bit
is still zero. -/
theorem receive_tail_without_noise (inputs : TailInputs) {tb : List Bool}
    (size : tb.length = inputs.tbsBits)
    (small : inputs.tbsBits + computeTbCrcSize inputs.tbsBits ≤ 32768)
    (table : LiftedTable inputs.baseGraph inputs.seg.liftingSize inputs.shifts)
    (order : 1 ≤ inputs.qm)
    (fits : ∀ cb < inputs.seg.nofSegments,
      inputs.rmLength cb ≤ inputs.seg.codewordLength - inputs.seg.nofFillerBits)
    (sent : Transmission inputs.shape inputs.seg tb)
    (received : ∀ (n : Nat) (bit : Bool),
      (sent.scrambledBits inputs.nofSymbols inputs.qm inputs.cInit)[n]? = some bit →
        LlrOf bit (inputs.llr n)) :
    ∃ finals : List LdpcMemory, tailKernels inputs = some (finals.map some) ∧
      finals.length = inputs.seg.nofSegments ∧
      (∀ (cb : Nat) (final : LdpcMemory), finals[cb]? = some final →
        ∀ vn < inputs.baseGraph.nVnFull, ∀ j < inputs.seg.liftingSize, final.soft vn j ≠ 0 →
          (final.soft vn j < 0 ↔ sent.codeword cb vn j = true)) ∧
      ((∃ out, receiveTail inputs = some (.ok, out) ∧ HoldsBits out 0 tb) ∨
        ∃ (cb : Nat) (final : LdpcMemory), finals[cb]? = some final ∧
          ∃ k < inputs.seg.cbInfoBits + inputs.seg.nofCrcBits,
            final.soft (k / inputs.seg.liftingSize) (k % inputs.seg.liftingSize) = 0) := by
  have sizes : SegmentSizes tb.length inputs.seg := by
    rw [size]
    exact segmentSizes inputs.baseGraph (by rw [maxTbs]; omega)
  have noiseless : Noiseless sent := ⟨fits, received⟩
  obtain ⟨finals, run, length, done⟩ := noiseless.tailKernels_done sizes table order
  refine ⟨finals, run, length, ?_, ?_⟩
  · intro cb final found vn node j position nonzero
    have sign := decide_neg_eq_of_agrees ((done cb final found).agrees vn node j position)
      (.inl nonzero)
    rw [← sign, decide_eq_true_eq]
  · apply or_iff_not_imp_right.mpr
    intro known
    have right : RightBlocks sent
        ((finals.map some).map (decodedCb inputs.seg.baseGraph inputs.seg.liftingSize)) := by
      intro cb block
      have found : finals[cb]? = some finals[cb] := List.getElem?_eq_getElem (by omega)
      refine ⟨decodedCb inputs.seg.baseGraph inputs.seg.liftingSize (some finals[cb]), ?_, ?_⟩
      · rw [List.getElem?_map, List.getElem?_map, found, Option.map_some, Option.map_some]
      · apply holdsBits_decodedCb sizes block (done cb _ found)
        intro k inside zero
        exact known ⟨cb, finals[cb], found, k, inside, zero⟩
    obtain ⟨out, passed, holds⟩ := oiP2CbDesegment_ok sizes right
      (size ▸ small) (show tb.length ≤ 8 * (List.ofFn inputs.tbBytesBuf).length by
        rw [List.length_ofFn, scratchBytes]
        omega) inputs.scratch
    refine ⟨out, ?_, holds⟩
    rw [size] at passed
    have all : (finals.map some).all (·.isSome) = true := by simp
    simp only [receiveTail, run, Option.bind_eq_bind, Option.bind_some, all, if_true, passed]

end Noiseless

/-! ### One bit on the second base graph -/

/-- The shifts of the second base graph, reduced for the lifting size 3. -/
private def reducedShifts (lsIdx cn vn : Nat) : Nat :=
  if bgShifts .bg2 lsIdx cn vn = noEdge then noEdge else bgShifts .bg2 lsIdx cn vn % 3

/-- The inputs of the tail for a transport block of one bit, with LLRs that are set later. -/
private def oneBitInputs (llr : Nat → Int) : TailInputs where
  tbsBits := 1
  baseGraph := .bg2
  nofSymbols := 68
  qm := 2
  cInit := 0x1234
  llr := llr
  shiftsTable := reducedShifts
  nIter := 6
  privateMemory := fun _ =>
    { soft := fun _ _ => 0
      c2v := fun _ _ _ => 0
      scratch := fun _ => TwoMin.start 0
      sprod := fun _ => false
      c2vNew := 0
      out := fun _ => 0 }
  tbBytesBuf := fun _ => 0
  scratch := fun _ => 0

/-- The codeword of a single one with its CRC. -/
private def oneBitCodeword (vn j : Nat) : Bool :=
  (0xcedb049314e370cb3937535eb3b994a40010811 : Nat).testBit (vn * 3 + j)

private def oneBitCrc : List Bool :=
  [false, false, false, true, false, false, false, false, false, false, true, false, false, false,
    false, true]

private theorem crcAttached_oneBit : CrcAttached .crc16 [true] oneBitCrc := by
  refine ⟨rfl, (register_eq_zero_iff (divisor_polyDef .crc16) _).mp ?_⟩
  decide +kernel

private def oneBitTransmission (llr : Nat → Int) :
    Transmission (oneBitInputs llr).shape (oneBitInputs llr).seg [true] where
  tbCrc := oneBitCrc
  cbCrc := fun _ => []
  codeword := fun _ => oneBitCodeword
  tbCrc_attached := crcAttached_oneBit
  cbCrc_attached := fun _ _ several =>
    absurd several (show ¬ 1 < (oiP2CbSegmentCompute 1 .bg2).nofSegments by decide +kernel)
  cbCrc_single := fun _ => rfl
  isCodeword := by
    intro cb _
    have even : ∀ cn < 42, ∀ r < 3, parity
        (((List.range 52).filterMap fun vn =>
          if reducedShifts 1 cn vn = noEdge then none
          else some (Edge.mk vn (reducedShifts 1 cn vn))).map fun edge =>
            oneBitCodeword edge.vn (edge.vnPosition 3 r)) = false := by
      decide +kernel
    exact even
  systematic := by
    intro cb block k inside
    have bits : ∀ cb < 1, ∀ k < 30, some (oneBitCodeword (k / 3) (k % 3)) =
        (cbPayload (oiP2CbSegmentCompute 1 .bg2)
          (tbStream (oiP2CbSegmentCompute 1 .bg2) [true] oneBitCrc) cb ++ [] ++
          List.replicate (oiP2CbSegmentCompute 1 .bg2).nofFillerBits false)[k]? := by
      decide +kernel
    exact bits cb block k inside

/-- The bits on the air. -/
private def oneBitBits : List Bool := (oneBitTransmission fun _ => 0).scrambledBits 68 2 0x1234

/-- LLRs for them, all of the same magnitude. -/
private def oneBitLlr (n : Nat) : Int := if oneBitBits.getD n false then -7 else 7

private theorem llrOf_oneBit (llr : Nat → Int) (same : llr = oneBitLlr) (n : Nat) (bit : Bool)
    (found : ((oneBitTransmission llr).scrambledBits (oneBitInputs llr).nofSymbols
      (oneBitInputs llr).qm (oneBitInputs llr).cInit)[n]? = some bit) :
    LlrOf bit ((oneBitInputs llr).llr n) := by
  have air : oneBitBits[n]? = some bit := found
  have value : (oneBitInputs llr).llr n = if bit then -7 else 7 := by
    change llr n = _
    rw [same, oneBitLlr, List.getD_eq_getElem?_getD, air, Option.getD_some]
  rw [value]
  cases bit <;> decide

private theorem reducedShifts_lifted : LiftedTable .bg2 3 (reducedShifts 1) := by
  constructor
  · intro cn _ vn _ edge
    rw [reducedShifts, if_neg fun none => (bgShifts_eq_noEdge_iff (by decide)).mp none edge]
    exact Nat.le_of_lt (Nat.mod_lt _ (by decide))
  · intro cn _ vn _ none
    rw [reducedShifts, if_pos ((bgShifts_eq_noEdge_iff (by decide)).mpr none)]

/-- The two columns that are not sent are recovered from the others. -/
private theorem recovered_oneBit : ∀ k < 17,
    Recovered (oneBitInputs oneBitLlr).shape ((oneBitInputs oneBitLlr).Known 0)
      (k / 3) (k % 3) := by
  decide +kernel

/-- A transport block of a single one is received from 136 of the 137 bits that can be sent. -/
theorem receive_tail_of_one_bit :
    ∃ finals : List LdpcMemory, tailKernels (oneBitInputs oneBitLlr) = some (finals.map some) ∧
      finals.length = 1 ∧
      ∃ out, receiveTail (oneBitInputs oneBitLlr) = some (.ok, out) ∧ HoldsBits out 0 [true] := by
  have lengths : ∀ cb < 1, oiP2ComputeRmLength 68 (oiP2CbSegmentCompute 1 .bg2).nofSegments 2 cb ≤
      (oiP2CbSegmentCompute 1 .bg2).codewordLength -
        (oiP2CbSegmentCompute 1 .bg2).nofFillerBits := by decide +kernel
  have size : [true].length = (oneBitInputs oneBitLlr).tbsBits := rfl
  obtain ⟨finals, run, length, _, result⟩ := receive_tail_without_noise (oneBitInputs oneBitLlr)
    size (show 1 + computeTbCrcSize 1 ≤ 32768 by decide) reducedShifts_lifted
    (show 1 ≤ 2 by decide) lengths (oneBitTransmission oneBitLlr) (llrOf_oneBit oneBitLlr rfl)
  refine ⟨finals, run, length, ?_⟩
  rcases result with passed | ⟨cb, final, found, k, inside, erased⟩
  · exact passed
  -- no information bit is erased behind the first iteration
  · have noiseless : Noiseless (oneBitTransmission oneBitLlr) :=
      ⟨lengths, llrOf_oneBit oneBitLlr rfl⟩
    obtain ⟨others, same, _, done⟩ := noiseless.tailKernels_done
      (segmentSizes .bg2 (show 1 ≤ maxTbs by decide)) reducedShifts_lifted (show 1 ≤ 2 by decide)
    obtain rfl : finals = others :=
      List.map_injective_iff.mpr (Option.some_injective _) (Option.some.inj (run.symm.trans same))
    obtain rfl : cb = 0 := by
      have bound := (List.getElem?_eq_some_iff.mp found).1
      have one : finals.length = 1 := length
      omega
    have below : k < 17 := inside
    have column : k / 3 < 52 := by omega
    exact absurd erased ((done 0 final found).recovered (show 0 < 6 by decide) (k / 3) column
      (k % 3) (Nat.mod_lt k (by decide)) (recovered_oneBit k below))

end RanInline.Tail
