/-
Module: RanInline.Cxl.FrontEnds
Purpose: The two callers of ldpc_decode side by side at lifting size 384: the arguments that
  llr_consumer_v8 builds for a code block and those of oi_p2_ldpc_decode_cb.
Trusted boundary: none
Main exports: KernelProblem, v8Problem, v8Decode, p2Problem, SameDecoding,
  front_ends_agree_iff
-/
import RanInline.Ldpc.Lifting
import RanInline.Tail.Receive

namespace RanInline.Cxl

open RanInline.Lib RanInline.Ldpc RanInline.Tail

/-! ### The arguments of the kernel -/

/-- What a front end hands to `ldpc_decode`: the shape with its row of the shift table, and
the buffer of LLRs. -/
structure KernelProblem where
  shape : LdpcShape
  llr : List Int

/-- The kernel on its arguments. -/
def KernelProblem.decode (problem : KernelProblem) (nIter : Nat) (memory : LdpcMemory) :
    Option LdpcMemory :=
  ldpcDecode problem.shape
    (fun vn zi => problem.llr.getD (vn * problem.shape.ls + zi) 0) nIter memory

/-! ### llr_consumer_v8 -/

/-- `LLR_PER_CB`. -/
def llrPerCb : Nat := 26112

/-- `Z`. -/
def v8LiftingSize : Nat := 384

/-- The graph of a code block, from the number of columns that were sent: all but the two
punctured ones, or the information columns and two. -/
def v8Graph (llrLen : Nat) : Option BaseGraph :=
  let nVnEff := llrLen / v8LiftingSize
  let minOf (bg : BaseGraph) := (bg.nVnFull - bg.nCn) + 2
  let maxOf (bg : BaseGraph) := bg.nVnFull - 2
  if nVnEff = maxOf .bg1 ∨ nVnEff = minOf .bg1 then some .bg1
  else if nVnEff = maxOf .bg2 ∨ nVnEff = minOf .bg2 then some .bg2
  else none

/-- The shape that `llr_consumer_v8` passes on. -/
def v8Shape (bg : BaseGraph) (lsIdx : Nat) : LdpcShape where
  nVnFull := bg.nVnFull
  nCn := bg.nCn
  nVnInfo := bg.nVnFull - bg.nCn
  ls := v8LiftingSize
  bgShifts := bgShifts bg lsIdx
  ls_le := by decide
  nVnFull_le := bg.nVnFull_le
  nVnInfo_le := by cases bg <;> decide

/-- The arguments for a descriptor with `llr_len`, from `scratch_buf` and what the static
`ocl_llr_buf` still holds: the LLRs are copied to the front and the rest of the graph's columns
is cleared.  `none` is an access outside an array, `some none` a code block that is skipped. -/
def v8Problem (oclLlrBuf scratchBuf : List Int) (llrLen : Nat) :
    Option (Option KernelProblem) :=
  if llrLen = 0 ∨ llrPerCb < llrLen then some none
  else do
    let lsIdx ← lsToIdx[v8LiftingSize]?
    match v8Graph llrLen with
    | none => return none
    | some bg =>
        let copied ← (listCells Int).fill oclLlrBuf 0 llrLen (scratchBuf[·]?)
        let padded ← (listCells Int).fill copied llrLen (bg.nVnFull * v8LiftingSize - llrLen)
          fun _ => some 0
        return some ⟨v8Shape bg lsIdx, padded.take (bg.nVnFull * v8LiftingSize)⟩

/-- The memory of the kernel: the messages are cleared, `ocl_bit_buf` keeps what it held. -/
def v8Memory (memory : LdpcMemory) : LdpcMemory := { memory with c2v := fun _ _ _ => 0 }

/-- `llr_consumer_v8` up to the end of the kernel. -/
def v8Decode (oclLlrBuf scratchBuf : List Int) (llrLen nIter : Nat) (memory : LdpcMemory) :
    Option (Option LdpcMemory) := do
  match ← v8Problem oclLlrBuf scratchBuf llrLen with
  | none => return none
  | some problem => return some (← problem.decode nIter (v8Memory memory))

/-! ### oi_p2_ldpc_decode_cb -/

/-- The arguments of `oi_p2_ldpc_decode_cb` on the tables of the host. -/
def p2Problem (bg : BaseGraph) (z : Nat) (cbLlr : List Int) : Option (Option KernelProblem) := do
  let lsIdx ← lsToIdx[z]?
  if lsIdx = 255 then return none
  else if fits : z ≤ maxLs then
    return some ⟨bg.shape z fits (bgShifts bg lsIdx), ← llrFull bg z cbLlr⟩
  else none

/-- `oi_p2_ldpc_decode_cb` runs the kernel on these arguments. -/
theorem ldpcDecodeCb_eq_decode {bg : BaseGraph} {z : Nat} {cbLlr : List Int}
    {problem : KernelProblem} (built : p2Problem bg z cbLlr = some (some problem)) (nIter : Nat)
    (privateArrays : LdpcMemory) :
    ldpcDecodeCb (bgShifts bg) bg z nIter privateArrays cbLlr =
      (problem.decode nIter (preparedMemory privateArrays)).map some := by
  simp only [p2Problem, Option.bind_eq_bind, Option.bind_eq_some_iff] at built
  obtain ⟨lsIdx, found, chosen⟩ := built
  by_cases refused : lsIdx = 255
  · rw [if_pos refused] at chosen
    exact absurd (Option.some.inj chosen) (by simp)
  · by_cases fits : z ≤ maxLs
    · rw [if_neg refused, dif_pos fits, Option.bind_eq_some_iff] at chosen
      obtain ⟨full, padded, same⟩ := chosen
      cases same
      simp only [ldpcDecodeCb, found, if_neg refused, dif_pos fits, padded,
        Option.bind_eq_bind, Option.bind_some]
      exact Option.map_eq_bind.symm
    · rw [if_neg refused, dif_neg fits] at chosen
      exact absurd chosen (by simp)

/-! ### Both at lifting size 384 -/

section Agreement

variable {bg : BaseGraph} {cbLlr : List Int}

theorem v8Shape_eq (bg : BaseGraph) (lsIdx : Nat) :
    v8Shape bg lsIdx = bg.shape 384 (by decide) (bgShifts bg lsIdx) := by
  cases bg <;> rfl

theorem lsToIdx_largest : lsToIdx[384]? = some 1 := by decide +kernel

theorem v8Graph_eq (bg : BaseGraph) : v8Graph (bg.nShort * 384) = some bg := by
  cases bg <;> decide

theorem nVnFull_fits (bg : BaseGraph) : bg.nVnFull * 384 ≤ llrPerCb := by cases bg <;> decide

/-- The LLRs in front, then two columns of zeros. -/
theorem v8Problem_eq (length : cbLlr.length = bg.nShort * 384) (oclLlrBuf : Fin llrPerCb → Int)
    (rest : List Int) :
    v8Problem (List.ofFn oclLlrBuf) (cbLlr ++ rest) (bg.nShort * 384) =
      some (some ⟨v8Shape bg 1, cbLlr ++ List.replicate 768 0⟩) := by
  have columns : bg.nShort * 384 + 768 = bg.nVnFull * 384 := by cases bg <;> decide
  have less : bg.nShort * 384 ≤ bg.nVnFull * 384 := Nat.le.intro columns
  obtain ⟨copied, copy, copiedLength, copiedCells⟩ :=
    @fill_listCells Int (List.ofFn oclLlrBuf) 0 (bg.nShort * 384) ((cbLlr ++ rest)[·]?)
      (cbLlr.getD · 0) (by rw [List.length_ofFn, Nat.zero_add]; exact less.trans (nVnFull_fits bg))
      (fun k less => by
        rw [List.getElem?_append_left (by omega), List.getD_eq_getElem?_getD,
          List.getElem?_eq_getElem (by omega), Option.getD_some])
  have behind : bg.nShort * 384 + (bg.nVnFull * 384 - bg.nShort * 384) ≤ copied.length := by
    rw [copiedLength, List.length_ofFn, Nat.add_sub_cancel' less]
    exact nVnFull_fits bg
  obtain ⟨padded, pad, _, paddedCells⟩ :=
    @fill_listCells Int copied (bg.nShort * 384) (bg.nVnFull * 384 - bg.nShort * 384)
      (fun _ => some 0) (fun _ => 0) behind (fun _ _ => rfl)
  have same : padded.take (bg.nVnFull * 384) = cbLlr ++ List.replicate 768 0 := by
    apply List.ext_getElem?
    intro k
    by_cases inside : k < bg.nVnFull * 384
    · rw [List.getElem?_take, if_pos inside, paddedCells]
      by_cases sent : k < bg.nShort * 384
      · rw [if_neg (by omega), copiedCells, if_pos (by omega), Nat.sub_zero,
          List.getElem?_append_left (by omega), List.getD_eq_getElem?_getD,
          List.getElem?_eq_getElem (by omega), Option.getD_some]
      · rw [if_pos (by omega), List.getElem?_append_right (by omega),
          List.getElem?_replicate_of_lt (by omega)]
    · rw [List.getElem?_take, if_neg inside, List.getElem?_append_right (by omega),
        List.getElem?_eq_none (by rw [List.length_replicate]; omega)]
  have valid : ¬ (bg.nShort * 384 = 0 ∨ llrPerCb < bg.nShort * 384) := by cases bg <;> decide
  simp only [v8Problem, if_neg valid, lsToIdx_largest, v8Graph_eq, v8LiftingSize, copy, pad, same,
    Option.bind_eq_bind, Option.bind_some]
  rfl

/-- Two columns of zeros, then the LLRs. -/
theorem p2Problem_eq (length : cbLlr.length = bg.nShort * 384) :
    p2Problem bg 384 cbLlr = some (some ⟨v8Shape bg 1, List.replicate 768 0 ++ cbLlr⟩) := by
  have columns : 2 * 384 + bg.nShort * 384 = bg.nVnFull * 384 := by cases bg <;> decide
  obtain ⟨full, filled, fullLength, cells⟩ :=
    @fill_listCells Int (List.replicate (bg.nVnFull * 384) 0) (2 * 384) (bg.nShort * 384)
      (cbLlr[·]?) (cbLlr.getD · 0) (by rw [List.length_replicate]; omega)
      (fun k less => by
        rw [List.getD_eq_getElem?_getD, List.getElem?_eq_getElem (by omega), Option.getD_some])
  have same : full = List.replicate 768 0 ++ cbLlr := by
    apply List.ext_getElem?
    intro k
    rw [cells]
    by_cases punctured : k < 768
    · rw [if_neg (by omega), List.getElem?_replicate_of_lt (by omega),
        List.getElem?_append_left (by rw [List.length_replicate]; omega),
        List.getElem?_replicate_of_lt punctured]
    · rw [List.getElem?_append_right (by rw [List.length_replicate]; omega),
        List.length_replicate]
      by_cases inside : k < bg.nVnFull * 384
      · rw [if_pos (by omega), List.getD_eq_getElem?_getD, List.getElem?_eq_getElem (by omega),
          Option.getD_some]
      · rw [if_neg (by omega), List.getElem?_eq_none (by rw [List.length_replicate]; omega),
          List.getElem?_eq_none (by omega)]
  have padded : llrFull bg 384 cbLlr = some full := filled
  simp only [p2Problem, lsToIdx_largest, padded, same, v8Shape_eq, Option.bind_eq_bind, Option.bind_some,
    dif_pos (show 384 ≤ maxLs by decide)]
  rfl

/-- A list that may stand on either side of a block of zeros is zero. -/
theorem eq_zero_of_append_comm {count : Nat} (positive : 0 < count) {values : List Int}
    (comm : values ++ List.replicate count 0 = List.replicate count 0 ++ values) :
    ∀ value ∈ values, value = 0 := by
  have cells : ∀ (k : Nat) (value : Int), values[k]? = some value → value = 0 := by
    intro k
    -- A cell behind the block equals the one that stands `count` before it.
    induction k using Nat.strong_induction_on with
    | h k earlier =>
        intro value found
        have inside := (List.getElem?_eq_some_iff.mp found).1
        have here := congrArg (·[k]?) comm
        rw [List.getElem?_append_left inside, found] at here
        by_cases block : k < count
        · rw [List.getElem?_append_left (by rwa [List.length_replicate]),
            List.getElem?_replicate_of_lt block] at here
          exact Option.some.inj here
        · rw [List.getElem?_append_right (by rw [List.length_replicate]; omega),
            List.length_replicate] at here
          exact earlier (k - count) (by omega) value here.symm
  intro value member
  obtain ⟨k, found⟩ := List.mem_iff_getElem?.mp member
  exact cells k value found

/-! ### No LLR -/

theorem liftedTable_largest (bg : BaseGraph) : LiftedTable bg 384 (bgShifts bg 1) where
  edge := fun _ _ _ _ edge =>
    (bgShifts_of_hasEdge (by decide) edge).trans (by cases bg <;> decide)
  noEdge := fun _ _ _ _ none => (bgShifts_eq_noEdge_iff (by decide)).mpr none

theorem parity_map_false {Item : Type} (items : List Item) :
    parity (items.map fun _ => false) = false := by
  induction items with
  | nil => rfl
  | cons _ _ ih => simpa [parity] using ih

/-- Without a single LLR the kernel decides every bit to zero, whatever the memory that is not
cleared holds. -/
theorem decode_of_all_zero (bg : BaseGraph) {llr : List Int} (zeros : ∀ value ∈ llr, value = 0)
    (nIter : Nat) {memory : LdpcMemory} (zeroed : Zeroed (v8Shape bg 1) memory) :
    ∃ final, (KernelProblem.mk (v8Shape bg 1) llr).decode nIter memory = some final ∧
      decodedCb bg 384 (some final) = List.replicate ((bg.nVnInfo * 384 + 7) / 8) 0#8 := by
  have regular : Regular (v8Shape bg 1) := by
    rw [v8Shape_eq]
    exact (liftedTable_largest bg).regular (by decide)
  have silent (n : Nat) : llr.getD n 0 = 0 := by
    rw [List.getD_eq_getElem?_getD]
    cases found : llr[n]? with
    | none => rfl
    | some value => exact zeros value (List.mem_of_getElem? found)
  have channel : ChannelAgrees (v8Shape bg 1) (fun _ _ => false)
      (fun vn zi => llr.getD (vn * (v8Shape bg 1).ls + zi) 0) := by
    constructor <;> intro vn _ zi _ <;> rw [silent]
    · exact .inl (by decide)
    · exact (agrees_false 0).mpr (Int.le_refl 0)
  have codeword : IsCodeword (v8Shape bg 1) (fun _ _ => false) :=
    fun cn _ _ _ => parity_map_false ((v8Shape bg 1).edges cn)
  obtain ⟨final, decoded, agree, bits⟩ :=
    (kernelRun_agrees regular codeword channel nIter zeroed).output
  refine ⟨final, decoded, ?_⟩
  have clear : ∀ bitIdx < bg.nVnInfo * 384, outputBit final bitIdx = false := by
    intro bitIdx inside
    have node : bitIdx / 384 < (v8Shape bg 1).nVnInfo := by
      have split : (v8Shape bg 1).nVnInfo = bg.nVnInfo := by cases bg <;> rfl
      rw [split]
      omega
    have position : bitIdx % 384 < (v8Shape bg 1).ls := Nat.mod_lt _ (by decide)
    have value := bits _ node _ position
    rw [decide_neg_eq_of_agrees (agree.1 _ (node.trans_le (v8Shape bg 1).nVnInfo_le) _ position)
      (.inr rfl)] at value
    have place : bitIdx / 384 * (v8Shape bg 1).ls + bitIdx % 384 = bitIdx :=
      Nat.div_add_mod' bitIdx 384
    rwa [place] at value
  have whole : bg.nVnInfo * 384 % 8 = 0 := by cases bg <;> decide
  rw [decodedCb, List.eq_replicate_iff]
  refine ⟨by rw [List.length_map, List.length_range], fun byte member => ?_⟩
  obtain ⟨i, inside, rfl⟩ := List.mem_map.mp member
  have bound := List.mem_range.mp inside
  apply BitVec.eq_of_getLsbD_eq
  intro bit small
  have place := clear (8 * i + (7 - bit)) (by omega)
  have byteIndex : (8 * i + (7 - bit)) / 8 = i := by omega
  have bitIndex : 7 - (8 * i + (7 - bit)) % 8 = bit := by omega
  rw [outputBit, byteIndex, bitIndex] at place
  rw [place, BitVec.getLsbD_zero]

/-! ### When they agree -/

/-- The front ends hand the kernel the same arguments for a code block, whatever `ocl_llr_buf`
and the rest of the scratch slot hold, and read back the same bits for every number of
iterations, whatever the memory that is not cleared holds. -/
structure SameDecoding (bg : BaseGraph) (cbLlr : List Int) : Prop where
  problem : ∀ (oclLlrBuf : Fin llrPerCb → Int) (rest : List Int),
    v8Problem (List.ofFn oclLlrBuf) (cbLlr ++ rest) cbLlr.length = p2Problem bg 384 cbLlr
  bits : ∀ (oclLlrBuf : Fin llrPerCb → Int) (rest : List Int) (nIter : Nat)
    (v8Arrays p2Arrays : LdpcMemory), ∃ first second,
    v8Decode (List.ofFn oclLlrBuf) (cbLlr ++ rest) cbLlr.length nIter v8Arrays =
        some (some first) ∧
      ldpcDecodeCb (bgShifts bg) bg 384 nIter p2Arrays cbLlr = some (some second) ∧
      decodedCb bg 384 (some first) = decodedCb bg 384 (some second)

theorem all_zero_of_sameDecoding (length : cbLlr.length = bg.nShort * 384)
    (same : SameDecoding bg cbLlr) : ∀ llr ∈ cbLlr, llr = 0 := by
  have problems := same.problem (fun _ => 0) []
  rw [length, v8Problem_eq length, p2Problem_eq length, Option.some_inj, Option.some_inj,
    KernelProblem.mk.injEq] at problems
  exact eq_zero_of_append_comm (by decide) problems.2

/-- At lifting size 384 the two front ends hand `ldpc_decode` the same problem, and so decode
the same bits, exactly for the LLR vectors that say nothing: `llr_consumer_v8` puts the two
punctured columns behind the transmitted ones, `oi_p2_ldpc_decode_cb` in front of them. -/
theorem front_ends_agree_iff (length : cbLlr.length = bg.nShort * 384) :
    SameDecoding bg cbLlr ↔ ∀ llr ∈ cbLlr, llr = 0 := by
  constructor
  · exact all_zero_of_sameDecoding length
  · intro zeros
    have comm : cbLlr ++ List.replicate 768 0 = List.replicate 768 0 ++ cbLlr := by
      rw [List.eq_replicate_of_mem zeros, List.replicate_append_replicate,
        List.replicate_append_replicate, Nat.add_comm]
    have allZero : ∀ value ∈ List.replicate 768 0 ++ cbLlr, value = 0 := by
      intro value member
      rcases List.mem_append.mp member with punctured | sent
      · exact List.eq_of_mem_replicate punctured
      · exact zeros value sent
    refine ⟨fun oclLlrBuf rest => ?_, fun oclLlrBuf rest nIter v8Arrays p2Arrays => ?_⟩
    · rw [length, v8Problem_eq length, p2Problem_eq length, comm]
    · obtain ⟨first, firstRun, firstBits⟩ := decode_of_all_zero bg allZero nIter
        (show Zeroed (v8Shape bg 1) (v8Memory v8Arrays) from fun _ _ _ _ _ _ => rfl)
      obtain ⟨second, secondRun, secondBits⟩ := decode_of_all_zero bg allZero nIter
        (show Zeroed (v8Shape bg 1) (preparedMemory p2Arrays) from fun _ _ _ _ _ _ => rfl)
      refine ⟨first, second, ?_, ?_, firstBits.trans secondBits.symm⟩
      · rw [v8Decode, length, v8Problem_eq length, comm]
        simp only [Option.bind_eq_bind, Option.bind_some, firstRun]
        rfl
      · rw [ldpcDecodeCb_eq_decode (p2Problem_eq length), secondRun, Option.map_some]

end Agreement

/-- Nothing was received. -/
theorem front_ends_agree_on_silence :
    (List.replicate (BaseGraph.bg2.nShort * 384) (0 : Int)).length = BaseGraph.bg2.nShort * 384 ∧
      SameDecoding .bg2 (List.replicate (BaseGraph.bg2.nShort * 384) 0) :=
  ⟨List.length_replicate, (front_ends_agree_iff List.length_replicate).mpr fun _ member =>
    List.eq_of_mem_replicate member⟩

/-- Every transmitted bit of the first base graph arrived as a certain zero. -/
theorem front_ends_differ_on_certain_zeros :
    ¬ ∀ (bg : BaseGraph) (cbLlr : List Int), cbLlr.length = bg.nShort * 384 →
      SameDecoding bg cbLlr := by
  intro claim
  have length : (List.replicate (BaseGraph.bg1.nShort * 384) (120 : Int)).length =
      BaseGraph.bg1.nShort * 384 := List.length_replicate
  have zeros := all_zero_of_sameDecoding length (claim .bg1 _ length)
  exact absurd (zeros 120 (List.mem_replicate.mpr ⟨by decide, rfl⟩)) (by decide)

end RanInline.Cxl
