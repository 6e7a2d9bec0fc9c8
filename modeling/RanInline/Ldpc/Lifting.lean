/-
Module: RanInline.Ldpc.Lifting
Purpose: ldpc_decode on the raw shift tables, for every lifting size the host accepts: when
  its indices stay inside the arrays and it decodes the lifted code of TS 38.212.
Trusted boundary: none
Main exports: LdpcShape.reduced, DecodesAsLifted, hostShape, wholeShiftSizes,
  decodes_as_lifted_iff
-/
import RanInline.Ldpc.BaseGraph
import RanInline.Lib.CheckedStore

namespace RanInline.Ldpc

open RanInline.Lib

/-! ### The reduced table -/

/-- An edge with its shift reduced modulo the lifting size. -/
def Edge.reduce (ls : Nat) (edge : Edge) : Edge := { edge with shift := edge.shift % ls }

/-- The shape with every shift reduced modulo the lifting size. -/
def LdpcShape.reduced (shape : LdpcShape) : LdpcShape :=
  { shape with
    bgShifts := fun cn vn =>
      if shape.bgShifts cn vn = noEdge then noEdge else shape.bgShifts cn vn % shape.ls }

/-- An assignment with the shift of its edge reduced. -/
def LdpcOp.reduce (ls : Nat) : LdpcOp → LdpcOp
  | .load vn zi => .load vn zi
  | .clear r => .clear r
  | .analyse cn edge vni r => .analyse cn (edge.reduce ls) vni r
  | .updateSoft cn edge vni j => .updateSoft cn (edge.reduce ls) vni j
  | .storeC2v cn edge j => .storeC2v cn (edge.reduce ls) j
  | .emit vn zi => .emit vn zi

/-- The shift of the edge an assignment uses is at most `ls`. -/
def LdpcOp.ShiftLe (ls : Nat) : LdpcOp → Prop
  | .analyse _ edge _ _ => edge.shift ≤ ls
  | .updateSoft _ edge _ _ => edge.shift ≤ ls
  | .storeC2v _ edge _ => edge.shift ≤ ls
  | _ => True

section Reduce

variable {shape : LdpcShape} {llr : Nat → Nat → Int}

theorem edges_reduced (shape : LdpcShape) (cn : Nat) :
    shape.reduced.edges cn = (shape.edges cn).map (Edge.reduce shape.ls) := by
  rw [LdpcShape.edges, LdpcShape.edges, List.map_filterMap]
  refine List.filterMap_congr fun vn _ => ?_
  have bound := shape.ls_le
  by_cases none : shape.bgShifts cn vn = noEdge
  · simp [LdpcShape.reduced, none]
  · have kept : shape.bgShifts cn vn % shape.ls ≠ noEdge := by
      rcases Nat.eq_zero_or_pos shape.ls with zero | positive
      · rwa [zero, Nat.mod_zero]
      · have := Nat.mod_lt (shape.bgShifts cn vn) positive
        simp only [maxLs, noEdge] at bound ⊢
        omega
    simp [LdpcShape.reduced, none, kept, Edge.reduce]

theorem zipIdx_edges_reduced (shape : LdpcShape) (cn : Nat) :
    (shape.reduced.edges cn).zipIdx =
      (shape.edges cn).zipIdx.map fun item => (item.1.reduce shape.ls, item.2) := by
  rw [edges_reduced, List.zipIdx_map]
  rfl

/-- The program of the reduced table differs in the shifts alone. -/
theorem program_reduced (shape : LdpcShape) (nIter : Nat) :
    shape.reduced.program nIter = (shape.program nIter).map (LdpcOp.reduce shape.ls) := by
  have loads : shape.reduced.loadOps = shape.loadOps.map (LdpcOp.reduce shape.ls) := by
    simp [LdpcShape.loadOps, List.map_flatMap, LdpcOp.reduce, LdpcShape.reduced]
  have emits : shape.reduced.emitOps = shape.emitOps.map (LdpcOp.reduce shape.ls) := by
    simp [LdpcShape.emitOps, List.map_flatMap, LdpcOp.reduce, LdpcShape.reduced]
  have layers : shape.reduced.layerOps =
      fun cn => (shape.layerOps cn).map (LdpcOp.reduce shape.ls) := by
    funext cn
    rw [LdpcShape.layerOps, LdpcShape.layerOps, LdpcShape.analysisOps, LdpcShape.analysisOps,
      LdpcShape.updateOps, LdpcShape.updateOps, zipIdx_edges_reduced]
    simp [List.map_flatMap, List.flatMap_map, LdpcOp.reduce, LdpcShape.reduced]
  have iterations : shape.reduced.iterationOps nIter =
      (shape.iterationOps nIter).map (LdpcOp.reduce shape.ls) := by
    rw [LdpcShape.iterationOps, LdpcShape.iterationOps, layers]
    simp only [List.map_flatMap]
    rfl
  simp only [LdpcShape.program, loads, emits, iterations, List.map_append]

theorem vnPosition_reduce (edge : Edge) (ls r : Nat) :
    (edge.reduce ls).vnPosition ls r = edge.vnPosition ls r := by
  simp [Edge.vnPosition, Edge.reduce]

theorem cnPosition_reduce {edge : Edge} {ls : Nat} (small : edge.shift ≤ ls) (j : Nat) :
    (edge.reduce ls).cnPosition ls j = edge.cnPosition ls j := by
  rcases Nat.eq_or_lt_of_le small with whole | less
  · have direct : (j : Int) + ls - ls = j := by omega
    have wrapped : (j : Int) + ls - (0 : Nat) = (j + ls : Nat) := by omega
    rw [Edge.cnPosition, Edge.cnPosition, Edge.reduce, whole, Nat.mod_self, direct, wrapped,
      ← Int.ofNat_tmod, ← Int.ofNat_tmod, Nat.add_mod_right]
  · rw [Edge.cnPosition, Edge.cnPosition, Edge.reduce, Nat.mod_eq_of_lt less]

/-- Up to the lifting size, reducing a shift does not change what an assignment does. -/
theorem ldpcExec_reduce (memory : LdpcMemory) {op : LdpcOp} (small : op.ShiftLe shape.ls) :
    ldpcExec shape.reduced llr memory (op.reduce shape.ls) = ldpcExec shape llr memory op := by
  have ls : shape.reduced.ls = shape.ls := rfl
  cases op with
  | load vn zi => rfl
  | clear r => rfl
  | analyse cn edge vni r =>
      simp only [ldpcExec, LdpcOp.reduce, LdpcOp.InBounds, LdpcMemory.apply, ls,
        vnPosition_reduce]
      rfl
  | updateSoft cn edge vni j =>
      simp only [ldpcExec, LdpcOp.reduce, LdpcOp.InBounds, LdpcMemory.apply, ls,
        cnPosition_reduce small]
      rfl
  | storeC2v cn edge j => rfl
  | emit vn zi => rfl

/-! ### Bounds -/

/-- The indices of an assignment do not depend on the memory: a program runs to its end
exactly when all its assignments are inside the arrays. -/
theorem foldlM_ldpcExec (ops : List LdpcOp) (memory : LdpcMemory) :
    (∃ final, ops.foldlM (ldpcExec shape llr) memory = some final) ↔
      ∀ op ∈ ops, op.InBounds shape := by
  induction ops generalizing memory with
  | nil => simp
  | cons op ops inductionHypothesis =>
      rw [List.foldlM_cons, List.forall_mem_cons]
      by_cases inside : op.InBounds shape
      · have executed : ldpcExec shape llr memory op = some (memory.apply shape llr op) :=
          if_pos inside
        rw [executed]
        simpa [inside] using inductionHypothesis (memory.apply shape llr op)
      · have refused : ldpcExec shape llr memory op = none := if_neg inside
        rw [refused]
        simp [inside]

/-- No shift of the shape exceeds the lifting size. -/
def LdpcShape.ShiftsFit (shape : LdpcShape) : Prop :=
  ∀ cn < shape.nCn, ∀ edge ∈ shape.edges cn, edge.shift ≤ shape.ls

/-- The assignments of the layers. -/
theorem mem_layerOps {cn : Nat} {op : LdpcOp} (member : op ∈ shape.layerOps cn) :
    (∃ r < shape.ls, op = .clear r) ∨
      ∃ edge ∈ shape.edges cn, ∃ vni, ∃ j < shape.ls,
        op = .analyse cn edge vni j ∨ op = .updateSoft cn edge vni j ∨
          op = .storeC2v cn edge j := by
  simp only [LdpcShape.layerOps, LdpcShape.analysisOps, LdpcShape.updateOps, List.mem_append,
    List.mem_flatMap, List.mem_range, List.mem_cons, List.not_mem_nil, or_false] at member
  rcases member with ⟨r, inside, rfl⟩ | ⟨item, found, r, inside, rfl⟩ |
    ⟨item, found, j, inside, isOp⟩
  · exact .inl ⟨r, inside, rfl⟩
  · exact .inr ⟨item.1, List.fst_mem_of_mem_zipIdx found, item.2, r, inside, .inl rfl⟩
  · exact .inr ⟨item.1, List.fst_mem_of_mem_zipIdx found, item.2, j, inside, .inr isOp⟩

theorem inBounds_layerOps {cn : Nat} (check : cn < shape.nCn)
    (fit : ∀ edge ∈ shape.edges cn, edge.shift ≤ shape.ls) {op : LdpcOp}
    (member : op ∈ shape.layerOps cn) : op.InBounds shape ∧ op.ShiftLe shape.ls := by
  have bound := shape.ls_le
  rcases mem_layerOps member with ⟨r, inside, rfl⟩ | ⟨edge, found, vni, j, inside, isOp⟩
  · exact ⟨Nat.lt_of_lt_of_le inside bound, trivial⟩
  · have node := mem_edges found
    have small := fit edge found
    obtain ⟨nonneg, less, _⟩ := cnPosition_spec small inside
    rcases isOp with rfl | rfl | rfl
    · have position := vnPosition_lt edge inside
      exact ⟨⟨Nat.lt_of_lt_of_le inside bound, softInBounds node position,
        c2vInBounds check node position⟩, small⟩
    · exact ⟨⟨nonneg, by omega, softInBounds node inside, c2vInBounds check node inside⟩, small⟩
    · exact ⟨c2vInBounds check node inside, small⟩

theorem inBounds_program {nIter : Nat} (fit : nIter = 0 ∨ shape.ShiftsFit) {op : LdpcOp}
    (member : op ∈ shape.program nIter) : op.InBounds shape ∧ op.ShiftLe shape.ls := by
  simp only [LdpcShape.program, LdpcShape.loadOps, LdpcShape.iterationOps, LdpcShape.emitOps,
    List.mem_append, List.mem_flatMap, List.mem_range, List.mem_cons, List.not_mem_nil,
    or_false] at member
  rcases member with ⟨vn, node, zi, inside, rfl⟩ | ⟨i, turn, cn, check, layer⟩ |
    ⟨vn, node, zi, inside, rfl⟩
  · exact ⟨softInBounds node inside, trivial⟩
  · rcases fit with rfl | fit
    · exact absurd turn (Nat.not_lt_zero i)
    · exact inBounds_layerOps check (fit cn check) layer
  · have position := flat_lt node inside
    exact ⟨⟨softInBounds (Nat.lt_of_lt_of_le node shape.nVnInfo_le) inside, by omega⟩, trivial⟩

/-- A shift above the lifting size makes Step B index in front of its scratch arrays. -/
theorem cnPosition_neg {edge : Edge} {ls : Nat} (two : 2 ≤ ls) (large : ls < edge.shift) :
    ∃ j < ls, edge.cnPosition ls j < 0 := by
  have divisor : (2 : Int) ≤ ls := by omega
  -- the first two positions are consecutive, so one of them is no multiple of the size
  rcases Nat.eq_or_lt_of_le (Nat.succ_le_of_lt large) with next | beyond
  · refine ⟨0, by omega, ?_⟩
    have value : ((0 : Nat) : Int) + ls - edge.shift = -1 := by omega
    rw [Edge.cnPosition, value, Int.neg_tmod, Int.tmod_eq_of_lt (by omega) (by omega)]
    omega
  · obtain ⟨gap, gapIs⟩ : ∃ gap : Nat, edge.shift = ls + gap + 2 := ⟨edge.shift - ls - 2, by omega⟩
    have first : ((0 : Nat) : Int) + ls - edge.shift = -((gap + 2 : Nat) : Int) := by omega
    have second : ((1 : Nat) : Int) + ls - edge.shift = -((gap + 1 : Nat) : Int) := by omega
    by_cases multiple : (gap + 2) % ls = 0
    · refine ⟨1, by omega, ?_⟩
      rw [Edge.cnPosition, second, Int.neg_tmod, ← Int.ofNat_tmod]
      have : (gap + 1) % ls ≠ 0 := by
        intro also
        have apart : (gap + 1 + 1) % ls = 0 := multiple
        rw [Nat.add_mod, also, Nat.zero_add, Nat.mod_mod, Nat.mod_eq_of_lt (by omega)] at apart
        omega
      omega
    · refine ⟨0, by omega, ?_⟩
      rw [Edge.cnPosition, first, Int.neg_tmod, ← Int.ofNat_tmod]
      omega

theorem mem_program_updateSoft {nIter cn vni j : Nat} {edge : Edge} (turns : 0 < nIter)
    (check : cn < shape.nCn) (found : (shape.edges cn)[vni]? = some edge) (inside : j < shape.ls) :
    .updateSoft cn edge vni j ∈ shape.program nIter := by
  have item : (edge, vni) ∈ (shape.edges cn).zipIdx := List.mem_zipIdx_iff_getElem?.mpr found
  simp only [LdpcShape.program, LdpcShape.iterationOps, LdpcShape.layerOps, LdpcShape.updateOps,
    List.mem_append, List.mem_flatMap, List.mem_range, List.mem_cons, List.not_mem_nil, or_false]
  exact .inr (.inl ⟨0, turns, cn, check, .inr (.inr ⟨(edge, vni), item, j, inside, .inl rfl⟩)⟩)

/-! ### Lifted codes -/

/-- `ldpc_decode` decodes the lifted code: Step B goes back to the check-node position Step A
came from, no index leaves its array, and the run ends as the run on the table with every
shift reduced modulo the lifting size, in all of the memory. -/
structure DecodesAsLifted (shape : LdpcShape) (llr : Nat → Nat → Int) (nIter : Nat)
    (memory : LdpcMemory) : Prop where
  inverts : 0 < nIter → ∀ cn < shape.nCn, ∀ edge ∈ shape.edges cn, ∀ j < shape.ls,
    0 ≤ edge.cnPosition shape.ls j ∧ (edge.cnPosition shape.ls j).toNat < shape.ls ∧
      edge.vnPosition shape.ls (edge.cnPosition shape.ls j).toNat = j
  agrees : ∃ final, ldpcDecode shape llr nIter memory = some final ∧
    ldpcDecode shape.reduced llr nIter memory = some final

theorem ldpcDecode_reduced {nIter : Nat} (fit : nIter = 0 ∨ shape.ShiftsFit)
    (memory : LdpcMemory) :
    ldpcDecode shape.reduced llr nIter memory = ldpcDecode shape llr nIter memory := by
  rw [ldpcDecode, ldpcDecode, program_reduced, List.foldlM_map]
  have same : ∀ op ∈ shape.program nIter, ∀ memory,
      ldpcExec shape.reduced llr memory (op.reduce shape.ls) = ldpcExec shape llr memory op :=
    fun op member memory => ldpcExec_reduce memory (inBounds_program fit member).2
  exact foldlM_congr same memory

theorem decodesAsLifted_iff_shiftsFit (two : 2 ≤ shape.ls) (nIter : Nat)
    (memory : LdpcMemory) :
    DecodesAsLifted shape llr nIter memory ↔ nIter = 0 ∨ shape.ShiftsFit := by
  constructor
  · rintro ⟨_, final, decoded, _⟩
    rcases Nat.eq_zero_or_pos nIter with none | turns
    · exact .inl none
    · refine .inr fun cn check edge found => ?_
      by_contra large
      obtain ⟨vni, here⟩ := List.mem_iff_getElem?.mp found
      obtain ⟨j, inside, negative⟩ := cnPosition_neg two (Nat.lt_of_not_le large)
      have bounds := (foldlM_ldpcExec (shape.program nIter) memory).mp ⟨final, decoded⟩ _
        (mem_program_updateSoft turns check here inside)
      exact absurd bounds.1 (by omega)
  · intro fit
    refine ⟨fun turns cn check edge found j inside => ?_, ?_⟩
    · rcases fit with rfl | fit
      · exact absurd turns (Nat.lt_irrefl 0)
      · exact cnPosition_spec (fit cn check edge found) inside
    · obtain ⟨final, decoded⟩ : ∃ final, ldpcDecode shape llr nIter memory = some final :=
        (foldlM_ldpcExec (shape.program nIter) memory).mpr
          fun op member => (inBounds_program fit member).1
      exact ⟨final, decoded, (ldpcDecode_reduced fit memory).trans decoded⟩

end Reduce

/-! ### The tables of the host -/

/-- The shape that `oi_p2_ldpc_decode_cb` passes to the kernel: the row of the raw table
that belongs to the set of the lifting size. -/
def hostShape (bg : BaseGraph) (lifting : LiftingSize) : LdpcShape :=
  bg.shape lifting.z lifting.z_le (bgShifts bg lifting.lsIdx)

/-- The lifting sizes that no shift of their set exceeds. -/
def wholeShiftSizes : BaseGraph → List Nat
  | .bg1 => [208, 224, 240, 256, 288, 320, 352, 384]
  | .bg2 => [144, 160, 176, 192, 208, 224, 240, 256, 288, 320, 352, 384]

theorem mem_wholeShiftSizes_iff (bg : BaseGraph) (lifting : LiftingSize) :
    lifting.z ∈ wholeShiftSizes bg ↔ maxShift bg lifting.lsIdx ≤ lifting.z := by
  have table : ∀ bg ∈ [BaseGraph.bg1, .bg2], ∀ item ∈ lsToIdx.zipIdx, item.1 ≠ 255 →
      (item.2 ∈ wholeShiftSizes bg ↔ maxShift bg item.1 ≤ item.2) := by
    decide +kernel
  exact table bg (by cases bg <;> simp) (lifting.lsIdx, lifting.z)
    (List.mem_zipIdx_iff_getElem?.mpr lifting.found) lifting.accepted

/-- An edge of the host's shape. -/
theorem mem_hostShape_edges {bg : BaseGraph} {lifting : LiftingSize} {cn : Nat} {edge : Edge} :
    edge ∈ (hostShape bg lifting).edges cn ↔
      edge.vn < bg.nVnFull ∧ bgShifts bg lifting.lsIdx cn edge.vn ≠ noEdge ∧
        edge.shift = bgShifts bg lifting.lsIdx cn edge.vn := by
  simp only [LdpcShape.edges, List.mem_filterMap, List.mem_range]
  constructor
  · rintro ⟨vn, node, found⟩
    split_ifs at found with none
    cases found
    exact ⟨node, none, rfl⟩
  · rintro ⟨node, some, shift⟩
    refine ⟨edge.vn, node, ?_⟩
    rw [if_neg (show (hostShape bg lifting).bgShifts cn edge.vn ≠ noEdge from some)]
    exact congrArg Option.some (congrArg (Edge.mk edge.vn) shift.symm)

theorem hostShape_shiftsFit_iff (bg : BaseGraph) (lifting : LiftingSize) :
    (hostShape bg lifting).ShiftsFit ↔ lifting.z ∈ wholeShiftSizes bg := by
  rw [mem_wholeShiftSizes_iff]
  constructor
  · intro fit
    obtain ⟨cn, check, vn, node, value⟩ := maxShift_attained bg lifting.lsIdx_lt
    have some : bgShifts bg lifting.lsIdx cn vn ≠ noEdge := by
      have := maxShift_lt_noEdge bg lifting.lsIdx lifting.lsIdx_lt
      omega
    have bound := fit cn check ⟨vn, bgShifts bg lifting.lsIdx cn vn⟩
      (mem_hostShape_edges.mpr ⟨node, some, rfl⟩)
    exact value ▸ bound
  · intro largest cn check edge found
    obtain ⟨node, some, shift⟩ := mem_hostShape_edges.mp found
    have hasEdge : bg.HasEdge cn edge.vn := by
      by_contra none
      exact some ((bgShifts_eq_noEdge_iff lifting.lsIdx_lt).mpr none)
    rw [shift]
    exact (bgShifts_of_hasEdge lifting.lsIdx_lt hasEdge).trans largest

/-- For both base graphs, every lifting size the host accepts, every LLR vector and every
iteration count: `ldpc_decode` on the row of the raw shift table that the host selects stays
inside its arrays and decodes the lifted code exactly when there is nothing to iterate or
the lifting size is one that no shift of its set exceeds. -/
theorem decodes_as_lifted_iff (bg : BaseGraph) (lifting : LiftingSize) (llr : Nat → Nat → Int)
    (nIter : Nat) (memory : LdpcMemory) :
    DecodesAsLifted (hostShape bg lifting) llr nIter memory ↔
      nIter = 0 ∨ lifting.z ∈ wholeShiftSizes bg := by
  rw [decodesAsLifted_iff_shiftsFit lifting.two_le, hostShape_shiftsFit_iff]

/-- The lifting size 2 is accepted, but one iteration on the second base graph indexes in
front of the scratch arrays. -/
theorem lifting_size_two_out_of_bounds :
    ¬ ∀ (bg : BaseGraph) (lifting : LiftingSize) (llr : Nat → Nat → Int) (nIter : Nat)
      (memory : LdpcMemory), DecodesAsLifted (hostShape bg lifting) llr nIter memory := by
  intro claim
  let lifting : LiftingSize := { z := 2, lsIdx := 0, found := rfl, accepted := by decide }
  let memory : LdpcMemory :=
    { soft := fun _ _ => 0
      c2v := fun _ _ _ => 0
      scratch := fun _ => TwoMin.start llrInf
      sprod := fun _ => false
      c2vNew := 0
      out := fun _ => 0 }
  have two : 2 ≤ (hostShape .bg2 lifting).ls := Nat.le_refl 2
  have fit := (decodesAsLifted_iff_shiftsFit two 1 memory).mp
    (claim .bg2 lifting (fun _ _ => 0) 1 memory)
  rw [hostShape_shiftsFit_iff] at fit
  rcases fit with none | whole
  · exact absurd none (by decide)
  · exact absurd whole (by decide)

end RanInline.Ldpc
