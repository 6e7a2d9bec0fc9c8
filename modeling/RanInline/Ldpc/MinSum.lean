/-
Module: RanInline.Ldpc.MinSum
Purpose: The check-node step of ldpc_decode against the reference extrinsic min-sum: what a
  layer stores along every edge, in terms of the state before the layer, in every run.
Trusted boundary: none
Main exports: signOf, clamp, IsMinSumMessage, isMinSumMessage_extrinsicMessage,
  LdpcShape.layersBefore, LdpcShape.otherValues, layer_stores_min_sum
-/
import Mathlib.Algebra.BigOperators.Group.List.Basic
import Mathlib.Algebra.Order.Group.Unbundled.Int
import Mathlib.Order.Bounds.Basic
import RanInline.Ldpc.Kernel

namespace RanInline.Ldpc

open RanInline.Lib

/-! ### The reference -/

/-- The sign of a value, zero counting as positive. -/
def signOf (value : Int) : Int := if value < 0 then -1 else 1

/-- The finite range of the LLRs. -/
def clamp (value : Int) : Int := max (-120) (min 120 value)

/-- The reference message of a check node along one edge: the product of the signs of the
values along the other edges, times four fifths of the least of their magnitudes, rounded half
up. -/
def IsMinSumMessage (others : List Int) (message : Int) : Prop :=
  ∃ m, IsLeast {magnitude | ∃ value ∈ others, |value| = magnitude} m ∧
    message = (others.map signOf).prod * ((4 * m + 2) / 5)

theorem prod_map_signOf (values : List Int) :
    (values.map signOf).prod =
      if parity (values.map fun value => decide (value < 0)) then -1 else 1 := by
  induction values with
  | nil => rfl
  | cons value values inductionHypothesis =>
      rw [List.map_cons, List.prod_cons, inductionHypothesis, List.map_cons, parity_cons, signOf]
      by_cases negative : value < 0 <;>
        cases parity (values.map fun value => decide (value < 0)) <;> simp [negative]

/-- Among clamped values the minimum of the scan is the least magnitude, not its start
value. -/
theorem isLeast_minimum {values : List Int} (clamped : Clamped values)
    (several : 2 ≤ values.length) (index : Nat) :
    IsLeast {magnitude | ∃ value ∈ values.eraseIdx index, |value| = magnitude}
      (minimum llrInf ((values.eraseIdx index).map fun value => (value.natAbs : Int))) := by
  constructor
  · obtain ⟨_, small⟩ := minimum_others_range clamped several index
    rcases minimum_mem llrInf ((values.eraseIdx index).map fun value => (value.natAbs : Int)) with
      none | inside
    · rw [none] at small
      exact absurd small (by decide)
    · obtain ⟨value, member, same⟩ := List.mem_map.mp inside
      exact ⟨value, member, by rw [Int.abs_eq_natAbs, same]⟩
  · rintro magnitude ⟨value, member, rfl⟩
    rw [Int.abs_eq_natAbs]
    exact minimum_le (List.mem_map_of_mem member)

theorem isMinSumMessage_extrinsicMessage {values : List Int} (clamped : Clamped values)
    (several : 2 ≤ values.length) (index : Nat) :
    IsMinSumMessage (values.eraseIdx index) (extrinsicMessage values index) := by
  refine ⟨_, isLeast_minimum clamped several index, ?_⟩
  rw [extrinsicMessage, prod_map_signOf]
  split_ifs
  · rw [neg_one_mul]
  · rw [one_mul]

/-! ### Where the layers stand -/

section Layers

variable {shape : LdpcShape} {llr : Nat → Nat → Int} {memory : LdpcMemory}

/-- What the kernel does in front of the layer of `cn` in iteration `iter`. -/
def LdpcShape.layersBefore (shape : LdpcShape) (iter cn : Nat) : List LdpcOp :=
  shape.loadOps ++ (shape.iterationOps iter ++ (List.range cn).flatMap shape.layerOps)

theorem flatMap_range_split {α : Type} (body : Nat → List α) {i n : Nat} (less : i < n) :
    ∃ rest, (List.range n).flatMap body = (List.range i).flatMap body ++ (body i ++ rest) := by
  obtain ⟨count, rfl⟩ := Nat.exists_eq_add_of_lt less
  refine ⟨((List.range count).map (i + 1 + ·)).flatMap body, ?_⟩
  rw [show i + count + 1 = i + 1 + count by omega, List.range_add, List.flatMap_append,
    List.range_succ, List.flatMap_append, List.flatMap_singleton, List.append_assoc]

/-- The kernel from a layer on. -/
theorem program_split {nIter iter cn : Nat} (turn : iter < nIter) (check : cn < shape.nCn) :
    ∃ rest, shape.program nIter = shape.layersBefore iter cn ++ (shape.layerOps cn ++ rest) := by
  obtain ⟨later, iterations⟩ := flatMap_range_split
    (fun _ => (List.range shape.nCn).flatMap shape.layerOps) turn
  obtain ⟨layers, iteration⟩ := flatMap_range_split shape.layerOps check
  refine ⟨layers ++ (later ++ shape.emitOps), ?_⟩
  have split : shape.iterationOps nIter = shape.iterationOps iter ++
      ((List.range cn).flatMap shape.layerOps ++ (shape.layerOps cn ++ layers) ++ later) := by
    rw [← iteration]
    exact iterations
  rw [LdpcShape.program, LdpcShape.layersBefore, split]
  simp only [List.append_assoc]

/-- The states a run passes in a layer. -/
theorem ldpcDecodeAfter_layer {nIter iter cn k : Nat} {before : LdpcMemory} (turn : iter < nIter)
    (check : cn < shape.nCn)
    (reached : ldpcDecodeAfter shape llr nIter memory (shape.layersBefore iter cn).length =
      some before)
    (inside : k ≤ (shape.layerOps cn).length) :
    ldpcDecodeAfter shape llr nIter memory ((shape.layersBefore iter cn).length + k) =
      ((shape.layerOps cn).take k).foldlM (ldpcExec shape llr) before := by
  obtain ⟨rest, split⟩ := program_split turn check
  rw [ldpcDecodeAfter, split, List.take_left] at reached
  rw [ldpcDecodeAfter, split, List.take_length_add_append, List.take_append_of_le_length inside,
    List.foldlM_append, reached]
  rfl

/-- Every layer is reached. -/
theorem layer_reached (regular : Regular shape) (llr : Nat → Nat → Int) (nIter : Nat)
    (memory : LdpcMemory) (iter cn : Nat) :
    ∃ before, ldpcDecodeAfter shape llr nIter memory (shape.layersBefore iter cn).length =
      some before := by
  have run : KernelRun shape llr nIter memory (fun _ _ => True) fun _ _ => True := by
    refine kernelRun (fun _ => trivial) (fun _ _ _ _ _ => trivial) regular (fun _ _ kept => kept)
      (fun _ kept => kept) (fun _ _ _ kept => kept) (fun _ _ _ _ => ?_) nIter (fun _ _ => trivial)
    exact fun _ _ _ _ _ _ _ _ _ _ => ⟨trivial, trivial, trivial, trivial⟩
  obtain ⟨before, reached, _⟩ := run.every (shape.layersBefore iter cn).length
    (by rw [LdpcShape.layersBefore, List.length_append]; exact Nat.le_add_right _ _)
  exact ⟨before, reached⟩

/-! ### What a layer stores -/

/-- The values along the other edges than number `vni` into position `r` of a check node: the
soft value without the message of the check node, clamped. -/
def LdpcShape.otherValues (shape : LdpcShape) (before : LdpcMemory) (cn vni r : Nat) : List Int :=
  ((shape.edges cn).eraseIdx vni).map fun edge =>
    clamp (before.soft edge.vn (edge.vnPosition shape.ls r) -
      before.c2v cn edge.vn (edge.vnPosition shape.ls r))

theorem otherValues_eq (shape : LdpcShape) (before : LdpcMemory) (cn vni r : Nat) :
    shape.otherValues before cn vni r = (shape.rowValues before cn r).eraseIdx vni := by
  rw [LdpcShape.rowValues, List.eraseIdx_map, LdpcShape.otherValues]
  refine List.map_congr_left fun edge _ => ?_
  rw [LdpcMemory.v2c, llrSub_eq, clamp]

/-- The message of a layer along an edge is the reference message of the other edges. -/
theorem isMinSumMessage_message (regular : Regular shape) (before : LdpcMemory) {cn vni : Nat}
    {edge : Edge} (check : cn < shape.nCn) (found : (shape.edges cn)[vni]? = some edge) {r : Nat}
    (position : r < shape.ls) :
    IsMinSumMessage (shape.otherValues before cn vni r)
      (shape.message before cn vni edge (edge.vnPosition shape.ls r)) := by
  have shift := regular.shifts cn check edge (List.mem_of_getElem? found)
  obtain ⟨_, inside, back⟩ := cnPosition_spec shift (vnPosition_lt edge position)
  have several := two_le_length_rowValues regular before check r
  rw [LdpcShape.message, vnPosition_inj edge inside position back, otherValues_eq]
  exact isMinSumMessage_extrinsicMessage (clamped_rowValues shape before cn r) several vni

/-- The messages of a layer are the old ones or the new ones. -/
def PartlyStored (shape : LdpcShape) (before : LdpcMemory) (cn : Nat)
    (_soft : Nat → Nat → Int) (c2v : Nat → Nat → Nat → Int) : Prop :=
  ∀ (vni : Nat) (edge : Edge), (shape.edges cn)[vni]? = some edge → ∀ j < shape.ls,
    c2v cn edge.vn j = before.c2v cn edge.vn j ∨
      c2v cn edge.vn j = shape.message before cn vni edge j

theorem edgeRule_partlyStored (shape : LdpcShape) (before : LdpcMemory) (cn : Nat) :
    EdgeRule shape (PartlyStored shape before cn) (PartlyStored shape before cn)
      (fun _ _ => True) before cn := by
  intro soft c2v vni edge j found position _ _ partly
  have partly' : PartlyStored shape before cn soft
      (updatedC2v c2v cn edge.vn j (shape.message before cn vni edge j)) := by
    intro other edgeOther foundOther j' position'
    rw [updatedC2v, Function.update_self, store_apply]
    split_ifs with here
    · obtain ⟨sameNode, rfl⟩ := here
      obtain rfl := index_eq_of_vn_eq found foundOther sameNode
      obtain rfl : edge = edgeOther := Option.some.inj (found.symm.trans foundOther)
      exact .inr rfl
    · exact partly other edgeOther foundOther j' position'
  exact ⟨trivial, partly, partly', partly'⟩

/-- The check-node step is extrinsic min-sum.  For every regular shift matrix, every LLRs and
iteration count, in every iteration and layer: after the layer the message along every edge is
the reference message of the values that the other edges had before the layer, and in every
state on the way it is that message or the old one. -/
theorem layer_stores_min_sum (regular : Regular shape) (llr : Nat → Nat → Int) (nIter : Nat)
    (memory : LdpcMemory) {iter cn : Nat} (turn : iter < nIter) (check : cn < shape.nCn) :
    ∃ before after,
      ldpcDecodeAfter shape llr nIter memory (shape.layersBefore iter cn).length = some before ∧
      ldpcDecodeAfter shape llr nIter memory
        ((shape.layersBefore iter cn).length + (shape.layerOps cn).length) = some after ∧
      ∀ (vni : Nat) (edge : Edge), (shape.edges cn)[vni]? = some edge → ∀ r < shape.ls,
        IsMinSumMessage (shape.otherValues before cn vni r)
          (after.c2v cn edge.vn (edge.vnPosition shape.ls r)) ∧
        ∀ k ≤ (shape.layerOps cn).length, ∃ state,
          ldpcDecodeAfter shape llr nIter memory ((shape.layersBefore iter cn).length + k) =
            some state ∧
          (state.c2v cn edge.vn (edge.vnPosition shape.ls r) =
              before.c2v cn edge.vn (edge.vnPosition shape.ls r) ∨
            state.c2v cn edge.vn (edge.vnPosition shape.ls r) =
              after.c2v cn edge.vn (edge.vnPosition shape.ls r)) := by
  obtain ⟨before, reached⟩ := layer_reached regular llr nIter memory iter cn
  have within {k : Nat} (inside : k ≤ (shape.layerOps cn).length) :=
    ldpcDecodeAfter_layer turn check reached inside
  have start : PartlyStored shape before cn before.soft before.c2v :=
    fun _ _ _ _ _ => .inl rfl
  have along : LdpcAlong shape llr (PartlyStored shape before cn) (fun _ _ => True)
      (fun final => PartlyStored shape before cn final.soft final.c2v ∧
        Stored shape before cn (shape.edges cn).length 0 final) (shape.layerOps cn) before :=
    along_layer (fun _ => trivial) regular check (edgeRule_partlyStored shape before cn) start start
  obtain ⟨after, run, _, _, stored⟩ := along.ends
  refine ⟨before, after, reached, ?_, ?_⟩
  · rw [within (Nat.le_refl _), List.take_length]
    exact run
  intro vni edge found r position
  have new : after.c2v cn edge.vn (edge.vnPosition shape.ls r) =
      shape.message before cn vni edge (edge.vnPosition shape.ls r) :=
    stored vni edge found _ (vnPosition_lt edge position)
      (.inl (List.getElem?_eq_some_iff.mp found).1)
  rw [new]
  refine ⟨isMinSumMessage_message regular before check found position, fun k inside => ?_⟩
  obtain ⟨state, passed, rest⟩ := along.drop k
  exact ⟨state, (within inside).trans passed,
    rest.head vni edge found _ (vnPosition_lt edge position)⟩

end Layers

/-- One check over four variable nodes, with a lifting size of three. -/
private def tiedShape : LdpcShape where
  nVnFull := 4
  nCn := 1
  nVnInfo := 1
  ls := 3
  bgShifts := fun _ vn => vn
  ls_le := by decide
  nVnFull_le := by decide
  nVnInfo_le := by decide

/-- LLRs with a zero and with equal magnitudes. -/
private def tiedLlr (vn j : Nat) : Int := if vn = 0 then 7 * j else 20 - 20 * j

/-- Memory as the host prepares it. -/
private def tiedMemory : LdpcMemory where
  soft := fun _ _ => 0
  c2v := fun _ _ _ => 0
  scratch := fun _ => TwoMin.start 0
  sprod := fun _ => false
  c2vNew := 0
  out := fun _ => 0

/-- The second iteration of a decoder with ties and a zero. -/
theorem layer_stores_min_sum_of_tied_values :
    Regular tiedShape ∧ ∃ before after,
      ldpcDecodeAfter tiedShape tiedLlr 2 tiedMemory
        (tiedShape.layersBefore 1 0).length = some before ∧
      ldpcDecodeAfter tiedShape tiedLlr 2 tiedMemory
        ((tiedShape.layersBefore 1 0).length + (tiedShape.layerOps 0).length) = some after ∧
      IsMinSumMessage (tiedShape.otherValues before 0 1 0) (after.c2v 0 1 1) := by
  have regular : Regular tiedShape := ⟨by decide, by decide⟩
  obtain ⟨before, after, reached, reachedAfter, messages⟩ :=
    layer_stores_min_sum regular tiedLlr 2 tiedMemory (show 1 < 2 by decide)
      (show 0 < tiedShape.nCn by decide)
  exact ⟨regular, before, after, reached, reachedAfter,
    (messages 1 ⟨1, 1⟩ (by decide) 0 (by decide)).1⟩

end RanInline.Ldpc
