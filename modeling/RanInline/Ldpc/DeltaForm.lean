/-
Module: RanInline.Ldpc.DeltaForm
Purpose: The delta update of ldpc_decode.cl against the srsRAN form its header comment calls
  equivalent: the saturations under which the two give one result, and whole runs.
Trusted boundary: none
Main exports: srsranExec, srsranDecode, SaturationHarmless, llrAdd_llrSub_eq_iff, HarmlessRun,
  delta_update_agrees_iff
-/
import RanInline.Ldpc.Lifting
import RanInline.Ldpc.SignConsistent

namespace RanInline.Ldpc

open RanInline.Lib

/-! ### The srsRAN form -/

section Srsran

variable (shape : LdpcShape) (llr : Nat → Nat → Int)

/-- The effect of an assignment with the soft update of the header comment,
`soft[j] = promotion_sum(c2v_new[j], v2c[j])`. -/
def LdpcMemory.srsranApply (memory : LdpcMemory) : LdpcOp → LdpcMemory
  | .updateSoft cn edge vni j =>
      let c2vNew := memory.newMessage cn edge.vn vni j (edge.cnPosition shape.ls j).toNat
      { memory with
        c2vNew := c2vNew
        soft := store memory.soft edge.vn j (llrAdd c2vNew (memory.v2c cn edge.vn j)) }
  | op => memory.apply shape llr op

/-- Execute an assignment of the decoder in the srsRAN form. -/
def srsranExec (memory : LdpcMemory) (op : LdpcOp) : Option LdpcMemory :=
  if op.InBounds shape then some (memory.srsranApply shape llr op) else none

/-- The decoder in the srsRAN form. -/
def srsranDecode (nIter : Nat) (memory : LdpcMemory) : Option LdpcMemory :=
  (shape.program nIter).foldlM (srsranExec shape llr) memory

/-- Its state after `k` assignments. -/
def srsranDecodeAfter (nIter : Nat) (memory : LdpcMemory) (k : Nat) : Option LdpcMemory :=
  ((shape.program nIter).take k).foldlM (srsranExec shape llr) memory

end Srsran

/-! ### Saturation -/

/-- The saturations of the two forms do no harm.  An infinite soft value stays infinite in
the delta form alone, so the new message has to bring it back; a difference that is clamped
to the finite range has to become infinite in the sum. -/
structure SaturationHarmless (soft old new : Int) : Prop where
  positive : soft = 127 → 1 ≤ new ∧ old ≤ new + 6
  negative : soft = -127 → new ≤ -1 ∧ new ≤ old + 6
  extrinsicAbove : 120 < soft - old → 1 ≤ new
  extrinsicBelow : soft - old < -120 → new ≤ -1
  deltaAbove : 120 < new - old → 1 ≤ soft
  deltaBelow : new - old < -120 → soft ≤ -1

theorem saturationHarmless_iff {soft old new : Int} :
    SaturationHarmless soft old new ↔
      (soft = 127 → 1 ≤ new ∧ old ≤ new + 6) ∧ (soft = -127 → new ≤ -1 ∧ new ≤ old + 6) ∧
      (120 < soft - old → 1 ≤ new) ∧ (soft - old < -120 → new ≤ -1) ∧
      (120 < new - old → 1 ≤ soft) ∧ (new - old < -120 → soft ≤ -1) :=
  ⟨fun h => ⟨h.1, h.2, h.3, h.4, h.5, h.6⟩, fun h => ⟨h.1, h.2.1, h.2.2.1, h.2.2.2.1, h.2.2.2.2.1,
    h.2.2.2.2.2⟩⟩

instance (soft old new : Int) : Decidable (SaturationHarmless soft old new) :=
  decidable_of_iff _ saturationHarmless_iff.symm

theorem MessageRange.softRange {x : Int} (range : MessageRange x) : SoftRange x :=
  .inl ⟨by have := range.1; omega, by have := range.2; omega⟩

/-- The difference is clamped above, clamped below or exact. -/
theorem llrSub_cases (a b : Int) :
    120 < a - b ∧ llrSub a b = 120 ∨ a - b < -120 ∧ llrSub a b = -120 ∨
      -120 ≤ a - b ∧ a - b ≤ 120 ∧ llrSub a b = a - b := by
  rw [llrSub_eq]
  omega

/-- The delta form and the srsRAN form give one soft value exactly when their saturations do
no harm. -/
theorem llrAdd_llrSub_eq_iff {soft old new : Int} (softRange : SoftRange soft)
    (oldRange : MessageRange old) (newRange : MessageRange new) :
    llrAdd soft (llrSub new old) = llrAdd new (llrSub soft old) ↔
      SaturationHarmless soft old new := by
  have delta := llrSub_cases new old
  have extrinsic := llrSub_cases soft old
  have finite : ¬ (new = 127 ∨ new = -127) := by
    rw [MessageRange] at newRange
    omega
  rw [llrAdd_eq softRange (by omega), llrAdd_eq newRange.softRange (by omega), if_neg finite,
    saturationHarmless_iff]
  generalize llrSub new old = change at delta ⊢
  generalize llrSub soft old = v2c at extrinsic ⊢
  rw [SoftRange] at softRange
  rw [MessageRange] at oldRange newRange
  rcases softRange with inside | top | bottom
  · rw [if_neg (by omega)]
    rcases extrinsic with ⟨_, rfl⟩ | ⟨_, rfl⟩ | ⟨_, _, rfl⟩ <;>
      rcases delta with ⟨_, rfl⟩ | ⟨_, rfl⟩ | ⟨_, _, rfl⟩ <;> split_ifs <;> omega
  · rw [if_pos (.inl top)]
    clear delta
    split_ifs <;> omega
  · rw [if_pos (.inr bottom)]
    clear delta
    split_ifs <;> omega

/-! ### Ranges along a run -/

section Run

variable {shape : LdpcShape} {llr : Nat → Nat → Int} {memory : LdpcMemory} {nIter : Nat}

/-- The soft values and messages are in their ranges. -/
def Ranged (shape : LdpcShape) (soft : Nat → Nat → Int) (c2v : Nat → Nat → Nat → Int) : Prop :=
  (∀ vn < shape.nVnFull, ∀ j < shape.ls, SoftRange (soft vn j)) ∧
    ∀ cn < shape.nCn, ∀ vn < shape.nVnFull, ∀ j < shape.ls, MessageRange (c2v cn vn j)

theorem softRange_llrAdd {soft change : Int} (range : SoftRange soft)
    (small : -120 ≤ change ∧ change ≤ 120) : SoftRange (llrAdd soft change) := by
  rw [llrAdd_eq range small]
  rw [SoftRange] at range ⊢
  split_ifs <;> omega

/-- The edge updates of a layer keep the ranges. -/
theorem edgeRule_ranged (regular : Regular shape) (before : LdpcMemory) {cn : Nat}
    (check : cn < shape.nCn) :
    EdgeRule shape (Ranged shape) (Ranged shape) (fun _ _ => True) before cn := by
  rintro soft c2v vni edge j found position _ _ ⟨softs, messages⟩
  have several := two_le_length_rowValues regular before check (edge.cnPosition shape.ls j).toNat
  have new : MessageRange (shape.message before cn vni edge j) :=
    extrinsicMessage_range (clamped_rowValues shape before cn _) several vni
  have softs' : ∀ vn < shape.nVnFull, ∀ j' < shape.ls, SoftRange
      (updatedSoft soft edge.vn j (shape.message before cn vni edge j) (c2v cn edge.vn j) vn j') := by
    intro vn node j' position'
    rw [updatedSoft, store_apply]
    split_ifs with here
    · have clamped := llrSub_cases (shape.message before cn vni edge j) (c2v cn edge.vn j)
      exact softRange_llrAdd (softs _ (here.1 ▸ node) _ position) (by omega)
    · exact softs vn node j' position'
  have messages' : ∀ cn' < shape.nCn, ∀ vn < shape.nVnFull, ∀ j' < shape.ls, MessageRange
      (updatedC2v c2v cn edge.vn j (shape.message before cn vni edge j) cn' vn j') := by
    intro cn' check' vn node j' position'
    rw [updatedC2v_apply]
    split_ifs
    · exact new
    · exact messages cn' check' vn node j' position'
  exact ⟨trivial, ⟨softs', messages⟩, ⟨softs', messages'⟩, softs', messages'⟩

/-- In every state of a run behind the load, the soft values and messages are in their
ranges. -/
theorem ranged_of_run (regular : Regular shape)
    (channel : ∀ vn < shape.nVnFull, ∀ j < shape.ls, SoftRange (llr vn j))
    (zeroed : Zeroed shape memory) :
    KernelRun shape llr nIter memory (Ranged shape) fun _ _ => True := by
  refine kernelRun (fun _ => trivial) (fun _ _ _ _ _ => trivial) regular
    (fun _ _ ranged => ranged) (fun _ ranged => ranged) (fun _ _ _ ranged => ranged)
    (fun before _ check _ => edgeRule_ranged regular before check) nIter ?_
  rintro loaded ⟨messages, values⟩
  refine ⟨fun vn node j position => ?_, fun cn check vn node j position => ?_⟩
  · rw [values vn node j position]
    exact channel vn node j position
  · rw [messages, zeroed cn check vn node j position]
    decide

/-! ### Where the soft updates stand -/

/-- Every soft update is followed by the store of its message. -/
def StoresFollow (ops : List LdpcOp) : Prop :=
  ∀ (k : Nat) cn edge vni j, ops[k]? = some (.updateSoft cn edge vni j) →
    ops[k + 1]? = some (.storeC2v cn edge j)

theorem StoresFollow.append {first second : List LdpcOp} (one : StoresFollow first)
    (two : StoresFollow second) : StoresFollow (first ++ second) := by
  intro k cn edge vni j found
  rcases Nat.lt_or_ge k first.length with early | late
  · rw [List.getElem?_append_left early] at found
    have next := one k cn edge vni j found
    rwa [List.getElem?_append_left (List.getElem?_eq_some_iff.mp next).1]
  · rw [List.getElem?_append_right late] at found
    rw [List.getElem?_append_right (by omega), Nat.sub_add_comm late]
    exact two _ cn edge vni j found

theorem StoresFollow.flatMap {Item : Type} {items : List Item} {body : Item → List LdpcOp}
    (each : ∀ item ∈ items, StoresFollow (body item)) : StoresFollow (items.flatMap body) :=
  flatMap_of_append (by simp [StoresFollow]) (fun _ _ => StoresFollow.append) each

theorem storesFollow_singleton {op : LdpcOp}
    (other : ∀ cn edge vni j, op ≠ .updateSoft cn edge vni j) : StoresFollow [op] := by
  intro k cn edge vni j found
  obtain rfl : op = _ := List.mem_singleton.mp (List.mem_of_getElem? found) |>.symm
  exact absurd rfl (other cn edge vni j)

theorem storesFollow_update (cn : Nat) (edge : Edge) (vni j : Nat) :
    StoresFollow [.updateSoft cn edge vni j, .storeC2v cn edge j] := by
  intro k cn' edge' vni' j' found
  match k with
  | 0 =>
      simp only [List.getElem?_cons_zero, Option.some.injEq, LdpcOp.updateSoft.injEq] at found
      obtain ⟨rfl, rfl, rfl, rfl⟩ := found
      rfl
  | 1 => simp at found
  | k + 2 => simp at found

theorem storesFollow_program (shape : LdpcShape) (nIter : Nat) :
    StoresFollow (shape.program nIter) := by
  have loads : StoresFollow shape.loadOps :=
    .flatMap fun vn _ => .flatMap fun zi _ => storesFollow_singleton (by simp)
  have emits : StoresFollow shape.emitOps :=
    .flatMap fun vn _ => .flatMap fun zi _ => storesFollow_singleton (by simp)
  have layers (cn : Nat) : StoresFollow (shape.layerOps cn) := by
    refine .append (.flatMap fun r _ => storesFollow_singleton (by simp)) (.append ?_ ?_)
    · exact .flatMap fun item _ => .flatMap fun r _ => storesFollow_singleton (by simp)
    · exact .flatMap fun item _ => .flatMap fun j _ => storesFollow_update cn item.1 item.2 j
  exact loads.append ((StoresFollow.flatMap fun _ _ => .flatMap fun cn _ => layers cn).append emits)

/-- An assignment that neither loads nor emits stands behind the load, in a layer. -/
theorem layer_of_getElem? {k : Nat} {op : LdpcOp}
    (found : (shape.program nIter)[k]? = some op) (notLoad : ∀ vn zi, op ≠ .load vn zi)
    (notEmit : ∀ vn zi, op ≠ .emit vn zi) :
    shape.loadOps.length ≤ k ∧ ∃ cn < shape.nCn, op ∈ shape.layerOps cn := by
  have behind : shape.loadOps.length ≤ k := by
    by_contra early
    rw [LdpcShape.program, List.getElem?_append_left (by omega)] at found
    have member := List.mem_of_getElem? found
    simp only [LdpcShape.loadOps, List.mem_flatMap, List.mem_singleton] at member
    obtain ⟨vn, _, zi, _, isLoad⟩ := member
    exact notLoad vn zi isLoad
  have member := List.mem_of_getElem? found
  simp only [LdpcShape.program, LdpcShape.loadOps, LdpcShape.iterationOps, LdpcShape.emitOps,
    List.mem_append, List.mem_flatMap, List.mem_range, List.mem_singleton] at member
  rcases member with ⟨vn, _, zi, _, isLoad⟩ | ⟨_, _, cn, check, layer⟩ | ⟨vn, _, zi, _, isEmit⟩
  · exact absurd isLoad (notLoad vn zi)
  · exact ⟨behind, cn, check, layer⟩
  · exact absurd isEmit (notEmit vn zi)

/-- The assignments of an edge stand behind the load and have their indices inside the
graph. -/
theorem edgeOp_of_getElem? {k cn vni j : Nat} {edge : Edge} {op : LdpcOp}
    (found : (shape.program nIter)[k]? = some op)
    (isEdge : op = .analyse cn edge vni j ∨ op = .updateSoft cn edge vni j) :
    shape.loadOps.length ≤ k ∧ cn < shape.nCn ∧ edge ∈ shape.edges cn ∧ j < shape.ls := by
  obtain ⟨behind, cn', check, layer⟩ := layer_of_getElem? found
    (by rcases isEdge with rfl | rfl <;> simp) (by rcases isEdge with rfl | rfl <;> simp)
  rcases mem_layerOps layer with ⟨_, _, isClear⟩ | ⟨edge', row, vni', j', inside, isOp⟩
  · rcases isEdge with rfl | rfl <;> cases isClear
  · rcases isEdge with rfl | rfl
    · simp only [reduceCtorEq, LdpcOp.analyse.injEq, or_false] at isOp
      obtain ⟨rfl, rfl, rfl, rfl⟩ := isOp
      exact ⟨behind, check, row, inside⟩
    · simp only [reduceCtorEq, LdpcOp.updateSoft.injEq, false_or, or_false] at isOp
      obtain ⟨rfl, rfl, rfl, rfl⟩ := isOp
      exact ⟨behind, check, row, inside⟩

theorem updateSoft_of_getElem? {k cn vni j : Nat} {edge : Edge}
    (found : (shape.program nIter)[k]? = some (.updateSoft cn edge vni j)) :
    shape.loadOps.length ≤ k ∧ cn < shape.nCn ∧ edge.vn < shape.nVnFull ∧ j < shape.ls := by
  obtain ⟨behind, check, row, inside⟩ := edgeOp_of_getElem? found (.inr rfl)
  exact ⟨behind, check, mem_edges row, inside⟩

/-! ### Whole runs -/

/-- In front of an assignment, the saturations of its soft update do no harm. -/
def LdpcOp.HarmlessIn (shape : LdpcShape) (memory : LdpcMemory) : LdpcOp → Prop
  | .updateSoft cn edge vni j =>
      SaturationHarmless (memory.soft edge.vn j) (memory.c2v cn edge.vn j)
        (memory.newMessage cn edge.vn vni j (edge.cnPosition shape.ls j).toNat)
  | _ => True

instance (shape : LdpcShape) (memory : LdpcMemory) :
    (op : LdpcOp) → Decidable (op.HarmlessIn shape memory)
  | .load _ _ => inferInstanceAs (Decidable True)
  | .clear _ => inferInstanceAs (Decidable True)
  | .analyse _ _ _ _ => inferInstanceAs (Decidable True)
  | .updateSoft _ _ _ _ => inferInstanceAs (Decidable (SaturationHarmless _ _ _))
  | .storeC2v _ _ _ => inferInstanceAs (Decidable True)
  | .emit _ _ => inferInstanceAs (Decidable True)

/-- The saturations do no harm in front of any assignment of a run of `ldpc_decode`. -/
def HarmlessRun (shape : LdpcShape) (llr : Nat → Nat → Int) (nIter : Nat)
    (memory : LdpcMemory) : Prop :=
  ∀ k op state, (shape.program nIter)[k]? = some op →
    ldpcDecodeAfter shape llr nIter memory k = some state → op.HarmlessIn shape state

theorem store_inj {α : Type} {array : Nat → Nat → α} {i j : Nat} {value other : α} :
    store array i j value = store array i j other ↔ value = other := by
  constructor
  · intro same
    have here := congrFun (congrFun same i) j
    simpa using here
  · rintro rfl
    rfl

/-- On a soft update the two decoders agree exactly when they compute one soft value. -/
theorem exec_updateSoft_eq_iff {state : LdpcMemory} {cn vni j : Nat} {edge : Edge}
    (inBounds : (LdpcOp.updateSoft cn edge vni j).InBounds shape) :
    ldpcExec shape llr state (.updateSoft cn edge vni j) =
        srsranExec shape llr state (.updateSoft cn edge vni j) ↔
      llrAdd (state.soft edge.vn j)
          (llrSub (state.newMessage cn edge.vn vni j (edge.cnPosition shape.ls j).toNat)
            (state.c2v cn edge.vn j)) =
        llrAdd (state.newMessage cn edge.vn vni j (edge.cnPosition shape.ls j).toNat)
          (llrSub (state.soft edge.vn j) (state.c2v cn edge.vn j)) := by
  rw [ldpcExec, srsranExec, if_pos inBounds, if_pos inBounds]
  simp only [LdpcMemory.apply, LdpcMemory.srsranApply, Option.some.injEq, LdpcMemory.mk.injEq,
    and_true, store_inj]
  rfl

theorem ldpcExec_eq_some {state next : LdpcMemory} {op : LdpcOp} :
    ldpcExec shape llr state op = some next ↔
      op.InBounds shape ∧ state.apply shape llr op = next := by
  rw [ldpcExec, Option.ite_none_right_eq_some, Option.some.injEq]

/-- The new message of a soft update is in its range: it is stored next. -/
theorem newMessage_range
    (run : KernelRun shape llr nIter memory (Ranged shape) fun _ _ => True) {k cn vni j : Nat}
    {edge : Edge} {state : LdpcMemory}
    (found : (shape.program nIter)[k]? = some (.updateSoft cn edge vni j))
    (reached : ldpcDecodeAfter shape llr nIter memory k = some state) :
    (LdpcOp.updateSoft cn edge vni j).InBounds shape ∧
      MessageRange (state.newMessage cn edge.vn vni j (edge.cnPosition shape.ls j).toNat) := by
  obtain ⟨behind, check, node, position⟩ := updateSoft_of_getElem? found
  have next := storesFollow_program shape nIter k cn edge vni j found
  obtain ⟨stored, reachedStored, ranged⟩ := run.every (k + 1 + 1) (by omega)
  rw [ldpcDecodeAfter, foldlM_take_succ _ next, foldlM_take_succ _ found,
    show ((shape.program nIter).take k).foldlM (ldpcExec shape llr) memory = some state from
      reached] at reachedStored
  obtain ⟨updated, executed, executedStore⟩ := Option.bind_eq_some_iff.mp reachedStored
  obtain ⟨inBounds, rfl⟩ := ldpcExec_eq_some.mp executed
  obtain ⟨_, rfl⟩ := ldpcExec_eq_some.mp executedStore
  have range := ranged.2 cn check edge.vn node j position
  simp only [LdpcMemory.apply, Function.update_self, store_apply, and_self, if_true] at range
  exact ⟨inBounds, range⟩

/-- The two decoders agree on every assignment exactly when its saturations do no harm. -/
theorem exec_eq_iff_harmlessIn
    (run : KernelRun shape llr nIter memory (Ranged shape) fun _ _ => True) {k : Nat}
    {op : LdpcOp} {state : LdpcMemory} (found : (shape.program nIter)[k]? = some op)
    (reached : ldpcDecodeAfter shape llr nIter memory k = some state) :
    ldpcExec shape llr state op = srsranExec shape llr state op ↔ op.HarmlessIn shape state := by
  cases op with
  | updateSoft cn edge vni j =>
      obtain ⟨behind, check, node, position⟩ := updateSoft_of_getElem? found
      obtain ⟨inBounds, new⟩ := newMessage_range run found reached
      obtain ⟨here, reachedHere, ranged⟩ := run.every k behind
      obtain rfl : state = here := Option.some.inj (reached.symm.trans reachedHere)
      rw [exec_updateSoft_eq_iff inBounds]
      exact llrAdd_llrSub_eq_iff (ranged.1 edge.vn node j position)
        (ranged.2 cn check edge.vn node j position) new
  | load vn zi => exact iff_of_true rfl trivial
  | clear r => exact iff_of_true rfl trivial
  | analyse cn edge vni r => exact iff_of_true rfl trivial
  | storeC2v cn edge j => exact iff_of_true rfl trivial
  | emit vn zi => exact iff_of_true rfl trivial

/-- The delta form against the srsRAN form.  For every regular shift table, LLRs in range and
every iteration count, the two decoders pass the same states exactly when no saturation of a
soft update does harm; the soft values and output bits they end with are then the same. -/
theorem delta_update_agrees_iff (regular : Regular shape)
    (channel : ∀ vn < shape.nVnFull, ∀ j < shape.ls, SoftRange (llr vn j)) (nIter : Nat)
    (zeroed : Zeroed shape memory) :
    ((∀ k, ldpcDecodeAfter shape llr nIter memory k =
        srsranDecodeAfter shape llr nIter memory k) ↔ HarmlessRun shape llr nIter memory) ∧
      (HarmlessRun shape llr nIter memory → ∃ final final',
        ldpcDecode shape llr nIter memory = some final ∧
        srsranDecode shape llr nIter memory = some final' ∧
        final.soft = final'.soft ∧ ∀ bitIdx, outputBit final bitIdx = outputBit final' bitIdx) := by
  have run : KernelRun shape llr nIter memory (Ranged shape) fun _ _ => True :=
    ranged_of_run regular channel zeroed
  have stepwise : (∀ k, ldpcDecodeAfter shape llr nIter memory k =
      srsranDecodeAfter shape llr nIter memory k) ↔ HarmlessRun shape llr nIter memory := by
    refine (forall_foldlM_take_eq_iff (shape.program nIter) memory).trans ?_
    refine forall_congr' fun k => forall_congr' fun op => forall_congr' fun state => ?_
    refine forall_congr' fun found => forall_congr' fun reached => ?_
    exact exec_eq_iff_harmlessIn run found reached
  refine ⟨stepwise, fun harmless => ?_⟩
  obtain ⟨final, decoded, _⟩ := run.output
  have same := stepwise.mpr harmless (shape.program nIter).length
  rw [ldpcDecodeAfter, srsranDecodeAfter, List.take_length] at same
  exact ⟨final, final, decoded, same.symm.trans decoded, rfl, fun _ => rfl⟩

end Run

/-- One check over two variable nodes. -/
private def pairShape : LdpcShape where
  nVnFull := 2
  nCn := 1
  nVnInfo := 2
  ls := 1
  bgShifts := fun _ _ => 0
  ls_le := by decide
  nVnFull_le := by decide
  nVnInfo_le := by decide

/-- Two LLRs. -/
private def pairLlr (first second : Int) (vn _j : Nat) : Int := if vn = 0 then first else second

/-- Memory as the host prepares it. -/
private def blankMemory : LdpcMemory where
  soft := fun _ _ => 0
  c2v := fun _ _ _ => 0
  scratch := fun _ => TwoMin.start 0
  sprod := fun _ => false
  c2vNew := 0
  out := fun _ => 0

/-- On small LLRs the two forms agree. -/
theorem delta_update_agrees_on_small_llrs :
    HarmlessRun pairShape (pairLlr 30 (-20)) 2 blankMemory ∧ ∃ final final',
      ldpcDecode pairShape (pairLlr 30 (-20)) 2 blankMemory = some final ∧
      srsranDecode pairShape (pairLlr 30 (-20)) 2 blankMemory = some final' ∧
      final.soft = final'.soft ∧ ∀ bitIdx, outputBit final bitIdx = outputBit final' bitIdx := by
  have regular : Regular pairShape := ⟨by decide, by decide⟩
  have checks : ∀ k < (pairShape.program 2).length,
      ((pairShape.program 2)[k]?.bind fun op =>
        (ldpcDecodeAfter pairShape (pairLlr 30 (-20)) 2 blankMemory k).map fun state =>
          decide (op.HarmlessIn pairShape state)) = some true := by
    decide
  have harmless : HarmlessRun pairShape (pairLlr 30 (-20)) 2 blankMemory := by
    intro k op state found reached
    have check := checks k (List.getElem?_eq_some_iff.mp found).1
    rw [found, Option.bind_some, reached, Option.map_some, Option.some.injEq] at check
    exact of_decide_eq_true check
  exact ⟨harmless, (delta_update_agrees_iff regular (by decide) 2
    (fun _ _ _ _ _ _ => rfl : Zeroed pairShape blankMemory)).2 harmless⟩

/-- On the LLRs 100 and 50 the two forms differ in the second iteration: the soft value of the
second node is infinite in the delta form and 117 in the srsRAN form. -/
theorem delta_update_differs :
    ¬ ∀ (shape : LdpcShape) (llr : Nat → Nat → Int) (nIter : Nat) (memory final final' : LdpcMemory),
      Regular shape → (∀ vn < shape.nVnFull, ∀ j < shape.ls, SoftRange (llr vn j)) →
      Zeroed shape memory → ldpcDecode shape llr nIter memory = some final →
      srsranDecode shape llr nIter memory = some final' →
      final.soft = final'.soft ∧ ∀ bitIdx, outputBit final bitIdx = outputBit final' bitIdx := by
  intro claim
  have delta : (ldpcDecode pairShape (pairLlr 100 50) 2 blankMemory).map (·.soft 1 0) =
      some 127 := by decide
  have srsran : (srsranDecode pairShape (pairLlr 100 50) 2 blankMemory).map (·.soft 1 0) =
      some 117 := by decide
  obtain ⟨final, decoded, value⟩ := Option.map_eq_some_iff.mp delta
  obtain ⟨final', decoded', value'⟩ := Option.map_eq_some_iff.mp srsran
  have same := (claim pairShape (pairLlr 100 50) 2 blankMemory final final' ⟨by decide, by decide⟩
    (by decide) (fun _ _ _ _ _ _ => rfl) decoded decoded').1
  rw [same, value'] at value
  exact absurd value (by decide)

end RanInline.Ldpc
