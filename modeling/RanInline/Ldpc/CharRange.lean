/-
Module: RanInline.Ldpc.CharRange
Purpose: The int8 arithmetic of ldpc_decode.cl along whole runs: the ranges of the soft
  values, the messages and the scratch, and that no conversion to char or short loses
  information.
Trusted boundary: none
Main exports: narrowChar, narrowShort, exactExec, exactDecodeAfter, MagnitudeRange,
  CharsInRange, decode_chars_in_range
-/
import RanInline.Ldpc.DeltaForm

namespace RanInline.Ldpc

open RanInline.Lib

/-! ### Arithmetic that refuses to lose information -/

/-- A conversion to `char`.  `none` when the value changes, and for the one `char` whose
negation is not a `char`. -/
def narrowChar (x : Int) : Option Int := if -128 < x ∧ x ≤ 127 then some x else none

/-- A conversion to `short`.  `none` when the value changes. -/
def narrowShort (x : Int) : Option Int := if -32768 ≤ x ∧ x ≤ 32767 then some x else none

/-- `llr_add`, with its conversions checked. -/
def llrAddExact (a b : Int) : Option Int :=
  if a = llrInf ∨ b = llrInf then some llrInf
  else if a = -llrInf ∨ b = -llrInf then some (-llrInf)
  else do
    let s ← narrowShort (a + b)
    if s > llrMax then some llrInf
    else if s < -llrMax then some (-llrInf)
    else narrowChar s

/-- `llr_sub`, with its conversions checked. -/
def llrSubExact (a b : Int) : Option Int := do
  let d ← narrowShort (a - b)
  if d > llrMax then some llrMax
  else if d < -llrMax then some (-llrMax)
  else narrowChar d

/-- `llr_abs`, with its negation checked. -/
def llrAbsExact (a : Int) : Option Int :=
  narrowChar (if a < 0 then -a else a)

/-- `llr_scale`, with its conversions checked. -/
def llrScaleExact (a : Int) : Option Int := do
  let mag ← llrAbsExact a
  if mag = llrInf then some a
  else
    let scaled ← narrowChar ((mag * scaleNum + Int.tdiv scaleDen 2).tdiv scaleDen)
    if a < 0 then narrowChar (-scaled) else some scaled

theorem narrowChar_eq {x : Int} (lower : -128 < x) (upper : x ≤ 127) : narrowChar x = some x :=
  if_pos ⟨lower, upper⟩

theorem narrowShort_eq {x : Int} (lower : -32768 ≤ x) (upper : x ≤ 32767) :
    narrowShort x = some x :=
  if_pos ⟨lower, upper⟩

theorem SoftRange.bounds {x : Int} (range : SoftRange x) : -127 ≤ x ∧ x ≤ 127 := by
  rw [SoftRange] at range
  omega

theorem llrSubExact_eq {a b : Int} (rangeA : SoftRange a) (rangeB : SoftRange b) :
    llrSubExact a b = some (llrSub a b) := by
  have boundsA := rangeA.bounds
  have boundsB := rangeB.bounds
  rw [llrSubExact, narrowShort_eq (by omega) (by omega), llrSub, llrMax]
  dsimp only [Option.bind_eq_bind, Option.bind_some]
  split_ifs
  · rfl
  · rfl
  · rw [narrowChar_eq (by omega) (by omega), toChar_eq (by omega) (by omega)]

theorem llrAddExact_eq {a b : Int} (rangeA : SoftRange a) (rangeB : SoftRange b) :
    llrAddExact a b = some (llrAdd a b) := by
  have boundsA := rangeA.bounds
  have boundsB := rangeB.bounds
  rw [llrAddExact, narrowShort_eq (by omega) (by omega), llrAdd, llrMax]
  dsimp only [Option.bind_eq_bind, Option.bind_some]
  split_ifs
  · rfl
  · rfl
  · rfl
  · rfl
  · rw [narrowChar_eq (by omega) (by omega), toChar_eq (by omega) (by omega)]

theorem llrAbsExact_eq {a : Int} (range : SoftRange a) : llrAbsExact a = some (llrAbs a) := by
  have bounds := range.bounds
  rw [llrAbsExact, llrAbs]
  split_ifs
  · rw [narrowChar_eq (by omega) (by omega), toChar_eq (by omega) (by omega)]
  · rw [narrowChar_eq (by omega) (by omega), toChar_eq (by omega) (by omega)]

/-- A magnitude below infinity is scaled without loss. -/
theorem llrScaleExact_eq {m : Int} (nonneg : 0 ≤ m) (small : m ≤ 120) :
    llrScaleExact m = some (llrScale m) := by
  have range : SoftRange m := .inl ⟨by omega, small⟩
  have abs : llrAbs m = m := by rw [llrAbs_eq (by omega) (by omega)]; omega
  have half : Int.tdiv scaleDen 2 = 2 := rfl
  rw [llrScaleExact, llrAbsExact_eq range, llrScale_eq nonneg small, abs, half, scaleNum, scaleDen]
  dsimp only [Option.bind_eq_bind, Option.bind_some]
  rw [if_neg (by rw [llrInf]; omega), Int.tdiv_eq_ediv_of_nonneg (by omega),
    narrowChar_eq (by omega) (by omega)]
  dsimp only [Option.bind_some]
  rw [if_neg (by omega)]
  congr 1
  omega

/-! ### The kernel with checked conversions -/

/-- The new message along an edge, with its conversions checked. -/
def LdpcMemory.newMessageExact (memory : LdpcMemory) (cn vn vni j r : Nat) : Option Int := do
  let v2c ← llrSubExact (memory.soft vn j) (memory.c2v cn vn j)
  let mag ← llrScaleExact ((memory.scratch r).select vni)
  if xor (memory.sprod r) (decide (v2c < 0)) then narrowChar (-mag) else some mag

section Exact

variable (shape : LdpcShape) (llr : Nat → Nat → Int)

/-- The effect of an assignment, with every conversion and negation checked. -/
def LdpcMemory.exactApply (memory : LdpcMemory) : LdpcOp → Option LdpcMemory
  | .analyse cn edge vni r => do
      let j := edge.vnPosition shape.ls r
      let v2c ← llrSubExact (memory.soft edge.vn j) (memory.c2v cn edge.vn j)
      let v2cAbs ← llrAbsExact v2c
      return { memory with
        scratch := Function.update memory.scratch r ((memory.scratch r).insert vni v2cAbs)
        sprod := Function.update memory.sprod r (xor (memory.sprod r) (decide (v2c < 0))) }
  | .updateSoft cn edge vni j => do
      let c2vNew ← memory.newMessageExact cn edge.vn vni j (edge.cnPosition shape.ls j).toNat
      let change ← llrSubExact c2vNew (memory.c2v cn edge.vn j)
      let soft ← llrAddExact (memory.soft edge.vn j) change
      return { memory with
        c2vNew := c2vNew
        soft := store memory.soft edge.vn j soft }
  | op => some (memory.apply shape llr op)

/-- Execute an assignment; `none` is an access outside an array or a conversion that loses
information. -/
def exactExec (memory : LdpcMemory) (op : LdpcOp) : Option LdpcMemory :=
  if op.InBounds shape then memory.exactApply shape llr op else none

/-- The state of the checked kernel after `k` assignments. -/
def exactDecodeAfter (nIter : Nat) (memory : LdpcMemory) (k : Nat) : Option LdpcMemory :=
  ((shape.program nIter).take k).foldlM (exactExec shape llr) memory

end Exact

section Steps

variable {shape : LdpcShape} {llr : Nat → Nat → Int} {state : LdpcMemory} {cn vni : Nat}
  {edge : Edge}

theorem v2c_softRange (memory : LdpcMemory) (cn vn j : Nat) : SoftRange (memory.v2c cn vn j) :=
  .inl (clamped_v2c memory cn vn j)

theorem exactApply_analyse {r : Nat}
    (soft : SoftRange (state.soft edge.vn (edge.vnPosition shape.ls r)))
    (message : MessageRange (state.c2v cn edge.vn (edge.vnPosition shape.ls r))) :
    state.exactApply shape llr (.analyse cn edge vni r) =
      some (state.apply shape llr (.analyse cn edge vni r)) := by
  have range := v2c_softRange state cn edge.vn (edge.vnPosition shape.ls r)
  rw [LdpcMemory.v2c] at range
  rw [LdpcMemory.exactApply, llrSubExact_eq soft message.softRange]
  dsimp only [Option.bind_eq_bind, Option.bind_some]
  rw [llrAbsExact_eq range]
  rfl

/-- A message is computed without loss when the magnitude it uses is finite. -/
theorem newMessageExact_eq {vn j r : Nat} (soft : SoftRange (state.soft vn j))
    (message : MessageRange (state.c2v cn vn j)) (nonneg : 0 ≤ (state.scratch r).select vni)
    (finite : (state.scratch r).select vni ≤ 120) :
    state.newMessageExact cn vn vni j r = some (state.newMessage cn vn vni j r) := by
  rw [LdpcMemory.newMessageExact, LdpcMemory.newMessage, llrSubExact_eq soft message.softRange,
    llrScaleExact_eq nonneg finite, LdpcMemory.v2c, llrScale_eq nonneg finite]
  dsimp only [Option.bind_eq_bind, Option.bind_some]
  split_ifs
  · rw [narrowChar_eq (by omega) (by omega), toChar_eq (by omega) (by omega)]
  · rfl

theorem exactApply_updateSoft {j : Nat} (soft : SoftRange (state.soft edge.vn j))
    (message : MessageRange (state.c2v cn edge.vn j))
    (new : MessageRange (state.newMessage cn edge.vn vni j (edge.cnPosition shape.ls j).toNat))
    (nonneg : 0 ≤ (state.scratch (edge.cnPosition shape.ls j).toNat).select vni)
    (finite : (state.scratch (edge.cnPosition shape.ls j).toNat).select vni ≤ 120) :
    state.exactApply shape llr (.updateSoft cn edge vni j) =
      some (state.apply shape llr (.updateSoft cn edge vni j)) := by
  have change := llrSub_cases
    (state.newMessage cn edge.vn vni j (edge.cnPosition shape.ls j).toNat) (state.c2v cn edge.vn j)
  rw [LdpcMemory.exactApply, newMessageExact_eq soft message nonneg finite]
  dsimp only [Option.bind_eq_bind, Option.bind_some]
  rw [llrSubExact_eq new.softRange message.softRange]
  dsimp only [Option.bind_some]
  rw [llrAddExact_eq soft (.inl (by omega))]
  rfl

end Steps

/-! ### The scratch of the analysis -/

/-- The range of `min1` and `min2`: a magnitude, or the value they start with. -/
def MagnitudeRange (x : Int) : Prop := 0 ≤ x ∧ x ≤ 120 ∨ x = 127

/-- Both minima are in their range. -/
structure ScratchRange (two : TwoMin Int) : Prop where
  min1 : MagnitudeRange two.min1
  min2 : MagnitudeRange two.min2

section Scratch

variable {shape : LdpcShape} {llr : Nat → Nat → Int} {memory state : LdpcMemory}

theorem scratchRange_start : ScratchRange (TwoMin.start llrInf) := ⟨.inr rfl, .inr rfl⟩

theorem ScratchRange.insert {two : TwoMin Int} (range : ScratchRange two) (index : Nat)
    {value : Int} (nonneg : 0 ≤ value) (small : value ≤ 120) :
    ScratchRange (two.insert index value) := by
  rw [TwoMin.insert]
  split_ifs
  · exact ⟨.inl ⟨nonneg, small⟩, range.min1⟩
  · exact ⟨range.min1, .inl ⟨nonneg, small⟩⟩
  · exact range

theorem ScratchRange.select {two : TwoMin Int} (range : ScratchRange two) (index : Nat) :
    MagnitudeRange (two.select index) := by
  rw [TwoMin.select]
  split_ifs
  · exact range.min1
  · exact range.min2

/-- An assignment keeps the scratch in its range. -/
theorem ScratchRange.apply {r : Nat} (range : ScratchRange (state.scratch r)) (op : LdpcOp) :
    ScratchRange ((state.apply shape llr op).scratch r) := by
  cases op with
  | clear r' =>
      by_cases here : r = r'
      · subst here
        simpa [LdpcMemory.apply] using scratchRange_start
      · simpa [LdpcMemory.apply, here] using range
  | analyse cn edge vni r' =>
      by_cases here : r = r'
      · subst here
        have clamped := clamped_v2c state cn edge.vn (edge.vnPosition shape.ls r)
        have abs := llrAbs_eq (a := state.v2c cn edge.vn (edge.vnPosition shape.ls r))
          (by omega) (by omega)
        simpa [LdpcMemory.apply] using range.insert vni (by omega) (by omega)
      · simpa [LdpcMemory.apply, here] using range
  | load vn zi => exact range
  | updateSoft cn edge vni j => exact range
  | storeC2v cn edge j => exact range
  | emit vn zi => exact range

/-- Once a position is cleared, its scratch stays in range. -/
theorem scratchRange_of_cleared {ops : List LdpcOp}
    (run : ops.foldlM (ldpcExec shape llr) memory = some state) {r : Nat}
    (cleared : LdpcOp.clear r ∈ ops) : ScratchRange (state.scratch r) := by
  induction ops using List.reverseRecOn generalizing state with
  | nil => cases cleared
  | append_singleton ops op inductionHypothesis =>
      obtain ⟨middle, runs, executed⟩ := foldlM_concat_eq_some.mp run
      obtain ⟨_, rfl⟩ := ldpcExec_eq_some.mp executed
      rcases List.mem_append.mp cleared with earlier | here
      · exact (inductionHypothesis runs earlier).apply op
      · obtain rfl : LdpcOp.clear r = op := List.mem_singleton.mp here
        simpa [LdpcMemory.apply] using scratchRange_start

/-- Every position is cleared in front of every soft update. -/
def ClearsFirst (ls : Nat) (ops : List LdpcOp) : Prop :=
  ∀ (k : Nat) cn edge vni j, ops[k]? = some (.updateSoft cn edge vni j) →
    ∀ r < ls, LdpcOp.clear r ∈ ops.take k

theorem ClearsFirst.append {ls : Nat} {first second : List LdpcOp} (one : ClearsFirst ls first)
    (two : ClearsFirst ls second) : ClearsFirst ls (first ++ second) := by
  intro k cn edge vni j found r inside
  rw [List.take_append, List.mem_append]
  rcases Nat.lt_or_ge k first.length with early | late
  · rw [List.getElem?_append_left early] at found
    exact .inl (one k cn edge vni j found r inside)
  · rw [List.getElem?_append_right late] at found
    exact .inr (two _ cn edge vni j found r inside)

theorem ClearsFirst.flatMap {Item : Type} {ls : Nat} {items : List Item}
    {body : Item → List LdpcOp} (each : ∀ item ∈ items, ClearsFirst ls (body item)) :
    ClearsFirst ls (items.flatMap body) :=
  flatMap_of_append (by simp [ClearsFirst]) (fun _ _ => ClearsFirst.append) each

theorem clearsFirst_of_not_mem {ls : Nat} {ops : List LdpcOp}
    (none : ∀ cn edge vni j, LdpcOp.updateSoft cn edge vni j ∉ ops) : ClearsFirst ls ops :=
  fun _ cn edge vni j found => absurd (List.mem_of_getElem? found) (none cn edge vni j)

theorem clearsFirst_layerOps (shape : LdpcShape) (cn : Nat) :
    ClearsFirst shape.ls (shape.layerOps cn) := by
  intro k cn' edge vni j found r inside
  have cleared : LdpcOp.clear r ∈ (List.range shape.ls).flatMap fun r => [LdpcOp.clear r] := by
    simpa using inside
  rw [LdpcShape.layerOps, List.take_append, List.mem_append]
  refine .inl ?_
  rw [List.take_of_length_le ?_]
  · exact cleared
  by_contra early
  rw [LdpcShape.layerOps, List.getElem?_append_left (by omega)] at found
  simpa using List.mem_of_getElem? found

theorem clearsFirst_program (shape : LdpcShape) (nIter : Nat) :
    ClearsFirst shape.ls (shape.program nIter) := by
  have loads : ClearsFirst shape.ls shape.loadOps :=
    clearsFirst_of_not_mem (by simp [LdpcShape.loadOps])
  have emits : ClearsFirst shape.ls shape.emitOps :=
    clearsFirst_of_not_mem (by simp [LdpcShape.emitOps])
  exact loads.append ((ClearsFirst.flatMap fun _ _ =>
    .flatMap fun cn _ => clearsFirst_layerOps shape cn).append emits)

end Scratch

/-! ### Whole runs -/

/-- The values of the kernel are in their ranges, after the assignments `ops`: the soft values
that have been loaded, all messages, and the minima that have been started. -/
structure CharsInRange (shape : LdpcShape) (ops : List LdpcOp) (state : LdpcMemory) : Prop where
  soft : ∀ vn zi, LdpcOp.load vn zi ∈ ops → SoftRange (state.soft vn zi)
  c2v : ∀ cn < shape.nCn, ∀ vn < shape.nVnFull, ∀ j < shape.ls, MessageRange (state.c2v cn vn j)
  v2c : ∀ cn vn j, -120 ≤ state.v2c cn vn j ∧ state.v2c cn vn j ≤ 120
  scratch : ∀ r, LdpcOp.clear r ∈ ops → ScratchRange (state.scratch r)

section Runs

variable {shape : LdpcShape} {llr : Nat → Nat → Int} {memory state : LdpcMemory} {nIter k : Nat}

theorem mem_loadOps {op : LdpcOp} : op ∈ shape.loadOps ↔
    ∃ vn < shape.nVnFull, ∃ zi < shape.ls, op = .load vn zi := by
  simp [LdpcShape.loadOps]

/-- A load loads a soft value of the graph. -/
theorem load_mem_program {vn zi : Nat} (member : LdpcOp.load vn zi ∈ shape.program nIter) :
    vn < shape.nVnFull ∧ zi < shape.ls := by
  simp only [LdpcShape.program, LdpcShape.iterationOps, LdpcShape.emitOps, List.mem_append,
    List.mem_flatMap, List.mem_singleton, mem_loadOps] at member
  rcases member with ⟨vn', node, zi', position, same⟩ | ⟨_, _, cn, _, layer⟩ | ⟨_, _, _, _, isEmit⟩
  · cases same
    exact ⟨node, position⟩
  · rcases mem_layerOps layer with ⟨_, _, isClear⟩ | ⟨_, _, _, _, _, isOp⟩
    · cases isClear
    · rcases isOp with isOp | isOp | isOp <;> cases isOp
  · cases isEmit

/-- What loads do. -/
theorem soft_of_loads {ops : List LdpcOp} (loads : ∀ op ∈ ops, ∃ vn zi, op = .load vn zi)
    (run : ops.foldlM (ldpcExec shape llr) memory = some state) :
    state.c2v = memory.c2v ∧ ∀ vn zi, LdpcOp.load vn zi ∈ ops → state.soft vn zi = llr vn zi := by
  induction ops using List.reverseRecOn generalizing state with
  | nil =>
      obtain rfl : memory = state := Option.some.inj run
      exact ⟨rfl, by simp⟩
  | append_singleton ops op inductionHypothesis =>
      obtain ⟨middle, runs, executed⟩ := foldlM_concat_eq_some.mp run
      obtain ⟨_, rfl⟩ := ldpcExec_eq_some.mp executed
      obtain ⟨c2v, soft⟩ := inductionHypothesis
        (fun op member => loads op (List.mem_append_left _ member)) runs
      obtain ⟨vn', zi', rfl⟩ := loads op (by simp)
      refine ⟨c2v, fun vn zi member => ?_⟩
      rw [soft_load, store_apply]
      split_ifs with here
      · rw [here.1, here.2]
      · refine soft vn zi ?_
        simpa [here] using member

/-- The ranges while the LLRs are loaded. -/
theorem charsInRange_load (channel : ∀ vn < shape.nVnFull, ∀ j < shape.ls, SoftRange (llr vn j))
    (zeroed : Zeroed shape memory) (early : k < shape.loadOps.length) :
    ∃ state, ldpcDecodeAfter shape llr nIter memory k = some state ∧
      CharsInRange shape ((shape.program nIter).take k) state := by
  obtain ⟨state, run, _⟩ := (along_load shape llr memory).drop k
  have part : (shape.program nIter).take k = shape.loadOps.take k := by
    rw [LdpcShape.program, List.take_append_of_le_length (by omega)]
  have loads : ∀ op ∈ shape.loadOps.take k,
      ∃ vn < shape.nVnFull, ∃ zi < shape.ls, op = .load vn zi :=
    fun op member => mem_loadOps.mp (List.mem_of_mem_take member)
  obtain ⟨c2v, soft⟩ := soft_of_loads
    (fun op member => by obtain ⟨vn, _, zi, _, same⟩ := loads op member; exact ⟨vn, zi, same⟩) run
  refine ⟨state, by rw [ldpcDecodeAfter, part, run], ?_, ?_, fun cn vn j => clamped_v2c state cn vn j,
    ?_⟩
  · intro vn zi member
    rw [part] at member
    rw [soft vn zi member]
    obtain ⟨_, node, _, position, same⟩ := loads _ member
    cases same
    exact channel vn node zi position
  · intro cn check vn node j position
    rw [c2v, zeroed cn check vn node j position]
    decide
  · intro r member
    rw [part] at member
    obtain ⟨_, _, _, _, isLoad⟩ := loads _ member
    cases isLoad

/-- The ranges in every state of a run. -/
theorem charsInRange_run (regular : Regular shape)
    (channel : ∀ vn < shape.nVnFull, ∀ j < shape.ls, SoftRange (llr vn j)) (nIter : Nat)
    (zeroed : Zeroed shape memory) (k : Nat) :
    ∃ state, ldpcDecodeAfter shape llr nIter memory k = some state ∧
      CharsInRange shape ((shape.program nIter).take k) state := by
  rcases Nat.lt_or_ge k shape.loadOps.length with early | late
  · exact charsInRange_load channel zeroed early
  · obtain ⟨state, reached, ranged⟩ := (ranged_of_run regular channel zeroed).every k late
    refine ⟨state, reached, ?_, ranged.2, fun cn vn j => clamped_v2c state cn vn j, ?_⟩
    · intro vn zi member
      obtain ⟨node, position⟩ := load_mem_program (List.mem_of_mem_take member)
      exact ranged.1 vn node zi position
    · intro r cleared
      exact scratchRange_of_cleared reached cleared

/-- The magnitude a message is made from is never the start value of the scan: the message is
stored, and is in its range. -/
theorem select_finite (regular : Regular shape)
    (run : KernelRun shape llr nIter memory (Ranged shape) fun _ _ => True) {cn vni j : Nat}
    {edge : Edge} (found : (shape.program nIter)[k]? = some (.updateSoft cn edge vni j))
    (reached : ldpcDecodeAfter shape llr nIter memory k = some state) :
    0 ≤ (state.scratch (edge.cnPosition shape.ls j).toNat).select vni ∧
      (state.scratch (edge.cnPosition shape.ls j).toNat).select vni ≤ 120 := by
  obtain ⟨_, check, row, position⟩ := edgeOp_of_getElem? found (.inr rfl)
  obtain ⟨_, inside, _⟩ := cnPosition_spec (regular.shifts cn check edge row) position
  have cleared := clearsFirst_program shape nIter k cn edge vni j found _ inside
  rcases (scratchRange_of_cleared reached cleared).select vni with finite | infinite
  · exact finite
  · obtain ⟨_, new⟩ := newMessage_range run found reached
    have scaled : llrScale 127 = 127 := by decide
    have negated : toChar (-127) = -127 := by decide
    rw [LdpcMemory.newMessage, infinite, scaled, negated, MessageRange] at new
    split_ifs at new <;> omega

/-- No assignment of a run loses information. -/
theorem exactExec_eq (regular : Regular shape)
    (run : KernelRun shape llr nIter memory (Ranged shape) fun _ _ => True) {op : LdpcOp}
    (found : (shape.program nIter)[k]? = some op)
    (reached : ldpcDecodeAfter shape llr nIter memory k = some state) :
    ldpcExec shape llr state op = exactExec shape llr state op := by
  suffices exact : state.exactApply shape llr op = some (state.apply shape llr op) by
    rw [exactExec, exact]
    rfl
  have ranged (behind : shape.loadOps.length ≤ k) : Ranged shape state.soft state.c2v := by
    obtain ⟨here, reachedHere, ranged⟩ := run.every k behind
    obtain rfl : state = here := Option.some.inj (reached.symm.trans reachedHere)
    exact ranged
  cases op with
  | analyse cn edge vni r =>
      obtain ⟨behind, check, row, position⟩ := edgeOp_of_getElem? found (.inl rfl)
      have node := mem_edges row
      have position' := vnPosition_lt edge position
      exact exactApply_analyse ((ranged behind).1 _ node _ position')
        ((ranged behind).2 cn check _ node _ position')
  | updateSoft cn edge vni j =>
      obtain ⟨behind, check, node, position⟩ := updateSoft_of_getElem? found
      obtain ⟨_, new⟩ := newMessage_range run found reached
      obtain ⟨nonneg, finite⟩ := select_finite regular run found reached
      exact exactApply_updateSoft ((ranged behind).1 _ node j position)
        ((ranged behind).2 cn check _ node j position) new nonneg finite
  | load vn zi => rfl
  | clear r => rfl
  | storeC2v cn edge j => rfl
  | emit vn zi => rfl

/-- The int8 arithmetic of `ldpc_decode` stays in range.  For every regular shift matrix, LLRs in
range and iteration count, in every state of the run: the soft values are in `[-120, 120]` or
infinite, the messages in `[-96, 96]`, every `v2c` in `[-120, 120]`; the kernel that stops at the
first conversion or negation that loses information is in the same state; and the magnitude that
the next assignment makes a message from is not the start value of the scan. -/
theorem decode_chars_in_range (regular : Regular shape)
    (channel : ∀ vn < shape.nVnFull, ∀ j < shape.ls, SoftRange (llr vn j)) (nIter : Nat)
    (zeroed : Zeroed shape memory) (k : Nat) :
    ∃ state, ldpcDecodeAfter shape llr nIter memory k = some state ∧
      CharsInRange shape ((shape.program nIter).take k) state ∧
      exactDecodeAfter shape llr nIter memory k = some state ∧
      ∀ cn edge vni j, (shape.program nIter)[k]? = some (.updateSoft cn edge vni j) →
        0 ≤ (state.scratch (edge.cnPosition shape.ls j).toNat).select vni ∧
          (state.scratch (edge.cnPosition shape.ls j).toNat).select vni ≤ 120 := by
  have run : KernelRun shape llr nIter memory (Ranged shape) fun _ _ => True :=
    ranged_of_run regular channel zeroed
  obtain ⟨state, reached, inRange⟩ := charsInRange_run regular channel nIter zeroed k
  have same := (forall_foldlM_take_eq_iff (shape.program nIter) memory).mpr
    (fun k op state found reached => exactExec_eq regular run found reached) k
  exact ⟨state, reached, inRange, same.symm.trans reached,
    fun cn edge vni j found => select_finite regular run found reached⟩

end Runs

/-- One check over the first two of five variable nodes, with a lifting size of four. -/
private def twoEdgeShape : LdpcShape where
  nVnFull := 5
  nCn := 1
  nVnInfo := 4
  ls := 4
  bgShifts := fun _ vn => [0, 3].getD vn noEdge
  ls_le := by decide
  nVnFull_le := by decide
  nVnInfo_le := by decide

/-- An infinite LLR against a strong one of the other sign. -/
private def contraryLlr (vn _j : Nat) : Int := if vn = 0 then 127 else -120

/-- Memory as the host prepares it. -/
private def zeroMemory : LdpcMemory where
  soft := fun _ _ => 0
  c2v := fun _ _ _ => 0
  scratch := fun _ => TwoMin.start 0
  sprod := fun _ => false
  c2vNew := 0
  out := fun _ => 0

/-- LLRs that contradict the check, in front of the first message of the second iteration. -/
theorem decode_chars_in_range_of_contrary_llrs :
    Regular twoEdgeShape ∧
      (twoEdgeShape.program 2)[60]? = some (.updateSoft 0 ⟨0, 0⟩ 0 0) ∧
      ∃ state, ldpcDecodeAfter twoEdgeShape contraryLlr 2 zeroMemory 60 = some state ∧
        CharsInRange twoEdgeShape ((twoEdgeShape.program 2).take 60) state ∧
        exactDecodeAfter twoEdgeShape contraryLlr 2 zeroMemory 60 = some state ∧
        (state.scratch 0).select 0 ≤ 120 := by
  have regular : Regular twoEdgeShape := ⟨by decide, by decide⟩
  have next : (twoEdgeShape.program 2)[60]? = some (.updateSoft 0 ⟨0, 0⟩ 0 0) := by decide
  obtain ⟨state, reached, inRange, exact, finite⟩ := decode_chars_in_range regular
    (by decide : ∀ vn < twoEdgeShape.nVnFull, ∀ j < twoEdgeShape.ls, SoftRange (contraryLlr vn j))
    2 (fun _ _ _ _ _ _ => rfl : Zeroed twoEdgeShape zeroMemory) 60
  exact ⟨regular, next, state, reached, inRange, exact, (finite 0 ⟨0, 0⟩ 0 0 next).2⟩

end RanInline.Ldpc
