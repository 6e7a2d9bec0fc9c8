/-
Module: RanInline.Phy.Resources
Purpose: The OpenCL handles of oi_p2_host.cpp, oi_p2_buffers.cpp and oi_p2_ldpc_decode.cpp: which
  are made and released by setup, by every launch and drain, and by the teardown.
Trusted boundary: none
Main exports: ClCall, oiP2BuffersCreate, oiP2BuffersDestroy, oiP2Setup, oiP2LaunchSlot, oiP2Drain,
  oiP2Teardown, buffers_create_all_or_nothing, setup_failure_leaks_iff, teardown_restores_iff
-/
import RanInline.Ldpc.BaseGraph
import RanInline.Lib.HandleTable
import RanInline.Phy.Pipeline
import RanInline.Tail.CbSegment

namespace RanInline.Phy.Resources

open RanInline.Lib RanInline.Ldpc RanInline.Tail

/-- The calls whose outcome the host code reads, or that give a handle. -/
inductive ClCall where
  | fopen (path : String)
  | createProgramWithSource
  | buildProgram
  | createKernel (name : String)
  | createBuffer (bytes : Nat)
  | enqueue (stage : LaunchStage)
deriving DecidableEq, Repr

/-! ### oi_p2_buffers.cpp -/

/-- The `cl_mem` fields of `SlotBufferSet`; the argument is the index into `k2a`. -/
inductive SlotField where
  | reGrid
  | symbolBitmap
  | refSeq (i : Fin 3)
  | fdEst (i : Fin 3)
  | filteredPilot (i : Fin 3)
  | eprePartial (i : Fin 3)
  | chEst
  | noiseVar
  | epre
  | eqSymbols
  | eqNoiseVar
  | llr
  | cbLlr
deriving DecidableEq, Repr

/-- `K2aBufferSet`. -/
def k2aFields (i : Fin 3) : List SlotField :=
  [.refSeq i, .fdEst i, .filteredPilot i, .eprePartial i]

/-- The fields in the order in which they are allocated and released. -/
def slotFields : List SlotField :=
  [.reGrid, .symbolBitmap] ++ (List.finRange 3).flatMap k2aFields ++
    [.chEst, .noiseVar, .epre, .eqSymbols, .eqNoiseVar, .llr, .cbLlr]

theorem slotFields_nodup : slotFields.Nodup := by decide

theorem mem_slotFields (field : SlotField) : field ∈ slotFields := by
  cases field with
  | refSeq i | fdEst i | filteredPilot i | eprePartial i =>
      revert i
      decide
  | _ => decide

/-- `kNofDataRe`. -/
def kNofDataRe : Nat := 11 * 612

/-- The sizes at the top of `oi_p2_buffers_create`. -/
def slotFieldBytes : SlotField → Nat
  | .reGrid => 14 * 612 * 8
  | .symbolBitmap | .eprePartial _ | .noiseVar | .epre => 4
  | .refSeq _ | .filteredPilot _ => 306 * 8
  | .fdEst _ => 612 * 8
  | .chEst | .eqSymbols => kNofDataRe * 8
  | .eqNoiseVar => kNofDataRe * 4
  | .llr => kNofDataRe * 6
  | .cbLlr => 66 * 384 * 4

/-- `BufferPool`. -/
structure BufferPool where
  slots : Fin 2 → SlotField → Option Nat
  arena : Option Nat
  arenaBytes : Nat
  descRing : Option Nat
  descRingCapacity : Nat

/-- `BufferPool{}`. -/
def BufferPool.empty : BufferPool where
  slots _ _ := none
  arena := none
  arenaBytes := 0
  descRing := none
  descRingCapacity := 0

/-- The handles of a pool, in the order of `oi_p2_buffers_destroy`. -/
def BufferPool.fields (pool : BufferPool) : List (Option Nat) :=
  slotFields.map (pool.slots 0) ++ slotFields.map (pool.slots 1) ++ [pool.arena, pool.descRing]

/-- `free_slot`. -/
def freeSlot (pool : BufferPool) (i : Fin 2) (table : HandleTable) : BufferPool × HandleTable :=
  ({ pool with slots := Function.update pool.slots i fun _ => none },
    table.releaseAll (slotFields.map (pool.slots i)))

/-- `oi_p2_buffers_destroy`. -/
def oiP2BuffersDestroy (pool : BufferPool) (table : HandleTable) : BufferPool × HandleTable :=
  let (pool, table) := freeSlot pool 0 table
  let (pool, table) := freeSlot pool 1 table
  let table := table.release pool.arena
  let table := table.release pool.descRing
  (.empty, table)

section Buffers

variable (driver : ClCall → Nat → Bool)

/-- `alloc`: nothing is asked for once something has failed. -/
def alloc (bytes : Nat) (ok : Bool) (table : HandleTable) : Option Nat × Bool × HandleTable :=
  if ok = false then (none, ok, table)
  else
    let (out, table) := table.create (driver (.createBuffer bytes))
    (out, out.isSome, table)

/-- The body of the loop over the slots of the pool. -/
def allocFields : List SlotField → (SlotField → Option Nat) → Bool → HandleTable →
    (SlotField → Option Nat) × Bool × HandleTable
  | [], slot, ok, table => (slot, ok, table)
  | field :: fields, slot, ok, table =>
      let (out, ok, table) := alloc driver (slotFieldBytes field) ok table
      allocFields fields (Function.update slot field out) ok table

/-- `oi_p2_buffers_create`. -/
def oiP2BuffersCreate (arenaBytes descRingCapacity : Nat) (table : HandleTable) :
    Bool × BufferPool × HandleTable :=
  let (slot0, ok, table) := allocFields driver slotFields (fun _ => none) true table
  let (slot1, ok, table) := allocFields driver slotFields (fun _ => none) ok table
  let (arena, ok, table) := alloc driver arenaBytes ok table
  let (descRing, ok, table) := alloc driver (descRingCapacity * 32) ok table
  let pool : BufferPool :=
    ⟨fun i => if i = 0 then slot0 else slot1, arena, arenaBytes, descRing, descRingCapacity⟩
  if ok = false then
    let (pool, table) := oiP2BuffersDestroy pool table
    (false, pool, table)
  else (true, pool, table)

theorem alloc_extends (bytes : Nat) (ok : Bool) (table : HandleTable) :
    table.Extends (alloc driver bytes ok table).2.2 [(alloc driver bytes ok table).1] := by
  rw [alloc]
  split_ifs
  · exact (HandleTable.Extends.refl table).congr (by rw [owned_cons_none])
  · exact HandleTable.create_extends _ table

theorem alloc_ok_iff (bytes : Nat) (ok : Bool) (table : HandleTable) :
    (alloc driver bytes ok table).2.1 = true ↔
      ok = true ∧ (alloc driver bytes ok table).1.isSome = true := by
  rw [alloc]
  cases ok <;> simp

/-- What the loop leaves: the handles of the fields it went over, and the flag that says whether
all of them were made. -/
structure Allocated (table : HandleTable) (ok : Bool) (fields : List SlotField)
    (result : (SlotField → Option Nat) × Bool × HandleTable) : Prop where
  gained : table.Extends result.2.2 (fields.map result.1)
  ok_iff : result.2.1 = true ↔ ok = true ∧ ∀ field ∈ fields, (result.1 field).isSome = true

theorem allocFields_spec {fields : List SlotField} (distinct : fields.Nodup)
    (slot : SlotField → Option Nat) (ok : Bool) (table : HandleTable) :
    Allocated table ok fields (allocFields driver fields slot ok table) ∧
      ∀ other ∉ fields, (allocFields driver fields slot ok table).1 other = slot other := by
  induction fields generalizing slot ok table with
  | nil => exact ⟨⟨HandleTable.Extends.refl table, by simp [allocFields]⟩, fun _ _ => rfl⟩
  | cons field fields inductionHypothesis =>
      obtain ⟨fresh, distinct⟩ := List.nodup_cons.mp distinct
      rw [allocFields]
      obtain ⟨spec, others⟩ := inductionHypothesis distinct
        (Function.update slot field (alloc driver (slotFieldBytes field) ok table).1)
        (alloc driver (slotFieldBytes field) ok table).2.1
        (alloc driver (slotFieldBytes field) ok table).2.2
      have own := (others field fresh).trans (Function.update_self ..)
      refine ⟨⟨?_, ?_⟩, ?_⟩
      · rw [List.map_cons, own]
        exact (alloc_extends driver (slotFieldBytes field) ok table).trans spec.gained
      · rw [spec.ok_iff, alloc_ok_iff, List.forall_mem_cons, own, and_assoc]
      · intro other outside
        rw [List.mem_cons, not_or] at outside
        rw [others other outside.2, Function.update_of_ne outside.1]

end Buffers

/-- A pool is released as a whole. -/
theorem oiP2BuffersDestroy_eq (pool : BufferPool) (table : HandleTable) :
    oiP2BuffersDestroy pool table = (.empty, table.releaseAll pool.fields) := by
  have second : Function.update pool.slots 0 (fun _ => none) 1 = pool.slots 1 :=
    Function.update_of_ne (by decide) _ _
  rw [BufferPool.fields, HandleTable.releaseAll_append, HandleTable.releaseAll_append]
  simp only [oiP2BuffersDestroy, freeSlot, second]
  rfl

theorem BufferPool.owned_empty : owned BufferPool.empty.fields = 0 := rfl

/-- Every handle of the pool is set. -/
def BufferPool.Complete (pool : BufferPool) : Prop :=
  (∀ i field, (pool.slots i field).isSome = true) ∧ pool.arena.isSome = true ∧
    pool.descRing.isSome = true

/-- A pool that was made owns just the handles that the driver gave out on the way, and all of its
handles are set; one that was not is empty, and what was given out on the way is back. -/
structure PoolMade (table : HandleTable) (result : Bool × BufferPool × HandleTable) : Prop where
  gained : table.Extends result.2.2 result.2.1.fields
  complete : result.1 = true → result.2.1.Complete
  empty : result.1 = false → result.2.1 = .empty

theorem oiP2BuffersCreate_spec (driver : ClCall → Nat → Bool) (arenaBytes descRingCapacity : Nat)
    (table : HandleTable) :
    PoolMade table (oiP2BuffersCreate driver arenaBytes descRingCapacity table) := by
  rw [oiP2BuffersCreate]
  obtain ⟨first, -⟩ := allocFields_spec driver slotFields_nodup (fun _ => none) true table
  generalize allocFields driver slotFields (fun _ => none) true table = slot0 at first ⊢
  obtain ⟨slot0, ok0, table0⟩ := slot0
  obtain ⟨second, -⟩ := allocFields_spec driver slotFields_nodup (fun _ => none) ok0 table0
  dsimp only
  generalize allocFields driver slotFields (fun _ => none) ok0 table0 = slot1 at second ⊢
  obtain ⟨slot1, ok1, table1⟩ := slot1
  have third := alloc_extends driver arenaBytes ok1 table1
  have thirdOk := alloc_ok_iff driver arenaBytes ok1 table1
  dsimp only
  generalize alloc driver arenaBytes ok1 table1 = arena at third thirdOk ⊢
  obtain ⟨arena, ok2, table2⟩ := arena
  have fourth := alloc_extends driver (descRingCapacity * 32) ok2 table2
  have fourthOk := alloc_ok_iff driver (descRingCapacity * 32) ok2 table2
  dsimp only
  generalize alloc driver (descRingCapacity * 32) ok2 table2 = ring at fourth fourthOk ⊢
  obtain ⟨ring, ok3, table3⟩ := ring
  have gained : table.Extends table3 (BufferPool.fields ⟨fun i => if i = 0 then slot0 else slot1,
      arena, arenaBytes, ring, descRingCapacity⟩) := by
    have all := ((first.gained.trans second.gained).trans third).trans fourth
    rwa [List.append_assoc] at all
  cases ok3 with
  | false =>
      rw [if_pos rfl, oiP2BuffersDestroy_eq]
      exact ⟨gained.releaseAll_all.congr rfl, fun made => absurd made Bool.false_ne_true,
        fun _ => rfl⟩
  | true =>
      rw [if_neg (Bool.false_ne_true ∘ Eq.symm)]
      have ⟨second2, ringSet⟩ := fourthOk.mp rfl
      have ⟨second1, arenaSet⟩ := thirdOk.mp second2
      have ⟨second0, slot1Set⟩ := second.ok_iff.mp second1
      have ⟨_, slot0Set⟩ := first.ok_iff.mp second0
      refine ⟨gained, fun _ => ⟨fun i field => ?_, arenaSet, ringSet⟩,
        fun failed => absurd failed.symm Bool.false_ne_true⟩
      have inside := mem_slotFields field
      by_cases isFirst : i = 0
      · simpa [isFirst] using slot0Set field inside
      · simpa [isFirst] using slot1Set field inside

/-! ### oi_p2_host.cpp and oi_p2_ldpc_decode.cpp -/

/-- The kernels of the pipeline. -/
inductive KernelId where
  | k1
  | k2a
  | k2b
  | k3
  | k4
  | k5
  | k6
deriving DecidableEq, Repr

/-- The kernels in the order of the table of `oi_p2_setup`, which is that of the teardown. -/
def kernelIds : List KernelId := [.k1, .k2a, .k2b, .k3, .k4, .k5, .k6]

/-- The source paths. -/
def kernelPath : KernelId → String
  | .k1 => "../../p2c-k1/src/kernels/k1_depacketizer.cl"
  | .k2a => "../../p2d-k2-k3/src/kernels/k2a_chanest_symbol.cl"
  | .k2b => "../../p2d-k2-k3/src/kernels/k2b_chanest_combine.cl"
  | .k3 => "../../p2d-k2-k3/src/kernels/k3_equalizer.cl"
  | .k4 => "../../p2e-k4/src/kernels/k4_demapper.cl"
  | .k5 => "../../p2b-k5-k6/src/kernels/k5_descrambler.cl"
  | .k6 => "../../p2b-k5-k6/src/kernels/k6_rate_dematcher.cl"

/-- The kernel names. -/
def kernelName : KernelId → String
  | .k1 => "k1_depacketize"
  | .k2a => "k2a_chanest_symbol"
  | .k2b => "k2b_chanest_combine"
  | .k3 => "k3_equalize"
  | .k4 => "k4_demap"
  | .k5 => "k5_descramble"
  | .k6 => "k6_rate_dematch"

/-- `kLdpcSrc`. -/
def kLdpcSrc : String := "../../p0-rig-scaffold/docker/gpu-phy/ldpc_suite/ldpc_decode.cl"

/-- `SlotState`, with the event handle. -/
structure SlotHandles where
  launched : Bool
  drained : Bool
  mcsIndex : Nat
  finalEvent : Option Nat
deriving DecidableEq, Repr

/-- A slot that was not launched yet. -/
def SlotHandles.fresh : SlotHandles where
  launched := false
  drained := false
  mcsIndex := 0
  finalEvent := none

/-- The handles of `oi_p2_pipeline`, with its configured set of MCS and the table of slots. -/
structure PipelineHandles where
  mcsSet : List Nat
  programs : KernelId → Option Nat
  kernels : KernelId → Option Nat
  ldpcProgram : Option Nat
  ldpcKernel : Option Nat
  reGridCompact : Fin 2 → Option Nat
  buffers : BufferPool
  slots : List (UInt32 × SlotHandles)

/-- `new oi_p2_pipeline()` with its configuration. -/
def PipelineHandles.new (mcsSet : List Nat) : PipelineHandles where
  mcsSet := mcsSet
  programs _ := none
  kernels _ := none
  ldpcProgram := none
  ldpcKernel := none
  reGridCompact _ := none
  buffers := .empty
  slots := []

section Setup

variable (driver : ClCall → Nat → Bool)

/-- `build_program`: a program that does not build is released. -/
def buildProgram (path : String) (table : HandleTable) : Option Nat × HandleTable :=
  let (opened, table) := table.ask (driver (.fopen path))
  if opened = false then (none, table)
  else
    let (prog, table) := table.create (driver .createProgramWithSource)
    if prog.isNone = true then (none, table)
    else
      let (built, table) := table.ask (driver .buildProgram)
      if built = false then (none, table.release prog) else (prog, table)

/-- The loop of `oi_p2_setup` over its table of kernels. -/
def buildKernels : List KernelId → PipelineHandles → HandleTable →
    Bool × PipelineHandles × HandleTable
  | [], p, table => (true, p, table)
  | k :: ks, p, table =>
      let (prog, table) := buildProgram driver (kernelPath k) table
      let p := { p with programs := Function.update p.programs k prog }
      if prog.isNone = true then (false, p, table)
      else
        let (kern, table) := table.create (driver (.createKernel (kernelName k)))
        let p := { p with kernels := Function.update p.kernels k kern }
        if kern.isNone = true then (false, p, table) else buildKernels ks p table

/-- `oi_p2_ldpc_decoder_init`: a program that does not build stays in the decoder. -/
def oiP2LdpcDecoderInit (p : PipelineHandles) (table : HandleTable) :
    Bool × PipelineHandles × HandleTable :=
  let (opened, table) := table.ask (driver (.fopen kLdpcSrc))
  if opened = false then (false, p, table)
  else
    let (prog, table) := table.create (driver .createProgramWithSource)
    let p := { p with ldpcProgram := prog }
    if prog.isNone = true then (false, p, table)
    else
      let (built, table) := table.ask (driver .buildProgram)
      if built = false then (false, p, table)
      else
        let (kern, table) := table.create (driver (.createKernel "ldpc_decode"))
        (kern.isSome, { p with ldpcKernel := kern }, table)

/-- The loop over `re_grid_compact`. -/
def createCompact : List (Fin 2) → PipelineHandles → HandleTable →
    Bool × PipelineHandles × HandleTable
  | [], p, table => (true, p, table)
  | i :: is, p, table =>
      let (rg, table) := table.create (driver (.createBuffer (kNofDataRe * 8)))
      let p := { p with reGridCompact := Function.update p.reGridCompact i rg }
      if rg.isNone = true then (false, p, table) else createCompact is p table

/-- `oi_p2_buffers_create` on the pool of the pipeline. -/
def createPool (p : PipelineHandles) (table : HandleTable) : Bool × PipelineHandles × HandleTable :=
  let result := oiP2BuffersCreate driver p2ArenaBytes p2DescRingCapacity table
  (result.1, { p with buffers := result.2.1 }, result.2.2)

/-- A stage of setup that failed deletes the pipeline and leaves its handles as they are. -/
def orFail (status : OiP2Status) (stage : Bool × PipelineHandles × HandleTable)
    (next : PipelineHandles → HandleTable → OiP2Status × Option PipelineHandles × HandleTable) :
    OiP2Status × Option PipelineHandles × HandleTable :=
  if stage.1 = false then (status, none, stage.2.2) else next stage.2.1 stage.2.2

/-- `oi_p2_setup`, for the set of MCS of an accepted configuration. -/
def oiP2Setup (config : Option (List Nat)) (table : HandleTable) :
    OiP2Status × Option PipelineHandles × HandleTable :=
  match config with
  | none => (.errConfigRejected, none, table)
  | some mcsSet =>
      orFail .errClBuildFailed (buildKernels driver kernelIds (.new mcsSet) table) fun p table =>
      orFail .errClBuildFailed (oiP2LdpcDecoderInit driver p table) fun p table =>
      orFail .errDevice (createPool driver p table) fun p table =>
      orFail .errDevice (createCompact driver [0, 1] p table) fun p table => (.ok, some p, table)

/-- A stage of setup behind another, with the pipeline as it stands where the stages end. -/
def stageThen (stage : Bool × PipelineHandles × HandleTable)
    (next : PipelineHandles → HandleTable → Bool × PipelineHandles × HandleTable) :
    Bool × PipelineHandles × HandleTable :=
  if stage.1 = false then stage else next stage.2.1 stage.2.2

/-- The stages of `oi_p2_setup` up to the first that fails, with the pipeline that is handed out or
deleted behind them. -/
def setupStages (mcsSet : List Nat) (table : HandleTable) : Bool × PipelineHandles × HandleTable :=
  stageThen (buildKernels driver kernelIds (.new mcsSet) table) fun p table =>
  stageThen (oiP2LdpcDecoderInit driver p table) fun p table =>
  stageThen (createPool driver p table) fun p table => createCompact driver [0, 1] p table

end Setup

/-- `p->slots.find`. -/
def findSlot (slotId : UInt32) : List (UInt32 × SlotHandles) → Option SlotHandles
  | [] => none
  | (id, slot) :: slots => if id = slotId then some slot else findSlot slotId slots

/-- The table with the entry of a slot set. -/
def setSlot (slotId : UInt32) (value : SlotHandles) :
    List (UInt32 × SlotHandles) → List (UInt32 × SlotHandles)
  | [] => [(slotId, value)]
  | (id, slot) :: slots =>
      if id = slotId then (id, value) :: slots else (id, slot) :: setSlot slotId value slots

/-- `p->slots[slot_id]`: the map inserts a fresh entry on first use. -/
def PipelineHandles.touchSlot (p : PipelineHandles) (slotId : UInt32) : PipelineHandles :=
  { p with slots := setSlot slotId ((findSlot slotId p.slots).getD .fresh) p.slots }

section Calls

variable (driver : ClCall → Nat → Bool)

/-- The enqueue calls of a launch that make an event: K1, K2a for each DMRS symbol, a copy for each
data symbol, K2b, K3, K4 and K5. -/
def launchStages : List LaunchStage :=
  [.k1] ++ List.replicate 3 .k2a ++ List.replicate 11 .copy ++ [.k2b, .k3, .k4, .k5]

/-- Enqueue calls until one fails, with the events they make. -/
def enqueueAll : List LaunchStage → HandleTable → List (Option Nat) × Bool × HandleTable
  | [], table => ([], true, table)
  | stage :: stages, table =>
      let (event, table) := table.create (driver (.enqueue stage))
      if event.isNone = true then ([], false, table)
      else
        let (events, ok, table) := enqueueAll stages table
        (event :: events, ok, table)

/-- `oi_p2_launch_slot`.  The events of a failed launch are local variables that are lost; those of
a successful one are released but for the last, which replaces the one in the slot. -/
def oiP2LaunchSlot (p : PipelineHandles) (table : HandleTable) (slotId : UInt32) (mcsIndex : Nat) :
    OiP2Status × PipelineHandles × HandleTable :=
  if (findMcs mcsIndex).isNone = true then (.errConfigRejected, p, table)
  else if mcsIndex ∉ p.mcsSet then (.errConfigRejected, p, table)
  else
    let p := p.touchSlot slotId
    let (events, ok, table) := enqueueAll driver launchStages table
    if ok = false then (.errDevice, p, table)
    else
      let table := table.releaseAll events.dropLast
      let slot := (findSlot slotId p.slots).getD .fresh
      let slot := { slot with
        finalEvent := events.getLast?.join, mcsIndex := mcsIndex, launched := true }
      (.ok, { p with slots := setSlot slotId slot p.slots }, table)

/-- Buffers made one after the other, whatever the outcome. -/
def createBuffers : List Nat → HandleTable → List (Option Nat) × HandleTable
  | [], table => ([], table)
  | bytes :: sizes, table =>
      let (buffer, table) := table.create (driver (.createBuffer bytes))
      let (buffers, table) := createBuffers sizes table
      (buffer :: buffers, table)

/-- The buffers of `oi_p2_ldpc_decode_cb`: only the first creation is checked. -/
def oiP2LdpcDecodeCb (bg : BaseGraph) (z : Nat) (table : HandleTable) : HandleTable :=
  if lsToIdx.getD z 255 = 255 then table
  else
    let (llr, table) := table.create (driver (.createBuffer (bg.nVnFull * z)))
    if llr.isNone = true then table
    else
      let (others, table) := createBuffers driver [(bg.nVnInfo * z + 7) / 8,
        bg.nCn * bg.nVnFull * 2, bg.nCn * bg.nVnFull * z] table
      table.releaseAll (llr :: others)

/-- One turn of the loop of `oi_p2_drain` over the code blocks. -/
def drainTurn (mcs : McsParams) (seg : OiP2CbSegmentParams) (table : HandleTable) (cb : Nat) :
    HandleTable :=
  let rmLength := oiP2ComputeRmLength kNofDataRe seg.nofSegments mcs.qm cb
  let (buffers, table) := createBuffers driver [rmLength, seg.codewordLength] table
  let table := table.releaseAll buffers
  oiP2LdpcDecodeCb driver seg.baseGraph seg.liftingSize table

/-- `oi_p2_drain`, for the base graph that the code rate of the MCS selects. -/
def oiP2Drain (baseGraph : McsParams → BaseGraph) (p : PipelineHandles) (table : HandleTable)
    (slotId : UInt32) : OiP2Status × PipelineHandles × HandleTable :=
  match findSlot slotId p.slots with
  | none => (.errSlotIncomplete, p, table)
  | some slot =>
      if slot.launched = false then (.errSlotIncomplete, p, table)
      else
        let table := table.release slot.finalEvent
        let p := { p with
          slots := setSlot slotId { slot with finalEvent := none, drained := true } p.slots }
        match findMcs slot.mcsIndex with
        -- A launched slot has an MCS of the table.
        | none => (.errSlotIncomplete, p, table)
        | some mcs =>
            let seg := oiP2CbSegmentCompute mcs.tbsBits (baseGraph mcs)
            (.ok, p, (List.range seg.nofSegments).foldl (drainTurn driver mcs seg) table)

/-- The events of the slots. -/
def PipelineHandles.events (p : PipelineHandles) : List (Option Nat) :=
  p.slots.map fun entry => entry.2.finalEvent

/-- `oi_p2_ldpc_decoder_destroy`. -/
def oiP2LdpcDecoderDestroy (p : PipelineHandles) (table : HandleTable) : HandleTable :=
  (table.release p.ldpcKernel).release p.ldpcProgram

/-- `oi_p2_teardown`. -/
def oiP2Teardown (p : PipelineHandles) (table : HandleTable) : HandleTable :=
  let table := table.releaseAll p.events
  let table := oiP2LdpcDecoderDestroy p table
  let table := table.releaseAll (kernelIds.map p.kernels)
  let table := table.releaseAll (kernelIds.map p.programs)
  let table := table.releaseAll [p.reGridCompact 0, p.reGridCompact 1]
  (oiP2BuffersDestroy p.buffers table).2

/-- The calls of a run that touch handles or slots. -/
inductive HandleCall where
  | feed (slotId : UInt32)
  | launchSlot (slotId : UInt32) (mcsIndex : Nat)
  | drain (slotId : UInt32)
deriving DecidableEq, Repr

/-- One call on a pipeline. -/
def handleStep (baseGraph : McsParams → BaseGraph) (state : PipelineHandles × HandleTable) :
    HandleCall → PipelineHandles × HandleTable
  | .feed slotId => (state.1.touchSlot slotId, state.2)
  | .launchSlot slotId mcsIndex => (oiP2LaunchSlot driver state.1 state.2 slotId mcsIndex).2
  | .drain slotId => (oiP2Drain driver baseGraph state.1 state.2 slotId).2

/-- A call that loses a handle: a launch behind whose first enqueue another one fails, or one of a
slot whose event was not released by a drain. -/
def Leaks (state : PipelineHandles × HandleTable) : HandleCall → Prop
  | .launchSlot slotId mcsIndex =>
      McsAccepted state.1.mcsSet mcsIndex ∧
        if (enqueueAll driver launchStages state.2).2.1 = true then
          ∃ slot event, findSlot slotId state.1.slots = some slot ∧ slot.finalEvent = some event
        else driver (.enqueue .k1) state.2.calls = true
  | _ => False

/-- No call of a run loses a handle. -/
def NeverLeaks (baseGraph : McsParams → BaseGraph) :
    PipelineHandles × HandleTable → List HandleCall → Prop
  | _, [] => True
  | state, call :: calls =>
      ¬ Leaks driver state call ∧
        NeverLeaks baseGraph (handleStep driver baseGraph state call) calls

end Calls

/-! ### What setup leaves -/

/-- The handles of a pipeline, in the order of `oi_p2_teardown`. -/
def PipelineHandles.fields (p : PipelineHandles) : List (Option Nat) :=
  p.events ++ [p.ldpcKernel, p.ldpcProgram] ++ kernelIds.map p.kernels ++
    kernelIds.map p.programs ++ [p.reGridCompact 0, p.reGridCompact 1] ++ p.buffers.fields

/-- A pipeline is released as a whole. -/
theorem oiP2Teardown_eq (p : PipelineHandles) (table : HandleTable) :
    oiP2Teardown p table = table.releaseAll p.fields := by
  rw [oiP2Teardown, oiP2BuffersDestroy_eq, PipelineHandles.fields]
  simp only [HandleTable.releaseAll_append]
  rfl

theorem kernelIds_nodup : kernelIds.Nodup := by decide

theorem mem_kernelIds (k : KernelId) : k ∈ kernelIds := by cases k <;> decide

/-! Setting a handle that was null. -/

section Fields

variable {p : PipelineHandles} {k : KernelId}

theorem owned_setProgram (unset : p.programs k = none) (handle : Option Nat) :
    owned { p with programs := Function.update p.programs k handle }.fields =
      owned p.fields + owned [handle] := by
  simp only [PipelineHandles.fields, PipelineHandles.events, owned_append,
    owned_map_update handle kernelIds_nodup (mem_kernelIds k) unset]
  ac_rfl

theorem owned_setKernel (unset : p.kernels k = none) (handle : Option Nat) :
    owned { p with kernels := Function.update p.kernels k handle }.fields =
      owned p.fields + owned [handle] := by
  simp only [PipelineHandles.fields, PipelineHandles.events, owned_append,
    owned_map_update handle kernelIds_nodup (mem_kernelIds k) unset]
  ac_rfl

theorem owned_setCompact {i : Fin 2} (unset : p.reGridCompact i = none) (handle : Option Nat) :
    owned { p with reGridCompact := Function.update p.reGridCompact i handle }.fields =
      owned p.fields + owned [handle] := by
  have listed : ∀ i : Fin 2, i ∈ ([0, 1] : List (Fin 2)) := by decide
  have pair (compact : Fin 2 → Option Nat) :
      [compact 0, compact 1] = ([0, 1] : List (Fin 2)).map compact := rfl
  simp only [PipelineHandles.fields, PipelineHandles.events, owned_append, pair,
    owned_map_update handle (by decide) (listed i) unset]
  ac_rfl

end Fields

section SetupStages

variable (driver : ClCall → Nat → Bool) {start table : HandleTable} {p : PipelineHandles}

theorem buildProgram_extends (path : String) (table : HandleTable) :
    table.Extends (buildProgram driver path table).2 [(buildProgram driver path table).1] := by
  have asked := HandleTable.ask_extends (driver (.fopen path)) table
  rw [buildProgram]
  dsimp only
  generalize table.ask (driver (.fopen path)) = opened at asked ⊢
  obtain ⟨opened, table1⟩ := opened
  have made := HandleTable.create_extends (driver .createProgramWithSource) table1
  dsimp only
  generalize table1.create (driver .createProgramWithSource) = prog at made ⊢
  obtain ⟨prog, table2⟩ := prog
  have built := HandleTable.ask_extends (driver .buildProgram) table2
  dsimp only
  generalize table2.ask (driver .buildProgram) = done at built ⊢
  obtain ⟨done, table3⟩ := done
  split_ifs with noFile noProgram notBuilt
  · exact asked.congr rfl
  · rw [Option.isNone_iff_eq_none.mp noProgram] at made
    exact (asked.trans made).congr rfl
  · have all : table.Extends table3 [prog] := by simpa using (asked.trans made).trans built
    exact all.releaseAll_all.congr rfl
  · simpa using (asked.trans made).trans built

/-- One more handle in a field that was null. -/
theorem gain {after : HandleTable} {next : PipelineHandles} {handle : Option Nat}
    (before : start.Extends table p.fields) (made : table.Extends after [handle])
    (set : owned next.fields = owned p.fields + owned [handle]) :
    start.Extends after next.fields :=
  (before.trans made).congr (by rw [owned_append, set])

/-- What the stages of setup keep: every handle given out since `start` is in the pipeline. -/
structure Kept (start : HandleTable) (p : PipelineHandles)
    (result : Bool × PipelineHandles × HandleTable) : Prop where
  gained : start.Extends result.2.2 result.2.1.fields
  mcsSet : result.2.1.mcsSet = p.mcsSet
  slots : result.2.1.slots = p.slots

theorem buildKernels_kept {ks : List KernelId} (distinct : ks.Nodup)
    (before : start.Extends table p.fields)
    (unset : ∀ k ∈ ks, p.programs k = none ∧ p.kernels k = none) :
    Kept start p (buildKernels driver ks p table) ∧
      (buildKernels driver ks p table).2.1 =
        { p with
          programs := (buildKernels driver ks p table).2.1.programs,
          kernels := (buildKernels driver ks p table).2.1.kernels } := by
  induction ks generalizing p table with
  | nil => exact ⟨⟨before, rfl, rfl⟩, rfl⟩
  | cons k ks inductionHypothesis =>
      obtain ⟨fresh, distinct⟩ := List.nodup_cons.mp distinct
      obtain ⟨⟨noProgram, noKernel⟩, unset⟩ := List.forall_mem_cons.mp unset
      have prog := buildProgram_extends driver (kernelPath k) table
      rw [buildKernels]
      generalize buildProgram driver (kernelPath k) table = built at prog ⊢
      obtain ⟨program, table1⟩ := built
      have first := gain before prog (owned_setProgram noProgram program)
      have kern := HandleTable.create_extends (driver (.createKernel (kernelName k))) table1
      dsimp only
      generalize table1.create (driver (.createKernel (kernelName k))) = created at kern ⊢
      obtain ⟨kernel, table2⟩ := created
      have second := gain first kern (@owned_setKernel
        { p with programs := Function.update p.programs k program } k noKernel kernel)
      split_ifs
      · exact ⟨⟨first, rfl, rfl⟩, rfl⟩
      · exact ⟨⟨second, rfl, rfl⟩, rfl⟩
      · have still : ∀ other ∈ ks, Function.update p.programs k program other = none ∧
            Function.update p.kernels k kernel other = none := by
          intro other inside
          have different : other ≠ k := fun same => fresh (same ▸ inside)
          rw [Function.update_of_ne different, Function.update_of_ne different]
          exact unset other inside
        obtain ⟨kept, rest⟩ := inductionHypothesis distinct second still
        exact ⟨⟨kept.gained, kept.mcsSet, kept.slots⟩, rest⟩

/-- The loop leaves other kernels alone. -/
theorem buildKernels_outside {ks : List KernelId} {other : KernelId} (outside : other ∉ ks)
    (p : PipelineHandles) (table : HandleTable) :
    (buildKernels driver ks p table).2.1.programs other = p.programs other ∧
      (buildKernels driver ks p table).2.1.kernels other = p.kernels other := by
  induction ks generalizing p table with
  | nil => exact ⟨rfl, rfl⟩
  | cons k ks inductionHypothesis =>
      rw [List.mem_cons, not_or] at outside
      have own (fields : KernelId → Option Nat) (handle : Option Nat) :
          Function.update fields k handle other = fields other :=
        Function.update_of_ne outside.1 ..
      simp only [buildKernels]
      split_ifs
      · exact ⟨own .., rfl⟩
      · exact ⟨own .., own ..⟩
      · obtain ⟨programs, kernels⟩ := inductionHypothesis outside.2 _ _
        exact ⟨programs.trans (own ..), kernels.trans (own ..)⟩

/-- The first kernel's program is the one that was built first. -/
theorem buildKernels_first {k : KernelId} {ks : List KernelId} (fresh : k ∉ ks)
    (p : PipelineHandles) (table : HandleTable) :
    (buildKernels driver (k :: ks) p table).2.1.programs k =
      (buildProgram driver (kernelPath k) table).1 := by
  simp only [buildKernels]
  split_ifs
  · exact Function.update_self ..
  · exact Function.update_self ..
  · rw [(buildKernels_outside driver fresh _ _).1]
    exact Function.update_self ..

/-- A pipeline in which the kernels of `front` were made, and of those of `back` at most the program
of the first. -/
structure BuiltUpTo (p : PipelineHandles) (front back : List KernelId) : Prop where
  built : ∀ k ∈ front, p.programs k ≠ none ∧ p.kernels k ≠ none
  stopped : ∀ k ∈ back, p.kernels k = none
  untouched : ∀ k ∈ back.tail, p.programs k = none

/-- The loop makes the kernels one after the other, and stops at the first that fails. -/
theorem buildKernels_builtUpTo {ks : List KernelId} (distinct : ks.Nodup)
    (unset : ∀ k ∈ ks, p.programs k = none ∧ p.kernels k = none) (table : HandleTable) :
    ∃ front back, ks = front ++ back ∧ BuiltUpTo (buildKernels driver ks p table).2.1 front back ∧
      (back = [] ↔ (buildKernels driver ks p table).1 = true) := by
  induction ks generalizing p table with
  | nil => exact ⟨[], [], rfl, ⟨by simp, by simp, by simp⟩, by simp [buildKernels]⟩
  | cons k ks inductionHypothesis =>
      obtain ⟨fresh, distinct⟩ := List.nodup_cons.mp distinct
      obtain ⟨⟨_, noKernel⟩, unset⟩ := List.forall_mem_cons.mp unset
      have own (fields : KernelId → Option Nat) (handle : Option Nat) :
          ∀ other ∈ ks, Function.update fields k handle other = fields other :=
        fun other inside => Function.update_of_ne (fun same : other = k => fresh (same ▸ inside)) ..
      rw [buildKernels]
      generalize buildProgram driver (kernelPath k) table = prog
      obtain ⟨program, table1⟩ := prog
      dsimp only
      generalize table1.create (driver (.createKernel (kernelName k))) = created
      obtain ⟨kernel, table2⟩ := created
      dsimp only
      split_ifs with noProgram failed
      · refine ⟨[], k :: ks, rfl, ⟨by simp, ?_, ?_⟩, by simp⟩
        · exact List.forall_mem_cons.mpr ⟨noKernel, fun other inside => (unset other inside).2⟩
        · exact fun other inside => (own _ _ other inside).trans (unset other inside).1
      · refine ⟨[], k :: ks, rfl, ⟨by simp, ?_, ?_⟩, by simp⟩
        · refine List.forall_mem_cons.mpr ⟨?_, fun other inside => ?_⟩
          · exact (Function.update_self ..).trans (Option.isNone_iff_eq_none.mp failed)
          · exact (own _ _ other inside).trans (unset other inside).2
        · exact fun other inside => (own _ _ other inside).trans (unset other inside).1
      · have still : ∀ other ∈ ks, Function.update p.programs k program other = none ∧
            Function.update p.kernels k kernel other = none := fun other inside =>
          ⟨(own _ _ other inside).trans (unset other inside).1,
            (own _ _ other inside).trans (unset other inside).2⟩
        obtain ⟨front, back, split, part, all⟩ := @inductionHypothesis
          { p with
            programs := Function.update p.programs k program
            kernels := Function.update p.kernels k kernel } distinct still table2
        refine ⟨k :: front, back, by rw [split, List.cons_append], ⟨?_, part.stopped,
          part.untouched⟩, all⟩
        refine List.forall_mem_cons.mpr ⟨?_, part.built⟩
        obtain ⟨programs, kernels⟩ := buildKernels_outside driver fresh
          { p with
            programs := Function.update p.programs k program
            kernels := Function.update p.kernels k kernel } table2
        rw [programs, kernels]
        simp only [Function.update_self]
        exact ⟨fun none => noProgram (none ▸ rfl), fun none => failed (none ▸ rfl)⟩

theorem oiP2LdpcDecoderInit_kept (before : start.Extends table p.fields)
    (noProgram : p.ldpcProgram = none) (noKernel : p.ldpcKernel = none) :
    Kept start p (oiP2LdpcDecoderInit driver p table) ∧
      (oiP2LdpcDecoderInit driver p table).2.1 =
        { p with
          ldpcProgram := (oiP2LdpcDecoderInit driver p table).2.1.ldpcProgram,
          ldpcKernel := (oiP2LdpcDecoderInit driver p table).2.1.ldpcKernel } := by
  have ownedPair (program kernel : Option Nat) :
      owned { p with ldpcProgram := program, ldpcKernel := kernel }.fields =
        owned p.fields + owned [program] + owned [kernel] := by
    simp only [PipelineHandles.fields, PipelineHandles.events, owned_append, noProgram, noKernel,
      owned_cons kernel [program], owned_cons_none, owned_nil, add_zero]
    ac_rfl
  have asked := HandleTable.ask_extends (driver (.fopen kLdpcSrc)) table
  rw [oiP2LdpcDecoderInit]
  dsimp only
  generalize table.ask (driver (.fopen kLdpcSrc)) = opened at asked ⊢
  obtain ⟨opened, table1⟩ := opened
  have made := HandleTable.create_extends (driver .createProgramWithSource) table1
  dsimp only
  generalize table1.create (driver .createProgramWithSource) = prog at made ⊢
  obtain ⟨program, table2⟩ := prog
  have built := HandleTable.ask_extends (driver .buildProgram) table2
  dsimp only
  generalize table2.ask (driver .buildProgram) = done at built ⊢
  obtain ⟨done, table3⟩ := done
  have kern := HandleTable.create_extends (driver (.createKernel "ldpc_decode")) table3
  dsimp only
  generalize table3.create (driver (.createKernel "ldpc_decode")) = created at kern ⊢
  obtain ⟨kernel, table4⟩ := created
  have onlyProgram : owned { p with ldpcProgram := program }.fields =
      owned (p.fields ++ [] ++ [program]) := by
    have same : ({ p with ldpcProgram := program } : PipelineHandles) =
        { p with ldpcProgram := program, ldpcKernel := none } := by rw [← noKernel]
    rw [same, ownedPair, owned_append, List.append_nil, owned_cons_none, owned_nil, add_zero]
  have second := (before.trans asked).trans made
  have third := second.trans built
  split_ifs
  · exact ⟨⟨(before.trans asked).congr (by rw [List.append_nil]), rfl, rfl⟩, rfl⟩
  · exact ⟨⟨second.congr onlyProgram.symm, rfl, rfl⟩, rfl⟩
  · exact ⟨⟨third.congr (by rw [List.append_nil, onlyProgram]), rfl, rfl⟩, rfl⟩
  · refine ⟨⟨(third.trans kern).congr ?_, rfl, rfl⟩, rfl⟩
    rw [ownedPair, List.append_nil, List.append_nil, owned_append, owned_append]

theorem createCompact_kept {is : List (Fin 2)} (distinct : is.Nodup)
    (before : start.Extends table p.fields) (unset : ∀ i ∈ is, p.reGridCompact i = none) :
    Kept start p (createCompact driver is p table) ∧
      (createCompact driver is p table).2.1 =
        { p with reGridCompact := (createCompact driver is p table).2.1.reGridCompact } := by
  induction is generalizing p table with
  | nil => exact ⟨⟨before, rfl, rfl⟩, rfl⟩
  | cons i is inductionHypothesis =>
      obtain ⟨fresh, distinct⟩ := List.nodup_cons.mp distinct
      obtain ⟨noBuffer, unset⟩ := List.forall_mem_cons.mp unset
      have made := HandleTable.create_extends (driver (.createBuffer (kNofDataRe * 8))) table
      rw [createCompact]
      dsimp only
      generalize table.create (driver (.createBuffer (kNofDataRe * 8))) = created at made ⊢
      obtain ⟨rg, table1⟩ := created
      have first := gain before made (owned_setCompact noBuffer rg)
      split_ifs
      · exact ⟨⟨first, rfl, rfl⟩, rfl⟩
      · have still : ∀ other ∈ is, Function.update p.reGridCompact i rg other = none := by
          intro other inside
          have different : other ≠ i := fun same => fresh (same ▸ inside)
          rw [Function.update_of_ne different]
          exact unset other inside
        obtain ⟨kept, rest⟩ := inductionHypothesis distinct first still
        exact ⟨⟨kept.gained, kept.mcsSet, kept.slots⟩, rest⟩

/-- A pipeline with its first program set owns it. -/
theorem owned_fields_ne_zero {program : Nat} (held : p.programs .k1 = some program) :
    owned p.fields ≠ 0 := by
  intro nothing
  have listed : some program ∈ p.fields := by
    rw [PipelineHandles.fields]
    simp [kernelIds, held]
  exact absurd (owned_eq_zero_iff.mp nothing _ listed) (by simp)

end SetupStages

theorem createPool_kept (driver : ClCall → Nat → Bool) {start table : HandleTable}
    {p : PipelineHandles} (before : start.Extends table p.fields) (unset : p.buffers = .empty) :
    Kept start p (createPool driver p table) ∧
      (createPool driver p table).2.1 =
        { p with buffers := (createPool driver p table).2.1.buffers } := by
  have pool := (oiP2BuffersCreate_spec driver p2ArenaBytes p2DescRingCapacity table).gained
  refine ⟨⟨(before.trans pool).congr ?_, rfl, rfl⟩, rfl⟩
  rw [owned_append, PipelineHandles.fields, owned_append, unset, BufferPool.owned_empty, add_zero,
    ← owned_append]
  rfl

theorem buildKernels_unbuilt {driver : ClCall → Nat → Bool} {k : KernelId} {table : HandleTable}
    (ks : List KernelId) (p : PipelineHandles)
    (unbuilt : (buildProgram driver (kernelPath k) table).1 = none) :
    buildKernels driver (k :: ks) p table =
      (false, { p with programs := Function.update p.programs k none },
        (buildProgram driver (kernelPath k) table).2) := by
  rw [buildKernels]
  dsimp only
  rw [unbuilt, if_pos Option.isNone_none]

section Outcome

variable {driver : ClCall → Nat → Bool} {config : Option (List Nat)} {table : HandleTable}
  {mcsSet : List Nat}

/-- What `oi_p2_setup` makes of its stages: it hands the pipeline out, or deletes it and leaves the
handles as they are. -/
def Concludes (stage : Bool × PipelineHandles × HandleTable)
    (result : OiP2Status × Option PipelineHandles × HandleTable) : Prop :=
  if stage.1 = true then result = (.ok, some stage.2.1, stage.2.2)
  else result.1 ≠ .ok ∧ result.2 = (none, stage.2.2)

theorem concludes_orFail {status : OiP2Status} (bad : status ≠ .ok)
    {stage : Bool × PipelineHandles × HandleTable}
    {next : PipelineHandles → HandleTable → Bool × PipelineHandles × HandleTable}
    {rest : PipelineHandles → HandleTable → OiP2Status × Option PipelineHandles × HandleTable}
    (behind : Concludes (next stage.2.1 stage.2.2) (rest stage.2.1 stage.2.2)) :
    Concludes (stageThen stage next) (orFail status stage rest) := by
  rw [stageThen, orFail]
  split_ifs with failed
  · rw [Concludes, failed]
    exact ⟨bad, rfl⟩
  · exact behind

theorem oiP2Setup_concludes (driver : ClCall → Nat → Bool) (mcsSet : List Nat)
    (table : HandleTable) :
    Concludes (setupStages driver mcsSet table) (oiP2Setup driver (some mcsSet) table) := by
  rw [setupStages, oiP2Setup]
  refine concludes_orFail (by decide) (concludes_orFail (by decide)
    (concludes_orFail (by decide) ?_))
  generalize createCompact driver [0, 1] _ _ = last
  obtain ⟨ended, p, after⟩ := last
  cases ended <;> simp [Concludes, orFail]

/-- What the stages keep: every handle given out is in the pipeline, and no stage behind the loop
over the kernels touches those. -/
structure Staged (driver : ClCall → Nat → Bool) (mcsSet : List Nat) (table : HandleTable)
    (result : Bool × PipelineHandles × HandleTable) : Prop where
  kept : Kept table (.new mcsSet) result
  programs : result.2.1.programs =
    (buildKernels driver kernelIds (.new mcsSet) table).2.1.programs
  kernels : result.2.1.kernels = (buildKernels driver kernelIds (.new mcsSet) table).2.1.kernels

/-- Whether a stage is the last or not. -/
theorem staged_stageThen {stage : Bool × PipelineHandles × HandleTable}
    {next : PipelineHandles → HandleTable → Bool × PipelineHandles × HandleTable}
    (last : Staged driver mcsSet table stage)
    (behind : Staged driver mcsSet table (next stage.2.1 stage.2.2)) :
    Staged driver mcsSet table (stageThen stage next) := by
  rw [stageThen]
  split_ifs
  · exact last
  · exact behind

/-- One more stage. -/
theorem Staged.next {stage after : Bool × PipelineHandles × HandleTable}
    (staged : Staged driver mcsSet table stage) (kept : Kept table stage.2.1 after)
    (programs : after.2.1.programs = stage.2.1.programs)
    (kernels : after.2.1.kernels = stage.2.1.kernels) : Staged driver mcsSet table after :=
  ⟨⟨kept.gained, kept.mcsSet.trans staged.kept.mcsSet, kept.slots.trans staged.kept.slots⟩,
    programs.trans staged.programs, kernels.trans staged.kernels⟩

theorem setupStages_staged (driver : ClCall → Nat → Bool) (mcsSet : List Nat)
    (table : HandleTable) :
    Staged driver mcsSet table (setupStages driver mcsSet table) := by
  have fresh : table.Extends table (PipelineHandles.new mcsSet).fields :=
    (HandleTable.Extends.refl table).congr rfl
  obtain ⟨kept1, frame1⟩ := buildKernels_kept driver kernelIds_nodup fresh fun _ _ => ⟨rfl, rfl⟩
  have staged1 : Staged driver mcsSet table (buildKernels driver kernelIds (.new mcsSet) table) :=
    ⟨kept1, rfl, rfl⟩
  rw [setupStages]
  refine staged_stageThen staged1 ?_
  generalize buildKernels driver kernelIds (.new mcsSet) table = stage at kept1 frame1 staged1 ⊢
  obtain ⟨kept2, frame2⟩ := oiP2LdpcDecoderInit_kept driver kept1.gained
    (by rw [frame1]; rfl) (by rw [frame1]; rfl)
  have staged2 := staged1.next kept2 (congrArg (·.programs) frame2) (congrArg (·.kernels) frame2)
  refine staged_stageThen staged2 ?_
  have empty2 := (congrArg (·.buffers) frame2).trans (congrArg (·.buffers) frame1)
  have compact2 := (congrArg (·.reGridCompact) frame2).trans (congrArg (·.reGridCompact) frame1)
  generalize oiP2LdpcDecoderInit driver stage.2.1 stage.2.2 = second
    at kept2 frame2 staged2 empty2 compact2 ⊢
  obtain ⟨kept3, frame3⟩ := createPool_kept driver kept2.gained empty2
  have staged3 := staged2.next kept3 (congrArg (·.programs) frame3) (congrArg (·.kernels) frame3)
  refine staged_stageThen staged3 ?_
  have compact3 := (congrArg (·.reGridCompact) frame3).trans compact2
  generalize createPool driver second.2.1 second.2.2 = third at kept3 frame3 staged3 compact3 ⊢
  obtain ⟨kept4, frame4⟩ := createCompact_kept driver
    (by decide : ([0, 1] : List (Fin 2)).Nodup) kept3.gained fun i _ => congrFun compact3 i
  exact staged3.next kept4 (congrArg (·.programs) frame4) (congrArg (·.kernels) frame4)

/-- The stages take nothing exactly when the first program is not built. -/
theorem owned_setupStages_eq_zero_iff (driver : ClCall → Nat → Bool) (mcsSet : List Nat)
    (table : HandleTable) :
    owned (setupStages driver mcsSet table).2.1.fields = 0 ↔
      (buildProgram driver (kernelPath .k1) table).1 = none := by
  have staged := setupStages_staged driver mcsSet table
  cases built : (buildProgram driver (kernelPath .k1) table).1 with
  | none =>
      have firstBuild := buildProgram_extends driver (kernelPath .k1) table
      have stopped : (setupStages driver mcsSet table).2.2 =
          (buildProgram driver (kernelPath .k1) table).2 := by
        rw [setupStages, kernelIds, buildKernels_unbuilt _ _ built, stageThen, if_pos rfl]
      have live := staged.kept.gained.live
      rw [stopped, firstBuild.live, built] at live
      exact iff_of_true (add_left_cancel live).symm rfl
  | some program =>
      have held : (setupStages driver mcsSet table).2.1.programs .k1 = some program := by
        rw [staged.programs]
        exact (buildKernels_first driver (by decide) _ _).trans built
      exact iff_of_false (owned_fields_ne_zero held) (by simp)

/-- The kernels that the deleted or handed out pipeline has. -/
theorem setupStages_builtUpTo (driver : ClCall → Nat → Bool) (mcsSet : List Nat)
    (table : HandleTable) :
    ∃ front back, kernelIds = front ++ back ∧
      BuiltUpTo (setupStages driver mcsSet table).2.1 front back ∧
      (back = [] ↔ (buildKernels driver kernelIds (.new mcsSet) table).1 = true) := by
  have staged := setupStages_staged driver mcsSet table
  obtain ⟨front, back, split, part, all⟩ := buildKernels_builtUpTo driver kernelIds_nodup
    (p := .new mcsSet) (fun _ _ => ⟨rfl, rfl⟩) table
  refine ⟨front, back, split, ⟨?_, ?_, ?_⟩, all⟩
  · rw [staged.programs, staged.kernels]
    exact part.built
  · rw [staged.kernels]
    exact part.stopped
  · rw [staged.programs]
    exact part.untouched

/-- A setup that succeeds. -/
theorem oiP2Setup_ok {p : PipelineHandles} {after : HandleTable}
    (setup : oiP2Setup driver config table = (.ok, some p, after)) :
    config = some p.mcsSet ∧ p.slots = [] ∧ table.Extends after p.fields := by
  cases config with
  | none => cases setup
  | some mcsSet =>
  have concludes := oiP2Setup_concludes driver mcsSet table
  have staged := setupStages_staged driver mcsSet table
  rw [setup, Concludes] at concludes
  split_ifs at concludes with ended
  · simp only [Prod.mk.injEq, Option.some.injEq, true_and] at concludes
    obtain ⟨rfl, rfl⟩ := concludes
    exact ⟨congrArg some staged.kept.mcsSet.symm, staged.kept.slots, staged.kept.gained⟩
  · exact absurd rfl concludes.1

end Outcome

/-! ### What a run leaves -/

/-- The event a slot holds; a slot without an entry holds none. -/
def eventOf (slotId : UInt32) (slots : List (UInt32 × SlotHandles)) : Option Nat :=
  ((findSlot slotId slots).getD .fresh).finalEvent

/-- Setting the entry of a slot exchanges its event for the new one. -/
theorem owned_setSlot (slotId : UInt32) (value : SlotHandles)
    (slots : List (UInt32 × SlotHandles)) :
    owned ((setSlot slotId value slots).map fun entry => entry.2.finalEvent) +
        owned [eventOf slotId slots] =
      owned (slots.map fun entry => entry.2.finalEvent) + owned [value.finalEvent] := by
  induction slots with
  | nil => exact add_comm _ _
  | cons entry slots inductionHypothesis =>
      obtain ⟨id, slot⟩ := entry
      by_cases same : id = slotId
      · rw [setSlot, eventOf, findSlot, if_pos same, if_pos same, List.map_cons, List.map_cons,
          owned_cons value.finalEvent, owned_cons slot.finalEvent, Option.getD_some]
        ac_rfl
      · rw [setSlot, if_neg same, List.map_cons, List.map_cons, owned_cons slot.finalEvent,
          owned_cons slot.finalEvent (slots.map _), add_assoc, add_assoc, ← inductionHypothesis,
          eventOf, eventOf, findSlot, if_neg same]

theorem findSlot_setSlot (slotId : UInt32) (value : SlotHandles)
    (slots : List (UInt32 × SlotHandles)) :
    findSlot slotId (setSlot slotId value slots) = some value := by
  induction slots with
  | nil => exact if_pos rfl
  | cons entry slots inductionHypothesis =>
      obtain ⟨id, slot⟩ := entry
      rw [setSlot]
      split_ifs with same
      · exact if_pos same
      · rw [findSlot, if_neg same, inductionHypothesis]

section Run

variable (driver : ClCall → Nat → Bool) {start table : HandleTable} {p : PipelineHandles}
  {leaked : Multiset Nat} {slotId : UInt32}

/-- The handles of a pipeline whose slot table is `slots`. -/
theorem owned_withSlots (slots : List (UInt32 × SlotHandles)) :
    owned { p with slots := slots }.fields =
      owned (slots.map fun entry => entry.2.finalEvent) +
        owned { p with slots := [] }.fields := by
  simp only [PipelineHandles.fields, PipelineHandles.events, owned_append, List.map_nil, owned_nil,
    zero_add, add_assoc]

theorem owned_fields_setSlot (p : PipelineHandles) (slotId : UInt32) (value : SlotHandles) :
    owned { p with slots := setSlot slotId value p.slots }.fields + owned [eventOf slotId p.slots] =
      owned p.fields + owned [value.finalEvent] := by
  have own := owned_withSlots (p := p) p.slots
  rw [owned_withSlots, add_right_comm, owned_setSlot, add_right_comm, ← own]

/-- A fresh entry holds no event. -/
theorem owned_touchSlot : owned (p.touchSlot slotId).fields = owned p.fields :=
  add_right_cancel (owned_fields_setSlot p slotId ((findSlot slotId p.slots).getD .fresh))

theorem eventOf_touchSlot : eventOf slotId (p.touchSlot slotId).slots = eventOf slotId p.slots := by
  rw [eventOf, PipelineHandles.touchSlot, findSlot_setSlot, Option.getD_some, eventOf]

/-- The live handles are those at the start, those of the pipeline and those that were lost. -/
structure Balanced (start : HandleTable) (leaked : Multiset Nat)
    (state : PipelineHandles × HandleTable) : Prop where
  live : state.2.live = start.live + owned state.1.fields + leaked
  dangling : state.2.dangling = start.dangling

/-- The events of enqueue calls are live, and there are none just when the first call failed. -/
structure Enqueued (table : HandleTable) (stages : List LaunchStage)
    (result : List (Option Nat) × Bool × HandleTable) : Prop where
  gained : table.Extends result.2.2 result.1
  set : ∀ event ∈ result.1, event ≠ none
  length : result.2.1 = true → result.1.length = stages.length

theorem enqueueAll_spec (stages : List LaunchStage) (table : HandleTable) :
    Enqueued table stages (enqueueAll driver stages table) := by
  induction stages generalizing table with
  | nil => exact ⟨HandleTable.Extends.refl table, List.forall_mem_nil _, fun _ => rfl⟩
  | cons stage stages inductionHypothesis =>
      have made := HandleTable.create_extends (driver (.enqueue stage)) table
      rw [enqueueAll]
      dsimp only
      generalize table.create (driver (.enqueue stage)) = created at made ⊢
      obtain ⟨event, table1⟩ := created
      have rest := inductionHypothesis table1
      dsimp only
      split_ifs with failed
      · rw [Option.isNone_iff_eq_none.mp failed] at made
        exact ⟨made.congr rfl, List.forall_mem_nil _, fun done => absurd done Bool.false_ne_true⟩
      · refine ⟨made.trans rest.gained, List.forall_mem_cons.mpr ⟨?_, rest.set⟩, fun done => ?_⟩
        · simpa using failed
        · rw [List.length_cons, List.length_cons, rest.length done]

/-- No event was made just when the first call failed. -/
theorem enqueueAll_eq_nil_iff (stage : LaunchStage) (stages : List LaunchStage)
    (table : HandleTable) :
    (enqueueAll driver (stage :: stages) table).1 = [] ↔
      driver (.enqueue stage) table.calls = false := by
  rw [enqueueAll, HandleTable.create]
  by_cases succeeds : driver (.enqueue stage) table.calls = true
  · simp [succeeds]
  · simp [succeeds]

/-- Handles that are set are not none at all. -/
theorem owned_eq_zero_of_set {fields : List (Option Nat)} (set : ∀ field ∈ fields, field ≠ none) :
    owned fields = 0 ↔ fields = [] := by
  constructor
  · intro nothing
    refine List.eq_nil_iff_forall_not_mem.mpr fun field inside => ?_
    exact set field inside (owned_eq_zero_iff.mp nothing field inside)
  · rintro rfl
    rfl

theorem eventOf_eq_none_iff (slots : List (UInt32 × SlotHandles)) :
    eventOf slotId slots = none ↔
      ¬ ∃ slot event, findSlot slotId slots = some slot ∧ slot.finalEvent = some event := by
  rw [eventOf]
  cases findSlot slotId slots with
  | none => simp [SlotHandles.fresh]
  | some slot => simp [Option.eq_none_iff_forall_ne_some]

/-- A launch of which an enqueue fails loses the events it made. -/
theorem launch_failed (balanced : Balanced start leaked (p, table)) :
    Balanced start (leaked + owned (enqueueAll driver launchStages table).1)
      (p.touchSlot slotId, (enqueueAll driver launchStages table).2.2) := by
  have made := (enqueueAll_spec driver launchStages table).gained
  refine ⟨?_, made.dangling.trans balanced.dangling⟩
  rw [made.live, balanced.live, owned_touchSlot, add_assoc]

/-- A launch that succeeds loses the event the slot held. -/
theorem launch_succeeded (balanced : Balanced start leaked (p, table)) (slot : SlotHandles)
    (done : (enqueueAll driver launchStages table).2.1 = true)
    (last : slot.finalEvent = (enqueueAll driver launchStages table).1.getLast?.join) :
    Balanced start (leaked + owned [eventOf slotId p.slots])
      ({ p with slots := setSlot slotId slot (p.touchSlot slotId).slots },
        (enqueueAll driver launchStages table).2.2.releaseAll
          (enqueueAll driver launchStages table).1.dropLast) := by
  have spec := enqueueAll_spec driver launchStages table
  generalize enqueueAll driver launchStages table = result at spec done last ⊢
  obtain ⟨events, ok, after⟩ := result
  have nonempty : events ≠ [] := by
    intro none
    have length := spec.length done
    simp [none, launchStages] at length
  have split : events.dropLast ++ [slot.finalEvent] = events := by
    rw [last, List.getLast?_eq_getLast_of_ne_nil nonempty]
    exact List.dropLast_append_getLast nonempty
  have made : table.Extends after ([slot.finalEvent] ++ events.dropLast) :=
    spec.gained.congr (by rw [← split, owned_append, owned_append, add_comm]; simp)
  have kept := made.releaseAll
  refine ⟨?_, kept.dangling.trans balanced.dangling⟩
  have exchange := owned_fields_setSlot (p.touchSlot slotId) slotId slot
  rw [eventOf_touchSlot, owned_touchSlot] at exchange
  calc _ = start.live + (owned p.fields + owned [slot.finalEvent]) + leaked := by
        rw [kept.live, balanced.live]
        ac_rfl
    _ = _ := by
        rw [← exchange]
        exact by ac_rfl

theorem launch_step (balanced : Balanced start leaked (p, table)) (mcsIndex : Nat) :
    ∃ lost, Balanced start (leaked + lost) (oiP2LaunchSlot driver p table slotId mcsIndex).2 ∧
      (lost = 0 ↔ ¬ Leaks driver (p, table) (.launchSlot slotId mcsIndex)) := by
  rw [oiP2LaunchSlot]
  by_cases accepted : McsAccepted p.mcsSet mcsIndex
  · obtain ⟨known, configured⟩ := accepted
    rw [if_neg (by simpa using Option.isSome_iff_ne_none.mp known), if_neg (not_not.mpr configured)]
    dsimp only
    have spec := enqueueAll_spec driver launchStages table
    cases done : (enqueueAll driver launchStages table).2.1 with
    | false =>
        rw [if_pos rfl]
        refine ⟨_, launch_failed driver balanced, ?_⟩
        have first : launchStages = .k1 :: launchStages.tail := rfl
        rw [owned_eq_zero_of_set spec.set, first, enqueueAll_eq_nil_iff]
        simp [Leaks, done, McsAccepted, known, configured]
    | true =>
        rw [if_neg (by decide)]
        refine ⟨_, launch_succeeded driver balanced _ done rfl, ?_⟩
        rw [owned_eq_zero_iff, List.forall_mem_singleton, eventOf_eq_none_iff]
        simp [Leaks, done, McsAccepted, known, configured]
  · have unchanged : ¬ Leaks driver (p, table) (.launchSlot slotId mcsIndex) :=
      fun leaks => accepted leaks.1
    refine ⟨0, ?_, iff_of_true rfl unchanged⟩
    rw [add_zero]
    split_ifs with unknown inside
    · exact balanced
    · exact absurd ⟨by simpa [Option.isSome_iff_ne_none] using unknown, inside⟩ accepted
    · exact balanced

theorem createBuffers_extends (sizes : List Nat) (table : HandleTable) :
    table.Extends (createBuffers driver sizes table).2 (createBuffers driver sizes table).1 := by
  induction sizes generalizing table with
  | nil => exact HandleTable.Extends.refl table
  | cons bytes sizes inductionHypothesis =>
      exact (HandleTable.create_extends _ table).trans (inductionHypothesis _)

theorem ldpcDecodeCb_extends (bg : BaseGraph) (z : Nat) (table : HandleTable) :
    table.Extends (oiP2LdpcDecodeCb driver bg z table) [] := by
  have first := HandleTable.create_extends (driver (.createBuffer (bg.nVnFull * z))) table
  rw [oiP2LdpcDecodeCb]
  dsimp only
  generalize table.create (driver (.createBuffer (bg.nVnFull * z))) = created at first ⊢
  obtain ⟨llr, table1⟩ := created
  dsimp only
  split_ifs with noSize noBuffer
  · exact HandleTable.Extends.refl table
  · rw [Option.isNone_iff_eq_none.mp noBuffer] at first
    exact first.congr rfl
  · exact (first.trans (createBuffers_extends driver _ table1)).releaseAll_all

/-- A turn of the drain's loop releases what it makes. -/
theorem drainTurn_extends (mcs : McsParams) (seg : OiP2CbSegmentParams) (table : HandleTable)
    (cb : Nat) : table.Extends (drainTurn driver mcs seg table cb) [] := by
  have rateDematch := (createBuffers_extends driver
    [oiP2ComputeRmLength kNofDataRe seg.nofSegments mcs.qm cb, seg.codewordLength]
    table).releaseAll_all
  exact rateDematch.trans (ldpcDecodeCb_extends ..)

theorem foldl_drainTurn_extends (mcs : McsParams) (seg : OiP2CbSegmentParams) (cbs : List Nat)
    (table : HandleTable) : table.Extends (cbs.foldl (drainTurn driver mcs seg) table) [] := by
  induction cbs generalizing table with
  | nil => exact HandleTable.Extends.refl table
  | cons cb cbs inductionHypothesis =>
      exact (drainTurn_extends driver mcs seg table cb).trans (inductionHypothesis _)

/-- An event that the pipeline no longer holds is released. -/
theorem Balanced.release {next : PipelineHandles} {event : Option Nat}
    (balanced : Balanced start leaked (p, table))
    (exchange : owned next.fields + owned [event] = owned p.fields) :
    Balanced start leaked (next, table.release event) := by
  have live : table.live = start.live + owned next.fields + leaked + owned [event] := by
    rw [balanced.live, ← exchange]
    exact by ac_rfl
  have released : table.release event =
      { table with live := start.live + owned next.fields + leaked } :=
    HandleTable.releaseAll_of_live live
  rw [released]
  exact ⟨rfl, balanced.dangling⟩

theorem Balanced.quiet {after : HandleTable} (balanced : Balanced start leaked (p, table))
    (quiet : table.Extends after []) : Balanced start leaked (p, after) :=
  ⟨by rw [quiet.live, owned_nil, add_zero, balanced.live],
    quiet.dangling.trans balanced.dangling⟩

theorem drain_step (baseGraph : McsParams → BaseGraph)
    (balanced : Balanced start leaked (p, table)) :
    Balanced start leaked (oiP2Drain driver baseGraph p table slotId).2 := by
  rw [oiP2Drain]
  cases found : findSlot slotId p.slots with
  | none => exact balanced
  | some slot =>
      have exchange := owned_fields_setSlot p slotId
        { slot with finalEvent := none, drained := true }
      rw [eventOf, found, Option.getD_some, owned_cons_none, owned_nil, add_zero] at exchange
      have released := balanced.release exchange
      dsimp only
      split_ifs
      · exact balanced
      · cases findMcs slot.mcsIndex with
        | none => exact released
        | some mcs => exact released.quiet (foldl_drainTurn_extends ..)

/-- What one call loses. -/
theorem handleStep_balanced (baseGraph : McsParams → BaseGraph) (call : HandleCall)
    {state : PipelineHandles × HandleTable} (balanced : Balanced start leaked state) :
    ∃ lost, Balanced start (leaked + lost) (handleStep driver baseGraph state call) ∧
      (lost = 0 ↔ ¬ Leaks driver state call) := by
  cases call with
  | feed slotId =>
      refine ⟨0, ⟨?_, balanced.dangling⟩, iff_of_true rfl not_false⟩
      rw [add_zero, handleStep, owned_touchSlot, balanced.live]
  | launchSlot slotId mcsIndex => exact launch_step driver balanced mcsIndex
  | drain slotId =>
      refine ⟨0, ?_, iff_of_true rfl not_false⟩
      rw [add_zero]
      exact drain_step driver baseGraph balanced

/-- What a run loses. -/
theorem foldl_handleStep_balanced (baseGraph : McsParams → BaseGraph) (calls : List HandleCall)
    {state : PipelineHandles × HandleTable} (balanced : Balanced start leaked state) :
    ∃ lost, Balanced start (leaked + lost) (calls.foldl (handleStep driver baseGraph) state) ∧
      (lost = 0 ↔ NeverLeaks driver baseGraph state calls) := by
  induction calls generalizing state leaked with
  | nil => exact ⟨0, by rwa [add_zero], iff_of_true rfl trivial⟩
  | cons call calls inductionHypothesis =>
      obtain ⟨now, balanced, nowIff⟩ := handleStep_balanced driver baseGraph call balanced
      obtain ⟨later, balanced, laterIff⟩ := inductionHypothesis balanced
      refine ⟨now + later, ?_, ?_⟩
      · rwa [← add_assoc]
      · rw [NeverLeaks, ← nowIff, ← laterIff,
          add_eq_zero_iff_of_nonneg (Multiset.zero_le _) (Multiset.zero_le _)]

end Run

/-- `oi_p2_buffers_create` is all or nothing, however many of its allocations the driver grants: it
gives a pool with every handle set that owns just what was allocated, and whose destruction gives
all of it back; or it fails, and gives the empty pool and has released whatever it allocated. -/
theorem buffers_create_all_or_nothing (driver : ClCall → Nat → Bool)
    (arenaBytes descRingCapacity : Nat) (table : HandleTable) :
    let result := oiP2BuffersCreate driver arenaBytes descRingCapacity table
    let destroyed := oiP2BuffersDestroy result.2.1 result.2.2
    (result.1 = true → result.2.1.Complete ∧
        result.2.2.live = table.live + owned result.2.1.fields) ∧
      (result.1 = false → result.2.1 = .empty ∧ result.2.2.live = table.live) ∧
      destroyed.1 = .empty ∧ destroyed.2.live = table.live ∧
      destroyed.2.dangling = table.dangling := by
  have made := oiP2BuffersCreate_spec driver arenaBytes descRingCapacity table
  have back := made.gained.releaseAll_all
  refine ⟨fun done => ⟨made.complete done, made.gained.live⟩, fun failed => ?_, rfl, ?_, ?_⟩
  · have empty := made.empty failed
    refine ⟨empty, ?_⟩
    rw [made.gained.live, empty, BufferPool.owned_empty, add_zero]
  · rw [oiP2BuffersDestroy_eq, back.live, owned_nil, add_zero]
  · rw [oiP2BuffersDestroy_eq, back.dangling]

/-- A failed setup hands out no pipeline and releases nothing it does not hold.  Behind an accepted
configuration it leaves just what the deleted pipeline owned: the programs and kernels made before
it stopped, and what the later stages made.  That is nothing just when the first kernel's program
was not built. -/
theorem setup_failure_leaks_iff (driver : ClCall → Nat → Bool) (config : Option (List Nat))
    (table : HandleTable) (failed : (oiP2Setup driver config table).1 ≠ .ok) :
    (oiP2Setup driver config table).2.1 = none ∧
      (oiP2Setup driver config table).2.2.dangling = table.dangling ∧
      (∀ mcsSet, config = some mcsSet →
        (oiP2Setup driver config table).2.2.live =
            table.live + owned (setupStages driver mcsSet table).2.1.fields ∧
          ∃ front back, kernelIds = front ++ back ∧
            BuiltUpTo (setupStages driver mcsSet table).2.1 front back ∧
            (back = [] ↔ (buildKernels driver kernelIds (.new mcsSet) table).1 = true)) ∧
      ((oiP2Setup driver config table).2.2.live = table.live ↔
        config = none ∨ (buildProgram driver (kernelPath .k1) table).1 = none) := by
  cases config with
  | none => exact ⟨rfl, rfl, (fun _ accepted => by cases accepted), iff_of_true rfl (.inl rfl)⟩
  | some mcsSet =>
  have concludes := oiP2Setup_concludes driver mcsSet table
  have gained := (setupStages_staged driver mcsSet table).kept.gained
  rw [Concludes] at concludes
  split_ifs at concludes with ended
  · rw [concludes] at failed
    exact absurd rfl failed
  · rw [concludes.2]
    refine ⟨rfl, gained.dangling, fun other same => ?_, ?_⟩
    · cases same
      exact ⟨gained.live, setupStages_builtUpTo driver mcsSet table⟩
    · rw [gained.live, add_eq_left, owned_setupStages_eq_zero_iff]
      simp

theorem setup_failure_leaks_iff_third_kernel :
    (oiP2Setup (fun call _ => call != .createKernel "k2b_chanest_combine") (some [4])
        ⟨0, 0, 0⟩).2.2.live.card = 5 ∧
      (oiP2Setup (fun _ _ => false) (some [4]) ⟨0, 0, 0⟩).2.2.live = 0 := by
  have twoKernels := setup_failure_leaks_iff
    (fun call _ => call != .createKernel "k2b_chanest_combine") (some [4]) ⟨0, 0, 0⟩ (by decide)
  have nothing := setup_failure_leaks_iff (fun _ _ => false) (some [4]) ⟨0, 0, 0⟩ (by decide)
  refine ⟨?_, nothing.2.2.2.mpr (Or.inr (by decide))⟩
  rw [(twoKernels.2.2.1 [4] rfl).1]
  decide

/-- Over a whole life of a pipeline, from a successful setup through any calls to the teardown, no
handle is released twice or after its release; and the teardown gives back every handle taken since
just when no launch of the run failed behind its first enqueue and none was made on a slot whose
last launch was not drained. -/
theorem teardown_restores_iff (driver : ClCall → Nat → Bool) (baseGraph : McsParams → BaseGraph)
    (config : Option (List Nat)) (table : HandleTable) (calls : List HandleCall)
    {p : PipelineHandles} {after : HandleTable}
    (setup : oiP2Setup driver config table = (.ok, some p, after)) :
    let last := calls.foldl (handleStep driver baseGraph) (p, after)
    let final_ := oiP2Teardown last.1 last.2
    final_.dangling = table.dangling ∧ table.live ≤ final_.live ∧
      (final_.live = table.live ↔ NeverLeaks driver baseGraph (p, after) calls) := by
  obtain ⟨-, -, gained⟩ := oiP2Setup_ok setup
  have balanced : Balanced table 0 (p, after) :=
    ⟨by rw [gained.live, add_zero], gained.dangling⟩
  obtain ⟨lost, balanced, lostIff⟩ := foldl_handleStep_balanced driver baseGraph calls balanced
  intro last final_
  have live : last.2.live = table.live + lost + owned last.1.fields := by
    rw [balanced.live, zero_add, add_right_comm]
  have released : final_ = { last.2 with live := table.live + lost } :=
    (oiP2Teardown_eq ..).trans (HandleTable.releaseAll_of_live live)
  rw [released, ← lostIff]
  exact ⟨balanced.dangling, Multiset.le_add_right _ _, add_eq_left⟩

theorem teardown_restores_iff_two_launches :
    ∃ p after, oiP2Setup (fun _ _ => true) (some [4]) ⟨0, 0, 0⟩ = (.ok, some p, after) ∧
      let run (calls : List HandleCall) :=
        let last := calls.foldl (handleStep (fun _ _ => true) fun _ => .bg1) (p, after)
        (oiP2Teardown last.1 last.2).live
      run [.launchSlot 0 4, .drain 0, .launchSlot 0 4] = 0 ∧
        run [.launchSlot 0 4, .launchSlot 0 4, .drain 0] ≠ 0 := by
  have done : (oiP2Setup (fun _ _ => true) (some [4]) ⟨0, 0, 0⟩).1 = .ok := by decide
  have given : (oiP2Setup (fun _ _ => true) (some [4]) ⟨0, 0, 0⟩).2.1.isSome = true := by decide
  rcases setup : oiP2Setup (fun _ _ => true) (some [4]) ⟨0, 0, 0⟩ with ⟨status, pipeline, after⟩
  rw [setup] at done given
  cases pipeline with
  | none => cases given
  | some p =>
      obtain rfl : status = .ok := done
      obtain ⟨configured, fresh, -⟩ := oiP2Setup_ok setup
      have mcsSet : p.mcsSet = [4] := (Option.some.inj configured).symm
      have restores (calls : List HandleCall) :=
        (teardown_restores_iff (fun _ _ => true) (fun _ => .bg1) (some [4]) _ calls setup).2.2
      have granted (table : HandleTable) :
          (enqueueAll (fun _ _ => true) launchStages table).2.1 = true := rfl
      have last (table : HandleTable) : (enqueueAll (fun _ _ => true) launchStages
          table).1.getLast?.join = some (table.calls + 18) := rfl
      have known : findMcs 4 = some ⟨4, 2, 4608⟩ := by decide
      refine ⟨p, after, rfl, (restores _).mpr ?_, fun restored => ?_⟩
      · simp [NeverLeaks, Leaks, granted, fresh, findSlot, handleStep, oiP2LaunchSlot, oiP2Drain,
          PipelineHandles.touchSlot, setSlot, mcsSet, SlotHandles.fresh, known, last]
      · have never := (restores _).mp restored
        simp [NeverLeaks, Leaks, McsAccepted, granted, fresh, findSlot, handleStep, oiP2LaunchSlot,
          PipelineHandles.touchSlot, setSlot, mcsSet, SlotHandles.fresh, known, last] at never

end RanInline.Phy.Resources
