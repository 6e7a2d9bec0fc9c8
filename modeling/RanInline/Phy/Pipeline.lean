/-
Module: RanInline.Phy.Pipeline
Purpose: The host side of the receive pipeline in oi_p2_host.cpp: setup, feed, arena writes,
  slot launches and drains, and the runs a caller can make of them on one pipeline.
Trusted boundary: none
Main exports: OiP2Status, OiP2Pipeline, oiP2Setup, oiP2Feed, oiP2WriteArena,
  oiP2LaunchSlot, oiP2Drain, FedFrame, P2Run, P2Action, p2System
-/
import RanInline.Lib.Transition
import RanInline.Lib.Wrap
import RanInline.Phy.Depacketize

namespace RanInline.Phy

open RanInline.Lib RanInline.Oran

/-- `oi_p2_status`. -/
inductive OiP2Status where
  | ok
  | errConfigRejected
  | errClBuildFailed
  | errArenaOverflow
  | errSlotIncomplete
  | errOracleMismatch
  | errDevice
deriving DecidableEq, Repr

/-- `McsParams`, without the code rate. -/
structure McsParams where
  mcsIndex : Nat
  qm : Nat
  tbsBits : Nat
deriving DecidableEq, Repr

/-- `kMcsTable`. -/
def kMcsTable : List McsParams :=
  [⟨4, 2, 4608⟩, ⟨13, 4, 14600⟩, ⟨21, 6, 27656⟩]

/-- `find_mcs`. -/
def findMcs (mcsIndex : Nat) : Option McsParams :=
  kMcsTable.find? (·.mcsIndex = mcsIndex)

/-- `SlotState`, without the event handle. -/
structure SlotState where
  launched : Bool
  drained : Bool
  mcsIndex : Nat
deriving DecidableEq, Repr

/-- The value a `SlotState` has before its slot is launched. -/
def SlotState.fresh : SlotState where
  launched := false
  drained := false
  mcsIndex := 0

/-- `SlotBufferSet`: the grid and bitmap K1 fills, and the soft bits at the end of the
chain.  The buffers in between are rewritten by every launch before they are read. -/
structure SlotBufferSet (F Llr : Type) where
  i2 : I2Buffers F
  llr : Llr

/-- The contents of freshly created device buffers: OpenCL leaves them undefined. -/
structure DeviceMemory (F Llr : Type) where
  arena : Nat → UInt8
  descRing : Nat → OiFrameDesc
  slotBuffers : Nat → SlotBufferSet F Llr

/-- `oi_p2_pipeline`. -/
structure OiP2Pipeline (F Llr : Type) where
  mcsSet : List Nat
  arena : Nat → UInt8
  arenaBytes : Nat
  descRing : Nat → OiFrameDesc
  descRingCapacity : Nat
  slotBuffers : Nat → SlotBufferSet F Llr
  slots : UInt32 → Option SlotState

/-- The function-local statics of oi_p2_host.cpp, shared by all pipelines of a process. -/
structure P2Statics where
  nofDescsBySlot : UInt32 → Nat

/-- The kernels after K1.  `q15` converts a sample to a float, `demap` stands for K2a, the
data-RE compaction, K2b, K3 and K4, `descramble` for K5. -/
structure PhyKernels (F Llr : Type) where
  q15 : Int → F
  demap : I2Buffers F → UInt32 → Nat → Llr
  descramble : Nat → Llr → Llr

/-- The enqueue calls of a launch, in order. -/
inductive LaunchStage where
  | k1
  | k2a
  | copy
  | k2b
  | k3
  | k4
  | k5
deriving DecidableEq, Repr

/-- `kArenaBytes` of `oi_p2_setup`. -/
def p2ArenaBytes : Nat := 4 * 1024 * 1024

/-- `kDescRingCapacity`. -/
def p2DescRingCapacity : Nat := 4096

section Api

variable {F Llr : Type}

/-- A successful `oi_p2_setup`. -/
def oiP2Setup (mcsSet : List Nat) (memory : DeviceMemory F Llr) : OiP2Pipeline F Llr where
  mcsSet := mcsSet
  arena := memory.arena
  arenaBytes := p2ArenaBytes
  descRing := memory.descRing
  descRingCapacity := p2DescRingCapacity
  slotBuffers := memory.slotBuffers
  slots := fun _ => none

/-- `p->slots[slot_id]`: the map inserts a fresh entry on first use. -/
def OiP2Pipeline.touchSlot (p : OiP2Pipeline F Llr) (slotId : UInt32) : OiP2Pipeline F Llr :=
  { p with
    slots := Function.update p.slots slotId (some ((p.slots slotId).getD .fresh)) }

/-- `oi_p2_feed`.  `clOk` is the outcome of the buffer write. -/
def oiP2Feed (clOk : Bool) (statics : P2Statics) (p : OiP2Pipeline F Llr)
    (desc : OiFrameDesc) : OiP2Status × P2Statics × OiP2Pipeline F Llr :=
  let p := p.touchSlot desc.slotId
  let nofDescs := statics.nofDescsBySlot desc.slotId
  if nofDescs ≥ p.descRingCapacity then (.errArenaOverflow, statics, p)
  else if clOk = false then (.errDevice, statics, p)
  else
    (.ok,
      { statics with
        nofDescsBySlot := Function.update statics.nofDescsBySlot desc.slotId (nofDescs + 1) },
      { p with descRing := Function.update p.descRing nofDescs desc })

section Feed

variable {statics : P2Statics} {p : OiP2Pipeline F Llr} {desc : OiFrameDesc}

theorem oiP2Feed_overflow (clOk : Bool)
    (full : p.descRingCapacity ≤ statics.nofDescsBySlot desc.slotId) :
    oiP2Feed clOk statics p desc = (.errArenaOverflow, statics, p.touchSlot desc.slotId) :=
  if_pos full

theorem oiP2Feed_device (room : statics.nofDescsBySlot desc.slotId < p.descRingCapacity) :
    oiP2Feed false statics p desc = (.errDevice, statics, p.touchSlot desc.slotId) :=
  if_neg (Nat.not_le.mpr room)

theorem oiP2Feed_ok (room : statics.nofDescsBySlot desc.slotId < p.descRingCapacity) :
    oiP2Feed true statics p desc =
      (.ok,
        { statics with
          nofDescsBySlot := Function.update statics.nofDescsBySlot desc.slotId
            (statics.nofDescsBySlot desc.slotId + 1) },
        { p.touchSlot desc.slotId with
          descRing := Function.update p.descRing (statics.nofDescsBySlot desc.slotId)
            desc }) :=
  if_neg (Nat.not_le.mpr room)

/-- A feed leaves the arena alone. -/
theorem oiP2Feed_arena (clOk : Bool) (statics : P2Statics) (p : OiP2Pipeline F Llr)
    (desc : OiFrameDesc) :
    (oiP2Feed clOk statics p desc).2.2.arenaBytes = p.arenaBytes ∧
      (oiP2Feed clOk statics p desc).2.2.arena = p.arena := by
  simp only [oiP2Feed]
  split_ifs <;> exact ⟨rfl, rfl⟩

end Feed

/-- A device buffer after a write of `data` at `offset`. -/
def writeBytes (memory : Nat → UInt8) (offset : Nat) (data : List UInt8) : Nat → UInt8 :=
  fun i => if offset ≤ i ∧ i < offset + data.length then data.getD (i - offset) 0 else memory i

/-- `oi_p2_write_arena`.  The sum is computed in 64 bits; the buffer write itself is refused
by OpenCL when the region is not inside the buffer. -/
def oiP2WriteArena (clOk : Bool) (p : OiP2Pipeline F Llr) (offset : UInt64)
    (data : List UInt8) : OiP2Status × OiP2Pipeline F Llr :=
  if wrapAdd 64 offset.toNat data.length > p.arenaBytes then (.errArenaOverflow, p)
  else if clOk = true ∧ offset.toNat + data.length ≤ p.arenaBytes then
    (.ok, { p with arena := writeBytes p.arena offset.toNat data })
  else (.errDevice, p)

/-- Rewrite the buffer set of a slot: the sets are shared by slots of equal parity. -/
def OiP2Pipeline.modifyBuffers (p : OiP2Pipeline F Llr) (slotId : UInt32)
    (change : SlotBufferSet F Llr → SlotBufferSet F Llr) : OiP2Pipeline F Llr :=
  { p with
    slotBuffers := Function.update p.slotBuffers (slotId.toNat % 2)
      (change (p.slotBuffers (slotId.toNat % 2))) }

/-- `oi_p2_launch_slot`.  `fails` is the first enqueue that fails, if any; `order` is the
schedule of K1's writes. -/
def oiP2LaunchSlot (kernels : PhyKernels F Llr) (fails : Option LaunchStage)
    (order : List (K1Write F)) (p : OiP2Pipeline F Llr) (slotId : UInt32) (mcsIndex : Nat) :
    OiP2Status × OiP2Pipeline F Llr :=
  match findMcs mcsIndex with
  | none => (.errConfigRejected, p)
  | some mcs =>
      if mcsIndex ∉ p.mcsSet then (.errConfigRejected, p)
      else
        let p := p.touchSlot slotId
        if fails = some .k1 then (.errDevice, p)
        else
          let p := p.modifyBuffers slotId fun bufs => { bufs with i2 := k1Run bufs.i2 order }
          if fails = some .k2a ∨ fails = some .copy ∨ fails = some .k2b ∨ fails = some .k3 ∨
              fails = some .k4 then (.errDevice, p)
          else
            let p := p.modifyBuffers slotId fun bufs =>
              { bufs with llr := kernels.demap bufs.i2 slotId mcs.qm }
            if fails = some .k5 then (.errDevice, p)
            else
              let p := p.modifyBuffers slotId fun bufs =>
                { bufs with llr := kernels.descramble mcs.qm bufs.llr }
              (.ok,
                { p with
                  slots := Function.update p.slots slotId
                    (some { (p.slots slotId).getD .fresh with
                      launched := true, mcsIndex := mcsIndex }) })

/-- `oi_p2_drain`, without the transport block it decodes on the host: a slot that was
launched always drains. -/
def oiP2Drain (p : OiP2Pipeline F Llr) (slotId : UInt32) : OiP2Status × OiP2Pipeline F Llr :=
  match p.slots slotId with
  | none => (.errSlotIncomplete, p)
  | some slot =>
      if slot.launched = false then (.errSlotIncomplete, p)
      else
        (.ok,
          { p with slots := Function.update p.slots slotId (some { slot with drained := true }) })

/-- The MCS is in the table and in the configured set. -/
def McsAccepted (mcsSet : List Nat) (mcsIndex : Nat) : Prop :=
  (findMcs mcsIndex).isSome = true ∧ mcsIndex ∈ mcsSet

instance (mcsSet : List Nat) (mcsIndex : Nat) : Decidable (McsAccepted mcsSet mcsIndex) :=
  inferInstanceAs (Decidable (_ ∧ _))

/-- A launch fails when its MCS is rejected or an enqueue fails, and not otherwise. -/
theorem oiP2LaunchSlot_ok_iff (kernels : PhyKernels F Llr) (fails : Option LaunchStage)
    (order : List (K1Write F)) (p : OiP2Pipeline F Llr) (slotId : UInt32) (mcsIndex : Nat) :
    (oiP2LaunchSlot kernels fails order p slotId mcsIndex).1 = .ok ↔
      McsAccepted p.mcsSet mcsIndex ∧ fails = none := by
  rw [oiP2LaunchSlot, McsAccepted]
  cases findMcs mcsIndex with
  | none => simp
  | some mcs =>
      by_cases configured : mcsIndex ∈ p.mcsSet
      · cases fails with
        | none => simp [configured]
        | some stage => cases stage <;> simp [configured]
      · simp [configured]

/-- A launch that succeeds can be drained. -/
theorem oiP2Drain_of_launched {kernels : PhyKernels F Llr} {fails : Option LaunchStage}
    {order : List (K1Write F)} {p : OiP2Pipeline F Llr} {slotId : UInt32} {mcsIndex : Nat}
    (launched : (oiP2LaunchSlot kernels fails order p slotId mcsIndex).1 = .ok) :
    (oiP2Drain (oiP2LaunchSlot kernels fails order p slotId mcsIndex).2 slotId).1 = .ok := by
  obtain ⟨⟨known, configured⟩, rfl⟩ := (oiP2LaunchSlot_ok_iff ..).mp launched
  obtain ⟨mcs, found⟩ := Option.isSome_iff_exists.mp known
  simp [oiP2LaunchSlot, oiP2Drain, found, configured]

/-- A launch leaves alone every part of the pipeline that is not its slot table or its
buffers. -/
theorem oiP2LaunchSlot_part {α : Type} (kernels : PhyKernels F Llr) (fails : Option LaunchStage)
    (order : List (K1Write F)) (p : OiP2Pipeline F Llr) (slotId : UInt32) (mcsIndex : Nat)
    (part : OiP2Pipeline F Llr → α)
    (other : ∀ p slots slotBuffers,
      part { p with slots := slots, slotBuffers := slotBuffers } = part p) :
    part (oiP2LaunchSlot kernels fails order p slotId mcsIndex).2 = part p := by
  have touch (p : OiP2Pipeline F Llr) : part (p.touchSlot slotId) = part p :=
    other p _ p.slotBuffers
  have modify (p : OiP2Pipeline F Llr) (change : SlotBufferSet F Llr → SlotBufferSet F Llr) :
      part (p.modifyBuffers slotId change) = part p := other p p.slots _
  have finish (p : OiP2Pipeline F Llr) (slots : UInt32 → Option SlotState) :
      part { p with slots := slots } = part p := other p slots p.slotBuffers
  rw [oiP2LaunchSlot]
  split
  · rfl
  · split_ifs <;> simp only [finish, modify, touch]

/-! No call changes the configured set of MCS. -/

@[simp]
theorem oiP2Feed_mcsSet (clOk : Bool) (statics : P2Statics) (p : OiP2Pipeline F Llr)
    (desc : OiFrameDesc) : (oiP2Feed clOk statics p desc).2.2.mcsSet = p.mcsSet := by
  simp only [oiP2Feed]
  split_ifs <;> rfl

@[simp]
theorem oiP2WriteArena_mcsSet (clOk : Bool) (p : OiP2Pipeline F Llr) (offset : UInt64)
    (data : List UInt8) : (oiP2WriteArena clOk p offset data).2.mcsSet = p.mcsSet := by
  rw [oiP2WriteArena]
  split_ifs <;> rfl

@[simp]
theorem oiP2LaunchSlot_mcsSet (kernels : PhyKernels F Llr) (fails : Option LaunchStage)
    (order : List (K1Write F)) (p : OiP2Pipeline F Llr) (slotId : UInt32) (mcsIndex : Nat) :
    (oiP2LaunchSlot kernels fails order p slotId mcsIndex).2.mcsSet = p.mcsSet :=
  oiP2LaunchSlot_part kernels fails order p slotId mcsIndex (·.mcsSet) (fun _ _ _ => rfl)

@[simp]
theorem oiP2Drain_mcsSet (p : OiP2Pipeline F Llr) (slotId : UInt32) :
    (oiP2Drain p slotId).2.mcsSet = p.mcsSet := by
  rw [oiP2Drain]
  split
  · rfl
  · split_ifs <;> rfl

end Api

/-! ### Runs on one pipeline -/

/-- The arena bytes a descriptor points at. -/
def frameBytes (arena : Nat → UInt8) (desc : OiFrameDesc) : List UInt8 :=
  (List.range desc.frameLen.toNat).map fun i => arena (desc.arenaOffset.toNat + i)

/-- A descriptor that was fed, with the frame it described at that moment. -/
structure FedFrame where
  desc : OiFrameDesc
  bytes : List UInt8
deriving DecidableEq, Repr

/-- One pipeline in its process, with the frames fed to it so far. -/
structure P2Run (F Llr : Type) where
  statics : P2Statics
  pipeline : OiP2Pipeline F Llr
  fed : List FedFrame

/-- The calls of a run, with the outcomes that the device decides. -/
inductive P2Action (F : Type) where
  | feed (desc : OiFrameDesc) (clOk : Bool)
  | writeArena (offset : UInt64) (data : List UInt8) (clOk : Bool)
  | launch (slotId : UInt32) (mcsIndex : Nat) (fails : Option LaunchStage)
      (order : List (K1Write F))

section Runs

variable {F Llr : Type} (kernels : PhyKernels F Llr)

/-- A pipeline right after setup, in a fresh process. -/
def freshRun (mcsSet : List Nat) (memory : DeviceMemory F Llr) : P2Run F Llr where
  statics := { nofDescsBySlot := fun _ => 0 }
  pipeline := oiP2Setup mcsSet memory
  fed := []

/-- The effect of a feed. -/
def P2Run.feed (run : P2Run F Llr) (desc : OiFrameDesc) (clOk : Bool) : P2Run F Llr :=
  match oiP2Feed clOk run.statics run.pipeline desc with
  | (status, statics, pipeline) =>
      { statics := statics
        pipeline := pipeline
        fed := if status = .ok then run.fed ++ [⟨desc, frameBytes run.pipeline.arena desc⟩]
          else run.fed }

/-- The K1 schedules of a launch. -/
def P2Run.Schedule (run : P2Run F Llr) (slotId : UInt32) (order : List (K1Write F)) : Prop :=
  Interleaves (k1Threads kernels.q15 run.pipeline.arena run.pipeline.descRing
    run.pipeline.descRingCapacity slotId) order

/-- One call.  A launch runs K1 under any schedule of its work-items. -/
def p2Step (before : P2Run F Llr) (action : P2Action F) (after : P2Run F Llr) : Prop :=
  match action with
  | .feed desc clOk => after = before.feed desc clOk
  | .writeArena offset data clOk =>
      after = { before with
        pipeline := (oiP2WriteArena clOk before.pipeline offset data).2 }
  | .launch slotId mcsIndex fails order =>
      before.Schedule kernels slotId order ∧
        after = { before with
          pipeline := (oiP2LaunchSlot kernels fails order before.pipeline slotId mcsIndex).2 }

/-- The runs on one pipeline. -/
def p2System (mcsSet : List Nat) (memory : DeviceMemory F Llr) :
    TransitionSystem (P2Run F Llr) (P2Action F) where
  init := fun run => run = freshRun mcsSet memory
  step := p2Step kernels

variable {kernels} {mcsSet : List Nat} {memory : DeviceMemory F Llr}
  {permitted : P2Run F Llr → P2Action F → Prop} {run : P2Run F Llr}

theorem reaches_feed (reaches : (p2System kernels mcsSet memory).Reaches permitted run)
    {desc : OiFrameDesc} {clOk : Bool} (allowed : permitted run (.feed desc clOk)) :
    (p2System kernels mcsSet memory).Reaches permitted (run.feed desc clOk) :=
  .next reaches allowed rfl

/-! ### What a call leaves alone -/

/-- A launch changes nothing but the buffers and the state of its slot. -/
theorem oiP2LaunchSlot_frame (kernels : PhyKernels F Llr) (fails : Option LaunchStage)
    (order : List (K1Write F)) (p : OiP2Pipeline F Llr) (slotId : UInt32) (mcsIndex : Nat) :
    (oiP2LaunchSlot kernels fails order p slotId mcsIndex).2.arena = p.arena ∧
      (oiP2LaunchSlot kernels fails order p slotId mcsIndex).2.descRing = p.descRing ∧
      (oiP2LaunchSlot kernels fails order p slotId mcsIndex).2.descRingCapacity =
        p.descRingCapacity := by
  refine ⟨?_, ?_, ?_⟩
  · exact oiP2LaunchSlot_part _ _ _ _ _ _ (·.arena) (fun _ _ _ => rfl)
  · exact oiP2LaunchSlot_part _ _ _ _ _ _ (·.descRing) (fun _ _ _ => rfl)
  · exact oiP2LaunchSlot_part _ _ _ _ _ _ (·.descRingCapacity) (fun _ _ _ => rfl)

/-- An arena write changes nothing but the arena. -/
theorem oiP2WriteArena_frame (clOk : Bool) (p : OiP2Pipeline F Llr) (offset : UInt64)
    (data : List UInt8) :
    (oiP2WriteArena clOk p offset data).2.descRing = p.descRing ∧
      (oiP2WriteArena clOk p offset data).2.descRingCapacity = p.descRingCapacity ∧
      (oiP2WriteArena clOk p offset data).2.arenaBytes = p.arenaBytes := by
  rw [oiP2WriteArena]
  split_ifs <;> exact ⟨rfl, rfl, rfl⟩

/-- What one call does to the ring: nothing, or one feed at the ordinal of its slot. -/
theorem p2Step_ring {before after : P2Run F Llr} {action : P2Action F}
    (step : p2Step kernels before action after) :
    after.pipeline.descRingCapacity = before.pipeline.descRingCapacity ∧
      ((after.statics = before.statics ∧ after.fed = before.fed ∧
          after.pipeline.descRing = before.pipeline.descRing) ∨
        ∃ frame : FedFrame,
          before.statics.nofDescsBySlot frame.desc.slotId <
            before.pipeline.descRingCapacity ∧
          after.statics.nofDescsBySlot = Function.update before.statics.nofDescsBySlot
            frame.desc.slotId (before.statics.nofDescsBySlot frame.desc.slotId + 1) ∧
          after.fed = before.fed ++ [frame] ∧
          after.pipeline.descRing = Function.update before.pipeline.descRing
            (before.statics.nofDescsBySlot frame.desc.slotId) frame.desc) := by
  cases action with
  | feed desc clOk =>
      cases step
      rw [P2Run.feed]
      rcases Nat.lt_or_ge (before.statics.nofDescsBySlot desc.slotId)
        before.pipeline.descRingCapacity with room | full
      · cases clOk with
        | false =>
            rw [oiP2Feed_device room]
            exact ⟨rfl, .inl ⟨rfl, rfl, rfl⟩⟩
        | true =>
            rw [oiP2Feed_ok room]
            exact ⟨rfl, .inr
              ⟨⟨desc, frameBytes before.pipeline.arena desc⟩, room, rfl, rfl, rfl⟩⟩
      · rw [oiP2Feed_overflow clOk full]
        exact ⟨rfl, .inl ⟨rfl, rfl, rfl⟩⟩
  | writeArena offset data clOk =>
      cases step
      obtain ⟨ring, capacity, _⟩ := oiP2WriteArena_frame clOk before.pipeline offset data
      exact ⟨capacity, .inl ⟨rfl, rfl, ring⟩⟩
  | launch slotId mcsIndex fails order =>
      obtain ⟨_, rfl⟩ := step
      obtain ⟨_, ring, capacity⟩ :=
        oiP2LaunchSlot_frame kernels fails order before.pipeline slotId mcsIndex
      exact ⟨capacity, .inl ⟨rfl, rfl, ring⟩⟩

end Runs

/-! ### A device without arithmetic -/

/-- Kernels without arithmetic, for runs in which the samples do not matter. -/
def noKernels : PhyKernels Unit Unit where
  q15 := fun _ => ()
  demap := fun _ _ _ => ()
  descramble := fun _ _ => ()

/-- Device memory whose ring entries are zero but for the slot number. -/
def memoryOf (slotId : UInt32) : DeviceMemory Unit Unit where
  arena := fun _ => 0
  descRing := fun _ => { OiFrameDesc.zero with slotId }
  slotBuffers := fun _ => { i2 := { reGrid := fun _ _ => ((), ()), symbolBitmap := 0 }, llr := () }

end RanInline.Phy
