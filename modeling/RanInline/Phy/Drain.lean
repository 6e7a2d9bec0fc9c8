/-
Module: RanInline.Phy.Drain
Purpose: What oi_p2_drain decodes: the soft bits of the buffer set that the parity of the slot
  selects, with the MCS kept for the slot.  Whose soft bits these are after any sequence of
  calls on one pipeline.
Trusted boundary: none
Main exports: DrainInput, drainInput, HostTail, TbRecordHeader, oiP2DrainRecord, P2Call, CallRun,
  LlrOwner, llrOwner, drain_pairing_iff
-/
import Mathlib.Data.List.Induction
import RanInline.Phy.Pipeline

namespace RanInline.Phy

open RanInline.Lib RanInline.Oran

/-! ### Drains -/

/-- What the host tail of a drain starts from. -/
structure DrainInput (Llr : Type) where
  mcsIndex : Nat
  llr : Llr

/-- The result of the host tail: the segmentation it used, the outcome of decoding and
reassembly, and the bytes left in `tb_bytes_buf`. -/
structure TailResult where
  nofSegments : Nat
  baseGraph : Nat
  ok : Bool
  tbBytesBuf : List UInt8

/-- The host tail: K6, the LDPC decoder and the reassembly.  `Env` is what it does not get from
its arguments: failures of the device and the initial contents of `tb_bytes_buf`. -/
structure HostTail (Llr Env : Type) where
  decode : McsParams → Llr → Env → TailResult

/-- `oi_p2_tb_record_c`, without the pointers to its tails. -/
structure TbRecordHeader where
  schema : Nat
  slotId : UInt32
  tbSizeBytes : Nat
  nofCb : Nat
  baseGraph : Nat
  crc24aOk : Bool
  mcsIndex : Nat
deriving DecidableEq, Repr

/-- `kTbRecordSchema`. -/
def kTbRecordSchema : Nat := 0x00020001

section Drain

variable {F Llr Env : Type}

/-- The MCS of the slot and the soft bits in its buffer set, when the slot was launched. -/
def drainInput (p : OiP2Pipeline F Llr) (slotId : UInt32) : Option (DrainInput Llr) :=
  match p.slots slotId with
  | none => none
  | some slot =>
      if slot.launched = false then none
      else some { mcsIndex := slot.mcsIndex, llr := (p.slotBuffers (slotId.toNat % 2)).llr }

theorem oiP2Drain_ok_iff (p : OiP2Pipeline F Llr) (slotId : UInt32) :
    (oiP2Drain p slotId).1 = .ok ↔ (drainInput p slotId).isSome = true := by
  rw [oiP2Drain, drainInput]
  cases p.slots slotId with
  | none => simp
  | some slot => cases launched : slot.launched <;> simp [launched]

/-- The record that `oi_p2_drain` fills in, with the bytes its `tb_data` points to. -/
def tbRecord (tail : HostTail Llr Env) (env : Env) (slotId : UInt32) (input : DrainInput Llr) :
    Option (TbRecordHeader × List UInt8) :=
  (findMcs input.mcsIndex).map fun mcs =>
    let result := tail.decode mcs input.llr env
    let tbBytes := (mcs.tbsBits + 7) / 8
    ({ schema := kTbRecordSchema
       slotId := slotId
       tbSizeBytes := tbBytes
       nofCb := result.nofSegments % 256
       baseGraph := result.baseGraph % 256
       crc24aOk := result.ok
       mcsIndex := input.mcsIndex % 256 },
      result.tbBytesBuf.take tbBytes)

/-- `oi_p2_drain` with the record it fills in. -/
def oiP2DrainRecord (tail : HostTail Llr Env) (env : Env) (p : OiP2Pipeline F Llr)
    (slotId : UInt32) :
    OiP2Status × OiP2Pipeline F Llr × Option (TbRecordHeader × List UInt8) :=
  ((oiP2Drain p slotId).1, (oiP2Drain p slotId).2,
    (drainInput p slotId).bind (tbRecord tail env slotId))

end Drain

/-! ### Calls on one pipeline -/

/-- The calls on a pipeline, with the outcomes that the device decides. -/
inductive P2Call where
  | feed (desc : OiFrameDesc) (clOk : Bool)
  | writeArena (offset : UInt64) (data : List UInt8) (clOk : Bool)
  | launch (slotId : UInt32) (mcsIndex : Nat) (fails : Option LaunchStage)
  | drain (slotId : UInt32)
deriving DecidableEq, Repr

/-- A pipeline, with what the latest successful launch of each slot left for its drain: the
MCS of the launch and the soft bits. -/
structure LaunchedRun (F Llr : Type) where
  statics : P2Statics
  pipeline : OiP2Pipeline F Llr
  left : UInt32 → Option (DrainInput Llr)

section Calls

variable {F Llr : Type}

/-- A pipeline right after setup. -/
def freshLaunched (mcsSet : List Nat) (memory : DeviceMemory F Llr) : LaunchedRun F Llr where
  statics := { nofDescsBySlot := fun _ => 0 }
  pipeline := oiP2Setup mcsSet memory
  left := fun _ => none

/-- The effect of a launch, with K1's writes in the given order. -/
def LaunchedRun.launch (kernels : PhyKernels F Llr) (run : LaunchedRun F Llr) (slotId : UInt32)
    (mcsIndex : Nat) (fails : Option LaunchStage) (order : List (K1Write F)) :
    LaunchedRun F Llr :=
  match oiP2LaunchSlot kernels fails order run.pipeline slotId mcsIndex with
  | (status, pipeline) =>
      { run with
        pipeline := pipeline
        left :=
          if status = .ok then Function.update run.left slotId (some
            { mcsIndex := mcsIndex, llr := (pipeline.slotBuffers (slotId.toNat % 2)).llr })
          else run.left }

/-- One call.  A launch runs K1 under any schedule of its work-items. -/
def callStep (kernels : PhyKernels F Llr) (before : LaunchedRun F Llr) (call : P2Call)
    (after : LaunchedRun F Llr) : Prop :=
  match call with
  | .feed desc clOk =>
      after = { before with
        statics := (oiP2Feed clOk before.statics before.pipeline desc).2.1
        pipeline := (oiP2Feed clOk before.statics before.pipeline desc).2.2 }
  | .writeArena offset data clOk =>
      after = { before with pipeline := (oiP2WriteArena clOk before.pipeline offset data).2 }
  | .launch slotId mcsIndex fails =>
      ∃ order, Interleaves (k1Threads kernels.q15 before.pipeline.arena before.pipeline.descRing
          before.pipeline.descRingCapacity slotId) order ∧
        after = before.launch kernels slotId mcsIndex fails order
  | .drain slotId => after = { before with pipeline := (oiP2Drain before.pipeline slotId).2 }

/-- The runs of a sequence of calls. -/
inductive CallRun (kernels : PhyKernels F Llr) (start : LaunchedRun F Llr) :
    List P2Call → LaunchedRun F Llr → Prop where
  | nil : CallRun kernels start [] start
  | snoc {calls : List P2Call} {call : P2Call} {before after : LaunchedRun F Llr}
      (run : CallRun kernels start calls before) (step : callStep kernels before call after) :
      CallRun kernels start (calls ++ [call]) after

/-- Every sequence of calls can be made. -/
theorem exists_callRun (kernels : PhyKernels F Llr) (start : LaunchedRun F Llr)
    (calls : List P2Call) : ∃ run, CallRun kernels start calls run := by
  induction calls using List.reverseRecOn with
  | nil => exact ⟨start, .nil⟩
  | append_singleton calls call inductionHypothesis =>
      obtain ⟨before, run⟩ := inductionHypothesis
      cases call with
      | feed desc clOk => exact ⟨_, .snoc run rfl⟩
      | writeArena offset data clOk => exact ⟨_, .snoc run rfl⟩
      | launch slotId mcsIndex fails => exact ⟨_, .snoc run ⟨_, .sequential _, rfl⟩⟩
      | drain slotId => exact ⟨_, .snoc run rfl⟩

/-- A drain of the slot that succeeds decodes the soft bits, with the MCS, that the latest
successful launch of the slot left. -/
def LaunchedRun.DrainsOwnLaunch (run : LaunchedRun F Llr) (slotId : UInt32) : Prop :=
  (oiP2Drain run.pipeline slotId).1 = .ok → drainInput run.pipeline slotId = run.left slotId

end Calls

/-! ### Whose soft bits a buffer set holds -/

/-- The call rewrites the soft bits in the buffer set of the slot: a launch of a slot of equal
parity that gets as far as K4. -/
def P2Call.Overwrites (mcsSet : List Nat) (slotId : UInt32) : P2Call → Prop
  | .launch other mcsIndex fails =>
      other.toNat % 2 = slotId.toNat % 2 ∧ McsAccepted mcsSet mcsIndex ∧
        (fails = none ∨ fails = some .k5)
  | _ => False

/-- The call launches the slot with success. -/
def P2Call.Launches (mcsSet : List Nat) (slotId : UInt32) : P2Call → Prop
  | .launch other mcsIndex fails =>
      other = slotId ∧ McsAccepted mcsSet mcsIndex ∧ fails = none
  | _ => False

instance (mcsSet : List Nat) (slotId : UInt32) :
    (call : P2Call) → Decidable (call.Overwrites mcsSet slotId)
  | .feed _ _ => inferInstanceAs (Decidable False)
  | .writeArena _ _ _ => inferInstanceAs (Decidable False)
  | .launch _ _ _ => inferInstanceAs (Decidable (_ ∧ _))
  | .drain _ => inferInstanceAs (Decidable False)

instance (mcsSet : List Nat) (slotId : UInt32) :
    (call : P2Call) → Decidable (call.Launches mcsSet slotId)
  | .feed _ _ => inferInstanceAs (Decidable False)
  | .writeArena _ _ _ => inferInstanceAs (Decidable False)
  | .launch _ _ _ => inferInstanceAs (Decidable (_ ∧ _))
  | .drain _ => inferInstanceAs (Decidable False)

/-- Whose soft bits the buffer set of a slot holds: the slot was not launched yet, they are
those of its latest successful launch, or a later launch has overwritten them. -/
inductive LlrOwner where
  | nobody
  | own
  | other
deriving DecidableEq, Repr

/-- The owner after one more call. -/
def LlrOwner.next (mcsSet : List Nat) (slotId : UInt32) (owner : LlrOwner) (call : P2Call) :
    LlrOwner :=
  if call.Launches mcsSet slotId then .own
  else if owner = .own ∧ call.Overwrites mcsSet slotId then .other
  else owner

/-- The owner after a sequence of calls. -/
def llrOwner (mcsSet : List Nat) (slotId : UInt32) (calls : List P2Call) : LlrOwner :=
  calls.foldl (LlrOwner.next mcsSet slotId) .nobody

theorem llrOwner_append (mcsSet : List Nat) (slotId : UInt32) (calls : List P2Call)
    (call : P2Call) :
    llrOwner mcsSet slotId (calls ++ [call]) =
      (llrOwner mcsSet slotId calls).next mcsSet slotId call := by
  rw [llrOwner, List.foldl_append]
  rfl

/-! ### What a call does to the input of a drain -/

section Effects

variable {F Llr : Type} {kernels : PhyKernels F Llr} {p : OiP2Pipeline F Llr}

/-- The MCS of a slot, when it was launched. -/
def OiP2Pipeline.launchedMcs (p : OiP2Pipeline F Llr) (slotId : UInt32) : Option Nat :=
  (p.slots slotId).bind fun slot => if slot.launched = false then none else some slot.mcsIndex

theorem drainInput_eq (p : OiP2Pipeline F Llr) (slotId : UInt32) :
    drainInput p slotId = (p.launchedMcs slotId).map fun mcsIndex =>
      { mcsIndex := mcsIndex, llr := (p.slotBuffers (slotId.toNat % 2)).llr } := by
  rw [drainInput, OiP2Pipeline.launchedMcs]
  cases p.slots slotId with
  | none => rfl
  | some slot => cases launched : slot.launched <;> simp [launched]

/-- Nothing that a drain reads is changed. -/
structure SameInputs (before after : OiP2Pipeline F Llr) : Prop where
  launchedMcs : after.launchedMcs = before.launchedMcs
  llr : ∀ parity, (after.slotBuffers parity).llr = (before.slotBuffers parity).llr

theorem SameInputs.drainInput {before after : OiP2Pipeline F Llr}
    (same : SameInputs before after) (slotId : UInt32) :
    drainInput after slotId = drainInput before slotId := by
  rw [drainInput_eq, drainInput_eq, same.launchedMcs, same.llr]

@[simp]
theorem launchedMcs_touchSlot (p : OiP2Pipeline F Llr) (slotId : UInt32) :
    (p.touchSlot slotId).launchedMcs = p.launchedMcs := by
  funext other
  rw [OiP2Pipeline.launchedMcs, OiP2Pipeline.launchedMcs, OiP2Pipeline.touchSlot]
  by_cases same : other = slotId
  · subst same
    cases p.slots other <;> simp [SlotState.fresh]
  · simp [same]

theorem sameInputs_feed (clOk : Bool) (statics : P2Statics) (p : OiP2Pipeline F Llr)
    (desc : OiFrameDesc) : SameInputs p (oiP2Feed clOk statics p desc).2.2 := by
  have touched := launchedMcs_touchSlot p desc.slotId
  simp only [oiP2Feed]
  split_ifs
  · exact ⟨touched, fun _ => rfl⟩
  · exact ⟨touched, fun _ => rfl⟩
  · exact ⟨touched, fun _ => rfl⟩

theorem sameInputs_writeArena (clOk : Bool) (p : OiP2Pipeline F Llr) (offset : UInt64)
    (data : List UInt8) : SameInputs p (oiP2WriteArena clOk p offset data).2 := by
  rw [oiP2WriteArena]
  split_ifs <;> exact ⟨rfl, fun _ => rfl⟩

theorem sameInputs_drain (p : OiP2Pipeline F Llr) (slotId : UInt32) :
    SameInputs p (oiP2Drain p slotId).2 := by
  refine ⟨?_, fun parity => ?_⟩
  · funext other
    rw [oiP2Drain, OiP2Pipeline.launchedMcs, OiP2Pipeline.launchedMcs]
    cases found : p.slots slotId with
    | none => rfl
    | some slot =>
        by_cases same : other = slotId
        · subst same
          cases launched : slot.launched <;> simp [launched, found]
        · cases launched : slot.launched <;> simp [launched, same]
  · rw [oiP2Drain]
    split
    · rfl
    · split_ifs <;> rfl

@[simp]
theorem llr_modifyBuffers (p : OiP2Pipeline F Llr) (slotId : UInt32)
    (change : SlotBufferSet F Llr → SlotBufferSet F Llr) (parity : Nat) :
    ((p.modifyBuffers slotId change).slotBuffers parity).llr =
      if parity = slotId.toNat % 2 then (change (p.slotBuffers parity)).llr
      else (p.slotBuffers parity).llr := by
  by_cases same : parity = slotId.toNat % 2
  · simp [OiP2Pipeline.modifyBuffers, same]
  · simp [OiP2Pipeline.modifyBuffers, same]

@[simp]
theorem launchedMcs_modifyBuffers (p : OiP2Pipeline F Llr) (slotId : UInt32)
    (change : SlotBufferSet F Llr → SlotBufferSet F Llr) :
    (p.modifyBuffers slotId change).launchedMcs = p.launchedMcs := rfl

/-- A launch that does not get as far as K4 changes nothing that a drain reads. -/
theorem sameInputs_launch {slotId : UInt32} {mcsIndex : Nat} {fails : Option LaunchStage}
    (order : List (K1Write F))
    (early : ¬ (McsAccepted p.mcsSet mcsIndex ∧ (fails = none ∨ fails = some .k5))) :
    SameInputs p (oiP2LaunchSlot kernels fails order p slotId mcsIndex).2 := by
  have touched : SameInputs p (p.touchSlot slotId) :=
    ⟨launchedMcs_touchSlot p slotId, fun _ => rfl⟩
  have depacketized : SameInputs p ((p.touchSlot slotId).modifyBuffers slotId fun bufs =>
      { bufs with i2 := k1Run bufs.i2 order }) := by
    refine ⟨launchedMcs_touchSlot p slotId, fun parity => ?_⟩
    rw [llr_modifyBuffers]
    split_ifs <;> rfl
  rw [oiP2LaunchSlot]
  cases known : findMcs mcsIndex with
  | none => exact ⟨rfl, fun _ => rfl⟩
  | some mcs =>
      by_cases configured : mcsIndex ∈ p.mcsSet
      · have accepted : McsAccepted p.mcsSet mcsIndex := ⟨by simp [known], configured⟩
        obtain ⟨stage, rfl⟩ : ∃ stage, fails = some stage :=
          Option.ne_none_iff_exists'.mp fun none => early ⟨accepted, .inl none⟩
        have stops : stage ≠ .k5 := fun last => early ⟨accepted, .inr (by rw [last])⟩
        cases stage
        case k1 => simpa [configured] using touched
        case k5 => exact absurd rfl stops
        all_goals simpa [configured] using depacketized
      · simpa [configured] using ⟨rfl, fun _ => rfl⟩

/-- A launch that fails at K5 has already rewritten the soft bits. -/
theorem oiP2LaunchSlot_k5 (kernels : PhyKernels F Llr) (order : List (K1Write F)) (slotId : UInt32)
    {mcsIndex : Nat} (accepted : McsAccepted p.mcsSet mcsIndex) :
    ∃ i2 qm, (oiP2LaunchSlot kernels (some .k5) order p slotId mcsIndex).1 ≠ .ok ∧
      (oiP2LaunchSlot kernels (some .k5) order p slotId mcsIndex).2.launchedMcs =
        p.launchedMcs ∧
      ∀ parity, ((oiP2LaunchSlot kernels (some .k5) order p slotId mcsIndex).2.slotBuffers
          parity).llr =
        if parity = slotId.toNat % 2 then kernels.demap i2 slotId qm
        else (p.slotBuffers parity).llr := by
  obtain ⟨mcs, known⟩ := Option.isSome_iff_exists.mp accepted.1
  refine ⟨k1Run (p.slotBuffers (slotId.toNat % 2)).i2 order, mcs.qm, ?_, ?_, fun parity => ?_⟩
  · simp [oiP2LaunchSlot, known, accepted.2]
  · simp [oiP2LaunchSlot, known, accepted.2]
  · by_cases same : parity = slotId.toNat % 2
    · simp [oiP2LaunchSlot, known, accepted.2, same, OiP2Pipeline.modifyBuffers,
        OiP2Pipeline.touchSlot]
    · simp [oiP2LaunchSlot, known, accepted.2, same, OiP2Pipeline.touchSlot]

/-- A launch that succeeds. -/
theorem oiP2LaunchSlot_ok (kernels : PhyKernels F Llr) (order : List (K1Write F)) (slotId : UInt32)
    {mcsIndex : Nat} (accepted : McsAccepted p.mcsSet mcsIndex) :
    ∃ i2 qm, (oiP2LaunchSlot kernels none order p slotId mcsIndex).1 = .ok ∧
      (oiP2LaunchSlot kernels none order p slotId mcsIndex).2.launchedMcs =
        Function.update p.launchedMcs slotId (some mcsIndex) ∧
      ∀ parity, ((oiP2LaunchSlot kernels none order p slotId mcsIndex).2.slotBuffers
          parity).llr =
        if parity = slotId.toNat % 2 then kernels.descramble qm (kernels.demap i2 slotId qm)
        else (p.slotBuffers parity).llr := by
  obtain ⟨mcs, known⟩ := Option.isSome_iff_exists.mp accepted.1
  refine ⟨k1Run (p.slotBuffers (slotId.toNat % 2)).i2 order, mcs.qm, ?_, ?_, fun parity => ?_⟩
  · simp [oiP2LaunchSlot, known, accepted.2]
  · funext other
    by_cases same : other = slotId
    · simp [oiP2LaunchSlot, known, accepted.2, same, OiP2Pipeline.launchedMcs]
    · simp [oiP2LaunchSlot, known, accepted.2, same, OiP2Pipeline.launchedMcs,
        OiP2Pipeline.modifyBuffers, OiP2Pipeline.touchSlot]
  · by_cases same : parity = slotId.toNat % 2
    · simp [oiP2LaunchSlot, known, accepted.2, same, OiP2Pipeline.modifyBuffers,
        OiP2Pipeline.touchSlot]
    · simp [oiP2LaunchSlot, known, accepted.2, same, OiP2Pipeline.touchSlot]

variable {before after : LaunchedRun F Llr} {call : P2Call} {slotId : UInt32}

/-- A call that does not overwrite the soft bits of a slot leaves the slot alone. -/
theorem callStep_quiet (step : callStep kernels before call after)
    (quiet : ¬ call.Overwrites before.pipeline.mcsSet slotId) :
    drainInput after.pipeline slotId = drainInput before.pipeline slotId ∧
      after.left slotId = before.left slotId := by
  cases call with
  | feed desc clOk =>
      cases step
      exact ⟨(sameInputs_feed clOk before.statics before.pipeline desc).drainInput slotId, rfl⟩
  | writeArena offset data clOk =>
      cases step
      exact ⟨(sameInputs_writeArena clOk before.pipeline offset data).drainInput slotId, rfl⟩
  | drain other =>
      cases step
      exact ⟨(sameInputs_drain before.pipeline other).drainInput slotId, rfl⟩
  | launch other mcsIndex fails =>
      obtain ⟨order, _, rfl⟩ := step
      by_cases late : McsAccepted before.pipeline.mcsSet mcsIndex ∧
          (fails = none ∨ fails = some .k5)
      · -- the buffer set of the other parity is written
        have apart : slotId.toNat % 2 ≠ other.toNat % 2 := fun same => quiet ⟨same.symm, late⟩
        have differ : slotId ≠ other := fun same => apart (by rw [same])
        rw [LaunchedRun.launch, drainInput_eq, drainInput_eq]
        rcases late.2 with rfl | rfl
        · obtain ⟨i2, qm, ok, launched, llr⟩ :=
            oiP2LaunchSlot_ok kernels order other late.1
          simp [ok, launched, llr, apart, differ]
        · obtain ⟨i2, qm, failed, launched, llr⟩ :=
            oiP2LaunchSlot_k5 kernels order other late.1
          simp [failed, launched, llr, apart]
      · have failed : (oiP2LaunchSlot kernels fails order before.pipeline other mcsIndex).1 ≠ .ok :=
          fun ok => late ⟨((oiP2LaunchSlot_ok_iff ..).mp ok).1, .inl ((oiP2LaunchSlot_ok_iff ..).mp
            ok).2⟩
        refine ⟨(sameInputs_launch order late).drainInput slotId, ?_⟩
        rw [LaunchedRun.launch]
        exact congrFun (if_neg failed) slotId

/-- A successful launch of a slot leaves its soft bits and its MCS. -/
theorem callStep_launches (step : callStep kernels before call after)
    (launches : call.Launches before.pipeline.mcsSet slotId) :
    ∃ mcsIndex i2 qm,
      drainInput after.pipeline slotId = some
        { mcsIndex, llr := kernels.descramble qm (kernels.demap i2 slotId qm) } ∧
      after.left slotId = drainInput after.pipeline slotId := by
  cases call with
  | feed desc clOk => exact launches.elim
  | writeArena offset data clOk => exact launches.elim
  | drain other => exact launches.elim
  | launch other mcsIndex fails =>
      obtain ⟨order, _, rfl⟩ := step
      obtain ⟨rfl, accepted, rfl⟩ := launches
      obtain ⟨i2, qm, ok, launched, llr⟩ :=
        oiP2LaunchSlot_ok kernels order other accepted
      refine ⟨mcsIndex, i2, qm, ?_, ?_⟩
      · rw [LaunchedRun.launch, drainInput_eq]
        simp [launched, llr]
      · rw [LaunchedRun.launch, drainInput_eq]
        simp [launched, ok]

/-- Any other call that overwrites the soft bits keeps the MCS of the slot and what was left
for it.  The soft bits are then not descrambled or those of another slot. -/
theorem callStep_overwrites (step : callStep kernels before call after)
    (overwrites : call.Overwrites before.pipeline.mcsSet slotId)
    (notLaunches : ¬ call.Launches before.pipeline.mcsSet slotId) :
    after.left slotId = before.left slotId ∧
      after.pipeline.launchedMcs slotId = before.pipeline.launchedMcs slotId ∧
      ∃ other i2 qm,
        (after.pipeline.slotBuffers (slotId.toNat % 2)).llr = kernels.demap i2 other qm ∨
        other ≠ slotId ∧ (after.pipeline.slotBuffers (slotId.toNat % 2)).llr =
          kernels.descramble qm (kernels.demap i2 other qm) := by
  cases call with
  | feed desc clOk => exact overwrites.elim
  | writeArena offset data clOk => exact overwrites.elim
  | drain other => exact overwrites.elim
  | launch other mcsIndex fails =>
      obtain ⟨order, _, rfl⟩ := step
      obtain ⟨parity, accepted, rfl | rfl⟩ := overwrites
      · have differ : other ≠ slotId := fun same => notLaunches ⟨same, accepted, rfl⟩
        obtain ⟨i2, qm, ok, launched, llr⟩ :=
          oiP2LaunchSlot_ok kernels order other accepted
        refine ⟨?_, ?_, other, i2, qm, .inr ⟨differ, ?_⟩⟩
        · rw [LaunchedRun.launch]
          simp [ok, differ.symm]
        · rw [LaunchedRun.launch]
          simp [launched, differ.symm]
        · rw [LaunchedRun.launch]
          simp [llr, parity]
      · obtain ⟨i2, qm, failed, launched, llr⟩ :=
          oiP2LaunchSlot_k5 kernels order other accepted
        refine ⟨?_, ?_, other, i2, qm, .inl ?_⟩
        · rw [LaunchedRun.launch]
          simp [failed]
        · rw [LaunchedRun.launch]
          simp [launched]
        · rw [LaunchedRun.launch]
          simp [llr, parity]

theorem callStep_mcsSet (step : callStep kernels before call after) :
    after.pipeline.mcsSet = before.pipeline.mcsSet := by
  cases call with
  | feed desc clOk => cases step; simp
  | writeArena offset data clOk => cases step; simp
  | launch other mcsIndex fails =>
      obtain ⟨order, _, rfl⟩ := step
      simp [LaunchedRun.launch]
  | drain other => cases step; simp

end Effects

/-! ### Whole sequences of calls -/

section Sequences

variable {F Llr : Type} {kernels : PhyKernels F Llr} {memory : DeviceMemory F Llr}
  {mcsSet : List Nat} {calls : List P2Call} {run : LaunchedRun F Llr}

theorem CallRun.configured (reached : CallRun kernels (freshLaunched mcsSet memory) calls run) :
    run.pipeline.mcsSet = mcsSet := by
  induction reached with
  | nil => rfl
  | snoc _ step inductionHypothesis => rw [callStep_mcsSet step, inductionHypothesis]

/-- What the owner says about the input of a drain. -/
def LaunchedRun.Tracks (run : LaunchedRun F Llr) (slotId : UInt32) : LlrOwner → Prop
  | .nobody => drainInput run.pipeline slotId = none
  | .own => drainInput run.pipeline slotId = run.left slotId
  | .other => True

theorem callStep_tracks {before after : LaunchedRun F Llr} {call : P2Call} {slotId : UInt32}
    {owner : LlrOwner} (tracks : before.Tracks slotId owner)
    (step : callStep kernels before call after) :
    after.Tracks slotId (owner.next before.pipeline.mcsSet slotId call) := by
  rw [LlrOwner.next]
  split_ifs with launches overwrites
  · obtain ⟨_, _, _, _, left⟩ := callStep_launches step launches
    exact left.symm
  · trivial
  · cases owner with
    | other => trivial
    | own =>
        have quiet : ¬ call.Overwrites before.pipeline.mcsSet slotId :=
          fun writes => overwrites ⟨rfl, writes⟩
        obtain ⟨input, left⟩ := callStep_quiet step quiet
        exact input.trans (tracks.trans left.symm)
    | nobody =>
        by_cases writes : call.Overwrites before.pipeline.mcsSet slotId
        · obtain ⟨_, launched, _⟩ := callStep_overwrites step writes launches
          rw [LaunchedRun.Tracks, drainInput_eq, Option.map_eq_none_iff] at tracks ⊢
          rw [launched, tracks]
        · exact (callStep_quiet step writes).1.trans tracks

theorem CallRun.tracks (reached : CallRun kernels (freshLaunched mcsSet memory) calls run)
    (slotId : UInt32) : run.Tracks slotId (llrOwner mcsSet slotId calls) := by
  induction reached with
  | nil => rfl
  | snoc before step inductionHypothesis =>
      rw [llrOwner_append, ← before.configured]
      exact callStep_tracks (before.configured ▸ inductionHypothesis) step

/-- Soft bits that were not overwritten are those of the latest launch. -/
theorem drainsOwnLaunch_of_llrOwner {slotId : UInt32}
    (reached : CallRun kernels (freshLaunched mcsSet memory) calls run)
    (kept : llrOwner mcsSet slotId calls ≠ .other) : run.DrainsOwnLaunch slotId := by
  intro ok
  have tracks := reached.tracks slotId
  rw [oiP2Drain_ok_iff] at ok
  cases owner : llrOwner mcsSet slotId calls with
  | other => exact absurd owner kept
  | own =>
      rw [owner] at tracks
      exact tracks
  | nobody =>
      rw [owner, LaunchedRun.Tracks] at tracks
      rw [tracks] at ok
      exact absurd ok (by simp)

end Sequences

/-! ### Overwritten soft bits -/

/-- Kernels that leave their mark: K4 writes the slot number and K5 notes that it ran. -/
def markingKernels : PhyKernels Unit (UInt32 × Bool) where
  q15 := fun _ => ()
  demap := fun _ slotId _ => (slotId, false)
  descramble := fun _ llr => (llr.1, true)

/-- Device memory for them. -/
def markingMemory : DeviceMemory Unit (UInt32 × Bool) where
  arena := fun _ => 0
  descRing := fun _ => OiFrameDesc.zero
  slotBuffers := fun _ =>
    { i2 := { reGrid := fun _ _ => ((), ()), symbolBitmap := 0 }, llr := (0, false) }

section Marking

variable {mcsSet : List Nat} {calls : List P2Call} {slotId : UInt32}
  {run before after : LaunchedRun Unit (UInt32 × Bool)} {call : P2Call} {owner : LlrOwner}

/-- With the marking kernels, overwritten soft bits show the overwriting. -/
def LaunchedRun.Marked (run : LaunchedRun Unit (UInt32 × Bool)) (slotId : UInt32) :
    LlrOwner → Prop
  | .nobody => True
  | .own => ∃ mcsIndex, drainInput run.pipeline slotId = some ⟨mcsIndex, slotId, true⟩ ∧
      run.left slotId = some ⟨mcsIndex, slotId, true⟩
  | .other => ∃ mcsIndex llr, drainInput run.pipeline slotId = some ⟨mcsIndex, llr⟩ ∧
      llr ≠ (slotId, true) ∧ run.left slotId = some ⟨mcsIndex, slotId, true⟩

/-- Overwriting the soft bits of a launched slot. -/
theorem marked_overwrites (step : callStep markingKernels before call after)
    (overwrites : call.Overwrites before.pipeline.mcsSet slotId)
    (notLaunches : ¬ call.Launches before.pipeline.mcsSet slotId) {mcsIndex : Nat}
    {llr : UInt32 × Bool} (input : drainInput before.pipeline slotId = some ⟨mcsIndex, llr⟩)
    (left : before.left slotId = some ⟨mcsIndex, slotId, true⟩) :
    after.Marked slotId .other := by
  obtain ⟨leftSame, launched, other, i2, qm, written⟩ :=
    callStep_overwrites step overwrites notLaunches
  refine ⟨mcsIndex, (after.pipeline.slotBuffers (slotId.toNat % 2)).llr, ?_, ?_,
    leftSame.trans left⟩
  · rw [drainInput_eq, Option.map_eq_some_iff] at input
    obtain ⟨found, known, same⟩ := input
    obtain rfl : found = mcsIndex := congrArg DrainInput.mcsIndex same
    rw [drainInput_eq, launched, known]
    rfl
  · rcases written with demapped | ⟨differ, descrambled⟩
    · rw [demapped]
      exact fun same => Bool.false_ne_true (congrArg Prod.snd same)
    · rw [descrambled]
      exact fun same => differ (congrArg Prod.fst same)

theorem callStep_marked (marked : before.Marked slotId owner)
    (step : callStep markingKernels before call after) :
    after.Marked slotId (owner.next before.pipeline.mcsSet slotId call) := by
  rw [LlrOwner.next]
  split_ifs with launches overwrites
  · obtain ⟨mcsIndex, i2, qm, input, left⟩ := callStep_launches step launches
    exact ⟨mcsIndex, input, left.trans input⟩
  · obtain ⟨rfl, writes⟩ := overwrites
    obtain ⟨mcsIndex, input, left⟩ := marked
    exact marked_overwrites step writes launches input left
  · by_cases writes : call.Overwrites before.pipeline.mcsSet slotId
    · cases owner with
      | nobody => trivial
      | own => exact absurd ⟨rfl, writes⟩ overwrites
      | other =>
          obtain ⟨mcsIndex, llr, input, _, left⟩ := marked
          exact marked_overwrites step writes launches input left
    · obtain ⟨input, left⟩ := callStep_quiet step writes
      cases owner with
      | nobody => trivial
      | own =>
          rw [LaunchedRun.Marked, input, left]
          exact marked
      | other =>
          rw [LaunchedRun.Marked, input, left]
          exact marked

theorem CallRun.marked
    (reached : CallRun markingKernels (freshLaunched mcsSet markingMemory) calls run)
    (slotId : UInt32) : run.Marked slotId (llrOwner mcsSet slotId calls) := by
  induction reached with
  | nil => trivial
  | snoc before step inductionHypothesis =>
      rw [llrOwner_append, ← before.configured]
      exact callStep_marked (before.configured ▸ inductionHypothesis) step

/-- A drain behind an overwriting launch decodes soft bits that its own launch did not
leave. -/
theorem not_drainsOwnLaunch
    (reached : CallRun markingKernels (freshLaunched mcsSet markingMemory) calls run)
    (overwritten : llrOwner mcsSet slotId calls = .other) : ¬ run.DrainsOwnLaunch slotId := by
  intro own
  have marked := reached.marked slotId
  rw [overwritten] at marked
  obtain ⟨mcsIndex, llr, input, differ, left⟩ := marked
  have same := own ((oiP2Drain_ok_iff run.pipeline slotId).mpr (by rw [input]; rfl))
  rw [input, left, Option.some.injEq, DrainInput.mk.injEq] at same
  exact differ same.2

end Marking

/-- For every sequence of calls on one pipeline: whatever the kernels compute and the device
decides, a successful drain of the slot decodes the soft bits and uses the MCS of the latest
successful launch of that slot exactly when no launch of a slot of equal parity has got as
far as K4 since. -/
theorem drain_pairing_iff (mcsSet : List Nat) (calls : List P2Call) (slotId : UInt32) :
    (∀ (F Llr : Type) (kernels : PhyKernels F Llr) (memory : DeviceMemory F Llr)
        (run : LaunchedRun F Llr), CallRun kernels (freshLaunched mcsSet memory) calls run →
        run.DrainsOwnLaunch slotId) ↔
      llrOwner mcsSet slotId calls ≠ .other := by
  constructor
  · intro pairs overwritten
    obtain ⟨run, reached⟩ :=
      exists_callRun markingKernels (freshLaunched mcsSet markingMemory) calls
    exact not_drainsOwnLaunch reached overwritten (pairs _ _ _ _ run reached)
  · intro kept F Llr kernels memory run reached
    exact drainsOwnLaunch_of_llrOwner reached kept

/-- Slots 0 and 2 are launched one after the other; the drain of slot 0 then decodes the soft
bits of slot 2. -/
theorem drain_after_two_launches_decodes_other_slot :
    ¬ ∀ (mcsSet : List Nat) (calls : List P2Call) (slotId : UInt32) (F Llr : Type)
      (kernels : PhyKernels F Llr) (memory : DeviceMemory F Llr) (run : LaunchedRun F Llr),
      CallRun kernels (freshLaunched mcsSet memory) calls run → run.DrainsOwnLaunch slotId := by
  intro claim
  let calls : List P2Call := [.launch 0 4 none, .launch 2 4 none]
  obtain ⟨run, reached⟩ := exists_callRun markingKernels (freshLaunched [4] markingMemory) calls
  exact not_drainsOwnLaunch reached (by decide : llrOwner [4] 0 calls = .other)
    (claim [4] calls 0 _ _ _ _ run reached)

end RanInline.Phy
