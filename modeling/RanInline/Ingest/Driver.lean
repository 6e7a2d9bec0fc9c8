/-
Module: RanInline.Ingest.Driver
Purpose: The poll, launch and drain loop shared by gpu_phy_seam_bridge and
  bit_exact_harness, and the slots it processes for every arrival pattern.
Trusted boundary: none
Main exports: Driver, DriverState, driverIteration, driverSystem, ProcessesEverySlot,
  slots_processed_iff_gradual
-/
import Mathlib.Data.List.Nodup
import RanInline.Ingest.Arena
import RanInline.Lib.Gradual

namespace RanInline.Ingest

open RanInline.Lib RanInline.Oran RanInline.Phy

/-- The two programs, with the argument that bounds their loop. -/
inductive Driver where
  | gpuPhySeamBridge (maxSlots : Int)
  | bitExactHarness (minSlots : Nat)
deriving DecidableEq, Repr

/-- A call of `oi_p2_launch_slot`, with the first enqueue that failed in it. -/
structure Launch where
  slotId : UInt32
  fails : Option LaunchStage
deriving DecidableEq, Repr

/-- The locals of the loop.  `nofCompleted` is `nof_published` in the bridge; `calibrated`
and `failed` belong to the harness.  The last three fields are the history of the run:
the launches, the slots drained, and the slot number seen after each poll. -/
structure DriverState (F Llr : Type) where
  world : IngestWorld F Llr
  havePrevSlot : Bool
  prevSlotId : UInt32
  nofCompleted : Nat
  calibrated : Bool
  failed : Bool
  launches : List Launch
  drains : List UInt32
  pollEnds : List UInt32

/-- What the outside decides in one turn of the loop: the arrivals, the device failures and
the K1 schedule of a launch, and whether the drained record could be published (bridge) or
matches a file of the oracle (harness). -/
structure Iteration (F : Type) where
  poll : Poll
  fails : Option LaunchStage
  order : List (K1Write F)
  recordOk : Bool

section Loop

variable {F Llr : Type}

/-- The loop condition.  The harness leaves the loop when its calibration fails. -/
def Driver.continues : Driver → DriverState F Llr → Prop
  | .gpuPhySeamBridge maxSlots, state => maxSlots < 0 ∨ (state.nofCompleted : Int) < maxSlots
  | .bitExactHarness minSlots, state => state.failed = false ∧ state.nofCompleted < minSlots

/-- The end of a turn that drained a slot. -/
def Driver.complete (driver : Driver) (observed : UInt32) (recordOk : Bool)
    (state : DriverState F Llr) : DriverState F Llr :=
  match driver with
  | .gpuPhySeamBridge _ =>
      if recordOk = false then { state with prevSlotId := observed }
      else { state with nofCompleted := state.nofCompleted + 1, prevSlotId := observed }
  | .bitExactHarness _ =>
      if state.calibrated = false ∧ recordOk = false then { state with failed := true }
      else
        { state with
          calibrated := true
          nofCompleted := state.nofCompleted + 1
          prevSlotId := observed }

/-- The launch and drain of the previous slot, once `observed` has moved past it. -/
def processSlot (driver : Driver) (kernels : PhyKernels F Llr) (mcsIndex : Nat)
    (observed : UInt32) (state : DriverState F Llr) (iteration : Iteration F) :
    DriverState F Llr :=
  let (lst, pipeline) := oiP2LaunchSlot kernels iteration.fails iteration.order
    state.world.pipeline state.prevSlotId mcsIndex
  let launch : Launch := { slotId := state.prevSlotId, fails := iteration.fails }
  let state := { state with
    world := { state.world with pipeline }
    launches := state.launches ++ [launch] }
  if lst ≠ .ok then { state with prevSlotId := observed }
  else
    let (dst, pipeline) := oiP2Drain pipeline state.prevSlotId
    let state := { state with world := { state.world with pipeline } }
    if dst ≠ .ok then { state with prevSlotId := observed }
    else driver.complete observed iteration.recordOk
      { state with drains := state.drains ++ [state.prevSlotId] }

/-- The loop after a poll that knows a slot. -/
def DriverState.observe (state : DriverState F Llr) (world : IngestWorld F Llr) :
    DriverState F Llr :=
  { state with world, pollEnds := state.pollEnds ++ [oiIngestLastSlotId world.ingest] }

@[simp]
theorem observe_world (state : DriverState F Llr) (world : IngestWorld F Llr) :
    (state.observe world).world = world := rfl

@[simp]
theorem observe_havePrevSlot (state : DriverState F Llr) (world : IngestWorld F Llr) :
    (state.observe world).havePrevSlot = state.havePrevSlot := rfl

@[simp]
theorem observe_prevSlotId (state : DriverState F Llr) (world : IngestWorld F Llr) :
    (state.observe world).prevSlotId = state.prevSlotId := rfl

@[simp]
theorem observe_pollEnds (state : DriverState F Llr) (world : IngestWorld F Llr) :
    (state.observe world).pollEnds =
      state.pollEnds ++ [oiIngestLastSlotId world.ingest] := rfl

@[simp]
theorem observe_launches (state : DriverState F Llr) (world : IngestWorld F Llr) :
    (state.observe world).launches = state.launches := rfl

@[simp]
theorem observe_drains (state : DriverState F Llr) (world : IngestWorld F Llr) :
    (state.observe world).drains = state.drains := rfl

/-- One turn of the loop.  `none` is a read outside a frame. -/
def driverIteration (driver : Driver) (kernels : PhyKernels F Llr) (mcsIndex : Nat)
    (state : DriverState F Llr) (iteration : Iteration F) : Option (DriverState F Llr) := do
  let world ← oiIngestPoll state.world iteration.poll
  if oiIngestHasLastSlotId world.ingest = false then
    return { state with world }
  let observed := oiIngestLastSlotId world.ingest
  let state := state.observe world
  if state.havePrevSlot = false then
    return { state with havePrevSlot := true, prevSlotId := observed }
  if observed = state.prevSlotId then
    return state
  return processSlot driver kernels mcsIndex observed state iteration

/-- The loop at its start: a fresh pipeline and a fresh ingest. -/
def driverStart (udcomphdrBytes : UInt8) (mcsSet : List Nat) (memory : DeviceMemory F Llr) :
    DriverState F Llr where
  world := oiIngestOpen driverArenaBytes udcomphdrBytes mcsSet memory
  havePrevSlot := false
  prevSlotId := 0
  nofCompleted := 0
  calibrated := false
  failed := false
  launches := []
  drains := []
  pollEnds := []

/-- K1 may run under any schedule of its work-items on the ring as the poll left it. -/
def Scheduled (kernels : PhyKernels F Llr) (state : DriverState F Llr)
    (iteration : Iteration F) : Prop :=
  ∀ polled, oiIngestPoll state.world iteration.poll = some polled →
    state.havePrevSlot = true →
    Interleaves (k1Threads kernels.q15 polled.pipeline.arena polled.pipeline.descRing
      polled.pipeline.descRingCapacity state.prevSlotId) iteration.order

/-- The runs of a driver. -/
def driverSystem (driver : Driver) (kernels : PhyKernels F Llr) (mcsIndex : Nat)
    (udcomphdrBytes : UInt8) (mcsSet : List Nat) (memory : DeviceMemory F Llr) :
    TransitionSystem (DriverState F Llr) (Iteration F) where
  init state := state = driverStart udcomphdrBytes mcsSet memory
  step before iteration after :=
    driver.continues before ∧ Scheduled kernels before iteration ∧
      driverIteration driver kernels mcsIndex before iteration = some after

end Loop

/-! ### The slot counter of the ingest -/

section Counter

variable {F Llr : Type} {world before after : IngestWorld F Llr}

/-- As long as its 32 bits suffice, the slot counter has gone through every slot up to its
value, in order. -/
structure CountsSlots (world : IngestWorld F Llr) : Prop where
  fresh : oiIngestHasLastSlotId world.ingest = false →
    world.accepted = [] ∧ oiIngestLastSlotId world.ingest = 0
  mem : oiIngestHasLastSlotId world.ingest = true →
    ∀ slotId, slotId ∈ world.accepted ↔ slotId ≤ oiIngestLastSlotId world.ingest
  sorted : world.accepted.Pairwise (· ≤ ·)
  bound : oiIngestHasLastSlotId world.ingest = true →
    (oiIngestLastSlotId world.ingest).toNat < world.accepted.length

/-- What a step of the ingest does to the slot counter, provided that 32 bits suffice for
the frames accepted in the end. -/
structure Advances (before after : IngestWorld F Llr) : Prop where
  grows : before.accepted.length ≤ after.accepted.length
  mcsSet : after.pipeline.mcsSet = before.pipeline.mcsSet
  counts : after.accepted.length ≤ 2 ^ 32 → CountsSlots before → CountsSlots after
  later : after.accepted.length ≤ 2 ^ 32 → CountsSlots before →
    oiIngestHasLastSlotId before.ingest = true →
    oiIngestHasLastSlotId after.ingest = true ∧
      oiIngestLastSlotId before.ingest ≤ oiIngestLastSlotId after.ingest

theorem Advances.trans {first second third : IngestWorld F Llr}
    (one : Advances first second) (two : Advances second third) : Advances first third where
  grows := one.grows.trans two.grows
  mcsSet := two.mcsSet.trans one.mcsSet
  counts fits counts := two.counts fits (one.counts (two.grows.trans fits) counts)
  later fits counts known := by
    obtain ⟨stillKnown, lower⟩ := one.later (two.grows.trans fits) counts known
    obtain ⟨lastKnown, upper⟩ :=
      two.later fits (one.counts (two.grows.trans fits) counts) stillKnown
    exact ⟨lastKnown, UInt32.le_trans lower upper⟩

/-- The property is about the slot counter and the history alone. -/
theorem CountsSlots.congr (counts : CountsSlots before)
    (state : after.ingest.preparseState = before.ingest.preparseState)
    (accepted : after.accepted = before.accepted) : CountsSlots after := by
  have last : oiIngestLastSlotId after.ingest = oiIngestLastSlotId before.ingest := by
    rw [oiIngestLastSlotId, state, oiIngestLastSlotId]
  have has : oiIngestHasLastSlotId after.ingest = oiIngestHasLastSlotId before.ingest := by
    rw [oiIngestHasLastSlotId, state, oiIngestHasLastSlotId]
  refine ⟨?_, ?_, accepted ▸ counts.sorted, ?_⟩ <;> rw [has, last, accepted]
  · exact counts.fresh
  · exact counts.mem
  · exact counts.bound

/-- A step that leaves the slot counter and the history alone. -/
theorem advances_of_same (mcsSet : after.pipeline.mcsSet = before.pipeline.mcsSet)
    (state : after.ingest.preparseState = before.ingest.preparseState)
    (accepted : after.accepted = before.accepted) : Advances before after where
  grows := by rw [accepted]
  mcsSet := mcsSet
  counts _ counts := counts.congr state accepted
  later _ _ known := by
    rw [oiIngestHasLastSlotId, oiIngestLastSlotId, oiIngestLastSlotId, state]
    exact ⟨known, UInt32.le_refl _⟩

theorem CountsSlots.le_last (counts : CountsSlots world) {slotId : UInt32}
    (member : slotId ∈ world.accepted) : slotId ≤ oiIngestLastSlotId world.ingest := by
  rcases Bool.eq_false_or_eq_true (oiIngestHasLastSlotId world.ingest) with has | fresh
  · exact (counts.mem has slotId).mp member
  · rw [(counts.fresh fresh).1] at member
    cases member

/-- The slot counter after an accepted frame: still at zero, unchanged, or one more. -/
theorem CountsSlots.moves (counts : CountsSlots before) {symbolId : UInt8}
    (room : before.accepted.length < 2 ^ 32)
    (state : after.ingest.preparseState = before.ingest.preparseState.advance symbolId) :
    oiIngestLastSlotId after.ingest = oiIngestLastSlotId before.ingest ∨
      oiIngestHasLastSlotId before.ingest = true ∧
        (oiIngestLastSlotId after.ingest).toNat =
          (oiIngestLastSlotId before.ingest).toNat + 1 := by
  rw [oiIngestLastSlotId, state, OiOranPreparseState.advance]
  split_ifs with wraps
  · have bound := counts.bound wraps.1
    rw [oiIngestLastSlotId] at bound ⊢
    refine .inr ⟨wraps.1, ?_⟩
    rw [UInt32.toNat_add, UInt32.toNat_one]
    exact Nat.mod_eq_of_lt (by omega)
  · exact .inl rfl

/-- The slots up to the counter after an accepted frame. -/
theorem CountsSlots.le_iff_of_moves (counts : CountsSlots before)
    (moves : oiIngestLastSlotId after.ingest = oiIngestLastSlotId before.ingest ∨
      oiIngestHasLastSlotId before.ingest = true ∧
        (oiIngestLastSlotId after.ingest).toNat =
          (oiIngestLastSlotId before.ingest).toNat + 1)
    (slotId : UInt32) :
    slotId ≤ oiIngestLastSlotId after.ingest ↔
      slotId ∈ before.accepted ∨ slotId = oiIngestLastSlotId after.ingest := by
  rw [UInt32.le_iff_toNat_le, ← UInt32.toNat_inj]
  rcases Bool.eq_false_or_eq_true (oiIngestHasLastSlotId before.ingest) with has | fresh
  · rw [counts.mem has slotId, UInt32.le_iff_toNat_le]
    rcases moves with same | ⟨_, next⟩
    · rw [same]
      omega
    · omega
  · rcases moves with same | ⟨has, _⟩
    · rw [same, (counts.fresh fresh).1, (counts.fresh fresh).2]
      simp
    · rw [fresh] at has
      cases has

theorem CountsSlots.accept (counts : CountsSlots before) {symbolId : UInt8}
    (room : before.accepted.length < 2 ^ 32)
    (state : after.ingest.preparseState = before.ingest.preparseState.advance symbolId)
    (accepted : after.accepted = before.accepted ++ [oiIngestLastSlotId after.ingest]) :
    CountsSlots after := by
  have moves := counts.moves room state
  have mem (slotId : UInt32) :
      slotId ∈ after.accepted ↔ slotId ≤ oiIngestLastSlotId after.ingest := by
    rw [counts.le_iff_of_moves moves, accepted, List.mem_append, List.mem_singleton]
  have known : oiIngestHasLastSlotId after.ingest = true := by
    rw [oiIngestHasLastSlotId, state]
    rfl
  refine ⟨fun fresh => ?_, fun _ => mem, ?_, fun _ => ?_⟩
  · rw [known] at fresh
    cases fresh
  · rw [accepted, List.pairwise_append]
    refine ⟨counts.sorted, List.pairwise_singleton _ _, fun old member new isNew => ?_⟩
    rw [List.mem_singleton.mp isNew]
    exact (mem old).mp (accepted ▸ List.mem_append_left _ member)
  · have length : after.accepted.length = before.accepted.length + 1 := by simp [accepted]
    rcases moves with same | ⟨has, next⟩
    · rcases Bool.eq_false_or_eq_true (oiIngestHasLastSlotId before.ingest) with has | fresh
      · rw [same]
        have := counts.bound has
        omega
      · rw [same, (counts.fresh fresh).2, length]
        exact Nat.succ_pos _
    · have := counts.bound has
      omega

/-- A step that accepts a frame. -/
theorem advances_of_accepted {symbolId : UInt8}
    (mcsSet : after.pipeline.mcsSet = before.pipeline.mcsSet)
    (state : after.ingest.preparseState = before.ingest.preparseState.advance symbolId)
    (accepted : after.accepted = before.accepted ++ [oiIngestLastSlotId after.ingest]) :
    Advances before after := by
  have length : after.accepted.length = before.accepted.length + 1 := by simp [accepted]
  refine ⟨by omega, mcsSet, fun fits counts => counts.accept (by omega) state accepted,
    fun fits counts _ => ⟨?_, ?_⟩⟩
  · rw [oiIngestHasLastSlotId, state]
    rfl
  · rw [UInt32.le_iff_toNat_le]
    rcases counts.moves (by omega) state with same | ⟨_, next⟩
    · rw [same]
    · omega

theorem advances_ingestFrame (world : IngestWorld F Llr) (received : Received) :
    ∃ after, ingestFrame world received = some after ∧ Advances world after := by
  obtain ⟨after, handled, _, _, _, _, mcsSet, ⟨state, accepted⟩ | ⟨symbolId, state, accepted⟩⟩ :=
    ingestFrame_effect world received
  · exact ⟨after, handled, advances_of_same mcsSet state accepted⟩
  · exact ⟨after, handled, advances_of_accepted mcsSet state accepted⟩

theorem advances_ingestFrames (frames : List Received) (world : IngestWorld F Llr) :
    ∃ after, frames.foldlM ingestFrame world = some after ∧ Advances world after := by
  apply foldlM_invariant fun _ state => Advances world state
  · exact advances_of_same rfl rfl rfl
  · intro done received _ state advances
    obtain ⟨next, handled, one⟩ := advances_ingestFrame state received
    exact ⟨next, handled, advances.trans one⟩

/-- A poll is always handled, and moves the slot counter forward. -/
theorem advances_oiIngestPoll (world : IngestWorld F Llr) (poll : Poll) :
    ∃ after, oiIngestPoll world poll = some after ∧ Advances world after := by
  obtain ⟨drained, handled, advances⟩ := advances_ingestFrames poll.received world
  exact ⟨_, oiIngestPoll_eq handled, advances.trans (advances_of_same rfl rfl rfl)⟩

end Counter

/-! ### One turn of the loop -/

section Turn

variable {F Llr : Type} {driver : Driver} {kernels : PhyKernels F Llr} {mcsIndex : Nat}
  {before after : DriverState F Llr} {iteration : Iteration F}

/-- The slots passed to `oi_p2_launch_slot`. -/
def DriverState.launched (state : DriverState F Llr) : List UInt32 :=
  state.launches.map (·.slotId)

/-- A launch with a configured MCS and without a device failure. -/
def Succeeds (mcsSet : List Nat) (mcsIndex : Nat) (launch : Launch) : Prop :=
  McsAccepted mcsSet mcsIndex ∧ launch.fails = none

instance (mcsSet : List Nat) (mcsIndex : Nat) (launch : Launch) :
    Decidable (Succeeds mcsSet mcsIndex launch) :=
  inferInstanceAs (Decidable (_ ∧ _))

/-- The harness has left the loop because its calibration failed. -/
def Driver.GaveUp (driver : Driver) (state : DriverState F Llr) : Prop :=
  ∃ minSlots, driver = .bitExactHarness minSlots ∧ state.failed = true

/-- The end of a turn keeps the ingest and the history. -/
theorem Driver.complete_effect (driver : Driver) (observed : UInt32) (recordOk : Bool)
    (state : DriverState F Llr) :
    (driver.complete observed recordOk state).world = state.world ∧
      (driver.complete observed recordOk state).havePrevSlot = state.havePrevSlot ∧
      (driver.complete observed recordOk state).pollEnds = state.pollEnds ∧
      (driver.complete observed recordOk state).launches = state.launches ∧
      (driver.complete observed recordOk state).drains = state.drains ∧
      ((driver.complete observed recordOk state).prevSlotId = observed ∨
        driver.GaveUp (driver.complete observed recordOk state)) := by
  cases driver with
  | gpuPhySeamBridge maxSlots =>
      rw [complete]
      split_ifs <;> exact ⟨rfl, rfl, rfl, rfl, rfl, .inl rfl⟩
  | bitExactHarness minSlots =>
      rw [complete]
      split_ifs
      · exact ⟨rfl, rfl, rfl, rfl, rfl, .inr ⟨minSlots, rfl, rfl⟩⟩
      · exact ⟨rfl, rfl, rfl, rfl, rfl, .inl rfl⟩

/-- What the loop keeps of a slot it processed: the slot is launched, it is drained if the
launch succeeds, and the loop goes on from `observed` unless the harness gives up. -/
structure Processed (driver : Driver) (mcsIndex : Nat) (observed : UInt32)
    (fails : Option LaunchStage) (before after : DriverState F Llr) : Prop where
  ingest : after.world.ingest = before.world.ingest
  accepted : after.world.accepted = before.world.accepted
  mcsSet : after.world.pipeline.mcsSet = before.world.pipeline.mcsSet
  havePrevSlot : after.havePrevSlot = before.havePrevSlot
  pollEnds : after.pollEnds = before.pollEnds
  launches : after.launches = before.launches ++ [⟨before.prevSlotId, fails⟩]
  drains : after.drains = before.drains ++
    if Succeeds before.world.pipeline.mcsSet mcsIndex ⟨before.prevSlotId, fails⟩ then
      [before.prevSlotId] else []
  prevSlotId : after.prevSlotId = observed ∨ driver.GaveUp after

/-- The launch made for the previous slot. -/
def slotLaunch (kernels : PhyKernels F Llr) (mcsIndex : Nat) (state : DriverState F Llr)
    (iteration : Iteration F) : OiP2Status × OiP2Pipeline F Llr :=
  oiP2LaunchSlot kernels iteration.fails iteration.order state.world.pipeline state.prevSlotId
    mcsIndex

theorem processSlot_of_failed {observed : UInt32} {state : DriverState F Llr}
    (failed : (slotLaunch kernels mcsIndex state iteration).1 ≠ .ok) :
    processSlot driver kernels mcsIndex observed state iteration =
      { state with
        world := { state.world with
          pipeline := (slotLaunch kernels mcsIndex state iteration).2 }
        launches := state.launches ++ [⟨state.prevSlotId, iteration.fails⟩]
        prevSlotId := observed } :=
  if_pos failed

theorem processSlot_of_launched {observed : UInt32} {state : DriverState F Llr}
    (launched : (slotLaunch kernels mcsIndex state iteration).1 = .ok) :
    processSlot driver kernels mcsIndex observed state iteration =
      driver.complete observed iteration.recordOk
        { state with
          world := { state.world with
            pipeline := (oiP2Drain (slotLaunch kernels mcsIndex state iteration).2
              state.prevSlotId).2 }
          launches := state.launches ++ [⟨state.prevSlotId, iteration.fails⟩]
          drains := state.drains ++ [state.prevSlotId] } := by
  have drained : (oiP2Drain (slotLaunch kernels mcsIndex state iteration).2
      state.prevSlotId).1 = .ok := oiP2Drain_of_launched launched
  exact (if_neg (not_not.mpr launched)).trans (if_neg (not_not.mpr drained))

theorem processSlot_effect (driver : Driver) (kernels : PhyKernels F Llr) (mcsIndex : Nat)
    (observed : UInt32) (state : DriverState F Llr) (iteration : Iteration F) :
    Processed driver mcsIndex observed iteration.fails state
      (processSlot driver kernels mcsIndex observed state iteration) := by
  have launchOk : (slotLaunch kernels mcsIndex state iteration).1 = .ok ↔
      Succeeds state.world.pipeline.mcsSet mcsIndex ⟨state.prevSlotId, iteration.fails⟩ :=
    oiP2LaunchSlot_ok_iff ..
  have mcsSet : (slotLaunch kernels mcsIndex state iteration).2.mcsSet =
      state.world.pipeline.mcsSet := oiP2LaunchSlot_mcsSet ..
  by_cases launched : (slotLaunch kernels mcsIndex state iteration).1 = .ok
  · rw [processSlot_of_launched launched]
    obtain ⟨world, tracking, pollEnds, launches, drains, prevSlotId⟩ :=
      driver.complete_effect observed iteration.recordOk
        { state with
          world := { state.world with
            pipeline := (oiP2Drain (slotLaunch kernels mcsIndex state iteration).2
              state.prevSlotId).2 }
          launches := state.launches ++ [⟨state.prevSlotId, iteration.fails⟩]
          drains := state.drains ++ [state.prevSlotId] }
    refine ⟨?_, ?_, ?_, tracking, pollEnds, launches, ?_, prevSlotId⟩
    · rw [world]
    · rw [world]
    · rw [world]
      exact (oiP2Drain_mcsSet ..).trans mcsSet
    · rw [drains, if_pos (launchOk.mp launched)]
  · rw [processSlot_of_failed launched]
    refine ⟨rfl, rfl, mcsSet, rfl, rfl, rfl, ?_, .inl rfl⟩
    rw [if_neg (fun succeeds => launched (launchOk.mpr succeeds)), List.append_nil]

/-- Every way a turn can go. -/
theorem driverIteration_cases
    (turn : driverIteration driver kernels mcsIndex before iteration = some after) :
    ∃ polled, oiIngestPoll before.world iteration.poll = some polled ∧
      Advances before.world polled ∧
      ((oiIngestHasLastSlotId polled.ingest = false ∧ after = { before with world := polled }) ∨
        oiIngestHasLastSlotId polled.ingest = true ∧
          ((before.havePrevSlot = false ∧
              after = { before.observe polled with
                havePrevSlot := true
                prevSlotId := oiIngestLastSlotId polled.ingest }) ∨
            (before.havePrevSlot = true ∧
              oiIngestLastSlotId polled.ingest = before.prevSlotId ∧
              after = before.observe polled) ∨
            (before.havePrevSlot = true ∧
              oiIngestLastSlotId polled.ingest ≠ before.prevSlotId ∧
              after = processSlot driver kernels mcsIndex (oiIngestLastSlotId polled.ingest)
                (before.observe polled) iteration))) := by
  obtain ⟨polled, handled, advances⟩ := advances_oiIngestPoll before.world iteration.poll
  refine ⟨polled, handled, advances, ?_⟩
  simp only [driverIteration, handled, Option.bind_eq_bind, Option.bind_some] at turn
  split_ifs at turn with unknown untracked same
  · exact .inl ⟨unknown, (Option.some.inj turn).symm⟩
  · exact .inr ⟨by simpa using unknown, .inl ⟨untracked, (Option.some.inj turn).symm⟩⟩
  · exact .inr ⟨by simpa using unknown,
      .inr (.inl ⟨by simpa using untracked, same, (Option.some.inj turn).symm⟩)⟩
  · exact .inr ⟨by simpa using unknown,
      .inr (.inr ⟨by simpa using untracked, same, (Option.some.inj turn).symm⟩)⟩

/-- A turn is always handled. -/
theorem driverIteration_returns (driver : Driver) (kernels : PhyKernels F Llr) (mcsIndex : Nat)
    (state : DriverState F Llr) (iteration : Iteration F) :
    ∃ after, driverIteration driver kernels mcsIndex state iteration = some after := by
  obtain ⟨polled, handled, _⟩ := advances_oiIngestPoll state.world iteration.poll
  simp only [driverIteration, handled, Option.bind_eq_bind, Option.bind_some]
  split_ifs <;> exact ⟨_, rfl⟩

end Turn

/-! ### Whole runs -/

section Runs

variable {F Llr : Type} {driver : Driver} {kernels : PhyKernels F Llr} {mcsIndex : Nat}
  {udcomphdrBytes : UInt8} {mcsSet : List Nat} {memory : DeviceMemory F Llr}
  {before after state : DriverState F Llr} {iteration : Iteration F}

/-- The slot number after each poll. -/
def DriverState.pollNumbers (state : DriverState F Llr) : List Nat :=
  state.pollEnds.map (·.toNat)

/-- The loop has launched the slots that a poll ended in and a later poll moved past, and
has drained them. -/
structure TracksSlots (driver : Driver) (mcsSet : List Nat) (mcsIndex : Nat)
    (state : DriverState F Llr) : Prop where
  counts : CountsSlots state.world
  configured : state.world.pipeline.mcsSet = mcsSet
  untracked : state.havePrevSlot = false →
    oiIngestHasLastSlotId state.world.ingest = false ∧ state.pollEnds = [] ∧
      state.launches = []
  tracked : state.havePrevSlot = true →
    oiIngestHasLastSlotId state.world.ingest = true ∧
      Trails state.pollNumbers (state.launched.map (·.toNat))
        (oiIngestLastSlotId state.world.ingest).toNat
  prevSlotId : state.havePrevSlot = true → driver.continues state →
    state.prevSlotId = oiIngestLastSlotId state.world.ingest
  drains : state.drains =
    (state.launches.filter (Succeeds mcsSet mcsIndex ·)).map (·.slotId)

theorem tracksSlots_start (driver : Driver) (udcomphdrBytes : UInt8) (mcsSet : List Nat)
    (memory : DeviceMemory F Llr) (mcsIndex : Nat) :
    TracksSlots driver mcsSet mcsIndex (driverStart udcomphdrBytes mcsSet memory) where
  counts :=
    { fresh := fun _ => ⟨rfl, rfl⟩
      mem := fun known => by cases known
      sorted := .nil
      bound := fun known => by cases known }
  configured := rfl
  untracked _ := ⟨rfl, rfl, rfl⟩
  tracked known := by cases known
  prevSlotId known := by cases known
  drains := rfl

/-- The harness does not go on once it gave up. -/
theorem not_continues_of_gaveUp (gaveUp : driver.GaveUp state) : ¬ driver.continues state := by
  obtain ⟨minSlots, rfl, failed⟩ := gaveUp
  rintro ⟨running, _⟩
  rw [failed] at running
  cases running

/-- A turn that passes a slot: the slot joins the launched ones. -/
theorem TracksSlots.processSlot {polled : IngestWorld F Llr}
    (tracks : TracksSlots driver mcsSet mcsIndex before) (continues : driver.continues before)
    (advances : Advances before.world polled) (fits : polled.accepted.length ≤ 2 ^ 32)
    (known : oiIngestHasLastSlotId polled.ingest = true) (tracking : before.havePrevSlot = true)
    (moved : oiIngestLastSlotId polled.ingest ≠ before.prevSlotId) :
    TracksSlots driver mcsSet mcsIndex
      (Ingest.processSlot driver kernels mcsIndex (oiIngestLastSlotId polled.ingest)
        (before.observe polled) iteration) := by
  have effect := processSlot_effect driver kernels mcsIndex (oiIngestLastSlotId polled.ingest)
    (before.observe polled) iteration
  generalize Ingest.processSlot driver kernels mcsIndex (oiIngestLastSlotId polled.ingest)
    (before.observe polled) iteration = final at effect ⊢
  have prev := tracks.prevSlotId tracking continues
  obtain ⟨hadLast, trails⟩ := tracks.tracked tracking
  have less : (oiIngestLastSlotId before.world.ingest).toNat <
      (oiIngestLastSlotId polled.ingest).toNat := by
    have le := (advances.later fits tracks.counts hadLast).2
    rw [prev, ne_eq, ← UInt32.toNat_inj] at moved
    rw [UInt32.le_iff_toNat_le] at le
    omega
  have counts := advances.counts fits tracks.counts
  have configured := advances.mcsSet.trans tracks.configured
  refine ⟨?_, effect.mcsSet.trans configured, fun untracked => ?_, fun _ => ?_, fun _ goes => ?_,
    ?_⟩
  · exact counts.congr (congrArg (·.preparseState) effect.ingest) effect.accepted
  · rw [effect.havePrevSlot, observe_havePrevSlot, tracking] at untracked
    cases untracked
  · rw [effect.ingest, DriverState.pollNumbers, DriverState.launched, effect.pollEnds,
      effect.launches]
    refine ⟨known, ?_⟩
    simpa [prev, DriverState.pollNumbers, DriverState.launched] using trails.move less
  · rcases effect.prevSlotId with there | gaveUp
    · rw [there, effect.ingest, observe_world]
    · exact absurd goes (not_continues_of_gaveUp gaveUp)
  · rw [effect.drains, effect.launches, observe_drains, tracks.drains, observe_world, configured]
    by_cases succeeds : Succeeds mcsSet mcsIndex ⟨before.prevSlotId, iteration.fails⟩
    · simp [succeeds]
    · simp [succeeds]

/-- One turn keeps the invariant, as long as 32 bits suffice for the slot counter. -/
theorem TracksSlots.driverIteration (tracks : TracksSlots driver mcsSet mcsIndex before)
    (continues : driver.continues before)
    (turn : driverIteration driver kernels mcsIndex before iteration = some after)
    (fits : after.world.accepted.length ≤ 2 ^ 32) :
    TracksSlots driver mcsSet mcsIndex after := by
  obtain ⟨polled, _, advances, outcome⟩ := driverIteration_cases turn
  rcases outcome with ⟨unknown, rfl⟩ | ⟨known, ⟨untracked, rfl⟩ | ⟨tracking, same, rfl⟩ |
    ⟨tracking, moved, rfl⟩⟩
  -- still no frame accepted
  · have untracked : before.havePrevSlot = false := by
      by_contra tracking
      have hadLast := (tracks.tracked (by simpa using tracking)).1
      have known := (advances.later fits tracks.counts hadLast).1
      rw [unknown] at known
      cases known
    obtain ⟨_, pollEnds, launches⟩ := tracks.untracked untracked
    refine ⟨advances.counts fits tracks.counts, advances.mcsSet.trans tracks.configured,
      fun _ => ⟨unknown, pollEnds, launches⟩, fun tracking => ?_, fun tracking => ?_, tracks.drains⟩
    · rw [show before.havePrevSlot = true from tracking] at untracked
      cases untracked
    · rw [show before.havePrevSlot = true from tracking] at untracked
      cases untracked
  -- the first poll that accepted a frame
  · obtain ⟨_, pollEnds, launches⟩ := tracks.untracked untracked
    refine ⟨advances.counts fits tracks.counts, advances.mcsSet.trans tracks.configured,
      fun none => Bool.noConfusion none, fun _ => ⟨known, ?_⟩, fun _ _ => rfl, tracks.drains⟩
    simpa [DriverState.pollNumbers, DriverState.launched, pollEnds, launches] using
      Trails.start (oiIngestLastSlotId polled.ingest).toNat
  -- a poll that ended in the slot it started in
  · have prev := tracks.prevSlotId tracking continues
    refine ⟨advances.counts fits tracks.counts, advances.mcsSet.trans tracks.configured,
      fun none => ?_, fun _ => ⟨known, ?_⟩, fun _ _ => same.symm, tracks.drains⟩
    · rw [show before.havePrevSlot = false from none] at tracking
      cases tracking
    · have trails := (tracks.tracked tracking).2.stay
      rw [← prev, ← same] at trails
      simpa [DriverState.pollNumbers, DriverState.launched] using trails
  · obtain fits : polled.accepted.length ≤ 2 ^ 32 := by
      rwa [(processSlot_effect ..).accepted] at fits
    exact tracks.processSlot continues advances fits known tracking moved

theorem driverIteration_grows
    (turn : driverIteration driver kernels mcsIndex before iteration = some after) :
    before.world.accepted.length ≤ after.world.accepted.length := by
  obtain ⟨polled, _, advances, outcome⟩ := driverIteration_cases turn
  rcases outcome with ⟨_, rfl⟩ | ⟨_, ⟨_, rfl⟩ | ⟨_, _, rfl⟩ | ⟨_, _, rfl⟩⟩
  · exact advances.grows
  · exact advances.grows
  · exact advances.grows
  · rw [(processSlot_effect ..).accepted]
    exact advances.grows

variable {permitted : DriverState F Llr → Iteration F → Prop}

theorem tracksSlots_of_reaches
    (run : (driverSystem driver kernels mcsIndex udcomphdrBytes mcsSet memory).Reaches permitted
      state) (fits : state.world.accepted.length ≤ 2 ^ 32) :
    TracksSlots driver mcsSet mcsIndex state := by
  refine run.invariant
    (fun state => state.world.accepted.length ≤ 2 ^ 32 →
      TracksSlots driver mcsSet mcsIndex state) ?_ ?_ fits
  · rintro _ rfl _
    exact tracksSlots_start ..
  · rintro before iteration after tracks _ ⟨continues, _, turn⟩ fits
    exact (tracks ((driverIteration_grows turn).trans fits)).driverIteration continues turn fits

/-- Every slot that got an accepted frame and was followed by an accepted frame of a larger
slot has been launched exactly once and drained exactly once, and the launches are in
increasing order. -/
structure ProcessesEverySlot (state : DriverState F Llr) : Prop where
  once : ∀ (i j : Nat) (slotId later : UInt32), state.world.accepted[i]? = some slotId →
    state.world.accepted[j]? = some later → i < j → slotId < later →
    state.launched.count slotId = 1 ∧ state.drains.count slotId = 1
  increasing : state.launched.Pairwise (· < ·)

/-- Every slot below the counter was followed by a frame of the slot it stands at. -/
theorem CountsSlots.followed {world : IngestWorld F Llr} (counts : CountsSlots world)
    (known : oiIngestHasLastSlotId world.ingest = true) {slotId : UInt32}
    (less : slotId < oiIngestLastSlotId world.ingest) :
    ∃ i j : Nat, world.accepted[i]? = some slotId ∧
      world.accepted[j]? = some (oiIngestLastSlotId world.ingest) ∧ i < j := by
  obtain ⟨i, first⟩ := List.mem_iff_getElem?.mp
    ((counts.mem known slotId).mpr (UInt32.le_of_lt less))
  obtain ⟨j, second⟩ := List.mem_iff_getElem?.mp
    ((counts.mem known _).mpr (UInt32.le_refl (oiIngestLastSlotId world.ingest)))
  refine ⟨i, j, first, second, ?_⟩
  by_contra notLess
  obtain ⟨insideFirst, rfl⟩ := List.getElem?_eq_some_iff.mp first
  obtain ⟨insideSecond, last⟩ := List.getElem?_eq_some_iff.mp second
  rcases Nat.lt_or_eq_of_le (Nat.le_of_not_lt notLess) with before | rfl
  · have le := List.pairwise_iff_getElem.mp counts.sorted j i insideSecond insideFirst before
    rw [last] at le
    exact UInt32.not_lt.mpr le less
  · rw [last] at less
    exact UInt32.lt_irrefl _ less

/-- The launched slots, once the loop tracks a slot. -/
theorem TracksSlots.launched_nodup (tracks : TracksSlots driver mcsSet mcsIndex state)
    (tracking : state.havePrevSlot = true) :
    state.launched.Pairwise (· < ·) ∧ state.launched.Nodup := by
  have increasing := List.pairwise_map.mp (tracks.tracked tracking).2.increasing
  have ordered : state.launched.Pairwise (· < ·) :=
    increasing.imp fun less => UInt32.lt_iff_toNat_lt.mpr less
  exact ⟨ordered, ordered.imp UInt32.ne_of_lt⟩

theorem TracksSlots.launched_below (tracks : TracksSlots driver mcsSet mcsIndex state)
    (tracking : state.havePrevSlot = true) {slotId : UInt32} (member : slotId ∈ state.launched) :
    slotId < oiIngestLastSlotId state.world.ingest := by
  rw [UInt32.lt_iff_toNat_lt]
  exact (((tracks.tracked tracking).2.mem_iff _).mp (List.mem_map_of_mem member)).2

/-- The slots are all processed when each poll ends at most one slot later than the one
before it and every launch succeeds. -/
theorem TracksSlots.processes (tracks : TracksSlots driver mcsSet mcsIndex state)
    (tracking : state.havePrevSlot = true) (gradual : Gradual state.pollNumbers)
    (succeed : ∀ launch ∈ state.launches, Succeeds mcsSet mcsIndex launch) :
    ProcessesEverySlot state := by
  obtain ⟨known, trails⟩ := tracks.tracked tracking
  obtain ⟨increasing, nodup⟩ := tracks.launched_nodup tracking
  refine ⟨fun i j slotId later _ second _ less => ?_, increasing⟩
  have laterLe := tracks.counts.le_last (List.mem_of_getElem? second)
  have below := UInt32.lt_of_lt_of_le less laterLe
  obtain ⟨found, member, same⟩ := List.mem_map.mp
    (trails.gradual_iff.mp gradual slotId.toNat (UInt32.lt_iff_toNat_lt.mp below))
  obtain rfl : found = slotId := UInt32.toNat_inj.mp same
  have drained : state.drains = state.launched := by
    rw [tracks.drains, List.filter_eq_self.mpr (by simpa using succeed), DriverState.launched]
  rw [drained]
  exact ⟨List.count_eq_one_of_mem nodup member, List.count_eq_one_of_mem nodup member⟩

/-- When all slots are processed, no poll skipped a slot. -/
theorem TracksSlots.gradual (tracks : TracksSlots driver mcsSet mcsIndex state)
    (tracking : state.havePrevSlot = true) (processes : ProcessesEverySlot state) :
    Gradual state.pollNumbers := by
  obtain ⟨known, trails⟩ := tracks.tracked tracking
  rw [trails.gradual_iff]
  intro value less
  have small : value < 2 ^ 32 :=
    Nat.lt_trans less (oiIngestLastSlotId state.world.ingest).toNat_lt
  have number : (UInt32.ofNat value).toNat = value := UInt32.toNat_ofNat_of_lt' small
  obtain ⟨i, j, first, second, order⟩ := tracks.counts.followed known
    (show UInt32.ofNat value < oiIngestLastSlotId state.world.ingest by
      rw [UInt32.lt_iff_toNat_lt, number]
      exact less)
  have launched := (processes.once i j _ _ first second order (by
    rw [UInt32.lt_iff_toNat_lt, number]
    exact less)).1
  have member : UInt32.ofNat value ∈ state.launched :=
    List.count_pos_iff.mp (by rw [launched]; exact Nat.one_pos)
  rw [← number]
  exact List.mem_map_of_mem member

/-- When all slots are processed, no launch failed. -/
theorem TracksSlots.succeeds (tracks : TracksSlots driver mcsSet mcsIndex state)
    (tracking : state.havePrevSlot = true) (processes : ProcessesEverySlot state) {launch : Launch}
    (member : launch ∈ state.launches) : Succeeds mcsSet mcsIndex launch := by
  obtain ⟨known, _⟩ := tracks.tracked tracking
  have launched : launch.slotId ∈ state.launched := List.mem_map_of_mem member
  have below := tracks.launched_below tracking launched
  obtain ⟨i, j, first, second, order⟩ := tracks.counts.followed known below
  have drained := (processes.once i j _ _ first second order below).2
  have inDrains : launch.slotId ∈ state.drains :=
    List.count_pos_iff.mp (by rw [drained]; exact Nat.one_pos)
  rw [tracks.drains] at inDrains
  obtain ⟨other, otherMember, same⟩ := List.mem_map.mp inDrains
  obtain ⟨otherLaunched, otherSucceeds⟩ := List.mem_filter.mp otherMember
  obtain rfl : other = launch := List.inj_on_of_nodup_map (tracks.launched_nodup tracking).2
    otherLaunched member same
  exact of_decide_eq_true otherSucceeds

/-- In every state that a driver reaches, every slot that was followed by a later one has
been launched and drained exactly once, in increasing order, exactly when the polls ended
in slots that start at zero and grow by at most one and no launch failed. -/
theorem slots_processed_iff_gradual
    (run : (driverSystem driver kernels mcsIndex udcomphdrBytes mcsSet memory).Reaches permitted
      state) (fits : state.world.accepted.length ≤ 2 ^ 32) :
    (ProcessesEverySlot state ↔
        Gradual state.pollNumbers ∧
          ∀ launch ∈ state.launches, Succeeds mcsSet mcsIndex launch) ∧
      ∀ iteration, ∃ after,
        driverIteration driver kernels mcsIndex state iteration = some after := by
  have tracks := tracksSlots_of_reaches run fits
  refine ⟨?_, driverIteration_returns driver kernels mcsIndex state⟩
  rcases Bool.eq_false_or_eq_true state.havePrevSlot with tracking | untracked
  · constructor
    · intro processes
      exact ⟨tracks.gradual tracking processes, fun launch member =>
        tracks.succeeds tracking processes member⟩
    · rintro ⟨gradual, succeed⟩
      exact tracks.processes tracking gradual succeed
  · obtain ⟨unknown, pollEnds, launches⟩ := tracks.untracked untracked
    have accepted := (tracks.counts.fresh unknown).1
    constructor
    · intro _
      refine ⟨⟨?_, ?_⟩, ?_⟩ <;> simp [DriverState.pollNumbers, pollEnds, launches]
    · intro _
      exact ⟨by simp [accepted], by simp [DriverState.launched, launches]⟩

end Runs

/-! ### Two frames, polled together or one by one -/

/-- A frame of one symbol, received by a device that accepts every write. -/
private def symbolReceived (symbol : UInt8) : Received where
  bytes := List.replicate 12 0 ++ [0xAE, 0xFE, 0x10, 0x00, 0, 0, 0, 0, 0, 0, 0x10, 0, 0, symbol,
    0, 0, 0, 0]
  writeOk := true
  feedOk := true
  rxTsNs := 0

/-- A turn that polls frames of the given symbols. -/
private def turnOf (symbols : List UInt8) (order : List (K1Write Unit)) : Iteration Unit where
  poll := { received := symbols.map symbolReceived, tpDrops := 0, tpPackets := symbols.length }
  fails := none
  order := order
  recordOk := true

/-- Every reached state can take a turn with such frames. -/
private theorem reaches_turnOf {driver : Driver} {state : DriverState Unit Unit}
    (reaches : (driverSystem driver noKernels 4 0 [4] (memoryOf 0)).Reaches (fun _ _ => True)
      state) (continues : driver.continues state) (symbols : List UInt8) :
    ∃ order after,
      driverIteration driver noKernels 4 state (turnOf symbols order) = some after ∧
        (driverSystem driver noKernels 4 0 [4] (memoryOf 0)).Reaches (fun _ _ => True) after := by
  obtain ⟨polled, handled, _⟩ := advances_oiIngestPoll state.world (turnOf symbols []).poll
  have schedule := Interleaves.sequential (k1Threads noKernels.q15 polled.pipeline.arena
    polled.pipeline.descRing polled.pipeline.descRingCapacity state.prevSlotId)
  obtain ⟨after, turn⟩ := driverIteration_returns driver noKernels 4 state
    (turnOf symbols (k1Threads noKernels.q15 polled.pipeline.arena polled.pipeline.descRing
      polled.pipeline.descRingCapacity state.prevSlotId).flatten)
  refine ⟨_, after, turn, .next reaches trivial ⟨continues, ?_, turn⟩⟩
  intro other otherHandled _
  obtain rfl : other = polled := Option.some.inj (otherHandled.symm.trans handled)
  exact schedule

/-- The last symbol of slot 0 and the first symbol of slot 1, in one poll each. -/
theorem slots_processed_two_polls :
    ∃ state : DriverState Unit Unit,
      (driverSystem (.gpuPhySeamBridge (-1)) noKernels 4 0 [4] (memoryOf 0)).Reaches
        (fun _ _ => True) state ∧
      state.world.accepted = [0, 1] ∧ state.launches = [⟨0, none⟩] ∧
      ProcessesEverySlot state := by
  have unbounded (state : DriverState Unit Unit) :
      (Driver.gpuPhySeamBridge (-1)).continues state := .inl (by decide)
  obtain ⟨firstOrder, first, firstTurn, firstReaches⟩ :=
    reaches_turnOf (.start rfl) (unbounded _) [13]
  obtain ⟨secondOrder, second, secondTurn, secondReaches⟩ :=
    reaches_turnOf firstReaches (unbounded _) [0]
  have run : [turnOf [13] firstOrder, turnOf [0] secondOrder].foldlM
      (driverIteration (.gpuPhySeamBridge (-1)) noKernels 4) (driverStart 0 [4] (memoryOf 0)) =
        some second := by
    simp only [List.foldlM_cons, List.foldlM_nil, firstTurn, secondTurn, Option.bind_eq_bind,
      Option.bind_some, Option.pure_def]
  have facts : ([turnOf [13] firstOrder, turnOf [0] secondOrder].foldlM
      (driverIteration (.gpuPhySeamBridge (-1)) noKernels 4)
        (driverStart 0 [4] (memoryOf 0))).map
          (fun state => (state.world.accepted, state.launches, state.pollEnds)) =
      some ([0, 1], [⟨0, none⟩], [0, 1]) := rfl
  rw [run, Option.map_some] at facts
  simp only [Option.some.injEq, Prod.mk.injEq] at facts
  obtain ⟨accepted, launches, pollEnds⟩ := facts
  refine ⟨second, secondReaches, accepted, launches,
    (slots_processed_iff_gradual secondReaches (by simp [accepted])).1.mpr ⟨⟨?_, ?_⟩, ?_⟩⟩
  · simp [DriverState.pollNumbers, pollEnds]
  · rw [DriverState.pollNumbers, pollEnds]
    rintro (_ | k) here after found next
    · obtain rfl := Option.some.inj next
      exact Nat.le_add_left 1 here
    · simp at next
  · rw [launches]
    decide

private theorem not_processes_burst {driver : Driver}
    (continues : driver.continues (driverStart 0 [4] (memoryOf 0))) :
    ¬ ∀ state : DriverState Unit Unit,
      (driverSystem driver noKernels 4 0 [4] (memoryOf 0)).Reaches (fun _ _ => True) state →
      ProcessesEverySlot state := by
  intro claim
  obtain ⟨order, after, turn, reaches⟩ := reaches_turnOf (.start rfl) continues [13, 0]
  have facts : (driverIteration driver noKernels 4 (driverStart 0 [4] (memoryOf 0))
      (turnOf [13, 0] order)).map (fun state => (state.world.accepted, state.launches)) =
      some ([0, 1], []) := rfl
  rw [turn, Option.map_some] at facts
  simp only [Option.some.injEq, Prod.mk.injEq] at facts
  obtain ⟨accepted, launches⟩ := facts
  have launched := ((claim after reaches).once 0 1 0 1 (by rw [accepted]; rfl)
    (by rw [accepted]; rfl) (by decide) (by decide)).1
  rw [DriverState.launched, launches] at launched
  cases launched

/-- When one poll brings in the last symbol of slot 0 together with the first symbol of
slot 1, neither program ever launches slot 0. -/
theorem burst_skips_slot :
    (¬ ∀ state : DriverState Unit Unit,
        (driverSystem (.gpuPhySeamBridge (-1)) noKernels 4 0 [4] (memoryOf 0)).Reaches
          (fun _ _ => True) state → ProcessesEverySlot state) ∧
      ¬ ∀ state : DriverState Unit Unit,
        (driverSystem (.bitExactHarness 1) noKernels 4 0 [4] (memoryOf 0)).Reaches
          (fun _ _ => True) state → ProcessesEverySlot state :=
  ⟨not_processes_burst (.inl (by decide)), not_processes_burst ⟨rfl, by decide⟩⟩

end RanInline.Ingest
