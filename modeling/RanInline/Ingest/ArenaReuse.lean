/-
Module: RanInline.Ingest.ArenaReuse
Purpose: The arena as a ring.  oi_ingest_poll starts over at offset zero without knowing which
  frames the pipeline still has to read; what this leaves of a frame until its slot is
  launched, in every run of the driver loop.
Trusted boundary: none
Main exports: PlacedFrame, placedFrame, pollPlaced, HoldsPlaced, ArenaRun, arenaSystem,
  arena_bytes_valid_at_launch
-/
import RanInline.Ingest.Driver

namespace RanInline.Ingest

open RanInline.Lib RanInline.Oran RanInline.Phy

/-! ### Frames in the arena -/

/-- A frame that was written to the arena: where, its bytes, and its descriptor if the
pipeline accepted it. -/
structure PlacedFrame where
  offset : Nat
  bytes : List UInt8
  delivered : Option OiFrameDesc

/-- The regions of two frames do not overlap. -/
def PlacedFrame.Apart (first second : PlacedFrame) : Prop :=
  first.offset + first.bytes.length ≤ second.offset ∨
    second.offset + second.bytes.length ≤ first.offset

instance (first second : PlacedFrame) : Decidable (first.Apart second) :=
  inferInstanceAs (Decidable (_ ∨ _))

/-- The frame was delivered with a descriptor of the slot. -/
def PlacedFrame.DeliveredFor (frame : PlacedFrame) (slotId : UInt32) : Prop :=
  ∃ desc, frame.delivered = some desc ∧ desc.slotId = slotId

/-- The arena holds the bytes of every frame that no later one overlaps. -/
def HoldsPlaced (arena : Nat → UInt8) (placed : List PlacedFrame) : Prop :=
  ∀ (i : Nat) (frame : PlacedFrame), placed[i]? = some frame →
    (∀ (j : Nat) (later : PlacedFrame), i < j → placed[j]? = some later → frame.Apart later) →
    ∀ k < frame.bytes.length, frame.bytes[k]? = some (arena (frame.offset + k))

theorem writeBytes_inside (memory : Nat → UInt8) (offset : Nat) {data : List UInt8} {k : Nat}
    (inside : k < data.length) :
    data[k]? = some (writeBytes memory offset data (offset + k)) := by
  rw [writeBytes, if_pos ⟨by omega, by omega⟩, Nat.add_sub_cancel_left,
    List.getElem?_eq_getElem inside, List.getD_eq_getElem?_getD, List.getElem?_eq_getElem inside]
  rfl

theorem writeBytes_outside (memory : Nat → UInt8) {offset : Nat} {data : List UInt8} {i : Nat}
    (outside : i < offset ∨ offset + data.length ≤ i) :
    writeBytes memory offset data i = memory i := by
  rw [writeBytes, if_neg (by omega)]

/-- One more frame is written. -/
theorem HoldsPlaced.snoc {arena : Nat → UInt8} {placed : List PlacedFrame}
    (holds : HoldsPlaced arena placed) (frame : PlacedFrame) :
    HoldsPlaced (writeBytes arena frame.offset frame.bytes) (placed ++ [frame]) := by
  intro i other found apart k inside
  rcases Nat.lt_or_ge i placed.length with earlier | late
  · -- an earlier frame: the new one is apart from it
    rw [List.getElem?_append_left earlier] at found
    have away : other.Apart frame := apart placed.length frame earlier (by simp)
    rw [PlacedFrame.Apart] at away
    rw [writeBytes_outside arena (by omega)]
    refine holds i other found (fun j later less foundLater => ?_) k inside
    refine apart j later less ?_
    rw [List.getElem?_append_left (List.getElem?_eq_some_iff.mp foundLater).1]
    exact foundLater
  · rw [List.getElem?_append_right late] at found
    obtain rfl : frame = other :=
      (List.mem_singleton.mp (List.mem_of_getElem? found)).symm
    exact writeBytes_inside arena frame.offset inside

/-! ### One frame -/

section Frame

variable {F Llr : Type} {world after : IngestWorld F Llr} {received : Received}

/-- The descriptor that the pipeline accepts for a frame, once it is in the arena. -/
def deliveredDesc (world : IngestWorld F Llr) (received : Received) : Option OiFrameDesc :=
  let n := received.bytes.length
  match oiOranPreparseFrame world.ingest.preparseState received.bytes n
      world.ingest.udcomphdrBytes .zero with
  | some { status := .ok, state := _, outDesc } =>
      let desc := { outDesc with
        arenaOffset := placeOffset world.ingest n, frameLen := UInt32.ofNat n }
      if (oiP2Feed received.feedOk world.statics (frameWrite world received).2 desc).1 = .ok then
        some desc
      else none
  | _ => none

/-- What handling a frame places in the arena. -/
def placedFrame (world : IngestWorld F Llr) (received : Received) : Option PlacedFrame :=
  if (frameWrite world received).1 = .ok then
    some
      { offset := (placeOffset world.ingest received.bytes.length).toNat
        bytes := received.bytes
        delivered := deliveredDesc world received }
  else none

theorem frameWrite_arena (world : IngestWorld F Llr) (received : Received) :
    (frameWrite world received).2.arena =
      if (frameWrite world received).1 = .ok then
        writeBytes world.pipeline.arena (placeOffset world.ingest received.bytes.length).toNat
          received.bytes
      else world.pipeline.arena := by
  rw [frameWrite, oiP2WriteArena]
  split_ifs <;> simp_all

/-- The state in which a frame that was written is parsed. -/
def writtenWorld (world : IngestWorld F Llr) (received : Received) : IngestWorld F Llr :=
  { world with
    pipeline := (frameWrite world received).2
    arenaWrites := world.arenaWrites ++ [(frameWrite world received).1]
    ingest := { world.ingest with
      counters := { world.ingest.counters with
        ethertypeMatched := world.ingest.counters.ethertypeMatched + 1 }
      arenaWriteOffset := placeOffset world.ingest received.bytes.length +
        UInt64.ofNat received.bytes.length } }

theorem ingestFrame_of_written (written : (frameWrite world received).1 = .ok) :
    ingestFrame world received =
      parseFrame (writtenWorld world received) (placeOffset world.ingest received.bytes.length)
        received :=
  if_neg (not_not.mpr written)

/-- The descriptor made for a frame that is in the arena. -/
def acceptedDesc (world : IngestWorld F Llr) (received : Received) (thisOffset : UInt64)
    (hdr : Nat) : OiFrameDesc :=
  { headerDesc world.ingest.preparseState .zero world.ingest.udcomphdrBytes received.bytes hdr with
    arenaOffset := thisOffset
    frameLen := UInt32.ofNat received.bytes.length }

/-- An accepted frame is fed to the pipeline. -/
theorem parseFrame_of_accepts (world : IngestWorld F Llr) {thisOffset : UInt64} {hdr : Nat}
    (accepts : Accepts received.bytes world.ingest.udcomphdrBytes.toNat hdr) :
    parseFrame world thisOffset received = some (feedFrame
      { world with
        ingest := { world.ingest with
          preparseState := world.ingest.preparseState.advance
            (UInt8.ofNat (byteVal received.bytes (hdr + 11) % 64)) }
        accepted := world.accepted ++ [(acceptedDesc world received thisOffset hdr).slotId] }
      thisOffset (acceptedDesc world received thisOffset hdr) received) := by
  simp [parseFrame, polledDesc, oiOranPreparseFrame_of_accepts world.ingest.preparseState .zero
    world.ingest.udcomphdrBytes accepts, acceptedDesc]

theorem parseFrame_arena {thisOffset : UInt64}
    (parsed : parseFrame world thisOffset received = some after) :
    after.pipeline.arena = world.pipeline.arena := by
  obtain ⟨outcome, _, rest⟩ := Option.bind_eq_some_iff.mp parsed
  split_ifs at rest
  · cases rest
    rfl
  · cases rest
    simp only [feedFrame]
    split_ifs <;> exact (oiP2Feed_arena ..).2

/-- Handling a frame writes it to the arena if the device accepts the write, and changes
nothing else there. -/
theorem ingestFrame_arena (handled : ingestFrame world received = some after) :
    after.pipeline.arena =
      (placedFrame world received).elim world.pipeline.arena
        fun frame => writeBytes world.pipeline.arena frame.offset frame.bytes := by
  have arena := frameWrite_arena world received
  rw [placedFrame]
  by_cases written : (frameWrite world received).1 = .ok
  · rw [if_pos written] at arena ⊢
    have parsed := (if_neg (not_not.mpr written)).symm.trans handled
    rw [parseFrame_arena parsed]
    exact arena
  · rw [if_neg written] at arena ⊢
    have failed := (if_pos written).symm.trans handled
    rw [← Option.some.inj failed]
    exact arena

theorem deliveredDesc_of_accepts {hdr : Nat}
    (accepts : Accepts received.bytes world.ingest.udcomphdrBytes.toNat hdr) :
    deliveredDesc world received =
      if (oiP2Feed received.feedOk world.statics (frameWrite world received).2
          (acceptedDesc world received (placeOffset world.ingest received.bytes.length) hdr)).1 =
        .ok then
        some (acceptedDesc world received (placeOffset world.ingest received.bytes.length) hdr)
      else none := by
  rw [deliveredDesc, oiOranPreparseFrame_of_accepts _ _ _ accepts]
  rfl

/-- A frame that is not accepted is not delivered. -/
theorem parseFrame_of_rejected (world : IngestWorld F Llr) (thisOffset : UInt64)
    (rejected : ∀ hdr, ¬ Accepts received.bytes world.ingest.udcomphdrBytes.toNat hdr) :
    deliveredDesc world received = none ∧
      parseFrame world thisOffset received =
        some { world with ingest := countParseFailed world.ingest } := by
  rcases oiOranPreparseFrame_cases world.ingest.preparseState .zero world.ingest.udcomphdrBytes
    received.bytes with ⟨_, call⟩ | ⟨_, _, call⟩ | ⟨hdr, accepts, _⟩
  · exact ⟨by simp [deliveredDesc, call], by simp [parseFrame, call]⟩
  · exact ⟨by simp [deliveredDesc, call], by simp [parseFrame, call]⟩
  · exact absurd accepts (rejected hdr)

/-- The descriptor of a delivered frame points at the frame. -/
theorem deliveredDesc_region {desc : OiFrameDesc}
    (delivered : deliveredDesc world received = some desc) :
    desc.arenaOffset = placeOffset world.ingest received.bytes.length ∧
      desc.frameLen = UInt32.ofNat received.bytes.length := by
  simp only [deliveredDesc] at delivered
  split at delivered
  · split_ifs at delivered
    obtain rfl := Option.some.inj delivered
    exact ⟨rfl, rfl⟩
  · cases delivered

end Frame

/-! ### Polls and turns of the loop -/

section Turns

variable {F Llr : Type} {world after polled : IngestWorld F Llr} {placed : List PlacedFrame}

/-- What a sequence of frames places in the arena. -/
def pollPlaced (world : IngestWorld F Llr) : List Received → List PlacedFrame
  | [] => []
  | received :: frames =>
      (placedFrame world received).toList ++
        (ingestFrame world received).elim [] fun next => pollPlaced next frames

/-- The arena holds what was placed, and descriptors point at their frames. -/
structure PlacedSound (arena : Nat → UInt8) (placed : List PlacedFrame) : Prop where
  holds : HoldsPlaced arena placed
  region : ∀ frame ∈ placed, ∀ desc, frame.delivered = some desc →
    desc.arenaOffset.toNat = frame.offset ∧ desc.frameLen.toNat = frame.bytes.length

/-- Every frame of the poll fits the receive buffer and is not empty. -/
def FramesFit (frames : List Received) : Prop :=
  ∀ received ∈ frames, 1 ≤ received.bytes.length ∧ received.bytes.length ≤ recvBufBytes

theorem PlacedSound.ingestFrame {received : Received}
    (sound : PlacedSound world.pipeline.arena placed)
    (small : received.bytes.length ≤ recvBufBytes)
    (handled : ingestFrame world received = some after) :
    PlacedSound after.pipeline.arena (placed ++ (placedFrame world received).toList) := by
  have arena := ingestFrame_arena handled
  cases found : placedFrame world received with
  | none =>
      rw [found] at arena
      rw [Option.toList_none, List.append_nil, arena]
      exact sound
  | some frame =>
      rw [found] at arena
      rw [Option.toList_some, arena]
      refine ⟨sound.holds.snoc frame, fun other member desc delivered => ?_⟩
      rcases List.mem_append.mp member with earlier | new
      · exact sound.region other earlier desc delivered
      · obtain rfl : other = frame := List.mem_singleton.mp new
        rw [placedFrame] at found
        split_ifs at found
        obtain rfl := Option.some.inj found
        obtain ⟨offset, length⟩ := deliveredDesc_region delivered
        rw [recvBufBytes] at small
        refine ⟨congrArg UInt64.toNat offset, ?_⟩
        rw [length]
        exact UInt32.toNat_ofNat_of_lt' (show received.bytes.length < 2 ^ 32 by omega)

theorem PlacedSound.ingestFrames {frames : List Received}
    (sound : PlacedSound world.pipeline.arena placed) (fit : FramesFit frames)
    (handled : frames.foldlM Ingest.ingestFrame world = some after) :
    PlacedSound after.pipeline.arena (placed ++ pollPlaced world frames) := by
  induction frames generalizing world placed with
  | nil =>
      cases handled
      rwa [pollPlaced, List.append_nil]
  | cons received frames inductionHypothesis =>
      obtain ⟨next, first, rest⟩ := Option.bind_eq_some_iff.mp handled
      have one := sound.ingestFrame (fit received List.mem_cons_self).2 first
      have all := inductionHypothesis one
        (fun other member => fit other (List.mem_cons_of_mem _ member)) rest
      rwa [pollPlaced, first, Option.elim_some, ← List.append_assoc]

theorem PlacedSound.oiIngestPoll {poll : Poll} (sound : PlacedSound world.pipeline.arena placed)
    (fit : FramesFit poll.received) (handled : oiIngestPoll world poll = some polled) :
    PlacedSound polled.pipeline.arena (placed ++ pollPlaced world poll.received) := by
  obtain ⟨drained, run, rest⟩ := Option.bind_eq_some_iff.mp handled
  have framesSound := sound.ingestFrames fit run
  obtain rfl := Option.some.inj rest
  exact framesSound

/-- The launch and the drain of a slot leave the arena alone. -/
theorem processSlot_arena (driver : Driver) (kernels : PhyKernels F Llr) (mcsIndex : Nat)
    (observed : UInt32) (state : DriverState F Llr) (iteration : Iteration F) :
    (processSlot driver kernels mcsIndex observed state iteration).world.pipeline.arena =
      state.world.pipeline.arena := by
  have launch : (slotLaunch kernels mcsIndex state iteration).2.arena =
      state.world.pipeline.arena := (oiP2LaunchSlot_frame ..).1
  by_cases launched : (slotLaunch kernels mcsIndex state iteration).1 = .ok
  · rw [processSlot_of_launched launched, (driver.complete_effect ..).1, ← launch, oiP2Drain]
    split
    · rfl
    · split_ifs <;> rfl
  · rw [processSlot_of_failed launched]
    exact launch

/-- A turn leaves the arena as its poll left it. -/
theorem driverIteration_arena {driver : Driver} {kernels : PhyKernels F Llr} {mcsIndex : Nat}
    {before state : DriverState F Llr} {iteration : Iteration F}
    (turn : driverIteration driver kernels mcsIndex before iteration = some state)
    (handled : oiIngestPoll before.world iteration.poll = some polled) :
    state.world.pipeline.arena = polled.pipeline.arena := by
  obtain ⟨other, otherHandled, _, outcome⟩ := driverIteration_cases turn
  obtain rfl : other = polled := Option.some.inj (otherHandled.symm.trans handled)
  rcases outcome with ⟨_, rfl⟩ | ⟨_, ⟨_, rfl⟩ | ⟨_, _, rfl⟩ | ⟨_, _, rfl⟩⟩
  · rfl
  · rfl
  · rfl
  · exact processSlot_arena ..

end Turns

/-! ### Whole runs -/

/-- A driver with all that was placed in the arena. -/
structure ArenaRun (F Llr : Type) where
  state : DriverState F Llr
  placed : List PlacedFrame

section Runs

variable {F Llr : Type} {driver : Driver} {kernels : PhyKernels F Llr} {mcsIndex : Nat}
  {arenaBytes : UInt64} {udcomphdrBytes : UInt8} {mcsSet : List Nat} {memory : DeviceMemory F Llr}

/-- The loop at its start, with one arena size for the ingest and the pipeline. -/
def arenaStart (arenaBytes : UInt64) (udcomphdrBytes : UInt8) (mcsSet : List Nat)
    (memory : DeviceMemory F Llr) : DriverState F Llr :=
  { driverStart udcomphdrBytes mcsSet memory with
    world := { oiIngestOpen arenaBytes udcomphdrBytes mcsSet memory with
      pipeline := { oiP2Setup mcsSet memory with arenaBytes := arenaBytes.toNat } } }

/-- The runs of a driver, with all that was placed in the arena. -/
def arenaSystem (driver : Driver) (kernels : PhyKernels F Llr) (mcsIndex : Nat)
    (arenaBytes : UInt64) (udcomphdrBytes : UInt8) (mcsSet : List Nat)
    (memory : DeviceMemory F Llr) : TransitionSystem (ArenaRun F Llr) (Iteration F) where
  init run := run = { state := arenaStart arenaBytes udcomphdrBytes mcsSet memory, placed := [] }
  step before iteration after :=
    driver.continues before.state ∧ Scheduled kernels before.state iteration ∧
      driverIteration driver kernels mcsIndex before.state iteration = some after.state ∧
      after.placed = before.placed ++ pollPlaced before.state.world iteration.poll.received

/-- After this poll the loop launches the slot it was in before. -/
def DriverState.Launches (state : DriverState F Llr) (polled : IngestWorld F Llr) : Prop :=
  oiIngestHasLastSlotId polled.ingest = true ∧ state.havePrevSlot = true ∧
    oiIngestLastSlotId polled.ingest ≠ state.prevSlotId

/-- All that is placed in the arena when a turn comes to its launch. -/
def ArenaRun.placedAtLaunch (run : ArenaRun F Llr) (iteration : Iteration F) :
    List PlacedFrame :=
  run.placed ++ pollPlaced run.state.world iteration.poll.received

/-- If the turn launches a slot, no frame delivered for that slot was followed by a frame
whose region overlaps its own. -/
def ArenaRun.KeepsApart (run : ArenaRun F Llr) (iteration : Iteration F) : Prop :=
  ∀ polled, oiIngestPoll run.state.world iteration.poll = some polled →
    run.state.Launches polled →
    (run.placedAtLaunch iteration).Pairwise fun frame later =>
      frame.DeliveredFor run.state.prevSlotId → frame.Apart later

/-- If the turn launches a slot, the arena bytes of every descriptor delivered for that slot
are the frame it was delivered with. -/
def ArenaRun.BytesValid (run : ArenaRun F Llr) (iteration : Iteration F) : Prop :=
  ∀ polled, oiIngestPoll run.state.world iteration.poll = some polled →
    run.state.Launches polled →
    ∀ frame ∈ run.placedAtLaunch iteration, ∀ desc, frame.delivered = some desc →
      desc.slotId = run.state.prevSlotId → frameBytes polled.pipeline.arena desc = frame.bytes

theorem placedSound_of_reaches {run : ArenaRun F Llr}
    (reaches : (arenaSystem driver kernels mcsIndex arenaBytes udcomphdrBytes mcsSet
      memory).Reaches (fun _ iteration => FramesFit iteration.poll.received) run) :
    PlacedSound run.state.world.pipeline.arena run.placed := by
  refine reaches.invariant (fun run => PlacedSound run.state.world.pipeline.arena run.placed) ?_ ?_
  · rintro _ rfl
    exact ⟨fun i frame found => by simp at found, by simp⟩
  · rintro before iteration after sound fit ⟨_, _, turn, placed⟩
    obtain ⟨polled, handled, _⟩ := advances_oiIngestPoll before.state.world iteration.poll
    rw [driverIteration_arena turn handled, placed]
    exact sound.oiIngestPoll fit handled

/-- In every run of either driver, for every arena size, whenever a turn launches a slot for
whose frames the regions were not reused, the arena bytes of every descriptor delivered for
the slot are the frame it was delivered with. -/
theorem arena_bytes_valid_at_launch {run : ArenaRun F Llr}
    (reaches : (arenaSystem driver kernels mcsIndex arenaBytes udcomphdrBytes mcsSet
      memory).Reaches (fun _ iteration => FramesFit iteration.poll.received) run)
    {iteration : Iteration F} (fit : FramesFit iteration.poll.received)
    (keepsApart : run.KeepsApart iteration) : run.BytesValid iteration := by
  intro polled handled launches frame member desc delivered slot
  have sound := (placedSound_of_reaches reaches).oiIngestPoll fit handled
  obtain ⟨i, found⟩ := List.mem_iff_getElem?.mp member
  obtain ⟨offset, length⟩ := sound.region frame member desc delivered
  have apart : ∀ (j : Nat) (later : PlacedFrame), i < j →
      (run.placedAtLaunch iteration)[j]? = some later → frame.Apart later := by
    intro j later less foundLater
    obtain ⟨inside, rfl⟩ := List.getElem?_eq_some_iff.mp found
    obtain ⟨insideLater, rfl⟩ := List.getElem?_eq_some_iff.mp foundLater
    exact List.pairwise_iff_getElem.mp (keepsApart polled handled launches) i j inside insideLater
      less ⟨desc, delivered, slot⟩
  have bytes := sound.holds i frame found apart
  refine List.ext_getElem? fun k => ?_
  rw [frameBytes, offset, length]
  rcases Nat.lt_or_ge k frame.bytes.length with inside | outside
  · rw [bytes k inside, List.getElem?_map, List.getElem?_range inside]
    rfl
  · rw [List.getElem?_eq_none (by simpa using outside), List.getElem?_eq_none outside]

end Runs

/-! ### Two frames in two polls -/

/-- A frame of one symbol with some payload, received by a device that accepts every write. -/
private def paddedReceived (padding : Nat) (symbol : UInt8) : Received where
  bytes := List.replicate 12 0 ++ [0xAE, 0xFE, 0x10, 0x00, 0, 0, 0, 0, 0, 0, 0x10, 0, 0, symbol,
    0, 0, 0, 0] ++ List.replicate padding 0
  writeOk := true
  feedOk := true
  rxTsNs := 0

/-- A turn that polls one such frame. -/
private def paddedTurn (padding : Nat) (symbol : UInt8) (order : List (K1Write Unit)) :
    Iteration Unit where
  poll := { received := [paddedReceived padding symbol], tpDrops := 0, tpPackets := 1 }
  fails := none
  order := order
  recordOk := true

/-- The runs of the bridge with an arena of 9000 bytes. -/
private def smallArena : TransitionSystem (ArenaRun Unit Unit) (Iteration Unit) :=
  arenaSystem (.gpuPhySeamBridge (-1)) noKernels 4 9000 0 [4] (memoryOf 0)

private theorem framesFit_paddedTurn {padding : Nat} (small : padding ≤ 8970) (symbol : UInt8)
    (order : List (K1Write Unit)) : FramesFit (paddedTurn padding symbol order).poll.received := by
  intro received member
  obtain rfl := List.mem_singleton.mp member
  simp only [paddedReceived, List.length_append, List.length_replicate, List.length_cons,
    List.length_nil, recvBufBytes]
  omega

/-- The run after its first turn. -/
private def firstRun (padding : Nat) (symbol : UInt8) : ArenaRun Unit Unit where
  state := (driverIteration (.gpuPhySeamBridge (-1)) noKernels 4
    (arenaStart 9000 0 [4] (memoryOf 0)) (paddedTurn padding symbol [])).getD
      (arenaStart 9000 0 [4] (memoryOf 0))
  placed := pollPlaced (arenaStart 9000 0 [4] (memoryOf 0)).world [paddedReceived padding symbol]

private theorem reaches_firstRun {padding : Nat} (small : padding ≤ 8970) (symbol : UInt8) :
    smallArena.Reaches (fun _ iteration => FramesFit iteration.poll.received)
      (firstRun padding symbol) := by
  obtain ⟨state, turn⟩ := driverIteration_returns (.gpuPhySeamBridge (-1)) noKernels 4
    (arenaStart 9000 0 [4] (memoryOf 0)) (paddedTurn padding symbol [])
  refine .next (.start rfl) (framesFit_paddedTurn small symbol [])
    ⟨.inl (by decide), ?_, ?_, (List.nil_append _).symm⟩
  · intro polled _ tracking
    exact absurd tracking (by decide)
  · rw [firstRun, turn]
    rfl

private theorem tracked_firstRun : (firstRun 0 13).state.havePrevSlot = true ∧
    (firstRun 0 13).state.prevSlotId = 0 := ⟨rfl, rfl⟩

/-- Two small frames of consecutive slots lie behind each other when the first is launched. -/
theorem arena_bytes_valid_two_small_frames :
    (∃ polled, oiIngestPoll (firstRun 0 13).state.world (paddedTurn 0 0 []).poll = some polled ∧
        (firstRun 0 13).state.Launches polled) ∧
      (firstRun 0 13).BytesValid (paddedTurn 0 0 []) := by
  constructor
  · obtain ⟨polled, handled, _⟩ :=
      advances_oiIngestPoll (firstRun 0 13).state.world (paddedTurn 0 0 []).poll
    have facts : (oiIngestPoll (firstRun 0 13).state.world (paddedTurn 0 0 []).poll).map
        (fun world => world.ingest.preparseState) = some ⟨true, 0, 1⟩ := rfl
    rw [handled, Option.map_some, Option.some.injEq] at facts
    refine ⟨polled, handled, ?_, tracked_firstRun.1, ?_⟩
    · rw [oiIngestHasLastSlotId, facts]
    · rw [oiIngestLastSlotId, facts, tracked_firstRun.2]
      decide
  · refine arena_bytes_valid_at_launch (reaches_firstRun (Nat.zero_le _) 13)
      (framesFit_paddedTurn (Nat.zero_le _) 0 []) fun polled _ _ => ?_
    have regions : ((firstRun 0 13).placedAtLaunch (paddedTurn 0 0 [])).map
        (fun frame => (frame.offset, frame.bytes.length)) = [(0, 30), (30, 30)] := rfl
    have apart : (((firstRun 0 13).placedAtLaunch (paddedTurn 0 0 [])).map
        fun frame => (frame.offset, frame.bytes.length)).Pairwise
          fun first second => first.1 + first.2 ≤ second.1 := by
      rw [regions]
      decide
    exact (List.pairwise_map.mp apart).imp fun before _ => .inl before

/-- In an arena of 9000 bytes, a frame of 9000 bytes of slot 1, whose arrival makes the bridge
launch slot 0, has been written over the frame of slot 0. -/
theorem arena_bytes_overwritten_before_launch :
    ¬ ∀ (arenaBytes : UInt64), 9000 ≤ arenaBytes → ∀ (run : ArenaRun Unit Unit)
      (iteration : Iteration Unit),
      (arenaSystem (.gpuPhySeamBridge (-1)) noKernels 4 arenaBytes 0 [4] (memoryOf 0)).Reaches
        (fun _ iteration => FramesFit iteration.poll.received) run →
      FramesFit iteration.poll.received → run.BytesValid iteration := by
  intro claim
  have valid := claim 9000 (by decide) _ (paddedTurn 8970 0 [])
    (reaches_firstRun (Nat.zero_le _) 13) (framesFit_paddedTurn (Nat.le_refl _) 0 [])
  obtain ⟨polled, handled, _⟩ :=
    advances_oiIngestPoll (firstRun 0 13).state.world (paddedTurn 8970 0 []).poll
  have facts : (oiIngestPoll (firstRun 0 13).state.world (paddedTurn 8970 0 []).poll).map
      (fun world => (world.ingest.preparseState, world.pipeline.arena 25)) =
        some (⟨true, 0, 1⟩, 0) := by decide +kernel
  have placed : ((firstRun 0 13).placedAtLaunch (paddedTurn 8970 0 []))[0]?.map
      (fun frame => (frame.delivered.map fun desc =>
        (desc.slotId, desc.arenaOffset, desc.frameLen), frame.bytes[25]?)) =
        some (some (0, 0, 30), some 13) := by decide +kernel
  rw [handled, Option.map_some, Option.some.injEq, Prod.mk.injEq] at facts
  obtain ⟨frame, found, values⟩ := Option.map_eq_some_iff.mp placed
  rw [Prod.mk.injEq, Option.map_eq_some_iff] at values
  obtain ⟨⟨desc, delivered, fields⟩, symbol⟩ := values
  simp only [Prod.mk.injEq] at fields
  obtain ⟨slotId, offset, length⟩ := fields
  have launches : (firstRun 0 13).state.Launches polled := by
    refine ⟨?_, tracked_firstRun.1, ?_⟩
    · rw [oiIngestHasLastSlotId, facts.1]
    · rw [oiIngestLastSlotId, facts.1, tracked_firstRun.2]
      decide
  have same := valid polled handled launches frame (List.mem_of_getElem? found) desc delivered
    (slotId.trans tracked_firstRun.2.symm)
  rw [← same, frameBytes, offset, length, List.getElem?_map,
    List.getElem?_range (by decide), Option.map_some] at symbol
  simp [facts.2] at symbol

end RanInline.Ingest
