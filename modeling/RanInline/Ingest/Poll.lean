/-
Module: RanInline.Ingest.Poll
Purpose: oi_ingest_poll of oi_ingest_af_packet.cpp: every received frame is placed in the
  arena, parsed and fed to the pipeline, and counted.
Trusted boundary: none
Main exports: OiIngestState, IngestWorld, Received, ingestFrame, oiIngestPoll,
  oiIngestLastSlotId, ingestFrame_effect
-/
import RanInline.Oran.Grammar
import RanInline.Phy.Pipeline

namespace RanInline.Ingest

open RanInline.Oran RanInline.Phy

/-- `oi_ingest_counters`. -/
structure OiIngestCounters where
  framesSeen : Nat
  ethertypeMatched : Nat
  parseFailed : Nat
  delivered : Nat
  feedBackpressure : Nat
  socketDrops : Nat
deriving DecidableEq, Repr

/-- `oi_ingest_rx_log_entry`. -/
structure OiIngestRxLogEntry where
  reapSeq : Nat
  rxTsNs : Nat
  arenaOffset : UInt32
deriving DecidableEq, Repr

/-- `oi_ingest_state`, without the sockets. -/
structure OiIngestState where
  arenaBytes : UInt64
  arenaWriteOffset : UInt64
  udcomphdrBytes : UInt8
  preparseState : OiOranPreparseState
  counters : OiIngestCounters
  reapSeqNext : Nat
  rxLog : List OiIngestRxLogEntry
deriving DecidableEq, Repr

/-- The ingest, its pipeline and the process statics.  The last two fields are the history
of the run: the status of every arena write, and the slot number of every accepted
frame. -/
structure IngestWorld (F Llr : Type) where
  ingest : OiIngestState
  statics : P2Statics
  pipeline : OiP2Pipeline F Llr
  arenaWrites : List OiP2Status
  accepted : List UInt32

/-- One frame handed out by `recvmsg`, with the outcomes of the device writes made for it
and the clock reading. -/
structure Received where
  bytes : List UInt8
  writeOk : Bool
  feedOk : Bool
  rxTsNs : Nat
deriving DecidableEq, Repr

section Frame

variable {F Llr : Type}

/-- Where the next frame goes: the cursor starts over when the frame does not fit before
`arena_bytes`. -/
def placeOffset (ingest : OiIngestState) (n : Nat) : UInt64 :=
  if ingest.arenaWriteOffset + UInt64.ofNat n > ingest.arenaBytes then 0
  else ingest.arenaWriteOffset

/-- Count a frame that cannot be delivered. -/
def countParseFailed (ingest : OiIngestState) : OiIngestState :=
  { ingest with
    counters := { ingest.counters with parseFailed := ingest.counters.parseFailed + 1 } }

/-- The feed of a parsed frame, and its accounting. -/
def feedFrame (world : IngestWorld F Llr) (thisOffset : UInt64) (desc : OiFrameDesc)
    (received : Received) : IngestWorld F Llr :=
  let (fst, statics, pipeline) :=
    oiP2Feed received.feedOk world.statics world.pipeline desc
  let ingest := world.ingest
  let world := { world with statics, pipeline }
  if fst = .errArenaOverflow then
    { world with
      ingest := { ingest with
        counters := { ingest.counters with
          feedBackpressure := ingest.counters.feedBackpressure + 1 } } }
  else if fst ≠ .ok then { world with ingest := countParseFailed ingest }
  else
    { world with
      ingest := { ingest with
        counters := { ingest.counters with delivered := ingest.counters.delivered + 1 }
        reapSeqNext := ingest.reapSeqNext + 1
        rxLog := ingest.rxLog ++
          [{ reapSeq := ingest.reapSeqNext
             rxTsNs := received.rxTsNs
             arenaOffset := UInt32.ofNat thisOffset.toNat }] } }

/-- The descriptor that `oi_ingest_poll` feeds for a parsed frame. -/
def polledDesc (outcome : PreparseOutcome) (thisOffset : UInt64) (n : Nat) : OiFrameDesc :=
  { outcome.outDesc with arenaOffset := thisOffset, frameLen := UInt32.ofNat n }

/-- The parse of a frame that is in the arena.  `none` is a read outside the frame. -/
def parseFrame (world : IngestWorld F Llr) (thisOffset : UInt64) (received : Received) :
    Option (IngestWorld F Llr) := do
  let n := received.bytes.length
  let outcome ← oiOranPreparseFrame world.ingest.preparseState received.bytes n
    world.ingest.udcomphdrBytes .zero
  let world :=
    { world with ingest := { world.ingest with preparseState := outcome.state } }
  if outcome.status ≠ .ok then
    return { world with ingest := countParseFailed world.ingest }
  let desc := polledDesc outcome thisOffset n
  return feedFrame { world with accepted := world.accepted ++ [desc.slotId] } thisOffset desc
    received

/-- One turn of the receive loop. -/
def ingestFrame (world : IngestWorld F Llr) (received : Received) :
    Option (IngestWorld F Llr) :=
  let n := received.bytes.length
  let ingest := { world.ingest with
    counters := { world.ingest.counters with
      ethertypeMatched := world.ingest.counters.ethertypeMatched + 1 } }
  let thisOffset := placeOffset ingest n
  let (wst, pipeline) :=
    oiP2WriteArena received.writeOk world.pipeline thisOffset received.bytes
  let world := { world with pipeline, arenaWrites := world.arenaWrites ++ [wst] }
  if wst ≠ .ok then
    -- the cursor stays where the failed write was tried
    some { world with ingest := countParseFailed { ingest with arenaWriteOffset := thisOffset } }
  else
    parseFrame
      { world with
        ingest := { ingest with arenaWriteOffset := thisOffset + UInt64.ofNat n } }
      thisOffset received

/-- The frames queued when a poll is made, and the packet statistics it reads. -/
structure Poll where
  received : List Received
  tpDrops : Nat
  tpPackets : Nat
deriving DecidableEq, Repr

/-- The packet statistics at the end of a poll. -/
def readStatistics (poll : Poll) (world : IngestWorld F Llr) : IngestWorld F Llr :=
  { world with
    ingest := { world.ingest with
      counters := { world.ingest.counters with
        socketDrops := world.ingest.counters.socketDrops + poll.tpDrops
        framesSeen := world.ingest.counters.framesSeen + poll.tpPackets } } }

/-- `oi_ingest_poll`: the receive loop until the queue is empty, then the statistics. -/
def oiIngestPoll (world : IngestWorld F Llr) (poll : Poll) : Option (IngestWorld F Llr) := do
  let world ← poll.received.foldlM ingestFrame world
  return readStatistics poll world

theorem oiIngestPoll_eq {world drained : IngestWorld F Llr} {poll : Poll}
    (handled : poll.received.foldlM ingestFrame world = some drained) :
    oiIngestPoll world poll = some (readStatistics poll drained) := by
  rw [oiIngestPoll, handled]
  rfl

/-- `oi_ingest_last_slot_id`. -/
def oiIngestLastSlotId (ingest : OiIngestState) : UInt32 :=
  ingest.preparseState.runningSlotId

/-- `oi_ingest_has_last_slot_id`. -/
def oiIngestHasLastSlotId (ingest : OiIngestState) : Bool :=
  ingest.preparseState.hasLastSymbol

/-- `oi_ingest_open_af_packet` on a pipeline that was just set up. -/
def oiIngestOpen (arenaBytes : UInt64) (udcomphdrBytes : UInt8) (mcsSet : List Nat)
    (memory : DeviceMemory F Llr) : IngestWorld F Llr where
  ingest :=
    { arenaBytes := arenaBytes
      arenaWriteOffset := 0
      udcomphdrBytes := udcomphdrBytes
      preparseState := .zero
      counters := ⟨0, 0, 0, 0, 0, 0⟩
      reapSeqNext := 0
      rxLog := [] }
  statics := { nofDescsBySlot := fun _ => 0 }
  pipeline := oiP2Setup mcsSet memory
  arenaWrites := []
  accepted := []

/-! ### The effect of one frame -/

/-- The arena write made for a frame. -/
def frameWrite (world : IngestWorld F Llr) (received : Received) :
    OiP2Status × OiP2Pipeline F Llr :=
  oiP2WriteArena received.writeOk world.pipeline
    (placeOffset world.ingest received.bytes.length) received.bytes

/-- The slot counter and the history of accepted frames after a frame: unchanged, or
advanced by the frame's symbol. -/
def Accounts (before after : IngestWorld F Llr) : Prop :=
  (after.ingest.preparseState = before.ingest.preparseState ∧
      after.accepted = before.accepted) ∨
    ∃ symbolId, after.ingest.preparseState = before.ingest.preparseState.advance symbolId ∧
      after.accepted = before.accepted ++ [after.ingest.preparseState.runningSlotId]

/-- The parts of the state that the parse and the feed of a frame leave alone. -/
structure SameArena (before after : IngestWorld F Llr) : Prop where
  arenaBytes : after.ingest.arenaBytes = before.ingest.arenaBytes
  cursor : after.ingest.arenaWriteOffset = before.ingest.arenaWriteOffset
  pipelineBytes : after.pipeline.arenaBytes = before.pipeline.arenaBytes
  arenaWrites : after.arenaWrites = before.arenaWrites
  mcsSet : after.pipeline.mcsSet = before.pipeline.mcsSet

theorem feedFrame_effect (world : IngestWorld F Llr) (thisOffset : UInt64)
    (desc : OiFrameDesc) (received : Received) :
    SameArena world (feedFrame world thisOffset desc received) ∧
      (feedFrame world thisOffset desc received).ingest.preparseState =
        world.ingest.preparseState ∧
      (feedFrame world thisOffset desc received).accepted = world.accepted := by
  have arenaBytes := (oiP2Feed_arena received.feedOk world.statics world.pipeline desc).1
  have mcsSet := oiP2Feed_mcsSet received.feedOk world.statics world.pipeline desc
  simp only [feedFrame]
  split_ifs <;> exact ⟨⟨rfl, rfl, arenaBytes, rfl, mcsSet⟩, rfl, rfl⟩

theorem parseFrame_effect (world : IngestWorld F Llr) (thisOffset : UInt64)
    (received : Received) :
    ∃ after, parseFrame world thisOffset received = some after ∧ SameArena world after ∧
      Accounts world after := by
  rcases oiOranPreparseFrame_cases world.ingest.preparseState .zero world.ingest.udcomphdrBytes
    received.bytes with ⟨_, call⟩ | ⟨_, _, call⟩ | ⟨hdr, accepts, call⟩
  · refine ⟨{ world with ingest := countParseFailed world.ingest }, ?_, ?_, ?_⟩
    · simp [parseFrame, call]
    · exact ⟨rfl, rfl, rfl, rfl, rfl⟩
    · exact .inl ⟨rfl, rfl⟩
  · refine ⟨{ world with ingest := countParseFailed world.ingest }, ?_, ?_, ?_⟩
    · simp [parseFrame, call]
    · exact ⟨rfl, rfl, rfl, rfl, rfl⟩
    · exact .inl ⟨rfl, rfl⟩
  · obtain ⟨same, counter, accepted⟩ := feedFrame_effect
      { world with
        ingest := { world.ingest with
          preparseState := world.ingest.preparseState.advance
            (UInt8.ofNat (byteVal received.bytes (hdr + 11) % 64)) }
        accepted := world.accepted ++
          [(headerDesc world.ingest.preparseState .zero world.ingest.udcomphdrBytes
            received.bytes hdr).slotId] }
      thisOffset
      { headerDesc world.ingest.preparseState .zero world.ingest.udcomphdrBytes received.bytes
          hdr with
        arenaOffset := thisOffset
        frameLen := UInt32.ofNat received.bytes.length }
      received
    refine ⟨_, by simp [parseFrame, polledDesc, call], ⟨same.arenaBytes, same.cursor,
      same.pipelineBytes, same.arenaWrites, same.mcsSet⟩, .inr ⟨_, counter, ?_⟩⟩
    rw [accepted, counter]
    rfl

/-- Every frame is handled, whatever its bytes: the arena write is recorded, the cursor
moves past a write that succeeded, and the rest leaves the arena alone. -/
theorem ingestFrame_effect (world : IngestWorld F Llr) (received : Received) :
    ∃ after, ingestFrame world received = some after ∧
      after.ingest.arenaBytes = world.ingest.arenaBytes ∧
      after.pipeline.arenaBytes = world.pipeline.arenaBytes ∧
      after.arenaWrites = world.arenaWrites ++ [(frameWrite world received).1] ∧
      ((frameWrite world received).1 = .ok →
        after.ingest.arenaWriteOffset =
          placeOffset world.ingest received.bytes.length +
            UInt64.ofNat received.bytes.length) ∧
      after.pipeline.mcsSet = world.pipeline.mcsSet ∧
      Accounts world after := by
  obtain ⟨_, _, arenaBytes⟩ := oiP2WriteArena_frame received.writeOk world.pipeline
    (placeOffset world.ingest received.bytes.length) received.bytes
  by_cases written : (frameWrite world received).1 = .ok
  · obtain ⟨after, parsed, same, accounts⟩ := parseFrame_effect
      { world with
        pipeline := (frameWrite world received).2
        arenaWrites := world.arenaWrites ++ [(frameWrite world received).1]
        ingest := { world.ingest with
          counters := { world.ingest.counters with
            ethertypeMatched := world.ingest.counters.ethertypeMatched + 1 }
          arenaWriteOffset := placeOffset world.ingest received.bytes.length +
            UInt64.ofNat received.bytes.length } }
      (placeOffset world.ingest received.bytes.length) received
    refine ⟨after, ?_, same.arenaBytes, same.pipelineBytes.trans arenaBytes, same.arenaWrites,
      fun _ => same.cursor, same.mcsSet.trans (oiP2WriteArena_mcsSet ..), accounts⟩
    rw [← parsed, ingestFrame]
    exact if_neg (not_not.mpr written)
  · refine ⟨_, if_pos written, rfl, arenaBytes, rfl, fun ok => absurd ok written,
      oiP2WriteArena_mcsSet .., .inl ⟨rfl, rfl⟩⟩

end Frame

end RanInline.Ingest
