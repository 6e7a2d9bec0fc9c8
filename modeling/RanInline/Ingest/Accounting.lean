/-
Module: RanInline.Ingest.Accounting
Purpose: What the counters of oi_ingest_poll account for.  Every received frame ends in one of
  the five exits of the loop body; the counters, the receive log, the descriptor ring and the
  write cursor after any run of polls.
Trusted boundary: none
Main exports: deliveredDescs, enterRing, runPlaced, IngestAccounts, ingest_accounts
-/
import RanInline.Ingest.ArenaReuse

namespace RanInline.Ingest

open RanInline.Lib RanInline.Oran RanInline.Phy

variable {F Llr : Type} {world after polled opened : IngestWorld F Llr} {received : Received}

/-! ### The exits of one turn -/

/-- The frames that were counted but not delivered. -/
def OiIngestCounters.undelivered (counters : OiIngestCounters) : Nat :=
  counters.parseFailed + counters.feedBackpressure

/-- The descriptor ring, with the number of descriptors fed for each slot. -/
structure RingState where
  nofDescsBySlot : UInt32 → Nat
  descRing : Nat → OiFrameDesc

/-- The ring once a descriptor was accepted. -/
def enterRing (ring : RingState) (desc : OiFrameDesc) : RingState where
  nofDescsBySlot := Function.update ring.nofDescsBySlot desc.slotId
    (ring.nofDescsBySlot desc.slotId + 1)
  descRing := Function.update ring.descRing (ring.nofDescsBySlot desc.slotId) desc

/-- The ring of the pipeline that the ingest feeds. -/
def IngestWorld.ring (world : IngestWorld F Llr) : RingState where
  nofDescsBySlot := world.statics.nofDescsBySlot
  descRing := world.pipeline.descRing

/-- A frame is counted as not delivered, and leaves no other trace. -/
structure FrameLost (before after : IngestWorld F Llr) : Prop where
  delivered : after.ingest.counters.delivered = before.ingest.counters.delivered
  undelivered : after.ingest.counters.undelivered = before.ingest.counters.undelivered + 1
  reapSeqNext : after.ingest.reapSeqNext = before.ingest.reapSeqNext
  rxLog : after.ingest.rxLog = before.ingest.rxLog
  ring : after.ring = before.ring

/-- A frame is counted as delivered, logged and entered in the ring. -/
structure FrameDelivered (desc : OiFrameDesc) (before after : IngestWorld F Llr) : Prop where
  delivered : after.ingest.counters.delivered = before.ingest.counters.delivered + 1
  undelivered : after.ingest.counters.undelivered = before.ingest.counters.undelivered
  reapSeqNext : after.ingest.reapSeqNext = before.ingest.reapSeqNext + 1
  rxLog : ∃ entry : OiIngestRxLogEntry, entry.reapSeq = before.ingest.reapSeqNext ∧
    after.ingest.rxLog = before.ingest.rxLog ++ [entry]
  ring : after.ring = enterRing before.ring desc

/-- What the feed of a parsed frame comes to. -/
theorem feedFrame_outcome (world : IngestWorld F Llr) (thisOffset : UInt64) (desc : OiFrameDesc)
    (received : Received) :
    (feedFrame world thisOffset desc received).ingest.counters.ethertypeMatched =
        world.ingest.counters.ethertypeMatched ∧
      if (oiP2Feed received.feedOk world.statics world.pipeline desc).1 = .ok then
        FrameDelivered desc world (feedFrame world thisOffset desc received)
      else FrameLost world (feedFrame world thisOffset desc received) := by
  rcases Nat.lt_or_ge (world.statics.nofDescsBySlot desc.slotId)
    world.pipeline.descRingCapacity with room | full
  · cases device : received.feedOk with
    | true =>
        simp only [feedFrame, device, oiP2Feed_ok room, if_true]
        exact ⟨rfl, ⟨rfl, rfl, rfl, ⟨_, rfl, rfl⟩, rfl⟩⟩
    | false =>
        simp only [feedFrame, device, oiP2Feed_device room, reduceCtorEq, if_false]
        refine ⟨rfl, ⟨rfl, ?_, rfl, rfl, rfl⟩⟩
        exact Nat.add_right_comm _ _ _
  · simp only [feedFrame, oiP2Feed_overflow received.feedOk full, reduceCtorEq, if_false]
    exact ⟨rfl, ⟨rfl, rfl, rfl, rfl, rfl⟩⟩

/-- The five exits of one turn: the frame is counted once, and it is delivered exactly when
it is placed with a descriptor. -/
theorem ingestFrame_outcome (handled : ingestFrame world received = some after) :
    after.ingest.counters.ethertypeMatched = world.ingest.counters.ethertypeMatched + 1 ∧
      match (placedFrame world received).bind (·.delivered) with
      | some desc => FrameDelivered desc world after
      | none => FrameLost world after := by
  have ring : (writtenWorld world received).ring = world.ring := by
    obtain ⟨descRing, _⟩ := oiP2WriteArena_frame received.writeOk world.pipeline
      (placeOffset world.ingest received.bytes.length) received.bytes
    exact congrArg (RingState.mk _) descRing
  rw [placedFrame]
  by_cases written : (frameWrite world received).1 = .ok
  · rw [ingestFrame_of_written written] at handled
    rw [if_pos written, Option.bind_some]
    by_cases accepted : ∃ hdr, Accepts received.bytes world.ingest.udcomphdrBytes.toNat hdr
    · obtain ⟨hdr, accepts⟩ := accepted
      have parsed := (parseFrame_of_accepts (writtenWorld world received)
        accepts).symm.trans handled
      rw [← Option.some.inj parsed, deliveredDesc_of_accepts accepts]
      obtain ⟨counted, outcome⟩ := feedFrame_outcome
        { writtenWorld world received with
          ingest := { (writtenWorld world received).ingest with
            preparseState := (writtenWorld world received).ingest.preparseState.advance
              (UInt8.ofNat (byteVal received.bytes (hdr + 11) % 64)) }
          accepted := (writtenWorld world received).accepted ++
            [(acceptedDesc (writtenWorld world received) received
              (placeOffset world.ingest received.bytes.length) hdr).slotId] }
        (placeOffset world.ingest received.bytes.length)
        (acceptedDesc (writtenWorld world received) received
          (placeOffset world.ingest received.bytes.length) hdr) received
      refine ⟨counted, ?_⟩
      change if (oiP2Feed received.feedOk world.statics (frameWrite world received).2
        (acceptedDesc world received (placeOffset world.ingest received.bytes.length) hdr)).1 = .ok
        then _ else _ at outcome
      split_ifs at outcome with fed
      · rw [if_pos fed]
        exact ⟨outcome.delivered, outcome.undelivered, outcome.reapSeqNext, outcome.rxLog,
          outcome.ring.trans (congrArg (enterRing · _) ring)⟩
      · rw [if_neg fed]
        exact ⟨outcome.delivered, outcome.undelivered, outcome.reapSeqNext, outcome.rxLog,
          outcome.ring.trans ring⟩
    · have rejected := not_exists.mp accepted
      have parsed := (parseFrame_of_rejected (writtenWorld world received) _
        rejected).2.symm.trans handled
      rw [(parseFrame_of_rejected world 0 rejected).1, ← Option.some.inj parsed]
      exact ⟨rfl, ⟨rfl, Nat.add_right_comm _ _ _, rfl, rfl, ring⟩⟩
  · have failed := (if_pos written).symm.trans handled
    rw [if_neg written, ← Option.some.inj failed]
    exact ⟨rfl, ⟨rfl, Nat.add_right_comm _ _ _, rfl, rfl, ring⟩⟩

/-! ### Whole runs -/

/-- The descriptors of the frames that were delivered, in order. -/
def deliveredDescs (placed : List PlacedFrame) : List OiFrameDesc :=
  placed.filterMap (·.delivered)

/-- What a sequence of polls places in the arena. -/
def runPlaced (world : IngestWorld F Llr) : List Poll → List PlacedFrame
  | [] => []
  | poll :: polls =>
      pollPlaced world poll.received ++
        (oiIngestPoll world poll).elim [] fun next => runPlaced next polls

/-- The accounts of an ingest that was opened as `opened`, received `matched` frames and
placed `placed` in the arena. -/
structure IngestAccounts (opened : IngestWorld F Llr) (matched : Nat)
    (placed : List PlacedFrame) (world : IngestWorld F Llr) : Prop where
  arenaBytes : world.ingest.arenaBytes = opened.ingest.arenaBytes
  matched : world.ingest.counters.ethertypeMatched = matched
  outcomes : world.ingest.counters.delivered + world.ingest.counters.parseFailed +
    world.ingest.counters.feedBackpressure = world.ingest.counters.ethertypeMatched
  delivered : world.ingest.counters.delivered = (deliveredDescs placed).length
  reapSeqNext : world.ingest.reapSeqNext = world.ingest.counters.delivered
  rxLog : world.ingest.rxLog.map (·.reapSeq) = List.range world.ingest.counters.delivered
  ring : world.ring = (deliveredDescs placed).foldl enterRing opened.ring
  cursor : world.ingest.arenaWriteOffset ≤ world.ingest.arenaBytes
  written : (world.arenaWrites.filter (· = .ok)).length = placed.length
  inside : ∀ frame ∈ placed,
    frame.offset + frame.bytes.length ≤ world.ingest.arenaBytes.toNat
  arena : world.pipeline.arena =
    placed.foldl (fun arena frame => writeBytes arena frame.offset frame.bytes)
      opened.pipeline.arena

/-- The cursor is never past the budget, nor past the pipeline's arena. -/
structure CursorBounded (world : IngestWorld F Llr) : Prop where
  budget : recvBufBytes ≤ world.ingest.arenaBytes.toNat
  pipelineBytes : world.pipeline.arenaBytes = p2ArenaBytes
  cursor : world.ingest.arenaWriteOffset.toNat ≤ world.ingest.arenaBytes.toNat
  reached : world.ingest.arenaWriteOffset.toNat ≤ p2ArenaBytes

/-- Where a frame goes when the sums cannot wrap: a place that holds all of it. -/
theorem CursorBounded.placeOffset_spec (bounded : CursorBounded world) {n : Nat}
    (small : n ≤ recvBufBytes) :
    (placeOffset world.ingest n).toNat + n ≤ world.ingest.arenaBytes.toNat ∧
      (placeOffset world.ingest n).toNat ≤ world.ingest.arenaWriteOffset.toNat ∧
      (placeOffset world.ingest n + UInt64.ofNat n).toNat =
        (placeOffset world.ingest n).toNat + n := by
  obtain ⟨budget, _, cursor, reached⟩ := bounded
  rw [recvBufBytes] at small budget
  rw [p2ArenaBytes] at reached
  have sum : ∀ offset : UInt64, offset.toNat ≤ 4 * 1024 * 1024 →
      (offset + UInt64.ofNat n).toNat = offset.toNat + n := by
    intro offset reached
    rw [UInt64.toNat_add, UInt64.toNat_ofNat']
    omega
  rw [placeOffset]
  split_ifs with beyond
  · have zero := sum 0 (Nat.zero_le _)
    rw [UInt64.toNat_zero] at zero ⊢
    exact ⟨by omega, Nat.zero_le _, zero⟩
  · rw [gt_iff_lt, UInt64.lt_iff_toNat_lt, sum _ reached] at beyond
    exact ⟨by omega, le_refl _, sum _ reached⟩

/-- A write that succeeds lies inside the pipeline's arena. -/
theorem frameWrite_inside (written : (frameWrite world received).1 = .ok) :
    (placeOffset world.ingest received.bytes.length).toNat + received.bytes.length ≤
      world.pipeline.arenaBytes := by
  rw [frameWrite, oiP2WriteArena] at written
  split_ifs at written with beyond accepted
  exact accepted.2

/-- The cursor moves past a write that succeeded, and stays where one failed. -/
theorem ingestFrame_cursor (handled : ingestFrame world received = some after) :
    after.ingest.arenaWriteOffset =
      if (frameWrite world received).1 = .ok then
        placeOffset world.ingest received.bytes.length + UInt64.ofNat received.bytes.length
      else placeOffset world.ingest received.bytes.length := by
  obtain ⟨other, effect, _, _, _, cursor, _⟩ := ingestFrame_effect world received
  obtain rfl : after = other := Option.some.inj (handled.symm.trans effect)
  split_ifs with written
  · exact cursor written
  · have failed := (if_pos written).symm.trans handled
    rw [← Option.some.inj failed]
    rfl

/-- The cursor of the ingest never leaves the arena of the pipeline. -/
structure CursorInside (world : IngestWorld F Llr) : Prop where
  pipelineBytes : world.pipeline.arenaBytes = p2ArenaBytes
  cursor : world.ingest.arenaWriteOffset.toNat ≤ p2ArenaBytes

/-- A frame goes to the cursor or to the start. -/
theorem CursorInside.placeOffset_le (inside : CursorInside world) (n : Nat) :
    (placeOffset world.ingest n).toNat ≤ p2ArenaBytes := by
  rw [placeOffset]
  split_ifs
  · exact Nat.zero_le _
  · exact inside.cursor

theorem CursorInside.ingestFrame (inside : CursorInside world)
    (handled : ingestFrame world received = some after) : CursorInside after := by
  obtain ⟨other, effect, _, pipelineBytes, _⟩ := ingestFrame_effect world received
  obtain rfl : after = other := Option.some.inj (handled.symm.trans effect)
  refine ⟨pipelineBytes.trans inside.pipelineBytes, ?_⟩
  rw [ingestFrame_cursor handled]
  split_ifs with written
  · -- the device has accepted the region, so its end is in the arena
    have accepted := frameWrite_inside written
    rw [inside.pipelineBytes] at accepted
    refine le_trans ?_ accepted
    rw [UInt64.toNat_add, UInt64.toNat_ofNat']
    exact (Nat.mod_le _ _).trans (Nat.add_le_add_left (Nat.mod_le _ _) _)
  · exact inside.placeOffset_le received.bytes.length

theorem CursorBounded.ingestFrame (bounded : CursorBounded world)
    (small : received.bytes.length ≤ recvBufBytes)
    (handled : ingestFrame world received = some after) : CursorBounded after := by
  obtain ⟨other, effect, arenaBytes, _⟩ := ingestFrame_effect world received
  obtain rfl : after = other := Option.some.inj (handled.symm.trans effect)
  obtain ⟨fits, before, sum⟩ := bounded.placeOffset_spec small
  have inside : CursorInside world := ⟨bounded.pipelineBytes, bounded.reached⟩
  have kept := inside.ingestFrame handled
  refine ⟨arenaBytes ▸ bounded.budget, kept.pipelineBytes, ?_, kept.cursor⟩
  rw [ingestFrame_cursor handled, arenaBytes]
  split_ifs
  · exact sum ▸ fits
  · omega

/-- One frame keeps the accounts. -/
theorem IngestAccounts.ingestFrame {matched : Nat} {placed : List PlacedFrame}
    (accounts : IngestAccounts opened matched placed world) (bounded : CursorBounded world)
    (small : received.bytes.length ≤ recvBufBytes)
    (handled : ingestFrame world received = some after) :
    IngestAccounts opened (matched + 1) (placed ++ (placedFrame world received).toList) after := by
  obtain ⟨other, effect, arenaBytes, _, writes, _⟩ := ingestFrame_effect world received
  obtain rfl : after = other := Option.some.inj (handled.symm.trans effect)
  obtain ⟨counted, outcome⟩ := ingestFrame_outcome handled
  have cursor := (bounded.ingestFrame small handled).cursor
  have arena := ingestFrame_arena handled
  have inside : ∀ frame ∈ placed ++ (placedFrame world received).toList,
      frame.offset + frame.bytes.length ≤ after.ingest.arenaBytes.toNat := by
    intro frame member
    rw [arenaBytes]
    rcases List.mem_append.mp member with earlier | new
    · exact accounts.inside frame earlier
    · rw [Option.mem_toList, placedFrame] at new
      split_ifs at new
      cases new
      exact (bounded.placeOffset_spec small).1
  have placedArena : after.pipeline.arena =
      (placed ++ (placedFrame world received).toList).foldl
        (fun arena frame => writeBytes arena frame.offset frame.bytes) opened.pipeline.arena := by
    rw [arena, List.foldl_append, ← accounts.arena]
    cases placedFrame world received <;> rfl
  have written : (after.arenaWrites.filter (· = .ok)).length =
      (placed ++ (placedFrame world received).toList).length := by
    rw [writes, List.filter_append, List.length_append, accounts.written, List.length_append,
      placedFrame]
    split_ifs with ok <;> simp [ok]
  have descs : deliveredDescs (placed ++ (placedFrame world received).toList) =
      deliveredDescs placed ++ ((placedFrame world received).bind (·.delivered)).toList := by
    rw [deliveredDescs, List.filterMap_append]
    cases placedFrame world received with
    | none => rfl
    | some frame => cases delivered : frame.delivered <;> simp [deliveredDescs, delivered]
  have outcomes := accounts.outcomes
  have delivered := accounts.delivered
  cases found : (placedFrame world received).bind (·.delivered) with
  | none =>
      rw [found] at outcome descs
      rw [Option.toList_none, List.append_nil] at descs
      have lost := outcome.undelivered
      simp only [OiIngestCounters.undelivered] at lost
      exact
        { arenaBytes := arenaBytes.trans accounts.arenaBytes
          matched := by rw [counted, accounts.matched]
          outcomes := by rw [counted, outcome.delivered]; omega
          delivered := by rw [outcome.delivered, descs, delivered]
          reapSeqNext := by rw [outcome.reapSeqNext, outcome.delivered, accounts.reapSeqNext]
          rxLog := by rw [outcome.rxLog, outcome.delivered, accounts.rxLog]
          ring := by rw [outcome.ring, descs, accounts.ring]
          cursor := cursor
          written := written
          inside := inside
          arena := placedArena }
  | some desc =>
      rw [found] at outcome descs
      rw [Option.toList_some] at descs
      have kept := outcome.undelivered
      simp only [OiIngestCounters.undelivered] at kept
      obtain ⟨entry, seq, rxLog⟩ := outcome.rxLog
      exact
        { arenaBytes := arenaBytes.trans accounts.arenaBytes
          matched := by rw [counted, accounts.matched]
          outcomes := by rw [counted, outcome.delivered]; omega
          delivered := by rw [outcome.delivered, descs, delivered, List.length_append]; rfl
          reapSeqNext := by rw [outcome.reapSeqNext, outcome.delivered, accounts.reapSeqNext]
          rxLog := by
            rw [rxLog, List.map_append, accounts.rxLog, outcome.delivered, List.range_succ,
              List.map_singleton, seq, accounts.reapSeqNext]
          ring := by rw [outcome.ring, descs, List.foldl_append, ← accounts.ring]; rfl
          cursor := cursor
          written := written
          inside := inside
          arena := placedArena }

/-- Every sequence of frames is handled and keeps the accounts. -/
theorem IngestAccounts.ingestFrames {matched : Nat} {placed : List PlacedFrame}
    {frames : List Received} (accounts : IngestAccounts opened matched placed world)
    (bounded : CursorBounded world)
    (small : ∀ received ∈ frames, received.bytes.length ≤ recvBufBytes) :
    ∃ after, frames.foldlM Ingest.ingestFrame world = some after ∧ CursorBounded after ∧
      IngestAccounts opened (matched + frames.length) (placed ++ pollPlaced world frames)
        after := by
  induction frames generalizing world matched placed with
  | nil =>
      refine ⟨world, rfl, bounded, ?_⟩
      rwa [pollPlaced, List.append_nil]
  | cons received frames inductionHypothesis =>
      obtain ⟨next, handled, _⟩ := ingestFrame_effect world received
      have first := small received List.mem_cons_self
      obtain ⟨after, run, boundedAfter, accountsAfter⟩ := inductionHypothesis
        (accounts.ingestFrame bounded first handled) (bounded.ingestFrame first handled)
        (fun other member => small other (List.mem_cons_of_mem _ member))
      refine ⟨after, ?_, boundedAfter, ?_⟩
      · rw [List.foldlM_cons, handled]
        exact run
      · rw [pollPlaced, handled, Option.elim_some, ← List.append_assoc, List.length_cons,
          Nat.add_comm frames.length, ← Nat.add_assoc]
        exact accountsAfter

/-- Every sequence of polls is handled and keeps the accounts. -/
theorem IngestAccounts.oiIngestPolls {matched : Nat} {placed : List PlacedFrame}
    {polls : List Poll} (accounts : IngestAccounts opened matched placed world)
    (bounded : CursorBounded world)
    (small : ∀ received ∈ polls.flatMap (·.received), received.bytes.length ≤ recvBufBytes) :
    ∃ after, polls.foldlM oiIngestPoll world = some after ∧ CursorBounded after ∧
      IngestAccounts opened (matched + (polls.flatMap (·.received)).length)
        (placed ++ runPlaced world polls) after := by
  induction polls generalizing world matched placed with
  | nil =>
      refine ⟨world, rfl, bounded, ?_⟩
      rwa [runPlaced, List.append_nil]
  | cons poll polls inductionHypothesis =>
      simp only [List.flatMap_cons, List.mem_append, or_imp, forall_and] at small
      obtain ⟨drained, handled, boundedDrained, accountsDrained⟩ :=
        accounts.ingestFrames bounded small.1
      have polled := oiIngestPoll_eq handled
      -- the packet statistics touch two counters that no account reads
      have boundedPolled : CursorBounded (readStatistics poll drained) :=
        ⟨boundedDrained.budget, boundedDrained.pipelineBytes, boundedDrained.cursor,
          boundedDrained.reached⟩
      have accountsPolled : IngestAccounts opened (matched + poll.received.length)
          (placed ++ pollPlaced world poll.received) (readStatistics poll drained) :=
        ⟨accountsDrained.arenaBytes, accountsDrained.matched, accountsDrained.outcomes,
          accountsDrained.delivered, accountsDrained.reapSeqNext, accountsDrained.rxLog,
          accountsDrained.ring, accountsDrained.cursor, accountsDrained.written,
          accountsDrained.inside, accountsDrained.arena⟩
      obtain ⟨after, run, boundedAfter, accountsAfter⟩ :=
        inductionHypothesis accountsPolled boundedPolled small.2
      refine ⟨after, ?_, boundedAfter, ?_⟩
      · rw [List.foldlM_cons, polled]
        exact run
      · rw [runPlaced, polled, Option.elim_some, ← List.append_assoc, List.flatMap_cons,
          List.length_append, ← Nat.add_assoc]
        exact accountsAfter

theorem cursorBounded_open {arenaBytes : UInt64} (budget : recvBufBytes ≤ arenaBytes.toNat)
    (udcomphdrBytes : UInt8) (mcsSet : List Nat) (memory : DeviceMemory F Llr) :
    CursorBounded (oiIngestOpen arenaBytes udcomphdrBytes mcsSet memory) where
  budget := budget
  pipelineBytes := rfl
  cursor := Nat.zero_le _
  reached := Nat.zero_le _

theorem ingestAccounts_open (arenaBytes : UInt64) (udcomphdrBytes : UInt8) (mcsSet : List Nat)
    (memory : DeviceMemory F Llr) :
    IngestAccounts (oiIngestOpen arenaBytes udcomphdrBytes mcsSet memory) 0 []
      (oiIngestOpen arenaBytes udcomphdrBytes mcsSet memory) where
  arenaBytes := rfl
  matched := rfl
  outcomes := rfl
  delivered := rfl
  reapSeqNext := rfl
  rxLog := rfl
  ring := rfl
  cursor := Nat.zero_le arenaBytes.toNat
  written := rfl
  inside := by simp
  arena := rfl

/-- For every arena budget that holds the receive buffer, after any number of polls and any
number of frames of the next one, whatever the frames and the outcomes of their writes and
feeds: every frame is accounted for. -/
theorem ingest_accounts {arenaBytes : UInt64} (budget : recvBufBytes ≤ arenaBytes.toNat)
    (udcomphdrBytes : UInt8) (mcsSet : List Nat) (memory : DeviceMemory F Llr)
    (polls : List Poll) (frames : List Received)
    (small : ∀ received ∈ polls.flatMap (·.received) ++ frames,
      received.bytes.length ≤ recvBufBytes) :
    ∃ between after,
      polls.foldlM oiIngestPoll (oiIngestOpen arenaBytes udcomphdrBytes mcsSet memory) =
        some between ∧
      frames.foldlM ingestFrame between = some after ∧
      IngestAccounts (oiIngestOpen arenaBytes udcomphdrBytes mcsSet memory)
        (polls.flatMap (·.received) ++ frames).length
        (runPlaced (oiIngestOpen arenaBytes udcomphdrBytes mcsSet memory) polls ++
          pollPlaced between frames) after := by
  simp only [List.mem_append, or_imp, forall_and] at small
  obtain ⟨between, polled, bounded, accounts⟩ :=
    (ingestAccounts_open arenaBytes udcomphdrBytes mcsSet memory).oiIngestPolls
      (cursorBounded_open budget udcomphdrBytes mcsSet memory) small.1
  obtain ⟨after, run, _, final⟩ := accounts.ingestFrames bounded small.2
  refine ⟨between, after, polled, run, ?_⟩
  rw [Nat.zero_add, List.nil_append] at final
  rwa [List.length_append]

/-- A frame too short to parse. -/
private def shortReceived (writeOk : Bool) : Received where
  bytes := [0xAE, 0xFE]
  writeOk := writeOk
  feedOk := true
  rxTsNs := 7

/-- An untagged frame of symbol 9 with an empty section. -/
private def bandReceived : Received where
  bytes := List.replicate 12 0 ++
    [0xAE, 0xFE, 0x10, 0x00, 0, 0, 0, 0, 0, 0, 0x10, 0, 0, 9, 0, 0, 0, 0]
  writeOk := true
  feedOk := true
  rxTsNs := 7

private theorem accepts_bandReceived : Accepts bandReceived.bytes 0 14 := by
  refine ⟨.inl ⟨rfl, ?_, ?_⟩, ?_, ?_, ?_, ?_, ?_, ?_⟩ <;> decide

/-- A poll with a failed write and a parse failure. -/
private def lostPoll : Poll where
  received := [shortReceived false, shortReceived true]
  tpDrops := 0
  tpPackets := 2

/-- A poll that fills the ring. -/
private def fillingPoll : Poll where
  received := List.replicate 4096 bandReceived
  tpDrops := 0
  tpPackets := 4096

/-- Behind two frames that were lost, so many frames of the second kind were delivered. -/
private structure Level (count : Nat) (world : IngestWorld Unit Unit) : Prop where
  arenaBytes : world.ingest.arenaBytes = 9000
  dialect : world.ingest.udcomphdrBytes = 0
  slot : world.ingest.preparseState.runningSlotId = 0
  last : world.ingest.preparseState.hasLastSymbol = true →
    world.ingest.preparseState.lastSymbolId = 9
  capacity : world.pipeline.descRingCapacity = p2DescRingCapacity
  ring : world.statics.nofDescsBySlot 0 = count
  delivered : world.ingest.counters.delivered = count
  parseFailed : world.ingest.counters.parseFailed = 2
  feedBackpressure : world.ingest.counters.feedBackpressure = 0

section Level

variable {count : Nat} {world : IngestWorld Unit Unit}

private theorem Level.written (level : Level count world) (bounded : CursorBounded world) :
    (frameWrite world bandReceived).1 = .ok := by
  have length : bandReceived.bytes.length = 30 := rfl
  obtain ⟨fits, _, _⟩ := bounded.placeOffset_spec (show 30 ≤ recvBufBytes by decide)
  rw [level.arenaBytes] at fits
  have budget : (9000 : UInt64).toNat = 9000 := rfl
  have noWrap : (placeOffset world.ingest 30).toNat + 30 < 2 ^ 64 := by omega
  rw [frameWrite, oiP2WriteArena, length, wrapAdd_eq noWrap, bounded.pipelineBytes, p2ArenaBytes,
    if_neg (by omega), if_pos ⟨rfl, by omega⟩]

/-- The symbol does not descend, so the slot counter stays. -/
private theorem Level.advance (level : Level count world) :
    (world.ingest.preparseState.advance
        (UInt8.ofNat (byteVal bandReceived.bytes (14 + 11) % 64))).runningSlotId = 0 := by
  have symbol : UInt8.ofNat (byteVal bandReceived.bytes (14 + 11) % 64) = 9 := by decide
  rw [symbol, OiOranPreparseState.advance]
  refine (if_neg ?_).trans level.slot
  rintro ⟨started, below⟩
  rw [level.last started] at below
  exact absurd below (by decide)

/-- One more frame comes as far as the feed. -/
private theorem Level.fed (level : Level count world) (bounded : CursorBounded world) :
    ∃ fed desc, ingestFrame world bandReceived =
        some (feedFrame fed (placeOffset world.ingest bandReceived.bytes.length) desc
          bandReceived) ∧ desc.slotId = 0 ∧ Level count fed := by
  have accepts : Accepts bandReceived.bytes
      (writtenWorld world bandReceived).ingest.udcomphdrBytes.toNat 14 := by
    rw [show (writtenWorld world bandReceived).ingest.udcomphdrBytes = 0 from level.dialect]
    exact accepts_bandReceived
  obtain ⟨_, capacity, _⟩ := oiP2WriteArena_frame bandReceived.writeOk world.pipeline
    (placeOffset world.ingest bandReceived.bytes.length) bandReceived.bytes
  rw [ingestFrame_of_written (level.written bounded), parseFrame_of_accepts _ accepts]
  exact ⟨_, _, rfl, level.advance, level.arenaBytes, level.dialect, level.advance, fun _ => rfl,
    capacity.trans level.capacity, level.ring, level.delivered, level.parseFailed,
    level.feedBackpressure⟩

/-- While the ring has room the frame is delivered. -/
private theorem Level.deliver (level : Level count world) (bounded : CursorBounded world)
    (room : count < p2DescRingCapacity) :
    ∃ after, ingestFrame world bandReceived = some after ∧ CursorBounded after ∧
      Level (count + 1) after := by
  obtain ⟨fed, desc, handled, slot, ready⟩ := level.fed bounded
  have free : fed.statics.nofDescsBySlot desc.slotId < fed.pipeline.descRingCapacity := by
    rw [slot, ready.ring, ready.capacity]
    exact room
  refine ⟨_, handled, bounded.ingestFrame (by decide) handled, ?_⟩
  simp only [feedFrame, bandReceived, oiP2Feed_ok free, reduceCtorEq, if_false, ne_eq,
    not_true_eq_false]
  refine ⟨ready.arenaBytes, ready.dialect, ready.slot, ready.last, ready.capacity, ?_, ?_,
    ready.parseFailed, ready.feedBackpressure⟩
  · change Function.update fed.statics.nofDescsBySlot desc.slotId _ 0 = _
    rw [slot, ready.ring, Function.update_self]
  · exact congrArg (· + 1) ready.delivered

private theorem Level.fill (n : Nat) (level : Level count world) (bounded : CursorBounded world)
    (room : count + n ≤ p2DescRingCapacity) :
    ∃ after, (List.replicate n bandReceived).foldlM ingestFrame world = some after ∧
      CursorBounded after ∧ Level (count + n) after := by
  induction n generalizing count world with
  | zero => exact ⟨world, rfl, bounded, level⟩
  | succ n inductionHypothesis =>
      obtain ⟨next, handled, boundedNext, levelNext⟩ := level.deliver bounded (by omega)
      obtain ⟨after, run, boundedAfter, levelAfter⟩ :=
        inductionHypothesis levelNext boundedNext (by omega)
      refine ⟨after, ?_, boundedAfter, ?_⟩
      · rw [List.replicate_succ, List.foldlM_cons, handled]
        exact run
      · rwa [Nat.add_right_comm] at levelAfter

/-- When the ring is full it is pushed back. -/
private theorem Level.pushBack (level : Level p2DescRingCapacity world)
    (bounded : CursorBounded world) :
    ∃ after, ingestFrame world bandReceived = some after ∧
      after.ingest.counters.delivered = p2DescRingCapacity ∧
      after.ingest.counters.parseFailed = 2 ∧ after.ingest.counters.feedBackpressure = 1 := by
  obtain ⟨fed, desc, handled, slot, ready⟩ := level.fed bounded
  have full : fed.pipeline.descRingCapacity ≤ fed.statics.nofDescsBySlot desc.slotId := by
    rw [slot, ready.ring, ready.capacity]
  refine ⟨_, handled, ?_⟩
  simp only [feedFrame, oiP2Feed_overflow bandReceived.feedOk full, if_true]
  exact ⟨ready.delivered, ready.parseFailed, congrArg (· + 1) ready.feedBackpressure⟩

/-- The two frames that are lost. -/
private theorem level_zero :
    ∃ world, oiIngestPoll (oiIngestOpen 9000 0 [4] (memoryOf 0)) lostPoll = some world ∧
      CursorBounded world ∧ Level 0 world := by
  refine ⟨_, rfl, ⟨by decide, rfl, by decide, by decide⟩, ?_⟩
  refine ⟨rfl, rfl, rfl, fun started => ?_, rfl, rfl, rfl, rfl, rfl⟩
  exact absurd started (by decide)

end Level

/-- Behind the two polls the first frame of the next one is pushed back. -/
theorem ingest_accounts_full_ring :
    ∃ between after : IngestWorld Unit Unit,
      [lostPoll, fillingPoll].foldlM oiIngestPoll (oiIngestOpen 9000 0 [4] (memoryOf 0)) =
        some between ∧
      [bandReceived].foldlM ingestFrame between = some after ∧
      after.ingest.counters.ethertypeMatched = 4099 ∧
      after.ingest.counters.delivered = 4096 ∧ after.ingest.counters.parseFailed = 2 ∧
      after.ingest.counters.feedBackpressure = 1 ∧
      after.ingest.rxLog.map (·.reapSeq) = List.range 4096 := by
  have band (n : Nat) : ∀ received ∈ List.replicate n bandReceived,
      received.bytes.length ≤ recvBufBytes := by
    intro received member
    rw [List.eq_of_mem_replicate member]
    exact (by decide : bandReceived.bytes.length ≤ recvBufBytes)
  have short : ∀ received ∈ [shortReceived false, shortReceived true],
      received.bytes.length ≤ recvBufBytes := by decide
  obtain ⟨between, after, polled, run, accounts⟩ :=
    ingest_accounts (show recvBufBytes ≤ (9000 : UInt64).toNat by decide) 0 [4] (memoryOf 0)
      [lostPoll, fillingPoll] [bandReceived] (by
        simp only [lostPoll, fillingPoll, List.flatMap_cons, List.flatMap_nil, List.append_nil,
          List.mem_append, or_assoc, or_imp, forall_and]
        exact ⟨short, band 4096, band 1⟩)
  -- the state behind the two polls, from the step lemmas
  obtain ⟨world, lost, bounded, level⟩ := level_zero
  obtain ⟨filled, deliveries, boundedFilled, full⟩ := level.fill 4096 bounded (by decide)
  rw [Nat.zero_add] at full
  have boundedBetween : CursorBounded (readStatistics fillingPoll filled) :=
    ⟨boundedFilled.budget, boundedFilled.pipelineBytes, boundedFilled.cursor,
      boundedFilled.reached⟩
  have fullBetween : Level p2DescRingCapacity (readStatistics fillingPoll filled) :=
    ⟨full.arenaBytes, full.dialect, full.slot, full.last, full.capacity, full.ring,
      full.delivered, full.parseFailed, full.feedBackpressure⟩
  have filling : oiIngestPoll world fillingPoll = some (readStatistics fillingPoll filled) :=
    oiIngestPoll_eq deliveries
  have same : between = readStatistics fillingPoll filled := by
    have both := polled
    rw [List.foldlM_cons, lost, Option.bind_eq_bind, Option.bind_some, List.foldlM_cons,
      filling] at both
    exact (Option.some.inj both).symm
  subst same
  obtain ⟨other, handled, delivered, parseFailed, pushedBack⟩ :=
    fullBetween.pushBack boundedBetween
  obtain rfl : after = other := by
    have last := run
    rw [List.foldlM_cons, handled] at last
    exact (Option.some.inj last).symm
  refine ⟨_, after, polled, run, ?_, delivered, parseFailed, pushedBack, ?_⟩
  · have frames : fillingPoll.received.length = 4096 := List.length_replicate
    rw [accounts.matched, List.length_append, List.flatMap_cons, List.length_append,
      List.flatMap_singleton, frames]
    rfl
  · rw [accounts.rxLog, delivered]
    rfl

end RanInline.Ingest
