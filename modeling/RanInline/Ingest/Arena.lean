/-
Module: RanInline.Ingest.Arena
Purpose: The arena budget of the shipped programs.  The ingest wraps its cursor at 16 MiB
  while the pipeline's arena has 4 MiB.
Trusted boundary: none
Main exports: driverArenaBytes, arena_writes_succeed_iff
-/
import RanInline.Ingest.Poll
import RanInline.Lib.CheckedStore

namespace RanInline.Ingest

open RanInline.Lib RanInline.Oran RanInline.Phy

/-- `kArenaBytes` of gpu_phy_seam_bridge and bit_exact_harness. -/
def driverArenaBytes : UInt64 := 16 * 1024 * 1024

/-- The size of `buf` in `oi_ingest_poll`. -/
def recvBufBytes : Nat := 9000

/-- The bytes received so far. -/
def receivedBytes (frames : List Received) : Nat :=
  (frames.map (·.bytes.length)).sum

variable {F Llr : Type} {world after : IngestWorld F Llr} {received : Received}
  {frames : List Received}

/-- Every arena write made so far has succeeded. -/
def AllWritten (world : IngestWorld F Llr) : Prop :=
  ∀ status ∈ world.arenaWrites, status = .ok

/-- The writes succeed as long as the bytes fit in the pipeline's arena, and until then the
cursor has never wrapped. -/
structure CursorCounts (total : Nat) (world : IngestWorld F Llr) : Prop where
  arenaBytes : world.ingest.arenaBytes = driverArenaBytes
  pipelineBytes : world.pipeline.arenaBytes = p2ArenaBytes
  written : AllWritten world ↔ total ≤ p2ArenaBytes
  cursor : AllWritten world → world.ingest.arenaWriteOffset.toNat = total

/-- While the cursor has not wrapped, the next frame goes behind the last one. -/
theorem CursorCounts.placeOffset_eq {total : Nat} (counts : CursorCounts total world)
    (small : total ≤ p2ArenaBytes) {n : Nat} (bounded : n ≤ recvBufBytes) :
    (placeOffset world.ingest n).toNat = total ∧
      (placeOffset world.ingest n + UInt64.ofNat n).toNat = total + n := by
  have cursor := counts.cursor (counts.written.mpr small)
  rw [p2ArenaBytes] at small
  rw [recvBufBytes] at bounded
  have sum : (world.ingest.arenaWriteOffset + UInt64.ofNat n).toNat = total + n := by
    rw [UInt64.toNat_add, cursor, UInt64.toNat_ofNat']
    omega
  have fits : ¬ world.ingest.arenaWriteOffset + UInt64.ofNat n > world.ingest.arenaBytes := by
    rw [counts.arenaBytes, gt_iff_lt, UInt64.lt_iff_toNat_lt, sum]
    show ¬ 16777216 < total + n
    omega
  rw [placeOffset, if_neg fits]
  exact ⟨cursor, sum⟩

/-- The write of a frame behind the others succeeds exactly when it still fits. -/
theorem CursorCounts.frameWrite_ok_iff {total : Nat} (counts : CursorCounts total world)
    (small : total ≤ p2ArenaBytes) (bounded : received.bytes.length ≤ recvBufBytes)
    (deviceOk : received.writeOk = true) :
    (frameWrite world received).1 = .ok ↔ total + received.bytes.length ≤ p2ArenaBytes := by
  obtain ⟨offset, _⟩ := counts.placeOffset_eq small bounded
  have noWrap : wrapAdd 64 total received.bytes.length = total + received.bytes.length := by
    rw [p2ArenaBytes] at small
    rw [recvBufBytes] at bounded
    exact wrapAdd_eq (by omega)
  rw [frameWrite, oiP2WriteArena, offset, noWrap, counts.pipelineBytes]
  by_cases fits : total + received.bytes.length ≤ p2ArenaBytes
  · simp [Nat.not_lt.mpr fits, fits, deviceOk]
  · simp [Nat.lt_of_not_le fits, fits]

theorem CursorCounts.ingestFrame {total : Nat} (counts : CursorCounts total world)
    (bounded : received.bytes.length ≤ recvBufBytes) (deviceOk : received.writeOk = true)
    (step : ingestFrame world received = some after) :
    CursorCounts (total + received.bytes.length) after := by
  obtain ⟨other, handled, arenaBytes, pipelineBytes, writes, cursor, _⟩ :=
    ingestFrame_effect world received
  obtain rfl : after = other := Option.some.inj (step.symm.trans handled)
  have extended : AllWritten after ↔ AllWritten world ∧ (frameWrite world received).1 = .ok := by
    simp [AllWritten, writes, or_imp, forall_and]
  refine ⟨arenaBytes.trans counts.arenaBytes, pipelineBytes.trans counts.pipelineBytes, ?_, ?_⟩
  · rw [extended, counts.written]
    constructor
    · rintro ⟨small, written⟩
      exact (counts.frameWrite_ok_iff small bounded deviceOk).mp written
    · intro fits
      have small : total ≤ p2ArenaBytes := by omega
      exact ⟨small, (counts.frameWrite_ok_iff small bounded deviceOk).mpr fits⟩
  · intro allWritten
    obtain ⟨earlier, written⟩ := extended.mp allWritten
    rw [cursor written]
    exact (counts.placeOffset_eq (counts.written.mp earlier) bounded).2

/-- Every sequence of frames is handled, and the invariant counts their bytes. -/
theorem CursorCounts.ingestFrames {total : Nat} (counts : CursorCounts total world)
    (bounded : ∀ received ∈ frames, received.bytes.length ≤ recvBufBytes)
    (deviceOk : ∀ received ∈ frames, received.writeOk = true) :
    ∃ after, frames.foldlM Ingest.ingestFrame world = some after ∧
      CursorCounts (total + receivedBytes frames) after := by
  apply foldlM_invariant fun done world => CursorCounts (total + receivedBytes done) world
  · exact counts
  · intro done received member state counts
    obtain ⟨next, handled, _⟩ := ingestFrame_effect state received
    have counted := counts.ingestFrame (bounded received member) (deviceOk received member) handled
    have bytes : receivedBytes (done ++ [received]) =
        receivedBytes done + received.bytes.length := by
      simp [receivedBytes]
    refine ⟨next, handled, ?_⟩
    rwa [bytes, ← Nat.add_assoc]

/-- Every sequence of polls is handled, and the invariant counts the bytes of its
frames. -/
theorem CursorCounts.oiIngestPolls {total : Nat} {polls : List Poll}
    (counts : CursorCounts total world)
    (bounded : ∀ received ∈ polls.flatMap (·.received), received.bytes.length ≤ recvBufBytes)
    (deviceOk : ∀ received ∈ polls.flatMap (·.received), received.writeOk = true) :
    ∃ after, polls.foldlM oiIngestPoll world = some after ∧
      CursorCounts (total + receivedBytes (polls.flatMap (·.received))) after := by
  apply foldlM_invariant fun (done : List Poll) world =>
    CursorCounts (total + receivedBytes (done.flatMap (·.received))) world
  · exact counts
  · intro done poll member state counts
    obtain ⟨drained, handled, counted⟩ := counts.ingestFrames
      (fun received inside => bounded received (List.mem_flatMap.mpr ⟨poll, member, inside⟩))
      (fun received inside => deviceOk received (List.mem_flatMap.mpr ⟨poll, member, inside⟩))
    have bytes : receivedBytes ((done ++ [poll]).flatMap (·.received)) =
        receivedBytes (done.flatMap (·.received)) + receivedBytes poll.received := by
      simp [receivedBytes]
    refine ⟨readStatistics poll drained, oiIngestPoll_eq handled, ?_⟩
    rw [bytes, ← Nat.add_assoc]
    exact ⟨counted.arenaBytes, counted.pipelineBytes, counted.written, counted.cursor⟩

theorem cursorCounts_open (udcomphdrBytes : UInt8) (mcsSet : List Nat)
    (memory : DeviceMemory F Llr) :
    CursorCounts 0 (oiIngestOpen driverArenaBytes udcomphdrBytes mcsSet memory) where
  arenaBytes := rfl
  pipelineBytes := rfl
  written := by simp [AllWritten, oiIngestOpen]
  cursor := fun _ => rfl

/-- With the sizes of the shipped programs, every arena write succeeds exactly as long as
the frames received so far fit together into the pipeline's 4 MiB. -/
theorem arena_writes_succeed_iff (udcomphdrBytes : UInt8) (mcsSet : List Nat)
    (memory : DeviceMemory F Llr) {polls : List Poll}
    (bounded : ∀ received ∈ polls.flatMap (·.received), received.bytes.length ≤ recvBufBytes)
    (deviceOk : ∀ received ∈ polls.flatMap (·.received), received.writeOk = true) :
    ∃ after, polls.foldlM oiIngestPoll
        (oiIngestOpen driverArenaBytes udcomphdrBytes mcsSet memory) = some after ∧
      (AllWritten after ↔ receivedBytes (polls.flatMap (·.received)) ≤ p2ArenaBytes) := by
  obtain ⟨after, run, counts⟩ :=
    (cursorCounts_open udcomphdrBytes mcsSet memory).oiIngestPolls bounded deviceOk
  rw [Nat.zero_add] at counts
  exact ⟨after, run, counts.written⟩

/-- One poll of `count` frames of `length` zero bytes each. -/
private def burst (count length : Nat) : Poll where
  received := List.replicate count
    { bytes := List.replicate length 0, writeOk := true, feedOk := true, rxTsNs := 0 }
  tpDrops := 0
  tpPackets := count

private theorem mem_burst {count length : Nat} {received : Received}
    (member : received ∈ [burst count length].flatMap (·.received)) :
    received.bytes.length = length ∧ received.writeOk = true := by
  simp only [burst, List.flatMap_cons, List.flatMap_nil, List.append_nil] at member
  rw [List.eq_of_mem_replicate member]
  exact ⟨List.length_replicate, rfl⟩

private theorem receivedBytes_burst (count length : Nat) :
    receivedBytes ([burst count length].flatMap (·.received)) = count * length := by
  simp [receivedBytes, burst]

/-- The 466 largest frames that fit, of 9000 bytes each. -/
theorem arena_writes_succeed_466_frames :
    ∃ after, [burst 466 9000].foldlM oiIngestPoll
        (oiIngestOpen driverArenaBytes 2 [4] (memoryOf 0)) = some after ∧ AllWritten after := by
  obtain ⟨after, run, written⟩ := arena_writes_succeed_iff 2 [4] (memoryOf 0)
    (fun received member => (mem_burst member).1.le) (fun received member => (mem_burst member).2)
  refine ⟨after, run, written.mpr ?_⟩
  rw [receivedBytes_burst]
  decide

/-- Frame 467 does not fit any more: its write fails although the device accepts every
write. -/
theorem arena_write_fails_467_frames :
    ¬ ∀ (polls : List Poll) (after : IngestWorld Unit Unit),
      (∀ received ∈ polls.flatMap (·.received),
        received.bytes.length ≤ recvBufBytes ∧ received.writeOk = true) →
      polls.foldlM oiIngestPoll (oiIngestOpen driverArenaBytes 2 [4] (memoryOf 0)) = some after →
      AllWritten after := by
  intro claim
  obtain ⟨after, run, counts⟩ : ∃ after, [burst 467 9000].foldlM oiIngestPoll
        (oiIngestOpen driverArenaBytes 2 [4] (memoryOf 0)) = some after ∧
      CursorCounts (0 + receivedBytes ([burst 467 9000].flatMap (·.received))) after :=
    (cursorCounts_open 2 [4] (memoryOf 0)).oiIngestPolls
      (fun received member => (mem_burst member).1.le)
      (fun received member => (mem_burst member).2)
  have written := claim [burst 467 9000] after
    (fun received member => ⟨(mem_burst member).1.le, (mem_burst member).2⟩) run
  have fits := counts.written.mp written
  rw [receivedBytes_burst] at fits
  exact absurd fits (by decide)

end RanInline.Ingest
