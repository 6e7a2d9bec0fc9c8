/-
Module: RanInline.Ingest.ArenaBound
Purpose: The bound check of oi_p2_write_arena in oi_p2_host.cpp, over every 64-bit offset, length
  and arena size, and over the writes that oi_ingest_poll makes.
Trusted boundary: none
Main exports: ArenaRequest, arenaRequest, ArenaCheckExact, oiP2WriteArena_eq_answer,
  arena_check_exact_iff
-/
import RanInline.Ingest.Accounting
import RanInline.Lib.CheckedStore

namespace RanInline.Ingest

open RanInline.Lib RanInline.Phy

/-- What a call of `oi_p2_write_arena` comes to before the device answers: a status that it
returns, or a region that it hands to `clEnqueueWriteBuffer`. -/
inductive ArenaRequest where
  | refused (status : OiP2Status)
  | enqueued (offset len : UInt64)
deriving DecidableEq, Repr

/-- `oi_p2_write_arena` up to `clEnqueueWriteBuffer`.  A `size_t` has 64 bits. -/
def arenaRequest (arenaBytes offset len : UInt64) : ArenaRequest :=
  if offset + len > arenaBytes then .refused .errArenaOverflow else .enqueued offset len

/-- The region is inside the arena, as unbounded numbers. -/
def InsideArena (arenaBytes offset len : UInt64) : Prop :=
  offset.toNat + len.toNat ≤ arenaBytes.toNat

/-- The contract of oi_p2_host.h at one call: the device write is attempted for the regions
inside the arena, and all others are refused with `OI_P2_ERR_ARENA_OVERFLOW`. -/
structure ArenaCheckExact (arenaBytes offset len : UInt64) : Prop where
  attempted : arenaRequest arenaBytes offset len = .enqueued offset len ↔
    InsideArena arenaBytes offset len
  refused : ¬ InsideArena arenaBytes offset len →
    arenaRequest arenaBytes offset len = .refused .errArenaOverflow

variable {F Llr : Type}

/-- The rest of `oi_p2_write_arena`: OpenCL accepts regions inside the buffer only. -/
def ArenaRequest.answer (clOk : Bool) (p : OiP2Pipeline F Llr) (data : List UInt8) :
    ArenaRequest → OiP2Status × OiP2Pipeline F Llr
  | .refused status => (status, p)
  | .enqueued offset len =>
      if clOk = true ∧ offset.toNat + len.toNat ≤ p.arenaBytes then
        (.ok, { p with arena := writeBytes p.arena offset.toNat data })
      else (.errDevice, p)

/-! ### One call -/

theorem arenaRequest_eq_enqueued_iff (arenaBytes offset len : UInt64) :
    arenaRequest arenaBytes offset len = .enqueued offset len ↔
      wrapAdd 64 offset.toNat len.toNat ≤ arenaBytes.toNat := by
  have sum : (offset + len).toNat = wrapAdd 64 offset.toNat len.toNat := UInt64.toNat_add offset len
  rw [arenaRequest, ← sum, ← UInt64.le_iff_toNat_le]
  split_ifs with beyond
  · exact iff_of_false (by simp) (UInt64.not_le.mpr beyond)
  · exact iff_of_true rfl (UInt64.not_lt.mp beyond)

theorem arenaRequest_of_not_enqueued {arenaBytes offset len : UInt64}
    (other : arenaRequest arenaBytes offset len ≠ .enqueued offset len) :
    arenaRequest arenaBytes offset len = .refused .errArenaOverflow := by
  rw [arenaRequest] at other ⊢
  split_ifs at other ⊢
  · rfl
  · exact absurd rfl other

/-- The calls at which the check does what the contract says. -/
theorem arenaCheckExact_iff (arenaBytes offset len : UInt64) :
    ArenaCheckExact arenaBytes offset len ↔
      offset.toNat + len.toNat < 2 ^ 64 ∨
        arenaBytes.toNat + 2 ^ 64 < offset.toNat + len.toNat := by
  rw [← wrapAdd_le_iff_add_le_iff offset.toNat_lt len.toNat_lt arenaBytes.toNat_lt,
    ← arenaRequest_eq_enqueued_iff]
  constructor
  · intro checked
    exact checked.attempted
  · intro attempted
    exact ⟨attempted, fun outside => arenaRequest_of_not_enqueued (mt attempted.mp outside)⟩

/-- The call as a whole is its request and the answer to it. -/
theorem oiP2WriteArena_eq_answer (clOk : Bool) {p : OiP2Pipeline F Llr} {data : List UInt8}
    {arenaBytes len : UInt64} (offset : UInt64) (arena : p.arenaBytes = arenaBytes.toNat)
    (length : data.length = len.toNat) :
    oiP2WriteArena clOk p offset data =
      (arenaRequest arenaBytes offset len).answer clOk p data := by
  have check := arenaRequest_eq_enqueued_iff arenaBytes offset len
  rw [← arena, ← length] at check
  by_cases enqueued : wrapAdd 64 offset.toNat data.length ≤ p.arenaBytes
  · rw [check.mpr enqueued, oiP2WriteArena, if_neg (Nat.not_lt.mpr enqueued), ArenaRequest.answer,
      length]
  · rw [arenaRequest_of_not_enqueued (mt check.mp enqueued), oiP2WriteArena,
      if_pos (Nat.lt_of_not_le enqueued), ArenaRequest.answer]

/-! ### The calls of the ingest -/

variable {world after : IngestWorld F Llr} {received : Received}

theorem CursorInside.oiIngestPoll {poll : Poll} (inside : CursorInside world)
    (polled : oiIngestPoll world poll = some after) : CursorInside after := by
  rw [Ingest.oiIngestPoll, Option.bind_eq_bind, Option.bind_eq_some_iff] at polled
  obtain ⟨drained, run, read⟩ := polled
  cases read
  have kept : CursorInside drained :=
    foldlM_keeps CursorInside (fun _ _ _ inside handled => inside.ingestFrame handled) inside run
  exact ⟨kept.pipelineBytes, kept.cursor⟩

/-- Every frame that fits into the receive buffer asks for a region that the check judges
rightly. -/
theorem CursorInside.arenaCheckExact (inside : CursorInside world)
    (small : received.bytes.length ≤ recvBufBytes) :
    ArenaCheckExact (UInt64.ofNat world.pipeline.arenaBytes)
      (placeOffset world.ingest received.bytes.length) (UInt64.ofNat received.bytes.length) := by
  have offset := inside.placeOffset_le received.bytes.length
  rw [p2ArenaBytes] at offset
  rw [recvBufBytes] at small
  rw [arenaCheckExact_iff, UInt64.toNat_ofNat']
  omega

/-- `oi_p2_write_arena` is a request and the answer to it; its check is exact at a call exactly
when the sum of offset and length fits into 64 bits, or is past the arena even after it has
wrapped; and every call that the ingest makes, in any poll behind any others, is such a call. -/
theorem arena_check_exact_iff (arenaBytes offset len : UInt64) :
    (∀ (F Llr : Type) (clOk : Bool) (p : OiP2Pipeline F Llr) (data : List UInt8),
      p.arenaBytes = arenaBytes.toNat → data.length = len.toNat →
      oiP2WriteArena clOk p offset data =
        (arenaRequest arenaBytes offset len).answer clOk p data) ∧
    (ArenaCheckExact arenaBytes offset len ↔
      offset.toNat + len.toNat < 2 ^ 64 ∨
        arenaBytes.toNat + 2 ^ 64 < offset.toNat + len.toNat) ∧
    ∀ (F Llr : Type) (budget : UInt64) (udcomphdrBytes : UInt8) (mcsSet : List Nat)
      (memory : DeviceMemory F Llr) (polls : List Poll) (frames : List Received)
      (received : Received) (between world : IngestWorld F Llr),
      polls.foldlM oiIngestPoll (oiIngestOpen budget udcomphdrBytes mcsSet memory) =
        some between →
      frames.foldlM ingestFrame between = some world →
      received.bytes.length ≤ recvBufBytes →
      ArenaCheckExact (UInt64.ofNat world.pipeline.arenaBytes)
        (placeOffset world.ingest received.bytes.length)
        (UInt64.ofNat received.bytes.length) := by
  refine ⟨fun F Llr clOk p data arena length => oiP2WriteArena_eq_answer clOk offset arena length,
    arenaCheckExact_iff arenaBytes offset len, ?_⟩
  intro F Llr budget udcomphdrBytes mcsSet memory polls frames received between world polled run
    small
  have opened : CursorInside (oiIngestOpen budget udcomphdrBytes mcsSet memory) :=
    ⟨rfl, Nat.zero_le _⟩
  have inside : CursorInside between :=
    foldlM_keeps CursorInside (fun _ _ _ inside polled => inside.oiIngestPoll polled) opened polled
  have reached : CursorInside world :=
    foldlM_keeps CursorInside (fun _ _ _ inside handled => inside.ingestFrame handled) inside run
  exact reached.arenaCheckExact small

/-- A write of the last two bytes of the arena, and the first frame of an ingest. -/
theorem arena_check_exact_last_bytes :
    (oiP2WriteArena true (oiP2Setup [4] (memoryOf 0) : OiP2Pipeline Unit Unit) 4194302
        [1, 2]).1 = .ok ∧
      ArenaCheckExact 4194304 4194302 2 ∧
      ArenaCheckExact (UInt64.ofNat p2ArenaBytes) 0 (UInt64.ofNat 2) := by
  obtain ⟨call, check, ingest⟩ := arena_check_exact_iff 4194304 4194302 2
  refine ⟨?_, check.mpr (.inl (by decide)), ?_⟩
  · rw [call Unit Unit true (oiP2Setup [4] (memoryOf 0)) [1, 2] (by decide) (by decide)]
    rfl
  · exact ingest Unit Unit driverArenaBytes 2 [4] (memoryOf 0) [] []
      { bytes := [0xAE, 0xFE], writeOk := true, feedOk := true, rxTsNs := 0 } _ _ rfl rfl
      (by decide)

/-- Two bytes at the last offset of all: the sum is 1, and the region goes to OpenCL although no
byte of it is in the arena. -/
theorem arena_check_wraps :
    arenaRequest (UInt64.ofNat p2ArenaBytes) 0xFFFFFFFFFFFFFFFF 2 =
        .enqueued 0xFFFFFFFFFFFFFFFF 2 ∧
      ¬ ArenaCheckExact (UInt64.ofNat p2ArenaBytes) 0xFFFFFFFFFFFFFFFF 2 := by
  have enqueued : arenaRequest (UInt64.ofNat p2ArenaBytes) 0xFFFFFFFFFFFFFFFF 2 =
      .enqueued 0xFFFFFFFFFFFFFFFF 2 := by decide
  refine ⟨enqueued, fun checked => ?_⟩
  have inside : 0xFFFFFFFFFFFFFFFF + 2 ≤ 4194304 := checked.attempted.mp enqueued
  exact absurd inside (by decide)

end RanInline.Ingest
