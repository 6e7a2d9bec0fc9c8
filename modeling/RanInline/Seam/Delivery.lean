/-
Module: RanInline.Seam.Delivery
Purpose: What the ring delivers.  Without restarts it is a FIFO; with producer restarts
  each epoch is delivered from its first record on, provided the segment is quiescent at
  the epoch bump; with consumer crashes no published record is lost, provided no kill
  falls between the DONE store and the tail increment.
Trusted boundary: none
Main exports: seam_fifo, EpochDelivery, epoch_delivery_of_quiescent_restarts,
  ResumePoint, resume_point_of_crashes_outside_release
-/
import RanInline.Seam.Invariant

namespace RanInline.Seam

open RanInline.Lib

variable {Payload : Type} {capacity lap : Nat} {zero : Payload}
  {state before after : SeamState Payload}

/-! ### What has been handed to the consumer -/

/-- The number of records of the current epoch that the running consumer has read. -/
def SeamState.readCount (state : SeamState Payload) : Nat :=
  match state.consumer with
  | .processed _ | .markedDone _ => state.released + 1
  | _ => state.released

theorem SeamState.released_le_readCount (state : SeamState Payload) :
    state.released ≤ state.readCount := by
  rw [SeamState.readCount]
  split <;> omega

/-- The records handed out are the first published ones, in order. -/
def HandedInOrder (state : SeamState Payload) : Prop :=
  state.handed = state.published.take state.readCount

/-- Every record read, or released by an earlier consumer process, was handed out. -/
def HandedAll (state : SeamState Payload) : Prop :=
  ∀ (k : Nat) (record : SeamRecord Payload), k < state.readCount →
    state.published[k]? = some record → record ∈ state.handed

/-- The sequence number the producer has claimed and not published yet. -/
def ProducerPc.claim? : ProducerPc → Option Nat
  | .claimed head | .wroteSeq head | .wroteEpoch head | .filling head => some head
  | _ => none

/-- The index of the slot the consumer is reading: `oi_seam_wait_status` has returned it
and `oi_seam_release` has not marked it yet. -/
def ConsumerPc.reading? : ConsumerPc → Option Nat
  | .reading idx | .readingPayload idx _ _ | .processed idx => some idx
  | _ => none

namespace RingInvariant

/-- The consumer has read published records only. -/
theorem readCount_le (inv : RingInvariant capacity lap state) :
    state.readCount ≤ state.published.length := by
  have consumer := inv.consumer
  have ordered := inv.ordered
  cases pc : state.consumer <;> simp only [ConsumerFacts, pc] at consumer <;>
    simp only [SeamState.readCount, pc]
  case processed => exact consumer.2
  case markedDone => exact consumer.2.1
  all_goals exact ordered

/-- What the consumer reads is the oldest unreleased record. -/
theorem read_record (inv : RingInvariant capacity lap state) {idx epoch seq : Nat}
    (pc : state.consumer = .readingPayload idx epoch seq) :
    state.published[state.released]? =
      some { epoch := epoch
             seq := seq
             payload := (state.slots (idx % capacity)).payload } := by
  have consumer := inv.consumer
  simp only [ConsumerFacts, pc] at consumer
  obtain ⟨rfl, less, rfl, rfl⟩ := consumer
  have held := (inv.window _ (Nat.le_refl _) less).1
  obtain ⟨seqEq, epochEq⟩ := inv.numbered _ _ held
  simp only [OiSeamSlot.record] at seqEq epochEq
  rw [held, Nat.mul_add_mod, OiSeamSlot.record, seqEq, epochEq]

/-! ### What the invariant says to an observer -/

/-- The head is at most one capacity ahead of the tail. -/
theorem counters (inv : RingInvariant capacity lap state) (stable : state.reopening = false) :
    state.tail ≤ state.head ∧ state.head ≤ state.tail + capacity := by
  have ordered := inv.ordered
  have claimed := inv.published_le_head stable
  have released : state.released = state.tail := by simp [SeamState.released, stable]
  exact ⟨by omega, inv.bound stable⟩

/-- A claim reuses only slots whose records have been released. -/
theorem claim_reuses_released (inv : RingInvariant capacity lap state) {seq k : Nat}
    (claim : state.producer.claim? = some seq) (less : k < seq)
    (same : k % capacity = seq % capacity) : k < state.tail := by
  have facts := inv.producer
  have held : state.reopening = false ∧ state.head = state.published.length + 1 ∧
      seq = state.published.length := by
    cases pc : state.producer <;>
      simp only [ProducerPc.claim?, pc, reduceCtorEq, Option.some.injEq] at claim <;>
      simp only [ProducerFacts, pc] at facts
    case claimed => exact ⟨facts.1, facts.2.1, claim ▸ facts.2.2⟩
    all_goals exact ⟨facts.1, facts.2.1, claim ▸ facts.2.2.1⟩
  have bound := inv.bound held.1
  by_contra notReleased
  exact mod_ne_of_window less (by omega) same

/-- The slot being read holds the oldest unreleased record and is `READY`. -/
theorem reading_slot (inv : RingInvariant capacity lap state) {idx : Nat}
    (reading : state.consumer.reading? = some idx) :
    idx = capacity * lap + state.released ∧
      (state.slots (idx % capacity)).status = .ready ∧
      state.published[state.released]? = some (state.slots (idx % capacity)).record := by
  have facts := inv.consumer
  have index : idx = capacity * lap + state.released ∧
      state.released < state.published.length := by
    cases pc : state.consumer <;>
      simp only [ConsumerPc.reading?, pc, reduceCtorEq, Option.some.injEq] at reading <;>
      simp only [ConsumerFacts, pc] at facts
    case readingPayload => exact ⟨reading ▸ facts.1, facts.2.1⟩
    all_goals exact ⟨reading ▸ facts.1, facts.2⟩
  obtain ⟨rfl, less⟩ := index
  obtain ⟨held, status⟩ := inv.window _ (Nat.le_refl _) less
  rw [Nat.mul_add_mod]
  refine ⟨rfl, ?_, held⟩
  rcases status with ready | ⟨_, idx, marked⟩
  · exact ready
  · simp [ConsumerPc.reading?, marked] at reading

/-- The records handed out in order are numbered from zero in the current epoch. -/
theorem handed_record (inv : RingInvariant capacity lap state)
    (inOrder : HandedInOrder state) {k : Nat} {record : SeamRecord Payload}
    (found : state.handed[k]? = some record) :
    state.published[k]? = some record ∧ record.seq = k ∧ record.epoch = state.epoch := by
  rw [inOrder, List.getElem?_take] at found
  split at found
  · exact ⟨found, inv.numbered k record found⟩
  · cases found

/-- A waiting consumer finds the first record it has not been handed, once that is
published. -/
theorem waiting_slot (inv : RingInvariant capacity lap state)
    (inOrder : HandedInOrder state) {idx : Nat} (waiting : state.consumer = .waiting idx)
    {record : SeamRecord Payload} (next : state.published[state.handed.length]? = some record) :
    (state.slots (idx % capacity)).status = .ready ∧
      (state.slots (idx % capacity)).record = record := by
  have facts := inv.consumer
  have ordered := inv.ordered
  simp only [ConsumerFacts, waiting] at facts
  have count : state.handed.length = state.released := by
    rw [inOrder, List.length_take, SeamState.readCount, waiting]
    exact Nat.min_eq_left ordered
  rw [count] at next
  have less : state.released < state.published.length :=
    (List.getElem?_eq_some_iff.mp next).1
  obtain ⟨held, status⟩ := inv.window _ (Nat.le_refl _) less
  rw [facts, Nat.mul_add_mod]
  refine ⟨?_, Option.some.inj (held.symm.trans next)⟩
  rcases status with ready | ⟨_, other, marked⟩
  · exact ready
  · rw [waiting] at marked
    cases marked

end RingInvariant

/-- The effect of a move on the records: published, handed, and how many were read. -/
theorem records_of_move {action : SeamAction Payload}
    (inv : RingInvariant capacity lap before) (fits : after.claims < 2 ^ 64)
    (alive : action ≠ .kill) (move : SeamMove capacity before action after) :
    (after.published = before.published ∧ after.handed = before.handed ∧
        after.readCount = before.readCount) ∨
      (∃ record, after.published = before.published ++ [record] ∧
        after.handed = before.handed ∧ after.readCount = before.readCount) ∨
      (∃ record, before.published[before.readCount]? = some record ∧
        after.published = before.published ∧ after.handed = before.handed ++ [record] ∧
        after.readCount = before.readCount + 1) ∨
      (after.published = [] ∧ after.handed = []) := by
  cases move with
  | publish pc =>
      exact .inr (.inl ⟨_, rfl, rfl, rfl⟩)
  | readPayload pc =>
      refine .inr (.inr (.inl ⟨_, ?_, rfl, rfl, ?_⟩))
      · rw [SeamState.readCount, pc]
        exact inv.read_record pc
      · simp only [SeamState.readCount, pc]
        rfl
  | bumpEpoch => exact .inr (.inr (.inr ⟨rfl, rfl⟩))
  | kill => exact absurd rfl alive
  | addTail pc =>
      have consumer := inv.consumer
      have budget := inv.budget
      simp only [ConsumerFacts, pc] at consumer
      have stable := inv.stable_of_published consumer.2.1
      have released : before.released = before.tail := by simp [SeamState.released, stable]
      simp only at fits
      refine .inl ⟨rfl, rfl, ?_⟩
      simp only [SeamState.readCount, SeamState.released, pc, stable]
      simp only [Bool.false_eq_true, if_false]
      exact wrapAdd_eq (by omega)
  | resetTail pc =>
      have producer := inv.producer
      simp only [ProducerFacts, pc] at producer
      refine .inl ⟨rfl, rfl, ?_⟩
      simp only [SeamState.readCount, SeamState.released, producer.1]
      rfl
  | attach pc | seeReady pc | readHeader pc | storeDone pc | persist pc =>
      refine .inl ⟨rfl, rfl, ?_⟩
      simp only [SeamState.readCount, pc]
      rfl
  | _ => exact .inl ⟨rfl, rfl, rfl⟩

/-- Along an orderly run in which the consumer is never killed, the consumer reads the
published records in order. -/
theorem handedInOrder_of_reaches {permitted : SeamState Payload → SeamAction Payload → Prop}
    (alive : ∀ state action, permitted state action → action ≠ .kill)
    (invariant : ∀ state, (seamSystem capacity zero).Reaches permitted state →
      state.claims < 2 ^ 64 → ∃ lap, RingInvariant capacity lap state)
    (run : (seamSystem capacity zero).Reaches permitted state)
    (fits : state.claims < 2 ^ 64) : HandedInOrder state := by
  induction run with
  | start initial =>
      cases initial
      rfl
  | @next before after action run allowed step inductionHypothesis =>
      have move := seamMove_of_step step
      have fitsBefore := Nat.lt_of_le_of_lt (claims_mono move) fits
      have inOrder := inductionHypothesis fitsBefore
      obtain ⟨lap, inv⟩ := invariant before run fitsBefore
      have small := inv.readCount_le
      rcases records_of_move inv fits (alive _ _ allowed) move with
        ⟨published, handed, count⟩ | ⟨record, published, handed, count⟩ |
        ⟨record, found, published, handed, count⟩ | ⟨published, handed⟩
      · rw [HandedInOrder, published, handed, count, inOrder]
      · rw [HandedInOrder, published, handed, count, inOrder,
          List.take_append_of_le_length small]
      · rw [HandedInOrder, published, handed, count, inOrder, List.take_add_one, found]
        rfl
      · rw [HandedInOrder, published, handed, List.take_nil]

/-- Along every orderly run, the records read or released were handed to some consumer
process. -/
theorem handedAll_of_reaches
    (run : (seamSystem capacity zero).Reaches (Orderly capacity) state)
    (fits : state.claims < 2 ^ 64) : HandedAll state := by
  induction run with
  | start initial =>
      cases initial
      intro k record _ found
      simp [freshRing] at found
  | @next before after action run allowed step inductionHypothesis =>
      have move := seamMove_of_step step
      have fitsBefore := Nat.lt_of_le_of_lt (claims_mono move) fits
      have all := inductionHypothesis fitsBefore
      obtain ⟨lap, inv⟩ := ringInvariant_of_reaches run fitsBefore
      have small := inv.readCount_le
      intro k record less found
      by_cases killed : action = .kill
      · subst killed
        cases move
        have released : k < before.released := less
        exact all k record (Nat.lt_of_lt_of_le released before.released_le_readCount) found
      · rcases records_of_move inv fits killed move with
          ⟨published, handed, count⟩ | ⟨fresh, published, handed, count⟩ |
          ⟨fresh, next, published, handed, count⟩ | ⟨published, handed⟩
        · rw [handed]
          exact all k record (count ▸ less) (published ▸ found)
        · rw [handed]
          rw [published, List.getElem?_append_left (by omega)] at found
          exact all k record (count ▸ less) found
        · rw [handed, List.mem_append, List.mem_singleton]
          rw [published] at found
          by_cases last : k = before.readCount
          · subst last
            exact .inr (Option.some.inj (found.symm.trans next))
          · exact .inl (all k record (by omega) found)
        · rw [published] at found
          cases found

/-! ### One producer and one consumer, no restarts -/

/-- The steps of one producer that publishes every slot it reserves and of one consumer,
without restarts and kills. -/
def Undisturbed (_ : SeamState Payload) : SeamAction Payload → Prop
  | .restart | .kill | .refuse => False
  | _ => True

private theorem orderly_of_undisturbed (state : SeamState Payload)
    (action : SeamAction Payload) (stable : state.reopening = false)
    (sameEpoch : action ≠ .bumpEpoch) (allowed : Undisturbed state action) :
    Orderly capacity state action := by
  cases action <;> simp_all [Undisturbed, Orderly]

private theorem ne_restart_of_undisturbed (state : SeamState Payload)
    (action : SeamAction Payload) (allowed : Undisturbed state action) :
    action ≠ .restart := by
  rintro rfl
  exact allowed

private theorem ne_kill_of_undisturbed (state : SeamState Payload)
    (action : SeamAction Payload) (allowed : Undisturbed state action) :
    action ≠ .kill := by
  rintro rfl
  exact allowed

/-- What holds in every state of such a run. -/
theorem undisturbed_of_reaches (run : (seamSystem capacity zero).Reaches Undisturbed state)
    (fits : state.claims < 2 ^ 64) :
    RingInvariant capacity 0 state ∧ state.reopening = false ∧ state.producer ≠ .opening ∧
      HandedInOrder state := by
  have invariant : ∀ state, (seamSystem capacity zero).Reaches Undisturbed state →
      state.claims < 2 ^ 64 → RingInvariant capacity 0 state :=
    fun _ => ringInvariant_zero_of_reaches orderly_of_undisturbed ne_restart_of_undisturbed
  obtain ⟨_, stable, notOpening⟩ :=
    orderly_of_no_restart orderly_of_undisturbed ne_restart_of_undisturbed run
  refine ⟨invariant state run fits, stable, notOpening, ?_⟩
  exact handedInOrder_of_reaches ne_kill_of_undisturbed
    (fun state run fits => ⟨0, invariant state run fits⟩) run fits

/-- The ring is a FIFO.  In every state of every interleaving of one producer and one
consumer, the counters stay within one capacity of each other, a claimed sequence number
reuses only slots whose records have been released, the slot being read holds the next
record and is `READY`, the `k`-th record handed out is the `k`-th one published, and a
waiting consumer finds the next published record in the slot it waits for. -/
theorem seam_fifo (run : (seamSystem capacity zero).Reaches Undisturbed state)
    (fits : state.claims < 2 ^ 64) :
    state.tail ≤ state.head ∧ state.head ≤ state.tail + capacity ∧
      (∀ seq, state.producer.claim? = some seq →
        ∀ k < seq, k % capacity = seq % capacity → k < state.tail) ∧
      (∀ idx, state.consumer.reading? = some idx →
        idx = state.tail ∧ (state.slots (idx % capacity)).status = .ready ∧
          state.published[idx]? = some (state.slots (idx % capacity)).record) ∧
      (∀ (k : Nat) (record : SeamRecord Payload), state.handed[k]? = some record →
        state.published[k]? = some record ∧ record.seq = k) ∧
      (∀ (idx : Nat) (record : SeamRecord Payload), state.consumer = .waiting idx →
        state.published[state.handed.length]? = some record →
        (state.slots (idx % capacity)).status = .ready ∧
          (state.slots (idx % capacity)).record = record) := by
  obtain ⟨inv, stable, _, inOrder⟩ := undisturbed_of_reaches run fits
  have released : state.released = state.tail := by simp [SeamState.released, stable]
  obtain ⟨lower, upper⟩ := inv.counters stable
  refine ⟨lower, upper, ?_, ?_, ?_, ?_⟩
  · intro seq claim k less same
    exact inv.claim_reuses_released claim less same
  · intro idx reading
    obtain ⟨index, ready, held⟩ := inv.reading_slot reading
    have sameIndex : idx = state.released := by omega
    rw [← sameIndex] at held
    exact ⟨by omega, ready, held⟩
  · intro k record found
    obtain ⟨published, seq, _⟩ := inv.handed_record inOrder found
    exact ⟨published, seq⟩
  · intro idx record waiting next
    exact inv.waiting_slot inOrder waiting next

/-- Publish one record, as the bridge does. -/
private def produce (payload : Nat) : List (SeamAction Nat) :=
  [.loadHead, .loadTail, .casHead false, .writeSeq, .writeEpoch, .storeReserved,
    .fill payload, .publish]

/-- Wait for one record and read it. -/
private def receive : List (SeamAction Nat) := [.waitStatus, .readHeader, .readPayload]

/-- Release the record that was read. -/
private def release : List (SeamAction Nat) := [.storeDone, .addTail, .persist]

/-- Two laps of a ring of capacity one. -/
theorem seam_fifo_two_laps :
    ∃ state : SeamState Nat, (seamSystem 1 0).Reaches Undisturbed state ∧
      state.handed = [⟨0, 0, 7⟩, ⟨0, 1, 8⟩] ∧
      state.tail ≤ state.head ∧ state.head ≤ state.tail + 1 := by
  obtain ⟨state, executed, fits, handed⟩ :
      ∃ state, TransitionSystem.execute (seamStep 1) (freshRing 0)
          (produce 7 ++ SeamAction.attach :: receive ++ release ++ produce 8 ++ receive) =
            some state ∧
        state.claims < 2 ^ 64 ∧ state.handed = [⟨0, 0, 7⟩, ⟨0, 1, 8⟩] :=
    ⟨_, rfl, by decide, by decide⟩
  have run : (seamSystem 1 0).Reaches Undisturbed state :=
    TransitionSystem.Reaches.execute (.start rfl) _
      (by simp [produce, receive, release, Undisturbed]) executed
  have facts := seam_fifo run fits
  exact ⟨state, run, handed, facts.1, facts.2.1⟩

/-! ### Producer restarts under a running consumer -/

/-- The steps of runs in which the producer may be restarted at any point while the
consumer process keeps running. -/
def ProducerRestarts (_ : SeamState Payload) : SeamAction Payload → Prop
  | .kill | .refuse => False
  | _ => True

/-- What the seam owes the consumer across restarts.  Outside the three stores of
`oi_seam_open` the counters are in order, `oi_seam_reserve` never computes a wrapped
difference, and since the last epoch bump the consumer was handed the records published
since then, each once and in order from sequence number zero, and none of an older
epoch; when it waits, the next of them is in the slot it waits for. -/
structure EpochDelivery (capacity : Nat) (state : SeamState Payload) : Prop where
  counters : state.reopening = false →
    state.tail ≤ state.head ∧ state.head ≤ state.tail + capacity
  noWrap : ∀ head tail, state.producer = .loadedTail head tail →
    wrapSub 64 head tail = head - tail ∧ tail ≤ head
  handed : ∀ (k : Nat) (record : SeamRecord Payload), state.handed[k]? = some record →
    state.published[k]? = some record ∧ record.seq = k ∧ record.epoch = state.epoch
  served : ∀ (idx : Nat) (record : SeamRecord Payload), state.consumer = .waiting idx →
    state.published[state.handed.length]? = some record →
    (state.slots (idx % capacity)).status = .ready ∧
      (state.slots (idx % capacity)).record = record

/-- The condition under which restarts are harmless: every epoch bump finds the segment
quiescent, and a consumer does not attach in the middle of `oi_seam_open`. -/
def QuiescentRestarts (capacity : Nat) (state : SeamState Payload)
    (action : SeamAction Payload) : Prop :=
  ProducerRestarts state action ∧
    (action = .bumpEpoch → Quiescent capacity state) ∧
    (action = .attach → state.reopening = false)

private theorem orderly_of_quiescentRestarts (state : SeamState Payload)
    (action : SeamAction Payload) (allowed : QuiescentRestarts capacity state action) :
    Orderly capacity state action := by
  obtain ⟨restarts, quiescent, attach⟩ := allowed
  cases action <;> simp_all [ProducerRestarts, Orderly]

/-- In every run whose restarts are quiescent, every state keeps what the seam owes. -/
theorem epoch_delivery_of_quiescent_restarts
    (run : (seamSystem capacity zero).Reaches (QuiescentRestarts capacity) state)
    (fits : state.claims < 2 ^ 64) : EpochDelivery capacity state := by
  have invariant : ∀ state : SeamState Payload,
      (seamSystem capacity zero).Reaches (QuiescentRestarts capacity) state →
      state.claims < 2 ^ 64 → ∃ lap, RingInvariant capacity lap state :=
    fun _ run fits => ringInvariant_of_reaches
      (run.strengthen (fun _ => True) (fun _ _ => trivial)
        (fun state action _ => orderly_of_quiescentRestarts state action)) fits
  obtain ⟨lap, inv⟩ := invariant state run fits
  have inOrder : HandedInOrder state :=
    handedInOrder_of_reaches
      (fun _ action allowed => by
        rintro rfl
        exact allowed.1) invariant run fits
  refine ⟨inv.counters, ?_, fun k record found => inv.handed_record inOrder found,
    fun idx record waiting next => inv.waiting_slot inOrder waiting next⟩
  intro head tail pc
  have facts := inv.producer
  have budget := inv.budget
  simp only [ProducerFacts, pc] at facts
  obtain ⟨stable, published, rfl, older⟩ := facts
  have ordered := (inv.counters stable).1
  exact ⟨wrapSub_eq (by omega) (by omega), by omega⟩

/-- A drained ring whose consumer stands at the start of the ring is quiescent. -/
theorem RingInvariant.quiescent_of_drained (inv : RingInvariant capacity lap state)
    (drained : state.released = state.published.length) {idx : Nat}
    (nextWait : state.consumer.nextWait? = some idx) (start : idx % capacity = 0) :
    Quiescent capacity state := by
  refine ⟨fun phys => inv.outside phys fun k ge lt => ?_, .inr ⟨idx, nextWait, start⟩⟩
  omega

/-- A ring restarted after its only slot has been released. -/
theorem epoch_delivery_after_full_lap :
    ∃ state : SeamState Nat, (seamSystem 1 0).Reaches (QuiescentRestarts 1) state ∧
      state.epoch = 1 ∧ state.handed = [⟨1, 0, 8⟩] ∧ EpochDelivery 1 state := by
  -- the attach and the bump are the two steps with a condition on the state
  obtain ⟨drained, bumped, last, toDrained, toBumped, toLast, fits, counts, nextWait,
      fitsLast, epoch, handed⟩ :
      ∃ drained bumped last,
        TransitionSystem.execute (seamStep 1) { freshRing 0 with consumer := .waiting 0 }
          (produce 7 ++ receive ++ release ++ [SeamAction.restart]) = some drained ∧
        seamStep 1 drained .bumpEpoch = some bumped ∧
        TransitionSystem.execute (seamStep 1) bumped
          ([SeamAction.resetHead, SeamAction.resetTail] ++ produce 8 ++ receive) = some last ∧
        drained.claims < 2 ^ 64 ∧ drained.released = drained.published.length ∧
        drained.consumer.nextWait? = some 1 ∧ last.claims < 2 ^ 64 ∧ last.epoch = 1 ∧
        last.handed = [⟨1, 0, 8⟩] :=
    ⟨_, _, _, rfl, rfl, rfl, by decide, by decide, by decide, by decide, by decide,
      by decide⟩
  have attached : (seamSystem 1 0).Reaches (QuiescentRestarts 1)
      { freshRing 0 with consumer := .waiting 0 } :=
    .next (.start rfl)
      (show QuiescentRestarts 1 (freshRing 0) .attach from ⟨trivial, nofun, fun _ => rfl⟩) rfl
  have toDrained := attached.execute _
    (by simp [produce, receive, release, QuiescentRestarts, ProducerRestarts]) toDrained
  obtain ⟨lap, inv⟩ := ringInvariant_of_reaches
    (toDrained.strengthen (fun _ => True) (fun _ _ => trivial)
      (fun state action _ => orderly_of_quiescentRestarts state action)) fits
  have toBumped : (seamSystem 1 0).Reaches (QuiescentRestarts 1) bumped :=
    .next toDrained
      (show QuiescentRestarts 1 drained .bumpEpoch from
        ⟨trivial, fun _ => inv.quiescent_of_drained counts nextWait rfl, nofun⟩) toBumped
  have toLast := toBumped.execute _
    (by simp [produce, receive, QuiescentRestarts, ProducerRestarts]) toLast
  exact ⟨last, toLast, epoch, handed, epoch_delivery_of_quiescent_restarts toLast fitsLast⟩

/-- A restart of the producer process and its `oi_seam_open`. -/
private def reopen : List (SeamAction Nat) := [.restart, .bumpEpoch, .resetHead, .resetTail]

/-- A restart under a running consumer breaks both halves: a release in flight
increments the reset tail past the head, and a record published before the bump is handed
out after it. -/
theorem restart_breaks_delivery :
    (¬ ∀ state : SeamState Nat, (seamSystem 1 0).Reaches ProducerRestarts state →
        state.reopening = false → state.tail ≤ state.head) ∧
      ¬ ∀ state : SeamState Nat, (seamSystem 1 0).Reaches ProducerRestarts state →
        ∀ record ∈ state.handed, record.epoch = state.epoch := by
  constructor
  · intro claim
    obtain ⟨state, executed, stable, broken⟩ :
        ∃ state, TransitionSystem.execute (seamStep 1) (freshRing 0)
            (produce 7 ++ SeamAction.attach :: receive ++ SeamAction.storeDone :: reopen ++
              [SeamAction.addTail]) = some state ∧
          state.reopening = false ∧ ¬ state.tail ≤ state.head :=
      ⟨_, rfl, by decide, by decide⟩
    exact broken (claim state (TransitionSystem.Reaches.execute (.start rfl) _
      (by simp [produce, receive, reopen, ProducerRestarts]) executed) stable)
  · intro claim
    obtain ⟨state, executed, broken⟩ :
        ∃ state, TransitionSystem.execute (seamStep 1) (freshRing 0)
            (produce 7 ++ SeamAction.attach :: reopen ++ receive) = some state ∧
          ¬ ∀ record ∈ state.handed, record.epoch = state.epoch :=
      ⟨_, rfl, by decide⟩
    exact broken (claim state (TransitionSystem.Reaches.execute (.start rfl) _
      (by simp [produce, receive, reopen, ProducerRestarts]) executed))

/-! ### Consumer crashes under a running producer -/

/-- The steps of runs in which the consumer process may be killed between any two of its
steps and started again, while the producer keeps running. -/
def ConsumerCrashes (_ : SeamState Payload) : SeamAction Payload → Prop
  | .restart | .refuse => False
  | _ => True

/-- The index a consumer waits at, or would start at. -/
def SeamState.resumeIndex? (state : SeamState Payload) : Option Nat :=
  match state.consumer with
  | .down => some state.tail
  | .waiting idx => some idx
  | _ => none

/-- No published record is lost to a consumer that starts or waits: it does so at the
tail, every published record from there on is in its slot and `READY`, and every record
before it was handed to some consumer process. -/
def ResumePoint (capacity : Nat) (state : SeamState Payload) : Prop :=
  ∀ idx, state.resumeIndex? = some idx →
    idx = state.tail ∧
      (∀ (k : Nat) (record : SeamRecord Payload), state.tail ≤ k →
        state.published[k]? = some record →
        (state.slots (k % capacity)).status = .ready ∧
          (state.slots (k % capacity)).record = record) ∧
      ∀ (k : Nat) (record : SeamRecord Payload), k < state.tail →
        state.published[k]? = some record → record ∈ state.handed

/-- The condition under which crashes are harmless: no kill falls between the `DONE`
store and the tail increment of `oi_seam_release`. -/
def CrashesOutsideRelease (state : SeamState Payload) (action : SeamAction Payload) : Prop :=
  ConsumerCrashes state action ∧
    (action = .kill → ∀ idx, state.consumer ≠ .markedDone idx)

private theorem orderly_of_crashesOutsideRelease (state : SeamState Payload)
    (action : SeamAction Payload) (stable : state.reopening = false)
    (sameEpoch : action ≠ .bumpEpoch) (allowed : CrashesOutsideRelease state action) :
    Orderly capacity state action := by
  obtain ⟨crashes, outside⟩ := allowed
  cases action <;> simp_all [ConsumerCrashes, Orderly]

/-- In every run whose kills fall outside the release, every state in which a consumer
starts or waits is a resume point. -/
theorem resume_point_of_crashes_outside_release
    (run : (seamSystem capacity zero).Reaches CrashesOutsideRelease state)
    (fits : state.claims < 2 ^ 64) : ResumePoint capacity state := by
  have noRestart : ∀ (state : SeamState Payload) (action : SeamAction Payload),
      CrashesOutsideRelease state action → action ≠ .restart := by
    rintro state action ⟨allowed, _⟩ rfl
    exact allowed
  have inv := ringInvariant_zero_of_reaches orderly_of_crashesOutsideRelease noRestart run fits
  obtain ⟨orderly, stable, _⟩ :=
    orderly_of_no_restart orderly_of_crashesOutsideRelease noRestart run
  have handed := handedAll_of_reaches orderly fits
  have released : state.released = state.tail := by simp [SeamState.released, stable]
  intro idx resume
  have facts := inv.consumer
  have notDone : ∀ idx, state.consumer ≠ .markedDone idx := by
    intro other marked
    simp [SeamState.resumeIndex?, marked] at resume
  refine ⟨?_, ?_, ?_⟩
  · cases pc : state.consumer <;>
      simp only [SeamState.resumeIndex?, pc, reduceCtorEq, Option.some.injEq] at resume <;>
      simp only [ConsumerFacts, pc] at facts
    case down => exact resume.symm
    case waiting => omega
  · intro k record ge found
    have less : k < state.published.length := (List.getElem?_eq_some_iff.mp found).1
    obtain ⟨held, status⟩ := inv.window k (by omega) less
    refine ⟨?_, Option.some.inj (held.symm.trans found)⟩
    rcases status with ready | ⟨_, other, marked⟩
    · exact ready
    · exact absurd marked (notDone other)
  · intro k record less found
    have := state.released_le_readCount
    exact handed k record (by omega) found

/-- A consumer killed after reading a record, before the release, is handed the record
again when it restarts. -/
theorem resume_point_after_crash_before_release :
    ∃ state : SeamState Nat, (seamSystem 1 0).Reaches CrashesOutsideRelease state ∧
      state.handed = [⟨0, 0, 7⟩, ⟨0, 0, 7⟩] ∧ ResumePoint 1 state := by
  obtain ⟨read, killed, last, toRead, toKilled, toLast, consumer, fits, handed⟩ :
      ∃ read killed last,
        TransitionSystem.execute (seamStep 1) (freshRing 0)
          (produce 7 ++ SeamAction.attach :: receive) = some read ∧
        seamStep 1 read .kill = some killed ∧
        TransitionSystem.execute (seamStep 1) killed
          (SeamAction.attach :: receive ++ release) = some last ∧
        read.consumer = .processed 0 ∧ last.claims < 2 ^ 64 ∧
        last.handed = [⟨0, 0, 7⟩, ⟨0, 0, 7⟩] :=
    ⟨_, _, _, rfl, rfl, rfl, by decide, by decide, by decide⟩
  have toRead : (seamSystem 1 0).Reaches CrashesOutsideRelease read :=
    TransitionSystem.Reaches.execute (.start rfl) _
      (by simp [produce, receive, CrashesOutsideRelease, ConsumerCrashes]) toRead
  have toKilled : (seamSystem 1 0).Reaches CrashesOutsideRelease killed :=
    .next toRead
      (show CrashesOutsideRelease read .kill from ⟨trivial, fun _ idx => by simp [consumer]⟩)
      toKilled
  have toLast := toKilled.execute _
    (by simp [receive, release, CrashesOutsideRelease, ConsumerCrashes]) toLast
  exact ⟨last, toLast, handed, resume_point_of_crashes_outside_release toLast fits⟩

/-- A kill between the two stores of the release leaves the next consumer waiting at the
tail for a record that is already `DONE`. -/
theorem crash_inside_release_loses_record :
    ¬ ∀ state : SeamState Nat, (seamSystem 1 0).Reaches ConsumerCrashes state →
        ResumePoint 1 state := by
  intro claim
  obtain ⟨state, executed, resume, published, done⟩ :
      ∃ state, TransitionSystem.execute (seamStep 1) (freshRing 0)
          (produce 7 ++ SeamAction.attach :: receive ++
            [SeamAction.storeDone, SeamAction.kill, SeamAction.attach]) = some state ∧
        state.resumeIndex? = some 0 ∧ state.published[0]? = some ⟨0, 0, 7⟩ ∧
        (state.slots (0 % 1)).status = .done :=
    ⟨_, rfl, by decide, by decide, by decide⟩
  have point := claim state (TransitionSystem.Reaches.execute (.start rfl) _
    (by simp [produce, receive, ConsumerCrashes]) executed) 0 resume
  have ready := (point.2.1 0 _ (Nat.le_of_eq point.1.symm) published).1
  rw [done] at ready
  cases ready

end RanInline.Seam
