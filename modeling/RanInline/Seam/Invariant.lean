/-
Module: RanInline.Seam.Invariant
Purpose: The invariant that ties head, tail, the consumer's private index, every slot's
  status word and both program counters together, and its preservation along every
  orderly run.
Trusted boundary: none
Main exports: Quiescent, Orderly, RingInvariant, ringInvariant_of_reaches
-/
import RanInline.Seam.Move

namespace RanInline.Seam

open RanInline.Lib

variable {Payload : Type} {capacity lap : Nat} {state before after : SeamState Payload}

/-- Claimed sequence numbers that are not published yet. -/
def ProducerPc.inFlight : ProducerPc → Nat
  | .claimed _ | .wroteSeq _ | .wroteEpoch _ | .filling _ => 1
  | _ => 0

/-- The number of records released since the last epoch bump.  While the tail store that
belongs to the bump is missing, the tail still counts the releases of the epoch before. -/
def SeamState.released (state : SeamState Payload) : Nat :=
  if state.reopening then 0 else state.tail

/-- The index of the consumer's next wait, when it has no release outstanding. -/
def ConsumerPc.nextWait? : ConsumerPc → Option Nat
  | .waiting idx => some idx
  | .advancedTail idx _ => some (idx + 1)
  | _ => none

/-- The segment may be reinitialised without the running consumer noticing: no slot is
`READY`, and the consumer either is not attached or is about to wait for a slot at the
start of the ring, with no release outstanding. -/
def Quiescent (capacity : Nat) (state : SeamState Payload) : Prop :=
  (∀ phys, (state.slots phys).status ≠ .ready) ∧
    (state.consumer = .down ∨
      ∃ idx, state.consumer.nextWait? = some idx ∧ idx % capacity = 0)

/-- The steps of the runs on which the ring keeps its promises. -/
def Orderly (capacity : Nat) (state : SeamState Payload) : SeamAction Payload → Prop
  | .refuse => False
  | .kill => ∀ idx, state.consumer ≠ .markedDone idx
  | .attach => state.reopening = false
  | .bumpEpoch => Quiescent capacity state
  | _ => True

/-- What the producer's program counter says about the counters and its own slot. -/
def ProducerFacts (capacity : Nat) (state : SeamState Payload) : Prop :=
  match state.producer with
  | .idle => state.reopening = false ∧ state.head = state.published.length
  | .loadedHead head =>
      state.reopening = false ∧ state.head = state.published.length ∧ head = state.head
  | .loadedTail head tail =>
      state.reopening = false ∧ state.head = state.published.length ∧ head = state.head ∧
        tail ≤ state.tail
  | .claimed head =>
      state.reopening = false ∧ state.head = state.published.length + 1 ∧
        head = state.published.length
  | .wroteSeq head =>
      state.reopening = false ∧ state.head = state.published.length + 1 ∧
        head = state.published.length ∧ (state.slots (head % capacity)).seq = head
  | .wroteEpoch head | .filling head =>
      state.reopening = false ∧ state.head = state.published.length + 1 ∧
        head = state.published.length ∧ (state.slots (head % capacity)).seq = head ∧
        (state.slots (head % capacity)).epoch = state.epoch
  | .opening =>
      if state.reopening then state.published.length = 0
      else state.head = state.published.length ∨ state.head = state.published.length + 1
  | .bumpedEpoch => state.reopening = true ∧ state.published.length = 0
  | .headReset => state.reopening = true ∧ state.published.length = 0 ∧ state.head = 0

/-- What the consumer's program counter says about its private index.  The index of
record `k` of the current epoch is `capacity * lap + k`. -/
def ConsumerFacts (capacity lap : Nat) (state : SeamState Payload) : Prop :=
  match state.consumer with
  | .down => True
  | .waiting idx => idx = capacity * lap + state.released
  | .reading idx | .processed idx =>
      idx = capacity * lap + state.released ∧ state.released < state.published.length
  | .readingPayload idx epoch seq =>
      idx = capacity * lap + state.released ∧ state.released < state.published.length ∧
        epoch = state.epoch ∧ seq = state.released
  | .markedDone idx =>
      idx = capacity * lap + state.released ∧ state.released < state.published.length ∧
        (state.slots (state.released % capacity)).status = .done
  | .advancedTail idx _ => idx + 1 = capacity * lap + state.released

/-- Every published and unreleased record is in its slot, `READY` unless the consumer is
between the `DONE` store and the tail increment of this very record. -/
def WindowFacts (capacity : Nat) (state : SeamState Payload) : Prop :=
  ∀ k, state.released ≤ k → k < state.published.length →
    state.published[k]? = some (state.slots (k % capacity)).record ∧
      ((state.slots (k % capacity)).status = .ready ∨
        (k = state.released ∧ ∃ idx, state.consumer = .markedDone idx))

/-- No slot outside the window of unreleased records is `READY`. -/
def OutsideFacts (capacity : Nat) (state : SeamState Payload) : Prop :=
  ∀ phys, (∀ k, state.released ≤ k → k < state.published.length → k % capacity ≠ phys) →
    (state.slots phys).status ≠ .ready

/-- The invariant of the ring. -/
structure RingInvariant (capacity lap : Nat) (state : SeamState Payload) : Prop where
  producer : ProducerFacts capacity state
  consumer : ConsumerFacts capacity lap state
  ordered : state.released ≤ state.published.length
  bound : state.reopening = false → state.head ≤ state.tail + capacity
  budget : capacity * lap + state.published.length + state.producer.inFlight ≤ state.claims
  window : WindowFacts capacity state
  outside : OutsideFacts capacity state
  numbered : ∀ (k : Nat) (record : SeamRecord Payload), state.published[k]? = some record →
    record.seq = k ∧ record.epoch = state.epoch

theorem ringInvariant_freshRing (zero : Payload) :
    RingInvariant capacity 0 (freshRing zero) where
  producer := ⟨rfl, rfl⟩
  consumer := trivial
  ordered := Nat.le_refl 0
  bound := fun _ => Nat.zero_le _
  budget := Nat.le_refl 0
  window := fun k _ small => absurd small (Nat.not_lt_zero k)
  outside := fun _ _ => by simp [freshRing]
  numbered := by simp [freshRing]

theorem claims_mono {action : SeamAction Payload}
    (move : SeamMove capacity before action after) : before.claims ≤ after.claims := by
  cases move <;> simp [SeamState.modifySlot, SeamState.publishRecord]

namespace RingInvariant

/-! ### Moves that leave the slots alone -/

/-- A producer move that changes only its program counter, the head and the claim
count. -/
theorem setProducer (inv : RingInvariant capacity lap before)
    (head claims : Nat) (pc : ProducerPc)
    (producer : ProducerFacts capacity
      { before with head := head, producer := pc, claims := claims })
    (bound : before.reopening = false → head ≤ before.tail + capacity)
    (budget : capacity * lap + before.published.length + pc.inFlight ≤ claims) :
    RingInvariant capacity lap
      { before with head := head, producer := pc, claims := claims } where
  producer := producer
  consumer := inv.consumer
  ordered := inv.ordered
  bound := bound
  budget := budget
  window := inv.window
  outside := inv.outside
  numbered := inv.numbered

/-- A consumer move that changes only its program counter and what it has read. -/
theorem setConsumer (inv : RingInvariant capacity lap before)
    (pc : ConsumerPc) (handed : List (SeamRecord Payload))
    (consumerState : Option (Nat × Nat))
    (notDone : ∀ idx, before.consumer ≠ .markedDone idx)
    (consumer : ConsumerFacts capacity lap
      { before with
        consumer := pc, handed := handed, consumerState := consumerState }) :
    RingInvariant capacity lap
      { before with
        consumer := pc, handed := handed, consumerState := consumerState } where
  producer := inv.producer
  consumer := consumer
  ordered := inv.ordered
  bound := inv.bound
  budget := inv.budget
  window := by
    intro k ge lt
    obtain ⟨held, status⟩ := inv.window k ge lt
    refine ⟨held, .inl ?_⟩
    rcases status with ready | ⟨_, idx, marked⟩
    · exact ready
    · exact absurd marked (notDone idx)
  outside := inv.outside
  numbered := inv.numbered

/-! ### The producer's own slot -/

/-- While a claim is held, its slot is outside the window of unreleased records. -/
theorem claimed_outside (inv : RingInvariant capacity lap before)
    (stable : before.reopening = false)
    (held : before.head = before.published.length + 1) {k : Nat}
    (ge : before.released ≤ k) (lt : k < before.published.length) :
    k % capacity ≠ before.published.length % capacity := by
  have bound := inv.bound stable
  have released : before.released = before.tail := by simp [SeamState.released, stable]
  exact mod_ne_of_window lt (by omega)

/-- A producer write into the slot it has claimed. -/
theorem writeClaimed (inv : RingInvariant capacity lap before)
    (stable : before.reopening = false)
    (held : before.head = before.published.length + 1)
    (change : OiSeamSlot Payload → OiSeamSlot Payload) (pc : ProducerPc)
    (notReady : (change (before.slots (before.published.length % capacity))).status ≠ .ready)
    (producer : ProducerFacts capacity
      { before.modifySlot (before.published.length % capacity) change with producer := pc })
    (inFlight : pc.inFlight = before.producer.inFlight) :
    RingInvariant capacity lap
      { before.modifySlot (before.published.length % capacity) change with
        producer := pc } where
  producer := producer
  consumer := by
    have facts := inv.consumer
    cases pcEq : before.consumer with
    | markedDone idx =>
        simp only [ConsumerFacts, pcEq] at facts
        obtain ⟨index, less, done⟩ := facts
        have other := inv.claimed_outside stable held (Nat.le_refl _) less
        simp only [ConsumerFacts, SeamState.modifySlot, pcEq]
        refine ⟨index, less, ?_⟩
        rw [← done]
        exact congrArg OiSeamSlot.status (Function.update_of_ne other _ _)
    | down => simp only [ConsumerFacts, SeamState.modifySlot, pcEq]
    | waiting | reading | readingPayload | processed | advancedTail =>
        simp only [ConsumerFacts, pcEq] at facts
        simp only [ConsumerFacts, SeamState.modifySlot, pcEq]
        exact facts
  ordered := inv.ordered
  bound := inv.bound
  budget := by
    rw [inFlight]
    exact inv.budget
  window := by
    intro k ge lt
    have other := inv.claimed_outside stable held ge lt
    simp only [SeamState.modifySlot, Function.update_of_ne other]
    exact inv.window k ge lt
  outside := by
    intro phys out
    by_cases own : phys = before.published.length % capacity
    · subst own
      simpa [SeamState.modifySlot] using notReady
    · simp only [SeamState.modifySlot, Function.update_of_ne own]
      exact inv.outside phys out
  numbered := inv.numbered

/-- Publishing moves the claimed slot into the window. -/
theorem publish (inv : RingInvariant capacity lap before) {head : Nat}
    (pc : before.producer = .filling head) :
    RingInvariant capacity lap
      { (before.publishRecord (head % capacity)).modifySlot (head % capacity)
          (fun slot => { slot with status := .ready }) with
        producer := .idle } := by
  have facts := inv.producer
  simp only [ProducerFacts, pc] at facts
  obtain ⟨stable, held, rfl, seq, epoch⟩ := facts
  have budget := inv.budget
  rw [pc] at budget
  constructor
  case producer =>
    simp [ProducerFacts, SeamState.modifySlot, SeamState.publishRecord, stable, held]
  case consumer =>
    have consumer := inv.consumer
    cases pcEq : before.consumer with
    | markedDone idx =>
        simp only [ConsumerFacts, pcEq] at consumer
        obtain ⟨index, less, done⟩ := consumer
        have other := inv.claimed_outside stable held (Nat.le_refl _) less
        simp only [ConsumerFacts, SeamState.modifySlot, SeamState.publishRecord, pcEq,
          List.length_append, List.length_singleton]
        refine ⟨index, Nat.lt_succ_of_lt less, ?_⟩
        rw [← done]
        exact congrArg OiSeamSlot.status (Function.update_of_ne other _ _)
    | down => simp only [ConsumerFacts, SeamState.modifySlot, SeamState.publishRecord, pcEq]
    | waiting | advancedTail =>
        simp only [ConsumerFacts, pcEq] at consumer
        simp only [ConsumerFacts, SeamState.modifySlot, SeamState.publishRecord, pcEq]
        exact consumer
    | reading | processed =>
        simp only [ConsumerFacts, pcEq] at consumer
        simp only [ConsumerFacts, SeamState.modifySlot, SeamState.publishRecord, pcEq,
          List.length_append, List.length_singleton]
        exact ⟨consumer.1, Nat.lt_succ_of_lt consumer.2⟩
    | readingPayload =>
        simp only [ConsumerFacts, pcEq] at consumer
        simp only [ConsumerFacts, SeamState.modifySlot, SeamState.publishRecord, pcEq,
          List.length_append, List.length_singleton]
        exact ⟨consumer.1, Nat.lt_succ_of_lt consumer.2.1, consumer.2.2⟩
  case ordered =>
    simp only [SeamState.modifySlot, SeamState.publishRecord, List.length_append]
    exact Nat.le_succ_of_le inv.ordered
  case bound => exact inv.bound
  case budget =>
    simp only [SeamState.modifySlot, SeamState.publishRecord, List.length_append,
      List.length_singleton, ProducerPc.inFlight] at budget ⊢
    omega
  case window =>
    intro k ge lt
    simp only [SeamState.modifySlot, SeamState.publishRecord, List.length_append,
      List.length_singleton] at lt ⊢
    by_cases last : k = before.published.length
    · subst last
      simp [OiSeamSlot.record]
    · have small : k < before.published.length := by omega
      have other := inv.claimed_outside stable held ge small
      rw [Function.update_of_ne other, List.getElem?_append_left small]
      exact inv.window k ge small
  case outside =>
    intro phys out
    simp only [SeamState.modifySlot, SeamState.publishRecord, List.length_append,
      List.length_singleton] at out ⊢
    have other : phys ≠ before.published.length % capacity :=
      fun own => out _ inv.ordered (Nat.lt_succ_self _) own.symm
    rw [Function.update_of_ne other]
    exact inv.outside phys fun k ge lt => out k ge (Nat.lt_succ_of_lt lt)
  case numbered =>
    intro k record found
    simp only [SeamState.modifySlot, SeamState.publishRecord] at found ⊢
    rw [List.getElem?_append] at found
    split at found
    case isTrue => exact inv.numbered k record found
    case isFalse large =>
      have last : k = before.published.length := by
        by_contra other
        rw [List.getElem?_eq_none (by simp; omega)] at found
        cases found
      subst last
      simp only [Nat.sub_self, List.getElem?_cons_zero, Option.some.injEq] at found
      subst found
      exact ⟨seq, epoch⟩

/-! ### Releasing a record -/

/-- With a published record left, no reinitialisation is under way. -/
theorem stable_of_published (inv : RingInvariant capacity lap before)
    (some : before.released < before.published.length) : before.reopening = false := by
  have facts := inv.producer
  cases pc : before.producer <;> simp only [ProducerFacts, pc] at facts
  case opening =>
    by_contra stale
    simp only [Bool.not_eq_false] at stale
    simp only [stale, if_true] at facts
    omega
  case bumpedEpoch => omega
  case headReset => omega
  all_goals exact facts.1

/-- The published records have all been claimed. -/
theorem published_le_head (inv : RingInvariant capacity lap before)
    (stable : before.reopening = false) : before.published.length ≤ before.head := by
  have facts := inv.producer
  cases pc : before.producer <;> simp only [ProducerFacts, pc, stable] at facts
  case opening =>
    simp only [Bool.false_eq_true, if_false] at facts
    omega
  all_goals omega

/-- The unreleased records of the window have pairwise different slots. -/
theorem window_injective (inv : RingInvariant capacity lap before)
    {k : Nat} (gt : before.released < k) (lt : k < before.published.length) :
    k % capacity ≠ before.released % capacity := by
  have stable := inv.stable_of_published (by omega)
  have bound := inv.bound stable
  have claimed := inv.published_le_head stable
  have released : before.released = before.tail := by simp [SeamState.released, stable]
  exact (mod_ne_of_window gt (by omega)).symm

/-- The `DONE` store touches the status word of the oldest unreleased record only. -/
theorem storeDone (inv : RingInvariant capacity lap before) {idx : Nat}
    (pc : before.consumer = .processed idx) :
    RingInvariant capacity lap
      { before.modifySlot (idx % capacity) (fun slot => { slot with status := .done }) with
        consumer := .markedDone idx } := by
  have facts := inv.consumer
  simp only [ConsumerFacts, pc] at facts
  obtain ⟨rfl, less⟩ := facts
  rw [Nat.mul_add_mod]
  constructor
  case producer =>
    have producer := inv.producer
    cases pcEq : before.producer <;>
      simp only [ProducerFacts, SeamState.modifySlot, pcEq, Function.update_apply] at producer ⊢
    case wroteSeq | wroteEpoch | filling =>
      split
      case isTrue own =>
        rw [own] at producer
        exact producer
      case isFalse => exact producer
    all_goals exact producer
  case consumer =>
    simp only [ConsumerFacts, SeamState.modifySlot]
    refine ⟨rfl, less, ?_⟩
    change (Function.update before.slots (before.released % capacity) _
      (before.released % capacity)).status = .done
    rw [Function.update_self]
  case ordered => exact inv.ordered
  case bound => exact inv.bound
  case budget => exact inv.budget
  case window =>
    intro k ge lt
    obtain ⟨held, status⟩ := inv.window k ge lt
    simp only [SeamState.modifySlot]
    by_cases oldest : k = before.released
    · subst oldest
      rw [Function.update_self]
      exact ⟨held, .inr ⟨rfl, _, rfl⟩⟩
    · have gt : before.released < k := by
        have : before.released ≤ k := ge
        omega
      rw [Function.update_of_ne (inv.window_injective gt lt)]
      refine ⟨held, .inl ?_⟩
      rcases status with ready | ⟨same, _⟩
      · exact ready
      · exact absurd same oldest
  case outside =>
    intro phys out
    simp only [SeamState.modifySlot, Function.update_apply]
    split
    case isTrue => simp
    case isFalse => exact inv.outside phys out
  case numbered => exact inv.numbered

/-- The tail increment takes the released record out of the window. -/
theorem addTail (inv : RingInvariant capacity lap before) {idx : Nat}
    (pc : before.consumer = .markedDone idx) (fits : before.claims < 2 ^ 64) :
    RingInvariant capacity lap
      { before with
        tail := wrapAdd 64 before.tail 1
        consumer := .advancedTail idx (wrapAdd 64 before.tail 1) } := by
  have facts := inv.consumer
  simp only [ConsumerFacts, pc] at facts
  obtain ⟨index, less, done⟩ := facts
  have stable := inv.stable_of_published less
  have released : before.released = before.tail := by simp [SeamState.released, stable]
  have bound := inv.bound stable
  have budget := inv.budget
  rw [wrapAdd_eq (by omega)]
  have advanced : ({ before with
      tail := before.tail + 1
      consumer := .advancedTail idx (before.tail + 1) } : SeamState Payload).released =
        before.tail + 1 := by simp [SeamState.released, stable]
  constructor
  case producer =>
    have producer := inv.producer
    cases pcEq : before.producer <;> simp only [ProducerFacts, pcEq] at producer ⊢
    case loadedTail => exact ⟨producer.1, producer.2.1, producer.2.2.1, by omega⟩
    all_goals exact producer
  case consumer =>
    simp only [ConsumerFacts, advanced]
    omega
  case ordered =>
    rw [advanced]
    simp only
    omega
  case bound =>
    intro _
    simp only
    omega
  case budget => exact inv.budget
  case window =>
    intro k ge lt
    rw [advanced] at ge
    obtain ⟨held, status⟩ := inv.window k (by omega) lt
    refine ⟨held, .inl ?_⟩
    rcases status with ready | ⟨same, _⟩
    · exact ready
    · omega
  case outside =>
    intro phys out
    rw [advanced] at out
    by_cases own : phys = before.released % capacity
    · subst own
      simp [done]
    · refine inv.outside phys fun k ge lt => ?_
      rcases Nat.lt_or_ge k (before.tail + 1) with old | new
      · have oldest : k = before.released := by omega
        exact oldest ▸ fun same => own same.symm
      · exact out k new lt
  case numbered => exact inv.numbered

/-! ### Reinitialising the segment -/

/-- The next wait is for the oldest unreleased record. -/
theorem nextWait_eq (inv : RingInvariant capacity lap before) {next : Nat}
    (nextWait : before.consumer.nextWait? = some next) :
    next = capacity * lap + before.released := by
  have facts := inv.consumer
  cases pc : before.consumer <;>
    simp only [ConsumerPc.nextWait?, pc, reduceCtorEq, Option.some.injEq] at nextWait <;>
    simp only [ConsumerFacts, pc] at facts
  case waiting => omega
  case advancedTail => omega

/-- At a quiescent segment the epoch bump starts an empty window at the slot the consumer
waits for. -/
theorem bumpEpoch (inv : RingInvariant capacity lap before)
    (quiescent : Quiescent capacity before) :
    ∃ lap, RingInvariant capacity lap
      { before with
        epoch := wrapAdd 32 before.epoch 1
        producer := .bumpedEpoch
        reopening := true
        published := []
        handed := [] } := by
  obtain ⟨notReady, consumer⟩ := quiescent
  have budget := inv.budget
  have ordered := inv.ordered
  have assemble : ∀ lap', capacity * lap' ≤ before.claims →
      ConsumerFacts capacity lap'
        { before with
          epoch := wrapAdd 32 before.epoch 1
          producer := .bumpedEpoch
          reopening := true
          published := []
          handed := [] } →
      RingInvariant capacity lap'
        { before with
          epoch := wrapAdd 32 before.epoch 1
          producer := .bumpedEpoch
          reopening := true
          published := []
          handed := [] } := by
    intro lap' small facts
    exact
      { producer := ⟨rfl, rfl⟩
        consumer := facts
        ordered := Nat.le_refl 0
        bound := fun stable => absurd stable (by simp)
        budget := small
        window := fun k _ lt => absurd lt (Nat.not_lt_zero k)
        outside := fun phys _ => notReady phys
        numbered := by simp }
  rcases consumer with down | ⟨next, nextWait, start⟩
  · refine ⟨0, assemble 0 (Nat.zero_le _) ?_⟩
    simp only [ConsumerFacts, down]
  · -- the new lap starts at the index the consumer waits at next
    have multiple : capacity * (next / capacity) = next :=
      Nat.mul_div_cancel' (Nat.dvd_of_mod_eq_zero start)
    have index := inv.nextWait_eq nextWait
    refine ⟨next / capacity, assemble (next / capacity) (by omega) ?_⟩
    cases pc : before.consumer <;>
      simp only [ConsumerPc.nextWait?, pc, reduceCtorEq, Option.some.injEq] at nextWait
    case waiting idx =>
      simp only [ConsumerFacts, SeamState.released, if_true]
      omega
    case advancedTail idx newTail =>
      simp only [ConsumerFacts, SeamState.released, if_true]
      omega

/-- The tail store ends the reinitialisation with both counters at zero. -/
theorem resetTail (inv : RingInvariant capacity lap before)
    (pc : before.producer = .headReset) :
    RingInvariant capacity lap
      { before with tail := 0, producer := .idle, reopening := false } := by
  have facts := inv.producer
  simp only [ProducerFacts, pc] at facts
  obtain ⟨stale, empty, head⟩ := facts
  have released : before.released = 0 := by simp [SeamState.released, stale]
  have released' : ({ before with tail := 0, producer := .idle, reopening := false } :
      SeamState Payload).released = 0 := rfl
  have budget := inv.budget
  constructor
  case producer => exact ⟨rfl, head.trans empty.symm⟩
  case consumer =>
    have consumer := inv.consumer
    simp only [ConsumerFacts, released] at consumer
    simp only [ConsumerFacts, released']
    exact consumer
  case ordered => exact Nat.zero_le _
  case bound => simp [head]
  case budget =>
    simp only [pc, ProducerPc.inFlight] at budget ⊢
    omega
  case window =>
    intro k _ lt
    simp only [empty, Nat.not_lt_zero] at lt
  case outside =>
    intro phys _
    exact inv.outside phys fun k _ lt => by omega
  case numbered => exact inv.numbered

/-- Every orderly move but the epoch bump keeps the invariant at its lap, or at lap zero
when a consumer attaches, as long as fewer than `2 ^ 64` sequence numbers have been
claimed. -/
theorem preserved_of_ne_bump {action : SeamAction Payload} (inv : RingInvariant capacity lap before)
    (allowed : Orderly capacity before action)
    (move : SeamMove capacity before action after) (fits : after.claims < 2 ^ 64)
    (sameEpoch : action ≠ .bumpEpoch) :
    ∃ lap' ≤ lap, RingInvariant capacity lap' after := by
  have producer := inv.producer
  have consumer := inv.consumer
  have budget := inv.budget
  have ordered := inv.ordered
  cases move with
  | loadHead pc =>
      simp only [ProducerFacts, pc] at producer
      rw [pc] at budget
      exact ⟨lap, Nat.le_refl _,
        inv.setProducer _ _ _ ⟨producer.1, producer.2, rfl⟩ inv.bound budget⟩
  | loadTail pc =>
      simp only [ProducerFacts, pc] at producer
      rw [pc] at budget
      exact ⟨lap, Nat.le_refl _, inv.setProducer _ _ _
        ⟨producer.1, producer.2.1, producer.2.2, Nat.le_refl _⟩ inv.bound budget⟩
  | @claim head tail pc room same =>
      simp only [ProducerFacts, pc] at producer
      obtain ⟨stable, published, rfl, older⟩ := producer
      simp only [pc, ProducerPc.inFlight] at budget
      have released : before.released = before.tail := by simp [SeamState.released, stable]
      simp only at fits
      rw [wrapSub_eq (by omega) (by omega)] at room
      rw [wrapAdd_eq (by omega)]
      refine ⟨lap, Nat.le_refl _, inv.setProducer _ _ _ ⟨stable, ?_, published⟩ (fun _ => ?_) ?_⟩
      · simp only
        omega
      · omega
      · simp only [ProducerPc.inFlight]
        omega
  | retry pc =>
      simp only [ProducerFacts, pc] at producer
      rw [pc] at budget
      exact ⟨lap, Nat.le_refl _, inv.setProducer _ _ _ ⟨producer.1, producer.2.1⟩ inv.bound budget⟩
  | writeSeq pc =>
      simp only [ProducerFacts, pc] at producer
      obtain ⟨stable, held, rfl⟩ := producer
      refine ⟨lap, Nat.le_refl _, inv.writeClaimed stable held _ _ ?_ ⟨stable, held, rfl, ?_⟩
        (by rw [pc]; rfl)⟩
      · exact inv.outside _ fun k ge lt => inv.claimed_outside stable held ge lt
      · simp [SeamState.modifySlot]
  | writeEpoch pc =>
      simp only [ProducerFacts, pc] at producer
      obtain ⟨stable, held, rfl, seq⟩ := producer
      refine ⟨lap, Nat.le_refl _, inv.writeClaimed stable held _ _ ?_ ⟨stable, held, rfl, ?_, ?_⟩
        (by rw [pc]; rfl)⟩
      · exact inv.outside _ fun k ge lt => inv.claimed_outside stable held ge lt
      · simpa [SeamState.modifySlot] using seq
      · simp [SeamState.modifySlot]
  | storeReserved pc =>
      simp only [ProducerFacts, pc] at producer
      obtain ⟨stable, held, rfl, seq, epoch⟩ := producer
      refine ⟨lap, Nat.le_refl _, inv.writeClaimed stable held _ _ (by simp)
        ⟨stable, held, rfl, ?_, ?_⟩ (by rw [pc]; rfl)⟩
      · simpa [SeamState.modifySlot] using seq
      · simpa [SeamState.modifySlot] using epoch
  | @fill head payload pc =>
      simp only [ProducerFacts, pc] at producer
      obtain ⟨stable, held, rfl, seq, epoch⟩ := producer
      have written := inv.writeClaimed stable held
        (fun slot => { slot with payload := payload }) before.producer
        (inv.outside _ fun k ge lt => inv.claimed_outside stable held ge lt)
        (by
          simp only [ProducerFacts, SeamState.modifySlot, pc, Function.update_self]
          exact ⟨stable, held, trivial, seq, epoch⟩) rfl
      exact ⟨lap, Nat.le_refl _, written⟩
  | publish pc => exact ⟨lap, Nat.le_refl _, inv.publish pc⟩
  | refuse => exact allowed.elim
  | attach pc =>
      -- a consumer that attaches starts its private index at the tail
      have restarted : RingInvariant capacity 0 before :=
        { inv with
          consumer := by simp only [ConsumerFacts, pc]
          budget := by omega }
      refine ⟨0, Nat.zero_le _, restarted.setConsumer _ _ _ (by simp [pc]) ?_⟩
      have stable : before.reopening = false := allowed
      simp [ConsumerFacts, SeamState.released, stable]
  | @seeReady idx pc ready =>
      simp only [ConsumerFacts, pc] at consumer
      subst consumer
      rw [Nat.mul_add_mod] at ready
      refine ⟨lap, Nat.le_refl _, inv.setConsumer _ _ _ (by simp [pc]) ⟨rfl, ?_⟩⟩
      -- with an empty window no slot would be READY
      by_contra full
      have empty : before.published.length ≤ before.released := Nat.le_of_not_lt full
      exact inv.outside _ (fun k ge lt => by omega) ready
  | keepWaiting => exact ⟨lap, Nat.le_refl _, inv⟩
  | @readHeader idx pc =>
      simp only [ConsumerFacts, pc] at consumer
      obtain ⟨rfl, less⟩ := consumer
      refine ⟨lap, Nat.le_refl _, inv.setConsumer _ _ _ (by simp [pc]) ⟨rfl, less, ?_⟩⟩
      have numbered := inv.numbered _ _ (inv.window _ (Nat.le_refl _) less).1
      rw [Nat.mul_add_mod]
      exact ⟨numbered.2, numbered.1⟩
  | readPayload pc =>
      simp only [ConsumerFacts, pc] at consumer
      exact ⟨lap, Nat.le_refl _, inv.setConsumer _ _ _ (by simp [pc]) ⟨consumer.1, consumer.2.1⟩⟩
  | storeDone pc => exact ⟨lap, Nat.le_refl _, inv.storeDone pc⟩
  | addTail pc => exact ⟨lap, Nat.le_refl _, inv.addTail pc fits⟩
  | persist pc =>
      simp only [ConsumerFacts, pc] at consumer
      refine ⟨lap, Nat.le_refl _, inv.setConsumer _ _ _ (by simp [pc]) ?_⟩
      simp only at fits
      simp only [ConsumerFacts]
      rw [wrapAdd_eq (by omega)]
      exact consumer
  | kill => exact ⟨lap, Nat.le_refl _, inv.setConsumer .down _ _ allowed trivial⟩
  | restart =>
      refine ⟨lap, Nat.le_refl _, inv.setProducer _ _ _ ?_ inv.bound ?_⟩
      · cases pc : before.producer <;> simp only [ProducerFacts, pc] at producer ⊢ <;>
          grind
      · simp only [ProducerPc.inFlight]
        omega
  | bumpEpoch => exact absurd rfl sameEpoch
  | resetHead pc =>
      simp only [ProducerFacts, pc] at producer
      rw [pc] at budget
      refine ⟨lap, Nat.le_refl _, inv.setProducer _ _ _ ⟨producer.1, producer.2, rfl⟩ ?_ budget⟩
      exact fun _ => Nat.zero_le _
  | resetTail pc => exact ⟨lap, Nat.le_refl _, inv.resetTail pc⟩

/-- Every orderly move keeps the invariant at some lap. -/
theorem preserved {action : SeamAction Payload} (inv : RingInvariant capacity lap before)
    (allowed : Orderly capacity before action)
    (move : SeamMove capacity before action after) (fits : after.claims < 2 ^ 64) :
    ∃ lap, RingInvariant capacity lap after := by
  by_cases bump : action = .bumpEpoch
  · subst bump
    cases move
    exact inv.bumpEpoch allowed
  · obtain ⟨lap', _, kept⟩ := inv.preserved_of_ne_bump allowed move fits bump
    exact ⟨lap', kept⟩

end RingInvariant

/-- The invariant holds in every state that orderly runs reach, while fewer than
`2 ^ 64` sequence numbers have been claimed. -/
theorem ringInvariant_of_reaches {zero : Payload}
    (run : (seamSystem capacity zero).Reaches (Orderly capacity) state)
    (fits : state.claims < 2 ^ 64) : ∃ lap, RingInvariant capacity lap state := by
  refine run.invariant
    (fun state => state.claims < 2 ^ 64 → ∃ lap, RingInvariant capacity lap state) ?_ ?_ fits
  · rintro state rfl _
    exact ⟨0, ringInvariant_freshRing zero⟩
  · intro before action after holds allowed step fits
    have move := seamMove_of_step step
    obtain ⟨lap, inv⟩ := holds (Nat.lt_of_le_of_lt (claims_mono move) fits)
    exact inv.preserved allowed move fits

section NoRestart

/-! ### Runs in which the producer never restarts -/

variable {zero : Payload} {permitted : SeamState Payload → SeamAction Payload → Prop}

/-- Such runs never reopen the segment, and are orderly when all their other steps are. -/
theorem orderly_of_no_restart
    (orderly : ∀ state action, state.reopening = false → action ≠ .bumpEpoch →
      permitted state action → Orderly capacity state action)
    (noRestart : ∀ state action, permitted state action → action ≠ .restart)
    (run : (seamSystem capacity zero).Reaches permitted state) :
    (seamSystem capacity zero).Reaches (Orderly capacity) state ∧
      state.reopening = false ∧ state.producer ≠ .opening := by
  induction run with
  | start initial =>
      cases initial
      exact ⟨.start rfl, rfl, by simp [freshRing]⟩
  | @next before after action _ allowed step inductionHypothesis =>
      obtain ⟨run, stable, notOpening⟩ := inductionHypothesis
      have move := seamMove_of_step step
      have sameEpoch : action ≠ .bumpEpoch := by
        rintro rfl
        cases move with
        | bumpEpoch pc => exact notOpening pc
      refine ⟨.next run (orderly _ _ stable sameEpoch allowed) step, ?_⟩
      cases move with
      | restart => exact absurd rfl (noRestart _ _ allowed)
      | bumpEpoch => exact absurd rfl sameEpoch
      | _ => simp [SeamState.modifySlot, SeamState.publishRecord, stable, notOpening]

/-- Such runs stay in the first lap: the consumer's private index is the sequence number
itself. -/
theorem ringInvariant_zero_of_reaches
    (orderly : ∀ state action, state.reopening = false → action ≠ .bumpEpoch →
      permitted state action → Orderly capacity state action)
    (noRestart : ∀ state action, permitted state action → action ≠ .restart)
    (run : (seamSystem capacity zero).Reaches permitted state)
    (fits : state.claims < 2 ^ 64) : RingInvariant capacity 0 state := by
  induction run with
  | start initial =>
      cases initial
      exact ringInvariant_freshRing zero
  | @next before after action run allowed step inductionHypothesis =>
      have move := seamMove_of_step step
      obtain ⟨_, stable, notOpening⟩ := orderly_of_no_restart orderly noRestart run
      have sameEpoch : action ≠ .bumpEpoch := by
        rintro rfl
        cases move with
        | bumpEpoch pc => exact notOpening pc
      have inv := inductionHypothesis (Nat.lt_of_le_of_lt (claims_mono move) fits)
      obtain ⟨lap, small, kept⟩ := inv.preserved_of_ne_bump
        (orderly _ _ stable sameEpoch allowed) move fits sameEpoch
      exact Nat.le_zero.mp small ▸ kept

end NoRestart

end RanInline.Seam
