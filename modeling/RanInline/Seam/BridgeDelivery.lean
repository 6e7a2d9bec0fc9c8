/-
Module: RanInline.Seam.BridgeDelivery
Purpose: What the bridge delivers.  While no oversize record is drained, every record reaches the
  consumer in order; behind a refused one the consumer waits forever.
Trusted boundary: none
Main exports: DeliversInSize, FairBridge, bridge_delivers_without_oversize
-/
import RanInline.Seam.Bridge

namespace RanInline.Seam

open RanInline.Lib

/-! ### The consume loop gets on -/

section Ring

variable {Payload : Type} {capacity : Nat} {ring ring' : SeamState Payload}
  {action : SeamAction Payload}

/-- How many steps the consume loop has made that were no fruitless polls. -/
def SeamState.consumeProgress (ring : SeamState Payload) : Nat :=
  6 * ring.tail +
    match ring.consumer with
    | .down | .advancedTail _ _ => 0
    | .waiting _ => 1
    | .reading _ => 2
    | .readingPayload _ _ _ => 3
    | .processed _ => 4
    | .markedDone _ => 5

theorem SeamState.consumeProgress_lt (ring : SeamState Payload) :
    ring.consumeProgress < 6 * (ring.tail + 1) := by
  rw [SeamState.consumeProgress]
  split <;> omega

/-- Every step of the consume loop gets it on, unless everything published is released. -/
theorem RingInvariant.consume_advances (inv : RingInvariant capacity 0 ring)
    (stable : ring.reopening = false) (fits : ring.claims < 2 ^ 64)
    (kind : action.isConsume = true) (step : seamStep capacity ring action = some ring') :
    (ring'.consumeProgress = ring.consumeProgress + 1 ∧ ring.tail ≤ ring'.tail) ∨
      (ring' = ring ∧ ring.published.length ≤ ring.tail) := by
  have facts := inv.consumer
  have released : ring.released = ring.tail := by simp [SeamState.released, stable]
  cases action <;> cases pc : ring.consumer <;>
    simp only [seamStep, consumerStep, pc, reduceCtorEq, SeamAction.isConsume] at step kind
  case waitStatus.waiting idx =>
    split at step
    · cases step
      left
      simp [SeamState.consumeProgress, pc]
    · rename_i notReady
      cases step
      right
      refine ⟨rfl, ?_⟩
      by_contra unread
      simp only [ConsumerFacts, pc] at facts
      obtain ⟨_, status⟩ := inv.window ring.released (Nat.le_refl _) (by omega)
      rw [facts, Nat.mul_add_mod] at notReady
      rcases status with ready | ⟨_, other, marked⟩
      · exact notReady ready
      · rw [pc] at marked
        cases marked
  case addTail.markedDone idx =>
    cases step
    have budget := inv.budget
    simp only [ConsumerFacts, pc] at facts
    have next : wrapAdd 64 ring.tail 1 = ring.tail + 1 := wrapAdd_eq (by omega)
    left
    simp only [SeamState.consumeProgress, pc, next]
    omega
  all_goals
    cases step
    left
    simp [SeamState.consumeProgress, pc, SeamState.modifySlot]

/-- Over an empty ring the consume loop does not move the tail. -/
theorem RingInvariant.tail_of_consume (inv : RingInvariant capacity 0 ring)
    (stable : ring.reopening = false) (empty : ring.published.length ≤ ring.tail)
    (kind : action.isConsume = true) (step : seamStep capacity ring action = some ring') :
    ring'.tail = ring.tail := by
  have facts := inv.consumer
  have released : ring.released = ring.tail := by simp [SeamState.released, stable]
  cases seamMove_of_step step with
  | addTail pc =>
      simp only [ConsumerFacts, pc] at facts
      omega
  | attach | seeReady | keepWaiting | readHeader | readPayload | storeDone | persist => rfl
  | _ => cases kind

end Ring

/-! ### The bridge gets on -/

/-- The steps by which the bridge gets on with the record in its hand: all but the two loads and
a compare-exchange that fails spuriously. -/
def BridgeAction.Advances : BridgeAction → Prop
  | .reserve (.casHead false) | .reserve .writeSeq | .reserve .writeEpoch
  | .reserve .storeReserved | .fillSlot | .store | .publish => True
  | _ => False

/-- The steps of the consume loop. -/
def BridgeAction.Consumes : BridgeAction → Prop
  | .consume _ => True
  | _ => False

/-- The advancing steps that are left until the record in hand is published, over a ring that is
empty.  A tail that was read before the last release costs one more compare-exchange. -/
def BridgeState.rank (state : BridgeState) : Nat :=
  match state.pc with
  | .polling => 0
  | .storing _ stores => stores.length + 1
  | .reserving _ =>
      match state.ring.producer with
      | .filling _ => 11
      | .wroteEpoch _ => 12
      | .wroteSeq _ => 13
      | .claimed _ => 14
      | .loadedTail _ tail => if tail = state.ring.tail then 15 else 16
      | _ => 15

/-- What holds in every state of a run without oversize records. -/
structure BridgeInvariant (capacity : Nat) (cfg : ProducerConfig) (state : BridgeState) :
    Prop where
  ring : RingInvariant capacity 0 state.ring
  stable : state.ring.reopening = false
  fits : state.ring.claims < 2 ^ 64
  inOrder : HandedInOrder state.ring
  bridge : BridgeFacts capacity cfg state

section Moves

variable {capacity : Nat} {cfg : ProducerConfig} {zero : SeamPayload}
  {state before after : BridgeState} {action : BridgeAction}

namespace BridgeInvariant

theorem of_reaches (run : (bridgeSystem capacity cfg zero).Reaches InSizeOnly state)
    (fits : state.ring.claims < 2 ^ 64) : BridgeInvariant capacity cfg state := by
  obtain ⟨ring, bridge⟩ := bridge_of_reaches run
  obtain ⟨invariant, stable, _, inOrder⟩ := undisturbed_of_reaches ring fits
  exact ⟨invariant, stable, fits, inOrder, bridge⟩

/-- No move takes back what is published. -/
theorem published_mono (inv : BridgeInvariant capacity cfg before)
    (move : BridgeMove capacity cfg before action after) :
    before.ring.published <+: after.ring.published := by
  cases move with
  | drain | accept | store => exact List.prefix_refl _
  | reserve _ kind step => exact (published_of_reserve kind step).symm ▸ List.prefix_refl _
  | refuse pc oversize _ => exact absurd (inv.bridge.inHand pc) oversize
  | publish => exact List.prefix_append _ _
  | consume kind step => exact (frame_of_consume kind step).1.symm ▸ List.prefix_refl _

/-- The bridge itself does not touch the consumer. -/
theorem consumer_frame (inv : BridgeInvariant capacity cfg before)
    (move : BridgeMove capacity cfg before action after) :
    (¬ action.Consumes ∧ after.ring.tail = before.ring.tail ∧
        after.ring.consumer = before.ring.consumer) ∨
      ∃ consumed : SeamAction SeamPayload, consumed.isConsume = true ∧
        seamStep capacity before.ring consumed = some after.ring := by
  cases move with
  | consume kind step => exact .inr ⟨_, kind, step⟩
  | refuse pc oversize _ => exact absurd (inv.bridge.inHand pc) oversize
  | drain | accept | store | publish => exact .inl ⟨id, rfl, rfl⟩
  | reserve _ kind step =>
      left
      cases seamMove_of_step step with
      | loadHead | loadTail | claim | retry | writeSeq | writeEpoch | storeReserved =>
          exact ⟨id, rfl, rfl⟩
      | _ => cases kind

/-- No move sets the consume loop back, and its own steps get it on while something is
unreleased. -/
theorem consumeProgress_move (inv : BridgeInvariant capacity cfg before)
    (move : BridgeMove capacity cfg before action after) :
    before.ring.consumeProgress ≤ after.ring.consumeProgress ∧
      before.ring.tail ≤ after.ring.tail ∧
      (action.Consumes → before.ring.tail < before.ring.published.length →
        before.ring.consumeProgress < after.ring.consumeProgress) := by
  rcases inv.consumer_frame move with ⟨notConsumes, tail, consumer⟩ | ⟨consumed, kind, step⟩
  · have same : after.ring.consumeProgress = before.ring.consumeProgress := by
      rw [SeamState.consumeProgress, tail, consumer, SeamState.consumeProgress]
    exact ⟨Nat.le_of_eq same.symm, Nat.le_of_eq tail.symm, fun consumes =>
      absurd consumes notConsumes⟩
  · rcases inv.ring.consume_advances inv.stable inv.fits kind step with
      ⟨advanced, tail⟩ | ⟨same, released⟩
    · exact ⟨by omega, tail, fun _ _ => by omega⟩
    · rw [same]
      exact ⟨Nat.le_refl _, Nat.le_refl _, fun _ unread => by omega⟩

/-- With an empty ring and a record in hand, no move sets the bridge back, and its advancing steps
bring the record nearer to its publication. -/
theorem rank_move (inv : BridgeInvariant capacity cfg before) (room : 0 < capacity)
    (empty : before.ring.tail = before.ring.published.length) (inHand : before.pc ≠ .polling)
    (move : BridgeMove capacity cfg before action after) :
    before.ring.published.length < after.ring.published.length ∨
      (after.rank ≤ before.rank ∧ (action.Advances → after.rank < before.rank)) := by
  have producerFacts := inv.ring.producer
  cases move with
  | drain pc => exact absurd pc inHand
  | refuse pc oversize _ => exact absurd (inv.bridge.inHand pc) oversize
  | accept pc producer filled =>
      have length := fill_length filled
      right
      simp only [BridgeState.rank, pc, producer]
      omega
  | store pc producer =>
      right
      simp only [BridgeState.rank, pc, List.length_cons]
      omega
  | publish =>
      left
      simp [SeamState.publishRecord, SeamState.modifySlot]
  | consume kind step =>
      obtain ⟨published, producer, _⟩ := frame_of_consume kind step
      have tail := inv.ring.tail_of_consume inv.stable (Nat.le_of_eq empty.symm) kind step
      right
      simp only [BridgeState.rank, producer, tail]
      exact ⟨Nat.le_refl _, False.elim⟩
  | @reserve record action ring pc kind step =>
      right
      cases action <;> cases producer : before.ring.producer <;>
        simp only [seamStep, producerStep, producer, reduceCtorEq, SeamAction.isReserve]
          at step kind
      case casHead.loadedTail spurious head tail =>
        simp only [ProducerFacts, producer] at producerFacts
        obtain ⟨_, head_eq, rfl, _⟩ := producerFacts
        split at step
        · split at step
          · cases step
            simp only [BridgeState.rank, pc, producer]
            split <;> omega
          · rename_i failed
            cases step
            have failed : spurious = true := by simpa using failed
            subst failed
            simp only [BridgeState.rank, pc, producer]
            exact ⟨by split <;> omega, False.elim⟩
        · rename_i full
          cases step
          -- a full ring is seen through a stale tail only
          have stale : tail ≠ before.ring.tail := by
            rintro rfl
            apply full
            rw [wrapSub_eq (by omega) (by have := inv.ring.budget; have := inv.fits; omega)]
            omega
          simp only [BridgeState.rank, pc, producer, if_neg stale]
          omega
      all_goals
        cases step
        simp [BridgeState.rank, pc, producer, BridgeAction.Advances]

/-- Everything drained is published, but for the record in hand. -/
theorem published_length (inv : BridgeInvariant capacity cfg state) :
    (state.pc = .polling ∧ state.ring.published.length = state.drained.length) ∨
      (state.pc ≠ .polling ∧ state.ring.published.length + 1 = state.drained.length) := by
  have standing := inv.bridge.standing
  have length : ∀ {records}, PublishedAre cfg state records →
      state.ring.published.length = records.length := by
    intro records published
    simpa [PublishedAre] using congrArg List.length published
  cases pc : state.pc with
  | polling =>
      simp only [BridgeStanding, pc] at standing
      exact .inl ⟨rfl, length standing⟩
  | reserving record =>
      simp only [BridgeStanding, pc] at standing
      obtain ⟨front, drained, published⟩ := standing
      exact .inr ⟨BridgePc.noConfusion, by simp [drained, length published]⟩
  | storing record stores =>
      simp only [BridgeStanding, pc] at standing
      obtain ⟨⟨front, drained, published⟩, _⟩ := standing
      exact .inr ⟨BridgePc.noConfusion, by simp [drained, length published]⟩

/-- What is published is a prefix of what was drained. -/
theorem published_drained (inv : BridgeInvariant capacity cfg state) :
    state.ring.published.map SeamRecord.payload <+: state.drained.map (slotPayload cfg) := by
  have standing := inv.bridge.standing
  cases pc : state.pc with
  | polling =>
      simp only [BridgeStanding, pc] at standing
      exact standing ▸ List.prefix_refl _
  | reserving record =>
      simp only [BridgeStanding, pc] at standing
      obtain ⟨front, drained, published⟩ := standing
      rw [drained, List.map_append]
      exact published ▸ List.prefix_append _ _
  | storing record stores =>
      simp only [BridgeStanding, pc] at standing
      obtain ⟨⟨front, drained, published⟩, _⟩ := standing
      rw [drained, List.map_append]
      exact published ▸ List.prefix_append _ _

/-- So is what the consumer was handed. -/
theorem handed_drained (inv : BridgeInvariant capacity cfg state) :
    state.ring.handed.map SeamRecord.payload <+: state.drained.map (slotPayload cfg) := by
  refine List.IsPrefix.trans ?_ inv.published_drained
  rw [inv.inOrder, List.map_take]
  exact List.take_prefix _ _

/-- A record behind which the tail has moved was handed over. -/
theorem handed_of_released (inv : BridgeInvariant capacity cfg state) {k : Nat}
    {record : P2RecordView} (drained : state.drained[k]? = some record)
    (released : k < state.ring.tail) :
    (state.ring.handed.map SeamRecord.payload)[k]? = some (slotPayload cfg record) := by
  have tail : state.ring.released = state.ring.tail := by
    simp [SeamState.released, inv.stable]
  have read := state.ring.released_le_readCount
  have ordered := inv.ring.ordered
  have inside : k < (state.ring.handed.map SeamRecord.payload).length := by
    rw [List.length_map, inv.inOrder, List.length_take]
    omega
  rw [← List.prefix_iff_getElem?.mp inv.handed_drained k inside |>.trans
    (List.getElem?_eq_getElem inside).symm]
  simp [drained]

end BridgeInvariant

theorem BridgeMove.claims_mono (move : BridgeMove capacity cfg before action after) :
    before.ring.claims ≤ after.ring.claims := by
  cases move with
  | reserve _ _ step | refuse _ _ step | consume _ step =>
      exact RanInline.Seam.claims_mono (seamMove_of_step step)
  | drain | accept | store | publish => exact Nat.le_refl _

theorem BridgeMove.drained_mono (move : BridgeMove capacity cfg before action after) :
    before.drained <+: after.drained := by
  cases move with
  | drain => exact List.prefix_append _ _
  | _ => exact List.prefix_refl _

end Moves

/-! ### Delivery -/

/-- Every record in size that was drained is delivered exactly once and in order: what the consumer
has been handed is a prefix of those records, and each of them is handed over in the end. -/
def DeliversInSize {capacity : Nat} {cfg : ProducerConfig} {zero : SeamPayload}
    (run : (bridgeSystem capacity cfg zero).InfiniteRun) : Prop :=
  (∀ n, (run.state n).ring.handed.map SeamRecord.payload <+:
      ((run.state n).drained.filter (·.InSize)).map (slotPayload cfg)) ∧
    ∀ (n k : Nat) (record : P2RecordView),
      ((run.state n).drained.filter (·.InSize))[k]? = some record →
      ∃ m, n ≤ m ∧
        ((run.state m).ring.handed.map SeamRecord.payload)[k]? = some (slotPayload cfg record)

/-- Neither process stops: the consume loop keeps taking steps, and so does the bridge while it
has a record in hand, unless the division by `slots_per_frame` traps. -/
structure FairBridge {capacity : Nat} {cfg : ProducerConfig} {zero : SeamPayload}
    (run : (bridgeSystem capacity cfg zero).InfiniteRun) : Prop where
  consumer : ∀ n, ∃ m, n ≤ m ∧ (run.action m).Consumes
  bridge : ∀ n, ∃ m, n ≤ m ∧
    ((run.state m).pc = .polling ∨ cfg.slotsPerFrame = 0 ∨ (run.action m).Advances)

/-- Nothing drained is forgotten. -/
theorem drained_from {capacity : Nat} {cfg : ProducerConfig} {zero : SeamPayload}
    (run : (bridgeSystem capacity cfg zero).InfiniteRun) {n m : Nat} (later : n ≤ m) :
    (run.state n).drained <+: (run.state m).drained := by
  apply run.always_from (fun state => (run.state n).drained <+: state.drained) _
    (List.prefix_refl _) later
  intro m _ grown
  exact grown.trans (bridgeMove_of_step (run.step m)).drained_mono

section Runs

variable {capacity : Nat} {cfg : ProducerConfig} {zero : SeamPayload}
  {run : (bridgeSystem capacity cfg zero).InfiniteRun}
  (invariantAt : ∀ n, BridgeInvariant capacity cfg (run.state n))

include invariantAt

theorem published_from {n m : Nat} (later : n ≤ m) :
    (run.state n).ring.published.length ≤ (run.state m).ring.published.length := by
  apply run.always_from
    (fun state => (run.state n).ring.published.length ≤ state.ring.published.length) _
    (Nat.le_refl _) later
  intro m _ grown
  have move := bridgeMove_of_step (run.step m)
  exact grown.trans ((invariantAt m).published_mono move).length_le

theorem tail_from {n m : Nat} (later : n ≤ m) :
    (run.state n).ring.tail ≤ (run.state m).ring.tail := by
  apply run.always_from (fun state => (run.state n).ring.tail ≤ state.ring.tail) _
    (Nat.le_refl _) later
  intro m _ grown
  exact grown.trans ((invariantAt m).consumeProgress_move (bridgeMove_of_step (run.step m))).2.1

/-- Every published record is released in the end. -/
theorem eventually_released (fair : FairBridge run) {n k : Nat}
    (published : k < (run.state n).ring.published.length) :
    ∃ m, n ≤ m ∧ k < (run.state m).ring.tail := by
  apply run.eventually_of_rank (fun state => k < state.ring.tail)
    (fun _ action => action.Consumes) (fun state => 6 * (k + 1) - state.ring.consumeProgress)
  · intro m later _
    obtain ⟨forward, _⟩ := (invariantAt m).consumeProgress_move (bridgeMove_of_step (run.step m))
    right
    omega
  · intro m later notYet consumes
    obtain ⟨_, _, onward⟩ := (invariantAt m).consumeProgress_move (bridgeMove_of_step (run.step m))
    have below := (run.state m).ring.consumeProgress_lt
    have still := published_from invariantAt later
    have gained := onward consumes (by omega)
    right
    omega
  · intro m later
    obtain ⟨step, after, consumes⟩ := fair.consumer m
    exact ⟨step, after, .inr consumes⟩

/-- A record in hand is published in the end. -/
theorem eventually_published (fair : FairBridge run) (room : 0 < capacity)
    (divides : cfg.slotsPerFrame ≠ 0) {n : Nat} (inHand : (run.state n).pc ≠ .polling) :
    ∃ m, n ≤ m ∧ (run.state n).ring.published.length < (run.state m).ring.published.length := by
  have drained_length := (invariantAt n).published_length.resolve_left fun polling =>
    inHand polling.1
  -- a bridge that polls again has published what it held
  have published_of_polling : ∀ m, n ≤ m → (run.state m).pc = .polling →
      (run.state n).ring.published.length < (run.state m).ring.published.length := by
    intro m later polling
    have all := (invariantAt m).published_length.resolve_right fun other => other.1 polling
    have more := (drained_from run later).length_le
    omega
  -- the ring has been emptied from this step on
  obtain ⟨start, later, emptied⟩ : ∃ m, n ≤ m ∧
      (run.state n).ring.published.length ≤ (run.state m).ring.tail := by
    rcases Nat.eq_zero_or_pos (run.state n).ring.published.length with none | some
    · exact ⟨n, Nat.le_refl n, by omega⟩
    · obtain ⟨m, later, released⟩ := eventually_released invariantAt fair
        (Nat.sub_lt some Nat.one_pos)
      exact ⟨m, later, by omega⟩
  have whilePending : ∀ m, start ≤ m →
      ¬ (run.state n).ring.published.length < (run.state m).ring.published.length →
        (run.state m).ring.tail = (run.state m).ring.published.length ∧
          (run.state m).pc ≠ .polling := by
    intro m after notYet
    have ordered := (invariantAt m).ring.ordered
    have released : (run.state m).ring.released = (run.state m).ring.tail := by
      simp [SeamState.released, (invariantAt m).stable]
    have tail := tail_from invariantAt after
    refine ⟨by omega, ?_⟩
    intro polling
    exact notYet (published_of_polling m (by omega) polling)
  have reached : ∃ m, start ≤ m ∧
      (run.state n).ring.published.length < (run.state m).ring.published.length := by
    apply run.eventually_of_rank
      (fun state => (run.state n).ring.published.length < state.ring.published.length)
      (fun _ action => action.Advances) BridgeState.rank
    · intro m after notYet
      obtain ⟨empty, pending⟩ := whilePending m after notYet
      have still := published_from invariantAt (later.trans after)
      rcases (invariantAt m).rank_move room empty pending (bridgeMove_of_step (run.step m)) with
        more | ⟨kept, _⟩
      · exact .inl (by omega)
      · exact .inr kept
    · intro m after notYet advances
      obtain ⟨empty, pending⟩ := whilePending m after notYet
      have still := published_from invariantAt (later.trans after)
      rcases (invariantAt m).rank_move room empty pending (bridgeMove_of_step (run.step m)) with
        more | ⟨_, falls⟩
      · exact .inl (by omega)
      · exact .inr (falls advances)
    · intro m after
      obtain ⟨step, further, polling | trapped | advances⟩ := fair.bridge m
      · exact ⟨step, further, .inl (published_of_polling step (by omega) polling)⟩
      · exact absurd trapped divides
      · exact ⟨step, further, .inr advances⟩
  obtain ⟨m, after, published⟩ := reached
  exact ⟨m, by omega, published⟩

end Runs

/-- In every run of the bridge and the consume loop in which no oversize record is drained, and
fewer than `2 ^ 64` slots are claimed, every record is delivered exactly once and in order. -/
theorem bridge_delivers_without_oversize {capacity : Nat} {cfg : ProducerConfig}
    {zero : SeamPayload} (run : (bridgeSystem capacity cfg zero).InfiniteRun)
    (fair : FairBridge run) (room : 0 < capacity) (divides : cfg.slotsPerFrame ≠ 0)
    (inSize : ∀ n, InSizeOnly (run.state n) (run.action n))
    (fits : ∀ n, (run.state n).ring.claims < 2 ^ 64) : DeliversInSize run := by
  have invariantAt : ∀ n, BridgeInvariant capacity cfg (run.state n) :=
    fun n => .of_reaches (run.reaches inSize n) (fits n)
  have all : ∀ n, (run.state n).drained.filter (·.InSize) = (run.state n).drained := by
    intro n
    apply List.filter_eq_self.mpr
    intro record member
    exact decide_eq_true ((invariantAt n).bridge.allInSize record member)
  constructor
  · intro n
    rw [all n]
    exact (invariantAt n).handed_drained
  · intro n k record drained
    rw [all n] at drained
    -- the record is published, then released
    obtain ⟨published, later, inside⟩ : ∃ m, n ≤ m ∧
        k < (run.state m).ring.published.length := by
      have bound := (List.getElem?_eq_some_iff.mp drained).1
      rcases (invariantAt n).published_length with ⟨_, length⟩ | ⟨inHand, length⟩
      · exact ⟨n, Nat.le_refl n, by omega⟩
      · obtain ⟨m, later, grown⟩ := eventually_published invariantAt fair room divides inHand
        exact ⟨m, later, by omega⟩
    obtain ⟨released, after, behind⟩ := eventually_released invariantAt fair inside
    obtain ⟨rest, kept⟩ := drained_from run (later.trans after)
    refine ⟨released, later.trans after, (invariantAt released).handed_of_released ?_ behind⟩
    rw [← kept, List.getElem?_append_left (List.getElem?_eq_some_iff.mp drained).1]
    exact drained

/-! ### A record in size, and one behind an oversize record -/

/-- The pinned configuration. -/
private def pinned : ProducerConfig where
  rnti := 0x4601
  harqId := 0
  slotsPerFrame := 20

private def zeroed : SeamPayload where
  sfn := 0
  slot := 0
  rnti := 0
  harqId := 0
  crcOk := 0
  tbLen := 0
  tEnqueueNs := 0
  tb := fun _ => 0

/-- A drained record of a given size. -/
private def drainedRecord (size : UInt32) : P2RecordView where
  slotId := 7
  tbSizeBytes := size
  crc24aOk := 1
  tbData := fun _ => 5

private def reserveSlot : List BridgeAction :=
  [.reserve .loadHead, .reserve .loadTail, .reserve (.casHead false), .reserve .writeSeq,
    .reserve .writeEpoch, .reserve .storeReserved, .fillSlot]

private def fillAndPublish : List BridgeAction :=
  List.replicate 9 BridgeAction.store ++ [BridgeAction.publish]

private def consumeOne : List BridgeAction :=
  [.consume .waitStatus, .consume .readHeader, .consume .readPayload, .consume .storeDone,
    .consume .addTail, .consume .persist]

/-- A run that ends in fruitless polls with nothing in hand is fair, and claims no more. -/
private theorem fair_of_polling {capacity : Nat} {cfg : ProducerConfig} {zero : SeamPayload}
    {run : (bridgeSystem capacity cfg zero).InfiniteRun} {last : BridgeState} {length : Nat}
    (polls : ∀ n, length ≤ n → run.state n = last ∧ run.action n = .consume .waitStatus)
    (polling : last.pc = .polling) :
    FairBridge run ∧ ∀ n, (run.state n).ring.claims ≤ last.ring.claims := by
  refine ⟨⟨?_, ?_⟩, ?_⟩
  · intro n
    refine ⟨max n length, Nat.le_max_left _ _, ?_⟩
    rw [(polls _ (Nat.le_max_right n length)).2]
    trivial
  · intro n
    refine ⟨max n length, Nat.le_max_left _ _, .inl ?_⟩
    rw [(polls _ (Nat.le_max_right n length)).1, polling]
  · intro n
    rw [← (polls _ (Nat.le_max_right n length)).1]
    apply run.always_from (fun state => (run.state n).ring.claims ≤ state.ring.claims) _
      (Nat.le_refl _) (Nat.le_max_left n length)
    intro m _ grown
    exact grown.trans (bridgeMove_of_step (run.step m)).claims_mono

private def twoBytes : List BridgeAction :=
  BridgeAction.consume .attach :: BridgeAction.drain (drainedRecord 2) :: reserveSlot ++
    fillAndPublish ++ consumeOne

/-- One record of two bytes is published and delivered. -/
theorem bridge_delivers_two_bytes :
    ∃ run : (bridgeSystem 1 pinned zeroed).InfiniteRun,
      (∃ n, (run.state n).drained.length = 1) ∧ DeliversInSize run := by
  obtain ⟨last, executed, stays, pc, claims, drained⟩ :
      ∃ last, TransitionSystem.execute (bridgeNext 1 pinned) (freshBridge zeroed) twoBytes =
          some last ∧
        bridgeNext 1 pinned last (.consume .waitStatus) = some last ∧
        last.pc = .polling ∧ last.ring.claims < 2 ^ 64 ∧ last.drained.length = 1 :=
    ⟨_, rfl, rfl, rfl, by decide, rfl⟩
  obtain ⟨run, polls, actions⟩ :=
    TransitionSystem.InfiniteRun.exists_follow (bridgeSystem 1 pinned zeroed)
      (fun _ _ _ step => step) rfl executed stays
  obtain ⟨fair, fewer⟩ := fair_of_polling polls pc
  have inSize : ∀ state, ∀ action ∈ twoBytes, InSizeOnly state action := by
    intro state
    simp [twoBytes, reserveSlot, fillAndPublish, consumeOne, InSizeOnly, drainedRecord,
      P2RecordView.InSize, oiSeamTbMaxBytes]
  refine ⟨run, ⟨twoBytes.length, ?_⟩, ?_⟩
  · rw [(polls _ (Nat.le_refl _)).1, drained]
  · apply bridge_delivers_without_oversize run fair (by decide) (by decide)
    · intro n
      rcases actions n with inside | same
      · exact inSize _ _ inside
      · rw [same]
        trivial
    · intro n
      exact Nat.lt_of_le_of_lt (fewer n) claims

private def oversizeFirst : List BridgeAction :=
  BridgeAction.consume .attach :: BridgeAction.drain (drainedRecord 3458) :: reserveSlot ++
    BridgeAction.drain (drainedRecord 2) :: reserveSlot ++ fillAndPublish

/-- The slot of a refused record stays `RESERVED`: the consumer waits for it forever, and the
record in size behind it is never delivered. -/
theorem oversize_record_blocks_ring :
    ¬ ∀ run : (bridgeSystem 2 pinned zeroed).InfiniteRun, FairBridge run →
        (∀ n, (run.state n).ring.claims < 2 ^ 64) → DeliversInSize run := by
  intro claim
  obtain ⟨last, executed, stays, pc, claims, drained, handed⟩ :
      ∃ last, TransitionSystem.execute (bridgeNext 2 pinned) (freshBridge zeroed)
          oversizeFirst = some last ∧
        bridgeNext 2 pinned last (.consume .waitStatus) = some last ∧
        last.pc = .polling ∧ last.ring.claims < 2 ^ 64 ∧
        last.drained = [drainedRecord 3458, drainedRecord 2] ∧ last.ring.handed = [] :=
    ⟨_, rfl, rfl, rfl, by decide, rfl, rfl⟩
  obtain ⟨run, polls, _⟩ :=
    TransitionSystem.InfiniteRun.exists_follow (bridgeSystem 2 pinned zeroed)
      (fun _ _ _ step => step) rfl executed stays
  obtain ⟨fair, fewer⟩ := fair_of_polling polls pc
  obtain ⟨_, delivered⟩ := claim run fair fun n => Nat.lt_of_le_of_lt (fewer n) claims
  have accepted : ((run.state oversizeFirst.length).drained.filter (·.InSize))[0]? =
      some (drainedRecord 2) := by
    rw [(polls _ (Nat.le_refl _)).1, drained]
    rfl
  obtain ⟨m, later, found⟩ := delivered _ _ _ accepted
  rw [(polls m later).1, handed] at found
  cases found

end RanInline.Seam
