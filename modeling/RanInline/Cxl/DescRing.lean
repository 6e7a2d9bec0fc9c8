/-
Module: RanInline.Cxl.DescRing
Purpose: The descriptor ring of desc_ring.h between one producer and the poll thread of
  consumer.c: every atomic load and store and every byte of the descriptor copies is a step.
Trusted boundary: none
Main exports: LdpcDesc, DescRingState, DescRingAction, descRingNext, descRingSystem,
  DescRingInvariant, failedBetween, desc_ring_spsc
-/
import RanInline.Lib.Transition
import RanInline.Lib.Wrap

namespace RanInline.Cxl

open RanInline.Lib

/-! ### The ring -/

/-- `DESC_RING_CAPACITY`. -/
def descRingCapacity : Nat := 256

/-- `struct ldpc_desc`, packed: its bytes. -/
abbrev LdpcDesc : Type := Fin 52 → BitVec 8

/-- The field `seq` of a descriptor. -/
def LdpcDesc.seq (d : LdpcDesc) : Nat :=
  (d 40).toNat + 256 * (d 41).toNat + 65536 * (d 42).toNat + 16777216 * (d 43).toNat

/-- Where the producer stands in `desc_ring_try_push`; the bytes that are copied come in any
order. -/
inductive PushPc where
  | idle
  | loadedHead (d : LdpcDesc) (head : Nat)
  | copying (d : LdpcDesc) (head : Nat) (written : List (Fin 52))

/-- Where the poll thread stands in `desc_ring_try_pop`. -/
inductive PopPc where
  | idle
  | loadedTail (tail : Nat)
  | copying (tail : Nat) (got : List (Fin 52))

/-- The ring, both threads with the variables of the poll thread, and the history: every push that
is over with whether it succeeded, and the descriptors that were popped. -/
structure DescRingState where
  head : Nat
  tail : Nat
  entries : Nat → LdpcDesc
  producer : PushPc
  consumer : PopPc
  d : LdpcDesc
  lastSeq : Nat
  seqInit : Bool
  dropsDetected : Nat
  attempts : List (LdpcDesc × Bool)
  popped : List LdpcDesc

/-- The descriptors of the pushes that succeeded. -/
def pushedOf (attempts : List (LdpcDesc × Bool)) : List LdpcDesc :=
  attempts.filterMap fun attempt => if attempt.2 then some attempt.1 else none

/-- The descriptors that were pushed. -/
def DescRingState.pushed (state : DescRingState) : List LdpcDesc := pushedOf state.attempts

/-- The steps of the two threads. -/
inductive DescRingAction where
  -- desc_ring_try_push
  | loadHead (d : LdpcDesc)
  | loadTail
  | copyIn (byte : Fin 52)
  | storeHead
  -- desc_ring_try_pop
  | popLoadTail
  | popLoadHead
  | copyOut (byte : Fin 52)
  | storeTail

/-- `last_seq + 1`, and the gap in front of a sequence number. -/
def seqGap (lastSeq seq : Nat) : Nat :=
  if seq ≠ wrapAdd 32 lastSeq 1 then wrapSub 32 (wrapSub 32 seq lastSeq) 1 else 0

/-- One step; `none` when it is not enabled.  What the poll thread does with its own variables
behind a pop belongs to the store of the tail. -/
def descRingNext (state : DescRingState) : DescRingAction → Option DescRingState
  | .loadHead d =>
      match state.producer with
      | .idle => some { state with producer := .loadedHead d state.head }
      | _ => none
  | .loadTail =>
      match state.producer with
      | .loadedHead d head =>
          if descRingCapacity ≤ wrapSub 64 head state.tail then
            some { state with producer := .idle, attempts := state.attempts ++ [(d, false)] }
          else some { state with producer := .copying d head [] }
      | _ => none
  | .copyIn byte =>
      match state.producer with
      | .copying d head written =>
          let slot := head % descRingCapacity
          some
            { state with
              entries := Function.update state.entries slot
                (Function.update (state.entries slot) byte (d byte))
              producer := .copying d head (byte :: written) }
      | _ => none
  | .storeHead =>
      match state.producer with
      | .copying d head written =>
          if ∀ byte, byte ∈ written then
            some
              { state with
                head := wrapAdd 64 head 1
                producer := .idle
                attempts := state.attempts ++ [(d, true)] }
          else none
      | _ => none
  | .popLoadTail =>
      match state.consumer with
      | .idle => some { state with consumer := .loadedTail state.tail }
      | _ => none
  | .popLoadHead =>
      match state.consumer with
      | .loadedTail tail =>
          if tail = state.head then some { state with consumer := .idle }
          else some { state with consumer := .copying tail [] }
      | _ => none
  | .copyOut byte =>
      match state.consumer with
      | .copying tail got =>
          some
            { state with
              d := Function.update state.d byte (state.entries (tail % descRingCapacity) byte)
              consumer := .copying tail (byte :: got) }
      | _ => none
  | .storeTail =>
      match state.consumer with
      | .copying tail got =>
          if ∀ byte, byte ∈ got then
            some
              { state with
                tail := wrapAdd 64 tail 1
                consumer := .idle
                dropsDetected :=
                  if state.seqInit then
                    wrapAdd 64 state.dropsDetected (seqGap state.lastSeq state.d.seq)
                  else state.dropsDetected
                lastSeq := state.d.seq
                seqInit := true
                popped := state.popped ++ [state.d] }
          else none
      | _ => none

/-- The ring behind `desc_ring_init`. -/
def DescRingState.Fresh (state : DescRingState) : Prop :=
  state.head = 0 ∧ state.tail = 0 ∧ state.producer = .idle ∧ state.consumer = .idle ∧
    state.seqInit = false ∧ state.dropsDetected = 0 ∧ state.attempts = [] ∧ state.popped = []

/-- The transition system. -/
def descRingSystem : TransitionSystem DescRingState DescRingAction where
  init := DescRingState.Fresh
  step := fun before action after => descRingNext before action = some after

/-! ### The moves -/

/-- The ring behind the store of the head. -/
def DescRingState.publish (state : DescRingState) (d : LdpcDesc) (head : Nat) : DescRingState :=
  { state with
    head := wrapAdd 64 head 1
    producer := .idle
    attempts := state.attempts ++ [(d, true)] }

/-- The ring behind the store of the tail, with the variables of the poll thread. -/
def DescRingState.release (state : DescRingState) (tail : Nat) : DescRingState :=
  { state with
    tail := wrapAdd 64 tail 1
    consumer := .idle
    dropsDetected :=
      if state.seqInit then wrapAdd 64 state.dropsDetected (seqGap state.lastSeq state.d.seq)
      else state.dropsDetected
    lastSeq := state.d.seq
    seqInit := true
    popped := state.popped ++ [state.d] }

/-- What a step can do. -/
inductive DescRingMove (state : DescRingState) : DescRingAction → DescRingState → Prop where
  | loadHead {d : LdpcDesc} :
      DescRingMove state (.loadHead d) { state with producer := .loadedHead d state.head }
  | refuse {d : LdpcDesc} {head : Nat} (producer : state.producer = .loadedHead d head)
      (full : descRingCapacity ≤ wrapSub 64 head state.tail) :
      DescRingMove state .loadTail
        { state with producer := .idle, attempts := state.attempts ++ [(d, false)] }
  | accept {d : LdpcDesc} {head : Nat} (producer : state.producer = .loadedHead d head)
      (room : wrapSub 64 head state.tail < descRingCapacity) :
      DescRingMove state .loadTail { state with producer := .copying d head [] }
  | copyIn {d : LdpcDesc} {head : Nat} {written : List (Fin 52)} {byte : Fin 52}
      (producer : state.producer = .copying d head written) :
      DescRingMove state (.copyIn byte)
        { state with
          entries := Function.update state.entries (head % descRingCapacity)
            (Function.update (state.entries (head % descRingCapacity)) byte (d byte))
          producer := .copying d head (byte :: written) }
  | storeHead {d : LdpcDesc} {head : Nat} {written : List (Fin 52)}
      (producer : state.producer = .copying d head written)
      (complete : ∀ byte, byte ∈ written) :
      DescRingMove state .storeHead (state.publish d head)
  | popLoadTail :
      DescRingMove state .popLoadTail { state with consumer := .loadedTail state.tail }
  | popFails {tail : Nat} (consumer : state.consumer = .loadedTail tail)
      (same : tail = state.head) :
      DescRingMove state .popLoadHead { state with consumer := .idle }
  | popFinds {tail : Nat} (consumer : state.consumer = .loadedTail tail)
      (different : tail ≠ state.head) :
      DescRingMove state .popLoadHead { state with consumer := .copying tail [] }
  | copyOut {tail : Nat} {got : List (Fin 52)} {byte : Fin 52}
      (consumer : state.consumer = .copying tail got) :
      DescRingMove state (.copyOut byte)
        { state with
          d := Function.update state.d byte (state.entries (tail % descRingCapacity) byte)
          consumer := .copying tail (byte :: got) }
  | storeTail {tail : Nat} {got : List (Fin 52)} (consumer : state.consumer = .copying tail got)
      (complete : ∀ byte, byte ∈ got) :
      DescRingMove state .storeTail (state.release tail)

/-- Every enabled action is one of the moves. -/
theorem descRingMove_of_step {before after : DescRingState} {action : DescRingAction}
    (step : descRingNext before action = some after) : DescRingMove before action after := by
  cases action with
  | loadHead d =>
      cases producer : before.producer <;>
        simp only [descRingNext, producer, reduceCtorEq] at step
      cases step
      exact .loadHead
  | loadTail =>
      cases producer : before.producer <;>
        simp only [descRingNext, producer, reduceCtorEq] at step
      split at step
      · rename_i full
        cases step
        exact .refuse producer full
      · rename_i room
        cases step
        exact .accept producer (Nat.lt_of_not_le room)
  | copyIn byte =>
      cases producer : before.producer <;>
        simp only [descRingNext, producer, reduceCtorEq] at step
      cases step
      exact .copyIn producer
  | storeHead =>
      cases producer : before.producer <;>
        simp only [descRingNext, producer, reduceCtorEq] at step
      split at step
      · rename_i complete
        cases step
        exact .storeHead producer complete
      · cases step
  | popLoadTail =>
      cases consumer : before.consumer <;>
        simp only [descRingNext, consumer, reduceCtorEq] at step
      cases step
      exact .popLoadTail
  | popLoadHead =>
      cases consumer : before.consumer <;>
        simp only [descRingNext, consumer, reduceCtorEq] at step
      split at step
      · rename_i same
        cases step
        exact .popFails consumer same
      · rename_i different
        cases step
        exact .popFinds consumer different
  | copyOut byte =>
      cases consumer : before.consumer <;>
        simp only [descRingNext, consumer, reduceCtorEq] at step
      cases step
      exact .copyOut consumer
  | storeTail =>
      cases consumer : before.consumer <;>
        simp only [descRingNext, consumer, reduceCtorEq] at step
      split at step
      · rename_i complete
        cases step
        exact .storeTail consumer complete
      · cases step

/-! ### The invariant -/

/-- What the producer knows between the steps of a push. -/
def ProducerHolds (state : DescRingState) : Prop :=
  match state.producer with
  | .idle => True
  | .loadedHead _ head => head = state.head
  | .copying d head written =>
      head = state.head ∧ state.pushed.length < state.popped.length + descRingCapacity ∧
        ∀ byte ∈ written, state.entries (state.pushed.length % descRingCapacity) byte = d byte

/-- What the poll thread knows between the steps of a pop. -/
def ConsumerHolds (state : DescRingState) : Prop :=
  match state.consumer with
  | .idle => True
  | .loadedTail tail => tail = state.tail
  | .copying tail got =>
      tail = state.tail ∧
        ∃ next, state.pushed[state.popped.length]? = some next ∧
          ∀ byte ∈ got, state.d byte = next byte

/-- The gaps between the sequence numbers of consecutive descriptors. -/
def gapSum : Nat → List LdpcDesc → Nat
  | _, [] => 0
  | last, d :: rest => seqGap last d.seq + gapSum d.seq rest

/-- The variables of the poll thread, from the descriptors it has popped. -/
def GapsCounted (state : DescRingState) : Prop :=
  (state.popped = [] ∧ state.seqInit = false ∧ state.dropsDetected = 0) ∨
    ∃ first rest, state.popped = first :: rest ∧ state.seqInit = true ∧
      state.lastSeq = rest.foldl (fun _ d => d.seq) first.seq ∧
      state.dropsDetected = gapSum first.seq rest % 2 ^ 64

/-- The invariant of the ring.  The counters are the lengths of the two histories modulo their
width, so that it also holds behind a wrap of both. -/
structure DescRingInvariant (state : DescRingState) : Prop where
  head_eq : state.head = state.pushed.length % 2 ^ 64
  tail_eq : state.tail = state.popped.length % 2 ^ 64
  popped_pushed : state.popped <+: state.pushed
  bounded : state.pushed.length ≤ state.popped.length + descRingCapacity
  window : ∀ index d, state.popped.length ≤ index → state.pushed[index]? = some d →
    state.entries (index % descRingCapacity) = d
  producerHolds : ProducerHolds state
  consumerHolds : ConsumerHolds state
  gapsCounted : GapsCounted state

/-- A wrapped counter and the counter itself name the same slot. -/
theorem counter_slot (count : Nat) :
    count % 2 ^ 64 % descRingCapacity = count % descRingCapacity :=
  Nat.mod_mod_of_dvd count (by decide)

/-- The next value of a wrapped counter. -/
theorem wrapAdd_counter (count : Nat) :
    wrapAdd 64 (count % 2 ^ 64) 1 = (count + 1) % 2 ^ 64 := by
  simp [wrapAdd]

theorem pushed_publish (state : DescRingState) (d : LdpcDesc) (head : Nat) :
    (state.publish d head).pushed = state.pushed ++ [d] := by
  simp [DescRingState.publish, DescRingState.pushed, pushedOf]

theorem pushedOf_refused (attempts : List (LdpcDesc × Bool)) (d : LdpcDesc) :
    pushedOf (attempts ++ [(d, false)]) = pushedOf attempts := by
  simp [pushedOf]

theorem gapSum_append (last : Nat) (rest : List LdpcDesc) (d : LdpcDesc) :
    gapSum last (rest ++ [d]) =
      gapSum last rest + seqGap (rest.foldl (fun _ d => d.seq) last) d.seq := by
  induction rest generalizing last with
  | nil => simp [gapSum]
  | cons first rest inductionHypothesis =>
      simp [gapSum, inductionHypothesis, Nat.add_assoc]

namespace DescRingInvariant

variable {before after : DescRingState}

/-- The true distance of the counters. -/
theorem distance (invariant : DescRingInvariant before) :
    wrapSub 64 before.head before.tail = before.pushed.length - before.popped.length := by
  have near := invariant.bounded
  rw [invariant.head_eq, invariant.tail_eq]
  apply wrapSub_mod invariant.popped_pushed.length_le
  simp only [descRingCapacity] at near
  omega

/-- The counters agree exactly when nothing is left in the ring. -/
theorem tail_eq_head_iff (invariant : DescRingInvariant before) :
    before.tail = before.head ↔ before.pushed.length = before.popped.length := by
  have near := invariant.bounded
  have ordered := invariant.popped_pushed.length_le
  have distance := invariant.distance
  simp only [descRingCapacity] at near
  constructor
  · intro same
    rw [same, wrapSub, invariant.head_eq] at distance
    omega
  · intro same
    rw [invariant.head_eq, invariant.tail_eq, same]

/-- A refused push changes nothing the invariant speaks about. -/
theorem refuse (invariant : DescRingInvariant before) (d : LdpcDesc) :
    DescRingInvariant
      { before with producer := .idle, attempts := before.attempts ++ [(d, false)] } := by
  have same : pushedOf (before.attempts ++ [(d, false)]) = before.pushed :=
    pushedOf_refused _ d
  have consumerHolds := invariant.consumerHolds
  constructor
  case producerHolds => trivial
  case consumerHolds =>
    simp only [ConsumerHolds, DescRingState.pushed, same] at consumerHolds ⊢
    exact consumerHolds
  case gapsCounted => exact invariant.gapsCounted
  all_goals simp only [DescRingState.pushed, same]
  case head_eq => exact invariant.head_eq
  case tail_eq => exact invariant.tail_eq
  case popped_pushed => exact invariant.popped_pushed
  case bounded => exact invariant.bounded
  case window => exact invariant.window

/-- An accepted push has found a free slot. -/
theorem accept (invariant : DescRingInvariant before) {d : LdpcDesc} {head : Nat}
    (producer : before.producer = .loadedHead d head)
    (room : wrapSub 64 head before.tail < descRingCapacity) :
    DescRingInvariant { before with producer := .copying d head [] } := by
  have producerHolds := invariant.producerHolds
  have ordered := invariant.popped_pushed.length_le
  simp only [ProducerHolds, producer] at producerHolds
  subst producerHolds
  rw [invariant.distance] at room
  have free : before.pushed.length < before.popped.length + descRingCapacity := by omega
  refine { invariant with producerHolds := ⟨rfl, free, ?_⟩ }
  simp

/-- A byte copied in lands in a slot that holds no descriptor. -/
theorem copyIn (invariant : DescRingInvariant before) {d : LdpcDesc} {head : Nat}
    {written : List (Fin 52)} (byte : Fin 52)
    (producer : before.producer = .copying d head written) :
    DescRingInvariant
      { before with
        entries := Function.update before.entries (head % descRingCapacity)
          (Function.update (before.entries (head % descRingCapacity)) byte (d byte))
        producer := .copying d head (byte :: written) } := by
  have producerHolds := invariant.producerHolds
  simp only [ProducerHolds, producer] at producerHolds
  obtain ⟨rfl, room, copied⟩ := producerHolds
  have slot : before.head % descRingCapacity = before.pushed.length % descRingCapacity := by
    rw [invariant.head_eq, counter_slot]
  rw [slot]
  refine { invariant with window := ?_, producerHolds := ⟨rfl, room, ?_⟩ }
  · intro index next unread present
    have index_lt : index < before.pushed.length := (List.getElem?_eq_some_iff.mp present).1
    have apart : index % descRingCapacity ≠ before.pushed.length % descRingCapacity :=
      mod_ne_of_window index_lt (Nat.lt_of_lt_of_le room (Nat.add_le_add_right unread _))
    simp only [Function.update_of_ne apart]
    exact invariant.window index next unread present
  · intro other member
    have own := copied other
    by_cases same : other = byte
    · subst same
      exact (congrFun (Function.update_self ..) other).trans (Function.update_self ..)
    · refine (congrFun (Function.update_self ..) other).trans ?_
      rw [Function.update_of_ne same]
      exact own ((List.mem_cons.mp member).resolve_left same)

/-- The store of the head publishes the descriptor that was copied in. -/
theorem storeHead (invariant : DescRingInvariant before) {d : LdpcDesc} {head : Nat}
    {written : List (Fin 52)} (producer : before.producer = .copying d head written)
    (complete : ∀ byte, byte ∈ written) : DescRingInvariant (before.publish d head) := by
  have producerHolds := invariant.producerHolds
  have consumerHolds := invariant.consumerHolds
  simp only [ProducerHolds, producer] at producerHolds
  obtain ⟨rfl, room, copied⟩ := producerHolds
  have whole : before.entries (before.pushed.length % descRingCapacity) = d :=
    funext fun byte => copied byte (complete byte)
  have longer : (before.publish d before.head).pushed.length = before.pushed.length + 1 := by
    rw [pushed_publish, List.length_append, List.length_singleton]
  constructor
  case producerHolds => trivial
  case gapsCounted => exact invariant.gapsCounted
  case tail_eq => exact invariant.tail_eq
  case head_eq =>
    rw [longer, ← wrapAdd_counter, ← invariant.head_eq]
    rfl
  case popped_pushed =>
    rw [pushed_publish]
    exact invariant.popped_pushed.trans (List.prefix_append _ _)
  case bounded =>
    rw [longer]
    exact room
  case window =>
    intro index next unread present
    rw [pushed_publish] at present
    rcases Nat.lt_or_ge index before.pushed.length with old | new
    · rw [List.getElem?_append_left old] at present
      exact invariant.window index next unread present
    · have index_lt := (List.getElem?_eq_some_iff.mp present).1
      rw [List.length_append, List.length_singleton] at index_lt
      have last : index = before.pushed.length := by omega
      subst last
      rw [List.getElem?_concat_length, Option.some.injEq] at present
      exact whole.trans present
  case consumerHolds =>
    simp only [ConsumerHolds, pushed_publish] at consumerHolds ⊢
    cases standing : before.consumer <;>
      simp only [DescRingState.publish, standing] at consumerHolds ⊢
    · exact consumerHolds
    · obtain ⟨same, next, present, got⟩ := consumerHolds
      have index_lt := (List.getElem?_eq_some_iff.mp present).1
      exact ⟨same, next, (List.getElem?_append_left index_lt).trans present, got⟩

/-- A pop that sees another head has found a descriptor. -/
theorem popFinds (invariant : DescRingInvariant before) {tail : Nat}
    (consumer : before.consumer = .loadedTail tail) (different : tail ≠ before.head) :
    DescRingInvariant { before with consumer := .copying tail [] } := by
  have consumerHolds := invariant.consumerHolds
  have ordered := invariant.popped_pushed.length_le
  simp only [ConsumerHolds, consumer] at consumerHolds
  subst consumerHolds
  have nonempty := mt invariant.tail_eq_head_iff.mpr different
  have available : before.popped.length < before.pushed.length := by omega
  have found := List.getElem?_eq_getElem available
  refine { invariant with consumerHolds := ⟨rfl, _, found, ?_⟩ }
  simp

/-- A byte copied out comes from the next descriptor to pop. -/
theorem copyOut (invariant : DescRingInvariant before) {tail : Nat} {got : List (Fin 52)}
    (byte : Fin 52) (consumer : before.consumer = .copying tail got) :
    DescRingInvariant
      { before with
        d := Function.update before.d byte (before.entries (tail % descRingCapacity) byte)
        consumer := .copying tail (byte :: got) } := by
  have consumerHolds := invariant.consumerHolds
  simp only [ConsumerHolds, consumer] at consumerHolds
  obtain ⟨rfl, next, present, copied⟩ := consumerHolds
  have read : before.entries (before.tail % descRingCapacity) = next := by
    rw [invariant.tail_eq, counter_slot]
    exact invariant.window _ next le_rfl present
  rw [read]
  refine { invariant with consumerHolds := ⟨rfl, next, present, ?_⟩ }
  intro other member
  by_cases same : other = byte
  · subst same
    exact Function.update_self ..
  · apply (Function.update_of_ne same ..).trans
    apply copied
    exact (List.mem_cons.mp member).resolve_left same

/-- The gaps are counted over one more descriptor. -/
theorem gapsCounted_release (invariant : DescRingInvariant before) (tail : Nat) :
    GapsCounted (before.release tail) := by
  right
  rcases invariant.gapsCounted with ⟨none, notInit, zero⟩ | ⟨first, rest, some, init, last, sum⟩
  · refine ⟨before.d, [], ?_, rfl, rfl, ?_⟩
    · simp [DescRingState.release, none]
    · simp [DescRingState.release, notInit, zero, gapSum]
  · refine ⟨first, rest ++ [before.d], ?_, rfl, ?_, ?_⟩
    · simp [DescRingState.release, some]
    · simp [DescRingState.release]
    · simp [DescRingState.release, init, sum, last, gapSum_append, wrapAdd]

/-- The store of the tail pops the descriptor that was copied out. -/
theorem storeTail (invariant : DescRingInvariant before) {tail : Nat} {got : List (Fin 52)}
    (consumer : before.consumer = .copying tail got) (complete : ∀ byte, byte ∈ got) :
    DescRingInvariant (before.release tail) := by
  have producerHolds := invariant.producerHolds
  have consumerHolds := invariant.consumerHolds
  have bounded := invariant.bounded
  simp only [ConsumerHolds, consumer] at consumerHolds
  obtain ⟨rfl, next, present, copied⟩ := consumerHolds
  have whole : before.d = next := funext fun byte => copied byte (complete byte)
  subst whole
  have longer : (before.release before.tail).popped.length = before.popped.length + 1 := by
    simp [DescRingState.release]
  constructor
  case consumerHolds => trivial
  case head_eq => exact invariant.head_eq
  case gapsCounted => exact invariant.gapsCounted_release before.tail
  case tail_eq =>
    rw [longer, ← wrapAdd_counter, ← invariant.tail_eq]
    rfl
  case popped_pushed =>
    obtain ⟨rest, split⟩ := invariant.popped_pushed
    rw [← split, List.getElem?_append_right le_rfl, Nat.sub_self] at present
    cases rest with
    | nil => cases present
    | cons next rest =>
        cases present
        exact ⟨rest, (List.append_assoc ..).trans split⟩
  case bounded =>
    rw [longer]
    exact Nat.le_trans bounded (by omega)
  case window =>
    intro index d unread found
    rw [longer] at unread
    exact invariant.window index d (Nat.le_of_succ_le unread) found
  case producerHolds =>
    simp only [ProducerHolds, longer] at producerHolds ⊢
    cases standing : before.producer <;>
      simp only [DescRingState.release, standing] at producerHolds ⊢
    · exact producerHolds
    · exact ⟨producerHolds.1, Nat.lt_of_lt_of_le producerHolds.2.1 (by omega), producerHolds.2.2⟩

/-- Every move of either thread keeps the invariant. -/
theorem move (invariant : DescRingInvariant before) {action : DescRingAction}
    (move : DescRingMove before action after) : DescRingInvariant after := by
  cases move with
  | loadHead => exact { invariant with producerHolds := rfl }
  | @refuse d => exact invariant.refuse d
  | accept producer room => exact invariant.accept producer room
  | copyIn producer => exact invariant.copyIn _ producer
  | storeHead producer complete => exact invariant.storeHead producer complete
  | popLoadTail => exact { invariant with consumerHolds := rfl }
  | popFails => exact { invariant with consumerHolds := trivial }
  | popFinds consumer different => exact invariant.popFinds consumer different
  | copyOut consumer => exact invariant.copyOut _ consumer
  | storeTail consumer complete => exact invariant.storeTail consumer complete

end DescRingInvariant

/-- The invariant holds in every state that any interleaving of the two threads reaches. -/
theorem descRingInvariant_of_reaches {permitted : DescRingState → DescRingAction → Prop}
    {state : DescRingState} (run : descRingSystem.Reaches permitted state) :
    DescRingInvariant state := by
  apply run.invariant
  · rintro state ⟨head, tail, producer, consumer, notInit, drops, attempts, popped⟩
    have pushed : state.pushed = [] := by simp [DescRingState.pushed, attempts, pushedOf]
    constructor
    case gapsCounted => exact .inl ⟨popped, notInit, drops⟩
    case producerHolds => simp [ProducerHolds, producer]
    case consumerHolds => simp [ConsumerHolds, consumer]
    all_goals simp [head, tail, pushed, popped]
  · intro before action after invariant _ step
    exact invariant.move (descRingMove_of_step step)

/-! ### Sequence numbers -/

/-- The refused attempts in front of the `count`-th success. -/
def failuresUpTo : List (LdpcDesc × Bool) → Nat → Nat
  | [], _ => 0
  | _ :: _, 0 => 0
  | (_, true) :: rest, count + 1 => failuresUpTo rest count
  | (_, false) :: rest, count + 1 => failuresUpTo rest (count + 1) + 1

/-- The refused attempts between the first and the `count`-th success. -/
def failedBetween (attempts : List (LdpcDesc × Bool)) (count : Nat) : Nat :=
  failuresUpTo (attempts.dropWhile fun attempt => !attempt.2) count

/-- The attempts carry consecutive 32-bit numbers. -/
def Numbered (start : Nat) (attempts : List (LdpcDesc × Bool)) : Prop :=
  ∀ index attempt, attempts[index]? = some attempt →
    attempt.1.seq = (start + index) % 2 ^ 32

/-- Fewer than 2^32 attempts in a row are refused. -/
def FewRefusedInARow (attempts : List (LdpcDesc × Bool)) : Prop :=
  ∀ refused, refused <:+: attempts → (∀ attempt ∈ refused, attempt.2 = false) →
    refused.length < 2 ^ 32

theorem Numbered.tail {start : Nat} {attempt : LdpcDesc × Bool}
    {attempts : List (LdpcDesc × Bool)} (numbered : Numbered start (attempt :: attempts)) :
    Numbered (start + 1) attempts := by
  intro index found present
  have next := numbered (index + 1) found present
  rw [next, Nat.add_assoc, Nat.add_comm 1 index]

/-- The gap in front of a number that stands `missing` numbers further on. -/
theorem seqGap_eq {last missing : Nat} (few : missing < 2 ^ 32) :
    seqGap (last % 2 ^ 32) ((last + 1 + missing) % 2 ^ 32) = missing := by
  have first : wrapSub 32 ((last + 1 + missing) % 2 ^ 32) (last % 2 ^ 32) =
      (missing + 1) % 2 ^ 32 := by
    simp only [wrapSub]
    omega
  rw [seqGap, first]
  split
  · simp only [wrapSub]
    omega
  · rename_i noGap
    simp only [wrapAdd] at noGap
    omega

/-- The gaps the poll thread adds up are the refused attempts.  `refused` are the attempts since
the last success, so that the induction can pass a refused one. -/
theorem gapSum_take (attempts refused : List (LdpcDesc × Bool)) (last count : Nat)
    (numbered : Numbered (last + 1 + refused.length) attempts)
    (allRefused : ∀ attempt ∈ refused, attempt.2 = false)
    (few : FewRefusedInARow (refused ++ attempts))
    (enough : count < (pushedOf attempts).length) :
    gapSum (last % 2 ^ 32) ((pushedOf attempts).take (count + 1)) =
      refused.length + failuresUpTo attempts (count + 1) := by
  induction attempts generalizing refused last count with
  | nil => simp [pushedOf] at enough
  | cons attempt attempts inductionHypothesis =>
      obtain ⟨d, success⟩ := attempt
      cases success with
      | false =>
          have moved : refused ++ [(d, false)] ++ attempts = refused ++ (d, false) :: attempts := by
            simp
          have same : pushedOf ((d, false) :: attempts) = pushedOf attempts := by simp [pushedOf]
          have longer : (refused ++ [(d, false)]).length = refused.length + 1 := by simp
          rw [same] at enough ⊢
          rw [inductionHypothesis (refused ++ [(d, false)]) last count _ _ _ enough, longer,
            failuresUpTo]
          · omega
          · rw [longer]
            exact numbered.tail
          · intro attempt member
            rcases List.mem_append.mp member with old | new
            · exact allRefused attempt old
            · rw [List.mem_singleton.mp new]
          · rw [moved]
            exact few
      | true =>
          have more : pushedOf ((d, true) :: attempts) = d :: pushedOf attempts := by
            simp [pushedOf]
          have short : refused.length < 2 ^ 32 :=
            few refused (List.prefix_append _ _).isInfix allRefused
          have seq : d.seq = (last + 1 + refused.length) % 2 ^ 32 := numbered 0 (d, true) rfl
          rw [more] at enough ⊢
          rw [List.take_succ_cons, gapSum, failuresUpTo, seq, seqGap_eq short]
          cases count with
          | zero => cases attempts <;> simp [gapSum, failuresUpTo]
          | succ count =>
              rw [inductionHypothesis [] (last + 1 + refused.length) count, List.length_nil,
                Nat.zero_add]
              · exact numbered.tail
              · simp
              · intro failed inside
                apply few failed
                apply inside.trans
                exact List.IsSuffix.isInfix ⟨refused ++ [(d, true)], by simp⟩
              · exact Nat.lt_of_succ_lt_succ enough

/-- The same for all that was popped: the leading refusals are behind no popped descriptor. -/
theorem gapSum_of_popped {attempts : List (LdpcDesc × Bool)} {start : Nat}
    {first : LdpcDesc} {rest : List LdpcDesc} (numbered : Numbered start attempts)
    (few : FewRefusedInARow attempts) (popped : first :: rest <+: pushedOf attempts) :
    gapSum first.seq rest = failedBetween attempts (rest.length + 1) := by
  induction attempts generalizing start with
  | nil => simp [pushedOf] at popped
  | cons attempt attempts inductionHypothesis =>
      obtain ⟨d, success⟩ := attempt
      have inner : FewRefusedInARow attempts := fun failed inside =>
        few failed (inside.trans (List.suffix_cons _ _).isInfix)
      cases success with
      | false =>
          have same : pushedOf ((d, false) :: attempts) = pushedOf attempts := by simp [pushedOf]
          rw [same] at popped
          rw [inductionHypothesis numbered.tail inner popped]
          simp [failedBetween]
      | true =>
          have more : pushedOf ((d, true) :: attempts) = d :: pushedOf attempts := by
            simp [pushedOf]
          rw [more, List.cons_prefix_cons] at popped
          obtain ⟨rfl, popped⟩ := popped
          have seq : first.seq = start % 2 ^ 32 := numbered 0 (first, true) rfl
          have taken := List.prefix_iff_eq_take.mp popped
          simp only [failedBetween, Bool.not_true, Bool.false_eq_true, not_false_eq_true,
            List.dropWhile_cons_of_neg, failuresUpTo]
          rw [taken, seq]
          cases length : rest.length with
          | zero => cases attempts <;> simp [gapSum, failuresUpTo]
          | succ count =>
              have enough : count < (pushedOf attempts).length := by
                have := popped.length_le
                omega
              have length_take : ((pushedOf attempts).take (count + 1)).length = count + 1 := by
                rw [List.length_take]
                omega
              rw [gapSum_take attempts [] start count numbered.tail (by simp) inner enough,
                length_take]
              simp

/-! ### One producer and one consumer -/

namespace DescRingInvariant

variable {state after : DescRingState}

/-- The counters themselves are ordered as long as they have not wrapped. -/
theorem head_sub_tail (invariant : DescRingInvariant state)
    (fits : state.pushed.length < 2 ^ 64) :
    state.tail ≤ state.head ∧ state.head ≤ state.tail + descRingCapacity := by
  have ordered := invariant.popped_pushed.length_le
  have bounded := invariant.bounded
  rw [invariant.head_eq, invariant.tail_eq, Nat.mod_eq_of_lt fits,
    Nat.mod_eq_of_lt (Nat.lt_of_le_of_lt ordered fits)]
  exact ⟨ordered, bounded⟩

/-- A push is refused only over a full ring. -/
theorem full_of_refused (invariant : DescRingInvariant state) {d : LdpcDesc}
    (move : DescRingMove state .loadTail after)
    (refused : after.attempts = state.attempts ++ [(d, false)]) :
    state.pushed.length = state.popped.length + descRingCapacity := by
  have bounded := invariant.bounded
  have producerHolds := invariant.producerHolds
  cases move with
  | refuse producer full =>
      simp only [ProducerHolds, producer] at producerHolds
      rw [producerHolds, invariant.distance] at full
      simp only [descRingCapacity] at full bounded ⊢
      omega
  | accept => simp at refused

/-- A pop fails only over an empty ring. -/
theorem empty_of_failed (invariant : DescRingInvariant state)
    (move : DescRingMove state .popLoadHead after) (failed : after.consumer = .idle) :
    state.pushed.length = state.popped.length := by
  have consumerHolds := invariant.consumerHolds
  cases move with
  | popFails consumer same =>
      simp only [ConsumerHolds, consumer] at consumerHolds
      rw [consumerHolds] at same
      exact invariant.tail_eq_head_iff.mp same
  | popFinds => cases failed

/-- The drop counter is the number of refused attempts, modulo its width. -/
theorem drops_eq (invariant : DescRingInvariant state) {start : Nat}
    (numbered : Numbered start state.attempts) (few : FewRefusedInARow state.attempts) :
    state.dropsDetected = failedBetween state.attempts state.popped.length % 2 ^ 64 := by
  rcases invariant.gapsCounted with ⟨none, -, zero⟩ | ⟨first, rest, some, -, -, sum⟩
  · have noFailures : ∀ attempts, failuresUpTo attempts 0 = 0 := by
      intro attempts
      cases attempts <;> rfl
    rw [zero, none, List.length_nil, failedBetween, noFailures, Nat.zero_mod]
  · have popped := invariant.popped_pushed
    rw [some] at popped
    rw [sum, some, gapSum_of_popped numbered few popped, List.length_cons]

end DescRingInvariant

theorem failuresUpTo_le (attempts : List (LdpcDesc × Bool)) (count : Nat) :
    failuresUpTo attempts count ≤ attempts.length := by
  fun_induction failuresUpTo attempts count with
  | case1 | case2 => simp
  | case3 _ rest count inductionHypothesis =>
      exact inductionHypothesis.trans (Nat.le_succ _)
  | case4 _ rest count inductionHypothesis =>
      exact Nat.succ_le_succ inductionHypothesis

theorem failedBetween_le (attempts : List (LdpcDesc × Bool)) (count : Nat) :
    failedBetween attempts count ≤ attempts.length :=
  (failuresUpTo_le _ count).trans (List.dropWhile_sublist _).length_le

/-- In every interleaving of the steps of the two threads: what is popped is, in order and byte
for byte, what was pushed first; at most 256 descriptors are in the ring; a push is refused only
when 256 are unpopped as it reads the tail, and a pop fails only when none is there as it reads
the head; and when the producer numbers its attempts, the drop counter is the number of refused
attempts between the first and the last popped descriptor. -/
theorem desc_ring_spsc {state : DescRingState}
    (run : descRingSystem.Reaches (fun _ _ => True) state) :
    state.popped <+: state.pushed ∧
      wrapSub 64 state.head state.tail ≤ descRingCapacity ∧
      (state.pushed.length < 2 ^ 64 →
        state.tail ≤ state.head ∧ state.head ≤ state.tail + descRingCapacity) ∧
      (∀ d after, descRingNext state .loadTail = some after →
        after.attempts = state.attempts ++ [(d, false)] →
          state.pushed.length = state.popped.length + descRingCapacity) ∧
      (∀ after, descRingNext state .popLoadHead = some after → after.consumer = .idle →
        state.pushed.length = state.popped.length) ∧
      (∀ start, Numbered start state.attempts → FewRefusedInARow state.attempts →
        state.attempts.length < 2 ^ 64 →
          state.dropsDetected = failedBetween state.attempts state.popped.length) := by
  have invariant := descRingInvariant_of_reaches run
  refine ⟨invariant.popped_pushed, ?_, invariant.head_sub_tail, ?_, ?_, ?_⟩
  · have bounded := invariant.bounded
    rw [invariant.distance]
    omega
  · intro d after step refused
    exact invariant.full_of_refused (descRingMove_of_step step) refused
  · intro after step failed
    exact invariant.empty_of_failed (descRingMove_of_step step) failed
  · intro start numbered few fits
    rw [invariant.drops_eq numbered few]
    apply Nat.mod_eq_of_lt
    exact Nat.lt_of_le_of_lt (failedBetween_le _ _) fits

/-- The zeroed ring. -/
def zeroedRing : DescRingState where
  head := 0
  tail := 0
  entries := fun _ _ => 0
  producer := .idle
  consumer := .idle
  d := fun _ => 0
  lastSeq := 0
  seqInit := false
  dropsDetected := 0
  attempts := []
  popped := []

/-! ### A full ring -/

/-- Both threads are idle behind these attempts, and so many descriptors were popped. -/
structure AtRest (attempts : List (LdpcDesc × Bool)) (popped : Nat) (state : DescRingState) :
    Prop where
  run : descRingSystem.Reaches (fun _ _ => True) state
  producer : state.producer = .idle
  consumer : state.consumer = .idle
  attempts : state.attempts = attempts
  popped : state.popped.length = popped

section Rest

variable {attempts : List (LdpcDesc × Bool)} {popped : Nat} {state : DescRingState}

/-- The distance of the counters at rest. -/
theorem AtRest.distance (rest : AtRest attempts popped state) :
    wrapSub 64 state.head state.tail = (pushedOf attempts).length - popped := by
  rw [(descRingInvariant_of_reaches rest.run).distance, DescRingState.pushed, rest.attempts,
    rest.popped]

/-- The bytes of a descriptor are copied into the ring. -/
theorem reaches_copyIn {d : LdpcDesc} {head : Nat} {written : List (Fin 52)}
    (run : descRingSystem.Reaches (fun _ _ => True) state)
    (producer : state.producer = .copying d head written) (bytes : List (Fin 52)) :
    ∃ after, descRingSystem.Reaches (fun _ _ => True) after ∧
      after.producer = .copying d head (bytes.reverse ++ written) ∧
      after.consumer = state.consumer ∧ after.attempts = state.attempts ∧
      after.popped = state.popped := by
  induction bytes generalizing state written with
  | nil => exact ⟨state, run, producer, rfl, rfl, rfl⟩
  | cons byte bytes inductionHypothesis =>
      have step : descRingNext state (.copyIn byte) = some
          { state with
            entries := Function.update state.entries (head % descRingCapacity)
              (Function.update (state.entries (head % descRingCapacity)) byte (d byte))
            producer := .copying d head (byte :: written) } := by
        rw [descRingNext, producer]
      obtain ⟨after, reached, copied, consumer, attempts, popped⟩ :=
        inductionHypothesis (.next run trivial step) rfl
      rw [List.append_cons, ← List.reverse_cons] at copied
      exact ⟨after, reached, copied, consumer, attempts, popped⟩

/-- The bytes of a descriptor are copied out of the ring. -/
theorem reaches_copyOut {tail : Nat} {got : List (Fin 52)}
    (run : descRingSystem.Reaches (fun _ _ => True) state)
    (consumer : state.consumer = .copying tail got) (bytes : List (Fin 52)) :
    ∃ after, descRingSystem.Reaches (fun _ _ => True) after ∧
      after.consumer = .copying tail (bytes.reverse ++ got) ∧
      after.producer = state.producer ∧ after.attempts = state.attempts ∧
      after.popped = state.popped := by
  induction bytes generalizing state got with
  | nil => exact ⟨state, run, consumer, rfl, rfl, rfl⟩
  | cons byte bytes inductionHypothesis =>
      have step : descRingNext state (.copyOut byte) = some
          { state with
            d := Function.update state.d byte (state.entries (tail % descRingCapacity) byte)
            consumer := .copying tail (byte :: got) } := by
        rw [descRingNext, consumer]
      obtain ⟨after, reached, copied, producer, attempts, popped⟩ :=
        inductionHypothesis (.next run trivial step) rfl
      rw [List.append_cons, ← List.reverse_cons] at copied
      exact ⟨after, reached, copied, producer, attempts, popped⟩

/-- A push into a ring with room. -/
theorem AtRest.push (rest : AtRest attempts popped state) (d : LdpcDesc)
    (room : (pushedOf attempts).length < popped + descRingCapacity) :
    ∃ after, AtRest (attempts ++ [(d, true)]) popped after := by
  have loaded : descRingNext state (.loadHead d) =
      some { state with producer := .loadedHead d state.head } := by
    rw [descRingNext, rest.producer]
  have free : ¬ descRingCapacity ≤ wrapSub 64 state.head state.tail := by
    rw [rest.distance]
    rw [descRingCapacity] at room ⊢
    omega
  have accepted : descRingNext { state with producer := .loadedHead d state.head } .loadTail =
      some { state with producer := .copying d state.head [] } := by
    rw [descRingNext]
    exact if_neg free
  obtain ⟨copied, reached, producer, consumer, same, popped⟩ :=
    reaches_copyIn (.next (.next rest.run trivial loaded) trivial accepted) rfl (List.finRange 52)
  have stored : descRingNext copied .storeHead = some (copied.publish d state.head) := by
    rw [descRingNext, producer]
    exact if_pos fun byte => by simp
  refine ⟨_, .next reached trivial stored, rfl, consumer.trans rest.consumer, ?_,
    (congrArg List.length popped).trans rest.popped⟩
  exact congrArg (· ++ [(d, true)]) (same.trans rest.attempts)

/-- A push into a full ring is refused. -/
theorem AtRest.refuse (rest : AtRest attempts popped state) (d : LdpcDesc)
    (full : popped + descRingCapacity ≤ (pushedOf attempts).length) :
    ∃ after, AtRest (attempts ++ [(d, false)]) popped after := by
  have loaded : descRingNext state (.loadHead d) =
      some { state with producer := .loadedHead d state.head } := by
    rw [descRingNext, rest.producer]
  have refused : descRingNext { state with producer := .loadedHead d state.head } .loadTail =
      some { state with producer := .idle, attempts := state.attempts ++ [(d, false)] } := by
    rw [descRingNext]
    refine if_pos ?_
    rw [rest.distance]
    rw [descRingCapacity] at full ⊢
    omega
  exact ⟨_, .next (.next rest.run trivial loaded) trivial refused, rfl, rest.consumer,
    congrArg (· ++ [(d, false)]) rest.attempts, rest.popped⟩

/-- A pop from a ring that is not empty. -/
theorem AtRest.pop (rest : AtRest attempts popped state)
    (left : popped < (pushedOf attempts).length) :
    ∃ after, AtRest attempts (popped + 1) after := by
  have invariant := descRingInvariant_of_reaches rest.run
  have loaded : descRingNext state .popLoadTail =
      some { state with consumer := .loadedTail state.tail } := by
    rw [descRingNext, rest.consumer]
  have differ : state.tail ≠ state.head := by
    rw [Ne, invariant.tail_eq_head_iff, DescRingState.pushed, rest.attempts, rest.popped]
    omega
  have found : descRingNext { state with consumer := .loadedTail state.tail } .popLoadHead =
      some { state with consumer := .copying state.tail [] } := by
    rw [descRingNext]
    exact if_neg differ
  obtain ⟨copied, reached, consumer, producer, same, before⟩ :=
    reaches_copyOut (.next (.next rest.run trivial loaded) trivial found) rfl (List.finRange 52)
  have stored : descRingNext copied .storeTail = some (copied.release state.tail) := by
    rw [descRingNext, consumer]
    exact if_pos fun byte => by simp
  refine ⟨_, .next reached trivial stored, producer.trans rest.producer, rfl,
    same.trans rest.attempts, ?_⟩
  rw [DescRingState.release, List.length_append, before]
  exact congrArg (· + 1) rest.popped

end Rest

/-- A descriptor with this number and no other content. -/
def numberedDesc (number : Nat) : LdpcDesc := fun byte =>
  if byte = 40 then BitVec.ofNat 8 number
  else if byte = 41 then BitVec.ofNat 8 (number / 256)
  else 0

/-- 258 numbered attempts, the last but one of them refused. -/
def gappedAttempts : List (LdpcDesc × Bool) :=
  (List.range 258).map fun number => (numberedDesc number, decide (number ≠ 256))

theorem gappedAttempts_eq :
    gappedAttempts = (List.range 256).map (fun number => (numberedDesc number, true)) ++
      [(numberedDesc 256, false)] ++ [(numberedDesc 257, true)] := by
  have front : (List.range 256).map (fun number => (numberedDesc number, decide (number ≠ 256))) =
      (List.range 256).map fun number => (numberedDesc number, true) := by
    refine List.map_congr_left fun number member => ?_
    have below := List.mem_range.mp member
    rw [decide_eq_true (by omega : number ≠ 256)]
  rw [gappedAttempts, List.range_succ, List.range_succ, List.map_append, List.map_append, front]
  rfl

theorem numbered_gappedAttempts : Numbered 0 gappedAttempts := by
  intro index attempt found
  rw [gappedAttempts, List.getElem?_map, Option.map_eq_some_iff] at found
  obtain ⟨number, inside, rfl⟩ := found
  obtain ⟨below, rfl⟩ := List.getElem?_eq_some_iff.mp inside
  rw [List.length_range] at below
  simp [numberedDesc, LdpcDesc.seq]
  omega

/-- The ring is filled, the next attempt is refused, and behind a pop there is room for one more;
then everything is popped, and the gap is counted. -/
theorem desc_ring_spsc_gap :
    ∃ state, descRingSystem.Reaches (fun _ _ => True) state ∧ state.attempts = gappedAttempts ∧
      state.popped = state.pushed ∧ state.popped.length = 257 ∧ state.dropsDetected = 1 := by
  have fresh : AtRest [] 0 zeroedRing :=
    ⟨.start ⟨rfl, rfl, rfl, rfl, rfl, rfl, rfl, rfl⟩, rfl, rfl, rfl, rfl⟩
  have filled : ∀ n ≤ 256, ∃ state,
      AtRest ((List.range n).map fun number => (numberedDesc number, true)) 0 state := by
    intro n
    induction n with
    | zero => exact fun _ => ⟨zeroedRing, fresh⟩
    | succ n inductionHypothesis =>
        intro inside
        obtain ⟨state, rest⟩ := inductionHypothesis (by omega)
        rw [List.range_succ, List.map_append]
        refine rest.push (numberedDesc n) ?_
        have bound : (pushedOf ((List.range n).map fun number =>
            (numberedDesc number, true))).length ≤ n :=
          (List.length_filterMap_le _ _).trans (by simp)
        rw [descRingCapacity]
        omega
  obtain ⟨_, full⟩ := filled 256 le_rfl
  obtain ⟨_, refused⟩ := full.refuse (numberedDesc 256) (by decide +kernel)
  obtain ⟨_, popped⟩ := refused.pop (by decide +kernel)
  obtain ⟨state, pushed⟩ := popped.push (numberedDesc 257) (by decide +kernel)
  rw [← gappedAttempts_eq] at pushed
  have length : (pushedOf gappedAttempts).length = 257 := by decide +kernel
  have emptied : ∀ n ≤ 256, ∃ state, AtRest gappedAttempts (1 + n) state := by
    intro n
    induction n with
    | zero => exact fun _ => ⟨state, pushed⟩
    | succ n inductionHypothesis =>
        intro inside
        obtain ⟨_, rest⟩ := inductionHypothesis (by omega)
        exact rest.pop (by omega)
  obtain ⟨last, rest⟩ := emptied 256 le_rfl
  have all := desc_ring_spsc rest.run
  have pushedLength : last.pushed.length = 257 := by
    rw [DescRingState.pushed, rest.attempts, length]
  refine ⟨last, rest.run, rest.attempts, ?_, rest.popped, ?_⟩
  · exact all.1.eq_of_length (rest.popped.trans pushedLength.symm)
  · rw [all.2.2.2.2.2 0 (rest.attempts ▸ numbered_gappedAttempts) ?_ ?_, rest.attempts,
      rest.popped]
    · decide +kernel
    · intro refused inside _
      have few := inside.length_le
      rw [rest.attempts, gappedAttempts, List.length_map, List.length_range] at few
      omega
    · rw [rest.attempts, gappedAttempts, List.length_map, List.length_range]
      decide

end RanInline.Cxl
