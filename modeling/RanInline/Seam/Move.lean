/-
Module: RanInline.Seam.Move
Purpose: What one enabled action of the seam ring does, one case per outcome, so that
  invariants are proved by cases on the move and never by unfolding the step.
Trusted boundary: none
Main exports: SeamMove, seamMove_of_step
-/
import RanInline.Seam.Ring

namespace RanInline.Seam

open RanInline.Lib

variable {Payload : Type} {capacity : Nat}

/-- The outcomes of the enabled actions. -/
inductive SeamMove (capacity : Nat) (state : SeamState Payload) :
    SeamAction Payload → SeamState Payload → Prop where
  | loadHead (pc : state.producer = .idle) :
      SeamMove capacity state .loadHead
        { state with producer := .loadedHead state.head }
  | loadTail {head : Nat} (pc : state.producer = .loadedHead head) :
      SeamMove capacity state .loadTail
        { state with producer := .loadedTail head state.tail }
  | claim {head tail : Nat} (pc : state.producer = .loadedTail head tail)
      (room : wrapSub 64 head tail < capacity) (same : state.head = head) :
      SeamMove capacity state (.casHead false)
        { state with
          head := wrapAdd 64 head 1
          producer := .claimed head
          claims := state.claims + 1 }
  | retry {head tail : Nat} {spurious : Bool}
      (pc : state.producer = .loadedTail head tail) :
      SeamMove capacity state (.casHead spurious) { state with producer := .idle }
  | writeSeq {head : Nat} (pc : state.producer = .claimed head) :
      SeamMove capacity state .writeSeq
        { state.modifySlot (head % capacity) (fun slot => { slot with seq := head }) with
          producer := .wroteSeq head }
  | writeEpoch {head : Nat} (pc : state.producer = .wroteSeq head) :
      SeamMove capacity state .writeEpoch
        { state.modifySlot (head % capacity)
            (fun slot => { slot with epoch := state.epoch }) with
          producer := .wroteEpoch head }
  | storeReserved {head : Nat} (pc : state.producer = .wroteEpoch head) :
      SeamMove capacity state .storeReserved
        { state.modifySlot (head % capacity)
            (fun slot => { slot with status := .reserved }) with
          producer := .filling head }
  | fill {head : Nat} (payload : Payload) (pc : state.producer = .filling head) :
      SeamMove capacity state (.fill payload)
        (state.modifySlot (head % capacity) (fun slot => { slot with payload := payload }))
  | publish {head : Nat} (pc : state.producer = .filling head) :
      SeamMove capacity state .publish
        { (state.publishRecord (head % capacity)).modifySlot (head % capacity)
            (fun slot => { slot with status := .ready }) with
          producer := .idle }
  | refuse {head : Nat} (pc : state.producer = .filling head) :
      SeamMove capacity state .refuse { state with producer := .idle }
  | attach (pc : state.consumer = .down) :
      SeamMove capacity state .attach { state with consumer := .waiting state.tail }
  | seeReady {idx : Nat} (pc : state.consumer = .waiting idx)
      (ready : (state.slots (idx % capacity)).status = .ready) :
      SeamMove capacity state .waitStatus { state with consumer := .reading idx }
  | keepWaiting {idx : Nat} (pc : state.consumer = .waiting idx) :
      SeamMove capacity state .waitStatus state
  | readHeader {idx : Nat} (pc : state.consumer = .reading idx) :
      SeamMove capacity state .readHeader
        { state with
          consumer := .readingPayload idx (state.slots (idx % capacity)).epoch
            (state.slots (idx % capacity)).seq }
  | readPayload {idx epoch seq : Nat}
      (pc : state.consumer = .readingPayload idx epoch seq) :
      SeamMove capacity state .readPayload
        { state with
          consumer := .processed idx
          handed := state.handed ++
            [{ epoch := epoch
               seq := seq
               payload := (state.slots (idx % capacity)).payload }] }
  | storeDone {idx : Nat} (pc : state.consumer = .processed idx) :
      SeamMove capacity state .storeDone
        { state.modifySlot (idx % capacity) (fun slot => { slot with status := .done }) with
          consumer := .markedDone idx }
  | addTail {idx : Nat} (pc : state.consumer = .markedDone idx) :
      SeamMove capacity state .addTail
        { state with
          tail := wrapAdd 64 state.tail 1
          consumer := .advancedTail idx (wrapAdd 64 state.tail 1) }
  | persist {idx newTail : Nat} (pc : state.consumer = .advancedTail idx newTail) :
      SeamMove capacity state .persist
        { state with
          consumerState := some (state.epoch, newTail)
          consumer := .waiting (wrapAdd 64 idx 1) }
  | kill : SeamMove capacity state .kill { state with consumer := .down }
  | restart : SeamMove capacity state .restart { state with producer := .opening }
  | bumpEpoch (pc : state.producer = .opening) :
      SeamMove capacity state .bumpEpoch
        { state with
          epoch := wrapAdd 32 state.epoch 1
          producer := .bumpedEpoch
          reopening := true
          published := []
          handed := [] }
  | resetHead (pc : state.producer = .bumpedEpoch) :
      SeamMove capacity state .resetHead { state with head := 0, producer := .headReset }
  | resetTail (pc : state.producer = .headReset) :
      SeamMove capacity state .resetTail
        { state with tail := 0, producer := .idle, reopening := false }

private theorem seamMove_of_producerStep {before after : SeamState Payload}
    {action : SeamAction Payload}
    (step : producerStep capacity before action before.producer = some after) :
    SeamMove capacity before action after := by
  cases action <;> cases pc : before.producer <;>
    simp only [pc, producerStep, reduceCtorEq] at step
  case casHead.loadedTail spurious head tail =>
    split at step
    case isTrue room =>
      split at step
      case isTrue same =>
        cases step
        rw [same.2]
        exact .claim pc room same.1
      case isFalse =>
        cases step
        exact .retry pc
    case isFalse =>
      cases step
      exact .retry pc
  all_goals
    cases step
    constructor
    exact pc

private theorem seamMove_of_consumerStep {before after : SeamState Payload}
    {action : SeamAction Payload}
    (step : consumerStep capacity before action before.consumer = some after) :
    SeamMove capacity before action after := by
  cases action <;> cases pc : before.consumer <;>
    simp only [pc, consumerStep, reduceCtorEq] at step
  case waitStatus.waiting idx =>
    split at step
    case isTrue ready =>
      cases step
      exact .seeReady pc ready
    case isFalse =>
      cases step
      exact .keepWaiting pc
  all_goals
    cases step
    constructor
    exact pc

private theorem seamMove_of_openStep {before after : SeamState Payload}
    {action : SeamAction Payload}
    (step : openStep before action before.producer = some after) :
    SeamMove capacity before action after := by
  cases action <;> cases pc : before.producer <;>
    simp only [pc, openStep, reduceCtorEq] at step
  all_goals
    cases step
    constructor
    exact pc

/-- Every enabled action is one of the moves. -/
theorem seamMove_of_step {before after : SeamState Payload}
    {action : SeamAction Payload}
    (step : seamStep capacity before action = some after) :
    SeamMove capacity before action after := by
  cases action with
  | restart =>
      cases step
      exact .restart
  | kill =>
      cases step
      exact .kill
  | bumpEpoch | resetHead | resetTail => exact seamMove_of_openStep step
  | attach | waitStatus | readHeader | readPayload | storeDone | addTail | persist =>
      exact seamMove_of_consumerStep step
  | loadHead | loadTail | casHead | writeSeq | writeEpoch | storeReserved | fill
  | publish | refuse => exact seamMove_of_producerStep step

end RanInline.Seam
