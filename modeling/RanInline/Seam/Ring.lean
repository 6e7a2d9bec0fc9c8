/-
Module: RanInline.Seam.Ring
Purpose: The PHY-to-L2 seam ring of oi_seam.c as a transition system: the producer's
  reserve, fill and publish, the consume loop of l2_stub_main.c, producer restarts
  through oi_seam_open(create=1), and consumer kills and restarts.  Every atomic load,
  store and read-modify-write of the mapped segment is a step of its own.
Trusted boundary: none
Main exports: OiSeamStatus, OiSeamSlot, SeamState, SeamAction, seamStep, seamSystem
-/
import RanInline.Lib.Transition
import RanInline.Lib.Wrap

namespace RanInline.Seam

open RanInline.Lib

/-- `oi_seam_status_t`. -/
inductive OiSeamStatus where
  | empty
  | reserved
  | ready
  | done
deriving DecidableEq, Repr

/-- `oi_seam_slot_t`.  The fields that the caller of `oi_seam_reserve` fills in (sfn,
slot, rnti, harq_id, crc_ok, tb_len, t_enqueue_ns, tb) are the payload. -/
structure OiSeamSlot (Payload : Type) where
  status : OiSeamStatus
  epoch : Nat
  seq : Nat
  payload : Payload
deriving DecidableEq, Repr

/-- What the consumer reads out of one slot. -/
structure SeamRecord (Payload : Type) where
  epoch : Nat
  seq : Nat
  payload : Payload
deriving DecidableEq, Repr

/-- The record a slot holds. -/
def OiSeamSlot.record {Payload : Type} (slot : OiSeamSlot Payload) :
    SeamRecord Payload :=
  { epoch := slot.epoch, seq := slot.seq, payload := slot.payload }

/-- Where the producer process stands, with the locals it still needs.  The last three
are inside `oi_seam_open(create=1)` on an existing segment. -/
inductive ProducerPc where
  | idle
  | loadedHead (head : Nat)
  | loadedTail (head tail : Nat)
  | claimed (head : Nat)
  | wroteSeq (head : Nat)
  | wroteEpoch (head : Nat)
  | filling (head : Nat)
  | opening
  | bumpedEpoch
  | headReset
deriving DecidableEq, Repr

/-- Where the consumer process stands, with its private index. -/
inductive ConsumerPc where
  | down
  | waiting (idx : Nat)
  | reading (idx : Nat)
  | readingPayload (idx epoch seq : Nat)
  | processed (idx : Nat)
  | markedDone (idx : Nat)
  | advancedTail (idx newTail : Nat)
deriving DecidableEq, Repr

/-- The mapped segment, both processes, and the history of the run.  `claims` counts the
successful claims of the whole run; `published` and `handed` are the records published
and handed to a consumer since the last epoch bump; `reopening` says that the counter
resets that belong to that bump are not finished. -/
structure SeamState (Payload : Type) where
  epoch : Nat
  head : Nat
  tail : Nat
  slots : Nat → OiSeamSlot Payload
  consumerState : Option (Nat × Nat)
  producer : ProducerPc
  consumer : ConsumerPc
  claims : Nat
  reopening : Bool
  published : List (SeamRecord Payload)
  handed : List (SeamRecord Payload)

/-- The atomic steps of the two processes, and the events around them. -/
inductive SeamAction (Payload : Type) where
  -- oi_seam_reserve
  | loadHead
  | loadTail
  | casHead (spurious : Bool)
  | writeSeq
  | writeEpoch
  | storeReserved
  -- the caller's fill (any number of partial writes), oi_seam_publish, and the bridge's
  -- branch that leaves a refused slot unpublished
  | fill (payload : Payload)
  | publish
  | refuse
  -- l2_stub_main.c: attach at oi_seam_tail, oi_seam_wait_status, validate, oi_seam_release
  | attach
  | waitStatus
  | readHeader
  | readPayload
  | storeDone
  | addTail
  | persist
  | kill
  -- a new producer process in oi_seam_open(create=1)
  | restart
  | bumpEpoch
  | resetHead
  | resetTail
deriving DecidableEq, Repr

namespace SeamState

variable {Payload : Type}

/-- Rewrite one physical slot. -/
def modifySlot (state : SeamState Payload) (phys : Nat)
    (change : OiSeamSlot Payload → OiSeamSlot Payload) : SeamState Payload :=
  { state with
    slots := Function.update state.slots phys (change (state.slots phys)) }

/-- The record that a store of `READY` into a slot publishes. -/
def publishRecord (state : SeamState Payload) (phys : Nat) : SeamState Payload :=
  { state with published := state.published ++ [(state.slots phys).record] }

end SeamState

/-- The segment that `oi_seam_open(create=1)` leaves on a fresh file, before either
process takes a step.  `zero` is the payload of all-zero bytes. -/
def freshRing {Payload : Type} (zero : Payload) : SeamState Payload where
  epoch := 0
  head := 0
  tail := 0
  slots := fun _ => { status := .empty, epoch := 0, seq := 0, payload := zero }
  consumerState := none
  producer := .idle
  consumer := .down
  claims := 0
  reopening := false
  published := []
  handed := []

section Step

variable {Payload : Type} (capacity : Nat)

/-- One step of `oi_seam_reserve`, of the caller's fill, or of `oi_seam_publish`. -/
def producerStep (state : SeamState Payload) :
    SeamAction Payload → ProducerPc → Option (SeamState Payload)
  | .loadHead, .idle => some { state with producer := .loadedHead state.head }
  | .loadTail, .loadedHead head =>
      some { state with producer := .loadedTail head state.tail }
  | .casHead spurious, .loadedTail head tail =>
      if wrapSub 64 head tail < capacity then
        -- a weak compare-exchange may fail although the head is the expected one
        if state.head = head ∧ spurious = false then
          some { state with
            head := wrapAdd 64 head 1
            producer := .claimed head
            claims := state.claims + 1 }
        else some { state with producer := .idle }
      else some { state with producer := .idle }
  | .writeSeq, .claimed head =>
      some { state.modifySlot (head % capacity) (fun slot => { slot with seq := head }) with
        producer := .wroteSeq head }
  | .writeEpoch, .wroteSeq head =>
      some { state.modifySlot (head % capacity)
          (fun slot => { slot with epoch := state.epoch }) with
        producer := .wroteEpoch head }
  | .storeReserved, .wroteEpoch head =>
      some { state.modifySlot (head % capacity)
          (fun slot => { slot with status := .reserved }) with
        producer := .filling head }
  | .fill payload, .filling head =>
      some (state.modifySlot (head % capacity) (fun slot => { slot with payload := payload }))
  | .publish, .filling head =>
      some { (state.publishRecord (head % capacity)).modifySlot (head % capacity)
          (fun slot => { slot with status := .ready }) with
        producer := .idle }
  | .refuse, .filling _ => some { state with producer := .idle }
  | _, _ => none

/-- One step of the consume loop. -/
def consumerStep (state : SeamState Payload) :
    SeamAction Payload → ConsumerPc → Option (SeamState Payload)
  | .attach, .down => some { state with consumer := .waiting state.tail }
  | .waitStatus, .waiting idx =>
      if (state.slots (idx % capacity)).status = .ready then
        some { state with consumer := .reading idx }
      else some state
  | .readHeader, .reading idx =>
      some { state with
        consumer := .readingPayload idx (state.slots (idx % capacity)).epoch
          (state.slots (idx % capacity)).seq }
  | .readPayload, .readingPayload idx epoch seq =>
      some { state with
        consumer := .processed idx
        handed := state.handed ++
          [{ epoch := epoch
             seq := seq
             payload := (state.slots (idx % capacity)).payload }] }
  | .storeDone, .processed idx =>
      some { state.modifySlot (idx % capacity) (fun slot => { slot with status := .done }) with
        consumer := .markedDone idx }
  | .addTail, .markedDone idx =>
      some { state with
        tail := wrapAdd 64 state.tail 1
        consumer := .advancedTail idx (wrapAdd 64 state.tail 1) }
  | .persist, .advancedTail idx newTail =>
      some { state with
        consumerState := some (state.epoch, newTail)
        consumer := .waiting (wrapAdd 64 idx 1) }
  | _, _ => none

/-- One step of `oi_seam_open(create=1)` on the existing segment.  The header check is
left out: magic, version, capacity and slot size never change after creation. -/
def openStep (state : SeamState Payload) :
    SeamAction Payload → ProducerPc → Option (SeamState Payload)
  | .bumpEpoch, .opening =>
      some { state with
        epoch := wrapAdd 32 state.epoch 1
        producer := .bumpedEpoch
        reopening := true
        published := []
        handed := [] }
  | .resetHead, .bumpedEpoch => some { state with head := 0, producer := .headReset }
  | .resetTail, .headReset => 
      some { state with tail := 0, producer := .idle, reopening := false }
  | _, _ => none

/-- The next state of an enabled action. -/
def seamStep (state : SeamState Payload) (action : SeamAction Payload) :
    Option (SeamState Payload) :=
  match action with
  | .restart => some { state with producer := .opening }
  | .kill => some { state with consumer := .down }
  | .bumpEpoch | .resetHead | .resetTail => openStep state action state.producer
  | .attach | .waitStatus | .readHeader | .readPayload | .storeDone | .addTail | .persist =>
      consumerStep capacity state action state.consumer
  | _ => producerStep capacity state action state.producer

/-- The ring from its creation on, under every interleaving. -/
def seamSystem (zero : Payload) :
    TransitionSystem (SeamState Payload) (SeamAction Payload) :=
  .ofNext (freshRing zero) (seamStep capacity)

end Step

end RanInline.Seam
