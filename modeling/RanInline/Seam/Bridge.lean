/-
Module: RanInline.Seam.Bridge
Purpose: The bridge of gpu_phy_seam_bridge.c in front of the seam ring: every drained record
  reserves a slot, is refused when its transport block is too large, and is else stored field by
  field and published, interleaved with the consume loop.
Trusted boundary: none
Main exports: P2RecordView, SeamPayload, oiSeamProducerFillSlot, slotPayload, BridgeState,
  BridgeAction, bridgeNext, bridgeSystem, BridgeFacts, bridge_of_reaches
-/
import RanInline.Lib.Progress
import RanInline.Seam.Delivery

namespace RanInline.Seam

open RanInline.Lib

/-! ### Filling a slot -/

/-- `OI_SEAM_TB_MAX_BYTES`. -/
def oiSeamTbMaxBytes : Nat := 3457

/-- `oi_seam_p2_record_view_t`, with the memory behind `tb_data`. -/
structure P2RecordView where
  slotId : UInt32
  tbSizeBytes : UInt32
  crc24aOk : UInt8
  tbData : Nat → UInt8

/-- `oi_seam_producer_config_t`. -/
structure ProducerConfig where
  rnti : UInt16
  harqId : UInt8
  slotsPerFrame : UInt32

/-- The fields of `oi_seam_slot_t` that the producer fills in. -/
structure SeamPayload where
  sfn : UInt32
  slot : UInt16
  rnti : UInt16
  harqId : UInt8
  crcOk : UInt8
  tbLen : UInt32
  tEnqueueNs : UInt64
  tb : Fin oiSeamTbMaxBytes → UInt8

/-- One store of `oi_seam_producer_fill_slot`. -/
inductive FieldStore where
  | sfn (value : UInt32)
  | slot (value : UInt16)
  | rnti (value : UInt16)
  | harqId (value : UInt8)
  | crcOk (value : UInt8)
  | tbLen (value : UInt32)
  | tEnqueueNs (value : UInt64)
  | memset
  | memcpy (size : UInt32) (data : Nat → UInt8)

/-- What a store does to the slot. -/
def FieldStore.apply (payload : SeamPayload) : FieldStore → SeamPayload
  | .sfn value => { payload with sfn := value }
  | .slot value => { payload with slot := value }
  | .rnti value => { payload with rnti := value }
  | .harqId value => { payload with harqId := value }
  | .crcOk value => { payload with crcOk := value }
  | .tbLen value => { payload with tbLen := value }
  | .tEnqueueNs value => { payload with tEnqueueNs := value }
  | .memset => { payload with tb := fun _ => 0 }
  | .memcpy size data =>
      { payload with tb := fun i => if i.val < size.toNat then data i.val else payload.tb i }

/-- The transport block fits into a slot. -/
def P2RecordView.InSize (record : P2RecordView) : Prop :=
  record.tbSizeBytes.toNat ≤ oiSeamTbMaxBytes

instance (record : P2RecordView) : Decidable record.InSize :=
  inferInstanceAs (Decidable (_ ≤ _))

/-- `oi_seam_producer_fill_slot`: the stores it makes, or `none` for its return value `-1`. -/
def oiSeamProducerFillSlot (record : P2RecordView) (cfg : ProducerConfig)
    (tEnqueueNs : UInt64) : Option (List FieldStore) :=
  if record.InSize then
    some
      ([FieldStore.sfn (record.slotId / cfg.slotsPerFrame),
        FieldStore.slot (record.slotId % cfg.slotsPerFrame).toUInt16,
        FieldStore.rnti cfg.rnti,
        FieldStore.harqId cfg.harqId,
        FieldStore.crcOk (if record.crc24aOk ≠ 0 then 1 else 0),
        FieldStore.tbLen record.tbSizeBytes,
        FieldStore.tEnqueueNs tEnqueueNs,
        FieldStore.memset] ++
        if 0 < record.tbSizeBytes then
          [FieldStore.memcpy record.tbSizeBytes record.tbData]
        else [])
  else none

/-- What a delivered record says: the fields of the drained record, the pinned configuration, and
the transport block padded with zeros. -/
def slotPayload (cfg : ProducerConfig) (record : P2RecordView) : SeamPayload where
  sfn := record.slotId / cfg.slotsPerFrame
  slot := (record.slotId % cfg.slotsPerFrame).toUInt16
  rnti := cfg.rnti
  harqId := cfg.harqId
  crcOk := if record.crc24aOk ≠ 0 then 1 else 0
  tbLen := record.tbSizeBytes
  tEnqueueNs := 0
  tb := fun i => if i.val < record.tbSizeBytes.toNat then record.tbData i.val else 0

/-- The stores leave nothing of what the slot held before. -/
theorem fill_result {record : P2RecordView} {cfg : ProducerConfig} {stores : List FieldStore}
    (filled : oiSeamProducerFillSlot record cfg 0 = some stores) (payload : SeamPayload) :
    stores.foldl FieldStore.apply payload = slotPayload cfg record := by
  simp only [oiSeamProducerFillSlot] at filled
  split at filled
  · cases filled
    by_cases some : 0 < record.tbSizeBytes
    · rw [if_pos some]
      rfl
    · have zero : record.tbSizeBytes.toNat = 0 := by
        simpa [UInt32.lt_iff_toNat_lt] using some
      rw [if_neg some]
      simp [FieldStore.apply, slotPayload, zero]
  · cases filled

theorem fill_length {record : P2RecordView} {cfg : ProducerConfig} {stores : List FieldStore}
    (filled : oiSeamProducerFillSlot record cfg 0 = some stores) : stores.length ≤ 9 := by
  simp only [oiSeamProducerFillSlot] at filled
  split at filled
  · cases filled
    by_cases some : 0 < record.tbSizeBytes
    · rw [if_pos some]
      rfl
    · rw [if_neg some]
      simp
  · cases filled

/-! ### The bridge -/

/-- Where the bridge stands with the record in its hand. -/
inductive BridgePc where
  | polling
  | reserving (record : P2RecordView)
  | storing (record : P2RecordView) (stores : List FieldStore)

/-- The ring with both processes, the bridge, and every record it has drained. -/
structure BridgeState where
  ring : SeamState SeamPayload
  pc : BridgePc
  drained : List P2RecordView

/-- The steps of the bridge and of the consume loop. -/
inductive BridgeAction where
  -- the main loop of the bridge
  | drain (record : P2RecordView)
  | reserve (action : SeamAction SeamPayload)
  | fillSlot
  | store
  | publish
  -- l2_stub_main.c
  | consume (action : SeamAction SeamPayload)

/-- The steps inside `oi_seam_reserve`. -/
def SeamAction.isReserve {Payload : Type} : SeamAction Payload → Bool
  | .loadHead | .loadTail | .casHead _ | .writeSeq | .writeEpoch | .storeReserved => true
  | _ => false

/-- The steps of the consume loop. -/
def SeamAction.isConsume {Payload : Type} : SeamAction Payload → Bool
  | .attach | .waitStatus | .readHeader | .readPayload | .storeDone | .addTail | .persist => true
  | _ => false

/-- One step; `none` when it is not enabled. -/
def bridgeNext (capacity : Nat) (cfg : ProducerConfig) (state : BridgeState) :
    BridgeAction → Option BridgeState
  | .drain record =>
      match state.pc with
      | .polling =>
          some { state with pc := .reserving record, drained := state.drained ++ [record] }
      | _ => none
  | .reserve action =>
      match state.pc, action.isReserve with
      | .reserving _, true =>
          (seamStep capacity state.ring action).map fun ring => { state with ring := ring }
      | _, _ => none
  | .fillSlot =>
      match state.pc, state.ring.producer with
      | .reserving record, .filling _ =>
          match oiSeamProducerFillSlot record cfg 0 with
          | none =>
              (seamStep capacity state.ring .refuse).map fun ring =>
                { state with ring := ring, pc := .polling }
          | some stores =>
              -- the divisions in front of the first store trap on zero
              if cfg.slotsPerFrame = 0 then none
              else some { state with pc := .storing record stores }
      | _, _ => none
  | .store =>
      match state.pc, state.ring.producer with
      | .storing record (store :: rest), .filling head =>
          let payload := (state.ring.slots (head % capacity)).payload
          (seamStep capacity state.ring (.fill (store.apply payload))).map fun ring =>
            { state with ring := ring, pc := .storing record rest }
      | _, _ => none
  | .publish =>
      match state.pc with
      | .storing _ [] =>
          (seamStep capacity state.ring .publish).map fun ring =>
            { state with ring := ring, pc := .polling }
      | _ => none
  | .consume action =>
      match action.isConsume with
      | true => (seamStep capacity state.ring action).map fun ring => { state with ring := ring }
      | false => none

/-- The bridge over a fresh segment. -/
def freshBridge (zero : SeamPayload) : BridgeState where
  ring := freshRing zero
  pc := .polling
  drained := []

/-- The bridge and the consumer, under every interleaving. -/
def bridgeSystem (capacity : Nat) (cfg : ProducerConfig) (zero : SeamPayload) :
    TransitionSystem BridgeState BridgeAction :=
  .ofNext (freshBridge zero) (bridgeNext capacity cfg)

/-! ### The moves -/

/-- What a step of the bridge can do. -/
inductive BridgeMove (capacity : Nat) (cfg : ProducerConfig) (state : BridgeState) :
    BridgeAction → BridgeState → Prop where
  | drain {record : P2RecordView} (pc : state.pc = .polling) :
      BridgeMove capacity cfg state (.drain record)
        { state with pc := .reserving record, drained := state.drained ++ [record] }
  | reserve {record : P2RecordView} {action : SeamAction SeamPayload}
      {ring : SeamState SeamPayload} (pc : state.pc = .reserving record)
      (kind : action.isReserve = true) (step : seamStep capacity state.ring action = some ring) :
      BridgeMove capacity cfg state (.reserve action) { state with ring := ring }
  | refuse {record : P2RecordView} {ring : SeamState SeamPayload}
      (pc : state.pc = .reserving record) (oversize : ¬ record.InSize)
      (step : seamStep capacity state.ring .refuse = some ring) :
      BridgeMove capacity cfg state .fillSlot { state with ring := ring, pc := .polling }
  | accept {record : P2RecordView} {stores : List FieldStore} {head : Nat}
      (pc : state.pc = .reserving record) (producer : state.ring.producer = .filling head)
      (filled : oiSeamProducerFillSlot record cfg 0 = some stores) :
      BridgeMove capacity cfg state .fillSlot { state with pc := .storing record stores }
  | store {record : P2RecordView} {store : FieldStore} {rest : List FieldStore} {head : Nat}
      (pc : state.pc = .storing record (store :: rest))
      (producer : state.ring.producer = .filling head) :
      BridgeMove capacity cfg state .store
        { state with
          ring := state.ring.modifySlot (head % capacity) fun slot =>
            { slot with
              payload := store.apply (state.ring.slots (head % capacity)).payload }
          pc := .storing record rest }
  | publish {record : P2RecordView} {head : Nat} (pc : state.pc = .storing record [])
      (producer : state.ring.producer = .filling head) :
      BridgeMove capacity cfg state .publish
        { state with
          ring :=
            { (state.ring.publishRecord (head % capacity)).modifySlot (head % capacity)
                (fun slot => { slot with status := .ready }) with
              producer := .idle }
          pc := .polling }
  | consume {action : SeamAction SeamPayload} {ring : SeamState SeamPayload}
      (kind : action.isConsume = true) (step : seamStep capacity state.ring action = some ring) :
      BridgeMove capacity cfg state (.consume action) { state with ring := ring }

variable {capacity : Nat} {cfg : ProducerConfig} {zero : SeamPayload}
  {state before after : BridgeState}

/-- Every enabled action of the bridge is one of the moves. -/
theorem bridgeMove_of_step {action : BridgeAction}
    (step : bridgeNext capacity cfg before action = some after) :
    BridgeMove capacity cfg before action after := by
  cases action with
  | drain record =>
      simp only [bridgeNext] at step
      split at step
      · cases step
        exact .drain ‹_›
      · cases step
  | reserve action =>
      simp only [bridgeNext] at step
      split at step
      · rename_i record pc kind
        obtain ⟨ring, moved, rfl⟩ := Option.map_eq_some_iff.mp step
        exact .reserve pc kind moved
      · cases step
  | fillSlot =>
      simp only [bridgeNext] at step
      split at step
      · rename_i record head pc producer
        split at step
        · rename_i refused
          obtain ⟨ring, moved, rfl⟩ := Option.map_eq_some_iff.mp step
          refine .refuse pc ?_ moved
          intro inSize
          simp [oiSeamProducerFillSlot, inSize] at refused
        · rename_i stores filled
          split at step
          · cases step
          · cases step
            exact .accept pc producer filled
      · cases step
  | store =>
      simp only [bridgeNext] at step
      split at step
      · rename_i record store rest head pc producer
        obtain ⟨ring, moved, rfl⟩ := Option.map_eq_some_iff.mp step
        simp only [seamStep, producerStep, producer, Option.some.injEq] at moved
        subst moved
        exact .store pc producer
      · cases step
  | publish =>
      simp only [bridgeNext] at step
      split at step
      · rename_i record pc
        obtain ⟨ring, moved, rfl⟩ := Option.map_eq_some_iff.mp step
        cases seamMove_of_step moved with
        | publish producer => exact .publish pc producer
      · cases step
  | consume action =>
      simp only [bridgeNext] at step
      split at step
      · rename_i kind
        obtain ⟨ring, moved, rfl⟩ := Option.map_eq_some_iff.mp step
        exact .consume kind moved
      · cases step

/-! ### What the bridge has published -/

/-- The slots that are published hold these records. -/
def PublishedAre (cfg : ProducerConfig) (state : BridgeState) (records : List P2RecordView) :
    Prop :=
  state.ring.published.map SeamRecord.payload = records.map (slotPayload cfg)

/-- Everything drained is published, up to the record in hand, which the stores still to come
complete. -/
def BridgeStanding (capacity : Nat) (cfg : ProducerConfig) (state : BridgeState) : Prop :=
  match state.pc with
  | .polling => PublishedAre cfg state state.drained
  | .reserving record => ∃ front, state.drained = front ++ [record] ∧ PublishedAre cfg state front
  | .storing record stores =>
      (∃ front, state.drained = front ++ [record] ∧ PublishedAre cfg state front) ∧
        stores.length ≤ 9 ∧
        ∃ head, state.ring.producer = .filling head ∧
          stores.foldl FieldStore.apply (state.ring.slots (head % capacity)).payload =
            slotPayload cfg record

/-- The facts about a bridge that has drained no oversize record. -/
structure BridgeFacts (capacity : Nat) (cfg : ProducerConfig) (state : BridgeState) : Prop where
  allInSize : ∀ record ∈ state.drained, record.InSize
  standing : BridgeStanding capacity cfg state

/-- The runs in which no oversize record is drained. -/
def InSizeOnly (_ : BridgeState) : BridgeAction → Prop
  | .drain record => record.InSize
  | _ => True

section Frames

variable {Payload : Type} {ring ring' : SeamState Payload} {action : SeamAction Payload}

/-- A reservation publishes nothing. -/
theorem published_of_reserve (kind : action.isReserve = true)
    (step : seamStep capacity ring action = some ring') : ring'.published = ring.published := by
  cases seamMove_of_step step <;> first | rfl | cases kind

/-- The consume loop leaves the producer, what is published and the payloads alone. -/
theorem frame_of_consume (kind : action.isConsume = true)
    (step : seamStep capacity ring action = some ring') :
    ring'.published = ring.published ∧ ring'.producer = ring.producer ∧
      ∀ phys, (ring'.slots phys).payload = (ring.slots phys).payload := by
  cases seamMove_of_step step with
  | storeDone pc =>
      refine ⟨rfl, rfl, ?_⟩
      intro phys
      simp only [SeamState.modifySlot, Function.update_apply]
      split
      · rename_i own
        rw [own]
      · rfl
  | attach | seeReady | keepWaiting | readHeader | readPayload | addTail | persist =>
      exact ⟨rfl, rfl, fun _ => rfl⟩
  | _ => cases kind

/-- A store into a claimed slot is enabled. -/
theorem seamStep_fill {head : Nat} (producer : ring.producer = .filling head)
    (payload : Payload) :
    seamStep capacity ring (.fill payload) =
      some (ring.modifySlot (head % capacity) fun slot => { slot with payload := payload }) := by
  simp only [seamStep, producerStep, producer]

/-- So is its publication. -/
theorem seamStep_publish {head : Nat} (producer : ring.producer = .filling head) :
    seamStep capacity ring .publish =
      some
        { (ring.publishRecord (head % capacity)).modifySlot (head % capacity)
            (fun slot => { slot with status := .ready }) with
          producer := .idle } := by
  simp only [seamStep, producerStep, producer]

/-- The steps of the reservation and of the consume loop are undisturbed ones. -/
theorem undisturbed_of_kind (kind : action.isReserve = true ∨ action.isConsume = true) :
    Undisturbed ring action := by
  cases action <;> simp_all [Undisturbed, SeamAction.isReserve, SeamAction.isConsume]

end Frames

/-- A drained record is in size when all of them are. -/
theorem BridgeFacts.inHand {record : P2RecordView} (facts : BridgeFacts capacity cfg state)
    (pc : state.pc = .reserving record) : record.InSize := by
  have standing := facts.standing
  simp only [BridgeStanding, pc] at standing
  obtain ⟨front, drained, _⟩ := standing
  apply facts.allInSize
  rw [drained]
  exact List.mem_append_right front List.mem_cons_self

/-- One move keeps the facts. -/
theorem BridgeFacts.move {action : BridgeAction} (facts : BridgeFacts capacity cfg before)
    (allowed : InSizeOnly before action) (move : BridgeMove capacity cfg before action after) :
    BridgeFacts capacity cfg after := by
  have standing := facts.standing
  cases move with
  | drain pc =>
      simp only [BridgeStanding, pc] at standing
      refine ⟨?_, before.drained, rfl, standing⟩
      intro record member
      rcases List.mem_append.mp member with old | new
      · exact facts.allInSize record old
      · rw [List.mem_singleton.mp new]
        exact allowed
  | reserve pc kind step =>
      have published := published_of_reserve kind step
      refine ⟨facts.allInSize, ?_⟩
      simp only [BridgeStanding, PublishedAre, pc, published] at standing ⊢
      exact standing
  | refuse pc oversize _ => exact absurd (facts.inHand pc) oversize
  | accept pc producer filled =>
      simp only [BridgeStanding, pc] at standing
      exact ⟨facts.allInSize, standing, fill_length filled, _, producer, fill_result filled _⟩
  | store pc producer =>
      simp only [BridgeStanding, pc] at standing
      obtain ⟨front, length, head, filling, result⟩ := standing
      rw [producer] at filling
      cases filling
      refine ⟨facts.allInSize, front, Nat.le_of_succ_le length, _, producer, ?_⟩
      simp only [SeamState.modifySlot, Function.update_self]
      exact result
  | publish pc producer =>
      simp only [BridgeStanding, pc] at standing
      obtain ⟨⟨front, drained, published⟩, _, head, filling, result⟩ := standing
      rw [producer] at filling
      cases filling
      refine ⟨facts.allInSize, ?_⟩
      simp only [BridgeStanding, PublishedAre, SeamState.modifySlot, SeamState.publishRecord,
        List.map_append, drained] at published ⊢
      rw [published]
      exact congrArg (fun payload => front.map (slotPayload cfg) ++ [payload]) result
  | consume kind step =>
      obtain ⟨published, producer, payloads⟩ := frame_of_consume kind step
      refine ⟨facts.allInSize, ?_⟩
      simp only [BridgeStanding, PublishedAre, published, producer, payloads] at standing ⊢
      exact standing

/-- Without oversize records the bridge is an undisturbed producer of the ring, and publishes what
it drains. -/
theorem bridge_of_reaches (run : (bridgeSystem capacity cfg zero).Reaches InSizeOnly state) :
    (seamSystem capacity zero).Reaches Undisturbed state.ring ∧
      BridgeFacts capacity cfg state := by
  induction run with
  | start initial =>
      cases initial
      exact ⟨.start rfl, by simp [freshBridge], rfl⟩
  | @next before after action _ allowed step inductionHypothesis =>
      obtain ⟨ring, facts⟩ := inductionHypothesis
      have move := bridgeMove_of_step step
      refine ⟨?_, facts.move allowed move⟩
      cases move with
      | drain => exact ring
      | reserve _ kind moved => exact .next ring (undisturbed_of_kind (.inl kind)) moved
      | refuse pc oversize _ => exact absurd (facts.inHand pc) oversize
      | accept => exact ring
      | store _ producer =>
          refine .next ring ?_ (seamStep_fill producer _)
          trivial
      | publish _ producer =>
          refine .next ring ?_ (seamStep_publish producer)
          trivial
      | consume kind moved => exact .next ring (undisturbed_of_kind (.inr kind)) moved

end RanInline.Seam
