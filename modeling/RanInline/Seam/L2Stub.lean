/-
Module: RanInline.Seam.L2Stub
Purpose: The loop and the verdict of l2_stub_main.c, and the whole way from the records that the
  bridge drains to the exit code of the stub, under every interleaving.
Trusted boundary: none
Main exports: l2StubLoop, L2StubReport, l2StubMain, slotsProcessed, l2_stub_verdict_is_exact
-/
import RanInline.Seam.BridgeDelivery
import RanInline.Seam.ProducerOrder

namespace RanInline.Seam

open RanInline.Lib

/-! ### The stub -/

/-- The slot that the stub validates: it was waited for until it was `READY`. -/
def SeamRecord.readySlot (record : SeamRecord SeamPayload) : SeamSlot where
  status := .ready
  epoch := record.epoch
  seq := record.seq
  payload := record.payload

/-- The loop over the slots that become `READY` one after the other.  A negative `max_slots` is no
bound; the loop also ends when the process is stopped and no further slot comes. -/
def l2StubLoop (maxSlots : Int) : OiL2Validator → Nat → List SeamSlot → OiL2Validator
  | validator, _, [] => validator
  | validator, processed, slot :: slots =>
      if maxSlots < 0 ∨ (processed : Int) < maxSlots then
        l2StubLoop maxSlots (oiL2ValidatorProcess validator slot) (processed + 1) slots
      else validator

/-- The counters of the printed verdict. -/
structure L2StubReport where
  processed : Nat
  crcOk : Nat
  crcFail : Nat
  orderViolations : Nat
  epochResets : Nat
deriving DecidableEq, Repr

/-- `main` behind a successful attach, for the slots that were delivered to it. -/
def l2StubMain (maxSlots : Int) (slots : List SeamSlot) : L2StubReport :=
  let validator := l2StubLoop maxSlots oiL2ValidatorInit 0 slots
  { processed := validator.nofProcessed
    crcOk := validator.nofCrcOk
    crcFail := validator.nofCrcFail
    orderViolations := validator.nofOrderViolations
    epochResets := validator.nofEpochResets }

/-- The exit code. -/
def L2StubReport.exitCode (report : L2StubReport) : Nat :=
  if report.crcFail = 0 ∧ report.orderViolations = 0 then 0 else 1

/-- The slots that the loop hands to the validator, in order. -/
def slotsProcessed (maxSlots : Int) : Nat → List SeamSlot → List SeamSlot
  | _, [] => []
  | processed, slot :: slots =>
      if maxSlots < 0 ∨ (processed : Int) < maxSlots then
        slot :: slotsProcessed maxSlots (processed + 1) slots
      else []

/-- The number of slots that the loop takes of those delivered. -/
def slotsTaken (maxSlots : Int) (delivered : Nat) : Nat :=
  if maxSlots < 0 then delivered else min maxSlots.toNat delivered

/-! ### What the loop processes -/

theorem l2StubLoop_eq (maxSlots : Int) (validator : OiL2Validator) (processed : Nat)
    (slots : List SeamSlot) :
    l2StubLoop maxSlots validator processed slots =
      (slotsProcessed maxSlots processed slots).foldl oiL2ValidatorProcess validator := by
  induction slots generalizing validator processed with
  | nil => rfl
  | cons slot slots inductionHypothesis =>
      rw [l2StubLoop, slotsProcessed]
      split_ifs
      · rw [inductionHypothesis, List.foldl_cons]
      · rfl

theorem slotsProcessed_eq (maxSlots : Int) (processed : Nat) (slots : List SeamSlot) :
    slotsProcessed maxSlots processed slots =
      slots.take (if maxSlots < 0 then slots.length else maxSlots.toNat - processed) := by
  induction slots generalizing processed with
  | nil => simp [slotsProcessed]
  | cons slot slots inductionHypothesis =>
      rw [slotsProcessed]
      by_cases unbounded : maxSlots < 0
      · rw [if_pos (.inl unbounded), inductionHypothesis, if_pos unbounded, if_pos unbounded,
          List.take_length, List.take_length]
      · by_cases below : (processed : Int) < maxSlots
        · have left : maxSlots.toNat - processed = (maxSlots.toNat - (processed + 1)) + 1 := by
            omega
          rw [if_pos (.inr below), inductionHypothesis, if_neg unbounded, if_neg unbounded, left,
            List.take_succ_cons]
        · have done : maxSlots.toNat - processed = 0 := by omega
          rw [if_neg (by omega), if_neg unbounded, done, List.take_zero]

theorem slotsProcessed_zero (maxSlots : Int) (slots : List SeamSlot) :
    slotsProcessed maxSlots 0 slots = slots.take (slotsTaken maxSlots slots.length) := by
  rw [slotsProcessed_eq, slotsTaken]
  by_cases unbounded : maxSlots < 0
  · rw [if_pos unbounded, if_pos unbounded]
  · rw [if_neg unbounded, if_neg unbounded, Nat.sub_zero, ← List.take_take, List.take_length]

/-- The counters of a run of one key and one epoch with increasing positions. -/
theorem counters_of_increasing {slots : List SeamSlot} (some : slots ≠ []) (epoch : Nat)
    (key : UInt16 × UInt8) (sameEpoch : ∀ slot ∈ slots, slot.epoch = epoch)
    (sameKey : ∀ slot ∈ slots, slot.key = key)
    (increasing : slots.Pairwise fun one two => one.position < two.position) :
    (validate slots).counters =
      (0, 1, slots.countP SeamSlot.crcPassed, slots.countP (fun slot => !slot.crcPassed),
        slots.length) := by
  have few : FewKeys slots := by
    have single : (slots.map SeamSlot.key).toFinset ⊆ {key} := by
      intro other member
      rw [List.mem_toFinset, List.mem_map] at member
      obtain ⟨slot, slotMember, rfl⟩ := member
      exact Finset.mem_singleton.mpr (sameKey slot slotMember)
    refine (Finset.card_le_card single).trans ?_
    rw [Finset.card_singleton, oiL2MaxTrackedKeys]
    decide
  have ordered : orderViolations slots = 0 := by
    refine regressions_eq_zero SeamSlot.key orderViolated (increasing.imp ?_)
    intro one two before
    exact decide_eq_false before.not_ge
  have separate : RunsFrom none [slots] := ⟨epoch, some, sameEpoch, by simp, trivial⟩
  have counted := counters_validate separate (by simpa using few)
  rw [List.flatten_singleton, List.map_singleton, List.sum_singleton, ordered] at counted
  exact counted

/-! ### From the bridge to the verdict -/

section Run

variable {capacity : Nat} {cfg : ProducerConfig} {zero : SeamPayload} {state : BridgeState}

/-- The records that the stub was handed carry the first records drained, in order. -/
theorem BridgeInvariant.handed_payloads (inv : BridgeInvariant capacity cfg state) (n : Nat) :
    (state.ring.handed.take n).map SeamRecord.payload =
      (state.drained.take (min n state.ring.handed.length)).map (slotPayload cfg) := by
  have part := List.prefix_iff_eq_take.mp inv.handed_drained
  rw [List.length_map, ← List.map_take] at part
  rw [List.map_take, part, ← List.map_take, List.take_take]

/-- The slot in which the stub finds record `k` of the run. -/
def slotOf (cfg : ProducerConfig) (epoch k : Nat) (record : P2RecordView) : SeamSlot where
  status := .ready
  epoch := epoch
  seq := k
  payload := slotPayload cfg record

/-- The slots that the stub was handed first are those of the records drained first. -/
theorem BridgeInvariant.handed_slots (inv : BridgeInvariant capacity cfg state) {n : Nat}
    (inside : n ≤ state.ring.handed.length) :
    n ≤ state.drained.length ∧
      (state.ring.handed.take n).map SeamRecord.readySlot =
        (state.drained.take n).mapIdx (slotOf cfg state.ring.epoch) := by
  have payloads := inv.handed_payloads n
  rw [Nat.min_eq_left inside] at payloads
  refine ⟨?_, List.ext_getElem? fun k => ?_⟩
  · have lengths := congrArg List.length payloads
    simp only [List.length_map, List.length_take] at lengths
    omega
  · have payload := congrArg (fun list => list[k]?) payloads
    simp only [List.getElem?_map] at payload
    rw [List.getElem?_map, List.getElem?_mapIdx]
    cases found : (state.ring.handed.take n)[k]? with
    | none =>
        rw [found, Option.map_none, eq_comm, Option.map_eq_none_iff] at payload
        rw [payload]
        rfl
    | some record =>
        rw [found, Option.map_some, eq_comm, Option.map_eq_some_iff] at payload
        obtain ⟨view, drained, same⟩ := payload
        have handed : state.ring.handed[k]? = some record := by
          rw [List.getElem?_take] at found
          split at found
          · exact found
          · cases found
        obtain ⟨_, seq, epoch⟩ := inv.ring.handed_record inv.inOrder handed
        rw [drained, Option.map_some, Option.map_some, SeamRecord.readySlot, slotOf, seq, epoch,
          same]

/-- The payloads of the slots of records. -/
theorem payloads_slotOf (cfg : ProducerConfig) (epoch : Nat) (records : List P2RecordView) :
    ((records.mapIdx (slotOf cfg epoch)).map fun slot => slot.payload) =
      records.map (slotPayload cfg) := by
  refine List.ext_getElem? fun k => ?_
  simp only [List.getElem?_map, List.getElem?_mapIdx, Option.map_map]
  rfl

/-- A list of slots whose payloads are those of records, counted by what the records say. -/
theorem countP_of_payloads {slots : List SeamSlot} {records : List P2RecordView}
    (payloads : (slots.map fun slot => slot.payload) = records.map (slotPayload cfg)) :
    slots.countP SeamSlot.crcPassed = records.countP (fun record => record.crc24aOk ≠ 0) ∧
      slots.countP (fun slot => !slot.crcPassed) =
        records.countP (fun record => record.crc24aOk = 0) := by
  have count (test : SeamPayload → Bool) :
      slots.countP (fun slot => test slot.payload) =
        records.countP fun record => test (slotPayload cfg record) := by
    have same := congrArg (List.countP test) payloads
    rw [List.countP_map, List.countP_map] at same
    exact same
  have verdict (record : P2RecordView) :
      (slotPayload cfg record).crcOk ≠ 0 ↔ record.crc24aOk ≠ 0 := by
    by_cases passed : record.crc24aOk = 0 <;> simp [slotPayload, passed]
  constructor
  · have passed := count fun payload => payload.crcOk ≠ 0
    simp only [verdict] at passed
    exact passed
  · have failed := count fun payload => !decide (payload.crcOk ≠ 0)
    simp only [verdict] at failed
    simp only [SeamSlot.crcPassed]
    rw [failed]
    refine List.countP_congr fun record _ => ?_
    simp

/-- What the validator counts in the slots of records whose slot ids increase. -/
theorem counters_slotOf (some : 1 ≤ cfg.slotsPerFrame.toNat)
    (small : cfg.slotsPerFrame.toNat ≤ 65536) (epoch : Nat) {records : List P2RecordView}
    (increasing : records.Pairwise fun one two => one.slotId < two.slotId) :
    (validate (records.mapIdx (slotOf cfg epoch))).counters =
      (0, if records.length = 0 then 0 else 1,
        records.countP (fun record => record.crc24aOk ≠ 0),
        records.countP (fun record => record.crc24aOk = 0), records.length) := by
  by_cases empty : records = []
  · rw [empty]
    rfl
  have payloads := payloads_slotOf cfg epoch records
  obtain ⟨passed, failed⟩ := countP_of_payloads payloads
  have ordered : (records.mapIdx (slotOf cfg epoch)).Pairwise fun one two =>
      one.position < two.position := by
    have positions : (records.map (slotPayload cfg)).Pairwise fun one two =>
        toLex (one.sfn.toNat, one.slot.toNat) < toLex (two.sfn.toNat, two.slot.toNat) :=
      List.pairwise_map.mpr (increasing.imp fun before => producerPosition_lt some small before)
    rw [← payloads, List.pairwise_map] at positions
    exact positions
  have carried : ∀ slot ∈ records.mapIdx (slotOf cfg epoch),
      slot.epoch = epoch ∧ slot.key = (cfg.rnti, cfg.harqId) := by
    intro slot member
    obtain ⟨k, inside, rfl⟩ := List.mem_mapIdx.mp member
    exact ⟨rfl, rfl⟩
  rw [counters_of_increasing (by simpa using empty) epoch (cfg.rnti, cfg.harqId)
    (fun slot member => (carried slot member).1) (fun slot member => (carried slot member).2)
    ordered, passed, failed, List.length_mapIdx, if_neg (by simpa using empty)]

/-- In every state of every interleaving of the bridge, the ring and the stub: if no record is
oversize and the slot ids of the drained records increase, the stub has processed exactly the first
records drained, in order and unchanged, finds no order violation and one epoch, counts the failed
checksums, and exits with 0 exactly when none of these records failed. -/
theorem l2_stub_verdict_is_exact
    (run : (bridgeSystem capacity cfg zero).Reaches InSizeOnly state)
    (fits : state.ring.claims < 2 ^ 64) (some : 1 ≤ cfg.slotsPerFrame.toNat)
    (small : cfg.slotsPerFrame.toNat ≤ 65536)
    (increasing : state.drained.Pairwise fun one two => one.slotId < two.slotId)
    (maxSlots : Int) :
    slotsTaken maxSlots state.ring.handed.length ≤ state.drained.length ∧
      slotsProcessed maxSlots 0 (state.ring.handed.map SeamRecord.readySlot) =
        (state.drained.take (slotsTaken maxSlots state.ring.handed.length)).mapIdx
          (slotOf cfg state.ring.epoch) ∧
      l2StubMain maxSlots (state.ring.handed.map SeamRecord.readySlot) =
        { processed := slotsTaken maxSlots state.ring.handed.length
          crcOk := (state.drained.take (slotsTaken maxSlots state.ring.handed.length)).countP
            (fun record => record.crc24aOk ≠ 0)
          crcFail := (state.drained.take (slotsTaken maxSlots state.ring.handed.length)).countP
            (fun record => record.crc24aOk = 0)
          orderViolations := 0
          epochResets := if slotsTaken maxSlots state.ring.handed.length = 0 then 0 else 1 } ∧
      ((l2StubMain maxSlots (state.ring.handed.map SeamRecord.readySlot)).exitCode = 0 ↔
        ∀ record ∈ state.drained.take (slotsTaken maxSlots state.ring.handed.length),
          record.crc24aOk ≠ 0) := by
  have inv := BridgeInvariant.of_reaches run fits
  have processed := slotsProcessed_zero maxSlots (state.ring.handed.map SeamRecord.readySlot)
  rw [List.length_map, ← List.map_take] at processed
  generalize taken : slotsTaken maxSlots state.ring.handed.length = n at *
  have inside : n ≤ state.ring.handed.length := by
    rw [← taken, slotsTaken]
    split_ifs
    · exact le_rfl
    · exact Nat.min_le_right _ _
  obtain ⟨drained, slots⟩ := inv.handed_slots inside
  rw [slots] at processed
  have length : (state.drained.take n).length = n := by
    rw [List.length_take, Nat.min_eq_left drained]
  have counted := counters_slotOf some small state.ring.epoch
    (increasing.sublist (List.take_sublist n state.drained))
  rw [length] at counted
  have report : l2StubMain maxSlots (state.ring.handed.map SeamRecord.readySlot) =
      { processed := n
        crcOk := (state.drained.take n).countP (fun record => record.crc24aOk ≠ 0)
        crcFail := (state.drained.take n).countP (fun record => record.crc24aOk = 0)
        orderViolations := 0
        epochResets := if n = 0 then 0 else 1 } := by
    obtain ⟨violations, resets, crcOk, crcFail, nofProcessed⟩ : _ ∧ _ ∧ _ ∧ _ ∧ _ := by
      simpa only [OiL2Validator.counters, Prod.mk.injEq] using counted
    rw [l2StubMain, l2StubLoop_eq, processed, ← validate, violations, resets, crcOk, crcFail,
      nofProcessed]
  refine ⟨drained, processed, report, ?_⟩
  rw [report, L2StubReport.exitCode]
  simp only [and_true, ite_eq_left_iff, one_ne_zero, imp_false, not_not, List.countP_eq_zero,
    decide_eq_true_eq, ne_eq]

end Run

/-! ### Two records through a ring of one slot -/

/-- A payload of zeros. -/
def blankPayload : SeamPayload where
  sfn := 0
  slot := 0
  rnti := 0
  harqId := 0
  crcOk := 0
  tbLen := 0
  tEnqueueNs := 0
  tb := fun _ => 0

/-- An empty record of a slot with this checksum verdict. -/
def emptyRecord (slotId : UInt32) (crc24aOk : UInt8) : P2RecordView where
  slotId := slotId
  tbSizeBytes := 0
  crc24aOk := crc24aOk
  tbData := fun _ => 0

/-- The bridge drains a record and publishes it, and the stub takes it. -/
def passRecord (record : P2RecordView) : List BridgeAction :=
  [.drain record, .reserve .loadHead, .reserve .loadTail, .reserve (.casHead false),
    .reserve .writeSeq, .reserve .writeEpoch, .reserve .storeReserved, .fillSlot] ++
    List.replicate 8 BridgeAction.store ++
    [.publish, .consume .waitStatus, .consume .readHeader, .consume .readPayload,
      .consume .storeDone, .consume .addTail, .consume .persist]

theorem l2_stub_verdict_is_exact_one_failed :
    ∃ state : BridgeState,
      (bridgeSystem 1 pinnedConfig blankPayload).Reaches InSizeOnly state ∧
        state.drained = [emptyRecord 19 1, emptyRecord 20 0] ∧
        slotsProcessed (-1) 0 (state.ring.handed.map SeamRecord.readySlot) =
          [slotOf pinnedConfig state.ring.epoch 0 (emptyRecord 19 1),
            slotOf pinnedConfig state.ring.epoch 1 (emptyRecord 20 0)] ∧
        (l2StubMain (-1) (state.ring.handed.map SeamRecord.readySlot)).crcFail = 1 ∧
        (l2StubMain 1 (state.ring.handed.map SeamRecord.readySlot)).exitCode = 0 := by
  obtain ⟨state, executed, fits, drained, handed⟩ :
      ∃ state, TransitionSystem.execute (bridgeNext 1 pinnedConfig) (freshBridge blankPayload)
          (BridgeAction.consume .attach :: passRecord (emptyRecord 19 1) ++
            passRecord (emptyRecord 20 0)) = some state ∧
        state.ring.claims < 2 ^ 64 ∧ state.drained = [emptyRecord 19 1, emptyRecord 20 0] ∧
        state.ring.handed.length = 2 :=
    ⟨_, rfl, by decide, rfl, rfl⟩
  have inSize : ∀ state, ∀ action ∈ BridgeAction.consume .attach ::
      passRecord (emptyRecord 19 1) ++ passRecord (emptyRecord 20 0), InSizeOnly state action := by
    intro state
    simp [passRecord, InSizeOnly, emptyRecord, P2RecordView.InSize, oiSeamTbMaxBytes]
  have run : (bridgeSystem 1 pinnedConfig blankPayload).Reaches InSizeOnly state :=
    TransitionSystem.Reaches.execute (.start rfl) _ inSize executed
  have increasing : state.drained.Pairwise fun one two => one.slotId < two.slotId := by
    rw [drained]
    simp [emptyRecord]
  have all := l2_stub_verdict_is_exact run fits (by decide) (by decide) increasing (-1)
  have first := l2_stub_verdict_is_exact run fits (by decide) (by decide) increasing 1
  rw [handed, drained] at all first
  refine ⟨state, run, drained, all.2.1, ?_, ?_⟩
  · rw [all.2.2.1]
    rfl
  · refine first.2.2.2.mpr fun record member => ?_
    obtain rfl : record = emptyRecord 19 1 := by simpa [slotsTaken] using member
    decide

end RanInline.Seam
