/-
Module: RanInline.Seam.ProducerOrder
Purpose: The slots that oi_seam_producer_fill_slot fills, read by the order check of the L2 stub:
  the derived frame and slot numbers keep the order of the slot ids, and a refused record leaves
  the slot alone.
Trusted boundary: none
Main exports: fillSlot, producerPosition, ReservedRecord, publishedSlots,
  producer_keeps_order_and_content
-/
import RanInline.Seam.L2Validate

namespace RanInline.Seam

open RanInline.Lib

/-- `oi_seam_producer_fill_slot` on a slot: its return value and the slot behind it. -/
def fillSlot (out : SeamSlot) (record : P2RecordView) (cfg : ProducerConfig)
    (tEnqueueNs : UInt64) : Int × SeamSlot :=
  match oiSeamProducerFillSlot record cfg tEnqueueNs with
  | none => (-1, out)
  | some stores => (0, { out with payload := stores.foldl FieldStore.apply out.payload })

/-- The frame and slot number that a slot id becomes. -/
def producerPosition (cfg : ProducerConfig) (slotId : UInt32) : Nat ×ₗ Nat :=
  toLex ((slotId / cfg.slotsPerFrame).toNat, (slotId % cfg.slotsPerFrame).toUInt16.toNat)

/-- A record on its way, with the slot reserved for it and the time of the store. -/
structure ReservedRecord where
  out : SeamSlot
  record : P2RecordView
  tEnqueueNs : UInt64

/-- The slots that a stream of records publishes; a refused one is not published. -/
def publishedSlots (cfg : ProducerConfig) (stream : List ReservedRecord) : List SeamSlot :=
  stream.filterMap fun reserved =>
    match fillSlot reserved.out reserved.record cfg reserved.tEnqueueNs with
    | (0, slot) => some slot
    | _ => none

section Fill

variable {cfg : ProducerConfig} {record : P2RecordView} {out : SeamSlot} {tEnqueueNs : UInt64}

/-- A record that fits fills every field of the payload. -/
theorem fillSlot_of_inSize (inSize : record.InSize) :
    fillSlot out record cfg tEnqueueNs =
      (0, { out with payload := { slotPayload cfg record with tEnqueueNs := tEnqueueNs } }) := by
  by_cases some : 0 < record.tbSizeBytes
  · simp only [fillSlot, oiSeamProducerFillSlot, if_pos inSize, if_pos some]
    rfl
  · have zero : record.tbSizeBytes.toNat = 0 := by
      simpa [UInt32.lt_iff_toNat_lt] using some
    simp only [fillSlot, oiSeamProducerFillSlot, if_pos inSize, if_neg some]
    simp [FieldStore.apply, slotPayload, zero]

theorem fillSlot_of_oversize (oversize : ¬ record.InSize) :
    fillSlot out record cfg tEnqueueNs = (-1, out) := by
  rw [fillSlot, oiSeamProducerFillSlot, if_neg oversize]

/-- What is published is a filled slot of one of the records. -/
theorem publishedSlots_eq (stream : List ReservedRecord) :
    publishedSlots cfg stream =
      (stream.filter fun reserved => reserved.record.InSize).map fun reserved =>
        { reserved.out with
          payload := { slotPayload cfg reserved.record with
            tEnqueueNs := reserved.tEnqueueNs } } := by
  induction stream with
  | nil => rfl
  | cons reserved stream inductionHypothesis =>
      rw [publishedSlots] at inductionHypothesis ⊢
      by_cases inSize : reserved.record.InSize
      · simp only [List.filterMap_cons, fillSlot_of_inSize inSize, inductionHypothesis,
          List.filter_cons, inSize, decide_true, if_true, List.map_cons]
      · simp only [List.filterMap_cons, fillSlot_of_oversize inSize, inductionHypothesis,
          List.filter_cons, inSize, decide_false, Bool.false_eq_true, if_false]

end Fill

/-! ### The order -/

/-- With at most 65536 slots in a frame the slot number is not cut off, and the positions stand
in the order of the slot ids. -/
theorem producerPosition_lt {cfg : ProducerConfig} (some : 1 ≤ cfg.slotsPerFrame.toNat)
    (fits : cfg.slotsPerFrame.toNat ≤ 65536) {one two : UInt32} (before : one < two) :
    producerPosition cfg one < producerPosition cfg two := by
  have small : ∀ slotId : UInt32, (slotId % cfg.slotsPerFrame).toUInt16.toNat =
      slotId.toNat % cfg.slotsPerFrame.toNat := by
    intro slotId
    rw [UInt32.toNat_toUInt16, UInt32.toNat_mod]
    exact Nat.mod_eq_of_lt ((Nat.mod_lt _ some).trans_le fits)
  rw [producerPosition, producerPosition, Prod.Lex.toLex_lt_toLex, UInt32.toNat_div,
    UInt32.toNat_div, small, small]
  rw [UInt32.lt_iff_toNat_lt] at before
  rcases (Nat.div_le_div_right before.le).lt_or_eq with frames | same
  · exact .inl frames
  · -- inside one frame the slot numbers decide
    refine .inr ⟨same, ?_⟩
    have first := Nat.div_add_mod one.toNat cfg.slotsPerFrame.toNat
    have second := Nat.div_add_mod two.toNat cfg.slotsPerFrame.toNat
    rw [same] at first
    omega

theorem producerPosition_injective {cfg : ProducerConfig} (some : 1 ≤ cfg.slotsPerFrame.toNat)
    (fits : cfg.slotsPerFrame.toNat ≤ 65536) : Function.Injective (producerPosition cfg) := by
  intro one two same
  rcases lt_trichotomy one.toNat two.toNat with before | equal | behind
  · exact absurd same (producerPosition_lt some fits (UInt32.lt_iff_toNat_lt.mpr before)).ne
  · exact UInt32.toNat_inj.mp equal
  · exact absurd same (producerPosition_lt some fits (UInt32.lt_iff_toNat_lt.mpr behind)).ne'

/-- A run of one key and one epoch with increasing positions has no violation. -/
theorem no_violations_of_increasing {slots : List SeamSlot} (epoch : Nat) (key : UInt16 × UInt8)
    (sameEpoch : ∀ slot ∈ slots, slot.epoch = epoch) (sameKey : ∀ slot ∈ slots, slot.key = key)
    (increasing : slots.Pairwise fun one two => one.position < two.position) :
    (validate slots).nofOrderViolations = 0 := by
  cases slots with
  | nil => rfl
  | cons first rest =>
      have few : FewKeys (first :: rest) := by
        have single : ((first :: rest).map SeamSlot.key).toFinset ⊆ {key} := by
          intro other member
          rw [List.mem_toFinset, List.mem_map] at member
          obtain ⟨slot, slotMember, rfl⟩ := member
          exact Finset.mem_singleton.mpr (sameKey slot slotMember)
        refine (Finset.card_le_card single).trans ?_
        rw [Finset.card_singleton, oiL2MaxTrackedKeys]
        decide
      have separate : RunsFrom none [first :: rest] :=
        ⟨epoch, List.cons_ne_nil _ _, sameEpoch, by simp, trivial⟩
      have counted := counters_validate separate (by simpa using few)
      have ordered : orderViolations (first :: rest) = 0 := by
        refine regressions_eq_zero SeamSlot.key orderViolated (increasing.imp ?_)
        intro one two before
        exact decide_eq_false before.not_ge
      rw [List.flatten_singleton, List.map_singleton, List.sum_singleton, ordered] at counted
      exact congrArg Prod.fst counted

/-- For every frame of 1 to 65536 slots: the derived positions are different and in the order of
the slot ids, so a stream of records with increasing slot ids gives no order violation in one
epoch; a record that fits leaves its bytes and zeros in the slot and touches nothing else of it,
and a larger one changes nothing. -/
theorem producer_keeps_order_and_content {cfg : ProducerConfig}
    (some : 1 ≤ cfg.slotsPerFrame.toNat) (fits : cfg.slotsPerFrame.toNat ≤ 65536) :
    Function.Injective (producerPosition cfg) ∧
      (∀ one two : UInt32, one < two → producerPosition cfg one < producerPosition cfg two) ∧
      (∀ (stream : List ReservedRecord) (epoch : Nat),
        (stream.Pairwise fun one two => one.record.slotId < two.record.slotId) →
        (∀ reserved ∈ stream, reserved.out.epoch = epoch) →
        (validate (publishedSlots cfg stream)).nofOrderViolations = 0) ∧
      (∀ (out : SeamSlot) (record : P2RecordView) (tEnqueueNs : UInt64), record.InSize →
        ∃ slot, fillSlot out record cfg tEnqueueNs = (0, slot) ∧
          slot.position = producerPosition cfg record.slotId ∧
          (∀ i, slot.payload.tb i =
            if i.val < record.tbSizeBytes.toNat then record.tbData i.val else 0) ∧
          slot.seq = out.seq ∧ slot.epoch = out.epoch ∧ slot.status = out.status) ∧
      ∀ (out : SeamSlot) (record : P2RecordView) (tEnqueueNs : UInt64), ¬ record.InSize →
        fillSlot out record cfg tEnqueueNs = (-1, out) := by
  refine ⟨producerPosition_injective some fits, fun _ _ => producerPosition_lt some fits,
    fun stream epoch increasing sameEpoch => ?_, fun out record tEnqueueNs inSize => ?_,
    fun _ _ _ => fillSlot_of_oversize⟩
  · rw [publishedSlots_eq]
    refine no_violations_of_increasing epoch (cfg.rnti, cfg.harqId) ?_ ?_ ?_
    · simp only [List.mem_map, List.mem_filter]
      rintro slot ⟨reserved, ⟨member, _⟩, rfl⟩
      exact sameEpoch reserved member
    · simp only [List.mem_map, List.mem_filter]
      rintro slot ⟨reserved, _, rfl⟩
      rfl
    · refine List.pairwise_map.mpr ((increasing.filter _).imp ?_)
      intro one two before
      exact producerPosition_lt some fits before
  · exact ⟨_, fillSlot_of_inSize inSize, rfl, fun _ => rfl, rfl, rfl, rfl⟩

/-- The configuration of the rig: 20 slots in a frame. -/
def pinnedConfig : ProducerConfig where
  rnti := 17921
  harqId := 0
  slotsPerFrame := 20

/-- A record of two bytes in a slot of epoch 7. -/
def twoByteRecord (slotId : UInt32) : ReservedRecord where
  out := plainSlot 7 0 0 0
  record := { slotId := slotId, tbSizeBytes := 2, crc24aOk := 1, tbData := fun _ => 171 }
  tEnqueueNs := 5

theorem producer_keeps_order_and_content_next_frame :
    1 ≤ pinnedConfig.slotsPerFrame.toNat ∧ pinnedConfig.slotsPerFrame.toNat ≤ 65536 ∧
      (validate (publishedSlots pinnedConfig
        [twoByteRecord 18, twoByteRecord 19, twoByteRecord 20])).nofOrderViolations = 0 := by
  have some : 1 ≤ pinnedConfig.slotsPerFrame.toNat := by decide
  have fits : pinnedConfig.slotsPerFrame.toNat ≤ 65536 := by decide
  refine ⟨some, fits, (producer_keeps_order_and_content some fits).2.2.1 _ 7 ?_ ?_⟩
  · simp [twoByteRecord]
  · simp [twoByteRecord, plainSlot]

end RanInline.Seam
