/-
Module: RanInline.Osg.Schedule
Purpose: The schedule of the oracle files: the emulator's file index of a wire slot, the harness's
  file index of a host slot id in oi_harness_calibrate.h, and the phase between them along a run in
  which both advance together.
Trusted boundary: none
Main exports: osgScheduleFileIdx, selectFileIdx, fileIdxFor, calibratePhaseOffset, WireSlot,
  Lockstep, IndexFollows, index_follows_schedule_iff
-/
import Mathlib.Data.List.Nodup
import RanInline.Lib.Wrap
import RanInline.Osg.OracleGrid

namespace RanInline.Osg

open RanInline.Lib

/-- `osg_schedule_file_idx`. -/
def osgScheduleFileIdx (sfn slot slotsPerFrame nFiles : UInt64) : UInt64 :=
  if nFiles = 0 then 0 else (sfn * slotsPerFrame + slot) % nFiles

/-- The file index inside `select_symbol_payload`. -/
def selectFileIdx (sfn slot slotsPerFrame : UInt32) (n : Nat) : Nat :=
  (sfn.toNat * slotsPerFrame.toNat + slot.toNat) % n

/-- `select_symbol_payload` cuts the symbol out of the file with that index. -/
theorem selectSymbolPayload_eq {grids : OracleGridSet} (nonempty : grids.entries ≠ [])
    (sfn slot slotsPerFrame : UInt32) (eaxcId : UInt8) (symbolIndex : UInt32) :
    selectSymbolPayload grids sfn slot slotsPerFrame eaxcId symbolIndex =
      (grids.entries[selectFileIdx sfn slot slotsPerFrame grids.entries.length]?).bind fun entry =>
        if symbolIndex.toNat * (entry.nofPrb.toNat * 12 * 4) + entry.nofPrb.toNat * 12 * 4 ≤
            entry.gridPayload.length then
          some ((entry.gridPayload.drop (symbolIndex.toNat * (entry.nofPrb.toNat * 12 * 4))).take
            (entry.nofPrb.toNat * 12 * 4))
        else none := by
  have some : grids.entries.length ≠ 0 := fun empty => nonempty (List.length_eq_zero_iff.mp empty)
  simp only [selectSymbolPayload, if_neg some]
  rfl

/-- The harness header and the emulator compute the same index. -/
theorem osgScheduleFileIdx_eq (sfn slot slotsPerFrame nFiles : UInt32) (some : nFiles ≠ 0) :
    (osgScheduleFileIdx sfn.toUInt64 slot.toUInt64 slotsPerFrame.toUInt64 nFiles.toUInt64).toNat =
      selectFileIdx sfn slot slotsPerFrame nFiles.toNat := by
  have product : sfn.toNat * slotsPerFrame.toNat ≤ (2 ^ 32 - 1) * (2 ^ 32 - 1) :=
    Nat.mul_le_mul (Nat.le_pred_of_lt sfn.toNat_lt) (Nat.le_pred_of_lt slotsPerFrame.toNat_lt)
  have small := slot.toNat_lt
  have nonzero : nFiles.toUInt64 ≠ 0 := by
    rw [ne_eq, ← UInt64.toNat_inj, UInt32.toNat_toUInt64, UInt64.toNat_zero]
    rw [ne_eq, ← UInt32.toNat_inj, UInt32.toNat_zero] at some
    exact some
  have noOverflow : (sfn.toUInt64 * slotsPerFrame.toUInt64 + slot.toUInt64).toNat =
      sfn.toNat * slotsPerFrame.toNat + slot.toNat := by
    have fits : sfn.toNat * slotsPerFrame.toNat < 2 ^ 64 := by omega
    rw [UInt64.toNat_add, UInt64.toNat_mul, UInt32.toNat_toUInt64, UInt32.toNat_toUInt64,
      UInt32.toNat_toUInt64, Nat.mod_eq_of_lt fits]
    exact Nat.mod_eq_of_lt (by omega)
  rw [osgScheduleFileIdx, if_neg nonzero, selectFileIdx, UInt64.toNat_mod, noOverflow,
    UInt32.toNat_toUInt64]

/-- `file_idx_for`. -/
def fileIdxFor (slotId : UInt64) (phaseOffset slotsPerFrame : UInt32) : UInt32 :=
  ((slotId + phaseOffset.toUInt64) % slotsPerFrame.toUInt64).toUInt32

/-- `calibrate_phase_offset`: the first offset whose file matches. -/
def calibratePhaseOffset (firstSlotId : UInt64) (slotsPerFrame : UInt32)
    (tbMatchesFile : UInt32 → Bool) : Option UInt32 :=
  ((List.range slotsPerFrame.toNat).map UInt32.ofNat).find? fun offset =>
    tbMatchesFile (fileIdxFor firstSlotId offset slotsPerFrame)

theorem toNat_fileIdxFor {slotsPerFrame : UInt32} (some : 0 < slotsPerFrame.toNat)
    (slotId phaseOffset : UInt32) :
    (fileIdxFor slotId.toUInt64 phaseOffset slotsPerFrame).toNat =
      (slotId.toNat + phaseOffset.toNat) % slotsPerFrame.toNat := by
  have slotSmall := slotId.toNat_lt
  have offsetSmall := phaseOffset.toNat_lt
  have sum : (slotId.toUInt64 + phaseOffset.toUInt64).toNat =
      slotId.toNat + phaseOffset.toNat := by
    rw [UInt64.toNat_add, UInt32.toNat_toUInt64, UInt32.toNat_toUInt64]
    exact Nat.mod_eq_of_lt (by omega)
  rw [fileIdxFor, UInt64.toNat_toUInt32, UInt64.toNat_mod, sum, UInt32.toNat_toUInt64]
  exact Nat.mod_eq_of_lt ((Nat.mod_lt _ some).trans slotsPerFrame.toNat_lt)

/-! ### The two counters -/

/-- A slot on the wire: the 10-bit frame number and the slot in the frame. -/
structure WireSlot (slotsPerFrame : UInt32) where
  sfn : UInt32
  slot : UInt32
  sfn_lt : sfn.toNat < 1024
  slot_lt : slot.toNat < slotsPerFrame.toNat

/-- The slot behind it; the frame number wraps at 1024. -/
def WireSlot.next {slotsPerFrame : UInt32} (wire : WireSlot slotsPerFrame) :
    WireSlot slotsPerFrame :=
  if inside : wire.slot.toNat + 1 < slotsPerFrame.toNat then
    { wire with
      slot := UInt32.ofNat (wire.slot.toNat + 1)
      slot_lt := by
        rw [UInt32.toNat_ofNat_of_lt' (inside.trans slotsPerFrame.toNat_lt)]
        exact inside }
  else
    { sfn := UInt32.ofNat ((wire.sfn.toNat + 1) % 1024)
      slot := 0
      sfn_lt := by
        have small := Nat.mod_lt (wire.sfn.toNat + 1) (by decide : 1024 > 0)
        rw [UInt32.toNat_ofNat_of_lt' (small.trans (by decide))]
        exact small
      slot_lt := Nat.zero_lt_of_lt wire.slot_lt }

/-- The wire and the host's `running_slot_id`, which advance together. -/
structure Lockstep (slotsPerFrame : UInt32) where
  wire : WireSlot slotsPerFrame
  runningSlotId : UInt32

/-- One slot passes. -/
def Lockstep.next {slotsPerFrame : UInt32} (now : Lockstep slotsPerFrame) :
    Lockstep slotsPerFrame where
  wire := now.wire.next
  runningSlotId := now.runningSlotId + 1

section Counters

variable {slotsPerFrame : UInt32}

theorem WireSlot.slots_pos (wire : WireSlot slotsPerFrame) : 0 < slotsPerFrame.toNat :=
  Nat.zero_lt_of_lt wire.slot_lt

theorem WireSlot.toNat_slot_next (wire : WireSlot slotsPerFrame) :
    wire.next.slot.toNat = (wire.slot.toNat + 1) % slotsPerFrame.toNat := by
  rw [WireSlot.next]
  split
  · rename_i inside
    rw [Nat.mod_eq_of_lt inside]
    exact UInt32.toNat_ofNat_of_lt' (inside.trans slotsPerFrame.toNat_lt)
  · rename_i last
    have full : wire.slot.toNat + 1 = slotsPerFrame.toNat := by
      have := wire.slot_lt
      omega
    rw [full, Nat.mod_self]
    rfl

/-- With one file for each slot of a frame the schedule is the slot in the frame. -/
theorem selectFileIdx_eq_slot (wire : WireSlot slotsPerFrame) :
    selectFileIdx wire.sfn wire.slot slotsPerFrame slotsPerFrame.toNat = wire.slot.toNat := by
  rw [selectFileIdx, Nat.mul_add_mod_self_right, Nat.mod_eq_of_lt wire.slot_lt]

/-- The slot in the frame after a run of slots. -/
theorem wireSlot_iterate (start : WireSlot slotsPerFrame) (k : Nat) :
    (WireSlot.next^[k] start).slot.toNat = (start.slot.toNat + k) % slotsPerFrame.toNat := by
  induction k with
  | zero => exact (Nat.mod_eq_of_lt start.slot_lt).symm
  | succ k inductionHypothesis =>
      rw [Function.iterate_succ_apply', WireSlot.toNat_slot_next, inductionHypothesis,
        Nat.mod_add_mod, Nat.add_assoc]

/-- Both counters after a run of slots. -/
theorem lockstep_iterate (start : Lockstep slotsPerFrame) (k : Nat) :
    (Lockstep.next^[k] start).wire = WireSlot.next^[k] start.wire ∧
      (Lockstep.next^[k] start).runningSlotId.toNat =
        (start.runningSlotId.toNat + k) % 2 ^ 32 := by
  induction k with
  | zero => exact ⟨rfl, (Nat.mod_eq_of_lt start.runningSlotId.toNat_lt).symm⟩
  | succ k inductionHypothesis =>
      obtain ⟨wire, slotId⟩ := inductionHypothesis
      rw [Function.iterate_succ_apply', Function.iterate_succ_apply']
      constructor
      · rw [Lockstep.next, wire]
      · rw [Lockstep.next, UInt32.toNat_add, slotId, UInt32.toNat_one, Nat.mod_add_mod,
          Nat.add_assoc]

end Counters

/-! ### Calibration -/

/-- `tb_matches` of bit_exact_harness.cpp, on the transport blocks of the oracle files. -/
def tbMatches (oracle : List (List UInt8)) (decoded : List UInt8) (candidateFileIdx : UInt32) :
    Bool :=
  oracle[candidateFileIdx.toNat]? = some decoded

/-- The transport block that the emulator sends at a wire slot. -/
def scheduledTb {slotsPerFrame : UInt32} (oracle : List (List UInt8))
    (wire : WireSlot slotsPerFrame) : Option (List UInt8) :=
  oracle[selectFileIdx wire.sfn wire.slot slotsPerFrame oracle.length]?

/-- Along a run of slots the harness's file index is the emulator's. -/
def IndexFollows {slotsPerFrame : UInt32} (start : Lockstep slotsPerFrame) (phaseOffset : UInt32)
    (runLength : Nat) : Prop :=
  ∀ k ≤ runLength,
    (fileIdxFor (Lockstep.next^[k] start).runningSlotId.toUInt64 phaseOffset slotsPerFrame).toNat =
      selectFileIdx (Lockstep.next^[k] start).wire.sfn (Lockstep.next^[k] start).wire.slot
        slotsPerFrame slotsPerFrame.toNat

section Calibration

variable {slotsPerFrame phaseOffset : UInt32}

/-- The search ends with an offset whose file matches. -/
theorem calibratePhaseOffset_spec {firstSlotId : UInt64} {tbMatchesFile : UInt32 → Bool}
    (found : calibratePhaseOffset firstSlotId slotsPerFrame tbMatchesFile = some phaseOffset) :
    tbMatchesFile (fileIdxFor firstSlotId phaseOffset slotsPerFrame) = true := by
  rw [calibratePhaseOffset] at found
  have matched := List.find?_some found
  exact matched

/-- If the file of some slot matches, the search succeeds. -/
theorem calibratePhaseOffset_isSome (firstSlotId : UInt32) {file : UInt32}
    {tbMatchesFile : UInt32 → Bool}
    (inside : file.toNat < slotsPerFrame.toNat) (fits : tbMatchesFile file = true) :
    ∃ phaseOffset,
      calibratePhaseOffset firstSlotId.toUInt64 slotsPerFrame tbMatchesFile = some phaseOffset := by
  have some := Nat.zero_lt_of_lt inside
  -- the offset that turns the residue of the slot id into the index of the file
  obtain ⟨offset, small, reached⟩ : ∃ offset < slotsPerFrame.toNat,
      (firstSlotId.toNat + offset) % slotsPerFrame.toNat = file.toNat := by
    refine ⟨(file.toNat + (slotsPerFrame.toNat - firstSlotId.toNat % slotsPerFrame.toNat)) %
      slotsPerFrame.toNat, Nat.mod_lt _ some, ?_⟩
    have residue := Nat.mod_lt firstSlotId.toNat some
    rw [Nat.add_mod_mod, ← Nat.mod_add_mod, ← Nat.add_assoc, Nat.add_comm _ file.toNat,
      Nat.add_assoc, Nat.add_sub_cancel' residue.le, Nat.add_mod_right, Nat.mod_eq_of_lt inside]
  have offsetNat := UInt32.toNat_ofNat_of_lt' (small.trans slotsPerFrame.toNat_lt)
  have index : fileIdxFor firstSlotId.toUInt64 (UInt32.ofNat offset) slotsPerFrame = file := by
    rw [← UInt32.toNat_inj, toNat_fileIdxFor some, offsetNat, reached]
  rw [← Option.isSome_iff_exists, calibratePhaseOffset, List.find?_isSome]
  refine ⟨UInt32.ofNat offset, List.mem_map_of_mem (List.mem_range.mpr small), ?_⟩
  rw [index, fits]

/-- The index follows the schedule at a slot exactly when what the wraps of the slot id took off
is a multiple of the number of slots. -/
theorem index_follows_at_iff {start : Lockstep slotsPerFrame}
    (phase : (start.runningSlotId.toNat + phaseOffset.toNat) % slotsPerFrame.toNat =
      start.wire.slot.toNat) (k : Nat) :
    (fileIdxFor (Lockstep.next^[k] start).runningSlotId.toUInt64 phaseOffset slotsPerFrame).toNat =
        selectFileIdx (Lockstep.next^[k] start).wire.sfn (Lockstep.next^[k] start).wire.slot
          slotsPerFrame slotsPerFrame.toNat ↔
      slotsPerFrame.toNat ∣ 2 ^ 32 * ((start.runningSlotId.toNat + k) / 2 ^ 32) := by
  obtain ⟨wire, slotId⟩ := lockstep_iterate start k
  rw [toNat_fileIdxFor start.wire.slots_pos, selectFileIdx_eq_slot, wire, wireSlot_iterate, slotId,
    ← phase,
    Nat.mod_add_mod, Nat.add_right_comm, ← mod_modEq_self_iff]
  exact ⟨Nat.ModEq.add_right_cancel' phaseOffset.toNat, fun same => same.add_right _⟩

/-- With the right phase the index follows the schedule for a whole run exactly when the slot id
does not wrap in it or wraps to the same residue. -/
theorem indexFollows_iff {start : Lockstep slotsPerFrame}
    (phase : (start.runningSlotId.toNat + phaseOffset.toNat) % slotsPerFrame.toNat =
      start.wire.slot.toNat) (runLength : Nat) :
    IndexFollows start phaseOffset runLength ↔
      start.runningSlotId.toNat + runLength < 2 ^ 32 ∨ slotsPerFrame.toNat ∣ 2 ^ 32 := by
  rw [IndexFollows, forall₂_congr fun k _ => index_follows_at_iff phase k]
  have first := start.runningSlotId.toNat_lt
  constructor
  · intro follows
    rw [or_iff_not_imp_left]
    intro wraps
    -- the first slot behind the wrap
    have atWrap := follows (2 ^ 32 - start.runningSlotId.toNat) (by omega)
    rwa [Nat.add_sub_cancel' first.le, Nat.div_self (by decide), Nat.mul_one] at atWrap
  · rintro (short | divides) k within
    · rw [Nat.div_eq_of_lt (by omega), Nat.mul_zero]
      exact Nat.dvd_zero _
    · exact divides.mul_right _

end Calibration

/-- Calibrated on the block that the emulator scheduled there, the harness finds an offset, and
its file index follows the emulator's for the whole run exactly when the 32-bit slot id does not
wrap in the run or the number of slots in a frame divides `2 ^ 32`. -/
theorem index_follows_schedule_iff {slotsPerFrame : UInt32} {oracle : List (List UInt8)}
    (length : oracle.length = slotsPerFrame.toNat) (distinct : oracle.Nodup)
    (start : Lockstep slotsPerFrame) {decoded : List UInt8}
    (scheduled : scheduledTb oracle start.wire = some decoded) (runLength : Nat) :
    (∃ phaseOffset, calibratePhaseOffset start.runningSlotId.toUInt64 slotsPerFrame
        (tbMatches oracle decoded) = some phaseOffset) ∧
      ((∀ phaseOffset, calibratePhaseOffset start.runningSlotId.toUInt64 slotsPerFrame
          (tbMatches oracle decoded) = some phaseOffset →
          IndexFollows start phaseOffset runLength) ↔
        start.runningSlotId.toNat + runLength < 2 ^ 32 ∨ slotsPerFrame.toNat ∣ 2 ^ 32) := by
  rw [scheduledTb, length, selectFileIdx_eq_slot] at scheduled
  have scheduledMatches : tbMatches oracle decoded start.wire.slot = true :=
    decide_eq_true scheduled
  obtain ⟨phaseOffset, found⟩ :=
    calibratePhaseOffset_isSome start.runningSlotId start.wire.slot_lt scheduledMatches
  -- different blocks make the offset the phase between the counters
  have phase : ∀ offset, calibratePhaseOffset start.runningSlotId.toUInt64 slotsPerFrame
      (tbMatches oracle decoded) = some offset →
      (start.runningSlotId.toNat + offset.toNat) % slotsPerFrame.toNat =
        start.wire.slot.toNat := by
    intro offset found
    have matched : oracle[(fileIdxFor start.runningSlotId.toUInt64 offset slotsPerFrame).toNat]? =
        some decoded := by simpa [tbMatches] using calibratePhaseOffset_spec found
    rw [toNat_fileIdxFor start.wire.slots_pos] at matched
    obtain ⟨inside, value⟩ := List.getElem?_eq_some_iff.mp matched
    obtain ⟨insideSlot, valueSlot⟩ := List.getElem?_eq_some_iff.mp scheduled
    exact distinct.getElem_inj_iff.mp (value.trans valueSlot.symm)
  refine ⟨⟨phaseOffset, found⟩, ?_⟩
  constructor
  · intro follows
    exact (indexFollows_iff (phase phaseOffset found) runLength).mp (follows phaseOffset found)
  · intro condition offset found
    exact (indexFollows_iff (phase offset found) runLength).mpr condition

/-- Twenty different transport blocks of one byte. -/
def twentyBlocks : List (List UInt8) := (List.range 20).map fun i => [UInt8.ofNat i]

/-- The harness starts with slot id 0 at slot 3 of frame 1023. -/
def lateStart : Lockstep 20 where
  wire := { sfn := 1023, slot := 3, sfn_lt := by decide, slot_lt := by decide }
  runningSlotId := 0

/-- One frame of the rig, over the wrap of the frame number. -/
theorem index_follows_schedule_one_frame :
    twentyBlocks.length = 20 ∧ twentyBlocks.Nodup ∧
      scheduledTb twentyBlocks lateStart.wire = some [3] ∧
      ∀ phaseOffset, calibratePhaseOffset 0 20 (tbMatches twentyBlocks [3]) = some phaseOffset →
        IndexFollows lateStart phaseOffset 20 := by
  have length : twentyBlocks.length = (20 : UInt32).toNat := by decide
  have distinct : twentyBlocks.Nodup := by decide
  have scheduled : scheduledTb twentyBlocks lateStart.wire = some [3] := by decide
  refine ⟨length, distinct, scheduled, ?_⟩
  exact (index_follows_schedule_iff length distinct lateStart scheduled 20).2.mpr (.inl (by decide))

/-- When the slot id passes `2 ^ 32` the schedule of 20 slots has moved on by 16. -/
theorem index_leaves_schedule_at_wrap :
    twentyBlocks.Nodup ∧ scheduledTb twentyBlocks lateStart.wire = some [3] ∧
      calibratePhaseOffset 0 20 (tbMatches twentyBlocks [3]) = some 3 ∧
      ¬ IndexFollows lateStart 3 (2 ^ 32) := by
  refine ⟨by decide, by decide, by decide, fun follows => ?_⟩
  have phase : (lateStart.runningSlotId.toNat + (3 : UInt32).toNat) % (20 : UInt32).toNat =
      lateStart.wire.slot.toNat := by decide
  rcases (indexFollows_iff phase _).mp follows with short | divides
  · exact absurd short (by decide)
  · exact absurd divides (by decide)

end RanInline.Osg
