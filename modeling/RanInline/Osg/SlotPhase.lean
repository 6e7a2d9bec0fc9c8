/-
Module: RanInline.Osg.SlotPhase
Purpose: The slot number in the frame on its three sides: the one osg_gen bakes into a file, the
  one the emulator injects the file at, and the one oi_p2_launch_slot takes from the slot id that
  oi_oran_preparse_frame counted.
Trusted boundary: none
Main exports: PackCall, osgGen, launchNslot, DmrsMatches, dmrs_matches_iff
-/
import RanInline.Oran.SlotDemux
import RanInline.Osg.Schedule

namespace RanInline.Osg

open RanInline.Lib RanInline.Oran

/-- The arguments of a call of `pack_tb`. -/
structure PackCall where
  mcsIndex : UInt32
  seed : UInt32
  rnti : UInt32
  nId : UInt32
  nslot : UInt32
deriving DecidableEq, Repr

/-- `kSlotsPerFrameMu1`. -/
def kSlotsPerFrameMu1 : UInt32 := 20

/-- The loop of osg_gen.cpp: the call that packs the grid of each file. -/
def osgGen (mcsIndex seedBase rnti : UInt32) : List PackCall :=
  (List.range kSlotsPerFrameMu1.toNat).map fun nslot =>
    { mcsIndex := mcsIndex
      seed := seedBase + UInt32.ofNat nslot
      rnti := rnti
      nId := 1
      nslot := UInt32.ofNat nslot }

/-- The `nslot` that `oi_p2_launch_slot` hands to `oi_dmrs_ref_seq_generate`. -/
def launchNslot (slotId : UInt32) : UInt32 := slotId % 20

variable {udcomphdrBytes : UInt8} {frames : List (WireFrame udcomphdrBytes)}

/-- Every observed slot is launched with the `nslot` that its injected grid was packed with.  The
wire slots of the frames are counted from the first one observed. -/
def DmrsMatches (files : List PackCall) (start : WireSlot kSlotsPerFrameMu1)
    (frames : List (WireFrame udcomphdrBytes)) : Prop :=
  ∃ descs, preparseRun udcomphdrBytes .zero (frames.map (·.bytes)) = some descs ∧
    descs.length = frames.length ∧
    ∀ (k : Nat) (frame : WireFrame udcomphdrBytes) (desc : OiFrameDesc),
      frames[k]? = some frame → descs[k]? = some desc →
      ∃ file, files[selectFileIdx (WireSlot.next^[frame.slot] start).sfn
          (WireSlot.next^[frame.slot] start).slot kSlotsPerFrameMu1 files.length]? = some file ∧
        launchNslot desc.slotId = file.nslot

/-- The file injected at a wire slot was packed for that slot of the frame. -/
theorem osgGen_injected (mcsIndex seedBase rnti : UInt32) (wire : WireSlot kSlotsPerFrameMu1) :
    ∃ file, (osgGen mcsIndex seedBase rnti)[selectFileIdx wire.sfn wire.slot kSlotsPerFrameMu1
        (osgGen mcsIndex seedBase rnti).length]? = some file ∧ file.nslot = wire.slot := by
  have length : (osgGen mcsIndex seedBase rnti).length = kSlotsPerFrameMu1.toNat := by
    rw [osgGen, List.length_map, List.length_range]
  rw [length, selectFileIdx_eq_slot, osgGen, List.getElem?_map,
    List.getElem?_range wire.slot_lt]
  exact ⟨_, rfl, UInt32.ofNat_toNat⟩

/-- The launch of wire slot `slot` behind the start takes the right number exactly when the start
and the wraps of the slot id leave the residue. -/
theorem launchNslot_iff (start : WireSlot kSlotsPerFrameMu1) (slot : Nat) :
    launchNslot (UInt32.ofNat slot) = (WireSlot.next^[slot] start).slot ↔
      slot % 2 ^ 32 ≡ start.slot.toNat + slot [MOD 20] := by
  rw [← UInt32.toNat_inj, launchNslot, UInt32.toNat_mod, UInt32.toNat_ofNat', wireSlot_iterate]
  rfl

/-- When the parser counts wire slots, the launches match exactly when every one of them does. -/
theorem dmrsMatches_iff_slots (mcsIndex seedBase rnti : UInt32)
    (start : WireSlot kSlotsPerFrameMu1) (survives : Survives frames)
    (visible : WrapsVisible frames) :
    DmrsMatches (osgGen mcsIndex seedBase rnti) start frames ↔
      ∀ frame ∈ frames, frame.slot % 2 ^ 32 ≡ start.slot.toNat + frame.slot [MOD 20] := by
  obtain ⟨descs, run, length, counted⟩ := preparseRun_counted frames
  have slotId : ∀ (k : Nat) (frame : WireFrame udcomphdrBytes) (desc : OiFrameDesc),
      frames[k]? = some frame → descs[k]? = some desc →
      desc.slotId = UInt32.ofNat frame.slot := by
    intro k frame desc here found
    have slot := slotIds_eq_slot survives visible here
    rw [counted k desc found] at slot
    exact Option.some.inj slot
  constructor
  · rintro ⟨others, otherRun, _, matched⟩ frame member
    obtain rfl : descs = others := Option.some.inj (run.symm.trans otherRun)
    obtain ⟨k, here⟩ := List.mem_iff_getElem?.mp member
    have inside : k < descs.length := length ▸ (List.getElem?_eq_some_iff.mp here).1
    have found : descs[k]? = some descs[k] := List.getElem?_eq_getElem inside
    obtain ⟨file, injected, nslot⟩ := matched k frame _ here found
    obtain ⟨packed, packedFor, packedSlot⟩ :=
      osgGen_injected mcsIndex seedBase rnti (WireSlot.next^[frame.slot] start)
    obtain rfl : packed = file := Option.some.inj (packedFor.symm.trans injected)
    rw [slotId k frame _ here found, packedSlot] at nslot
    exact (launchNslot_iff start frame.slot).mp nslot
  · intro residues
    refine ⟨descs, run, length, fun k frame desc here found => ?_⟩
    obtain ⟨file, injected, nslot⟩ :=
      osgGen_injected mcsIndex seedBase rnti (WireSlot.next^[frame.slot] start)
    refine ⟨file, injected, ?_⟩
    rw [slotId k frame desc here found, nslot]
    exact (launchNslot_iff start frame.slot).mpr (residues frame (List.mem_of_getElem? here))

/-- A stream whose slots are all seen, with their symbols in order, is launched with the right
reference sequences exactly when it starts at slot 0 of a frame and ends before the slot id
wraps. -/
theorem dmrs_matches_iff (mcsIndex seedBase rnti : UInt32) (start : WireSlot kSlotsPerFrameMu1)
    (survives : Survives frames) (visible : WrapsVisible frames) :
    DmrsMatches (osgGen mcsIndex seedBase rnti) start frames ↔
      frames = [] ∨ (start.slot = 0 ∧ ∀ frame ∈ frames, frame.slot < 2 ^ 32) := by
  rw [dmrsMatches_iff_slots mcsIndex seedBase rnti start survives visible]
  constructor
  · intro residues
    rw [or_iff_not_imp_left]
    intro nonempty
    obtain ⟨first, rest, rfl⟩ := List.exists_cons_of_ne_nil nonempty
    have small : start.slot.toNat < 20 := start.slot_lt
    -- the first observed slot has the id 0
    have atStart := residues first List.mem_cons_self
    rw [survives.start first rfl] at atStart
    have startZero : start.slot.toNat = 0 := by
      have residue : 0 % 20 = start.slot.toNat % 20 := atStart
      omega
    refine ⟨UInt32.toNat_inj.mp startZero, fun frame member => ?_⟩
    by_contra large
    obtain ⟨k, here⟩ := List.mem_iff_getElem?.mp member
    obtain ⟨wrapped, wrappedMember, wrappedSlot⟩ :=
      survives.exists_slot here (Nat.le_of_not_lt large)
    have atWrap := residues wrapped wrappedMember
    rw [wrappedSlot, startZero] at atWrap
    exact absurd atWrap (by decide)
  · rintro (rfl | ⟨startZero, short⟩) frame member
    · cases member
    · rw [startZero, Nat.mod_eq_of_lt (short frame member)]
      exact congrArg (· % 20) (Nat.zero_add frame.slot).symm

/-- An untagged full-band frame of symbol 0 or 13. -/
def edgeSymbolFrame (last : Bool) : List UInt8 :=
  List.replicate 12 0 ++ [0xAE, 0xFE, 0x10, 0x00, 0, 0, 0, 0, 0, 0, 0x10, 0, 0,
    if last then 13 else 0, 0, 0, 0, 0]

/-- The first or last symbol of a slot, on the wire. -/
def edgeOfSlot (slot : Nat) (last : Bool) : WireFrame 0 where
  slot := slot
  symbol := if last then 13 else 0
  bytes := edgeSymbolFrame last
  accepted := by
    refine ⟨14, ⟨.inl ⟨rfl, rfl, rfl⟩, Nat.le_refl 30, ?_, ?_, ?_, ?_, ?_⟩, ?_⟩
    all_goals cases last <;> decide

/-- A tap that starts at slot 0 of a frame. -/
def frameStart : WireSlot kSlotsPerFrameMu1 where
  sfn := 5
  slot := 0
  sfn_lt := by decide
  slot_lt := by decide

/-- A tap that starts at slot 7. -/
def midFrameStart : WireSlot kSlotsPerFrameMu1 where
  sfn := 6
  slot := 7
  sfn_lt := by decide
  slot_lt := by decide

theorem dmrs_matches_from_frame_start :
    DmrsMatches (osgGen 4 100 17921) frameStart
      [edgeOfSlot 0 false, edgeOfSlot 0 true, edgeOfSlot 1 false] := by
  refine (dmrs_matches_iff 4 100 17921 frameStart ⟨?_, ?_⟩ ?_).mpr (.inr ⟨rfl, ?_⟩)
  · rintro frame ⟨⟩
    rfl
  · rintro (_ | _ | _ | k) frame after ⟨⟩ ⟨⟩
    · exact .inl rfl
    · exact .inr rfl
  · rintro (_ | _ | _ | k) frame after ⟨⟩ ⟨⟩
    · exact ⟨by decide, by decide⟩
    · exact ⟨by decide, by decide⟩
  · simp [edgeOfSlot]

/-- Slot 7 of the frame is launched with the reference sequence of slot 0. -/
theorem dmrs_differs_from_mid_frame :
    ¬ DmrsMatches (osgGen 4 100 17921) midFrameStart [edgeOfSlot 0 false] := by
  rintro ⟨descs, run, _, matched⟩
  obtain rfl : descs = _ := Option.some.inj (run.symm.trans (by rfl))
  obtain ⟨file, injected, nslot⟩ := matched 0 _ _ rfl rfl
  obtain rfl : file = _ := Option.some.inj (injected.symm.trans (by rfl))
  exact absurd nslot (by decide)

end RanInline.Osg
