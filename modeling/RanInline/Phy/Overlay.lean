/-
Module: RanInline.Phy.Overlay
Purpose: What a launch of k1_depacketize leaves behind when the sections of its slot do not
  overlap: the buffers it started with, overlaid with the sections, whatever the schedule.
Trusted boundary: none
Main exports: k1Sections, RegionsDisjoint, k1Overlay, k1_schedule_independent
-/
import RanInline.Phy.Depacketize

namespace RanInline.Phy

open RanInline.Lib RanInline.Oran

/-- The descriptors of a slot among the first `nofDescs` ring entries. -/
def slotDescs (descs : Nat → OiFrameDesc) (nofDescs : Nat) (slotId : UInt32) :
    List OiFrameDesc :=
  ((List.range nofDescs).map descs).filter fun desc => desc.slotId = slotId

/-- Those that the kernel does not drop. -/
def k1Sections (descs : Nat → OiFrameDesc) (nofDescs : Nat) (slotId : UInt32) :
    List OiFrameDesc :=
  (slotDescs descs nofDescs slotId).filter fun desc => K1Accepts desc slotId

/-- Two sections of different symbols, or of PRBs that do not overlap. -/
def RegionsDisjoint (one two : OiFrameDesc) : Prop :=
  one.symbolId = two.symbolId →
    one.startPrb.toNat + one.nofPrbs.toNat ≤ two.startPrb.toNat ∨
      two.startPrb.toNat + two.nofPrbs.toNat ≤ one.startPrb.toNat

instance (desc : OiFrameDesc) (subcarrier : Nat) : Decidable (K1Covers desc subcarrier) :=
  inferInstanceAs (Decidable (_ ∧ _ ∧ _))

/-- The section that a grid entry belongs to. -/
def sectionAt (sections : List OiFrameDesc) (symbol subcarrier : Nat) : Option OiFrameDesc :=
  sections.find? fun desc => desc.symbolId.toNat = symbol ∧ K1Covers desc subcarrier

/-- The buffers with every section at its own region, and the bits of their symbols added. -/
def k1Overlay {F : Type} (q15 : Int → F) (arena : Nat → UInt8) (sections : List OiFrameDesc)
    (buffers : I2Buffers F) : I2Buffers F where
  reGrid symbol subcarrier :=
    match sectionAt sections symbol subcarrier with
    | some desc => k1Carried q15 arena desc subcarrier
    | none => buffers.reGrid symbol subcarrier
  symbolBitmap := sections.foldl (fun bitmap desc => bitmap ||| 1 <<< desc.symbolId.toNat)
    buffers.symbolBitmap

attribute [ext] I2Buffers

section Schedule

variable {F : Type} {q15 : Int → F} {arena : Nat → UInt8} {descs : Nat → OiFrameDesc}
  {nofDescs : Nat} {slotId : UInt32} {order : List (K1Write F)}

theorem mem_k1Sections {desc : OiFrameDesc} :
    desc ∈ k1Sections descs nofDescs slotId ↔
      ∃ gid < nofDescs, descs gid = desc ∧ K1Accepts desc slotId := by
  simp only [k1Sections, slotDescs, List.mem_filter, List.mem_map, List.mem_range,
    decide_eq_true_eq]
  constructor
  · rintro ⟨⟨⟨gid, less, rfl⟩, _⟩, accepts⟩
    exact ⟨gid, less, rfl, accepts⟩
  · rintro ⟨gid, less, rfl, accepts⟩
    exact ⟨⟨⟨gid, less, rfl⟩, accepts.1⟩, accepts⟩

/-- Sections that do not overlap cover an entry at most once. -/
theorem RegionsDisjoint.not_covers {one two : OiFrameDesc} (disjoint : RegionsDisjoint one two)
    (symbol : one.symbolId.toNat = two.symbolId.toNat) {subcarrier : Nat}
    (covers : K1Covers one subcarrier) : ¬ K1Covers two subcarrier := by
  intro coversToo
  obtain ⟨low, high, _⟩ := covers
  obtain ⟨lowToo, highToo, _⟩ := coversToo
  rw [wireResPerPrb] at low high lowToo highToo
  rcases disjoint (UInt8.toNat_inj.mp symbol) with before | behind <;> omega

/-- In sections that do not overlap, a section that covers an entry is the one found for it. -/
theorem sectionAt_eq_some {sections : List OiFrameDesc}
    (disjoint : sections.Pairwise RegionsDisjoint) {desc : OiFrameDesc} (member : desc ∈ sections)
    {subcarrier : Nat} (covers : K1Covers desc subcarrier) :
    sectionAt sections desc.symbolId.toNat subcarrier = some desc := by
  induction sections with
  | nil => exact absurd member List.not_mem_nil
  | cons first rest inductionHypothesis =>
      obtain ⟨apart, disjointRest⟩ := List.pairwise_cons.mp disjoint
      rw [sectionAt, List.find?_cons]
      rcases List.mem_cons.mp member with rfl | later
      · rw [decide_eq_true ⟨rfl, covers⟩]
      · have missed : ¬ (first.symbolId.toNat = desc.symbolId.toNat ∧ K1Covers first subcarrier) :=
          fun ⟨symbol, coversFirst⟩ => (apart desc later).not_covers symbol coversFirst covers
        rw [decide_eq_false missed]
        exact inductionHypothesis disjointRest later

theorem sectionAt_eq_none {sections : List OiFrameDesc} {symbol subcarrier : Nat}
    (missed : ∀ desc ∈ sections, desc.symbolId.toNat = symbol → ¬ K1Covers desc subcarrier) :
    sectionAt sections symbol subcarrier = none := by
  rw [sectionAt, List.find?_eq_none]
  intro desc member covers
  obtain ⟨named, covers⟩ := of_decide_eq_true covers
  exact missed desc member named covers

theorem testBit_foldl_or (sections : List OiFrameDesc) (bitmap k : Nat) :
    (sections.foldl (fun bitmap desc => bitmap ||| 1 <<< desc.symbolId.toNat) bitmap).testBit k ↔
      bitmap.testBit k ∨ ∃ desc ∈ sections, desc.symbolId.toNat = k := by
  induction sections generalizing bitmap with
  | nil => simp
  | cons desc sections inductionHypothesis =>
      have single : (1 <<< desc.symbolId.toNat).testBit k ↔ desc.symbolId.toNat = k := by
        rw [Nat.one_shiftLeft, Nat.testBit_two_pow]
        simp
      rw [List.foldl_cons, inductionHypothesis, Nat.testBit_or, Bool.or_eq_true, single, or_assoc]
      simp

/-- Every schedule of a launch overlays the buffers with the sections of the slot. -/
theorem k1Run_eq_k1Overlay (buffers : I2Buffers F)
    (disjoint : (k1Sections descs nofDescs slotId).Pairwise RegionsDisjoint)
    (schedule : Interleaves (k1Threads q15 arena descs nofDescs slotId) order) :
    k1Run buffers order = k1Overlay q15 arena (k1Sections descs nofDescs slotId) buffers := by
  have grid : (k1Run buffers order).reGrid =
      (k1Overlay q15 arena (k1Sections descs nofDescs slotId) buffers).reGrid := by
    funext symbol subcarrier
    rcases k1Run_grid buffers schedule symbol subcarrier with
      ⟨gid, less, accepts, rfl, covers, value⟩ | ⟨missed, kept⟩
    · have found := sectionAt_eq_some disjoint (mem_k1Sections.mpr ⟨gid, less, rfl, accepts⟩) covers
      simp only [value, k1Overlay, found]
    · have none : sectionAt (k1Sections descs nofDescs slotId) symbol subcarrier = none := by
        apply sectionAt_eq_none
        intro desc member named
        obtain ⟨gid, less, rfl, accepts⟩ := mem_k1Sections.mp member
        exact missed gid less accepts named
      simp only [kept, k1Overlay, none]
  have bitmap : (k1Run buffers order).symbolBitmap =
      (k1Overlay q15 arena (k1Sections descs nofDescs slotId) buffers).symbolBitmap := by
    apply Nat.eq_of_testBit_eq
    intro k
    rw [Bool.eq_iff_iff, k1Run_bit buffers schedule k, k1Overlay, testBit_foldl_or]
    constructor
    · rintro (before | ⟨gid, less, accepts, named⟩)
      · exact .inl before
      · exact .inr ⟨descs gid, mem_k1Sections.mpr ⟨gid, less, rfl, accepts⟩, named⟩
    · rintro (before | ⟨desc, member, named⟩)
      · exact .inl before
      · obtain ⟨gid, less, rfl, accepts⟩ := mem_k1Sections.mp member
        exact .inr ⟨gid, less, accepts, named⟩
  exact I2Buffers.ext grid bitmap

/-- When the sections of a slot do not overlap, a launch of `k1_depacketize` has one result,
whatever the schedule of the stores and atomic ORs: every section is at its region, the other
entries are as they were, exactly the bits of the symbols that have a section are added, and the
descriptors of other slots do not matter. -/
theorem k1_schedule_independent (buffers : I2Buffers F)
    (disjoint : (k1Sections descs nofDescs slotId).Pairwise RegionsDisjoint)
    (schedule : Interleaves (k1Threads q15 arena descs nofDescs slotId) order) :
    let after := k1Run buffers order
    after = k1Overlay q15 arena (k1Sections descs nofDescs slotId) buffers ∧
      (∀ desc ∈ k1Sections descs nofDescs slotId, ∀ subcarrier, K1Covers desc subcarrier →
        after.reGrid desc.symbolId.toNat subcarrier = k1Carried q15 arena desc subcarrier) ∧
      (∀ symbol subcarrier, (∀ desc ∈ k1Sections descs nofDescs slotId,
          desc.symbolId.toNat = symbol → ¬ K1Covers desc subcarrier) →
        after.reGrid symbol subcarrier = buffers.reGrid symbol subcarrier) ∧
      (∀ k, after.symbolBitmap.testBit k ↔ buffers.symbolBitmap.testBit k ∨
        ∃ desc ∈ k1Sections descs nofDescs slotId, desc.symbolId.toNat = k) ∧
      ∀ (otherDescs : Nat → OiFrameDesc) (otherNof : Nat) (otherOrder : List (K1Write F)),
        slotDescs otherDescs otherNof slotId = slotDescs descs nofDescs slotId →
        Interleaves (k1Threads q15 arena otherDescs otherNof slotId) otherOrder →
        k1Run buffers otherOrder = after := by
  intro after
  have overlay : after = k1Overlay q15 arena (k1Sections descs nofDescs slotId) buffers :=
    k1Run_eq_k1Overlay buffers disjoint schedule
  refine ⟨overlay, fun desc member subcarrier covers => ?_, fun symbol subcarrier missed => ?_,
    fun k => ?_, fun otherDescs otherNof otherOrder same otherSchedule => ?_⟩
  · rw [overlay]
    simp only [k1Overlay, sectionAt_eq_some disjoint member covers]
  · rw [overlay]
    simp only [k1Overlay, sectionAt_eq_none missed]
  · rw [overlay]
    exact testBit_foldl_or _ _ k
  · have sections : k1Sections otherDescs otherNof slotId = k1Sections descs nofDescs slotId := by
      rw [k1Sections, same, k1Sections]
    rw [← sections] at disjoint overlay
    rw [k1Run_eq_k1Overlay buffers disjoint otherSchedule, overlay]

/-- Two sections of one symbol, and a descriptor of another slot between them. -/
theorem k1_schedule_independent_of_two_sections :
    let desc (slotId : UInt32) (startPrb : UInt16) : OiFrameDesc :=
      { OiFrameDesc.zero with frameLen := 200, slotId, startPrb, nofPrbs := 2, payloadByteOff := 28 }
    let descs (gid : Nat) : OiFrameDesc :=
      if gid = 0 then desc 5 0 else if gid = 1 then desc 6 1 else desc 5 2
    let before : I2Buffers Int := { reGrid := fun _ _ => (0, 0), symbolBitmap := 0 }
    let order := (k1Threads id (fun _ => 0) descs 3 5).flatten
    k1Sections descs 3 5 = [desc 5 0, desc 5 2] ∧
      k1Run before order = k1Overlay id (fun _ => 0) [desc 5 0, desc 5 2] before := by
  intro desc descs before order
  have sections : k1Sections descs 3 5 = [desc 5 0, desc 5 2] := by decide
  have disjoint : (k1Sections descs 3 5).Pairwise RegionsDisjoint := by
    rw [sections, List.pairwise_pair, RegionsDisjoint]
    exact fun _ => .inl (by decide)
  refine ⟨sections, ?_⟩
  rw [← sections]
  exact (k1_schedule_independent before disjoint (Interleaves.sequential _)).1

end Schedule

end RanInline.Phy
