/-
Module: RanInline.Phy.RingIsolation
Purpose: Which descriptors the ring holds for a slot.  The ring position of a feed is its
  ordinal within its own slot, while the ring is shared by all slots.
Trusted boundary: none
Main exports: Feeds, fedFor, RingIsolated, NotOvertaken, ring_isolated_iff
-/
import Mathlib.Data.List.Induction
import RanInline.Phy.Pipeline

namespace RanInline.Phy

open RanInline.Lib RanInline.Oran

/-! ### The history of feeds -/

/-- Feed number `i` of the history is the feed of ordinal `p` of its slot. -/
def Feeds (fed : List FedFrame) (i p : Nat) (frame : FedFrame) : Prop :=
  fed[i]? = some frame ∧
    (fed.take i).countP (fun earlier => earlier.desc.slotId = frame.desc.slotId) = p

/-- The descriptors fed for a slot, in order. -/
def fedFor (fed : List FedFrame) (slotId : UInt32) : List OiFrameDesc :=
  (fed.map (·.desc)).filter (·.slotId = slotId)

variable {fed : List FedFrame} {i j p : Nat} {frame other : FedFrame} {slotId : UInt32}

theorem length_fedFor (fed : List FedFrame) (slotId : UInt32) :
    (fedFor fed slotId).length = fed.countP (fun frame => frame.desc.slotId = slotId) := by
  rw [fedFor, ← List.countP_eq_length_filter, List.countP_map]
  rfl

theorem Feeds.lt_length (feeds : Feeds fed i p frame) : i < fed.length :=
  (List.getElem?_eq_some_iff.mp feeds.1).1

/-- A feed at the end of the history. -/
theorem feeds_concat {last : FedFrame} :
    Feeds (fed ++ [last]) i p frame ↔
      Feeds fed i p frame ∨
        (i = fed.length ∧ frame = last ∧
          fed.countP (fun earlier => earlier.desc.slotId = last.desc.slotId) = p) := by
  rcases Nat.lt_trichotomy i fed.length with less | same | greater
  · simp [Feeds, List.getElem?_append_left less, List.take_append_of_le_length less.le,
      Nat.ne_of_lt less]
  · subst same
    simp only [Feeds, List.getElem?_concat_length, Option.some.injEq, List.take_left,
      Nat.le_refl, List.getElem?_eq_none, reduceCtorEq, false_and, false_or, true_and]
    constructor
    · rintro ⟨rfl, count⟩
      exact ⟨rfl, count⟩
    · rintro ⟨rfl, count⟩
      exact ⟨rfl, count⟩
  · have outside : (fed ++ [last])[i]? = none := by
      rw [List.getElem?_eq_none]
      simp only [List.length_append, List.length_singleton]
      omega
    have before : fed[i]? = none := List.getElem?_eq_none (by omega)
    simp [Feeds, outside, before, Nat.ne_of_gt greater]

/-- Two feeds of one slot have different ordinals. -/
theorem Feeds.unique (first : Feeds fed i p frame) (second : Feeds fed j p other)
    (same : frame.desc.slotId = other.desc.slotId) : i = j := by
  have grows {i j : Nat} {frame other : FedFrame} (first : Feeds fed i p frame)
      (second : Feeds fed j p other) (same : frame.desc.slotId = other.desc.slotId) :
      ¬ i < j := by
    intro less
    have split : (fed.take j).countP (fun earlier => earlier.desc.slotId = other.desc.slotId) ≥
        (fed.take (i + 1)).countP
          (fun earlier => earlier.desc.slotId = other.desc.slotId) :=
      (List.take_sublist_take_left less).countP_le
    have taken : fed.take (i + 1) = fed.take i ++ [frame] := by
      rw [List.take_add_one, first.1]
      rfl
    rw [taken, List.countP_append, ← same] at split
    have counted := first.2
    have countedOther := second.2
    rw [← same] at countedOther
    simp at split
    omega
  have notLess := grows first second same
  have notGreater := grows second first same.symm
  omega

/-- The descriptor of ordinal `p` fed for a slot. -/
theorem getElem?_fedFor {desc : OiFrameDesc} :
    (fedFor fed slotId)[p]? = some desc ↔
      ∃ i frame, Feeds fed i p frame ∧ frame.desc = desc ∧ desc.slotId = slotId := by
  induction fed using List.reverseRecOn generalizing desc with
  | nil => simp [fedFor, Feeds]
  | append_singleton fed last inductionHypothesis =>
      have length := length_fedFor fed slotId
      by_cases mine : last.desc.slotId = slotId
      · have grown : fedFor (fed ++ [last]) slotId = fedFor fed slotId ++ [last.desc] := by
          simp [fedFor, mine]
        rw [grown, List.getElem?_append]
        simp only [feeds_concat]
        split
        next less =>
          rw [inductionHypothesis]
          constructor
          · rintro ⟨i, frame, feeds, found⟩
            exact ⟨i, frame, .inl feeds, found⟩
          · rintro ⟨i, frame, feeds | ⟨_, rfl, count⟩, found⟩
            · exact ⟨i, frame, feeds, found⟩
            · rw [mine] at count
              omega
        next notLess =>
          have noOlder (i : Nat) (frame : FedFrame) (feeds : Feeds fed i p frame)
              (found : frame.desc.slotId = slotId) : False := by
            have older : (fedFor fed slotId)[p]? = some frame.desc :=
              inductionHypothesis.mpr ⟨i, frame, feeds, rfl, found⟩
            exact notLess (List.getElem?_eq_some_iff.mp older).1
          constructor
          · intro found
            obtain ⟨less, rfl⟩ := List.getElem?_eq_some_iff.mp found
            rw [List.length_singleton] at less
            refine ⟨fed.length, last, .inr ⟨rfl, rfl, ?_⟩, ?_, ?_⟩
            · rw [mine]
              omega
            · simp
            · simpa using mine
          · rintro ⟨i, frame, feeds | ⟨_, rfl, count⟩, rfl, found⟩
            · exact (noOlder i frame feeds found).elim
            · rw [mine] at count
              rw [show p - (fedFor fed slotId).length = 0 by omega]
              rfl
      · have same : fedFor (fed ++ [last]) slotId = fedFor fed slotId := by
          simp [fedFor, mine]
        rw [same, inductionHypothesis]
        simp only [feeds_concat]
        constructor
        · rintro ⟨i, frame, feeds, found⟩
          exact ⟨i, frame, .inl feeds, found⟩
        · rintro ⟨i, frame, feeds | ⟨_, rfl, _⟩, rfl, found⟩
          · exact ⟨i, frame, feeds, rfl, found⟩
          · exact absurd found mine

/-! ### What the ring holds -/

variable {F Llr : Type} {kernels : PhyKernels F Llr} {mcsSet : List Nat}
  {memory : DeviceMemory F Llr} {run before after : P2Run F Llr}

/-- The ring and the feed counters, as functions of the history of feeds: a ring entry
holds the last feed of its ordinal, or what the buffer held at setup. -/
structure RingHistory (memory : DeviceMemory F Llr) (run : P2Run F Llr) : Prop where
  capacity : run.pipeline.descRingCapacity = p2DescRingCapacity
  counted : ∀ slotId,
    run.statics.nofDescsBySlot slotId =
      run.fed.countP fun frame => frame.desc.slotId = slotId
  bounded : ∀ i p frame, Feeds run.fed i p frame → p < p2DescRingCapacity
  written : ∀ p,
    (∃ i frame, Feeds run.fed i p frame ∧ (∀ j other, Feeds run.fed j p other → j ≤ i) ∧
        run.pipeline.descRing p = frame.desc) ∨
      ((∀ i frame, ¬ Feeds run.fed i p frame) ∧
        run.pipeline.descRing p = memory.descRing p)

theorem RingHistory.step {action : P2Action F} (history : RingHistory memory before)
    (step : p2Step kernels before action after) : RingHistory memory after := by
  obtain ⟨capacity, ⟨statics, fed, ring⟩ | ⟨last, room, counts, fed, ring⟩⟩ :=
    p2Step_ring step
  · refine ⟨capacity.trans history.capacity, ?_, ?_, ?_⟩
    · rw [statics, fed]
      exact history.counted
    · rw [fed]
      exact history.bounded
    · rw [fed, ring]
      exact history.written
  · refine ⟨capacity.trans history.capacity, fun slotId => ?_, fun i p frame feeds => ?_,
      fun p => ?_⟩
    · rw [counts, fed, List.countP_append, Function.update_apply, history.counted]
      split
      next same => simp [same]
      next other => simp [Ne.symm other, history.counted]
    · rw [fed] at feeds
      rcases feeds_concat.mp feeds with older | ⟨_, _, rfl⟩
      · exact history.bounded i p frame older
      · rw [← history.counted, ← history.capacity]
        exact room
    · rw [fed, ring, Function.update_apply, history.counted]
      split
      next here =>
        refine .inl ⟨before.fed.length, last, feeds_concat.mpr (.inr ⟨rfl, rfl, here.symm⟩),
          fun j other feeds => ?_, rfl⟩
        rcases feeds_concat.mp feeds with older | ⟨rfl, _⟩
        · exact older.lt_length.le
        · exact Nat.le_refl _
      next elsewhere =>
        have same (i : Nat) (frame : FedFrame) :
            Feeds (before.fed ++ [last]) i p frame ↔ Feeds before.fed i p frame := by
          rw [feeds_concat]
          constructor
          · rintro (older | ⟨_, rfl, here⟩)
            · exact older
            · exact absurd here.symm elsewhere
          · exact .inl
        simp only [same]
        exact history.written p

/-- In every state of every run the ring is the one its history of feeds determines. -/
theorem ringHistory_of_reaches {permitted : P2Run F Llr → P2Action F → Prop}
    (reaches : (p2System kernels mcsSet memory).Reaches permitted run) :
    RingHistory memory run := by
  refine reaches.invariant (RingHistory memory) ?_ fun _ _ _ history _ step => history.step step
  rintro run rfl
  exact ⟨rfl, fun _ => rfl, by simp [freshRun, Feeds],
    fun p => .inr ⟨by simp [freshRun, Feeds], rfl⟩⟩

/-! ### Isolation of the slots -/

/-- The ring entries K1 takes for descriptors of the slot are the descriptors fed for it,
each at its ordinal. -/
def RingIsolated (run : P2Run F Llr) (slotId : UInt32) : Prop :=
  ∀ p < run.pipeline.descRingCapacity, ∀ desc,
    (run.pipeline.descRing p = desc ∧ desc.slotId = slotId) ↔
      (fedFor run.fed slotId)[p]? = some desc

/-- No feed for another slot came after the feed for this slot that has its ordinal. -/
def NotOvertaken (fed : List FedFrame) (slotId : UInt32) : Prop :=
  ∀ i j p frame other, i < j → Feeds fed i p frame → Feeds fed j p other →
    frame.desc.slotId = slotId → other.desc.slotId = slotId

/-- No ring entry that was never written carries the number of this slot. -/
def UnwrittenForeign (memory : DeviceMemory F Llr) (fed : List FedFrame)
    (slotId : UInt32) : Prop :=
  ∀ p < p2DescRingCapacity, (∀ i frame, ¬ Feeds fed i p frame) →
    (memory.descRing p).slotId ≠ slotId

theorem RingIsolated.notOvertaken (history : RingHistory memory run)
    (isolated : RingIsolated run slotId) : NotOvertaken run.fed slotId := by
  intro i j p frame other less first second mine
  by_contra foreign
  have inside : p < run.pipeline.descRingCapacity := by
    rw [history.capacity]
    exact history.bounded i p frame first
  have held : run.pipeline.descRing p = frame.desc :=
    ((isolated p inside frame.desc).mpr
      (getElem?_fedFor.mpr ⟨i, frame, first, rfl, mine⟩)).1
  rcases history.written p with ⟨last, final, feeds, latest, ring⟩ | ⟨none, _⟩
  · have sameSlot : frame.desc.slotId = final.desc.slotId := by rw [← held, ring]
    have lastIs := first.unique feeds sameSlot
    have := latest j other second
    omega
  · exact none i frame first

theorem RingIsolated.unwrittenForeign (history : RingHistory memory run)
    (isolated : RingIsolated run slotId) : UnwrittenForeign memory run.fed slotId := by
  intro p inside unwritten mine
  rcases history.written p with ⟨last, final, feeds, _, _⟩ | ⟨_, ring⟩
  · exact unwritten last final feeds
  · rw [← history.capacity] at inside
    obtain ⟨i, frame, feeds, _⟩ :=
      getElem?_fedFor.mp ((isolated p inside _).mp ⟨ring, mine⟩)
    exact unwritten i frame feeds

theorem RingIsolated.of_conditions (history : RingHistory memory run)
    (kept : NotOvertaken run.fed slotId) (foreign : UnwrittenForeign memory run.fed slotId) :
    RingIsolated run slotId := by
  intro p inside desc
  rw [history.capacity] at inside
  rw [getElem?_fedFor]
  rcases history.written p with ⟨last, final, feeds, latest, ring⟩ | ⟨unwritten, ring⟩
  · rw [ring]
    constructor
    · rintro ⟨rfl, mine⟩
      exact ⟨last, final, feeds, rfl, mine⟩
    · rintro ⟨i, frame, first, rfl, mine⟩
      -- the last feed of this ordinal cannot be another slot's, so it is the slot's own
      rcases Nat.lt_or_ge i last with less | ge
      · have lastMine := kept i last p frame final less first feeds mine
        have := first.unique feeds (mine.trans lastMine.symm)
        omega
      · obtain rfl : i = last := Nat.le_antisymm (latest i frame first) ge
        obtain rfl : frame = final := Option.some.inj (first.1.symm.trans feeds.1)
        exact ⟨rfl, mine⟩
  · constructor
    · rintro ⟨rfl, mine⟩
      rw [ring] at mine
      exact absurd mine (foreign p inside unwritten)
    · rintro ⟨i, frame, feeds, _⟩
      exact absurd feeds (unwritten i frame)

/-- In every state of every run, the ring holds exactly the descriptors fed for a slot when
none of them was overtaken by another slot's feed of the same ordinal and no entry that was
never written happens to carry the slot's number. -/
theorem ring_isolated_iff
    (reaches : (p2System kernels mcsSet memory).Reaches (fun _ _ => True) run)
    (slotId : UInt32) :
    RingIsolated run slotId ↔
      NotOvertaken run.fed slotId ∧ UnwrittenForeign memory run.fed slotId := by
  have history := ringHistory_of_reaches reaches
  constructor
  · intro isolated
    exact ⟨isolated.notOvertaken history, isolated.unwrittenForeign history⟩
  · rintro ⟨kept, foreign⟩
    exact .of_conditions history kept foreign

/-- The descriptor of an untagged full-band frame of symbol 0. -/
private def fullBandDesc (slotId : UInt32) : OiFrameDesc :=
  { OiFrameDesc.zero with
    slotId, frameLen := 2478, nofPrbs := 51, ethHdrLen := 14, payloadByteOff := 30 }

/-- A fresh pipeline over foreign ring entries, after two feeds. -/
private def twoFeeds (first second : UInt32) : P2Run Unit Unit :=
  ((freshRun [4] (memoryOf 9)).feed (fullBandDesc first) true).feed (fullBandDesc second) true

private theorem reaches_twoFeeds (first second : UInt32) :
    (p2System noKernels [4] (memoryOf 9)).Reaches (fun _ _ => True) (twoFeeds first second) :=
  reaches_feed (reaches_feed (.start rfl) trivial) trivial

/-- Two frames of slot 1 on a ring of foreign entries. -/
theorem ring_isolated_two_frames :
    ∃ run : P2Run Unit Unit,
      (p2System noKernels [4] (memoryOf 9)).Reaches (fun _ _ => True) run ∧
        fedFor run.fed 1 = [fullBandDesc 1, fullBandDesc 1] ∧ RingIsolated run 1 := by
  have reaches := reaches_twoFeeds 1 1
  refine ⟨_, reaches, by decide, (ring_isolated_iff reaches 1).mpr ⟨?_, ?_⟩⟩
  · intro i j p frame other _ _ second _
    have allMine : ∀ frame ∈ (twoFeeds 1 1).fed, frame.desc.slotId = 1 := by decide
    exact allMine other (List.mem_of_getElem? second.1)
  · intro p _ _
    exact (by decide : (9 : UInt32) ≠ 1)

/-- Slot 1 is launched after the first frame of slot 2 was fed, which has overwritten its
own first descriptor; and on zeroed memory every entry passes for a descriptor of slot 0. -/
theorem ring_not_isolated :
    (¬ ∀ run : P2Run Unit Unit,
        (p2System noKernels [4] (memoryOf 9)).Reaches (fun _ _ => True) run →
        RingIsolated run 1) ∧
      ¬ ∀ run : P2Run Unit Unit,
        (p2System noKernels [4] (memoryOf 0)).Reaches (fun _ _ => True) run →
        RingIsolated run 0 := by
  constructor
  · intro claim
    have held := ((claim _ (reaches_twoFeeds 1 2) 0 (by decide) (fullBandDesc 1)).mpr (by decide)).1
    exact absurd held (by decide)
  · intro claim
    have fed := (claim _ (.start rfl) 0 (by decide) .zero).mp ⟨rfl, rfl⟩
    exact absurd fed (by decide)

end RanInline.Phy
