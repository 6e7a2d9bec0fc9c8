/-
Module: RanInline.Phy.Completeness
Purpose: What a set bit of a slot's symbol bitmap says about the slot's grid after a launch.
  Bitmap and grid are shared by the slots of one parity and are never cleared.
Trusted boundary: none
Main exports: RowComplete, LaunchClean, launchClean_of_isolated,
  bitmap_complete_of_clean_launches
-/
import RanInline.Phy.RingIsolation

namespace RanInline.Phy

open RanInline.Lib RanInline.Oran

variable {F Llr : Type} {kernels : PhyKernels F Llr} {mcsSet : List Nat}
  {memory : DeviceMemory F Llr} {slotId : UInt32}

/-! ### The grid row of a slot -/

/-- The arena as far as the frame determines it. -/
def FedFrame.view (frame : FedFrame) : Nat → UInt8 :=
  fun i => frame.bytes.getD (i - frame.desc.arenaOffset.toNat) 0

/-- The frame's bytes are still in the arena. -/
def FedFrame.Intact (arena : Nat → UInt8) (frame : FedFrame) : Prop :=
  frameBytes arena frame.desc = frame.bytes

/-- The grid and bitmap of a slot. -/
def P2Run.i2 (run : P2Run F Llr) (slotId : UInt32) : I2Buffers F :=
  (run.pipeline.slotBuffers (slotId.toNat % 2)).i2

/-- A frame fed for the slot, and still in the arena, carries a sample of symbol `k` at the
subcarrier. -/
def P2Run.Carries (run : P2Run F Llr) (slotId : UInt32) (k subcarrier : Nat)
    (frame : FedFrame) : Prop :=
  frame ∈ run.fed ∧ frame.Intact run.pipeline.arena ∧ K1Accepts frame.desc slotId ∧
    frame.desc.symbolId.toNat = k ∧ K1Covers frame.desc subcarrier

/-- Every subcarrier of row `k` holds the value of a frame fed for the slot. -/
def RowComplete (kernels : PhyKernels F Llr) (run : P2Run F Llr) (slotId : UInt32)
    (k : Nat) : Prop :=
  ∀ subcarrier < k1NofSubcarriers, ∃ frame, run.Carries slotId k subcarrier frame ∧
    (run.i2 slotId).reGrid k subcarrier =
      k1Carried kernels.q15 frame.view frame.desc subcarrier

/-- A ring entry K1 takes for the slot and does not drop, with its symbol. -/
def P2Run.Enters (run : P2Run F Llr) (slotId : UInt32) (k gid : Nat) : Prop :=
  gid < run.pipeline.descRingCapacity ∧ K1Accepts (run.pipeline.descRing gid) slotId ∧
    (run.pipeline.descRing gid).symbolId.toNat = k

/-- The condition on the state before a launch: a symbol whose bit is already set or that a
ring entry names is rewritten over the whole band, what is written comes from frames that
were fed and are still in the arena, and a row that is complete already has its bit set or a
ring entry that names it. -/
structure LaunchClean (kernels : PhyKernels F Llr) (run : P2Run F Llr) (slotId : UInt32) :
    Prop where
  whole : ∀ k < k1NofSymbols,
    (run.i2 slotId).symbolBitmap.testBit k ∨ (∃ gid, run.Enters slotId k gid) →
    ∀ subcarrier < k1NofSubcarriers, ∃ gid, run.Enters slotId k gid ∧
      K1Covers (run.pipeline.descRing gid) subcarrier
  intact : ∀ k gid subcarrier, run.Enters slotId k gid →
    K1Covers (run.pipeline.descRing gid) subcarrier →
    ∃ frame ∈ run.fed, frame.desc = run.pipeline.descRing gid ∧
      frame.Intact run.pipeline.arena
  kept : ∀ k < k1NofSymbols, RowComplete kernels run slotId k →
    (run.i2 slotId).symbolBitmap.testBit k ∨ ∃ gid, run.Enters slotId k gid

/-- An intact frame carries the samples the arena holds. -/
theorem FedFrame.Intact.k1Carried_eq {arena : Nat → UInt8} {frame : FedFrame}
    (intact : frame.Intact arena) (accepts : K1Accepts frame.desc slotId) {subcarrier : Nat}
    (covers : K1Covers frame.desc subcarrier) (q15 : Int → F) :
    k1Carried q15 frame.view frame.desc subcarrier =
      k1Carried q15 arena frame.desc subcarrier := by
  have same (i : Nat) (inside : i < frame.desc.frameLen.toNat) :
      frame.view (frame.desc.arenaOffset.toNat + i) =
        arena (frame.desc.arenaOffset.toNat + i) := by
    rw [FedFrame.view, ← intact, frameBytes, Nat.add_sub_cancel_left]
    simp [inside]
  obtain ⟨_, fits, _⟩ := accepts
  obtain ⟨lower, upper, _⟩ := covers
  simp only [wireResPerPrb, wireBytesPerRe] at fits lower upper
  simp only [k1Carried, k1Sample, k1ReadQ15, wireResPerPrb, wireBytesPerRe, Nat.add_assoc]
  rw [same _ (by omega), same _ (by omega), same _ (by omega), same _ (by omega)]

/-! ### Launches -/

/-- The launch gets as far as K1. -/
def K1Ran (p : OiP2Pipeline F Llr) (mcsIndex : Nat) (fails : Option LaunchStage) : Prop :=
  (findMcs mcsIndex).isSome ∧ mcsIndex ∈ p.mcsSet ∧ fails ≠ some .k1

instance (p : OiP2Pipeline F Llr) (mcsIndex : Nat) (fails : Option LaunchStage) :
    Decidable (K1Ran p mcsIndex fails) :=
  inferInstanceAs (Decidable (_ ∧ _ ∧ _))

/-- Whatever fails after K1, the launch leaves K1's result in the slot's buffers. -/
theorem oiP2LaunchSlot_i2 (kernels : PhyKernels F Llr) {p : OiP2Pipeline F Llr}
    {mcsIndex : Nat} {fails : Option LaunchStage} (ran : K1Ran p mcsIndex fails)
    (order : List (K1Write F)) (slotId : UInt32) :
    ((oiP2LaunchSlot kernels fails order p slotId mcsIndex).2.slotBuffers
        (slotId.toNat % 2)).i2 =
      k1Run (p.slotBuffers (slotId.toNat % 2)).i2 order := by
  obtain ⟨known, configured, first⟩ := ran
  obtain ⟨mcs, found⟩ := Option.isSome_iff_exists.mp known
  simp only [oiP2LaunchSlot, found, if_neg (not_not.mpr configured), if_neg first]
  split_ifs <;> simp [OiP2Pipeline.modifyBuffers, OiP2Pipeline.touchSlot]

/-- A run, with the slot of the launch that was just made, if K1 ran. -/
structure ObservedRun (F Llr : Type) where
  run : P2Run F Llr
  launched : Option UInt32

/-- The slot of a launch in which K1 runs. -/
def launchedBy (run : P2Run F Llr) : P2Action F → Option UInt32
  | .launch slotId mcsIndex fails _ =>
      if K1Ran run.pipeline mcsIndex fails then some slotId else none
  | _ => none

/-- The runs on one pipeline, observed after every call. -/
def observedSystem (kernels : PhyKernels F Llr) (mcsSet : List Nat)
    (memory : DeviceMemory F Llr) : TransitionSystem (ObservedRun F Llr) (P2Action F) where
  init := fun state => state = { run := freshRun mcsSet memory, launched := none }
  step := fun before action after =>
    p2Step kernels before.run action after.run ∧ after.launched = launchedBy before.run action

/-- Every launch meets the condition. -/
def CleanLaunches (kernels : PhyKernels F Llr) (state : ObservedRun F Llr) : P2Action F → Prop
  | .launch slotId _ _ _ => LaunchClean kernels state.run slotId
  | _ => True

/-- One clean launch leaves bits that say which rows are complete. -/
theorem LaunchClean.bit_iff {before after : P2Run F Llr} (clean : LaunchClean kernels before slotId)
    {mcsIndex : Nat} {fails : Option LaunchStage} {order : List (K1Write F)}
    (step : p2Step kernels before (.launch slotId mcsIndex fails order) after)
    (ran : K1Ran before.pipeline mcsIndex fails) {k : Nat} (symbol : k < k1NofSymbols) :
    (after.i2 slotId).symbolBitmap.testBit k ↔ RowComplete kernels after slotId k := by
  obtain ⟨schedule, rfl⟩ := step
  obtain ⟨arena, _, _⟩ := oiP2LaunchSlot_frame kernels fails order before.pipeline slotId mcsIndex
  have buffers := oiP2LaunchSlot_i2 kernels ran order slotId
  have bit := k1Run_bit (before.i2 slotId) schedule k
  have carries (subcarrier : Nat) (frame : FedFrame) :
      P2Run.Carries { before with
        pipeline := (oiP2LaunchSlot kernels fails order before.pipeline slotId mcsIndex).2 }
        slotId k subcarrier frame ↔ before.Carries slotId k subcarrier frame := by
    simp only [P2Run.Carries, arena]
  simp only [RowComplete, carries, P2Run.i2, buffers]
  rw [← P2Run.i2, bit]
  constructor
  · intro set subcarrier inside
    have named : (before.i2 slotId).symbolBitmap.testBit k ∨ ∃ gid, before.Enters slotId k gid :=
      set.imp_right fun ⟨gid, less, accepts, symbol⟩ => ⟨gid, less, accepts, symbol⟩
    obtain ⟨other, ⟨less, accepts, same⟩, covers⟩ := clean.whole k symbol named subcarrier inside
    rcases k1Run_grid (before.i2 slotId) schedule k subcarrier with
      ⟨gid, less, accepts, same, covers, value⟩ | ⟨uncovered, _⟩
    · obtain ⟨frame, fed, described, intact⟩ :=
        clean.intact k gid subcarrier ⟨less, accepts, same⟩ covers
      rw [← described] at accepts same covers value
      refine ⟨frame, ⟨fed, intact, accepts, same, covers⟩, value.trans ?_⟩
      exact (intact.k1Carried_eq accepts covers kernels.q15).symm
    · exact absurd covers (uncovered other less accepts same)
  · intro complete
    by_cases named : ∃ gid, before.Enters slotId k gid
    · obtain ⟨gid, less, accepts, same⟩ := named
      exact .inr ⟨gid, less, accepts, same⟩
    · -- no work-item writes the row: it was complete before the launch
      have untouched (subcarrier : Nat) : (k1Run (before.i2 slotId) order).reGrid k subcarrier =
          (before.i2 slotId).reGrid k subcarrier := by
        rcases k1Run_grid (before.i2 slotId) schedule k subcarrier with
          ⟨gid, less, accepts, same, _⟩ | ⟨_, value⟩
        · exact absurd ⟨gid, less, accepts, same⟩ named
        · exact value
      have already : RowComplete kernels before slotId k := fun subcarrier inside => by
        rw [← untouched]
        exact complete subcarrier inside
      exact (clean.kept k symbol already).imp_right fun entry => absurd entry named

/-- In every run whose launches are clean, after every launch a bit of the slot's bitmap is
set exactly when the row is complete. -/
theorem bitmap_complete_of_clean_launches {state : ObservedRun F Llr}
    (reaches : (observedSystem kernels mcsSet memory).Reaches (CleanLaunches kernels) state)
    (launched : state.launched = some slotId) {k : Nat} (symbol : k < k1NofSymbols) :
    (state.run.i2 slotId).symbolBitmap.testBit k ↔ RowComplete kernels state.run slotId k := by
  cases reaches with
  | start initial =>
      cases initial
      cases launched
  | @next before _ action _ clean step =>
      obtain ⟨step, observed⟩ := step
      cases action with
      | feed desc clOk =>
          rw [observed] at launched
          cases launched
      | writeArena offset data clOk =>
          rw [observed] at launched
          cases launched
      | launch other mcsIndex fails order =>
          rw [observed, launchedBy] at launched
          split at launched
          next ran =>
            cases launched
            exact clean.bit_iff step ran symbol
          next notRan => cases launched

/-- A launch is clean when the ring holds exactly the slot's descriptors, the frames fed for
the slot are all still in the arena, and every symbol they name, or whose bit is set, is
carried over the whole band. -/
theorem launchClean_of_isolated {run : P2Run F Llr} (history : RingHistory memory run)
    (isolated : RingIsolated run slotId)
    (intact : ∀ frame ∈ run.fed, frame.desc.slotId = slotId →
      frame.Intact run.pipeline.arena)
    (whole : ∀ k < k1NofSymbols,
      ((run.i2 slotId).symbolBitmap.testBit k ∨
        ∃ frame ∈ run.fed, K1Accepts frame.desc slotId ∧ frame.desc.symbolId.toNat = k) →
      ∀ subcarrier < k1NofSubcarriers, ∃ frame ∈ run.fed, K1Accepts frame.desc slotId ∧
        frame.desc.symbolId.toNat = k ∧ K1Covers frame.desc subcarrier) :
    LaunchClean kernels run slotId := by
  have entry (frame : FedFrame) (fed : frame ∈ run.fed) (mine : frame.desc.slotId = slotId) :
      ∃ gid < run.pipeline.descRingCapacity, run.pipeline.descRing gid = frame.desc := by
    have member : frame.desc ∈ fedFor run.fed slotId :=
      List.mem_filter.mpr ⟨List.mem_map_of_mem fed, by simpa using mine⟩
    obtain ⟨gid, found⟩ := List.mem_iff_getElem?.mp member
    obtain ⟨i, other, feeds, _⟩ := getElem?_fedFor.mp found
    have inside : gid < run.pipeline.descRingCapacity := by
      rw [history.capacity]
      exact history.bounded i gid other feeds
    exact ⟨gid, inside, ((isolated gid inside _).mpr found).1⟩
  have origin (k gid : Nat) (enters : run.Enters slotId k gid) :
      ∃ frame ∈ run.fed, frame.desc = run.pipeline.descRing gid := by
    have found := (isolated gid enters.1 _).mp ⟨rfl, enters.2.1.1⟩
    obtain ⟨i, frame, feeds, described, _⟩ := getElem?_fedFor.mp found
    exact ⟨frame, List.mem_of_getElem? feeds.1, described⟩
  refine ⟨fun k symbol named subcarrier inside => ?_, fun k gid subcarrier enters _ => ?_,
    fun k symbol complete => .inr ?_⟩
  · have namedByFrame : (run.i2 slotId).symbolBitmap.testBit k ∨
        ∃ frame ∈ run.fed, K1Accepts frame.desc slotId ∧ frame.desc.symbolId.toNat = k := by
      refine named.imp_right ?_
      rintro ⟨gid, enters⟩
      obtain ⟨frame, fed, described⟩ := origin k gid enters
      exact ⟨frame, fed, described ▸ enters.2.1, described ▸ enters.2.2⟩
    obtain ⟨frame, fed, accepts, same, covers⟩ := whole k symbol namedByFrame subcarrier inside
    obtain ⟨gid, less, ring⟩ := entry frame fed accepts.1
    exact ⟨gid, ⟨less, ring ▸ accepts, ring ▸ same⟩, ring ▸ covers⟩
  · obtain ⟨frame, fed, described⟩ := origin k gid enters
    have accepts := enters.2.1
    rw [← described] at accepts
    exact ⟨frame, fed, described, intact frame fed accepts.1⟩
  · obtain ⟨frame, ⟨fed, _, accepts, same, _⟩, _⟩ := complete 0 (by decide)
    obtain ⟨gid, less, ring⟩ := entry frame fed accepts.1
    exact ⟨gid, less, ring ▸ accepts, ring ▸ same⟩

/-! ### A full-band frame and a partial one -/

/-- The descriptor of a frame of symbol 3 that carries `nofPrbs` PRBs from PRB 0 on. -/
private def sectionDesc (slotId : UInt32) (nofPrbs : UInt16) : OiFrameDesc :=
  { OiFrameDesc.zero with
    slotId, symbolId := 3, frameLen := 2478, nofPrbs, ethHdrLen := 14, payloadByteOff := 30 }

/-- A fresh pipeline over foreign ring entries, fed with one frame. -/
private def oneFeed (slotId : UInt32) (nofPrbs : UInt16) : P2Run Unit Unit :=
  (freshRun [4] (memoryOf 9)).feed (sectionDesc slotId nofPrbs) true

/-- A launch at MCS 4 that runs the work-items one after the other. -/
private def launchRun (run : P2Run Unit Unit) (slotId : UInt32) : P2Run Unit Unit :=
  { run with
    pipeline := (oiP2LaunchSlot noKernels none
      (k1Threads noKernels.q15 run.pipeline.arena run.pipeline.descRing
        run.pipeline.descRingCapacity slotId).flatten run.pipeline slotId 4).2 }

private theorem step_launchRun (run : P2Run Unit Unit) (slotId : UInt32) :
    ∃ order, p2Step noKernels run (.launch slotId 4 none order) (launchRun run slotId) :=
  ⟨_, Interleaves.sequential _, rfl⟩

private theorem bit_launchRun {run : P2Run Unit Unit} (ran : K1Ran run.pipeline 4 none)
    (slotId : UInt32) (k : Nat) :
    ((launchRun run slotId).i2 slotId).symbolBitmap.testBit k ↔
      (run.i2 slotId).symbolBitmap.testBit k ∨ ∃ gid, run.Enters slotId k gid := by
  have buffers := oiP2LaunchSlot_i2 noKernels ran
    (k1Threads noKernels.q15 run.pipeline.arena run.pipeline.descRing
      run.pipeline.descRingCapacity slotId).flatten slotId
  rw [P2Run.i2, launchRun, buffers]
  exact k1Run_bit (run.i2 slotId) (Interleaves.sequential _) k

private theorem history_oneFeed (slotId : UInt32) (nofPrbs : UInt16) :
    RingHistory (memoryOf 9) (oneFeed slotId nofPrbs) := by
  have reaches : (p2System noKernels [4] (memoryOf 9)).Reaches (fun _ _ => True)
      (oneFeed slotId nofPrbs) := reaches_feed (.start rfl) trivial
  exact ringHistory_of_reaches reaches

private theorem observed_oneFeed (slotId : UInt32) (nofPrbs : UInt16) :
    (observedSystem noKernels [4] (memoryOf 9)).Reaches (CleanLaunches noKernels)
      { run := oneFeed slotId nofPrbs, launched := none } :=
  .next (.start rfl)
    (show CleanLaunches noKernels _ (.feed (sectionDesc slotId nofPrbs) true) from trivial)
    ⟨rfl, rfl⟩

private theorem fed_oneFeed {slotId : UInt32} {nofPrbs : UInt16} {frame : FedFrame}
    (fed : frame ∈ (oneFeed slotId nofPrbs).fed) :
    frame = ⟨sectionDesc slotId nofPrbs,
      frameBytes (fun _ => 0) (sectionDesc slotId nofPrbs)⟩ :=
  List.mem_singleton.mp fed

private theorem arena_oneFeed (slotId : UInt32) (nofPrbs : UInt16) :
    (oneFeed slotId nofPrbs).pipeline.arena = fun _ => 0 := rfl

private theorem bitmap_oneFeed (slotId : UInt32) (nofPrbs : UInt16) (other : UInt32) :
    ((oneFeed slotId nofPrbs).i2 other).symbolBitmap = 0 := rfl

/-- A full-band frame sets its bit and completes its row. -/
theorem bitmap_complete_full_band :
    ∃ state : ObservedRun Unit Unit,
      (observedSystem noKernels [4] (memoryOf 9)).Reaches (CleanLaunches noKernels) state ∧
        state.launched = some 1 ∧ (state.run.i2 1).symbolBitmap.testBit 3 = true ∧
        RowComplete noKernels state.run 1 3 := by
  have accepts : K1Accepts (sectionDesc 1 51) 1 := by decide
  have isolated : RingIsolated (oneFeed 1 51) 1 := by
    refine .of_conditions (history_oneFeed 1 51) ?_ ?_
    · intro i j p frame other _ _ second _
      rw [fed_oneFeed (List.mem_of_getElem? second.1)]
      rfl
    · intro p _ _
      exact (by decide : (9 : UInt32) ≠ 1)
  have clean : LaunchClean noKernels (oneFeed 1 51) 1 := by
    refine launchClean_of_isolated (history_oneFeed 1 51) isolated ?_ ?_
    · intro frame fed _
      rw [fed_oneFeed fed, FedFrame.Intact, arena_oneFeed]
    · rintro k symbol (set | ⟨frame, fed, _, same⟩) subcarrier inside
      · rw [bitmap_oneFeed, Nat.zero_testBit] at set
        cases set
      · refine ⟨frame, fed, ?_⟩
        rw [fed_oneFeed fed] at same ⊢
        exact ⟨accepts, same, Nat.zero_le _, inside, inside⟩
  obtain ⟨order, step⟩ := step_launchRun (oneFeed 1 51) 1
  have reaches : (observedSystem noKernels [4] (memoryOf 9)).Reaches (CleanLaunches noKernels)
      { run := launchRun (oneFeed 1 51) 1, launched := some 1 } :=
    .next (observed_oneFeed 1 51)
      (show CleanLaunches noKernels _ (.launch 1 4 none order) from clean) ⟨step, rfl⟩
  have set : ((launchRun (oneFeed 1 51) 1).i2 1).symbolBitmap.testBit 3 = true :=
    (bit_launchRun (by decide) 1 3).mpr (.inr ⟨0, by decide, accepts, rfl⟩)
  exact ⟨_, reaches, rfl, set,
    (bitmap_complete_of_clean_launches reaches rfl (by decide)).mp set⟩

/-- A section of one PRB of slot 2 sets its bit although it leaves the rest of the row as it
was, and the bit is still set when slot 4 is launched, for which nothing was fed. -/
theorem bitmap_incomplete_partial_and_stale :
    (¬ ∀ state : ObservedRun Unit Unit,
        (observedSystem noKernels [4] (memoryOf 9)).Reaches (fun _ _ => True) state →
        state.launched = some 2 → ∀ k < k1NofSymbols,
        ((state.run.i2 2).symbolBitmap.testBit k ↔ RowComplete noKernels state.run 2 k)) ∧
      ¬ ∀ state : ObservedRun Unit Unit,
        (observedSystem noKernels [4] (memoryOf 9)).Reaches (fun _ _ => True) state →
        state.launched = some 4 → ∀ k < k1NofSymbols,
        ((state.run.i2 4).symbolBitmap.testBit k ↔ RowComplete noKernels state.run 4 k) := by
  have fedState : (observedSystem noKernels [4] (memoryOf 9)).Reaches (fun _ _ => True)
      { run := oneFeed 2 1, launched := none } :=
    (observed_oneFeed 2 1).strengthen (fun _ => True) (fun _ _ => trivial)
      (fun _ _ _ _ => trivial)
  obtain ⟨order, step⟩ := step_launchRun (oneFeed 2 1) 2
  have partialState : (observedSystem noKernels [4] (memoryOf 9)).Reaches (fun _ _ => True)
      { run := launchRun (oneFeed 2 1) 2, launched := some 2 } :=
    .next fedState trivial ⟨step, rfl⟩
  have set : ((launchRun (oneFeed 2 1) 2).i2 2).symbolBitmap.testBit 3 = true :=
    (bit_launchRun (by decide) 2 3).mpr (.inr ⟨0, by decide, by decide, rfl⟩)
  constructor
  · intro claim
    have complete := (claim _ partialState rfl 3 (by decide)).mp set
    obtain ⟨frame, ⟨fed, _, _, _, covers⟩, _⟩ := complete 12 (by decide)
    rw [fed_oneFeed fed] at covers
    exact absurd covers.2.1 (by decide)
  · intro claim
    obtain ⟨laterOrder, laterStep⟩ := step_launchRun (launchRun (oneFeed 2 1) 2) 4
    have staleState : (observedSystem noKernels [4] (memoryOf 9)).Reaches (fun _ _ => True)
        { run := launchRun (launchRun (oneFeed 2 1) 2) 4, launched := some 4 } :=
      .next partialState trivial ⟨laterStep, rfl⟩
    have complete := (claim _ staleState rfl 3 (by decide)).mp
      ((bit_launchRun (by decide) 4 3).mpr (.inl set))
    obtain ⟨frame, ⟨fed, _, accepts, _⟩, _⟩ := complete 0 (by decide)
    rw [fed_oneFeed fed] at accepts
    exact absurd accepts.1 (by decide)

end RanInline.Phy
