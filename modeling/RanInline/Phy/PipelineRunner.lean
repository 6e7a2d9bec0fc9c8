/-
Module: RanInline.Phy.PipelineRunner
Purpose: `main` of pipeline_runner.cpp: the frames of a capture file are parsed, written to the
  arena and fed until the slot changes; then the slot is launched and drained.
Trusted boundary: none
Main exports: RunnerDevice, RunnerState, RunnerError, runnerTurn, runnerLoop, pipelineRunner,
  pipeline_runner_feeds_first_slot
-/
import RanInline.Ingest.ArenaReuse
import RanInline.Oran.SlotCounter
import RanInline.Osg.Pcap

namespace RanInline.Phy

open RanInline.Lib RanInline.Oran RanInline.Ingest RanInline.Osg

/-! ### The tool -/

/-- What the device answers: to the buffer write of the k-th arena write and of the k-th feed, and
the first enqueue of the launch that fails. -/
structure RunnerDevice where
  writeOk : Nat → Bool
  feedOk : Nat → Bool
  fails : Option LaunchStage

/-- The local variables of the loop.  `slotId` is `have_slot_id` with `slot_id`. -/
structure RunnerState (F Llr : Type) where
  pstate : OiOranPreparseState
  arenaCursor : UInt64
  slotId : Option UInt32
  nofFed : UInt32
  nofDropped : UInt32
  statics : P2Statics
  pipeline : OiP2Pipeline F Llr

/-- The error exits, with the status or the count that is printed. -/
inductive RunnerError where
  | readPcap
  | writeArena (status : OiP2Status)
  | feed (status : OiP2Status)
  | noValidFrames (nofDropped : UInt32)
  | launchSlot (status : OiP2Status)
  | drain (status : OiP2Status)
deriving DecidableEq, Repr

/-- The exit code of an error. -/
def RunnerError.exitCode : RunnerError → Nat
  | .readPcap => 2
  | _ => 1

/-- The report of a run that reaches the end, with the pipeline before it is torn down. -/
structure RunnerReport (F Llr : Type) where
  slotId : UInt32
  nofFed : UInt32
  nofDropped : UInt32
  pipeline : OiP2Pipeline F Llr

/-- How a turn of the loop ends. -/
inductive RunnerTurn (F Llr : Type) where
  | next (state : RunnerState F Llr)
  | stop (state : RunnerState F Llr)
  | fail (error : RunnerError)

section Tool

variable {F Llr : Type}

/-- The descriptor with the place of its frame. -/
def placeDesc (desc : OiFrameDesc) (arenaCursor : UInt64) (frame : List UInt8) : OiFrameDesc :=
  { desc with arenaOffset := arenaCursor, frameLen := UInt32.ofNat frame.length }

/-- One turn.  `none` is a read outside the frame. -/
def runnerTurn (device : RunnerDevice) (udcomphdrBytes : UInt8) (state : RunnerState F Llr)
    (frame : List UInt8) : Option (RunnerTurn F Llr) := do
  let outcome ← oiOranPreparseFrame state.pstate frame frame.length udcomphdrBytes .zero
  let state := { state with pstate := outcome.state }
  if outcome.status ≠ .ok then
    return .next { state with nofDropped := state.nofDropped + 1 }
  if state.slotId.any (outcome.outDesc.slotId ≠ ·) then
    return .stop state
  let desc := placeDesc outcome.outDesc state.arenaCursor frame
  match oiP2WriteArena (device.writeOk state.nofFed.toNat) state.pipeline state.arenaCursor
      frame with
  | (.ok, pipeline) =>
      match oiP2Feed (device.feedOk state.nofFed.toNat) state.statics pipeline desc with
      | (.ok, statics, pipeline) =>
          return .next
            { state with
              arenaCursor := state.arenaCursor + UInt64.ofNat frame.length
              slotId := some (state.slotId.getD desc.slotId)
              nofFed := state.nofFed + 1
              statics := statics
              pipeline := pipeline }
      | (status, _, _) => return .fail (.feed status)
  | (status, _) => return .fail (.writeArena status)

/-- The loop. -/
def runnerLoop (device : RunnerDevice) (udcomphdrBytes : UInt8) :
    RunnerState F Llr → List (List UInt8) → Option (Except RunnerError (RunnerState F Llr))
  | state, [] => some (.ok state)
  | state, frame :: frames => do
      match ← runnerTurn device udcomphdrBytes state frame with
      | .next state => runnerLoop device udcomphdrBytes state frames
      | .stop state => return .ok state
      | .fail error => return .error error

/-- The variables in front of the loop, in a fresh process. -/
def RunnerState.initial (mcsSet : List Nat) (memory : DeviceMemory F Llr) : RunnerState F Llr where
  pstate := .zero
  arenaCursor := 0
  slotId := none
  nofFed := 0
  nofDropped := 0
  statics := { nofDescsBySlot := fun _ => 0 }
  pipeline := oiP2Setup mcsSet memory

/-- `main` behind the arguments and a successful setup.  `order` is the schedule of K1's writes in
the launch. -/
def pipelineRunner (kernels : PhyKernels F Llr) (device : RunnerDevice) (order : List (K1Write F))
    (mcsSet : List Nat) (memory : DeviceMemory F Llr) (file : Option (List UInt8))
    (mcsIndex : Nat) (udcomphdrBytes : UInt8) :
    Option (Except RunnerError (RunnerReport F Llr)) := do
  let (read, frames) := readPcap file
  if read = false then return .error .readPcap
  match ← runnerLoop device udcomphdrBytes (.initial mcsSet memory) frames with
  | .error error => return .error error
  | .ok state =>
      match state.slotId with
      | none => return .error (.noValidFrames state.nofDropped)
      | some slotId =>
          match oiP2LaunchSlot kernels device.fails order state.pipeline slotId mcsIndex with
          | (.ok, pipeline) =>
              match oiP2Drain pipeline slotId with
              | (.ok, pipeline) =>
                  return .ok
                    { slotId := slotId
                      nofFed := state.nofFed
                      nofDropped := state.nofDropped
                      pipeline := pipeline }
              | (status, _) => return .error (.drain status)
          | (status, _) => return .error (.launchSlot status)

end Tool

/-! ### The frames of the first slot -/

/-- The frames that the parser accepts. -/
def acceptedOf (udcomphdrBytes : UInt8) (frames : List (List UInt8)) : List (List UInt8) :=
  frames.filter (isAccepted udcomphdrBytes)

/-- The symbol of the frame is below that of the last one fed. -/
def Descends (udcomphdrBytes : UInt8) (fed : List (List UInt8)) (frame : List UInt8) : Prop :=
  ∃ last, fed.getLast? = some last ∧
    symbolIdOf udcomphdrBytes frame < symbolIdOf udcomphdrBytes last

/-- The frames up to the first accepted one whose symbol descends. -/
structure FirstSlotPart (udcomphdrBytes : UInt8) (before after : List (List UInt8)) : Prop where
  ascending : ((acceptedOf udcomphdrBytes before).map (symbolIdOf udcomphdrBytes)).IsChain (· ≤ ·)
  boundary : ∀ frame ∈ after.head?, isAccepted udcomphdrBytes frame = true ∧
    Descends udcomphdrBytes (acceptedOf udcomphdrBytes before) frame

/-- The bytes of frames. -/
def totalBytes (frames : List (List UInt8)) : Nat := (frames.map List.length).sum

/-- The frames fit the arena and the descriptor ring, and the device takes them. -/
structure Room (device : RunnerDevice) (fed : List (List UInt8)) : Prop where
  bytes : totalBytes fed ≤ p2ArenaBytes
  count : fed.length ≤ p2DescRingCapacity
  device : ∀ k < fed.length, device.writeOk k = true ∧ device.feedOk k = true

section Parts

variable {udcomphdrBytes : UInt8} {done fed : List (List UInt8)} {frame : List UInt8}

theorem acceptedOf_append_accepted (accepted : isAccepted udcomphdrBytes frame = true)
    (done : List (List UInt8)) :
    acceptedOf udcomphdrBytes (done ++ [frame]) = acceptedOf udcomphdrBytes done ++ [frame] := by
  simp [acceptedOf, List.filter_append, accepted]

theorem acceptedOf_append_rejected (rejected : isAccepted udcomphdrBytes frame = false)
    (done : List (List UInt8)) :
    acceptedOf udcomphdrBytes (done ++ [frame]) = acceptedOf udcomphdrBytes done := by
  simp [acceptedOf, List.filter_append, rejected]

@[simp]
theorem totalBytes_append (front back : List (List UInt8)) :
    totalBytes (front ++ back) = totalBytes front + totalBytes back := by
  simp [totalBytes]

@[simp]
theorem totalBytes_singleton (frame : List UInt8) : totalBytes [frame] = frame.length := by
  simp [totalBytes]

/-- A part of frames that fit fits. -/
theorem Room.of_append {device : RunnerDevice} {more : List (List UInt8)}
    (room : Room device (fed ++ more)) : Room device fed := by
  have bytes := room.bytes
  have count := room.count
  rw [totalBytes_append] at bytes
  rw [List.length_append] at count
  refine ⟨by omega, by omega, fun k inside => room.device k ?_⟩
  rw [List.length_append]
  omega

/-- In an ascending list no frame descends. -/
theorem not_descends_of_ascending {more : List (List UInt8)}
    (ascending : ((fed ++ frame :: more).map (symbolIdOf udcomphdrBytes)).IsChain (· ≤ ·)) :
    ¬ Descends udcomphdrBytes fed frame := by
  rintro ⟨last, found, below⟩
  rw [List.map_append, List.map_cons, List.isChain_append] at ascending
  have ordered := ascending.2.2 (symbolIdOf udcomphdrBytes last)
    (by rw [List.getLast?_map, found]; rfl) (symbolIdOf udcomphdrBytes frame) rfl
  exact absurd below (UInt8.not_lt.mpr ordered)

/-- A frame that does not descend can be appended. -/
theorem ascending_snoc
    (ascending : (fed.map (symbolIdOf udcomphdrBytes)).IsChain (· ≤ ·))
    (level : ¬ Descends udcomphdrBytes fed frame) :
    ((fed ++ [frame]).map (symbolIdOf udcomphdrBytes)).IsChain (· ≤ ·) := by
  rw [List.map_append, List.isChain_append]
  refine ⟨ascending, by simp, fun low lowLast high highFirst => ?_⟩
  rw [List.getLast?_map, Option.mem_def, Option.map_eq_some_iff] at lowLast
  obtain ⟨last, found, rfl⟩ := lowLast
  rw [List.map_cons, List.head?_cons, Option.mem_def, Option.some.injEq] at highFirst
  subst highFirst
  exact UInt8.not_lt.mp fun below => level ⟨last, found, below⟩

/-- Every list of frames has such a part. -/
theorem exists_firstSlotPart (udcomphdrBytes : UInt8) (frames : List (List UInt8)) :
    ∃ before after, frames = before ++ after ∧ FirstSlotPart udcomphdrBytes before after := by
  suffices general : ∀ done : List (List UInt8),
      ((acceptedOf udcomphdrBytes done).map (symbolIdOf udcomphdrBytes)).IsChain (· ≤ ·) →
      ∃ before after, done ++ frames = before ++ after ∧
        FirstSlotPart udcomphdrBytes before after by
    simpa using general [] List.isChain_nil
  induction frames with
  | nil => exact fun done ascending => ⟨done, [], rfl, ascending, by simp⟩
  | cons frame frames inductionHypothesis =>
      intro done ascending
      by_cases accepted : isAccepted udcomphdrBytes frame = true
      · by_cases descends : Descends udcomphdrBytes (acceptedOf udcomphdrBytes done) frame
        · refine ⟨done, frame :: frames, rfl, ascending, fun first found => ?_⟩
          rw [List.head?_cons, Option.mem_def, Option.some.injEq] at found
          subst found
          exact ⟨accepted, descends⟩
        · obtain ⟨before, after, split, part⟩ := inductionHypothesis (done ++ [frame]) (by
            rw [acceptedOf_append_accepted accepted]
            exact ascending_snoc ascending descends)
          exact ⟨before, after, by rw [← split, List.append_assoc, List.singleton_append], part⟩
      · obtain ⟨before, after, split, part⟩ := inductionHypothesis (done ++ [frame]) (by
          rw [acceptedOf_append_rejected (by simpa using accepted)]
          exact ascending)
        exact ⟨before, after, by rw [← split, List.append_assoc, List.singleton_append], part⟩

end Parts

/-! ### One turn -/

/-- The parser has seen these accepted frames, all of slot 0. -/
structure Counted (udcomphdrBytes : UInt8) (fed : List (List UInt8))
    (pstate : OiOranPreparseState) : Prop where
  slot : pstate.runningSlotId = 0
  started : pstate.hasLastSymbol = true ↔ fed ≠ []
  last : ∀ last ∈ fed.getLast?, pstate.lastSymbolId = symbolIdOf udcomphdrBytes last

/-- Descriptor `k` of the ring describes this frame, which lies in the arena behind those in front
of it. -/
structure FrameLoaded {F Llr : Type} (udcomphdrBytes : UInt8) (pipeline : OiP2Pipeline F Llr)
    (fed : List (List UInt8)) (k : Nat) (frame : List UInt8) : Prop where
  slotId : (pipeline.descRing k).slotId = 0
  symbolId : (pipeline.descRing k).symbolId = symbolIdOf udcomphdrBytes frame
  offset : (pipeline.descRing k).arenaOffset.toNat = totalBytes (fed.take k)
  length : (pipeline.descRing k).frameLen.toNat = frame.length
  bytes : frameBytes pipeline.arena (pipeline.descRing k) = frame

/-- The variables behind these frames. -/
structure Loaded {F Llr : Type} (udcomphdrBytes : UInt8) (device : RunnerDevice)
    (mcsSet : List Nat) (done : List (List UInt8)) (state : RunnerState F Llr) : Prop where
  room : Room device (acceptedOf udcomphdrBytes done)
  cursor : state.arenaCursor.toNat = totalBytes (acceptedOf udcomphdrBytes done)
  slotId : state.slotId = if acceptedOf udcomphdrBytes done = [] then none else some 0
  nofFed : state.nofFed.toNat = (acceptedOf udcomphdrBytes done).length
  handled : state.nofFed + state.nofDropped = UInt32.ofNat done.length
  ring : state.statics.nofDescsBySlot 0 = state.nofFed.toNat
  arenaBytes : state.pipeline.arenaBytes = p2ArenaBytes
  capacity : state.pipeline.descRingCapacity = p2DescRingCapacity
  configured : state.pipeline.mcsSet = mcsSet
  frames : ∀ k frame, (acceptedOf udcomphdrBytes done)[k]? = some frame →
    FrameLoaded udcomphdrBytes state.pipeline (acceptedOf udcomphdrBytes done) k frame

section Turn

variable {F Llr : Type} {udcomphdrBytes : UInt8} {device : RunnerDevice} {mcsSet : List Nat}
  {done fed : List (List UInt8)} {frame : List UInt8} {state : RunnerState F Llr}
  {pstate : OiOranPreparseState}

/-- The slot id of the next accepted frame. -/
theorem Counted.advance (counted : Counted udcomphdrBytes fed pstate) :
    (Descends udcomphdrBytes fed frame →
        (pstate.advance (symbolIdOf udcomphdrBytes frame)).runningSlotId = 1) ∧
      (¬ Descends udcomphdrBytes fed frame →
        Counted udcomphdrBytes (fed ++ [frame])
          (pstate.advance (symbolIdOf udcomphdrBytes frame))) := by
  constructor
  · rintro ⟨last, found, below⟩
    have nonempty : fed ≠ [] := by
      rintro rfl
      cases found
    rw [OiOranPreparseState.advance, counted.slot,
      if_pos ⟨counted.started.mpr nonempty, by rwa [counted.last last found]⟩]
    rfl
  · intro level
    refine ⟨?_, by simp [OiOranPreparseState.advance], ?_⟩
    · rw [OiOranPreparseState.advance, counted.slot]
      refine if_neg fun down => level ?_
      have nonempty := counted.started.mp down.1
      obtain ⟨last, found⟩ : ∃ last, fed.getLast? = some last :=
        ⟨_, List.getLast?_eq_getLast_of_ne_nil nonempty⟩
      exact ⟨last, found, by rw [← counted.last last found]; exact down.2⟩
    · intro last found
      rw [List.getLast?_concat, Option.mem_def, Option.some.injEq] at found
      subst found
      rfl

/-- A frame that the parser refuses is counted and passed over. -/
theorem runnerTurn_of_rejected (rejected : isAccepted udcomphdrBytes frame = false)
    (state : RunnerState F Llr) :
    runnerTurn device udcomphdrBytes state frame =
      some (.next { state with nofDropped := state.nofDropped + 1 }) := by
  obtain ⟨outcome, handled, effect⟩ := preparseCall_effect udcomphdrBytes state.pstate
    { frame := frame, outDesc := .zero }
  simp only [] at handled
  cases effect with
  | accepted _ accepts _ _ _ =>
      simp only [] at accepts
      rw [rejected] at accepts
      cases accepts
  | rejected status _ sameState _ =>
      simp only [runnerTurn, handled, Option.bind_eq_bind, Option.bind_some, ne_eq, status,
        not_false_eq_true, if_true, sameState]
      rfl

/-- The parser's answer to an accepted frame. -/
theorem preparse_of_accepted (accepted : isAccepted udcomphdrBytes frame = true)
    (pstate : OiOranPreparseState) :
    ∃ desc, oiOranPreparseFrame pstate frame frame.length udcomphdrBytes .zero =
        some { status := .ok
               state := pstate.advance (symbolIdOf udcomphdrBytes frame)
               outDesc := desc } ∧
      desc.symbolId = symbolIdOf udcomphdrBytes frame ∧
      desc.slotId = (pstate.advance (symbolIdOf udcomphdrBytes frame)).runningSlotId := by
  obtain ⟨outcome, handled, effect⟩ := preparseCall_effect udcomphdrBytes pstate
    { frame := frame, outDesc := .zero }
  simp only [] at handled
  cases effect with
  | rejected _ rejects _ _ =>
      simp only [] at rejects
      rw [accepted] at rejects
      cases rejects
  | accepted status _ symbol advanced slotId =>
      simp only [] at symbol
      rw [symbol] at advanced
      refine ⟨outcome.outDesc, ?_, symbol, by rw [slotId, advanced]⟩
      rw [handled, ← advanced, ← status]

/-- The loop stops at a frame whose symbol descends. -/
theorem runnerTurn_of_descends (loaded : Loaded udcomphdrBytes device mcsSet done state)
    (counted : Counted udcomphdrBytes (acceptedOf udcomphdrBytes done) state.pstate)
    (accepted : isAccepted udcomphdrBytes frame = true)
    (descends : Descends udcomphdrBytes (acceptedOf udcomphdrBytes done) frame) :
    runnerTurn device udcomphdrBytes state frame =
      some (.stop { state with
        pstate := state.pstate.advance (symbolIdOf udcomphdrBytes frame) }) := by
  obtain ⟨desc, handled, _, slotId⟩ := preparse_of_accepted accepted state.pstate
  have nonempty : acceptedOf udcomphdrBytes done ≠ [] := by
    obtain ⟨last, found, _⟩ := descends
    intro empty
    rw [empty] at found
    cases found
  have slot : state.slotId = some 0 := by rw [loaded.slotId, if_neg nonempty]
  rw [counted.advance.1 descends] at slotId
  have other : (state.slotId.any fun x => decide (desc.slotId ≠ x)) = true := by
    rw [slot, slotId]
    decide
  simp only [runnerTurn, handled, Option.bind_eq_bind, Option.bind_some, ne_eq, not_true_eq_false,
    if_false]
  rw [if_pos (by simpa using other)]
  rfl

/-- A frame lies in front of those behind it. -/
theorem totalBytes_take_add_le {k : Nat} (found : fed[k]? = some frame) :
    totalBytes (fed.take k) + frame.length ≤ totalBytes fed := by
  have step : fed.take (k + 1) = fed.take k ++ [frame] := by
    rw [List.take_add_one, found, Option.toList_some]
  have split : totalBytes (fed.take (k + 1)) + totalBytes (fed.drop (k + 1)) = totalBytes fed := by
    rw [← totalBytes_append, List.take_append_drop]
  rw [step, totalBytes_append, totalBytes_singleton] at split
  omega

/-- The bytes that a descriptor points at are not touched by a write behind them. -/
theorem frameBytes_writeBytes_of_before {arena : Nat → UInt8} {desc : OiFrameDesc} {offset : Nat}
    (data : List UInt8) (before : desc.arenaOffset.toNat + desc.frameLen.toNat ≤ offset) :
    frameBytes (writeBytes arena offset data) desc = frameBytes arena desc := by
  refine List.map_congr_left fun i member => ?_
  have inside := List.mem_range.mp member
  exact writeBytes_outside arena (.inl (by omega))

/-- The bytes that a descriptor points at, once they are written there. -/
theorem frameBytes_writeBytes (arena : Nat → UInt8) (desc : OiFrameDesc)
    (length : desc.frameLen.toNat = frame.length) :
    frameBytes (writeBytes arena desc.arenaOffset.toNat frame) desc = frame := by
  refine List.ext_getElem? fun i => ?_
  rw [frameBytes, List.getElem?_map, length]
  rcases Nat.lt_or_ge i frame.length with inside | outside
  · rw [List.getElem?_range inside, Option.map_some]
    exact (writeBytes_inside arena _ inside).symm
  · rw [List.getElem?_eq_none (by simpa using outside), List.getElem?_eq_none outside]
    rfl

/-- The state behind a frame that was fed with this descriptor. -/
def RunnerState.fedWith (state : RunnerState F Llr) (desc : OiFrameDesc) (frame : List UInt8) :
    RunnerState F Llr :=
  { state with
    pstate := state.pstate.advance desc.symbolId
    arenaCursor := state.arenaCursor + UInt64.ofNat frame.length
    slotId := some 0
    nofFed := state.nofFed + 1
    statics :=
      { nofDescsBySlot := Function.update state.statics.nofDescsBySlot 0 (state.nofFed.toNat + 1) }
    pipeline :=
      { state.pipeline.touchSlot 0 with
        arena := writeBytes state.pipeline.arena state.arenaCursor.toNat frame
        descRing := Function.update state.pipeline.descRing state.nofFed.toNat
          (placeDesc desc state.arenaCursor frame) } }

/-- It holds one more frame. -/
theorem Loaded.fedWith (loaded : Loaded udcomphdrBytes device mcsSet done state)
    (accepted : isAccepted udcomphdrBytes frame = true)
    (room : Room device (acceptedOf udcomphdrBytes done ++ [frame])) {desc : OiFrameDesc}
    (slotId : desc.slotId = 0) (symbolId : desc.symbolId = symbolIdOf udcomphdrBytes frame) :
    Loaded udcomphdrBytes device mcsSet (done ++ [frame]) (state.fedWith desc frame) := by
  have bytes := room.bytes
  have cursor := loaded.cursor
  have count := loaded.nofFed
  rw [totalBytes_append, totalBytes_singleton, p2ArenaBytes] at bytes
  have lengthFits : (UInt32.ofNat frame.length).toNat = frame.length := by
    rw [UInt32.toNat_ofNat']
    exact Nat.mod_eq_of_lt (by omega)
  have nofFedNext : (state.nofFed + 1).toNat = state.nofFed.toNat + 1 := by
    have free := room.count
    rw [List.length_append, List.length_singleton, p2DescRingCapacity] at free
    rw [UInt32.toNat_add, UInt32.toNat_one]
    exact Nat.mod_eq_of_lt (by omega)
  refine ⟨?_, ?_, ?_, ?_, ?_, ?_, loaded.arenaBytes, loaded.capacity,
    loaded.configured, ?_⟩
  · rwa [acceptedOf_append_accepted accepted]
  · rw [acceptedOf_append_accepted accepted, totalBytes_append, totalBytes_singleton,
      RunnerState.fedWith, UInt64.toNat_add, UInt64.toNat_ofNat', cursor]
    omega
  · rw [acceptedOf_append_accepted accepted, if_neg (by simp)]
    rfl
  · rw [acceptedOf_append_accepted accepted, List.length_append, ← count]
    exact nofFedNext
  · rw [List.length_append, UInt32.ofNat_add, ← loaded.handled]
    simp only [RunnerState.fedWith]
    rw [UInt32.add_assoc, UInt32.add_comm 1, ← UInt32.add_assoc]
    rfl
  · simp only [RunnerState.fedWith, Function.update_self]
    exact nofFedNext.symm
  · intro k other found
    rw [acceptedOf_append_accepted accepted] at found ⊢
    rcases Nat.lt_or_ge k (acceptedOf udcomphdrBytes done).length with earlier | late
    · rw [List.getElem?_append_left earlier] at found
      have held := loaded.frames k other found
      have before := totalBytes_take_add_le found
      have offset := held.offset
      have length := held.length
      have kept : (state.fedWith desc frame).pipeline.descRing k =
          state.pipeline.descRing k := by
        simp only [RunnerState.fedWith]
        exact Function.update_of_ne (by omega) _ _
      refine ⟨?_, ?_, ?_, ?_, ?_⟩
      · rw [kept, held.slotId]
      · rw [kept, held.symbolId]
      · rw [kept, offset, List.take_append_of_le_length (Nat.le_of_lt earlier)]
      · rw [kept, length]
      · rw [kept]
        exact (frameBytes_writeBytes_of_before frame (by omega)).trans held.bytes
    · rw [List.getElem?_append_right late] at found
      obtain rfl : frame = other := (List.mem_singleton.mp (List.mem_of_getElem? found)).symm
      have last : k = state.nofFed.toNat := by
        have inside := (List.getElem?_eq_some_iff.mp found).1
        rw [List.length_singleton] at inside
        omega
      have entry : (state.fedWith desc frame).pipeline.descRing k =
          placeDesc desc state.arenaCursor frame := by
        rw [last]
        simp [RunnerState.fedWith]
      refine ⟨?_, ?_, ?_, ?_, ?_⟩
      · rw [entry]
        exact slotId
      · rw [entry]
        exact symbolId
      · rw [entry, List.take_append_of_le_length (by omega), List.take_of_length_le late]
        exact cursor
      · rw [entry]
        exact lengthFits
      · rw [entry]
        exact frameBytes_writeBytes state.pipeline.arena (placeDesc desc _ frame) lengthFits

/-- An arena write whose end does not wrap. -/
theorem oiP2WriteArena_eq (clOk : Bool) (p : OiP2Pipeline F Llr) (offset : UInt64)
    (data : List UInt8) (noWrap : offset.toNat + data.length < 2 ^ 64) :
    oiP2WriteArena clOk p offset data =
      if offset.toNat + data.length > p.arenaBytes then (.errArenaOverflow, p)
      else if clOk = true then
        (.ok, { p with arena := writeBytes p.arena offset.toNat data })
      else (.errDevice, p) := by
  rw [oiP2WriteArena, wrapAdd_eq noWrap]
  by_cases outside : offset.toNat + data.length > p.arenaBytes
  · rw [if_pos outside, if_pos outside]
  · rw [if_neg outside, if_neg outside]
    cases clOk
    · rfl
    · rw [if_pos ⟨rfl, Nat.not_lt.mp outside⟩, if_pos rfl]

/-- One more frame fits if it fits by itself. -/
theorem Loaded.room_snoc_iff (loaded : Loaded udcomphdrBytes device mcsSet done state) :
    Room device (acceptedOf udcomphdrBytes done ++ [frame]) ↔
      ¬ state.arenaCursor.toNat + frame.length > p2ArenaBytes ∧
        device.writeOk state.nofFed.toNat = true ∧ state.nofFed.toNat < p2DescRingCapacity ∧
        device.feedOk state.nofFed.toNat = true := by
  have cursor := loaded.cursor
  have count := loaded.nofFed
  constructor
  · intro room
    have bytes := room.bytes
    have length := room.count
    have answers := room.device state.nofFed.toNat (by
      rw [List.length_append, List.length_singleton]
      omega)
    rw [totalBytes_append, totalBytes_singleton] at bytes
    rw [List.length_append, List.length_singleton] at length
    exact ⟨by omega, answers.1, by omega, answers.2⟩
  · rintro ⟨inside, written, free, fed⟩
    refine ⟨?_, ?_, fun k small => ?_⟩
    · rw [totalBytes_append, totalBytes_singleton]
      omega
    · rw [List.length_append, List.length_singleton]
      omega
    · rw [List.length_append, List.length_singleton] at small
      rcases Nat.lt_or_ge k (acceptedOf udcomphdrBytes done).length with earlier | late
      · exact loaded.room.device k earlier
      · obtain rfl : k = state.nofFed.toNat := by omega
        exact ⟨written, fed⟩

/-- A frame of the slot is fed if there is room for it. -/
theorem runnerTurn_of_level (loaded : Loaded udcomphdrBytes device mcsSet done state)
    (counted : Counted udcomphdrBytes (acceptedOf udcomphdrBytes done) state.pstate)
    (accepted : isAccepted udcomphdrBytes frame = true) (small : frame.length < 2 ^ 32)
    (level : ¬ Descends udcomphdrBytes (acceptedOf udcomphdrBytes done) frame) :
    (Room device (acceptedOf udcomphdrBytes done ++ [frame]) →
        ∃ next, runnerTurn device udcomphdrBytes state frame = some (.next next) ∧
          Loaded udcomphdrBytes device mcsSet (done ++ [frame]) next ∧
          Counted udcomphdrBytes (acceptedOf udcomphdrBytes done ++ [frame]) next.pstate) ∧
      (¬ Room device (acceptedOf udcomphdrBytes done ++ [frame]) →
        ∃ error, runnerTurn device udcomphdrBytes state frame = some (.fail error)) := by
  obtain ⟨desc, handled, symbolId, slotId⟩ := preparse_of_accepted accepted state.pstate
  have countedNext := counted.advance.2 level
  rw [countedNext.slot] at slotId
  have sameSlot : ¬ (state.slotId.any fun x => decide ¬ desc.slotId = x) = true := by
    rw [loaded.slotId, slotId]
    split <;> simp
  have slot : some (state.slotId.getD 0) = some 0 := by
    rw [loaded.slotId]
    split <;> rfl
  have bytes := loaded.room.bytes
  have cursor := loaded.cursor
  have arenaSize : p2ArenaBytes = 4194304 := rfl
  have written := oiP2WriteArena_eq (device.writeOk state.nofFed.toNat) state.pipeline
    state.arenaCursor frame (by omega)
  have turn : runnerTurn device udcomphdrBytes state frame =
      match oiP2WriteArena (device.writeOk state.nofFed.toNat) state.pipeline state.arenaCursor
          frame with
      | (.ok, pipeline) =>
          match oiP2Feed (device.feedOk state.nofFed.toNat) state.statics pipeline
            (placeDesc desc state.arenaCursor frame) with
          | (.ok, statics, pipeline) =>
              some (.next
                { state with
                  pstate := state.pstate.advance (symbolIdOf udcomphdrBytes frame)
                  arenaCursor := state.arenaCursor + UInt64.ofNat frame.length
                  slotId := some (state.slotId.getD desc.slotId)
                  nofFed := state.nofFed + 1
                  statics := statics
                  pipeline := pipeline })
          | (status, _, _) => some (.fail (.feed status))
      | (status, _) => some (.fail (.writeArena status)) := by
    simp only [runnerTurn, handled, Option.bind_eq_bind, Option.bind_some, ne_eq,
      not_true_eq_false, if_false, if_neg sameSlot]
    rfl
  rw [loaded.room_snoc_iff, turn, written]
  by_cases outside : state.arenaCursor.toNat + frame.length > p2ArenaBytes
  · refine ⟨fun room => absurd outside room.1, fun _ => ⟨.writeArena .errArenaOverflow, ?_⟩⟩
    rw [if_pos (by rw [loaded.arenaBytes]; exact outside)]
  rw [if_neg (by rw [loaded.arenaBytes]; exact outside)]
  by_cases writeOk : device.writeOk state.nofFed.toNat = true
  swap
  · refine ⟨fun room => absurd room.2.1 writeOk, fun _ => ⟨.writeArena .errDevice, ?_⟩⟩
    rw [if_neg writeOk]
  rw [if_pos writeOk]
  simp only []
  have place : (placeDesc desc state.arenaCursor frame).slotId = 0 := slotId
  have index : state.statics.nofDescsBySlot (placeDesc desc state.arenaCursor frame).slotId =
      state.nofFed.toNat := by rw [place, loaded.ring]
  by_cases free : state.nofFed.toNat < p2DescRingCapacity
  swap
  · refine ⟨fun room => absurd room.2.2.1 free, fun _ => ⟨.feed .errArenaOverflow, ?_⟩⟩
    rw [oiP2Feed_overflow _ (by rw [index, loaded.capacity]; exact Nat.not_lt.mp free)]
  by_cases feedOk : device.feedOk state.nofFed.toNat = true
  swap
  · refine ⟨fun room => absurd room.2.2.2 feedOk, fun _ => ⟨.feed .errDevice, ?_⟩⟩
    rw [Bool.eq_false_iff.mpr feedOk, oiP2Feed_device (by rw [index, loaded.capacity]; exact free)]
  refine ⟨fun room => ⟨state.fedWith desc frame, ?_, ?_, ?_⟩, fun full => absurd ?_ full⟩
  · rw [feedOk, oiP2Feed_ok (by rw [index, loaded.capacity]; exact free), index, place, slotId,
      slot]
    simp only [RunnerState.fedWith, symbolId]
    rfl
  · exact loaded.fedWith accepted (loaded.room_snoc_iff.mpr room) slotId symbolId
  · rw [RunnerState.fedWith, symbolId]
    exact countedNext
  · exact ⟨outside, writeOk, free, feedOk⟩

end Turn

/-! ### The run -/

section Run

variable {F Llr : Type} {udcomphdrBytes : UInt8} {device : RunnerDevice} {mcsSet : List Nat}

/-- A frame that is passed over. -/
theorem Loaded.drop {done : List (List UInt8)} {frame : List UInt8} {state : RunnerState F Llr}
    (loaded : Loaded udcomphdrBytes device mcsSet done state)
    (rejected : isAccepted udcomphdrBytes frame = false) :
    Loaded udcomphdrBytes device mcsSet (done ++ [frame])
      { state with nofDropped := state.nofDropped + 1 } := by
  have same := acceptedOf_append_rejected rejected done
  refine ⟨?_, ?_, ?_, ?_, ?_, loaded.ring, loaded.arenaBytes, loaded.capacity,
    loaded.configured, ?_⟩
  · rw [same]
    exact loaded.room
  · rw [same]
    exact loaded.cursor
  · rw [same]
    exact loaded.slotId
  · rw [same]
    exact loaded.nofFed
  · rw [List.length_append, UInt32.ofNat_add, ← loaded.handled]
    exact (UInt32.add_assoc _ _ _).symm
  · rw [same]
    exact loaded.frames

/-- The loop on the frames up to the boundary.  The induction is on the frames in front of it;
`done` are those that were handled. -/
theorem runnerLoop_of_part {before after done : List (List UInt8)} {state : RunnerState F Llr}
    (small : ∀ frame ∈ before, frame.length < 2 ^ 32)
    (loaded : Loaded udcomphdrBytes device mcsSet done state)
    (counted : Counted udcomphdrBytes (acceptedOf udcomphdrBytes done) state.pstate)
    (part : FirstSlotPart udcomphdrBytes (done ++ before) after) :
    (Room device (acceptedOf udcomphdrBytes (done ++ before)) →
        ∃ ended, runnerLoop device udcomphdrBytes state (before ++ after) = some (.ok ended) ∧
          Loaded udcomphdrBytes device mcsSet (done ++ before) ended) ∧
      (¬ Room device (acceptedOf udcomphdrBytes (done ++ before)) →
        ∃ error, runnerLoop device udcomphdrBytes state (before ++ after) =
          some (.error error)) := by
  induction before generalizing done state with
  | nil =>
      rw [List.append_nil] at part ⊢
      refine ⟨fun _ => ?_, fun full => absurd loaded.room full⟩
      cases after with
      | nil => exact ⟨state, rfl, loaded⟩
      | cons frame after =>
          obtain ⟨accepted, descends⟩ := part.boundary frame rfl
          refine ⟨{ state with
            pstate := state.pstate.advance (symbolIdOf udcomphdrBytes frame) }, ?_, ?_⟩
          · rw [List.nil_append, runnerLoop,
              runnerTurn_of_descends loaded counted accepted descends]
            rfl
          · exact ⟨loaded.room, loaded.cursor, loaded.slotId, loaded.nofFed, loaded.handled,
              loaded.ring, loaded.arenaBytes, loaded.capacity, loaded.configured, loaded.frames⟩
  | cons frame before inductionHypothesis =>
      have shift : done ++ frame :: before = (done ++ [frame]) ++ before := by
        rw [List.append_assoc, List.singleton_append]
      have smallRest : ∀ other ∈ before, other.length < 2 ^ 32 :=
        fun other member => small other (List.mem_cons_of_mem _ member)
      rw [List.cons_append, runnerLoop]
      by_cases accepted : isAccepted udcomphdrBytes frame = true
      · have ascending := part.ascending
        have behind : acceptedOf udcomphdrBytes (done ++ frame :: before) =
            acceptedOf udcomphdrBytes done ++ frame :: acceptedOf udcomphdrBytes before := by
          simp [acceptedOf, List.filter_append, accepted]
        rw [behind] at ascending
        obtain ⟨fits, full⟩ := runnerTurn_of_level loaded counted accepted
          (small frame List.mem_cons_self) (not_descends_of_ascending ascending)
        by_cases room : Room device (acceptedOf udcomphdrBytes done ++ [frame])
        · obtain ⟨next, turn, loadedNext, countedNext⟩ := fits room
          rw [shift] at part ⊢
          rw [← acceptedOf_append_accepted accepted] at countedNext
          rw [turn]
          exact inductionHypothesis smallRest loadedNext countedNext part
        · obtain ⟨error, turn⟩ := full room
          refine ⟨fun all => absurd ?_ room, fun _ => ⟨error, by rw [turn]; rfl⟩⟩
          rw [behind, ← List.singleton_append, ← List.append_assoc] at all
          exact all.of_append
      · have rejected := Bool.eq_false_iff.mpr accepted
        rw [shift] at part ⊢
        rw [runnerTurn_of_rejected rejected]
        refine inductionHypothesis smallRest (loaded.drop rejected) ?_ part
        rw [acceptedOf_append_rejected rejected]
        exact counted

theorem loaded_initial (udcomphdrBytes : UInt8) (device : RunnerDevice) (mcsSet : List Nat)
    (memory : DeviceMemory F Llr) :
    Loaded udcomphdrBytes device mcsSet [] (RunnerState.initial mcsSet memory) := by
  refine ⟨⟨Nat.zero_le _, Nat.zero_le _, fun k none => absurd none (Nat.not_lt_zero k)⟩, rfl, rfl,
    rfl, rfl, rfl, rfl, rfl, rfl, fun k frame found => ?_⟩
  cases found

theorem counted_initial (udcomphdrBytes : UInt8) :
    Counted udcomphdrBytes [] OiOranPreparseState.zero :=
  ⟨rfl, by simp [OiOranPreparseState.zero], by simp⟩

/-- A drain leaves the arena and the ring alone. -/
theorem oiP2Drain_frame (p : OiP2Pipeline F Llr) (slotId : UInt32) :
    (oiP2Drain p slotId).2.arena = p.arena ∧ (oiP2Drain p slotId).2.descRing = p.descRing := by
  rw [oiP2Drain]
  split
  · exact ⟨rfl, rfl⟩
  · split_ifs <;> exact ⟨rfl, rfl⟩

/-- The end of `main` behind a loop that loaded these frames. -/
theorem pipelineRunner_of_loaded (kernels : PhyKernels F Llr) (order : List (K1Write F))
    (memory : DeviceMemory F Llr) {file : Option (List UInt8)} (mcsIndex : Nat)
    {done : List (List UInt8)} {ended : RunnerState F Llr} (read : (readPcap file).1 = true)
    (run : runnerLoop device udcomphdrBytes (.initial mcsSet memory) (readPcap file).2 =
      some (.ok ended))
    (loaded : Loaded udcomphdrBytes device mcsSet done ended) :
    (acceptedOf udcomphdrBytes done ≠ [] ∧ McsAccepted mcsSet mcsIndex ∧ device.fails = none →
        ∃ report, pipelineRunner kernels device order mcsSet memory file mcsIndex udcomphdrBytes =
            some (.ok report) ∧
          report.slotId = 0 ∧ report.nofFed = ended.nofFed ∧
          report.nofDropped = ended.nofDropped ∧
          report.pipeline.arena = ended.pipeline.arena ∧
          report.pipeline.descRing = ended.pipeline.descRing) ∧
      (¬ (acceptedOf udcomphdrBytes done ≠ [] ∧ McsAccepted mcsSet mcsIndex ∧
          device.fails = none) →
        ∃ error, pipelineRunner kernels device order mcsSet memory file mcsIndex udcomphdrBytes =
          some (.error error)) := by
  cases pair : readPcap file with
  | mk ok frames =>
  rw [pair] at read run
  obtain rfl : ok = true := read
  have entered : pipelineRunner kernels device order mcsSet memory file mcsIndex udcomphdrBytes =
      match ended.slotId with
      | none => some (.error (.noValidFrames ended.nofDropped))
      | some slotId =>
          match oiP2LaunchSlot kernels device.fails order ended.pipeline slotId mcsIndex with
          | (.ok, pipeline) =>
              match oiP2Drain pipeline slotId with
              | (.ok, pipeline) =>
                  some (.ok
                    { slotId := slotId
                      nofFed := ended.nofFed
                      nofDropped := ended.nofDropped
                      pipeline := pipeline })
              | (status, _) => some (.error (.drain status))
          | (status, _) => some (.error (.launchSlot status)) := by
    simp only [pipelineRunner, pair, Bool.true_eq_false, if_false, run, Option.bind_eq_bind,
      Option.bind_some]
    rfl
  by_cases empty : acceptedOf udcomphdrBytes done = []
  · refine ⟨fun all => absurd empty all.1, fun _ => ⟨.noValidFrames ended.nofDropped, ?_⟩⟩
    rw [entered, loaded.slotId, if_pos empty]
  rw [entered, loaded.slotId, if_neg empty]
  simp only []
  have decides := oiP2LaunchSlot_ok_iff kernels device.fails order ended.pipeline 0 mcsIndex
  rw [loaded.configured] at decides
  have drains : (oiP2LaunchSlot kernels device.fails order ended.pipeline 0 mcsIndex).1 = .ok →
      (oiP2Drain (oiP2LaunchSlot kernels device.fails order ended.pipeline 0 mcsIndex).2 0).1 =
        .ok := oiP2Drain_of_launched
  obtain ⟨arena, descRing, _⟩ :=
    oiP2LaunchSlot_frame kernels device.fails order ended.pipeline 0 mcsIndex
  generalize oiP2LaunchSlot kernels device.fails order ended.pipeline 0 mcsIndex = launched at *
  obtain ⟨status, pipeline⟩ := launched
  constructor
  · rintro ⟨_, taken⟩
    obtain rfl : status = .ok := decides.mpr taken
    have kept := oiP2Drain_frame pipeline 0
    have ends : oiP2Drain pipeline 0 = (.ok, (oiP2Drain pipeline 0).2) :=
      Prod.ext (drains rfl) rfl
    simp only []
    rw [ends]
    exact ⟨⟨0, ended.nofFed, ended.nofDropped, (oiP2Drain pipeline 0).2⟩, rfl, rfl, rfl, rfl,
      kept.1.trans arena, kept.2.trans descRing⟩
  · intro refused
    have failed : status ≠ .ok := fun ok => refused ⟨empty, decides.mp ok⟩
    cases status with
    | ok => exact absurd rfl failed
    | _ => exact ⟨_, rfl⟩

end Run

/-- On every capture file, pipeline_runner feeds the accepted frames in front of the first accepted
one whose symbol descends, all under slot 0 and behind one another in the arena.  It reaches its
report exactly when the file is read to its end, there is such a frame, the frames fit the arena
and the ring, and the device and the launch take them. -/
theorem pipeline_runner_feeds_first_slot {F Llr : Type} (kernels : PhyKernels F Llr)
    (device : RunnerDevice) (order : List (K1Write F)) (mcsSet : List Nat)
    (memory : DeviceMemory F Llr) (file : Option (List UInt8)) (mcsIndex : Nat)
    (udcomphdrBytes : UInt8) :
    ∃ before after, (readPcap file).2 = before ++ after ∧
      FirstSlotPart udcomphdrBytes before after ∧
      ((∃ report, pipelineRunner kernels device order mcsSet memory file mcsIndex udcomphdrBytes =
          some (.ok report)) ↔
        (readPcap file).1 = true ∧ acceptedOf udcomphdrBytes before ≠ [] ∧
          Room device (acceptedOf udcomphdrBytes before) ∧ McsAccepted mcsSet mcsIndex ∧
          device.fails = none) ∧
      ∀ report, pipelineRunner kernels device order mcsSet memory file mcsIndex udcomphdrBytes =
          some (.ok report) →
        report.slotId = 0 ∧ report.nofFed.toNat = (acceptedOf udcomphdrBytes before).length ∧
          report.nofFed + report.nofDropped = UInt32.ofNat before.length ∧
          ∀ k frame, (acceptedOf udcomphdrBytes before)[k]? = some frame →
            FrameLoaded udcomphdrBytes report.pipeline (acceptedOf udcomphdrBytes before) k
              frame := by
  obtain ⟨before, after, split, part⟩ := exists_firstSlotPart udcomphdrBytes (readPcap file).2
  refine ⟨before, after, split, part, ?_⟩
  have small : ∀ frame ∈ before, frame.length < 2 ^ 32 := fun frame member =>
    length_lt_of_mem_readPcap (split ▸ List.mem_append_left _ member)
  have loop := runnerLoop_of_part small (loaded_initial udcomphdrBytes device mcsSet memory)
    (counted_initial udcomphdrBytes) (by rw [List.nil_append]; exact part)
  rw [List.nil_append, ← split] at loop
  by_cases read : (readPcap file).1 = true
  swap
  · -- the file is refused before the pipeline is used
    have refused : pipelineRunner kernels device order mcsSet memory file mcsIndex
        udcomphdrBytes = some (.error .readPcap) := by
      rw [pipelineRunner]
      cases pair : readPcap file with
      | mk ok frames =>
          rw [pair] at read
          obtain rfl : ok = false := Bool.eq_false_iff.mpr read
          rfl
    rw [refused]
    refine ⟨iff_of_false ?_ fun all => read all.1, fun _ reported => by cases reported⟩
    rintro ⟨_, reported⟩
    cases reported
  by_cases room : Room device (acceptedOf udcomphdrBytes before)
  swap
  · obtain ⟨error, run⟩ := loop.2 room
    have stopped : pipelineRunner kernels device order mcsSet memory file mcsIndex
        udcomphdrBytes = some (.error error) := by
      rw [pipelineRunner]
      cases pair : readPcap file with
      | mk ok frames =>
          rw [pair] at read run
          obtain rfl : ok = true := read
          simp only [Bool.true_eq_false, if_false, run, Option.bind_eq_bind, Option.bind_some]
          rfl
    rw [stopped]
    refine ⟨iff_of_false ?_ fun all => room all.2.2.1, fun _ reported => by cases reported⟩
    rintro ⟨_, reported⟩
    cases reported
  obtain ⟨ended, run, loaded⟩ := loop.1 room
  obtain ⟨reports, fails⟩ := pipelineRunner_of_loaded kernels order memory mcsIndex read run loaded
  by_cases taken : acceptedOf udcomphdrBytes before ≠ [] ∧ McsAccepted mcsSet mcsIndex ∧
      device.fails = none
  · obtain ⟨report, result, slotId, nofFed, nofDropped, arena, descRing⟩ := reports taken
    rw [result]
    refine ⟨iff_of_true ⟨report, rfl⟩ ⟨read, taken.1, room, taken.2.1, taken.2.2⟩, ?_⟩
    rintro other same
    cases same
    refine ⟨slotId, by rw [nofFed, loaded.nofFed], by rw [nofFed, nofDropped, loaded.handled],
      fun k frame found => ?_⟩
    have held := loaded.frames k frame found
    exact ⟨by rw [descRing, held.slotId], by rw [descRing, held.symbolId],
      by rw [descRing, held.offset], by rw [descRing, held.length],
      by rw [descRing, arena, held.bytes]⟩
  · obtain ⟨error, result⟩ := fails taken
    rw [result]
    refine ⟨iff_of_false ?_ fun all => taken ⟨all.2.1, all.2.2.2.1, all.2.2.2.2⟩,
      fun _ reported => by cases reported⟩
    rintro ⟨_, reported⟩
    cases reported

end RanInline.Phy
