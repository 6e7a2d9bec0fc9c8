/-
Module: RanInline.Osg.Harness
Purpose: The loop of bit_exact_harness.cpp over whole runs: the calibration on the first slot that
  is drained, the comparison of every further one with its oracle file, and when the exit code is
  0.
Trusted boundary: none
Main exports: TbRecord, SlotResult, HarnessState, harnessTurn, harnessLoop, HarnessEnd,
  harness_verdict_is_exact
-/
import RanInline.Osg.Format
import RanInline.Osg.Schedule

namespace RanInline.Osg

/-! ### The tool -/

/-- `oi_p2_tb_record_c` as the harness reads it: `tb_data` points to `tb_size_bytes` bytes. -/
structure TbRecord where
  tbSizeBytes : UInt32
  crc24aOk : UInt8
  tbData : List UInt8
  length_tbData : tbData.length = tbSizeBytes.toNat

/-- What launch and drain of a slot give. -/
inductive SlotResult where
  | launchFailed
  | drainFailed
  | drained (record : TbRecord)

/-- What a turn of the loop finds: the last slot id of the ingest, if there is one, and the result
for the slot in front of it, in case that slot is over. -/
structure HarnessPoll where
  observed : Option UInt32
  result : SlotResult

/-- The variables of the loop.  `prevSlotId` is `have_prev_slot` with `prev_slot_id`, and
`completed` is the history: the slots that were drained, with their records. -/
structure HarnessState where
  calibrated : Bool
  phaseOffset : UInt32
  prevSlotId : Option UInt32
  nofCompleted : Nat
  nofMismatches : Nat
  nofCrcMismatches : Nat
  completed : List (UInt32 × TbRecord)

/-- The variables in front of the loop. -/
def HarnessState.initial : HarnessState where
  calibrated := false
  phaseOffset := 0
  prevSlotId := none
  nofCompleted := 0
  nofMismatches := 0
  nofCrcMismatches := 0
  completed := []

/-- The transport block of the record is that of the file: `tb_matches`, and again `tb_match`. -/
def tbMatch (f : OsgFile) (record : TbRecord) : Bool :=
  record.tbSizeBytes.toUInt64 == f.tbLenBytes &&
    record.tbData.take f.tbLenBytes.toNat == f.tbPayload.take f.tbLenBytes.toNat

/-- `crc_match`. -/
def crcMatch (f : OsgFile) (record : TbRecord) : Bool :=
  decide (record.crc24aOk ≠ 0) == decide (f.tbCrcOk ≠ 0)

/-- The offset for a drained slot: the one found before, or the one it calibrates. -/
def harnessOffset (oracle : List OsgFile) (slotsPerFrame : UInt32) (state : HarnessState)
    (slotId : UInt32) (record : TbRecord) : Option UInt32 :=
  if state.calibrated = true then some state.phaseOffset
  else
    calibratePhaseOffset slotId.toUInt64 slotsPerFrame fun candidateFileIdx =>
      (oracle[candidateFileIdx.toNat]?).any (tbMatch · record)

/-- The comparison of a drained slot.  `none` is an index outside the oracle set; an error is a
failed calibration. -/
def compareSlot (oracle : List OsgFile) (slotsPerFrame : UInt32) (state : HarnessState)
    (slotId : UInt32) (record : TbRecord) : Option (Except UInt32 HarnessState) :=
  match harnessOffset oracle slotsPerFrame state slotId record with
  | none => some (.error slotId)
  | some phaseOffset => do
      let expected ← oracle[(fileIdxFor slotId.toUInt64 phaseOffset slotsPerFrame).toNat]?
      return .ok
        { state with
          calibrated := true
          phaseOffset := phaseOffset
          nofMismatches := state.nofMismatches +
            if tbMatch expected record = true then 0 else 1
          nofCrcMismatches := state.nofCrcMismatches +
            if crcMatch expected record = true then 0 else 1
          nofCompleted := state.nofCompleted + 1
          completed := state.completed ++ [(slotId, record)] }

/-- One turn of the loop behind its condition. -/
def harnessTurn (oracle : List OsgFile) (slotsPerFrame : UInt32) (state : HarnessState)
    (poll : HarnessPoll) : Option (Except UInt32 HarnessState) :=
  match poll.observed with
  | none => some (.ok state)
  | some observed =>
      match state.prevSlotId with
      | none => some (.ok { state with prevSlotId := some observed })
      | some prevSlotId =>
          if observed = prevSlotId then some (.ok state)
          else
            match poll.result with
            | .launchFailed | .drainFailed =>
                some (.ok { state with prevSlotId := some observed })
            | .drained record => do
                match ← compareSlot oracle slotsPerFrame state prevSlotId record with
                | .error slotId => return .error slotId
                | .ok state => return .ok { state with prevSlotId := some observed }

/-- Where the loop stands behind some polls. -/
inductive HarnessEnd where
  | polling (state : HarnessState)
  | calibrationFailed (slotId : UInt32)
  | finished (state : HarnessState)

/-- The loop, as far as these polls take it. -/
def harnessLoop (oracle : List OsgFile) (slotsPerFrame : UInt32) (minSlots : Nat) :
    HarnessState → List HarnessPoll → Option HarnessEnd
  | state, [] =>
      some (if state.nofCompleted < minSlots then .polling state else .finished state)
  | state, poll :: polls =>
      if state.nofCompleted < minSlots then do
        match ← harnessTurn oracle slotsPerFrame state poll with
        | .error slotId => return .calibrationFailed slotId
        | .ok next => harnessLoop oracle slotsPerFrame minSlots next polls
      else some (.finished state)

/-- The exit code, with the counters of the last poll. -/
def harnessExitCode (state : HarnessState) (minSlots socketDrops feedBackpressure : Nat) : Nat :=
  if state.nofMismatches = 0 ∧ state.nofCrcMismatches = 0 ∧ socketDrops = 0 ∧
      feedBackpressure = 0 ∧ state.nofCompleted ≥ minSlots then 0
  else 1

/-! ### What the counters say -/

/-- The record is right for its slot at an offset: block and checksum verdict are those of the
file. -/
def SlotRight (oracle : List OsgFile) (slotsPerFrame phaseOffset : UInt32)
    (entry : UInt32 × TbRecord) : Prop :=
  ∃ f, oracle[(fileIdxFor entry.1.toUInt64 phaseOffset slotsPerFrame).toNat]? = some f ∧
    tbMatch f entry.2 = true ∧ crcMatch f entry.2 = true

/-- No two files hold the same transport block. -/
def DistinctBlocks (oracle : List OsgFile) : Prop :=
  ∀ (i j : Nat) (one two : OsgFile), oracle[i]? = some one → oracle[j]? = some two →
    one.tbLenBytes = two.tbLenBytes →
    one.tbPayload.take one.tbLenBytes.toNat = two.tbPayload.take two.tbLenBytes.toNat → i = j

/-- A record matches at most one file. -/
theorem DistinctBlocks.unique {oracle : List OsgFile} (distinct : DistinctBlocks oracle)
    {i j : Nat} {one two : OsgFile} (first : oracle[i]? = some one) (second : oracle[j]? = some two)
    {record : TbRecord} (matchesOne : tbMatch one record = true)
    (matchesTwo : tbMatch two record = true) : i = j := by
  rw [tbMatch, Bool.and_eq_true, beq_iff_eq, beq_iff_eq] at matchesOne matchesTwo
  have lengths : one.tbLenBytes = two.tbLenBytes := matchesOne.1.symm.trans matchesTwo.1
  refine distinct i j one two first second lengths ?_
  rw [← matchesOne.2, ← matchesTwo.2, lengths]

/-- What holds in front of every turn. -/
structure HarnessInvariant (oracle : List OsgFile) (slotsPerFrame : UInt32)
    (state : HarnessState) : Prop where
  count : state.nofCompleted = state.completed.length
  fresh : state.calibrated = false → state.completed = [] ∧ state.nofMismatches = 0 ∧
    state.nofCrcMismatches = 0
  calibration : state.calibrated = true → state.phaseOffset.toNat < slotsPerFrame.toNat ∧
    ∃ first ∈ state.completed, ∃ f,
      oracle[(fileIdxFor first.1.toUInt64 state.phaseOffset slotsPerFrame).toNat]? = some f ∧
        tbMatch f first.2 = true
  right_iff : state.calibrated = true →
    (state.nofMismatches = 0 ∧ state.nofCrcMismatches = 0 ↔
      ∀ entry ∈ state.completed, SlotRight oracle slotsPerFrame state.phaseOffset entry)

theorem harnessInvariant_initial (oracle : List OsgFile) (slotsPerFrame : UInt32) :
    HarnessInvariant oracle slotsPerFrame .initial :=
  ⟨rfl, fun _ => ⟨rfl, rfl, rfl⟩, fun calibrated => absurd calibrated Bool.false_ne_true,
    fun calibrated => absurd calibrated Bool.false_ne_true⟩

section Loop

variable {oracle : List OsgFile} {slotsPerFrame : UInt32} {state next : HarnessState}

/-- The search only tries offsets below the number of slots. -/
theorem calibratePhaseOffset_lt {firstSlotId : UInt64} {phaseOffset : UInt32}
    {tbMatchesFile : UInt32 → Bool}
    (found : calibratePhaseOffset firstSlotId slotsPerFrame tbMatchesFile = some phaseOffset) :
    phaseOffset.toNat < slotsPerFrame.toNat := by
  obtain ⟨offset, inside, rfl⟩ := List.mem_map.mp (List.mem_of_find?_eq_some found)
  have small := List.mem_range.mp inside
  rwa [UInt32.toNat_ofNat_of_lt' (small.trans slotsPerFrame.toNat_lt)]

/-- The offset that a drained slot is compared at, and the file it calibrates on. -/
theorem harnessOffset_spec (inv : HarnessInvariant oracle slotsPerFrame state) {slotId : UInt32}
    {record : TbRecord} {phaseOffset : UInt32}
    (found : harnessOffset oracle slotsPerFrame state slotId record = some phaseOffset) :
    phaseOffset.toNat < slotsPerFrame.toNat ∧
      ((state.calibrated = true ∧ phaseOffset = state.phaseOffset) ∨
        (state.calibrated = false ∧ ∃ f,
          oracle[(fileIdxFor slotId.toUInt64 phaseOffset slotsPerFrame).toNat]? = some f ∧
            tbMatch f record = true)) := by
  rw [harnessOffset] at found
  split_ifs at found with calibrated
  · cases found
    exact ⟨(inv.calibration calibrated).1, .inl ⟨calibrated, rfl⟩⟩
  · have matched := calibratePhaseOffset_spec found
    rw [Option.any_eq_true] at matched
    exact ⟨calibratePhaseOffset_lt found, .inr ⟨Bool.eq_false_iff.mpr calibrated, matched⟩⟩

/-- The comparison of a drained slot keeps the invariant. -/
theorem HarnessInvariant.compareSlot (inv : HarnessInvariant oracle slotsPerFrame state)
    {slotId : UInt32} {record : TbRecord}
    (compared : compareSlot oracle slotsPerFrame state slotId record = some (.ok next)) :
    HarnessInvariant oracle slotsPerFrame next := by
  rw [Osg.compareSlot] at compared
  cases found : harnessOffset oracle slotsPerFrame state slotId record with
  | none =>
      rw [found] at compared
      cases compared
  | some phaseOffset =>
      rw [found] at compared
      obtain ⟨expected, held, ended⟩ := Option.bind_eq_some_iff.mp compared
      cases ended
      obtain ⟨small, cases⟩ := harnessOffset_spec inv found
      -- the new slot is right exactly when neither counter moves
      have here : SlotRight oracle slotsPerFrame phaseOffset (slotId, record) ↔
          tbMatch expected record = true ∧ crcMatch expected record = true := by
        constructor
        · rintro ⟨f, file, right⟩
          rw [held] at file
          cases file
          exact right
        · exact fun right => ⟨expected, held, right⟩
      have before : (state.nofMismatches = 0 ∧ state.nofCrcMismatches = 0 ↔
          ∀ entry ∈ state.completed, SlotRight oracle slotsPerFrame phaseOffset entry) := by
        rcases cases with ⟨calibrated, rfl⟩ | ⟨uncalibrated, _⟩
        · exact inv.right_iff calibrated
        · obtain ⟨empty, mismatches, crcMismatches⟩ := inv.fresh uncalibrated
          rw [empty]
          exact iff_of_true ⟨mismatches, crcMismatches⟩ (by simp)
      refine ⟨?_, fun fresh => absurd fresh.symm Bool.false_ne_true, fun _ => ⟨small, ?_⟩,
        fun _ => ?_⟩
      · simp only [List.length_append, List.length_singleton, inv.count]
      · rcases cases with ⟨calibrated, rfl⟩ | ⟨_, f, file, matched⟩
        · obtain ⟨first, member, rest⟩ := (inv.calibration calibrated).2
          exact ⟨first, List.mem_append_left _ member, rest⟩
        · exact ⟨(slotId, record), by simp, f, file, matched⟩
      · simp only [List.mem_append, List.mem_singleton, or_imp, forall_and, forall_eq, ← before,
          here]
        split_ifs <;> simp_all

/-- So does a turn. -/
theorem HarnessInvariant.turn (inv : HarnessInvariant oracle slotsPerFrame state)
    {poll : HarnessPoll}
    (turned : harnessTurn oracle slotsPerFrame state poll = some (.ok next)) :
    HarnessInvariant oracle slotsPerFrame next := by
  have moved (state : HarnessState) (inv : HarnessInvariant oracle slotsPerFrame state)
      (prevSlotId : Option UInt32) :
      HarnessInvariant oracle slotsPerFrame { state with prevSlotId := prevSlotId } :=
    ⟨inv.count, inv.fresh, inv.calibration, inv.right_iff⟩
  rw [harnessTurn] at turned
  split at turned
  · cases turned
    exact inv
  · split at turned
    · cases turned
      exact moved state inv _
    · split_ifs at turned
      · cases turned
        exact inv
      · split at turned
        · cases turned
          exact moved state inv _
        · cases turned
          exact moved state inv _
        · obtain ⟨result, compared, ended⟩ := Option.bind_eq_some_iff.mp turned
          cases result with
          | error slotId => cases ended
          | ok after =>
              cases ended
              exact moved after (inv.compareSlot compared) _

/-- The invariant at the end of the loop. -/
theorem HarnessInvariant.loop (inv : HarnessInvariant oracle slotsPerFrame state) {minSlots : Nat}
    {polls : List HarnessPoll} {ended : HarnessState}
    (run : harnessLoop oracle slotsPerFrame minSlots state polls = some (.finished ended)) :
    HarnessInvariant oracle slotsPerFrame ended ∧ minSlots ≤ ended.nofCompleted := by
  induction polls generalizing state with
  | nil =>
      rw [harnessLoop] at run
      split_ifs at run with more
      · cases run
      · cases run
        exact ⟨inv, Nat.not_lt.mp more⟩
  | cons poll polls inductionHypothesis =>
      rw [harnessLoop] at run
      split_ifs at run with more
      · obtain ⟨result, turned, rest⟩ := Option.bind_eq_some_iff.mp run
        cases result with
        | error slotId => cases rest
        | ok next => exact inductionHypothesis (inv.turn turned) rest
      · cases run
        exact ⟨inv, Nat.not_lt.mp more⟩

end Loop

/-- For every oracle set without two equal transport blocks and every run that reaches the wanted
number of slots: the exit code is 0 exactly when nothing was dropped or pushed back and one offset
below the number of slots in a frame gives, for every drained slot of the run, the file with its
transport block and its checksum verdict. -/
theorem harness_verdict_is_exact {oracle : List OsgFile} {slotsPerFrame : UInt32}
    (distinct : DistinctBlocks oracle) {minSlots : Nat} {polls : List HarnessPoll}
    {ended : HarnessState} (wanted : 0 < minSlots)
    (run : harnessLoop oracle slotsPerFrame minSlots .initial polls = some (.finished ended))
    (socketDrops feedBackpressure : Nat) :
    minSlots ≤ ended.completed.length ∧
      (harnessExitCode ended minSlots socketDrops feedBackpressure = 0 ↔
        socketDrops = 0 ∧ feedBackpressure = 0 ∧
          ∃ phaseOffset : UInt32, phaseOffset.toNat < slotsPerFrame.toNat ∧
            ∀ entry ∈ ended.completed, SlotRight oracle slotsPerFrame phaseOffset entry) := by
  obtain ⟨inv, enough⟩ := (harnessInvariant_initial oracle slotsPerFrame).loop run
  have count := inv.count
  refine ⟨by omega, ?_⟩
  have calibrated : ended.calibrated = true := by
    by_contra uncalibrated
    obtain ⟨empty, _, _⟩ := inv.fresh (Bool.eq_false_iff.mpr uncalibrated)
    rw [empty, List.length_nil] at count
    omega
  obtain ⟨small, first, member, f, file, matched⟩ := inv.calibration calibrated
  have positive : 0 < slotsPerFrame.toNat := by omega
  have right := inv.right_iff calibrated
  have exits : harnessExitCode ended minSlots socketDrops feedBackpressure = 0 ↔
      (ended.nofMismatches = 0 ∧ ended.nofCrcMismatches = 0) ∧ socketDrops = 0 ∧
        feedBackpressure = 0 := by
    rw [harnessExitCode]
    split_ifs with all
    · exact iff_of_true rfl ⟨⟨all.1, all.2.1⟩, all.2.2.1, all.2.2.2.1⟩
    · exact iff_of_false not_false fun clean =>
        all ⟨clean.1.1, clean.1.2, clean.2.1, clean.2.2, enough⟩
  rw [exits, right]
  constructor
  · rintro ⟨all, drops, backpressure⟩
    exact ⟨drops, backpressure, ended.phaseOffset, small, all⟩
  · rintro ⟨drops, backpressure, phaseOffset, inside, all⟩
    -- the slot that was calibrated on is in one file only, so the two offsets agree
    obtain ⟨g, otherFile, otherMatch, _⟩ := all first member
    have sameIndex := distinct.unique file otherFile matched otherMatch
    rw [toNat_fileIdxFor positive, toNat_fileIdxFor positive] at sameIndex
    have sameOffset : ended.phaseOffset.toNat = phaseOffset.toNat := by
      have congruent : ended.phaseOffset.toNat ≡ phaseOffset.toNat [MOD slotsPerFrame.toNat] :=
        Nat.ModEq.add_left_cancel' first.1.toNat sameIndex
      rwa [Nat.ModEq, Nat.mod_eq_of_lt small, Nat.mod_eq_of_lt inside] at congruent
    rw [UInt32.toNat_inj.mp sameOffset]
    exact ⟨all, drops, backpressure⟩

/-- A file whose transport block is one byte. -/
def oneByteFile (byte : UInt8) : OsgFile where
  formatVersion := 1
  iqFormat := 0
  numerologyMu := 1
  nofPrb := 51
  nofSymbolsPerSlot := 14
  nofEaxc := 1
  eaxcId := 1
  tbLenBytes := 1
  tbCrcOk := 1
  rnti := 17921
  harqId := 0
  mcsIndex := 4
  gridPayload := []
  tbPayload := [byte]

/-- A drained block of one byte. -/
def oneByteRecord (byte : UInt8) : TbRecord where
  tbSizeBytes := 1
  crc24aOk := 1
  tbData := [byte]
  length_tbData := rfl

/-- Slots 7 and 8 of a frame of two slots, which the emulator sent as its slots 0 and 1. -/
theorem harness_verdict_is_exact_two_slots :
    ∃ ended, harnessLoop [oneByteFile 10, oneByteFile 11] 2 2 .initial
        [⟨some 7, .launchFailed⟩, ⟨some 8, .drained (oneByteRecord 10)⟩,
          ⟨some 9, .drained (oneByteRecord 11)⟩] = some (.finished ended) ∧
      harnessExitCode ended 2 0 0 = 0 := by
  obtain ⟨ended, run, completed⟩ : ∃ ended,
      harnessLoop [oneByteFile 10, oneByteFile 11] 2 2 .initial
        [⟨some 7, .launchFailed⟩, ⟨some 8, .drained (oneByteRecord 10)⟩,
          ⟨some 9, .drained (oneByteRecord 11)⟩] = some (.finished ended) ∧
      ended.completed = [(7, oneByteRecord 10), (8, oneByteRecord 11)] := ⟨_, rfl, rfl⟩
  have distinct : DistinctBlocks [oneByteFile 10, oneByteFile 11] := by
    intro i j one two first second _ same
    have few : ∀ {k : Nat} {f : OsgFile}, [oneByteFile 10, oneByteFile 11][k]? = some f →
        (k = 0 ∧ f = oneByteFile 10) ∨ (k = 1 ∧ f = oneByteFile 11) := by
      intro k f found
      match k, found with
      | 0, rfl => exact .inl ⟨rfl, rfl⟩
      | 1, rfl => exact .inr ⟨rfl, rfl⟩
    rcases few first with ⟨rfl, rfl⟩ | ⟨rfl, rfl⟩ <;>
      rcases few second with ⟨rfl, rfl⟩ | ⟨rfl, rfl⟩ <;> first | rfl | exact absurd same (by decide)
  refine ⟨ended, run, (harness_verdict_is_exact distinct (by decide) run 0 0).2.mpr
    ⟨rfl, rfl, 1, by decide, ?_⟩⟩
  rw [completed]
  intro entry member
  rcases List.mem_pair.mp member with rfl | rfl
  · exact ⟨oneByteFile 10, rfl, rfl, rfl⟩
  · exact ⟨oneByteFile 11, rfl, rfl, rfl⟩

end RanInline.Osg
