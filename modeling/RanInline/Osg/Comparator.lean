/-
Module: RanInline.Osg.Comparator
Purpose: The compare loop of pcap_comparator.cpp over a capture: the source filter, the parser, the
  calibration on the first U-plane frame and the comparison of every payload with the grid of its
  file, and when its report counts no mismatch.
Trusted boundary: none
Main exports: CompareState, ComparatorResult, matchesSymbolSlice, compareFrame, compareFrames,
  pcapComparator, SectionHeader, Captured, ReportsZero, reportsZero_iff_calibrate
-/
import Mathlib.Data.List.Forall2
import RanInline.Ingest.BpfFilter
import RanInline.Oran.SlotCounter
import RanInline.Osg.Schedule

namespace RanInline.Osg

open RanInline.Lib RanInline.Oran RanInline.Ingest

/-! ### The tool -/

/-- The local variables of the loop; the 64-bit counts are natural numbers. -/
structure CompareState where
  pstate : OiOranPreparseState
  nofUplane : Nat
  nofParseFailed : Nat
  nofMismatches : Nat
  nofNonRuSrc : Nat
  calibrated : Bool
  phaseOffset : UInt32
deriving DecidableEq, Repr

/-- The variables in front of the loop. -/
def CompareState.initial : CompareState where
  pstate := .zero
  nofUplane := 0
  nofParseFailed := 0
  nofMismatches := 0
  nofNonRuSrc := 0
  calibrated := false
  phaseOffset := 0

/-- How `main` ends behind the arguments and the oracle files. -/
inductive ComparatorResult where
  | emptyCapture
  | calibrationFailed (slotId : UInt32) (symbolId : UInt8)
  | report (totalFrames : Nat) (counters : CompareState)
deriving DecidableEq, Repr

/-- The exit code. -/
def ComparatorResult.exitCode : ComparatorResult → Nat
  | .emptyCapture => 2
  | .calibrationFailed _ _ => 1
  | .report _ counters =>
      if counters.nofMismatches = 0 ∧ counters.calibrated = true then 0 else 1

/-- The comparison of a payload with a file, as in `matches_candidate` and again below it: the
slice starts at the symbol. -/
def matchesSymbolSlice (f : OsgFile) (symbolId : UInt8) (payload : List UInt8) : Bool :=
  let symbolBytes := f.nofPrb.toNat * 12 * 4
  let off := symbolId.toNat * symbolBytes
  if off + payload.length > f.gridPayload.length then false
  else (f.gridPayload.drop off).take payload.length == payload

/-- The offset that a frame is compared with: the one found before, or the one it calibrates. -/
def phaseOffsetFor (oracleSet : List OsgFile) (slotsPerFrame : UInt32) (state : CompareState)
    (desc : OiFrameDesc) (payload : List UInt8) : Option UInt32 :=
  if state.calibrated = true then some state.phaseOffset
  else
    calibratePhaseOffset desc.slotId.toUInt64 slotsPerFrame fun candidateFileIdx =>
      (oracleSet[candidateFileIdx.toNat]?).any (matchesSymbolSlice · desc.symbolId payload)

/-- One turn of the loop.  `none` is a read outside the frame or the set; an error is a failed
calibration, with the slot id and the symbol. -/
def compareFrame (oracleSet : List OsgFile) (slotsPerFrame : UInt32) (ruMac : RuMac)
    (udcomphdrBytes : UInt8) (state : CompareState) (frame : List UInt8) :
    Option (Except (UInt32 × UInt8) CompareState) := do
  if srcMacMatches frame ruMac = false then
    return .ok { state with nofNonRuSrc := state.nofNonRuSrc + 1 }
  let outcome ← oiOranPreparseFrame state.pstate frame frame.length udcomphdrBytes .zero
  let state := { state with pstate := outcome.state }
  if outcome.status ≠ .ok then
    return .ok { state with nofParseFailed := state.nofParseFailed + 1 }
  let desc := outcome.outDesc
  let state := { state with nofUplane := state.nofUplane + 1 }
  let payloadOff := desc.payloadByteOff.toNat
  let payloadLen := desc.nofPrbs.toNat * wireResPerPrb * wireBytesPerRe
  if payloadOff + payloadLen > frame.length then
    return .ok { state with nofParseFailed := state.nofParseFailed + 1 }
  let payload := (frame.drop payloadOff).take payloadLen
  match phaseOffsetFor oracleSet slotsPerFrame state desc payload with
  | none => return .error (desc.slotId, desc.symbolId)
  | some phaseOffset =>
      let f ← oracleSet[(fileIdxFor desc.slotId.toUInt64 phaseOffset slotsPerFrame).toNat]?
      return .ok
        { state with
          calibrated := true
          phaseOffset := phaseOffset
          nofMismatches := state.nofMismatches +
            if matchesSymbolSlice f desc.symbolId payload = true then 0 else 1 }

/-- The loop. -/
def compareFrames (oracleSet : List OsgFile) (slotsPerFrame : UInt32) (ruMac : RuMac)
    (udcomphdrBytes : UInt8) : CompareState → List (List UInt8) →
    Option (Except (UInt32 × UInt8) CompareState)
  | state, [] => some (.ok state)
  | state, frame :: frames => do
      match ← compareFrame oracleSet slotsPerFrame ruMac udcomphdrBytes state frame with
      | .error failed => return .error failed
      | .ok next => compareFrames oracleSet slotsPerFrame ruMac udcomphdrBytes next frames

/-- `main` of pcap_comparator.cpp, with the captured frames and the oracle files read. -/
def pcapComparator (oracleSet : List OsgFile) (slotsPerFrame : UInt32) (ruMac : RuMac)
    (udcomphdrBytes : UInt8) (frames : List (List UInt8)) : Option ComparatorResult :=
  if frames = [] then some .emptyCapture
  else
    (compareFrames oracleSet slotsPerFrame ruMac udcomphdrBytes .initial frames).map fun ended =>
      match ended with
      | .error (slotId, symbolId) => .calibrationFailed slotId symbolId
      | .ok state => .report frames.length state

/-! ### Captures -/

/-- The bytes of an accepted frame of the RU in front of its IQ samples, with the wire slot it
belongs to, counted from the first one captured. -/
structure SectionHeader (ruMac : RuMac) (udcomphdrBytes : UInt8) where
  slot : Nat
  ethHdrLen : Nat
  bytes : List UInt8
  accepts : Accepts bytes udcomphdrBytes.toNat ethHdrLen
  length_eq : bytes.length = ethHdrLen + 16 + udcomphdrBytes.toNat
  fromRu : srcMacMatches bytes ruMac = true

section Header

variable {ruMac : RuMac} {udcomphdrBytes : UInt8}

/-- The descriptor that the parser makes of it. -/
def SectionHeader.desc (header : SectionHeader ruMac udcomphdrBytes)
    (state : OiOranPreparseState) : OiFrameDesc :=
  headerDesc state .zero udcomphdrBytes header.bytes header.ethHdrLen

/-- The symbol it names. -/
def SectionHeader.symbol (header : SectionHeader ruMac udcomphdrBytes) : Nat :=
  byteVal header.bytes (header.ethHdrLen + 11) % 64

/-- The first PRB of the section. -/
def SectionHeader.startPrb (header : SectionHeader ruMac udcomphdrBytes) : Nat :=
  (header.desc .zero).startPrb.toNat

/-- The PRBs of the section. -/
def SectionHeader.nofPrbs (header : SectionHeader ruMac udcomphdrBytes) : Nat :=
  (header.desc .zero).nofPrbs.toNat

/-- The header as a frame on the wire. -/
def SectionHeader.toWireFrame (header : SectionHeader ruMac udcomphdrBytes) :
    WireFrame udcomphdrBytes where
  slot := header.slot
  symbol := header.symbol
  bytes := header.bytes
  accepted := ⟨header.ethHdrLen, header.accepts, rfl⟩

end Header

/-- A captured frame: one that the tool passes over, since another station sent it or the parser
refuses it, or a U-plane frame of the RU with all its samples. -/
inductive Captured (ruMac : RuMac) (udcomphdrBytes : UInt8) where
  | skipped (bytes : List UInt8)
      (ignored : srcMacMatches bytes ruMac = false ∨ isAccepted udcomphdrBytes bytes = false)
  | uplane (header : SectionHeader ruMac udcomphdrBytes) (payload trailer : List UInt8)
      (full : payload.length = header.nofPrbs * wireResPerPrb * wireBytesPerRe)

/-- The bytes of the frame. -/
def Captured.bytes {ruMac : RuMac} {udcomphdrBytes : UInt8} :
    Captured ruMac udcomphdrBytes → List UInt8
  | .skipped bytes _ => bytes
  | .uplane header payload trailer _ => header.bytes ++ (payload ++ trailer)

/-- The header and the samples of a U-plane frame. -/
def Captured.carried {ruMac : RuMac} {udcomphdrBytes : UInt8} :
    Captured ruMac udcomphdrBytes → Option (SectionHeader ruMac udcomphdrBytes × List UInt8)
  | .skipped _ _ => none
  | .uplane header payload _ _ => some (header, payload)

/-! ### One turn -/

section Turn

variable {ruMac : RuMac} {udcomphdrBytes : UInt8}
  {header : SectionHeader ruMac udcomphdrBytes}

theorem byteVal_append_left {front : List UInt8} (rest : List UInt8) {i : Nat}
    (inside : i < front.length) : byteVal (front ++ rest) i = byteVal front i := by
  rw [byteVal, byteVal, List.getD_eq_getElem?_getD, List.getElem?_append_left inside,
    ← List.getD_eq_getElem?_getD]

/-- What follows the headers does not decide whether the frame is accepted. -/
theorem SectionHeader.accepts_append (header : SectionHeader ruMac udcomphdrBytes)
    (rest : List UInt8) :
    Accepts (header.bytes ++ rest) udcomphdrBytes.toNat header.ethHdrLen := by
  have length := header.length_eq
  have ethernet := header.accepts.ethernet
  have long : 14 ≤ header.ethHdrLen := by
    simp only [EthHeader] at ethernet
    omega
  have read : ∀ i < header.ethHdrLen + 16,
      byteVal (header.bytes ++ rest) i = byteVal header.bytes i :=
    fun i small => byteVal_append_left rest (by omega)
  refine ⟨?_, ?_, ?_, ?_, ?_, ?_, ?_⟩
  · simp only [EthHeader, Tagged] at ethernet ⊢
    rw [read 12 (by omega), read 13 (by omega), read 16 (by omega), read 17 (by omega)]
    exact ethernet
  · rw [List.length_append]
    omega
  · rw [read _ (by omega)]
    exact header.accepts.revision
  · rw [read _ (by omega)]
    exact header.accepts.messageType
  · rw [read _ (by omega)]
    exact header.accepts.version
  · rw [read _ (by omega)]
    exact header.accepts.filterIndex
  · rw [read _ (by omega)]
    exact header.accepts.symbol

/-- The call on a frame with these headers. -/
theorem SectionHeader.preparse (header : SectionHeader ruMac udcomphdrBytes) (rest : List UInt8)
    (state : OiOranPreparseState) :
    oiOranPreparseFrame state (header.bytes ++ rest) (header.bytes ++ rest).length udcomphdrBytes
        .zero =
      some { status := .ok
             state := state.advance (UInt8.ofNat header.symbol)
             outDesc := header.desc state } := by
  have length := header.length_eq
  have read : ∀ i < header.ethHdrLen + 16,
      byteVal (header.bytes ++ rest) i = byteVal header.bytes i :=
    fun i small => byteVal_append_left rest (by omega)
  rw [oiOranPreparseFrame_of_accepts state .zero udcomphdrBytes (header.accepts_append rest)]
  have readHeader : ∀ i < 16, byteVal (header.bytes ++ rest) (header.ethHdrLen + i) =
      byteVal header.bytes (header.ethHdrLen + i) := fun i small => read _ (by omega)
  simp only [headerDesc, SectionHeader.desc, SectionHeader.symbol, readHeader 8 (by decide),
    readHeader 11 (by decide), readHeader 12 (by decide), readHeader 13 (by decide),
    readHeader 14 (by decide), readHeader 15 (by decide)]

theorem SectionHeader.srcMac_append (header : SectionHeader ruMac udcomphdrBytes)
    (rest : List UInt8) : srcMacMatches (header.bytes ++ rest) ruMac = true := by
  have long : 12 ≤ header.bytes.length := by
    by_contra short
    have fromRu := header.fromRu
    rw [srcMacMatches, if_pos (by omega)] at fromRu
    cases fromRu
  rw [← header.fromRu, srcMacMatches, srcMacMatches, if_neg (by simp; omega), if_neg (by omega),
    List.drop_append_of_le_length (by omega), List.take_append_of_le_length (by simp; omega)]

/-- The fields of the descriptor that the comparison uses. -/
theorem SectionHeader.describes (header : SectionHeader ruMac udcomphdrBytes)
    (dialect : udcomphdrBytes = 0 ∨ udcomphdrBytes = 2) (state : OiOranPreparseState) :
    Describes header.bytes udcomphdrBytes.toNat header.ethHdrLen state .zero (header.desc state) :=
  describes_headerDesc state .zero udcomphdrBytes dialect header.accepts

theorem SectionHeader.nofPrbs_pos (header : SectionHeader ruMac udcomphdrBytes)
    (dialect : udcomphdrBytes = 0 ∨ udcomphdrBytes = 2) : 0 < header.nofPrbs := by
  rw [SectionHeader.nofPrbs, (header.describes dialect .zero).nofPrbs]
  split
  · decide
  · omega

/-- A frame that is passed over leaves the parser, the calibration and the mismatches alone. -/
theorem compareFrame_of_ignored (oracleSet : List OsgFile) (slotsPerFrame : UInt32)
    (state : CompareState) {bytes : List UInt8}
    (ignored : srcMacMatches bytes ruMac = false ∨ isAccepted udcomphdrBytes bytes = false) :
    ∃ next, compareFrame oracleSet slotsPerFrame ruMac udcomphdrBytes state bytes =
        some (.ok next) ∧
      next.pstate = state.pstate ∧ next.calibrated = state.calibrated ∧
      next.phaseOffset = state.phaseOffset ∧ next.nofMismatches = state.nofMismatches := by
  by_cases foreign : srcMacMatches bytes ruMac = false
  · exact ⟨{ state with nofNonRuSrc := state.nofNonRuSrc + 1 },
      by simp [compareFrame, foreign], rfl, rfl, rfl, rfl⟩
  · have refused := ignored.resolve_left foreign
    obtain ⟨outcome, handled, effect⟩ := preparseCall_effect udcomphdrBytes state.pstate
      { frame := bytes, outDesc := .zero }
    cases effect with
    | accepted _ accepts _ _ _ =>
        rw [refused] at accepts
        cases accepts
    | rejected status _ sameState _ =>
        refine ⟨{ state with pstate := outcome.state, nofParseFailed := state.nofParseFailed + 1 },
          ?_, sameState, rfl, rfl, rfl⟩
        simp only [] at handled
        simp [compareFrame, foreign, handled, status]

/-- The state behind a U-plane frame that is compared with an offset. -/
def CompareState.compared (state : CompareState) (symbolId : UInt8) (phaseOffset : UInt32)
    (fits : Bool) : CompareState :=
  { state with
    pstate := state.pstate.advance symbolId
    nofUplane := state.nofUplane + 1
    calibrated := true
    phaseOffset := phaseOffset
    nofMismatches := state.nofMismatches + if fits = true then 0 else 1 }

/-- A U-plane frame with all its samples is compared with the file of its slot id. -/
theorem compareFrame_of_uplane (oracleSet : List OsgFile) (slotsPerFrame : UInt32)
    (state : CompareState) (dialect : udcomphdrBytes = 0 ∨ udcomphdrBytes = 2)
    {payload : List UInt8} (trailer : List UInt8)
    (full : payload.length = header.nofPrbs * wireResPerPrb * wireBytesPerRe) :
    compareFrame oracleSet slotsPerFrame ruMac udcomphdrBytes state
        (header.bytes ++ (payload ++ trailer)) =
      match phaseOffsetFor oracleSet slotsPerFrame state (header.desc state.pstate) payload with
      | none => some (.error ((header.desc state.pstate).slotId,
          (header.desc state.pstate).symbolId))
      | some phaseOffset =>
          (oracleSet[(fileIdxFor (header.desc state.pstate).slotId.toUInt64 phaseOffset
            slotsPerFrame).toNat]?).map fun f =>
              .ok (state.compared (UInt8.ofNat header.symbol) phaseOffset
                (matchesSymbolSlice f (header.desc state.pstate).symbolId payload)) := by
  have described := header.describes dialect state.pstate
  have offset : (header.desc state.pstate).payloadByteOff.toNat = header.bytes.length := by
    rw [described.payloadByteOff, header.length_eq]
  have length : (header.desc state.pstate).nofPrbs.toNat * wireResPerPrb * wireBytesPerRe =
      payload.length := full.symm
  have fits : ¬ header.bytes.length + payload.length >
      (header.bytes ++ (payload ++ trailer)).length := by
    rw [List.length_append, List.length_append]
    omega
  have slice : ((header.bytes ++ (payload ++ trailer)).drop header.bytes.length).take
      payload.length = payload := by
    rw [List.drop_left, List.take_left]
  rw [compareFrame, if_neg (by simp [header.srcMac_append])]
  simp only [header.preparse, Option.bind_eq_bind, Option.bind_some, ne_eq, not_true_eq_false,
    if_false, offset, length, if_neg fits, slice]
  have sameOffset : phaseOffsetFor oracleSet slotsPerFrame
      { state with
        pstate := state.pstate.advance (UInt8.ofNat header.symbol)
        nofUplane := state.nofUplane + 1 } (header.desc state.pstate) payload =
      phaseOffsetFor oracleSet slotsPerFrame state (header.desc state.pstate) payload := rfl
  rw [sameOffset]
  cases phaseOffsetFor oracleSet slotsPerFrame state (header.desc state.pstate) payload with
  | none => rfl
  | some phaseOffset =>
      simp only [CompareState.compared]
      cases oracleSet[(fileIdxFor (header.desc state.pstate).slotId.toUInt64 phaseOffset
        slotsPerFrame).toNat]? <;> rfl

end Turn

/-! ### Whole captures -/

section Captures

variable {ruMac : RuMac} {udcomphdrBytes : UInt8} {oracleSet : List OsgFile}
  {slotsPerFrame : UInt32}

/-- The sections of a capture. -/
def sectionsOf (capture : List (Captured ruMac udcomphdrBytes)) :
    List (SectionHeader ruMac udcomphdrBytes × List UInt8) :=
  capture.filterMap Captured.carried

/-- The slot ids that the parser gives to sections. -/
def sectionIds (state : OiOranPreparseState)
    (sections : List (SectionHeader ruMac udcomphdrBytes × List UInt8)) : List UInt32 :=
  slotIds state (sections.map fun carried => UInt8.ofNat carried.1.symbol)

/-- The section matches the file that the tool picks for its slot id. -/
def SectionMatchesAt (oracleSet : List OsgFile) (slotsPerFrame phaseOffset slotId : UInt32)
    (carried : SectionHeader ruMac udcomphdrBytes × List UInt8) : Prop :=
  ∃ f, oracleSet[(fileIdxFor slotId.toUInt64 phaseOffset slotsPerFrame).toNat]? = some f ∧
    matchesSymbolSlice f (UInt8.ofNat carried.1.symbol) carried.2 = true

/-- All sections match, under one offset. -/
def SectionsMatch (oracleSet : List OsgFile) (slotsPerFrame phaseOffset : UInt32)
    (state : OiOranPreparseState)
    (sections : List (SectionHeader ruMac udcomphdrBytes × List UInt8)) : Prop :=
  List.Forall₂ (SectionMatchesAt oracleSet slotsPerFrame phaseOffset) (sectionIds state sections)
    sections

/-- The calibration on a section. -/
def calibrateOn (oracleSet : List OsgFile) (slotsPerFrame : UInt32) (state : OiOranPreparseState)
    (carried : SectionHeader ruMac udcomphdrBytes × List UInt8) : Option UInt32 :=
  calibratePhaseOffset (carried.1.desc state).slotId.toUInt64 slotsPerFrame
    fun candidateFileIdx => (oracleSet[candidateFileIdx.toNat]?).any
      (matchesSymbolSlice · (carried.1.desc state).symbolId carried.2)

/-- The sections match under the offset that the first of them calibrates. -/
def SectionsCalibrate (oracleSet : List OsgFile) (slotsPerFrame : UInt32)
    (state : OiOranPreparseState) :
    List (SectionHeader ruMac udcomphdrBytes × List UInt8) → Prop
  | [] => True
  | first :: rest => ∃ phaseOffset,
      calibrateOn oracleSet slotsPerFrame state first = some phaseOffset ∧
        SectionsMatch oracleSet slotsPerFrame phaseOffset state (first :: rest)

/-- Every slot id picks a file of the set. -/
theorem exists_file (length : oracleSet.length = slotsPerFrame.toNat)
    (positive : 0 < slotsPerFrame.toNat) (slotId phaseOffset : UInt32) :
    ∃ f, oracleSet[(fileIdxFor slotId.toUInt64 phaseOffset slotsPerFrame).toNat]? = some f := by
  rw [toNat_fileIdxFor positive]
  have inside := Nat.mod_lt (slotId.toNat + phaseOffset.toNat) positive
  exact ⟨_, List.getElem?_eq_getElem (length ▸ inside)⟩

theorem sectionsMatch_cons {phaseOffset : UInt32} {state : OiOranPreparseState}
    {header : SectionHeader ruMac udcomphdrBytes} {payload : List UInt8}
    {rest : List (SectionHeader ruMac udcomphdrBytes × List UInt8)} :
    SectionsMatch oracleSet slotsPerFrame phaseOffset state ((header, payload) :: rest) ↔
      SectionMatchesAt oracleSet slotsPerFrame phaseOffset (header.desc state).slotId
          (header, payload) ∧
        SectionsMatch oracleSet slotsPerFrame phaseOffset
          (state.advance (UInt8.ofNat header.symbol)) rest :=
  List.forall₂_cons

/-- The loop from a state behind a compared frame. -/
theorem compared_verdict {phaseOffset : UInt32} {state : CompareState} {final : CompareState}
    {header : SectionHeader ruMac udcomphdrBytes} {payload : List UInt8} {f : OsgFile}
    {rest : List (SectionHeader ruMac udcomphdrBytes × List UInt8)}
    (found : oracleSet[(fileIdxFor (header.desc state.pstate).slotId.toUInt64 phaseOffset
      slotsPerFrame).toNat]? = some f)
    (verdict : final.nofMismatches = 0 ↔
      (state.compared (UInt8.ofNat header.symbol) phaseOffset
        (matchesSymbolSlice f (header.desc state.pstate).symbolId payload)).nofMismatches = 0 ∧
      SectionsMatch oracleSet slotsPerFrame phaseOffset
        (state.pstate.advance (UInt8.ofNat header.symbol)) rest) :
    final.nofMismatches = 0 ↔ state.nofMismatches = 0 ∧
      SectionsMatch oracleSet slotsPerFrame phaseOffset state.pstate
        ((header, payload) :: rest) := by
  have counted : (state.compared (UInt8.ofNat header.symbol) phaseOffset
      (matchesSymbolSlice f (header.desc state.pstate).symbolId payload)).nofMismatches = 0 ↔
      state.nofMismatches = 0 ∧
        matchesSymbolSlice f (header.desc state.pstate).symbolId payload = true := by
    rw [CompareState.compared, Nat.add_eq_zero_iff]
    simp
  have matched : SectionMatchesAt oracleSet slotsPerFrame phaseOffset
      (header.desc state.pstate).slotId (header, payload) ↔
      matchesSymbolSlice f (header.desc state.pstate).symbolId payload = true := by
    rw [SectionMatchesAt, found]
    simp only [Option.some.injEq, exists_eq_left']
    rfl
  rw [verdict, counted, sectionsMatch_cons, matched, and_assoc]

/-- A calibrated loop runs to its end and counts the sections that do not match. -/
theorem compareFrames_calibrated (dialect : udcomphdrBytes = 0 ∨ udcomphdrBytes = 2)
    (length : oracleSet.length = slotsPerFrame.toNat) (positive : 0 < slotsPerFrame.toNat)
    (capture : List (Captured ruMac udcomphdrBytes)) {state : CompareState}
    (calibrated : state.calibrated = true) :
    ∃ final, compareFrames oracleSet slotsPerFrame ruMac udcomphdrBytes state
        (capture.map Captured.bytes) = some (.ok final) ∧
      (final.nofMismatches = 0 ↔ state.nofMismatches = 0 ∧
        SectionsMatch oracleSet slotsPerFrame state.phaseOffset state.pstate
          (sectionsOf capture)) := by
  induction capture generalizing state with
  | nil => exact ⟨state, rfl, by simp [SectionsMatch, sectionsOf, sectionIds, slotIds]⟩
  | cons frame capture inductionHypothesis =>
      cases frame with
      | skipped bytes ignored =>
          obtain ⟨next, turn, pstate, stays, offset, mismatches⟩ :=
            compareFrame_of_ignored oracleSet slotsPerFrame state ignored
          obtain ⟨final, rest, verdict⟩ := inductionHypothesis (stays.trans calibrated)
          refine ⟨final, ?_, ?_⟩
          · simp only [List.map_cons, Captured.bytes, compareFrames, turn]
            exact rest
          · rw [verdict, pstate, offset, mismatches]
            rfl
      | uplane header payload trailer full =>
          obtain ⟨f, found⟩ := exists_file length positive (header.desc state.pstate).slotId
            state.phaseOffset
          have turn := compareFrame_of_uplane oracleSet slotsPerFrame state dialect trailer full
          rw [phaseOffsetFor, if_pos calibrated] at turn
          simp only [found, Option.map_some] at turn
          have stays : (state.compared (UInt8.ofNat header.symbol) state.phaseOffset
            (matchesSymbolSlice f (header.desc state.pstate).symbolId payload)).calibrated =
              true := rfl
          obtain ⟨final, rest, verdict⟩ := inductionHypothesis stays
          refine ⟨final, ?_, compared_verdict found verdict⟩
          simp only [List.map_cons, Captured.bytes, compareFrames, turn]
          exact rest

/-- The loop in front of its calibration. -/
theorem compareFrames_uncalibrated (dialect : udcomphdrBytes = 0 ∨ udcomphdrBytes = 2)
    (length : oracleSet.length = slotsPerFrame.toNat) (positive : 0 < slotsPerFrame.toNat)
    (capture : List (Captured ruMac udcomphdrBytes)) {state : CompareState}
    (uncalibrated : state.calibrated = false) :
    (∃ final, compareFrames oracleSet slotsPerFrame ruMac udcomphdrBytes state
        (capture.map Captured.bytes) = some (.ok final) ∧ final.nofMismatches = 0) ↔
      state.nofMismatches = 0 ∧
        SectionsCalibrate oracleSet slotsPerFrame state.pstate (sectionsOf capture) := by
  induction capture generalizing state with
  | nil =>
      simp [compareFrames, sectionsOf, SectionsCalibrate]
  | cons frame capture inductionHypothesis =>
      cases frame with
      | skipped bytes ignored =>
          obtain ⟨next, turn, pstate, stays, _, mismatches⟩ :=
            compareFrame_of_ignored oracleSet slotsPerFrame state ignored
          have rest := inductionHypothesis (stays.trans uncalibrated)
          rw [pstate, mismatches] at rest
          simp only [List.map_cons, Captured.bytes, compareFrames, turn]
          exact rest
      | uplane header payload trailer full =>
          have turn := compareFrame_of_uplane oracleSet slotsPerFrame state dialect trailer full
          have calibration : phaseOffsetFor oracleSet slotsPerFrame state
              (header.desc state.pstate) payload =
              calibrateOn oracleSet slotsPerFrame state.pstate (header, payload) :=
            if_neg (by simp [uncalibrated])
          rw [calibration] at turn
          have sections : sectionsOf (.uplane header payload trailer full :: capture) =
            (header, payload) :: sectionsOf capture := rfl
          rw [sections, SectionsCalibrate]
          cases offset : calibrateOn oracleSet slotsPerFrame state.pstate (header, payload) with
          | none =>
              rw [offset] at turn
              simp [Captured.bytes, compareFrames, turn]
          | some phaseOffset =>
              obtain ⟨f, found⟩ := exists_file length positive (header.desc state.pstate).slotId
                phaseOffset
              simp only [offset, found, Option.map_some] at turn
              have calibrated : (state.compared (UInt8.ofNat header.symbol) phaseOffset
                (matchesSymbolSlice f (header.desc state.pstate).symbolId payload)).calibrated =
                  true := rfl
              obtain ⟨final, rest, verdict⟩ :=
                compareFrames_calibrated dialect length positive capture calibrated
              have whole : compareFrames oracleSet slotsPerFrame ruMac udcomphdrBytes state
                  ((Captured.uplane header payload trailer full :: capture).map Captured.bytes) =
                  some (.ok final) := by
                simp only [List.map_cons, Captured.bytes, compareFrames, turn]
                exact rest
              simp only [whole, Option.some.injEq, Except.ok.injEq, exists_eq_left']
              exact compared_verdict found verdict

/-- The report counts no mismatch. -/
def ReportsZero (result : Option ComparatorResult) : Prop :=
  ∃ totalFrames counters, result = some (.report totalFrames counters) ∧
    counters.nofMismatches = 0

/-- The tool reports no mismatch exactly when all sections match under the offset that the first
of them calibrates. -/
theorem reportsZero_iff_calibrate (dialect : udcomphdrBytes = 0 ∨ udcomphdrBytes = 2)
    (length : oracleSet.length = slotsPerFrame.toNat) (positive : 0 < slotsPerFrame.toNat)
    {capture : List (Captured ruMac udcomphdrBytes)} (nonempty : capture ≠ []) :
    ReportsZero (pcapComparator oracleSet slotsPerFrame ruMac udcomphdrBytes
        (capture.map Captured.bytes)) ↔
      SectionsCalibrate oracleSet slotsPerFrame .zero (sectionsOf capture) := by
  have loop := compareFrames_uncalibrated dialect length positive capture
    (rfl : CompareState.initial.calibrated = false)
  have start : CompareState.initial.nofMismatches = 0 := rfl
  rw [start, eq_self_iff_true, true_and] at loop
  have filled : capture.map Captured.bytes ≠ [] := by simpa using nonempty
  rw [ReportsZero, pcapComparator, if_neg filled]
  refine Iff.trans ?_ loop
  constructor
  · rintro ⟨totalFrames, counters, reported, zero⟩
    obtain ⟨ended, run, result⟩ := Option.map_eq_some_iff.mp reported
    cases ended with
    | error failed => cases result
    | ok final =>
        cases result
        exact ⟨_, run, zero⟩
  · rintro ⟨final, run, zero⟩
    exact ⟨_, final, by rw [run]; rfl, zero⟩

end Captures

end RanInline.Osg
