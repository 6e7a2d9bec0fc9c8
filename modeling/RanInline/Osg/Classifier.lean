/-
Module: RanInline.Osg.Classifier
Purpose: The frame classifier of assert_ecpri.sh, and how its counts relate to the frames that
  pcap_comparator.cpp takes for U-plane frames of the RU in the same capture file.
Trusted boundary: none
Main exports: EcpriCounts, macStr, classifyFrame, classifyFrames, assertEcpri,
  comparator_uplane_frames_are_classified
-/
import RanInline.Osg.Comparator
import RanInline.Osg.Pcap

namespace RanInline.Osg

open RanInline.Lib RanInline.Oran RanInline.Ingest

/-! ### The classifier -/

/-- `counts`, `total_matched` and `vlan_tagged`. -/
structure EcpriCounts where
  cDl : Nat
  cUl : Nat
  uDl : Nat
  uUl : Nat
  totalMatched : Nat
  vlanTagged : Bool
deriving DecidableEq, Repr

/-- The counts in front of the loop. -/
def EcpriCounts.zero : EcpriCounts where
  cDl := 0
  cUl := 0
  uDl := 0
  uUl := 0
  totalMatched := 0
  vlanTagged := false

/-- `direction`. -/
inductive LinkDirection where
  | dl
  | ul
deriving DecidableEq, Repr

/-- A lower-case hexadecimal digit. -/
def hexDigit (n : Nat) : Char := Nat.digitChar n

/-- `mac_str`: two digits for each byte, with colons between them. -/
def macStr (b : List UInt8) : String :=
  ":".intercalate (b.map fun x => String.ofList [hexDigit (x.toNat / 16), hexDigit (x.toNat % 16)])

/-- The direction that the source address tells; the address of the DU is tried first. -/
def directionOf (duMacStr ruMacStr : String) (src : List UInt8) : Option LinkDirection :=
  if macStr src = duMacStr then some .dl
  else if macStr src = ruMacStr then some .ul
  else none

/-- The count of a frame whose direction is known. -/
def EcpriCounts.count (counts : EcpriCounts) (msgType : Nat) (direction : LinkDirection) :
    EcpriCounts :=
  let counts := { counts with totalMatched := counts.totalMatched + 1 }
  if msgType = 2 then
    match direction with
    | .dl => { counts with cDl := counts.cDl + 1 }
    | .ul => { counts with cUl := counts.cUl + 1 }
  else if msgType = 0 then
    match direction with
    | .dl => { counts with uDl := counts.uDl + 1 }
    | .ul => { counts with uUl := counts.uUl + 1 }
  else counts

/-- Whether an 802.1Q tag follows the addresses. -/
def isTagged (frame : List UInt8) : Bool := (frame.drop 12).take 2 == [0x81, 0x00]

/-- `ethertype_off`. -/
def ethertypeOff (frame : List UInt8) : Nat := if isTagged frame = true then 16 else 12

/-- One turn of the loop.  The addresses are the arguments in lower case. -/
def classifyFrame (duMacStr ruMacStr : String) (counts : EcpriCounts) (frame : List UInt8) :
    EcpriCounts :=
  if frame.length < 14 then counts
  else
    let counts := { counts with vlanTagged := counts.vlanTagged || isTagged frame }
    if ethertypeOff frame + 2 > frame.length ∨
        (frame.drop (ethertypeOff frame)).take 2 ≠ [0xae, 0xfe] then counts
    else if ethertypeOff frame + 2 + 2 > frame.length then counts
    else
      let msgType := byteVal frame (ethertypeOff frame + 2 + 1)
      match directionOf duMacStr ruMacStr ((frame.drop 6).take 6) with
      | none => counts
      | some direction => counts.count msgType direction

/-- The loop. -/
def classifyFrames (duMacStr ruMacStr : String) (counts : EcpriCounts)
    (frames : List (List UInt8)) : EcpriCounts :=
  frames.foldl (classifyFrame duMacStr ruMacStr) counts

/-- The counts of assert_ecpri.sh for a capture file. -/
def assertEcpri (duMacStr ruMacStr : String) (data : List UInt8) : EcpriCounts :=
  classifyFrames duMacStr ruMacStr .zero (classifierReadPcap data)

/-- The exit code for the counts. -/
def EcpriCounts.exitCode (counts : EcpriCounts) : Nat :=
  if counts.cDl > 0 ∧ counts.uDl > 0 ∧ counts.uUl > 0 then 0 else 1

/-! ### Frames of the RU that the parser accepts -/

/-- A frame that the comparator counts as U-plane. -/
def isRuUplane (ruMac : RuMac) (udcomphdrBytes : UInt8) (frame : List UInt8) : Bool :=
  srcMacMatches frame ruMac && isAccepted udcomphdrBytes frame

theorem accepts_of_isAccepted {udcomphdrBytes : UInt8} {frame : List UInt8}
    (accepted : isAccepted udcomphdrBytes frame = true) :
    ∃ hdr, Accepts frame udcomphdrBytes.toNat hdr := by
  rcases oiOranPreparseFrame_cases .zero .zero udcomphdrBytes frame with
    ⟨_, fresh⟩ | ⟨_, _, fresh⟩ | ⟨hdr, accepts, _⟩
  · simp [isAccepted, fresh] at accepted
  · simp [isAccepted, fresh] at accepted
  · exact ⟨hdr, accepts⟩

/-- Two bytes of a frame, as the classifier and as the grammar read them. -/
theorem take_two_eq_iff {frame : List UInt8} {off : Nat} (inside : off + 2 ≤ frame.length)
    (first second : UInt8) :
    (frame.drop off).take 2 = [first, second] ↔
      byteVal frame off = first.toNat ∧ byteVal frame (off + 1) = second.toNat := by
  have low : off < frame.length := by omega
  have high : off + 1 < frame.length := by omega
  rw [List.drop_eq_getElem_cons low, List.drop_eq_getElem_cons high]
  simp only [List.take_succ_cons, List.take_zero, List.cons.injEq, and_true, byteVal,
    List.getD_eq_getElem?_getD, List.getElem?_eq_getElem low, List.getElem?_eq_getElem high,
    Option.getD_some, UInt8.toNat_inj]

section Turn

variable {duMacStr : String} {ruMac : RuMac} {udcomphdrBytes : UInt8} {frame : List UInt8}

/-- The counts of U-plane frames of the RU never fall. -/
theorem classifyFrame_uUl_le (duMacStr ruMacStr : String) (counts : EcpriCounts)
    (frame : List UInt8) : counts.uUl ≤ (classifyFrame duMacStr ruMacStr counts frame).uUl := by
  simp only [classifyFrame]
  split_ifs
  · exact le_rfl
  · exact le_rfl
  · exact le_rfl
  · split
    · exact le_rfl
    · rename_i direction _
      cases direction <;> simp only [EcpriCounts.count] <;> split_ifs <;> simp

/-- The classifier finds the Ethernet type of an accepted frame in front of the eCPRI header. -/
theorem ethertype_of_accepts {hdr : Nat} (accepts : Accepts frame udcomphdrBytes.toNat hdr) :
    ethertypeOff frame + 2 = hdr ∧
      (frame.drop (ethertypeOff frame)).take 2 = [0xae, 0xfe] := by
  have complete := accepts.complete
  rcases accepts.ethernet with ⟨rfl, first, second⟩ | ⟨rfl, tag, first, second⟩
  · have untagged : isTagged frame = false := by
      rw [isTagged, beq_eq_false_iff_ne, Ne, take_two_eq_iff (by omega), first]
      simp
    have off : ethertypeOff frame = 12 := by rw [ethertypeOff, untagged, if_neg Bool.false_ne_true]
    rw [off]
    exact ⟨rfl, (take_two_eq_iff (by omega) 0xae 0xfe).mpr ⟨first, second⟩⟩
  · have tagged : isTagged frame = true := by
      rw [isTagged, beq_iff_eq, take_two_eq_iff (by omega)]
      exact tag
    have off : ethertypeOff frame = 16 := by rw [ethertypeOff, tagged, if_pos rfl]
    rw [off]
    exact ⟨rfl, (take_two_eq_iff (by omega) 0xae 0xfe).mpr ⟨first, second⟩⟩

/-- A frame that the comparator takes for U-plane is one that the classifier counts so. -/
theorem classifyFrame_of_isRuUplane (apart : macStr (List.ofFn ruMac) ≠ duMacStr)
    (uplane : isRuUplane ruMac udcomphdrBytes frame = true) (counts : EcpriCounts) :
    (classifyFrame duMacStr (macStr (List.ofFn ruMac)) counts frame).uUl = counts.uUl + 1 := by
  obtain ⟨source, accepted⟩ := (Bool.and_eq_true _ _).mp uplane
  obtain ⟨hdr, accepts⟩ := accepts_of_isAccepted accepted
  have complete := accepts.complete
  have src : (frame.drop 6).take 6 = List.ofFn ruMac := by
    rw [srcMacMatches] at source
    split_ifs at source
    exact beq_iff_eq.mp source
  have direction : directionOf duMacStr (macStr (List.ofFn ruMac)) (List.ofFn ruMac) =
      some .ul := by
    rw [directionOf, if_neg apart, if_pos rfl]
  have counted (counts : EcpriCounts) : (counts.count 0 .ul).uUl = counts.uUl + 1 := rfl
  obtain ⟨place, ethertype⟩ := ethertype_of_accepts accepts
  have messageType : byteVal frame (ethertypeOff frame + 2 + 1) = 0 := by
    rw [place]
    exact accepts.messageType
  have whole : ¬ (ethertypeOff frame + 2 > frame.length ∨
      (frame.drop (ethertypeOff frame)).take 2 ≠ [0xae, 0xfe]) := by
    rw [ethertype]
    simp only [ne_eq, not_true_eq_false, or_false]
    omega
  rw [classifyFrame, if_neg (by omega)]
  simp only [if_neg whole, if_neg (show ¬ ethertypeOff frame + 2 + 2 > frame.length by omega),
    src, direction, messageType, counted]

/-- The loop of the classifier counts every such frame. -/
theorem countP_isRuUplane_le (udcomphdrBytes : UInt8)
    (apart : macStr (List.ofFn ruMac) ≠ duMacStr) (frames : List (List UInt8))
    (counts : EcpriCounts) :
    counts.uUl + frames.countP (isRuUplane ruMac udcomphdrBytes) ≤
      (classifyFrames duMacStr (macStr (List.ofFn ruMac)) counts frames).uUl := by
  induction frames generalizing counts with
  | nil => exact le_rfl
  | cons frame frames inductionHypothesis =>
      have further := inductionHypothesis
        (classifyFrame duMacStr (macStr (List.ofFn ruMac)) counts frame)
      rw [classifyFrames, List.foldl_cons, ← classifyFrames, List.countP_cons]
      by_cases uplane : isRuUplane ruMac udcomphdrBytes frame = true
      · rw [classifyFrame_of_isRuUplane apart uplane] at further
        rw [if_pos uplane]
        omega
      · have kept := classifyFrame_uUl_le duMacStr (macStr (List.ofFn ruMac)) counts frame
        rw [if_neg uplane]
        omega

end Turn

/-! ### The comparator -/

section Comparator

variable {oracleSet : List OsgFile} {slotsPerFrame : UInt32} {ruMac : RuMac}
  {udcomphdrBytes : UInt8}

/-- One turn of the comparator counts the frames of the RU that the parser accepts, and calibrates
on no other. -/
theorem compareFrame_nofUplane {state next : CompareState} {frame : List UInt8}
    (turn : compareFrame oracleSet slotsPerFrame ruMac udcomphdrBytes state frame =
      some (.ok next)) :
    next.nofUplane = state.nofUplane +
        (if isRuUplane ruMac udcomphdrBytes frame = true then 1 else 0) ∧
      (next.calibrated = true → state.calibrated = true ∨
        isRuUplane ruMac udcomphdrBytes frame = true) := by
  obtain ⟨outcome, handled, effect⟩ := preparseCall_effect udcomphdrBytes state.pstate
    { frame := frame, outDesc := .zero }
  simp only [] at handled
  by_cases source : srcMacMatches frame ruMac = true
  · cases effect with
    | rejected status rejects _ _ =>
        simp only [] at rejects
        rw [compareFrame, if_neg (by simp [source])] at turn
        simp only [handled, Option.bind_eq_bind, Option.bind_some, ne_eq, status,
          not_false_eq_true, if_true, pure] at turn
        cases turn
        exact ⟨by simp [isRuUplane, rejects], Or.inl⟩
    | accepted status accepts _ _ _ =>
        simp only [] at accepts
        have uplane : isRuUplane ruMac udcomphdrBytes frame = true := by
          simp [isRuUplane, source, accepts]
        refine ⟨?_, fun _ => Or.inr uplane⟩
        rw [compareFrame, if_neg (by simp [source])] at turn
        simp only [handled, Option.bind_eq_bind, Option.bind_some, ne_eq, status,
          not_true_eq_false, if_false, pure] at turn
        rw [if_pos uplane]
        split_ifs at turn
        · cases turn
          rfl
        · split at turn
          · cases turn
          · obtain ⟨f, _, ended⟩ := Option.bind_eq_some_iff.mp turn
            cases ended
            rfl
  · rw [compareFrame, if_pos (by simpa using source)] at turn
    cases turn
    exact ⟨by simp [isRuUplane, source], Or.inl⟩

/-- The whole loop. -/
theorem compareFrames_nofUplane {state ended : CompareState} {frames : List (List UInt8)}
    (run : compareFrames oracleSet slotsPerFrame ruMac udcomphdrBytes state frames =
      some (.ok ended)) :
    ended.nofUplane = state.nofUplane + frames.countP (isRuUplane ruMac udcomphdrBytes) ∧
      (ended.calibrated = true → state.calibrated = true ∨
        0 < frames.countP (isRuUplane ruMac udcomphdrBytes)) := by
  induction frames generalizing state with
  | nil =>
      cases run
      exact ⟨rfl, Or.inl⟩
  | cons frame frames inductionHypothesis =>
      rw [compareFrames, Option.bind_eq_bind, Option.bind_eq_some_iff] at run
      obtain ⟨turn, handled, rest⟩ := run
      cases turn with
      | error failed => cases rest
      | ok next =>
          obtain ⟨counted, calibrates⟩ := compareFrame_nofUplane handled
          obtain ⟨behind, calibratesBehind⟩ := inductionHypothesis rest
          rw [List.countP_cons]
          refine ⟨by omega, fun calibrated => ?_⟩
          rcases calibratesBehind calibrated with earlier | later
          · rcases calibrates earlier with before | here
            · exact Or.inl before
            · rw [if_pos here]
              omega
          · omega

/-- A turn of the comparator counts the frame as U-plane. -/
def ComparatorCounts (oracleSet : List OsgFile) (slotsPerFrame : UInt32) (ruMac : RuMac)
    (udcomphdrBytes : UInt8) (before : CompareState) (frame : List UInt8) : Prop :=
  ∃ after, compareFrame oracleSet slotsPerFrame ruMac udcomphdrBytes before frame =
    some (.ok after) ∧ after.nofUplane = before.nofUplane + 1

/-- A turn of the classifier counts the frame as U-plane uplink. -/
def ClassifierCounts (duMacStr ruMacStr : String) (before : EcpriCounts) (frame : List UInt8) :
    Prop :=
  (classifyFrame duMacStr ruMacStr before frame).uUl = before.uUl + 1

/-- A frame that the comparator counts is one that the classifier counts, wherever both stand. -/
theorem classifierCounts_of_comparatorCounts {duMacStr : String} {before : CompareState}
    {frame : List UInt8} (apart : macStr (List.ofFn ruMac) ≠ duMacStr)
    (counts : ComparatorCounts oracleSet slotsPerFrame ruMac udcomphdrBytes before frame)
    (counters : EcpriCounts) :
    ClassifierCounts duMacStr (macStr (List.ofFn ruMac)) counters frame := by
  obtain ⟨after, turn, counted⟩ := counts
  have uplane : isRuUplane ruMac udcomphdrBytes frame = true := by
    by_contra other
    have same := (compareFrame_nofUplane turn).1
    rw [if_neg other] at same
    omega
  exact classifyFrame_of_isRuUplane apart uplane counters

end Comparator

/-- The frames of `read_pcap_all` are those of the classifier's reader. -/
theorem readPcapAll_snd (content : List UInt8) :
    (readPcapAll (some content)).2 = classifierReadPcap content := by
  by_cases long : 24 ≤ content.length
  · obtain ⟨records, rest, splits⟩ :=
      RecordFormat.exists_splits pcapFormat (content.drop 24)
    obtain ⟨_, comparator, classifier⟩ := pcap_readers_of_splits long splits
    rw [comparator, classifier]
  · have short : content.length < 24 := by omega
    rw [readPcapAll, readPcapWith, if_pos short, classifierReadPcap, if_pos short]

/-- On every capture file, every frame that pcap_comparator counts as a U-plane frame of the RU,
where its loop arrives at it, is counted by assert_ecpri as a U-plane uplink frame where its own
loop arrives at it.  Of a comparator that reports, all its U-plane frames are among those counted,
and one that exits with 0 leaves only the downlink counts for assert_ecpri to ask for. -/
theorem comparator_uplane_frames_are_classified (oracleSet : List OsgFile)
    (slotsPerFrame : UInt32) (ruMac : RuMac) (udcomphdrBytes : UInt8) (duMacStr : String)
    (apart : macStr (List.ofFn ruMac) ≠ duMacStr) (content : List UInt8) :
    (∀ front frame back, (readPcapAll (some content)).2 = front ++ frame :: back →
      ∀ before, compareFrames oracleSet slotsPerFrame ruMac udcomphdrBytes .initial front =
          some (.ok before) →
        ComparatorCounts oracleSet slotsPerFrame ruMac udcomphdrBytes before frame →
          classifierReadPcap content = front ++ frame :: back ∧
            ClassifierCounts duMacStr (macStr (List.ofFn ruMac))
              (classifyFrames duMacStr (macStr (List.ofFn ruMac)) .zero front) frame) ∧
    ∀ totalFrames counters, pcapComparator oracleSet slotsPerFrame ruMac udcomphdrBytes
        (readPcapAll (some content)).2 = some (.report totalFrames counters) →
      counters.nofUplane ≤ (assertEcpri duMacStr (macStr (List.ofFn ruMac)) content).uUl ∧
      ((ComparatorResult.report totalFrames counters).exitCode = 0 →
        ((assertEcpri duMacStr (macStr (List.ofFn ruMac)) content).exitCode = 0 ↔
          0 < (assertEcpri duMacStr (macStr (List.ofFn ruMac)) content).cDl ∧
            0 < (assertEcpri duMacStr (macStr (List.ofFn ruMac)) content).uDl)) := by
  refine ⟨fun front frame back split before _ counts => ?_,
    fun totalFrames counters reports => ?_⟩
  · rw [readPcapAll_snd] at split
    exact ⟨split, classifierCounts_of_comparatorCounts apart counts _⟩
  rw [readPcapAll_snd, pcapComparator] at reports
  by_cases empty : classifierReadPcap content = []
  · rw [if_pos empty] at reports
    cases reports
  rw [if_neg empty] at reports
  obtain ⟨ended, run, report⟩ := Option.map_eq_some_iff.mp reports
  cases ended with
  | error failed => cases report
  | ok state =>
      cases report
      obtain ⟨counted, calibrates⟩ := compareFrames_nofUplane run
      have classified := countP_isRuUplane_le udcomphdrBytes apart
        (classifierReadPcap content) .zero
      rw [← assertEcpri] at classified
      have fresh : CompareState.initial.nofUplane = 0 := rfl
      have zero : EcpriCounts.zero.uUl = 0 := rfl
      refine ⟨by omega, fun exits => ?_⟩
      rw [ComparatorResult.exitCode] at exits
      split_ifs at exits with clean
      have some := (calibrates clean.2).resolve_left (by decide)
      have positive : 0 < (assertEcpri duMacStr (macStr (List.ofFn ruMac)) content).uUl := by
        omega
      rw [EcpriCounts.exitCode]
      split_ifs with all
      · exact ⟨fun _ => ⟨all.1, all.2.1⟩, fun _ => rfl⟩
      · exact ⟨fun impossible => impossible.elim,
          fun downlink => absurd ⟨downlink.1, downlink.2, positive⟩ all⟩

/-- The RU of the fronthaul plan. -/
def planRuMac : RuMac := fun i => [0x02, 0x6f, 0x69, 0x00, 0x01, 0x01].getD i.val 0

/-- A frame of the RU with one PRB, its samples 0. -/
def onePrbFrame : List UInt8 :=
  List.replicate 6 0 ++ [0x02, 0x6f, 0x69, 0x00, 0x01, 0x01, 0xae, 0xfe, 0x10, 0x00] ++
    List.replicate 6 0 ++ [0x10, 0, 0, 0, 0, 0, 0, 1] ++ List.replicate 48 0

/-- A grid file of one PRB with the same samples. -/
def onePrbFile : OsgFile where
  formatVersion := 1
  iqFormat := 0
  numerologyMu := 1
  nofPrb := 1
  nofSymbolsPerSlot := 14
  nofEaxc := 1
  eaxcId := 1
  tbLenBytes := 0
  tbCrcOk := 1
  rnti := 17921
  harqId := 0
  mcsIndex := 4
  gridPayload := List.replicate 672 0
  tbPayload := []

theorem comparator_uplane_frames_are_classified_one_prb :
    ∃ content totalFrames counters,
      pcapComparator [onePrbFile] 1 planRuMac 0 (readPcapAll (some content)).2 =
          some (.report totalFrames counters) ∧
        counters.nofUplane = 1 ∧
        counters.nofUplane ≤
          (assertEcpri "02:6f:69:00:01:02" (macStr (List.ofFn planRuMac)) content).uUl ∧
        ClassifierCounts "02:6f:69:00:01:02" (macStr (List.ofFn planRuMac)) .zero onePrbFrame := by
  have read := readPcapAll_writePcap [onePrbFrame] (by decide)
  have reports : pcapComparator [onePrbFile] 1 planRuMac 0
      (readPcapAll (some (writePcap [onePrbFrame]))).2 =
      some (.report 1
        { CompareState.initial with
          pstate := OiOranPreparseState.zero.advance 0
          nofUplane := 1
          calibrated := true }) := by
    rw [read]
    decide +kernel
  have counts : ComparatorCounts [onePrbFile] 1 planRuMac 0 .initial onePrbFrame :=
    ⟨{ CompareState.initial with
        pstate := OiOranPreparseState.zero.advance 0
        nofUplane := 1
        calibrated := true }, by decide +kernel, rfl⟩
  obtain ⟨each, reported⟩ := comparator_uplane_frames_are_classified [onePrbFile] 1 planRuMac 0
    "02:6f:69:00:01:02" (by decide) (writePcap [onePrbFrame])
  exact ⟨_, _, _, reports, rfl, (reported _ _ reports).1,
    (each [] onePrbFrame [] (by rw [read]; rfl) .initial rfl counts).2⟩

end RanInline.Osg
