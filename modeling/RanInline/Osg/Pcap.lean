/-
Module: RanInline.Osg.Pcap
Purpose: Capture files: `write_pcap` of the generators, and the three readers of such files, of
  pipeline_runner.cpp, pcap_comparator.cpp and assert_ecpri.sh, on every file.
Trusted boundary: none
Main exports: writePcap, readPcap, readPcapAll, classifierReadPcap, pcapFormat,
  pcap_readers_on_every_cut, pcap_readers_on_every_file
-/
import Mathlib.Algebra.Order.BigOperators.Group.List
import Mathlib.Order.Lattice.Nat
import RanInline.Lib.ByteRegion
import RanInline.Lib.RecordStream

namespace RanInline.Osg

open RanInline.Lib

/-! ### The writer -/

/-- The fields in front of the records: magic, versions, time zone, accuracy, snap length and link
type. -/
def pcapGlobalHeader : List UInt8 :=
  encodeFields [(4, 0xa1b2c3d4), (2, 2), (2, 4), (4, 0), (4, 0), (4, 65535), (4, 1)]

/-- The fields in front of frame `i`: a time stamp that is its index, and its length twice, each
cast to 32 bits. -/
def pcapRecordHeader (i : Nat) (frame : List UInt8) : List UInt8 :=
  encodeFields [(4, 0), (4, i), (4, frame.length), (4, frame.length)]

/-- The records from index `i` on. -/
def writePcapFrom (i : Nat) : List (List UInt8) → List UInt8
  | [] => []
  | frame :: frames => pcapRecordHeader i frame ++ frame ++ writePcapFrom (i + 1) frames

/-- `write_pcap`: the bytes of the file. -/
def writePcap (frames : List (List UInt8)) : List UInt8 :=
  pcapGlobalHeader ++ writePcapFrom 0 frames

/-! ### The readers -/

/-- The loop of the two C++ readers over the bytes behind the read position.  A header that is cut
off ends it as the end of the file does; `onShortBody` is what the function returns when a body is
cut off. -/
def readPcapRecords (onShortBody : Bool) (rest : List UInt8) (outFrames : List (List UInt8)) :
    Bool × List (List UInt8) :=
  if rest.length < 16 then (true, outFrames)
  else
    let inclLen := fieldAt rest 8 4
    if (rest.drop 16).length < inclLen then (onShortBody, outFrames)
    else
      readPcapRecords onShortBody ((rest.drop 16).drop inclLen)
        (outFrames ++ [(rest.drop 16).take inclLen])
termination_by rest.length
decreasing_by
  simp only [List.length_drop]
  omega

/-- A C++ reader: the result and the frames it appended to an empty vector.  `none` is a file that
cannot be opened. -/
def readPcapWith (onShortBody : Bool) (file : Option (List UInt8)) : Bool × List (List UInt8) :=
  match file with
  | none => (false, [])
  | some content =>
      if content.length < 24 then (false, [])
      else readPcapRecords onShortBody (content.drop 24) []

/-- `read_pcap` of pipeline_runner.cpp. -/
def readPcap : Option (List UInt8) → Bool × List (List UInt8) := readPcapWith false

/-- `read_pcap_all` of pcap_comparator.cpp. -/
def readPcapAll : Option (List UInt8) → Bool × List (List UInt8) := readPcapWith true

/-- The loop of `read_pcap` of assert_ecpri.sh, on offsets into the whole file. -/
def classifierReadRecords (data : List UInt8) (off : Nat) (frames : List (List UInt8)) :
    List (List UInt8) :=
  if off + 16 ≤ data.length then
    let inclLen := fieldAt data (off + 8) 4
    if off + 16 + inclLen > data.length then frames
    else
      classifierReadRecords data (off + 16 + inclLen)
        (frames ++ [(data.drop (off + 16)).take inclLen])
  else frames
termination_by data.length - off

/-- `read_pcap` of assert_ecpri.sh. -/
def classifierReadPcap (data : List UInt8) : List (List UInt8) :=
  if data.length < 24 then [] else classifierReadRecords data 24 []

/-! ### Records -/

/-- The records of a capture file. -/
def pcapFormat : RecordFormat UInt8 where
  headerLength := 16
  headerLength_pos := Nat.succ_pos 15
  bodyLength := fun header => fieldAt header 8 4

/-- The body length is read from the header, whatever follows. -/
theorem pcapFormat_bodyLength_take {rest : List UInt8} (long : 16 ≤ rest.length) :
    pcapFormat.bodyLength (rest.take pcapFormat.headerLength) = fieldAt rest 8 4 := by
  have header : (rest.take 16).length = 16 := by
    rw [List.length_take]
    omega
  have front : fieldAt (rest.take 16 ++ rest.drop 16) 8 4 = fieldAt (rest.take 16) 8 4 :=
    fieldAt_append_left (by omega)
  rw [List.take_append_drop] at front
  exact front.symm

/-- A rest with a whole header is unfinished when its body is. -/
theorem pcapFormat_unfinished_iff {rest : List UInt8} (long : 16 ≤ rest.length) :
    pcapFormat.Unfinished rest ↔ (rest.drop 16).length < fieldAt rest 8 4 := by
  have header : pcapFormat.headerLength = 16 := rfl
  rw [RecordFormat.Unfinished, pcapFormat_bodyLength_take long, header, List.length_drop]
  omega

section Reading

variable {content rest : List UInt8} {records : List (List UInt8 × List UInt8)}
  {record : List UInt8 × List UInt8}

/-- What the readers compute of a stream with a record in front. -/
theorem record_in_front (whole : pcapFormat.IsRecord record) (behind : List UInt8) :
    ¬ (record.1 ++ record.2 ++ behind).length < 16 ∧
      fieldAt (record.1 ++ record.2 ++ behind) 8 4 = record.2.length ∧
      (record.1 ++ record.2 ++ behind).drop 16 = record.2 ++ behind := by
  have header : record.1.length = 16 := whole.header
  have body : record.2.length = fieldAt record.1 8 4 := whole.body
  refine ⟨?_, ?_, ?_⟩
  · simp only [List.length_append]
    omega
  · rw [List.append_assoc, fieldAt_append_left (by omega), body]
  · rw [List.append_assoc, ← header, List.drop_left]

/-- The C++ loop on a stream that splits. -/
theorem readPcapRecords_of_splits (onShortBody : Bool)
    (splits : pcapFormat.Splits content records rest) (outFrames : List (List UInt8)) :
    readPcapRecords onShortBody content outFrames =
      (if rest.length < 16 then true else onShortBody, outFrames ++ records.map Prod.snd) := by
  induction records generalizing content outFrames with
  | nil =>
      obtain rfl : content = rest := splits.content_eq
      rw [readPcapRecords, List.map_nil, List.append_nil]
      by_cases short : content.length < 16
      · rw [if_pos short, if_pos short]
      · have cut := (pcapFormat_unfinished_iff (Nat.not_lt.mp short)).mp splits.unfinished
        simp only [if_neg short, if_pos cut]
  | cons record records inductionHypothesis =>
      have equation := splits.content_eq
      rw [RecordFormat.joined_cons, List.append_assoc _ _ rest] at equation
      subst equation
      obtain ⟨long, length, behind⟩ :=
        record_in_front (splits.whole record List.mem_cons_self)
          (RecordFormat.joined records ++ rest)
      have enough : ¬ (record.2 ++ (RecordFormat.joined records ++ rest)).length <
          record.2.length := by
        rw [List.length_append]
        omega
      have further := inductionHypothesis
        ⟨fun r member => splits.whole r (List.mem_cons_of_mem _ member), splits.unfinished, rfl⟩
        (outFrames ++ [record.2])
      rw [readPcapRecords, if_neg long]
      simp only [length, behind, if_neg enough, List.drop_left, List.take_left, further]
      rw [List.append_assoc, List.map_cons, List.singleton_append]

/-- The loop on offsets does the same behind any front. -/
theorem classifierReadRecords_of_splits (front : List UInt8)
    (splits : pcapFormat.Splits content records rest) (frames : List (List UInt8)) :
    classifierReadRecords (front ++ content) front.length frames =
      frames ++ records.map Prod.snd := by
  have field (tail : List UInt8) :
      fieldAt (front ++ tail) (front.length + 8) 4 = fieldAt tail 8 4 :=
    fieldAt_append_right front tail 8 4
  induction records generalizing front content frames with
  | nil =>
      obtain rfl : content = rest := splits.content_eq
      rw [classifierReadRecords, List.map_nil, List.append_nil]
      by_cases short : content.length < 16
      · rw [if_neg (by rw [List.length_append]; omega)]
      · have cut := (pcapFormat_unfinished_iff (Nat.not_lt.mp short)).mp splits.unfinished
        rw [List.length_drop] at cut
        rw [if_pos (by rw [List.length_append]; omega), field]
        exact if_pos (by rw [List.length_append]; omega)
  | cons record records inductionHypothesis =>
      have equation := splits.content_eq
      rw [RecordFormat.joined_cons, List.append_assoc _ _ rest] at equation
      subst equation
      have whole := splits.whole record List.mem_cons_self
      have header : record.1.length = 16 := whole.header
      obtain ⟨long, length, behind⟩ := record_in_front whole (RecordFormat.joined records ++ rest)
      have further := inductionHypothesis (front ++ (record.1 ++ record.2))
        ⟨fun r member => splits.whole r (List.mem_cons_of_mem _ member), splits.unfinished, rfl⟩
        (frames ++ [record.2]) (fun tail => fieldAt_append_right _ tail 8 4)
      have place : front.length + 16 + record.2.length =
          (front ++ (record.1 ++ record.2)).length := by
        simp only [List.length_append]
        omega
      have body : ((front ++ (record.1 ++ record.2 ++ (RecordFormat.joined records ++ rest))).drop
          (front.length + 16)).take record.2.length = record.2 := by
        rw [List.drop_append, List.drop_of_length_le (by omega), List.nil_append,
          Nat.add_sub_cancel_left, behind, List.take_left]
      have inside : ¬ front.length + 16 + record.2.length >
          (front ++ (record.1 ++ record.2 ++ (RecordFormat.joined records ++ rest))).length := by
        simp only [List.length_append]
        omega
      rw [classifierReadRecords, if_pos (by rw [List.length_append]; omega)]
      simp only [field, length, if_neg inside, body]
      rw [place, ← List.append_assoc front, further, List.append_assoc, List.map_cons,
        List.singleton_append]

/-- The three readers on a file whose records are known. -/
theorem pcap_readers_of_splits (long : 24 ≤ content.length)
    (splits : pcapFormat.Splits (content.drop 24) records rest) :
    readPcap (some content) = (decide (rest.length < 16), records.map Prod.snd) ∧
      readPcapAll (some content) = (true, records.map Prod.snd) ∧
      classifierReadPcap content = records.map Prod.snd := by
  have header : ¬ content.length < 24 := Nat.not_lt.mpr long
  refine ⟨?_, ?_, ?_⟩
  · rw [readPcap, readPcapWith, if_neg header, readPcapRecords_of_splits false splits]
    by_cases short : rest.length < 16 <;> simp [short]
  · rw [readPcapAll, readPcapWith, if_neg header, readPcapRecords_of_splits true splits]
    simp
  · have front : (content.take 24).length = 24 := by
      rw [List.length_take]
      omega
    have read := classifierReadRecords_of_splits (content.take 24) splits []
    rw [List.take_append_drop, front, List.nil_append] at read
    rw [classifierReadPcap, if_neg header, read]

end Reading

/-! ### Files that were written -/

/-- The records that the writer makes of frames. -/
def pcapRecords (i : Nat) (frames : List (List UInt8)) : List (List UInt8 × List UInt8) :=
  (frames.zipIdx i).map fun entry => (pcapRecordHeader entry.2 entry.1, entry.1)

@[simp]
theorem length_pcapGlobalHeader : pcapGlobalHeader.length = 24 := by
  simp [pcapGlobalHeader, length_encodeFields]

@[simp]
theorem length_pcapRecordHeader (i : Nat) (frame : List UInt8) :
    (pcapRecordHeader i frame).length = 16 := by
  simp [pcapRecordHeader, length_encodeFields]

theorem writePcapFrom_eq_joined (i : Nat) (frames : List (List UInt8)) :
    writePcapFrom i frames = RecordFormat.joined (pcapRecords i frames) := by
  induction frames generalizing i with
  | nil => rfl
  | cons frame frames inductionHypothesis =>
      rw [writePcapFrom, inductionHypothesis (i + 1), pcapRecords, pcapRecords, List.zipIdx_cons,
        List.map_cons, RecordFormat.joined_cons]

theorem pcapRecords_take (i k : Nat) (frames : List (List UInt8)) :
    (pcapRecords i frames).take k = pcapRecords i (frames.take k) := by
  induction frames generalizing i k with
  | nil => simp [pcapRecords]
  | cons frame frames inductionHypothesis =>
      cases k with
      | zero => rfl
      | succ k =>
          rw [List.take_succ_cons]
          simp only [pcapRecords, List.zipIdx_cons, List.map_cons, List.take_succ_cons]
          exact congrArg (_ :: ·) (inductionHypothesis (i + 1) k)

theorem map_snd_pcapRecords (i : Nat) (frames : List (List UInt8)) :
    (pcapRecords i frames).map Prod.snd = frames := by
  rw [pcapRecords, List.map_map]
  exact List.zipIdx_map_fst i frames

/-- A frame whose length fits its field makes a record. -/
theorem isRecord_pcapRecords {i : Nat} {frames : List (List UInt8)}
    (small : ∀ frame ∈ frames, frame.length < 2 ^ 32) :
    ∀ record ∈ pcapRecords i frames, pcapFormat.IsRecord record := by
  intro record member
  obtain ⟨entry, found, rfl⟩ := List.mem_map.mp member
  have fits : entry.1.length < 256 ^ 4 := small _ (List.fst_mem_of_mem_zipIdx found)
  have third : [(4, 0), (4, entry.2), (4, entry.1.length), (4, entry.1.length)][2]? =
      some (4, entry.1.length) := rfl
  have field := fieldAt_encodeFields third rfl []
  rw [List.append_nil, Nat.mod_eq_of_lt fits] at field
  exact ⟨length_pcapRecordHeader _ _, field.symm⟩

theorem length_writePcap (frames : List (List UInt8)) :
    (writePcap frames).length = 24 + (RecordFormat.joined (pcapRecords 0 frames)).length := by
  rw [writePcap, List.length_append, length_pcapGlobalHeader, writePcapFrom_eq_joined]

/-- The file of the first frames is a part of the file. -/
theorem length_writePcap_take_le (frames : List (List UInt8)) (k : Nat) :
    (writePcap (frames.take k)).length ≤ (writePcap frames).length := by
  have split := congrArg RecordFormat.joined
    (List.take_append_drop k (pcapRecords 0 frames))
  rw [RecordFormat.joined_append, pcapRecords_take] at split
  rw [length_writePcap, length_writePcap, ← split, List.length_append]
  omega

/-- A written file that is cut off behind its global header. -/
theorem splits_writePcap_take {frames : List (List UInt8)}
    (small : ∀ frame ∈ frames, frame.length < 2 ^ 32) {n k : Nat} (long : 24 ≤ n)
    (greatest : IsGreatest {k | k ≤ frames.length ∧ (writePcap (frames.take k)).length ≤ n} k) :
    pcapFormat.Splits (((writePcap frames).take n).drop 24) (pcapRecords 0 (frames.take k))
      (((writePcap frames).take n).drop (writePcap (frames.take k)).length) := by
  have same : {k | k ≤ frames.length ∧ (writePcap (frames.take k)).length ≤ n} =
      {k | k ≤ (pcapRecords 0 frames).length ∧
        (RecordFormat.joined ((pcapRecords 0 frames).take k)).length ≤ n - 24} := by
    ext k
    simp only [Set.mem_ofPred_eq, length_writePcap, pcapRecords_take]
    simp only [pcapRecords, List.length_map, List.length_zipIdx]
    omega
  have cut := RecordFormat.Splits.cut (isRecord_pcapRecords (i := 0) small) (same ▸ greatest)
  have body : ((writePcap frames).take n).drop 24 =
      (RecordFormat.joined (pcapRecords 0 frames)).take (n - 24) := by
    rw [List.drop_take, writePcap, ← length_pcapGlobalHeader, List.drop_left,
      writePcapFrom_eq_joined]
  rw [length_writePcap, ← List.drop_drop, body, ← pcapRecords_take]
  exact cut

/-- A file that was written is read back. -/
theorem readPcapAll_writePcap (frames : List (List UInt8))
    (small : ∀ frame ∈ frames, frame.length < 2 ^ 32) :
    readPcapAll (some (writePcap frames)) = (true, frames) := by
  have body : (writePcap frames).drop 24 = RecordFormat.joined (pcapRecords 0 frames) ++ [] := by
    rw [writePcap, ← length_pcapGlobalHeader, List.drop_left, writePcapFrom_eq_joined,
      List.append_nil]
  obtain ⟨_, comparator, _⟩ := pcap_readers_of_splits (by rw [length_writePcap]; omega)
    ⟨isRecord_pcapRecords (i := 0) small, RecordFormat.unfinished_nil, body⟩
  rw [comparator, map_snd_pcapRecords]

/-- A capture file that was written and then cut off at any byte.  Each reader finds the frames
whose records lie in front of the cut; pipeline_runner's refuses the file when the cut is inside a
frame. -/
theorem pcap_readers_on_every_cut (frames : List (List UInt8))
    (small : ∀ frame ∈ frames, frame.length < 2 ^ 32) (n : Nat) :
    (n < 24 → readPcap (some ((writePcap frames).take n)) = (false, []) ∧
        readPcapAll (some ((writePcap frames).take n)) = (false, []) ∧
        classifierReadPcap ((writePcap frames).take n) = []) ∧
      (24 ≤ n → ∃ k,
        IsGreatest {k | k ≤ frames.length ∧ (writePcap (frames.take k)).length ≤ n} k ∧
          readPcap (some ((writePcap frames).take n)) =
            (decide (k = frames.length ∨ n < (writePcap (frames.take k)).length + 16),
              frames.take k) ∧
          readPcapAll (some ((writePcap frames).take n)) = (true, frames.take k) ∧
          classifierReadPcap ((writePcap frames).take n) = frames.take k) := by
  constructor
  · intro short
    have cut : ((writePcap frames).take n).length < 24 :=
      lt_of_le_of_lt (List.length_take_le n _) short
    refine ⟨?_, ?_, ?_⟩
    · rw [readPcap, readPcapWith, if_pos cut]
    · rw [readPcapAll, readPcapWith, if_pos cut]
    · rw [classifierReadPcap, if_pos cut]
  · intro long
    let written := {k | k ≤ frames.length ∧ (writePcap (frames.take k)).length ≤ n}
    have bounded : BddAbove written := ⟨frames.length, fun k member => member.1⟩
    have inhabited : written.Nonempty := ⟨0, Nat.zero_le _, by
      rw [length_writePcap]
      simpa [pcapRecords] using long⟩
    have greatest : IsGreatest written (sSup written) :=
      ⟨Nat.sSup_mem inhabited bounded, fun k member => le_csSup bounded member⟩
    generalize sSup written = k at greatest
    obtain ⟨inside, reached⟩ := greatest.1
    have header : 24 ≤ (writePcap frames).length := by
      rw [length_writePcap]
      omega
    have cutHeader : 24 ≤ ((writePcap frames).take n).length := by
      rw [List.length_take]
      omega
    obtain ⟨runner, comparator, classifier⟩ := pcap_readers_of_splits cutHeader
      (splits_writePcap_take small long greatest)
    rw [map_snd_pcapRecords] at runner comparator classifier
    refine ⟨k, greatest, ?_, comparator, classifier⟩
    -- The rest behind the whole records ends at the cut, or with the file.
    rw [runner]
    refine Prod.ext (decide_eq_decide.mpr ?_) rfl
    rw [List.length_drop, List.length_take]
    by_cases last : k = frames.length
    · have whole : (writePcap (frames.take k)).length = (writePcap frames).length := by
        rw [last, List.take_length]
      omega
    · have passed : n < (writePcap (frames.take (k + 1))).length := by
        by_contra reachable
        have above : k + 1 ≤ k := greatest.2 ⟨by omega, by omega⟩
        omega
      have inFile := length_writePcap_take_le frames (k + 1)
      omega

theorem pcap_readers_on_every_cut_two_frames :
    (∀ frame ∈ [[1, 2, 3], [4]], (frame : List UInt8).length < 2 ^ 32) ∧
      ∃ k, IsGreatest {k | k ≤ 2 ∧ (writePcap (([[1, 2, 3], [4]] : List (List UInt8)).take k)).length
          ≤ 59} k ∧
        readPcap (some ((writePcap [[1, 2, 3], [4]]).take 59)) =
          (decide (k = 2 ∨
            59 < (writePcap (([[1, 2, 3], [4]] : List (List UInt8)).take k)).length + 16),
            [[1, 2, 3], [4]].take k) ∧
        readPcapAll (some ((writePcap [[1, 2, 3], [4]]).take 59)) =
          (true, [[1, 2, 3], [4]].take k) ∧
        classifierReadPcap ((writePcap [[1, 2, 3], [4]]).take 59) = [[1, 2, 3], [4]].take k :=
  ⟨by decide, (pcap_readers_on_every_cut [[1, 2, 3], [4]] (by decide) 59).2 (by decide)⟩

/-! ### Arbitrary files -/

/-- The bytes of a file up to the end of these frames. -/
def pcapConsumed (frames : List (List UInt8)) : Nat :=
  24 + (frames.map fun frame => 16 + frame.length).sum

theorem length_joined_of_whole {records : List (List UInt8 × List UInt8)}
    (whole : ∀ record ∈ records, pcapFormat.IsRecord record) :
    24 + (RecordFormat.joined records).length = pcapConsumed (records.map Prod.snd) := by
  rw [pcapConsumed, RecordFormat.joined, List.length_flatMap, List.map_map]
  congr 2
  refine List.map_congr_left fun record member => ?_
  have header : record.1.length = 16 := (whole record member).header
  rw [List.length_append, header, Function.comp_apply]

/-- The file behind the first records. -/
theorem drop_pcapConsumed {content rest : List UInt8} {records : List (List UInt8 × List UInt8)}
    (splits : pcapFormat.Splits (content.drop 24) records rest) (k : Nat) :
    content.drop (pcapConsumed ((records.map Prod.snd).take k)) =
      RecordFormat.joined (records.drop k) ++ rest := by
  have whole : ∀ record ∈ records.take k, pcapFormat.IsRecord record :=
    fun record member => splits.whole record (List.mem_of_mem_take member)
  have split : content.drop 24 = RecordFormat.joined (records.take k) ++
      (RecordFormat.joined (records.drop k) ++ rest) := by
    rw [← List.append_assoc, ← RecordFormat.joined_append, List.take_append_drop,
      ← splits.content_eq]
  rw [← List.map_take, ← length_joined_of_whole whole, ← List.drop_drop, split, List.drop_left]

/-- A frame that is read has the length that its header names, in 32 bits. -/
theorem length_lt_of_mem_readPcap {file : Option (List UInt8)} {frame : List UInt8}
    (member : frame ∈ (readPcap file).2) : frame.length < 2 ^ 32 := by
  cases file with
  | none => cases member
  | some content =>
      by_cases long : 24 ≤ content.length
      · obtain ⟨records, rest, splits⟩ :=
          RecordFormat.exists_splits pcapFormat (content.drop 24)
        obtain ⟨runner, _, _⟩ := pcap_readers_of_splits long splits
        rw [runner] at member
        obtain ⟨record, found, rfl⟩ := List.mem_map.mp member
        rw [(splits.whole record found).body]
        exact fieldAt_lt record.1 8 4
      · rw [readPcap, readPcapWith, if_pos (by omega)] at member
        cases member

/-- On every file with a global header the three readers find the same frames, and each frame
is the bytes of the file behind the record header at its place.  pipeline_runner's reader refuses
the file when more than a part of a record header is left behind the last frame. -/
theorem pcap_readers_on_every_file (content : List UInt8) (long : 24 ≤ content.length) :
    ∃ frames, readPcap (some content) =
          (decide (content.length < pcapConsumed frames + 16), frames) ∧
        readPcapAll (some content) = (true, frames) ∧
        classifierReadPcap content = frames ∧
        pcapConsumed frames ≤ content.length ∧
        ∀ k (inside : k < frames.length),
          frames[k] = (content.drop (pcapConsumed (frames.take k) + 16)).take frames[k].length ∧
          frames[k].length = fieldAt content (pcapConsumed (frames.take k) + 8) 4 := by
  obtain ⟨records, rest, splits⟩ :=
    RecordFormat.exists_splits pcapFormat (content.drop 24)
  obtain ⟨runner, comparator, classifier⟩ := pcap_readers_of_splits long splits
  have lengths : content.length = pcapConsumed (records.map Prod.snd) + rest.length := by
    have joined := length_joined_of_whole splits.whole
    have content_eq := congrArg List.length splits.content_eq
    rw [List.length_drop, List.length_append] at content_eq
    omega
  refine ⟨records.map Prod.snd, ?_, comparator, classifier, by omega, ?_⟩
  · rw [runner]
    refine Prod.ext (decide_eq_decide.mpr ?_) rfl
    omega
  · intro k inside
    rw [List.length_map] at inside
    have behind := drop_pcapConsumed splits k
    rw [List.drop_eq_getElem_cons inside, RecordFormat.joined_cons, List.append_assoc _ _ rest]
      at behind
    obtain ⟨_, length, body⟩ := record_in_front
      (splits.whole records[k] (List.getElem_mem inside))
      (RecordFormat.joined (records.drop (k + 1)) ++ rest)
    rw [List.getElem_map]
    constructor
    · rw [← List.drop_drop, behind, body, List.take_left]
    · rw [fieldAt, ← List.drop_drop, behind, ← length, fieldAt]

theorem pcap_readers_on_every_file_cut_record :
    24 ≤ ((writePcap [[1, 2, 3], [4]]).take 59).length ∧
      ∃ frames, readPcap (some ((writePcap [[1, 2, 3], [4]]).take 59)) =
            (decide (((writePcap [[1, 2, 3], [4]]).take 59).length < pcapConsumed frames + 16),
              frames) ∧
          readPcapAll (some ((writePcap [[1, 2, 3], [4]]).take 59)) = (true, frames) := by
  have long : 24 ≤ ((writePcap [[1, 2, 3], [4]]).take 59).length := by decide
  obtain ⟨frames, runner, comparator, _⟩ := pcap_readers_on_every_file _ long
  exact ⟨long, frames, runner, comparator⟩

end RanInline.Osg
