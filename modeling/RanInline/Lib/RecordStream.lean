/-
Module: RanInline.Lib.RecordStream
Purpose: Streams of records that name their own length: a header of fixed length, then a body whose
  length the header gives.  A stream splits in one way into whole records and a rest that is too
  short for one more.
Trusted boundary: none
Main exports: RecordFormat, RecordFormat.Splits, RecordFormat.exists_splits,
  RecordFormat.Splits.unique, RecordFormat.Splits.cut
-/
import Mathlib.Data.List.Basic
import Mathlib.Order.Bounds.Basic

namespace RanInline.Lib

/-- A header length, and the length of the body behind a header. -/
structure RecordFormat (α : Type) where
  headerLength : Nat
  headerLength_pos : 0 < headerLength
  bodyLength : List α → Nat

namespace RecordFormat

variable {α : Type} (format : RecordFormat α)

/-- A header with the body it announces. -/
structure IsRecord (record : List α × List α) : Prop where
  header : record.1.length = format.headerLength
  body : record.2.length = format.bodyLength record.1

/-- Too short for a record: a part of a header, or a header with a part of its body. -/
def Unfinished (rest : List α) : Prop :=
  rest.length < format.headerLength + format.bodyLength (rest.take format.headerLength)

/-- Records behind one another. -/
def joined (records : List (List α × List α)) : List α :=
  records.flatMap fun record => record.1 ++ record.2

/-- The stream is these records and then this rest. -/
structure Splits (content : List α) (records : List (List α × List α)) (rest : List α) :
    Prop where
  whole : ∀ record ∈ records, format.IsRecord record
  unfinished : format.Unfinished rest
  content_eq : content = joined records ++ rest

@[simp]
theorem joined_nil : joined ([] : List (List α × List α)) = [] := rfl

@[simp]
theorem joined_cons (record : List α × List α) (records : List (List α × List α)) :
    joined (record :: records) = record.1 ++ record.2 ++ joined records := rfl

@[simp]
theorem joined_append (front back : List (List α × List α)) :
    joined (front ++ back) = joined front ++ joined back := by
  simp [joined]

variable {format} {content rest : List α} {records : List (List α × List α)}
  {record : List α × List α}

theorem unfinished_nil : format.Unfinished ([] : List α) := by
  have := format.headerLength_pos
  simp only [Unfinished, List.length_nil]
  omega

/-- The header of a record can be read off the front of what follows. -/
theorem IsRecord.take_header (whole : format.IsRecord record) (rest : List α) :
    (record.1 ++ record.2 ++ rest).take format.headerLength = record.1 := by
  rw [List.append_assoc, ← whole.header, List.take_left]

/-- A record in front is not an unfinished rest. -/
theorem IsRecord.not_unfinished (whole : format.IsRecord record) (rest : List α) :
    ¬ format.Unfinished (record.1 ++ record.2 ++ rest) := by
  have header := whole.header
  have body := whole.body
  rw [Unfinished, whole.take_header rest]
  simp only [List.length_append]
  omega

/-- What is not unfinished has a record in front. -/
theorem exists_record_of_not_unfinished (long : ¬ format.Unfinished content) :
    ∃ record behind, format.IsRecord record ∧ content = record.1 ++ record.2 ++ behind := by
  let header := content.take format.headerLength
  let body := (content.drop format.headerLength).take (format.bodyLength header)
  have enough : format.headerLength + format.bodyLength header ≤ content.length :=
    Nat.not_lt.mp long
  refine ⟨(header, body), (content.drop format.headerLength).drop (format.bodyLength header),
    ⟨?_, ?_⟩, ?_⟩
  · simp only [header, List.length_take]
    omega
  · simp only [body, List.length_take, List.length_drop]
    omega
  · rw [List.append_assoc, List.take_append_drop, List.take_append_drop]

/-- Two records in front of the same stream are the same record. -/
theorem IsRecord.unique {other : List α × List α} (whole : format.IsRecord record)
    (otherWhole : format.IsRecord other) {behind otherBehind : List α}
    (same : record.1 ++ record.2 ++ behind = other.1 ++ other.2 ++ otherBehind) :
    record = other ∧ behind = otherBehind := by
  have headers : record.1 = other.1 := by
    rw [← whole.take_header behind, same, otherWhole.take_header]
  have lengths : record.2.length = other.2.length := by
    rw [whole.body, otherWhole.body, headers]
  rw [headers, List.append_assoc, List.append_assoc] at same
  obtain ⟨bodies, behinds⟩ := List.append_inj (List.append_cancel_left same) lengths
  exact ⟨Prod.ext headers bodies, behinds⟩

/-- Every stream splits. -/
theorem exists_splits (format : RecordFormat α) (content : List α) :
    ∃ records rest, format.Splits content records rest := by
  induction size : content.length using Nat.strong_induction_on generalizing content with
  | _ size inductionHypothesis =>
      by_cases short : format.Unfinished content
      · exact ⟨[], content, by simp, short, rfl⟩
      · obtain ⟨record, behind, whole, rfl⟩ := exists_record_of_not_unfinished short
        have positive := format.headerLength_pos
        have header := whole.header
        obtain ⟨records, rest, splits⟩ := inductionHypothesis behind.length (by
          rw [← size, List.length_append, List.length_append]
          omega) behind rfl
        refine ⟨record :: records, rest, ?_, splits.unfinished, ?_⟩
        · intro found member
          rcases List.mem_cons.mp member with rfl | later
          · exact whole
          · exact splits.whole found later
        · rw [joined_cons, List.append_assoc _ _ rest, ← splits.content_eq]

/-- A stream splits in one way. -/
theorem Splits.unique {others : List (List α × List α)} {otherRest : List α}
    (splits : format.Splits content records rest)
    (otherSplits : format.Splits content others otherRest) :
    records = others ∧ rest = otherRest := by
  induction records generalizing content others with
  | nil =>
      cases others with
      | nil =>
          have same := splits.content_eq.symm.trans otherSplits.content_eq
          exact ⟨rfl, same⟩
      | cons other others =>
          refine absurd splits.unfinished ?_
          have same := splits.content_eq.symm.trans otherSplits.content_eq
          rw [joined_nil, List.nil_append, joined_cons, List.append_assoc] at same
          rw [same]
          exact (otherSplits.whole other List.mem_cons_self).not_unfinished _
  | cons record records inductionHypothesis =>
      have whole := splits.whole record List.mem_cons_self
      cases others with
      | nil =>
          refine absurd otherSplits.unfinished ?_
          have same := otherSplits.content_eq.symm.trans splits.content_eq
          rw [joined_nil, List.nil_append, joined_cons, List.append_assoc] at same
          rw [same]
          exact whole.not_unfinished _
      | cons other others =>
          have same := splits.content_eq.symm.trans otherSplits.content_eq
          rw [joined_cons, joined_cons, List.append_assoc _ (joined records),
            List.append_assoc _ (joined others)] at same
          obtain ⟨rfl, behind⟩ :=
            whole.unique (otherSplits.whole other List.mem_cons_self) same
          obtain ⟨tails, rests⟩ := inductionHypothesis
            ⟨fun r member => splits.whole r (List.mem_cons_of_mem _ member),
              splits.unfinished, rfl⟩
            ⟨fun r member => otherSplits.whole r (List.mem_cons_of_mem _ member),
              otherSplits.unfinished, behind⟩
          exact ⟨congrArg (record :: ·) tails, rests⟩

/-- A part of a record is unfinished. -/
theorem IsRecord.unfinished_take (whole : format.IsRecord record) {n : Nat}
    (inside : n < record.1.length + record.2.length) :
    format.Unfinished ((record.1 ++ record.2).take n) := by
  have header := whole.header
  have body := whole.body
  rw [Unfinished, List.take_take]
  by_cases short : n < format.headerLength
  · simp only [List.length_take, List.length_append]
    omega
  · have front : (record.1 ++ record.2).take (min format.headerLength n) = record.1 := by
      rw [Nat.min_eq_left (Nat.not_lt.mp short), ← header, List.take_left]
    rw [front]
    simp only [List.length_take, List.length_append]
    omega

/-- Records that are cut off at any place: the records in front of the cut are left, and a rest. -/
theorem Splits.cut (whole : ∀ record ∈ records, format.IsRecord record) {n k : Nat}
    (greatest : IsGreatest {k | k ≤ records.length ∧ (joined (records.take k)).length ≤ n} k) :
    format.Splits ((joined records).take n) (records.take k)
      (((joined records).take n).drop (joined (records.take k)).length) := by
  obtain ⟨⟨inside, reached⟩, largest⟩ := greatest
  have split : joined records = joined (records.take k) ++ joined (records.drop k) := by
    rw [← joined_append, List.take_append_drop]
  have front : (joined records).take n =
      joined (records.take k) ++
        (joined (records.drop k)).take (n - (joined (records.take k)).length) := by
    rw [split, List.take_append, List.take_of_length_le reached]
  have rest : ((joined records).take n).drop (joined (records.take k)).length =
      (joined (records.drop k)).take (n - (joined (records.take k)).length) := by
    rw [front, List.drop_left]
  refine ⟨fun record member => whole record (List.mem_of_mem_take member), ?_, ?_⟩
  · rw [rest]
    cases remaining : records.drop k with
    | nil =>
        rw [joined_nil, List.take_nil]
        exact unfinished_nil
    | cons record behind =>
        have further : k < records.length := by
          by_contra last
          rw [List.drop_of_length_le (by omega)] at remaining
          cases remaining
        have next : records.take (k + 1) = records.take k ++ [record] := by
          have found : records[k]? = some record := by
            rw [← List.head?_drop, remaining, List.head?_cons]
          rw [List.take_add_one, found, Option.toList_some]
        have passed : n < (joined (records.take k)).length +
            (record.1.length + record.2.length) := by
          by_contra reachable
          have above := largest (a := k + 1) ⟨further, by
            rw [next]
            simp only [joined_append, joined_cons, joined_nil, List.append_nil,
              List.length_append]
            omega⟩
          omega
        have member : record ∈ records :=
          List.mem_of_mem_drop (remaining ▸ List.mem_cons_self)
        rw [joined_cons, List.take_append_of_le_length (by
          simp only [List.length_append]
          omega)]
        exact (whole record member).unfinished_take (by omega)
  · rw [rest, front]

end RecordFormat

end RanInline.Lib
