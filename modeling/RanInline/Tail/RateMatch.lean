/-
Module: RanInline.Tail.RateMatch
Purpose: The kernel k6_rate_dematch as the inverse of the rate matching of TS 38.212 5.4.2 for
  redundancy version 0, over all code block sizes, and the order in which it reads its input.
Trusted boundary: none
Main exports: bitSelection, bitInterleaver, oiK6ReadIndex, k6Bounds, k6Reads,
  k6_inverts_rate_matching
-/
import RanInline.Tail.Dematch

namespace RanInline.Tail

open RanInline.Lib RanInline.Ldpc

/-! ### The rate matching of the standard -/

/-- The positions of the circular buffer that are not filler, `info` ones in front of the
filler. -/
def nonFillerPositions (fullLength info nofFillerBits : Nat) : List Nat :=
  (List.range fullLength).filter fun k => k < info ∨ info + nofFillerBits ≤ k

/-- Bit selection for redundancy version 0: the first positions that are not filler. -/
def selectedPositions (fullLength info nofFillerBits rmLength : Nat) : List Nat :=
  (nonFillerPositions fullLength info nofFillerBits).take rmLength

/-- The selected values of a word. -/
def bitSelection (word : List Int) (info nofFillerBits rmLength : Nat) : List Int :=
  (selectedPositions word.length info nofFillerBits rmLength).map fun k => word.getD k 0

/-- The row and column interleaver: value `i * qm + j` of the output is value
`j * (E / qm) + i` of the input. -/
def bitInterleaver (qm : Nat) (selected : List Int) : List Int :=
  (List.range selected.length).map fun n =>
    selected.getD (n % qm * (selected.length / qm) + n / qm) 0

/-- The position of a selected bit. -/
def placeOf (info nofFillerBits v : Nat) : Nat := if v < info then v else v + nofFillerBits

theorem nonFillerPositions_eq {fullLength info nofFillerBits : Nat}
    (within : info + nofFillerBits ≤ fullLength) :
    nonFillerPositions fullLength info nofFillerBits =
      (List.range (fullLength - nofFillerBits)).map (placeOf info nofFillerBits) := by
  obtain ⟨rest, rfl⟩ := Nat.exists_eq_add_of_le within
  have length : info + nofFillerBits + rest - nofFillerBits = info + rest := by omega
  rw [nonFillerPositions, length, List.range_add, List.range_add, List.range_add,
    List.filter_append, List.filter_append, List.map_append]
  have front : (List.range info).filter (fun k => k < info ∨ info + nofFillerBits ≤ k) =
      (List.range info).map (placeOf info nofFillerBits) := by
    have same : (List.range info).map (placeOf info nofFillerBits) = (List.range info).map id :=
      List.map_congr_left fun k member => if_pos (List.mem_range.mp member)
    rw [same, List.map_id, List.filter_eq_self]
    intro k member
    simp [List.mem_range.mp member]
  have middle : ((List.range nofFillerBits).map (info + ·)).filter
      (fun k => k < info ∨ info + nofFillerBits ≤ k) = [] := by
    apply List.filter_eq_nil_iff.mpr
    intro k member
    obtain ⟨j, inside, rfl⟩ := List.mem_map.mp member
    have less := List.mem_range.mp inside
    simp only [decide_eq_true_eq]
    omega
  have behind : ((List.range rest).map (info + nofFillerBits + ·)).filter
      (fun k => k < info ∨ info + nofFillerBits ≤ k) =
      ((List.range rest).map (info + ·)).map (placeOf info nofFillerBits) := by
    rw [List.filter_eq_self.mpr fun k member => by
      obtain ⟨j, _, rfl⟩ := List.mem_map.mp member
      simp, List.map_map]
    apply List.map_congr_left
    intro j _
    rw [Function.comp_apply, placeOf, if_neg (by omega)]
    omega
  rw [front, middle, behind, List.append_nil]

theorem selectedPositions_eq {fullLength info nofFillerBits rmLength : Nat}
    (within : info + nofFillerBits ≤ fullLength) (fits : rmLength ≤ fullLength - nofFillerBits) :
    selectedPositions fullLength info nofFillerBits rmLength =
      (List.range rmLength).map (placeOf info nofFillerBits) := by
  rw [selectedPositions, nonFillerPositions_eq within, ← List.map_take, List.take_range,
    Nat.min_eq_left fits]

theorem mem_selectedPositions_iff {fullLength info nofFillerBits rmLength k : Nat}
    (within : info + nofFillerBits ≤ fullLength) (fits : rmLength ≤ fullLength - nofFillerBits) :
    k ∈ selectedPositions fullLength info nofFillerBits rmLength ↔
      k < info ∧ k < rmLength ∨ info + nofFillerBits ≤ k ∧ k - nofFillerBits < rmLength := by
  rw [selectedPositions_eq within fits, List.mem_map]
  constructor
  · rintro ⟨v, member, rfl⟩
    have inside := List.mem_range.mp member
    rw [placeOf]
    split_ifs <;> omega
  · rintro (⟨early, inside⟩ | ⟨late, inside⟩)
    · exact ⟨k, List.mem_range.mpr inside, if_pos early⟩
    · refine ⟨k - nofFillerBits, List.mem_range.mpr inside, ?_⟩
      rw [placeOf, if_neg (by omega)]
      omega

/-! ### The order of the reads -/

/-- The index that `oi_k6_read_deinterleaved` reads.  `none` is a division by zero. -/
def oiK6ReadIndex (rmLength modulationOrder virtualIdx : Nat) : Option Nat :=
  if modulationOrder ≤ 1 then some virtualIdx
  else
    let k := rmLength / modulationOrder
    if k = 0 then none else some (virtualIdx % k * modulationOrder + virtualIdx / k)

theorem oiK6ReadDeinterleaved_eq_bind (llrIn : List Int)
    (base rmLength modulationOrder virtualIdx : Nat) :
    oiK6ReadDeinterleaved llrIn base rmLength modulationOrder virtualIdx =
      (oiK6ReadIndex rmLength modulationOrder virtualIdx).bind fun i => llrIn[base + i]? := by
  simp only [oiK6ReadDeinterleaved, oiK6ReadIndex]
  split_ifs <;> rfl

/-- The bounds of the two loops of `k6_rate_dematch` that read LLRs. -/
structure K6Bounds where
  nofInfoBits : Nat
  nbitsSystematic : Nat
  parityIdx : Nat
  nbitsParity : Nat

/-- The bounds, as the kernel computes them. -/
def k6Bounds (rmLength fullLength nofFillerBits shiftK0 : Nat) : K6Bounds :=
  let nofSystematicBits := ((k6BaseGraph fullLength).1 - 2) * (k6BaseGraph fullLength).2
  let nofInfoBits := nofSystematicBits - nofFillerBits
  let nbitsSystematic :=
    if shiftK0 < nofInfoBits then min (nofInfoBits - shiftK0) rmLength else 0
  let tmpIdx := shiftK0 + nbitsSystematic
  let tmpIdx := if tmpIdx < nofSystematicBits then nofSystematicBits else tmpIdx
  { nofInfoBits
    nbitsSystematic
    parityIdx := tmpIdx
    nbitsParity := min (fullLength - tmpIdx) (rmLength - nbitsSystematic) }

/-- The kernel by its loops. -/
theorem k6RateDematch_eq (cb : Nat) (llrIn : List Int)
    (rmLength fullLength nofFillerBits shiftK0 modulationOrder : Nat) (cbLlrOut : List Int) :
    k6RateDematch cb llrIn rmLength fullLength nofFillerBits shiftK0 modulationOrder cbLlrOut =
      (do
        let bounds := k6Bounds rmLength fullLength nofFillerBits shiftK0
        let read (v : Nat) : Option Int :=
          (oiK6ReadIndex rmLength modulationOrder v).bind fun i => llrIn[cb * rmLength + i]?
        let out ← (listCells Int).fill cbLlrOut (cb * fullLength) fullLength fun _ => some 0
        let out ← (listCells Int).fill out (cb * fullLength + shiftK0) bounds.nbitsSystematic read
        let out ← (listCells Int).fill out (cb * fullLength + bounds.nofInfoBits) nofFillerBits
          fun _ => some oiK6LlrInfty
        (listCells Int).fill out (cb * fullLength + bounds.parityIdx) bounds.nbitsParity
          fun k => read (bounds.nbitsSystematic + k)) := by
  simp only [k6RateDematch, oiK6ReadDeinterleaved_eq_bind, Nat.zero_add]
  rfl

/-- The indices of `llr_in` in the order in which the two loops read them. -/
def k6Reads (rmLength fullLength nofFillerBits shiftK0 modulationOrder : Nat) :
    List (Option Nat) :=
  let bounds := k6Bounds rmLength fullLength nofFillerBits shiftK0
  (List.range bounds.nbitsSystematic).map (oiK6ReadIndex rmLength modulationOrder) ++
    (List.range bounds.nbitsParity).map fun k =>
      oiK6ReadIndex rmLength modulationOrder (bounds.nbitsSystematic + k)

/-- The kernel reads no other LLRs. -/
theorem k6RateDematch_congr {rmLength fullLength nofFillerBits shiftK0 modulationOrder : Nat}
    {one two : List Int} (cbLlrOut : List Int)
    (same : ∀ i, some i ∈ k6Reads rmLength fullLength nofFillerBits shiftK0 modulationOrder →
      one[i]? = two[i]?) :
    k6RateDematch 0 one rmLength fullLength nofFillerBits shiftK0 modulationOrder cbLlrOut =
      k6RateDematch 0 two rmLength fullLength nofFillerBits shiftK0 modulationOrder cbLlrOut := by
  have agree (v : Nat)
      (listed : oiK6ReadIndex rmLength modulationOrder v ∈
        k6Reads rmLength fullLength nofFillerBits shiftK0 modulationOrder) :
      (oiK6ReadIndex rmLength modulationOrder v).bind (fun i => one[0 * rmLength + i]?) =
        (oiK6ReadIndex rmLength modulationOrder v).bind fun i => two[0 * rmLength + i]? := by
    cases read : oiK6ReadIndex rmLength modulationOrder v with
    | none => rfl
    | some i =>
        rw [read] at listed
        simpa using same i listed
  rw [k6RateDematch_eq, k6RateDematch_eq]
  refine bind_congr fun out => ?_
  rw [(listCells Int).fill_congr fun v inside => agree v ?_]
  · refine bind_congr fun out => bind_congr fun out => ?_
    refine (listCells Int).fill_congr fun k inside => agree _ ?_
    exact List.mem_append_right _ (List.mem_map.mpr ⟨k, List.mem_range.mpr inside, rfl⟩)
  · exact List.mem_append_left _ (List.mem_map.mpr ⟨v, List.mem_range.mpr inside, rfl⟩)

/-- Every LLR of a block of `columns * qm` has one virtual index. -/
theorem oiK6ReadIndex_eq {columns qm v : Nat} (order : 1 ≤ qm) (inside : v < columns * qm) :
    oiK6ReadIndex (columns * qm) qm v = some (v % columns * qm + v / columns) := by
  have width : columns * qm / qm = columns := Nat.mul_div_cancel columns order
  have positive : columns ≠ 0 := by
    rintro rfl
    rw [Nat.zero_mul] at inside
    exact absurd inside (Nat.not_lt_zero v)
  by_cases one : qm ≤ 1
  · obtain rfl : qm = 1 := by omega
    rw [Nat.mul_one] at inside
    rw [oiK6ReadIndex, if_pos one, Nat.mod_eq_of_lt inside, Nat.div_eq_of_lt inside,
      Nat.mul_one, Nat.add_zero]
  · simp only [oiK6ReadIndex, if_neg one, width, if_neg positive]

/-- The index map of the deinterleaver permutes the block. -/
theorem perm_readIndices {columns qm : Nat} :
    ((List.range (columns * qm)).map fun v => v % columns * qm + v / columns).Perm
      (List.range (columns * qm)) := by
  have places (v : Nat) (inside : v < columns * qm) :
      v / columns < qm ∧ v % columns < columns := by
    have positive : 0 < columns := by
      apply Nat.pos_of_ne_zero
      rintro rfl
      rw [Nat.zero_mul] at inside
      exact absurd inside (Nat.not_lt_zero v)
    rw [Nat.div_lt_iff_lt_mul positive, Nat.mul_comm]
    exact ⟨inside, Nat.mod_lt v positive⟩
  have distinct :
      ((List.range (columns * qm)).map fun v => v % columns * qm + v / columns).Nodup := by
    apply List.Nodup.map_on _ List.nodup_range
    intro v member w otherMember same
    have row := (places v (List.mem_range.mp member)).1
    have otherRow := (places w (List.mem_range.mp otherMember)).1
    obtain ⟨column, division⟩ := flat_div_mod (v % columns) row
    obtain ⟨otherColumn, otherDivision⟩ := flat_div_mod (w % columns) otherRow
    rw [same] at column division
    rw [← Nat.div_add_mod' v columns, ← Nat.div_add_mod' w columns,
      ← division.symm.trans otherDivision, ← column.symm.trans otherColumn]
  have inside : ((List.range (columns * qm)).map fun v => v % columns * qm + v / columns) ⊆
      List.range (columns * qm) := by
    intro i member
    obtain ⟨v, range, rfl⟩ := List.mem_map.mp member
    obtain ⟨row, column⟩ := places v (List.mem_range.mp range)
    exact List.mem_range.mpr (flat_lt column row)
  exact (distinct.subperm inside).perm_of_length_le (by simp)

/-! ### The kernel and the standard -/

section Standard

variable {baseGraph : BaseGraph} {z nofFillerBits : Nat}

/-- The sizes of a code block without its first two columns. -/
theorem systematic_le (baseGraph : BaseGraph) (z : Nat) :
    (baseGraph.nVnInfo - 2) * z ≤ baseGraph.nShort * z := by
  apply Nat.mul_le_mul_right
  cases baseGraph <;> decide

/-- The loops read one LLR for each selected position. -/
theorem k6Bounds_eq {rmLength : Nat} (allowed : z % 33 ≠ 0)
    (filler : nofFillerBits ≤ (baseGraph.nVnInfo - 2) * z)
    (fits : rmLength ≤ baseGraph.nShort * z - nofFillerBits) :
    (k6Bounds rmLength (baseGraph.nShort * z) nofFillerBits 0).nbitsSystematic +
      (k6Bounds rmLength (baseGraph.nShort * z) nofFillerBits 0).nbitsParity = rmLength := by
  have systematic := systematic_le baseGraph z
  simp only [k6Bounds, k6BaseGraph_eq baseGraph allowed]
  split_ifs <;> omega

/-- The reads of the kernel are the indices below `rm_length`, each once. -/
theorem k6Reads_perm {columns qm : Nat} (order : 1 ≤ qm) (allowed : z % 33 ≠ 0)
    (filler : nofFillerBits ≤ (baseGraph.nVnInfo - 2) * z)
    (fits : columns * qm ≤ baseGraph.nShort * z - nofFillerBits) :
    ∃ indices : List Nat,
      k6Reads (columns * qm) (baseGraph.nShort * z) nofFillerBits 0 qm = indices.map some ∧
        indices.Perm (List.range (columns * qm)) := by
  have count := k6Bounds_eq allowed filler fits
  refine ⟨_, ?_, perm_readIndices⟩
  have joined : k6Reads (columns * qm) (baseGraph.nShort * z) nofFillerBits 0 qm =
      (List.range (columns * qm)).map (oiK6ReadIndex (columns * qm) qm) := by
    rw [← count, List.range_add, List.map_append, List.map_map, count]
    rfl
  rw [joined, List.map_map]
  apply List.map_congr_left
  intro v member
  exact oiK6ReadIndex_eq order (List.mem_range.mp member)

/-- What the interleaver puts where the kernel reads. -/
theorem getElem?_bitInterleaver {columns qm v : Nat} {selected : List Int}
    (length : selected.length = columns * qm) (inside : v < columns * qm) :
    (bitInterleaver qm selected)[v % columns * qm + v / columns]? = selected[v]? := by
  have positive : 0 < columns := by
    apply Nat.pos_of_ne_zero
    rintro rfl
    rw [Nat.zero_mul] at inside
    exact absurd inside (Nat.not_lt_zero v)
  have row : v / columns < qm := by
    rw [Nat.div_lt_iff_lt_mul positive, Nat.mul_comm]
    exact inside
  have column : v % columns < columns := Nat.mod_lt v positive
  obtain ⟨division, remainder⟩ := flat_div_mod (v % columns) row
  have width : columns * qm / qm = columns := Nat.mul_div_cancel columns (by omega)
  rw [bitInterleaver, List.getElem?_map, length, List.getElem?_range (flat_lt column row),
    Option.map_some, division, remainder, width, Nat.div_add_mod' v columns,
    List.getD_eq_getElem?_getD, List.getElem?_eq_getElem (by omega), Option.getD_some]

theorem getElem?_bitSelection {word : List Int} {info rmLength v : Nat}
    (within : info + nofFillerBits ≤ word.length)
    (fits : rmLength ≤ word.length - nofFillerBits) (inside : v < rmLength) :
    (bitSelection word info nofFillerBits rmLength)[v]? =
      word[placeOf info nofFillerBits v]? := by
  have place : placeOf info nofFillerBits v < word.length := by
    rw [placeOf]
    split_ifs <;> omega
  rw [bitSelection, selectedPositions_eq within fits, List.map_map, List.getElem?_map,
    List.getElem?_range inside, Option.map_some, Function.comp_apply,
    List.getD_eq_getElem?_getD, List.getElem?_eq_getElem place, Option.getD_some]

/-- What the dematcher puts at a position when it reads the selected values. -/
theorem dematched_placeOf {fullLength info rmLength k : Nat} (value : Nat → Int)
    (within : info + nofFillerBits ≤ fullLength) (fits : rmLength ≤ fullLength - nofFillerBits) :
    dematched info nofFillerBits rmLength (fun v => value (placeOf info nofFillerBits v)) k =
      if k ∈ selectedPositions fullLength info nofFillerBits rmLength then value k
      else if info ≤ k ∧ k < info + nofFillerBits then 127
      else 0 := by
  rw [dematched]
  simp only [mem_selectedPositions_iff within fits, oiK6LlrInfty]
  by_cases early : k < info
  · have place : placeOf info nofFillerBits k = k := if_pos early
    rw [if_pos early, place]
    split_ifs <;> first | rfl | omega
  · by_cases gap : k < info + nofFillerBits
    · rw [if_neg early, if_pos gap, if_neg (by omega), if_pos (by omega)]
    · have place : placeOf info nofFillerBits (k - nofFillerBits) = k := by
        rw [placeOf, if_neg (by omega)]
        omega
      rw [if_neg early, if_neg gap, place]
      split_ifs <;> first | rfl | omega

/-- The kernel inverts the rate matching of redundancy version 0.  For every lifting size of
the standard, both base graphs, every number of filler bits, modulation order and length that
fits, and every word of LLRs: the base graph is recognised from the length, the selected values
are back at their positions, the filler is infinite, everything else is zero, and every LLR of
the input is read exactly once, and nothing else of it. -/
theorem k6_inverts_rate_matching (standard : z ∈ kLiftingSizes)
    (filler : nofFillerBits ≤ (baseGraph.nVnInfo - 2) * z) {qm : Nat} (order : 1 ≤ qm)
    {rmLength : Nat} (positive : 0 < rmLength) (multiple : qm ∣ rmLength)
    (fits : rmLength ≤ baseGraph.nShort * z - nofFillerBits) {word cbLlrOut : List Int}
    (wordLength : word.length = baseGraph.nShort * z)
    (outLength : cbLlrOut.length = baseGraph.nShort * z) :
    k6BaseGraph (baseGraph.nShort * z) = (baseGraph.nVnInfo, z) ∧
      (∃ out, k6RateDematch 0
          (bitInterleaver qm (bitSelection word ((baseGraph.nVnInfo - 2) * z - nofFillerBits)
            nofFillerBits rmLength))
          rmLength (baseGraph.nShort * z) nofFillerBits 0 qm cbLlrOut = some out ∧
        out.length = baseGraph.nShort * z ∧
        ∀ k < baseGraph.nShort * z, out[k]? =
          if k ∈ selectedPositions (baseGraph.nShort * z)
              ((baseGraph.nVnInfo - 2) * z - nofFillerBits) nofFillerBits rmLength then word[k]?
          else if (baseGraph.nVnInfo - 2) * z - nofFillerBits ≤ k ∧
              k < (baseGraph.nVnInfo - 2) * z then some 127
          else some 0) ∧
      (∃ indices : List Nat,
        k6Reads rmLength (baseGraph.nShort * z) nofFillerBits 0 qm = indices.map some ∧
          indices.Perm (List.range rmLength)) ∧
      ∀ one two : List Int,
        (∀ i, some i ∈ k6Reads rmLength (baseGraph.nShort * z) nofFillerBits 0 qm →
          one[i]? = two[i]?) →
        k6RateDematch 0 one rmLength (baseGraph.nShort * z) nofFillerBits 0 qm cbLlrOut =
          k6RateDematch 0 two rmLength (baseGraph.nShort * z) nofFillerBits 0 qm cbLlrOut := by
  obtain ⟨columns, rfl⟩ : ∃ columns, rmLength = columns * qm := by
    obtain ⟨columns, rfl⟩ := multiple
    exact ⟨columns, Nat.mul_comm qm columns⟩
  obtain ⟨_, _, allowed, _⟩ := kLiftingSizes_facts z standard
  have graph := k6BaseGraph_eq baseGraph allowed
  have systematicLe := systematic_le baseGraph z
  refine ⟨graph, ?_, k6Reads_perm order allowed filler fits, fun one two same =>
    k6RateDematch_congr cbLlrOut same⟩
  obtain ⟨info, split⟩ : ∃ info, (baseGraph.nVnInfo - 2) * z = info + nofFillerBits :=
    ⟨(baseGraph.nVnInfo - 2) * z - nofFillerBits, by omega⟩
  rw [split, Nat.add_sub_cancel]
  have within : info + nofFillerBits ≤ baseGraph.nShort * z := by omega
  have selectedLength : (bitSelection word info nofFillerBits (columns * qm)).length =
      columns * qm := by
    rw [bitSelection, List.length_map, selectedPositions_eq (by omega) (by omega),
      List.length_map, List.length_range]
  have reads (v : Nat) (inside : v < columns * qm) :
      oiK6ReadDeinterleaved
          (bitInterleaver qm (bitSelection word info nofFillerBits (columns * qm))) 0
          (columns * qm) qm v = some (word.getD (placeOf info nofFillerBits v) 0) := by
    have place : placeOf info nofFillerBits v < word.length := by
      rw [placeOf]
      split_ifs <;> omega
    rw [oiK6ReadDeinterleaved_eq _ order inside, getElem?_bitInterleaver selectedLength inside,
      getElem?_bitSelection (by omega) (by omega) inside, List.getD_eq_getElem?_getD,
      List.getElem?_eq_getElem place, Option.getD_some]
  obtain ⟨out, run, length, cells⟩ := k6RateDematch_spec
    (fun v => word.getD (placeOf info nofFillerBits v) 0)
    (show ((k6BaseGraph (baseGraph.nShort * z)).1 - 2) * (k6BaseGraph (baseGraph.nShort * z)).2 =
      info + nofFillerBits by rw [graph, split])
    within fits outLength reads
  refine ⟨out, run, length, fun k inside => ?_⟩
  have here : word[k]? = some (word.getD k 0) := by
    rw [List.getD_eq_getElem?_getD, List.getElem?_eq_getElem (by omega), Option.getD_some]
  rw [cells k inside, dematched_placeOf (fun place => word.getD place 0) within fits, here]
  split_ifs <;> rfl

/-- A word of the smallest code with two filler bits, the first 24 others of its bits sent with
16QAM: ten of them stand behind the filler. -/
theorem k6_inverts_rate_matching_past_filler :
    2 ∈ kLiftingSizes ∧ ∃ out, k6RateDematch 0
        (bitInterleaver 4 (bitSelection ((List.range 100).map Int.ofNat)
          ((BaseGraph.bg2.nVnInfo - 2) * 2 - 2) 2 24))
        24 (BaseGraph.bg2.nShort * 2) 2 0 4 (List.replicate 100 5) = some out ∧
      out[3]? = some 3 ∧ out[13]? = some 13 ∧ out[14]? = some 127 ∧ out[16]? = some 16 ∧
      out[25]? = some 25 ∧ out[26]? = some 0 := by
  refine ⟨by decide, ?_⟩
  obtain ⟨_, ⟨out, run, _, cells⟩, _, _⟩ := @k6_inverts_rate_matching .bg2 2 2
    (show 2 ∈ kLiftingSizes by decide) (by decide) 4 (show 1 ≤ 4 by decide) 24
    (show 0 < 24 by decide) (by decide) (by decide) _ _
    (show ((List.range 100).map Int.ofNat).length = BaseGraph.bg2.nShort * 2 by decide)
    (show (List.replicate 100 (5 : Int)).length = BaseGraph.bg2.nShort * 2 by decide)
  refine ⟨out, run, (cells 3 (by decide)).trans ?_, (cells 13 (by decide)).trans ?_,
    (cells 14 (by decide)).trans ?_, (cells 16 (by decide)).trans ?_,
    (cells 25 (by decide)).trans ?_, (cells 26 (by decide)).trans ?_⟩ <;> decide +kernel

end Standard

end RanInline.Tail
