/-
Module: RanInline.Lib.Gradual
Purpose: Nondecreasing lists of natural numbers that start at zero and leave out nothing,
  and the values such a list has moved past.
Trusted boundary: none
Main exports: Gradual, gradual_iff_mem, Trails, Trails.gradual_iff
-/
import Mathlib.Data.List.Basic

namespace RanInline.Lib

/-- The list starts at zero and grows by at most one at a time. -/
structure Gradual (values : List Nat) : Prop where
  start : ∀ first, values[0]? = some first → first = 0
  next : ∀ (k here after : Nat), values[k]? = some here → values[k + 1]? = some after →
    after ≤ here + 1

variable {values : List Nat}

/-- A gradual list has every number up to each of its elements. -/
theorem Gradual.mem (gradual : Gradual values) {k here : Nat} (found : values[k]? = some here)
    {value : Nat} (le : value ≤ here) : value ∈ values := by
  induction k generalizing here with
  | zero =>
      obtain rfl := gradual.start here found
      obtain rfl : value = 0 := Nat.le_zero.mp le
      exact List.mem_of_getElem? found
  | succ k inductionHypothesis =>
      have less : k < values.length :=
        Nat.lt_of_succ_lt (List.getElem?_eq_some_iff.mp found).1
      have previous : values[k]? = some values[k] := List.getElem?_eq_getElem less
      have step := gradual.next k _ here previous found
      rcases Nat.lt_or_ge values[k] value with above | below
      · obtain rfl : value = here := by omega
        exact List.mem_of_getElem? found
      · exact inductionHypothesis previous below

/-- In a nondecreasing list, the elements are ordered by their positions. -/
theorem le_of_pairwise (sorted : values.Pairwise (· ≤ ·)) {i j first second : Nat}
    (le : i ≤ j) (foundFirst : values[i]? = some first) (foundSecond : values[j]? = some second) :
    first ≤ second := by
  obtain ⟨lessFirst, rfl⟩ := List.getElem?_eq_some_iff.mp foundFirst
  obtain ⟨lessSecond, rfl⟩ := List.getElem?_eq_some_iff.mp foundSecond
  rcases Nat.lt_or_eq_of_le le with less | rfl
  · exact List.pairwise_iff_getElem.mp sorted i j lessFirst lessSecond less
  · exact Nat.le_refl _

/-- A nondecreasing list is gradual exactly when it has every number below its last. -/
theorem gradual_iff_mem (sorted : values.Pairwise (· ≤ ·)) {last : Nat}
    (ends : values.getLast? = some last) :
    Gradual values ↔ ∀ value < last, value ∈ values := by
  rw [List.getLast?_eq_getElem?] at ends
  have lastIndex := (List.getElem?_eq_some_iff.mp ends).1
  constructor
  · intro gradual value less
    exact gradual.mem ends (Nat.le_of_lt less)
  · intro full
    refine ⟨fun first found => ?_, fun k here after found next => ?_⟩
    · by_contra positive
      have le := le_of_pairwise sorted (Nat.zero_le _) found ends
      obtain ⟨i, zero⟩ := List.mem_iff_getElem?.mp (full 0 (by omega))
      have := le_of_pairwise sorted (Nat.zero_le i) found zero
      omega
    · by_contra jumps
      have inside := (List.getElem?_eq_some_iff.mp next).1
      have le := le_of_pairwise sorted (show k + 1 ≤ values.length - 1 by omega) next ends
      obtain ⟨i, skipped⟩ := List.mem_iff_getElem?.mp (full (here + 1) (by omega))
      rcases Nat.lt_or_ge k i with later | earlier
      · have := le_of_pairwise sorted (show k + 1 ≤ i from later) next skipped
        omega
      · have := le_of_pairwise sorted earlier skipped found
        omega

/-- `passed` lists, in increasing order, the values of `values` below its last and largest
value. -/
structure Trails (values passed : List Nat) (last : Nat) : Prop where
  ends : values.getLast? = some last
  sorted : values.Pairwise (· ≤ ·)
  mem_iff : ∀ value, value ∈ passed ↔ value ∈ values ∧ value < last
  increasing : passed.Pairwise (· < ·)

namespace Trails

variable {passed : List Nat} {last next : Nat}

theorem start (first : Nat) : Trails [first] [] first where
  ends := rfl
  sorted := List.pairwise_singleton _ _
  mem_iff value := by
    simp only [List.not_mem_nil, List.mem_singleton, false_iff, not_and, Nat.not_lt]
    exact fun same => Nat.le_of_eq same.symm
  increasing := .nil

theorem mem_last (trails : Trails values passed last) : last ∈ values :=
  List.mem_of_getLast? trails.ends

theorem le_last (trails : Trails values passed last) {value : Nat} (member : value ∈ values) :
    value ≤ last := by
  obtain ⟨i, found⟩ := List.mem_iff_getElem?.mp member
  have ends := trails.ends
  rw [List.getLast?_eq_getElem?] at ends
  have inside := (List.getElem?_eq_some_iff.mp found).1
  exact le_of_pairwise trails.sorted (by omega) found ends

theorem sorted_append (trails : Trails values passed last) (le : last ≤ next) :
    (values ++ [next]).Pairwise (· ≤ ·) := by
  rw [List.pairwise_append]
  refine ⟨trails.sorted, List.pairwise_singleton _ _, fun value member other isNext => ?_⟩
  rw [List.mem_singleton.mp isNext]
  exact Nat.le_trans (trails.le_last member) le

/-- The last value once more. -/
theorem stay (trails : Trails values passed last) : Trails (values ++ [last]) passed last where
  ends := List.getLast?_concat
  sorted := trails.sorted_append (Nat.le_refl _)
  mem_iff value := by
    rw [trails.mem_iff, List.mem_append, List.mem_singleton]
    constructor
    · rintro ⟨member, less⟩
      exact ⟨.inl member, less⟩
    · rintro ⟨member | rfl, less⟩
      · exact ⟨member, less⟩
      · exact absurd less (Nat.lt_irrefl _)
  increasing := trails.increasing

/-- A larger value: the previous one has been passed. -/
theorem move (trails : Trails values passed last) (less : last < next) :
    Trails (values ++ [next]) (passed ++ [last]) next where
  ends := List.getLast?_concat
  sorted := trails.sorted_append (Nat.le_of_lt less)
  mem_iff value := by
    rw [List.mem_append, List.mem_append, List.mem_singleton, List.mem_singleton,
      trails.mem_iff]
    constructor
    · rintro (⟨member, below⟩ | rfl)
      · exact ⟨.inl member, Nat.lt_trans below less⟩
      · exact ⟨.inl trails.mem_last, less⟩
    · rintro ⟨member | rfl, below⟩
      · rcases Nat.lt_or_eq_of_le (trails.le_last member) with strict | same
        · exact .inl ⟨member, strict⟩
        · exact .inr same
      · exact absurd below (Nat.lt_irrefl _)
  increasing := by
    rw [List.pairwise_append]
    refine ⟨trails.increasing, List.pairwise_singleton _ _, fun value member other isLast => ?_⟩
    rw [List.mem_singleton.mp isLast]
    exact ((trails.mem_iff value).mp member).2

/-- The list is gradual exactly when every number below its last has been passed. -/
theorem gradual_iff (trails : Trails values passed last) :
    Gradual values ↔ ∀ value < last, value ∈ passed := by
  rw [gradual_iff_mem trails.sorted trails.ends]
  constructor
  · exact fun full value less => (trails.mem_iff value).mpr ⟨full value less, less⟩
  · exact fun full value less => ((trails.mem_iff value).mp (full value less)).1

end Trails

end RanInline.Lib
