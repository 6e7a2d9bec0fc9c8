/-
Module: RanInline.Lib.KeyedOrder
Purpose: Sequences of items with keys: the items that stand badly behind the previous item of
  the same key, and what reordering items of different keys leaves of them.
Trusted boundary: none
Main exports: previousOf, regresses, regressions, regressions_concat,
  regressions_eq_zero, regressions_eq_of_same_order
-/
import Mathlib.Algebra.BigOperators.Group.Finset.Piecewise
import Mathlib.Data.List.Induction

namespace RanInline.Lib

variable {α κ : Type} [DecidableEq κ] (key : α → κ) (bad : α → α → Bool)

/-- The previous item with the key of `item`. -/
def previousOf (before : List α) (item : α) : Option α :=
  (before.filter fun other => key other = key item).getLast?

/-- The item stands badly behind the previous one of its key. -/
def regresses (before : List α) (item : α) : Bool :=
  (previousOf key before item).any (bad · item)

/-- The number of items that stand badly behind the previous one of their key. -/
def regressions (items : List α) : Nat :=
  (List.range items.length).countP fun i =>
    items[i]?.any fun item => regresses key bad (items.take i) item

theorem regressions_concat (items : List α) (item : α) :
    regressions key bad (items ++ [item]) =
      regressions key bad items + if regresses key bad items item then 1 else 0 := by
  have earlier : (List.range items.length).countP (fun i =>
      (items ++ [item])[i]?.any fun item' =>
        regresses key bad ((items ++ [item]).take i) item') = regressions key bad items := by
    refine List.countP_congr fun i member => ?_
    have small : i < items.length := List.mem_range.mp member
    rw [List.getElem?_append_left small, List.take_append_of_le_length small.le]
  rw [regressions, List.length_append, List.length_singleton, List.range_succ, List.countP_append,
    earlier, List.countP_singleton, List.getElem?_concat_length, List.take_left]
  rfl

/-- Only the items of its own key decide whether an item stands badly. -/
theorem regresses_filter (before : List α) (item : α) :
    regresses key bad (before.filter fun other => key other = key item) item =
      regresses key bad before item := by
  rw [regresses, regresses, previousOf, previousOf, List.filter_filter]
  simp

/-- The regressions of a sequence are those of its keys together. -/
theorem regressions_eq_sum (keys : Finset κ) (items : List α)
    (covered : ∀ item ∈ items, key item ∈ keys) :
    regressions key bad items =
      ∑ k ∈ keys, regressions key bad (items.filter fun item => key item = k) := by
  induction items using List.reverseRecOn with
  | nil => simp [regressions]
  | append_singleton items item inductionHypothesis =>
      have before := inductionHypothesis fun other member => covered other (by simp [member])
      -- the last item counts for its own key only
      have last : ∀ k, regressions key bad ((items ++ [item]).filter fun other => key other = k) =
          regressions key bad (items.filter fun other => key other = k) +
            if key item = k then (if regresses key bad items item then 1 else 0) else 0 := by
        intro k
        by_cases own : key item = k
        · subst own
          rw [List.filter_append, List.filter_singleton, decide_eq_true rfl, if_pos rfl, cond_true,
            regressions_concat, regresses_filter]
        · rw [List.filter_append, List.filter_singleton, decide_eq_false own, if_neg own,
            cond_false, List.append_nil, Nat.add_zero]
      rw [regressions_concat, before, Finset.sum_congr rfl fun k _ => last k,
        Finset.sum_add_distrib, Finset.sum_ite_eq, if_pos (covered item (by simp))]

/-- Items that all stand well behind each other have no regression. -/
theorem regressions_eq_zero {items : List α}
    (good : items.Pairwise fun before item => bad before item = false) :
    regressions key bad items = 0 := by
  induction items using List.reverseRecOn with
  | nil => rfl
  | append_singleton items item inductionHypothesis =>
      obtain ⟨goodBefore, _, goodLast⟩ := List.pairwise_append.mp good
      have stands : regresses key bad items item = false := by
        rw [regresses, Option.any_eq_false_iff_get]
        intro found
        have member := List.mem_of_getLast? (Option.get_mem found)
        simp [goodLast _ (List.mem_of_mem_filter member) item (List.mem_singleton_self item)]
      rw [regressions_concat, inductionHypothesis goodBefore, stands]
      rfl

/-- Reordering items of different keys does not change the number of regressions. -/
theorem regressions_eq_of_same_order {one two : List α}
    (same : ∀ k, (one.filter fun item => key item = k) = two.filter fun item => key item = k) :
    regressions key bad one = regressions key bad two := by
  have covered : ∀ item ∈ one ++ two, key item ∈ ((one ++ two).map key).toFinset := by
    intro item member
    exact List.mem_toFinset.mpr (List.mem_map_of_mem member)
  rw [regressions_eq_sum key bad ((one ++ two).map key).toFinset one
      fun item member => covered item (List.mem_append_left _ member),
    regressions_eq_sum key bad ((one ++ two).map key).toFinset two
      fun item member => covered item (List.mem_append_right _ member)]
  simp only [same]

end RanInline.Lib
