/-
Module: RanInline.Lib.Interleave
Purpose: Interleavings of the event sequences of any number of threads.
Trusted boundary: none
Main exports: Interleaves, Interleaves.perm_flatten, Interleaves.mem_iff,
  Interleaves.sequential, Interleaves.filter_owner, view_foldl
-/
import Mathlib.Data.List.Basic

namespace RanInline.Lib

variable {Event : Type} {threads : List (List Event)} {order : List Event}

/-- `order` runs every thread to its end, one event at a time, each thread in its own
order. -/
inductive Interleaves : List (List Event) → List Event → Prop where
  | done {threads : List (List Event)} (finished : ∀ thread ∈ threads, thread = []) :
      Interleaves threads []
  | run {left right : List (List Event)} {event : Event} {thread order : List Event}
      (rest : Interleaves (left ++ thread :: right) order) :
      Interleaves (left ++ (event :: thread) :: right) (event :: order)

namespace Interleaves

/-- An interleaving has the events of its threads, each as often as they have it. -/
theorem perm_flatten (interleaves : Interleaves threads order) :
    order.Perm threads.flatten := by
  induction interleaves with
  | done finished => rw [List.flatten_eq_nil_iff.mpr finished]
  | @run left right event thread order rest inductionHypothesis =>
      have moved : (event :: (left ++ thread :: right).flatten).Perm
          (left ++ (event :: thread) :: right).flatten := by
        simp only [List.flatten_append, List.flatten_cons, List.cons_append]
        exact List.perm_middle.symm
      exact (inductionHypothesis.cons event).trans moved

theorem mem_iff (interleaves : Interleaves threads order) {event : Event} :
    event ∈ order ↔ ∃ thread ∈ threads, event ∈ thread := by
  rw [interleaves.perm_flatten.mem_iff, List.mem_flatten]

/-- A finished thread in front changes nothing. -/
theorem cons_nil (interleaves : Interleaves threads order) :
    Interleaves ([] :: threads) order := by
  induction interleaves with
  | done finished => exact .done (by simpa using finished)
  | @run left right event thread order _ inductionHypothesis =>
      have rest : Interleaves (([] :: left) ++ thread :: right) order := inductionHypothesis
      exact .run rest

/-- Running the threads one after the other is an interleaving. -/
theorem sequential (threads : List (List Event)) :
    Interleaves threads threads.flatten := by
  induction threads with
  | nil => exact .done (by simp)
  | cons thread threads inductionHypothesis =>
      induction thread with
      | nil => exact inductionHypothesis.cons_nil
      | cons event thread rest =>
          have rest : Interleaves ([] ++ thread :: threads) (thread :: threads).flatten := rest
          exact .run rest

/-- When every event tells the thread it belongs to, the events of a thread are found in the order
of that thread. -/
theorem filter_owner (interleaves : Interleaves threads order) {owner : Event → Nat}
    (owned : ∀ k, ∀ event ∈ threads[k]?.getD [], owner event = k) (k : Nat) :
    order.filter (owner · == k) = threads[k]?.getD [] := by
  induction interleaves with
  | @done threads finished =>
      cases found : threads[k]? with
      | none => rfl
      | some thread => exact (finished thread (List.mem_of_getElem? found)).symm
  | @run left right event thread order rest inductionHypothesis =>
      have mine : owner event = left.length := by
        apply owned left.length
        simp
      have others (j : Nat) (other : j ≠ left.length) :
          (left ++ (event :: thread) :: right)[j]? = (left ++ thread :: right)[j]? := by
        rcases Nat.lt_or_ge j left.length with before | behind
        · rw [List.getElem?_append_left before, List.getElem?_append_left before]
        · obtain ⟨n, place⟩ : ∃ n, j - left.length = n + 1 := ⟨j - left.length - 1, by omega⟩
          rw [List.getElem?_append_right behind, List.getElem?_append_right behind, place,
            List.getElem?_cons_succ, List.getElem?_cons_succ]
      have remaining := inductionHypothesis fun j another member => by
        by_cases here : j = left.length
        · apply owned j
          subst here
          simp only [List.getElem?_append_right (Nat.le_refl _), Nat.sub_self,
            List.getElem?_cons_zero, Option.getD_some] at member ⊢
          exact List.mem_cons_of_mem _ member
        · apply owned j
          rwa [others j here]
      by_cases here : k = left.length
      · subst here
        rw [List.filter_cons_of_pos (by simpa using mine), remaining]
        simp
      · have apart : owner event ≠ k := fun same => here (same.symm.trans mine)
        rw [List.filter_cons_of_neg (by simpa using apart), remaining, others k here]

end Interleaves

/-- A part of the state that some events move on their own, and that the others leave alone, is
moved by those events in their order. -/
theorem view_foldl {State View : Type} (view : State → View) (step : State → Event → State)
    (own : View → Event → View) (mine : Event → Bool)
    (moves : ∀ event ∈ order, ∀ state,
      view (step state event) = if mine event then own (view state) event else view state)
    (start : State) :
    view (order.foldl step start) = (order.filter mine).foldl own (view start) := by
  induction order generalizing start with
  | nil => rfl
  | cons event order inductionHypothesis =>
      rw [List.foldl_cons, inductionHypothesis fun other member =>
        moves other (List.mem_cons_of_mem _ member), moves event List.mem_cons_self,
        List.filter_cons]
      split_ifs <;> rfl

end RanInline.Lib
