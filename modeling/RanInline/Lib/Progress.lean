/-
Module: RanInline.Lib.Progress
Purpose: Infinite runs of a labelled transition system, the rule by which a rank that
  falls at helpful steps reaches a goal, and the runs that repeat one action from some
  point on.
Trusted boundary: none
Main exports: InfiniteRun, InfiniteRun.reaches, InfiniteRun.eventually_of_rank,
  InfiniteRun.exists_follow
-/
import RanInline.Lib.Transition
import Mathlib.Data.List.GetD
import Mathlib.Algebra.Order.Group.Nat
import Mathlib.Data.Nat.Init
import Mathlib.Order.Basic

namespace RanInline.Lib.TransitionSystem

variable {State Action : Type} {system : TransitionSystem State Action}

/-- A run that never ends. -/
structure InfiniteRun (system : TransitionSystem State Action) where
  state : Nat → State
  action : Nat → Action
  initial : system.init (state 0)
  step : ∀ n, system.step (state n) (action n) (state (n + 1))

namespace InfiniteRun

/-- Every state of an infinite run is reached by a finite one. -/
theorem reaches (run : InfiniteRun system) {permitted : State → Action → Prop}
    (allowed : ∀ n, permitted (run.state n) (run.action n)) (n : Nat) :
    system.Reaches permitted (run.state n) := by
  induction n with
  | zero => exact .start run.initial
  | succ n inductionHypothesis => exact .next inductionHypothesis (allowed n) (run.step n)

/-- What every step of the run keeps holds from one point of it on. -/
theorem always_from (run : InfiniteRun system) (holds : State → Prop) {start : Nat}
    (keeps : ∀ n, start ≤ n → holds (run.state n) → holds (run.state (n + 1)))
    (base : holds (run.state start)) {n : Nat} (later : start ≤ n) : holds (run.state n) := by
  induction n, later using Nat.le_induction with
  | base => exact base
  | succ n later inductionHypothesis => exact keeps n later inductionHypothesis

/-- A rank that no step raises and every helpful step lowers reaches its goal, when helpful steps
never stop before the goal. -/
theorem eventually_of_rank (run : InfiniteRun system) (goal : State → Prop)
    (helpful : State → Action → Prop) (rank : State → Nat) {start : Nat}
    (keeps : ∀ n, start ≤ n → ¬ goal (run.state n) →
      goal (run.state (n + 1)) ∨ rank (run.state (n + 1)) ≤ rank (run.state n))
    (falls : ∀ n, start ≤ n → ¬ goal (run.state n) →
      helpful (run.state n) (run.action n) →
        goal (run.state (n + 1)) ∨ rank (run.state (n + 1)) < rank (run.state n))
    (fair : ∀ n, start ≤ n → ∃ m, n ≤ m ∧
      (goal (run.state m) ∨ helpful (run.state m) (run.action m))) :
    ∃ n, start ≤ n ∧ goal (run.state n) := by
  induction rankEq : rank (run.state start) using Nat.strong_induction_on generalizing start with
  | _ value inductionHypothesis =>
      by_contra never
      simp only [not_exists, not_and] at never
      obtain ⟨m, later, occurs⟩ := fair start (Nat.le_refl start)
      have kept : rank (run.state m) ≤ rank (run.state start) := by
        apply run.always_from (fun state => rank state ≤ rank (run.state start)) _
          (Nat.le_refl _) later
        intro n started below
        have rises := keeps n started (never n started)
        have notReached := never (n + 1) (Nat.le_succ_of_le started)
        exact (rises.resolve_left notReached).trans below
      have notReached := never (m + 1) (Nat.le_succ_of_le later)
      have helps := occurs.resolve_left (never m later)
      have fallen := (falls m later (never m later) helps).resolve_left notReached
      obtain ⟨n, further, reached⟩ := inductionHypothesis (rank (run.state (m + 1))) (by omega)
        (fun n after => keeps n (by omega)) (fun n after => falls n (by omega))
        (fun n after => fair n (by omega)) rfl
      exact never n (by omega) reached

end InfiniteRun

/-! ### Runs of a next-state function -/

variable {next : State → Action → Option State}

theorem execute_append (first : State) (front back : List Action) :
    execute next first (front ++ back) =
      (execute next first front).bind fun middle => execute next middle back := by
  induction front generalizing first with
  | nil => rfl
  | cons action front inductionHypothesis =>
      simp only [List.cons_append, execute, Option.bind_assoc, inductionHypothesis]

/-- Every finite execution whose last state can repeat one action extends to an infinite run. -/
theorem InfiniteRun.exists_follow (system : TransitionSystem State Action)
    (enabled : ∀ before action after, next before action = some after →
      system.step before action after)
    {first last : State} {actions : List Action} {repeated : Action}
    (initial : system.init first) (executed : execute next first actions = some last)
    (stays : next last repeated = some last) :
    ∃ run : InfiniteRun system,
      (∀ n, actions.length ≤ n → run.state n = last ∧ run.action n = repeated) ∧
        ∀ n, run.action n ∈ actions ∨ run.action n = repeated := by
  have steps : ∀ n, next ((execute next first (actions.take n)).getD last)
      (actions.getD n repeated) =
        some ((execute next first (actions.take (n + 1))).getD last) := by
    intro n
    rcases Nat.lt_or_ge n actions.length with inside | beyond
    · have whole := executed
      have take_succ := List.take_append_getElem inside
      rw [← List.take_append_drop (n + 1) actions, execute_append, ← take_succ,
        execute_append] at whole
      obtain ⟨after, prefixed, _⟩ := Option.bind_eq_some_iff.mp whole
      obtain ⟨before, executedBefore, single⟩ := Option.bind_eq_some_iff.mp prefixed
      rw [← take_succ, execute_append, executedBefore]
      simp only [Option.bind_some, single, Option.getD_some, List.getD_eq_getElem _ _ inside]
      simpa [execute] using single
    · rw [List.take_of_length_le beyond, List.take_of_length_le (Nat.le_succ_of_le beyond),
        executed, List.getD_eq_default _ _ beyond]
      exact stays
  refine ⟨⟨fun n => (execute next first (actions.take n)).getD last,
    fun n => actions.getD n repeated, ?_, fun n => enabled _ _ _ (steps n)⟩, ?_, ?_⟩
  · simpa [execute] using initial
  · intro n beyond
    simp [List.take_of_length_le beyond, executed, List.getElem?_eq_none beyond]
  · intro n
    rcases Nat.lt_or_ge n actions.length with inside | beyond
    · left
      simp only [List.getD_eq_getElem _ _ inside]
      exact List.getElem_mem inside
    · right
      exact List.getD_eq_default _ _ beyond

end RanInline.Lib.TransitionSystem
