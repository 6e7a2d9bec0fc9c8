/-
Module: RanInline.Lib.Transition
Purpose: Labelled transition systems, the states their restricted runs reach, and
  the invariant rule for such runs.
Trusted boundary: none
Main exports: TransitionSystem, Reaches, Reaches.invariant, Reaches.strengthen,
  ofNext, execute, Reaches.follow, Reaches.execute
-/
import Mathlib.Logic.Basic

namespace RanInline.Lib

/-- A labelled transition system.  The step is a relation, so that one action may
have several outcomes. -/
structure TransitionSystem (State Action : Type) where
  init : State → Prop
  step : State → Action → State → Prop

namespace TransitionSystem

variable {State Action : Type}

/-- The states reached by finite runs every step of which meets `permitted` in the
state before it. -/
inductive Reaches (system : TransitionSystem State Action)
    (permitted : State → Action → Prop) : State → Prop where
  | start {state : State} (initial : system.init state) :
      Reaches system permitted state
  | next {before after : State} {action : Action}
      (run : Reaches system permitted before)
      (allowed : permitted before action)
      (step : system.step before action after) :
      Reaches system permitted after

namespace Reaches

variable {system : TransitionSystem State Action}
  {permitted stronger : State → Action → Prop} {state : State}

/-- A property of the initial states that every permitted step preserves holds in
every state reached. -/
theorem invariant (holds : State → Prop)
    (base : ∀ state, system.init state → holds state)
    (preserved : ∀ before action after, holds before →
      permitted before action → system.step before action after → holds after)
    (run : Reaches system permitted state) : holds state := by
  induction run with
  | start initial => exact base _ initial
  | next _ allowed step inductionHypothesis =>
      exact preserved _ _ _ inductionHypothesis allowed step

/-- A run whose permitted steps meet a stronger condition, wherever an invariant of
the run holds, is a run under the stronger condition. -/
theorem strengthen (holds : State → Prop)
    (invariantHolds : ∀ state, Reaches system permitted state → holds state)
    (implies : ∀ before action, holds before → permitted before action →
      stronger before action)
    (run : Reaches system permitted state) : Reaches system stronger state := by
  induction run with
  | start initial => exact .start initial
  | next before allowed step inductionHypothesis =>
      exact .next inductionHypothesis
        (implies _ _ (invariantHolds _ before) allowed) step

end Reaches

/-- The system of a partial next-state function. -/
def ofNext (initial : State) (next : State → Action → Option State) :
    TransitionSystem State Action where
  init state := state = initial
  step before action after := next before action = some after

/-- Run a list of actions; `none` when one of them is not enabled. -/
def execute (next : State → Action → Option State) :
    State → List Action → Option State
  | state, [] => some state
  | state, action :: actions =>
      (next state action).bind fun after => execute next after actions

/-- Executing a list of actions from a reached state reaches its last state, in every system that
makes the steps of the function. -/
theorem Reaches.follow {system : TransitionSystem State Action} {state last : State}
    {next : State → Action → Option State} {permitted : State → Action → Prop}
    (enabled : ∀ before action after, next before action = some after →
      system.step before action after)
    (run : Reaches system permitted state) (actions : List Action)
    (allowed : ∀ state, ∀ action ∈ actions, permitted state action)
    (executed : TransitionSystem.execute next state actions = some last) :
    Reaches system permitted last := by
  induction actions generalizing state with
  | nil =>
      cases executed
      exact run
  | cons action actions inductionHypothesis =>
      obtain ⟨after, step, rest⟩ := Option.bind_eq_some_iff.mp executed
      refine inductionHypothesis (.next run ?_ (enabled _ _ _ step)) ?_ rest
      · exact allowed state action List.mem_cons_self
      · exact fun state action member =>
          allowed state action (List.mem_cons_of_mem _ member)

/-- The same for the system of the function itself. -/
theorem Reaches.execute {initial state last : State}
    {next : State → Action → Option State} {permitted : State → Action → Prop}
    (run : Reaches (ofNext initial next) permitted state) (actions : List Action)
    (allowed : ∀ state, ∀ action ∈ actions, permitted state action)
    (executed : TransitionSystem.execute next state actions = some last) :
    Reaches (ofNext initial next) permitted last :=
  run.follow (fun _ _ _ step => step) actions allowed executed

end TransitionSystem

end RanInline.Lib
