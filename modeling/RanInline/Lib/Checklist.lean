/-
Module: RanInline.Lib.Checklist
Purpose: Validators that make their checks in a fixed order, stop at the first one that does not
  pass and write to a result on the way: what they accept, and what they leave when they stop.
Trusted boundary: none
Main exports: Verdict, Check, Outcome, runChecklist, updates, runChecklist_eq_accepted_iff,
  runChecklist_eq_rejected_iff
-/
import Mathlib.Data.List.Basic

namespace RanInline.Lib

/-- What a check says about a document.  An escape leaves the validator without an answer. -/
inductive Verdict (Error : Type) where
  | passes
  | rejects (error : Error)
  | escapes

/-- A check, with what is written to the result behind it. -/
structure Check (Doc Error State : Type) where
  verdict : Doc → Verdict Error
  update : Doc → State → State

/-- How a validator ends, with the result as it stands then. -/
inductive Outcome (Error State : Type) where
  | accepted (state : State)
  | rejected (error : Error) (state : State)
  | escaped (state : State)

variable {Doc Error State : Type}

/-- The checks in their order. -/
def runChecklist : List (Check Doc Error State) → Doc → State → Outcome Error State
  | [], _, state => .accepted state
  | check :: rest, doc, state =>
      match check.verdict doc with
      | .passes => runChecklist rest doc (check.update doc state)
      | .rejects error => .rejected error state
      | .escapes => .escaped state

/-- What checks write that all pass. -/
def updates (checks : List (Check Doc Error State)) (doc : Doc) (state : State) : State :=
  checks.foldl (fun state check => check.update doc state) state

/-- The check passes. -/
def Check.Passes (check : Check Doc Error State) (doc : Doc) : Prop := check.verdict doc = .passes

variable {checks : List (Check Doc Error State)} {doc : Doc} {state final : State} {error : Error}

theorem updates_append (front back : List (Check Doc Error State)) (doc : Doc) (state : State) :
    updates (front ++ back) doc state = updates back doc (updates front doc state) :=
  List.foldl_append

/-- Checks that pass are left behind. -/
theorem runChecklist_append {front : List (Check Doc Error State)}
    (passed : ∀ check ∈ front, check.Passes doc) (back : List (Check Doc Error State))
    (state : State) :
    runChecklist (front ++ back) doc state = runChecklist back doc (updates front doc state) := by
  induction front generalizing state with
  | nil => rfl
  | cons check front inductionHypothesis =>
      obtain ⟨first, rest⟩ := List.forall_mem_cons.mp passed
      rw [List.cons_append, runChecklist, first]
      exact inductionHypothesis rest _

/-- All checks pass, or there is a first one that does not. -/
theorem all_pass_or_first (checks : List (Check Doc Error State)) (doc : Doc) :
    (∀ check ∈ checks, check.Passes doc) ∨
      ∃ front check back, checks = front ++ check :: back ∧
        (∀ earlier ∈ front, earlier.Passes doc) ∧ ¬ check.Passes doc := by
  induction checks with
  | nil => exact Or.inl (List.forall_mem_nil _)
  | cons check rest inductionHypothesis =>
      by_cases passes : check.Passes doc
      · rcases inductionHypothesis with all | ⟨front, stop, back, rfl, passed, stops⟩
        · exact Or.inl (List.forall_mem_cons.mpr ⟨passes, all⟩)
        · exact Or.inr ⟨check :: front, stop, back, rfl,
            List.forall_mem_cons.mpr ⟨passes, passed⟩, stops⟩
      · exact Or.inr ⟨[], check, rest, rfl, List.forall_mem_nil _, passes⟩

theorem runChecklist_of_all (passed : ∀ check ∈ checks, check.Passes doc) (state : State) :
    runChecklist checks doc state = .accepted (updates checks doc state) := by
  have run := runChecklist_append passed [] state
  rwa [List.append_nil] at run

/-- A document is accepted when every check passes. -/
theorem runChecklist_eq_accepted_iff :
    runChecklist checks doc state = .accepted final ↔
      (∀ check ∈ checks, check.Passes doc) ∧ final = updates checks doc state := by
  rcases all_pass_or_first checks doc with all | ⟨front, check, back, rfl, passed, stops⟩
  · rw [runChecklist_of_all all, Outcome.accepted.injEq, eq_comm]
    exact ⟨fun same => ⟨all, same⟩, fun both => both.2⟩
  · rw [runChecklist_append passed, runChecklist]
    constructor
    · intro accepted
      cases verdict : check.verdict doc with
      | passes => exact absurd verdict stops
      | rejects error => simp [verdict] at accepted
      | escapes => simp [verdict] at accepted
    · rintro ⟨all, _⟩
      exact absurd (all check (by simp)) stops

/-- A document is rejected by the first check that does not pass, and what the checks in front of
it wrote stays. -/
theorem runChecklist_eq_rejected_iff :
    runChecklist checks doc state = .rejected error final ↔
      ∃ front check back, checks = front ++ check :: back ∧
        (∀ earlier ∈ front, earlier.Passes doc) ∧ check.verdict doc = .rejects error ∧
        final = updates front doc state := by
  constructor
  · intro rejected
    rcases all_pass_or_first checks doc with all | ⟨front, check, back, rfl, passed, stops⟩
    · rw [runChecklist_of_all all] at rejected
      cases rejected
    · rw [runChecklist_append passed, runChecklist] at rejected
      cases verdict : check.verdict doc with
      | passes => exact absurd verdict stops
      | rejects found =>
          simp only [verdict, Outcome.rejected.injEq] at rejected
          obtain ⟨rfl, same⟩ := rejected
          exact ⟨front, check, back, rfl, passed, verdict, same.symm⟩
      | escapes => simp [verdict] at rejected
  · rintro ⟨front, check, back, rfl, passed, verdict, rfl⟩
    rw [runChecklist_append passed, runChecklist, verdict]

end RanInline.Lib
