/-
Module: RanInline.Lib.Commuting
Purpose: Tasks that read and write named buffers: tasks without a conflict commute, and two orders
  that keep every pair of conflicting tasks as it is leave the same memory.
Trusted boundary: none
Main exports: Task, Task.run, Task.Conflicts, Task.run_comm, runAll, runAll_eq_of_conflicts_kept,
  runAll_of_not_written
-/
import Mathlib.Data.List.Nodup
import Mathlib.Data.List.Perm.Basic

namespace RanInline.Lib

variable {Buffer Value Name : Type}

/-- A task: the buffers it reads and writes, and what it writes.  What it writes depends on the
buffers it reads only. -/
structure Task (Buffer Value : Type) where
  reads : List Buffer
  writes : List Buffer
  compute : (Buffer → Value) → Buffer → Value
  local_ : ∀ one two : Buffer → Value, (∀ buffer ∈ reads, one buffer = two buffer) →
    ∀ buffer ∈ writes, compute one buffer = compute two buffer

namespace Task

/-- One of the tasks writes a buffer that the other one uses. -/
def Conflicts (one two : Task Buffer Value) : Prop :=
  (∃ buffer ∈ one.writes, buffer ∈ two.reads ∨ buffer ∈ two.writes) ∨
    ∃ buffer ∈ two.writes, buffer ∈ one.reads

theorem Conflicts.symm {one two : Task Buffer Value} (conflicts : one.Conflicts two) :
    two.Conflicts one := by
  rcases conflicts with ⟨buffer, written, used | written'⟩ | ⟨buffer, written, used⟩
  · exact Or.inr ⟨buffer, written, used⟩
  · exact Or.inl ⟨buffer, written', Or.inr written⟩
  · exact Or.inl ⟨buffer, written, Or.inl used⟩

variable [DecidableEq Buffer]

/-- The memory after a task. -/
def run (task : Task Buffer Value) (memory : Buffer → Value) : Buffer → Value := fun buffer =>
  if buffer ∈ task.writes then task.compute memory buffer else memory buffer

variable {one two : Task Buffer Value} {memory : Buffer → Value} {buffer : Buffer}

theorem run_of_mem (task : Task Buffer Value) (written : buffer ∈ task.writes) :
    task.run memory buffer = task.compute memory buffer := if_pos written

theorem run_of_not_mem (task : Task Buffer Value) (kept : buffer ∉ task.writes) :
    task.run memory buffer = memory buffer := if_neg kept

/-- A task computes the same behind one that writes nothing it reads. -/
theorem compute_run (apart : ¬ one.Conflicts two) (written : buffer ∈ two.writes) :
    two.compute (one.run memory) buffer = two.compute memory buffer := by
  refine two.local_ _ _ (fun used reads => one.run_of_not_mem fun writes => ?_) buffer written
  exact apart (Or.inl ⟨used, writes, Or.inl reads⟩)

/-- Tasks without a conflict commute. -/
theorem run_comm (apart : ¬ one.Conflicts two) (memory : Buffer → Value) :
    two.run (one.run memory) = one.run (two.run memory) := by
  have apart' : ¬ two.Conflicts one := fun conflicts => apart conflicts.symm
  funext buffer
  by_cases first : buffer ∈ one.writes
  · have other : buffer ∉ two.writes := fun second =>
      apart (Or.inl ⟨buffer, first, Or.inr second⟩)
    rw [two.run_of_not_mem other, one.run_of_mem first, one.run_of_mem first,
      compute_run apart' first]
  · by_cases second : buffer ∈ two.writes
    · rw [two.run_of_mem second, one.run_of_not_mem first, two.run_of_mem second,
        compute_run apart second]
    · rw [two.run_of_not_mem second, one.run_of_not_mem first, one.run_of_not_mem first,
        two.run_of_not_mem second]

end Task

variable [DecidableEq Buffer] (tasks : Name → Task Buffer Value)

/-- The memory after tasks one by one. -/
def runAll (order : List Name) (memory : Buffer → Value) : Buffer → Value :=
  order.foldl (fun memory name => (tasks name).run memory) memory

theorem runAll_append (front back : List Name) (memory : Buffer → Value) :
    runAll tasks (front ++ back) memory = runAll tasks back (runAll tasks front memory) :=
  List.foldl_append

theorem runAll_cons (name : Name) (order : List Name) (memory : Buffer → Value) :
    runAll tasks (name :: order) memory = runAll tasks order ((tasks name).run memory) := rfl

/-- A buffer that no task writes is left as it is. -/
theorem runAll_of_not_written {order : List Name} {buffer : Buffer}
    (kept : ∀ name ∈ order, buffer ∉ (tasks name).writes) (memory : Buffer → Value) :
    runAll tasks order memory buffer = memory buffer := by
  induction order generalizing memory with
  | nil => rfl
  | cons name order inductionHypothesis =>
      obtain ⟨first, rest⟩ := List.forall_mem_cons.mp kept
      rw [runAll_cons, inductionHypothesis rest, Task.run_of_not_mem _ first]

/-- A task without a conflict with those in front of it can be run first. -/
theorem runAll_middle {name : Name} {front : List Name}
    (apart : ∀ other ∈ front, ¬ (tasks other).Conflicts (tasks name)) (back : List Name)
    (memory : Buffer → Value) :
    runAll tasks (front ++ name :: back) memory =
      runAll tasks (name :: (front ++ back)) memory := by
  induction front generalizing memory with
  | nil => rfl
  | cons other front inductionHypothesis =>
      obtain ⟨first, rest⟩ := List.forall_mem_cons.mp apart
      rw [List.cons_append, runAll_cons, inductionHypothesis rest, runAll_cons, runAll_cons,
        Task.run_comm first, List.cons_append, runAll_cons]

/-- In a list without repetitions only one of two orders is found. -/
theorem not_sublist_pair {list : List Name} (distinct : list.Nodup) {a b : Name}
    (before : [a, b].Sublist list) : ¬ [b, a].Sublist list := by
  intro after
  induction list with
  | nil => cases before
  | cons c list inductionHypothesis =>
      obtain ⟨fresh, distinct⟩ := List.nodup_cons.mp distinct
      cases before with
      | cons _ before =>
          cases after with
          | cons _ after => exact inductionHypothesis distinct before after
          | cons_cons _ after => exact fresh (before.subset (by simp))
      | cons_cons _ before =>
          cases after with
          | cons _ after => exact fresh (after.subset (by simp))
          | cons_cons _ after => exact fresh (before.subset (by simp))

/-- The first of two names stands in front of every place of the second. -/
theorem mem_front_of_sublist {front back : List Name} {a b : Name}
    (distinct : (front ++ b :: back).Nodup) (before : [a, b].Sublist (front ++ b :: back)) :
    a ∈ front := by
  by_contra outside
  have later : a ∈ b :: back :=
    (List.mem_append.mp (before.subset List.mem_cons_self)).resolve_left outside
  have twice : ¬ [b, b].Sublist (front ++ b :: back) := fun pair =>
    absurd (distinct.sublist pair) (by simp)
  rcases List.mem_cons.mp later with rfl | inBack
  · exact twice before
  · have after : [b, a].Sublist (front ++ b :: back) :=
      ((List.singleton_sublist.mpr inBack).cons_cons b).trans (List.sublist_append_right front _)
    exact not_sublist_pair distinct before after

theorem ne_of_mem_back {front back : List Name} {a b : Name}
    (distinct : (front ++ a :: back).Nodup) (later : b ∈ back) : b ≠ a := by
  rintro rfl
  exact (List.nodup_cons.mp distinct.of_append_right).1 later

/-- Two names of a list stand in one of the two orders. -/
theorem sublist_pair_or {list : List Name} {a b : Name} (first : a ∈ list) (second : b ∈ list)
    (different : a ≠ b) : [a, b].Sublist list ∨ [b, a].Sublist list := by
  obtain ⟨front, back, rfl⟩ := List.append_of_mem first
  rcases List.mem_append.mp second with inFront | later
  · exact Or.inr ((List.singleton_sublist.mpr inFront).append
      (List.singleton_sublist.mpr List.mem_cons_self))
  · have inBack := (List.mem_cons.mp later).resolve_left different.symm
    exact Or.inl (((List.singleton_sublist.mpr inBack).cons_cons a).trans
      (List.sublist_append_right front _))

theorem sublist_pair_trans {list : List Name} (distinct : list.Nodup) {a b c : Name}
    (first : [a, b].Sublist list) (second : [b, c].Sublist list) : [a, c].Sublist list := by
  obtain ⟨front, back, rfl⟩ := List.append_of_mem (second.subset List.mem_cons_self)
  have inFront := mem_front_of_sublist distinct first
  have later : c ∈ back := by
    have member := second.subset (List.mem_cons_of_mem b List.mem_cons_self)
    rcases List.mem_append.mp member with ahead | behind
    · have pair : [c, b].Sublist (front ++ b :: back) :=
        (List.singleton_sublist.mpr ahead).append (List.singleton_sublist.mpr List.mem_cons_self)
      exact absurd pair (not_sublist_pair distinct second)
    · refine (List.mem_cons.mp behind).resolve_left ?_
      rintro rfl
      exact absurd (distinct.sublist second) (by simp)
  exact (List.singleton_sublist.mpr inFront).append
    (List.singleton_sublist.mpr (List.mem_cons_of_mem b later))

/-- A buffer holds what the last task wrote that writes it. -/
theorem runAll_last (front : List Name) {back : List Name} {name : Name} {buffer : Buffer}
    (written : buffer ∈ (tasks name).writes)
    (kept : ∀ other ∈ back, buffer ∉ (tasks other).writes) (memory : Buffer → Value) :
    runAll tasks (front ++ name :: back) memory buffer =
      (tasks name).compute (runAll tasks front memory) buffer := by
  rw [runAll_append, runAll_cons, runAll_of_not_written tasks kept, Task.run_of_mem _ written]

/-- Two orders of the same tasks that keep the order of every conflicting pair leave the same
memory. -/
theorem runAll_eq_of_conflicts_kept [DecidableEq Name] {one two : List Name} (same : one.Perm two)
    (distinct : one.Nodup)
    (kept : ∀ a b, (tasks a).Conflicts (tasks b) → [a, b].Sublist one → [a, b].Sublist two)
    (memory : Buffer → Value) : runAll tasks one memory = runAll tasks two memory := by
  induction one generalizing two memory with
  | nil => rw [same.nil_eq]
  | cons a rest inductionHypothesis =>
      obtain ⟨fresh, distinctRest⟩ := List.nodup_cons.mp distinct
      obtain ⟨front, back, rfl⟩ := List.append_of_mem (same.subset List.mem_cons_self)
      have distinctTwo : (front ++ a :: back).Nodup := same.nodup distinct
      have apart : ∀ other ∈ front, ¬ (tasks other).Conflicts (tasks a) := by
        intro other inFront conflicts
        have inRest : other ∈ rest := by
          have member := same.mem_iff.mpr (List.mem_append_left (a :: back) inFront)
          refine (List.mem_cons.mp member).resolve_left ?_
          rintro rfl
          exact (List.disjoint_of_nodup_append distinctTwo) inFront List.mem_cons_self
        have ahead : [other, a].Sublist (front ++ a :: back) :=
          (List.singleton_sublist.mpr inFront).append
            (List.singleton_sublist.mpr List.mem_cons_self)
        refine not_sublist_pair distinctTwo ahead (kept a other conflicts.symm ?_)
        exact (List.singleton_sublist.mpr inRest).cons_cons a
      rw [runAll_middle tasks apart, runAll_cons, runAll_cons]
      refine inductionHypothesis ?_ distinctRest ?_ _
      · exact (List.perm_cons a).mp (same.trans List.perm_middle)
      · intro b c conflicts ahead
        have later := kept b c conflicts (ahead.cons a)
        have without : a ∉ [b, c] := fun member => fresh (ahead.subset member)
        have notInFront : a ∉ front := fun member =>
          List.disjoint_of_nodup_append distinctTwo member List.mem_cons_self
        have removed := later.erase a
        rwa [List.erase_of_not_mem without, List.erase_append_right _ notInFront,
          List.erase_cons_head] at removed

end RanInline.Lib
