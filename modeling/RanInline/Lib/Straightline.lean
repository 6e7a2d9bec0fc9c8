/-
Module: RanInline.Lib.Straightline
Purpose: Straight-line programs: what holds in every state they pass, across every step
  and at their end, with the rules for sequences and loops.
Trusted boundary: none
Main exports: Along, Along.append, Along.forEach, Along.forRange, Along.forEachIdx,
  Along.drop, Along.ends, Along.between, flatMap_of_append, forall_foldlM_take_eq_iff
-/
import Mathlib.Data.List.Basic

namespace RanInline.Lib

variable {State Op : Type} {exec : State → Op → Option State}
  {always final : State → Prop} {change : State → State → Prop}

/-- The operations can be executed one after the other, every state passed meets `always`,
every step is a `change`, and the last state meets `final`. -/
def Along (exec : State → Op → Option State) (always : State → Prop)
    (change : State → State → Prop) (final : State → Prop) : List Op → State → Prop
  | [], state => always state ∧ final state
  | op :: ops, state => always state ∧ ∃ next, exec state op = some next ∧
      change state next ∧ Along exec always change final ops next

namespace Along

theorem head {ops : List Op} {state : State}
    (along : Along exec always change final ops state) : always state := by
  cases ops with
  | nil => exact along.1
  | cons op ops => exact along.1

/-- A single operation. -/
theorem single {op : Op} {state next : State} (before : always state)
    (executed : exec state op = some next) (changed : change state next)
    (after : always next) (ends : final next) :
    Along exec always change final [op] state :=
  ⟨before, next, executed, changed, after, ends⟩

theorem mono {final' : State → Prop} {ops : List Op} {state : State}
    (along : Along exec always change final ops state)
    (implies : ∀ state, always state → final state → final' state) :
    Along exec always change final' ops state := by
  induction ops generalizing state with
  | nil => exact ⟨along.1, implies _ along.1 along.2⟩
  | cons op ops inductionHypothesis =>
      obtain ⟨before, next, executed, changed, rest⟩ := along
      exact ⟨before, next, executed, changed, inductionHypothesis rest⟩

/-- The sequence rule. -/
theorem append {middle : State → Prop} {first second : List Op} {state : State}
    (along : Along exec always change middle first state)
    (continues : ∀ state, middle state → Along exec always change final second state) :
    Along exec always change final (first ++ second) state := by
  induction first generalizing state with
  | nil => exact continues state along.2
  | cons op ops inductionHypothesis =>
      obtain ⟨before, next, executed, changed, rest⟩ := along
      exact ⟨before, next, executed, changed, inductionHypothesis rest⟩

/-- The loop rule: the invariant may depend on the items already done. -/
theorem forEach {Item : Type} {items : List Item} {body : Item → List Op}
    (invariant : List Item → State → Prop)
    (step : ∀ (done rest : List Item) (item : Item), items = done ++ item :: rest →
      ∀ state, invariant done state →
        Along exec always change (invariant (done ++ [item])) (body item) state)
    {state : State} (before : always state) (base : invariant [] state) :
    Along exec always change (invariant items) (items.flatMap body) state := by
  suffices ∀ (rest done : List Item) (state : State), items = done ++ rest → always state →
      invariant done state →
      Along exec always change (invariant items) (rest.flatMap body) state from
    this items [] state rfl before base
  intro rest
  induction rest with
  | nil =>
      intro done state split before holds
      rw [List.append_nil] at split
      exact ⟨before, split ▸ holds⟩
  | cons item rest inductionHypothesis =>
      intro done state split before holds
      rw [List.flatMap_cons]
      have first : Along exec always change
          (fun state => always state ∧ invariant (done ++ [item]) state) (body item) state :=
        (step done rest item split state holds).mono fun _ here after => ⟨here, after⟩
      refine first.append fun next reached => ?_
      exact inductionHypothesis (done ++ [item]) next (by simpa using split) reached.1 reached.2

/-- The loop rule for a counter. -/
theorem forRange {n : Nat} {body : Nat → List Op} (invariant : Nat → State → Prop)
    (step : ∀ i < n, ∀ state, invariant i state →
      Along exec always change (invariant (i + 1)) (body i) state)
    {state : State} (before : always state) (base : invariant 0 state) :
    Along exec always change (invariant n) ((List.range n).flatMap body) state := by
  have stepItem : ∀ (done rest : List Nat) (i : Nat), List.range n = done ++ i :: rest →
      ∀ state, invariant done.length state →
        Along exec always change (fun state => invariant (done ++ [i]).length state) (body i)
          state := by
    intro done rest i split state holds
    have length : n = done.length + (rest.length + 1) := by
      simpa using congrArg List.length split
    have here : (List.range n)[done.length]? = some i := by rw [split]; simp
    obtain rfl : done.length = i := by
      rw [List.getElem?_range (by omega)] at here
      exact Option.some.inj here
    simpa using step done.length (by omega) state holds
  simpa using forEach (fun done => invariant done.length) stepItem before base

/-- The loop rule for a list with a running index. -/
theorem forEachIdx {Item : Type} {items : List Item} {body : Item × Nat → List Op}
    (invariant : Nat → State → Prop)
    (step : ∀ (index : Nat) (item : Item), items[index]? = some item →
      ∀ state, invariant index state →
        Along exec always change (invariant (index + 1)) (body (item, index)) state)
    {state : State} (before : always state) (base : invariant 0 state) :
    Along exec always change (invariant items.length) (items.zipIdx.flatMap body) state := by
  have stepItem : ∀ (done rest : List (Item × Nat)) (item : Item × Nat),
      items.zipIdx = done ++ item :: rest → ∀ state, invariant done.length state →
        Along exec always change (fun state => invariant (done ++ [item]).length state)
          (body item) state := by
    intro done rest item split state holds
    have here : items.zipIdx[done.length]? = some item := by rw [split]; simp
    rw [List.getElem?_zipIdx, Nat.zero_add] at here
    obtain ⟨value, found, rfl⟩ := Option.map_eq_some_iff.mp here
    simpa using step done.length value found state holds
  simpa using forEach (fun done => invariant done.length) stepItem before base

/-- Where the program stands after some operations. -/
theorem drop {ops : List Op} {state : State}
    (along : Along exec always change final ops state) (k : Nat) :
    ∃ next, (ops.take k).foldlM exec state = some next ∧
      Along exec always change final (ops.drop k) next := by
  induction k generalizing ops state with
  | zero => exact ⟨state, rfl, along⟩
  | succ k inductionHypothesis =>
      cases ops with
      | nil => exact ⟨state, rfl, along⟩
      | cons op ops =>
          obtain ⟨_, next, executed, _, rest⟩ := along
          obtain ⟨last, run, remaining⟩ := inductionHypothesis rest
          refine ⟨last, ?_, remaining⟩
          rw [List.take_succ_cons, List.foldlM_cons, executed]
          exact run

/-- The end of the program. -/
theorem ends {ops : List Op} {state : State}
    (along : Along exec always change final ops state) :
    ∃ last, ops.foldlM exec state = some last ∧ always last ∧ final last := by
  obtain ⟨last, run, remaining⟩ := along.drop ops.length
  rw [List.take_length] at run
  rw [List.drop_length] at remaining
  exact ⟨last, run, remaining⟩

/-- Two states of one run, the second not earlier than the first, are related by every
preorder that contains the steps. -/
theorem between {ops : List Op} {state first second : State}
    (along : Along exec always change final ops state) (refl : ∀ state, change state state)
    (trans : ∀ one two three, change one two → change two three → change one three)
    {k later : Nat} (le : k ≤ later) (reachedFirst : (ops.take k).foldlM exec state = some first)
    (reachedSecond : (ops.take later).foldlM exec state = some second) :
    change first second := by
  induction k generalizing ops state later with
  | zero =>
      obtain rfl : state = first := Option.some.inj reachedFirst
      clear le reachedFirst
      induction later generalizing ops state with
      | zero =>
          obtain rfl : state = second := Option.some.inj reachedSecond
          exact refl state
      | succ later inductionHypothesis =>
          cases ops with
          | nil =>
              obtain rfl : state = second := Option.some.inj reachedSecond
              exact refl state
          | cons op ops =>
              obtain ⟨_, next, executed, changed, rest⟩ := along
              rw [List.take_succ_cons, List.foldlM_cons, executed] at reachedSecond
              exact trans _ _ _ changed (inductionHypothesis rest reachedSecond)
  | succ k inductionHypothesis =>
      obtain ⟨later, rfl⟩ : ∃ n, later = n + 1 := ⟨later - 1, by omega⟩
      cases ops with
      | nil =>
          obtain rfl : state = first := Option.some.inj reachedFirst
          obtain rfl : state = second := Option.some.inj reachedSecond
          exact refl state
      | cons op ops =>
          obtain ⟨_, next, executed, _, rest⟩ := along
          rw [List.take_succ_cons, List.foldlM_cons, executed] at reachedFirst reachedSecond
          exact inductionHypothesis rest (by omega) reachedFirst reachedSecond

end Along

/-! ### Properties of the program text -/

/-- What holds of a sequence when it holds of both parts holds of a loop when it holds of every
turn. -/
theorem flatMap_of_append {Item : Type} {items : List Item} {body : Item → List Op}
    {holds : List Op → Prop} (empty : holds [])
    (append : ∀ first second, holds first → holds second → holds (first ++ second))
    (each : ∀ item ∈ items, holds (body item)) : holds (items.flatMap body) := by
  induction items with
  | nil => exact empty
  | cons item items inductionHypothesis =>
      rw [List.flatMap_cons]
      apply append
      · exact each item List.mem_cons_self
      · exact inductionHypothesis fun item member => each item (List.mem_cons_of_mem _ member)

/-! ### The last operation -/

theorem foldlM_concat_eq_some {ops : List Op} {op : Op} {start last : State} :
    (ops ++ [op]).foldlM exec start = some last ↔
      ∃ state, ops.foldlM exec start = some state ∧ exec state op = some last := by
  rw [List.foldlM_append]
  refine Option.bind_eq_some_iff.trans (exists_congr fun state => and_congr_right fun _ => ?_)
  rw [List.foldlM_cons]
  cases exec state op <;> rfl

/-! ### Two readings of one program -/

theorem foldlM_take_succ (exec : State → Op → Option State) {ops : List Op} {k : Nat} {op : Op}
    (found : ops[k]? = some op) (start : State) :
    (ops.take (k + 1)).foldlM exec start =
      (ops.take k).foldlM exec start >>= fun state => exec state op := by
  rw [List.take_add_one, found, Option.toList_some, List.foldlM_append]
  refine bind_congr fun state => ?_
  rw [List.foldlM_cons]
  cases exec state op <;> rfl

/-- Two ways to execute a program pass the same states exactly when they agree on every
operation in the state in front of it. -/
theorem forall_foldlM_take_eq_iff {exec' : State → Op → Option State} (ops : List Op)
    (start : State) :
    (∀ k, (ops.take k).foldlM exec start = (ops.take k).foldlM exec' start) ↔
      ∀ k op state, ops[k]? = some op → (ops.take k).foldlM exec start = some state →
        exec state op = exec' state op := by
  constructor
  · intro same k op state found reached
    have next := same (k + 1)
    rwa [foldlM_take_succ exec found, foldlM_take_succ exec' found, ← same k, reached] at next
  · intro agree k
    induction k with
    | zero => rfl
    | succ k inductionHypothesis =>
        cases found : ops[k]? with
        | none =>
            have short : ops.length ≤ k := List.getElem?_eq_none_iff.mp found
            rw [List.take_of_length_le short] at inductionHypothesis
            rwa [List.take_of_length_le (by omega)]
        | some op =>
            rw [foldlM_take_succ exec found, foldlM_take_succ exec' found, ← inductionHypothesis]
            cases reached : (ops.take k).foldlM exec start with
            | none => rfl
            | some state => exact agree k op state found reached

end RanInline.Lib
