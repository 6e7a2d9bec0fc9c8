/-
Module: RanInline.Lib.CheckedStore
Purpose: Memories whose cells are read and written one at a time, with every access checked
  against the size, and loops that write consecutive cells.
Trusted boundary: none
Main exports: foldlM_range_invariant, foldlM_keeps, foldlM_invariant, foldlM_congr, CheckedStore,
  CheckedStore.fill, CheckedStore.fill_spec, listCells, fill_listCells, foldlM_range_of_reads,
  mapM_range_eq_some_iff
-/
import Mathlib.Data.List.Basic
import Mathlib.Data.List.Induction
import Mathlib.Tactic.SplitIfs

namespace RanInline.Lib

/-- The rule for counted loops that may fail: an invariant that holds at first, and that every
turn that is reached keeps and does not fail. -/
theorem foldlM_range_invariant {σ : Type} {step : σ → Nat → Option σ} {count : Nat} {start : σ}
    (invariant : Nat → σ → Prop) (begins : invariant 0 start)
    (turn : ∀ n < count, ∀ state, invariant n state →
      ∃ after, step state n = some after ∧ invariant (n + 1) after) :
    ∃ final, (List.range count).foldlM step start = some final ∧ invariant count final := by
  induction count with
  | zero => exact ⟨start, rfl, begins⟩
  | succ count inductionHypothesis =>
      obtain ⟨state, run, holds⟩ := inductionHypothesis fun n less => turn n (by omega)
      obtain ⟨after, last, holdsAfter⟩ := turn count (Nat.lt_succ_self count) state holds
      refine ⟨after, ?_, holdsAfter⟩
      rw [List.range_succ, List.foldlM_append, run, Option.bind_eq_bind, Option.bind_some,
        List.foldlM_cons, last]
      rfl

/-- The rule for loops over a list that may fail: what every turn that is made keeps holds at the
end. -/
theorem foldlM_keeps {σ α : Type} {step : σ → α → Option σ} {items : List α} {start final : σ}
    (invariant : σ → Prop)
    (turn : ∀ before item after, invariant before → step before item = some after →
      invariant after)
    (begins : invariant start) (run : items.foldlM step start = some final) :
    invariant final := by
  induction items generalizing start with
  | nil =>
      cases run
      exact begins
  | cons item items inductionHypothesis =>
      rw [List.foldlM_cons, Option.bind_eq_bind, Option.bind_eq_some_iff] at run
      obtain ⟨next, first, rest⟩ := run
      exact inductionHypothesis (turn start item next begins first) rest

/-- The rule for loops over a list that do not fail: an invariant of the part that is done, which
every next turn keeps. -/
theorem foldlM_invariant {σ α : Type} {step : σ → α → Option σ} {items : List α} {start : σ}
    (invariant : List α → σ → Prop) (begins : invariant [] start)
    (turn : ∀ done item, item ∈ items → ∀ state, invariant done state →
      ∃ after, step state item = some after ∧ invariant (done ++ [item]) after) :
    ∃ final, items.foldlM step start = some final ∧ invariant items final := by
  induction items using List.reverseRecOn with
  | nil => exact ⟨start, rfl, begins⟩
  | append_singleton items last inductionHypothesis =>
      obtain ⟨state, run, holds⟩ := inductionHypothesis fun done item member =>
        turn done item (List.mem_append_left _ member)
      obtain ⟨after, made, holdsAfter⟩ :=
        turn items last (List.mem_append_right _ List.mem_cons_self) state holds
      refine ⟨after, ?_, holdsAfter⟩
      rw [List.foldlM_append, run, Option.bind_eq_bind, Option.bind_some, List.foldlM_cons, made]
      rfl

/-- Loops whose turns agree have one result. -/
theorem foldlM_congr {σ α : Type} {step other : σ → α → Option σ} {items : List α}
    (same : ∀ item ∈ items, ∀ state, step state item = other state item) (start : σ) :
    items.foldlM step start = items.foldlM other start := by
  induction items generalizing start with
  | nil => rfl
  | cons item items inductionHypothesis =>
      rw [List.foldlM_cons, List.foldlM_cons, same item List.mem_cons_self]
      refine bind_congr fun next => ?_
      exact inductionHypothesis (fun item member => same item (List.mem_cons_of_mem _ member)) next

/-- A memory with cells of type `α`.  A write inside the memory succeeds and changes one
cell. -/
structure CheckedStore (β α : Type) where
  size : β → Nat
  get : β → Nat → Option α
  set : β → Nat → α → Option β
  set_spec : ∀ {memory : β} {i : Nat} (value : α), i < size memory →
    ∃ after, set memory i value = some after ∧ size after = size memory ∧
      ∀ j, get after j = if j = i then some value else get memory j

namespace CheckedStore

variable {β α : Type} (cells : CheckedStore β α)

/-- A loop that writes `count` cells from `base` on. -/
def fill (memory : β) (base count : Nat) (values : Nat → Option α) : Option β :=
  (List.range count).foldlM
    (fun memory k => (values k).bind fun value => cells.set memory (base + k) value) memory

/-- Loops that write the same values have one result. -/
theorem fill_congr {memory : β} {base count : Nat} {values others : Nat → Option α}
    (same : ∀ k < count, values k = others k) :
    cells.fill memory base count values = cells.fill memory base count others :=
  foldlM_congr (fun k member memory => by rw [same k (List.mem_range.mp member)]) memory

/-- The loop writes its cells and leaves the others alone. -/
theorem fill_spec {memory : β} {base : Nat} (count : Nat) (values : Nat → Option α)
    (result : Nat → α) (inside : base + count ≤ cells.size memory)
    (defined : ∀ k < count, values k = some (result k)) :
    ∃ after, cells.fill memory base count values = some after ∧
      cells.size after = cells.size memory ∧
      ∀ j, cells.get after j =
        if base ≤ j ∧ j < base + count then some (result (j - base))
        else cells.get memory j := by
  apply foldlM_range_invariant fun n (after : β) => cells.size after = cells.size memory ∧
    ∀ j, cells.get after j =
      if base ≤ j ∧ j < base + n then some (result (j - base)) else cells.get memory j
  · refine ⟨rfl, fun j => ?_⟩
    rw [if_neg (by omega)]
  · rintro n less before ⟨size, get⟩
    obtain ⟨after, written, sizeAfter, getAfter⟩ :=
      cells.set_spec (result n) (show base + n < cells.size before by omega)
    refine ⟨after, by rw [defined n less, Option.bind_some, written], sizeAfter.trans size,
      fun j => ?_⟩
    rw [getAfter, get]
    by_cases here : j = base + n
    · rw [if_pos here, if_pos (by omega), here, Nat.add_sub_cancel_left]
    · rw [if_neg here]
      by_cases earlier : base ≤ j ∧ j < base + n
      · rw [if_pos earlier, if_pos (by omega)]
      · rw [if_neg earlier, if_neg (by omega)]

end CheckedStore

/-- The elements of a list as cells. -/
def listCells (α : Type) : CheckedStore (List α) α where
  size := List.length
  get := fun list i => list[i]?
  set := fun list i value => if i < list.length then some (list.set i value) else none
  set_spec := by
    intro list i value inside
    refine ⟨list.set i value, if_pos inside, List.length_set, fun j => ?_⟩
    rw [List.getElem?_set]
    by_cases here : j = i
    · rw [if_pos here, if_pos here.symm, if_pos inside]
    · rw [if_neg here, if_neg (Ne.symm here)]

/-- The loop on a list. -/
theorem fill_listCells {α : Type} {list : List α} {base : Nat} (count : Nat)
    (values : Nat → Option α) (result : Nat → α) (inside : base + count ≤ list.length)
    (defined : ∀ k < count, values k = some (result k)) :
    ∃ after, (listCells α).fill list base count values = some after ∧
      after.length = list.length ∧
      ∀ j : Nat, after[j]? =
        if base ≤ j ∧ j < base + count then some (result (j - base)) else list[j]? :=
  (listCells α).fill_spec count values result inside defined

/-- A loop over cells that are read one after the other is a loop over their values. -/
theorem foldlM_range_of_reads {α σ : Type} (step : σ → α → σ) {reads : Nat → Option α}
    {values : List α} (defined : ∀ i < values.length, reads i = values[i]?) (start : σ) :
    (List.range values.length).foldlM (fun state i => (reads i).map (step state)) start =
      some (values.foldl step start) := by
  have loop : ∃ final,
      (List.range values.length).foldlM (fun state i => (reads i).map (step state)) start =
        some final ∧ final = (values.take values.length).foldl step start := by
    apply foldlM_range_invariant fun n state => state = (values.take n).foldl step start
    · rfl
    · rintro n less _ rfl
      have element : values[n]? = some values[n] := List.getElem?_eq_getElem less
      refine ⟨_, by rw [defined n less, element, Option.map_some], ?_⟩
      rw [List.take_add_one, element, List.foldl_append]
      rfl
  obtain ⟨final, run, rfl⟩ := loop
  rw [run, List.take_length]

/-- What consecutive reads give, all of them inside the memory. -/
theorem mapM_range_eq_some_iff {α : Type} {reads : Nat → Option α} {n : Nat} {values : List α} :
    (List.range n).mapM reads = some values ↔
      values.length = n ∧ ∀ i < n, reads i = values[i]? := by
  induction n generalizing values with
  | zero => simp [eq_comm]
  | succ n inductionHypothesis =>
      rw [List.range_succ, List.mapM_append]
      simp only [List.mapM_cons, List.mapM_nil, Option.bind_eq_bind, Option.bind_eq_some_iff,
        Option.pure_def, Option.some.injEq]
      constructor
      · rintro ⟨earlier, read, _, ⟨last, readLast, _, rfl, rfl⟩, rfl⟩
        obtain ⟨rfl, found⟩ := inductionHypothesis.mp read
        refine ⟨by rw [List.length_append, List.length_singleton], fun i less => ?_⟩
        rcases Nat.lt_succ_iff_lt_or_eq.mp less with before | rfl
        · rw [found i before, List.getElem?_append_left before]
        · rw [readLast, List.getElem?_concat_length]
      · rintro ⟨length, found⟩
        have last : reads n = some values[n] := by
          rw [found n n.lt_succ_self, List.getElem?_eq_getElem]
        refine ⟨values.take n, inductionHypothesis.mpr ⟨?_, fun i less => ?_⟩, [values[n]],
          ⟨values[n], last, [], rfl, rfl⟩, ?_⟩
        · rw [List.length_take, length]
          omega
        · rw [found i (by omega), List.getElem?_take_of_lt less]
        · rw [List.take_append_getElem, ← length, List.take_length]

end RanInline.Lib
