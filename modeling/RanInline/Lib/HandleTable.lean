/-
Module: RanInline.Lib.HandleTable
Purpose: Handles that a driver gives out and takes back: the multiset of live ones, the releases
  that hit no live one, and sequences of creations and releases.
Trusted boundary: none
Main exports: HandleTable, HandleTable.create, HandleTable.release, HandleTable.releaseAll, owned,
  HandleTable.Extends, HandleTable.Extends.trans, HandleTable.Extends.releaseAll
-/
import Mathlib.Algebra.Order.Group.Multiset
import Mathlib.Data.List.ReduceOption

namespace RanInline.Lib

/-- The calls made so far, the handles that are live, and the releases of a handle that was not. -/
structure HandleTable where
  calls : Nat
  live : Multiset Nat
  dangling : Nat
deriving DecidableEq

/-- The handles in a list of fields, without the null ones. -/
def owned (fields : List (Option Nat)) : Multiset Nat := fields.reduceOption

@[simp]
theorem owned_nil : owned [] = 0 := rfl

@[simp]
theorem owned_cons_none (fields : List (Option Nat)) : owned (none :: fields) = owned fields := rfl

@[simp]
theorem owned_cons_some (handle : Nat) (fields : List (Option Nat)) :
    owned (some handle :: fields) = handle ::ₘ owned fields := by
  rw [owned, List.reduceOption_cons_of_some, ← Multiset.cons_coe, owned]

@[simp]
theorem owned_append (front back : List (Option Nat)) :
    owned (front ++ back) = owned front + owned back := by
  rw [owned, List.reduceOption_append, ← Multiset.coe_add, owned, owned]

theorem owned_cons (field : Option Nat) (fields : List (Option Nat)) :
    owned (field :: fields) = owned [field] + owned fields := by
  rw [← owned_append, List.singleton_append]

theorem owned_eq_zero_iff {fields : List (Option Nat)} :
    owned fields = 0 ↔ ∀ field ∈ fields, field = none := by
  induction fields with
  | nil => simp
  | cons field fields inductionHypothesis => cases field <;> simp [inductionHypothesis]

/-- Setting a field that held no handle. -/
theorem owned_map_update {K : Type} [DecidableEq K] {keys : List K} {fields : K → Option Nat}
    {key : K} (handle : Option Nat) (distinct : keys.Nodup) (present : key ∈ keys)
    (unset : fields key = none) :
    owned (keys.map (Function.update fields key handle)) =
      owned (keys.map fields) + owned [handle] := by
  induction keys with
  | nil => exact absurd present List.not_mem_nil
  | cons first keys inductionHypothesis =>
      obtain ⟨fresh, distinct⟩ := List.nodup_cons.mp distinct
      by_cases same : key = first
      · subst same
        have others : keys.map (Function.update fields key handle) = keys.map fields := by
          refine List.map_congr_left fun other inside => ?_
          have different : other ≠ key := fun same => fresh (same ▸ inside)
          rw [Function.update_of_ne different]
        rw [List.map_cons, List.map_cons, others, Function.update_self, unset, owned_cons_none,
          add_comm, ← owned_cons]
      · have inside := (List.mem_cons.mp present).resolve_left same
        rw [List.map_cons, List.map_cons, Function.update_of_ne (Ne.symm same), owned_cons,
          owned_cons (fields first) (keys.map fields), inductionHypothesis distinct inside,
          add_assoc]

namespace HandleTable

variable (answer : Nat → Bool)

/-- A call that gives no handle; `answer` says which calls succeed. -/
def ask (table : HandleTable) : Bool × HandleTable :=
  (answer table.calls, { table with calls := table.calls + 1 })

/-- A creation. -/
def create (table : HandleTable) : Option Nat × HandleTable :=
  if answer table.calls = true then
    (some table.calls,
      { table with calls := table.calls + 1, live := table.calls ::ₘ table.live })
  else (none, { table with calls := table.calls + 1 })

/-- A release of whatever the field holds; a null handle is refused. -/
def release (table : HandleTable) : Option Nat → HandleTable
  | none => table
  | some handle =>
      if handle ∈ table.live then { table with live := table.live.erase handle }
      else { table with dangling := table.dangling + 1 }

/-- Releases one after the other. -/
def releaseAll (table : HandleTable) (fields : List (Option Nat)) : HandleTable :=
  fields.foldl release table

/-- The second table has these handles more than the first, and no further dangling release. -/
structure Extends (before after : HandleTable) (fields : List (Option Nat)) : Prop where
  live : after.live = before.live + owned fields
  dangling : after.dangling = before.dangling

variable {before between after table : HandleTable} {fields more : List (Option Nat)}

theorem Extends.refl (table : HandleTable) : Extends table table [] := ⟨by simp, rfl⟩

theorem Extends.trans (first : Extends before between fields)
    (second : Extends between after more) : Extends before after (fields ++ more) :=
  ⟨by rw [second.live, first.live, owned_append, add_assoc], second.dangling.trans first.dangling⟩

theorem Extends.congr (extends_ : Extends before after fields) (same : owned fields = owned more) :
    Extends before after more :=
  ⟨extends_.live.trans (by rw [same]), extends_.dangling⟩

theorem ask_extends (table : HandleTable) : Extends table (table.ask answer).2 [] :=
  ⟨by rw [ask, owned_nil, add_zero], rfl⟩

theorem create_extends (table : HandleTable) :
    Extends table (table.create answer).2 [(table.create answer).1] := by
  rw [create]
  split_ifs
  · exact ⟨by rw [owned_cons_some, owned_nil, Multiset.add_cons, add_zero], rfl⟩
  · exact ⟨by rw [owned_cons_none, owned_nil, add_zero], rfl⟩

theorem releaseAll_append (table : HandleTable) (front back : List (Option Nat)) :
    table.releaseAll (front ++ back) = (table.releaseAll front).releaseAll back :=
  List.foldl_append

/-- Handles that are live are released, and nothing else happens. -/
theorem releaseAll_of_live {rest : Multiset Nat} (live : table.live = rest + owned fields) :
    table.releaseAll fields = { table with live := rest } := by
  induction fields generalizing table with
  | nil =>
      rw [owned_nil, add_zero] at live
      rw [← live]
      rfl
  | cons field fields inductionHypothesis =>
      rw [releaseAll, List.foldl_cons, ← releaseAll]
      cases field with
      | none => exact inductionHypothesis live
      | some handle =>
          rw [owned_cons_some, Multiset.add_cons] at live
          have released : table.release (some handle) =
              { table with live := rest + owned fields } := by
            rw [release, if_pos (by rw [live]; exact Multiset.mem_cons_self _ _), live,
              Multiset.erase_cons_head]
          rw [released]
          exact inductionHypothesis rfl

/-- What was gained is released again. -/
theorem Extends.releaseAll (extends_ : Extends before after (fields ++ more)) :
    Extends before (after.releaseAll more) fields := by
  have live : after.live = before.live + owned fields + owned more := by
    rw [extends_.live, owned_append, add_assoc]
  rw [releaseAll_of_live live]
  exact ⟨rfl, extends_.dangling⟩

theorem Extends.releaseAll_all (extends_ : Extends before after fields) :
    Extends before (after.releaseAll fields) [] :=
  Extends.releaseAll (show Extends before after ([] ++ fields) from extends_)

end HandleTable

end RanInline.Lib
