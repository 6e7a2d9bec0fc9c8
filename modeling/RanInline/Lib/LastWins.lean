/-
Module: RanInline.Lib.LastWins
Purpose: Tables that are filled from a list one entry after the other, where a later entry
  replaces an earlier one under the same key.
Trusted boundary: none
Main exports: lastUnder, lastUnder_of_mem, tableOf, tableOf_apply, tableOf_of_mem
-/
import Mathlib.Data.List.Induction
import Mathlib.Logic.Function.Basic

namespace RanInline.Lib

variable {Item Key Value : Type} [DecidableEq Key]

/-- The last item of a list under a key. -/
def lastUnder (keyOf : Item → Key) (key : Key) (items : List Item) : Option Item :=
  items.reverse.find? fun item => keyOf item = key

/-- The entries of a list, written to a table in their order. -/
def tableOf (keyOf : Item → Key) (valueOf : Item → Value) (items : List Item)
    (start : Key → Value) : Key → Value :=
  items.foldl (fun table item => Function.update table (keyOf item) (valueOf item)) start

variable {keyOf : Item → Key} {valueOf : Item → Value} {items : List Item}

theorem lastUnder_concat (keyOf : Item → Key) (key : Key) (items : List Item) (item : Item) :
    lastUnder keyOf key (items ++ [item]) =
      if keyOf item = key then some item else lastUnder keyOf key items := by
  rw [lastUnder, List.reverse_append, List.reverse_singleton, List.singleton_append,
    List.find?_cons]
  by_cases here : keyOf item = key
  · simp [here]
  · simp [here, lastUnder]

/-- What stands under a key is the value of the last item with that key. -/
theorem tableOf_apply (keyOf : Item → Key) (valueOf : Item → Value) (items : List Item)
    (start : Key → Value) (key : Key) :
    tableOf keyOf valueOf items start key =
      ((lastUnder keyOf key items).map valueOf).getD (start key) := by
  induction items using List.reverseRecOn with
  | nil => rfl
  | append_singleton items item ih =>
      rw [tableOf, List.foldl_append, List.foldl_cons, List.foldl_nil, lastUnder_concat]
      by_cases here : keyOf item = key
      · rw [if_pos here, ← here, Function.update_self]
        rfl
      · rw [if_neg here, Function.update_of_ne (Ne.symm here)]
        exact ih

/-- An item has a last one under its own key. -/
theorem lastUnder_of_mem (keyOf : Item → Key) {item : Item} (member : item ∈ items) :
    ∃ last ∈ items, lastUnder keyOf (keyOf item) items = some last ∧
      keyOf last = keyOf item := by
  have found : (lastUnder keyOf (keyOf item) items).isSome := by
    rw [lastUnder, List.find?_isSome]
    exact ⟨item, List.mem_reverse.mpr member, by simp⟩
  obtain ⟨last, here⟩ := Option.isSome_iff_exists.mp found
  have keyed := List.find?_some here
  exact ⟨last, List.mem_reverse.mp (List.mem_of_find?_eq_some here), here,
    of_decide_eq_true keyed⟩

/-- An item whose value all items with its key share stands in the table. -/
theorem tableOf_of_mem (start : Key → Value) {item : Item} (member : item ∈ items)
    (shared : ∀ other ∈ items, keyOf other = keyOf item → valueOf other = valueOf item) :
    tableOf keyOf valueOf items start (keyOf item) = valueOf item := by
  obtain ⟨last, inside, found, keyed⟩ := lastUnder_of_mem keyOf member
  rw [tableOf_apply, found]
  exact shared last inside keyed

end RanInline.Lib
