/-
Module: RanInline.Lib.Extrinsic
Purpose: Folds over all elements of a list but one: the minimum, by keeping the two
  smallest values, and the parity, by cancelling an element from the total.
Trusted boundary: none
Main exports: TwoMin, TwoMin.select_scan, parity, parity_eraseIdx
-/
import Mathlib.Data.List.Induction
import Mathlib.Order.MinMax

namespace RanInline.Lib

section Minimum

variable {α : Type} [LinearOrder α]

/-- The two smallest values seen so far, and the position of the smallest. -/
structure TwoMin (α : Type) where
  min1 : α
  min2 : α
  midx : Int
deriving DecidableEq, Repr

namespace TwoMin

/-- Before the first value. -/
def start (top : α) : TwoMin α where
  min1 := top
  min2 := top
  midx := -1

/-- Take in the value at position `index`. -/
def insert (two : TwoMin α) (index : Nat) (value : α) : TwoMin α :=
  if value < two.min1 then { min1 := value, min2 := two.min1, midx := index }
  else if value < two.min2 then { two with min2 := value }
  else two

/-- The smallest value at any other position than `index`. -/
def select (two : TwoMin α) (index : Nat) : α :=
  if (index : Int) ≠ two.midx then two.min1 else two.min2

/-- The result for a list, its values taken in from the left. -/
def scan (top : α) (values : List α) : TwoMin α :=
  values.zipIdx.foldl (fun two item => two.insert item.2 item.1) (start top)

theorem scan_append (top : α) (values : List α) (value : α) :
    scan top (values ++ [value]) = (scan top values).insert values.length value := by
  simp [scan, List.zipIdx_append]

end TwoMin

/-- The minimum of a list and a default. -/
def minimum (top : α) (values : List α) : α := values.foldr min top

theorem minimum_append (top : α) (values : List α) (value : α) :
    minimum top (values ++ [value]) = min (minimum top values) value := by
  induction values with
  | nil => exact min_comm _ _
  | cons first values inductionHypothesis =>
      have unfolded : minimum top (first :: values ++ [value]) =
          min first (minimum top (values ++ [value])) := rfl
      rw [unfolded, inductionHypothesis, ← min_assoc]
      rfl

theorem minimum_le {top value : α} {values : List α} (member : value ∈ values) :
    minimum top values ≤ value := by
  induction values with
  | nil => cases member
  | cons first values inductionHypothesis =>
      rcases List.mem_cons.mp member with rfl | later
      · exact min_le_left _ _
      · exact (min_le_right _ _).trans (inductionHypothesis later)

theorem minimum_le_top (top : α) (values : List α) : minimum top values ≤ top := by
  induction values with
  | nil => exact le_refl top
  | cons first values inductionHypothesis => exact (min_le_right _ _).trans inductionHypothesis

/-- The minimum is the default or a value of the list. -/
theorem minimum_mem (top : α) (values : List α) :
    minimum top values = top ∨ minimum top values ∈ values := by
  induction values with
  | nil => exact .inl rfl
  | cons first values inductionHypothesis =>
      rcases min_choice first (minimum top values) with smaller | smaller
      · exact .inr (List.mem_cons.mpr (.inl smaller))
      · rcases inductionHypothesis with none | later
        · exact .inl (smaller.trans none)
        · refine .inr (List.mem_cons.mpr (.inr ?_))
          rwa [show minimum top (first :: values) = minimum top values from smaller]

/-- The minimum of a part is not smaller. -/
theorem minimum_le_eraseIdx (top : α) (values : List α) (index : Nat) :
    minimum top values ≤ minimum top (values.eraseIdx index) := by
  rcases minimum_mem top (values.eraseIdx index) with none | inside
  · rw [none]
    exact minimum_le_top top values
  · exact minimum_le (List.mem_of_mem_eraseIdx inside)

/-- What the scan keeps: the minimum, a valid position, and for every position the minimum
of the others. -/
private theorem scan_spec (top : α) (values : List α) :
    (TwoMin.scan top values).min1 = minimum top values ∧
      (TwoMin.scan top values).midx < values.length ∧
      ∀ index < values.length,
        (TwoMin.scan top values).select index = minimum top (values.eraseIdx index) := by
  induction values using List.reverseRecOn with
  | nil => exact ⟨rfl, (by decide : (-1 : Int) < (0 : Nat)),
        fun index less => absurd less (Nat.not_lt_zero index)⟩
  | append_singleton values value inductionHypothesis =>
      obtain ⟨least, position, others⟩ := inductionHypothesis
      have erased (index : Nat) (less : index < values.length) :
          minimum top ((values ++ [value]).eraseIdx index) =
            min (minimum top (values.eraseIdx index)) value := by
        rw [List.eraseIdx_append_of_lt_length less, minimum_append]
      have last : (values ++ [value]).eraseIdx values.length = values := by
        rw [List.eraseIdx_append_of_length_le (Nat.le_refl _)]
        simp
      rw [TwoMin.scan_append, minimum_append, List.length_append, List.length_singleton]
      generalize TwoMin.scan top values = two at least position others ⊢
      have atLast : (values.length : Int) ≠ two.midx := by omega
      have split (index : Nat) (less : index < values.length + 1) :
          index < values.length ∨ index = values.length := by omega
      rw [TwoMin.insert]
      split_ifs with smallest second
      -- a new smallest value: the old one is the minimum of the rest
      · refine ⟨by rw [← least]; exact (min_eq_right smallest.le).symm,
          by push_cast; omega, ?_⟩
        intro index less
        rcases split index less with inside | rfl
        · have above := (minimum_le_eraseIdx top values index).trans_lt' (least ▸ smallest)
          rw [erased index inside, min_eq_right above.le, TwoMin.select, if_pos (by simp; omega)]
        · rw [last, TwoMin.select, if_neg (by simp)]
          exact least
      -- a new second: only the minimum without the smallest changes
      · refine ⟨by rw [← least]; exact (min_eq_left (not_lt.mp smallest)).symm,
          by push_cast; omega, ?_⟩
        intro index less
        rcases split index less with inside | rfl
        · rw [erased index inside, ← others index inside, TwoMin.select, TwoMin.select]
          split_ifs
          · exact (min_eq_left (not_lt.mp smallest)).symm
          · exact (min_eq_right second.le).symm
        · rw [last, TwoMin.select, if_pos atLast]
          exact least
      · refine ⟨by rw [← least]; exact (min_eq_left (not_lt.mp smallest)).symm,
          by push_cast; omega, ?_⟩
        intro index less
        rcases split index less with inside | rfl
        · rw [erased index inside, ← others index inside, TwoMin.select]
          split_ifs
          · exact (min_eq_left (not_lt.mp smallest)).symm
          · exact (min_eq_left (not_lt.mp second)).symm
        · rw [last, TwoMin.select, if_pos atLast]
          exact least

/-- The scan knows the minimum of all values but any one of them. -/
theorem TwoMin.select_scan (top : α) {values : List α} {index : Nat}
    (inside : index < values.length) :
    (TwoMin.scan top values).select index = minimum top (values.eraseIdx index) :=
  (scan_spec top values).2.2 index inside

end Minimum

/-! ### Parity -/

/-- Whether an odd number of entries is set. -/
def parity (bits : List Bool) : Bool := bits.foldl xor false

theorem parity_append (bits : List Bool) (bit : Bool) :
    parity (bits ++ [bit]) = xor (parity bits) bit := by
  simp [parity]

theorem parity_cons (bit : Bool) (bits : List Bool) :
    parity (bit :: bits) = xor bit (parity bits) := by
  induction bits using List.reverseRecOn with
  | nil => simp [parity]
  | append_singleton bits last inductionHypothesis =>
      rw [← List.cons_append, parity_append, inductionHypothesis, parity_append, Bool.xor_assoc]

/-- The parity without one entry: the entry cancels. -/
theorem parity_eraseIdx {bits : List Bool} {index : Nat} {bit : Bool}
    (found : bits[index]? = some bit) :
    parity (bits.eraseIdx index) = xor (parity bits) bit := by
  induction bits generalizing index with
  | nil => simp at found
  | cons first bits inductionHypothesis =>
      cases index with
      | zero =>
          obtain rfl : first = bit := by simpa using found
          rw [List.eraseIdx_cons_zero, parity_cons]
          cases first <;> cases parity bits <;> rfl
      | succ index =>
          rw [List.eraseIdx_cons_succ, parity_cons, parity_cons,
            inductionHypothesis (by simpa using found), Bool.xor_assoc]

end RanInline.Lib
