/-
Module: RanInline.Lib.Wrap
Purpose: Fixed-width unsigned counters as naturals modulo a power of two, and ring
  positions as counters modulo a capacity.
Trusted boundary: none
Main exports: wrapAdd, wrapSub, wrapAdd_eq, wrapAdd_le_iff_add_le_iff, wrapSub_eq, wrapSub_mod,
  mod_ne_of_window, mod_modEq_self_iff
-/
import Mathlib.Data.Nat.ModEq

namespace RanInline.Lib

/-- Unsigned addition on `width` bits. -/
def wrapAdd (width left right : Nat) : Nat := (left + right) % 2 ^ width

/-- Unsigned subtraction on `width` bits. -/
def wrapSub (width left right : Nat) : Nat :=
  (left + (2 ^ width - right % 2 ^ width)) % 2 ^ width

/-- A sum that fits does not wrap. -/
theorem wrapAdd_eq {width left right : Nat} (fits : left + right < 2 ^ width) :
    wrapAdd width left right = left + right :=
  Nat.mod_eq_of_lt fits

/-- A bound check on a wrapped sum decides the bound on the sum exactly when the sum fits, or is
past the bound even after it has wrapped. -/
theorem wrapAdd_le_iff_add_le_iff {width left right bound : Nat} (leftFits : left < 2 ^ width)
    (rightFits : right < 2 ^ width) (boundFits : bound < 2 ^ width) :
    (wrapAdd width left right ≤ bound ↔ left + right ≤ bound) ↔
      left + right < 2 ^ width ∨ bound + 2 ^ width < left + right := by
  rcases Nat.lt_or_ge (left + right) (2 ^ width) with fits | wraps
  · rw [wrapAdd_eq fits]
    exact iff_of_true Iff.rfl (.inl fits)
  · have carried : wrapAdd width left right = left + right - 2 ^ width := by
      rw [wrapAdd, Nat.mod_eq_sub_mod wraps, Nat.mod_eq_of_lt (by omega)]
    rw [carried]
    omega

/-- A difference of two counters in order is the true difference. -/
theorem wrapSub_eq {width left right : Nat} (ordered : right ≤ left)
    (fits : left < 2 ^ width) : wrapSub width left right = left - right := by
  have small : right % 2 ^ width = right := Nat.mod_eq_of_lt (by omega)
  have shifted : left + (2 ^ width - right) = (left - right) + 2 ^ width := by omega
  rw [wrapSub, small, shifted, Nat.add_mod_right, Nat.mod_eq_of_lt (by omega)]

/-- The difference of two counters that have both wrapped is the true difference, as long as it
fits. -/
theorem wrapSub_mod {width left right : Nat} (ordered : right ≤ left)
    (near : left - right < 2 ^ width) :
    wrapSub width (left % 2 ^ width) (right % 2 ^ width) = left - right := by
  obtain ⟨gap, rfl⟩ := Nat.exists_eq_add_of_le ordered
  rw [Nat.add_sub_cancel_left] at near ⊢
  have small : right % 2 ^ width < 2 ^ width := Nat.mod_lt _ (Nat.two_pow_pos width)
  have sum : (right + gap) % 2 ^ width + (2 ^ width - right % 2 ^ width) ≡ gap [MOD 2 ^ width] := by
    have left : (right + gap) % 2 ^ width ≡ right % 2 ^ width + gap [MOD 2 ^ width] :=
      (Nat.mod_modEq _ _).trans ((Nat.mod_modEq right _).symm.add_right gap)
    have whole : right % 2 ^ width + gap + (2 ^ width - right % 2 ^ width) = gap + 2 ^ width := by
      omega
    refine (left.add_right _).trans ?_
    rw [whole]
    exact Nat.add_modEq_right
  rw [wrapSub, Nat.mod_mod]
  exact (Nat.mod_eq_of_modEq sum near)

/-- Two counters in one window of `capacity` consecutive values have different ring
positions. -/
theorem mod_ne_of_window {capacity first second : Nat} (ordered : first < second)
    (window : second < first + capacity) : first % capacity ≠ second % capacity := by
  intro same
  have divides : capacity ∣ second - first :=
    (Nat.modEq_iff_dvd' ordered.le).mp same
  have := Nat.le_of_dvd (by omega) divides
  omega

/-- A counter that wraps keeps its residue exactly when what the wraps took off is a multiple. -/
theorem mod_modEq_self_iff (modulus residues count : Nat) :
    count % modulus ≡ count [MOD residues] ↔ residues ∣ modulus * (count / modulus) := by
  have taken : count - count % modulus = modulus * (count / modulus) := by
    have whole := Nat.div_add_mod count modulus
    omega
  rw [Nat.modEq_iff_dvd' (Nat.mod_le count modulus), taken]

end RanInline.Lib
