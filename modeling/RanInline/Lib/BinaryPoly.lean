/-
Module: RanInline.Lib.BinaryPoly
Purpose: Bit strings and words as polynomials over the field of two elements, and long
  division by a shift register.
Trusted boundary: none
Main exports: bitsPoly, wordPoly, divisionStep, Divisor, wordPoly_foldl_divisionStep,
  register_eq_zero_iff, Divisor.detects_burst
-/
import Mathlib.Algebra.Field.ZMod
import Mathlib.Algebra.Polynomial.Div
import Mathlib.Algebra.Polynomial.Degree.Domain
import Mathlib.RingTheory.Coprime.Lemmas

namespace RanInline.Lib

open Polynomial

/-- A bit as a coefficient. -/
def bitScalar (bit : Bool) : ZMod 2 := if bit then 1 else 0

theorem bitScalar_xor (one two : Bool) :
    bitScalar (xor one two) = bitScalar one + bitScalar two := by
  cases one <;> cases two <;> decide

theorem bitScalar_eq_zero_iff (bit : Bool) : bitScalar bit = 0 ↔ bit = false := by
  cases bit <;> decide

/-- The polynomial of a bit string, whose first bit has the highest power. -/
noncomputable def bitsPoly (bits : List Bool) : (ZMod 2)[X] :=
  bits.foldl (fun poly bit => X * poly + C (bitScalar bit)) 0

theorem bitsPoly_append_singleton (bits : List Bool) (bit : Bool) :
    bitsPoly (bits ++ [bit]) = X * bitsPoly bits + C (bitScalar bit) := by
  rw [bitsPoly, List.foldl_append]
  rfl

/-- The coefficients are the bits, the last one first. -/
theorem coeff_bitsPoly (bits : List Bool) (i : Nat) :
    (bitsPoly bits).coeff i = bitScalar (bits.reverse[i]?.getD false) := by
  induction bits using List.reverseRecOn generalizing i with
  | nil => rfl
  | append_singleton bits bit inductionHypothesis =>
      rw [bitsPoly_append_singleton, List.reverse_append, List.reverse_singleton,
        List.singleton_append, coeff_add]
      cases i with
      | zero => simp
      | succ i => rw [coeff_X_mul, inductionHypothesis, coeff_C_succ, add_zero,
          List.getElem?_cons_succ]

theorem bitsPoly_append (one two : List Bool) :
    bitsPoly (one ++ two) = X ^ two.length * bitsPoly one + bitsPoly two := by
  induction two using List.reverseRecOn with
  | nil => simp [bitsPoly]
  | append_singleton two bit inductionHypothesis =>
      rw [← List.append_assoc, bitsPoly_append_singleton, inductionHypothesis,
        bitsPoly_append_singleton, List.length_append, List.length_singleton, pow_succ']
      ring

theorem bitsPoly_zeros (n : Nat) : bitsPoly (List.replicate n false) = 0 := by
  ext i
  rw [coeff_bitsPoly, List.reverse_replicate, List.getElem?_replicate, coeff_zero]
  split_ifs <;> rfl

/-- Zeros at the end multiply by a power of the variable. -/
theorem bitsPoly_append_zeros (bits : List Bool) (n : Nat) :
    bitsPoly (bits ++ List.replicate n false) = X ^ n * bitsPoly bits := by
  rw [bitsPoly_append, bitsPoly_zeros, add_zero, List.length_replicate]

/-- Zeros in front change nothing. -/
theorem bitsPoly_zeros_append (n : Nat) (bits : List Bool) :
    bitsPoly (List.replicate n false ++ bits) = bitsPoly bits := by
  rw [bitsPoly_append, bitsPoly_zeros, mul_zero, zero_add]

/-- Strings of one length are added bit by bit. -/
theorem bitsPoly_zipWith_xor {one two : List Bool} (same : one.length = two.length) :
    bitsPoly (List.zipWith xor one two) = bitsPoly one + bitsPoly two := by
  ext i
  rw [coeff_add, coeff_bitsPoly, coeff_bitsPoly, coeff_bitsPoly, ← bitScalar_xor,
    List.reverse_zipWith same, List.getElem?_zipWith]
  rcases Nat.lt_or_ge i one.length with inside | outside
  · rw [List.getElem?_eq_getElem (by simpa using inside),
      List.getElem?_eq_getElem (by simpa using same ▸ inside)]
    rfl
  · rw [List.getElem?_eq_none (by simpa using outside),
      List.getElem?_eq_none (by simpa using same ▸ outside)]
    rfl

/-- Flipped bits are added. -/
theorem bitsPoly_flipped (flips : Nat → Bool) (bits : List Bool) :
    bitsPoly (bits.mapIdx fun i bit => xor bit (flips i)) =
      bitsPoly bits + bitsPoly ((List.range bits.length).map flips) := by
  induction bits using List.reverseRecOn with
  | nil => simp [bitsPoly]
  | append_singleton bits bit inductionHypothesis =>
      rw [List.mapIdx_concat, List.length_append, List.length_singleton, List.range_succ,
        List.map_append, List.map_singleton, bitsPoly_append_singleton,
        bitsPoly_append_singleton, bitsPoly_append_singleton, inductionHypothesis, bitScalar_xor,
        C_add]
      ring

section Words

variable {w : Nat}

/-- The polynomial of a word, whose least significant bit is the constant coefficient. -/
noncomputable def wordPoly (word : BitVec w) : (ZMod 2)[X] :=
  ∑ i ∈ Finset.range w, monomial i (bitScalar (word.getLsbD i))

@[simp]
theorem coeff_wordPoly (word : BitVec w) (i : Nat) :
    (wordPoly word).coeff i = bitScalar (word.getLsbD i) := by
  rw [wordPoly, finsetSum_coeff]
  simp only [coeff_monomial, Finset.sum_ite_eq', Finset.mem_range]
  split_ifs with inside
  · rfl
  · rw [BitVec.getLsbD_of_ge word i (Nat.le_of_not_lt inside)]
    rfl

theorem wordPoly_xor (one two : BitVec w) :
    wordPoly (one ^^^ two) = wordPoly one + wordPoly two := by
  ext i
  rw [coeff_add, coeff_wordPoly, coeff_wordPoly, coeff_wordPoly, BitVec.getLsbD_xor,
    bitScalar_xor]

theorem wordPoly_eq_zero_iff (word : BitVec w) : wordPoly word = 0 ↔ word = 0#w := by
  constructor
  · intro zero
    apply BitVec.eq_of_getLsbD_eq
    intro i _
    have coefficient := congrArg (fun poly => coeff poly i) zero
    rw [coeff_wordPoly, coeff_zero, bitScalar_eq_zero_iff] at coefficient
    rw [coefficient, BitVec.getLsbD_zero]
  · rintro rfl
    ext i
    rw [coeff_wordPoly, BitVec.getLsbD_zero]
    rfl

/-- Words with the same bits, whatever their widths, have the same polynomial. -/
theorem wordPoly_congr {v : Nat} {one : BitVec v} {two : BitVec w}
    (same : ∀ i, one.getLsbD i = two.getLsbD i) : wordPoly one = wordPoly two := by
  ext i
  rw [coeff_wordPoly, coeff_wordPoly, same]

theorem wordPoly_injective : Function.Injective (wordPoly (w := w)) := by
  intro one two same
  rw [← BitVec.xor_eq_zero_iff, ← wordPoly_eq_zero_iff, wordPoly_xor, same,
    CharTwo.add_self_eq_zero]

/-- Only the `order` low bits of the word may be set. -/
def Below (order : Nat) (word : BitVec w) : Prop := ∀ i, order ≤ i → word.getLsbD i = false

theorem Below.degree_lt {order : Nat} {word : BitVec w} (below : Below order word) :
    (wordPoly word).degree < order := by
  rw [degree_lt_iff_coeff_zero]
  intro i high
  rw [coeff_wordPoly, below i high]
  rfl

theorem Below.toNat_lt {order : Nat} {word : BitVec w} (below : Below order word) :
    word.toNat < 2 ^ order :=
  Nat.lt_pow_two_of_testBit word.toNat below

/-- A word that a register can divide by: its highest bit has the place `order`, which fits
into the register, and its lowest bit is set. -/
structure Divisor (order : Nat) (divisor : BitVec w) : Prop where
  fits : order < w
  top : divisor.getLsbD order = true
  high : Below (order + 1) divisor
  low : divisor.getLsbD 0 = true

/-- One step of long division: take in the next bit, and subtract the divisor when the
register overflows. -/
def divisionStep (order : Nat) (divisor register : BitVec w) (bit : Bool) : BitVec w :=
  let shifted := (register <<< 1) ||| (BitVec.ofBool bit).setWidth w
  if shifted.getLsbD order then shifted ^^^ divisor else shifted

variable {order : Nat} {divisor register : BitVec w}

theorem wordPoly_shifted (below : Below order register) (fits : order < w) (bit : Bool) :
    wordPoly ((register <<< 1) ||| (BitVec.ofBool bit).setWidth w) =
      X * wordPoly register + C (bitScalar bit) := by
  ext i
  rw [coeff_add, coeff_wordPoly, BitVec.getLsbD_or, BitVec.getLsbD_shiftLeft,
    BitVec.getLsbD_setWidth]
  cases i with
  | zero =>
      have positive : 0 < w := by omega
      rw [coeff_X_mul_zero, coeff_C_zero, zero_add]
      cases bit <;> simp [positive]
  | succ i =>
      rw [coeff_X_mul, coeff_wordPoly, coeff_C_succ, add_zero]
      by_cases inside : i + 1 < w
      · simp [inside]
      · rw [below i (by omega)]
        simp [inside]

theorem divisionStep_spec (good : Divisor order divisor) (below : Below order register)
    (bit : Bool) :
    Below order (divisionStep order divisor register bit) ∧
      wordPoly divisor ∣ X * wordPoly register + C (bitScalar bit) -
        wordPoly (divisionStep order divisor register bit) := by
  have shifted := wordPoly_shifted below good.fits bit
  have high : Below (order + 1) ((register <<< 1) ||| (BitVec.ofBool bit).setWidth w) := by
    intro i less
    rw [BitVec.getLsbD_or, BitVec.getLsbD_shiftLeft, BitVec.getLsbD_setWidth,
      below (i - 1) (by omega)]
    have bitAbove : (BitVec.ofBool bit).getLsbD i = false := BitVec.getLsbD_of_ge _ _ (by omega)
    rw [bitAbove]
    simp
  rw [divisionStep]
  split_ifs with overflow
  · constructor
    · intro i less
      rw [BitVec.getLsbD_xor]
      rcases Nat.eq_or_lt_of_le less with rfl | more
      · rw [overflow, good.top]
        rfl
      · rw [high i more, good.high i more]
        rfl
    · rw [wordPoly_xor, shifted, sub_add_cancel_left, dvd_neg]
  · constructor
    · intro i less
      rcases Nat.eq_or_lt_of_le less with rfl | more
      · exact Bool.not_eq_true _ |>.mp overflow
      · exact high i more
    · rw [shifted, sub_self]
      exact dvd_zero _

/-- A whole string leaves its remainder in the register. -/
theorem foldl_divisionStep (good : Divisor order divisor) (bits : List Bool) :
    Below order (bits.foldl (divisionStep order divisor) 0#w) ∧
      wordPoly divisor ∣ bitsPoly bits -
        wordPoly (bits.foldl (divisionStep order divisor) 0#w) := by
  induction bits using List.reverseRecOn with
  | nil =>
      constructor
      · intro i _
        exact BitVec.getLsbD_zero
      · rw [List.foldl_nil, (wordPoly_eq_zero_iff 0#w).mpr rfl, sub_zero]
        exact dvd_zero (wordPoly divisor)
  | append_singleton bits bit inductionHypothesis =>
      obtain ⟨below, divides⟩ := inductionHypothesis
      rw [List.foldl_append, List.foldl_cons, List.foldl_nil, bitsPoly_append_singleton]
      obtain ⟨belowNext, dividesNext⟩ := divisionStep_spec good below bit
      refine ⟨belowNext, ?_⟩
      have sum := dvd_add (divides.mul_left X) dividesNext
      convert sum using 1
      ring

theorem Divisor.degree_eq (good : Divisor order divisor) :
    (wordPoly divisor).degree = order := by
  apply le_antisymm
  · rw [degree_le_iff_coeff_zero]
    intro i more
    rw [coeff_wordPoly, good.high i (by exact_mod_cast more)]
    rfl
  · apply le_degree_of_ne_zero
    rw [coeff_wordPoly, good.top]
    decide

theorem Divisor.monic (good : Divisor order divisor) : (wordPoly divisor).Monic := by
  rw [Monic, leadingCoeff, natDegree_eq_of_degree_eq_some good.degree_eq, coeff_wordPoly, good.top]
  rfl

/-- The register holds the remainder of the division. -/
theorem wordPoly_foldl_divisionStep (good : Divisor order divisor) (bits : List Bool) :
    wordPoly (bits.foldl (divisionStep order divisor) 0#w) =
      bitsPoly bits %ₘ wordPoly divisor := by
  obtain ⟨below, divides⟩ := foldl_divisionStep good bits
  have small : (wordPoly (bits.foldl (divisionStep order divisor) 0#w)).degree <
      (wordPoly divisor).degree := below.degree_lt.trans_eq good.degree_eq.symm
  rw [modByMonic_eq_of_dvd_sub good.monic divides, (modByMonic_eq_self_iff good.monic).mpr small]

/-- The register ends empty exactly for the multiples of the divisor. -/
theorem register_eq_zero_iff (good : Divisor order divisor) (bits : List Bool) :
    bits.foldl (divisionStep order divisor) 0#w = 0#w ↔ wordPoly divisor ∣ bitsPoly bits := by
  rw [← wordPoly_eq_zero_iff, wordPoly_foldl_divisionStep good,
    modByMonic_eq_zero_iff_dvd good.monic]

theorem Divisor.isCoprime (good : Divisor order divisor) : IsCoprime (wordPoly divisor) X := by
  refine ⟨1, -(wordPoly divisor).divX, ?_⟩
  have split := divX_mul_X_add (wordPoly divisor)
  rw [coeff_wordPoly, good.low] at split
  rw [one_mul]
  nth_rewrite 1 [← split]
  rw [neg_mul, add_neg_cancel_comm]
  rfl

/-- Zeros at the end do not change divisibility. -/
theorem dvd_bitsPoly_append_zeros (good : Divisor order divisor) (bits : List Bool) (n : Nat) :
    wordPoly divisor ∣ bitsPoly (bits ++ List.replicate n false) ↔
      wordPoly divisor ∣ bitsPoly bits := by
  rw [bitsPoly_append_zeros]
  constructor
  · intro divides
    exact (good.isCoprime.pow_right).dvd_of_dvd_mul_left divides
  · intro divides
    exact divides.mul_left _

/-- The low bits of a word, the most significant one first. -/
def lowBits (order : Nat) (word : BitVec w) : List Bool :=
  (List.range order).map fun i => word.getLsbD (order - 1 - i)

theorem bitsPoly_lowBits {word : BitVec w} (below : Below order word) :
    bitsPoly (lowBits order word) = wordPoly word := by
  ext i
  rw [coeff_bitsPoly, coeff_wordPoly, lowBits]
  rcases Nat.lt_or_ge i order with less | more
  · rw [List.getElem?_reverse (by simpa using less), List.length_map, List.length_range,
      List.getElem?_map, List.getElem?_range (by omega), Option.map_some, Option.getD_some]
    congr 2
    omega
  · rw [List.getElem?_eq_none (by simpa using more), below i more]
    rfl

/-- A message followed by its remainder is a multiple of the divisor: over two elements, adding
the remainder is subtracting it. -/
theorem Divisor.dvd_append_remainder (good : Divisor order divisor) (message : List Bool) :
    wordPoly divisor ∣ bitsPoly (message ++ lowBits order
      ((message ++ List.replicate order false).foldl (divisionStep order divisor) 0#w)) := by
  obtain ⟨below, divides⟩ :=
    foldl_divisionStep good (message ++ List.replicate order false)
  rw [bitsPoly_append, bitsPoly_lowBits below, lowBits, List.length_map, List.length_range]
  rwa [bitsPoly_append_zeros, CharTwo.sub_eq_add] at divides

/-- A polynomial whose coefficients are zero but for `order` consecutive ones is no multiple of
the divisor, unless it is zero. -/
theorem Divisor.not_dvd_of_short (good : Divisor order divisor) {poly : (ZMod 2)[X]} (low : Nat)
    (short : ∀ i, poly.coeff i ≠ 0 → low ≤ i ∧ i < low + order) (nonzero : poly ≠ 0) :
    ¬ wordPoly divisor ∣ poly := by
  intro divides
  have lowest : X ^ low ∣ poly := by
    rw [X_pow_dvd_iff]
    intro i less
    by_contra set
    exact absurd (short i set).1 (by omega)
  obtain ⟨rest, rfl⟩ := lowest
  have multiple : wordPoly divisor ∣ rest :=
    (good.isCoprime.pow_right).dvd_of_dvd_mul_left divides
  have degree : rest.degree < order := by
    rw [degree_lt_iff_coeff_zero]
    intro i high
    by_contra set
    have coefficient := coeff_X_pow_mul rest low i
    have place := (short (i + low) (by rwa [coefficient])).2
    omega
  have zero : rest = 0 :=
    eq_zero_of_dvd_of_degree_lt multiple (degree.trans_eq good.degree_eq.symm)
  rw [zero, mul_zero] at nonzero
  exact nonzero rfl

/-- A burst of flipped bits, no longer than the order of the divisor, turns a multiple of it into
a string that is none. -/
theorem Divisor.detects_burst (good : Divisor order divisor) {bits : List Bool}
    (multiple : wordPoly divisor ∣ bitsPoly bits) {flips : Nat → Bool} {start : Nat}
    (flipped : ∃ i < bits.length, flips i = true)
    (burst : ∀ i, flips i = true → start ≤ i ∧ i < start + order) :
    ¬ wordPoly divisor ∣ bitsPoly (bits.mapIdx fun i bit => xor bit (flips i)) := by
  have coefficient (i : Nat) (less : i < bits.length) :
      (bitsPoly ((List.range bits.length).map flips)).coeff i =
        bitScalar (flips (bits.length - 1 - i)) := by
    rw [coeff_bitsPoly, List.getElem?_reverse (by simpa using less), List.length_map,
      List.length_range, List.getElem?_map, List.getElem?_range (by omega)]
    rfl
  have outside (i : Nat) (more : bits.length ≤ i) :
      (bitsPoly ((List.range bits.length).map flips)).coeff i = 0 := by
    rw [coeff_bitsPoly, List.getElem?_eq_none (by simpa using more)]
    rfl
  rw [bitsPoly_flipped, dvd_add_right multiple]
  apply good.not_dvd_of_short (bits.length - (start + order))
  · intro i set
    have less : i < bits.length := by
      by_contra more
      exact set (outside i (by omega))
    rw [coefficient i less, Ne, bitScalar_eq_zero_iff, Bool.not_eq_false] at set
    have place := burst _ set
    omega
  · obtain ⟨i, less, set⟩ := flipped
    intro zero
    have place := coefficient (bits.length - 1 - i) (by omega)
    rw [zero, coeff_zero, show bits.length - 1 - (bits.length - 1 - i) = i by omega, set] at place
    exact absurd place (by decide)

end Words

end RanInline.Lib
