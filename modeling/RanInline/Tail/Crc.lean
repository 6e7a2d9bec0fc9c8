/-
Module: RanInline.Tail.Crc
Purpose: oi_p2_crc_calculate of oi_p2_crc.cpp: the checksum of a string is zero exactly when
  the generator polynomial divides it.
Trusted boundary: none
Main exports: OiP2CrcPoly, getBit, oiP2CrcCalculate, HoldsBits, CrcAttached, crcParity,
  crcAttached_crcParity, crcOfBits, wordPoly_crcOfBits, oiP2CrcCalculate_eq_zero_iff
-/
import RanInline.Lib.BinaryPoly
import RanInline.Lib.CheckedStore

namespace RanInline.Tail

open Polynomial RanInline.Lib

/-- `oi_p2_crc_poly`. -/
inductive OiP2CrcPoly where
  | crc24a
  | crc24b
  | crc16
deriving DecidableEq, Repr

/-- `PolyDef`. -/
structure PolyDef where
  order : Nat
  polynom : BitVec 64
deriving DecidableEq, Repr

/-- `poly_def`. -/
def polyDef : OiP2CrcPoly → PolyDef
  | .crc24a => { order := 24, polynom := 0x1864cfb }
  | .crc24b => { order := 24, polynom := 0x1800063 }
  | .crc16 => { order := 16, polynom := 0x11021 }

/-- `get_bit`: the first bit of a byte is its most significant one.  A read behind the end
of the buffer is `none`. -/
def getBit (data : List (BitVec 8)) (bitIdx : Nat) : Option Bool :=
  data[bitIdx / 8]?.map fun byte => byte.getLsbD (7 - bitIdx % 8)

/-- The body of the two loops, behind the shift. -/
def crcReduce (polynomial : PolyDef) (remainder : BitVec 64) : BitVec 64 :=
  let highbit := 1#64 <<< polynomial.order
  if remainder &&& highbit ≠ 0#64 then remainder ^^^ polynomial.polynom else remainder

/-- One turn of the loop over the bits. -/
def crcTurn (polynomial : PolyDef) (remainder : BitVec 64) (bit : Bool) : BitVec 64 :=
  crcReduce polynomial ((remainder <<< 1) ||| (BitVec.ofBool bit).setWidth 64)

/-- `oi_p2_crc_calculate`. -/
def oiP2CrcCalculate (poly : OiP2CrcPoly) (data : List (BitVec 8)) (bitOffset bitLen : Nat) :
    Option (BitVec 32) := do
  let polynomial := polyDef poly
  let highbit := 1#64 <<< polynomial.order
  let remainder ← (List.range bitLen).foldlM
    (fun remainder i => (getBit data (bitOffset + i)).map (crcTurn polynomial remainder)) 0#64
  let remainder := (List.range polynomial.order).foldl
    (fun remainder _ => crcReduce polynomial (remainder <<< 1)) remainder
  return (remainder &&& (highbit - 1#64)).setWidth 32

/-- The buffer holds the bits from `offset` on. -/
def HoldsBits (data : List (BitVec 8)) (offset : Nat) (bits : List Bool) : Prop :=
  ∀ i < bits.length, getBit data (offset + i) = bits[i]?

/-- The parity bits of TS 38.212 5.1: with them the message is a multiple of the generator
polynomial. -/
def CrcAttached (poly : OiP2CrcPoly) (message parity : List Bool) : Prop :=
  parity.length = (polyDef poly).order ∧
    wordPoly (polyDef poly).polynom ∣ bitsPoly (message ++ parity)

/-- The parity bits, as the register of `oi_p2_crc_calculate` leaves them. -/
def crcParity (poly : OiP2CrcPoly) (message : List Bool) : List Bool :=
  lowBits (polyDef poly).order
    ((message ++ List.replicate (polyDef poly).order false).foldl (crcTurn (polyDef poly)) 0#64)

/-! ### The register divides -/

theorem divisor_polyDef (poly : OiP2CrcPoly) :
    Divisor (polyDef poly).order (polyDef poly).polynom := by
  have high (order : Nat) (polynom : BitVec 64)
      (check : ∀ i < 64, order + 1 ≤ i → polynom.getLsbD i = false) :
      Below (order + 1) polynom := by
    intro i less
    by_cases inside : i < 64
    · exact check i inside less
    · exact BitVec.getLsbD_of_ge polynom i (by omega)
  cases poly <;> exact ⟨by decide, by decide, high _ _ (by decide), by decide⟩

theorem and_highbit_ne_zero_iff (word : BitVec 64) (order : Nat) (fits : order < 64) :
    word &&& (1#64 <<< order) ≠ 0#64 ↔ word.getLsbD order = true := by
  rw [← BitVec.twoPow_eq, BitVec.and_twoPow]
  cases word.getLsbD order with
  | false => simp
  | true =>
      have nonzero : BitVec.twoPow 64 order ≠ 0#64 := by
        intro zero
        have bit := congrArg (fun word : BitVec 64 => word.getLsbD order) zero
        simp [fits] at bit
      simp [nonzero]

theorem crcTurn_eq (poly : OiP2CrcPoly) :
    crcTurn (polyDef poly) = divisionStep (polyDef poly).order (polyDef poly).polynom := by
  funext remainder bit
  have fits : (polyDef poly).order < 64 := (divisor_polyDef poly).fits
  rw [crcTurn, crcReduce, divisionStep]
  simp only [and_highbit_ne_zero_iff _ _ fits]

theorem crcAttached_crcParity (poly : OiP2CrcPoly) (message : List Bool) :
    CrcAttached poly message (crcParity poly message) := by
  refine ⟨by rw [crcParity, lowBits, List.length_map, List.length_range], ?_⟩
  rw [crcParity, crcTurn_eq]
  exact (divisor_polyDef poly).dvd_append_remainder message

/-- The second loop takes in zeros. -/
theorem foldl_crcReduce (polynomial : PolyDef) (n : Nat) (remainder : BitVec 64) :
    (List.range n).foldl (fun remainder _ => crcReduce polynomial (remainder <<< 1)) remainder =
      (List.replicate n false).foldl (crcTurn polynomial) remainder := by
  have zero (remainder : BitVec 64) :
      crcReduce polynomial (remainder <<< 1) = crcTurn polynomial remainder false := by
    simp [crcTurn]
  induction n generalizing remainder with
  | zero => rfl
  | succ n inductionHypothesis =>
      rw [List.range_succ, List.foldl_append, inductionHypothesis, List.replicate_succ',
        List.foldl_append, List.foldl_cons, List.foldl_nil, List.foldl_cons, List.foldl_nil, zero]

/-- The checksum is cut from the whole remainder. -/
theorem getLsbD_masked {order : Nat} (small : order ≤ 32) {remainder : BitVec 64}
    (below : Below order remainder) (i : Nat) :
    ((remainder &&& (1#64 <<< order - 1#64)).setWidth 32).getLsbD i = remainder.getLsbD i := by
  have mask (i : Nat) (less : i < order) : (1#64 <<< order - 1#64).getLsbD i = true := by
    have fits : order < 64 := by omega
    rw [← BitVec.twoPow_eq, BitVec.getLsbD, BitVec.toNat_sub_of_le, BitVec.toNat_twoPow_of_lt fits]
    · simp [less]
    · rw [BitVec.le_def, BitVec.toNat_twoPow_of_lt fits]
      exact Nat.one_le_two_pow
  rw [BitVec.getLsbD_setWidth, BitVec.getLsbD_and]
  rcases Nat.lt_or_ge i order with less | more
  · have inside : i < 32 := by omega
    simp [mask i less, inside]
  · simp [below i more]

/-- The checksum of a bit string, as the two loops leave it. -/
def crcOfBits (poly : OiP2CrcPoly) (bits : List Bool) : BitVec 32 :=
  let remainder := (bits ++ List.replicate (polyDef poly).order false).foldl
    (crcTurn (polyDef poly)) 0#64
  (remainder &&& (1#64 <<< (polyDef poly).order - 1#64)).setWidth 32

/-- It has the bits of the register of a division. -/
theorem getLsbD_crcOfBits (poly : OiP2CrcPoly) (bits : List Bool) (i : Nat) :
    (crcOfBits poly bits).getLsbD i =
      ((bits ++ List.replicate (polyDef poly).order false).foldl
        (divisionStep (polyDef poly).order (polyDef poly).polynom) 0#64).getLsbD i := by
  have small : (polyDef poly).order ≤ 32 := by cases poly <;> decide
  rw [crcOfBits, crcTurn_eq]
  exact getLsbD_masked small (foldl_divisionStep (divisor_polyDef poly) _).1 i

theorem below_crcOfBits (poly : OiP2CrcPoly) (bits : List Bool) :
    Below (polyDef poly).order (crcOfBits poly bits) := by
  intro i high
  rw [getLsbD_crcOfBits]
  exact (foldl_divisionStep (divisor_polyDef poly) _).1 i high

/-- The checksum is the remainder of the string, moved up by the order of the generator. -/
theorem wordPoly_crcOfBits (poly : OiP2CrcPoly) (bits : List Bool) :
    wordPoly (crcOfBits poly bits) =
      (X ^ (polyDef poly).order * bitsPoly bits) %ₘ wordPoly (polyDef poly).polynom := by
  rw [wordPoly_congr (getLsbD_crcOfBits poly bits),
    wordPoly_foldl_divisionStep (divisor_polyDef poly), bitsPoly_append_zeros]

/-- The two loops over bits that the buffer holds. -/
theorem oiP2CrcCalculate_of_holds (poly : OiP2CrcPoly) {data : List (BitVec 8)}
    {bitOffset : Nat} {bits : List Bool} (holds : HoldsBits data bitOffset bits) :
    oiP2CrcCalculate poly data bitOffset bits.length = some (crcOfBits poly bits) := by
  have remainder := foldlM_range_of_reads (crcTurn (polyDef poly)) holds 0#64
  rw [oiP2CrcCalculate, remainder, crcOfBits, List.foldl_append, ← foldl_crcReduce]
  rfl

/-- The checksum is zero exactly for the multiples of the generator polynomial. -/
theorem oiP2CrcCalculate_eq_zero_iff (poly : OiP2CrcPoly) {data : List (BitVec 8)}
    {bitOffset : Nat} {bits : List Bool} (holds : HoldsBits data bitOffset bits) :
    ∃ crc, oiP2CrcCalculate poly data bitOffset bits.length = some crc ∧
      (crc = 0#32 ↔ wordPoly (polyDef poly).polynom ∣ bitsPoly bits) := by
  have good := divisor_polyDef poly
  refine ⟨crcOfBits poly bits, oiP2CrcCalculate_of_holds poly holds, ?_⟩
  rw [← wordPoly_eq_zero_iff, wordPoly_crcOfBits, modByMonic_eq_zero_iff_dvd good.monic,
    ← bitsPoly_append_zeros, dvd_bitsPoly_append_zeros good]

end RanInline.Tail
