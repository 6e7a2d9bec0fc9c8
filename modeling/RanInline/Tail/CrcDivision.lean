/-
Module: RanInline.Tail.CrcDivision
Purpose: oi_p2_crc_calculate at the widths of oi_p2_crc.cpp, over windows at any bit of a buffer:
  it returns the remainder of a polynomial division, and so obeys the laws that the
  desegmentation relies on.
Trusted boundary: none
Main exports: windowBits, bytesBits, oiP2CrcCalculate32, oiP2CrcCalculate32_eq,
  oiP2CrcCalculate32_polynomial_division
-/
import RanInline.Tail.Crc

namespace RanInline.Tail

open Polynomial RanInline.Lib

/-- `oi_p2_crc_calculate` with its 32-bit arguments: the position `bit_offset + i` is a
`uint32_t`.  A read behind the end of the buffer is `none`. -/
def oiP2CrcCalculate32 (poly : OiP2CrcPoly) (data : List (BitVec 8))
    (bitOffset bitLen : UInt32) : Option (BitVec 32) := do
  let polynomial := polyDef poly
  let highbit := 1#64 <<< polynomial.order
  let remainder ← (List.range bitLen.toNat).foldlM
    (fun remainder i =>
      (getBit data (bitOffset + UInt32.ofNat i).toNat).map (crcTurn polynomial remainder)) 0#64
  let remainder := (List.range polynomial.order).foldl
    (fun remainder _ => crcReduce polynomial (remainder <<< 1)) remainder
  return (remainder &&& (highbit - 1#64)).setWidth 32

/-- The window: the bits in the order in which the loop asks for them. -/
def windowBits (data : List (BitVec 8)) (bitOffset bitLen : UInt32) : Option (List Bool) :=
  (List.range bitLen.toNat).mapM fun i => getBit data (bitOffset + UInt32.ofNat i).toNat

/-- The bits of a buffer, the most significant one of each byte first. -/
def bytesBits (data : List (BitVec 8)) : List Bool :=
  data.flatMap (lowBits 8)

/-! ### The window -/

theorem position_eq {bitOffset bitLen : UInt32} (fits : bitOffset.toNat + bitLen.toNat ≤ 2 ^ 32)
    {i : Nat} (less : i < bitLen.toNat) :
    (bitOffset + UInt32.ofNat i).toNat = bitOffset.toNat + i := by
  rw [UInt32.toNat_add, UInt32.toNat_ofNat']
  omega

/-- With positions below 2^32 the call is the one over unbounded positions. -/
theorem oiP2CrcCalculate32_eq (poly : OiP2CrcPoly) (data : List (BitVec 8))
    {bitOffset bitLen : UInt32} (fits : bitOffset.toNat + bitLen.toNat ≤ 2 ^ 32) :
    oiP2CrcCalculate32 poly data bitOffset bitLen =
      oiP2CrcCalculate poly data bitOffset.toNat bitLen.toNat := by
  rw [oiP2CrcCalculate32, oiP2CrcCalculate, foldlM_congr]
  intro i member remainder
  rw [position_eq fits (List.mem_range.mp member)]

theorem getBit_eq (data : List (BitVec 8)) (bitIdx : Nat) :
    getBit data bitIdx = (bytesBits data)[bitIdx]? := by
  induction data generalizing bitIdx with
  | nil => rfl
  | cons byte data inductionHypothesis =>
      have width : (lowBits 8 byte).length = 8 := rfl
      rw [bytesBits, List.flatMap_cons, List.getElem?_append, width]
      split_ifs with first
      · rw [getBit, Nat.div_eq_of_lt first, Nat.mod_eq_of_lt first, lowBits, List.getElem?_map,
          List.getElem?_range first]
        rfl
      · obtain ⟨later, rfl⟩ := Nat.exists_eq_add_of_le' (Nat.le_of_not_lt first)
        have next : (later + 8) / 8 = later / 8 + 1 := by omega
        have place : (later + 8) % 8 = later % 8 := by omega
        rw [Nat.add_sub_cancel, ← bytesBits, ← inductionHypothesis, getBit, getBit, next, place,
          List.getElem?_cons_succ]

theorem length_bytesBits (data : List (BitVec 8)) : (bytesBits data).length = 8 * data.length := by
  have width : ∀ byte : BitVec 8, (lowBits 8 byte).length = 8 := fun _ => rfl
  simp [bytesBits, List.length_flatMap, width, Nat.mul_comm]

/-- A window inside the buffer is a section of its bits. -/
theorem windowBits_eq {data : List (BitVec 8)} {bitOffset bitLen : UInt32}
    (inside : bitOffset.toNat + bitLen.toNat ≤ 8 * data.length)
    (fits : bitOffset.toNat + bitLen.toNat ≤ 2 ^ 32) :
    windowBits data bitOffset bitLen =
      some (((bytesBits data).drop bitOffset.toNat).take bitLen.toNat) := by
  rw [windowBits, mapM_range_eq_some_iff]
  constructor
  · rw [List.length_take, List.length_drop, length_bytesBits]
    omega
  · intro i less
    rw [position_eq fits less, getBit_eq, List.getElem?_take_of_lt less, List.getElem?_drop]

/-- The call sees nothing but its window. -/
theorem oiP2CrcCalculate32_of_window (poly : OiP2CrcPoly) {data : List (BitVec 8)}
    {bitOffset bitLen : UInt32} {bits : List Bool}
    (window : windowBits data bitOffset bitLen = some bits) :
    oiP2CrcCalculate32 poly data bitOffset bitLen = some (crcOfBits poly bits) := by
  obtain ⟨length, reads⟩ := mapM_range_eq_some_iff.mp window
  rw [← length] at reads
  have remainder := foldlM_range_of_reads (crcTurn (polyDef poly)) reads 0#64
  rw [length] at remainder
  rw [oiP2CrcCalculate32, remainder, crcOfBits, List.foldl_append, ← foldl_crcReduce]
  rfl

theorem length_of_windowBits {data : List (BitVec 8)} {bitOffset bitLen : UInt32}
    {bits : List Bool} (window : windowBits data bitOffset bitLen = some bits) :
    bits.length = bitLen.toNat :=
  (mapM_range_eq_some_iff.mp window).1

/-! ### The laws of the remainder -/

theorem crcOfBits_zipWith_xor (poly : OiP2CrcPoly) {one two : List Bool}
    (same : one.length = two.length) :
    crcOfBits poly (List.zipWith xor one two) = crcOfBits poly one ^^^ crcOfBits poly two := by
  apply wordPoly_injective
  rw [wordPoly_xor, wordPoly_crcOfBits, wordPoly_crcOfBits, wordPoly_crcOfBits,
    bitsPoly_zipWith_xor same, mul_add, add_modByMonic]

theorem crcOfBits_zeros_append (poly : OiP2CrcPoly) (zeros : Nat) (bits : List Bool) :
    crcOfBits poly (List.replicate zeros false ++ bits) = crcOfBits poly bits := by
  apply wordPoly_injective
  rw [wordPoly_crcOfBits, wordPoly_crcOfBits, bitsPoly_zeros_append]

/-- The parity bits of a message are the low bits of its checksum. -/
theorem crcParity_eq (poly : OiP2CrcPoly) (bits : List Bool) :
    crcParity poly bits = lowBits (polyDef poly).order (crcOfBits poly bits) := by
  simp only [crcParity, lowBits, getLsbD_crcOfBits, crcTurn_eq]

theorem crcOfBits_append_crcOfBits (poly : OiP2CrcPoly) (bits : List Bool) :
    crcOfBits poly (bits ++ lowBits (polyDef poly).order (crcOfBits poly bits)) = 0#32 := by
  have attached := (crcAttached_crcParity poly bits).2
  rw [crcParity_eq] at attached
  rw [← wordPoly_eq_zero_iff, wordPoly_crcOfBits,
    modByMonic_eq_zero_iff_dvd (divisor_polyDef poly).monic]
  exact attached.mul_left _

/-! ### The division -/

/-- `oi_p2_crc_calculate` is a polynomial division.  A window inside the buffer is a section of
its bits; the result is the remainder of the window, moved up by the order of the generator,
modulo the generator.  It is additive on windows of one length, leading zeros do not change it,
and a window that goes on with its own checksum has the checksum zero. -/
theorem oiP2CrcCalculate32_polynomial_division (poly : OiP2CrcPoly) :
    (∀ (data : List (BitVec 8)) (bitOffset bitLen : UInt32),
      bitOffset.toNat + bitLen.toNat ≤ 8 * data.length →
      bitOffset.toNat + bitLen.toNat ≤ 2 ^ 32 →
      windowBits data bitOffset bitLen =
        some (((bytesBits data).drop bitOffset.toNat).take bitLen.toNat)) ∧
    (∀ (data : List (BitVec 8)) (bitOffset bitLen : UInt32) (bits : List Bool),
      windowBits data bitOffset bitLen = some bits →
      ∃ crc, oiP2CrcCalculate32 poly data bitOffset bitLen = some crc ∧
        wordPoly crc = (bitsPoly bits * X ^ (polyDef poly).order) %ₘ
          wordPoly (polyDef poly).polynom ∧
        crc.toNat < 2 ^ (polyDef poly).order) ∧
    (∀ (one two sum : List (BitVec 8)) (offsetOne offsetTwo offsetSum bitLen : UInt32)
        (bitsOne bitsTwo : List Bool),
      windowBits one offsetOne bitLen = some bitsOne →
      windowBits two offsetTwo bitLen = some bitsTwo →
      windowBits sum offsetSum bitLen = some (List.zipWith xor bitsOne bitsTwo) →
      ∃ crcOne crcTwo, oiP2CrcCalculate32 poly one offsetOne bitLen = some crcOne ∧
        oiP2CrcCalculate32 poly two offsetTwo bitLen = some crcTwo ∧
        oiP2CrcCalculate32 poly sum offsetSum bitLen = some (crcOne ^^^ crcTwo)) ∧
    (∀ (data long : List (BitVec 8)) (bitOffset bitLen longOffset longLen : UInt32)
        (bits : List Bool) (zeros : Nat),
      windowBits data bitOffset bitLen = some bits →
      windowBits long longOffset longLen = some (List.replicate zeros false ++ bits) →
      oiP2CrcCalculate32 poly long longOffset longLen =
        oiP2CrcCalculate32 poly data bitOffset bitLen) ∧
    (∀ (data long : List (BitVec 8)) (bitOffset bitLen longOffset longLen : UInt32)
        (bits : List Bool) (crc : BitVec 32),
      windowBits data bitOffset bitLen = some bits →
      oiP2CrcCalculate32 poly data bitOffset bitLen = some crc →
      windowBits long longOffset longLen = some (bits ++ lowBits (polyDef poly).order crc) →
      oiP2CrcCalculate32 poly long longOffset longLen = some 0#32) := by
  refine ⟨fun data bitOffset bitLen inside fits => windowBits_eq inside fits, ?_, ?_, ?_, ?_⟩
  · intro data bitOffset bitLen bits window
    refine ⟨crcOfBits poly bits, oiP2CrcCalculate32_of_window poly window, ?_,
      (below_crcOfBits poly bits).toNat_lt⟩
    rw [wordPoly_crcOfBits, mul_comm]
  · intro one two sum offsetOne offsetTwo offsetSum bitLen bitsOne bitsTwo windowOne windowTwo
      windowSum
    have same : bitsOne.length = bitsTwo.length :=
      (length_of_windowBits windowOne).trans (length_of_windowBits windowTwo).symm
    refine ⟨_, _, oiP2CrcCalculate32_of_window poly windowOne,
      oiP2CrcCalculate32_of_window poly windowTwo, ?_⟩
    rw [oiP2CrcCalculate32_of_window poly windowSum, crcOfBits_zipWith_xor poly same]
  · intro data long bitOffset bitLen longOffset longLen bits zeros window windowLong
    rw [oiP2CrcCalculate32_of_window poly window, oiP2CrcCalculate32_of_window poly windowLong,
      crcOfBits_zeros_append]
  · intro data long bitOffset bitLen longOffset longLen bits crc window call windowLong
    obtain rfl : crcOfBits poly bits = crc :=
      Option.some.inj ((oiP2CrcCalculate32_of_window poly window).symm.trans call)
    rw [oiP2CrcCalculate32_of_window poly windowLong, crcOfBits_append_crcOfBits]

/-- Windows of the byte 0xA5: its last three bits, and two zeros in front of them. -/
theorem oiP2CrcCalculate32_small_windows :
    windowBits [0xA5] 3 5 = some [false, false, true, false, true] ∧
    (∃ crc, oiP2CrcCalculate32 .crc16 [0xA5] 3 5 = some crc ∧
      wordPoly crc = (bitsPoly [false, false, true, false, true] * X ^ 16) %ₘ
        wordPoly (0x11021 : BitVec 64) ∧ crc.toNat < 2 ^ 16) ∧
    (∃ crcOne crcTwo, oiP2CrcCalculate32 .crc16 [0xA5] 3 5 = some crcOne ∧
      oiP2CrcCalculate32 .crc16 [0x0F] 0 5 = some crcTwo ∧
      oiP2CrcCalculate32 .crc16 [0x20] 0 5 = some (crcOne ^^^ crcTwo)) ∧
    oiP2CrcCalculate32 .crc16 [0xA5] 3 5 = oiP2CrcCalculate32 .crc16 [0xA5] 5 3 ∧
    oiP2CrcCalculate32 .crc16 [0xAA, 0x14, 0xA0] 0 19 = some 0#32 := by
  obtain ⟨window, remainder, linear, zeros, extended⟩ :=
    oiP2CrcCalculate32_polynomial_division .crc16
  have five : windowBits [0xA5] 3 5 = some [false, false, true, false, true] :=
    window [0xA5] 3 5 (by decide) (by decide)
  have three : windowBits [0xA5] 5 3 = some [true, false, true] :=
    window [0xA5] 5 3 (by decide) (by decide)
  refine ⟨five, remainder _ _ _ _ five, ?_, ?_, ?_⟩
  · exact linear [0xA5] [0x0F] [0x20] 3 0 0 5 _ _ five (window _ 0 5 (by decide) (by decide))
      (by decide)
  · exact zeros _ _ _ _ _ _ _ 2 three five
  · exact extended _ _ _ _ _ _ _ 20645 three (by decide +kernel) (by decide)

end RanInline.Tail
