/-
Module: RanInline.Lib.ByteRegion
Purpose: Regions of bytes that are overwritten in place, and unsigned little-endian fields
  in them.
Trusted boundary: none
Main exports: overwrite, getElem?_overwrite, fieldBytes, fieldAt, encodeFields,
  fieldAt_encodeFields, fieldAt_overwrite, fieldAt_overwrite_of_disjoint
-/
import Mathlib.Data.Nat.Digits.Defs
import Mathlib.Tactic.SplitIfs

namespace RanInline.Lib

/-- A region after a write of `data` at `offset`. -/
def overwrite (region : List UInt8) (offset : Nat) (data : List UInt8) : List UInt8 :=
  region.take offset ++ (data ++ region.drop (offset + data.length))

/-- The value of little-endian bytes. -/
def bytesValue (data : List UInt8) : Nat := Nat.ofDigits 256 (data.map UInt8.toNat)

/-- The bytes of an unsigned field, the least significant first; what does not fit is lost. -/
def fieldBytes (width value : Nat) : List UInt8 :=
  (List.range width).map fun i => UInt8.ofNat (value / 256 ^ i)

/-- The unsigned field of `width` bytes at `offset`. -/
def fieldAt (region : List UInt8) (offset width : Nat) : Nat :=
  bytesValue ((region.drop offset).take width)

@[simp]
theorem length_fieldBytes (width value : Nat) : (fieldBytes width value).length = width := by
  simp [fieldBytes]

theorem fieldBytes_succ (width value : Nat) :
    fieldBytes (width + 1) value = UInt8.ofNat value :: fieldBytes width (value / 256) := by
  rw [fieldBytes, List.range_succ_eq_map, List.map_cons, List.map_map, fieldBytes]
  congr 1
  · simp
  · refine List.map_congr_left fun i _ => ?_
    simp [Function.comp, Nat.pow_succ', Nat.div_div_eq_div_mul]

theorem bytesValue_fieldBytes (width value : Nat) :
    bytesValue (fieldBytes width value) = value % 256 ^ width := by
  induction width generalizing value with
  | zero => simp [fieldBytes, bytesValue, Nat.mod_one]
  | succ width inductionHypothesis =>
      have low : (UInt8.ofNat value).toNat = value % 256 := UInt8.toNat_ofNat'
      have rest : Nat.ofDigits 256 ((fieldBytes width (value / 256)).map UInt8.toNat) =
          value / 256 % 256 ^ width := inductionHypothesis (value / 256)
      rw [fieldBytes_succ, bytesValue, List.map_cons, Nat.ofDigits_cons, low, rest,
        Nat.pow_succ', Nat.mod_mul]

theorem bytesValue_lt (data : List UInt8) : bytesValue data < 256 ^ data.length := by
  have bound : Nat.ofDigits 256 (data.map UInt8.toNat) < 256 ^ (data.map UInt8.toNat).length := by
    refine Nat.ofDigits_lt_base_pow_length (by decide) fun digit member => ?_
    obtain ⟨byte, _, rfl⟩ := List.mem_map.mp member
    exact byte.toNat_lt
  rwa [List.length_map] at bound

theorem fieldAt_lt (region : List UInt8) (offset width : Nat) :
    fieldAt region offset width < 256 ^ width :=
  lt_of_lt_of_le (bytesValue_lt _)
    (Nat.pow_le_pow_right (by decide) (List.length_take_le width _))

/-- The bytes of a field inside a region. -/
theorem exists_bytes_of_inside {region : List UInt8} {offset width : Nat}
    (inside : offset + width ≤ region.length) :
    ∃ data : List UInt8, data.length = width ∧ fieldAt region offset width = bytesValue data ∧
      ∀ i < width, region[offset + i]? = data[i]? := by
  refine ⟨(region.drop offset).take width, ?_, rfl, fun i small => ?_⟩
  · rw [List.length_take, List.length_drop]
    omega
  · rw [List.getElem?_take, if_pos small, List.getElem?_drop]

/-- What lies behind a field does not matter for it. -/
theorem fieldAt_append_left {region rest : List UInt8} {offset width : Nat}
    (inside : offset + width ≤ region.length) :
    fieldAt (region ++ rest) offset width = fieldAt region offset width := by
  rw [fieldAt, fieldAt, List.drop_append_of_le_length (by omega),
    List.take_append_of_le_length (by rw [List.length_drop]; omega)]

theorem fieldAt_append_right (region rest : List UInt8) (offset width : Nat) :
    fieldAt (region ++ rest) (region.length + offset) width = fieldAt rest offset width := by
  rw [fieldAt, fieldAt, List.drop_append, List.drop_of_length_le (by omega), List.nil_append,
    Nat.add_sub_cancel_left]

/-- A field at the end of a region. -/
theorem fieldAt_append_fieldBytes (region : List UInt8) (width value : Nat) :
    fieldAt (region ++ fieldBytes width value) region.length width = value % 256 ^ width := by
  have behind := fieldAt_append_right region (fieldBytes width value) 0 width
  rw [Nat.add_zero] at behind
  rw [behind, fieldAt, List.drop_zero, List.take_of_length_le (by simp), bytesValue_fieldBytes]

/-- Bytes are the field of their value. -/
theorem fieldBytes_bytesValue (data : List UInt8) :
    fieldBytes data.length (bytesValue data) = data := by
  induction data with
  | nil => rfl
  | cons byte data inductionHypothesis =>
      have unfolded : bytesValue (byte :: data) = byte.toNat + 256 * bytesValue data := rfl
      have low := byte.toNat_lt
      have rest : (byte.toNat + 256 * bytesValue data) / 256 = bytesValue data := by omega
      rw [List.length_cons, fieldBytes_succ, unfolded, rest, inductionHypothesis]
      congr 1
      rw [← UInt8.toNat_inj, UInt8.toNat_ofNat']
      omega

/-- Fields behind one another, each with its width and its value. -/
def encodeFields (fields : List (Nat × Nat)) : List UInt8 :=
  fields.flatMap fun field => fieldBytes field.1 field.2

theorem length_encodeFields (fields : List (Nat × Nat)) :
    (encodeFields fields).length = (fields.map Prod.fst).sum := by
  simp [encodeFields, List.length_flatMap]

/-- A field is found behind those in front of it. -/
theorem fieldAt_encodeFields {fields : List (Nat × Nat)} {i width value offset : Nat}
    (found : fields[i]? = some (width, value))
    (place : ((fields.take i).map Prod.fst).sum = offset) (rest : List UInt8) :
    fieldAt (encodeFields fields ++ rest) offset width = value % 256 ^ width := by
  obtain ⟨inside, entry⟩ := List.getElem?_eq_some_iff.mp found
  have split : encodeFields fields = encodeFields (fields.take i) ++
      (fieldBytes width value ++ encodeFields (fields.drop (i + 1))) := by
    conv_lhs => rw [← List.take_append_drop i fields, List.drop_eq_getElem_cons inside, entry]
    simp [encodeFields]
  have front : offset = (encodeFields (fields.take i)).length + 0 := by
    rw [length_encodeFields, place, Nat.add_zero]
  have alone := fieldAt_append_fieldBytes [] width value
  rw [List.nil_append, List.length_nil] at alone
  rw [split, List.append_assoc, front, fieldAt_append_right, List.append_assoc,
    fieldAt_append_left (by simp), alone]

section Overwrite

variable {region data : List UInt8} {offset : Nat}

theorem length_overwrite (inside : offset + data.length ≤ region.length) :
    (overwrite region offset data).length = region.length := by
  simp only [overwrite, List.length_append, List.length_take, List.length_drop]
  omega

theorem getElem?_overwrite (inside : offset + data.length ≤ region.length) (i : Nat) :
    (overwrite region offset data)[i]? =
      if offset ≤ i ∧ i < offset + data.length then data[i - offset]? else region[i]? := by
  have taken : (region.take offset).length = offset := by
    rw [List.length_take]
    omega
  rw [overwrite]
  rcases Nat.lt_or_ge i offset with before | behind
  · rw [List.getElem?_append_left (by omega), List.getElem?_take, if_pos before,
      if_neg (by omega)]
  · rw [List.getElem?_append_right (by omega), taken]
    rcases Nat.lt_or_ge i (offset + data.length) with within | after
    · rw [List.getElem?_append_left (by omega), if_pos ⟨behind, within⟩]
    · rw [List.getElem?_append_right (by omega), List.getElem?_drop, if_neg (by omega)]
      congr 1
      omega

/-- A field that was just written holds the value, as far as it fits. -/
theorem fieldAt_overwrite {width : Nat} (inside : offset + width ≤ region.length)
    (value : Nat) :
    fieldAt (overwrite region offset (fieldBytes width value)) offset width =
      value % 256 ^ width := by
  have taken : (region.take offset).length = offset := by
    rw [List.length_take]
    omega
  rw [fieldAt, overwrite, List.drop_append_of_le_length (by omega), List.drop_of_length_le
    (by omega), List.nil_append, List.take_append_of_le_length (by simp),
    List.take_of_length_le (by simp), bytesValue_fieldBytes]

/-- A write leaves the fields in front of it and behind it alone. -/
theorem fieldAt_overwrite_of_disjoint {other width : Nat}
    (inside : offset + data.length ≤ region.length)
    (apart : other + width ≤ offset ∨ offset + data.length ≤ other) :
    fieldAt (overwrite region offset data) other width = fieldAt region other width := by
  rw [fieldAt, fieldAt]
  congr 1
  refine List.ext_getElem? fun i => ?_
  rw [List.getElem?_take, List.getElem?_take, List.getElem?_drop, List.getElem?_drop]
  split_ifs with within
  · rw [getElem?_overwrite inside, if_neg (by omega)]
  · rfl

end Overwrite

theorem fieldAt_replicate_zero (length offset width : Nat) :
    fieldAt (List.replicate length 0) offset width = 0 := by
  rw [fieldAt, bytesValue, List.drop_replicate, List.take_replicate, List.map_replicate]
  generalize min width (length - offset) = count
  induction count with
  | zero => rfl
  | succ count inductionHypothesis =>
      rw [List.replicate_succ, Nat.ofDigits_cons, inductionHypothesis]
      rfl

end RanInline.Lib
