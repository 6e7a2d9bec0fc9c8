/-
Module: RanInline.Lib.ClassicBpf
Purpose: Classic BPF filters that compare bytes of a packet: loads at fixed offsets, tests for
  equality with forward jumps, and returns.
Trusted boundary: the meaning of the instructions
Main exports: SockFilter, Bpf.run, Bpf.Accepts, HasAt, loadAbs_eq_some_iff, Bpf.run_ldAbs,
  Bpf.run_jeq, Bpf.run_ret, Bpf.run_compare
-/
import Mathlib.Data.List.Induction
import Mathlib.Algebra.Order.Ring.Nat

namespace RanInline.Lib

/-- An instruction as it is encoded. -/
structure SockFilter where
  code : UInt16
  jt : UInt8
  jf : UInt8
  k : UInt32
deriving DecidableEq, Repr

namespace Bpf

/-- What an instruction does. -/
inductive Operation where
  | ldAbs (size : Nat)
  | jeq
  | ret
deriving DecidableEq, Repr

/-- The operations by their codes. -/
def operation (code : UInt16) : Option Operation :=
  if code = 0x20 then some (.ldAbs 4)
  else if code = 0x28 then some (.ldAbs 2)
  else if code = 0x30 then some (.ldAbs 1)
  else if code = 0x15 then some .jeq
  else if code = 0x06 then some .ret
  else none

/-- The number that bytes stand for, the most significant one first. -/
def beValue (bytes : List UInt8) : Nat := bytes.foldl (fun value byte => value * 256 + byte.toNat) 0

/-- A load from the packet; `none` when it is too short. -/
def loadAbs (packet : List UInt8) (offset size : Nat) : Option UInt32 :=
  if offset + size ≤ packet.length then
    some (UInt32.ofNat (beValue ((packet.drop offset).take size)))
  else none

/-- The rest of a filter with the accumulator `a`: the number of bytes to keep.  A load behind the
end of the packet rejects it, and jumps are relative to the next instruction.  `none` is a code
that is not handled, or the end of the filter. -/
def run (packet : List UInt8) (filter : List SockFilter) (a : UInt32) : Option UInt32 :=
  match filter with
  | [] => none
  | insn :: rest =>
      match operation insn.code with
      | none => none
      | some (.ldAbs size) =>
          match loadAbs packet insn.k.toNat size with
          | none => some 0
          | some value => run packet rest value
      | some .jeq => run packet (rest.drop (if a = insn.k then insn.jt else insn.jf).toNat) a
      | some .ret => some insn.k
termination_by filter.length

/-- The filter keeps the packet. -/
def Accepts (filter : List SockFilter) (packet : List UInt8) : Prop :=
  ∃ kept, run packet filter 0 = some kept ∧ kept ≠ 0

/-! ### Bytes in a packet -/

/-- The packet has these bytes at the offset. -/
def HasAt (packet : List UInt8) (offset : Nat) (bytes : List UInt8) : Prop :=
  ∀ i < bytes.length, packet[offset + i]? = bytes[i]?

instance (packet : List UInt8) (offset : Nat) (bytes : List UInt8) :
    Decidable (HasAt packet offset bytes) :=
  inferInstanceAs (Decidable (∀ i < bytes.length, packet[offset + i]? = bytes[i]?))

theorem HasAt.length_le {packet bytes : List UInt8} {offset : Nat} (has : HasAt packet offset bytes)
    (nonempty : 0 < bytes.length) : offset + bytes.length ≤ packet.length := by
  have last := has (bytes.length - 1) (by omega)
  rw [List.getElem?_eq_getElem (show bytes.length - 1 < bytes.length by omega)] at last
  have inside := (List.getElem?_eq_some_iff.mp last).1
  omega

theorem hasAt_pair_iff {packet : List UInt8} {offset : Nat} {high low : UInt8} :
    HasAt packet offset [high, low] ↔
      packet[offset]? = some high ∧ packet[offset + 1]? = some low := by
  constructor
  · intro has
    exact ⟨has 0 Nat.two_pos, has 1 Nat.one_lt_two⟩
  · rintro ⟨first, second⟩ i inside
    match i, inside with
    | 0, _ => exact first
    | 1, _ => exact second

theorem hasAt_append (packet : List UInt8) (offset : Nat) (one two : List UInt8) :
    HasAt packet offset (one ++ two) ↔
      HasAt packet offset one ∧ HasAt packet (offset + one.length) two := by
  constructor
  · intro has
    refine ⟨fun i inside => ?_, fun i inside => ?_⟩
    · rw [has i (by rw [List.length_append]; omega), List.getElem?_append_left inside]
    · rw [Nat.add_assoc, has _ (by rw [List.length_append]; omega),
        List.getElem?_append_right (Nat.le_add_right _ _), Nat.add_sub_cancel_left]
  · rintro ⟨first, second⟩ i inside
    rw [List.length_append] at inside
    rcases Nat.lt_or_ge i one.length with early | late
    · rw [List.getElem?_append_left early, first i early]
    · rw [List.getElem?_append_right late, ← second (i - one.length) (by omega)]
      congr 1
      omega

theorem hasAt_iff_take {packet bytes : List UInt8} {offset : Nat} :
    HasAt packet offset bytes ↔ (packet.drop offset).take bytes.length = bytes := by
  constructor
  · intro has
    apply List.ext_getElem?
    intro i
    rcases Nat.lt_or_ge i bytes.length with inside | outside
    · rw [List.getElem?_take, if_pos inside, List.getElem?_drop, has i inside]
    · rw [List.getElem?_eq_none outside, List.getElem?_take, if_neg (by omega)]
  · intro taken i inside
    have same : bytes[i]? = ((packet.drop offset).take bytes.length)[i]? := by rw [taken]
    rw [same, List.getElem?_take, if_pos inside, List.getElem?_drop]

theorem beValue_append_singleton (bytes : List UInt8) (byte : UInt8) :
    beValue (bytes ++ [byte]) = beValue bytes * 256 + byte.toNat := by
  rw [beValue, List.foldl_append]
  rfl

theorem beValue_lt (bytes : List UInt8) : beValue bytes < 256 ^ bytes.length := by
  induction bytes using List.reverseRecOn with
  | nil => exact Nat.one_pos
  | append_singleton bytes byte inductionHypothesis =>
      have small := byte.toNat_lt
      rw [beValue_append_singleton, List.length_append, List.length_singleton, Nat.pow_succ]
      omega

/-- Bytes of one number are told apart by the number they stand for. -/
theorem beValue_inj {one two : List UInt8} (length : one.length = two.length)
    (same : beValue one = beValue two) : one = two := by
  induction one using List.reverseRecOn generalizing two with
  | nil => exact (List.length_eq_zero_iff.mp length.symm).symm
  | append_singleton one byte inductionHypothesis =>
      rcases List.eq_nil_or_concat two with rfl | ⟨rest, last, rfl⟩
      · simp at length
      · have small := byte.toNat_lt
        have smallToo := last.toNat_lt
        rw [List.concat_eq_append] at length same ⊢
        rw [beValue_append_singleton, beValue_append_singleton] at same
        rw [List.length_append, List.length_append, List.length_singleton,
          List.length_singleton] at length
        have front : one = rest := inductionHypothesis (by omega) (by omega)
        have back : byte = last := UInt8.toNat_inj.mp (by omega)
        rw [front, back]

/-- A load finds the number of some bytes exactly when the packet has those bytes there. -/
theorem loadAbs_eq_some_iff {packet bytes : List UInt8} {offset : Nat}
    (nonempty : 0 < bytes.length) (word : bytes.length ≤ 4) :
    loadAbs packet offset bytes.length = some (UInt32.ofNat (beValue bytes)) ↔
      HasAt packet offset bytes := by
  have range (taken : List UInt8) (length : taken.length = bytes.length) :
      (UInt32.ofNat (beValue taken)).toNat = beValue taken := by
    have bound := beValue_lt taken
    have most : 256 ^ taken.length ≤ 256 ^ 4 := Nat.pow_le_pow_right (by decide) (by omega)
    exact Nat.mod_eq_of_lt (by omega)
  rw [loadAbs]
  split_ifs with fits
  · rw [hasAt_iff_take, Option.some_inj, ← UInt32.toNat_inj]
    have length : ((packet.drop offset).take bytes.length).length = bytes.length := by
      rw [List.length_take, List.length_drop]
      omega
    rw [range _ length, range _ rfl]
    exact ⟨beValue_inj length, congrArg beValue⟩
  · constructor
    · intro absurd
      cases absurd
    · intro has
      exact absurd (has.length_le nonempty) fits

/-! ### One instruction -/

section Step

variable {packet : List UInt8} {insn : SockFilter} {rest : List SockFilter} {a : UInt32}

theorem run_ldAbs {size : Nat} (code : operation insn.code = some (.ldAbs size)) :
    run packet (insn :: rest) a =
      (loadAbs packet insn.k.toNat size).elim (some 0) (run packet rest) := by
  rw [run, code]
  cases loaded : loadAbs packet insn.k.toNat size <;> simp only [loaded, Option.elim]

theorem run_jeq (code : operation insn.code = some .jeq) :
    run packet (insn :: rest) a =
      run packet (rest.drop (if a = insn.k then insn.jt else insn.jf).toNat) a := by
  rw [run, code]

theorem run_ret (code : operation insn.code = some .ret) :
    run packet (insn :: rest) a = some insn.k := by
  rw [run, code]

/-- A load and a test for some bytes: when the packet has them, the test is taken; when it has not,
the packet is too short and rejected, or the test is not taken. -/
theorem run_compare {load test : SockFilter} {bytes : List UInt8}
    (loads : operation load.code = some (.ldAbs bytes.length))
    (tests : operation test.code = some .jeq) (constant : test.k = UInt32.ofNat (beValue bytes))
    (nonempty : 0 < bytes.length) (word : bytes.length ≤ 4) :
    run packet (load :: test :: rest) a =
      if HasAt packet load.k.toNat bytes then run packet (rest.drop test.jt.toNat) test.k
      else (loadAbs packet load.k.toNat bytes.length).elim (some 0)
        (run packet (rest.drop test.jf.toNat)) := by
  have found : loadAbs packet load.k.toNat bytes.length = some test.k ↔
      HasAt packet load.k.toNat bytes := by
    rw [constant]
    exact loadAbs_eq_some_iff nonempty word
  rw [run_ldAbs loads]
  by_cases has : HasAt packet load.k.toNat bytes
  · rw [if_pos has, found.mpr has, Option.elim_some, run_jeq tests, if_pos rfl]
  · rw [if_neg has]
    cases loaded : loadAbs packet load.k.toNat bytes.length with
    | none => rfl
    | some value =>
        have other : value ≠ test.k := fun same => has (found.mp (by rw [loaded, same]))
        rw [Option.elim_some, Option.elim_some, run_jeq tests, if_neg other]

end Step

end Bpf

end RanInline.Lib
