/-
Module: RanInline.Ldpc.Kernel
Purpose: The whole of ldpc_decode: loading the channel LLRs, the iterations and the packed
  hard decisions, with the rule that carries an invariant through a run.
Trusted boundary: none
Main exports: along_load, along_emit, KernelRun, kernelRun
-/
import RanInline.Ldpc.Layer

namespace RanInline.Ldpc

open RanInline.Lib

variable {shape : LdpcShape} {llr : Nat → Nat → Int} {before : LdpcMemory}

/-! ### Loading -/

/-- The soft values are the channel LLRs, and the messages are as they were. -/
def Loaded (shape : LdpcShape) (llr : Nat → Nat → Int) (before memory : LdpcMemory) : Prop :=
  memory.c2v = before.c2v ∧
    ∀ vn < shape.nVnFull, ∀ zi < shape.ls, memory.soft vn zi = llr vn zi

theorem soft_load (memory : LdpcMemory) (vn zi : Nat) :
    (memory.apply shape llr (.load vn zi)).soft = store memory.soft vn zi (llr vn zi) := rfl

theorem along_load (shape : LdpcShape) (llr : Nat → Nat → Int) (before : LdpcMemory) :
    Along (ldpcExec shape llr) (fun _ => True) (fun _ _ => True) (Loaded shape llr before)
      shape.loadOps before := by
  refine Along.forRange
    (fun n (memory : LdpcMemory) => memory.c2v = before.c2v ∧
      ∀ vn < n, ∀ zi < shape.ls, memory.soft vn zi = llr vn zi) ?_ trivial ⟨rfl, by simp⟩
  rintro n node memory ⟨c2v, rows⟩
  refine (Along.forRange
    (fun i (memory : LdpcMemory) => memory.c2v = before.c2v ∧
      (∀ vn < n, ∀ zi < shape.ls, memory.soft vn zi = llr vn zi) ∧
      ∀ zi < i, memory.soft n zi = llr n zi) ?_ trivial ⟨c2v, rows, by simp⟩).mono
    fun final _ done => ?_
  · rintro i position memory ⟨c2v, rows, row⟩
    refine Along.single trivial (if_pos (softInBounds node position)) trivial trivial
      ⟨c2v, ?_, ?_⟩
    · intro vn less zi inside
      rw [soft_load, store_apply, if_neg (by omega), rows vn less zi inside]
    · intro zi less
      rw [soft_load, store_apply]
      split_ifs with here
      · rw [here.2]
      · exact row zi (by omega)
  · obtain ⟨c2v, rows, row⟩ := done
    refine ⟨c2v, fun vn less zi inside => ?_⟩
    rcases Nat.lt_succ_iff_lt_or_eq.mp less with earlier | rfl
    · exact rows vn earlier zi inside
    · exact row zi inside

/-! ### Hard decisions -/

theorem getLsbD_writeBit (byte : BitVec 8) {bitPos : Nat} (inside : bitPos < 8) (bit : Bool)
    (other : Nat) :
    (writeBit byte bitPos bit).getLsbD other =
      if other = bitPos then bit else byte.getLsbD other := by
  rw [writeBit]
  by_cases same : other = bitPos
  · subst same
    cases bit <;> simp [inside]
  · cases bit with
    | false =>
        simp only [Bool.false_eq_true, if_false, same, BitVec.getLsbD_and, BitVec.getLsbD_not,
          BitVec.getLsbD_shiftLeft, BitVec.getLsbD_one]
        cases set : byte.getLsbD other with
        | false => rfl
        | true =>
            have := BitVec.lt_of_getLsbD set
            simp
            omega
    | true =>
        simp only [if_true, if_false, same, BitVec.getLsbD_or, BitVec.getLsbD_shiftLeft,
          BitVec.getLsbD_one]
        have apart : ¬ (bitPos ≤ other ∧ other - bitPos = 0) := by omega
        simp
        omega

/-- Writing one output bit leaves the others alone. -/
theorem outputBit_emit (memory : LdpcMemory) (vn zi bitIdx : Nat) :
    outputBit (memory.apply shape llr (.emit vn zi)) bitIdx =
      if bitIdx = vn * shape.ls + zi then decide (memory.soft vn zi < 0)
      else outputBit memory bitIdx := by
  simp only [outputBit, LdpcMemory.apply]
  by_cases byte : bitIdx / 8 = (vn * shape.ls + zi) / 8
  · rw [byte, Function.update_self, getLsbD_writeBit _ (by omega)]
    have positions : 7 - bitIdx % 8 = 7 - (vn * shape.ls + zi) % 8 ↔
        bitIdx = vn * shape.ls + zi := by omega
    simp only [positions]
  · rw [Function.update_of_ne byte, if_neg (fun same => byte (by rw [same]))]

/-- The output bits below `count` are the signs of the soft values. -/
def Decided (shape : LdpcShape) (before : LdpcMemory) (count : Nat) (memory : LdpcMemory) :
    Prop :=
  memory.soft = before.soft ∧ memory.c2v = before.c2v ∧
    ∀ bitIdx < count, outputBit memory bitIdx =
      decide (before.soft (bitIdx / shape.ls) (bitIdx % shape.ls) < 0)

section Emit

variable {good : (Nat → Nat → Int) → (Nat → Nat → Nat → Int) → Prop}
  {moves : (Nat → Nat → Int) → (Nat → Nat → Int) → Prop}

theorem along_emit (refl : ∀ soft, moves soft soft) (holds : good before.soft before.c2v) :
    LdpcAlong shape llr good moves (Decided shape before (shape.nVnInfo * shape.ls))
      shape.emitOps before := by
  refine Along.forRange (fun vn => Decided shape before (vn * shape.ls)) ?_ holds
    ⟨rfl, rfl, by simp⟩
  intro vn node memory decided
  have start : good memory.soft memory.c2v := by rwa [decided.1, decided.2.1]
  refine (Along.forRange (fun zi => Decided shape before (vn * shape.ls + zi)) ?_ start
    decided).mono fun final _ done => ?_
  · rintro zi position memory ⟨soft, c2v, bits⟩
    have inside := flat_lt node position
    have inBounds : (LdpcOp.emit vn zi).InBounds shape :=
      ⟨softInBounds (Nat.lt_of_lt_of_le node shape.nVnInfo_le) position, by omega⟩
    refine along_untouched refl (by rwa [soft, c2v]) inBounds rfl rfl ⟨soft, c2v, ?_⟩
    intro bitIdx less
    rw [outputBit_emit]
    split_ifs with here
    · obtain ⟨row, column⟩ := flat_div_mod vn position
      rw [here, row, column, soft]
    · exact bits bitIdx (by omega)
  · rwa [Nat.succ_mul]

end Emit

/-! ### Whole runs -/

/-- A run of `ldpc_decode`.  From the end of the load on, it takes every step, `good` holds
in every state and any two states are related by `moves`; at the end the output bits are
the signs of the soft values. -/
structure KernelRun (shape : LdpcShape) (llr : Nat → Nat → Int) (nIter : Nat)
    (memory : LdpcMemory)
    (good : (Nat → Nat → Int) → (Nat → Nat → Nat → Int) → Prop)
    (moves : (Nat → Nat → Int) → (Nat → Nat → Int) → Prop) : Prop where
  every : ∀ k, shape.loadOps.length ≤ k → ∃ state,
    ldpcDecodeAfter shape llr nIter memory k = some state ∧ good state.soft state.c2v
  between : ∀ k later first second, shape.loadOps.length ≤ k → k ≤ later →
    ldpcDecodeAfter shape llr nIter memory k = some first →
    ldpcDecodeAfter shape llr nIter memory later = some second →
    moves first.soft second.soft
  output : ∃ final, ldpcDecode shape llr nIter memory = some final ∧
    good final.soft final.c2v ∧
    ∀ vn < shape.nVnInfo, ∀ zi < shape.ls,
      outputBit final (vn * shape.ls + zi) = decide (final.soft vn zi < 0)

/-- The rule for whole runs: an invariant that holds when the LLRs are loaded and that every
edge update keeps. -/
theorem kernelRun {good invariant : (Nat → Nat → Int) → (Nat → Nat → Nat → Int) → Prop}
    {moves : (Nat → Nat → Int) → (Nat → Nat → Int) → Prop}
    (refl : ∀ soft, moves soft soft)
    (trans : ∀ one two three, moves one two → moves two three → moves one three)
    (regular : Regular shape)
    {inside : LdpcMemory → (Nat → Nat → Int) → (Nat → Nat → Nat → Int) → Prop}
    (implies : ∀ soft c2v, invariant soft c2v → good soft c2v)
    (enter : ∀ before : LdpcMemory, invariant before.soft before.c2v →
      inside before before.soft before.c2v)
    (leave : ∀ before soft c2v, inside before soft c2v → invariant soft c2v)
    (rule : ∀ (before : LdpcMemory), ∀ cn < shape.nCn, invariant before.soft before.c2v →
      EdgeRule shape good (inside before) moves before cn)
    (nIter : Nat) {memory : LdpcMemory}
    (start : ∀ loaded, Loaded shape llr memory loaded → invariant loaded.soft loaded.c2v) :
    KernelRun shape llr nIter memory good moves := by
  obtain ⟨loaded, load, _, done⟩ := (along_load shape llr memory).ends
  have along : LdpcAlong shape llr good moves
      (fun final => ∀ vn < shape.nVnInfo, ∀ zi < shape.ls,
        outputBit final (vn * shape.ls + zi) = decide (final.soft vn zi < 0))
      (shape.iterationOps nIter ++ shape.emitOps) loaded := by
    refine (along_iterations refl regular implies enter leave rule nIter
      (start loaded done)).append fun decoded keeps => ?_
    refine (along_emit refl (implies _ _ keeps)).mono fun final _ decided => ?_
    intro vn node zi position
    obtain ⟨soft, _, bits⟩ := decided
    obtain ⟨row, column⟩ := flat_div_mod vn position
    rw [bits _ (flat_lt node position), row, column, soft]
  have after (k : Nat) (late : shape.loadOps.length ≤ k) :
      ldpcDecodeAfter shape llr nIter memory k =
        ((shape.iterationOps nIter ++ shape.emitOps).take (k - shape.loadOps.length)).foldlM
          (ldpcExec shape llr) loaded := by
    rw [ldpcDecodeAfter, LdpcShape.program, List.take_append, List.take_of_length_le late,
      List.foldlM_append, load]
    rfl
  refine ⟨?_, ?_, ?_⟩
  · intro k late
    obtain ⟨state, reached, rest⟩ := along.drop (k - shape.loadOps.length)
    exact ⟨state, (after k late).trans reached, rest.head⟩
  · intro k later first second late le reachedFirst reachedSecond
    rw [after k late] at reachedFirst
    rw [after later (late.trans le)] at reachedSecond
    exact along.between (fun state => refl state.soft)
      (fun one two three => trans one.soft two.soft three.soft) (by omega) reachedFirst
      reachedSecond
  · obtain ⟨final, run, holds, bits⟩ := along.ends
    refine ⟨final, ?_, holds, bits⟩
    rw [ldpcDecode, LdpcShape.program, List.foldlM_append, load]
    exact run

end RanInline.Ldpc
