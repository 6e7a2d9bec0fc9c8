/-
Module: RanInline.Phy.Gold
Purpose: The three copies of the scrambling sequence: oi_gold_init, the descrambler kernel
  k5_descramble and the DMRS generator, against the recurrences of TS 38.211 5.2.1.
Trusted boundary: none
Main exports: OiGoldState, oiGoldInit, k5Descramble, oiDmrsRefSeqGenerate, goldBit,
  k5Descramble_apply, gold_sequences_agree
-/
import RanInline.Ldpc.Arith
import RanInline.Lib.LinearSequence

namespace RanInline.Phy

open RanInline.Lib RanInline.Ldpc

/-- `oi_gold_state`: the two registers, with the first bit of their window on top. -/
structure OiGoldState where
  x1 : BitVec 32
  x2 : BitVec 32
deriving DecidableEq, Repr

/-- `step_once` of oi_p2_gold_init.cpp: the word whose top bit is the output, and the
registers moved on. -/
def stepOnce (state : OiGoldState) : BitVec 32 × OiGoldState :=
  let c := state.x1 ^^^ state.x2
  let f1 := state.x1 ^^^ (state.x1 <<< 3)
  let f2 := state.x2 ^^^ (state.x2 <<< 1) ^^^ (state.x2 <<< 2) ^^^ (state.x2 <<< 3)
  let mask := 0x80000000#32
  let f1 := (f1 &&& mask) >>> 30
  let f2 := (f2 &&& mask) >>> 30
  (c, { x1 := (state.x1 <<< 1) ^^^ f1, x2 := (state.x2 <<< 1) ^^^ f2 })

/-- `oi_k5_step`. -/
def oiK5Step : OiGoldState → BitVec 32 × OiGoldState := stepOnce

/-- `step_once` of oi_dmrs_ref_seq.cpp. -/
def dmrsStepOnce : OiGoldState → BitVec 32 × OiGoldState := stepOnce

/-- `simulate_n_steps`. -/
def simulateNSteps (step : OiGoldState → BitVec 32 × OiGoldState) :
    Nat → OiGoldState → OiGoldState
  | 0, state => state
  | n + 1, state => simulateNSteps step n (step state).2

/-- `kNc`, `OI_K5_NC`. -/
def kNc : Nat := 1600

/-- `x2_raw_start`: the low 31 bits of `c_init`, the first on top. -/
def x2RawStart (cInit : BitVec 32) : BitVec 32 :=
  (List.range 31).foldl
    (fun raw i => if (cInit >>> i) &&& 1#32 ≠ 0#32 then raw ||| (1#32 <<< (31 - i)) else raw)
    0#32

/-- `oi_gold_init`. -/
def oiGoldInit (cInit : BitVec 32) : OiGoldState where
  x1 := (simulateNSteps stepOnce kNc ⟨0x80000000#32, 0#32⟩).x1
  x2 := (simulateNSteps stepOnce kNc ⟨0#32, x2RawStart cInit⟩).x2

/-- The registers of `k5_descramble` behind its two warm-up loops. -/
def k5Warmup (cInit : BitVec 32) : OiGoldState where
  x1 := (simulateNSteps oiK5Step kNc ⟨0x80000000#32, 0#32⟩).x1
  x2 := (simulateNSteps oiK5Step kNc ⟨0#32, x2RawStart cInit⟩).x2

/-- One turn of the loop over the LLRs of a block, which starts at `base`. -/
def k5Turn (base : Nat) (progress : OiGoldState × (Nat → Int)) (n : Nat) :
    OiGoldState × (Nat → Int) :=
  let (c, state) := oiK5Step progress.1
  let llr := progress.2
  (state,
    if c &&& 0x80000000#32 ≠ 0#32 then
      Function.update llr (base + n) (toChar (-llr (base + n)))
    else llr)

/-- `k5_descramble` for one block. -/
def k5Descramble (block : Nat) (llrInout : Nat → Int) (cInit : BitVec 32) (nofLlrs : Nat) :
    Nat → Int :=
  ((List.range nofLlrs).foldl (k5Turn (block * nofLlrs)) (k5Warmup cInit, llrInout)).2

/-- `oi_cf32`. -/
structure OiCf32 (F : Type) where
  re : F
  im : F
deriving DecidableEq, Repr

section Dmrs

variable {F : Type} [Neg F]

/-- `OI_DMRS_PILOTS_PER_PRB`. -/
def oiDmrsPilotsPerPrb : BitVec 32 := 6#32

/-- `c_init` of a DMRS symbol. -/
def dmrsCInit (nslot symbol nId nScid : BitVec 32) : BitVec 32 :=
  let nsymb := 14#32
  ((nsymb * nslot + symbol + 1#32) * (2#32 * nId + 1#32) * (1#32 <<< 17) +
    (2#32 * nId + nScid)) &&& 0x7FFFFFFF#32

/-- The loop over the pilots. -/
def dmrsPilots (kAmplitude : F) : Nat → OiGoldState → List (OiCf32 F)
  | 0, _ => []
  | nofPilots + 1, state =>
      let (cRe, state) := dmrsStepOnce state
      let (cIm, state) := dmrsStepOnce state
      { re := if cRe &&& 0x80000000#32 ≠ 0#32 then -kAmplitude else kAmplitude
        im := if cIm &&& 0x80000000#32 ≠ 0#32 then -kAmplitude else kAmplitude } ::
        dmrsPilots kAmplitude nofPilots state

/-- `oi_dmrs_ref_seq_generate`. -/
def oiDmrsRefSeqGenerate (kAmplitude : F) (nslot symbol nId nScid nofPrb : BitVec 32) :
    List (OiCf32 F) :=
  dmrsPilots kAmplitude (nofPrb * oiDmrsPilotsPerPrb).toNat
    (oiGoldInit (dmrsCInit nslot symbol nId nScid))

end Dmrs

/-! ### The sequences of TS 38.211 5.2.1 -/

/-- `x1`: starts with a one and thirty zeros. -/
def goldX1 : Nat → Bool := linearSequence ([3, 0] : List (Fin 31)) fun i => decide (i = 0)

/-- `x2`: starts with the bits of `c_init`. -/
def goldX2 (cInit : BitVec 32) : Nat → Bool :=
  linearSequence ([3, 2, 1, 0] : List (Fin 31)) cInit.getLsbD

/-- The scrambling sequence `c`. -/
def goldBit (cInit : BitVec 32) (n : Nat) : Bool :=
  xor (goldX1 (n + 1600)) (goldX2 cInit (n + 1600))

/-- The word returned by the step with index `n` from a state. -/
def stepOutput (step : OiGoldState → BitVec 32 × OiGoldState) (state : OiGoldState)
    (n : Nat) : BitVec 32 :=
  (step (simulateNSteps step n state)).1

/-! ### Registers that hold the windows -/

/-- A state whose registers hold the windows of two sequences from `n` on. -/
structure Holds (first second : Nat → Bool) (n : Nat) (state : OiGoldState) : Prop where
  x1 : HoldsWindow 31 first n state.x1
  x2 : HoldsWindow 31 second n state.x2

theorem getLsbD_feedback (f : BitVec 32) (j : Nat) :
    ((f &&& 0x80000000#32) >>> 30).getLsbD j = (decide (j = 1) && f.getLsbD 31) := by
  have top : (0x80000000#32).getLsbD (30 + j) = decide (j = 1) := by
    rw [show (0x80000000#32) = BitVec.twoPow 32 31 by rfl, BitVec.getLsbD_twoPow]
    simp
    omega
  rw [BitVec.getLsbD_ushiftRight, BitVec.getLsbD_and, top]
  by_cases one : j = 1
  · subst one
    simp
  · simp [one]

section Step

variable {first second : Nat → Bool} {n : Nat} {state : OiGoldState}

theorem Holds.output (holds : Holds first second n state) :
    (stepOnce state).1.getLsbD 31 = xor (first n) (second n) := by
  have one := holds.x1 0 (by decide)
  have two := holds.x2 0 (by decide)
  simp only [stepOnce, BitVec.getLsbD_xor]
  simpa using congrArg₂ xor one two

theorem Holds.next (holds : Holds first second n state)
    (firstRec : ∀ n, first (n + 31) = xor (first (n + 3)) (first n))
    (secondRec : ∀ n, second (n + 31) =
      xor (xor (xor (second (n + 3)) (second (n + 2))) (second (n + 1))) (second n)) :
    Holds first second (n + 1) (stepOnce state).2 := by
  have one (tap : Nat) (inWindow : tap < 31) := holds.x1.top inWindow (by decide)
  have two (tap : Nat) (inWindow : tap < 31) := holds.x2.top inWindow (by decide)
  refine ⟨holds.x1.shift (by decide) fun j => ?_, holds.x2.shift (by decide) fun j => ?_⟩
  · have tap0 := one 0 (by decide)
    have tap3 := one 3 (by decide)
    rw [BitVec.shiftLeft_zero] at tap0
    rw [getLsbD_feedback, BitVec.getLsbD_xor, firstRec]
    simp only [Nat.add_one_sub_one] at tap0 tap3
    rw [tap0, tap3, Bool.xor_comm]
    rfl
  · have tap0 := two 0 (by decide)
    have tap1 := two 1 (by decide)
    have tap2 := two 2 (by decide)
    have tap3 := two 3 (by decide)
    rw [BitVec.shiftLeft_zero] at tap0
    rw [getLsbD_feedback, BitVec.getLsbD_xor, BitVec.getLsbD_xor, BitVec.getLsbD_xor, secondRec]
    simp only [Nat.add_one_sub_one] at tap0 tap1 tap2 tap3
    rw [tap0, tap1, tap2, tap3]
    simp only [Bool.xor_assoc, Bool.xor_comm, Nat.add_zero]

/-- Any number of steps move the windows on. -/
theorem Holds.simulate (holds : Holds first second n state)
    (firstRec : ∀ n, first (n + 31) = xor (first (n + 3)) (first n))
    (secondRec : ∀ n, second (n + 31) =
      xor (xor (xor (second (n + 3)) (second (n + 2))) (second (n + 1))) (second n)) (k : Nat) :
    Holds first second (n + k) (simulateNSteps stepOnce k state) := by
  induction k generalizing n state with
  | zero => exact holds
  | succ k inductionHypothesis =>
      rw [Nat.add_comm k 1, ← Nat.add_assoc, Nat.add_comm 1 k]
      exact inductionHypothesis (holds.next firstRec secondRec)

end Step

/-! ### The warm-up -/

theorem goldX1_add (n : Nat) : goldX1 (n + 31) = xor (goldX1 (n + 3)) (goldX1 n) := by
  rw [goldX1, linearSequence_add]
  simp only [List.foldl_cons, List.foldl_nil, Bool.false_xor]
  rfl

theorem goldX2_add (cInit : BitVec 32) (n : Nat) :
    goldX2 cInit (n + 31) =
      xor (xor (xor (goldX2 cInit (n + 3)) (goldX2 cInit (n + 2))) (goldX2 cInit (n + 1)))
        (goldX2 cInit n) := by
  rw [goldX2, linearSequence_add]
  simp only [List.foldl_cons, List.foldl_nil, Bool.false_xor]
  rfl

theorem testBit_iff (word : BitVec 32) (i : Nat) :
    (word >>> i) &&& 1#32 ≠ 0#32 ↔ word.getLsbD i = true := by
  rw [BitVec.and_one_eq_setWidth_ofBool_getLsbD, BitVec.getLsbD_ushiftRight, Nat.add_zero]
  cases word.getLsbD i <;> decide

/-- The bits of `c_init` are laid down from the top. -/
theorem getLsbD_x2RawStart (cInit : BitVec 32) (j : Nat) :
    (x2RawStart cInit).getLsbD j = (decide (0 < j ∧ j < 32) && cInit.getLsbD (31 - j)) := by
  suffices loop : ∀ n ≤ 31, ((List.range n).foldl
      (fun raw i => if (cInit >>> i) &&& 1#32 ≠ 0#32 then raw ||| (1#32 <<< (31 - i)) else raw)
      0#32).getLsbD j = (decide (31 - n < j ∧ j < 32) && cInit.getLsbD (31 - j)) from
    loop 31 (Nat.le_refl 31)
  intro n
  induction n with
  | zero =>
      intro _
      have outside : ¬ (31 < j ∧ j < 32) := by omega
      simp [outside]
  | succ n inductionHypothesis =>
      intro small
      have before := inductionHypothesis (by omega)
      rw [List.range_succ, List.foldl_append, List.foldl_cons, List.foldl_nil]
      have placed : (1#32 <<< (31 - n)).getLsbD j = decide (j = 31 - n) := by
        rw [← BitVec.twoPow_eq, BitVec.getLsbD_twoPow, decide_eq_true (by omega : 31 - n < 32),
          Bool.true_and]
        exact decide_eq_decide.mpr eq_comm
      by_cases here : j = 31 - n
      · have back : 31 - j = n := by omega
        have new : 31 - (n + 1) < j ∧ j < 32 := by omega
        have old : ¬ (31 - n < j ∧ j < 32) := by omega
        rw [decide_eq_false old, Bool.false_and] at before
        split_ifs with bit
        · rw [BitVec.getLsbD_or, before, placed, back, (testBit_iff cInit n).mp bit]
          rw [decide_eq_true here, decide_eq_true new]
          rfl
        · rw [testBit_iff, Bool.not_eq_true] at bit
          rw [before, back, bit, Bool.and_false]
      · have same : (31 - (n + 1) < j ∧ j < 32) ↔ (31 - n < j ∧ j < 32) := by omega
        rw [decide_eq_decide.mpr same]
        split_ifs
        · rw [BitVec.getLsbD_or, before, placed, decide_eq_false here, Bool.or_false]
        · exact before

theorem holdsWindow_zero (n : Nat) : HoldsWindow 31 (fun _ => false) n (0#32) := by
  intro i _
  simp

theorem holds_x1Start : Holds goldX1 (fun _ => false) 0 ⟨0x80000000#32, 0#32⟩ := by
  refine ⟨fun i inside => ?_, holdsWindow_zero 0⟩
  have start : ∀ i < 31, goldX1 i = decide (i = 0) := fun i small =>
    linearSequence_initial small
  have top : ∀ i < 32, (0x80000000#32).getLsbD (32 - 1 - i) = decide (i = 0) := by decide
  rw [top i inside, Nat.zero_add]
  by_cases small : i < 31
  · rw [start i small, decide_eq_true small, Bool.true_and]
  · simp [small]
    omega

theorem holds_x2Start (cInit : BitVec 32) :
    Holds (fun _ => false) (goldX2 cInit) 0 ⟨0#32, x2RawStart cInit⟩ := by
  refine ⟨holdsWindow_zero 0, fun i inside => ?_⟩
  rw [getLsbD_x2RawStart, Nat.zero_add]
  by_cases small : i < 31
  · have start : goldX2 cInit i = cInit.getLsbD i := linearSequence_initial small
    have back : 31 - (32 - 1 - i) = i := by omega
    have placed : 0 < 32 - 1 - i ∧ 32 - 1 - i < 32 := by omega
    rw [start, back, decide_eq_true small, decide_eq_true placed]
  · have bottom : ¬ (0 < 32 - 1 - i ∧ 32 - 1 - i < 32) := by omega
    rw [decide_eq_false small, decide_eq_false bottom, Bool.false_and, Bool.false_and]

/-- Registers that are moved on by `k` steps from their start, each on its own, hold the
windows from `k` on. -/
theorem holds_warm (cInit : BitVec 32) (k : Nat) :
    Holds goldX1 (goldX2 cInit) (0 + k)
      { x1 := (simulateNSteps stepOnce k ⟨0x80000000#32, 0#32⟩).x1
        x2 := (simulateNSteps stepOnce k ⟨0#32, x2RawStart cInit⟩).x2 } where
  x1 := (holds_x1Start.simulate goldX1_add (fun _ => rfl) k).x1
  x2 := ((holds_x2Start cInit).simulate (fun _ => rfl) (goldX2_add cInit) k).x2

/-- The outputs of the warmed-up registers are the scrambling sequence. -/
theorem stepOutput_goldInit (cInit : BitVec 32) (n : Nat) :
    (stepOutput stepOnce (oiGoldInit cInit) n).getLsbD 31 = goldBit cInit n := by
  have holds := (holds_warm cInit kNc).simulate goldX1_add (goldX2_add cInit) n
  have start : 0 + kNc + n = n + 1600 := by
    rw [kNc]
    omega
  rw [stepOutput, oiGoldInit, holds.output, goldBit, start]

/-! ### The loops that use the sequence -/

theorem signBit_iff (word : BitVec 32) :
    word &&& 0x80000000#32 ≠ 0#32 ↔ word.getLsbD 31 = true := by
  have masked : word &&& 0x80000000#32 = word &&& BitVec.twoPow 32 31 := rfl
  rw [masked, BitVec.and_twoPow]
  cases word.getLsbD 31 <;> simp

theorem simulateNSteps_succ (step : OiGoldState → BitVec 32 × OiGoldState) (n : Nat)
    (state : OiGoldState) :
    simulateNSteps step (n + 1) state = (step (simulateNSteps step n state)).2 := by
  induction n generalizing state with
  | zero => rfl
  | succ n inductionHypothesis => exact inductionHypothesis (step state).2

/-- The descrambler negates the LLRs of its block at the ones of the scrambling sequence. -/
theorem k5Descramble_apply (block : Nat) (llrInout : Nat → Int) (cInit : BitVec 32)
    (nofLlrs i : Nat) :
    k5Descramble block llrInout cInit nofLlrs i =
      if block * nofLlrs ≤ i ∧ i < block * nofLlrs + nofLlrs ∧
          goldBit cInit (i - block * nofLlrs) = true then
        toChar (-llrInout i)
      else llrInout i := by
  suffices loop : ∀ n,
      ((List.range n).foldl (k5Turn (block * nofLlrs)) (k5Warmup cInit, llrInout)).1 =
          simulateNSteps stepOnce n (oiGoldInit cInit) ∧
        ∀ i, ((List.range n).foldl (k5Turn (block * nofLlrs)) (k5Warmup cInit, llrInout)).2 i =
          if block * nofLlrs ≤ i ∧ i < block * nofLlrs + n ∧
              goldBit cInit (i - block * nofLlrs) = true then
            toChar (-llrInout i)
          else llrInout i from
    (loop nofLlrs).2 i
  intro n
  induction n with
  | zero =>
      refine ⟨rfl, fun i => ?_⟩
      rw [if_neg (by omega)]
      rfl
  | succ n inductionHypothesis =>
      obtain ⟨state, values⟩ := inductionHypothesis
      rw [List.range_succ, List.foldl_append, List.foldl_cons, List.foldl_nil]
      have flips : (oiK5Step (simulateNSteps stepOnce n (oiGoldInit cInit))).1 &&&
          0x80000000#32 ≠ 0#32 ↔ goldBit cInit n = true := by
        rw [signBit_iff, ← stepOutput_goldInit]
        rfl
      rw [k5Turn, state]
      refine ⟨(simulateNSteps_succ stepOnce n _).symm, fun i => ?_⟩
      dsimp only
      rw [ite_apply, Function.update_apply, values, values]
      simp only [flips]
      by_cases here : i = block * nofLlrs + n
      · subst here
        simp
      · have same : (block * nofLlrs ≤ i ∧ i < block * nofLlrs + (n + 1) ∧
            goldBit cInit (i - block * nofLlrs) = true) ↔
            (block * nofLlrs ≤ i ∧ i < block * nofLlrs + n ∧
              goldBit cInit (i - block * nofLlrs) = true) := by
          constructor
          · rintro ⟨lower, upper, bit⟩
            exact ⟨lower, by omega, bit⟩
          · rintro ⟨lower, upper, bit⟩
            exact ⟨lower, by omega, bit⟩
        rw [if_neg here, ite_self]
        simp only [same]

section Pilots

variable {F : Type} [Neg F]

theorem getElem?_dmrsPilots (kAmplitude : F) {nofPilots p : Nat} (inside : p < nofPilots)
    (state : OiGoldState) :
    (dmrsPilots kAmplitude nofPilots state)[p]? =
      some
        { re := if (stepOutput stepOnce state (2 * p)).getLsbD 31 then -kAmplitude
            else kAmplitude
          im := if (stepOutput stepOnce state (2 * p + 1)).getLsbD 31 then -kAmplitude
            else kAmplitude } := by
  induction nofPilots generalizing p state with
  | zero => omega
  | succ nofPilots inductionHypothesis =>
      cases p with
      | zero =>
          simp only [dmrsPilots, List.getElem?_cons_zero, signBit_iff]
          rfl
      | succ p =>
          simp only [dmrsPilots, List.getElem?_cons_succ]
          rw [inductionHypothesis (by omega)]
          rfl

theorem length_dmrsPilots (kAmplitude : F) (nofPilots : Nat) (state : OiGoldState) :
    (dmrsPilots kAmplitude nofPilots state).length = nofPilots := by
  induction nofPilots generalizing state with
  | zero => rfl
  | succ nofPilots inductionHypothesis => simp [dmrsPilots, inductionHypothesis]

/-- The three copies produce the sequence of TS 38.211 5.2.1.  For every `c_init` the top
bit of the word returned by the step with index `n` behind the warm-up is `c(n)`, in the
descrambler kernel, which negates exactly the LLRs at the ones of `c`, and after
`oi_gold_init`; and the pilot `p` of the DMRS generator takes its signs from `c(2p)` and
`c(2p + 1)`. -/
theorem gold_sequences_agree :
    (∀ (cInit : BitVec 32) (n : Nat),
        (stepOutput oiK5Step (k5Warmup cInit) n).getLsbD 31 = goldBit cInit n ∧
          (stepOutput stepOnce (oiGoldInit cInit) n).getLsbD 31 = goldBit cInit n) ∧
      (∀ (llrInout : Nat → Int) (cInit : BitVec 32) (nofLlrs n : Nat), n < nofLlrs →
        k5Descramble 0 llrInout cInit nofLlrs n =
          if goldBit cInit n then toChar (-llrInout n) else llrInout n) ∧
      ∀ (kAmplitude : F) (nslot symbol nId nScid nofPrb : BitVec 32),
        (oiDmrsRefSeqGenerate kAmplitude nslot symbol nId nScid nofPrb).length =
            (nofPrb * oiDmrsPilotsPerPrb).toNat ∧
          ∀ p < (nofPrb * oiDmrsPilotsPerPrb).toNat,
            (oiDmrsRefSeqGenerate kAmplitude nslot symbol nId nScid nofPrb)[p]? =
              some
                { re := if goldBit (dmrsCInit nslot symbol nId nScid) (2 * p) then -kAmplitude
                    else kAmplitude
                  im := if goldBit (dmrsCInit nslot symbol nId nScid) (2 * p + 1) then
                      -kAmplitude
                    else kAmplitude } := by
  refine ⟨fun cInit n => ⟨stepOutput_goldInit cInit n, stepOutput_goldInit cInit n⟩, ?_, ?_⟩
  · intro llrInout cInit nofLlrs n inside
    rw [k5Descramble_apply]
    simp [inside]
  · intro kAmplitude nslot symbol nId nScid nofPrb
    refine ⟨length_dmrsPilots kAmplitude _ _, fun p inside => ?_⟩
    rw [oiDmrsRefSeqGenerate, getElem?_dmrsPilots kAmplitude inside, stepOutput_goldInit,
      stepOutput_goldInit]

end Pilots

end RanInline.Phy
