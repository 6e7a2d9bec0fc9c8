/-
Module: RanInline.Oran.SlotCounter
Purpose: Whole runs of oi_oran_preparse_frame over any frames: rejected frames leave no
  trace, and the slot number of an accepted frame counts the descents of the symbol number.
Trusted boundary: none
Main exports: PreparseCall, preparseCalls, isAccepted, descents,
  slot_ids_count_descents
-/
import RanInline.Oran.SlotDemux

namespace RanInline.Oran

/-- The arguments of one call: the frame, and what `*out_desc` holds before. -/
structure PreparseCall where
  frame : List UInt8
  outDesc : OiFrameDesc
deriving DecidableEq, Repr

/-- `oi_oran_preparse_frame` called again and again on one stream state. -/
def preparseCalls (udcomphdrBytes : UInt8) :
    OiOranPreparseState → List PreparseCall → Option (List PreparseOutcome)
  | _, [] => some []
  | state, call :: calls => do
      let outcome ← oiOranPreparseFrame state call.frame call.frame.length udcomphdrBytes
        call.outDesc
      let outcomes ← preparseCalls udcomphdrBytes outcome.state calls
      return outcome :: outcomes

/-- The frame is accepted by the first call on a fresh stream. -/
def isAccepted (udcomphdrBytes : UInt8) (frame : List UInt8) : Bool :=
  (oiOranPreparseFrame .zero frame frame.length udcomphdrBytes .zero).any (·.status = .ok)

/-- The symbol number a fresh stream reads from the frame. -/
def symbolIdOf (udcomphdrBytes : UInt8) (frame : List UInt8) : UInt8 :=
  ((oiOranPreparseFrame .zero frame frame.length udcomphdrBytes .zero).map
    (·.outDesc.symbolId)).getD 0

/-- The number of strict descents between neighbours. -/
def descents : List UInt8 → Nat
  | first :: second :: rest => (if second < first then 1 else 0) + descents (second :: rest)
  | _ => 0

/-- The stream state before the call with index `k`. -/
def stateBefore (start : OiOranPreparseState) (outcomes : List PreparseOutcome) (k : Nat) :
    OiOranPreparseState :=
  ((outcomes.take k).getLast?.map (·.state)).getD start

/-- The outcomes of the accepted frames. -/
def acceptedOutcomes (outcomes : List PreparseOutcome) : List PreparseOutcome :=
  outcomes.filter (·.status = .ok)

/-- The symbol numbers of the accepted frames. -/
def acceptedSymbols (outcomes : List PreparseOutcome) : List UInt8 :=
  (acceptedOutcomes outcomes).map (·.outDesc.symbolId)

/-! ### One call -/

/-- A call rejects the frame and changes nothing, or accepts it and advances the counter by
the frame's symbol. -/
inductive CallEffect (udcomphdrBytes : UInt8) (state : OiOranPreparseState)
    (call : PreparseCall) (outcome : PreparseOutcome) : Prop where
  | rejected (status : outcome.status ≠ .ok)
      (rejects : isAccepted udcomphdrBytes call.frame = false)
      (sameState : outcome.state = state) (sameDesc : outcome.outDesc = call.outDesc)
  | accepted (status : outcome.status = .ok)
      (accepts : isAccepted udcomphdrBytes call.frame = true)
      (symbol : outcome.outDesc.symbolId = symbolIdOf udcomphdrBytes call.frame)
      (advanced : outcome.state = state.advance outcome.outDesc.symbolId)
      (slotId : outcome.outDesc.slotId = outcome.state.runningSlotId)

theorem preparseCall_effect (udcomphdrBytes : UInt8) (state : OiOranPreparseState)
    (call : PreparseCall) :
    ∃ outcome, oiOranPreparseFrame state call.frame call.frame.length udcomphdrBytes
        call.outDesc = some outcome ∧
      CallEffect udcomphdrBytes state call outcome := by
  rcases oiOranPreparseFrame_cases .zero .zero udcomphdrBytes call.frame with
    ⟨truncated, fresh⟩ | ⟨long, malformed, fresh⟩ | ⟨hdr, accepts, fresh⟩
  · have rejects : isAccepted udcomphdrBytes call.frame = false := by simp [isAccepted, fresh]
    exact ⟨_, oiOranPreparseFrame_of_truncated state call.outDesc udcomphdrBytes truncated,
      .rejected (by simp) rejects rfl rfl⟩
  · have rejects : isAccepted udcomphdrBytes call.frame = false := by simp [isAccepted, fresh]
    exact ⟨_, oiOranPreparseFrame_of_malformed state call.outDesc udcomphdrBytes long malformed,
      .rejected (by simp) rejects rfl rfl⟩
  · refine ⟨_, oiOranPreparseFrame_of_accepts state call.outDesc udcomphdrBytes accepts,
      .accepted rfl ?_ ?_ rfl rfl⟩
    · simp [isAccepted, fresh]
    · simp [symbolIdOf, fresh, headerDesc, fillDesc]

/-! ### The counter -/

/-- The symbol the counter compares the next one with. -/
def OiOranPreparseState.lastSymbols (state : OiOranPreparseState) : List UInt8 :=
  if state.hasLastSymbol then [state.lastSymbolId] else []

theorem advance_descents (state : OiOranPreparseState) (symbolId : UInt8)
    (symbols : List UInt8) :
    (state.advance symbolId).runningSlotId +
        UInt32.ofNat (descents ((state.advance symbolId).lastSymbols ++ symbols)) =
      state.runningSlotId +
        UInt32.ofNat (descents (state.lastSymbols ++ symbolId :: symbols)) := by
  have last : (state.advance symbolId).lastSymbols = [symbolId] := rfl
  rw [last, OiOranPreparseState.advance, OiOranPreparseState.lastSymbols]
  cases state.hasLastSymbol with
  | false => simp
  | true =>
      by_cases descends : symbolId < state.lastSymbolId
      · simp [descents, descends, UInt32.ofNat_add, UInt32.add_assoc]
      · simp [descents, descends]

/-- The slot numbers given along a list of symbols count the descents so far. -/
theorem slotIds_eq_descents (state : OiOranPreparseState) (symbols : List UInt8) {k : Nat}
    (inside : k < symbols.length) :
    (slotIds state symbols)[k]? = some (state.runningSlotId +
      UInt32.ofNat (descents (state.lastSymbols ++ symbols.take (k + 1)))) := by
  induction symbols generalizing state k with
  | nil => simp at inside
  | cons symbolId symbols inductionHypothesis =>
      cases k with
      | zero =>
          rw [List.take_succ_cons, List.take_zero, ← advance_descents]
          simp [slotIds, OiOranPreparseState.lastSymbols, OiOranPreparseState.advance, descents]
      | succ k =>
          rw [List.take_succ_cons, ← advance_descents]
          exact inductionHypothesis (state.advance symbolId) (Nat.lt_of_succ_lt_succ inside)

/-! ### Whole runs -/

section Runs

variable {udcomphdrBytes : UInt8} {state : OiOranPreparseState} {calls : List PreparseCall}
  {outcomes : List PreparseOutcome}

/-- Every run is handled, call by call. -/
theorem preparseCalls_cons {call : PreparseCall}
    (run : preparseCalls udcomphdrBytes state (call :: calls) = some outcomes) :
    ∃ outcome rest, outcomes = outcome :: rest ∧
      CallEffect udcomphdrBytes state call outcome ∧
      preparseCalls udcomphdrBytes outcome.state calls = some rest := by
  obtain ⟨outcome, handled, effect⟩ := preparseCall_effect udcomphdrBytes state call
  simp only [preparseCalls, handled, Option.bind_eq_bind, Option.bind_some,
    Option.bind_eq_some_iff] at run
  obtain ⟨rest, runRest, found⟩ := run
  cases found
  exact ⟨outcome, rest, rfl, effect, runRest⟩

theorem preparseCalls_total (udcomphdrBytes : UInt8) (state : OiOranPreparseState)
    (calls : List PreparseCall) :
    ∃ outcomes, preparseCalls udcomphdrBytes state calls = some outcomes := by
  induction calls generalizing state with
  | nil => exact ⟨[], rfl⟩
  | cons call calls inductionHypothesis =>
      obtain ⟨outcome, handled, _⟩ := preparseCall_effect udcomphdrBytes state call
      obtain ⟨rest, run⟩ := inductionHypothesis outcome.state
      exact ⟨outcome :: rest, by simp [preparseCalls, handled, run]⟩

/-- Each call of a run has the effect of one call on the state the call before it left. -/
theorem preparseCalls_effect (run : preparseCalls udcomphdrBytes state calls = some outcomes) :
    outcomes.length = calls.length ∧
      ∀ (k : Nat) (call : PreparseCall) (outcome : PreparseOutcome), calls[k]? = some call →
        outcomes[k]? = some outcome →
        CallEffect udcomphdrBytes (stateBefore state outcomes k) call outcome := by
  induction calls generalizing state outcomes with
  | nil =>
      cases run
      exact ⟨rfl, by simp⟩
  | cons call calls inductionHypothesis =>
      obtain ⟨outcome, rest, rfl, effect, runRest⟩ := preparseCalls_cons run
      obtain ⟨length, effects⟩ := inductionHypothesis runRest
      refine ⟨by simp [length], fun k other found here there => ?_⟩
      cases k with
      | zero =>
          cases here
          cases there
          exact effect
      | succ k =>
          have before : stateBefore state (outcome :: rest) (k + 1) =
              stateBefore outcome.state rest k := by
            cases rest <;> cases k <;> simp [stateBefore, List.getLast?_cons]
          rw [before]
          exact effects k other found here there

/-- The accepted frames of a run get the slot numbers of their symbols. -/
theorem preparseCalls_slotIds
    (run : preparseCalls udcomphdrBytes state calls = some outcomes) :
    (acceptedOutcomes outcomes).map (·.outDesc.slotId) =
        slotIds state (acceptedSymbols outcomes) ∧
      acceptedSymbols outcomes =
        ((calls.map (·.frame)).filter (isAccepted udcomphdrBytes)).map
          (symbolIdOf udcomphdrBytes) := by
  induction calls generalizing state outcomes with
  | nil =>
      cases run
      exact ⟨rfl, rfl⟩
  | cons call calls inductionHypothesis =>
      obtain ⟨outcome, rest, rfl, effect, runRest⟩ := preparseCalls_cons run
      obtain ⟨ids, symbols⟩ := inductionHypothesis runRest
      cases effect with
      | rejected status rejects sameState sameDesc =>
          rw [sameState] at ids
          simp only [acceptedSymbols, acceptedOutcomes] at ids symbols ⊢
          simp [status, rejects, ids, symbols]
      | accepted status accepts symbol advanced slotId =>
          rw [advanced] at ids slotId
          simp only [acceptedSymbols, acceptedOutcomes] at ids symbols ⊢
          simp [status, accepts, ids, symbols, symbol, slotIds, slotId]

/-- The position of an accepted frame among the accepted frames. -/
theorem acceptedOutcomes_getElem {k : Nat} {outcome : PreparseOutcome}
    (found : outcomes[k]? = some outcome) (status : outcome.status = .ok) :
    (acceptedOutcomes outcomes)[(acceptedOutcomes (outcomes.take k)).length]? = some outcome ∧
      acceptedSymbols (outcomes.take (k + 1)) =
        (acceptedSymbols outcomes).take ((acceptedOutcomes (outcomes.take k)).length + 1) := by
  have split : outcomes = outcomes.take k ++ outcome :: outcomes.drop (k + 1) := by
    obtain ⟨inside, value⟩ := List.getElem?_eq_some_iff.mp found
    rw [← value, ← List.drop_eq_getElem_cons inside, List.take_append_drop]
  have whole : acceptedOutcomes outcomes =
      acceptedOutcomes (outcomes.take k) ++
        outcome :: acceptedOutcomes (outcomes.drop (k + 1)) := by
    conv => lhs; rw [split]
    simp [acceptedOutcomes, status]
  have first : acceptedOutcomes (outcomes.take (k + 1)) =
      acceptedOutcomes (outcomes.take k) ++ [outcome] := by
    rw [List.take_add_one, found]
    simp [acceptedOutcomes, status]
  refine ⟨by rw [whole]; simp, ?_⟩
  rw [acceptedSymbols, acceptedSymbols, first, whole]
  simp [List.take_append, List.take_of_length_le]

/-- A run of `oi_oran_preparse_frame` over any frames, from the zero state.  A frame that is
not accepted leaves the stream state and `*out_desc` as they were; an accepted frame gets as
slot number the number of descents of the symbol number among the accepted frames up to it,
modulo `2 ^ 32`; and two runs over the same accepted frames, with any rejected frames in
between, give these the same slot numbers. -/
theorem slot_ids_count_descents (udcomphdrBytes : UInt8) (calls : List PreparseCall) :
    ∃ outcomes, preparseCalls udcomphdrBytes .zero calls = some outcomes ∧
      outcomes.length = calls.length ∧
      (∀ (k : Nat) (call : PreparseCall) (outcome : PreparseOutcome), calls[k]? = some call →
        outcomes[k]? = some outcome →
        (outcome.status = .ok ↔ isAccepted udcomphdrBytes call.frame = true) ∧
          (outcome.status ≠ .ok → outcome.state = stateBefore .zero outcomes k ∧
            outcome.outDesc = call.outDesc) ∧
          (outcome.status = .ok → outcome.outDesc.slotId =
            UInt32.ofNat (descents (acceptedSymbols (outcomes.take (k + 1)))))) ∧
      ∀ (others : List PreparseCall) (otherOutcomes : List PreparseOutcome),
        preparseCalls udcomphdrBytes .zero others = some otherOutcomes →
        (others.map (·.frame)).filter (isAccepted udcomphdrBytes) =
          (calls.map (·.frame)).filter (isAccepted udcomphdrBytes) →
        (acceptedOutcomes otherOutcomes).map (·.outDesc.slotId) =
          (acceptedOutcomes outcomes).map (·.outDesc.slotId) := by
  obtain ⟨outcomes, run⟩ := preparseCalls_total udcomphdrBytes .zero calls
  obtain ⟨length, effects⟩ := preparseCalls_effect run
  obtain ⟨ids, symbols⟩ := preparseCalls_slotIds run
  refine ⟨outcomes, run, length, fun k call outcome here there => ⟨?_, ?_, ?_⟩, ?_⟩
  · cases effects k call outcome here there with
    | rejected status rejects _ _ => simp [status, rejects]
    | accepted status accepts _ _ _ => simp [status, accepts]
  · intro failed
    cases effects k call outcome here there with
    | rejected _ _ sameState sameDesc => exact ⟨sameState, sameDesc⟩
    | accepted status _ _ _ _ => exact absurd status failed
  · intro status
    obtain ⟨position, prefixSymbols⟩ := acceptedOutcomes_getElem there status
    have inside : (acceptedOutcomes (outcomes.take k)).length <
        (acceptedSymbols outcomes).length := by
      rw [acceptedSymbols, List.length_map]
      exact (List.getElem?_eq_some_iff.mp position).1
    have counted := slotIds_eq_descents .zero (acceptedSymbols outcomes) inside
    rw [← ids, List.getElem?_map, position, ← prefixSymbols] at counted
    simpa [OiOranPreparseState.lastSymbols, OiOranPreparseState.zero] using counted
  · intro others otherOutcomes otherRun same
    obtain ⟨otherIds, otherSymbols⟩ := preparseCalls_slotIds otherRun
    rw [otherIds, ids, otherSymbols, symbols, same]

end Runs

end RanInline.Oran
