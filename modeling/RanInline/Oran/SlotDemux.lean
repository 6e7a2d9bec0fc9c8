/-
Module: RanInline.Oran.SlotDemux
Purpose: The slot numbers oi_oran_preparse_frame gives to a stream of frames, against the
  wire slots the frames belong to, under losses and reordering.
Trusted boundary: none
Main exports: preparseRun, WireFrame, Survives, Demultiplexed, WrapsVisible,
  demultiplexed_iff_wrapsVisible
-/
import RanInline.Oran.Grammar

namespace RanInline.Oran

/-- `oi_oran_preparse_frame` called on one frame after the other, on one stream state: the
descriptors of the accepted frames. -/
def preparseRun (udcomphdrBytes : UInt8) :
    OiOranPreparseState → List (List UInt8) → Option (List OiFrameDesc)
  | _, [] => some []
  | state, frame :: frames => do
      let outcome ← oiOranPreparseFrame state frame frame.length udcomphdrBytes .zero
      let descs ← preparseRun udcomphdrBytes outcome.state frames
      return if outcome.status = .ok then outcome.outDesc :: descs else descs

/-- The slot counter along a list of symbol numbers. -/
def slotIds : OiOranPreparseState → List UInt8 → List UInt32
  | _, [] => []
  | state, symbolId :: symbols =>
      (state.advance symbolId).runningSlotId :: slotIds (state.advance symbolId) symbols

/-- A surviving frame: an accepted one that carries `symbol` of wire slot `slot`. -/
structure WireFrame (udcomphdrBytes : UInt8) where
  slot : Nat
  symbol : Nat
  bytes : List UInt8
  accepted : ∃ hdr, Accepts bytes udcomphdrBytes.toNat hdr ∧
    byteVal bytes (hdr + 11) % 64 = symbol

variable {udcomphdrBytes : UInt8} {frames : List (WireFrame udcomphdrBytes)}

theorem WireFrame.symbol_le (frame : WireFrame udcomphdrBytes) : frame.symbol ≤ 13 := by
  obtain ⟨hdr, accepts, carried⟩ := frame.accepted
  exact carried ▸ accepts.symbol

/-- The slot numbers of a run over accepted frames depend on the symbols alone. -/
theorem preparseRun_slotIds (frames : List (WireFrame udcomphdrBytes))
    (state : OiOranPreparseState) :
    ∃ descs, preparseRun udcomphdrBytes state (frames.map (·.bytes)) = some descs ∧
      descs.map (·.slotId) = slotIds state (frames.map fun frame => UInt8.ofNat frame.symbol) := by
  induction frames generalizing state with
  | nil => exact ⟨[], rfl, rfl⟩
  | cons frame frames inductionHypothesis =>
      obtain ⟨hdr, accepts, carried⟩ := frame.accepted
      obtain ⟨descs, run, ids⟩ :=
        inductionHypothesis (state.advance (UInt8.ofNat frame.symbol))
      have call := oiOranPreparseFrame_of_accepts state .zero udcomphdrBytes accepts
      rw [carried] at call
      refine ⟨headerDesc state .zero udcomphdrBytes frame.bytes hdr :: descs, ?_, ?_⟩
      · simp [preparseRun, call, run]
      · simp only [List.map_cons, slotIds, ids]
        simp [headerDesc, fillDesc, carried]

/-- One step of the slot counter. -/
theorem slotIds_succ {symbols : List UInt8} {state : OiOranPreparseState} {k : Nat}
    {symbolId next : UInt8} {slotId : UInt32} (here : symbols[k]? = some symbolId)
    (after : symbols[k + 1]? = some next) (counted : (slotIds state symbols)[k]? = some slotId) :
    (slotIds state symbols)[k + 1]? =
      some (if next < symbolId then slotId + 1 else slotId) := by
  induction symbols generalizing state k with
  | nil => simp at here
  | cons first symbols inductionHypothesis =>
      cases k with
      | zero =>
          cases symbols with
          | nil => simp at after
          | cons second symbols =>
              simp only [slotIds, List.getElem?_cons_zero, List.getElem?_cons_succ,
                Option.some.injEq] at here after counted ⊢
              subst here after counted
              simp [OiOranPreparseState.advance]
      | succ k =>
          simp only [slotIds, List.getElem?_cons_succ] at here after counted ⊢
          exact inductionHypothesis here after counted

theorem length_slotIds (state : OiOranPreparseState) (symbols : List UInt8) :
    (slotIds state symbols).length = symbols.length := by
  induction symbols generalizing state with
  | nil => rfl
  | cons symbolId symbols inductionHypothesis =>
      simp [slotIds, inductionHypothesis]

/-! ### Streams with losses and reordering -/

/-- The surviving frames of the wire slots `0, 1, 2, …`: no slot lost all its frames, and
no frame moved into another slot. -/
structure Survives (frames : List (WireFrame udcomphdrBytes)) : Prop where
  start : ∀ frame, frames[0]? = some frame → frame.slot = 0
  next : ∀ (k : Nat) (frame after : WireFrame udcomphdrBytes), frames[k]? = some frame →
    frames[k + 1]? = some after → after.slot = frame.slot ∨ after.slot = frame.slot + 1

/-- No wire slot up to that of a surviving frame is missing. -/
theorem Survives.exists_slot (survives : Survives frames) {k : Nat}
    {frame : WireFrame udcomphdrBytes} (here : frames[k]? = some frame) {slot : Nat}
    (within : slot ≤ frame.slot) : ∃ other ∈ frames, other.slot = slot := by
  induction k generalizing frame with
  | zero =>
      have start := survives.start frame here
      exact ⟨frame, List.mem_of_getElem? here, by omega⟩
  | succ k inductionHypothesis =>
      have less : k < frames.length :=
        Nat.lt_of_succ_lt (List.getElem?_eq_some_iff.mp here).1
      have previous : frames[k]? = some frames[k] := List.getElem?_eq_getElem less
      rcases survives.next k _ frame previous here with same | advanced
      · exact inductionHypothesis previous (same ▸ within)
      · rcases within.lt_or_eq with earlier | last
        · exact inductionHypothesis previous (by omega)
        · exact ⟨frame, List.mem_of_getElem? here, last.symm⟩

/-- The slot numbers separate the wire slots and count them up. -/
def Demultiplexed (frames : List (WireFrame udcomphdrBytes)) : Prop :=
  ∃ descs, preparseRun udcomphdrBytes .zero (frames.map (·.bytes)) = some descs ∧
    descs.length = frames.length ∧
    ∀ (i j : Nat) (first second : WireFrame udcomphdrBytes) (descI descJ : OiFrameDesc),
      frames[i]? = some first → frames[j]? = some second →
      descs[i]? = some descI → descs[j]? = some descJ →
      (descI.slotId = descJ.slotId ↔ first.slot = second.slot) ∧
        (second.slot = first.slot + 1 → descJ.slotId.toNat = descI.slotId.toNat + 1)

/-- Every slot boundary shows as a descending symbol number, and nothing else does. -/
def WrapsVisible (frames : List (WireFrame udcomphdrBytes)) : Prop :=
  ∀ (k : Nat) (frame after : WireFrame udcomphdrBytes), frames[k]? = some frame →
    frames[k + 1]? = some after →
    (after.slot = frame.slot → frame.symbol ≤ after.symbol) ∧
      (after.slot = frame.slot + 1 → after.symbol < frame.symbol)

/-- One step of the slot counter, between two frames of a stream. -/
theorem slotIds_frame_succ {k : Nat} {frame after : WireFrame udcomphdrBytes} {slotId : UInt32}
    (here : frames[k]? = some frame) (next : frames[k + 1]? = some after)
    (counted : (slotIds .zero (frames.map fun frame => UInt8.ofNat frame.symbol))[k]? =
      some slotId) :
    (slotIds .zero (frames.map fun frame => UInt8.ofNat frame.symbol))[k + 1]? =
      some (if after.symbol < frame.symbol then slotId + 1 else slotId) := by
  have symbol := frame.symbol_le
  have nextSymbol := after.symbol_le
  have order : UInt8.ofNat after.symbol < UInt8.ofNat frame.symbol ↔
      after.symbol < frame.symbol := by
    rw [UInt8.lt_iff_toNat_lt, UInt8.toNat_ofNat', UInt8.toNat_ofNat']
    omega
  rw [slotIds_succ (by rw [List.getElem?_map, here]; rfl) (by rw [List.getElem?_map, next]; rfl)
    counted]
  simp only [order]

/-- When the wraps are visible, the counter counts wire slots. -/
theorem slotIds_eq_slot (survives : Survives frames) (visible : WrapsVisible frames) {k : Nat}
    {frame : WireFrame udcomphdrBytes} (here : frames[k]? = some frame) :
    (slotIds .zero (frames.map fun frame => UInt8.ofNat frame.symbol))[k]? =
      some (UInt32.ofNat frame.slot) := by
  induction k generalizing frame with
  | zero =>
      have start := survives.start frame here
      cases frames with
      | nil => simp at here
      | cons first rest => simp [slotIds, OiOranPreparseState.advance, OiOranPreparseState.zero,
          start]
  | succ k inductionHypothesis =>
      have less : k < frames.length :=
        Nat.lt_of_succ_lt (List.getElem?_eq_some_iff.mp here).1
      have previous : frames[k]? = some frames[k] := List.getElem?_eq_getElem less
      obtain ⟨stays, wraps⟩ := visible k _ frame previous here
      rw [slotIds_frame_succ previous here (inductionHypothesis previous)]
      rcases survives.next k _ frame previous here with same | advanced
      · rw [if_neg (Nat.not_lt.mpr (stays same)), same]
      · rw [if_pos (wraps advanced), advanced, UInt32.ofNat_add]
        rfl

private theorem slotId_ne_succ (slotId : UInt32) : slotId ≠ slotId + 1 := by
  intro same
  have less := slotId.toNat_lt
  have := congrArg UInt32.toNat same
  rw [UInt32.toNat_add, UInt32.toNat_one] at this
  omega

/-- The descriptors of a stream, with the counter of each. -/
theorem preparseRun_counted (frames : List (WireFrame udcomphdrBytes)) :
    ∃ descs, preparseRun udcomphdrBytes .zero (frames.map (·.bytes)) = some descs ∧
      descs.length = frames.length ∧
      ∀ (k : Nat) (desc : OiFrameDesc), descs[k]? = some desc →
        (slotIds .zero (frames.map fun frame => UInt8.ofNat frame.symbol))[k]? =
          some desc.slotId := by
  obtain ⟨descs, run, ids⟩ := preparseRun_slotIds frames .zero
  refine ⟨descs, run, ?_, fun k desc found => ?_⟩
  · rw [← List.length_map (·.slotId), ids, length_slotIds, List.length_map]
  · rw [← ids, List.getElem?_map, found]
    rfl

theorem WrapsVisible.demultiplexed (survives : Survives frames)
    (fits : ∀ frame ∈ frames, frame.slot < 2 ^ 32) (visible : WrapsVisible frames) :
    Demultiplexed frames := by
  obtain ⟨descs, run, length, counted⟩ := preparseRun_counted frames
  refine ⟨descs, run, length, fun i j first second descI descJ hereI hereJ foundI foundJ => ?_⟩
  have slotI := (counted i descI foundI).symm.trans (slotIds_eq_slot survives visible hereI)
  have slotJ := (counted j descJ foundJ).symm.trans (slotIds_eq_slot survives visible hereJ)
  rw [Option.some.injEq] at slotI slotJ
  have fitsI := fits first (List.mem_of_getElem? hereI)
  have fitsJ := fits second (List.mem_of_getElem? hereJ)
  rw [slotI, slotJ, ← UInt32.toNat_inj, UInt32.toNat_ofNat', UInt32.toNat_ofNat',
    Nat.mod_eq_of_lt fitsI, Nat.mod_eq_of_lt fitsJ]
  exact ⟨Iff.rfl, id⟩

theorem Demultiplexed.wrapsVisible (separated : Demultiplexed frames) :
    WrapsVisible frames := by
  obtain ⟨descs, run, length, counted⟩ := preparseRun_counted frames
  obtain ⟨others, otherRun, _, separated⟩ := separated
  obtain rfl : descs = others := Option.some.inj (run.symm.trans otherRun)
  intro k frame after here next
  have less : k + 1 < descs.length := by
    rw [length]
    exact (List.getElem?_eq_some_iff.mp next).1
  have found := List.getElem?_eq_getElem (Nat.lt_of_succ_lt less)
  have foundNext := List.getElem?_eq_getElem less
  obtain ⟨same, successor⟩ := separated k (k + 1) frame after _ _ here next found foundNext
  have step := slotIds_frame_succ here next (counted k _ found)
  rw [counted _ _ foundNext, Option.some.injEq] at step
  rw [step] at same successor
  constructor
  · intro sameSlot
    by_contra descends
    rw [if_pos (Nat.lt_of_not_le descends)] at same
    exact slotId_ne_succ _ (same.mpr sameSlot.symm)
  · intro nextSlot
    by_contra ascends
    have counts := successor nextSlot
    rw [if_neg ascends] at counts
    omega

/-- The slot numbers separate the wire slots exactly when the symbols of every slot arrive
in order and every slot boundary is a descent in the symbol number. -/
theorem demultiplexed_iff_wrapsVisible (survives : Survives frames)
    (fits : ∀ frame ∈ frames, frame.slot < 2 ^ 32) :
    Demultiplexed frames ↔ WrapsVisible frames :=
  ⟨Demultiplexed.wrapsVisible, WrapsVisible.demultiplexed survives fits⟩

/-- An untagged full-band frame of one symbol. -/
private def symbolFrame (symbol : Fin 14) : List UInt8 :=
  List.replicate 12 0 ++ [0xAE, 0xFE, 0x10, 0x00, 0, 0, 0, 0, 0, 0, 0x10, 0, 0,
    UInt8.ofNat symbol, 0, 0, 0, 0]

private theorem symbolFrame_accepts (symbol : Fin 14) :
    Accepts (symbolFrame symbol) 0 14 ∧ byteVal (symbolFrame symbol) (14 + 11) % 64 = symbol := by
  have carried : ∀ symbol : Fin 14, byteVal (symbolFrame symbol) (14 + 11) % 64 = symbol := by
    decide
  refine ⟨⟨.inl ⟨rfl, rfl, rfl⟩, Nat.le_refl 30, ?_, ?_, ?_, ?_, ?_⟩, carried symbol⟩
  case refine_5 =>
    have := carried symbol
    omega
  all_goals simp [symbolFrame, byteVal]

/-- One frame on the wire. -/
private def onWire (slot : Nat) (symbol : Fin 14) : WireFrame 0 where
  slot := slot
  symbol := symbol
  bytes := symbolFrame symbol
  accepted := ⟨14, symbolFrame_accepts symbol⟩

/-- The slots `0, 1, …, n - 1`, each with its symbols in order. -/
private def wireStream (n : Nat) : List (WireFrame 0) :=
  (List.range n).flatMap fun slot => (List.finRange 14).map (onWire slot)

/-- Symbols 0 and 13 of slot 0 followed by symbol 5 of slot 1. -/
theorem demultiplexed_with_losses :
    Demultiplexed [onWire 0 0, onWire 0 13, onWire 1 5] := by
  refine (demultiplexed_iff_wrapsVisible ⟨?_, ?_⟩ ?_).mpr ?_
  · rintro frame ⟨⟩
    rfl
  · rintro (_ | _ | _ | k) frame after ⟨⟩ ⟨⟩
    · exact .inl rfl
    · exact .inr rfl
  · simp [onWire]
  · rintro (_ | _ | _ | k) frame after ⟨⟩ ⟨⟩
    · exact ⟨by decide, by decide⟩
    · exact ⟨by decide, by decide⟩

/-- Losses merge wire slots: symbol 3 of slot 0 and symbol 5 of slot 1 get one slot number.
Reordering splits them: symbol 0 of a slot behind symbol 1 starts a new number. -/
theorem losses_and_reordering_break_demultiplexing :
    (¬ ∀ (n : Nat) (survivors : List (WireFrame 0)), survivors.Sublist (wireStream n) →
        (∀ slot < n, ∃ frame ∈ survivors, frame.slot = slot) → Demultiplexed survivors) ∧
      ¬ ∀ arrivals : List (WireFrame 0), arrivals.Perm (wireStream 1) →
        Demultiplexed arrivals := by
  constructor
  · intro claim
    have separated := claim 2 [onWire 0 3, onWire 1 5] ?_ ?_
    · have wraps := (separated.wrapsVisible 0 _ _ rfl rfl).2 rfl
      exact absurd wraps (by decide)
    · have first : [onWire 0 3].Sublist ((List.finRange 14).map (onWire 0)) :=
        List.singleton_sublist.mpr (List.mem_map_of_mem (List.mem_finRange 3))
      have second : [onWire 1 5].Sublist ((List.finRange 14).map (onWire 1)) :=
        List.singleton_sublist.mpr (List.mem_map_of_mem (List.mem_finRange 5))
      exact first.append second
    · intro slot small
      match slot, small with
      | 0, _ => exact ⟨_, List.mem_cons_self, rfl⟩
      | 1, _ => exact ⟨_, List.mem_cons_of_mem _ List.mem_cons_self, rfl⟩
  · intro claim
    have separated := claim
      (onWire 0 1 :: onWire 0 0 :: ((List.finRange 14).drop 2).map (onWire 0)) (.swap _ _ _)
    have stays := (separated.wrapsVisible 0 _ _ rfl rfl).1 rfl
    exact absurd stays (by decide)

end RanInline.Oran
