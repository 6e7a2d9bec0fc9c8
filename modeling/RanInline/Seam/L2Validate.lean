/-
Module: RanInline.Seam.L2Validate
Purpose: The validation core of the L2 stub in oi_l2_validate.c: a table of 64 keys that is
  searched and filled in one pass and wiped when the epoch changes, and what its counters say
  about a whole sequence of slots.
Trusted boundary: none
Main exports: OiL2Validator, findOrAllocKey, oiL2ValidatorProcess, epochRuns, orderViolated,
  TableHolds, validator_counts
-/
import Mathlib.Data.List.Forall2
import Mathlib.Data.List.SplitBy
import Mathlib.Data.Prod.Lex
import RanInline.Lib.KeyedOrder
import RanInline.Seam.Bridge

namespace RanInline.Seam

open RanInline.Lib

/-- A slot as the consumer reads it. -/
abbrev SeamSlot : Type := OiSeamSlot SeamPayload

/-- `OI_L2_MAX_TRACKED_KEYS`. -/
def oiL2MaxTrackedKeys : Nat := 64

/-- `oi_l2_key_state_t`. -/
structure OiL2KeyState where
  rnti : UInt16
  harqId : UInt8
  inUse : Bool
  lastSfn : UInt32
  lastSlot : UInt32
  hasLast : Bool
deriving DecidableEq, Repr

/-- A zeroed entry. -/
def OiL2KeyState.zero : OiL2KeyState where
  rnti := 0
  harqId := 0
  inUse := false
  lastSfn := 0
  lastSlot := 0
  hasLast := false

/-- `oi_l2_validator_t`, with the 64-bit counts as natural numbers. -/
structure OiL2Validator where
  keys : List OiL2KeyState
  lastEpoch : Nat
  haveEpoch : Bool
  nofProcessed : Nat
  nofCrcOk : Nat
  nofCrcFail : Nat
  nofOrderViolations : Nat
  nofEpochResets : Nat
deriving DecidableEq, Repr

/-- `oi_l2_validator_init`. -/
def oiL2ValidatorInit : OiL2Validator where
  keys := List.replicate oiL2MaxTrackedKeys .zero
  lastEpoch := 0
  haveEpoch := false
  nofProcessed := 0
  nofCrcOk := 0
  nofCrcFail := 0
  nofOrderViolations := 0
  nofEpochResets := 0

/-- What the loop of `find_or_alloc_key` ends with. -/
inductive KeyScan where
  | found (i : Nat)
  | free (freeIdx : Option Nat)
deriving DecidableEq, Repr

/-- The loop of `find_or_alloc_key` from entry `i` on. -/
def scanKeys (rnti : UInt16) (harqId : UInt8) : List OiL2KeyState → Nat → Option Nat → KeyScan
  | [], _, freeIdx => .free freeIdx
  | key :: keys, i, freeIdx =>
      if key.inUse = true ∧ key.rnti = rnti ∧ key.harqId = harqId then .found i
      else
        scanKeys rnti harqId keys (i + 1)
          (if key.inUse = false ∧ freeIdx = none then some i else freeIdx)

/-- `find_or_alloc_key`: the index of the entry, and the table. -/
def findOrAllocKey (keys : List OiL2KeyState) (rnti : UInt16) (harqId : UInt8) :
    Option (Nat × List OiL2KeyState) :=
  match scanKeys rnti harqId keys 0 none with
  | .found i => some (i, keys)
  | .free none => none
  | .free (some freeIdx) =>
      some (freeIdx, keys.modify freeIdx fun key =>
        { key with inUse := true, rnti := rnti, harqId := harqId, hasLast := false })

/-- The epoch check: a change wipes the table. -/
def checkEpoch (v : OiL2Validator) (slot : SeamSlot) : OiL2Validator :=
  if v.haveEpoch = false ∨ slot.epoch ≠ v.lastEpoch then
    { v with
      keys := List.replicate oiL2MaxTrackedKeys .zero
      lastEpoch := slot.epoch
      haveEpoch := true
      nofEpochResets := v.nofEpochResets + 1 }
  else v

/-- The slot is not behind the last one of its key. -/
def OiL2KeyState.regressed (key : OiL2KeyState) (slot : SeamSlot) : Bool :=
  slot.payload.sfn < key.lastSfn ∨
    (slot.payload.sfn = key.lastSfn ∧ slot.payload.slot.toUInt32 ≤ key.lastSlot)

/-- The order check of one slot, with the entry of its key. -/
def checkOrder (v : OiL2Validator) (slot : SeamSlot) : OiL2Validator :=
  match findOrAllocKey v.keys slot.payload.rnti slot.payload.harqId with
  | none => v
  | some (i, keys) =>
      let key := keys.getD i .zero
      { v with
        nofOrderViolations := v.nofOrderViolations +
          if key.hasLast = true ∧ key.regressed slot = true then 1 else 0
        keys := keys.modify i fun key =>
          { key with
            lastSfn := slot.payload.sfn
            lastSlot := slot.payload.slot.toUInt32
            hasLast := true } }

/-- The count of the checksum verdict. -/
def countVerdict (v : OiL2Validator) (slot : SeamSlot) : OiL2Validator :=
  if slot.payload.crcOk ≠ 0 then
    { v with nofCrcOk := v.nofCrcOk + 1, nofProcessed := v.nofProcessed + 1 }
  else { v with nofCrcFail := v.nofCrcFail + 1, nofProcessed := v.nofProcessed + 1 }

/-- `oi_l2_validator_process`. -/
def oiL2ValidatorProcess (v : OiL2Validator) (slot : SeamSlot) : OiL2Validator :=
  countVerdict (checkOrder (checkEpoch v slot) slot) slot

/-- A fresh validator after a sequence of slots. -/
def validate (slots : List SeamSlot) : OiL2Validator :=
  slots.foldl oiL2ValidatorProcess oiL2ValidatorInit

/-! ### What the counters are to say -/

/-- The key of a slot. -/
def SeamSlot.key (slot : SeamSlot) : UInt16 × UInt8 := (slot.payload.rnti, slot.payload.harqId)

/-- The position of a slot, the frame number first. -/
def SeamSlot.position (slot : SeamSlot) : Nat ×ₗ Nat :=
  toLex (slot.payload.sfn.toNat, slot.payload.slot.toNat)

/-- A slot does not stand behind the previous one of its key. -/
def orderViolated (previous slot : SeamSlot) : Bool := slot.position ≤ previous.position

/-- The maximal runs of equal epochs. -/
def epochRuns (slots : List SeamSlot) : List (List SeamSlot) :=
  slots.splitBy fun one two => one.epoch == two.epoch

/-- The slots of a run that violate the order of their key. -/
def orderViolations (run : List SeamSlot) : Nat := regressions SeamSlot.key orderViolated run

/-- At most as many different keys as the table has entries. -/
def FewKeys (run : List SeamSlot) : Prop :=
  (run.map SeamSlot.key).toFinset.card ≤ oiL2MaxTrackedKeys

instance (run : List SeamSlot) : Decidable (FewKeys run) := inferInstanceAs (Decidable (_ ≤ _))

/-! ### The table -/

/-- The entry of a key: the last slot of the run that has it. -/
def keyState (run : List SeamSlot) (key : UInt16 × UInt8) : OiL2KeyState :=
  match (run.filter fun slot => slot.key = key).getLast? with
  | none => .zero
  | some slot =>
      { rnti := key.1
        harqId := key.2
        inUse := true
        lastSfn := slot.payload.sfn
        lastSlot := slot.payload.slot.toUInt32
        hasLast := true }

/-- The table holds the last slot of every key of the run, in the order in which the keys came,
and is zero behind them. -/
def TableHolds (keys : List OiL2KeyState) (run : List SeamSlot) : Prop :=
  ∃ used : List (UInt16 × UInt8), used.Nodup ∧ (∀ key, key ∈ used ↔ key ∈ run.map SeamSlot.key) ∧
    used.length ≤ oiL2MaxTrackedKeys ∧
    keys = used.map (keyState run) ++ List.replicate (oiL2MaxTrackedKeys - used.length) .zero

section Table

variable {run : List SeamSlot} {key : UInt16 × UInt8}

theorem exists_last_of_mem (member : key ∈ run.map SeamSlot.key) :
    ∃ slot, (run.filter fun slot => slot.key = key).getLast? = some slot := by
  obtain ⟨slot, slotMember, rfl⟩ := List.mem_map.mp member
  have nonempty : (run.filter fun other => other.key = slot.key) ≠ [] :=
    List.ne_nil_of_mem (List.mem_filter.mpr ⟨slotMember, by simp⟩)
  exact ⟨_, List.getLast?_eq_getLast_of_ne_nil nonempty⟩

theorem keyState_of_mem (member : key ∈ run.map SeamSlot.key) :
    (keyState run key).inUse = true ∧ (keyState run key).rnti = key.1 ∧
      (keyState run key).harqId = key.2 := by
  obtain ⟨slot, last⟩ := exists_last_of_mem member
  simp [keyState, last]

/-- The entry of a key after one more slot. -/
theorem keyState_concat_of_ne {slot : SeamSlot} (other : slot.key ≠ key) :
    keyState (run ++ [slot]) key = keyState run key := by
  rw [keyState, keyState, List.filter_append, List.filter_singleton, decide_eq_false other,
    cond_false, List.append_nil]

theorem keyState_concat_self (run : List SeamSlot) (slot : SeamSlot) :
    keyState (run ++ [slot]) slot.key =
      { rnti := slot.key.1
        harqId := slot.key.2
        inUse := true
        lastSfn := slot.payload.sfn
        lastSlot := slot.payload.slot.toUInt32
        hasLast := true } := by
  rw [keyState, List.filter_append, List.filter_singleton, decide_eq_true rfl, cond_true,
    List.getLast?_concat]

/-- The search passes the entries of other keys. -/
theorem scanKeys_of_others {used : List (UInt16 × UInt8)}
    (members : ∀ other ∈ used, other ∈ run.map SeamSlot.key) (absent : key ∉ used)
    (rest : List OiL2KeyState) (i : Nat) (freeIdx : Option Nat) :
    scanKeys key.1 key.2 (used.map (keyState run) ++ rest) i freeIdx =
      scanKeys key.1 key.2 rest (i + used.length) freeIdx := by
  induction used generalizing i with
  | nil => rfl
  | cons other used inductionHypothesis =>
      obtain ⟨inUse, rnti, harqId⟩ := keyState_of_mem (members other List.mem_cons_self)
      have different : ¬ (other.1 = key.1 ∧ other.2 = key.2) := by
        rintro ⟨first, second⟩
        exact absent (Prod.ext first second ▸ List.mem_cons_self)
      rw [List.map_cons, List.cons_append, scanKeys, rnti, harqId, inUse,
        if_neg fun same => different same.2, if_neg fun unused => by simp at unused,
        inductionHypothesis (fun other member => members other (List.mem_cons_of_mem _ member))
          (fun member => absent (List.mem_cons_of_mem _ member)), List.length_cons, Nat.add_assoc,
        Nat.add_comm 1]

/-- Behind the used entries only the first one matters. -/
theorem scanKeys_zeros (rnti : UInt16) (harqId : UInt8) (count i freeIdx : Nat) :
    scanKeys rnti harqId (List.replicate count .zero) i (some freeIdx) = .free (some freeIdx) := by
  induction count generalizing i with
  | zero => rfl
  | succ count inductionHypothesis =>
      rw [List.replicate_succ, scanKeys, if_neg (by simp [OiL2KeyState.zero]),
        if_neg (by simp), inductionHypothesis]

theorem modify_append_cons {A : Type} (front : List A) (entry : A) (back : List A)
    (change : A → A) :
    (front ++ entry :: back).modify front.length change = front ++ change entry :: back := by
  induction front with
  | nil => rfl
  | cons first front inductionHypothesis =>
      rw [List.cons_append, List.length_cons, List.modify_succ_cons, inductionHypothesis,
        List.cons_append]

/-- A key of the run is found at its place. -/
theorem findOrAllocKey_of_used {front back : List (UInt16 × UInt8)}
    (members : ∀ other ∈ front ++ key :: back, other ∈ run.map SeamSlot.key)
    (nodup : (front ++ key :: back).Nodup) (rest : List OiL2KeyState) :
    findOrAllocKey ((front ++ key :: back).map (keyState run) ++ rest) key.1 key.2 =
      some (front.length, (front ++ key :: back).map (keyState run) ++ rest) := by
  have absent : key ∉ front := by
    intro member
    exact (List.disjoint_of_nodup_append nodup) member List.mem_cons_self
  have entry := keyState_of_mem (members key (List.mem_append_right _ List.mem_cons_self))
  have scan : scanKeys key.1 key.2 ((front ++ key :: back).map (keyState run) ++ rest) 0 none =
      .found front.length := by
    rw [List.map_append, List.append_assoc, scanKeys_of_others
      (fun other member => members other (List.mem_append_left _ member)) absent, Nat.zero_add,
      List.map_cons, List.cons_append, scanKeys, if_pos entry]
  rw [findOrAllocKey, scan]

/-- A new key gets the first entry that is not in use. -/
theorem findOrAllocKey_of_new {used : List (UInt16 × UInt8)}
    (members : ∀ other ∈ used, other ∈ run.map SeamSlot.key) (absent : key ∉ used)
    (count : Nat) :
    findOrAllocKey (used.map (keyState run) ++ List.replicate (count + 1) .zero) key.1 key.2 =
      some (used.length, used.map (keyState run) ++
        { OiL2KeyState.zero with
          inUse := true, rnti := key.1, harqId := key.2, hasLast := false } ::
          List.replicate count .zero) := by
  have scan : scanKeys key.1 key.2
      (used.map (keyState run) ++ List.replicate (count + 1) .zero) 0 none =
        .free (some used.length) := by
    rw [scanKeys_of_others members absent, Nat.zero_add, List.replicate_succ, scanKeys,
      if_neg (by simp [OiL2KeyState.zero]), if_pos ⟨rfl, rfl⟩, scanKeys_zeros]
  have place := modify_append_cons (used.map (keyState run)) OiL2KeyState.zero
    (List.replicate count .zero)
  rw [List.length_map] at place
  rw [List.replicate_succ] at scan ⊢
  simp only [findOrAllocKey, scan, place]

/-- The comparison of the validator is the order of the positions. -/
theorem regressed_keyState {slot previous : SeamSlot}
    (last : (run.filter fun other => other.key = key).getLast? = some previous) :
    (keyState run key).hasLast = true ∧
      (keyState run key).regressed slot = orderViolated previous slot := by
  rw [keyState, last]
  refine ⟨rfl, ?_⟩
  rw [OiL2KeyState.regressed, orderViolated, SeamSlot.position, SeamSlot.position, decide_eq_decide,
    Prod.Lex.toLex_le_toLex, UInt32.lt_iff_toNat_lt, ← UInt32.toNat_inj, UInt32.le_iff_toNat_le,
    UInt16.toNat_toUInt32, UInt16.toNat_toUInt32]

end Table

/-- The parts of the validator that the order check leaves alone. -/
structure SameCounts (before after : OiL2Validator) : Prop where
  lastEpoch : after.lastEpoch = before.lastEpoch
  haveEpoch : after.haveEpoch = before.haveEpoch
  nofProcessed : after.nofProcessed = before.nofProcessed
  nofCrcOk : after.nofCrcOk = before.nofCrcOk
  nofCrcFail : after.nofCrcFail = before.nofCrcFail
  nofEpochResets : after.nofEpochResets = before.nofEpochResets

theorem getD_append_cons {A : Type} (front : List A) (entry : A) (back : List A) (default : A) :
    (front ++ entry :: back).getD front.length default = entry := by
  simp

/-- The order check, once the entry of the key is known. -/
theorem checkOrder_eq {v : OiL2Validator} {slot : SeamSlot} {front back : List OiL2KeyState}
    {entry : OiL2KeyState}
    (found : findOrAllocKey v.keys slot.key.1 slot.key.2 =
      some (front.length, front ++ entry :: back)) :
    checkOrder v slot =
      { v with
        nofOrderViolations := v.nofOrderViolations +
          if entry.hasLast = true ∧ entry.regressed slot = true then 1 else 0
        keys := front ++
          { entry with
            lastSfn := slot.payload.sfn
            lastSlot := slot.payload.slot.toUInt32
            hasLast := true } :: back } := by
  have same : findOrAllocKey v.keys slot.payload.rnti slot.payload.harqId =
      some (front.length, front ++ entry :: back) := found
  simp only [checkOrder, same, getD_append_cons, modify_append_cons]

/-- One more slot leaves the entries of the other keys alone. -/
theorem map_keyState_concat {run : List SeamSlot} {slot : SeamSlot}
    {others : List (UInt16 × UInt8)} (absent : slot.key ∉ others) :
    others.map (keyState (run ++ [slot])) = others.map (keyState run) := by
  refine List.map_congr_left fun other member => keyState_concat_of_ne ?_
  rintro rfl
  exact absent member

/-- The table after one more slot of a key it holds. -/
theorem checkOrder_of_used {v : OiL2Validator} {run : List SeamSlot} {slot : SeamSlot}
    (holds : TableHolds v.keys run) (seen : slot.key ∈ run.map SeamSlot.key) :
    TableHolds (checkOrder v slot).keys (run ++ [slot]) ∧
      (checkOrder v slot).nofOrderViolations = v.nofOrderViolations +
        (if regresses SeamSlot.key orderViolated run slot then 1 else 0) ∧
      SameCounts v (checkOrder v slot) := by
  obtain ⟨used, nodup, members, few, keys⟩ := holds
  obtain ⟨front, back, rfl⟩ := List.append_of_mem ((members slot.key).mpr seen)
  obtain ⟨previous, last⟩ := exists_last_of_mem seen
  obtain ⟨hasLast, regressed⟩ : (keyState run slot.key).hasLast = true ∧
      (keyState run slot.key).regressed slot = orderViolated previous slot :=
    regressed_keyState last
  obtain ⟨inUse, rnti, harqId⟩ := keyState_of_mem seen
  have split : v.keys = front.map (keyState run) ++ keyState run slot.key ::
      (back.map (keyState run) ++
        List.replicate (oiL2MaxTrackedKeys - (front ++ slot.key :: back).length) .zero) := by
    rw [keys, List.map_append, List.map_cons, List.append_assoc, List.cons_append]
  have found : findOrAllocKey v.keys slot.key.1 slot.key.2 =
      some ((front.map (keyState run)).length, front.map (keyState run) ++ keyState run slot.key ::
        (back.map (keyState run) ++
          List.replicate (oiL2MaxTrackedKeys - (front ++ slot.key :: back).length) .zero)) := by
    rw [← split, List.length_map, keys]
    exact findOrAllocKey_of_used (fun other member => (members other).mp member) nodup _
  rw [checkOrder_eq found]
  refine ⟨⟨front ++ slot.key :: back, nodup, fun key => ?_, few, ?_⟩, ?_,
    ⟨rfl, rfl, rfl, rfl, rfl, rfl⟩⟩
  · rw [members, List.map_append, List.map_singleton, List.mem_append, List.mem_singleton]
    refine ⟨.inl, ?_⟩
    rintro (member | rfl)
    · exact member
    · exact seen
  · have apart := List.nodup_middle.mp nodup
    rw [List.nodup_cons, List.mem_append, not_or] at apart
    rw [List.map_append, List.map_cons, map_keyState_concat apart.1.1,
      map_keyState_concat apart.1.2, keyState_concat_self, inUse, rnti, harqId, List.append_assoc,
      List.cons_append]
  · have previousEq : previousOf SeamSlot.key run slot = some previous := last
    rw [hasLast, regressed, regresses, previousEq, Option.any_some]
    simp

/-- The table after the first slot of a new key. -/
theorem checkOrder_of_new {v : OiL2Validator} {run : List SeamSlot} {slot : SeamSlot}
    (holds : TableHolds v.keys run) (unseen : slot.key ∉ run.map SeamSlot.key)
    (few : FewKeys (run ++ [slot])) :
    TableHolds (checkOrder v slot).keys (run ++ [slot]) ∧
      (checkOrder v slot).nofOrderViolations = v.nofOrderViolations +
        (if regresses SeamSlot.key orderViolated run slot then 1 else 0) ∧
      SameCounts v (checkOrder v slot) := by
  obtain ⟨used, nodup, members, _, keys⟩ := holds
  have absent : slot.key ∉ used := fun member => unseen ((members slot.key).mp member)
  have nodupNew : (used ++ [slot.key]).Nodup :=
    nodup.append (List.nodup_singleton _) (List.disjoint_singleton.mpr absent)
  have membersNew : ∀ key, key ∈ used ++ [slot.key] ↔ key ∈ (run ++ [slot]).map SeamSlot.key := by
    intro key
    rw [List.mem_append, members, List.map_append, List.mem_append, List.map_singleton]
  have fewNew : (used ++ [slot.key]).length ≤ oiL2MaxTrackedKeys := by
    rw [← List.toFinset_card_of_nodup nodupNew]
    refine le_trans (Finset.card_le_card fun key member => ?_) few
    rw [List.mem_toFinset] at member ⊢
    exact (membersNew key).mp member
  obtain ⟨count, room⟩ : ∃ count, oiL2MaxTrackedKeys - used.length = count + 1 := by
    rw [List.length_append, List.length_singleton] at fewNew
    exact ⟨oiL2MaxTrackedKeys - used.length - 1, by omega⟩
  have found := findOrAllocKey_of_new (fun other member => (members other).mp member) absent count
  rw [← room, ← keys, ← List.length_map (f := keyState run)] at found
  rw [checkOrder_eq found]
  refine ⟨⟨used ++ [slot.key], nodupNew, membersNew, fewNew, ?_⟩, ?_,
    ⟨rfl, rfl, rfl, rfl, rfl, rfl⟩⟩
  · have left : oiL2MaxTrackedKeys - (used ++ [slot.key]).length = count := by
      rw [List.length_append, List.length_singleton]
      omega
    rw [left, List.map_append, map_keyState_concat absent, List.map_singleton,
      keyState_concat_self, List.append_assoc, List.singleton_append]
  · have none : previousOf SeamSlot.key run slot = none := by
      rw [previousOf, List.getLast?_eq_none_iff, List.filter_eq_nil_iff]
      intro other member
      rw [decide_eq_true_eq]
      intro same
      exact unseen (same ▸ List.mem_map_of_mem member)
    rw [regresses, none]
    simp

/-! ### One run -/

/-- The slot's checksum verdict. -/
def SeamSlot.crcPassed (slot : SeamSlot) : Bool := slot.payload.crcOk ≠ 0

/-- The validator inside a run of `epoch` that it entered in the state `start`, with `run`
behind it. -/
structure InRun (start : OiL2Validator) (epoch : Nat) (run : List SeamSlot) (v : OiL2Validator) :
    Prop where
  haveEpoch : v.haveEpoch = true
  lastEpoch : v.lastEpoch = epoch
  table : TableHolds v.keys run
  violations : v.nofOrderViolations = start.nofOrderViolations + orderViolations run
  resets : v.nofEpochResets = start.nofEpochResets + 1
  crcOk : v.nofCrcOk = start.nofCrcOk + run.countP SeamSlot.crcPassed
  crcFail : v.nofCrcFail = start.nofCrcFail + run.countP (fun slot => !slot.crcPassed)
  processed : v.nofProcessed = start.nofProcessed + run.length

theorem FewKeys.of_append {run rest : List SeamSlot} (few : FewKeys (run ++ rest)) :
    FewKeys run := by
  refine le_trans (Finset.card_le_card fun key member => ?_) few
  rw [List.mem_toFinset] at member ⊢
  rw [List.map_append]
  exact List.mem_append_left _ member

/-- One more slot of the run. -/
theorem InRun.process {start v : OiL2Validator} {run : List SeamSlot} {slot : SeamSlot}
    (inRun : InRun start slot.epoch run v) (few : FewKeys (run ++ [slot])) :
    InRun start slot.epoch (run ++ [slot]) (oiL2ValidatorProcess v slot) := by
  have stays : checkEpoch v slot = v := by
    refine if_neg ?_
    rintro (unset | changed)
    · rw [inRun.haveEpoch] at unset
      cases unset
    · exact changed inRun.lastEpoch.symm
  obtain ⟨table, violations, same⟩ : TableHolds (checkOrder v slot).keys (run ++ [slot]) ∧
      (checkOrder v slot).nofOrderViolations = v.nofOrderViolations +
        (if regresses SeamSlot.key orderViolated run slot then 1 else 0) ∧
      SameCounts v (checkOrder v slot) := by
    by_cases seen : slot.key ∈ run.map SeamSlot.key
    · exact checkOrder_of_used inRun.table seen
    · exact checkOrder_of_new inRun.table seen few
  have counted : orderViolations (run ++ [slot]) = orderViolations run +
      if regresses SeamSlot.key orderViolated run slot then 1 else 0 := regressions_concat ..
  rw [inRun.violations, Nat.add_assoc, ← counted] at violations
  have passed : ∀ p : SeamSlot → Bool, (run ++ [slot]).countP p =
      run.countP p + if p slot then 1 else 0 := by
    intro p
    rw [List.countP_append, List.countP_singleton]
  rw [oiL2ValidatorProcess, stays, countVerdict]
  by_cases ok : slot.payload.crcOk ≠ 0
  · rw [if_pos ok]
    have verdict : slot.crcPassed = true := decide_eq_true ok
    exact
      { haveEpoch := same.haveEpoch.trans inRun.haveEpoch
        lastEpoch := same.lastEpoch.trans inRun.lastEpoch
        table := table
        violations := violations
        resets := same.nofEpochResets.trans inRun.resets
        crcOk := by
          simp only [same.nofCrcOk, inRun.crcOk, passed, verdict, if_true, Nat.add_assoc]
        crcFail := by
          simp only [same.nofCrcFail, inRun.crcFail, passed, verdict, Bool.not_true,
            Bool.false_eq_true, if_false, Nat.add_zero]
        processed := by
          simp only [same.nofProcessed, inRun.processed, List.length_append, List.length_singleton,
            Nat.add_assoc] }
  · rw [if_neg ok]
    have verdict : slot.crcPassed = false := decide_eq_false ok
    exact
      { haveEpoch := same.haveEpoch.trans inRun.haveEpoch
        lastEpoch := same.lastEpoch.trans inRun.lastEpoch
        table := table
        violations := violations
        resets := same.nofEpochResets.trans inRun.resets
        crcOk := by
          simp only [same.nofCrcOk, inRun.crcOk, passed, verdict, Bool.false_eq_true, if_false,
            Nat.add_zero]
        crcFail := by
          simp only [same.nofCrcFail, inRun.crcFail, passed, verdict, Bool.not_false, if_true,
            Nat.add_assoc]
        processed := by
          simp only [same.nofProcessed, inRun.processed, List.length_append, List.length_singleton,
            Nat.add_assoc] }

/-- The rest of the run. -/
theorem InRun.processAll {start v : OiL2Validator} {epoch : Nat} {run rest : List SeamSlot}
    (inRun : InRun start epoch run v) (same : ∀ slot ∈ rest, slot.epoch = epoch)
    (few : FewKeys (run ++ rest)) :
    InRun start epoch (run ++ rest) (rest.foldl oiL2ValidatorProcess v) := by
  induction rest generalizing run v with
  | nil => rwa [List.append_nil]
  | cons slot rest inductionHypothesis =>
      obtain rfl := same slot List.mem_cons_self
      rw [List.append_cons] at few ⊢
      exact inductionHypothesis (inRun.process few.of_append)
        (fun other member => same other (List.mem_cons_of_mem _ member)) few

/-- The validator is not in a run of the epoch. -/
def OiL2Validator.Outside (v : OiL2Validator) (epoch : Nat) : Prop :=
  v.haveEpoch = false ∨ epoch ≠ v.lastEpoch

/-- A whole run, from outside. -/
theorem inRun_of_run {v : OiL2Validator} {epoch : Nat} {run : List SeamSlot} (nonempty : run ≠ [])
    (same : ∀ slot ∈ run, slot.epoch = epoch) (few : FewKeys run) (outside : v.Outside epoch) :
    InRun v epoch run (run.foldl oiL2ValidatorProcess v) := by
  cases run with
  | nil => exact absurd rfl nonempty
  | cons slot rest =>
      obtain rfl := same slot List.mem_cons_self
      have reset : checkEpoch v slot =
          { v with
            keys := List.replicate oiL2MaxTrackedKeys .zero
            lastEpoch := slot.epoch
            haveEpoch := true
            nofEpochResets := v.nofEpochResets + 1 } := if_pos outside
      have entered : InRun v slot.epoch [] (checkEpoch v slot) := by
        rw [reset]
        exact ⟨rfl, rfl, ⟨[], List.nodup_nil, by simp, Nat.zero_le _, rfl⟩, rfl, rfl, rfl, rfl, rfl⟩
      -- once the epoch is set, the check does nothing
      have again : oiL2ValidatorProcess v slot = oiL2ValidatorProcess (checkEpoch v slot) slot := by
        have idle : checkEpoch (checkEpoch v slot) slot = checkEpoch v slot := by
          rw [reset]
          exact if_neg (by simp)
        rw [oiL2ValidatorProcess, oiL2ValidatorProcess, idle]
      have first := entered.process
        (FewKeys.of_append (show FewKeys ([slot] ++ rest) from few))
      rw [← again, List.nil_append] at first
      exact first.processAll (fun other member => same other (List.mem_cons_of_mem _ member)) few

/-! ### Sequences of runs -/

/-- Runs of one epoch each, of which no two neighbours have the same one; the first comes
behind a slot of epoch `previous`. -/
def RunsFrom : Option Nat → List (List SeamSlot) → Prop
  | _, [] => True
  | previous, run :: runs =>
      ∃ epoch, run ≠ [] ∧ (∀ slot ∈ run, slot.epoch = epoch) ∧ previous ≠ some epoch ∧
        RunsFrom (some epoch) runs

/-- The counters of a validator: violations, resets, passed and failed checksums, and slots. -/
def OiL2Validator.counters (v : OiL2Validator) : Nat × Nat × Nat × Nat × Nat :=
  (v.nofOrderViolations, v.nofEpochResets, v.nofCrcOk, v.nofCrcFail, v.nofProcessed)

/-- What a sequence of runs adds to the counters. -/
theorem counters_of_runs {runs : List (List SeamSlot)} {previous : Option Nat}
    (separate : RunsFrom previous runs) (few : ∀ run ∈ runs, FewKeys run) {v : OiL2Validator}
    (outside : ∀ epoch, previous ≠ some epoch → v.Outside epoch) :
    (runs.flatten.foldl oiL2ValidatorProcess v).counters =
      (v.nofOrderViolations + (runs.map orderViolations).sum, v.nofEpochResets + runs.length,
        v.nofCrcOk + runs.flatten.countP SeamSlot.crcPassed,
        v.nofCrcFail + runs.flatten.countP (fun slot => !slot.crcPassed),
        v.nofProcessed + runs.flatten.length) := by
  induction runs generalizing previous v with
  | nil => rfl
  | cons run runs inductionHypothesis =>
      obtain ⟨epoch, nonempty, same, changed, later⟩ := separate
      have inRun := inRun_of_run nonempty same (few run List.mem_cons_self)
        (outside epoch changed)
      have rest := inductionHypothesis later
        (fun other member => few other (List.mem_cons_of_mem _ member))
        (fun other changed => .inr (by rw [inRun.lastEpoch]; rintro rfl; exact changed rfl))
      rw [List.flatten_cons, List.foldl_append, rest, inRun.violations, inRun.resets, inRun.crcOk,
        inRun.crcFail, inRun.processed]
      simp only [List.map_cons, List.sum_cons, List.length_cons, List.countP_append,
        List.length_append, Nat.add_assoc, Nat.add_comm runs.length]

/-- A list whose neighbours have the same epoch has one epoch. -/
theorem epoch_eq_of_isChain {run : List SeamSlot}
    (chain : run.IsChain fun one two => (one.epoch == two.epoch) = true) :
    ∃ epoch, ∀ slot ∈ run, slot.epoch = epoch := by
  cases run with
  | nil => exact ⟨0, by simp⟩
  | cons first rest =>
      have chained : (first :: rest).IsChain fun one two => one.epoch = two.epoch :=
        chain.imp fun _ _ same => by simpa using same
      have pairs := List.isChain_iff_pairwise.mp chained
      refine ⟨first.epoch, fun slot member => ?_⟩
      rcases List.mem_cons.mp member with rfl | later
      · rfl
      · exact (List.rel_of_pairwise_cons pairs later).symm

theorem epochRuns_flatten (slots : List SeamSlot) : (epochRuns slots).flatten = slots :=
  List.flatten_splitBy _ slots

/-- The maximal runs of a sequence are runs of one epoch each. -/
theorem runsFrom_of_splitBy {runs : List (List SeamSlot)} {previous : Option Nat}
    (nonempty : [] ∉ runs)
    (chains : ∀ run ∈ runs, run.IsChain fun one two => (one.epoch == two.epoch) = true)
    (changes : runs.IsChain fun one two =>
      ∃ last first, ((one.getLast last).epoch == (two.head first).epoch) = false)
    (behind : ∀ run ∈ runs.head?, ∀ slot ∈ run, previous ≠ some slot.epoch) :
    RunsFrom previous runs := by
  induction runs generalizing previous with
  | nil => trivial
  | cons run runs inductionHypothesis =>
      have filled : run ≠ [] := fun empty => nonempty (empty ▸ List.mem_cons_self)
      obtain ⟨epoch, same⟩ := epoch_eq_of_isChain (chains run List.mem_cons_self)
      have first := behind run rfl _ (List.head_mem filled)
      rw [same _ (List.head_mem filled)] at first
      refine ⟨epoch, filled, same, first, inductionHypothesis
        (fun member => nonempty (List.mem_cons_of_mem _ member))
        (fun other member => chains other (List.mem_cons_of_mem _ member)) changes.tail ?_⟩
      intro next found slot member
      cases runs with
      | nil => cases found
      | cons second runs =>
          obtain rfl : second = next := Option.some.inj found
          obtain ⟨last, head, different⟩ := (List.isChain_cons_cons.mp changes).1
          obtain ⟨nextEpoch, nextSame⟩ := epoch_eq_of_isChain
            (chains second (List.mem_cons_of_mem _ List.mem_cons_self))
          rw [same _ (List.getLast_mem last), nextSame _ (List.head_mem head),
            beq_eq_false_iff_ne] at different
          rw [nextSame slot member]
          exact fun equal => different (Option.some.inj equal)

theorem runsFrom_epochRuns (slots : List SeamSlot) : RunsFrom none (epochRuns slots) :=
  runsFrom_of_splitBy (List.nil_notMem_splitBy _ slots) (fun _ => List.isChain_of_mem_splitBy)
    (List.isChain_getLast_head_splitBy (fun one two : SeamSlot => one.epoch == two.epoch) slots)
    (by simp)

/-- The same slots in another order, with the order of each key's own slots kept. -/
structure Reordered (run other : List SeamSlot) : Prop where
  perm : run.Perm other
  sameOrder : ∀ key, (run.filter fun slot => slot.key = key) =
    other.filter fun slot => slot.key = key

/-- Reordering inside the runs leaves what the counters add up. -/
theorem reordered_runs {runs others : List (List SeamSlot)}
    (reordered : List.Forall₂ Reordered runs others) {previous : Option Nat}
    (separate : RunsFrom previous runs) (few : ∀ run ∈ runs, FewKeys run) :
    RunsFrom previous others ∧ (∀ run ∈ others, FewKeys run) ∧
      others.map orderViolations = runs.map orderViolations ∧ others.length = runs.length ∧
      others.flatten.Perm runs.flatten := by
  induction reordered generalizing previous with
  | nil => exact ⟨trivial, by simp, rfl, rfl, .nil⟩
  | @cons run other runs others pair _ inductionHypothesis =>
      obtain ⟨epoch, nonempty, same, changed, later⟩ := separate
      obtain ⟨separateRest, fewRest, violations, length, perm⟩ := inductionHypothesis later
        fun run member => few run (List.mem_cons_of_mem _ member)
      refine ⟨⟨epoch, ?_, ?_, changed, separateRest⟩, ?_, ?_, ?_, ?_⟩
      · rintro rfl
        exact nonempty pair.perm.eq_nil
      · exact fun slot member => same slot (pair.perm.mem_iff.mpr member)
      · refine List.forall_mem_cons.mpr ⟨?_, fewRest⟩
        have first := few run List.mem_cons_self
        rwa [FewKeys, List.toFinset_eq_of_perm _ _ (pair.perm.map SeamSlot.key)] at first
      · have sameViolations : orderViolations other = orderViolations run :=
          (regressions_eq_of_same_order SeamSlot.key orderViolated pair.sameOrder).symm
        rw [List.map_cons, List.map_cons, violations, sameViolations]
      · rw [List.length_cons, List.length_cons, length]
      · rw [List.flatten_cons, List.flatten_cons]
        exact pair.perm.symm.append perm

/-- What a fresh validator counts. -/
theorem counters_validate {runs : List (List SeamSlot)} (separate : RunsFrom none runs)
    (few : ∀ run ∈ runs, FewKeys run) :
    (validate runs.flatten).counters =
      ((runs.map orderViolations).sum, runs.length, runs.flatten.countP SeamSlot.crcPassed,
        runs.flatten.countP (fun slot => !slot.crcPassed), runs.flatten.length) := by
  have counted := counters_of_runs separate few (v := oiL2ValidatorInit) fun _ _ => .inl rfl
  rw [validate, counted]
  simp only [oiL2ValidatorInit, Nat.zero_add]

/-- For every sequence of slots with at most 64 keys in each epoch run: the violations are the
slots that do not stand behind the previous one of their key in their run, the resets are the
runs, every slot is counted, and reordering slots of different keys inside the runs changes no
counter. -/
theorem validator_counts {slots : List SeamSlot} (few : ∀ run ∈ epochRuns slots, FewKeys run) :
    (validate slots).nofOrderViolations = ((epochRuns slots).map orderViolations).sum ∧
      (validate slots).nofEpochResets = (epochRuns slots).length ∧
      (validate slots).nofCrcOk + (validate slots).nofCrcFail = (validate slots).nofProcessed ∧
      (validate slots).nofProcessed = slots.length ∧
      ∀ others, List.Forall₂ Reordered (epochRuns slots) others →
        (validate others.flatten).counters = (validate slots).counters := by
  have separate := runsFrom_epochRuns slots
  have counted := counters_validate separate few
  rw [epochRuns_flatten] at counted
  have total := List.length_eq_countP_add_countP SeamSlot.crcPassed (l := slots)
  obtain ⟨violations, resets, crcOk, crcFail, processed⟩ : _ ∧ _ ∧ _ ∧ _ ∧ _ := by
    simpa only [OiL2Validator.counters, Prod.mk.injEq] using counted
  refine ⟨violations, resets, ?_, processed, ?_⟩
  · rw [crcOk, crcFail, processed, total]
    simp
  · intro others reordered
    obtain ⟨separateOthers, fewOthers, sameViolations, length, perm⟩ :=
      reordered_runs reordered separate few
    rw [epochRuns_flatten] at perm
    rw [counters_validate separateOthers fewOthers, counted, sameViolations, length,
      perm.countP_eq, perm.countP_eq, perm.length_eq]

/-- A slot of user 17921 or 17922, process 0, with nothing but its key and its position. -/
def plainSlot (epoch : Nat) (rnti : UInt16) (sfn : UInt32) (slot : UInt16) : SeamSlot where
  status := .ready
  epoch := epoch
  seq := 0
  payload :=
    { sfn := sfn, slot := slot, rnti := rnti, harqId := 0, crcOk := 1, tbLen := 0, tEnqueueNs := 0
      tb := fun _ => 0 }

/-- Two users in the first epoch, one of which repeats a slot, and a restart. -/
def restartedStream : List SeamSlot :=
  [plainSlot 1 17921 0 5, plainSlot 1 17922 0 3, plainSlot 1 17921 0 5, plainSlot 2 17921 0 0]

theorem validator_counts_restarted_stream :
    (∀ run ∈ epochRuns restartedStream, FewKeys run) ∧
      (validate restartedStream).nofOrderViolations = 1 ∧
      (validate restartedStream).nofEpochResets = 2 ∧
      (validate restartedStream).nofProcessed = 4 := by
  have few : ∀ run ∈ epochRuns restartedStream, FewKeys run := by decide
  obtain ⟨violations, resets, _, processed, _⟩ := validator_counts few
  refine ⟨few, violations.trans ?_, resets.trans ?_, processed⟩
  · decide
  · decide

end RanInline.Seam
