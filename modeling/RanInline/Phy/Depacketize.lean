/-
Module: RanInline.Phy.Depacketize
Purpose: The k1_depacketize kernel: what one work-item writes, and what any schedule of all
  work-items leaves in the RE grid and the symbol bitmap.
Trusted boundary: none
Main exports: I2Buffers, K1Write, k1WorkItem, K1Accepts, K1Covers, k1Threads, k1Run,
  k1Run_bit, k1Run_grid
-/
import RanInline.Lib.Interleave
import RanInline.Oran.Wire

namespace RanInline.Phy

open RanInline.Lib RanInline.Oran

/-- `OI_K1_NOF_SYMBOLS`. -/
def k1NofSymbols : Nat := 14

/-- `OI_K1_NOF_SUBCARRIERS`. -/
def k1NofSubcarriers : Nat := 612

/-- The two buffers K1 writes: the RE grid by symbol and subcarrier, and the 14-bit
completeness mask. -/
structure I2Buffers (F : Type) where
  reGrid : Nat → Nat → F × F
  symbolBitmap : Nat

/-- One store or atomic OR of a work-item. -/
inductive K1Write (F : Type) where
  | sample (symbol subcarrier : Nat) (value : F × F)
  | orBit (symbol : Nat)

section Kernel

variable {F : Type} (q15 : Int → F) (arena : Nat → UInt8)

/-- `oi_k1_read_q15`.  `q15` is the conversion of a 16-bit sample to a float. -/
def k1ReadQ15 (off : Nat) : F :=
  let raw : Nat := ((arena off).toNat <<< 8 ||| (arena (off + 1)).toNat) % 2 ^ 16
  q15 (Int.bmod raw (2 ^ 16))

/-- The value of resource element `re` of a section whose IQ bytes start at `iqBase`. -/
def k1Sample (iqBase re : Nat) : F × F :=
  let byteOff := re * wireBytesPerRe
  (k1ReadQ15 q15 arena (iqBase + byteOff), k1ReadQ15 q15 arena (iqBase + byteOff + 2))

/-- The writes of one work-item of `k1_depacketize`, in program order. -/
def k1WorkItem (desc : OiFrameDesc) (slotId : UInt32) : List (K1Write F) :=
  if desc.slotId ≠ slotId then []
  else
    let totalHeaderBytes := desc.payloadByteOff.toNat
    let requiredBytes :=
      totalHeaderBytes + desc.nofPrbs.toNat * wireResPerPrb * wireBytesPerRe
    if desc.frameLen.toNat < requiredBytes ∨ desc.symbolId.toNat ≥ k1NofSymbols then []
    else
      let iqBase := desc.arenaOffset.toNat + totalHeaderBytes
      let nofRes := desc.nofPrbs.toNat * wireResPerPrb
      let subcarrier0 := desc.startPrb.toNat * wireResPerPrb
      -- the loop breaks at the first subcarrier outside the grid
      (((List.range nofRes).takeWhile fun re => subcarrier0 + re < k1NofSubcarriers).map
        fun re => .sample desc.symbolId.toNat (subcarrier0 + re) (k1Sample q15 arena iqBase re))
      ++ [.orBit desc.symbolId.toNat]

/-- The work-items of a launch over the first `nofDescs` ring entries. -/
def k1Threads (descs : Nat → OiFrameDesc) (nofDescs : Nat) (slotId : UInt32) :
    List (List (K1Write F)) :=
  (List.range nofDescs).map fun gid => k1WorkItem q15 arena (descs gid) slotId

end Kernel

/-- The effect of one write. -/
def I2Buffers.apply {F : Type} (buffers : I2Buffers F) : K1Write F → I2Buffers F
  | .sample symbol subcarrier value =>
      { buffers with
        reGrid := Function.update buffers.reGrid symbol
          (Function.update (buffers.reGrid symbol) subcarrier value) }
  | .orBit symbol => { buffers with symbolBitmap := buffers.symbolBitmap ||| 1 <<< symbol }

/-- The effect of a schedule of writes. -/
def k1Run {F : Type} (buffers : I2Buffers F) (order : List (K1Write F)) : I2Buffers F :=
  order.foldl I2Buffers.apply buffers

/-! ### What a work-item writes -/

/-- The kernel does not drop the descriptor. -/
def K1Accepts (desc : OiFrameDesc) (slotId : UInt32) : Prop :=
  desc.slotId = slotId ∧
    desc.payloadByteOff.toNat + desc.nofPrbs.toNat * wireResPerPrb * wireBytesPerRe ≤
      desc.frameLen.toNat ∧
    desc.symbolId.toNat < k1NofSymbols

instance (desc : OiFrameDesc) (slotId : UInt32) : Decidable (K1Accepts desc slotId) :=
  inferInstanceAs (Decidable (_ ∧ _ ∧ _))

/-- The section carries a sample for the subcarrier. -/
def K1Covers (desc : OiFrameDesc) (subcarrier : Nat) : Prop :=
  desc.startPrb.toNat * wireResPerPrb ≤ subcarrier ∧
    subcarrier < desc.startPrb.toNat * wireResPerPrb + desc.nofPrbs.toNat * wireResPerPrb ∧
    subcarrier < k1NofSubcarriers

/-- The sample a section carries for a subcarrier it covers. -/
def k1Carried {F : Type} (q15 : Int → F) (arena : Nat → UInt8) (desc : OiFrameDesc)
    (subcarrier : Nat) : F × F :=
  k1Sample q15 arena (desc.arenaOffset.toNat + desc.payloadByteOff.toNat)
    (subcarrier - desc.startPrb.toNat * wireResPerPrb)

section Facts

variable {F : Type} {q15 : Int → F} {arena : Nat → UInt8} {desc : OiFrameDesc}
  {slotId : UInt32} {buffers : I2Buffers F} {order : List (K1Write F)}

/-- A loop with a break at a bound runs over the indices below it. -/
theorem takeWhile_range_lt (n start bound : Nat) :
    ((List.range n).takeWhile fun i => start + i < bound) = List.range (min n (bound - start)) := by
  induction n with
  | zero => simp
  | succ n inductionHypothesis =>
      rw [List.range_succ, List.takeWhile_append, inductionHypothesis, List.length_range,
        List.length_range]
      by_cases inside : start + n < bound
      · rw [if_pos (by omega), show min (n + 1) (bound - start) = n + 1 by omega,
          List.range_succ]
        simp [inside]
      · by_cases reached : min n (bound - start) = n
        · rw [if_pos reached, show min (n + 1) (bound - start) = n by omega]
          simp [inside]
        · rw [if_neg reached, show min (n + 1) (bound - start) = min n (bound - start) by omega]

/-- The writes of a work-item whose descriptor is not dropped. -/
theorem k1WorkItem_of_accepts (accepts : K1Accepts desc slotId) :
    k1WorkItem q15 arena desc slotId =
      (List.range (min (desc.nofPrbs.toNat * wireResPerPrb)
          (k1NofSubcarriers - desc.startPrb.toNat * wireResPerPrb))).map
        (fun re => .sample desc.symbolId.toNat (desc.startPrb.toNat * wireResPerPrb + re)
          (k1Sample q15 arena (desc.arenaOffset.toNat + desc.payloadByteOff.toNat) re)) ++
      [.orBit desc.symbolId.toNat] := by
  obtain ⟨same, fits, symbol⟩ := accepts
  rw [k1WorkItem, if_neg (not_not.mpr same)]
  simp only [takeWhile_range_lt]
  rw [if_neg (by omega)]

theorem k1WorkItem_of_not_accepts (dropped : ¬ K1Accepts desc slotId) :
    k1WorkItem q15 arena desc slotId = [] := by
  rw [k1WorkItem]
  by_cases same : desc.slotId = slotId
  · rw [if_neg (not_not.mpr same)]
    simp only
    rw [if_pos]
    by_contra accepted
    exact dropped ⟨same, by omega, by omega⟩
  · rw [if_pos same]

theorem mem_k1WorkItem_sample {symbol subcarrier : Nat} {value : F × F} :
    .sample symbol subcarrier value ∈ k1WorkItem q15 arena desc slotId ↔
      K1Accepts desc slotId ∧ symbol = desc.symbolId.toNat ∧ K1Covers desc subcarrier ∧
        value = k1Carried q15 arena desc subcarrier := by
  by_cases accepts : K1Accepts desc slotId
  · rw [k1WorkItem_of_accepts accepts]
    simp only [List.mem_append, List.mem_map, List.mem_range, K1Write.sample.injEq,
      List.mem_singleton, reduceCtorEq, or_false, accepts, true_and, K1Covers, k1Carried]
    constructor
    · rintro ⟨re, less, rfl, rfl, rfl⟩
      refine ⟨rfl, by omega, ?_⟩
      rw [Nat.add_sub_cancel_left]
    · rintro ⟨rfl, covers, rfl⟩
      exact ⟨subcarrier - desc.startPrb.toNat * wireResPerPrb, by omega, rfl, by omega, rfl⟩
  · simp [k1WorkItem_of_not_accepts accepts, accepts]

theorem mem_k1WorkItem_orBit {symbol : Nat} :
    .orBit symbol ∈ k1WorkItem q15 arena desc slotId ↔
      K1Accepts desc slotId ∧ desc.symbolId.toNat = symbol := by
  by_cases accepts : K1Accepts desc slotId
  · simp [k1WorkItem_of_accepts accepts, accepts, eq_comm]
  · simp [k1WorkItem_of_not_accepts accepts, accepts]

/-! ### What a schedule leaves behind -/

/-- A bit of the bitmap is set when it was set before or some write sets it. -/
theorem testBit_k1Run (k : Nat) :
    (k1Run buffers order).symbolBitmap.testBit k ↔
      buffers.symbolBitmap.testBit k ∨ .orBit k ∈ order := by
  induction order generalizing buffers with
  | nil => simp [k1Run]
  | cons write order inductionHypothesis =>
      rw [show k1Run buffers (write :: order) = k1Run (buffers.apply write) order from rfl,
        inductionHypothesis]
      cases write with
      | sample symbol subcarrier value => simp [I2Buffers.apply]
      | orBit symbol =>
          have single : (1 <<< symbol).testBit k ↔ k = symbol := by
            rw [Nat.one_shiftLeft, Nat.testBit_two_pow]
            simp [eq_comm]
          simp only [I2Buffers.apply, Nat.testBit_or, Bool.or_eq_true, single, List.mem_cons,
            K1Write.orBit.injEq, or_assoc]

/-- A grid entry holds the value of one of the writes to it, or what it held before when
nothing writes to it. -/
theorem reGrid_k1Run (buffers : I2Buffers F) (order : List (K1Write F))
    (symbol subcarrier : Nat) :
    (.sample symbol subcarrier ((k1Run buffers order).reGrid symbol subcarrier) ∈ order) ∨
      ((∀ value, .sample symbol subcarrier value ∉ order) ∧
        (k1Run buffers order).reGrid symbol subcarrier = buffers.reGrid symbol subcarrier) := by
  induction order generalizing buffers with
  | nil => exact .inr ⟨by simp, rfl⟩
  | cons write order inductionHypothesis =>
      rw [show k1Run buffers (write :: order) = k1Run (buffers.apply write) order from rfl]
      rcases inductionHypothesis (buffers.apply write) with written | ⟨none, kept⟩
      · exact .inl (List.mem_cons_of_mem _ written)
      · rw [kept]
        cases write with
        | orBit other => exact .inr ⟨by simpa using none, rfl⟩
        | sample otherSymbol otherSubcarrier value =>
            by_cases same : otherSymbol = symbol ∧ otherSubcarrier = subcarrier
            · obtain ⟨rfl, rfl⟩ := same
              refine .inl ?_
              simp [I2Buffers.apply]
            · refine .inr ⟨?_, ?_⟩
              · intro other member
                rcases List.mem_cons.mp member with first | rest
                · cases first
                  exact same ⟨rfl, rfl⟩
                · exact none other rest
              · by_cases row : symbol = otherSymbol
                · subst row
                  have column : subcarrier ≠ otherSubcarrier := fun h => same ⟨rfl, h.symm⟩
                  simp [I2Buffers.apply, Function.update_of_ne column]
                · simp [I2Buffers.apply, Function.update_of_ne row]

variable {descs : Nat → OiFrameDesc} {nofDescs : Nat}

/-- After a launch, a bit is set when it was set before or a descriptor of the slot that is
not dropped names the symbol. -/
theorem k1Run_bit (buffers : I2Buffers F)
    (schedule : Interleaves (k1Threads q15 arena descs nofDescs slotId) order) (k : Nat) :
    (k1Run buffers order).symbolBitmap.testBit k ↔
      buffers.symbolBitmap.testBit k ∨
        ∃ gid < nofDescs, K1Accepts (descs gid) slotId ∧ (descs gid).symbolId.toNat = k := by
  rw [testBit_k1Run, schedule.mem_iff]
  simp only [k1Threads, List.mem_map, List.mem_range, exists_exists_and_eq_and,
    mem_k1WorkItem_orBit]

/-- After a launch, a grid entry holds the sample of a descriptor of the slot that covers
it, or what it held before when none does. -/
theorem k1Run_grid (buffers : I2Buffers F)
    (schedule : Interleaves (k1Threads q15 arena descs nofDescs slotId) order)
    (symbol subcarrier : Nat) :
    (∃ gid < nofDescs, K1Accepts (descs gid) slotId ∧ (descs gid).symbolId.toNat = symbol ∧
        K1Covers (descs gid) subcarrier ∧
        (k1Run buffers order).reGrid symbol subcarrier =
          k1Carried q15 arena (descs gid) subcarrier) ∨
      ((∀ gid < nofDescs, K1Accepts (descs gid) slotId →
          (descs gid).symbolId.toNat = symbol → ¬ K1Covers (descs gid) subcarrier) ∧
        (k1Run buffers order).reGrid symbol subcarrier = buffers.reGrid symbol subcarrier) := by
  have mem (value : F × F) : .sample symbol subcarrier value ∈ order ↔
      ∃ gid < nofDescs, K1Accepts (descs gid) slotId ∧ symbol = (descs gid).symbolId.toNat ∧
        K1Covers (descs gid) subcarrier ∧
        value = k1Carried q15 arena (descs gid) subcarrier := by
    rw [schedule.mem_iff]
    simp only [k1Threads, List.mem_map, List.mem_range, exists_exists_and_eq_and,
      mem_k1WorkItem_sample]
  rcases reGrid_k1Run buffers order symbol subcarrier with written | ⟨none, kept⟩
  · obtain ⟨gid, less, accepts, named, covers, value⟩ := (mem _).mp written
    exact .inl ⟨gid, less, accepts, named.symm, covers, value⟩
  · refine .inr ⟨fun gid less accepts named covers => ?_, kept⟩
    exact none _ ((mem _).mpr ⟨gid, less, accepts, named.symm, covers, rfl⟩)

end Facts

end RanInline.Phy
