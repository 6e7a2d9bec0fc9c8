/-
Module: RanInline.Phy.Descramble
Purpose: A launch of k5_descramble over several blocks, whose work-items run in any order:
  it undoes the scrambling of every block.
Trusted boundary: none
Main exports: K5State, k5Step, k5Threads, k5Launch, k5Launch_block, descramble_undoes_scrambling
-/
import RanInline.Ldpc.SignConsistent
import RanInline.Lib.Interleave
import RanInline.Phy.Gold

namespace RanInline.Phy

open RanInline.Lib RanInline.Ldpc

/-- A launch under way: the registers of every work-item and the buffer they share. -/
structure K5State where
  registers : Nat → OiGoldState
  llr : Nat → Int

/-- A work-item takes its turn for one of its LLRs. -/
def k5Step (nofLlrs : Nat) (state : K5State) (event : Nat × Nat) : K5State :=
  let turn := k5Turn (event.1 * nofLlrs) (state.registers event.1, state.llr) event.2
  { registers := Function.update state.registers event.1 turn.1, llr := turn.2 }

/-- The turns of every work-item. -/
def k5Threads (nofBlocks nofLlrs : Nat) : List (List (Nat × Nat)) :=
  (List.range nofBlocks).map fun block => (List.range nofLlrs).map fun n => (block, n)

/-- A launch with the turns in some order, behind the warm-up of every work-item. -/
def k5Launch (cInit : BitVec 32) (nofLlrs : Nat) (order : List (Nat × Nat)) (llr : Nat → Int) :
    Nat → Int :=
  (order.foldl (k5Step nofLlrs) { registers := fun _ => k5Warmup cInit, llr }).llr

/-! ### The blocks do not meet -/

section Launch

variable {cInit : BitVec 32} {nofBlocks nofLlrs : Nat} {order : List (Nat × Nat)} {llr : Nat → Int}

/-- The cells of a block. -/
def InBlock (nofLlrs block i : Nat) : Prop := block * nofLlrs ≤ i ∧ i < block * nofLlrs + nofLlrs

instance (nofLlrs block i : Nat) : Decidable (InBlock nofLlrs block i) :=
  inferInstanceAs (Decidable (_ ∧ _))

theorem InBlock.eq_div {block i : Nat} (inside : InBlock nofLlrs block i) : i / nofLlrs = block := by
  obtain ⟨from_start, before_end⟩ := inside
  obtain ⟨n, rfl⟩ := Nat.exists_eq_add_of_le from_start
  rw [Nat.mul_comm, Nat.mul_add_div (by omega), Nat.div_eq_of_lt (by omega), Nat.add_zero]

theorem inBlock_add {block n : Nat} (inside : n < nofLlrs) :
    InBlock nofLlrs block (block * nofLlrs + n) := by
  rw [InBlock]
  omega

theorem getElem?_k5Threads (nofBlocks nofLlrs block : Nat) :
    (k5Threads nofBlocks nofLlrs)[block]?.getD [] =
      if block < nofBlocks then (List.range nofLlrs).map fun n => (block, n) else [] := by
  rw [k5Threads, List.getElem?_map]
  split_ifs with inside
  · rw [List.getElem?_range inside]
    rfl
  · rw [List.getElem?_eq_none (by simpa using inside)]
    rfl

theorem event_inside (schedule : Interleaves (k5Threads nofBlocks nofLlrs) order)
    {event : Nat × Nat} (member : event ∈ order) : event.1 < nofBlocks ∧ event.2 < nofLlrs := by
  obtain ⟨thread, found, mine⟩ := schedule.mem_iff.mp member
  simp only [k5Threads, List.mem_map, List.mem_range] at found
  obtain ⟨block, inside, rfl⟩ := found
  simp only [List.mem_map, List.mem_range] at mine
  obtain ⟨n, less, rfl⟩ := mine
  exact ⟨inside, less⟩

/-- What a work-item sees: its registers, and the buffer as it was but for its own block. -/
def blockView (nofLlrs : Nat) (llr : Nat → Int) (block : Nat) (state : K5State) :
    OiGoldState × (Nat → Int) :=
  (state.registers block, fun i => if InBlock nofLlrs block i then state.llr i else llr i)

/-- A turn moves what its own work-item sees, and nothing that another one sees. -/
theorem blockView_k5Step (llr : Nat → Int) (block : Nat) {event : Nat × Nat}
    (inside : event.2 < nofLlrs) (state : K5State) :
    blockView nofLlrs llr block (k5Step nofLlrs state event) =
      if event.1 == block then
        k5Turn (block * nofLlrs) (blockView nofLlrs llr block state) event.2
      else blockView nofLlrs llr block state := by
  obtain ⟨owner, n⟩ := event
  have cell : InBlock nofLlrs owner (owner * nofLlrs + n) := inBlock_add inside
  by_cases mine : owner = block
  · subst mine
    rw [if_pos (beq_self_eq_true _)]
    simp only [blockView, k5Step, k5Turn, Function.update_self, if_pos cell]
    refine Prod.ext rfl (funext fun i => ?_)
    dsimp only
    split_ifs with inBlock flips flips
    · by_cases here : i = owner * nofLlrs + n
      · rw [here, Function.update_self, Function.update_self]
      · rw [Function.update_of_ne here, Function.update_of_ne here, if_pos inBlock]
    · exact (if_pos inBlock).symm
    · rw [Function.update_of_ne, if_neg inBlock]
      rintro rfl
      exact inBlock cell
    · exact (if_neg inBlock).symm
  · rw [if_neg (by simpa using mine)]
    simp only [blockView, k5Step, k5Turn]
    refine Prod.ext (Function.update_of_ne (Ne.symm mine) _ _) (funext fun i => ?_)
    dsimp only
    split_ifs with inBlock flips
    · rw [Function.update_of_ne]
      rintro rfl
      exact mine (cell.eq_div.symm.trans inBlock.eq_div)
    · rfl
    · rfl

/-- In any order of the turns, a block is what its work-item makes of it alone. -/
theorem k5Launch_block (schedule : Interleaves (k5Threads nofBlocks nofLlrs) order) {block i : Nat}
    (blockInside : block < nofBlocks) (inside : InBlock nofLlrs block i) :
    k5Launch cInit nofLlrs order llr i = k5Descramble block llr cInit nofLlrs i := by
  have owned (k : Nat) (event : Nat × Nat)
      (member : event ∈ (k5Threads nofBlocks nofLlrs)[k]?.getD []) : event.1 = k := by
    rw [getElem?_k5Threads] at member
    split_ifs at member
    · obtain ⟨n, _, rfl⟩ := List.mem_map.mp member
      rfl
    · exact absurd member List.not_mem_nil
  have turns := schedule.filter_owner owned block
  rw [getElem?_k5Threads, if_pos blockInside] at turns
  have seen := view_foldl (blockView nofLlrs llr block) (k5Step nofLlrs)
    (fun view event => k5Turn (block * nofLlrs) view event.2) (·.1 == block)
    (fun event member state => blockView_k5Step llr block (event_inside schedule member).2 state)
    { registers := fun _ => k5Warmup cInit, llr }
  rw [turns, List.foldl_map] at seen
  have start : blockView nofLlrs llr block { registers := fun _ => k5Warmup cInit, llr } =
      (k5Warmup cInit, llr) := by
    refine Prod.ext rfl (funext fun j => ?_)
    exact ite_self _
  rw [start] at seen
  have cell := congrFun (congrArg Prod.snd seen) i
  rw [k5Descramble, ← cell]
  exact (if_pos inside).symm

/-- Nothing is written behind the last block. -/
theorem k5Launch_outside (schedule : Interleaves (k5Threads nofBlocks nofLlrs) order) {i : Nat}
    (outside : nofBlocks * nofLlrs ≤ i) : k5Launch cInit nofLlrs order llr i = llr i := by
  rw [k5Launch]
  apply List.foldlRecOn (motive := fun state : K5State => state.llr i = llr i)
  · rfl
  · intro state kept event member
    obtain ⟨block, inside⟩ := event_inside schedule member
    have next : (event.1 + 1) * nofLlrs ≤ nofBlocks * nofLlrs := Nat.mul_le_mul_right _ block
    rw [Nat.succ_mul] at next
    simp only [k5Step, k5Turn]
    split_ifs
    · rw [Function.update_of_ne (by omega), kept]
    · exact kept

/-- The launch negates the LLRs at the ones of the scrambling sequence, which every block starts
anew. -/
theorem k5Launch_apply (schedule : Interleaves (k5Threads nofBlocks nofLlrs) order) {block n : Nat}
    (blockInside : block < nofBlocks) (inside : n < nofLlrs) :
    k5Launch cInit nofLlrs order llr (block * nofLlrs + n) =
      if goldBit cInit n then toChar (-llr (block * nofLlrs + n))
      else llr (block * nofLlrs + n) := by
  rw [k5Launch_block schedule blockInside (inBlock_add inside), k5Descramble_apply,
    Nat.add_sub_cancel_left]
  simp [inside]

theorem exists_block {i : Nat} (inside : i < nofBlocks * nofLlrs) :
    ∃ block < nofBlocks, ∃ n < nofLlrs, i = block * nofLlrs + n := by
  have positive : 0 < nofLlrs := by
    apply Nat.pos_of_ne_zero
    rintro rfl
    omega
  exact ⟨i / nofLlrs, (Nat.div_lt_iff_lt_mul positive).mpr inside, i % nofLlrs,
    Nat.mod_lt i positive, (Nat.div_add_mod' i nofLlrs).symm⟩

theorem agrees_neg (bit : Bool) (value : Int) : Agrees bit (-value) ↔ Agrees (!bit) value := by
  cases bit <;> simp

/-- An LLR of the scrambled bit, negated where the sequence is one, is an LLR of the bit. -/
theorem agrees_of_scrambled {bit flip : Bool} {value : Int} (agrees : Agrees (xor bit flip) value) :
    Agrees bit (if flip then -value else value) := by
  cases flip with
  | false =>
      rw [Bool.xor_false] at agrees
      rwa [if_neg (by decide)]
  | true =>
      rw [Bool.xor_true] at agrees
      rwa [if_pos rfl, agrees_neg]

/-- A launch of `k5_descramble` on any number of blocks, whose work-items take their turns in any
order.  A second launch restores the buffer; magnitudes are kept; what agreed with the scrambled
bits agrees with the bits; and every block is what its work-item makes of it alone, with the
sequence from its start. -/
theorem descramble_undoes_scrambling
    (range : ∀ i < nofBlocks * nofLlrs, -127 ≤ llr i ∧ llr i ≤ 127)
    (schedule : Interleaves (k5Threads nofBlocks nofLlrs) order) :
    let out := k5Launch cInit nofLlrs order llr
    (∀ again, Interleaves (k5Threads nofBlocks nofLlrs) again →
        k5Launch cInit nofLlrs again out = llr) ∧
      (∀ i, (out i).natAbs = (llr i).natAbs) ∧
      (∀ block < nofBlocks, ∀ n < nofLlrs,
        (∀ bit, Agrees (xor bit (goldBit cInit n)) (llr (block * nofLlrs + n)) →
          Agrees bit (out (block * nofLlrs + n))) ∧
        out (block * nofLlrs + n) = (if goldBit cInit n then -llr (block * nofLlrs + n)
          else llr (block * nofLlrs + n)) ∧
        out (block * nofLlrs + n) =
          k5Descramble block llr cInit nofLlrs (block * nofLlrs + n)) ∧
      ∀ i, nofBlocks * nofLlrs ≤ i → out i = llr i := by
  intro out
  have cell {block n : Nat} (blockInside : block < nofBlocks) (inside : n < nofLlrs) :
      out (block * nofLlrs + n) = if goldBit cInit n then -llr (block * nofLlrs + n)
        else llr (block * nofLlrs + n) := by
    have bounds : block * nofLlrs + n < nofBlocks * nofLlrs := flat_lt blockInside inside
    have char := range _ bounds
    rw [← toChar_eq (x := -llr (block * nofLlrs + n)) (by omega) (by omega)]
    exact k5Launch_apply schedule blockInside inside
  have outside {i : Nat} (behind : nofBlocks * nofLlrs ≤ i) : out i = llr i :=
    k5Launch_outside schedule behind
  refine ⟨fun again scheduleAgain => funext fun i => ?_, fun i => ?_,
    fun block blockInside n inside => ⟨fun bit agrees => ?_, cell blockInside inside, ?_⟩,
    fun i behind => outside behind⟩
  · rcases Nat.lt_or_ge i (nofBlocks * nofLlrs) with within | behind
    · have char := range i within
      obtain ⟨block, blockInside, n, inside, rfl⟩ := exists_block within
      rw [k5Launch_apply scheduleAgain blockInside inside, cell blockInside inside]
      split_ifs
      · rw [Int.neg_neg, toChar_eq (by omega) (by omega)]
      · rfl
    · rw [k5Launch_outside scheduleAgain behind, outside behind]
  · rcases Nat.lt_or_ge i (nofBlocks * nofLlrs) with within | behind
    · obtain ⟨block, blockInside, n, inside, rfl⟩ := exists_block within
      rw [cell blockInside inside]
      split_ifs
      · exact Int.natAbs_neg _
      · rfl
    · rw [outside behind]
  · rw [cell blockInside inside]
    exact agrees_of_scrambled agrees
  · exact k5Launch_block schedule blockInside (inBlock_add inside)

/-- Two blocks of infinite LLRs. -/
theorem descramble_undoes_scrambling_of_two_blocks :
    let llr : Nat → Int := fun i => if i % 2 = 0 then 127 else -127
    let order := (k5Threads 2 3).flatten
    Interleaves (k5Threads 2 3) order ∧
      k5Launch 1#32 3 order (k5Launch 1#32 3 order llr) = llr := by
  intro llr order
  have schedule := Interleaves.sequential (k5Threads 2 3)
  have range : ∀ i < 2 * 3, -127 ≤ llr i ∧ llr i ≤ 127 := by decide
  exact ⟨schedule, (descramble_undoes_scrambling range schedule).1 order schedule⟩

end Launch

end RanInline.Phy
