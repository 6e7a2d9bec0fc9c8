/-
Module: RanInline.Ldpc.Layer
Purpose: What one layer of ldpc_decode computes: the message along an edge is the extrinsic
  min-sum message of the values before the layer.  Rules that carry an invariant of the
  soft values and messages through layers, iterations and the whole kernel.
Trusted boundary: none
Main exports: LdpcShape.rowValues, extrinsicMessage, EdgeRule, along_layer,
  along_iterations
-/
import Mathlib.Data.Int.ModEq
import Mathlib.Data.List.InsertIdx
import RanInline.Ldpc.Decode
import RanInline.Lib.Straightline

namespace RanInline.Ldpc

open RanInline.Lib

/-! ### Indices -/

section Indices

variable {shape : LdpcShape}

/-- Row-major indices stay below the number of entries. -/
theorem flat_lt {i n j m : Nat} (row : i < n) (column : j < m) : i * m + j < n * m := by
  have next : (i + 1) * m ≤ n * m := Nat.mul_le_mul_right m row
  rw [Nat.succ_mul] at next
  omega

/-- Row-major indices give back the row and the column. -/
theorem flat_div_mod (i : Nat) {j m : Nat} (column : j < m) :
    (i * m + j) / m = i ∧ (i * m + j) % m = j := by
  rw [Nat.mul_comm, Nat.mul_add_div (Nat.zero_lt_of_lt column), Nat.mul_add_mod,
    Nat.div_eq_of_lt column, Nat.mod_eq_of_lt column]
  exact ⟨Nat.add_zero i, rfl⟩

theorem softInBounds {vn j : Nat} (node : vn < shape.nVnFull) (position : j < shape.ls) :
    shape.SoftInBounds vn j := by
  have inside := flat_lt node position
  have size : shape.nVnFull * shape.ls ≤ softBytes :=
    Nat.mul_le_mul shape.nVnFull_le shape.ls_le
  exact Nat.lt_of_lt_of_le inside size

theorem c2vInBounds {cn vn j : Nat} (check : cn < shape.nCn) (node : vn < shape.nVnFull)
    (position : j < shape.ls) : shape.C2vInBounds cn vn j :=
  flat_lt (flat_lt check node) position

theorem mem_edges {cn : Nat} {edge : Edge} (member : edge ∈ shape.edges cn) :
    edge.vn < shape.nVnFull := by
  simp only [LdpcShape.edges, List.mem_filterMap, List.mem_range] at member
  obtain ⟨vn, node, found⟩ := member
  split_ifs at found
  cases found
  exact node

/-- The edges of a check node end in different variable nodes. -/
theorem pairwise_edges (shape : LdpcShape) (cn : Nat) :
    (shape.edges cn).Pairwise fun first second => first.vn < second.vn := by
  rw [LdpcShape.edges, List.pairwise_filterMap]
  refine List.pairwise_lt_range.imp fun {i j} less first firstIs second secondIs => ?_
  split_ifs at firstIs secondIs
  cases firstIs
  cases secondIs
  exact less

theorem vnPosition_lt (edge : Edge) {ls r : Nat} (position : r < ls) :
    edge.vnPosition ls r < ls :=
  Nat.mod_lt _ (Nat.zero_lt_of_lt position)

theorem vnPosition_inj (edge : Edge) {ls r other : Nat} (position : r < ls)
    (positionOther : other < ls) (same : edge.vnPosition ls r = edge.vnPosition ls other) :
    r = other := by
  have congruent : r % ls = other % ls := Nat.ModEq.add_right_cancel' edge.shift same
  rwa [Nat.mod_eq_of_lt position, Nat.mod_eq_of_lt positionOther] at congruent

/-- Step B goes back to the check-node position that Step A came from. -/
theorem cnPosition_spec {edge : Edge} {ls j : Nat} (shift : edge.shift ≤ ls)
    (position : j < ls) :
    0 ≤ edge.cnPosition ls j ∧ (edge.cnPosition ls j).toNat < ls ∧
      edge.vnPosition ls (edge.cnPosition ls j).toNat = j := by
  have nonneg : (0 : Int) ≤ (j : Int) + ls - edge.shift := by omega
  have value : edge.cnPosition ls j = ((j + ls - edge.shift) % ls : Nat) := by
    rw [Edge.cnPosition, Int.tmod_eq_emod_of_nonneg nonneg]
    push_cast [Nat.le_trans shift (Nat.le_add_left ls j)]
    rfl
  have positive : 0 < ls := Nat.zero_lt_of_lt position
  rw [value, Int.toNat_natCast]
  refine ⟨Int.natCast_nonneg _, Nat.mod_lt _ positive, ?_⟩
  rw [Edge.vnPosition, Nat.mod_add_mod, Nat.sub_add_cancel (by omega), Nat.add_mod_right,
    Nat.mod_eq_of_lt position]

end Indices

/-! ### The check-node analysis -/

section Analysis

variable {shape : LdpcShape} {llr : Nat → Nat → Int} {before memory : LdpcMemory} {cn : Nat}

/-- The values a check node receives at position `r`, in the order of its edges. -/
def LdpcShape.rowValues (shape : LdpcShape) (memory : LdpcMemory) (cn r : Nat) : List Int :=
  (shape.edges cn).map fun edge => memory.v2c cn edge.vn (edge.vnPosition shape.ls r)

/-- The scratch after the first `n` edges, for position `r`. -/
def Scanned (shape : LdpcShape) (before : LdpcMemory) (cn n r : Nat) (memory : LdpcMemory) :
    Prop :=
  memory.scratch r =
      TwoMin.scan llrInf (((shape.rowValues before cn r).take n).map llrAbs) ∧
    memory.sprod r =
      parity (((shape.rowValues before cn r).take n).map fun value => decide (value < 0))

/-- The soft values, the messages and the output are as before. -/
structure Untouched (before memory : LdpcMemory) : Prop where
  soft : memory.soft = before.soft
  c2v : memory.c2v = before.c2v
  out : memory.out = before.out

/-- The state after Step A. -/
structure Analysed (shape : LdpcShape) (before : LdpcMemory) (cn : Nat)
    (memory : LdpcMemory) : Prop where
  untouched : Untouched before memory
  scanned : ∀ r < shape.ls, Scanned shape before cn (shape.edges cn).length r memory

theorem Untouched.v2c (same : Untouched before memory) (cn vn j : Nat) :
    memory.v2c cn vn j = before.v2c cn vn j := by
  rw [LdpcMemory.v2c, LdpcMemory.v2c, same.soft, same.c2v]

theorem scanned_clear (shape : LdpcShape) (before memory : LdpcMemory) (cn r : Nat) :
    Scanned shape before cn 0 r (memory.apply shape llr (.clear r)) := by
  simp [Scanned, LdpcMemory.apply, TwoMin.scan, parity]

/-- Analysing the next edge at position `r` extends the scan there. -/
theorem scanned_analyse (same : Untouched before memory) {n r : Nat} {edge : Edge}
    (found : (shape.edges cn)[n]? = some edge) (scanned : Scanned shape before cn n r memory) :
    Scanned shape before cn (n + 1) r
      (memory.apply shape llr (.analyse cn edge n r)) := by
  have value : (shape.rowValues before cn r)[n]? =
      some (memory.v2c cn edge.vn (edge.vnPosition shape.ls r)) := by
    rw [LdpcShape.rowValues, List.getElem?_map, found, same.v2c]
    rfl
  have inside := (List.getElem?_eq_some_iff.mp value).1
  have length : (((shape.rowValues before cn r).take n).map llrAbs).length = n := by
    rw [List.length_map, List.length_take]
    omega
  obtain ⟨scratch, sprod⟩ := scanned
  rw [Scanned, List.take_add_one, value, Option.toList_some, List.map_append, List.map_append,
    List.map_singleton, List.map_singleton, TwoMin.scan_append, parity_append, length, ← scratch,
    ← sprod]
  simp [LdpcMemory.apply]

/-- Another position is left alone. -/
theorem scanned_analyse_of_ne {n i r other : Nat} {edge : Edge} (ne : other ≠ r)
    (scanned : Scanned shape before cn n other memory) :
    Scanned shape before cn n other (memory.apply shape llr (.analyse cn edge i r)) := by
  simpa [Scanned, LdpcMemory.apply, ne] using scanned

theorem scanned_clear_of_ne {n r other : Nat} (ne : other ≠ r)
    (scanned : Scanned shape before cn n other memory) :
    Scanned shape before cn n other (memory.apply shape llr (.clear r)) := by
  simpa [Scanned, LdpcMemory.apply, ne] using scanned

end Analysis

/-! ### The message along an edge -/

/-- The extrinsic min-sum message: the product of the signs of the other values, zero
counting as positive, times four fifths of their least magnitude, rounded half up. -/
def extrinsicMessage (values : List Int) (index : Nat) : Int :=
  let others := values.eraseIdx index
  let mag := (4 * minimum llrInf (others.map fun value => (value.natAbs : Int)) + 2) / 5
  if parity (others.map fun value => decide (value < 0)) then -mag else mag

/-- The values a check node receives are clamped. -/
def Clamped (values : List Int) : Prop := ∀ value ∈ values, -120 ≤ value ∧ value ≤ 120

theorem clamped_v2c (memory : LdpcMemory) (cn vn j : Nat) :
    -120 ≤ memory.v2c cn vn j ∧ memory.v2c cn vn j ≤ 120 := by
  rw [LdpcMemory.v2c, llrSub_eq]
  omega

theorem clamped_rowValues (shape : LdpcShape) (memory : LdpcMemory) (cn r : Nat) :
    Clamped (shape.rowValues memory cn r) := by
  intro value member
  obtain ⟨edge, _, rfl⟩ := List.mem_map.mp member
  exact clamped_v2c memory cn _ _

/-- The least magnitude among the others, when there is another value. -/
theorem minimum_others_range {values : List Int} (clamped : Clamped values)
    (several : 2 ≤ values.length) (index : Nat) :
    0 ≤ minimum llrInf ((values.eraseIdx index).map fun value => (value.natAbs : Int)) ∧
      minimum llrInf ((values.eraseIdx index).map fun value => (value.natAbs : Int)) ≤ 120 := by
  have nonempty : values.eraseIdx index ≠ [] := by
    intro empty
    have := congrArg List.length empty
    rw [List.length_eraseIdx, List.length_nil] at this
    split_ifs at this <;> omega
  obtain ⟨value, member⟩ := List.exists_mem_of_ne_nil _ nonempty
  have range := clamped value (List.mem_of_mem_eraseIdx member)
  have upper : minimum llrInf ((values.eraseIdx index).map fun value => (value.natAbs : Int)) ≤
      value.natAbs := minimum_le (List.mem_map_of_mem member)
  refine ⟨?_, by omega⟩
  rcases minimum_mem llrInf ((values.eraseIdx index).map fun value => (value.natAbs : Int)) with
    none | inside
  · rw [none]
    decide
  · obtain ⟨other, _, same⟩ := List.mem_map.mp inside
    rw [← same]
    exact Int.natCast_nonneg _

/-- What Step B computes along an edge is the extrinsic message of the analysed values. -/
theorem newMessage_eq {memory : LdpcMemory} {values : List Int} {cn vn vni j r : Nat}
    (scratch : memory.scratch r = TwoMin.scan llrInf (values.map llrAbs))
    (sprod : memory.sprod r = parity (values.map fun value => decide (value < 0)))
    (clamped : Clamped values) (several : 2 ≤ values.length)
    (found : values[vni]? = some (memory.v2c cn vn j)) :
    memory.newMessage cn vn vni j r = extrinsicMessage values vni := by
  have inside := (List.getElem?_eq_some_iff.mp found).1
  have abs : values.map llrAbs = values.map fun value => (value.natAbs : Int) := by
    refine List.map_congr_left fun value member => ?_
    have range := clamped value member
    exact llrAbs_eq (by omega) (by omega)
  have least : (memory.scratch r).select vni =
      minimum llrInf ((values.eraseIdx vni).map fun value => (value.natAbs : Int)) := by
    rw [scratch, abs, TwoMin.select_scan llrInf (by simpa using inside), List.eraseIdx_map]
  have sign : xor (memory.sprod r) (decide (memory.v2c cn vn j < 0)) =
      parity ((values.eraseIdx vni).map fun value => decide (value < 0)) := by
    have flag : (values.map fun value => decide (value < 0))[vni]? =
        some (decide (memory.v2c cn vn j < 0)) := by
      rw [List.getElem?_map, found]
      rfl
    rw [← List.eraseIdx_map, parity_eraseIdx flag, sprod]
  obtain ⟨nonneg, small⟩ := minimum_others_range clamped several vni
  rw [LdpcMemory.newMessage, least, sign, llrScale_eq nonneg small, extrinsicMessage]
  split_ifs
  · exact toChar_eq (by omega) (by omega)
  · rfl

/-! ### Rules for the parts of the kernel -/

section Rules

variable {shape : LdpcShape} {llr : Nat → Nat → Int} {before : LdpcMemory} {cn : Nat}
  {good : (Nat → Nat → Int) → (Nat → Nat → Nat → Int) → Prop}
  {moves : (Nat → Nat → Int) → (Nat → Nat → Int) → Prop}

/-- Along a part of the kernel, `good` holds of the soft values and messages in every state
and every step moves the soft values by `moves`. -/
def LdpcAlong (shape : LdpcShape) (llr : Nat → Nat → Int)
    (good : (Nat → Nat → Int) → (Nat → Nat → Nat → Int) → Prop)
    (moves : (Nat → Nat → Int) → (Nat → Nat → Int) → Prop) (final : LdpcMemory → Prop) :
    List LdpcOp → LdpcMemory → Prop :=
  Along (ldpcExec shape llr) (fun memory => good memory.soft memory.c2v)
    (fun memory next => moves memory.soft next.soft) final

/-- An assignment that leaves the soft values and messages alone. -/
theorem along_untouched {op : LdpcOp} {memory : LdpcMemory} {final : LdpcMemory → Prop}
    (refl : ∀ soft, moves soft soft) (holds : good memory.soft memory.c2v)
    (inBounds : op.InBounds shape)
    (soft : (memory.apply shape llr op).soft = memory.soft)
    (c2v : (memory.apply shape llr op).c2v = memory.c2v)
    (ends : final (memory.apply shape llr op)) :
    LdpcAlong shape llr good moves final [op] memory := by
  refine Along.single holds (if_pos inBounds) ?_ ?_ ends
  · rw [soft]
    exact refl _
  · rw [soft, c2v]
    exact holds

/-- Step A. -/
theorem along_analysis (refl : ∀ soft, moves soft soft) (check : cn < shape.nCn)
    (holds : good before.soft before.c2v) :
    LdpcAlong shape llr good moves (Analysed shape before cn)
      (((List.range shape.ls).flatMap fun r => [.clear r]) ++ shape.analysisOps cn) before := by
  have cleared : LdpcAlong shape llr good moves
      (fun memory => Untouched before memory ∧
        ∀ r < shape.ls, Scanned shape before cn 0 r memory)
      ((List.range shape.ls).flatMap fun r => [.clear r]) before := by
    refine Along.forRange
      (fun i memory => Untouched before memory ∧ ∀ r < i, Scanned shape before cn 0 r memory)
      ?_ holds ⟨⟨rfl, rfl, rfl⟩, by simp⟩
    rintro i less memory ⟨same, scanned⟩
    refine along_untouched refl (by rwa [same.soft, same.c2v])
      (Nat.lt_of_lt_of_le less shape.ls_le) rfl rfl ⟨⟨same.soft, same.c2v, same.out⟩, ?_⟩
    intro r below
    by_cases here : r = i
    · subst here
      exact scanned_clear shape before memory cn r
    · exact scanned_clear_of_ne here (scanned r (by omega))
  refine cleared.append fun memory reached => ?_
  refine (Along.forEachIdx
    (fun n memory => Untouched before memory ∧
      ∀ r < shape.ls, Scanned shape before cn n r memory) ?_ ?_ reached).mono
    fun _ _ done => ⟨done.1, done.2⟩
  · rintro n edge found memory ⟨same, scanned⟩
    have node := mem_edges (List.mem_of_getElem? found)
    refine (Along.forRange
      (fun i memory => Untouched before memory ∧
        (∀ r < i, Scanned shape before cn (n + 1) r memory) ∧
        ∀ r < shape.ls, i ≤ r → Scanned shape before cn n r memory) ?_ ?_ ?_).mono
      fun _ _ done => ⟨done.1, done.2.1⟩
    · rintro i less memory ⟨same, new, old⟩
      have position := vnPosition_lt edge less
      refine along_untouched refl (by rwa [same.soft, same.c2v])
        ⟨Nat.lt_of_lt_of_le less shape.ls_le, softInBounds node position,
          c2vInBounds check node position⟩ rfl rfl
        ⟨⟨same.soft, same.c2v, same.out⟩, ?_, ?_⟩
      · intro r below
        by_cases here : r = i
        · subst here
          exact scanned_analyse same found (old r less (Nat.le_refl r))
        · exact scanned_analyse_of_ne here (new r (by omega))
      · intro r below above
        exact scanned_analyse_of_ne (by omega) (old r below (by omega))
    · rwa [same.soft, same.c2v]
    · exact ⟨same, by simp, fun r below _ => scanned r below⟩
  · rwa [reached.1.soft, reached.1.c2v]

/-- The rows and shifts the decoder is made for: every check node has another value to
offer along each edge, and no shift exceeds the lifting size. -/
structure Regular (shape : LdpcShape) : Prop where
  rows : ∀ cn < shape.nCn, 2 ≤ (shape.edges cn).length
  shifts : ∀ cn < shape.nCn, ∀ edge ∈ shape.edges cn, edge.shift ≤ shape.ls

theorem two_le_length_rowValues {shape : LdpcShape} (regular : Regular shape)
    (memory : LdpcMemory) {cn : Nat} (check : cn < shape.nCn) (r : Nat) :
    2 ≤ (shape.rowValues memory cn r).length := by
  rw [LdpcShape.rowValues, List.length_map]
  exact regular.rows cn check

/-- The message that the layer of `cn` sends along an edge to position `j`, computed from
the state before the layer. -/
def LdpcShape.message (shape : LdpcShape) (before : LdpcMemory) (cn vni : Nat) (edge : Edge)
    (j : Nat) : Int :=
  extrinsicMessage (shape.rowValues before cn (edge.cnPosition shape.ls j).toNat) vni

/-- The soft values after an edge update. -/
def updatedSoft (soft : Nat → Nat → Int) (vn j : Nat) (new old : Int) : Nat → Nat → Int :=
  store soft vn j (llrAdd (soft vn j) (llrSub new old))

/-- The messages after an edge update. -/
def updatedC2v (c2v : Nat → Nat → Nat → Int) (cn vn j : Nat) (new : Int) :
    Nat → Nat → Nat → Int :=
  Function.update c2v cn (store (c2v cn) vn j new)

/-- What an invariant has to show for the edges of one layer.  An edge is updated when the
soft value and the message it reads are still those from before the layer. -/
def EdgeRule (shape : LdpcShape)
    (good invariant : (Nat → Nat → Int) → (Nat → Nat → Nat → Int) → Prop)
    (moves : (Nat → Nat → Int) → (Nat → Nat → Int) → Prop) (before : LdpcMemory)
    (cn : Nat) : Prop :=
  ∀ (soft : Nat → Nat → Int) (c2v : Nat → Nat → Nat → Int) (vni : Nat) (edge : Edge) (j : Nat),
    (shape.edges cn)[vni]? = some edge → j < shape.ls →
    soft edge.vn j = before.soft edge.vn j → c2v cn edge.vn j = before.c2v cn edge.vn j →
    invariant soft c2v →
    let new := shape.message before cn vni edge j
    let soft' := updatedSoft soft edge.vn j new (c2v cn edge.vn j)
    let c2v' := updatedC2v c2v cn edge.vn j new
    moves soft soft' ∧ good soft' c2v ∧ good soft' c2v' ∧ invariant soft' c2v'

/-- The edges of the layer that have not been updated still have their values. -/
def Pending (shape : LdpcShape) (before : LdpcMemory) (cn n i : Nat) (memory : LdpcMemory) :
    Prop :=
  ∀ (vni : Nat) (edge : Edge), (shape.edges cn)[vni]? = some edge → ∀ j < shape.ls,
    n < vni ∨ vni = n ∧ i ≤ j →
    memory.soft edge.vn j = before.soft edge.vn j ∧
      memory.c2v cn edge.vn j = before.c2v cn edge.vn j

/-- The edges of the layer that have been updated hold their new messages. -/
def Stored (shape : LdpcShape) (before : LdpcMemory) (cn n i : Nat) (memory : LdpcMemory) :
    Prop :=
  ∀ (vni : Nat) (edge : Edge), (shape.edges cn)[vni]? = some edge → ∀ j < shape.ls,
    vni < n ∨ vni = n ∧ j < i →
    memory.c2v cn edge.vn j = shape.message before cn vni edge j

/-- The state of Step B when the edges before number `n`, and position `i` of that one, are
done. -/
structure Updating (shape : LdpcShape)
    (good invariant : (Nat → Nat → Int) → (Nat → Nat → Nat → Int) → Prop)
    (before : LdpcMemory) (cn n i : Nat) (memory : LdpcMemory) : Prop where
  holds : good memory.soft memory.c2v
  keeps : invariant memory.soft memory.c2v
  scanned : ∀ r < shape.ls, Scanned shape before cn (shape.edges cn).length r memory
  pending : Pending shape before cn n i memory

variable {invariant : (Nat → Nat → Int) → (Nat → Nat → Nat → Int) → Prop}
  {memory : LdpcMemory} {n i : Nat} {edge : Edge}

/-- The variable node of an edge gives its number. -/
theorem index_eq_of_vn_eq {m : Nat} {other : Edge} (found : (shape.edges cn)[n]? = some edge)
    (foundOther : (shape.edges cn)[m]? = some other) (same : other.vn = edge.vn) : m = n := by
  obtain ⟨inside, rfl⟩ := List.getElem?_eq_some_iff.mp found
  obtain ⟨insideOther, rfl⟩ := List.getElem?_eq_some_iff.mp foundOther
  have increasing := List.pairwise_iff_getElem.mp (pairwise_edges shape cn)
  rcases Nat.lt_trichotomy m n with less | equal | greater
  · exact absurd same (Nat.ne_of_lt (increasing m n insideOther inside less))
  · exact equal
  · exact absurd same.symm (Nat.ne_of_lt (increasing n m inside insideOther greater))

/-- An edge whose turn has not come is not touched by an update. -/
theorem Pending.update (pending : Pending shape before cn n i memory)
    (found : (shape.edges cn)[n]? = some edge) {final : LdpcMemory} {new old : Int}
    (soft : final.soft = updatedSoft memory.soft edge.vn i new old)
    (c2v : final.c2v = updatedC2v memory.c2v cn edge.vn i new) :
    Pending shape before cn n (i + 1) final := by
  intro vni other foundOther j position turn
  have apart : ¬ (other.vn = edge.vn ∧ j = i) := by
    rintro ⟨sameNode, rfl⟩
    have sameIndex := index_eq_of_vn_eq found foundOther sameNode
    omega
  obtain ⟨softSame, c2vSame⟩ := pending vni other foundOther j position (by omega)
  constructor
  · rw [soft, updatedSoft, store_apply, if_neg apart, softSame]
  · rw [c2v, updatedC2v, Function.update_self, store_apply, if_neg apart, c2vSame]

/-- The update of an edge stores its message and leaves the stored ones alone. -/
theorem Stored.update (stored : Stored shape before cn n i memory)
    (found : (shape.edges cn)[n]? = some edge) {final : LdpcMemory}
    (c2v : final.c2v = updatedC2v memory.c2v cn edge.vn i (shape.message before cn n edge i)) :
    Stored shape before cn n (i + 1) final := by
  intro vni other foundOther j position turn
  rw [c2v, updatedC2v, Function.update_self, store_apply]
  split_ifs with here
  · obtain ⟨sameNode, rfl⟩ := here
    obtain rfl := index_eq_of_vn_eq found foundOther sameNode
    obtain rfl : edge = other := Option.some.inj (found.symm.trans foundOther)
    rfl
  · refine stored vni other foundOther j position ?_
    rcases turn with earlier | ⟨rfl, less⟩
    · exact .inl earlier
    · obtain rfl : edge = other := Option.some.inj (found.symm.trans foundOther)
      exact .inr ⟨rfl, by omega⟩

/-- The message computed in Step B. -/
theorem Updating.newMessage_eq (updating : Updating shape good invariant before cn n i memory)
    (regular : Regular shape) (check : cn < shape.nCn)
    (found : (shape.edges cn)[n]? = some edge) (position : i < shape.ls) :
    memory.newMessage cn edge.vn n i (edge.cnPosition shape.ls i).toNat =
      shape.message before cn n edge i := by
  have member := List.mem_of_getElem? found
  obtain ⟨_, inside, back⟩ := cnPosition_spec (regular.shifts cn check edge member) position
  obtain ⟨softSame, c2vSame⟩ := updating.pending n edge found i position (.inr ⟨rfl, Nat.le_refl i⟩)
  obtain ⟨scratch, sprod⟩ := updating.scanned _ inside
  have length : (shape.rowValues before cn (edge.cnPosition shape.ls i).toNat).length =
      (shape.edges cn).length := List.length_map _
  rw [List.take_of_length_le (Nat.le_of_eq length)] at scratch sprod
  refine Ldpc.newMessage_eq scratch sprod (clamped_rowValues shape before cn _)
    (length ▸ regular.rows cn check) ?_
  rw [LdpcShape.rowValues, List.getElem?_map, found, LdpcMemory.v2c, softSame, c2vSame]
  simp only [Option.map_some, back]
  rfl

/-- One edge update. -/
theorem Updating.along_edge (updating : Updating shape good invariant before cn n i memory)
    (stored : Stored shape before cn n i memory) (refl : ∀ soft, moves soft soft)
    (regular : Regular shape) (check : cn < shape.nCn)
    (rule : EdgeRule shape good invariant moves before cn)
    (found : (shape.edges cn)[n]? = some edge) (position : i < shape.ls) :
    LdpcAlong shape llr good moves
      (fun final => Updating shape good invariant before cn n (i + 1) final ∧
        Stored shape before cn n (i + 1) final)
      [.updateSoft cn edge n i, .storeC2v cn edge i] memory := by
  have member := List.mem_of_getElem? found
  have node := mem_edges member
  have inC2v := c2vInBounds check node position
  obtain ⟨nonneg, inside, _⟩ := cnPosition_spec (regular.shifts cn check edge member) position
  have small : edge.cnPosition shape.ls i < maxLs := by
    have := shape.ls_le
    omega
  have new := updating.newMessage_eq regular check found position
  obtain ⟨softSame, c2vSame⟩ := updating.pending n edge found i position (.inr ⟨rfl, Nat.le_refl i⟩)
  obtain ⟨moved, goodSoft, goodBoth, kept⟩ := rule memory.soft memory.c2v n edge i found position
    softSame c2vSame updating.keeps
  rw [← new] at moved goodSoft goodBoth kept
  refine ⟨updating.holds, memory.apply shape llr (.updateSoft cn edge n i),
    if_pos ⟨nonneg, small, softInBounds node position, inC2v⟩, moved, goodSoft,
    (memory.apply shape llr (.updateSoft cn edge n i)).apply shape llr (.storeC2v cn edge i),
    if_pos inC2v, refl _, goodBoth, ⟨goodBoth, kept, updating.scanned, ?_⟩, ?_⟩
  · exact updating.pending.update found rfl rfl
  · exact stored.update found (by rw [← new]; rfl)

/-- Step B. -/
theorem along_update (refl : ∀ soft, moves soft soft) (regular : Regular shape)
    (check : cn < shape.nCn) (rule : EdgeRule shape good invariant moves before cn)
    (updating : Updating shape good invariant before cn 0 0 memory) :
    LdpcAlong shape llr good moves
      (fun final => invariant final.soft final.c2v ∧
        Stored shape before cn (shape.edges cn).length 0 final)
      (shape.updateOps cn) memory := by
  refine (Along.forEachIdx
    (fun n memory => Updating shape good invariant before cn n 0 memory ∧
      Stored shape before cn n 0 memory) ?_ updating.holds ⟨updating, ?_⟩).mono
    fun _ _ final => ⟨final.1.keeps, final.2⟩
  · rintro n edge found memory ⟨updating, stored⟩
    refine (Along.forRange
      (fun i memory => Updating shape good invariant before cn n i memory ∧
        Stored shape before cn n i memory) ?_ updating.holds ⟨updating, stored⟩).mono
      fun _ _ final => ?_
    · rintro i position memory ⟨updating, stored⟩
      exact updating.along_edge stored refl regular check rule found position
    · obtain ⟨final, stored⟩ := final
      refine ⟨⟨final.holds, final.keeps, final.scanned, ?_⟩, ?_⟩
      · intro vni other foundOther j position turn
        exact final.pending vni other foundOther j position (by omega)
      · intro vni other foundOther j position turn
        exact stored vni other foundOther j position (by omega)
  · intro vni other foundOther j position turn
    exact absurd turn (by omega)

/-- A layer keeps an invariant that every edge update keeps, and stores the message of every
edge. -/
theorem along_layer (refl : ∀ soft, moves soft soft) (regular : Regular shape)
    (check : cn < shape.nCn) (rule : EdgeRule shape good invariant moves before cn)
    (holds : good before.soft before.c2v) (keeps : invariant before.soft before.c2v) :
    LdpcAlong shape llr good moves
      (fun final => invariant final.soft final.c2v ∧
        Stored shape before cn (shape.edges cn).length 0 final)
      (shape.layerOps cn) before := by
  rw [LdpcShape.layerOps, ← List.append_assoc]
  refine (along_analysis refl check holds).append fun memory analysed => ?_
  refine along_update refl regular check rule ⟨?_, ?_, analysed.scanned, ?_⟩
  · rwa [analysed.untouched.soft, analysed.untouched.c2v]
  · rwa [analysed.untouched.soft, analysed.untouched.c2v]
  · intro vni edge _ j _ _
    rw [analysed.untouched.soft, analysed.untouched.c2v]
    exact ⟨rfl, rfl⟩

section Layers

variable {inside : LdpcMemory → (Nat → Nat → Int) → (Nat → Nat → Nat → Int) → Prop}

/-- So do the layers one after the other.  Within a layer the invariant may refer to the state
before the layer. -/
theorem along_layers (refl : ∀ soft, moves soft soft) (regular : Regular shape)
    (implies : ∀ soft c2v, invariant soft c2v → good soft c2v)
    (enter : ∀ before : LdpcMemory, invariant before.soft before.c2v →
      inside before before.soft before.c2v)
    (leave : ∀ before soft c2v, inside before soft c2v → invariant soft c2v)
    (rule : ∀ (before : LdpcMemory), ∀ cn < shape.nCn, invariant before.soft before.c2v →
      EdgeRule shape good (inside before) moves before cn)
    {count : Nat} (within : count ≤ shape.nCn) (keeps : invariant before.soft before.c2v) :
    LdpcAlong shape llr good moves (fun final => invariant final.soft final.c2v)
      ((List.range count).flatMap shape.layerOps) before := by
  refine Along.forRange (fun _ (memory : LdpcMemory) => invariant memory.soft memory.c2v) ?_
    (implies _ _ keeps) keeps
  intro cn less memory keeps
  have check := Nat.lt_of_lt_of_le less within
  exact (along_layer refl regular check (rule memory cn check keeps) (implies _ _ keeps)
    (enter memory keeps)).mono fun final _ ended => leave memory final.soft final.c2v ended.1

/-- And any number of iterations. -/
theorem along_iterations (refl : ∀ soft, moves soft soft) (regular : Regular shape)
    (implies : ∀ soft c2v, invariant soft c2v → good soft c2v)
    (enter : ∀ before : LdpcMemory, invariant before.soft before.c2v →
      inside before before.soft before.c2v)
    (leave : ∀ before soft c2v, inside before soft c2v → invariant soft c2v)
    (rule : ∀ (before : LdpcMemory), ∀ cn < shape.nCn, invariant before.soft before.c2v →
      EdgeRule shape good (inside before) moves before cn)
    (nIter : Nat) (keeps : invariant before.soft before.c2v) :
    LdpcAlong shape llr good moves (fun final => invariant final.soft final.c2v)
      (shape.iterationOps nIter) before := by
  refine Along.forRange (fun _ (memory : LdpcMemory) => invariant memory.soft memory.c2v) ?_
    (implies _ _ keeps) keeps
  intro _ _ memory keeps
  exact along_layers refl regular implies enter leave rule (Nat.le_refl _) keeps

end Layers

end Rules

end RanInline.Ldpc
