/-
Module: RanInline.Ldpc.SignConsistent
Purpose: ldpc_decode never turns a right decision wrong: LLRs that do not contradict a
  codeword give soft values and messages that do not contradict it, at every step.
Trusted boundary: none
Main exports: Agrees, NodeSound, IsCodeword, DecoderSound, ldpc_decode_agrees
-/
import Mathlib.Algebra.BigOperators.Group.Finset.Piecewise
import Mathlib.Algebra.Order.BigOperators.Group.Finset
import RanInline.Ldpc.Kernel

namespace RanInline.Ldpc

open RanInline.Lib

/-- The value does not contradict the bit: zero agrees with both. -/
def Agrees : Bool → Int → Prop
  | false, value => 0 ≤ value
  | true, value => value ≤ 0

instance : (bit : Bool) → (value : Int) → Decidable (Agrees bit value)
  | false, value => inferInstanceAs (Decidable (0 ≤ value))
  | true, value => inferInstanceAs (Decidable (value ≤ 0))

@[simp]
theorem agrees_false (value : Int) : Agrees false value ↔ 0 ≤ value := Iff.rfl

@[simp]
theorem agrees_true (value : Int) : Agrees true value ↔ value ≤ 0 := Iff.rfl

theorem agrees_sum {bit : Bool} {checks : Finset Nat} {messages : Nat → Int}
    (agrees : ∀ cn ∈ checks, Agrees bit (messages cn)) :
    Agrees bit (∑ cn ∈ checks, messages cn) := by
  cases bit with
  | false => exact Finset.sum_nonneg agrees
  | true => exact Finset.sum_nonpos agrees

/-! ### One variable node position -/

/-- The infinite soft value of a bit. -/
def stickyOf (bit : Bool) : Int := if bit then -127 else 127

/-- A soft value is the sum of the channel LLR and the messages stored for it, or the
infinity of the right sign, and none of them contradicts the bit. -/
structure NodeSound (nCn : Nat) (bit : Bool) (llr soft : Int) (messages : Nat → Int) :
    Prop where
  channel : Agrees bit llr
  agrees : ∀ cn < nCn, Agrees bit (messages cn)
  range : ∀ cn < nCn, MessageRange (messages cn)
  value : soft = stickyOf bit ∨
    -120 ≤ soft ∧ soft ≤ 120 ∧ soft = llr + ∑ cn ∈ Finset.range nCn, messages cn

namespace NodeSound

variable {nCn cn other : Nat} {bit : Bool} {llr soft new : Int} {messages : Nat → Int}

/-- The part of a finite soft value that does not come from one check node. -/
theorem rest_agrees (sound : NodeSound nCn bit llr soft messages) (check : cn < nCn)
    (finite : soft = llr + ∑ cn ∈ Finset.range nCn, messages cn) :
    Agrees bit (soft - messages cn) := by
  have others : Agrees bit (∑ cn ∈ (Finset.range nCn).erase cn, messages cn) :=
    agrees_sum fun cn member =>
      sound.agrees cn (Finset.mem_range.mp (Finset.mem_of_mem_erase member))
  have split := Finset.add_sum_erase (Finset.range nCn) messages (Finset.mem_range.mpr check)
  have channel := sound.channel
  cases bit <;> simp only [agrees_false, agrees_true] at * <;> omega

/-- The part that does not come from either of two check nodes. -/
theorem rest_agrees_two (sound : NodeSound nCn bit llr soft messages) (check : cn < nCn)
    (checkOther : other < nCn) (ne : other ≠ cn)
    (finite : soft = llr + ∑ cn ∈ Finset.range nCn, messages cn) :
    Agrees bit (soft - messages cn - messages other) := by
  have others : Agrees bit (∑ cn ∈ ((Finset.range nCn).erase cn).erase other, messages cn) :=
    agrees_sum fun cn member => sound.agrees cn
      (Finset.mem_range.mp (Finset.mem_of_mem_erase (Finset.mem_of_mem_erase member)))
  have split := Finset.add_sum_erase (Finset.range nCn) messages (Finset.mem_range.mpr check)
  have splitOther := Finset.add_sum_erase ((Finset.range nCn).erase cn) messages
    (Finset.mem_erase.mpr ⟨ne, Finset.mem_range.mpr checkOther⟩)
  have channel := sound.channel
  cases bit <;> simp only [agrees_false, agrees_true] at * <;> omega

/-- The value a variable node sends to a check node agrees with the bit. -/
theorem extrinsic_agrees (sound : NodeSound nCn bit llr soft messages) (check : cn < nCn) :
    Agrees bit (soft - messages cn) := by
  rcases sound.value with sticky | ⟨_, _, finite⟩
  · have range := sound.range cn check
    rw [MessageRange] at range
    cases bit <;> simp [stickyOf] at sticky <;> simp only [agrees_false, agrees_true] <;> omega
  · exact sound.rest_agrees check finite

theorem soft_agrees (sound : NodeSound nCn bit llr soft messages) : Agrees bit soft := by
  rcases sound.value with sticky | ⟨_, _, finite⟩
  · cases bit <;> simp [stickyOf] at sticky <;> simp [sticky]
  · have sum : Agrees bit (∑ cn ∈ Finset.range nCn, messages cn) :=
      agrees_sum fun cn member => sound.agrees cn (Finset.mem_range.mp member)
    have channel := sound.channel
    cases bit <;> simp only [agrees_false, agrees_true] at * <;> omega

theorem softRange (sound : NodeSound nCn bit llr soft messages) : SoftRange soft := by
  rcases sound.value with sticky | ⟨lower, upper, _⟩
  · cases bit <;> simp [stickyOf] at sticky <;> simp [SoftRange, sticky]
  · exact .inl ⟨lower, upper⟩

/-- The soft value after the message of one check node was replaced: it stays infinite, or
it is the new sum unless that is too large. -/
theorem llrAdd_cases (sound : NodeSound nCn bit llr soft messages) (check : cn < nCn)
    (agrees : Agrees bit new) (range : MessageRange new) :
    llrAdd soft (llrSub new (messages cn)) = stickyOf bit ∨
      -120 ≤ llrAdd soft (llrSub new (messages cn)) ∧
        llrAdd soft (llrSub new (messages cn)) ≤ 120 ∧
        llrAdd soft (llrSub new (messages cn)) = soft - messages cn + new ∧
        soft = llr + ∑ cn ∈ Finset.range nCn, messages cn := by
  have oldAgrees := sound.agrees cn check
  have oldRange := sound.range cn check
  rw [MessageRange] at range oldRange
  have exact : llrSub new (messages cn) = new - messages cn := by
    rw [llrSub_eq]
    cases bit <;> simp only [agrees_false, agrees_true] at agrees oldAgrees <;> omega
  have small : -120 ≤ llrSub new (messages cn) ∧ llrSub new (messages cn) ≤ 120 := by
    rw [llrSub_eq]
    omega
  rw [llrAdd_eq sound.softRange small, exact]
  rcases sound.value with sticky | ⟨lower, upper, finite⟩
  · left
    rw [if_pos (by cases bit <;> simp [stickyOf] at sticky <;> simp [sticky]), sticky]
  · have rest := sound.rest_agrees check finite
    rw [if_neg (by omega)]
    split_ifs with above below
    · left
      cases bit with
      | false => rfl
      | true =>
          simp only [agrees_true] at rest agrees
          omega
    · left
      cases bit with
      | false =>
          simp only [agrees_false] at rest agrees
          omega
      | true => rfl
    · exact .inr ⟨by omega, by omega, by omega, finite⟩

/-- Replacing one message keeps the node sound. -/
theorem update (sound : NodeSound nCn bit llr soft messages) (check : cn < nCn)
    (agrees : Agrees bit new) (range : MessageRange new) :
    NodeSound nCn bit llr (llrAdd soft (llrSub new (messages cn)))
      (Function.update messages cn new) := by
  refine ⟨sound.channel, fun other inside => ?_, fun other inside => ?_, ?_⟩
  · rw [Function.update_apply]
    split_ifs
    · exact agrees
    · exact sound.agrees other inside
  · rw [Function.update_apply]
    split_ifs
    · exact range
    · exact sound.range other inside
  · rcases sound.llrAdd_cases check agrees range with sticky | ⟨lower, upper, value, finite⟩
    · exact .inl sticky
    · refine .inr ⟨lower, upper, ?_⟩
      have old := Finset.add_sum_erase (Finset.range nCn) messages (Finset.mem_range.mpr check)
      rw [Finset.sum_update_of_mem (Finset.mem_range.mpr check), ← Finset.erase_eq, value]
      omega

theorem stickyOf_ne_zero (bit : Bool) : stickyOf bit ≠ 0 := by
  cases bit <;> decide

/-- When a message is replaced and none is withdrawn, a nonzero soft value stays
nonzero. -/
theorem llrAdd_ne_zero (sound : NodeSound nCn bit llr soft messages) (check : cn < nCn)
    (agrees : Agrees bit new) (range : MessageRange new) (grows : messages cn ≠ 0 → new ≠ 0)
    (nonzero : soft ≠ 0) : llrAdd soft (llrSub new (messages cn)) ≠ 0 := by
  rcases sound.llrAdd_cases check agrees range with sticky | ⟨_, _, value, finite⟩
  · rw [sticky]
    exact stickyOf_ne_zero bit
  · have rest := sound.rest_agrees check finite
    rw [value]
    cases bit <;> simp only [agrees_false, agrees_true] at rest agrees <;> omega

/-- A node that holds a nonzero message is known. -/
theorem soft_ne_zero (sound : NodeSound nCn bit llr soft messages) (check : cn < nCn)
    (message : messages cn ≠ 0) : soft ≠ 0 := by
  rcases sound.value with sticky | ⟨_, _, finite⟩
  · rw [sticky]
    exact stickyOf_ne_zero bit
  · have rest := sound.rest_agrees check finite
    have agrees := sound.agrees cn check
    cases bit <;> simp only [agrees_false, agrees_true] at rest agrees <;> omega

/-- So does the value sent to any check node. -/
theorem extrinsic_ne_zero (sound : NodeSound nCn bit llr soft messages) (check : cn < nCn)
    (agrees : Agrees bit new) (range : MessageRange new) (grows : messages cn ≠ 0 → new ≠ 0)
    (checkOther : other < nCn) (nonzero : soft - messages other ≠ 0) :
    llrAdd soft (llrSub new (messages cn)) - Function.update messages cn new other ≠ 0 := by
  have otherRange := (sound.update check agrees range).range other checkOther
  rw [MessageRange] at otherRange
  rcases sound.llrAdd_cases check agrees range with sticky | ⟨_, _, value, finite⟩
  · rw [sticky, stickyOf]
    cases bit <;> simp only [Bool.false_eq_true, if_false, if_true] <;> omega
  · rw [value]
    by_cases same : other = cn
    · subst same
      rw [Function.update_self]
      omega
    · rw [Function.update_of_ne same]
      have rest := sound.rest_agrees_two check checkOther same finite
      cases bit <;> simp only [agrees_false, agrees_true] at rest agrees <;> omega

end NodeSound

/-! ### One check node position -/

section Check

variable {values : List Int} {bits : List Bool} {index : Nat}

theorem extrinsicMessage_range (clamped : Clamped values) (several : 2 ≤ values.length)
    (index : Nat) : MessageRange (extrinsicMessage values index) := by
  obtain ⟨nonneg, small⟩ := minimum_others_range clamped several index
  rw [extrinsicMessage, MessageRange]
  split_ifs <;> omega

/-- A message is withheld exactly when another value is zero. -/
theorem extrinsicMessage_ne_zero_iff (clamped : Clamped values) (several : 2 ≤ values.length) :
    extrinsicMessage values index ≠ 0 ↔ ∀ value ∈ values.eraseIdx index, value ≠ 0 := by
  obtain ⟨nonneg, small⟩ := minimum_others_range clamped several index
  have magnitude : extrinsicMessage values index ≠ 0 ↔
      minimum llrInf ((values.eraseIdx index).map fun value => (value.natAbs : Int)) ≠ 0 := by
    rw [extrinsicMessage]
    split_ifs <;> omega
  rw [magnitude]
  constructor
  · rintro positive value member rfl
    have least : minimum llrInf
        ((values.eraseIdx index).map fun value => (value.natAbs : Int)) ≤ 0 :=
      minimum_le (List.mem_map.mpr ⟨0, member, rfl⟩)
    omega
  · intro nonzero zero
    rcases minimum_mem llrInf ((values.eraseIdx index).map fun value => (value.natAbs : Int))
      with none | inside
    · rw [none] at zero
      exact absurd zero (by decide)
    · obtain ⟨value, member, same⟩ := List.mem_map.mp inside
      rw [zero] at same
      exact nonzero value member (by omega)

/-- The signs of nonzero values are the bits they agree with. -/
theorem map_sign_eq (agree : List.Forall₂ Agrees bits values)
    (nonzero : ∀ value ∈ values, value ≠ 0) :
    values.map (fun value => decide (value < 0)) = bits := by
  induction agree with
  | nil => rfl
  | @cons bit value bits values agrees _ inductionHypothesis =>
      rw [List.map_cons, inductionHypothesis fun other member =>
        nonzero other (List.mem_cons_of_mem _ member)]
      have := nonzero value List.mem_cons_self
      congr 1
      cases bit <;> simp only [agrees_false, agrees_true] at agrees <;> simp <;> omega

theorem forall₂_eraseIdx (agree : List.Forall₂ Agrees bits values) (index : Nat) :
    List.Forall₂ Agrees (bits.eraseIdx index) (values.eraseIdx index) := by
  induction agree generalizing index with
  | nil => exact .nil
  | cons agrees rest inductionHypothesis =>
      cases index with
      | zero => exact rest
      | succ index => exact .cons agrees (inductionHypothesis index)

/-- A message to a check that is satisfied agrees with the bit of its edge. -/
theorem extrinsicMessage_agrees (clamped : Clamped values) (several : 2 ≤ values.length)
    (agree : List.Forall₂ Agrees bits values) (even : parity bits = false) {bit : Bool}
    (found : bits[index]? = some bit) : Agrees bit (extrinsicMessage values index) := by
  by_cases withheld : extrinsicMessage values index = 0
  · rw [withheld]
    cases bit <;> simp
  · have nonzero := (extrinsicMessage_ne_zero_iff clamped several).mp withheld
    have sign : parity ((values.eraseIdx index).map fun value => decide (value < 0)) = bit := by
      rw [map_sign_eq (forall₂_eraseIdx agree index) nonzero, parity_eraseIdx found, even,
        Bool.false_xor]
    obtain ⟨nonneg, _⟩ := minimum_others_range clamped several index
    rw [extrinsicMessage, sign]
    cases bit <;> simp only [Bool.false_eq_true, if_false, if_true, agrees_false, agrees_true] <;>
      omega

end Check

/-! ### The whole graph -/

section Graph

variable {shape : LdpcShape} {c : Nat → Nat → Bool} {llr soft : Nat → Nat → Int}
  {c2v : Nat → Nat → Nat → Int} {before : LdpcMemory} {cn vni j : Nat} {edge : Edge} {new : Int}

/-- A codeword of the lifted code: every check has even parity. -/
def IsCodeword (shape : LdpcShape) (c : Nat → Nat → Bool) : Prop :=
  ∀ cn < shape.nCn, ∀ r < shape.ls,
    parity ((shape.edges cn).map fun edge => c edge.vn (edge.vnPosition shape.ls r)) = false

/-- Every soft value and every stored message agrees with the codeword. -/
def AllAgree (shape : LdpcShape) (c : Nat → Nat → Bool) (soft : Nat → Nat → Int)
    (c2v : Nat → Nat → Nat → Int) : Prop :=
  (∀ vn < shape.nVnFull, ∀ j < shape.ls, Agrees (c vn j) (soft vn j)) ∧
    ∀ cn < shape.nCn, ∀ vn < shape.nVnFull, ∀ j < shape.ls, Agrees (c vn j) (c2v cn vn j)

/-- No soft value is zero that was not zero. -/
def KeepsNonzero (shape : LdpcShape) (first second : Nat → Nat → Int) : Prop :=
  ∀ vn < shape.nVnFull, ∀ j < shape.ls, first vn j ≠ 0 → second vn j ≠ 0

theorem keepsNonzero_refl (shape : LdpcShape) (soft : Nat → Nat → Int) :
    KeepsNonzero shape soft soft :=
  fun _ _ _ _ nonzero => nonzero

/-- A message is stored only where all other values of its check are known. -/
def MessagesInformed (shape : LdpcShape) (soft : Nat → Nat → Int)
    (c2v : Nat → Nat → Nat → Int) : Prop :=
  ∀ cn < shape.nCn, ∀ r < shape.ls, ∀ (first second : Nat) (edge other : Edge),
    (shape.edges cn)[first]? = some edge → (shape.edges cn)[second]? = some other →
    first ≠ second → c2v cn edge.vn (edge.vnPosition shape.ls r) ≠ 0 →
    soft other.vn (other.vnPosition shape.ls r) -
      c2v cn other.vn (other.vnPosition shape.ls r) ≠ 0

/-- The invariant of the decoder. -/
structure DecoderSound (shape : LdpcShape) (c : Nat → Nat → Bool) (llr soft : Nat → Nat → Int)
    (c2v : Nat → Nat → Nat → Int) : Prop where
  node : ∀ vn < shape.nVnFull, ∀ j < shape.ls,
    NodeSound shape.nCn (c vn j) (llr vn j) (soft vn j) fun cn => c2v cn vn j
  informed : MessagesInformed shape soft c2v

/-- No value sent to a check node became zero. -/
def StaysInformed (shape : LdpcShape) (before : LdpcMemory) (soft : Nat → Nat → Int)
    (c2v : Nat → Nat → Nat → Int) : Prop :=
  ∀ cn < shape.nCn, ∀ vn < shape.nVnFull, ∀ j < shape.ls,
    before.soft vn j - before.c2v cn vn j ≠ 0 → soft vn j - c2v cn vn j ≠ 0

theorem DecoderSound.allAgree (sound : DecoderSound shape c llr soft c2v) :
    AllAgree shape c soft c2v :=
  ⟨fun vn node j position => (sound.node vn node j position).soft_agrees,
    fun cn check vn node j position => (sound.node vn node j position).agrees cn check⟩

theorem updatedC2v_apply (c2v : Nat → Nat → Nat → Int) (cn vn j : Nat) (new : Int)
    (cn' vn' j' : Nat) :
    updatedC2v c2v cn vn j new cn' vn' j' =
      if cn' = cn ∧ vn' = vn ∧ j' = j then new else c2v cn' vn' j' := by
  rw [updatedC2v, Function.update_apply]
  split_ifs with check all
  · rw [store_apply, if_pos all.2]
  · rw [store_apply, check, if_neg (fun both => all ⟨check, both⟩)]
  · rename_i both
    exact absurd both.1 check
  · rfl

/-- The messages stored for the updated position. -/
theorem updatedC2v_here (c2v : Nat → Nat → Nat → Int) (cn vn j : Nat) (new : Int) :
    (fun cn' => updatedC2v c2v cn vn j new cn' vn j) =
      Function.update (fun cn' => c2v cn' vn j) cn new := by
  funext cn'
  rw [updatedC2v_apply, Function.update_apply]
  simp

/-- The messages stored for any other position. -/
theorem updatedC2v_elsewhere {vn' j' : Nat} (apart : ¬ (vn' = edge.vn ∧ j' = j)) :
    (fun cn' => updatedC2v c2v cn edge.vn j new cn' vn' j') = fun cn' => c2v cn' vn' j' := by
  funext cn'
  rw [updatedC2v_apply, if_neg (fun all => apart all.2)]

/-- What an edge update needs to know about the new message. -/
structure MessageSound (shape : LdpcShape) (c : Nat → Nat → Bool) (soft : Nat → Nat → Int)
    (c2v : Nat → Nat → Nat → Int) (cn vni : Nat) (edge : Edge) (j : Nat) (new : Int) :
    Prop where
  agrees : Agrees (c edge.vn j) new
  range : MessageRange new
  grows : c2v cn edge.vn j ≠ 0 → new ≠ 0
  informed : new ≠ 0 → ∀ r < shape.ls, edge.vnPosition shape.ls r = j →
    ∀ (second : Nat) (other : Edge), (shape.edges cn)[second]? = some other → vni ≠ second →
    soft other.vn (other.vnPosition shape.ls r) -
      c2v cn other.vn (other.vnPosition shape.ls r) ≠ 0

/-- An edge update makes no value sent to a check node zero. -/
theorem MessageSound.extrinsic_ne_zero
    (message : MessageSound shape c soft c2v cn vni edge j new)
    (sound : DecoderSound shape c llr soft c2v) (check : cn < shape.nCn)
    (node : edge.vn < shape.nVnFull) (position : j < shape.ls) {cn' vn' j' : Nat}
    (check' : cn' < shape.nCn) (nonzero : soft vn' j' - c2v cn' vn' j' ≠ 0) :
    updatedSoft soft edge.vn j new (c2v cn edge.vn j) vn' j' -
      updatedC2v c2v cn edge.vn j new cn' vn' j' ≠ 0 := by
  rw [updatedSoft, store_apply]
  by_cases here : vn' = edge.vn ∧ j' = j
  · obtain ⟨rfl, rfl⟩ := here
    rw [if_pos ⟨rfl, rfl⟩]
    have updated := (sound.node _ node _ position).extrinsic_ne_zero check message.agrees
      message.range message.grows check' nonzero
    rwa [← updatedC2v_here] at updated
  · rw [if_neg here, congrFun (updatedC2v_elsewhere here) cn']
    exact nonzero

/-- An edge update with a sound message keeps the invariant. -/
theorem MessageSound.update (message : MessageSound shape c soft c2v cn vni edge j new)
    (sound : DecoderSound shape c llr soft c2v) (check : cn < shape.nCn)
    (found : (shape.edges cn)[vni]? = some edge) (position : j < shape.ls) :
    DecoderSound shape c llr (updatedSoft soft edge.vn j new (c2v cn edge.vn j))
      (updatedC2v c2v cn edge.vn j new) := by
  have node := mem_edges (List.mem_of_getElem? found)
  refine ⟨fun vn' node' j' position' => ?_, ?_⟩
  · rw [updatedSoft, store_apply]
    by_cases here : vn' = edge.vn ∧ j' = j
    · obtain ⟨rfl, rfl⟩ := here
      rw [if_pos ⟨rfl, rfl⟩, updatedC2v_here]
      exact (sound.node _ node _ position).update check message.agrees message.range
    · rw [if_neg here, updatedC2v_elsewhere here]
      exact sound.node vn' node' j' position'
  · intro cn' check' r inside first second edge' other foundFirst foundSecond ne stored
    refine message.extrinsic_ne_zero sound check node position check' ?_
    rw [updatedC2v_apply] at stored
    split_ifs at stored with here
    -- the message that was just stored
    · obtain ⟨rfl, sameNode, samePosition⟩ := here
      obtain ⟨insideFirst, rfl⟩ := List.getElem?_eq_some_iff.mp foundFirst
      obtain ⟨insideEdge, rfl⟩ := List.getElem?_eq_some_iff.mp found
      obtain rfl : vni = first := by
        by_contra apart
        rcases Nat.lt_or_gt_of_ne apart with less | greater
        · have := List.pairwise_iff_getElem.mp (pairwise_edges shape cn') _ _ insideEdge
            insideFirst less
          omega
        · have := List.pairwise_iff_getElem.mp (pairwise_edges shape cn') _ _ insideFirst
            insideEdge greater
          omega
      exact message.informed stored r inside samePosition second other foundSecond ne
    · exact sound.informed cn' check' r inside first second edge' other foundFirst foundSecond ne
        stored

/-! ### The message of a layer -/

theorem agrees_llrSub {bit : Bool} {a b : Int} (agrees : Agrees bit (a - b)) :
    Agrees bit (llrSub a b) := by
  rw [llrSub_eq]
  cases bit <;> simp only [agrees_false, agrees_true] at agrees ⊢ <;> omega

theorem llrSub_ne_zero {a b : Int} : llrSub a b ≠ 0 ↔ a - b ≠ 0 := by
  rw [llrSub_eq]
  omega

/-- The values a check node receives agree with the codeword. -/
theorem DecoderSound.rowValues_agree (sound : DecoderSound shape c llr before.soft before.c2v)
    (check : cn < shape.nCn) {r : Nat} (inside : r < shape.ls) :
    List.Forall₂ Agrees
      ((shape.edges cn).map fun edge => c edge.vn (edge.vnPosition shape.ls r))
      (shape.rowValues before cn r) := by
  rw [LdpcShape.rowValues, List.forall₂_map_left_iff, List.forall₂_map_right_iff,
    List.forall₂_same]
  intro edge member
  exact agrees_llrSub ((sound.node _ (mem_edges member) _
    (vnPosition_lt edge inside)).extrinsic_agrees check)

/-- A message is sent exactly when all other values of the check are known. -/
theorem rowValues_informed_iff (shape : LdpcShape) (before : LdpcMemory) (cn vni r : Nat) :
    (∀ value ∈ (shape.rowValues before cn r).eraseIdx vni, value ≠ 0) ↔
      ∀ (second : Nat) (other : Edge), (shape.edges cn)[second]? = some other → vni ≠ second →
        before.soft other.vn (other.vnPosition shape.ls r) -
          before.c2v cn other.vn (other.vnPosition shape.ls r) ≠ 0 := by
  constructor
  · intro nonzero second other found ne
    refine llrSub_ne_zero.mp (nonzero _ (List.mem_eraseIdx_iff_getElem?.mpr ⟨second, ne.symm, ?_⟩))
    rw [LdpcShape.rowValues, List.getElem?_map, found]
    rfl
  · intro known value member
    obtain ⟨second, ne, found⟩ := List.mem_eraseIdx_iff_getElem?.mp member
    rw [LdpcShape.rowValues, List.getElem?_map] at found
    obtain ⟨other, foundOther, rfl⟩ := Option.map_eq_some_iff.mp found
    exact llrSub_ne_zero.mpr (known second other foundOther ne.symm)

/-- The message of a layer is nonzero exactly when the other values of its check are known. -/
theorem message_ne_zero_iff (regular : Regular shape) (check : cn < shape.nCn) :
    shape.message before cn vni edge j ≠ 0 ↔
      ∀ (second : Nat) (other : Edge), (shape.edges cn)[second]? = some other → vni ≠ second →
        before.soft other.vn (other.vnPosition shape.ls (edge.cnPosition shape.ls j).toNat) -
          before.c2v cn other.vn
            (other.vnPosition shape.ls (edge.cnPosition shape.ls j).toNat) ≠ 0 :=
  (extrinsicMessage_ne_zero_iff (clamped_rowValues shape before cn _)
    (two_le_length_rowValues regular before check _)).trans (rowValues_informed_iff ..)

/-- The message of a layer is sound at the moment its edge is updated. -/
theorem messageSound_of_layer (regular : Regular shape) (codeword : IsCodeword shape c)
    (sound : DecoderSound shape c llr before.soft before.c2v) (check : cn < shape.nCn)
    (found : (shape.edges cn)[vni]? = some edge) (position : j < shape.ls)
    (stays : StaysInformed shape before soft c2v)
    (unchanged : c2v cn edge.vn j = before.c2v cn edge.vn j) :
    MessageSound shape c soft c2v cn vni edge j (shape.message before cn vni edge j) := by
  obtain ⟨_, inside, back⟩ :=
    cnPosition_spec (regular.shifts cn check edge (List.mem_of_getElem? found)) position
  have clamped := clamped_rowValues shape before cn (edge.cnPosition shape.ls j).toNat
  have several := two_le_length_rowValues regular before check (edge.cnPosition shape.ls j).toNat
  have sent : shape.message before cn vni edge j ≠ 0 ↔ _ := message_ne_zero_iff regular check
  refine ⟨?_, extrinsicMessage_range clamped several vni, fun stored => ?_, fun nonzero => ?_⟩
  · have bit : ((shape.edges cn).map fun other =>
        c other.vn (other.vnPosition shape.ls (edge.cnPosition shape.ls j).toNat))[vni]? =
          some (c edge.vn j) := by
      rw [List.getElem?_map, found, Option.map_some, back]
    exact extrinsicMessage_agrees clamped several (sound.rowValues_agree check inside)
      (codeword cn check _ inside) bit
  · rw [unchanged, ← back] at stored
    exact sent.mpr fun second other foundOther ne =>
      sound.informed cn check _ inside vni second edge other found foundOther ne stored
  · intro r below same second other foundOther ne
    obtain rfl : r = (edge.cnPosition shape.ls j).toNat :=
      vnPosition_inj edge below inside (same.trans back.symm)
    exact stays cn check _ (mem_edges (List.mem_of_getElem? foundOther)) _
      (vnPosition_lt other inside) (sent.mp nonzero second other foundOther ne)

/-- The edge updates of a layer keep the invariant. -/
theorem edgeRule (regular : Regular shape) (codeword : IsCodeword shape c)
    (before : LdpcMemory) (check : cn < shape.nCn)
    (soundBefore : DecoderSound shape c llr before.soft before.c2v) :
    EdgeRule shape (AllAgree shape c)
      (fun soft c2v => DecoderSound shape c llr soft c2v ∧ StaysInformed shape before soft c2v)
      (KeepsNonzero shape) before cn := by
  rintro soft c2v vni edge j found position _ unchanged ⟨sound, stays⟩
  have message := messageSound_of_layer regular codeword soundBefore check found position stays
    unchanged
  have node := mem_edges (List.mem_of_getElem? found)
  have updated := message.update sound check found position
  refine ⟨fun vn' node' j' position' nonzero => ?_,
    ⟨updated.allAgree.1, sound.allAgree.2⟩, updated.allAgree, updated,
    fun cn' check' vn' node' j' position' nonzero => ?_⟩
  · rw [updatedSoft, store_apply]
    split_ifs with here
    · obtain ⟨rfl, rfl⟩ := here
      exact (sound.node _ node _ position).llrAdd_ne_zero check message.agrees message.range
        message.grows nonzero
    · exact nonzero
  · exact message.extrinsic_ne_zero sound check node position check'
      (stays cn' check' vn' node' j' position' nonzero)

/-- The LLRs of a code block that do not contradict the codeword. -/
structure ChannelAgrees (shape : LdpcShape) (c : Nat → Nat → Bool) (llr : Nat → Nat → Int) :
    Prop where
  range : ∀ vn < shape.nVnFull, ∀ j < shape.ls, SoftRange (llr vn j)
  agrees : ∀ vn < shape.nVnFull, ∀ j < shape.ls, Agrees (c vn j) (llr vn j)

/-- The message buffer as the host prepares it. -/
def Zeroed (shape : LdpcShape) (memory : LdpcMemory) : Prop :=
  ∀ cn < shape.nCn, ∀ vn < shape.nVnFull, ∀ j < shape.ls, memory.c2v cn vn j = 0

/-- The invariant holds when the LLRs are loaded. -/
theorem decoderSound_of_loaded {memory loaded : LdpcMemory}
    (channel : ChannelAgrees shape c llr) (zeroed : Zeroed shape memory)
    (done : Loaded shape llr memory loaded) :
    DecoderSound shape c llr loaded.soft loaded.c2v := by
  obtain ⟨messages, values⟩ := done
  rw [messages]
  refine ⟨fun vn node j position => ?_, ?_⟩
  · have agrees := channel.agrees vn node j position
    have empty : ∑ cn ∈ Finset.range shape.nCn, memory.c2v cn vn j = 0 :=
      Finset.sum_eq_zero fun cn member =>
        zeroed cn (Finset.mem_range.mp member) vn node j position
    refine ⟨agrees, fun cn check => ?_, fun cn check => ?_, ?_⟩
    · rw [zeroed cn check vn node j position]
      cases c vn j <;> simp
    · rw [zeroed cn check vn node j position]
      decide
    · rw [values vn node j position, empty, Int.add_zero]
      rcases channel.range vn node j position with finite | infinite | infinite
      · exact .inr ⟨finite.1, finite.2, rfl⟩
      · rw [infinite] at agrees ⊢
        cases bit : c vn j with
        | false => exact .inl rfl
        | true => rw [bit] at agrees; exact absurd agrees (by decide)
      · rw [infinite] at agrees ⊢
        cases bit : c vn j with
        | false => rw [bit] at agrees; exact absurd agrees (by decide)
        | true => exact .inl rfl
  · intro cn check r inside _ _ edge _ found _ _ stored
    exact absurd (zeroed cn check _ (mem_edges (List.mem_of_getElem? found)) _
      (vnPosition_lt edge inside)) stored

/-- A whole run keeps every value in agreement with the codeword. -/
theorem kernelRun_agrees (regular : Regular shape) (codeword : IsCodeword shape c)
    (channel : ChannelAgrees shape c llr) (nIter : Nat) {memory : LdpcMemory}
    (zeroed : Zeroed shape memory) :
    KernelRun shape llr nIter memory (AllAgree shape c) (KeepsNonzero shape) :=
  kernelRun (keepsNonzero_refl shape)
    (fun _ _ _ one two vn node j position nonzero =>
      two vn node j position (one vn node j position nonzero))
    regular (fun _ _ sound => DecoderSound.allAgree sound)
    (fun _ sound => ⟨sound, fun _ _ _ _ _ _ nonzero => nonzero⟩)
    (fun _ _ _ inside => inside.1)
    (fun before _ check sound => edgeRule regular codeword before check sound) nIter
    (fun _ done => decoderSound_of_loaded channel zeroed done)

/-- A value that is not zero and agrees with a bit has its sign. -/
theorem decide_neg_eq_of_agrees {bit : Bool} {value : Int} (agrees : Agrees bit value)
    (known : value ≠ 0 ∨ bit = false) : decide (value < 0) = bit := by
  cases bit with
  | false =>
      rw [agrees_false] at agrees
      simp only [decide_eq_false_iff_not]
      omega
  | true =>
      rw [agrees_true] at agrees
      simp only [Bool.true_eq_false, or_false] at known
      simp only [decide_eq_true_eq]
      omega

/-- `ldpc_decode` never turns a right decision wrong.  For LLRs that do not contradict a
codeword, every step succeeds; in every state every soft value and message agrees with the
codeword; a soft value that is not zero never becomes zero; and at the end every output bit
whose soft value is not zero, and every output bit where the codeword is zero, is the bit of
the codeword. -/
theorem ldpc_decode_agrees (regular : Regular shape) (codeword : IsCodeword shape c)
    (channel : ChannelAgrees shape c llr) (nIter : Nat) {memory : LdpcMemory}
    (zeroed : Zeroed shape memory) :
    (∀ k, shape.loadOps.length ≤ k → ∃ state,
        ldpcDecodeAfter shape llr nIter memory k = some state ∧
          AllAgree shape c state.soft state.c2v) ∧
      (∀ k later first second, shape.loadOps.length ≤ k → k ≤ later →
        ldpcDecodeAfter shape llr nIter memory k = some first →
        ldpcDecodeAfter shape llr nIter memory later = some second →
        KeepsNonzero shape first.soft second.soft) ∧
      ∃ final, ldpcDecode shape llr nIter memory = some final ∧
        ∀ vn < shape.nVnInfo, ∀ zi < shape.ls, final.soft vn zi ≠ 0 ∨ c vn zi = false →
          outputBit final (vn * shape.ls + zi) = c vn zi := by
  have run := kernelRun_agrees regular codeword channel nIter zeroed
  refine ⟨run.every, run.between, ?_⟩
  obtain ⟨final, decoded, allAgree, bits⟩ := run.output
  refine ⟨final, decoded, fun vn node zi position known => ?_⟩
  rw [bits vn node zi position]
  exact decide_neg_eq_of_agrees
    (allAgree.1 vn (Nat.lt_of_lt_of_le node shape.nVnInfo_le) zi position) known

end Graph

/-- One check over two variable nodes, the second shifted, beside a node without a check. -/
private def smallShape : LdpcShape where
  nVnFull := 3
  nCn := 1
  nVnInfo := 2
  ls := 2
  bgShifts := fun _ vn => [0, 1, noEdge].getD vn noEdge
  ls_le := by decide
  nVnFull_le := by decide
  nVnInfo_le := by decide

/-- A codeword of the small code. -/
private def smallCodeword (vn j : Nat) : Bool :=
  decide (vn = 0 ∧ j = 0 ∨ vn = 1 ∧ j = 1)

/-- LLRs of it, erased on the second node. -/
private def smallLlr (vn j : Nat) : Int :=
  if vn = 0 ∧ j = 0 then -7 else if vn = 0 then 3 else if vn = 2 then 127 else 0

/-- Memory before the kernel runs. -/
private def clearMemory : LdpcMemory where
  soft := fun _ _ => 0
  c2v := fun _ _ _ => 0
  scratch := fun _ => TwoMin.start 0
  sprod := fun _ => false
  c2vNew := 0
  out := fun _ => 0

/-- The erased bit of the second node is recovered from the first. -/
theorem ldpc_decode_recovers_erased_bit :
    ∃ final, ldpcDecode smallShape smallLlr 2 clearMemory = some final ∧
      smallLlr 1 1 = 0 ∧ final.soft 1 1 ≠ 0 ∧ outputBit final 3 = true := by
  have regular : Regular smallShape := ⟨by decide, by decide⟩
  have codeword : IsCodeword smallShape smallCodeword := by
    rw [IsCodeword]
    decide
  have channel : ChannelAgrees smallShape smallCodeword smallLlr := ⟨by decide, by decide⟩
  obtain ⟨_, _, final, decoded, bits⟩ := ldpc_decode_agrees regular codeword channel 2
    (fun _ _ _ _ _ _ => rfl : Zeroed smallShape clearMemory)
  have recovered : (ldpcDecode smallShape smallLlr 2 clearMemory).map (·.soft 1 1) =
      some (-6) := by decide
  rw [decoded, Option.map_some, Option.some.injEq] at recovered
  have nonzero : final.soft 1 1 ≠ 0 := by rw [recovered]; decide
  exact ⟨final, decoded, rfl, nonzero, bits 1 (by decide) 1 (by decide) (.inl nonzero)⟩

end RanInline.Ldpc
