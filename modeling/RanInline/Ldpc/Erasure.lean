/-
Module: RanInline.Ldpc.Erasure
Purpose: Erased values in ldpc_decode: the only erased value of a check is known from the first
  iteration on.
Trusted boundary: none
Main exports: Recovered, invariant_before_layer, ldpcDecode_recovers
-/
import RanInline.Ldpc.MinSum
import RanInline.Ldpc.SignConsistent

namespace RanInline.Ldpc

open RanInline.Lib

variable {shape : LdpcShape} {c : Nat → Nat → Bool} {llr : Nat → Nat → Int}
  {memory : LdpcMemory}

/-! ### In front of a layer -/

/-- An invariant that every edge update keeps holds in front of every layer. -/
theorem invariant_before_layer
    {good invariant : (Nat → Nat → Int) → (Nat → Nat → Nat → Int) → Prop}
    {moves : (Nat → Nat → Int) → (Nat → Nat → Int) → Prop}
    {inside : LdpcMemory → (Nat → Nat → Int) → (Nat → Nat → Nat → Int) → Prop}
    (refl : ∀ soft, moves soft soft) (regular : Regular shape)
    (implies : ∀ soft c2v, invariant soft c2v → good soft c2v)
    (enter : ∀ before : LdpcMemory, invariant before.soft before.c2v →
      inside before before.soft before.c2v)
    (leave : ∀ before soft c2v, inside before soft c2v → invariant soft c2v)
    (rule : ∀ (before : LdpcMemory), ∀ cn < shape.nCn, invariant before.soft before.c2v →
      EdgeRule shape good (inside before) moves before cn)
    {nIter iter cn : Nat} (turn : iter < nIter) (check : cn < shape.nCn)
    (start : ∀ loaded, Loaded shape llr memory loaded → invariant loaded.soft loaded.c2v) :
    ∃ before, ldpcDecodeAfter shape llr nIter memory (shape.layersBefore iter cn).length =
      some before ∧ invariant before.soft before.c2v := by
  obtain ⟨loaded, load, _, done⟩ := (along_load shape llr memory).ends
  have along : LdpcAlong shape llr good moves (fun final => invariant final.soft final.c2v)
      (shape.iterationOps iter ++ (List.range cn).flatMap shape.layerOps) loaded :=
    (along_iterations refl regular implies enter leave rule iter (start loaded done)).append
      fun _ keeps => along_layers refl regular implies enter leave rule (Nat.le_of_lt check) keeps
  obtain ⟨before, run, _, keeps⟩ := along.ends
  obtain ⟨rest, split⟩ := program_split turn check
  refine ⟨before, ?_, keeps⟩
  rw [ldpcDecodeAfter, split, List.take_left, LdpcShape.layersBefore, List.foldlM_append, load]
  exact run

/-- Every check is told what the channel knows. -/
def ChannelInformed (shape : LdpcShape) (llr soft : Nat → Nat → Int)
    (c2v : Nat → Nat → Nat → Int) : Prop :=
  ∀ cn < shape.nCn, ∀ vn < shape.nVnFull, ∀ j < shape.ls, llr vn j ≠ 0 →
    soft vn j - c2v cn vn j ≠ 0

/-- The invariant in front of a layer. -/
structure LayerSound (shape : LdpcShape) (c : Nat → Nat → Bool) (llr soft : Nat → Nat → Int)
    (c2v : Nat → Nat → Nat → Int) : Prop where
  sound : DecoderSound shape c llr soft c2v
  informed : ChannelInformed shape llr soft c2v

/-- And inside a layer, against the state before it. -/
structure InLayer (shape : LdpcShape) (c : Nat → Nat → Bool) (llr : Nat → Nat → Int)
    (before : LdpcMemory) (soft : Nat → Nat → Int) (c2v : Nat → Nat → Nat → Int) : Prop where
  sound : DecoderSound shape c llr soft c2v
  stays : StaysInformed shape before soft c2v
  informed : ChannelInformed shape llr before.soft before.c2v

theorem InLayer.layerSound {before : LdpcMemory} {soft : Nat → Nat → Int}
    {c2v : Nat → Nat → Nat → Int} (inLayer : InLayer shape c llr before soft c2v) :
    LayerSound shape c llr soft c2v :=
  ⟨inLayer.sound, fun cn check vn node j position known => inLayer.stays cn check vn node j position
    (inLayer.informed cn check vn node j position known)⟩

theorem LayerSound.inLayer {before : LdpcMemory}
    (holds : LayerSound shape c llr before.soft before.c2v) :
    InLayer shape c llr before before.soft before.c2v :=
  ⟨holds.sound, fun _ _ _ _ _ _ nonzero => nonzero, holds.informed⟩

theorem layerSound_before_layer (regular : Regular shape) (codeword : IsCodeword shape c)
    (channel : ChannelAgrees shape c llr) (zeroed : Zeroed shape memory) {nIter iter cn : Nat}
    (turn : iter < nIter) (check : cn < shape.nCn) :
    ∃ before, ldpcDecodeAfter shape llr nIter memory (shape.layersBefore iter cn).length =
      some before ∧ LayerSound shape c llr before.soft before.c2v := by
  refine invariant_before_layer (keepsNonzero_refl shape) regular
    (fun _ _ holds => holds.sound.allAgree) (fun _ => LayerSound.inLayer)
    (fun _ _ _ => InLayer.layerSound) ?_ turn check ?_
  · rintro before cn check ⟨sound, _⟩ soft c2v vni edge j found position sameSoft sameC2v
      ⟨keeps, stays, informed⟩
    obtain ⟨moved, goodSoft, goodBoth, kept, staysToo⟩ := edgeRule regular codeword before check
      sound soft c2v vni edge j found position sameSoft sameC2v ⟨keeps, stays⟩
    exact ⟨moved, goodSoft, goodBoth, kept, staysToo, informed⟩
  · intro loaded done
    refine ⟨decoderSound_of_loaded channel zeroed done, fun cn check vn node j position known => ?_⟩
    rwa [done.2 vn node j position, done.1, zeroed cn check vn node j position, Int.sub_zero]

/-! ### What a layer recovers -/

/-- The value is not erased, or it is the only erased value of a check. -/
def Recovered (shape : LdpcShape) (known : Nat → Nat → Prop) (vn j : Nat) : Prop :=
  known vn j ∨ ∃ cn < shape.nCn, ∃ vni < (shape.edges cn).length, ∃ r < shape.ls,
    (shape.edges cn)[vni]?.map (fun edge => (edge.vn, edge.vnPosition shape.ls r)) = some (vn, j) ∧
      ∀ other ∈ (shape.edges cn).eraseIdx vni, known other.vn (other.vnPosition shape.ls r)

instance (shape : LdpcShape) (known : Nat → Nat → Prop) [∀ vn j, Decidable (known vn j)]
    (vn j : Nat) : Decidable (Recovered shape known vn j) :=
  inferInstanceAs (Decidable (_ ∨ _))

theorem Recovered.mono {known informed : Nat → Nat → Prop} {vn j : Nat}
    (recovered : Recovered shape known vn j) (node : vn < shape.nVnFull) (position : j < shape.ls)
    (implies : ∀ vn < shape.nVnFull, ∀ j < shape.ls, known vn j → informed vn j) :
    Recovered shape informed vn j := by
  obtain here | ⟨cn, check, vni, edge, r, row, place, others⟩ := recovered
  · exact .inl (implies vn node j position here)
  · exact .inr ⟨cn, check, vni, edge, r, row, place, fun other member =>
      implies _ (mem_edges (List.mem_of_mem_eraseIdx member)) _ (vnPosition_lt other row)
        (others other member)⟩

/-- A value that is not erased, or the only erased value of a check, is known from the first
iteration of `ldpc_decode` on. -/
theorem ldpcDecode_recovers (regular : Regular shape) (codeword : IsCodeword shape c)
    (channel : ChannelAgrees shape c llr) {nIter : Nat} (turn : 0 < nIter)
    (zeroed : Zeroed shape memory) {final : LdpcMemory}
    (decoded : ldpcDecode shape llr nIter memory = some final) {vn j : Nat}
    (node : vn < shape.nVnFull) (position : j < shape.ls)
    (recovered : Recovered shape (llr · · ≠ 0) vn j) : final.soft vn j ≠ 0 := by
  have run := kernelRun_agrees regular codeword channel nIter zeroed
  have ended : ldpcDecodeAfter shape llr nIter memory (shape.program nIter).length =
      some final := by
    rw [ldpcDecodeAfter, List.take_length]
    exact decoded
  obtain known | ⟨cn, check, vni, _, r, row, place, others⟩ := recovered
  · obtain ⟨loaded, load, _, done⟩ := (along_load shape llr memory).ends
    have reached : ldpcDecodeAfter shape llr nIter memory shape.loadOps.length = some loaded := by
      rw [ldpcDecodeAfter, LdpcShape.program, List.take_left]
      exact load
    refine run.between _ _ _ _ (Nat.le_refl _) ?_ reached ended vn node j position ?_
    · rw [LdpcShape.program, List.length_append]
      exact Nat.le_add_right _ _
    · rwa [done.2 vn node j position]
  · obtain ⟨edge, found, samePlace⟩ := Option.map_eq_some_iff.mp place
    obtain ⟨rfl, rfl⟩ := Prod.mk.inj samePlace
    obtain ⟨_, inside, back⟩ :=
      cnPosition_spec (regular.shifts cn check edge (List.mem_of_getElem? found)) position
    have same := vnPosition_inj edge inside row back
    -- the check knows all its other values when its layer begins
    obtain ⟨before, reached, sound, informed⟩ :=
      layerSound_before_layer regular codeword channel zeroed turn check
    have sent : shape.message before cn vni edge (edge.vnPosition shape.ls r) ≠ 0 := by
      refine (message_ne_zero_iff regular check).mpr fun second other foundOther ne => ?_
      rw [same]
      exact informed cn check _ (mem_edges (List.mem_of_getElem? foundOther)) _
        (vnPosition_lt other row)
        (others other (List.mem_eraseIdx_iff_getElem?.mpr ⟨second, ne.symm, foundOther⟩))
    have along : LdpcAlong shape llr _ _ _ (shape.layerOps cn) before :=
      along_layer (keepsNonzero_refl shape) regular check
        (edgeRule regular codeword before check sound) sound.allAgree
        ⟨sound, fun _ _ _ _ _ _ nonzero => nonzero⟩
    obtain ⟨after, layer, _, ⟨soundAfter, _⟩, stored⟩ := along.ends
    rw [← stored vni edge found _ position (.inl (List.getElem?_eq_some_iff.mp found).1)] at sent
    have known := (soundAfter.node _ node _ position).soft_ne_zero check sent
    -- and what is known stays known to the end
    have reachedAfter := ldpcDecodeAfter_layer turn check reached (Nat.le_refl _)
    rw [List.take_length, layer] at reachedAfter
    refine run.between _ _ _ _ ?_ ?_ reachedAfter ended _ node _ position known
    · rw [LdpcShape.layersBefore, List.length_append]
      omega
    · obtain ⟨rest, split⟩ := program_split turn check
      rw [split, List.length_append, List.length_append]
      omega

end RanInline.Ldpc
