/-
Module: RanInline.Ldpc.Decode
Purpose: The kernel ldpc_decode of ldpc_decode.cl, as the sequence of its assignments, with
  every array access checked against the array's size.
Trusted boundary: none
Main exports: LdpcShape, Edge, LdpcShape.edges, LdpcMemory, LdpcOp, LdpcOp.InBounds,
  ldpcExec, LdpcShape.program, ldpcDecode, outputBit
-/
import RanInline.Ldpc.Arith
import RanInline.Lib.Extrinsic

namespace RanInline.Ldpc

open RanInline.Lib

/-- `NO_EDGE`. -/
def noEdge : Nat := 0xffff

/-- `MAX_LS`. -/
def maxLs : Nat := 384

/-- The size of the array `soft`. -/
def softBytes : Nat := 68 * maxLs

/-- The kernel arguments that fix the code: the numbers of nodes, the lifting size `ls` and
the shift matrix.  The arrays of the kernel are sized for them. -/
structure LdpcShape where
  nVnFull : Nat
  nCn : Nat
  nVnInfo : Nat
  ls : Nat
  bgShifts : Nat → Nat → Nat
  ls_le : ls ≤ maxLs
  nVnFull_le : nVnFull ≤ 68
  nVnInfo_le : nVnInfo ≤ nVnFull

/-- An entry of the shift matrix that is not `NO_EDGE`. -/
structure Edge where
  vn : Nat
  shift : Nat
deriving DecidableEq, Repr

/-- The edges of a check node, in the order of the loops over `vn`.  The position in this
list is `vni`. -/
def LdpcShape.edges (shape : LdpcShape) (cn : Nat) : List Edge :=
  (List.range shape.nVnFull).filterMap fun vn =>
    if shape.bgShifts cn vn = noEdge then none else some ⟨vn, shape.bgShifts cn vn⟩

/-- The position of the variable node that `edge` connects to position `r` of its check
node. -/
def Edge.vnPosition (edge : Edge) (ls r : Nat) : Nat := (r + edge.shift) % ls

/-- The position of the check node that `edge` connects to position `j` of its variable
node, with the remainder of C. -/
def Edge.cnPosition (edge : Edge) (ls j : Nat) : Int :=
  Int.tmod ((j : Int) + ls - edge.shift) ls

/-- The memory of the kernel: the soft values by `vn` and `j`, the messages by `cn`, `vn`
and `j`, the scratch of the check-node analysis by `r`, the private `c2v_new_j`, and the
output bytes. -/
structure LdpcMemory where
  soft : Nat → Nat → Int
  c2v : Nat → Nat → Nat → Int
  scratch : Nat → TwoMin Int
  sprod : Nat → Bool
  c2vNew : Int
  out : Nat → BitVec 8

/-- Overwrite one entry of an array of arrays. -/
def store {α : Type} (array : Nat → Nat → α) (i j : Nat) (value : α) : Nat → Nat → α :=
  Function.update array i (Function.update (array i) j value)

@[simp]
theorem store_apply {α : Type} (array : Nat → Nat → α) (i j : Nat) (value : α) (i' j' : Nat) :
    store array i j value i' j' = if i' = i ∧ j' = j then value else array i' j' := by
  rw [store]
  by_cases row : i' = i
  · subst row
    simp [Function.update_apply]
  · simp [row]

/-- The assignments of the kernel. -/
inductive LdpcOp where
  | load (vn zi : Nat)
  | clear (r : Nat)
  | analyse (cn : Nat) (edge : Edge) (vni r : Nat)
  | updateSoft (cn : Nat) (edge : Edge) (vni j : Nat)
  | storeC2v (cn : Nat) (edge : Edge) (j : Nat)
  | emit (vn zi : Nat)
deriving DecidableEq, Repr

section Kernel

variable (shape : LdpcShape) (llr : Nat → Nat → Int)

/-- `v2c`: the soft value without the message of the check node itself. -/
def LdpcMemory.v2c (memory : LdpcMemory) (cn vn j : Nat) : Int :=
  llrSub (memory.soft vn j) (memory.c2v cn vn j)

/-- The new message along an edge, from the scratch at the check-node position `r`. -/
def LdpcMemory.newMessage (memory : LdpcMemory) (cn vn vni j r : Nat) : Int :=
  let mag := llrScale ((memory.scratch r).select vni)
  let thisSign := decide (memory.v2c cn vn j < 0)
  let finalSign := xor (memory.sprod r) thisSign
  if finalSign then toChar (-mag) else mag

/-- One output byte with one of its bits overwritten. -/
def writeBit (byte : BitVec 8) (bitPos : Nat) (bit : Bool) : BitVec 8 :=
  if bit then byte ||| (1#8 <<< bitPos) else byte &&& ~~~(1#8 <<< bitPos)

/-- The effect of an assignment whose indices are inside the arrays. -/
def LdpcMemory.apply (memory : LdpcMemory) : LdpcOp → LdpcMemory
  | .load vn zi => { memory with soft := store memory.soft vn zi (llr vn zi) }
  | .clear r =>
      { memory with
        scratch := Function.update memory.scratch r (TwoMin.start llrInf)
        sprod := Function.update memory.sprod r false }
  | .analyse cn edge vni r =>
      let v2c := memory.v2c cn edge.vn (edge.vnPosition shape.ls r)
      { memory with
        scratch := Function.update memory.scratch r
          ((memory.scratch r).insert vni (llrAbs v2c))
        sprod := Function.update memory.sprod r (xor (memory.sprod r) (decide (v2c < 0))) }
  | .updateSoft cn edge vni j =>
      let c2vNew := memory.newMessage cn edge.vn vni j (edge.cnPosition shape.ls j).toNat
      { memory with
        c2vNew := c2vNew
        soft := store memory.soft edge.vn j
          (llrAdd (memory.soft edge.vn j) (llrSub c2vNew (memory.c2v cn edge.vn j))) }
  | .storeC2v cn edge j =>
      { memory with
        c2v := Function.update memory.c2v cn (store (memory.c2v cn) edge.vn j memory.c2vNew) }
  | .emit vn zi =>
      let bitIdx := vn * shape.ls + zi
      { memory with
        out := Function.update memory.out (bitIdx / 8)
          (writeBit (memory.out (bitIdx / 8)) (7 - bitIdx % 8)
            (decide (memory.soft vn zi < 0))) }

/-- An index of `soft` is inside the array. -/
def LdpcShape.SoftInBounds (vn j : Nat) : Prop := vn * shape.ls + j < softBytes

/-- An index of `c2v` is inside the buffer. -/
def LdpcShape.C2vInBounds (cn vn j : Nat) : Prop :=
  (cn * shape.nVnFull + vn) * shape.ls + j < shape.nCn * shape.nVnFull * shape.ls

instance (vn j : Nat) : Decidable (shape.SoftInBounds vn j) := inferInstanceAs (Decidable (_ < _))

instance (cn vn j : Nat) : Decidable (shape.C2vInBounds cn vn j) :=
  inferInstanceAs (Decidable (_ < _))

/-- Every index an assignment uses is inside its array. -/
def LdpcOp.InBounds : LdpcOp → Prop
  | .load vn zi => shape.SoftInBounds vn zi
  | .clear r => r < maxLs
  | .analyse cn edge _ r =>
      r < maxLs ∧ shape.SoftInBounds edge.vn (edge.vnPosition shape.ls r) ∧
        shape.C2vInBounds cn edge.vn (edge.vnPosition shape.ls r)
  | .updateSoft cn edge _ j =>
      0 ≤ edge.cnPosition shape.ls j ∧ edge.cnPosition shape.ls j < maxLs ∧
        shape.SoftInBounds edge.vn j ∧ shape.C2vInBounds cn edge.vn j
  | .storeC2v cn edge j => shape.C2vInBounds cn edge.vn j
  | .emit vn zi =>
      shape.SoftInBounds vn zi ∧
        (vn * shape.ls + zi) / 8 < (shape.nVnInfo * shape.ls + 7) / 8

instance : (op : LdpcOp) → Decidable (op.InBounds shape)
  | .load _ _ => inferInstanceAs (Decidable (shape.SoftInBounds _ _))
  | .clear _ => inferInstanceAs (Decidable (_ < _))
  | .analyse _ _ _ _ => inferInstanceAs (Decidable (_ ∧ _))
  | .updateSoft _ _ _ _ => inferInstanceAs (Decidable (_ ∧ _))
  | .storeC2v _ _ _ => inferInstanceAs (Decidable (shape.C2vInBounds _ _ _))
  | .emit _ _ => inferInstanceAs (Decidable (_ ∧ _))

/-- Execute an assignment; `none` is an access outside an array. -/
def ldpcExec (memory : LdpcMemory) (op : LdpcOp) : Option LdpcMemory :=
  if op.InBounds shape then some (memory.apply shape llr op) else none

/-- Load the channel LLRs. -/
def LdpcShape.loadOps : List LdpcOp :=
  (List.range shape.nVnFull).flatMap fun vn =>
    (List.range shape.ls).flatMap fun zi => [.load vn zi]

/-- Step A for one check node. -/
def LdpcShape.analysisOps (cn : Nat) : List LdpcOp :=
  (shape.edges cn).zipIdx.flatMap fun item =>
    (List.range shape.ls).flatMap fun r => [.analyse cn item.1 item.2 r]

/-- Step B for one check node. -/
def LdpcShape.updateOps (cn : Nat) : List LdpcOp :=
  (shape.edges cn).zipIdx.flatMap fun item =>
    (List.range shape.ls).flatMap fun j =>
      [.updateSoft cn item.1 item.2 j, .storeC2v cn item.1 j]

/-- One layer. -/
def LdpcShape.layerOps (cn : Nat) : List LdpcOp :=
  ((List.range shape.ls).flatMap fun r => [.clear r]) ++
    (shape.analysisOps cn ++ shape.updateOps cn)

/-- The layered iterations. -/
def LdpcShape.iterationOps (nIter : Nat) : List LdpcOp :=
  (List.range nIter).flatMap fun _ => (List.range shape.nCn).flatMap shape.layerOps

/-- The hard decisions. -/
def LdpcShape.emitOps : List LdpcOp :=
  (List.range shape.nVnInfo).flatMap fun vn =>
    (List.range shape.ls).flatMap fun zi => [.emit vn zi]

/-- The kernel body. -/
def LdpcShape.program (nIter : Nat) : List LdpcOp :=
  shape.loadOps ++ (shape.iterationOps nIter ++ shape.emitOps)

/-- `ldpc_decode` on the memory of one code block. -/
def ldpcDecode (nIter : Nat) (memory : LdpcMemory) : Option LdpcMemory :=
  (shape.program nIter).foldlM (ldpcExec shape llr) memory

/-- The state of `ldpc_decode` after `k` assignments. -/
def ldpcDecodeAfter (nIter : Nat) (memory : LdpcMemory) (k : Nat) : Option LdpcMemory :=
  ((shape.program nIter).take k).foldlM (ldpcExec shape llr) memory

end Kernel

/-- The output bit with index `bitIdx`: the bytes are packed with the first bit on top. -/
def outputBit (memory : LdpcMemory) (bitIdx : Nat) : Bool :=
  (memory.out (bitIdx / 8)).getLsbD (7 - bitIdx % 8)

end RanInline.Ldpc
