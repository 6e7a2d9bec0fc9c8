/-
Module: RanInline.Offload.Region
Purpose: The shared CXL region of the offload path: the control block, the input and the output
  buffer, the events of the daemon's socket and the calls of the L1 process.
Trusted boundary: none
Main exports: WorkType, CtrlBlock, Buffers, OffloadEvent, storeFirst, OffloadCall, ownEvent,
  DaemonOp, runOps, HoldsInput, Computed, FixesOutput
-/
import Mathlib.Algebra.Group.Nat.Defs
import Mathlib.Data.List.Basic

namespace RanInline.Offload

/-! ### The region -/

/-- `CXL_REGION_L1_INPUT_OFF`. -/
def cxlRegionL1InputOff : Nat := 0x00000000

/-- `CXL_REGION_L1_INPUT_SZ`. -/
def cxlRegionL1InputSz : Nat := 256 * 1024 * 1024

/-- `CXL_REGION_GPU_OUTPUT_OFF`. -/
def cxlRegionGpuOutputOff : Nat := 0x10000000

/-- `CXL_REGION_GPU_OUTPUT_SZ`. -/
def cxlRegionGpuOutputSz : Nat := 256 * 1024 * 1024

/-- The work types of the calls. -/
inductive WorkType where
  | ldpc
  | fft
deriving DecidableEq, Repr

/-- The value of a work type, `WORK_TYPE_LDPC` or `WORK_TYPE_FFT`. -/
def WorkType.code : WorkType → Nat
  | .ldpc => 1
  | .fft => 2

/-- `cxl_ctrl_block_t`. -/
structure CtrlBlock where
  l1Ready : Nat
  gpuDone : Nat
  workType : Nat
  inputOffset : Nat
  inputLen : Nat
  outputOffset : Nat
  outputLen : Nat
  timestampL1 : Nat
  timestampGpu : Nat
deriving DecidableEq, Repr

/-- The control block behind `cxl_setup_ctrl`. -/
def CtrlBlock.cleared : CtrlBlock := ⟨0, 0, 0, 0, 0, 0, 0, 0, 0⟩

/-- The input and the output buffer. -/
structure Buffers where
  input : Nat → BitVec 8
  output : Nat → BitVec 8

/-- `struct offload_event`. -/
structure OffloadEvent where
  workType : Nat
  pid : Nat
  inputAddr : Nat
  outputAddr : Nat
  inputLen : Nat
  outputLen : Nat
  timestampNs : Nat
deriving DecidableEq, Repr

/-- An array behind a loop that stores its first `n` elements. -/
def storeFirst {α : Type} (n : Nat) (array values : Nat → α) : Nat → α :=
  fun i => if i < n then values i else array i

/-! ### Calls -/

/-- What a call of `l1_offload_try` asks for: the bytes it copies in and the number of bytes it
copies out.  They fit the buffers, and an FFT has one size for both. -/
structure OffloadCall where
  workType : WorkType
  input : List (BitVec 8)
  outputLen : Nat
  input_fits : input.length ≤ cxlRegionL1InputSz
  output_fits : outputLen ≤ cxlRegionGpuOutputSz
  fft_sizes : workType = .fft → outputLen = input.length
deriving DecidableEq

/-- The event that belongs to a call. -/
def ownEvent (pid : Nat) (call : OffloadCall) : OffloadEvent where
  workType := call.workType.code
  pid := pid
  inputAddr := cxlRegionL1InputOff
  outputAddr := cxlRegionGpuOutputOff
  inputLen := call.input.length
  outputLen := call.outputLen
  timestampNs := 0

/-- A length is stored in 32 bits. -/
theorem inputLen_mod (call : OffloadCall) :
    call.input.length % 2 ^ 32 = call.input.length := by
  apply Nat.mod_eq_of_lt
  exact Nat.lt_of_le_of_lt call.input_fits (by decide)

theorem outputLen_mod (call : OffloadCall) : call.outputLen % 2 ^ 32 = call.outputLen := by
  apply Nat.mod_eq_of_lt
  exact Nat.lt_of_le_of_lt call.output_fits (by decide)

/-! ### The daemon's results -/

/-- A step of the daemon's computation on its own memory and the buffers. -/
abbrev DaemonOp (Daemon : Type) : Type := Daemon × Buffers → Daemon × Buffers

/-- A computation that nobody disturbs. -/
def runOps {Daemon : Type} (ops : List (DaemonOp Daemon)) (state : Daemon × Buffers) :
    Daemon × Buffers :=
  ops.foldl (fun state op => op state) state

theorem runOps_concat {Daemon : Type} (ops : List (DaemonOp Daemon)) (op : DaemonOp Daemon)
    (state : Daemon × Buffers) : runOps (ops ++ [op]) state = op (runOps ops state) := by
  rw [runOps, List.foldl_append]
  rfl

/-- The input of a call stands in the input buffer. -/
def HoldsInput (call : OffloadCall) (buffers : Buffers) : Prop :=
  ∀ i < call.input.length, buffers.input i = call.input.getD i 0

/-- The bytes that a call copies out. -/
def outputBytes (buffers : Buffers) (count : Nat) : List (BitVec 8) :=
  (List.range count).map buffers.output

theorem outputBytes_succ (buffers : Buffers) (count : Nat) :
    outputBytes buffers (count + 1) = outputBytes buffers count ++ [buffers.output count] := by
  rw [outputBytes, List.range_succ, List.map_append]
  rfl

/-- The buffers are what the daemon computes for an event from the input of a call, with its own
memory as `good` says. -/
def Computed {Daemon : Type} (compute : OffloadEvent → List (DaemonOp Daemon))
    (good : Daemon → Prop) (call : OffloadCall) (event : OffloadEvent) (buffers : Buffers) :
    Prop :=
  ∃ daemon before, good daemon ∧ HoldsInput call before ∧
    buffers = (runOps (compute event) (daemon, before)).2

/-- The bytes that a call copies out are computed from its input: they come out the same wherever
its input stands in the input buffer, whatever else the buffers and the daemon's memory hold. -/
def FixesOutput {Daemon : Type} (compute : OffloadEvent → List (DaemonOp Daemon))
    (good : Daemon → Prop) (call : OffloadCall) (event : OffloadEvent) : Prop :=
  ∀ one two : Daemon × Buffers, good one.1 → good two.1 → HoldsInput call one.2 →
    HoldsInput call two.2 →
      outputBytes (runOps (compute event) one).2 call.outputLen =
        outputBytes (runOps (compute event) two).2 call.outputLen

/-- Buffers with the input of a call. -/
def Buffers.holding (call : OffloadCall) (output : Nat → BitVec 8) : Buffers where
  input := (call.input.getD · 0)
  output := output

theorem holdsInput_holding (call : OffloadCall) (output : Nat → BitVec 8) :
    HoldsInput call (.holding call output) := fun _ _ => rfl

/-- Steps that leave the output buffer alone. -/
theorem output_runOps {Daemon : Type} {good : Daemon → Prop} {ops : List (DaemonOp Daemon)}
    (alone : ∀ op ∈ ops, ∀ state, good state.1 →
      good (op state).1 ∧ (op state).2.output = state.2.output)
    {state : Daemon × Buffers} (memory : good state.1) :
    (runOps ops state).2.output = state.2.output := by
  induction ops generalizing state with
  | nil => rfl
  | cons op ops ih =>
      obtain ⟨first, rest⟩ := List.forall_mem_cons.mp alone
      obtain ⟨kept, same⟩ := first state memory
      exact (ih rest kept).trans same

/-- A computation that leaves the output buffer alone gives no bytes to copy out: it fixes the
output of a call only when that is empty. -/
theorem fixesOutput_iff_of_alone {Daemon : Type} {compute : OffloadEvent → List (DaemonOp Daemon)}
    {good : Daemon → Prop} {daemon : Daemon} (memory : good daemon) {event : OffloadEvent}
    (alone : ∀ op ∈ compute event, ∀ state, good state.1 →
      good (op state).1 ∧ (op state).2.output = state.2.output)
    (call : OffloadCall) : FixesOutput compute good call event ↔ call.outputLen = 0 := by
  constructor
  · intro fixes
    by_contra some
    have same := fixes (daemon, .holding call fun _ => 0) (daemon, .holding call fun _ => 1)
      memory memory (holdsInput_holding call _) (holdsInput_holding call _)
    rw [outputBytes, outputBytes, output_runOps alone memory, output_runOps alone memory] at same
    have first := (List.map_inj_left.mp same) 0 (List.mem_range.mpr (Nat.pos_of_ne_zero some))
    exact absurd (show (0 : BitVec 8) = 1 from first) (by decide)
  · intro none one two _ _ _ _
    rw [none]
    rfl

end RanInline.Offload
