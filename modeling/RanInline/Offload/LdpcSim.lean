/-
Module: RanInline.Offload.LdpcSim
Purpose: The decoder of l1_sim/ldpc.c, in the L1 process and in the daemon of gpu_daemon.c with
  its bare-C path, and whether an offloaded decode can be told from a local one.
Trusted boundary: none
Main exports: LdpcState, ldpcInit, ldpcMinSumBlock, ldpcDecodeInternal, gpuComputeLdpc, bareC,
  LdpcParams, Transparent, ldpc_offload_never_transparent
-/
import RanInline.Ldpc.Arith
import RanInline.Offload.Sync

namespace RanInline.Offload

open RanInline.Lib RanInline.Ldpc

/-! ### ldpc.c -/

/-- `LDPC_MAX_CB_SIZE`. -/
def ldpcMaxCbSize : Nat := 8448

/-- `LDPC_MAX_ITER_DEFAULT`. -/
def ldpcMaxIterDefault : Nat := 20

/-- `LDPC_MAX_ITER_LARGE`. -/
def ldpcMaxIterLarge : Nat := 50

/-- The static variables of `ldpc.c`. -/
structure LdpcState where
  maxIterations : Nat
  ready : Bool
  llrBuf : Nat → Int
  msgBuf : Nat → Int
  bufCapacity : Nat

/-- The static variables of a process that starts. -/
def LdpcState.initial : LdpcState where
  maxIterations := ldpcMaxIterDefault
  ready := false
  llrBuf := fun _ => 0
  msgBuf := fun _ => 0
  bufCapacity := 0

/-- `ldpc_init`, for allocations that succeed or not. -/
def ldpcInit (allocated : Bool) (state : LdpcState) : LdpcState × Int :=
  if state.ready then (state, 0)
  else
    let state := { state with
      bufCapacity := ldpcMaxCbSize, llrBuf := fun _ => 0, msgBuf := fun _ => 0 }
    if allocated then ({ state with ready := true }, 0) else (state, -1)

/-- One term of the check-node chain.  The exclusive or of two numbers is negative when their
signs differ. -/
def minSumTerm (acc m : Int) : Int :=
  toChar
    (if (acc < 0 ↔ m < 0) then (if acc.natAbs < m.natAbs then acc else m)
    else if 0 < acc then -m.natAbs else m.natAbs)

/-- The message of a position: the chain over 31 other positions. -/
def minSumMessage (llr : Nat → Int) (n i : Nat) : Int :=
  (List.range' 1 31).foldl (fun acc j => minSumTerm acc (llr ((i * 9973 + j * 4099) % n))) (llr i)

/-- The total of a position: a quarter of 24 messages is added to it. -/
def minSumTotal (llr msg : Nat → Int) (n i : Nat) : Int :=
  (List.range 24).foldl
    (fun total j => toChar (total + (msg ((i * 6151 + j * 3571) % n)).tdiv 4)) (llr i)

/-- `total < 0 ? 1 : 0`. -/
def hardBit (llr : Int) : BitVec 8 := if llr < 0 then 1 else 0

/-- One iteration of `ldpc_min_sum_block`.  The totals are stored in the buffer that `llr` points
to; a total reads only its own LLR. -/
def minSumIteration (n : Nat) (state : LdpcState × (Nat → BitVec 8)) :
    LdpcState × (Nat → BitVec 8) :=
  let msgBuf := storeFirst n state.1.msgBuf (minSumMessage state.1.llrBuf n)
  let totals := minSumTotal state.1.llrBuf msgBuf n
  ({ state.1 with msgBuf := msgBuf, llrBuf := storeFirst n state.1.llrBuf totals },
   storeFirst n state.2 fun i => hardBit (totals i))

/-- `ldpc_min_sum_block` on `g_llr_buf`. -/
def ldpcMinSumBlock (state : LdpcState) (out : Nat → BitVec 8) (numBits iterations : Nat) :
    LdpcState × (Nat → BitVec 8) :=
  if numBits = 0 then (state, out)
  else
    (List.range iterations).foldl (fun state _ => minSumIteration numBits state)
      (state, storeFirst numBits out fun i => hardBit (state.llrBuf i))

/-- `ldpc_decode_internal`: the static variables and the output buffer behind it, and its return
value. -/
def ldpcDecodeInternal (state : LdpcState) (input : Nat → BitVec 8) (inputLen : Nat)
    (liftingSize : Int) (output : Nat → BitVec 8) : (LdpcState × (Nat → BitVec 8)) × Int :=
  if !state.ready then ((state, output), -1)
  else
    let nbits := min inputLen state.bufCapacity
    let state := { state with llrBuf := storeFirst nbits state.llrBuf fun i => (input i).toInt }
    let iters := if 384 ≤ liftingSize ∧ 4096 < nbits then ldpcMaxIterLarge else state.maxIterations
    (ldpcMinSumBlock state output nbits iters, 0)

/-! ### The daemon -/

/-- `cxl_ptr`: what is read behind an address of the region's buffers. -/
def cxlPtr (buffers : Buffers) (addr : Nat) (i : Nat) : BitVec 8 :=
  let off := addr % 0x20000000
  if off + i < cxlRegionGpuOutputOff then buffers.input (off + i)
  else buffers.output (off + i - cxlRegionGpuOutputOff)

/-- `gpu_compute_ldpc`, with its return value. -/
def gpuComputeLdpc (event : OffloadEvent) (state : LdpcState × Buffers) :
    (LdpcState × Buffers) × Int :=
  let inputLen := if event.inputLen ≠ 0 then event.inputLen else 8448
  let ((ldpc, output), ret) :=
    ldpcDecodeInternal state.1 (cxlPtr state.2 event.inputAddr) inputLen 384 state.2.output
  ((ldpc, { state.2 with output := output }), ret)

section Daemon

variable {Fft : Type} (pid : Nat) (fft : OffloadEvent → List (DaemonOp Fft))

/-- The worker's computation without OpenCL.  The FFT has static variables of its own. -/
def bareC (event : OffloadEvent) : List (DaemonOp (LdpcState × Fft)) :=
  if event.workType = WorkType.ldpc.code then
    [fun state =>
      let (ldpc, buffers) := (gpuComputeLdpc event (state.1.1, state.2)).1
      ((ldpc, state.1.2), buffers)]
  else
    (fft event).map fun op state =>
      let (memory, buffers) := op (state.1.2, state.2)
      ((state.1.1, memory), buffers)

/-- The daemon behind its `main`, which does not call `ldpc_init`. -/
def NotInitialised (daemon : LdpcState × Fft) : Prop := daemon.1 = .initial

/-- A decoder that is not ready does nothing. -/
theorem gpuComputeLdpc_initial (event : OffloadEvent) (buffers : Buffers) :
    gpuComputeLdpc event (.initial, buffers) = ((.initial, buffers), -1) := rfl

theorem notInitialised_bareC (event : OffloadEvent) :
    ∀ op ∈ bareC fft event, ∀ daemon buffers, NotInitialised daemon →
      NotInitialised (op (daemon, buffers)).1 := by
  rintro op member ⟨ldpc, memory⟩ buffers rfl
  rw [bareC] at member
  split_ifs at member
  · rw [List.mem_singleton] at member
    rw [member]
    rfl
  · obtain ⟨part, _, rfl⟩ := List.mem_map.mp member
    rfl

/-- The daemon fixes the output of no LDPC call that copies something out. -/
theorem fixesOutput_bareC_iff (memory : Fft) {call : OffloadCall} (ldpc : call.workType = .ldpc) :
    FixesOutput (bareC fft) NotInitialised call (ownEvent pid call) ↔ call.outputLen = 0 := by
  have fresh : NotInitialised (LdpcState.initial, memory) := rfl
  refine fixesOutput_iff_of_alone fresh ?_ call
  rintro op member ⟨⟨initial, others⟩, buffers⟩ rfl
  rw [bareC, if_pos (by rw [ownEvent, ldpc]), List.mem_singleton] at member
  rw [member]
  exact ⟨rfl, rfl⟩

/-- Such a call can return 0 with bytes that are not its own result, though no other event is on
its way. -/
theorem exists_foreign_ldpc_return (memory : Fft) {call : OffloadCall}
    (ldpc : call.workType = .ldpc) (some : call.outputLen ≠ 0) :
    ∃ state, (offloadSystem pid (bareC fft) NotInitialised).Reaches NothingOutstanding state ∧
      ∃ result ∈ state.returned, result.call = call ∧
        ¬ OwnResult pid (bareC fft) NotInitialised result :=
  exists_foreign_return (notInitialised_bareC fft)
    (show NotInitialised (LdpcState.initial, memory) from rfl) call
    (mt (fixesOutput_bareC_iff pid fft memory ldpc).mp some)

/-! ### Offloaded and local decoding -/

/-- A parameter block of `ldpc_decode` with equal lengths. -/
structure LdpcParams where
  input : List (BitVec 8)
  baseGraph : Int
  liftingSize : Int
  nonempty : 1 ≤ input.length
  fits : input.length ≤ ldpcMaxCbSize

/-- The call of `l1_offload_try` for it. -/
def LdpcParams.call (params : LdpcParams) : OffloadCall where
  workType := .ldpc
  input := params.input
  outputLen := params.input.length
  input_fits := Nat.le_trans params.fits (by decide)
  output_fits := Nat.le_trans params.fits (by decide)
  fft_sizes := fun wrong => nomatch wrong

/-- The bytes that `ldpc_decode_internal` leaves in the output of the parameter block in a process
with these static variables. -/
def LdpcParams.localOutput (params : LdpcParams) (state : LdpcState) : List (BitVec 8) :=
  let decoded := ldpcDecodeInternal state (params.input.getD · 0) params.input.length
    params.liftingSize fun _ => 0
  (List.range params.input.length).map decoded.1.2

/-- Offloading a decode cannot be told from decoding locally: in every run in which no call begins
while an event is outstanding, a call for the parameter block that returns 0 leaves the bytes that
the L1 process would have produced, and the daemon could compute the job. -/
def Transparent (l1 : LdpcState) (params : LdpcParams) : Prop :=
  ∀ state, (offloadSystem pid (bareC fft) NotInitialised).Reaches NothingOutstanding state →
    ∀ result ∈ state.returned, result.call = params.call →
      result.output = params.localOutput l1 ∧
        (gpuComputeLdpc (ownEvent pid params.call) (state.daemon.1, state.buffers)).2 = 0

/-- The call returns 0 although the daemon cannot compute the job. -/
theorem exists_uncomputed_return (memory : Fft) (params : LdpcParams) :
    ∃ state, (offloadSystem pid (bareC fft) NotInitialised).Reaches NothingOutstanding state ∧
      (∃ output, state.returned = [⟨params.call, output⟩]) ∧
      ∀ event buffers, (gpuComputeLdpc event (state.daemon.1, buffers)).2 = -1 := by
  obtain ⟨state, run, returned⟩ := @exists_return _ pid (bareC fft) NotInitialised
    (LdpcState.initial, memory) rfl ⟨fun _ => 0, fun _ => 0⟩ params.call
  have sound := sound_of_reaches (notInitialised_bareC fft) run
  refine ⟨state, run, returned, fun event buffers => ?_⟩
  rw [show state.daemon.1 = .initial from sound.daemon, gpuComputeLdpc_initial]

end Daemon

/-- With the daemon as its `main` starts it, no parameter block is decoded transparently, whatever
the L1 process has initialised: the daemon's decoder is never ready, and the call returns 0 all
the same. -/
theorem ldpc_offload_never_transparent {Fft : Type} (pid : Nat)
    (fft : OffloadEvent → List (DaemonOp Fft)) (memory : Fft) (l1 : LdpcState)
    (params : LdpcParams) : ¬ Transparent pid fft l1 params := by
  intro transparent
  obtain ⟨state, run, ⟨output, returned⟩, fails⟩ :=
    exists_uncomputed_return pid fft memory params
  have computed := (transparent state run ⟨params.call, output⟩
    (returned ▸ List.mem_singleton_self _) rfl).2
  rw [fails] at computed
  exact absurd computed (by decide)

/-- One LLR of -1. -/
private def oneLlr : LdpcParams where
  input := [255]
  baseGraph := 1
  liftingSize := 384
  nonempty := by decide
  fits := by decide

private def startedDaemon : OffloadState (LdpcState × Unit) where
  ctrl := .cleared
  buffers := ⟨fun _ => 0, fun _ => 0⟩
  l1 := .idle
  socket := []
  queue := []
  worker := none
  daemon := (.initial, ())
  returned := []

/-- The call for one LLR, served by the daemon. -/
private def oneLlrSteps : List OffloadAction :=
  List.replicate 14 (OffloadAction.request 0) ++
    [OffloadAction.receive, OffloadAction.dequeue] ++
    List.replicate 8 (OffloadAction.work 0) ++
    [OffloadAction.seeDone, OffloadAction.copyOut, OffloadAction.finish]

/-- A single LLR of -1 stays as it is. -/
private theorem minSumIteration_oneLlr {state : LdpcState × (Nat → BitVec 8)}
    (llr : state.1.llrBuf 0 = -1) :
    (minSumIteration 1 state).1.llrBuf 0 = -1 ∧ (minSumIteration 1 state).2 0 = 1 := by
  have message : minSumMessage state.1.llrBuf 1 0 = -1 := by
    simp only [minSumMessage, Nat.mod_one, llr]
    decide +kernel
  have total : minSumTotal state.1.llrBuf
      (storeFirst 1 state.1.msgBuf (minSumMessage state.1.llrBuf 1)) 1 0 = -1 := by
    simp only [minSumTotal, Nat.mod_one, storeFirst, Nat.zero_lt_one, if_true, message, llr]
    decide +kernel
  have first {α : Type} (array values : Nat → α) : storeFirst 1 array values 0 = values 0 :=
    if_pos Nat.zero_lt_one
  simp only [minSumIteration, first, total]
  exact ⟨trivial, rfl⟩

private theorem localOutput_oneLlr : oneLlr.localOutput (ldpcInit true .initial).1 = [1] := by
  have decoded : ∀ iterations (state : LdpcState × (Nat → BitVec 8)),
      state.1.llrBuf 0 = -1 → state.2 0 = 1 →
        ((List.range iterations).foldl (fun state _ => minSumIteration 1 state) state).2 0 =
          1 := by
    intro iterations
    generalize List.range iterations = turns
    induction turns with
    | nil => exact fun _ _ out => out
    | cons _ rest ih =>
        intro state llr _
        obtain ⟨kept, one⟩ := minSumIteration_oneLlr llr
        exact ih _ kept one
  exact congrArg (fun byte => [byte]) (decoded _ _ rfl rfl)

/-- The L1 process would decode the LLR to a one, the offloaded call returns 0 with the zero that
the output buffer held. -/
theorem one_llr_not_decoded :
    ¬ ∀ (pid : Nat) (fft : OffloadEvent → List (DaemonOp Unit)) (params : LdpcParams),
      Transparent pid fft (ldpcInit true .initial).1 params := by
  intro claim
  have executed : ((TransitionSystem.execute (offloadNext 7 (bareC fun _ => [])) startedDaemon
      (.begin oneLlr.call :: oneLlrSteps)).map fun state =>
        state.returned.map fun result => (result.call, result.output)) =
        some [(oneLlr.call, [0])] := by
    decide +kernel
  obtain ⟨last, ran, returned⟩ := Option.map_eq_some_iff.mp executed
  obtain ⟨begun, first, rest⟩ := Option.bind_eq_some_iff.mp ran
  have start : (offloadSystem 7 (bareC fun _ => []) NotInitialised).Reaches NothingOutstanding
      startedDaemon := .start ⟨⟨rfl, rfl, rfl, rfl, rfl, rfl⟩, rfl⟩
  have run := (TransitionSystem.Reaches.next start
    (show NothingOutstanding startedDaemon (.begin oneLlr.call) from rfl) first).follow
      (fun _ _ _ step => step) oneLlrSteps (by simp [oneLlrSteps, NothingOutstanding]) rest
  have shown : (oneLlr.call, [0]) ∈
      last.returned.map fun result => (result.call, result.output) := by
    rw [returned]
    exact List.mem_singleton_self _
  obtain ⟨result, member, same⟩ := List.mem_map.mp shown
  obtain ⟨called, output⟩ := Prod.mk.inj same
  have decoded := (claim 7 (fun _ => []) oneLlr last run result member called).1
  rw [output, localOutput_oneLlr] at decoded
  exact absurd decoded (by decide)

end RanInline.Offload
