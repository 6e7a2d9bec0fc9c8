/-
Module: RanInline.Offload.Sync
Purpose: The synchronous path of l1_offload_try against gpu_daemon: the stores and loads of both
  sides as steps, the daemon's socket and queue, and whose result a call returns.
Trusted boundary: none
Main exports: OffloadState, OffloadAction, offloadNext, offloadSystem, NothingOutstanding,
  sound_of_reaches, OwnResult, BeginsFixed, ownResult_iff_fixesOutput,
  sync_offload_returns_own_result
-/
import RanInline.Lib.Transition
import RanInline.Offload.Region

namespace RanInline.Offload

open RanInline.Lib

/-! ### The L1 thread -/

/-- The accesses of a request in their order. -/
inductive RequestStage where
  | clearDone
  | clearReady
  | setWorkType
  | copyInput (i : Nat)
  | setInputOffset
  | setInputLen
  | setOutputOffset
  | setOutputLen
  | readInputLen
  | readOutputLen
  | setTimestamp
  | setReady
  | send
deriving DecidableEq, Repr

/-- Where the L1 thread stands in `l1_offload_try`; a request has the lengths of its event. -/
inductive L1Thread where
  | idle
  | request (call : OffloadCall) (inputLen outputLen : Nat) (stage : RequestStage)
  | waiting (call : OffloadCall) (event : OffloadEvent)
  | copying (call : OffloadCall) (event : OffloadEvent) (output : List (BitVec 8))

/-! ### The daemon -/

/-- `MAX_QUEUE_DEPTH`. -/
def maxQueueDepth : Nat := 64

/-- The stores of the worker in front of the computation. -/
inductive PrepareOp where
  | setWorkType
  | setInputLen
  | setOutputLen
  | setReady
  | clearDone
deriving DecidableEq, Repr

/-- Their order. -/
def prepareOps : List PrepareOp :=
  [.setWorkType, .setInputLen, .setOutputLen, .setReady, .clearDone]

/-- A store of the worker. -/
def PrepareOp.apply (event : OffloadEvent) (ctrl : CtrlBlock) : PrepareOp → CtrlBlock
  | .setWorkType => { ctrl with workType := event.workType }
  | .setInputLen => { ctrl with inputLen := event.inputLen }
  | .setOutputLen => { ctrl with outputLen := event.outputLen }
  | .setReady => { ctrl with l1Ready := 1 }
  | .clearDone => { ctrl with gpuDone := 0 }

/-- What the worker does with an event: the stores, the computation with the completion behind
its last step, and the time stamp. -/
inductive Job (Daemon : Type) where
  | preparing (event : OffloadEvent) (left : List PrepareOp)
  | computing (event : OffloadEvent) (left : List (DaemonOp Daemon))
  | stamping

/-! ### The system -/

/-- A call that returned 0, with the bytes it copied out. -/
structure Return where
  call : OffloadCall
  output : List (BitVec 8)

/-- The region, both processes, and the events between them: those in the socket and those in the
daemon's queue. -/
structure OffloadState (Daemon : Type) where
  ctrl : CtrlBlock
  buffers : Buffers
  l1 : L1Thread
  socket : List OffloadEvent
  queue : List OffloadEvent
  worker : Option (Job Daemon)
  daemon : Daemon
  returned : List Return

/-- The steps: a call begins, makes its next access, fails to send, sees `gpu_done`, gives up
after the timeout, copies a byte out or returns 0; the daemon receives an event, takes one from
the queue, or makes its next access.  Where a time is stored, the step brings it. -/
inductive OffloadAction where
  | begin (call : OffloadCall)
  | request (clock : Nat)
  | sendFails
  | seeDone
  | timeout
  | copyOut
  | finish
  | receive
  | dequeue
  | work (clock : Nat)

section System

variable {Daemon : Type} (pid : Nat) (compute : OffloadEvent → List (DaemonOp Daemon))

/-- The next access of a request. -/
def requestNext (state : OffloadState Daemon) (call : OffloadCall)
    (inputLen outputLen clock : Nat) : RequestStage → OffloadState Daemon
  | .clearDone =>
      { state with
        ctrl := { state.ctrl with gpuDone := 0 }
        l1 := .request call inputLen outputLen .clearReady }
  | .clearReady =>
      { state with
        ctrl := { state.ctrl with l1Ready := 0 }
        l1 := .request call inputLen outputLen .setWorkType }
  | .setWorkType =>
      { state with
        ctrl := { state.ctrl with workType := call.workType.code }
        l1 := .request call inputLen outputLen (.copyInput 0) }
  | .copyInput i =>
      if i < call.input.length then
        { state with
          buffers :=
            { state.buffers with
              input := Function.update state.buffers.input i (call.input.getD i 0) }
          l1 := .request call inputLen outputLen (.copyInput (i + 1)) }
      else { state with l1 := .request call inputLen outputLen .setInputOffset }
  | .setInputOffset =>
      { state with
        ctrl := { state.ctrl with inputOffset := cxlRegionL1InputOff }
        l1 := .request call inputLen outputLen .setInputLen }
  | .setInputLen =>
      { state with
        ctrl := { state.ctrl with inputLen := call.input.length % 2 ^ 32 }
        l1 := .request call inputLen outputLen .setOutputOffset }
  | .setOutputOffset =>
      { state with
        ctrl := { state.ctrl with outputOffset := cxlRegionGpuOutputOff }
        l1 := .request call inputLen outputLen .setOutputLen }
  | .setOutputLen =>
      { state with
        ctrl := { state.ctrl with outputLen := call.outputLen % 2 ^ 32 }
        l1 := .request call inputLen outputLen .readInputLen }
  | .readInputLen =>
      { state with
        l1 := .request call state.ctrl.inputLen outputLen .readOutputLen }
  | .readOutputLen =>
      { state with
        l1 := .request call inputLen state.ctrl.outputLen .setTimestamp }
  | .setTimestamp =>
      { state with
        ctrl := { state.ctrl with timestampL1 := clock }
        l1 := .request call inputLen outputLen .setReady }
  | .setReady =>
      { state with
        ctrl := { state.ctrl with l1Ready := 1 }
        l1 := .request call inputLen outputLen .send }
  | .send =>
      let event :=
        { ownEvent pid call with inputLen := inputLen, outputLen := outputLen }
      { state with
        socket := state.socket ++ [event]
        l1 := .waiting call event }

/-- The next access of the worker. -/
def workNext (state : OffloadState Daemon) (clock : Nat) : Job Daemon → OffloadState Daemon
  | .preparing event [] => { state with worker := some (.computing event (compute event)) }
  | .preparing event (op :: left) =>
      { state with
        ctrl := op.apply event state.ctrl
        worker := some (.preparing event left) }
  | .computing event (op :: left) =>
      { state with
        daemon := (op (state.daemon, state.buffers)).1
        buffers := (op (state.daemon, state.buffers)).2
        worker := some (.computing event left) }
  | .computing _ [] =>
      { state with
        ctrl := { state.ctrl with gpuDone := 1 }
        worker := some .stamping }
  | .stamping =>
      { state with
        ctrl := { state.ctrl with timestampGpu := clock }
        worker := none }

/-- One step; `none` when it is not enabled. -/
def offloadNext (state : OffloadState Daemon) : OffloadAction → Option (OffloadState Daemon)
  | .begin call =>
      match state.l1 with
      | .idle =>
          some { state with l1 := .request call 0 0 .clearDone }
      | _ => none
  | .request clock =>
      match state.l1 with
      | .request call inputLen outputLen stage =>
          some (requestNext pid state call inputLen outputLen clock stage)
      | _ => none
  | .sendFails =>
      match state.l1 with
      | .request _ _ _ .send => some { state with l1 := .idle }
      | _ => none
  | .seeDone =>
      match state.l1 with
      | .waiting call event =>
          if state.ctrl.gpuDone ≠ 0 then some { state with l1 := .copying call event [] } else none
      | _ => none
  | .timeout =>
      match state.l1 with
      | .waiting _ _ => some { state with l1 := .idle }
      | _ => none
  | .copyOut =>
      match state.l1 with
      | .copying call event output =>
          if output.length < call.outputLen then
            some
              { state with
                l1 := .copying call event (output ++ [state.buffers.output output.length]) }
          else none
      | _ => none
  | .finish =>
      match state.l1 with
      | .copying call _ output =>
          if output.length < call.outputLen then none
          else
            some { state with l1 := .idle, returned := state.returned ++ [⟨call, output⟩] }
      | _ => none
  | .receive =>
      match state.socket with
      | [] => none
      | event :: rest =>
          if state.queue.length < maxQueueDepth then
            some { state with socket := rest, queue := state.queue ++ [event] }
          else some { state with socket := rest }
  | .dequeue =>
      match state.worker, state.queue with
      | none, event :: rest =>
          some { state with queue := rest, worker := some (.preparing event prepareOps) }
      | _, _ => none
  | .work clock => state.worker.map (workNext compute state clock)

/-- The states before the first call: the control block is cleared, no event is on its way. -/
def OffloadState.Fresh (state : OffloadState Daemon) : Prop :=
  state.ctrl = .cleared ∧ state.l1 = .idle ∧ state.socket = [] ∧ state.queue = [] ∧
    state.worker = none ∧ state.returned = []

/-- The transition system, for daemons that start as `good` says. -/
def offloadSystem (good : Daemon → Prop) :
    TransitionSystem (OffloadState Daemon) OffloadAction where
  init := fun state => state.Fresh ∧ good state.daemon
  step := fun before action after => offloadNext pid compute before action = some after

/-! ### Outstanding events -/

/-- The events of earlier calls that the daemon has not completed. -/
def OffloadState.outstanding (state : OffloadState Daemon) : Nat :=
  state.socket.length + state.queue.length +
    match state.worker with
    | some (.preparing _ _) => 1
    | some (.computing _ _) => 1
    | _ => 0

/-- A call begins only when no earlier event is outstanding. -/
def NothingOutstanding (state : OffloadState Daemon) : OffloadAction → Prop
  | .begin _ => state.outstanding = 0
  | _ => True

/-! ### The invariant -/

variable (good : Daemon → Prop)

/-- The position of a stage. -/
def RequestStage.rank : RequestStage → Nat
  | .clearDone => 0
  | .clearReady => 1
  | .setWorkType => 2
  | .copyInput _ => 3
  | .setInputOffset => 4
  | .setInputLen => 5
  | .setOutputOffset => 6
  | .setOutputLen => 7
  | .readInputLen => 8
  | .readOutputLen => 9
  | .setTimestamp => 10
  | .setReady => 11
  | .send => 12

/-- A request before it is sent: nothing is outstanding, and what it has stored still stands. -/
structure RequestSound (state : OffloadState Daemon) (call : OffloadCall)
    (inputLen outputLen : Nat) (stage : RequestStage) : Prop where
  quiet : state.outstanding = 0
  running : 1 ≤ stage.rank → state.ctrl.gpuDone = 0
  copied : ∀ i, stage = .copyInput i → i ≤ call.input.length ∧
    ∀ j < i, state.buffers.input j = call.input.getD j 0
  held : 4 ≤ stage.rank → HoldsInput call state.buffers
  inputStored : 6 ≤ stage.rank → state.ctrl.inputLen = call.input.length
  outputStored : 8 ≤ stage.rank → state.ctrl.outputLen = call.outputLen
  inputRead : 9 ≤ stage.rank → inputLen = call.input.length
  outputRead : 10 ≤ stage.rank → outputLen = call.outputLen

/-- The worker is not busy with an event that is not completed. -/
def OffloadState.WorkerFree (state : OffloadState Daemon) : Prop :=
  state.worker = none ∨ state.worker = some .stamping

/-- How far the only event on its way has come, or that it is completed. -/
inductive Underway (call : OffloadCall) (event : OffloadEvent) (state : OffloadState Daemon) :
    Prop where
  | sent (socket : state.socket = [event]) (queue : state.queue = []) (worker : state.WorkerFree)
      (held : HoldsInput call state.buffers) (running : state.ctrl.gpuDone = 0)
  | queued (socket : state.socket = []) (queue : state.queue = [event])
      (worker : state.WorkerFree) (held : HoldsInput call state.buffers)
      (running : state.ctrl.gpuDone = 0)
  | preparing (left : List PrepareOp) (socket : state.socket = []) (queue : state.queue = [])
      (worker : state.worker = some (.preparing event left))
      (held : HoldsInput call state.buffers) (running : state.ctrl.gpuDone = 0)
  | computing (ran left : List (DaemonOp Daemon)) (daemon : Daemon) (before : Buffers)
      (split : compute event = ran ++ left) (socket : state.socket = [])
      (queue : state.queue = []) (worker : state.worker = some (.computing event left))
      (start : good daemon) (held : HoldsInput call before)
      (memory : (state.daemon, state.buffers) = runOps ran (daemon, before))
      (running : state.ctrl.gpuDone = 0)
  | completed (quiet : state.outstanding = 0)
      (result : Computed compute good call event state.buffers)

/-- What holds of the L1 thread. -/
def ThreadSound (state : OffloadState Daemon) : L1Thread → Prop
  | .idle => state.outstanding ≤ 1
  | .request call inputLen outputLen stage => RequestSound state call inputLen outputLen stage
  | .waiting call event => event = ownEvent pid call ∧ Underway compute good call event state
  | .copying call event output =>
      event = ownEvent pid call ∧ state.outstanding = 0 ∧
        Computed compute good call event state.buffers ∧
        output = outputBytes state.buffers output.length ∧ output.length ≤ call.outputLen

/-- A call copied out what some computation for its own input, work type and lengths left in the
output buffer. -/
def CopiedOut (result : Return) : Prop :=
  ∃ buffers, Computed compute good result.call (ownEvent pid result.call) buffers ∧
    result.output = outputBytes buffers result.call.outputLen

/-- A call returned the daemon's result computed from its own input, work type and lengths: the
bytes that the computation for them leaves, whatever else stood in the buffers and in the daemon's
memory before. -/
def OwnResult (result : Return) : Prop :=
  ∀ start : Daemon × Buffers, good start.1 → HoldsInput result.call start.2 →
    result.output =
      outputBytes (runOps (compute (ownEvent pid result.call)) start).2 result.call.outputLen

/-- A call begins only when no earlier event is outstanding, and only when the daemon computes the
bytes that it copies out from its input. -/
def BeginsFixed (state : OffloadState Daemon) : OffloadAction → Prop
  | .begin call =>
      state.outstanding = 0 ∧ FixesOutput compute good call (ownEvent pid call)
  | _ => True

/-- The invariant. -/
structure Sound (state : OffloadState Daemon) : Prop where
  daemon : good state.daemon
  ops : ∀ event left, state.worker = some (.computing event left) → left ⊆ compute event
  thread : ThreadSound pid compute good state state.l1
  returned : ∀ result ∈ state.returned, CopiedOut pid compute good result

end System

/-! ### One step of a request -/

section Steps

variable {Daemon : Type} {pid : Nat} {compute : OffloadEvent → List (DaemonOp Daemon)}
  {good : Daemon → Prop} {before after : OffloadState Daemon}

theorem RequestSound.begin (quiet : before.outstanding = 0) (call : OffloadCall) :
    RequestSound before call 0 0 .clearDone where
  quiet := quiet
  running := fun late => absurd late (by decide)
  copied := fun _ wrong => nomatch wrong
  held := fun late => absurd late (by decide)
  inputStored := fun late => absurd late (by decide)
  outputStored := fun late => absurd late (by decide)
  inputRead := fun late => absurd late (by decide)
  outputRead := fun late => absurd late (by decide)

/-- Nothing on its way and the worker free. -/
theorem outstanding_eq_zero_iff {state : OffloadState Daemon} :
    state.outstanding = 0 ↔ state.socket = [] ∧ state.queue = [] ∧ state.WorkerFree := by
  rw [OffloadState.outstanding, OffloadState.WorkerFree]
  rcases state.worker with _ | _ | _ | _ <;> simp

theorem threadSound_requestNext {call : OffloadCall} {inputLen outputLen : Nat}
    {stage : RequestStage} (sound : RequestSound before call inputLen outputLen stage)
    (clock : Nat) :
    ThreadSound pid compute good (requestNext pid before call inputLen outputLen clock stage)
      (requestNext pid before call inputLen outputLen clock stage).l1 := by
  obtain ⟨quiet, running, copied, held, inputStored, outputStored, inputRead, outputRead⟩ :=
    sound
  cases stage
  case copyInput i =>
    obtain ⟨_, already⟩ := copied i rfl
    rw [requestNext]
    split_ifs with inside
    · constructor
      case copied =>
        intro next same
        cases same
        refine ⟨inside, fun j less => ?_⟩
        by_cases here : j = i
        · rw [here]
          exact Function.update_self i _ _
        · exact (Function.update_of_ne here _ _).trans (already j (by omega))
      case quiet => exact quiet
      case running => exact running
      all_goals simp [RequestStage.rank]
    · constructor
      case held => exact fun _ j less => already j (by omega)
      case quiet => exact quiet
      case running => exact fun _ => running (by simp [RequestStage.rank])
      all_goals simp [RequestStage.rank]
  case send =>
    obtain ⟨socket, queue, worker⟩ := outstanding_eq_zero_iff.mp quiet
    have event : ({ ownEvent pid call with inputLen := inputLen, outputLen := outputLen } :
        OffloadEvent) = ownEvent pid call := by
      rw [inputRead (by decide), outputRead (by decide)]
      rfl
    refine ⟨event, .sent ?_ queue worker (held (by decide)) (running (by decide))⟩
    exact congrArg (· ++ [_]) socket
  -- Every other access stores one word or reads it back; the rest of what the request has
  -- stored stands as before.
  all_goals constructor
  all_goals first
    | exact quiet
    | exact fun late => absurd late (by decide)
    | exact fun _ => rfl
    | exact fun _ => running (by decide)
    | exact fun _ => held (by decide)
    | exact fun _ => inputLen_mod call
    | exact fun _ => outputLen_mod call
    | exact fun _ => inputStored (by decide)
    | exact fun _ => outputStored (by decide)
    | exact fun _ => inputRead (by decide)
    | exact fun _ => outputRead (by decide)
    | exact fun _ same => by
        cases same <;> exact ⟨Nat.zero_le _, fun _ less => absurd less (Nat.not_lt_zero _)⟩

/-- A request leaves the daemon alone. -/
theorem requestNext_frame (pid : Nat) (before : OffloadState Daemon) (call : OffloadCall)
    (inputLen outputLen clock : Nat) (stage : RequestStage) :
    (requestNext pid before call inputLen outputLen clock stage).daemon = before.daemon ∧
      (requestNext pid before call inputLen outputLen clock stage).worker = before.worker ∧
      (requestNext pid before call inputLen outputLen clock stage).returned =
        before.returned := by
  cases stage
  case copyInput i =>
    rw [requestNext]
    split_ifs <;> exact ⟨rfl, rfl, rfl⟩
  all_goals exact ⟨rfl, rfl, rfl⟩

/-! ### One step of the daemon -/

/-- What a step of the daemon can do. -/
inductive DaemonMove (compute : OffloadEvent → List (DaemonOp Daemon))
    (state : OffloadState Daemon) : OffloadState Daemon → Prop where
  | receive {event : OffloadEvent} {rest : List OffloadEvent}
      (socket : state.socket = event :: rest) (room : state.queue.length < maxQueueDepth) :
      DaemonMove compute state { state with socket := rest, queue := state.queue ++ [event] }
  | drop {event : OffloadEvent} {rest : List OffloadEvent}
      (socket : state.socket = event :: rest) (full : ¬ state.queue.length < maxQueueDepth) :
      DaemonMove compute state { state with socket := rest }
  | dequeue {event : OffloadEvent} {rest : List OffloadEvent} (worker : state.worker = none)
      (queue : state.queue = event :: rest) :
      DaemonMove compute state
        { state with queue := rest, worker := some (.preparing event prepareOps) }
  | start {event : OffloadEvent} (worker : state.worker = some (.preparing event [])) :
      DaemonMove compute state
        { state with worker := some (.computing event (compute event)) }
  | prepare {event : OffloadEvent} {op : PrepareOp} {left : List PrepareOp}
      (worker : state.worker = some (.preparing event (op :: left))) :
      DaemonMove compute state
        { state with
          ctrl := op.apply event state.ctrl
          worker := some (.preparing event left) }
  | work {event : OffloadEvent} {op : DaemonOp Daemon} {left : List (DaemonOp Daemon)}
      (worker : state.worker = some (.computing event (op :: left))) :
      DaemonMove compute state
        { state with
          daemon := (op (state.daemon, state.buffers)).1
          buffers := (op (state.daemon, state.buffers)).2
          worker := some (.computing event left) }
  | complete {event : OffloadEvent} (worker : state.worker = some (.computing event [])) :
      DaemonMove compute state
        { state with
          ctrl := { state.ctrl with gpuDone := 1 }
          worker := some .stamping }
  | stamp (clock : Nat) (worker : state.worker = some .stamping) :
      DaemonMove compute state
        { state with
          ctrl := { state.ctrl with timestampGpu := clock }
          worker := none }

theorem daemonMove_of_step {action : OffloadAction}
    (daemonSide : action = .receive ∨ action = .dequeue ∨ ∃ clock, action = .work clock)
    (step : offloadNext pid compute before action = some after) :
    DaemonMove compute before after := by
  rcases daemonSide with rfl | rfl | ⟨clock, rfl⟩
  · simp only [offloadNext] at step
    split at step
    · exact absurd step (by simp)
    · rename_i event rest socket
      split_ifs at step with room
      · cases step
        exact .receive socket room
      · cases step
        exact .drop socket room
  · simp only [offloadNext] at step
    split at step
    · rename_i event rest worker queue
      cases step
      exact .dequeue worker queue
    · exact absurd step (by simp)
  · simp only [offloadNext, Option.map_eq_some_iff] at step
    obtain ⟨job, worker, rfl⟩ := step
    rcases job with ⟨event, _ | ⟨op, left⟩⟩ | ⟨event, _ | ⟨op, left⟩⟩ | _
    · exact .start worker
    · exact .prepare worker
    · exact .complete worker
    · exact .work worker
    · exact .stamp clock worker

/-- A free worker has at most its last time stamp to store. -/
theorem OffloadState.WorkerFree.eq_stamping {job : Job Daemon} (free : before.WorkerFree)
    (worker : before.worker = some job) : job = .stamping := by
  rcases free with none | stamping
  · rw [none] at worker
    cases worker
  · rw [stamping] at worker
    exact (Option.some.inj worker).symm

/-- With nothing outstanding the daemon can only store its last time stamp. -/
theorem DaemonMove.quiet (quiet : before.outstanding = 0)
    (move : DaemonMove compute before after) :
    ∃ clock, after =
      { before with ctrl := { before.ctrl with timestampGpu := clock }, worker := none } := by
  obtain ⟨noSocket, noQueue, free⟩ := outstanding_eq_zero_iff.mp quiet
  cases move with
  | receive socket | drop socket =>
      rw [noSocket] at socket
      cases socket
  | dequeue _ queue =>
      rw [noQueue] at queue
      cases queue
  | stamp clock => exact ⟨clock, rfl⟩
  | start worker | prepare worker | work worker | complete worker =>
      cases free.eq_stamping worker

/-- The daemon gains no event. -/
theorem DaemonMove.outstanding_le (move : DaemonMove compute before after) :
    after.outstanding ≤ before.outstanding := by
  cases move with
  | receive socket | drop socket =>
      simp only [OffloadState.outstanding, socket, List.length_append, List.length_cons,
        List.length_nil]
      omega
  | dequeue worker queue =>
      simp only [OffloadState.outstanding, worker, queue, List.length_cons]
      omega
  | start worker | prepare worker | work worker | complete worker | stamp _ worker =>
      simp only [OffloadState.outstanding, worker]
      omega

theorem PrepareOp.gpuDone_apply (op : PrepareOp) (event : OffloadEvent) {ctrl : CtrlBlock}
    (running : ctrl.gpuDone = 0) : (op.apply event ctrl).gpuDone = 0 := by
  cases op <;> first | exact running | rfl

/-- The daemon brings the event of a waiting call closer to its completion. -/
theorem Underway.daemonMove {call : OffloadCall} {event : OffloadEvent}
    (underway : Underway compute good call event before) (memory : good before.daemon)
    (move : DaemonMove compute before after) : Underway compute good call event after := by
  cases underway with
  | completed quiet result =>
      have fewer := move.outstanding_le
      obtain ⟨clock, rfl⟩ := move.quiet quiet
      exact .completed (Nat.eq_zero_of_le_zero (quiet ▸ fewer)) result
  | sent socket queue worker held running =>
      cases move with
      | receive sent room =>
          rw [socket] at sent
          cases sent
          refine .queued rfl ?_ worker held running
          rw [queue, List.nil_append]
      | drop _ full =>
          rw [queue] at full
          exact absurd (by decide) full
      | dequeue _ queued =>
          rw [queue] at queued
          cases queued
      | stamp => exact .sent socket queue (.inl rfl) held running
      | start busy | prepare busy | work busy | complete busy => cases worker.eq_stamping busy
  | queued socket queue worker held running =>
      cases move with
      | receive sent | drop sent =>
          rw [socket] at sent
          cases sent
      | dequeue _ queued =>
          rw [queue] at queued
          cases queued
          exact .preparing prepareOps socket rfl rfl held running
      | stamp => exact .queued socket queue (.inl rfl) held running
      | start busy | prepare busy | work busy | complete busy => cases worker.eq_stamping busy
  | preparing left socket queue worker held running =>
      cases move with
      | receive sent | drop sent =>
          rw [socket] at sent
          cases sent
      | dequeue _ queued =>
          rw [queue] at queued
          cases queued
      | start busy =>
          rw [worker] at busy
          cases busy
          exact .computing [] (compute event) before.daemon before.buffers rfl socket queue rfl
            memory held rfl running
      | prepare busy =>
          rw [worker] at busy
          cases busy
          exact .preparing _ socket queue rfl held (PrepareOp.gpuDone_apply _ event running)
      | work busy | complete busy | stamp _ busy =>
          rw [worker] at busy
          cases busy
  | computing ran left daemon start split socket queue worker first held ranFrom running =>
      cases move with
      | receive sent | drop sent =>
          rw [socket] at sent
          cases sent
      | dequeue _ queued =>
          rw [queue] at queued
          cases queued
      | @work event op left busy =>
          rw [worker] at busy
          cases busy
          refine .computing (ran ++ [op]) left daemon start ?_ socket queue rfl first held ?_
            running
          · rw [split, List.append_assoc, List.singleton_append]
          · rw [runOps_concat, ← ranFrom]
      | complete busy =>
          rw [worker] at busy
          cases busy
          refine .completed (outstanding_eq_zero_iff.mpr ⟨socket, queue, .inr rfl⟩)
            ⟨daemon, start, first, held, ?_⟩
          rw [split, List.append_nil, ← ranFrom]
      | start busy | prepare busy | stamp _ busy =>
          rw [worker] at busy
          cases busy

/-- The daemon leaves the L1 thread alone. -/
theorem DaemonMove.frame (move : DaemonMove compute before after) :
    after.l1 = before.l1 ∧ after.returned = before.returned := by
  cases move <;> exact ⟨rfl, rfl⟩

/-- The daemon's memory stays good, and the worker stays inside the computation of its event. -/
theorem DaemonMove.memory
    (closed : ∀ event, ∀ op ∈ compute event, ∀ daemon buffers, good daemon →
      good (op (daemon, buffers)).1)
    (memory : good before.daemon)
    (ops : ∀ event left, before.worker = some (.computing event left) → left ⊆ compute event)
    (move : DaemonMove compute before after) :
    good after.daemon ∧
      ∀ event left, after.worker = some (.computing event left) → left ⊆ compute event := by
  cases move with
  | receive | drop => exact ⟨memory, ops⟩
  | start worker =>
      refine ⟨memory, fun _ _ same => ?_⟩
      cases same
      exact List.Subset.refl _
  | @work event op left worker =>
      have inside := ops event (op :: left) worker
      refine ⟨closed event op (inside List.mem_cons_self) _ _ memory, fun _ _ same => ?_⟩
      cases same
      exact List.Subset.trans (List.subset_cons_self op left) inside
  | dequeue | prepare | complete | stamp => exact ⟨memory, fun _ _ wrong => nomatch wrong⟩

/-- A step of the daemon keeps what holds of the L1 thread. -/
theorem threadSound_daemonMove (sound : Sound pid compute good before)
    (move : DaemonMove compute before after) : ThreadSound pid compute good after before.l1 := by
  have thread := sound.thread
  have fewer := move.outstanding_le
  cases stands : before.l1 with
  | idle =>
      rw [stands] at thread
      exact Nat.le_trans fewer thread
  | request call inputLen outputLen stage =>
      rw [stands] at thread
      obtain ⟨clock, rfl⟩ := move.quiet thread.quiet
      exact { thread with quiet := Nat.eq_zero_of_le_zero (thread.quiet ▸ fewer) }
  | waiting call event =>
      rw [stands] at thread
      exact ⟨thread.1, thread.2.daemonMove sound.daemon move⟩
  | copying call event output =>
      rw [stands] at thread
      obtain ⟨own, quiet, computed, copied⟩ := thread
      obtain ⟨clock, rfl⟩ := move.quiet quiet
      exact ⟨own, Nat.eq_zero_of_le_zero (quiet ▸ fewer), computed, copied⟩

/-! ### Whole runs -/

/-- A waiting call has at most its own event outstanding. -/
theorem Underway.outstanding_le {call : OffloadCall} {event : OffloadEvent}
    (underway : Underway compute good call event before) : before.outstanding ≤ 1 := by
  cases underway with
  | completed quiet _ => omega
  | sent socket queue worker _ _ =>
      rcases worker with free | stamping
      · simp [OffloadState.outstanding, socket, queue, free]
      · simp [OffloadState.outstanding, socket, queue, stamping]
  | queued socket queue worker _ _ =>
      rcases worker with free | stamping
      · simp [OffloadState.outstanding, socket, queue, free]
      · simp [OffloadState.outstanding, socket, queue, stamping]
  | preparing left socket queue worker _ _ =>
      simp [OffloadState.outstanding, socket, queue, worker]
  | computing ran left daemon start split socket queue worker _ _ _ _ =>
      simp [OffloadState.outstanding, socket, queue, worker]

/-- Where `gpu_done` is seen, the event of the call itself is completed. -/
theorem Underway.completed_of_done {call : OffloadCall} {event : OffloadEvent}
    (underway : Underway compute good call event before) (seen : before.ctrl.gpuDone ≠ 0) :
    before.outstanding = 0 ∧ Computed compute good call event before.buffers := by
  cases underway with
  | completed quiet result => exact ⟨quiet, result⟩
  | sent _ _ _ _ running => exact absurd running seen
  | queued _ _ _ _ running => exact absurd running seen
  | preparing _ _ _ _ _ running => exact absurd running seen
  | computing _ _ _ _ _ _ _ _ _ _ _ running => exact absurd running seen

/-- One step keeps the invariant, if no call begins while an earlier event is outstanding. -/
theorem Sound.step
    (closed : ∀ event, ∀ op ∈ compute event, ∀ daemon buffers, good daemon →
      good (op (daemon, buffers)).1)
    (sound : Sound pid compute good before) {action : OffloadAction}
    (allowed : NothingOutstanding before action)
    (step : offloadNext pid compute before action = some after) :
    Sound pid compute good after := by
  have ofDaemon (daemonSide : action = .receive ∨ action = .dequeue ∨
      ∃ clock, action = .work clock) : Sound pid compute good after := by
    have move := daemonMove_of_step daemonSide step
    obtain ⟨l1, returned⟩ := move.frame
    obtain ⟨memory, ops⟩ := move.memory closed sound.daemon sound.ops
    refine ⟨memory, ops, ?_, ?_⟩
    · rw [l1]
      exact threadSound_daemonMove sound move
    · rw [returned]
      exact sound.returned
  have thread := sound.thread
  cases action with
  | receive => exact ofDaemon (.inl rfl)
  | dequeue => exact ofDaemon (.inr (.inl rfl))
  | work clock => exact ofDaemon (.inr (.inr ⟨clock, rfl⟩))
  | begin call =>
      simp only [offloadNext] at step
      split at step
      · cases step
        have start : RequestSound before call 0 0 .clearDone := .begin allowed call
        exact ⟨sound.daemon, sound.ops, ⟨start.quiet, start.running, start.copied, start.held,
          start.inputStored, start.outputStored, start.inputRead, start.outputRead⟩,
          sound.returned⟩
      · exact absurd step (by simp)
  | request clock =>
      simp only [offloadNext] at step
      split at step
      · rename_i call inputLen outputLen stage stands
        rw [stands] at thread
        cases step
        obtain ⟨memory, worker, returned⟩ :=
          requestNext_frame pid before call inputLen outputLen clock stage
        refine ⟨memory ▸ sound.daemon, ?_, threadSound_requestNext thread clock, ?_⟩
        · rw [worker]
          exact sound.ops
        · rw [returned]
          exact sound.returned
      · exact absurd step (by simp)
  | sendFails =>
      simp only [offloadNext] at step
      split at step
      · rename_i call inputLen outputLen stands
        rw [stands] at thread
        cases step
        exact ⟨sound.daemon, sound.ops,
          Nat.le_trans (Nat.le_of_eq thread.quiet) (Nat.zero_le 1), sound.returned⟩
      · exact absurd step (by simp)
  | seeDone =>
      simp only [offloadNext] at step
      split at step
      · rename_i call event stands
        rw [stands] at thread
        split_ifs at step with seen
        cases step
        obtain ⟨quiet, computed⟩ := thread.2.completed_of_done seen
        exact ⟨sound.daemon, sound.ops, ⟨thread.1, quiet, computed, rfl, Nat.zero_le _⟩,
          sound.returned⟩
      · exact absurd step (by simp)
  | timeout =>
      simp only [offloadNext] at step
      split at step
      · rename_i call event stands
        rw [stands] at thread
        cases step
        exact ⟨sound.daemon, sound.ops, thread.2.outstanding_le, sound.returned⟩
      · exact absurd step (by simp)
  | copyOut =>
      simp only [offloadNext] at step
      split at step
      · rename_i call event output stands
        rw [stands] at thread
        obtain ⟨own, quiet, computed, copied, _⟩ := thread
        split_ifs at step with more
        cases step
        refine ⟨sound.daemon, sound.ops, ⟨own, quiet, computed, ?_, ?_⟩, sound.returned⟩
        · rw [List.length_append, List.length_singleton, outputBytes_succ, ← copied]
        · rw [List.length_append, List.length_singleton]
          exact more
      · exact absurd step (by simp)
  | finish =>
      simp only [offloadNext] at step
      split at step
      · rename_i call event output stands
        rw [stands] at thread
        obtain ⟨own, quiet, computed, copied, le⟩ := thread
        split_ifs at step with more
        cases step
        refine ⟨sound.daemon, sound.ops, Nat.le_trans (Nat.le_of_eq quiet) (Nat.zero_le 1),
          fun result member => ?_⟩
        rcases List.mem_append.mp member with earlier | now
        · exact sound.returned result earlier
        · rw [List.mem_singleton] at now
          have whole : output.length = call.outputLen := by omega
          subst now
          refine ⟨before.buffers, own ▸ computed, ?_⟩
          rw [← whole]
          exact copied
      · exact absurd step (by simp)

/-- The invariant holds in every run of this kind. -/
theorem sound_of_reaches
    (closed : ∀ event, ∀ op ∈ compute event, ∀ daemon buffers, good daemon →
      good (op (daemon, buffers)).1) {state : OffloadState Daemon}
    (run : (offloadSystem pid compute good).Reaches NothingOutstanding state) :
    Sound pid compute good state := by
  refine run.invariant (Sound pid compute good) ?_ ?_
  · rintro state ⟨⟨_, idle, socket, queue, worker, returned⟩, memory⟩
    refine ⟨memory, ?_, ?_, ?_⟩
    · intro event left busy
      rw [worker] at busy
      exact nomatch busy
    · rw [idle]
      exact Nat.le_trans
        (Nat.le_of_eq (outstanding_eq_zero_iff.mpr ⟨socket, queue, .inl worker⟩)) (Nat.zero_le 1)
    · rw [returned]
      exact fun _ member => absurd member List.not_mem_nil
  · intro before action after sound allowed step
    exact sound.step closed allowed step

/-! ### Own results -/

/-- The call that the thread is at. -/
def L1Thread.call? : L1Thread → Option OffloadCall
  | .idle => none
  | .request call _ _ _ => some call
  | .waiting call _ => some call
  | .copying call _ _ => some call

theorem requestNext_call? (pid : Nat) (before : OffloadState Daemon) (call : OffloadCall)
    (inputLen outputLen clock : Nat) (stage : RequestStage) :
    (requestNext pid before call inputLen outputLen clock stage).l1.call? = some call := by
  cases stage
  case copyInput i =>
    rw [requestNext]
    split_ifs <;> rfl
  all_goals rfl

/-- The thread is at a call that was begun, and only such calls have returned. -/
structure CallsBegun (begun : OffloadCall → Prop) (state : OffloadState Daemon) : Prop where
  thread : ∀ call ∈ state.l1.call?, begun call
  returned : ∀ result ∈ state.returned, begun result.call

theorem CallsBegun.step {begun : OffloadCall → Prop} (calls : CallsBegun begun before)
    {action : OffloadAction} (allowed : ∀ call, action = .begin call → begun call)
    (step : offloadNext pid compute before action = some after) : CallsBegun begun after := by
  have ofDaemon (daemonSide : action = .receive ∨ action = .dequeue ∨
      ∃ clock, action = .work clock) : CallsBegun begun after := by
    obtain ⟨l1, returned⟩ := (daemonMove_of_step daemonSide step).frame
    exact ⟨l1 ▸ calls.thread, returned ▸ calls.returned⟩
  have thread := calls.thread
  cases action with
  | receive => exact ofDaemon (.inl rfl)
  | dequeue => exact ofDaemon (.inr (.inl rfl))
  | work clock => exact ofDaemon (.inr (.inr ⟨clock, rfl⟩))
  | begin call =>
      simp only [offloadNext] at step
      split at step
      · cases step
        refine ⟨fun other same => ?_, calls.returned⟩
        cases same
        exact allowed call rfl
      · exact absurd step (by simp)
  | request clock =>
      simp only [offloadNext] at step
      split at step
      · rename_i call inputLen outputLen stage stands
        cases step
        refine ⟨fun other same => ?_, ?_⟩
        · rw [requestNext_call?] at same
          exact thread other (by rw [stands]; exact same)
        · rw [(requestNext_frame pid before call inputLen outputLen clock stage).2.2]
          exact calls.returned
      · exact absurd step (by simp)
  | sendFails | timeout =>
      simp only [offloadNext] at step
      split at step
      · cases step
        exact ⟨fun _ wrong => absurd wrong (by simp [L1Thread.call?]), calls.returned⟩
      · exact absurd step (by simp)
  | seeDone | copyOut =>
      simp only [offloadNext] at step
      split at step
      · rename_i stands
        rw [stands] at thread
        split_ifs at step
        cases step
        exact ⟨thread, calls.returned⟩
      · exact absurd step (by simp)
  | finish =>
      simp only [offloadNext] at step
      split at step
      · rename_i call event output stands
        rw [stands] at thread
        split_ifs at step
        cases step
        refine ⟨fun _ wrong => absurd wrong (by simp [L1Thread.call?]), fun result member => ?_⟩
        rcases List.mem_append.mp member with earlier | now
        · exact calls.returned result earlier
        · rw [List.mem_singleton] at now
          rw [now]
          exact thread call rfl
      · exact absurd step (by simp)

/-- In a run whose calls begin as `BeginsFixed` says, the calls that returned are of that kind. -/
theorem fixesOutput_of_reaches {state : OffloadState Daemon}
    (run : (offloadSystem pid compute good).Reaches (BeginsFixed pid compute good) state) :
    ∀ result ∈ state.returned,
      FixesOutput compute good result.call (ownEvent pid result.call) := by
  refine (run.invariant
    (CallsBegun fun call => FixesOutput compute good call (ownEvent pid call)) ?_ ?_).returned
  · rintro state ⟨⟨_, idle, _, _, _, returned⟩, _⟩
    refine ⟨?_, ?_⟩
    · rw [idle]
      exact fun _ wrong => nomatch wrong
    · rw [returned]
      exact fun _ member => absurd member List.not_mem_nil
  · intro before action after calls allowed step
    refine calls.step (fun call same => ?_) step
    subst same
    exact allowed.2

/-- Where no call begins while an earlier event is outstanding, a call that returned 0 has its own
result exactly when the daemon computes the bytes that it copies out from its input. -/
theorem ownResult_iff_fixesOutput
    (closed : ∀ event, ∀ op ∈ compute event, ∀ daemon buffers, good daemon →
      good (op (daemon, buffers)).1) {state : OffloadState Daemon}
    (run : (offloadSystem pid compute good).Reaches NothingOutstanding state) {result : Return}
    (member : result ∈ state.returned) :
    OwnResult pid compute good result ↔
      FixesOutput compute good result.call (ownEvent pid result.call) := by
  constructor
  · intro own one two first second heldOne heldTwo
    rw [← own one first heldOne, ← own two second heldTwo]
  · intro fixes start memory held
    obtain ⟨_, ⟨daemon, buffers, first, input, rfl⟩, output⟩ :=
      (sound_of_reaches closed run).returned result member
    rw [output]
    exact fixes (daemon, buffers) start first memory input held

end Steps

/-- Whatever the daemon computes and whatever holds of its memory, for every sequence of calls and
every timing of the daemon: if no call begins while an earlier event is outstanding, nor for a
computation that its input does not fix, every call that returns 0 has copied out the daemon's
result for the call's own input, work type and lengths. -/
theorem sync_offload_returns_own_result {Daemon : Type} (pid : Nat)
    (compute : OffloadEvent → List (DaemonOp Daemon)) (good : Daemon → Prop)
    (closed : ∀ event, ∀ op ∈ compute event, ∀ daemon buffers, good daemon →
      good (op (daemon, buffers)).1) {state : OffloadState Daemon}
    (run : (offloadSystem pid compute good).Reaches (BeginsFixed pid compute good) state) :
    ∀ result ∈ state.returned, OwnResult pid compute good result := by
  intro result member
  have alone : (offloadSystem pid compute good).Reaches NothingOutstanding state := by
    refine run.strengthen (fun _ => True) (fun _ _ => trivial) fun before action _ allowed => ?_
    cases action with
    | begin call => exact allowed.1
    | _ => trivial
  exact (ownResult_iff_fixesOutput closed alone member).mpr
    (fixesOutput_of_reaches run result member)

/-! ### Calls do return -/

section Served

variable {Daemon : Type} {pid : Nat} {compute : OffloadEvent → List (DaemonOp Daemon)}
  {good : Daemon → Prop} {call : OffloadCall} {ctrl : CtrlBlock} {buffers : Buffers}
  {daemon : Daemon}

/-- The copy loop reaches each of its turns. -/
theorem reaches_copyInput (memory : good daemon) (buffers : Buffers) (call : OffloadCall) {i : Nat}
    (le : i ≤ call.input.length) :
    ∃ ctrl buffers, (offloadSystem pid compute good).Reaches NothingOutstanding
      ⟨ctrl, buffers, .request call 0 0 (.copyInput i), [], [], none, daemon, []⟩ := by
  induction i with
  | zero =>
      have start : (offloadSystem pid compute good).Reaches NothingOutstanding
          ⟨.cleared, buffers, .idle, [], [], none, daemon, []⟩ :=
        .start ⟨⟨rfl, rfl, rfl, rfl, rfl, rfl⟩, memory⟩
      have begun := TransitionSystem.Reaches.next start
        (show NothingOutstanding _ (.begin call) from rfl) rfl
      exact ⟨_, _, begun.follow (fun _ _ _ step => step) [.request 0, .request 0, .request 0]
        (by simp [NothingOutstanding]) rfl⟩
  | succ i ih =>
      obtain ⟨ctrl, buffers, run⟩ := ih (by omega)
      exact ⟨ctrl, { buffers with input := Function.update buffers.input i (call.input.getD i 0) },
        .next run (show NothingOutstanding _ (.request 0) from trivial)
          (congrArg some (if_pos (show i < call.input.length by omega)))⟩

/-- The rest of the request. -/
theorem reaches_waiting (memory : good daemon) (buffers : Buffers) (call : OffloadCall) :
    ∃ ctrl buffers event, (offloadSystem pid compute good).Reaches NothingOutstanding
      ⟨ctrl, buffers, .waiting call event, [event], [], none, daemon, []⟩ := by
  obtain ⟨ctrl, buffers, run⟩ := @reaches_copyInput Daemon pid compute good daemon memory
    buffers call _ (Nat.le_refl call.input.length)
  have copied : (offloadSystem pid compute good).Reaches NothingOutstanding
      ⟨ctrl, buffers, .request call 0 0 .setInputOffset, [], [], none, daemon, []⟩ := by
    refine .next run (show NothingOutstanding _ (.request 0) from trivial) ?_
    exact congrArg some (if_neg (Nat.lt_irrefl call.input.length))
  exact ⟨_, buffers, _, copied.follow (fun _ _ _ step => step) (List.replicate 9 (.request 0))
    (by simp [NothingOutstanding]) rfl⟩

/-- The computation runs to its end. -/
theorem reaches_computed {event : OffloadEvent} {left : List (DaemonOp Daemon)}
    (run : (offloadSystem pid compute good).Reaches NothingOutstanding
      ⟨ctrl, buffers, .waiting call event, [], [], some (.computing event left), daemon, []⟩) :
    ∃ buffers daemon, (offloadSystem pid compute good).Reaches NothingOutstanding
      ⟨ctrl, buffers, .waiting call event, [], [], some (.computing event []), daemon, []⟩ := by
  induction left generalizing buffers daemon with
  | nil => exact ⟨buffers, daemon, run⟩
  | cons op left ih =>
      exact ih (.next run (show NothingOutstanding _ (.work 0) from trivial) rfl)

/-- The bytes are copied out one by one. -/
theorem reaches_copyOut {event : OffloadEvent} {worker : Option (Job Daemon)}
    (run : (offloadSystem pid compute good).Reaches NothingOutstanding
      ⟨ctrl, buffers, .copying call event [], [], [], worker, daemon, []⟩) {k : Nat}
    (le : k ≤ call.outputLen) :
    ∃ output, output.length = k ∧ (offloadSystem pid compute good).Reaches NothingOutstanding
      ⟨ctrl, buffers, .copying call event output, [], [], worker, daemon, []⟩ := by
  induction k with
  | zero => exact ⟨[], rfl, run⟩
  | succ k ih =>
      obtain ⟨output, length, before⟩ := ih (by omega)
      refine ⟨output ++ [buffers.output output.length], by simp [length], ?_⟩
      refine .next before (show NothingOutstanding _ .copyOut from trivial) ?_
      exact if_pos (by omega)

/-- Every call can return 0: the daemon takes its event, computes and completes it. -/
theorem exists_return (memory : good daemon) (buffers : Buffers) (call : OffloadCall) :
    ∃ state, (offloadSystem pid compute good).Reaches NothingOutstanding state ∧
      ∃ output, state.returned = [⟨call, output⟩] := by
  obtain ⟨ctrl, buffers, event, waiting⟩ :=
    @reaches_waiting Daemon pid compute good daemon memory buffers call
  have taken := waiting.follow (fun _ _ _ step => step)
    (OffloadAction.receive :: .dequeue :: List.replicate 6 (.work 0))
    (by simp [NothingOutstanding]) rfl
  obtain ⟨buffers, daemon, computed⟩ := reaches_computed taken
  have seen := computed.follow (fun _ _ _ step => step) [.work 0, .seeDone]
    (by simp [NothingOutstanding]) rfl
  obtain ⟨output, length, copied⟩ := reaches_copyOut seen (Nat.le_refl call.outputLen)
  refine ⟨_, .next copied (show NothingOutstanding _ .finish from trivial)
    (if_neg (show ¬ output.length < call.outputLen by omega)), output, rfl⟩

/-- Without the second half of `BeginsFixed` a call returns bytes that its input does not give, also
when nothing else is on its way. -/
theorem exists_foreign_return
    (closed : ∀ event, ∀ op ∈ compute event, ∀ daemon buffers, good daemon →
      good (op (daemon, buffers)).1) (memory : good daemon) (call : OffloadCall)
    (free : ¬ FixesOutput compute good call (ownEvent pid call)) :
    ∃ state, (offloadSystem pid compute good).Reaches NothingOutstanding state ∧
      ∃ result ∈ state.returned, result.call = call ∧ ¬ OwnResult pid compute good result := by
  obtain ⟨state, run, output, returned⟩ :=
    exists_return memory ⟨fun _ => 0, fun _ => 0⟩ call
  have member : ⟨call, output⟩ ∈ state.returned := returned ▸ List.mem_singleton_self _
  exact ⟨state, run, _, member, rfl,
    fun own => free ((ownResult_iff_fixesOutput closed run member).mp own)⟩

end Served

/-! ### A stale completion -/

/-- The 32-bit word at an index of a buffer. -/
def wordAt (bytes : Nat → BitVec 8) (i : Nat) : BitVec 32 :=
  bytes (4 * i + 3) ++ (bytes (4 * i + 2) ++ (bytes (4 * i + 1) ++ bytes (4 * i)))

/-- A work item of `ldpc_check_node_update` of the fallback kernel on powers of two: a factor of
0.75 takes the word of such a number down by half a unit of the exponent. -/
def fallbackItem (nVar i : Nat) (state : Unit × Buffers) : Unit × Buffers :=
  if i < nVar then
    let word := wordAt state.2.input i - 0x400000#32
    (state.1,
      { state.2 with
        output := fun k =>
          if k / 4 = i then word.extractLsb' (8 * (k % 4)) 8 else state.2.output k })
  else state

/-- `ldpc_check_node_update` of the fallback kernel on powers of two. -/
def fallbackCheckNode (event : OffloadEvent) : List (DaemonOp Unit) :=
  let nVar := if 0 < event.inputLen then event.inputLen else 8448
  let nCheck := min 4096 (max 1 (nVar / 4))
  (List.range nCheck).map (fallbackItem nVar)

/-- The work items leave the input alone, and each writes its word. -/
theorem runOps_fallbackItem {nVar count : Nat} (inside : count ≤ nVar) (start : Unit × Buffers) :
    (runOps ((List.range count).map (fallbackItem nVar)) start).2.input = start.2.input ∧
      ∀ k, k / 4 < count →
        (runOps ((List.range count).map (fallbackItem nVar)) start).2.output k =
          (wordAt start.2.input (k / 4) - 0x400000#32).extractLsb' (8 * (k % 4)) 8 := by
  induction count with
  | zero => exact ⟨rfl, fun k less => absurd less (Nat.not_lt_zero _)⟩
  | succ count ih =>
      obtain ⟨input, written⟩ := ih (by omega)
      rw [List.range_succ, List.map_append, List.map_singleton, runOps_concat, fallbackItem,
        if_pos (by omega)]
      refine ⟨input, fun k less => ?_⟩
      rw [input]
      by_cases here : k / 4 = count
      · exact (if_pos here).trans (by rw [here])
      · exact (if_neg here).trans (written k (by omega))

/-- The kernel computes the bytes that a call copies out from its input, as far as it has words for
them. -/
theorem fixesOutput_fallbackCheckNode (pid : Nat) (good : Unit → Prop) {call : OffloadCall}
    (some : 4 ≤ call.input.length) (words : call.outputLen ≤ 4 * min 4096 (call.input.length / 4)) :
    FixesOutput fallbackCheckNode good call (ownEvent pid call) := by
  intro one two _ _ heldOne heldTwo
  have kernel : fallbackCheckNode (ownEvent pid call) =
      (List.range (min 4096 (call.input.length / 4))).map (fallbackItem call.input.length) := by
    have checks : max 1 (call.input.length / 4) = call.input.length / 4 := by omega
    rw [fallbackCheckNode, ownEvent]
    simp only [if_pos (show 0 < call.input.length by omega), checks]
  have inside : min 4096 (call.input.length / 4) ≤ call.input.length := by omega
  have same {i : Nat} (less : i < min 4096 (call.input.length / 4)) :
      wordAt one.2.input i = wordAt two.2.input i := by
    have byte {j : Nat} (less : j < call.input.length) : one.2.input j = two.2.input j :=
      (heldOne j less).trans (heldTwo j less).symm
    simp only [wordAt, byte (show 4 * i + 3 < call.input.length by omega),
      byte (show 4 * i + 2 < call.input.length by omega),
      byte (show 4 * i + 1 < call.input.length by omega),
      byte (show 4 * i < call.input.length by omega)]
  rw [kernel]
  refine List.map_congr_left fun k member => ?_
  have less : k / 4 < min 4096 (call.input.length / 4) := by
    have below := List.mem_range.mp member
    omega
  rw [(runOps_fallbackItem inside one).2 k less, (runOps_fallbackItem inside two).2 k less,
    same less]

/-- A call with one number. -/
private def oneNumber (bytes : List (BitVec 8)) (four : bytes.length = 4) : OffloadCall where
  workType := .ldpc
  input := bytes
  outputLen := 4
  input_fits := by rw [four]; decide
  output_fits := by decide
  fft_sizes := fun wrong => nomatch wrong

private def callOne : OffloadCall := oneNumber [0, 0, 128, 63] rfl

private def callTwo : OffloadCall := oneNumber [0, 0, 0, 64] rfl

private def freshState : OffloadState Unit where
  ctrl := .cleared
  buffers := ⟨fun _ => 0, fun _ => 0⟩
  l1 := .idle
  socket := []
  queue := []
  worker := none
  daemon := ()
  returned := []

/-- The accesses of a request with four bytes. -/
private def requestSteps : List OffloadAction := List.replicate 17 (.request 0)

/-- A call that the daemon answers in time. -/
private def promptSteps : List OffloadAction :=
  requestSteps ++ [OffloadAction.receive, OffloadAction.dequeue] ++
    List.replicate 8 (OffloadAction.work 0) ++ [OffloadAction.seeDone] ++
    List.replicate 4 OffloadAction.copyOut ++ [OffloadAction.finish]

/-- A call gives up just before its completion, which the next call then takes for its own. -/
private def staleSteps : List OffloadAction :=
  [OffloadAction.begin callOne] ++ requestSteps ++
    [OffloadAction.receive, OffloadAction.dequeue] ++
    List.replicate 7 (OffloadAction.work 0) ++
    [OffloadAction.timeout, OffloadAction.begin callTwo] ++ requestSteps ++
    [OffloadAction.work 0, OffloadAction.seeDone] ++
    List.replicate 4 OffloadAction.copyOut ++ [OffloadAction.finish]

/-- A single call with the number 1. -/
theorem sync_offload_returns_three_quarters :
    ∃ state, (offloadSystem 7 fallbackCheckNode fun _ => True).Reaches
        (BeginsFixed 7 fallbackCheckNode fun _ => True) state ∧
      state.returned.map (·.output) = [[0, 0, 64, 63]] ∧
      ∀ result ∈ state.returned, OwnResult 7 fallbackCheckNode (fun _ => True) result := by
  have executed : ((TransitionSystem.execute (offloadNext 7 fallbackCheckNode) freshState
      (.begin callOne :: promptSteps)).map fun state => state.returned.map (·.output)) =
        some [[0, 0, 64, 63]] := by
    decide +kernel
  obtain ⟨last, ran, outputs⟩ := Option.map_eq_some_iff.mp executed
  obtain ⟨begun, first, rest⟩ := Option.bind_eq_some_iff.mp ran
  have start : (offloadSystem 7 fallbackCheckNode fun _ => True).Reaches
      (BeginsFixed 7 fallbackCheckNode fun _ => True) freshState :=
    .start ⟨⟨rfl, rfl, rfl, rfl, rfl, rfl⟩, trivial⟩
  have allowed : BeginsFixed 7 fallbackCheckNode (fun _ => True) freshState (.begin callOne) :=
    ⟨rfl, fixesOutput_fallbackCheckNode 7 _ (by decide) (by decide)⟩
  have noBegin : ∀ state : OffloadState Unit, ∀ action ∈ promptSteps,
      BeginsFixed 7 fallbackCheckNode (fun _ => True) state action := by
    intro state
    simp [promptSteps, requestSteps, BeginsFixed]
  have run := (TransitionSystem.Reaches.next start allowed first).follow (fun _ _ _ step => step)
    promptSteps noBegin rest
  exact ⟨last, run, outputs,
    sync_offload_returns_own_result 7 fallbackCheckNode (fun _ => True)
      (fun _ _ _ _ _ _ => trivial) run⟩

/-- With the fallback kernel, whose results the inputs of both calls fix, a call returns the result
of the one before it. -/
theorem stale_completion_returned :
    ¬ ∀ (pid : Nat) (state : OffloadState Unit),
      (offloadSystem pid fallbackCheckNode fun _ => True).Reaches (fun _ _ => True) state →
        ∀ result ∈ state.returned, OwnResult pid fallbackCheckNode (fun _ => True) result := by
  intro claim
  have executed : ((TransitionSystem.execute (offloadNext 7 fallbackCheckNode) freshState
      staleSteps).map fun state => state.returned.map fun result => (result.call, result.output)) =
        some [(callTwo, [0, 0, 64, 63])] := by
    decide +kernel
  obtain ⟨last, ran, returned⟩ := Option.map_eq_some_iff.mp executed
  have start : (offloadSystem 7 fallbackCheckNode fun _ => True).Reaches (fun _ _ => True)
      freshState := .start ⟨⟨rfl, rfl, rfl, rfl, rfl, rfl⟩, trivial⟩
  have run := start.follow (fun _ _ _ step => step) staleSteps (fun _ _ _ => trivial) ran
  have member : (⟨callTwo, [0, 0, 64, 63]⟩ : Return) ∈ last.returned := by
    have shown : (callTwo, [0, 0, 64, 63]) ∈
        last.returned.map fun result => (result.call, result.output) := by
      rw [returned]
      exact List.mem_singleton_self _
    obtain ⟨result, found, same⟩ := List.mem_map.mp shown
    cases result
    cases same
    exact found
  have own := claim 7 last run _ member ((), .holding callTwo fun _ => 0) trivial
    (holdsInput_holding _ _)
  -- The number 2 gives 1.5, whose third byte is 192.
  exact absurd own (by decide)

end RanInline.Offload
