/-
Module: RanInline.Offload.Async
Purpose: The asynchronous path of l1_offload_try: the cached result, the job in flight, and which
  input's result each call of a sequence returns.
Trusted boundary: none
Main exports: AsyncState, dispatchLdpc, l1OffloadAsyncLdpc, asyncRun, LagsByOne,
  async_offload_lags_by_one_iff
-/
import RanInline.Offload.Region

namespace RanInline.Offload

/-! ### The asynchronous calls -/

/-- `ASYNC_BUF_SZ`. -/
def asyncBufSz : Nat := 8448

/-- The region with the job that the daemon has not completed, and the static variables of the
asynchronous path. -/
structure AsyncState where
  ctrl : CtrlBlock
  buffers : Buffers
  inFlight : Option OffloadEvent
  asyncResult : Nat → BitVec 8
  asyncResultLen : Nat
  asyncHasResult : Bool

/-- A call: what it asks for, and what its output holds before. -/
structure AsyncCall where
  call : OffloadCall
  output : Nat → BitVec 8

/-- `dispatch_ldpc`, when the event is sent. -/
def dispatchLdpc (pid clock : Nat) (p : OffloadCall) (state : AsyncState) : AsyncState :=
  let ctrl : CtrlBlock :=
    { state.ctrl with
      gpuDone := 0
      workType := WorkType.ldpc.code
      inputOffset := cxlRegionL1InputOff
      inputLen := p.input.length % 2 ^ 32
      outputOffset := cxlRegionGpuOutputOff
      outputLen := p.outputLen % 2 ^ 32
      timestampL1 := clock
      l1Ready := 1 }
  { state with
    ctrl := ctrl
    buffers :=
      { state.buffers with
        input := storeFirst p.input.length state.buffers.input (p.input.getD · 0) }
    inFlight := some
      { workType := WorkType.ldpc.code
        pid := pid
        inputAddr := cxlRegionL1InputOff
        outputAddr := cxlRegionGpuOutputOff
        inputLen := ctrl.inputLen
        outputLen := ctrl.outputLen
        timestampNs := 0 } }

section Decode

variable (decode : List (BitVec 8) → Nat → BitVec 8)

/-- The worker on the job in flight, where `decode` gives the bytes of the result for an input.
Without a job nothing happens. -/
def daemonCompletes (state : AsyncState) : AsyncState :=
  match state.inFlight with
  | none => state
  | some event =>
      { state with
        ctrl :=
          { state.ctrl with
            workType := event.workType
            inputLen := event.inputLen
            outputLen := event.outputLen
            l1Ready := 1
            gpuDone := 1 }
        buffers :=
          { state.buffers with
            output := storeFirst event.outputLen state.buffers.output
              (decode ((List.range event.inputLen).map state.buffers.input)) }
        inFlight := none }

/-- The daemon may complete a job as soon as it is dispatched. -/
def daemonMayComplete (prompt : Bool) (state : AsyncState) : AsyncState :=
  if prompt then daemonCompletes decode state else state

/-- `l1_offload_async_ldpc`, with the caller's output behind it.  The daemon completes the job in
flight before the wait or the opportunistic check is over; `prompt` says whether it completes the
new job already now. -/
def l1OffloadAsyncLdpc (pid clock : Nat) (prompt : Bool) (p : AsyncCall) (state : AsyncState) :
    AsyncState × (Nat → BitVec 8) :=
  if !state.asyncHasResult then
    let state := daemonCompletes decode (dispatchLdpc pid clock p.call state)
    let outLen := state.ctrl.outputLen
    let output := storeFirst outLen p.output state.buffers.output
    let outLen := if asyncBufSz < outLen then asyncBufSz else outLen
    let state :=
      { state with
        asyncResult := storeFirst outLen state.asyncResult output
        asyncResultLen := outLen
        asyncHasResult := true }
    (daemonMayComplete decode prompt (dispatchLdpc pid clock p.call state), output)
  else
    let copyLen :=
      if state.asyncResultLen < p.call.outputLen then state.asyncResultLen else p.call.outputLen
    let output := storeFirst copyLen p.output state.asyncResult
    let state := daemonCompletes decode state
    let state :=
      if state.ctrl.gpuDone ≠ 0 then
        let outLen := state.ctrl.outputLen
        let outLen := if asyncBufSz < outLen then asyncBufSz else outLen
        { state with
          asyncResult := storeFirst outLen state.asyncResult state.buffers.output
          asyncResultLen := outLen }
      else state
    (daemonMayComplete decode prompt (dispatchLdpc pid clock p.call state), output)

/-- The outputs of a sequence of calls, each `outputLen` bytes. -/
def asyncRun (pid : Nat) (clock : Nat → Nat) (prompt : Nat → Bool) (outputLen : Nat) :
    List AsyncCall → AsyncState → List (List (BitVec 8))
  | [], _ => []
  | p :: calls, state =>
      let (after, output) :=
        l1OffloadAsyncLdpc decode pid (clock calls.length) (prompt calls.length) p state
      (List.range outputLen).map output :: asyncRun pid clock prompt outputLen calls after

end Decode

/-! ### The pipeline -/

section Pipeline

variable {decode : List (BitVec 8) → Nat → BitVec 8} {pid outputLen : Nat} {clock : Nat → Nat}
  {prompt : Nat → Bool} {state : AsyncState}

/-- The cache holds the result for an input, as far as it has room. -/
structure Cached (decode : List (BitVec 8) → Nat → BitVec 8) (outputLen : Nat)
    (input : List (BitVec 8)) (state : AsyncState) : Prop where
  has : state.asyncHasResult = true
  length : state.asyncResultLen = min asyncBufSz outputLen
  bytes : ∀ i < min asyncBufSz outputLen, state.asyncResult i = decode input i

/-- The job in flight, or the one that was completed last, is for an input. -/
structure Pending (decode : List (BitVec 8) → Nat → BitVec 8) (outputLen : Nat)
    (input : List (BitVec 8)) (state : AsyncState) : Prop where
  done : (daemonCompletes decode state).ctrl.gpuDone = 1
  length : (daemonCompletes decode state).ctrl.outputLen = outputLen
  bytes : ∀ i < outputLen, (daemonCompletes decode state).buffers.output i = decode input i

theorem storeFirst_of_lt {α : Type} {n i : Nat} (less : i < n) (array values : Nat → α) :
    storeFirst n array values i = values i := if_pos less

theorem storeFirst_of_le {α : Type} {n i : Nat} (le : n ≤ i) (array values : Nat → α) :
    storeFirst n array values i = array i := if_neg (Nat.not_lt.mpr le)

theorem daemonCompletes_daemonCompletes (state : AsyncState) :
    daemonCompletes decode (daemonCompletes decode state) = daemonCompletes decode state := by
  cases flight : state.inFlight with
  | none => simp [daemonCompletes, flight]
  | some event => simp [daemonCompletes, flight]

/-- The static variables are out of the daemon's reach. -/
theorem cached_daemonCompletes_iff {input : List (BitVec 8)} :
    Cached decode outputLen input (daemonCompletes decode state) ↔
      Cached decode outputLen input state := by
  have same : (daemonCompletes decode state).asyncHasResult = state.asyncHasResult ∧
      (daemonCompletes decode state).asyncResultLen = state.asyncResultLen ∧
      (daemonCompletes decode state).asyncResult = state.asyncResult := by
    cases flight : state.inFlight <;> simp [daemonCompletes, flight]
  obtain ⟨has, length, bytes⟩ := same
  constructor
  · intro cached
    exact ⟨has ▸ cached.has, length ▸ cached.length, bytes ▸ cached.bytes⟩
  · intro cached
    exact ⟨has.trans cached.has, length.trans cached.length, bytes ▸ cached.bytes⟩

/-- A dispatched job is for its own input. -/
theorem pending_dispatchLdpc (clock : Nat) (p : OffloadCall) (size : p.outputLen = outputLen)
    (state : AsyncState) : Pending decode outputLen p.input (dispatchLdpc pid clock p state) := by
  have input : (List.range p.input.length).map
      (storeFirst p.input.length state.buffers.input (p.input.getD · 0)) = p.input := by
    apply List.ext_getElem
    · simp
    · intro i one two
      rw [List.getElem_map, List.getElem_range, storeFirst_of_lt two,
        List.getD_eq_getElem?_getD, List.getElem?_eq_getElem two, Option.getD_some]
  refine ⟨rfl, (outputLen_mod p).trans size, fun i less => ?_⟩
  change storeFirst (p.outputLen % 2 ^ 32) state.buffers.output
    (decode ((List.range (p.input.length % 2 ^ 32)).map
      (storeFirst p.input.length state.buffers.input (p.input.getD · 0)))) i = _
  rw [outputLen_mod, inputLen_mod, size, storeFirst_of_lt less, input]

/-- What the daemon does in time does not matter for the job. -/
theorem Pending.mayComplete {input : List (BitVec 8)}
    (pending : Pending decode outputLen input state) (prompt : Bool) :
    Pending decode outputLen input (daemonMayComplete decode prompt state) := by
  rw [daemonMayComplete]
  split_ifs
  · constructor <;> rw [daemonCompletes_daemonCompletes]
    · exact pending.done
    · exact pending.length
    · exact pending.bytes
  · exact pending

theorem Cached.mayComplete {input : List (BitVec 8)}
    (cached : Cached decode outputLen input state) (prompt : Bool) :
    Cached decode outputLen input (daemonMayComplete decode prompt state) := by
  rw [daemonMayComplete]
  split_ifs
  · exact cached_daemonCompletes_iff.mpr cached
  · exact cached

theorem clip_eq_min (length : Nat) :
    (if asyncBufSz < length then asyncBufSz else length) = min asyncBufSz length := by
  split_ifs <;> omega

/-- The first call returns the result for its input, which is then both cached and computed once
more. -/
theorem first_call (fresh : state.asyncHasResult = false) (clock : Nat) (prompt : Bool)
    (p : AsyncCall) (size : p.call.outputLen = outputLen) :
    Cached decode outputLen p.call.input
        (l1OffloadAsyncLdpc decode pid clock prompt p state).1 ∧
      Pending decode outputLen p.call.input
        (l1OffloadAsyncLdpc decode pid clock prompt p state).1 ∧
      ∀ i < outputLen,
        (l1OffloadAsyncLdpc decode pid clock prompt p state).2 i = decode p.call.input i := by
  have job : Pending decode outputLen p.call.input (dispatchLdpc pid clock p.call state) :=
    pending_dispatchLdpc clock p.call size state
  rw [l1OffloadAsyncLdpc, if_pos (by rw [fresh]; rfl)]
  simp only [job.length, clip_eq_min]
  refine ⟨Cached.mayComplete ⟨rfl, rfl, fun i less => ?_⟩ prompt,
    (pending_dispatchLdpc clock p.call size _).mayComplete prompt, fun i less => ?_⟩
  · have inside : i < outputLen := Nat.lt_of_lt_of_le less (Nat.min_le_right _ _)
    exact (storeFirst_of_lt less _ _).trans ((storeFirst_of_lt inside _ _).trans
      (job.bytes i inside))
  · exact (storeFirst_of_lt less _ _).trans (job.bytes i less)

/-- A later call returns what is cached; the job of the call before it is cached for the next
one. -/
theorem later_call {shown due : List (BitVec 8)} (cached : Cached decode outputLen shown state)
    (pending : Pending decode outputLen due state) (clock : Nat) (prompt : Bool) (p : AsyncCall)
    (size : p.call.outputLen = outputLen) :
    Cached decode outputLen due (l1OffloadAsyncLdpc decode pid clock prompt p state).1 ∧
      Pending decode outputLen p.call.input
        (l1OffloadAsyncLdpc decode pid clock prompt p state).1 ∧
      ∀ i < outputLen, (l1OffloadAsyncLdpc decode pid clock prompt p state).2 i =
        if i < asyncBufSz then decode shown i else p.output i := by
  have has := cached_daemonCompletes_iff.mpr cached
  have copyLen : (if state.asyncResultLen < p.call.outputLen then state.asyncResultLen
      else p.call.outputLen) = min asyncBufSz outputLen := by
    rw [cached.length, size]
    split_ifs <;> omega
  have seen : (daemonCompletes decode state).ctrl.gpuDone ≠ 0 := by
    rw [pending.done]
    decide
  rw [l1OffloadAsyncLdpc, if_neg (by rw [cached.has]; decide)]
  simp only [copyLen, if_pos seen, pending.length, clip_eq_min]
  refine ⟨Cached.mayComplete ?_ prompt,
    (pending_dispatchLdpc clock p.call size _).mayComplete prompt, fun i less => ?_⟩
  · refine ⟨has.has, rfl, fun i less => ?_⟩
    have inside : i < outputLen := Nat.lt_of_lt_of_le less (Nat.min_le_right _ _)
    exact (storeFirst_of_lt less _ _).trans (pending.bytes i inside)
  · split_ifs with room
    · have inside : i < min asyncBufSz outputLen := Nat.lt_min.mpr ⟨room, less⟩
      exact (storeFirst_of_lt inside _ _).trans (cached.bytes i inside)
    · exact storeFirst_of_le (by omega) _ _

/-- The bytes that a later call leaves, when it shows the result for an input. -/
def laterOutput (decode : List (BitVec 8) → Nat → BitVec 8) (outputLen : Nat)
    (shown : List (BitVec 8)) (p : AsyncCall) : List (BitVec 8) :=
  (List.range outputLen).map fun i => if i < asyncBufSz then decode shown i else p.output i

/-- Behind the first call every call shows the input of two calls ago. -/
theorem asyncRun_later {shown due : List (BitVec 8)} {calls : List AsyncCall}
    (sizes : ∀ p ∈ calls, p.call.outputLen = outputLen)
    (cached : Cached decode outputLen shown state)
    (pending : Pending decode outputLen due state) {k : Nat} {p : AsyncCall}
    {source : List (BitVec 8)} (found : calls[k]? = some p)
    (before : (shown :: due :: calls.map (·.call.input))[k]? = some source) :
    (asyncRun decode pid clock prompt outputLen calls state)[k]? =
      some (laterOutput decode outputLen source p) := by
  induction calls generalizing shown due state k with
  | nil => exact absurd found (by simp)
  | cons first rest ih =>
      obtain ⟨nextCached, nextPending, output⟩ :=
        @later_call decode pid outputLen state shown due cached pending (clock rest.length)
          (prompt rest.length) first (sizes first List.mem_cons_self)
      cases k with
      | zero =>
          cases found
          cases before
          exact congrArg some (List.map_congr_left fun i inside =>
            output i (List.mem_range.mp inside))
      | succ k =>
          exact ih (fun p member => sizes p (List.mem_cons_of_mem _ member)) nextCached
            nextPending found before

/-! ### The lag -/

/-- Call by call, the outputs are the results for the input of the call before, the first one for
its own input. -/
def LagsByOne (decode : List (BitVec 8) → Nat → BitVec 8) (outputLen : Nat)
    (calls : List AsyncCall) (outputs : List (List (BitVec 8))) : Prop :=
  ∀ k < calls.length, ∀ due, calls[k - 1]? = some due →
    outputs[k]? = some ((List.range outputLen).map (decode due.call.input))

/-- The input of two calls ago has the result that `LagsByOne` asks for, in the bytes that the cache
has room for, and the caller's output already holds the others. -/
def SameByChance (decode : List (BitVec 8) → Nat → BitVec 8) (outputLen : Nat)
    (calls : List AsyncCall) : Prop :=
  ∀ (k : Nat) p, 1 ≤ k → calls[k]? = some p → ∀ shown due, calls[k - 2]? = some shown →
    calls[k - 1]? = some due → ∀ i < outputLen,
      (if i < asyncBufSz then decode shown.call.input i else p.output i) =
        decode due.call.input i

/-- The calls of a run from the start: the first shows its own input, every later one the input of
two calls ago. -/
theorem asyncRun_eq (fresh : state.asyncHasResult = false) {calls : List AsyncCall}
    (sizes : ∀ p ∈ calls, p.call.outputLen = outputLen) :
    (∀ p, calls[0]? = some p →
      (asyncRun decode pid clock prompt outputLen calls state)[0]? =
        some ((List.range outputLen).map (decode p.call.input))) ∧
      ∀ (k : Nat) p, 1 ≤ k → calls[k]? = some p → ∀ shown, calls[k - 2]? = some shown →
        (asyncRun decode pid clock prompt outputLen calls state)[k]? =
          some (laterOutput decode outputLen shown.call.input p) := by
  cases calls with
  | nil => simp
  | cons first rest =>
      obtain ⟨cached, pending, output⟩ :=
        @first_call decode pid outputLen state fresh (clock rest.length) (prompt rest.length)
          first (sizes first List.mem_cons_self)
      refine ⟨?_, ?_⟩
      · intro p found
        cases found
        exact congrArg some (List.map_congr_left fun i inside =>
          output i (List.mem_range.mp inside))
      · intro k p later found shown source
        obtain ⟨j, rfl⟩ : ∃ j, k = j + 1 := ⟨k - 1, by omega⟩
        apply @asyncRun_later decode pid outputLen clock prompt _ first.call.input
          first.call.input rest (fun p member => sizes p (List.mem_cons_of_mem _ member)) cached
          pending j p shown.call.input found
        rcases j with _ | j
        · cases source
          rfl
        · have mapped := congrArg (Option.map (·.call.input)) source
          rw [← List.getElem?_map] at mapped
          exact mapped

theorem map_range_inj {n : Nat} {one two : Nat → BitVec 8} :
    (List.range n).map one = (List.range n).map two ↔ ∀ i < n, one i = two i := by
  simp [List.map_inj_left]

end Pipeline

/-- For every sequence of asynchronous calls of one size, when the daemon completes every job
before the next check is over: the outputs lag by one call exactly when every input's result is
that of the input before it, since behind the first call the lag is two. -/
theorem async_offload_lags_by_one_iff (decode : List (BitVec 8) → Nat → BitVec 8) (pid : Nat)
    (clock : Nat → Nat) (prompt : Nat → Bool) {outputLen : Nat} {calls : List AsyncCall}
    {state : AsyncState} (fresh : state.asyncHasResult = false)
    (sizes : ∀ p ∈ calls, p.call.outputLen = outputLen) :
    LagsByOne decode outputLen calls (asyncRun decode pid clock prompt outputLen calls state) ↔
      SameByChance decode outputLen calls := by
  obtain ⟨first, later⟩ :=
    @asyncRun_eq decode pid outputLen clock prompt state fresh calls sizes
  constructor
  · intro lags k p one found shown due shownAt dueAt
    have claimed := lags k (List.getElem?_eq_some_iff.mp found).1 due dueAt
    rw [later k p one found shown shownAt, Option.some_inj, laterOutput, map_range_inj] at claimed
    exact claimed
  · intro same k inside due dueAt
    rcases Nat.eq_zero_or_pos k with rfl | one
    · exact first due dueAt
    · have shownAt := List.getElem?_eq_getElem (show k - 2 < calls.length by omega)
      have found := List.getElem?_eq_getElem inside
      rw [later k _ one found _ shownAt, Option.some_inj, laterOutput, map_range_inj]
      exact same k _ one found _ due shownAt dueAt

/-- The decisions for LLRs that keep their signs. -/
private def signBits (input : List (BitVec 8)) (i : Nat) : BitVec 8 :=
  if (input.getD i 0).msb then 1 else 0

private def oneByte (byte : BitVec 8) : AsyncCall where
  call :=
    { workType := .ldpc
      input := [byte]
      outputLen := 1
      input_fits := by simp [cxlRegionL1InputSz]
      output_fits := by decide
      fft_sizes := fun wrong => nomatch wrong }
  output := fun _ => 0

private def unprimed : AsyncState where
  ctrl := .cleared
  buffers := ⟨fun _ => 0, fun _ => 0⟩
  inFlight := none
  asyncResult := fun _ => 0
  asyncResultLen := 0
  asyncHasResult := false

/-- Three calls, with the LLRs -1, -2 and 1: the third returns the result for the first input, which
is that for the second. -/
theorem async_offload_lags_by_one_for_three :
    unprimed.asyncHasResult = false ∧
      (∀ p ∈ [oneByte 255, oneByte 254, oneByte 1], p.call.outputLen = 1) ∧
      LagsByOne signBits 1 [oneByte 255, oneByte 254, oneByte 1]
        (asyncRun signBits 7 id (fun _ => false) 1 [oneByte 255, oneByte 254, oneByte 1]
          unprimed) := by
  have sizes : ∀ p ∈ [oneByte 255, oneByte 254, oneByte 1], p.call.outputLen = 1 := by
    simp [oneByte]
  refine ⟨rfl, sizes, (async_offload_lags_by_one_iff signBits 7 id _ rfl sizes).mpr ?_⟩
  intro k p one found shown due shownAt dueAt i inside
  have bound := (List.getElem?_eq_some_iff.mp found).1
  simp only [List.length_cons, List.length_nil] at bound
  rw [if_pos (show i < asyncBufSz from Nat.lt_of_lt_of_le inside (by decide))]
  obtain rfl : i = 0 := by omega
  obtain rfl | rfl : k = 1 ∨ k = 2 := by omega
  · cases shownAt
    cases dueAt
    rfl
  · cases shownAt
    cases dueAt
    decide

/-- The third of three calls returns the result for the first input, not for the second. -/
theorem third_call_returns_first_result :
    ¬ ∀ (decode : List (BitVec 8) → Nat → BitVec 8) (pid : Nat) (clock : Nat → Nat)
      (prompt : Nat → Bool) (outputLen : Nat) (calls : List AsyncCall) (state : AsyncState),
      state.asyncHasResult = false → (∀ p ∈ calls, p.call.outputLen = outputLen) →
        LagsByOne decode outputLen calls
          (asyncRun decode pid clock prompt outputLen calls state) := by
  intro claim
  have lags := claim signBits 7 id (fun _ => true) 1 [oneByte 255, oneByte 1, oneByte 1] unprimed
    rfl (by simp [oneByte]) 2 (by decide) (oneByte 1) rfl
  exact absurd lags (by decide +kernel)

end RanInline.Offload
