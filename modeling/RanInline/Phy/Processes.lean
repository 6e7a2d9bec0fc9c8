/-
Module: RanInline.Phy.Processes
Purpose: Two pipelines in one process.  The descriptor counts of oi_p2_feed and the bytes that
  drained records point to are function-level statics; the runs in which one pipeline sees
  nothing of the other all the same.
Trusted boundary: none
Main exports: TbStorage, HeldRecord, P2Process, PipelineOp, P2Process.step, Separated,
  pipelines_do_not_interfere
-/
import RanInline.Phy.Drain

namespace RanInline.Phy

open RanInline.Lib RanInline.Oran

/-! ### One process -/

/-- `tb_bytes_storage`, a static vector: its current allocation, the capacity of that and the
bytes in it. -/
structure TbStorage where
  allocation : Nat
  capacity : Nat
  bytes : List UInt8

/-- `std::vector::assign`: a larger size moves the vector to a new allocation. -/
def TbStorage.assign (storage : TbStorage) (bytes : List UInt8) : TbStorage :=
  if bytes.length ≤ storage.capacity then { storage with bytes := bytes }
  else
    { allocation := storage.allocation + 1
      capacity := bytes.length
      bytes := bytes }

/-- A record the caller got from a drain; `tbData` is the allocation it points to. -/
structure HeldRecord where
  header : TbRecordHeader
  tbData : Nat

/-- What a caller reads in a record: the header, and the bytes unless the pointer dangles. -/
def HeldRecord.content (record : HeldRecord) (storage : TbStorage) :
    TbRecordHeader × Option (List UInt8) :=
  (record.header,
    if record.tbData = storage.allocation then
      some (storage.bytes.take record.header.tbSizeBytes)
    else none)

/-- The two pipelines of a process. -/
inductive Which where
  | a
  | b
deriving DecidableEq, Repr

/-- What a call returns: a feed its status and the ring position it has written, a drain its
status and the record. -/
inductive CallResult where
  | setup (done : Bool)
  | fed (status : OiP2Status) (position : Option Nat)
  | wrote (status : OiP2Status)
  | launched (status : OiP2Status)
  | drained (status : OiP2Status) (record : Option (TbRecordHeader × List UInt8))
  | tornDown
deriving DecidableEq, Repr

/-- A process with its function-local statics and two pipelines.  Beside it: the descriptors
each pipeline has accepted for each slot, the record of the latest drain on each pipeline and
what the calls on it returned. -/
structure P2Process (F Llr : Type) where
  statics : P2Statics
  tbBytesStorage : TbStorage
  pipeline : Which → Option (OiP2Pipeline F Llr)
  accepted : Which → UInt32 → Nat
  held : Which → Option HeldRecord
  results : Which → List CallResult

/-- The calls on a pipeline, with what the device and the environment decide: the outcome of
a setup and the memory it gets, failures, the order of K1's writes, and for a drain what the
host tail finds uninitialised. -/
inductive PipelineOp (F Llr Env : Type) where
  | setup (outcome : Option (List Nat × DeviceMemory F Llr))
  | feed (desc : OiFrameDesc) (clOk : Bool)
  | writeArena (offset : UInt64) (data : List UInt8) (clOk : Bool)
  | launch (slotId : UInt32) (mcsIndex : Nat) (fails : Option LaunchStage)
      (order : List (K1Write F))
  | drain (slotId : UInt32) (env : Env)
  | teardown

section Process

variable {F Llr Env : Type} (kernels : PhyKernels F Llr) (tail : HostTail Llr Env)

/-- A process before its first call. -/
def P2Process.start : P2Process F Llr where
  statics := { nofDescsBySlot := fun _ => 0 }
  tbBytesStorage := { allocation := 0, capacity := 0, bytes := [] }
  pipeline := fun _ => none
  accepted := fun _ _ => 0
  held := fun _ => none
  results := fun _ => []

/-- The call on one pipeline returns. -/
def P2Process.returns (process : P2Process F Llr) (which : Which)
    (pipeline : Option (OiP2Pipeline F Llr)) (result : CallResult) : P2Process F Llr :=
  { process with
    pipeline := Function.update process.pipeline which pipeline
    results := Function.update process.results which (process.results which ++ [result]) }

/-- `oi_p2_feed` in a process. -/
def P2Process.feed (process : P2Process F Llr) (which : Which) (p : OiP2Pipeline F Llr)
    (desc : OiFrameDesc) (clOk : Bool) : P2Process F Llr :=
  match oiP2Feed clOk process.statics p desc with
  | (.ok, statics, p) =>
      { process.returns which (some p)
          (.fed .ok (some (process.statics.nofDescsBySlot desc.slotId))) with
        statics := statics
        accepted := Function.update process.accepted which
          (Function.update (process.accepted which) desc.slotId
            (process.accepted which desc.slotId + 1)) }
  | (status, _, p) => process.returns which (some p) (.fed status none)

/-- `oi_p2_drain` in a process. -/
def P2Process.drain (process : P2Process F Llr) (which : Which) (p : OiP2Pipeline F Llr)
    (slotId : UInt32) (env : Env) : P2Process F Llr :=
  match oiP2DrainRecord tail env p slotId with
  | (status, p, none) => process.returns which (some p) (.drained status none)
  | (status, p, some (header, bytes)) =>
      let storage := process.tbBytesStorage.assign bytes
      { process.returns which (some p) (.drained status (some (header, bytes))) with
        tbBytesStorage := storage
        held := Function.update process.held which
          (some { header := header, tbData := storage.allocation }) }

/-- A call on a pipeline that is not set up is no call. -/
def P2Process.onPipeline (process : P2Process F Llr) (which : Which)
    (call : OiP2Pipeline F Llr → P2Process F Llr) : P2Process F Llr :=
  match process.pipeline which with
  | none => process
  | some p => call p

/-- One call on one of the pipelines. -/
def P2Process.step (process : P2Process F Llr) (which : Which) :
    PipelineOp F Llr Env → P2Process F Llr
  | .setup outcome =>
      process.returns which (outcome.map fun loaded => oiP2Setup loaded.1 loaded.2)
        (.setup outcome.isSome)
  | .feed desc clOk => process.onPipeline which fun p => process.feed which p desc clOk
  | .writeArena offset data clOk =>
      process.onPipeline which fun p =>
        process.returns which (some (oiP2WriteArena clOk p offset data).2)
          (.wrote (oiP2WriteArena clOk p offset data).1)
  | .launch slotId mcsIndex fails order =>
      process.onPipeline which fun p =>
        process.returns which (some (oiP2LaunchSlot kernels fails order p slotId mcsIndex).2)
          (.launched (oiP2LaunchSlot kernels fails order p slotId mcsIndex).1)
  | .drain slotId env => process.onPipeline which fun p => process.drain tail which p slotId env
  | .teardown => process.returns which none .tornDown

/-- A sequence of calls on the two pipelines, in any interleaving. -/
def P2Process.run (process : P2Process F Llr) (calls : List (Which × PipelineOp F Llr Env)) :
    P2Process F Llr :=
  calls.foldl (fun process call => process.step kernels tail call.1 call.2) process

end Process

/-! ### What the calls do -/

section Calls

variable {F Llr Env : Type} {tail : HostTail Llr Env} {process : P2Process F Llr} {which : Which}
  {p : OiP2Pipeline F Llr} {desc : OiFrameDesc}

@[simp]
theorem returns_pipeline (process : P2Process F Llr) (which other : Which)
    (pipeline : Option (OiP2Pipeline F Llr)) (result : CallResult) :
    (process.returns which pipeline result).pipeline other =
      if other = which then pipeline else process.pipeline other :=
  Function.update_apply ..

@[simp]
theorem returns_results (process : P2Process F Llr) (which other : Which)
    (pipeline : Option (OiP2Pipeline F Llr)) (result : CallResult) :
    (process.returns which pipeline result).results other =
      if other = which then process.results which ++ [result] else process.results other :=
  Function.update_apply ..

theorem feed_overflow (clOk : Bool)
    (full : p.descRingCapacity ≤ process.statics.nofDescsBySlot desc.slotId) :
    process.feed which p desc clOk =
      process.returns which (some (p.touchSlot desc.slotId)) (.fed .errArenaOverflow none) := by
  rw [P2Process.feed, oiP2Feed_overflow clOk full]

theorem feed_device (room : process.statics.nofDescsBySlot desc.slotId < p.descRingCapacity) :
    process.feed which p desc false =
      process.returns which (some (p.touchSlot desc.slotId)) (.fed .errDevice none) := by
  rw [P2Process.feed, oiP2Feed_device room]

/-- The descriptors accepted for a slot, after one more on one of the pipelines. -/
def acceptedOne (accepted : Which → UInt32 → Nat) (which : Which) (slotId : UInt32) :
    Which → UInt32 → Nat :=
  Function.update accepted which
    (Function.update (accepted which) slotId (accepted which slotId + 1))

theorem acceptedOne_apply (accepted : Which → UInt32 → Nat) (which other : Which)
    (slotId other' : UInt32) :
    acceptedOne accepted which slotId other other' =
      accepted other other' + if other = which ∧ other' = slotId then 1 else 0 := by
  by_cases same : other = which
  · subst same
    by_cases here : other' = slotId
    · simp [acceptedOne, here]
    · simp [acceptedOne, here]
  · simp [acceptedOne, same]

theorem feed_ok (room : process.statics.nofDescsBySlot desc.slotId < p.descRingCapacity) :
    process.feed which p desc true =
      { process.returns which
          (some { p.touchSlot desc.slotId with
            descRing := Function.update p.descRing
              (process.statics.nofDescsBySlot desc.slotId) desc })
          (.fed .ok (some (process.statics.nofDescsBySlot desc.slotId))) with
        statics := { process.statics with
          nofDescsBySlot := Function.update process.statics.nofDescsBySlot desc.slotId
            (process.statics.nofDescsBySlot desc.slotId + 1) }
        accepted := acceptedOne process.accepted which desc.slotId } := by
  rw [P2Process.feed, oiP2Feed_ok room]
  rfl

/-- A drain that fails has no record. -/
theorem oiP2DrainRecord_failed (env : Env) {slotId : UInt32}
    (failed : (oiP2Drain p slotId).1 ≠ .ok) : (oiP2DrainRecord tail env p slotId).2.2 = none := by
  have none : drainInput p slotId = none := by
    rw [ne_eq, oiP2Drain_ok_iff, Bool.not_eq_true, Option.isSome_eq_false_iff,
      Option.isNone_iff_eq_none] at failed
    exact failed
  rw [oiP2DrainRecord, none]
  rfl

theorem drain_none {slotId : UInt32} {env : Env}
    (none : (oiP2DrainRecord tail env p slotId).2.2 = none) :
    process.drain tail which p slotId env =
      process.returns which (some (oiP2Drain p slotId).2)
        (.drained (oiP2Drain p slotId).1 Option.none) := by
  have record : (drainInput p slotId).bind (tbRecord tail env slotId) = Option.none := none
  rw [P2Process.drain, oiP2DrainRecord, record]

theorem drain_some {slotId : UInt32} {env : Env} {header : TbRecordHeader} {bytes : List UInt8}
    (found : (oiP2DrainRecord tail env p slotId).2.2 = some (header, bytes)) :
    process.drain tail which p slotId env =
      { process.returns which (some (oiP2Drain p slotId).2)
          (.drained (oiP2Drain p slotId).1 (some (header, bytes))) with
        tbBytesStorage := process.tbBytesStorage.assign bytes
        held := Function.update process.held which
          (some { header := header
                  tbData := (process.tbBytesStorage.assign bytes).allocation }) } := by
  have record : (drainInput p slotId).bind (tbRecord tail env slotId) = some (header, bytes) :=
    found
  rw [P2Process.drain, oiP2DrainRecord, record]

@[simp]
theorem TbStorage.assign_bytes (storage : TbStorage) (bytes : List UInt8) :
    (storage.assign bytes).bytes = bytes := by
  rw [TbStorage.assign]
  split_ifs <;> rfl

end Calls

/-! ### Separation -/

section Separation

variable {F Llr Env : Type} {kernels : PhyKernels F Llr} {tail : HostTail Llr Env}

/-- What the caller reads in the record of the latest drain on a pipeline. -/
def P2Process.heldContent (process : P2Process F Llr) (which : Which) :
    Option (TbRecordHeader × Option (List UInt8)) :=
  (process.held which).map (·.content process.tbBytesStorage)

/-- The call does not bring the statics of one pipeline in the way of the other.  A feed on B
finds no descriptor that A fed for the slot, or fails for both counts; a drain on A fails, or
no record of B is held. -/
def P2Process.Separate (process : P2Process F Llr) : Which × PipelineOp F Llr Env → Prop
  | (.b, .feed desc clOk) => ∀ p, process.pipeline .b = some p →
      process.accepted .a desc.slotId = 0 ∨
      p.descRingCapacity ≤ process.accepted .b desc.slotId ∨
      clOk = false ∧ process.accepted .a desc.slotId + process.accepted .b desc.slotId <
        p.descRingCapacity
  | (.a, .drain slotId _) => ∀ p, process.pipeline .a = some p →
      (oiP2Drain p slotId).1 ≠ .ok ∨ process.held .b = none
  | _ => True

/-- Every call of a run is separate in the state before it. -/
def Separated (kernels : PhyKernels F Llr) (tail : HostTail Llr Env) :
    P2Process F Llr → List (Which × PipelineOp F Llr Env) → Prop
  | _, [] => True
  | process, call :: calls =>
      process.Separate call ∧ Separated kernels tail (process.step kernels tail call.1 call.2) calls

/-- The calls on B alone. -/
def onlyB (calls : List (Which × PipelineOp F Llr Env)) : List (Which × PipelineOp F Llr Env) :=
  calls.filter (·.1 = .b)

/-- A run of both pipelines beside the run of the calls on B alone. -/
structure Alike (full own : P2Process F Llr) : Prop where
  pipeline : full.pipeline .b = own.pipeline .b
  results : full.results .b = own.results .b
  counts : ∀ slotId, full.statics.nofDescsBySlot slotId =
    full.accepted .a slotId + full.accepted .b slotId
  ownCounts : ∀ slotId, own.statics.nofDescsBySlot slotId = full.accepted .b slotId
  content : full.heldContent .b = own.heldContent .b

variable {process full own : P2Process F Llr}

/-! ### Calls on A -/

/-- A call on A that only returns. -/
theorem Alike.returns_a (alike : Alike full own) (pipeline : Option (OiP2Pipeline F Llr))
    (result : CallResult) : Alike (full.returns .a pipeline result) own :=
  ⟨by simpa using alike.pipeline, by simpa using alike.results, alike.counts, alike.ownCounts,
    alike.content⟩

theorem Alike.feed_a (alike : Alike full own) (p : OiP2Pipeline F Llr) (desc : OiFrameDesc)
    (clOk : Bool) : Alike (full.feed .a p desc clOk) own := by
  rcases Nat.lt_or_ge (full.statics.nofDescsBySlot desc.slotId) p.descRingCapacity with room | none
  · cases clOk with
    | false =>
        rw [feed_device room]
        exact alike.returns_a _ _
    | true =>
        rw [feed_ok room]
        refine ⟨by simpa using alike.pipeline, by simpa using alike.results, fun slotId => ?_,
          fun slotId => ?_, alike.content⟩
        · have counts := alike.counts
          by_cases here : slotId = desc.slotId
          · simp [acceptedOne_apply, here, counts]
            omega
          · simp [acceptedOne_apply, here, counts]
        · simpa [acceptedOne_apply] using alike.ownCounts slotId
  · rw [feed_overflow clOk none]
    exact alike.returns_a _ _

theorem Alike.drain_a (alike : Alike full own) {p : OiP2Pipeline F Llr} {slotId : UInt32}
    (env : Env) (separate : (oiP2Drain p slotId).1 ≠ .ok ∨ full.held .b = none) :
    Alike (full.drain tail .a p slotId env) own := by
  cases found : (oiP2DrainRecord tail env p slotId).2.2 with
  | none =>
      rw [drain_none found]
      exact alike.returns_a _ _
  | some record =>
      have released : full.held .b = none := by
        rcases separate with failed | released
        · rw [oiP2DrainRecord_failed env failed] at found
          exact absurd found (by simp)
        · exact released
      have content : own.heldContent .b = none := by
        rw [← alike.content, P2Process.heldContent, released]
        rfl
      rw [drain_some found]
      refine ⟨by simpa using alike.pipeline, by simpa using alike.results, alike.counts,
        alike.ownCounts, ?_⟩
      rw [content]
      simp [P2Process.heldContent, released]

/-- A call on A. -/
theorem Alike.step_a (alike : Alike full own) {op : PipelineOp F Llr Env}
    (separate : full.Separate (.a, op)) : Alike (full.step kernels tail .a op) own := by
  cases op with
  | setup outcome => exact alike.returns_a _ _
  | teardown => exact alike.returns_a _ _
  | feed desc clOk =>
      rw [P2Process.step, P2Process.onPipeline]
      split
      · exact alike
      · exact alike.feed_a _ desc clOk
  | writeArena offset data clOk =>
      rw [P2Process.step, P2Process.onPipeline]
      split
      · exact alike
      · exact alike.returns_a _ _
  | launch slotId mcsIndex fails order =>
      rw [P2Process.step, P2Process.onPipeline]
      split
      · exact alike
      · exact alike.returns_a _ _
  | drain slotId env =>
      rw [P2Process.step, P2Process.onPipeline]
      split
      · exact alike
      · rename_i p found
        exact alike.drain_a env (separate p found)

/-- What separation excludes: a drain on A that fits the allocation of a record of B puts its
own bytes into that record. -/
theorem held_record_overwritten {p : OiP2Pipeline F Llr} {slotId : UInt32} {env : Env}
    {record : HeldRecord} {header : TbRecordHeader} {bytes : List UInt8}
    (held : process.held .b = some record)
    (current : record.tbData = process.tbBytesStorage.allocation)
    (found : (oiP2DrainRecord tail env p slotId).2.2 = some (header, bytes))
    (fits : bytes.length ≤ process.tbBytesStorage.capacity) :
    (process.drain tail .a p slotId env).heldContent .b =
      some (record.header, some (bytes.take record.header.tbSizeBytes)) := by
  rw [drain_some found]
  simp [P2Process.heldContent, HeldRecord.content, held, current, TbStorage.assign, fits]

/-! ### Calls on B -/

/-- A call on B that only returns. -/
theorem Alike.returns_b (alike : Alike full own) (pipeline : Option (OiP2Pipeline F Llr))
    (result : CallResult) :
    Alike (full.returns .b pipeline result) (own.returns .b pipeline result) :=
  ⟨by simp, by simp [alike.results], alike.counts, alike.ownCounts, alike.content⟩

theorem Alike.feed_b (alike : Alike full own) {p : OiP2Pipeline F Llr} {desc : OiFrameDesc}
    {clOk : Bool}
    (separate : full.accepted .a desc.slotId = 0 ∨
      p.descRingCapacity ≤ full.accepted .b desc.slotId ∨
      clOk = false ∧ full.accepted .a desc.slotId + full.accepted .b desc.slotId <
        p.descRingCapacity) :
    Alike (full.feed .b p desc clOk) (own.feed .b p desc clOk) := by
  have counts := alike.counts desc.slotId
  have ownCounts := alike.ownCounts desc.slotId
  rcases Nat.lt_or_ge (full.statics.nofDescsBySlot desc.slotId) p.descRingCapacity with room | none
  · have ownRoom : own.statics.nofDescsBySlot desc.slotId < p.descRingCapacity := by omega
    cases clOk with
    | false =>
        rw [feed_device room, feed_device ownRoom]
        exact alike.returns_b _ _
    | true =>
        have same : own.statics.nofDescsBySlot desc.slotId =
            full.statics.nofDescsBySlot desc.slotId := by
          simp only [Bool.true_eq_false, false_and, or_false] at separate
          omega
        rw [feed_ok room, feed_ok ownRoom, same]
        refine ⟨by simp, by simp [alike.results], fun slotId => ?_, fun slotId => ?_,
          alike.content⟩
        · by_cases here : slotId = desc.slotId
          · simp [acceptedOne_apply, here, counts]
            omega
          · simp [acceptedOne_apply, here, alike.counts]
        · by_cases here : slotId = desc.slotId
          · simp [acceptedOne_apply, here, ← same, ownCounts]
          · simp [acceptedOne_apply, here, alike.ownCounts]
  · have ownFull : p.descRingCapacity ≤ own.statics.nofDescsBySlot desc.slotId := by omega
    rw [feed_overflow clOk none, feed_overflow clOk ownFull]
    exact alike.returns_b _ _

theorem Alike.drain_b (alike : Alike full own) (p : OiP2Pipeline F Llr) (slotId : UInt32)
    (env : Env) :
    Alike (full.drain tail .b p slotId env) (own.drain tail .b p slotId env) := by
  cases found : (oiP2DrainRecord tail env p slotId).2.2 with
  | none =>
      rw [drain_none found, drain_none found]
      exact alike.returns_b _ _
  | some record =>
      rw [drain_some found, drain_some found]
      refine ⟨by simp, by simp [alike.results], alike.counts, alike.ownCounts, ?_⟩
      simp [P2Process.heldContent, HeldRecord.content]

/-- A call on B. -/
theorem Alike.step_b (alike : Alike full own) {op : PipelineOp F Llr Env}
    (separate : full.Separate (.b, op)) :
    Alike (full.step kernels tail .b op) (own.step kernels tail .b op) := by
  cases op with
  | setup outcome => exact alike.returns_b _ _
  | teardown => exact alike.returns_b _ _
  | feed desc clOk =>
      rw [P2Process.step, P2Process.step, P2Process.onPipeline, P2Process.onPipeline,
        ← alike.pipeline]
      split
      · exact alike
      · rename_i p found
        exact alike.feed_b (separate p found)
  | writeArena offset data clOk =>
      rw [P2Process.step, P2Process.step, P2Process.onPipeline, P2Process.onPipeline,
        ← alike.pipeline]
      split
      · exact alike
      · exact alike.returns_b _ _
  | launch slotId mcsIndex fails order =>
      rw [P2Process.step, P2Process.step, P2Process.onPipeline, P2Process.onPipeline,
        ← alike.pipeline]
      split
      · exact alike
      · exact alike.returns_b _ _
  | drain slotId env =>
      rw [P2Process.step, P2Process.step, P2Process.onPipeline, P2Process.onPipeline,
        ← alike.pipeline]
      split
      · exact alike
      · exact alike.drain_b _ slotId env

/-! ### Whole runs -/

/-- A run whose calls are separate looks on B like the run of the calls on B alone. -/
theorem Alike.run (alike : Alike full own) {calls : List (Which × PipelineOp F Llr Env)}
    (separated : Separated kernels tail full calls) :
    Alike (full.run kernels tail calls) (own.run kernels tail (onlyB calls)) := by
  induction calls generalizing full own with
  | nil => exact alike
  | cons call calls inductionHypothesis =>
      obtain ⟨which, op⟩ := call
      obtain ⟨separate, rest⟩ := separated
      cases which with
      | a => exact inductionHypothesis (alike.step_a separate) rest
      | b => exact inductionHypothesis (alike.step_b separate) rest

theorem alike_start : Alike (P2Process.start : P2Process F Llr) P2Process.start :=
  ⟨rfl, rfl, fun _ => rfl, fun _ => rfl, rfl⟩

theorem Separated.of_append {done rest : List (Which × PipelineOp F Llr Env)}
    (separated : Separated kernels tail process (done ++ rest)) :
    Separated kernels tail process done := by
  induction done generalizing process with
  | nil => trivial
  | cons call done inductionHypothesis => exact ⟨separated.1, inductionHypothesis separated.2⟩

/-- Two pipelines of one process, in any interleaving of their calls.  As long as no feed on B
meets descriptors that A has fed for its slot, and A drains nothing while a record of B is
held, at every moment of the run B has returned, and the caller reads in its record of B, what
it would without the calls on A. -/
theorem pipelines_do_not_interfere (kernels : PhyKernels F Llr) (tail : HostTail Llr Env)
    (calls : List (Which × PipelineOp F Llr Env))
    (separated : Separated kernels tail P2Process.start calls) :
    ∀ done, done <+: calls →
      ((P2Process.start.run kernels tail done).results .b =
        (P2Process.start.run kernels tail (onlyB done)).results .b) ∧
      (P2Process.start.run kernels tail done).heldContent .b =
        (P2Process.start.run kernels tail (onlyB done)).heldContent .b := by
  rintro done ⟨rest, rfl⟩
  have alike := alike_start.run separated.of_append
  exact ⟨alike.results, alike.content⟩

end Separation

/-- A host tail that decodes nothing. -/
private def silentTail : HostTail Unit Unit where
  decode := fun _ _ _ => { nofSegments := 1, baseGraph := 1, ok := true, tbBytesBuf := [] }

/-- A pipeline is set up on each side, and A is fed slot 0. -/
private def bothSetUp : List (Which × PipelineOp Unit Unit Unit) :=
  [(.a, .setup (some ([4], memoryOf 0))), (.b, .setup (some ([4], memoryOf 0))),
    (.a, .feed OiFrameDesc.zero true)]

/-- The record of slot 1 on B. -/
private def slotOneHeader : TbRecordHeader where
  schema := kTbRecordSchema
  slotId := 1
  tbSizeBytes := 576
  nofCb := 1
  baseGraph := 1
  crc24aOk := true
  mcsIndex := 4

/-- B is fed, launched and drained beside A. -/
theorem pipelines_with_different_slots_do_not_interfere :
    let calls := bothSetUp ++ [(.b, .feed { OiFrameDesc.zero with slotId := 1 } true),
      (.b, .launch 1 4 none []), (.b, .drain 1 ())]
    (P2Process.start.run noKernels silentTail calls).results .b =
        [.setup true, .fed .ok (some 0), .launched .ok,
          .drained .ok (some (slotOneHeader, []))] ∧
      (P2Process.start.run noKernels silentTail calls).results .b =
        (P2Process.start.run noKernels silentTail (onlyB calls)).results .b := by
  refine ⟨rfl, (pipelines_do_not_interfere noKernels silentTail _ ?_ _ List.prefix_rfl).1⟩
  exact ⟨trivial, trivial, trivial, fun _ _ => .inl rfl, trivial, trivial, trivial⟩

/-- After A was fed slot 0, the first descriptor B is fed for slot 0 goes to the second
position of its ring. -/
theorem feed_on_other_pipeline_moves_ring_position :
    ¬ ∀ (F Llr Env : Type) (kernels : PhyKernels F Llr) (tail : HostTail Llr Env)
      (calls : List (Which × PipelineOp F Llr Env)),
      (P2Process.start.run kernels tail calls).results .b =
          (P2Process.start.run kernels tail (onlyB calls)).results .b ∧
        (P2Process.start.run kernels tail calls).heldContent .b =
          (P2Process.start.run kernels tail (onlyB calls)).heldContent .b := by
  intro claim
  have same := (claim Unit Unit Unit noKernels silentTail
    (bothSetUp ++ [(.b, .feed OiFrameDesc.zero true)])).1
  have both : (P2Process.start.run noKernels silentTail
      (bothSetUp ++ [(.b, .feed OiFrameDesc.zero true)])).results .b =
        [.setup true, .fed .ok (some 1)] := rfl
  have alone : (P2Process.start.run noKernels silentTail
      (onlyB (bothSetUp ++ [(.b, .feed OiFrameDesc.zero true)]))).results .b =
        [.setup true, .fed .ok (some 0)] := rfl
  rw [both, alone] at same
  exact absurd same (by decide)

end RanInline.Phy
