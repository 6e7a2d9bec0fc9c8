/-
Module: RanInline.Seam.Segment
Purpose: oi_seam_open on the bytes of the segment file: which segments it attaches to, what
  it writes, and what a kill in the middle of a first initialisation leaves behind.
Trusted boundary: none
Main exports: OiSeamConfig, SegmentStep, oiSeamOpen, Attachable, runSteps,
  open_attach_rules, CrashSafe, crash_safe_iff
-/
import Mathlib.Tactic.IntervalCases
import RanInline.Lib.ByteRegion

namespace RanInline.Seam

open RanInline.Lib

/-- `oi_seam_config_t`, as far as `oi_seam_open` checks it against the segment. -/
structure OiSeamConfig where
  ringCapacity : UInt32
  formatVersion : UInt32
deriving DecidableEq, Repr

/-- `oi_seam_status_code_t`. -/
inductive OiSeamStatusCode where
  | ok
  | errOpen
  | errAbsent
  | errHeaderMismatch
  | errTbTooLarge
deriving DecidableEq, Repr

/-- `OI_SEAM_MAGIC`. -/
def oiSeamMagic : Nat := 0x4F49534D

/-- `sizeof(oi_seam_ring_hdr_t)`. -/
def ringHdrBytes : Nat := 128

/-- `sizeof(oi_seam_slot_t)`: 40 bytes of fields, 3457 of payload, and the padding to whole
cache lines. -/
def slotBytes : Nat := 3520

/-- `ring_bytes`. -/
def ringBytes (capacity : UInt32) : Nat := ringHdrBytes + capacity.toNat * slotBytes

/-- The fields of `oi_seam_ring_hdr_t`. -/
inductive HeaderField where
  | magic
  | formatVersion
  | epoch
  | ringCapacity
  | slotBytes
  | head
  | tail
deriving DecidableEq, Repr

/-- `offsetof` in the header. -/
def HeaderField.offset : HeaderField → Nat
  | .magic => 0
  | .formatVersion => 4
  | .epoch => 8
  | .ringCapacity => 12
  | .slotBytes => 16
  | .head => 64
  | .tail => 72

/-- `sizeof` the field. -/
def HeaderField.width : HeaderField → Nat
  | .head | .tail => 8
  | _ => 4

/-- The value of a header field. -/
def headerAt (bytes : List UInt8) (field : HeaderField) : Nat :=
  fieldAt bytes field.offset field.width

/-- What `oi_seam_open` does to the file, one system call or store at a time. -/
inductive SegmentStep where
  | openCreate
  | ftruncate (length : Nat)
  | memset (length : Nat)
  | store (field : HeaderField) (value : Nat)
deriving DecidableEq, Repr

/-- The effect of a step.  `none` is a file that does not exist. -/
def SegmentStep.apply : Option (List UInt8) → SegmentStep → Option (List UInt8)
  | none, .openCreate => some []
  | file, .openCreate => file
  | file, .ftruncate length =>
      file.map fun bytes => bytes.take length ++ List.replicate (length - bytes.length) 0
  | file, .memset length => file.map fun bytes => overwrite bytes 0 (List.replicate length 0)
  | file, .store field value =>
      file.map fun bytes => overwrite bytes field.offset (fieldBytes field.width value)

/-- The file after some steps. -/
def runSteps (file : Option (List UInt8)) (steps : List SegmentStep) : Option (List UInt8) :=
  steps.foldl SegmentStep.apply file

/-- The header disagrees with the configuration. -/
def HeaderMismatch (cfg : OiSeamConfig) (bytes : List UInt8) : Prop :=
  headerAt bytes .magic ≠ oiSeamMagic ∨
    headerAt bytes .formatVersion ≠ cfg.formatVersion.toNat ∨
    headerAt bytes .ringCapacity ≠ cfg.ringCapacity.toNat ∨
    headerAt bytes .slotBytes ≠ slotBytes

instance (cfg : OiSeamConfig) (bytes : List UInt8) : Decidable (HeaderMismatch cfg bytes) :=
  inferInstanceAs (Decidable (_ ∨ _))

/-- The stores of a first initialisation, behind the `memset`. -/
def initStores (cfg : OiSeamConfig) : List (HeaderField × Nat) :=
  [(.magic, oiSeamMagic), (.formatVersion, cfg.formatVersion.toNat),
    (.ringCapacity, cfg.ringCapacity.toNat), (.slotBytes, slotBytes), (.head, 0), (.tail, 0),
    (.epoch, 0)]

/-- The stores of a producer restart. -/
def restartStores (bytes : List UInt8) : List (HeaderField × Nat) :=
  [(.epoch, headerAt bytes .epoch + 1), (.head, 0), (.tail, 0)]

/-- A sequence of stores. -/
def storeSteps (stores : List (HeaderField × Nat)) : List SegmentStep :=
  stores.map fun item => .store item.1 item.2

/-- `oi_seam_open`, with all system calls succeeding: the status, and the steps it takes on
the file.  It returns a ring exactly when the status is `ok`. -/
def oiSeamOpen (cfg : OiSeamConfig) (create : Bool) (file : Option (List UInt8)) :
    OiSeamStatusCode × List SegmentStep :=
  let wantLen := ringBytes cfg.ringCapacity
  let opening := if create then [SegmentStep.openCreate] else []
  match runSteps file opening with
  | none => (if create then .errOpen else .errAbsent, opening)
  | some bytes =>
      let isFresh := bytes.length = 0
      if create = false ∧ isFresh then (.errAbsent, opening)
      else if create = true ∧ isFresh then
        (.ok, opening ++ [.ftruncate wantLen, .memset wantLen] ++ storeSteps (initStores cfg))
      else if bytes.length ≠ wantLen then (.errHeaderMismatch, opening)
      else if create = true then
        if HeaderMismatch cfg bytes then (.errHeaderMismatch, opening)
        else (.ok, opening ++ storeSteps (restartStores bytes))
      else
        if HeaderMismatch cfg bytes then (.errHeaderMismatch, opening)
        else (.ok, opening)

/-- The file after the call. -/
def fileAfterOpen (cfg : OiSeamConfig) (create : Bool) (file : Option (List UInt8)) :
    Option (List UInt8) :=
  runSteps file (oiSeamOpen cfg create file).2

/-- A file that is missing or empty. -/
def FreshFile (file : Option (List UInt8)) : Prop := file = none ∨ file = some []

/-- A segment of the right size whose header agrees with the configuration. -/
structure Attachable (cfg : OiSeamConfig) (bytes : List UInt8) : Prop where
  size : bytes.length = ringBytes cfg.ringCapacity
  magic : headerAt bytes .magic = oiSeamMagic
  formatVersion : headerAt bytes .formatVersion = cfg.formatVersion.toNat
  ringCapacity : headerAt bytes .ringCapacity = cfg.ringCapacity.toNat
  slotBytes : headerAt bytes .slotBytes = slotBytes

theorem attachable_iff (cfg : OiSeamConfig) (bytes : List UInt8) :
    Attachable cfg bytes ↔
      bytes.length = ringBytes cfg.ringCapacity ∧ ¬ HeaderMismatch cfg bytes := by
  constructor
  · rintro ⟨size, magic, formatVersion, ringCapacity, slot⟩
    exact ⟨size, by simp [HeaderMismatch, magic, formatVersion, ringCapacity, slot]⟩
  · rintro ⟨size, agrees⟩
    simp only [HeaderMismatch, not_or, not_not] at agrees
    exact ⟨size, agrees.1, agrees.2.1, agrees.2.2.1, agrees.2.2.2⟩

theorem ringBytes_pos (capacity : UInt32) : ringHdrBytes ≤ ringBytes capacity :=
  Nat.le_add_right _ _

/-! ### Stores in the header -/

theorem field_inside {bytes : List UInt8} (whole : ringHdrBytes ≤ bytes.length)
    (field : HeaderField) : field.offset + field.width ≤ bytes.length := by
  have last : field.offset + field.width ≤ 80 := by cases field <;> decide
  rw [ringHdrBytes] at whole
  omega

/-- The fields of the header do not overlap. -/
theorem headerAt_overwrite {bytes : List UInt8} (whole : ringHdrBytes ≤ bytes.length)
    (field : HeaderField) (value : Nat) :
    headerAt (overwrite bytes field.offset (fieldBytes field.width value)) =
      Function.update (headerAt bytes) field (value % 256 ^ field.width) := by
  have inside := field_inside whole field
  funext other
  by_cases same : other = field
  · subst same
    rw [Function.update_self]
    exact fieldAt_overwrite inside value
  · rw [Function.update_of_ne same]
    refine fieldAt_overwrite_of_disjoint (by rwa [length_fieldBytes]) ?_
    rw [length_fieldBytes]
    cases field <;> cases other <;> first | exact absurd rfl same | decide

/-- Stores change the fields they name, and nothing behind the header. -/
theorem runSteps_stores (stores : List (HeaderField × Nat)) {bytes : List UInt8}
    (whole : ringHdrBytes ≤ bytes.length) :
    ∃ after, runSteps (some bytes) (storeSteps stores) = some after ∧
      after.length = bytes.length ∧
      headerAt after = stores.foldl
        (fun header item => Function.update header item.1 (item.2 % 256 ^ item.1.width))
        (headerAt bytes) ∧
      ∀ i, (∀ item ∈ stores, i < item.1.offset ∨ item.1.offset + item.1.width ≤ i) →
        after[i]? = bytes[i]? := by
  induction stores generalizing bytes with
  | nil => exact ⟨bytes, rfl, rfl, rfl, fun _ _ => rfl⟩
  | cons item stores inductionHypothesis =>
      obtain ⟨field, value⟩ := item
      have inside : field.offset + (fieldBytes field.width value).length ≤ bytes.length := by
        rw [length_fieldBytes]
        exact field_inside whole field
      have length := length_overwrite inside
      obtain ⟨after, run, afterLength, header, others⟩ := inductionHypothesis
        (show ringHdrBytes ≤ (overwrite bytes field.offset (fieldBytes field.width value)).length by
          omega)
      refine ⟨after, run, afterLength.trans length, ?_, fun i apart => ?_⟩
      · rw [header, headerAt_overwrite whole]
        rfl
      · rw [others i fun item member => apart item (List.mem_cons_of_mem _ member),
          getElem?_overwrite inside, length_fieldBytes, if_neg]
        have := apart _ List.mem_cons_self
        dsimp only at this
        omega

/-! ### Attaching -/

/-- The five outcomes of `oi_seam_open`. -/
inductive OpenCase (cfg : OiSeamConfig) (create : Bool) (file : Option (List UInt8)) : Prop where
  | absent (attaches : create = false) (fresh : FreshFile file)
      (call : oiSeamOpen cfg create file = (.errAbsent, []))
  | created (creates : create = true) (fresh : FreshFile file)
      (call : oiSeamOpen cfg create file =
        (.ok, .openCreate :: .ftruncate (ringBytes cfg.ringCapacity) ::
          .memset (ringBytes cfg.ringCapacity) :: storeSteps (initStores cfg)))
  | mismatch (bytes : List UInt8) (found : file = some bytes) (nonempty : bytes ≠ [])
      (differs : ¬ Attachable cfg bytes)
      (call : oiSeamOpen cfg create file =
        (.errHeaderMismatch, if create then [.openCreate] else []))
  | restarted (bytes : List UInt8) (creates : create = true) (found : file = some bytes)
      (attachable : Attachable cfg bytes)
      (call : oiSeamOpen cfg create file =
        (.ok, .openCreate :: storeSteps (restartStores bytes)))
  | attached (bytes : List UInt8) (attaches : create = false) (found : file = some bytes)
      (attachable : Attachable cfg bytes) (call : oiSeamOpen cfg create file = (.ok, []))

theorem Attachable.ne_nil {cfg : OiSeamConfig} {bytes : List UInt8}
    (attachable : Attachable cfg bytes) : bytes ≠ [] := by
  rintro rfl
  have size := attachable.size
  have header := ringBytes_pos cfg.ringCapacity
  rw [ringHdrBytes] at header
  rw [List.length_nil] at size
  omega

theorem oiSeamOpen_nonempty (cfg : OiSeamConfig) (create : Bool) {bytes : List UInt8}
    (nonempty : bytes ≠ []) : OpenCase cfg create (some bytes) := by
  have wanted : ringBytes cfg.ringCapacity ≠ 0 := by
    have header := ringBytes_pos cfg.ringCapacity
    rw [ringHdrBytes] at header
    omega
  by_cases size : bytes.length = ringBytes cfg.ringCapacity
  · by_cases differs : HeaderMismatch cfg bytes
    · refine .mismatch bytes rfl nonempty (fun attachable => ?_) ?_
      · exact ((attachable_iff cfg bytes).mp attachable).2 differs
      · cases create <;> simp [oiSeamOpen, runSteps, SegmentStep.apply, size, wanted, differs]
    · have attachable := (attachable_iff cfg bytes).mpr ⟨size, differs⟩
      cases create with
      | false =>
          refine .attached bytes rfl rfl attachable ?_
          simp [oiSeamOpen, runSteps, size, wanted, differs]
      | true =>
          refine .restarted bytes rfl rfl attachable ?_
          simp [oiSeamOpen, runSteps, SegmentStep.apply, size, wanted, differs]
  · refine .mismatch bytes rfl nonempty (fun attachable => size attachable.size) ?_
    cases create <;> simp [oiSeamOpen, runSteps, SegmentStep.apply, nonempty, size]

theorem oiSeamOpen_fresh (cfg : OiSeamConfig) (create : Bool) {file : Option (List UInt8)}
    (fresh : FreshFile file) : OpenCase cfg create file := by
  cases create with
  | false =>
      refine .absent rfl fresh ?_
      rcases fresh with rfl | rfl <;> rfl
  | true =>
      refine .created rfl fresh ?_
      rcases fresh with rfl | rfl <;> rfl

theorem oiSeamOpen_cases (cfg : OiSeamConfig) (create : Bool) (file : Option (List UInt8)) :
    OpenCase cfg create file := by
  cases file with
  | none => exact oiSeamOpen_fresh cfg create (.inl rfl)
  | some bytes =>
      by_cases empty : bytes = []
      · exact oiSeamOpen_fresh cfg create (.inr (by rw [empty]))
      · exact oiSeamOpen_nonempty cfg create empty

/-- What a producer restart leaves: only the epoch, head and tail have changed. -/
structure Restarted (before after : List UInt8) : Prop where
  length : after.length = before.length
  epoch : headerAt after .epoch = (headerAt before .epoch + 1) % 2 ^ 32
  head : headerAt after .head = 0
  tail : headerAt after .tail = 0
  others : ∀ i, ¬ (8 ≤ i ∧ i < 12) → ¬ (64 ≤ i ∧ i < 80) → after[i]? = before[i]?

theorem restart_effect {cfg : OiSeamConfig} {bytes : List UInt8}
    (attachable : Attachable cfg bytes) :
    ∃ after, runSteps (some bytes) (.openCreate :: storeSteps (restartStores bytes)) =
        some after ∧
      Restarted bytes after ∧ Attachable cfg after := by
  have whole : ringHdrBytes ≤ bytes.length := attachable.size ▸ ringBytes_pos cfg.ringCapacity
  obtain ⟨after, run, length, header, others⟩ := runSteps_stores (restartStores bytes) whole
  have fields (field : HeaderField) := congrFun header field
  simp only [restartStores, List.foldl_cons, List.foldl_nil, Function.update_apply] at fields
  refine ⟨after, run, ⟨length, ?_, ?_, ?_, fun i notEpoch notCounters => ?_⟩, ?_⟩
  · exact fields .epoch
  · exact fields .head
  · exact fields .tail
  · refine others i ?_
    simp only [restartStores, List.mem_cons, List.not_mem_nil, or_false, forall_eq_or_imp,
      forall_eq, HeaderField.offset, HeaderField.width]
    omega
  · exact ⟨length.trans attachable.size, (fields .magic).trans attachable.magic,
      (fields .formatVersion).trans attachable.formatVersion,
      (fields .ringCapacity).trans attachable.ringCapacity,
      (fields .slotBytes).trans attachable.slotBytes⟩

/-- The attach rules.  The call returns a ring exactly when it may create one in a file that
is missing or empty, or the segment is attachable; otherwise the error is ABSENT for a file
that a consumer finds missing or empty, and HEADER_MISMATCH in all other cases.  The bytes
of the segment stay as they are on every error and on every attach of a consumer; a producer
that attaches to an existing segment changes the epoch, head and tail only. -/
theorem open_attach_rules (cfg : OiSeamConfig) (create : Bool) (file : Option (List UInt8)) :
    ((oiSeamOpen cfg create file).1 = .ok ↔
        create = true ∧ FreshFile file ∨ ∃ bytes, file = some bytes ∧ Attachable cfg bytes) ∧
      ((oiSeamOpen cfg create file).1 ≠ .ok → create = false → FreshFile file →
        (oiSeamOpen cfg create file).1 = .errAbsent) ∧
      ((oiSeamOpen cfg create file).1 ≠ .ok → ¬ FreshFile file →
        (oiSeamOpen cfg create file).1 = .errHeaderMismatch) ∧
      ((oiSeamOpen cfg create file).1 ≠ .ok ∨ create = false →
        fileAfterOpen cfg create file = file) ∧
      (create = true → (oiSeamOpen cfg create file).1 = .ok → ∀ bytes, file = some bytes →
        bytes ≠ [] → ∃ after, fileAfterOpen cfg create file = some after ∧
          Restarted bytes after) := by
  rw [fileAfterOpen]
  cases oiSeamOpen_cases cfg create file with
  | absent attaches fresh call =>
      subst attaches
      rw [call]
      have notAttachable : ¬ ∃ bytes, file = some bytes ∧ Attachable cfg bytes := by
        rintro ⟨bytes, rfl, attachable⟩
        rcases fresh with missing | empty
        · cases missing
        · exact attachable.ne_nil (Option.some.inj empty)
      exact ⟨by simp [notAttachable], fun _ _ _ => rfl, fun _ notFresh => absurd fresh notFresh,
        fun _ => rfl, fun creates => by cases creates⟩
  | created creates fresh call =>
      subst creates
      rw [call]
      refine ⟨by simp [fresh], fun failed => absurd rfl failed, fun failed => absurd rfl failed,
        ?_, ?_⟩
      · rintro (failed | attaches)
        · exact absurd rfl failed
        · cases attaches
      · rintro _ _ bytes rfl nonempty
        rcases fresh with missing | empty
        · cases missing
        · exact absurd (Option.some.inj empty) nonempty
  | mismatch bytes found nonempty differs call =>
      subst found
      rw [call]
      have notFresh : ¬ FreshFile (some bytes) := by
        rintro (missing | empty)
        · cases missing
        · exact nonempty (Option.some.inj empty)
      refine ⟨by simp [notFresh, differs], fun _ _ fresh => absurd fresh notFresh,
        fun _ _ => rfl, fun _ => ?_, fun _ ok => by cases ok⟩
      cases create <;> rfl
  | restarted bytes creates found attachable call =>
      subst creates found
      rw [call]
      refine ⟨iff_of_true rfl (.inr ⟨bytes, rfl, attachable⟩), fun failed => absurd rfl failed,
        fun failed => absurd rfl failed, ?_, ?_⟩
      · rintro (failed | attaches)
        · exact absurd rfl failed
        · cases attaches
      · intro _ _ other same _
        obtain rfl : bytes = other := Option.some.inj same
        obtain ⟨after, run, restarted, _⟩ := restart_effect attachable
        exact ⟨after, run, restarted⟩
  | attached bytes attaches found attachable call =>
      subst attaches found
      rw [call]
      exact ⟨iff_of_true rfl (.inr ⟨bytes, rfl, attachable⟩), fun failed => absurd rfl failed,
        fun failed => absurd rfl failed, fun _ => rfl, fun creates => by cases creates⟩

/-! ### Kills in the middle of a first initialisation -/

/-- The file after `oi_seam_open(create=1)` was killed behind its first `k` steps. -/
def killedOpen (cfg : OiSeamConfig) (file : Option (List UInt8)) (k : Nat) :
    Option (List UInt8) :=
  runSteps file ((oiSeamOpen cfg true file).2.take k)

/-- A header that agrees with the configuration, with both counters at zero. -/
structure Initialised (cfg : OiSeamConfig) (bytes : List UInt8) : Prop
    extends Attachable cfg bytes where
  head : headerAt bytes .head = 0
  tail : headerAt bytes .tail = 0

/-- The producer can be started again on the file, and a consumer that attaches meanwhile
finds a complete header. -/
structure CrashSafe (cfg : OiSeamConfig) (file : Option (List UInt8)) : Prop where
  restarts : (oiSeamOpen cfg true file).1 = .ok ∧
    ∃ bytes, fileAfterOpen cfg true file = some bytes ∧ Initialised cfg bytes
  consumer : ∀ consumerCfg, (oiSeamOpen consumerCfg false file).1 = .ok →
    ∃ bytes, file = some bytes ∧ Initialised cfg bytes ∧ headerAt bytes .epoch = 0

/-- The kill came before the file had its size, or behind the store of `slot_bytes`. -/
def KilledOutsideInit (cfg : OiSeamConfig) (file : Option (List UInt8)) (k : Nat) : Prop :=
  .ftruncate (ringBytes cfg.ringCapacity) ∉ (oiSeamOpen cfg true file).2.take k ∨
    .store .slotBytes slotBytes ∈ (oiSeamOpen cfg true file).2.take k

instance (cfg : OiSeamConfig) (file : Option (List UInt8)) (k : Nat) :
    Decidable (KilledOutsideInit cfg file k) :=
  inferInstanceAs (Decidable (_ ∨ _))

section Killed

variable {cfg : OiSeamConfig} {file : Option (List UInt8)}

theorem steps_of_fresh (fresh : FreshFile file) :
    (oiSeamOpen cfg true file).2 =
      .openCreate :: .ftruncate (ringBytes cfg.ringCapacity) ::
        .memset (ringBytes cfg.ringCapacity) :: storeSteps (initStores cfg) := by
  rcases fresh with rfl | rfl <;> rfl

theorem runSteps_zeroed (cfg : OiSeamConfig) (fresh : FreshFile file) :
    runSteps file [.openCreate, .ftruncate (ringBytes cfg.ringCapacity)] =
        some (List.replicate (ringBytes cfg.ringCapacity) 0) ∧
      runSteps file [.openCreate, .ftruncate (ringBytes cfg.ringCapacity),
          .memset (ringBytes cfg.ringCapacity)] =
        some (List.replicate (ringBytes cfg.ringCapacity) 0) := by
  rcases fresh with rfl | rfl <;>
    simp [runSteps, SegmentStep.apply, overwrite]

/-- The header behind `j` of the stores of a first initialisation. -/
def partialHeader (cfg : OiSeamConfig) (j : Nat) : HeaderField → Nat :=
  ((initStores cfg).take j).foldl
    (fun header item => Function.update header item.1 (item.2 % 256 ^ item.1.width))
    fun _ => 0

/-- A kill behind the `ftruncate` leaves a file of full size and part of a header. -/
theorem killedOpen_sized (cfg : OiSeamConfig) (fresh : FreshFile file) {k : Nat} (sized : 2 ≤ k) :
    ∃ bytes, killedOpen cfg file k = some bytes ∧
      bytes.length = ringBytes cfg.ringCapacity ∧
      headerAt bytes = partialHeader cfg (k - 3) := by
  have zeros : headerAt (List.replicate (ringBytes cfg.ringCapacity) 0) = fun _ => 0 :=
    funext fun field => fieldAt_replicate_zero _ field.offset field.width
  obtain ⟨truncated, cleared⟩ := runSteps_zeroed cfg fresh
  rw [killedOpen, steps_of_fresh fresh]
  rcases Nat.eq_or_lt_of_le sized with rfl | more
  · exact ⟨_, truncated, List.length_replicate, zeros⟩
  · obtain ⟨j, rfl⟩ := Nat.exists_eq_add_of_le' more
    have whole : ringHdrBytes ≤
        (List.replicate (ringBytes cfg.ringCapacity) (0 : UInt8)).length := by
      rw [List.length_replicate]
      exact ringBytes_pos _
    obtain ⟨bytes, run, length, header, _⟩ := runSteps_stores ((initStores cfg).take j) whole
    refine ⟨bytes, ?_, length.trans List.length_replicate, ?_⟩
    · rw [storeSteps, List.map_take] at run
      rw [← run, ← cleared]
      rfl
    · rw [header, zeros]
      rfl

/-- Until `slot_bytes` is stored, no configuration agrees with the header. -/
theorem partialHeader_early (cfg : OiSeamConfig) {j : Nat} (early : j < 4) :
    partialHeader cfg j .slotBytes = 0 := by
  interval_cases j <;> simp [partialHeader, initStores]

/-- From then on the header is complete. -/
theorem partialHeader_late (cfg : OiSeamConfig) {j : Nat} (late : 4 ≤ j) :
    partialHeader cfg j .magic = oiSeamMagic ∧
      partialHeader cfg j .formatVersion = cfg.formatVersion.toNat ∧
      partialHeader cfg j .ringCapacity = cfg.ringCapacity.toNat ∧
      partialHeader cfg j .slotBytes = slotBytes ∧ partialHeader cfg j .head = 0 ∧
      partialHeader cfg j .tail = 0 ∧ partialHeader cfg j .epoch = 0 := by
  obtain ⟨i, rfl⟩ := Nat.exists_eq_add_of_le' late
  rcases i with _ | _ | _ | i <;>
    simp [partialHeader, initStores, HeaderField.width, oiSeamMagic, slotBytes]

theorem killedOutsideInit_iff (fresh : FreshFile file) (k : Nat) :
    KilledOutsideInit cfg file k ↔ k < 2 ∨ 7 ≤ k := by
  rw [KilledOutsideInit, steps_of_fresh fresh]
  rcases Nat.lt_or_ge k 7 with early | late
  · interval_cases k <;> simp [storeSteps, initStores]
  · obtain ⟨i, rfl⟩ := Nat.exists_eq_add_of_le' late
    simp [storeSteps, initStores]

theorem crashSafe_of_fresh (fresh : FreshFile file) : CrashSafe cfg file := by
  obtain ⟨bytes, run, length, header⟩ := killedOpen_sized cfg fresh (show 2 ≤ 10 by decide)
  obtain ⟨magic, formatVersion, ringCapacity, slot, head, tail, _⟩ :=
    partialHeader_late cfg (show 4 ≤ 7 by decide)
  have whole : fileAfterOpen cfg true file = killedOpen cfg file 10 := by
    rw [fileAfterOpen, killedOpen, steps_of_fresh fresh]
    rfl
  have created : (oiSeamOpen cfg true file).1 = .ok := by rcases fresh with rfl | rfl <;> rfl
  refine ⟨⟨created, bytes, whole.trans run, ⟨length, ?_, ?_, ?_, ?_⟩, ?_, ?_⟩, ?_⟩
  · rw [header, magic]
  · rw [header, formatVersion]
  · rw [header, ringCapacity]
  · rw [header, slot]
  · rw [header, head]
  · rw [header, tail]
  · intro consumerCfg attached
    rcases fresh with rfl | rfl <;> cases attached

theorem not_crashSafe_of_early {bytes : List UInt8}
    (size : bytes.length = ringBytes cfg.ringCapacity)
    (early : headerAt bytes .slotBytes = 0) : ¬ CrashSafe cfg (some bytes) := by
  intro safe
  have differs : HeaderMismatch cfg bytes := by
    refine .inr (.inr (.inr ?_))
    rw [early]
    decide
  have nonempty : bytes ≠ [] := by
    rintro rfl
    have header := ringBytes_pos cfg.ringCapacity
    rw [← size] at header
    exact absurd header (by decide)
  obtain ⟨ok, _⟩ := safe.restarts
  cases oiSeamOpen_nonempty cfg true nonempty with
  | absent attaches => cases attaches
  | created _ fresh =>
      rcases fresh with missing | empty
      · cases missing
      · exact nonempty (Option.some.inj empty)
  | mismatch _ _ _ _ call => rw [call] at ok; cases ok
  | restarted other _ found attachable =>
      cases found
      exact ((attachable_iff cfg _).mp attachable).2 differs
  | attached _ attaches => cases attaches

theorem crashSafe_of_initialised {bytes : List UInt8} (complete : Initialised cfg bytes)
    (epoch : headerAt bytes .epoch = 0) : CrashSafe cfg (some bytes) := by
  refine ⟨?_, fun _ _ => ⟨bytes, rfl, complete, epoch⟩⟩
  cases oiSeamOpen_nonempty cfg true complete.toAttachable.ne_nil with
  | absent attaches => cases attaches
  | created _ fresh =>
      rcases fresh with missing | empty
      · cases missing
      · exact absurd (Option.some.inj empty) complete.toAttachable.ne_nil
  | mismatch _ found _ differs =>
      cases found
      exact absurd complete.toAttachable differs
  | restarted other _ found attachable call =>
      cases found
      obtain ⟨after, run, restarted, again⟩ := restart_effect complete.toAttachable
      refine ⟨by rw [call], after, ?_, ⟨again, restarted.head, restarted.tail⟩⟩
      rw [fileAfterOpen, call]
      exact run
  | attached _ attaches => cases attaches

/-- A first initialisation that is killed behind its first `k` steps is recovered from
exactly when the file had not got its size yet, or `slot_bytes` was stored already.  In
between the file is not empty and has no valid header, and every later start of the producer
fails. -/
theorem crash_safe_iff (cfg : OiSeamConfig) {file : Option (List UInt8)}
    (fresh : FreshFile file) (k : Nat) :
    CrashSafe cfg (killedOpen cfg file k) ↔ KilledOutsideInit cfg file k := by
  rw [killedOutsideInit_iff fresh]
  rcases Nat.lt_or_ge k 2 with unsized | sized
  · have still : FreshFile (killedOpen cfg file k) := by
      rw [killedOpen, steps_of_fresh fresh]
      interval_cases k
      · exact fresh
      · rcases fresh with rfl | rfl <;> exact .inr rfl
    exact iff_of_true (crashSafe_of_fresh still) (.inl unsized)
  · obtain ⟨bytes, run, length, header⟩ := killedOpen_sized cfg fresh sized
    rw [run]
    rcases Nat.lt_or_ge k 7 with early | late
    · refine iff_of_false (not_crashSafe_of_early length ?_) (by omega)
      rw [header, partialHeader_early cfg (by omega)]
    · obtain ⟨magic, formatVersion, ringCapacity, slot, head, tail, epoch⟩ :=
        partialHeader_late cfg (show 4 ≤ k - 3 by omega)
      refine iff_of_true (crashSafe_of_initialised ⟨⟨length, ?_, ?_, ?_, ?_⟩, ?_, ?_⟩ ?_)
        (.inr late) <;>
        rw [header]
      all_goals assumption

end Killed

/-- A segment of four slots, for which the kill comes right behind the store of
`slot_bytes`. -/
theorem crash_safe_behind_slot_bytes :
    CrashSafe { ringCapacity := 4, formatVersion := 1 }
      (killedOpen { ringCapacity := 4, formatVersion := 1 } none 7) :=
  (crash_safe_iff { ringCapacity := 4, formatVersion := 1 } (.inl rfl) 7).mpr (by decide)

/-- A kill right behind the `ftruncate` of a segment of four slots cannot be recovered
from. -/
theorem kill_behind_ftruncate_not_recovered :
    ¬ ∀ (cfg : OiSeamConfig) (file : Option (List UInt8)), FreshFile file →
      ∀ k, CrashSafe cfg (killedOpen cfg file k) := by
  intro claim
  have safe := claim { ringCapacity := 4, formatVersion := 1 } none (.inl rfl) 2
  have fresh : FreshFile none := .inl rfl
  obtain ⟨bytes, run, length, header⟩ :=
    killedOpen_sized { ringCapacity := 4, formatVersion := 1 } fresh (Nat.le_refl 2)
  rw [run] at safe
  refine not_crashSafe_of_early length ?_ safe
  rw [header]
  exact partialHeader_early _ (by decide)

end RanInline.Seam
