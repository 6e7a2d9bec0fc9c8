/-
Module: RanInline.Rig.LedgerTools
Purpose: The two tools that work on what a run of the rig leaves: main of ledger_build.py, which
  builds the ledger again from the recorded manifests and results, and compare_ledgers.sh.
Trusted boundary: none
Main exports: builderPhases, ledger_builders_agree_iff, Ledger, buildLedger, compareLedgers,
  compare_ledgers_iff
-/
import Mathlib.Data.List.Dedup
import RanInline.Rig.Runner

namespace RanInline.Rig

open RanInline.Lib

/-! ### The overall status -/

/-- Some gate of the phases has the status. -/
def HasStatus {Json : Type} (phases : List (PhaseEntry Json)) (status : GateStatus) : Prop :=
  ∃ p ∈ phases, ∃ gate ∈ p.gates, gate.status = status

section Overall

variable {Json : Type} {phases : List (PhaseEntry Json)}

theorem mem_allStatuses (status : GateStatus) :
    status ∈ (phases.flatMap fun p => p.gates.map (·.status)) ↔ HasStatus phases status := by
  simp only [HasStatus, List.mem_flatMap, List.mem_map]

theorem computeOverall_eq_blocked_iff :
    computeOverall phases = .blocked ↔ HasStatus phases .blocked := by
  rw [← mem_allStatuses, computeOverall]
  split_ifs with blocked <;> simp [blocked]

/-- Without a blocked gate, an error fails the ledger. -/
theorem computeOverall_of_error (error : HasStatus phases .error)
    (clear : ¬ HasStatus phases .blocked) : computeOverall phases = .fail := by
  rw [← mem_allStatuses] at error clear
  rw [computeOverall, if_neg clear, if_pos (.inr error)]

/-- The overall status is decided by the statuses and the invalid manifests that there are. -/
theorem computeOverall_congr {other : List (PhaseEntry Json)}
    (statuses : ∀ status, HasStatus phases status ↔ HasStatus other status)
    (invalid : (∃ p ∈ phases, p.discovered = false) ↔ ∃ p ∈ other, p.discovered = false) :
    computeOverall phases = computeOverall other := by
  have same : phases.any (!·.discovered) = other.any (!·.discovered) := by
    rw [Bool.eq_iff_iff, List.any_eq_true, List.any_eq_true]
    simpa using invalid
  have listed (status : GateStatus) :
      status ∈ (phases.flatMap fun p => p.gates.map (·.status)) ↔
        status ∈ other.flatMap fun p => p.gates.map (·.status) := by
    rw [mem_allStatuses, mem_allStatuses, statuses]
  simp only [computeOverall, listed, same]

end Overall

/-! ### ledger_build.py on its own -/

section Builder

variable {Json Inode : Type} [DecidableEq Inode]

/-- A phase without the mark that the runner puts on those it left out. -/
def PhaseEntry.unmarked (p : PhaseEntry Json) : PhaseEntry Json := { p with skipped := false }

namespace RigRun

variable (rig : RigRun Json Inode)

/-- The entry of a gate in `main` of `ledger_build.py`: an error when it has no result. -/
def builderGate (results : List GateResult) (files : Inode → Option String) (phase : String)
    (gate : Gate) : GateEntry Json :=
  match resultsByKey results (phase, gate.id) with
  | none => rig.errorEntry gate
  | some r =>
      let (verdict, valid) := lastJsonLine rig.json (files (rig.stdoutLog r.artifactsDir))
      { id := gate.id, type := gate.type
        status := classifyGate r.exitCode r.timedOut valid
        exitCode := some r.exitCode, durationS := r.durationS, verdict := verdict
        artifacts := r.artifactsDir }

/-- The entry of a manifest in `main` of `ledger_build.py`. -/
def builderPhase (results : List GateResult) (files : Inode → Option String) :
    Manifest → PhaseEntry Json
  | .invalid phase feature validationError =>
      { phase := phase, feature := feature, discovered := false
        validationError := some validationError, gates := [], skipped := false }
  | .valid m =>
      { phase := m.phase, feature := m.feature, discovered := true, validationError := none
        gates := m.gates.map (rig.builderGate results files m.phase), skipped := false }

/-- `phases` of `main` of `ledger_build.py`, on the `manifests.json` and the `results.json` that
the runner wrote, and the files it left; there is no `results.json` when the runner has ended
before. -/
def builderPhases : Option (List (PhaseEntry Json)) := do
  let (results, files) ← rig.runGates
  return rig.manifests.map (rig.builderPhase results files)

/-- The stack did not come up, or `--only-phase` left no valid manifest out. -/
def NothingLeftOut : Prop :=
  rig.upOk = false ∨ ∀ m ∈ validSuites rig.manifests, rig.skip m.phase = false

/-! #### One gate -/

omit [DecidableEq Inode] in
/-- The two entries of a gate are the same one, but for a gate without a result on a stack that
is up. -/
theorem gateEntries_eq_builderGate {results : List GateResult} {files : Inode → Option String}
    {phase : String} {gate : Gate}
    (shown : rig.upOk = false ∨ (resultsByKey results (phase, gate.id)).isSome = true) :
    rig.gateEntries results files phase gate = [rig.builderGate results files phase gate] := by
  rw [gateEntries, builderGate]
  cases found : resultsByKey results (phase, gate.id) with
  | none =>
      have down : rig.upOk = false := shown.resolve_right (by simp [found])
      simp only [down, Bool.false_eq_true, if_false]
  | some r => rfl

/-- A gate that was run has a result. -/
theorem resultsByKey_isSome_of_run {run : GateRun} (member : run ∈ rig.runs)
    (up : rig.upOk = true) :
    (resultsByKey rig.results (run.phase, run.gate.id)).isSome = true := by
  have shown := rig.gateEntries_of_run member
  rw [gateEntries] at shown
  cases found : resultsByKey rig.results (run.phase, run.gate.id) with
  | none => simp [found, up] at shown
  | some r => rfl

omit [DecidableEq Inode] in
/-- A gate of a phase that was left out has none. -/
theorem resultsByKey_of_skip (all : rig.Completes) {phase : String}
    (left : rig.skip phase = true) (id : String) :
    resultsByKey rig.results (phase, id) = none := by
  rw [resultsByKey, tableOf_apply]
  cases found : lastUnder GateResult.key (phase, id) rig.results with
  | none => rfl
  | some result =>
      rw [lastUnder] at found
      have inside := List.mem_reverse.mp (List.mem_of_find?_eq_some found)
      have keyed : result.key = (phase, id) := by simpa using List.find?_some found
      obtain ⟨run, member, rfl⟩ := List.mem_map.mp inside
      have samePhase : run.phase = phase := congrArg Prod.fst keyed
      have due : run.due ∈ rig.gatesDue := by
        have listed := List.mem_map_of_mem (f := GateRun.due) member
        rw [rig.runs_map_due all] at listed
        split_ifs at listed
        · exact listed
        · cases listed
      obtain ⟨m, kept, gate⟩ := List.mem_flatMap.mp due
      obtain ⟨_, _, same⟩ := List.mem_map.mp gate
      have mPhase : m.phase = phase := (congrArg Prod.fst same).trans samePhase
      have notLeft := (List.mem_filter.mp kept).2
      rw [mPhase, left] at notLeft
      cases notLeft

/-! #### One manifest -/

/-- The two entries of a valid manifest differ when it was left out of a run on a stack that is
up. -/
theorem builderPhase_of_shown (all : rig.Completes) {m : Suite}
    (member : m ∈ validSuites rig.manifests)
    (shown : rig.upOk = false ∨ rig.skip m.phase = false) :
    rig.builderPhase rig.results rig.filesAfter (.valid m) =
      (rig.phaseEntry rig.results rig.filesAfter (.valid m)).unmarked := by
  have gates : ∀ gate ∈ m.gates,
      rig.gateEntries rig.results rig.filesAfter m.phase gate =
        [rig.builderGate rig.results rig.filesAfter m.phase gate] := by
    intro gate declared
    refine rig.gateEntries_eq_builderGate ?_
    cases up : rig.upOk with
    | false => exact .inl rfl
    | true =>
        have kept := shown.resolve_left (by simp [up])
        have due : (m.phase, gate) ∈ rig.gatesDue := by
          refine List.mem_flatMap.mpr ⟨m, List.mem_filter.mpr ⟨member, by simp [kept]⟩, ?_⟩
          exact List.mem_map_of_mem declared
        have listed : (m.phase, gate) ∈ rig.runs.map GateRun.due := by
          rw [rig.runs_map_due all, if_pos up]
          exact due
        obtain ⟨run, ran, same⟩ := List.mem_map.mp listed
        obtain ⟨phase, sameGate⟩ := Prod.mk.inj same
        rw [← phase, ← sameGate]
        exact .inr (rig.resultsByKey_isSome_of_run ran up)
  have condition : (!rig.skip m.phase || !rig.upOk) = true := by
    rcases shown with down | kept
    · simp [down]
    · simp [kept]
  rw [builderPhase, phaseEntry, if_pos condition, List.flatMap_congr gates, List.map_eq_flatMap]
  rfl

/-- A manifest that was left out has no gate in the runner's ledger, and errors in the
builder's. -/
theorem gates_of_left (all : rig.Completes) {m : Suite} (up : rig.upOk = true)
    (left : rig.skip m.phase = true) :
    (rig.phaseEntry rig.results rig.filesAfter (.valid m)).gates = [] ∧
      (rig.builderPhase rig.results rig.filesAfter (.valid m)).gates =
        m.gates.map rig.errorEntry := by
  constructor
  · rw [phaseEntry, if_neg (by simp [left, up])]
  · refine List.map_congr_left fun gate _ => ?_
    rw [builderGate, rig.resultsByKey_of_skip all left]

/-! #### The ledger -/

omit [DecidableEq Inode] in
theorem mem_validSuites {m : Suite} : m ∈ validSuites rig.manifests ↔ .valid m ∈ rig.manifests := by
  rw [validSuites, List.mem_filterMap]
  constructor
  · rintro ⟨manifest, member, same⟩
    cases manifest with
    | valid suite =>
        obtain rfl := Option.some.inj same
        exact member
    | invalid phase feature validationError => cases same
  · exact fun member => ⟨_, member, rfl⟩

/-- The phases that the builder shows of a run that ends with a ledger. -/
def builderShown : List (PhaseEntry Json) :=
  rig.manifests.map (rig.builderPhase rig.results rig.filesAfter)

theorem builderPhases_of_completes (all : rig.Completes) :
    rig.builderPhases = some rig.builderShown := by
  rw [builderPhases, rig.runGates_of_completes all]
  rfl

theorem builderPhases_of_not_completes (ends : ¬ rig.Completes) : rig.builderPhases = none := by
  rw [builderPhases, rig.runGates_of_not_completes ends]
  rfl

theorem builderShown_eq_of_nothingLeftOut (all : rig.Completes) (kept : rig.NothingLeftOut) :
    rig.builderShown = rig.shownPhases.map PhaseEntry.unmarked := by
  rw [builderShown, shownPhases, List.map_map]
  refine List.map_congr_left fun manifest member => ?_
  cases manifest with
  | invalid phase feature validationError => rfl
  | valid m =>
      have valid := (rig.mem_validSuites).mpr member
      refine rig.builderPhase_of_shown all valid ?_
      rcases kept with down | kept
      · exact .inl down
      · exact .inr (kept m valid)

/-- The two ledgers have the same blocked gates. -/
theorem builder_blocked_iff (all : rig.Completes) :
    HasStatus rig.builderShown .blocked ↔ HasStatus rig.shownPhases .blocked := by
  have one : ∀ manifest ∈ rig.manifests,
      (∃ gate ∈ (rig.builderPhase rig.results rig.filesAfter manifest).gates,
          gate.status = .blocked) ↔
        ∃ gate ∈ (rig.phaseEntry rig.results rig.filesAfter manifest).gates,
          gate.status = .blocked := by
    intro manifest member
    cases manifest with
    | invalid phase feature validationError => rfl
    | valid m =>
        by_cases shown : rig.upOk = false ∨ rig.skip m.phase = false
        · rw [rig.builderPhase_of_shown all ((rig.mem_validSuites).mpr member) shown]
          rfl
        · simp only [not_or, Bool.not_eq_false] at shown
          obtain ⟨none, errors⟩ := rig.gates_of_left all shown.1 shown.2
          rw [none, errors]
          simp [errorEntry]
  simp only [HasStatus, builderShown, shownPhases, List.mem_map, exists_exists_and_eq_and]
  exact exists_congr fun manifest => and_congr_right fun member => one manifest member

omit [DecidableEq Inode] in
theorem exists_left_of_not_nothingLeftOut (partly : ¬ rig.NothingLeftOut) :
    rig.upOk = true ∧ ∃ m ∈ validSuites rig.manifests, rig.skip m.phase = true := by
  simpa [NothingLeftOut] using partly

/-- A manifest that was left out shows in the builder's phases. -/
theorem nothingLeftOut_of_builderShown_eq (all : rig.Completes)
    (same : rig.builderShown = rig.shownPhases.map PhaseEntry.unmarked) :
    rig.NothingLeftOut := by
  by_contra partly
  obtain ⟨up, m, member, left⟩ := rig.exists_left_of_not_nothingLeftOut partly
  obtain ⟨none, errors⟩ := rig.gates_of_left all up left
  rw [builderShown, shownPhases, List.map_map] at same
  have entry := (List.map_inj_left.mp same) _ ((rig.mem_validSuites).mp member)
  have gates : m.gates.map rig.errorEntry = [] :=
    errors.symm.trans ((congrArg PhaseEntry.gates entry).trans none)
  exact m.gates_ne (List.map_eq_nil_iff.mp gates)

/-- With a manifest left out, the builder's ledger is blocked when the runner's is, and failed in
every other case. -/
theorem computeOverall_builderShown (all : rig.Completes) (partly : ¬ rig.NothingLeftOut) :
    computeOverall rig.builderShown =
      if computeOverall rig.shownPhases = .blocked then .blocked else .fail := by
  obtain ⟨up, m, member, left⟩ := rig.exists_left_of_not_nothingLeftOut partly
  obtain ⟨gate, declared⟩ := List.exists_mem_of_ne_nil _ m.gates_ne
  have error : HasStatus rig.builderShown .error := by
    refine ⟨_, List.mem_map_of_mem ((rig.mem_validSuites).mp member), rig.errorEntry gate, ?_, rfl⟩
    rw [(rig.gates_of_left all up left).2]
    exact List.mem_map_of_mem declared
  have blocked_iff : computeOverall rig.shownPhases = .blocked ↔
      HasStatus rig.builderShown .blocked := by
    rw [computeOverall_eq_blocked_iff, rig.builder_blocked_iff all]
  split_ifs with blocked
  · exact computeOverall_eq_blocked_iff.mpr (blocked_iff.mp blocked)
  · exact computeOverall_of_error error (mt blocked_iff.mpr blocked)

/-- For every run of the rig, `ledger_build.py` on the recorded manifests and results gives the
phases of the runner's ledger, without its marks, exactly when the stack did not come up,
`--only-phase` left no valid manifest out, or the run ended before it recorded anything; otherwise
its ledger is blocked when the runner's is, and failed in every other case. -/
theorem ledger_builders_agree_iff (rig : RigRun Json Inode) :
    (rig.builderPhases = rig.ledgerPhases.map (List.map PhaseEntry.unmarked) ↔
        rig.NothingLeftOut ∨ ¬ rig.Completes) ∧
      (¬ rig.NothingLeftOut → rig.builderPhases.map computeOverall =
        rig.overall.map fun overall => if overall = .blocked then .blocked else .fail) := by
  by_cases all : rig.Completes
  · rw [rig.builderPhases_of_completes all, rig.ledgerPhases_of_completes all,
      rig.overall_of_completes all]
    refine ⟨?_, fun partly => congrArg some (rig.computeOverall_builderShown all partly)⟩
    constructor
    · exact fun same =>
        .inl (rig.nothingLeftOut_of_builderShown_eq all (Option.some.inj same))
    · rintro (kept | ends)
      · exact congrArg some (rig.builderShown_eq_of_nothingLeftOut all kept)
      · exact absurd all ends
  · rw [rig.builderPhases_of_not_completes all, rig.ledgerPhases_of_not_completes all,
      rig.overall_of_not_completes all]
    exact ⟨iff_of_true rfl (.inr all), fun _ => rfl⟩

end RigRun

end Builder

/-! ### The ledger as a document -/

/-- What a ledger says about its run and its host. -/
structure RunInfo where
  runId : String
  startedUtc : String
  finishedUtc : String
  tier : String
  hostKind : String
  pinsDigest : String
  rigcfgDigest : String
deriving DecidableEq

/-- A ledger. -/
structure Ledger (Json : Type) where
  schema : String
  info : RunInfo
  phases : List (PhaseEntry Json)
  overall : Overall
  performanceClaims : List String
  honestyNotes : List String

/-- `build_ledger`. -/
def buildLedger {Json : Type} (info : RunInfo) (phases : List (PhaseEntry Json)) :
    Ledger Json where
  schema := "oi-p5-ledger/1"
  info := info
  phases := phases
  overall := computeOverall phases
  performanceClaims := []
  honestyNotes :=
    ["SIM proves function and integration only -- no number above is a performance claim.",
      "Per-phase honesty-ledger caveats live in each feature's own SPEC.md; this ledger " ++
        "references, not duplicates, them."]

/-! ### compare_ledgers.sh -/

/-- A line of the comparison: the two values, nothing where a key is absent. -/
inductive LedgerDiff where
  | overall (one two : Overall)
  | pinsDigest (one two : String)
  | rigcfgDigest (one two : String)
  | gate (phase id : String) (one two : Option GateStatus)
  | discovered (phase : String) (one two : Option Bool)
deriving DecidableEq

section Compare

variable {Json : Type}

/-- The key of a gate. -/
def gateKey (gate : String × GateEntry Json) : String × String := (gate.1, gate.2.id)

/-- `gates_a` and `gates_b`. -/
def gateTable (phases : List (PhaseEntry Json)) : String × String → Option GateStatus :=
  tableOf gateKey (fun gate => some gate.2.status) (gatesOf phases) fun _ => none

/-- `phases_a` and `phases_b`. -/
def phaseTable (phases : List (PhaseEntry Json)) : String → Option Bool :=
  tableOf PhaseEntry.phase (fun p => some p.discovered) phases fun _ => none

/-- `sorted(set(..) | set(..))`. -/
def sortedUnion {Key : Type} [DecidableEq Key] (le : Key → Key → Bool) (one two : List Key) :
    List Key :=
  (one ++ two).dedup.mergeSort le

/-- The order of pairs of texts. -/
def pairLe (one two : String × String) : Bool :=
  one.1 < two.1 ∨ one.1 = two.1 ∧ one.2 ≤ two.2

/-- `diffs` of `compare_ledgers.sh`. -/
def ledgerDiffs (a b : Ledger Json) : List LedgerDiff :=
  (if a.overall ≠ b.overall then [.overall a.overall b.overall] else []) ++
  (if a.info.pinsDigest ≠ b.info.pinsDigest then
    [.pinsDigest a.info.pinsDigest b.info.pinsDigest] else []) ++
  (if a.info.rigcfgDigest ≠ b.info.rigcfgDigest then
    [.rigcfgDigest a.info.rigcfgDigest b.info.rigcfgDigest] else []) ++
  ((sortedUnion pairLe ((gatesOf a.phases).map gateKey) ((gatesOf b.phases).map gateKey)).filterMap
    fun key =>
      let sa := gateTable a.phases key
      let sb := gateTable b.phases key
      if sa ≠ sb then some (.gate key.1 key.2 sa sb) else none) ++
  ((sortedUnion (· ≤ ·) (a.phases.map (·.phase)) (b.phases.map (·.phase))).filterMap fun key =>
    let da := phaseTable a.phases key
    let db := phaseTable b.phases key
    if da ≠ db then some (.discovered key da db) else none)

/-- The exit code of `compare_ledgers.sh`. -/
def compareLedgers (a b : Ledger Json) : Nat := if ledgerDiffs a b = [] then 0 else 1

/-! #### Tables and keys -/

theorem mem_sortedUnion {Key : Type} [DecidableEq Key] {le : Key → Key → Bool}
    {one two : List Key} {key : Key} : key ∈ sortedUnion le one two ↔ key ∈ one ∨ key ∈ two := by
  rw [sortedUnion, List.mem_mergeSort, List.mem_dedup, List.mem_append]

/-- A table shows a value when an item with the key has it, the last one. -/
theorem exists_of_tableOf {Item Key Value : Type} [DecidableEq Key] {keyOf : Item → Key}
    {valueOf : Item → Value} {items : List Item} {key : Key} {value : Value}
    (shown : tableOf keyOf (fun item => some (valueOf item)) items (fun _ => none) key =
      some value) : ∃ item ∈ items, keyOf item = key ∧ valueOf item = value := by
  rw [tableOf_apply] at shown
  cases found : lastUnder keyOf key items with
  | none => simp [found] at shown
  | some item =>
      rw [found] at shown
      rw [lastUnder] at found
      refine ⟨item, List.mem_reverse.mp (List.mem_of_find?_eq_some found), ?_, ?_⟩
      · simpa using List.find?_some found
      · exact Option.some.inj shown

/-- Where no key is given twice, a table shows exactly the values of its items. -/
theorem tableOf_eq_some_iff {Item Key Value : Type} [DecidableEq Key] {keyOf : Item → Key}
    {valueOf : Item → Value} {items : List Item} (distinct : (items.map keyOf).Nodup) (key : Key)
    (value : Value) :
    tableOf keyOf (fun item => some (valueOf item)) items (fun _ => none) key = some value ↔
      ∃ item ∈ items, keyOf item = key ∧ valueOf item = value := by
  refine ⟨exists_of_tableOf, ?_⟩
  rintro ⟨item, member, rfl, rfl⟩
  refine tableOf_of_mem (fun _ => none) member fun other inside same => ?_
  rw [List.inj_on_of_nodup_map distinct inside member same]

/-- Under a key that no item has, a table shows nothing. -/
theorem tableOf_eq_none {Item Key Value : Type} [DecidableEq Key] {keyOf : Item → Key}
    {valueOf : Item → Value} {items : List Item} {key : Key} (absent : key ∉ items.map keyOf) :
    tableOf keyOf (fun item => some (valueOf item)) items (fun _ => none) key = none := by
  cases shown : tableOf keyOf (fun item => some (valueOf item)) items (fun _ => none) key with
  | none => rfl
  | some value =>
      obtain ⟨item, member, rfl, _⟩ := exists_of_tableOf shown
      exact absurd (List.mem_map_of_mem member) absent

/-- The comparison accepts when the overall statuses, the digests and both tables are the same. -/
theorem compareLedgers_eq_zero_iff (a b : Ledger Json) :
    compareLedgers a b = 0 ↔
      a.overall = b.overall ∧ a.info.pinsDigest = b.info.pinsDigest ∧
        a.info.rigcfgDigest = b.info.rigcfgDigest ∧
        gateTable a.phases = gateTable b.phases ∧ phaseTable a.phases = phaseTable b.phases := by
  have gates : (∀ key ∈ sortedUnion pairLe ((gatesOf a.phases).map gateKey)
        ((gatesOf b.phases).map gateKey), gateTable a.phases key = gateTable b.phases key) ↔
      gateTable a.phases = gateTable b.phases := by
    refine ⟨fun same => funext fun key => ?_, fun same key _ => by rw [same]⟩
    by_cases listed : key ∈ (gatesOf a.phases).map gateKey ∨ key ∈ (gatesOf b.phases).map gateKey
    · exact same key (mem_sortedUnion.mpr listed)
    · obtain ⟨first, second⟩ := not_or.mp listed
      exact (tableOf_eq_none first).trans (tableOf_eq_none second).symm
  have phases : (∀ key ∈ sortedUnion (· ≤ ·) (a.phases.map (·.phase)) (b.phases.map (·.phase)),
        phaseTable a.phases key = phaseTable b.phases key) ↔
      phaseTable a.phases = phaseTable b.phases := by
    refine ⟨fun same => funext fun key => ?_, fun same key _ => by rw [same]⟩
    by_cases listed : key ∈ a.phases.map (·.phase) ∨ key ∈ b.phases.map (·.phase)
    · exact same key (mem_sortedUnion.mpr listed)
    · obtain ⟨first, second⟩ := not_or.mp listed
      exact (tableOf_eq_none first).trans (tableOf_eq_none second).symm
  rw [← gates, ← phases, compareLedgers]
  simp only [ledgerDiffs, ite_eq_left_iff, List.append_eq_nil_iff, List.filterMap_eq_nil_iff,
    Nat.one_ne_zero, imp_false, not_not, ite_eq_right_iff, reduceCtorEq, ne_eq, and_assoc,
    List.cons_ne_nil]

/-! #### Two runs -/

/-- The phases list a gate with a status. -/
def ListsGate (phases : List (PhaseEntry Json)) (phase id : String) (status : GateStatus) : Prop :=
  ∃ p ∈ phases, p.phase = phase ∧ ∃ gate ∈ p.gates, gate.id = id ∧ gate.status = status

/-- The phases list a phase, valid or not. -/
def ListsPhase (phases : List (PhaseEntry Json)) (phase : String) (discovered : Bool) : Prop :=
  ∃ p ∈ phases, p.phase = phase ∧ p.discovered = discovered

theorem gatesOf_keys (phases : List (PhaseEntry Json)) :
    (gatesOf phases).map gateKey =
      phases.flatMap fun p => (p.gates.map (·.id)).map fun id => (p.phase, id) := by
  simp only [gatesOf, List.map_flatMap, List.map_map]
  rfl

/-- With different phases, and different ids in each, no key is given twice. -/
theorem gateKeys_nodup {phases : List (PhaseEntry Json)} (names : (phases.map (·.phase)).Nodup)
    (ids : ∀ p ∈ phases, (p.gates.map (·.id)).Nodup) : ((gatesOf phases).map gateKey).Nodup := by
  rw [gatesOf_keys, List.nodup_flatMap]
  refine ⟨fun p member => (ids p member).map fun _ _ same => (Prod.mk.inj same).2, ?_⟩
  refine (List.pairwise_map.mp names).imp fun different => ?_
  intro key first second
  obtain ⟨_, _, rfl⟩ := List.mem_map.mp first
  obtain ⟨_, _, same⟩ := List.mem_map.mp second
  exact different (congrArg Prod.fst same).symm

theorem gateTable_eq_some_iff {phases : List (PhaseEntry Json)}
    (distinct : ((gatesOf phases).map gateKey).Nodup) (phase id : String) (status : GateStatus) :
    gateTable phases (phase, id) = some status ↔ ListsGate phases phase id status := by
  rw [gateTable, tableOf_eq_some_iff distinct]
  constructor
  · rintro ⟨listed, member, keyed, rfl⟩
    obtain ⟨p, inside, found⟩ := List.mem_flatMap.mp member
    obtain ⟨gate, own, rfl⟩ := List.mem_map.mp found
    obtain ⟨samePhase, sameId⟩ := Prod.mk.inj keyed
    exact ⟨p, inside, samePhase, gate, own, sameId, rfl⟩
  · rintro ⟨p, inside, rfl, gate, own, rfl, rfl⟩
    exact ⟨(p.phase, gate), List.mem_flatMap.mpr ⟨p, inside, List.mem_map_of_mem own⟩, rfl, rfl⟩

theorem phaseTable_eq_some_iff {phases : List (PhaseEntry Json)}
    (names : (phases.map (·.phase)).Nodup) (phase : String) (discovered : Bool) :
    phaseTable phases phase = some discovered ↔ ListsPhase phases phase discovered :=
  tableOf_eq_some_iff names phase discovered

/-- What is listed decides the overall status. -/
theorem computeOverall_of_lists {one two : List (PhaseEntry Json)}
    (gates : ∀ phase id status, ListsGate one phase id status ↔ ListsGate two phase id status)
    (phases : ∀ phase discovered, ListsPhase one phase discovered ↔
      ListsPhase two phase discovered) : computeOverall one = computeOverall two := by
  have status_iff (list : List (PhaseEntry Json)) (status : GateStatus) :
      HasStatus list status ↔ ∃ phase id, ListsGate list phase id status := by
    constructor
    · rintro ⟨p, inside, gate, own, shown⟩
      exact ⟨p.phase, gate.id, p, inside, rfl, gate, own, rfl, shown⟩
    · rintro ⟨_, _, p, inside, _, gate, own, _, shown⟩
      exact ⟨p, inside, gate, own, shown⟩
  have invalid_iff (list : List (PhaseEntry Json)) :
      (∃ p ∈ list, p.discovered = false) ↔ ∃ phase, ListsPhase list phase false := by
    constructor
    · rintro ⟨p, inside, shown⟩
      exact ⟨p.phase, p, inside, rfl, shown⟩
    · rintro ⟨_, p, inside, _, shown⟩
      exact ⟨p, inside, shown⟩
  refine computeOverall_congr (fun status => ?_) ?_
  · rw [status_iff, status_iff]
    simp only [gates]
  · rw [invalid_iff, invalid_iff]
    simp only [phases]

end Compare

section TwoRuns

/-- `phase` of a manifest. -/
def Manifest.phase : Manifest → String
  | .valid suite => suite.phase
  | .invalid phase _ _ => phase

variable {Json Inode : Type} [DecidableEq Inode]

namespace RigRun

variable (rig : RigRun Json Inode)

/-- No two manifests are about one phase. -/
def DistinctPhases : Prop := (rig.manifests.map Manifest.phase).Nodup

theorem shownPhases_names : rig.shownPhases.map (·.phase) = rig.manifests.map Manifest.phase := by
  rw [shownPhases, List.map_map]
  refine List.map_congr_left fun manifest _ => ?_
  cases manifest <;> rfl

omit [DecidableEq Inode] in
theorem gateEntries_ids (results : List GateResult) (files : Inode → Option String)
    (phase : String) (gates : List Gate) :
    ((gates.flatMap (rig.gateEntries results files phase)).map (·.id)).Sublist
      (gates.map (·.id)) := by
  induction gates with
  | nil => exact .slnil
  | cons gate rest inductionHypothesis =>
      have first : ((rig.gateEntries results files phase gate).map (·.id)).Sublist [gate.id] := by
        rw [gateEntries]
        cases resultsByKey results (phase, gate.id) with
        | none => cases rig.upOk <;> simp [errorEntry]
        | some r => exact List.Sublist.refl _
      rw [List.flatMap_cons, List.map_append]
      exact first.append inductionHypothesis

theorem shownPhases_ids : ∀ p ∈ rig.shownPhases, (p.gates.map (·.id)).Nodup := by
  intro p member
  obtain ⟨manifest, _, rfl⟩ := List.mem_map.mp member
  cases manifest with
  | invalid phase feature validationError => exact List.nodup_nil
  | valid m =>
      rw [phaseEntry]
      split_ifs
      · exact m.ids_nodup.sublist (rig.gateEntries_ids _ _ m.phase m.gates)
      · exact List.nodup_nil

end RigRun

/-- A ledger is that of a run that completes. -/
theorem RigRun.eq_shownPhases {rig : RigRun Json Inode} {phases : List (PhaseEntry Json)}
    (ledger : rig.ledgerPhases = some phases) : phases = rig.shownPhases := by
  by_cases all : rig.Completes
  · rw [rig.ledgerPhases_of_completes all] at ledger
    exact (Option.some.inj ledger).symm
  · rw [rig.ledgerPhases_of_not_completes all] at ledger
    cases ledger

/-- For the ledgers of two runs of the rig, each over manifests of different phases:
`compare_ledgers.sh` accepts them exactly when both have the same digests, list the same gates with
the same statuses and the same phases, valid or not.  The overall status never decides. -/
theorem compare_ledgers_iff {one two : RigRun Json Inode} (first : one.DistinctPhases)
    (second : two.DistinctPhases) {phasesOne phasesTwo : List (PhaseEntry Json)}
    (ledgerOne : one.ledgerPhases = some phasesOne) (ledgerTwo : two.ledgerPhases = some phasesTwo)
    (infoOne infoTwo : RunInfo) :
    compareLedgers (buildLedger infoOne phasesOne) (buildLedger infoTwo phasesTwo) = 0 ↔
      infoOne.pinsDigest = infoTwo.pinsDigest ∧ infoOne.rigcfgDigest = infoTwo.rigcfgDigest ∧
      (∀ phase id status, ListsGate phasesOne phase id status ↔
        ListsGate phasesTwo phase id status) ∧
      ∀ phase discovered, ListsPhase phasesOne phase discovered ↔
        ListsPhase phasesTwo phase discovered := by
  have names {rig : RigRun Json Inode} (distinct : rig.DistinctPhases)
      {phases : List (PhaseEntry Json)} (ledger : rig.ledgerPhases = some phases) :
      (phases.map (·.phase)).Nodup := by
    rw [RigRun.eq_shownPhases ledger, rig.shownPhases_names]
    exact distinct
  have keys {rig : RigRun Json Inode} (distinct : rig.DistinctPhases)
      {phases : List (PhaseEntry Json)} (ledger : rig.ledgerPhases = some phases) :
      ((gatesOf phases).map gateKey).Nodup := by
    refine gateKeys_nodup (names distinct ledger) ?_
    rw [RigRun.eq_shownPhases ledger]
    exact rig.shownPhases_ids
  have gates : gateTable phasesOne = gateTable phasesTwo ↔
      ∀ phase id status, ListsGate phasesOne phase id status ↔
        ListsGate phasesTwo phase id status := by
    simp only [← gateTable_eq_some_iff (keys first ledgerOne),
      ← gateTable_eq_some_iff (keys second ledgerTwo)]
    refine ⟨fun same phase id status => by rw [same], fun same => funext fun key => ?_⟩
    exact Option.ext fun status => same key.1 key.2 status
  have phases : phaseTable phasesOne = phaseTable phasesTwo ↔
      ∀ phase discovered, ListsPhase phasesOne phase discovered ↔
        ListsPhase phasesTwo phase discovered := by
    simp only [← phaseTable_eq_some_iff (names first ledgerOne),
      ← phaseTable_eq_some_iff (names second ledgerTwo)]
    refine ⟨fun same phase discovered => by rw [same], fun same => funext fun key => ?_⟩
    exact Option.ext fun discovered => same key discovered
  rw [compareLedgers_eq_zero_iff, ← gates, ← phases]
  constructor
  · rintro ⟨_, rest⟩
    exact rest
  · rintro ⟨pins, rigcfg, sameGates, samePhases⟩
    refine ⟨?_, pins, rigcfg, sameGates, samePhases⟩
    exact computeOverall_of_lists (gates.mp sameGates) (phases.mp samePhases)

/-- A run of one gate that ends with an exit code. -/
def oneGateRun (exitCode : Int) : RigRun String String where
  manifests := [.valid
    { phase := "p4", feature := "p4-phy-l2-seam", gates := [⟨"p4-struct-layout-test", .unit⟩]
      phase_ne := by decide, gates_ne := List.cons_ne_nil _ _, ids_nodup := by simp }]
  onlyPhase := ""
  artifactsDir := "artifacts/p5/run"
  upOk := true
  outcomes := fun _ => some ⟨exitCode, 1, some "[]"⟩
  json := ⟨"null", fun text => if text = "[]" then some "[]" else none⟩
  resolve := id
  files := fun _ => none

/-- What the ledgers of the two runs say about them. -/
def oneGateInfo : RunInfo where
  runId := "run"
  startedUtc := "2026-07-27T00:00:00Z"
  finishedUtc := "2026-07-27T00:00:01Z"
  tier := "sim"
  hostKind := "wsl2"
  pinsDigest := "sha256:unknown"
  rigcfgDigest := "sha256:unknown"

/-- Both runs are green, in one of them the gate timed out, and the comparison notices. -/
theorem compare_ledgers_iff_timeout :
    (oneGateRun 0).overall = some .pass ∧ (oneGateRun 124).overall = some .pass ∧
      ∃ phasesOne phasesTwo, (oneGateRun 0).ledgerPhases = some phasesOne ∧
        (oneGateRun 124).ledgerPhases = some phasesTwo ∧
        compareLedgers (buildLedger oneGateInfo phasesOne)
          (buildLedger oneGateInfo phasesTwo) ≠ 0 := by
  have distinct (code : Int) : (oneGateRun code).DistinctPhases := List.nodup_singleton "p4"
  have ledger (code : Int) :
      (oneGateRun code).ledgerPhases = some (oneGateRun code).shownPhases :=
    (oneGateRun code).ledgerPhases_of_completes fun _ _ _ => rfl
  have keys (code : Int) : ((gatesOf (oneGateRun code).shownPhases).map gateKey).Nodup := by
    refine gateKeys_nodup ?_ (oneGateRun code).shownPhases_ids
    rw [RigRun.shownPhases_names]
    exact distinct code
  refine ⟨by decide +kernel, by decide +kernel, _, _, ledger 0, ledger 124, fun accepted => ?_⟩
  have same := ((compare_ledgers_iff (distinct 0) (distinct 124) (ledger 0) (ledger 124)
    oneGateInfo oneGateInfo).mp accepted).2.2.1 "p4" "p4-struct-layout-test" .pass
  have passed : gateTable (oneGateRun 0).shownPhases ("p4", "p4-struct-layout-test") =
      some .pass := by
    decide +kernel
  have late : gateTable (oneGateRun 124).shownPhases ("p4", "p4-struct-layout-test") =
      some .timeout := by
    decide +kernel
  rw [← gateTable_eq_some_iff (keys 0), ← gateTable_eq_some_iff (keys 124), passed, late] at same
  exact absurd (same.mp rfl) (by decide)

end TwoRuns

end RanInline.Rig
