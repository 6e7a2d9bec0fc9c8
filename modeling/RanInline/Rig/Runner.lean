/-
Module: RanInline.Rig.Runner
Purpose: simtest_runner.py over the manifests of discover_suites.py: the gates it runs, the
  results it keeps of them, the ledger it writes and its exit code.
Trusted boundary: none
Main exports: Suite, Manifest, RigRun, runOneGate, runGates, ledgerPhases, overall, exitCode,
  GateRun, Completes, ledger_attribution_iff, green_iff_all_passed_iff
-/
import Mathlib.Data.List.Basic
import Mathlib.Data.List.Flatten
import Mathlib.Data.List.Forall2
import RanInline.Lib.LastWins
import RanInline.Rig.Ledger

namespace RanInline.Rig

open RanInline.Lib

/-! ### Manifests -/

/-- A gate of a manifest. -/
structure Gate where
  id : String
  type : GateType
deriving DecidableEq, Repr

/-- A manifest that discovery accepts: the schema asks for a gate and for strings that are not
empty, `discover` for different ids. -/
structure Suite where
  phase : String
  feature : String
  gates : List Gate
  phase_ne : phase ≠ ""
  gates_ne : gates ≠ []
  ids_nodup : (gates.map (·.id)).Nodup

/-- An entry of `discover`. -/
inductive Manifest where
  | valid (suite : Suite)
  | invalid (phase feature validationError : String)

/-- `discovered`. -/
def Manifest.discovered : Manifest → Bool
  | .valid _ => true
  | .invalid _ _ _ => false

/-- `valid` of `main`. -/
def validSuites (manifests : List Manifest) : List Suite :=
  manifests.filterMap fun
    | .valid suite => some suite
    | .invalid _ _ _ => none

@[simp] theorem validSuites_valid (suite : Suite) (rest : List Manifest) :
    validSuites (.valid suite :: rest) = suite :: validSuites rest := rfl

@[simp] theorem validSuites_invalid (phase feature validationError : String)
    (rest : List Manifest) :
    validSuites (.invalid phase feature validationError :: rest) = validSuites rest := rfl

/-- The gates of a list of phases, with the name of their phase. -/
def gatesOf {Json : Type} (phases : List (PhaseEntry Json)) : List (String × GateEntry Json) :=
  phases.flatMap fun p => p.gates.map fun gate => (p.phase, gate)

/-! ### Running the gates -/

/-- `os.path.join`. -/
def osPathJoin (path component : String) : String :=
  if component.toList.head? = some '/' then component
  else if path = "" ∨ path.toList.getLast? = some '/' then path ++ component
  else path ++ "/" ++ component

/-- What an invocation of `run_gate.sh` does: its exit code, the duration that is measured, and
what it leaves in `stdout.log`. -/
structure Outcome where
  exitCode : Int
  durationS : Rat
  stdout : Option String
deriving DecidableEq

/-- What `run_one_gate` returns. -/
structure GateResult where
  phase : String
  gateId : String
  type : GateType
  exitCode : Int
  durationS : Rat
  timedOut : Bool
  artifactsDir : String
deriving DecidableEq

/-- The key of `results_by_key`. -/
def GateResult.key (result : GateResult) : String × String := (result.phase, result.gateId)

/-- One run of the rig: the manifests, the arguments that matter, whether the stack came up, how
the gates end in the order they are run (`none` for one at which `run_one_gate` raises, as
`os.makedirs` does for a name that is too long), which file a path names and the files before. -/
structure RigRun (Json Inode : Type) where
  manifests : List Manifest
  onlyPhase : String
  artifactsDir : String
  upOk : Bool
  outcomes : Nat → Option Outcome
  json : JsonModule Json
  resolve : String → Inode
  files : Inode → Option String

section Runner

variable {Json Inode : Type} [DecidableEq Inode]

namespace RigRun

variable (rig : RigRun Json Inode)

/-- `only_phases`. -/
def onlyPhases : List String := strippedPieces (· = ',') rig.onlyPhase

/-- `skip` for a phase. -/
def skip (phase : String) : Bool := rig.onlyPhases ≠ [] ∧ phase ∉ rig.onlyPhases

/-- `gate_dir`. -/
def gateDir (phase gateId : String) : String :=
  osPathJoin (osPathJoin rig.artifactsDir phase) gateId

/-- The file `stdout.log` in a directory. -/
def stdoutLog (artifactsDir : String) : Inode := rig.resolve (osPathJoin artifactsDir "stdout.log")

/-- `run_one_gate`, with the texts of the files.  An error of `os.makedirs`, or of the start of
`run_gate.sh`, is not caught and ends the runner. -/
def runOneGate (outcome : Option Outcome) (phase : String) (gate : Gate)
    (files : Inode → Option String) : Option (GateResult × (Inode → Option String)) := do
  let gateDir := rig.gateDir phase gate.id
  let outcome ← outcome
  return ({ phase := phase
            gateId := gate.id
            type := gate.type
            exitCode := outcome.exitCode
            durationS := outcome.durationS
            timedOut := outcome.exitCode = 124
            artifactsDir := gateDir },
    Function.update files (rig.stdoutLog gateDir) outcome.stdout)

/-- The gates that are due, in the order of the loops. -/
def gatesDue : List (String × Gate) :=
  ((validSuites rig.manifests).filter fun m => !rig.skip m.phase).flatMap fun m =>
    m.gates.map fun gate => (m.phase, gate)

/-- One turn of the loop over the gates: `results` and the files. -/
def gateTurn (state : List GateResult × (Inode → Option String)) (due : String × Gate) :
    Option (List GateResult × (Inode → Option String)) := do
  let (results, files) := state
  let (res, files) ← rig.runOneGate (rig.outcomes results.length) due.1 due.2 files
  return (results ++ [res], files)

/-- The gates, unless the stack did not come up. -/
def runGates : Option (List GateResult × (Inode → Option String)) :=
  if rig.upOk then rig.gatesDue.foldlM rig.gateTurn ([], rig.files) else some ([], rig.files)

/-! ### The ledger -/

/-- `results_by_key`. -/
def resultsByKey (results : List GateResult) : String × String → Option GateResult :=
  tableOf GateResult.key some results fun _ => none

/-- The entry of a gate that could not be run. -/
def errorEntry (gate : Gate) : GateEntry Json where
  id := gate.id
  type := gate.type
  status := .error
  exitCode := none
  durationS := 0
  verdict := rig.json.none
  artifacts := ""

/-- The entries of a gate: none when it has no result, though the stack is up. -/
def gateEntries (results : List GateResult) (files : Inode → Option String) (phase : String)
    (gate : Gate) : List (GateEntry Json) :=
  match resultsByKey results (phase, gate.id) with
  | none =>
      if rig.upOk then [] else [rig.errorEntry gate]
  | some r =>
      let (verdict, validJson) := lastJsonLine rig.json (files (rig.stdoutLog r.artifactsDir))
      [{ id := gate.id, type := gate.type
         status := classifyGate r.exitCode r.timedOut validJson
         exitCode := some r.exitCode, durationS := r.durationS, verdict := verdict
         artifacts := r.artifactsDir }]

/-- The entry of a manifest in `phases`. -/
def phaseEntry (results : List GateResult) (files : Inode → Option String) :
    Manifest → PhaseEntry Json
  | .invalid phase feature validationError =>
      { phase := phase, feature := feature, discovered := false
        validationError := some validationError, gates := [], skipped := false }
  | .valid m =>
      { phase := m.phase, feature := m.feature, discovered := true, validationError := none
        gates :=
          if !rig.skip m.phase || !rig.upOk then
            m.gates.flatMap (rig.gateEntries results files m.phase)
          else []
        skipped := rig.skip m.phase }

/-- `phases` of the ledger; there is none when the runner has ended before. -/
def ledgerPhases : Option (List (PhaseEntry Json)) := do
  let (results, files) ← rig.runGates
  return rig.manifests.map (rig.phaseEntry results files)

/-- `overall` of the ledger. -/
def overall : Option Overall := rig.ledgerPhases.map computeOverall

/-- The exit code of the runner; an uncaught error gives 1. -/
def exitCode : Nat :=
  match rig.overall with
  | none => 1
  | some overall =>
      if !rig.upOk then 2
      else match overall with
        | .pass => 0
        | .blocked => 3
        | _ => 1

end RigRun

/-! ### The runs of the gates -/

/-- A gate that was run, with its own outcome. -/
structure GateRun where
  phase : String
  gate : Gate
  outcome : Outcome
deriving DecidableEq

/-- The key under which its result is kept. -/
def GateRun.key (run : GateRun) : String × String := (run.phase, run.gate.id)

/-- The gate of the run. -/
def GateRun.due (run : GateRun) : String × Gate := (run.phase, run.gate)

namespace RigRun

variable (rig : RigRun Json Inode)

/-- The gates of a list that are run when so many were run before: those in front of the first one
that raises. -/
def runsFrom : Nat → List (String × Gate) → List GateRun
  | _, [] => []
  | n, due :: rest =>
      match rig.outcomes n with
      | none => []
      | some outcome => ⟨due.1, due.2, outcome⟩ :: runsFrom (n + 1) rest

/-- The gates that were run, in their order. -/
def runs : List GateRun := if rig.upOk then rig.runsFrom 0 rig.gatesDue else []

/-- `run_one_gate` raises at no gate that is due. -/
def Completes : Prop :=
  rig.upOk = true → ∀ n < rig.gatesDue.length, (rig.outcomes n).isSome = true

/-- The file that holds the stdout of a run. -/
def logOf (run : GateRun) : Inode := rig.stdoutLog (rig.gateDir run.phase run.gate.id)

/-- The verdict line of a run. -/
def verdictOf (run : GateRun) : Json × Bool := lastJsonLine rig.json run.outcome.stdout

/-- The status of a run by its own exit code and its own stdout. -/
def statusOf (run : GateRun) : GateStatus :=
  classifyGate run.outcome.exitCode (run.outcome.exitCode = 124) (rig.verdictOf run).2

/-- The last gate that was run under the phase and the id of a run. -/
def lastNamesake (run : GateRun) : GateRun :=
  (lastUnder GateRun.key run.key rig.runs).getD run

/-- The last gate whose stdout went to the file of a run. -/
def lastWriter (run : GateRun) : GateRun :=
  (lastUnder rig.logOf (rig.logOf run) rig.runs).getD run

/-- What `run_one_gate` returns for a run. -/
def resultOf (run : GateRun) : GateResult where
  phase := run.phase
  gateId := run.gate.id
  type := run.gate.type
  exitCode := run.outcome.exitCode
  durationS := run.outcome.durationS
  timedOut := run.outcome.exitCode = 124
  artifactsDir := rig.gateDir run.phase run.gate.id

/-- The results of the gates that were run. -/
def results : List GateResult := rig.runs.map rig.resultOf

/-- The files behind the gates that were run: each holds what was written to it last. -/
def filesAfter : Inode → Option String :=
  tableOf rig.logOf (·.outcome.stdout) rig.runs rig.files

omit [DecidableEq Inode] in
theorem runsFrom_map_due {n : Nat} {due : List (String × Gate)}
    (made : ∀ i < due.length, (rig.outcomes (n + i)).isSome = true) :
    (rig.runsFrom n due).map GateRun.due = due := by
  induction due generalizing n with
  | nil => rfl
  | cons first rest ih =>
      obtain ⟨outcome, here⟩ := Option.isSome_iff_exists.mp (made 0 (Nat.succ_pos _))
      rw [Nat.add_zero] at here
      rw [runsFrom, here, List.map_cons, ih]
      · rfl
      · intro i less
        rw [Nat.add_assoc, Nat.add_comm 1 i]
        exact made (i + 1) (Nat.succ_lt_succ less)

omit [DecidableEq Inode] in
/-- Behind a gate that raises no gate is run. -/
theorem runsFrom_length_lt {n : Nat} {due : List (String × Gate)} {i : Nat}
    (inside : i < due.length) (missing : rig.outcomes (n + i) = none) :
    (rig.runsFrom n due).length < due.length := by
  induction due generalizing n i with
  | nil => exact absurd inside (Nat.not_lt_zero _)
  | cons first rest ih =>
      rw [runsFrom]
      cases here : rig.outcomes n with
      | none => exact Nat.succ_pos _
      | some outcome =>
          cases i with
          | zero =>
              rw [Nat.add_zero, here] at missing
              cases missing
          | succ i =>
              refine Nat.succ_lt_succ (ih (Nat.lt_of_succ_lt_succ inside) ?_)
              rw [Nat.add_assoc, Nat.add_comm 1 i]
              exact missing

omit [DecidableEq Inode] in
theorem runs_map_due (all : rig.Completes) :
    rig.runs.map GateRun.due = if rig.upOk then rig.gatesDue else [] := by
  rw [runs]
  split_ifs with up
  · refine rig.runsFrom_map_due fun i less => ?_
    rw [Nat.zero_add]
    exact all up i less
  · rfl

/-- The loop over the gates: it ends at the first one that raises. -/
theorem foldlM_gateTurn (due : List (String × Gate)) (results : List GateResult)
    (files : Inode → Option String) :
    due.foldlM rig.gateTurn (results, files) =
      if ∀ i < due.length, (rig.outcomes (results.length + i)).isSome = true then
        some (results ++ (rig.runsFrom results.length due).map rig.resultOf,
          tableOf rig.logOf (·.outcome.stdout) (rig.runsFrom results.length due) files)
      else none := by
  induction due generalizing results files with
  | nil => simp [runsFrom, tableOf]
  | cons first rest ih =>
      rw [List.foldlM_cons, gateTurn, runsFrom]
      cases here : rig.outcomes results.length with
      | none =>
          rw [if_neg]
          · rfl
          · intro made
            have first := made 0 (Nat.succ_pos _)
            rw [Nat.add_zero, here] at first
            cases first
      | some outcome =>
          have later : (∀ i < (first :: rest).length,
                (rig.outcomes (results.length + i)).isSome = true) ↔
              ∀ i < rest.length, (rig.outcomes (results.length + 1 + i)).isSome = true := by
            rw [List.length_cons, Nat.forall_lt_succ_left, Nat.add_zero, here]
            simp only [Option.isSome_some, true_and, Nat.add_assoc, Nat.add_comm 1]
          have turn : rig.runOneGate (some outcome) first.1 first.2 files =
              some (rig.resultOf ⟨first.1, first.2, outcome⟩,
                Function.update files (rig.logOf ⟨first.1, first.2, outcome⟩) outcome.stdout) := rfl
          simp only [turn, Option.bind_eq_bind, Option.bind_some, Option.pure_def]
          rw [ih, List.length_append, List.length_singleton, if_congr later rfl rfl,
            List.append_assoc]
          rfl

/-- The results are those of the runs, and a file holds what was written to it last. -/
theorem runGates_of_completes (all : rig.Completes) :
    rig.runGates = some (rig.results, rig.filesAfter) := by
  rw [runGates, results, filesAfter, runs]
  split_ifs with up
  · rw [foldlM_gateTurn, if_pos]
    · rfl
    · intro i less
      rw [List.length_nil, Nat.zero_add]
      exact all up i less
  · rfl

/-- If a gate that is due raises, there is no ledger. -/
theorem runGates_of_not_completes (ends : ¬ rig.Completes) : rig.runGates = none := by
  rw [Completes, Classical.not_imp] at ends
  obtain ⟨up, some⟩ := ends
  rw [runGates, if_pos up, foldlM_gateTurn, if_neg]
  simpa using some

/-- What the ledger shows of a run: the exit code of its last namesake, with the verdict of the
last stdout in its file. -/
def shownEntry (run : GateRun) : GateEntry Json where
  id := run.gate.id
  type := run.gate.type
  status := classifyGate (rig.lastNamesake run).outcome.exitCode
    ((rig.lastNamesake run).outcome.exitCode = 124) (rig.verdictOf (rig.lastWriter run)).2
  exitCode := some (rig.lastNamesake run).outcome.exitCode
  durationS := (rig.lastNamesake run).outcome.durationS
  verdict := (rig.verdictOf (rig.lastWriter run)).1
  artifacts := rig.gateDir run.phase run.gate.id

theorem gateEntries_of_run {run : GateRun} (member : run ∈ rig.runs) :
    rig.gateEntries rig.results rig.filesAfter run.phase run.gate = [rig.shownEntry run] := by
  obtain ⟨namesake, _, lastKey, sameKey⟩ := lastUnder_of_mem GateRun.key member
  obtain ⟨writer, _, lastLog, _⟩ := lastUnder_of_mem rig.logOf member
  have found : resultsByKey rig.results (run.phase, run.gate.id) =
      some (rig.resultOf namesake) := by
    have mapped := tableOf_apply GateRun.key (fun run => some (rig.resultOf run)) rig.runs
      (fun _ => none) run.key
    rw [lastKey] at mapped
    rw [results, resultsByKey, tableOf, List.foldl_map]
    exact mapped
  have dir : (rig.resultOf namesake).artifactsDir = rig.gateDir run.phase run.gate.id := by
    obtain ⟨phase, id⟩ := Prod.mk.inj sameKey
    change rig.gateDir namesake.phase namesake.gate.id = _
    rw [phase, id]
  have text : rig.filesAfter (rig.stdoutLog (rig.gateDir run.phase run.gate.id)) =
      writer.outcome.stdout := by
    have written := tableOf_apply rig.logOf (·.outcome.stdout) rig.runs rig.files (rig.logOf run)
    rw [lastLog] at written
    rw [filesAfter]
    exact written
  rw [gateEntries, found]
  simp only [dir, text, shownEntry, lastNamesake, lastWriter, lastKey, lastLog, Option.getD_some]
  rfl

/-! ### The ledger gate by gate -/

/-- The phases that the ledger shows. -/
def shownPhases : List (PhaseEntry Json) :=
  rig.manifests.map (rig.phaseEntry rig.results rig.filesAfter)

theorem ledgerPhases_of_completes (all : rig.Completes) :
    rig.ledgerPhases = some rig.shownPhases := by
  rw [ledgerPhases, rig.runGates_of_completes all]
  rfl

theorem ledgerPhases_of_not_completes (ends : ¬ rig.Completes) : rig.ledgerPhases = none := by
  rw [ledgerPhases, rig.runGates_of_not_completes ends]
  rfl

/-- A manifest that is left out or invalid has no gate in the ledger. -/
theorem gatesOf_shownPhases :
    gatesOf rig.shownPhases =
      ((validSuites rig.manifests).filter fun m => !rig.skip m.phase || !rig.upOk).flatMap
        fun m => m.gates.flatMap fun gate =>
          (rig.gateEntries rig.results rig.filesAfter m.phase gate).map fun entry =>
            (m.phase, entry) := by
  rw [gatesOf, shownPhases]
  induction rig.manifests with
  | nil => rfl
  | cons manifest rest ih =>
      rw [List.map_cons, List.flatMap_cons, ih]
      cases manifest with
      | invalid phase feature validationError =>
          rw [validSuites_invalid]
          rfl
      | valid suite =>
          by_cases shown : (!rig.skip suite.phase || !rig.upOk) = true
          · rw [phaseEntry, if_pos shown, validSuites_valid, List.filter_cons, if_pos shown,
              List.flatMap_cons, List.map_flatMap]
          · rw [phaseEntry, if_neg shown, validSuites_valid, List.filter_cons, if_neg shown]
            rfl

/-- With the stack up and no error, the ledger has an entry for every run. -/
theorem gatesOf_shownPhases_of_up (up : rig.upOk = true) (all : rig.Completes) :
    gatesOf rig.shownPhases = rig.runs.map fun run => (run.phase, rig.shownEntry run) := by
  have shown : gatesOf rig.shownPhases = rig.gatesDue.flatMap fun due =>
      (rig.gateEntries rig.results rig.filesAfter due.1 due.2).map fun gate =>
        (due.1, gate) := by
    rw [gatesOf_shownPhases, gatesDue, List.flatMap_assoc, up]
    simp only [Bool.not_true, Bool.or_false, List.flatMap_map]
  have due : rig.gatesDue = rig.runs.map GateRun.due := by rw [rig.runs_map_due all, if_pos up]
  rw [shown, due, List.flatMap_map, List.map_eq_flatMap]
  apply List.flatMap_congr
  intro run member
  rw [GateRun.due, rig.gateEntries_of_run member]
  rfl

/-- Every gate that the valid manifests declare. -/
def declaredGates : List (String × Gate) :=
  (validSuites rig.manifests).flatMap fun m => m.gates.map fun gate => (m.phase, gate)

omit [DecidableEq Inode] in
theorem runs_of_down (down : rig.upOk = false) : rig.runs = [] := by
  rw [runs, if_neg (by rw [down]; decide)]

omit [DecidableEq Inode] in
theorem completes_of_down (down : rig.upOk = false) : rig.Completes := by
  intro up
  rw [down] at up
  cases up

/-- Without the stack, it has an error for every gate that is declared. -/
theorem gatesOf_shownPhases_of_down (down : rig.upOk = false) :
    gatesOf rig.shownPhases = rig.declaredGates.map fun due => (due.1, rig.errorEntry due.2) := by
  have entry (phase : String) (gate : Gate) :
      rig.gateEntries rig.results rig.filesAfter phase gate = [rig.errorEntry gate] := by
    rw [gateEntries, results, rig.runs_of_down down,
      show resultsByKey ([].map rig.resultOf) (phase, gate.id) = none from rfl]
    exact if_neg (by rw [down]; decide)
  rw [gatesOf_shownPhases, declaredGates, List.map_flatMap, List.filter_eq_self.mpr]
  · apply List.flatMap_congr
    intro m _
    rw [List.map_map, List.map_eq_flatMap]
    simp only [entry]
    rfl
  · simp [down]

/-! ### Attribution -/

/-- The entry shows the run itself. -/
structure OwnEntry (run : GateRun) (entry : String × GateEntry Json) : Prop where
  gate : entry.1 = run.phase ∧ entry.2.id = run.gate.id
  status : entry.2.status = rig.statusOf run
  exitCode : entry.2.exitCode = some run.outcome.exitCode
  verdict : entry.2.verdict = (rig.verdictOf run).1

/-- There is a ledger, and its entries with an exit code are one for each gate that was run, and
show that run. -/
def Attributed : Prop :=
  ∃ phases, rig.ledgerPhases = some phases ∧
    List.Forall₂ rig.OwnEntry rig.runs
      ((gatesOf phases).filter fun entry => entry.2.exitCode.isSome)

/-- A run whose outcome is not replaced by another one: the last gate under its phase and id ended
with its exit code, and the last gate that wrote to its `stdout.log` left its verdict, also as far
as the verdict decides the status. -/
structure Unreplaced (run : GateRun) : Prop where
  exitCode : (rig.lastNamesake run).outcome.exitCode = run.outcome.exitCode
  verdict : (rig.verdictOf (rig.lastWriter run)).1 = (rig.verdictOf run).1
  valid : run.outcome.exitCode ∈ [0, 1, 3] →
    (rig.verdictOf (rig.lastWriter run)).2 = (rig.verdictOf run).2

end RigRun

/-- The verdict decides the status for three exit codes. -/
theorem classifyGate_eq_iff (exitCode : Int) (one two : Bool) :
    classifyGate exitCode (exitCode = 124) one = classifyGate exitCode (exitCode = 124) two ↔
      (exitCode ∈ [0, 1, 3] → one = two) := by
  by_cases zero : exitCode = 0
  · subst zero
    cases one <;> cases two <;> decide
  · by_cases first : exitCode = 1
    · subst first
      cases one <;> cases two <;> decide
    · by_cases third : exitCode = 3
      · subst third
        cases one <;> cases two <;> decide
      · cases one <;> cases two <;> simp [classifyGate, zero, first, third]

namespace RigRun

variable (rig : RigRun Json Inode)

theorem ownEntry_shownEntry_iff (run : GateRun) :
    rig.OwnEntry run (run.phase, rig.shownEntry run) ↔ rig.Unreplaced run := by
  constructor
  · intro own
    have exits := Option.some.inj own.exitCode
    have status := own.status
    rw [shownEntry, statusOf, exits] at status
    exact ⟨exits, own.verdict, (classifyGate_eq_iff _ _ _).mp status⟩
  · intro kept
    refine ⟨⟨rfl, rfl⟩, ?_, congrArg some kept.exitCode, kept.verdict⟩
    rw [shownEntry, statusOf, kept.exitCode]
    exact (classifyGate_eq_iff _ _ _).mpr kept.valid

/-- A run that ended with an error has no ledger. -/
theorem completes_of_attributed (attributed : rig.Attributed) : rig.Completes := by
  by_contra ends
  obtain ⟨phases, ledger, _⟩ := attributed
  rw [rig.ledgerPhases_of_not_completes ends] at ledger
  cases ledger

theorem attributed_iff_of_completes (all : rig.Completes) :
    rig.Attributed ↔ List.Forall₂ rig.OwnEntry rig.runs
      ((gatesOf rig.shownPhases).filter fun entry => entry.2.exitCode.isSome) := by
  rw [Attributed, rig.ledgerPhases_of_completes all]
  simp only [Option.some.injEq, exists_eq_left']

theorem attributed_iff_of_up (up : rig.upOk = true) (all : rig.Completes) :
    rig.Attributed ↔ ∀ run ∈ rig.runs, rig.Unreplaced run := by
  rw [rig.attributed_iff_of_completes all, rig.gatesOf_shownPhases_of_up up all,
    List.filter_eq_self.mpr, List.forall₂_map_right_iff, List.forall₂_same]
  · simp only [ownEntry_shownEntry_iff]
  · intro entry member
    obtain ⟨run, _, rfl⟩ := List.mem_map.mp member
    rfl

/-- Rule 4 over the manifests: every manifest is valid, every gate that is declared was run, and
every run passed. -/
structure AllPassed : Prop where
  discovered : ∀ m ∈ rig.manifests, m.discovered = true
  ran : rig.runs.map GateRun.due = rig.declaredGates
  passed : ∀ run ∈ rig.runs, rig.statusOf run = .pass

/-- The rig is green exactly when everything ran and passed. -/
structure GreenMeansPassed : Prop where
  overall : rig.overall = some .pass ↔ rig.AllPassed
  exitCode : rig.exitCode = 0 → rig.AllPassed

/-- The status that the ledger takes for a run, from the exit code of the last namesake and the
last stdout in the file. -/
def visibleStatus (run : GateRun) : GateStatus :=
  classifyGate (rig.lastNamesake run).outcome.exitCode
    ((rig.lastNamesake run).outcome.exitCode = 124) (rig.verdictOf (rig.lastWriter run)).2

/-- Nothing that is visible stops the run from being green, but something timed out, was left
out, or is hidden by another gate. -/
structure FalseGreen : Prop where
  up : rig.upOk = true
  completes : rig.Completes
  discovered : ∀ m ∈ rig.manifests, m.discovered = true
  visible : ∀ run ∈ rig.runs, rig.visibleStatus run = .pass ∨ rig.visibleStatus run = .timeout
  unnoticed : (∃ run ∈ rig.runs, rig.visibleStatus run = .timeout) ∨
    (∃ m ∈ validSuites rig.manifests, rig.skip m.phase = true) ∨
    ∃ run ∈ rig.runs, rig.visibleStatus run = .pass ∧ rig.statusOf run ≠ .pass

theorem overall_of_completes (all : rig.Completes) :
    rig.overall = some (computeOverall rig.shownPhases) := by
  rw [overall, rig.ledgerPhases_of_completes all]
  rfl

theorem overall_of_not_completes (ends : ¬ rig.Completes) : rig.overall = none := by
  rw [overall, rig.ledgerPhases_of_not_completes ends]
  rfl

theorem overall_eq_pass_iff (all : rig.Completes) :
    rig.overall = some .pass ↔ (∀ m ∈ rig.manifests, m.discovered = true) ∧
      ∀ gate ∈ gatesOf rig.shownPhases, gate.2.status = .pass ∨ gate.2.status = .timeout := by
  rw [rig.overall_of_completes all, Option.some.injEq, computeOverall_eq_pass_iff]
  constructor
  · intro green
    refine ⟨fun m member => ?_, fun gate listed => ?_⟩
    · have entry := (green _ (List.mem_map_of_mem member)).1
      cases m with
      | valid suite => rfl
      | invalid phase feature validationError => exact entry
    · obtain ⟨p, inside, found⟩ := List.mem_flatMap.mp listed
      obtain ⟨shown, member, rfl⟩ := List.mem_map.mp found
      exact (green p inside).2 shown member
  · rintro ⟨discovered, gates⟩ p inside
    refine ⟨?_, fun gate listed => ?_⟩
    · obtain ⟨m, member, rfl⟩ := List.mem_map.mp inside
      have valid := discovered m member
      cases m with
      | valid suite => rfl
      | invalid phase feature validationError => exact valid
    · exact gates (p.phase, gate)
        (List.mem_flatMap.mpr ⟨p, inside, List.mem_map_of_mem listed⟩)

theorem overall_eq_pass_iff_of_up (up : rig.upOk = true) (all : rig.Completes) :
    rig.overall = some .pass ↔ (∀ m ∈ rig.manifests, m.discovered = true) ∧
      ∀ run ∈ rig.runs, rig.visibleStatus run = .pass ∨ rig.visibleStatus run = .timeout := by
  rw [rig.overall_eq_pass_iff all, rig.gatesOf_shownPhases_of_up up all, List.forall_mem_map]
  rfl

end RigRun

theorem classifyGate_eq_pass_iff (exitCode : Int) (valid : Bool) :
    classifyGate exitCode (exitCode = 124) valid = .pass ↔ exitCode = 0 ∧ valid = true := by
  by_cases zero : exitCode = 0
  · subst zero
    cases valid <;> decide
  · cases valid <;> simp only [classifyGate, zero, if_false, false_and] <;> split_ifs <;> simp

theorem classifyGate_eq_timeout_iff (exitCode : Int) (valid : Bool) :
    classifyGate exitCode (exitCode = 124) valid = .timeout ↔ exitCode = 124 := by
  by_cases late : exitCode = 124
  · simp [classifyGate, late]
  · cases valid <;> simp only [classifyGate, late] <;> split_ifs <;> simp_all

namespace RigRun

variable (rig : RigRun Json Inode)

omit [DecidableEq Inode] in
theorem lastNamesake_mem {run : GateRun} (member : run ∈ rig.runs) :
    rig.lastNamesake run ∈ rig.runs := by
  obtain ⟨last, inside, found, _⟩ := lastUnder_of_mem GateRun.key member
  rwa [lastNamesake, found]

theorem lastWriter_mem {run : GateRun} (member : run ∈ rig.runs) :
    rig.lastWriter run ∈ rig.runs := by
  obtain ⟨last, inside, found, _⟩ := lastUnder_of_mem rig.logOf member
  rwa [lastWriter, found]

/-- What passed everywhere is shown as passed everywhere. -/
theorem visibleStatus_of_passed (passed : ∀ run ∈ rig.runs, rig.statusOf run = .pass)
    {run : GateRun} (member : run ∈ rig.runs) : rig.visibleStatus run = .pass := by
  have namesake := passed _ (rig.lastNamesake_mem member)
  have writer := passed _ (rig.lastWriter_mem member)
  rw [statusOf, classifyGate_eq_pass_iff] at namesake writer
  rw [visibleStatus, classifyGate_eq_pass_iff]
  exact ⟨namesake.1, writer.2⟩

/-- A gate that is shown as timed out was not passed by its last namesake. -/
theorem exists_not_passed_of_timeout {run : GateRun} (member : run ∈ rig.runs)
    (late : rig.visibleStatus run = .timeout) : ∃ run ∈ rig.runs, rig.statusOf run ≠ .pass := by
  rw [visibleStatus, classifyGate_eq_timeout_iff] at late
  refine ⟨_, rig.lastNamesake_mem member, ?_⟩
  rw [statusOf, (classifyGate_eq_timeout_iff _ _).mpr late]
  decide

end RigRun

/-- Leaving a manifest out leaves a gate out. -/
theorem all_kept_of_flatMap_eq {kept : Suite → Bool} {suites : List Suite}
    (same : ((suites.filter kept).flatMap fun m => m.gates.map fun gate => (m.phase, gate)) =
      suites.flatMap fun m => m.gates.map fun gate => (m.phase, gate)) :
    ∀ m ∈ suites, kept m = true := by
  induction suites with
  | nil => simp
  | cons first rest ih =>
      by_cases here : kept first = true
      · rw [List.filter_cons_of_pos here, List.flatMap_cons, List.flatMap_cons,
          List.append_cancel_left_eq] at same
        intro m member
        rcases List.mem_cons.mp member with rfl | later
        · exact here
        · exact ih same m later
      · rw [List.filter_cons_of_neg here, List.flatMap_cons] at same
        have fewer := ((List.filter_sublist (p := kept) (l := rest)).flatMap
          fun m => m.gates.map fun gate => (m.phase, gate)).length_le
        have some := List.length_pos_of_ne_nil first.gates_ne
        rw [same, List.length_append, List.length_map] at fewer
        omega

namespace RigRun

variable (rig : RigRun Json Inode)

omit [DecidableEq Inode] in
/-- Every declared gate is due exactly when no valid manifest is left out. -/
theorem gatesDue_eq_declaredGates_iff :
    rig.gatesDue = rig.declaredGates ↔
      ∀ m ∈ validSuites rig.manifests, rig.skip m.phase = false := by
  rw [gatesDue, declaredGates]
  constructor
  · intro same m member
    have kept := all_kept_of_flatMap_eq same m member
    simpa using kept
  · intro all
    rw [List.filter_eq_self.mpr]
    intro m member
    rw [all m member]
    rfl

omit [DecidableEq Inode] in
theorem gatesDue_sublist : rig.gatesDue.Sublist rig.declaredGates := by
  rw [gatesDue, declaredGates]
  exact List.filter_sublist.flatMap _

omit [DecidableEq Inode] in
/-- A run that ended with an error did not run everything. -/
theorem completes_of_allPassed (passed : rig.AllPassed) : rig.Completes := by
  intro up n inside
  by_contra missing
  have fewer : (rig.runsFrom 0 rig.gatesDue).length < rig.gatesDue.length := by
    refine rig.runsFrom_length_lt inside ?_
    rw [Nat.zero_add]
    simpa using missing
  have ran : rig.runs.length = rig.declaredGates.length := by
    rw [← passed.ran, List.length_map]
  rw [runs, if_pos up] at ran
  exact absurd (ran ▸ rig.gatesDue_sublist.length_le) (Nat.not_le.mpr fewer)

omit [DecidableEq Inode] in
/-- Everything passed, for a stack that is up. -/
theorem allPassed_iff_of_up (up : rig.upOk = true) (all : rig.Completes) :
    rig.AllPassed ↔ (∀ m ∈ rig.manifests, m.discovered = true) ∧
      (∀ m ∈ validSuites rig.manifests, rig.skip m.phase = false) ∧
      ∀ run ∈ rig.runs, rig.statusOf run = .pass := by
  rw [← gatesDue_eq_declaredGates_iff]
  have ran : rig.runs.map GateRun.due = rig.gatesDue := by rw [rig.runs_map_due all, if_pos up]
  constructor
  · intro passed
    exact ⟨passed.discovered, ran.symm.trans passed.ran, passed.passed⟩
  · rintro ⟨discovered, due, passed⟩
    exact ⟨discovered, ran.trans due, passed⟩

/-- Without the stack the rig is green for no manifest at all. -/
theorem overall_eq_pass_iff_of_down (down : rig.upOk = false) :
    rig.overall = some .pass ↔ rig.AllPassed := by
  have empty : (∀ gate ∈ gatesOf rig.shownPhases,
        gate.2.status = .pass ∨ gate.2.status = .timeout) ↔ [] = rig.declaredGates := by
    rw [rig.gatesOf_shownPhases_of_down down, List.forall_mem_map, eq_comm,
      List.eq_nil_iff_forall_not_mem]
    simp [errorEntry]
  rw [rig.overall_eq_pass_iff (rig.completes_of_down down), empty]
  constructor
  · rintro ⟨discovered, none⟩
    refine ⟨discovered, ?_, ?_⟩
    · rw [rig.runs_of_down down]
      exact none
    · rw [rig.runs_of_down down]
      simp
  · intro all
    have ran := all.ran
    rw [rig.runs_of_down down] at ran
    exact ⟨all.discovered, ran⟩

/-- The exit code 0 belongs to a green ledger. -/
theorem overall_of_exitCode (zero : rig.exitCode = 0) : rig.overall = some .pass := by
  rw [exitCode] at zero
  cases ledger : rig.overall with
  | none => simp [ledger] at zero
  | some overall =>
      rw [ledger] at zero
      cases up : rig.upOk with
      | false => simp [up] at zero
      | true =>
          cases overall with
          | pass => rfl
          | blocked | fail | incomplete => simp [up] at zero

/-- For a stack that is up, green is wrong exactly when something is unnoticed. -/
theorem greenMeansPassed_iff_of_up (up : rig.upOk = true) (all : rig.Completes) :
    rig.GreenMeansPassed ↔ ¬ rig.FalseGreen := by
  have green := rig.overall_eq_pass_iff_of_up up all
  have passed := rig.allPassed_iff_of_up up all
  constructor
  · intro right wrong
    obtain ⟨_, kept, own⟩ :=
      passed.mp (right.overall.mp (green.mpr ⟨wrong.discovered, wrong.visible⟩))
    rcases wrong.unnoticed with ⟨run, member, late⟩ | ⟨m, member, left⟩ | ⟨run, member, _, other⟩
    · obtain ⟨run, member, other⟩ := rig.exists_not_passed_of_timeout member late
      exact other (own run member)
    · rw [kept m member] at left
      exact absurd left (by decide)
    · exact other (own run member)
  · intro right
    have only : rig.overall = some .pass → rig.AllPassed := by
      intro shown
      obtain ⟨discovered, visible⟩ := green.mp shown
      apply passed.mpr
      refine ⟨discovered, fun m member => ?_, fun run member => ?_⟩
      · by_contra left
        exact right ⟨up, all, discovered, visible, .inr (.inl ⟨m, member, by simpa using left⟩)⟩
      · by_contra other
        rcases visible run member with pass | late
        · exact right ⟨up, all, discovered, visible, .inr (.inr ⟨run, member, pass, other⟩)⟩
        · exact right ⟨up, all, discovered, visible, .inl ⟨run, member, late⟩⟩
    refine ⟨⟨only, fun ran => ?_⟩, fun zero => only (rig.overall_of_exitCode zero)⟩
    obtain ⟨discovered, _, own⟩ := passed.mp ran
    exact green.mpr
      ⟨discovered, fun run member => .inl (rig.visibleStatus_of_passed own member)⟩

/-- Nothing is unnoticed in a run that ended with an error: it has no ledger and did not run
everything. -/
theorem greenMeansPassed_of_not_completes (ends : ¬ rig.Completes) : rig.GreenMeansPassed := by
  have none := rig.overall_of_not_completes ends
  refine ⟨⟨fun green => ?_, fun passed => ?_⟩, fun zero => ?_⟩
  · rw [none] at green
    cases green
  · exact absurd (rig.completes_of_allPassed passed) ends
  · have green := rig.overall_of_exitCode zero
    rw [none] at green
    cases green

theorem greenMeansPassed_of_not_falseGreen (right : ¬ rig.FalseGreen) : rig.GreenMeansPassed := by
  cases up : rig.upOk with
  | true =>
      by_cases all : rig.Completes
      · exact (rig.greenMeansPassed_iff_of_up up all).mpr right
      · exact rig.greenMeansPassed_of_not_completes all
  | false =>
      have green := rig.overall_eq_pass_iff_of_down up
      exact ⟨green, fun zero => green.mp (rig.overall_of_exitCode zero)⟩

/-- The runs share neither a key nor a file for their stdout. -/
structure Separate : Prop where
  keys : ∀ one ∈ rig.runs, ∀ two ∈ rig.runs, one.key = two.key → one = two
  logs : ∀ one ∈ rig.runs, ∀ two ∈ rig.runs, rig.logOf one = rig.logOf two → one = two

/-- In particular green means passed in a run without an exit code 124, in which `--only-phase`
leaves nothing out and no two gates share phase and id or the file of their stdout. -/
theorem greenMeansPassed_of_separate (separate : rig.Separate)
    (prompt : ∀ run ∈ rig.runs, run.outcome.exitCode ≠ 124)
    (kept : ∀ m ∈ validSuites rig.manifests, rig.skip m.phase = false) : rig.GreenMeansPassed := by
  refine rig.greenMeansPassed_of_not_falseGreen fun wrong => ?_
  have own {run : GateRun} (member : run ∈ rig.runs) :
      rig.lastNamesake run = run ∧ rig.lastWriter run = run := by
    obtain ⟨namesake, inside, lastKey, sameKey⟩ := lastUnder_of_mem GateRun.key member
    obtain ⟨writer, written, lastLog, sameLog⟩ := lastUnder_of_mem rig.logOf member
    rw [lastNamesake, lastWriter, lastKey, lastLog]
    exact ⟨separate.keys _ inside _ member sameKey, separate.logs _ written _ member sameLog⟩
  have shown {run : GateRun} (member : run ∈ rig.runs) :
      rig.visibleStatus run = rig.statusOf run := by
    rw [visibleStatus, (own member).1, (own member).2, statusOf]
  rcases wrong.unnoticed with ⟨run, member, late⟩ | ⟨m, member, left⟩ | ⟨run, member, pass, other⟩
  · rw [shown member, statusOf, classifyGate_eq_timeout_iff] at late
    exact prompt run member late
  · rw [kept m member] at left
    cases left
  · exact other ((shown member).symm.trans pass)

end RigRun

end Runner

/-! ### Two runs -/

/-- The gates of the two runs. -/
private def unitGate (id : String) : Gate := ⟨id, .unit⟩

private def suiteOf (phase feature id : String) (named : phase ≠ "") : Suite where
  phase := phase
  feature := feature
  gates := [unitGate id]
  phase_ne := named
  gates_ne := List.cons_ne_nil _ _
  ids_nodup := by simp

/-- A run of all phases on a stack that is up, whose gates print an empty list as their verdict and
end with the given exit codes. -/
private def rigOf (suites : List Suite) (exitCodes : List Int) : RigRun String String where
  manifests := suites.map .valid
  onlyPhase := ""
  artifactsDir := "artifacts/p5/run"
  upOk := true
  outcomes := fun n => some ⟨exitCodes.getD n 0, 1, some "[]"⟩
  json := ⟨"null", fun text => if text = "[]" then some "[]" else none⟩
  resolve := id
  files := fun _ => none

/-- One gate, which times out. -/
private def lateRun : RigRun String String :=
  rigOf [suiteOf "p1" "p1-ran-baseline" "p1-g1" (by decide)] [124]

/-- Two features that declare the same phase and the same gate id; the first gate fails. -/
private def collidingRun : RigRun String String :=
  rigOf [suiteOf "p2" "p2a-k1" "g1" (by decide), suiteOf "p2" "p2b-k5-k6" "g1" (by decide)] [1, 0]

end RanInline.Rig
