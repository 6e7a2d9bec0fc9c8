/-
Module: RanInline.Rig.Ledger
Purpose: ledger_build.py: the verdict line of a gate, the classification of its result and the
  overall status of a ledger.
Trusted boundary: none
Main exports: GateStatus, Overall, lastJsonLine, classifyGate, PhaseEntry, computeOverall,
  computeOverall_eq_pass_iff
-/
import Mathlib.Data.Rat.Defs

namespace RanInline.Rig

/-! ### The verdict of a gate -/

/-- `str.isspace` of a character. -/
def isSpace (c : Char) : Bool :=
  let n := c.toNat
  (9 ≤ n ∧ n ≤ 13) ∨ (28 ≤ n ∧ n ≤ 32) ∨ n = 0x85 ∨ n = 0xa0 ∨ n = 0x1680 ∨
    (0x2000 ≤ n ∧ n ≤ 0x200a) ∨ n = 0x2028 ∨ n = 0x2029 ∨ n = 0x202f ∨ n = 0x205f ∨ n = 0x3000

/-- `str.strip`. -/
def strip (text : List Char) : List Char :=
  ((text.dropWhile isSpace).reverse.dropWhile isSpace).reverse

/-- The pieces of a text between separators, stripped, without the empty ones. -/
def strippedPieces (separator : Char → Bool) (text : String) : List String :=
  ((text.toList.splitOnP separator).map strip).filterMap fun piece =>
    if piece = [] then none else some (String.ofList piece)

/-- The module `json` of the language: its `None` and `json.loads`, which fails on a text that is
no JSON document. -/
structure JsonModule (Json : Type) where
  none : Json
  loads : String → Option Json

/-- `last_json_line` of the text of a file, or of a file that is not there: the value of the last
line that is not empty, and whether there is one. -/
def lastJsonLine {Json : Type} (json : JsonModule Json) (file : Option String) : Json × Bool :=
  match file with
  | none => (json.none, false)
  | some text =>
      match (strippedPieces (fun c => c = '\n' ∨ c = '\r') text).getLast? with
      | none => (json.none, false)
      | some line =>
          match json.loads line with
          | some verdict => (verdict, true)
          | none => (json.none, false)

/-! ### Classification -/

/-- The status of a gate. -/
inductive GateStatus where
  | pass
  | fail
  | error
  | blocked
  | timeout
deriving DecidableEq, Repr

/-- `classify_gate`. -/
def classifyGate (exitCode : Int) (timedOut verdictValid : Bool) : GateStatus :=
  if timedOut then .timeout
  else if !verdictValid then .error
  else if exitCode = 0 then .pass
  else if exitCode = 1 then .fail
  else if exitCode = 3 then .blocked
  else .error

/-! ### The ledger -/

/-- The type of a gate. -/
inductive GateType where
  | unit
  | integration
deriving DecidableEq, Repr

/-- A gate of a phase in the ledger.  Without an exit code the gate was not run. -/
structure GateEntry (Json : Type) where
  id : String
  type : GateType
  status : GateStatus
  exitCode : Option Int
  durationS : Rat
  verdict : Json
  artifacts : String

/-- A phase of the ledger. -/
structure PhaseEntry (Json : Type) where
  phase : String
  feature : String
  discovered : Bool
  validationError : Option String
  gates : List (GateEntry Json)
  skipped : Bool

/-- The field `overall` of a ledger. -/
inductive Overall where
  | blocked
  | fail
  | incomplete
  | pass
deriving DecidableEq, Repr

/-- `compute_overall`. -/
def computeOverall {Json : Type} (phases : List (PhaseEntry Json)) : Overall :=
  let allStatuses := phases.flatMap fun p => p.gates.map (·.status)
  if .blocked ∈ allStatuses then .blocked
  else if .fail ∈ allStatuses ∨ .error ∈ allStatuses then .fail
  else if phases.any (!·.discovered) then .incomplete
  else .pass

/-- Green asks for less than rule 4: besides `PASS` it lets a gate be `TIMEOUT`. -/
theorem computeOverall_eq_pass_iff {Json : Type} (phases : List (PhaseEntry Json)) :
    computeOverall phases = .pass ↔
      ∀ p ∈ phases, p.discovered = true ∧
        ∀ gate ∈ p.gates, gate.status = .pass ∨ gate.status = .timeout := by
  have statuses (status : GateStatus) :
      status ∈ (phases.flatMap fun p => p.gates.map (·.status)) ↔
        ∃ p ∈ phases, ∃ gate ∈ p.gates, gate.status = status := by
    simp only [List.mem_flatMap, List.mem_map]
  unfold computeOverall
  simp only [statuses]
  constructor
  · intro green p member
    split_ifs at green with blocked failed undiscovered
    refine ⟨?_, fun gate inside => ?_⟩
    · by_contra missing
      exact undiscovered (List.any_eq_true.mpr ⟨p, member, by simpa using missing⟩)
    · cases status : gate.status with
      | pass => exact .inl rfl
      | timeout => exact .inr rfl
      | blocked => exact absurd ⟨p, member, gate, inside, status⟩ blocked
      | fail => exact absurd (.inl ⟨p, member, gate, inside, status⟩) failed
      | error => exact absurd (.inr ⟨p, member, gate, inside, status⟩) failed
  · intro all
    rw [if_neg, if_neg, if_neg]
    · rw [List.any_eq_true]
      rintro ⟨p, member, missing⟩
      simp [(all p member).1] at missing
    · rintro (⟨p, member, gate, inside, status⟩ | ⟨p, member, gate, inside, status⟩)
      · simpa [status] using (all p member).2 gate inside
      · simpa [status] using (all p member).2 gate inside
    · rintro ⟨p, member, gate, inside, status⟩
      simpa [status] using (all p member).2 gate inside

end RanInline.Rig
