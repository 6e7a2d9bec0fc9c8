/-
Module: RanInline.Phy.Config
Purpose: oi_p2_config_load: the checks of a configuration in their order, what an accepted
  configuration holds and what a rejected one leaves behind.
Trusted boundary: yaml-cpp and stat, as parameters
Main exports: YamlCpp, MvpConfig, ConfigStatus, ConfigError, configChecks, oiP2ConfigLoad,
  config_rejected_iff, config_accepted_iff
-/
import Mathlib.Data.List.Induction
import RanInline.Lib.Checklist
import RanInline.Phy.Pipeline

namespace RanInline.Phy

open RanInline.Lib

/-! ### The data -/

/-- What the loader uses of yaml-cpp.  `none` is an exception, but for `elements`, where it is a
node that is no sequence; inside `subscript`, it is a node that is not there. -/
structure YamlCpp (Node : Type) where
  loadFile : String → Option Node
  subscript : Node → String → Option (Option Node)
  asString : Node → Option String
  asInt : Node → Option Int
  asUint32 : Node → Option UInt32
  asBool : Node → Option Bool
  elements : Node → Option (List Node)

/-- `MvpConfig`. -/
structure MvpConfig where
  duplex : String := ""
  band : String := ""
  numerology : Int := 0
  bandwidthMhz : Int := 0
  nofUes : Int := 0
  nofLayers : Int := 0
  nofRxPorts : Int := 0
  rbStart : Int := 0
  nofPrb : Int := 0
  symbolStart : Int := 0
  nofSymbols : Int := 0
  mappingType : String := ""
  dmrsType : Int := 0
  dmrsAdditionalPositions : Int := 0
  dmrsCdmGroupsWithoutData : Int := 0
  mcsSet : List Int := []
  harqNewDataAlways : Bool := false
  harqRv : Int := -1
  uciOnPusch : String := ""
  scramblingNId : Int := -1
  scramblingRnti : UInt32 := 0
  ofhEaxc : List Int := []
  ofhCompression : String := ""
  ofhVlan : Bool := true
  oracleSrsranVectorsPath : String := ""
  oracleSionnaVectorsPath : String := ""
  devicePlatformEnv : String := ""
deriving DecidableEq, Repr

/-- `ConfigStatus`, without `OK`. -/
inductive ConfigStatus where
  | errParse
  | errSchemaMismatch
  | errFieldRejected
  | errMissingRequired
deriving DecidableEq, Repr

/-- `ConfigError`. -/
structure ConfigError where
  key : String
  got : String
  expected : String
deriving DecidableEq, Repr

/-- What a rejection returns. -/
structure ConfigRejection where
  status : ConfigStatus
  error : ConfigError
deriving DecidableEq, Repr

/-- A value that a field is compared with, by its type. -/
inductive ConfigScalar where
  | text (value : String)
  | int (value : Int)
  | bool (value : Bool)
deriving DecidableEq, Repr

/-- `to_string_any` of the value as a node. -/
def ConfigScalar.render : ConfigScalar → String
  | .text value => value
  | .int value => toString value
  | .bool value => if value then "true" else "false"

section Loader

variable {Node : Type} (yaml : YamlCpp Node) (pathExists : String → Bool)

/-- `to_string_any`. -/
def toStringAny : Option Node → String
  | none => "<absent>"
  | some n => (yaml.asString n).getD "<unparseable>"

/-- The value of a node is the expected one. -/
def readsAs (n : Node) : ConfigScalar → Bool
  | .text value => yaml.asString n = some value
  | .int value => yaml.asInt n = some value
  | .bool value => yaml.asBool n = some value

/-- The node of a section of the document, or the document itself. -/
def sectionNode (root : Node) : Option String → Option Node
  | none => some root
  | some name => (yaml.subscript root name).join

/-- `parent.key`. -/
def keyPath (parent : Option String) (key : String) : String :=
  match parent with
  | none => key
  | some name => name ++ "." ++ key

/-- A check with the key it is for. -/
abbrev ConfigCheck (Node : Type) := String × Check Node ConfigRejection MvpConfig

/-- `require_scalar`. -/
def requireScalar (status : ConfigStatus) (parent : Option String) (key : String)
    (expected : ConfigScalar) : ConfigCheck Node :=
  (keyPath parent key,
    { verdict := fun root =>
        match (sectionNode yaml root parent).bind fun parent => yaml.subscript parent key with
        | none => .escapes
        | some none =>
            .rejects ⟨status, keyPath parent key, toStringAny yaml none, expected.render⟩
        | some (some n) =>
            if readsAs yaml n expected then .passes
            else .rejects ⟨status, keyPath parent key, toStringAny yaml (some n), expected.render⟩
      update := fun _ config => config })

/-- `REQUIRE`. -/
def requireField (parent : Option String) (key : String) (expected : ConfigScalar) :
    ConfigCheck Node :=
  requireScalar yaml .errFieldRejected parent key expected

/-- A section is there. -/
def requirePresent (name : String) : ConfigCheck Node :=
  (name,
    { verdict := fun root =>
        match yaml.subscript root name with
        | none => .escapes
        | some none => .rejects ⟨.errFieldRejected, name, "<absent>", "present"⟩
        | some (some _) => .passes
      update := fun _ config => config })

/-- `mcs_set` as it is read. -/
def mcsSetOf (root : Node) : Option (List Int) :=
  ((yaml.subscript root "mcs_set").join.bind yaml.elements).bind fun items =>
    items.mapM yaml.asInt

/-- `mcs_set` is a permutation of 4, 13 and 21. -/
def mcsSetCheck : ConfigCheck Node :=
  ("mcs_set",
    { verdict := fun root =>
        match yaml.subscript root "mcs_set" with
        | none => .escapes
        | some found =>
            match found.bind yaml.elements with
            | none =>
                .rejects ⟨.errFieldRejected, "mcs_set", "<absent-or-not-a-list>",
                  "[4, 13, 21] (any order)"⟩
            | some items =>
                match items.mapM yaml.asInt with
                | none => .escapes
                | some mcsSet =>
                    if mcsSet.mergeSort (· ≤ ·) = [4, 13, 21] then .passes
                    else .rejects ⟨.errFieldRejected, "mcs_set",
                      mcsSet.foldl (fun text v => text ++ toString v ++ ",") "",
                      "4,13,21 (any order, no other values)"⟩
      update := fun root config => { config with mcsSet := (mcsSetOf yaml root).getD [] } })

/-- `scrambling.rnti`. -/
def rntiCheck : ConfigCheck Node :=
  ("scrambling.rnti",
    { verdict := fun root =>
        match (sectionNode yaml root (some "scrambling")).bind fun scr =>
            yaml.subscript scr "rnti" with
        | none => .escapes
        | some none =>
            .rejects ⟨.errFieldRejected, "scrambling.rnti", toStringAny yaml none, "0x4601"⟩
        | some (some n) =>
            match yaml.asUint32 n with
            | none => .escapes
            | some rnti =>
                if rnti = 0x4601 then .passes
                else .rejects ⟨.errFieldRejected, "scrambling.rnti", toStringAny yaml (some n),
                  "0x4601"⟩
      update := fun _ config => { config with scramblingRnti := 0x4601 } })

/-- `ofh.eaxc` is the list of a zero. -/
def eaxcCheck : ConfigCheck Node :=
  ("ofh.eaxc",
    { verdict := fun root =>
        match (sectionNode yaml root (some "ofh")).bind fun ofh => yaml.subscript ofh "eaxc" with
        | none => .escapes
        | some eaxc =>
            match eaxc.bind yaml.elements with
            | some [only] =>
                match yaml.asInt only with
                | none => .escapes
                | some v =>
                    if v = 0 then .passes
                    else .rejects ⟨.errFieldRejected, "ofh.eaxc", toStringAny yaml eaxc, "[0]"⟩
            | _ => .rejects ⟨.errFieldRejected, "ofh.eaxc", toStringAny yaml eaxc, "[0]"⟩
      update := fun _ config => config })

/-- A text under `oracle`; outside, an exception. -/
def oracleText (root : Node) (key : String) : Option (Option String) :=
  match yaml.subscript root "oracle" with
  | none => none
  | some none => some none
  | some (some oracle) =>
      match yaml.subscript oracle key with
      | none => none
      | some none => some none
      | some (some n) => (yaml.asString n).map some

/-- `oracle.sionna_vectors_path` is there and names a path that exists. -/
def sionnaCheck : ConfigCheck Node :=
  ("oracle.sionna_vectors_path",
    { verdict := fun root =>
        match oracleText yaml root "sionna_vectors_path" with
        | none => .escapes
        | some none =>
            .rejects ⟨.errMissingRequired, "oracle.sionna_vectors_path", "<absent>",
              "a path that exists on disk"⟩
        | some (some path) =>
            if pathExists path then .passes
            else .rejects ⟨.errMissingRequired, "oracle.sionna_vectors_path", path,
              "a path that exists on disk"⟩
      update := fun root config =>
        { config with oracleSionnaVectorsPath :=
            (oracleText yaml root "sionna_vectors_path").join.getD "" } })

/-- `oracle.srsran_vectors_path` is taken if it is there. -/
def srsranStep : ConfigCheck Node :=
  ("oracle.srsran_vectors_path",
    { verdict := fun root =>
        match oracleText yaml root "srsran_vectors_path" with
        | none => .escapes
        | some _ => .passes
      update := fun root config =>
        match (oracleText yaml root "srsran_vectors_path").join with
        | none => config
        | some path => { config with oracleSrsranVectorsPath := path } })

/-- `device.platform_env`, if it is there; outside, an exception. -/
def platformEnvOf (root : Node) : Option String :=
  match yaml.subscript root "device" with
  | none => none
  | some none => some "OI_CL_PLATFORM"
  | some (some device) =>
      match yaml.subscript device "platform_env" with
      | none => none
      | some none => some "OI_CL_PLATFORM"
      | some (some n) => yaml.asString n

/-- The device, and the fields that have been compared. -/
def deviceStep : ConfigCheck Node :=
  ("device.platform_env",
    { verdict := fun root =>
        match platformEnvOf yaml root with
        | none => .escapes
        | some _ => .passes
      update := fun root config =>
        { config with
          devicePlatformEnv := (platformEnvOf yaml root).getD ""
          duplex := "tdd"
          band := "n78"
          numerology := 1
          bandwidthMhz := 20
          nofUes := 1
          nofLayers := 1
          nofRxPorts := 1
          rbStart := 0
          nofPrb := 51
          symbolStart := 0
          nofSymbols := 14
          mappingType := "A"
          dmrsType := 1
          dmrsAdditionalPositions := 2
          dmrsCdmGroupsWithoutData := 2
          harqNewDataAlways := true
          harqRv := 0
          uciOnPusch := "none"
          scramblingNId := 1
          ofhEaxc := [0]
          ofhCompression := "uncompressed_16bit"
          ofhVlan := false } })

/-- The checks that can reject, in their order. -/
def rejectingChecks : List (ConfigCheck Node) :=
  [ requireScalar yaml .errSchemaMismatch none "schema" (.text "oi-p2-config/1"),
    requireField yaml none "duplex" (.text "tdd"),
    requireField yaml none "band" (.text "n78"),
    requireField yaml none "numerology" (.int 1),
    requireField yaml none "bandwidth_mhz" (.int 20),
    requireField yaml none "nof_ues" (.int 1),
    requireField yaml none "nof_layers" (.int 1),
    requireField yaml none "nof_rx_ports" (.int 1),
    requirePresent yaml "pusch_allocation",
    requireField yaml (some "pusch_allocation") "rb_start" (.int 0),
    requireField yaml (some "pusch_allocation") "nof_prb" (.int 51),
    requireField yaml (some "pusch_allocation") "symbol_start" (.int 0),
    requireField yaml (some "pusch_allocation") "nof_symbols" (.int 14),
    requireField yaml (some "pusch_allocation") "mapping_type" (.text "A"),
    requirePresent yaml "dmrs",
    requireField yaml (some "dmrs") "type" (.int 1),
    requireField yaml (some "dmrs") "additional_positions" (.int 2),
    requireField yaml (some "dmrs") "cdm_groups_without_data" (.int 2),
    mcsSetCheck yaml,
    requirePresent yaml "harq",
    requireField yaml (some "harq") "new_data_always" (.bool true),
    requireField yaml (some "harq") "rv" (.int 0),
    requireField yaml none "uci_on_pusch" (.text "none"),
    requirePresent yaml "scrambling",
    requireField yaml (some "scrambling") "n_id" (.int 1),
    rntiCheck yaml,
    requirePresent yaml "ofh",
    eaxcCheck yaml,
    requireField yaml (some "ofh") "compression" (.text "uncompressed_16bit"),
    requireField yaml (some "ofh") "vlan" (.bool false),
    sionnaCheck yaml pathExists ]

/-- All steps behind the parse. -/
def configChecks : List (ConfigCheck Node) :=
  rejectingChecks yaml pathExists ++ [srsranStep yaml, deviceStep yaml]

/-- `oi_p2_config_load`. -/
def oiP2ConfigLoad (yamlPath : String) : Outcome ConfigRejection MvpConfig :=
  match yaml.loadFile yamlPath with
  | none => .rejected ⟨.errParse, "<file>", yamlPath, "a valid YAML file"⟩ {}
  | some root => runChecklist ((configChecks yaml pathExists).map Prod.snd) root {}

end Loader

/-! ### One check -/

section Checks

variable {Node : Type} {yaml : YamlCpp Node} {pathExists : String → Bool}

/-- A rejection names the key of its check. -/
def NamesKey (entry : ConfigCheck Node) : Prop :=
  ∀ root rejection, entry.2.verdict root = .rejects rejection → rejection.error.key = entry.1

theorem requireScalar_namesKey (status : ConfigStatus) (parent : Option String) (key : String)
    (expected : ConfigScalar) : NamesKey (requireScalar yaml status parent key expected) := by
  intro root rejection rejected
  simp only [requireScalar] at rejected ⊢
  split at rejected
  · cases rejected
  · obtain rfl := Verdict.rejects.inj rejected
    rfl
  · split_ifs at rejected
    obtain rfl := Verdict.rejects.inj rejected
    rfl

theorem requirePresent_namesKey (name : String) : NamesKey (requirePresent yaml name) := by
  intro root rejection rejected
  simp only [requirePresent] at rejected ⊢
  split at rejected
  · cases rejected
  · obtain rfl := Verdict.rejects.inj rejected
    rfl
  · cases rejected

theorem mcsSetCheck_namesKey : NamesKey (mcsSetCheck yaml) := by
  intro root rejection rejected
  simp only [mcsSetCheck] at rejected ⊢
  split at rejected
  · cases rejected
  · split at rejected
    · obtain rfl := Verdict.rejects.inj rejected
      rfl
    · split at rejected
      · cases rejected
      · split_ifs at rejected
        obtain rfl := Verdict.rejects.inj rejected
        rfl

theorem rntiCheck_namesKey : NamesKey (rntiCheck yaml) := by
  intro root rejection rejected
  simp only [rntiCheck] at rejected ⊢
  split at rejected
  · cases rejected
  · obtain rfl := Verdict.rejects.inj rejected
    rfl
  · split at rejected
    · cases rejected
    · split_ifs at rejected
      obtain rfl := Verdict.rejects.inj rejected
      rfl

theorem eaxcCheck_namesKey : NamesKey (eaxcCheck yaml) := by
  intro root rejection rejected
  simp only [eaxcCheck] at rejected ⊢
  split at rejected
  · cases rejected
  · split at rejected
    · split at rejected
      · cases rejected
      · split_ifs at rejected
        obtain rfl := Verdict.rejects.inj rejected
        rfl
    · obtain rfl := Verdict.rejects.inj rejected
      rfl

theorem sionnaCheck_namesKey : NamesKey (sionnaCheck yaml pathExists) := by
  intro root rejection rejected
  simp only [sionnaCheck] at rejected ⊢
  split at rejected
  · cases rejected
  · obtain rfl := Verdict.rejects.inj rejected
    rfl
  · split_ifs at rejected
    obtain rfl := Verdict.rejects.inj rejected
    rfl

/-- Every error names the key that its check is for. -/
theorem rejectingChecks_nameKeys (yaml : YamlCpp Node) (pathExists : String → Bool) :
    ∀ entry ∈ rejectingChecks yaml pathExists, NamesKey entry := by
  simp only [rejectingChecks, requireField, List.forall_mem_cons, requireScalar_namesKey,
    requirePresent_namesKey, mcsSetCheck_namesKey, rntiCheck_namesKey, eaxcCheck_namesKey,
    sionnaCheck_namesKey, List.not_mem_nil, IsEmpty.forall_iff, implies_true, and_self]

/-- The last two steps reject nothing. -/
theorem steps_reject_nothing : ∀ entry ∈ [srsranStep yaml, deviceStep yaml],
    ∀ root rejection, entry.2.verdict root ≠ .rejects rejection := by
  intro entry member root rejection rejected
  rcases List.mem_pair.mp member with rfl | rfl
  · simp only [srsranStep] at rejected
    split at rejected <;> cases rejected
  · simp only [deviceStep] at rejected
    split at rejected <;> cases rejected

/-! ### What the checks write -/

/-- The configuration behind checks that have passed, by their keys. -/
def leftBehind (yaml : YamlCpp Node) (root : Node) (keys : List String) : MvpConfig where
  mcsSet := if "mcs_set" ∈ keys then (mcsSetOf yaml root).getD [] else []
  scramblingRnti := if "scrambling.rnti" ∈ keys then 0x4601 else 0

/-- Of the checks in front of the paths, two write something, and their keys are their own. -/
def WritesOwn (yaml : YamlCpp Node) (entry : ConfigCheck Node) : Prop :=
  (entry.1 ≠ "mcs_set" ∧ entry.1 ≠ "scrambling.rnti" ∧
      ∀ root config, entry.2.update root config = config) ∨
    entry = mcsSetCheck yaml ∨ entry = rntiCheck yaml

theorem writesOwn_of_keeps {entry : ConfigCheck Node} {key : String} (named : entry.1 = key)
    (notMcs : key ≠ "mcs_set") (notRnti : key ≠ "scrambling.rnti")
    (keeps : ∀ root config, entry.2.update root config = config) : WritesOwn yaml entry :=
  .inl ⟨named ▸ notMcs, named ▸ notRnti, keeps⟩

theorem rejectingChecks_writeOwn (yaml : YamlCpp Node) (pathExists : String → Bool) :
    ∀ entry ∈ (rejectingChecks yaml pathExists).dropLast, WritesOwn yaml entry := by
  have mcs : WritesOwn yaml (mcsSetCheck yaml) := .inr (.inl rfl)
  have rnti : WritesOwn yaml (rntiCheck yaml) := .inr (.inr rfl)
  have scalar (status : ConfigStatus) (parent : Option String) (key : String)
      (expected : ConfigScalar)
      (other : keyPath parent key ≠ "mcs_set" ∧ keyPath parent key ≠ "scrambling.rnti") :
      WritesOwn yaml (requireScalar yaml status parent key expected) :=
    writesOwn_of_keeps rfl other.1 other.2 fun _ _ => rfl
  have present (name : String) (other : name ≠ "mcs_set" ∧ name ≠ "scrambling.rnti") :
      WritesOwn yaml (requirePresent yaml name) :=
    writesOwn_of_keeps rfl other.1 other.2 fun _ _ => rfl
  have eaxc : WritesOwn yaml (eaxcCheck yaml) :=
    writesOwn_of_keeps (rfl : _ = "ofh.eaxc") (by decide) (by decide) fun _ _ => rfl
  simp only [rejectingChecks, requireField, List.dropLast_cons_cons, List.dropLast_singleton]
  repeat' refine List.forall_mem_cons.mpr ⟨?_, ?_⟩
  all_goals first
    | exact mcs
    | exact rnti
    | exact eaxc
    | exact present _ (by decide)
    | exact scalar _ _ _ _ (by decide)
    | exact List.forall_mem_nil _

theorem ite_mem_concat {α : Type} (name key : String) (keys : List String) (one two : α) :
    (if name ∈ keys ++ [key] then one else two) =
      if key = name then one else if name ∈ keys then one else two := by
  by_cases same : key = name
  · rw [if_pos same, if_pos (by simp [same])]
  · rw [if_neg same]
    by_cases listed : name ∈ keys
    · rw [if_pos listed, if_pos (List.mem_append_left _ listed)]
    · rw [if_neg listed, if_neg (by simp [listed, Ne.symm same])]

theorem leftBehind_concat (root : Node) (keys : List String) (key : String) :
    leftBehind yaml root (keys ++ [key]) =
      { leftBehind yaml root keys with
        mcsSet := if key = "mcs_set" then (mcsSetOf yaml root).getD []
          else (leftBehind yaml root keys).mcsSet
        scramblingRnti := if key = "scrambling.rnti" then 0x4601
          else (leftBehind yaml root keys).scramblingRnti } := by
  simp only [leftBehind, ite_mem_concat]

/-- What such checks leave. -/
theorem updates_eq_leftBehind (root : Node) {front : List (ConfigCheck Node)}
    (own : ∀ entry ∈ front, WritesOwn yaml entry) :
    updates (front.map Prod.snd) root {} = leftBehind yaml root (front.map Prod.fst) := by
  induction front using List.reverseRecOn with
  | nil => rfl
  | append_singleton front entry inductionHypothesis =>
      obtain ⟨earlier, last⟩ := List.forall_mem_append.mp own
      simp only [List.map_append, List.map_cons, List.map_nil]
      rw [updates_append, inductionHypothesis earlier, leftBehind_concat]
      change entry.2.update root _ = _
      rcases last entry (List.mem_singleton_self _) with ⟨notMcs, notRnti, keeps⟩ | rfl | rfl
      · rw [keeps, if_neg notMcs, if_neg notRnti]
      · rfl
      · rfl

/-! ### Rejection -/

/-- The keys of the checks, in their order. -/
def configKeys : List String :=
  ["schema", "duplex", "band", "numerology", "bandwidth_mhz", "nof_ues", "nof_layers",
    "nof_rx_ports", "pusch_allocation", "pusch_allocation.rb_start", "pusch_allocation.nof_prb",
    "pusch_allocation.symbol_start", "pusch_allocation.nof_symbols",
    "pusch_allocation.mapping_type", "dmrs", "dmrs.type", "dmrs.additional_positions",
    "dmrs.cdm_groups_without_data", "mcs_set", "harq", "harq.new_data_always", "harq.rv",
    "uci_on_pusch", "scrambling", "scrambling.n_id", "scrambling.rnti", "ofh", "ofh.eaxc",
    "ofh.compression", "ofh.vlan", "oracle.sionna_vectors_path"]

theorem rejectingChecks_keys (yaml : YamlCpp Node) (pathExists : String → Bool) :
    (rejectingChecks yaml pathExists).map Prod.fst = configKeys := rfl

/-- A check that passes has read a permutation of the three values. -/
theorem mcsSetCheck_passes {root : Node} (passes : (mcsSetCheck yaml).2.Passes root) :
    ∃ mcsSet, mcsSetOf yaml root = some mcsSet ∧ mcsSet.Perm [4, 13, 21] := by
  simp only [Check.Passes, mcsSetCheck] at passes
  split at passes
  · cases passes
  · next found subscript =>
      split at passes
      · cases passes
      · next items elements =>
          split at passes
          · cases passes
          · next mcsSet read =>
              split_ifs at passes with sorted
              refine ⟨mcsSet, ?_, ?_⟩
              · simp [mcsSetOf, subscript, elements, read]
              · rw [← sorted]
                exact (List.mergeSort_perm mcsSet _).symm

/-- The RNTI is checked behind the set of MCS. -/
theorem mcs_in_front_of_rnti {front back : List String} (split : configKeys = front ++ back)
    (early : "mcs_set" ∉ front) : "scrambling.rnti" ∉ front := by
  intro late
  have whole : front <+: configKeys := ⟨back, split.symm⟩
  have first : configKeys.take 19 <+: configKeys := List.take_prefix 19 configKeys
  rcases List.prefix_or_prefix_of_prefix whole first with short | long
  · exact absurd (short.subset late) (by decide)
  · exact early (long.subset (by decide))

/-- The configuration is left as it was exactly when the set of MCS had not passed. -/
theorem leftBehind_eq_default_iff {root : Node} {front back : List (ConfigCheck Node)}
    (split : rejectingChecks yaml pathExists = front ++ back) (rest : back ≠ [])
    (passed : ∀ earlier ∈ front, earlier.2.Passes root) :
    leftBehind yaml root (front.map Prod.fst) = {} ↔ "mcs_set" ∉ front.map Prod.fst := by
  constructor
  · intro same listed
    obtain ⟨entry, member, key⟩ := List.mem_map.mp listed
    have own : WritesOwn yaml entry := by
      refine rejectingChecks_writeOwn yaml pathExists entry ?_
      rw [split, List.dropLast_append_of_ne_nil rest]
      exact List.mem_append_left _ member
    have isMcs : entry = mcsSetCheck yaml := by
      rcases own with ⟨other, _⟩ | mcs | rnti
      · exact absurd key other
      · exact mcs
      · rw [rnti] at key
        exact absurd key (by simp [rntiCheck])
    obtain ⟨mcsSet, read, perm⟩ := mcsSetCheck_passes (isMcs ▸ passed entry member)
    have empty : mcsSet = [] := by
      have field := congrArg MvpConfig.mcsSet same
      simpa [leftBehind, listed, read] using field
    rw [empty] at perm
    exact absurd perm.length_eq (by decide)
  · intro early
    have keys : configKeys = front.map Prod.fst ++ back.map Prod.fst := by
      rw [← rejectingChecks_keys yaml pathExists, split, List.map_append]
    rw [leftBehind, if_neg early, if_neg (mcs_in_front_of_rnti keys early)]

/-- What rejects stands among the rejecting checks. -/
theorem rejecting_split {front rest : List (ConfigCheck Node)} {entry : ConfigCheck Node}
    {root : Node} {rejection : ConfigRejection}
    (split : configChecks yaml pathExists = front ++ entry :: rest)
    (rejected : entry.2.verdict root = .rejects rejection) :
    ∃ back, rejectingChecks yaml pathExists = front ++ entry :: back := by
  have outside : entry ∉ [srsranStep yaml, deviceStep yaml] := fun member =>
    steps_reject_nothing entry member root rejection rejected
  rcases List.append_eq_append_iff.mp split with ⟨between, _, steps⟩ | ⟨between, checks, steps⟩
  · exact absurd (steps ▸ List.mem_append_right between List.mem_cons_self) outside
  · cases between with
    | nil =>
        have member : entry ∈ entry :: rest := List.mem_cons_self
        rw [steps] at member
        exact absurd member outside
    | cons first back =>
        obtain ⟨rfl, _⟩ := List.cons.inj steps
        exact ⟨back, checks⟩

/-- What the checks in front of a rejection leave. -/
theorem updates_front {front back : List (ConfigCheck Node)} {entry : ConfigCheck Node}
    (split : rejectingChecks yaml pathExists = front ++ entry :: back) (root : Node) :
    updates (front.map Prod.snd) root {} = leftBehind yaml root (front.map Prod.fst) := by
  refine updates_eq_leftBehind root fun earlier member => ?_
  refine rejectingChecks_writeOwn yaml pathExists earlier ?_
  rw [split, List.dropLast_append_of_ne_nil (List.cons_ne_nil _ _)]
  exact List.mem_append_left _ member

/-- For every document and whatever yaml-cpp makes of it: a load is rejected by the parse, or by
the first check that does not pass.  The error names the key of that check, and the configuration
holds the set of MCS and the RNTI once their own checks have passed: it is left as it was exactly
when the set of MCS had not been reached or is what fails. -/
theorem config_rejected_iff (yaml : YamlCpp Node) (pathExists : String → Bool) (yamlPath : String)
    (rejection : ConfigRejection) (config : MvpConfig) :
    oiP2ConfigLoad yaml pathExists yamlPath = .rejected rejection config ↔
      (yaml.loadFile yamlPath = none ∧
        rejection = ⟨.errParse, "<file>", yamlPath, "a valid YAML file"⟩ ∧ config = {}) ∨
      ∃ root front entry back, yaml.loadFile yamlPath = some root ∧
        rejectingChecks yaml pathExists = front ++ entry :: back ∧
        (∀ earlier ∈ front, earlier.2.Passes root) ∧ entry.2.verdict root = .rejects rejection ∧
        rejection.error.key = entry.1 ∧
        config = leftBehind yaml root (front.map Prod.fst) ∧
        (config = {} ↔ "mcs_set" ∉ front.map Prod.fst) := by
  rw [oiP2ConfigLoad]
  cases loaded : yaml.loadFile yamlPath with
  | none => simp [eq_comm]
  | some root =>
      simp only [reduceCtorEq, false_and, false_or, Option.some.injEq]
      rw [runChecklist_eq_rejected_iff]
      constructor
      · rintro ⟨front', check, back', split, passed, rejected, rfl⟩
        obtain ⟨front, later, pairs, rfl, tail⟩ := List.map_eq_append_iff.mp split
        obtain ⟨entry, rest, rfl, rfl, rfl⟩ := List.map_eq_cons_iff.mp tail
        obtain ⟨back, checks⟩ := rejecting_split pairs rejected
        have passedFront : ∀ earlier ∈ front, earlier.2.Passes root := fun earlier member =>
          passed _ (List.mem_map_of_mem member)
        have names := rejectingChecks_nameKeys yaml pathExists entry
          (checks ▸ List.mem_append_right front List.mem_cons_self) root rejection rejected
        rw [updates_front checks]
        exact ⟨root, front, entry, back, rfl, checks, passedFront, rejected, names, rfl,
          leftBehind_eq_default_iff checks (List.cons_ne_nil _ _) passedFront⟩
      · rintro ⟨_, front, entry, back, rfl, checks, passed, rejected, _, rfl, _⟩
        refine ⟨front.map Prod.snd, entry.2,
          (back ++ [srsranStep yaml, deviceStep yaml]).map Prod.snd, ?_, ?_, rejected,
          (updates_front checks root).symm⟩
        · rw [configChecks, checks]
          simp only [List.map_append, List.map_cons, List.append_assoc, List.cons_append]
        · exact List.forall_mem_map.mpr passed

/-! ### Acceptance -/

/-- An accepted configuration. -/
def acceptedConfig (mcsSet : List Int) (sionna srsran platformEnv : String) : MvpConfig where
  duplex := "tdd"
  band := "n78"
  numerology := 1
  bandwidthMhz := 20
  nofUes := 1
  nofLayers := 1
  nofRxPorts := 1
  rbStart := 0
  nofPrb := 51
  symbolStart := 0
  nofSymbols := 14
  mappingType := "A"
  dmrsType := 1
  dmrsAdditionalPositions := 2
  dmrsCdmGroupsWithoutData := 2
  mcsSet := mcsSet
  harqNewDataAlways := true
  harqRv := 0
  uciOnPusch := "none"
  scramblingNId := 1
  scramblingRnti := 0x4601
  ofhEaxc := [0]
  ofhCompression := "uncompressed_16bit"
  ofhVlan := false
  oracleSrsranVectorsPath := srsran
  oracleSionnaVectorsPath := sionna
  devicePlatformEnv := platformEnv

theorem sionnaCheck_passes {root : Node} (passes : (sionnaCheck yaml pathExists).2.Passes root) :
    ∃ path, oracleText yaml root "sionna_vectors_path" = some (some path) ∧
      pathExists path = true := by
  simp only [Check.Passes, sionnaCheck] at passes
  split at passes
  · cases passes
  · cases passes
  · next path read =>
      split_ifs at passes with there
      exact ⟨path, read, there⟩

theorem srsranStep_passes_iff {root : Node} :
    (srsranStep yaml).2.Passes root ↔
      ∃ srsran, oracleText yaml root "srsran_vectors_path" = some srsran := by
  simp only [Check.Passes, srsranStep]
  cases oracleText yaml root "srsran_vectors_path" <;> simp

theorem deviceStep_passes_iff {root : Node} :
    (deviceStep yaml).2.Passes root ↔ ∃ env, platformEnvOf yaml root = some env := by
  simp only [Check.Passes, deviceStep]
  cases platformEnvOf yaml root <;> simp

/-- What all steps write. -/
theorem updates_configChecks {root : Node} {mcsSet : List Int} {sionna env : String}
    {srsran : Option String} (readMcs : mcsSetOf yaml root = some mcsSet)
    (readSionna : oracleText yaml root "sionna_vectors_path" = some (some sionna))
    (readSrsran : oracleText yaml root "srsran_vectors_path" = some srsran)
    (readEnv : platformEnvOf yaml root = some env) :
    updates ((configChecks yaml pathExists).map Prod.snd) root {} =
      acceptedConfig mcsSet sionna (srsran.getD "") env := by
  have front : updates ((rejectingChecks yaml pathExists).dropLast.map Prod.snd) root {} =
      leftBehind yaml root (configKeys.dropLast) :=
    updates_eq_leftBehind root (rejectingChecks_writeOwn yaml pathExists)
  have all : (configChecks yaml pathExists).map Prod.snd =
      (rejectingChecks yaml pathExists).dropLast.map Prod.snd ++
        [(sionnaCheck yaml pathExists).2, (srsranStep yaml).2, (deviceStep yaml).2] := rfl
  have behind : leftBehind yaml root configKeys.dropLast =
      { mcsSet := mcsSet, scramblingRnti := 0x4601 } := by
    rw [leftBehind, if_pos (by decide), if_pos (by decide), readMcs, Option.getD_some]
  rw [all, updates_append, front, behind]
  cases srsran with
  | none =>
      simp [updates, sionnaCheck, srsranStep, deviceStep, acceptedConfig, readSionna,
        readSrsran, readEnv]
  | some path =>
      simp [updates, sionnaCheck, srsranStep, deviceStep, acceptedConfig, readSionna,
        readSrsran, readEnv]

/-- The table of MCS has the values that the set is compared with. -/
theorem findMcs_isSome_iff {mcsSet : List Int} (perm : mcsSet.Perm [4, 13, 21]) (mcsIndex : Nat) :
    (findMcs mcsIndex).isSome = true ↔ mcsIndex ∈ mcsSet.map Int.toNat := by
  rw [(perm.map Int.toNat).mem_iff, findMcs, List.find?_isSome]
  simp [kMcsTable, eq_comm]

/-- For every document and whatever yaml-cpp makes of it: a load is accepted exactly when the
document passes every check and its optional entries can be read.  Then the configuration holds the
fixed values, the set of MCS in the order of the document and the paths, and its set of MCS is the
table of the pipeline: a launch that the configuration excludes is one that the table excludes. -/
theorem config_accepted_iff (yaml : YamlCpp Node) (pathExists : String → Bool) (yamlPath : String)
    (config : MvpConfig) :
    oiP2ConfigLoad yaml pathExists yamlPath = .accepted config ↔
      ∃ root mcsSet sionna srsran env, yaml.loadFile yamlPath = some root ∧
        (∀ entry ∈ rejectingChecks yaml pathExists, entry.2.Passes root) ∧
        mcsSetOf yaml root = some mcsSet ∧
        oracleText yaml root "sionna_vectors_path" = some (some sionna) ∧
        oracleText yaml root "srsran_vectors_path" = some srsran ∧
        platformEnvOf yaml root = some env ∧
        config = acceptedConfig mcsSet sionna (srsran.getD "") env ∧
        pathExists sionna = true ∧ mcsSet.Perm [4, 13, 21] ∧
        ∀ mcsIndex, (findMcs mcsIndex).isSome = true ↔
          mcsIndex ∈ config.mcsSet.map Int.toNat := by
  rw [oiP2ConfigLoad]
  cases loaded : yaml.loadFile yamlPath with
  | none => simp
  | some root =>
      rw [runChecklist_eq_accepted_iff, List.forall_mem_map, configChecks, List.forall_mem_append,
        ← configChecks]
      constructor
      · rintro ⟨⟨checks, steps⟩, rfl⟩
        obtain ⟨srsran, readSrsran⟩ := srsranStep_passes_iff.mp (steps _ List.mem_cons_self)
        obtain ⟨env, readEnv⟩ :=
          deviceStep_passes_iff.mp (steps _ (List.mem_cons_of_mem _ List.mem_cons_self))
        obtain ⟨mcsSet, readMcs, perm⟩ :=
          mcsSetCheck_passes (checks (mcsSetCheck yaml) (by simp [rejectingChecks]))
        obtain ⟨sionna, readSionna, there⟩ :=
          sionnaCheck_passes (checks (sionnaCheck yaml pathExists) (by simp [rejectingChecks]))
        rw [updates_configChecks readMcs readSionna readSrsran readEnv]
        exact ⟨root, mcsSet, sionna, srsran, env, rfl, checks, readMcs, readSionna, readSrsran,
          readEnv, rfl, there, perm, findMcs_isSome_iff perm⟩
      · rintro ⟨_, mcsSet, sionna, srsran, env, same, checks, readMcs, readSionna, readSrsran,
          readEnv, rfl, _⟩
        obtain rfl := Option.some.inj same
        refine ⟨⟨checks, ?_⟩, (updates_configChecks readMcs readSionna readSrsran readEnv).symm⟩
        intro entry member
        rcases List.mem_pair.mp member with rfl | rfl
        · exact srsranStep_passes_iff.mpr ⟨srsran, readSrsran⟩
        · exact deviceStep_passes_iff.mpr ⟨env, readEnv⟩

end Checks

end RanInline.Phy
