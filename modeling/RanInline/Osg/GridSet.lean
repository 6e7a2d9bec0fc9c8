/-
Module: RanInline.Osg.GridSet
Purpose: load_oracle_grid_set on whole lists of files: what is left in the result when a file
  in the middle is refused, and what select_symbol_payload can rely on when none is.
Trusted boundary: none
Main exports: fileVerdict, LoadedWhole, loadOracleGridFiles_cases, loaded_whole_iff
-/
import Mathlib.Data.List.Forall2
import RanInline.Osg.Readers

namespace RanInline.Osg

open RanInline.Lib

/-- What the loader makes of a file; one that cannot be opened is refused. -/
def fileVerdict (file : Option FileContent) : ReadVerdict :=
  match file with
  | none => .refused
  | some content => readVerdict ieeeCrc32 id content.bytes

/-- The loader accepts the file. -/
def FileContent.Accepted (content : FileContent) : Prop :=
  readVerdict ieeeCrc32 id content.bytes = .accepted

/-- The entries of files that were accepted. -/
def parsedEntries (contents : List FileContent) : List OracleGridEntry :=
  contents.map fun content => parsedEntry content.bytes

/-! ### The loop -/

theorem loadOracleGridFile_of_accepted {content : FileContent} (accepted : content.Accepted) :
    loadOracleGridFile (some content) = some (.ok (parsedEntry content.bytes)) := by
  have outcome := loadOracleGridFile_of_verdict content
  rwa [show readVerdict ieeeCrc32 id content.bytes = .accepted from accepted] at outcome

theorem loadOracleGridFile_of_refused {file : Option FileContent}
    (refused : fileVerdict file = .refused) :
    ∃ status, status ≠ .ok ∧ loadOracleGridFile file = some (.error status) := by
  cases file with
  | none => exact ⟨.errOpen, by decide, rfl⟩
  | some content =>
      have outcome := loadOracleGridFile_of_verdict content
      rwa [show readVerdict ieeeCrc32 id content.bytes = .refused from refused] at outcome

theorem loadOracleGridFile_of_undefined {file : Option FileContent}
    (undefined : fileVerdict file = .undefined) : loadOracleGridFile file = none := by
  cases file with
  | none => cases undefined
  | some content =>
      have outcome := loadOracleGridFile_of_verdict content
      rwa [show readVerdict ieeeCrc32 id content.bytes = .undefined from undefined] at outcome

/-- The loop gets to its end, or it stops at the first file that is not accepted, with the
entries of the files in front of it in the result. -/
theorem loadOracleGridFiles_cases (fileList : List (Option FileContent)) (out : OracleGridSet) :
    ∃ contents : List FileContent, (∀ content ∈ contents, content.Accepted) ∧
      ((fileList = contents.map some ∧
          loadOracleGridFiles fileList out =
            checkConsistency { entries := out.entries ++ parsedEntries contents }) ∨
        ∃ file rest, fileList = contents.map some ++ file :: rest ∧
          ((fileVerdict file = .refused ∧ ∃ status, status ≠ .ok ∧
              loadOracleGridFiles fileList out =
                some (status, { entries := out.entries ++ parsedEntries contents })) ∨
            (fileVerdict file = .undefined ∧ loadOracleGridFiles fileList out = none))) := by
  induction fileList generalizing out with
  | nil => exact ⟨[], by simp, .inl ⟨rfl, by simp [loadOracleGridFiles, parsedEntries]⟩⟩
  | cons file fileList inductionHypothesis =>
      cases verdict : fileVerdict file with
      | refused =>
          obtain ⟨status, bad, load⟩ := loadOracleGridFile_of_refused verdict
          refine ⟨[], by simp, .inr ⟨file, fileList, rfl, .inl ⟨verdict, status, bad, ?_⟩⟩⟩
          simp [loadOracleGridFiles, load, parsedEntries]
      | undefined =>
          have load := loadOracleGridFile_of_undefined verdict
          refine ⟨[], by simp, .inr ⟨file, fileList, rfl, .inr ⟨verdict, ?_⟩⟩⟩
          simp [loadOracleGridFiles, load]
      | accepted =>
          cases file with
          | none => cases verdict
          | some content =>
              have load := loadOracleGridFile_of_accepted verdict
              have turn : loadOracleGridFiles (some content :: fileList) out =
                  loadOracleGridFiles fileList
                    { entries := out.entries ++ [parsedEntry content.bytes] } := by
                rw [loadOracleGridFiles, load]
                rfl
              have entries : ∀ contents : List FileContent,
                  out.entries ++ [parsedEntry content.bytes] ++ parsedEntries contents =
                    out.entries ++ parsedEntries (content :: contents) := by
                simp [parsedEntries]
              obtain ⟨contents, accepted, outcome⟩ := inductionHypothesis
                { entries := out.entries ++ [parsedEntry content.bytes] }
              rw [entries] at outcome
              refine ⟨content :: contents, List.forall_mem_cons.mpr ⟨verdict, accepted⟩, ?_⟩
              rw [turn]
              rcases outcome with ⟨rfl, whole⟩ | ⟨file, rest, rfl, stopped⟩
              · exact .inl ⟨rfl, whole⟩
              · exact .inr ⟨file, rest, rfl, stopped⟩

/-! ### The slices of a set -/

/-- The grid of an accepted file has the size its dimensions give. -/
theorem FileContent.Accepted.length_gridPayload {content : FileContent}
    (accepted : content.Accepted) :
    (parsedEntry content.bytes).gridPayload.length =
      (parsedEntry content.bytes).nofSymbols.toNat *
        ((parsedEntry content.bytes).nofPrb.toNat * 12 * 4) := by
  have reaches : ReachesPayload content.bytes := by
    by_contra stopped
    have refused : readVerdict ieeeCrc32 id content.bytes = .refused :=
      readVerdict_of_not_reaches stopped
    rw [show readVerdict ieeeCrc32 id content.bytes = .accepted from accepted] at refused
    cases refused
  have noWrap : ¬ LengthsWrap content.bytes :=
    fun wraps => readVerdict_ne_accepted reaches wraps accepted
  have fits := reaches.fits
  rw [LengthsWrap] at noWrap
  rw [needBytes, Nat.mod_eq_of_lt (by omega)] at fits
  have symbols := fieldAt_lt content.bytes 10 1
  have prbs := fieldAt_lt content.bytes 8 2
  have grid : (parsedEntry content.bytes).gridPayload.length = gridLen content.bytes := by
    simp only [parsedEntry, parsedFile, List.length_take, List.length_drop]
    omega
  rw [grid, reaches.valid.consistent]
  simp only [parsedEntry, parsedFile, UInt8.toNat_ofNat', UInt16.toNat_ofNat']
  rw [Nat.mod_eq_of_lt (show fieldAt content.bytes 10 1 < 2 ^ 8 by omega),
    Nat.mod_eq_of_lt (show fieldAt content.bytes 8 2 < 2 ^ 16 by omega)]
  simp only [Nat.mul_assoc]

/-- All entries have the same dimensions, and every symbol of every slot is a slice of its
grid. -/
def SlicesInRange (grids : OracleGridSet) : Prop :=
  ∃ (nofPrb : UInt16) (nofSymbols : UInt8),
    (∀ entry ∈ grids.entries, entry.nofPrb = nofPrb ∧ entry.nofSymbols = nofSymbols) ∧
      ∀ (sfn slot slotsPerFrame : UInt32) (eaxcId : UInt8) (symbolIndex : UInt32),
        symbolIndex.toNat < nofSymbols.toNat →
        ∃ payload, selectSymbolPayload grids sfn slot slotsPerFrame eaxcId symbolIndex =
            some payload ∧ payload.length = nofPrb.toNat * 12 * 4

theorem slicesInRange_of_alike {contents : List FileContent} (nonempty : contents ≠ [])
    (accepted : ∀ content ∈ contents, content.Accepted) {nofPrb : UInt16} {nofSymbols : UInt8}
    (alike : ∀ entry ∈ parsedEntries contents,
      entry.nofPrb = nofPrb ∧ entry.nofSymbols = nofSymbols) :
    SlicesInRange { entries := parsedEntries contents } := by
  refine ⟨nofPrb, nofSymbols, alike, fun sfn slot slotsPerFrame eaxcId symbolIndex small => ?_⟩
  have count : (parsedEntries contents).length ≠ 0 := by
    rwa [parsedEntries, List.length_map, Ne, List.length_eq_zero_iff]
  have inside := Nat.mod_lt (sfn.toNat * slotsPerFrame.toNat + slot.toNat)
    (Nat.pos_of_ne_zero count)
  obtain ⟨entry, found⟩ : ∃ entry, (parsedEntries contents)[(sfn.toNat * slotsPerFrame.toNat +
      slot.toNat) % (parsedEntries contents).length]? = some entry :=
    ⟨_, List.getElem?_eq_getElem inside⟩
  have member := List.mem_of_getElem? found
  obtain ⟨prb, symbols⟩ := alike entry member
  obtain ⟨content, contentMember, rfl⟩ := List.mem_map.mp member
  have length := (accepted content contentMember).length_gridPayload
  have slice : symbolIndex.toNat * ((parsedEntry content.bytes).nofPrb.toNat * 12 * 4) +
      (parsedEntry content.bytes).nofPrb.toNat * 12 * 4 ≤
        (parsedEntry content.bytes).gridPayload.length := by
    rw [length, ← Nat.succ_mul, symbols]
    exact Nat.mul_le_mul_right _ small
  refine ⟨((parsedEntry content.bytes).gridPayload.drop
    (symbolIndex.toNat * ((parsedEntry content.bytes).nofPrb.toNat * 12 * 4))).take
      ((parsedEntry content.bytes).nofPrb.toNat * 12 * 4), ?_, ?_⟩
  · simp only [selectSymbolPayload, count, found, if_false, Option.bind_eq_bind,
      Option.bind_some, if_pos slice, Option.pure_def]
  · rw [List.length_take, List.length_drop, prb]
    rw [prb] at slice
    omega

/-! ### All or nothing -/

/-- One entry for each file in order, alike and with all slices in range. -/
structure LoadedGrids (fileList : List (Option FileContent)) (grids : OracleGridSet) : Prop where
  entries : List.Forall₂ (fun file entry => loadOracleGridFile file = some (.ok entry)) fileList
    grids.entries
  slices : SlicesInRange grids

/-- The list is loaded as a whole or not at all. -/
def LoadedWhole (fileList : List (Option FileContent)) : Prop :=
  ∃ status grids, loadOracleGridSet fileList = some (status, grids) ∧
    (status ≠ .ok → grids.entries = []) ∧ (status = .ok → LoadedGrids fileList grids)

/-- Every file of the list is accepted, and all have the same dimensions. -/
def FilesAlike (fileList : List (Option FileContent)) : Prop :=
  ∃ nofPrb nofSymbols, ∀ file ∈ fileList, ∃ content, file = some content ∧ content.Accepted ∧
    fieldAt content.bytes 8 2 = nofPrb ∧ fieldAt content.bytes 10 1 = nofSymbols

/-- The dimensions of an entry are those of the header. -/
theorem parsedEntry_dimensions_iff {first second : FileContent} :
    (parsedEntry first.bytes).nofPrb = (parsedEntry second.bytes).nofPrb ∧
        (parsedEntry first.bytes).nofSymbols = (parsedEntry second.bytes).nofSymbols ↔
      fieldAt first.bytes 8 2 = fieldAt second.bytes 8 2 ∧
        fieldAt first.bytes 10 1 = fieldAt second.bytes 10 1 := by
  have prb := fieldAt_lt first.bytes 8 2
  have otherPrb := fieldAt_lt second.bytes 8 2
  have symbols := fieldAt_lt first.bytes 10 1
  have otherSymbols := fieldAt_lt second.bytes 10 1
  simp only [parsedEntry, parsedFile]
  rw [← UInt16.toNat_inj, ← UInt8.toNat_inj, UInt16.toNat_ofNat', UInt16.toNat_ofNat',
    UInt8.toNat_ofNat', UInt8.toNat_ofNat']
  omega

/-- The check behind the loop, on the entries of accepted files. -/
theorem checkConsistency_cases (first : FileContent) (contents : List FileContent) :
    (∀ content ∈ first :: contents, fieldAt content.bytes 8 2 = fieldAt first.bytes 8 2 ∧
        fieldAt content.bytes 10 1 = fieldAt first.bytes 10 1) ∧
      checkConsistency { entries := parsedEntries (first :: contents) } =
        some (.ok, { entries := parsedEntries (first :: contents) }) ∨
    ¬ (∀ content ∈ first :: contents, fieldAt content.bytes 8 2 = fieldAt first.bytes 8 2 ∧
        fieldAt content.bytes 10 1 = fieldAt first.bytes 10 1) ∧
      checkConsistency { entries := parsedEntries (first :: contents) } =
        some (.errInconsistentIqFormatAcrossFiles,
          { entries := parsedEntries (first :: contents) }) := by
  have check : ((parsedEntries (first :: contents)).any fun e =>
      e.nofPrb ≠ (parsedEntry first.bytes).nofPrb ∨
        e.nofSymbols ≠ (parsedEntry first.bytes).nofSymbols) = true ↔
      ¬ ∀ content ∈ first :: contents, fieldAt content.bytes 8 2 = fieldAt first.bytes 8 2 ∧
        fieldAt content.bytes 10 1 = fieldAt first.bytes 10 1 := by
    rw [List.any_eq_true, not_forall]
    simp only [parsedEntries, List.mem_map, decide_eq_true_eq, exists_exists_and_eq_and]
    refine exists_congr fun content => ?_
    rw [Classical.not_imp, ← parsedEntry_dimensions_iff, not_and_or]
  have unfolded : checkConsistency { entries := parsedEntries (first :: contents) } =
      if ((parsedEntries (first :: contents)).any fun e =>
        e.nofPrb ≠ (parsedEntry first.bytes).nofPrb ∨
          e.nofSymbols ≠ (parsedEntry first.bytes).nofSymbols) = true then
        some (.errInconsistentIqFormatAcrossFiles, { entries := parsedEntries (first :: contents) })
      else some (.ok, { entries := parsedEntries (first :: contents) }) := rfl
  by_cases alike : ∀ content ∈ first :: contents,
      fieldAt content.bytes 8 2 = fieldAt first.bytes 8 2 ∧
        fieldAt content.bytes 10 1 = fieldAt first.bytes 10 1
  · exact .inl ⟨alike, unfolded.trans (if_neg fun any => check.mp any alike)⟩
  · exact .inr ⟨alike, unfolded.trans (if_pos (check.mpr alike))⟩

/-- A list with a file that is not accepted is not alike. -/
theorem not_filesAlike {fileList : List (Option FileContent)} {file : Option FileContent}
    (member : file ∈ fileList) (stopped : fileVerdict file ≠ .accepted) :
    ¬ FilesAlike fileList := by
  rintro ⟨_, _, alike⟩
  obtain ⟨content, rfl, accepted, _⟩ := alike file member
  exact stopped accepted

/-- A list that starts with an accepted file does not start with a refused one. -/
theorem head_not_refused {first : FileContent} (accepted : first.Accepted)
    (rest : List (Option FileContent)) :
    (some first :: rest).head?.map fileVerdict ≠ some .refused := by
  intro refused
  have verdict : some (readVerdict ieeeCrc32 id first.bytes) = some .refused := refused
  rw [show readVerdict ieeeCrc32 id first.bytes = .accepted from accepted] at verdict
  cases verdict

/-- Accepted files, all read to the end. -/
theorem loadedWhole_of_contents {first : FileContent} {contents : List FileContent}
    (accepted : ∀ content ∈ first :: contents, content.Accepted)
    (load : loadOracleGridSet ((first :: contents).map some) =
      checkConsistency { entries := parsedEntries (first :: contents) }) :
    LoadedWhole ((first :: contents).map some) ↔ FilesAlike ((first :: contents).map some) := by
  rw [LoadedWhole, load]
  rcases checkConsistency_cases first contents with ⟨alike, check⟩ | ⟨different, check⟩
  · rw [check]
    refine iff_of_true ⟨_, _, rfl, fun bad => absurd rfl bad, fun _ => ⟨?_, ?_⟩⟩ ?_
    · rw [parsedEntries, List.forall₂_map_left_iff, List.forall₂_map_right_iff, List.forall₂_same]
      exact fun content member => loadOracleGridFile_of_accepted (accepted content member)
    · have dimensions : ∀ entry ∈ parsedEntries (first :: contents),
          entry.nofPrb = (parsedEntry first.bytes).nofPrb ∧
            entry.nofSymbols = (parsedEntry first.bytes).nofSymbols := by
        intro entry member
        obtain ⟨content, contentMember, rfl⟩ := List.mem_map.mp member
        exact parsedEntry_dimensions_iff.mpr (alike content contentMember)
      exact slicesInRange_of_alike (List.cons_ne_nil _ _) accepted dimensions
    · refine ⟨fieldAt first.bytes 8 2, fieldAt first.bytes 10 1, fun file member => ?_⟩
      obtain ⟨content, contentMember, rfl⟩ := List.mem_map.mp member
      exact ⟨content, rfl, accepted content contentMember, alike content contentMember⟩
  · rw [check]
    refine iff_of_false ?_ ?_
    · rintro ⟨status, grids, result, empty, _⟩
      obtain ⟨rfl, rfl⟩ := Prod.mk.inj (Option.some.inj result)
      cases empty (by decide)
    · rintro ⟨nofPrb, nofSymbols, alike⟩
      refine different fun content member => ?_
      obtain ⟨_, same, _, prb, symbols⟩ := alike _ (List.mem_map_of_mem member)
      obtain ⟨_, sameFirst, _, firstPrb, firstSymbols⟩ :=
        alike _ (List.mem_map_of_mem List.mem_cons_self)
      cases same
      cases sameFirst
      exact ⟨prb.trans firstPrb.symm, symbols.trans firstSymbols.symm⟩

/-- A list is loaded as a whole or not at all if and only if it is empty, or its first file is
refused, or all its files are accepted and have the same dimensions. -/
theorem loaded_whole_iff (fileList : List (Option FileContent)) :
    LoadedWhole fileList ↔
      fileList = [] ∨ fileList.head?.map fileVerdict = some .refused ∨ FilesAlike fileList := by
  by_cases empty : fileList = []
  · subst empty
    refine iff_of_true ⟨.errEmptyFileList, { entries := [] }, rfl, fun _ => rfl, ?_⟩ (.inl rfl)
    exact fun ok => absurd ok (by decide)
  have entered : loadOracleGridSet fileList = loadOracleGridFiles fileList { entries := [] } :=
    if_neg empty
  rw [or_iff_right empty]
  obtain ⟨contents, accepted, outcome⟩ := loadOracleGridFiles_cases fileList { entries := [] }
  simp only [List.nil_append, ← entered] at outcome
  rcases outcome with ⟨rfl, load⟩ | ⟨file, rest, rfl, stopped⟩
  · cases contents with
    | nil => exact absurd rfl empty
    | cons first contents =>
        rw [loadedWhole_of_contents accepted load]
        exact (or_iff_right (head_not_refused (accepted first List.mem_cons_self) _)).symm
  · have notAlike : ¬ FilesAlike (contents.map some ++ file :: rest) := by
      refine not_filesAlike (List.mem_append_right _ List.mem_cons_self) ?_
      rcases stopped with ⟨refused, _⟩ | ⟨undefined, _⟩
      · rw [refused]
        decide
      · rw [undefined]
        decide
    rw [or_iff_left notAlike, LoadedWhole]
    rcases stopped with ⟨refused, status, bad, load⟩ | ⟨undefined, load⟩
    · rw [load]
      cases contents with
      | nil =>
          refine iff_of_true ⟨status, _, rfl, fun _ => rfl, fun ok => absurd ok bad⟩ ?_
          exact congrArg some refused
      | cons first contents =>
          refine iff_of_false ?_ (head_not_refused (accepted first List.mem_cons_self) _)
          rintro ⟨_, grids, result, nothing, _⟩
          obtain ⟨rfl, rfl⟩ := Prod.mk.inj (Option.some.inj result)
          cases nothing bad
    · rw [load]
      refine iff_of_false (by simp) ?_
      cases contents with
      | nil =>
          intro refused
          have verdict : some (fileVerdict file) = some .refused := refused
          rw [undefined] at verdict
          cases verdict
      | cons first contents => exact head_not_refused (accepted first List.mem_cons_self) _

/-- A file with an empty grid and an empty block. -/
private def emptyGridFile : FileContent where
  bytes := osgMagic ++ [1, 0, 0, 1, 24, 0, 0, 1, 2, 0, 0, 0] ++ List.replicate 8 0 ++
    [1, 0, 0, 0] ++ List.replicate 20 0 ++ [0x23, 0x32, 0x1C, 0xDF]
  size_lt := by decide

/-- The second file cannot be opened, and the entry of the first one stays in the result. -/
theorem not_loaded_whole_second_file_missing :
    ¬ ∀ fileList : List (Option FileContent), LoadedWhole fileList := by
  intro claim
  obtain ⟨status, grids, result, empty, _⟩ := claim [some emptyGridFile, none]
  have accepted : emptyGridFile.Accepted := by
    rw [FileContent.Accepted]
    decide +kernel
  have load : loadOracleGridSet [some emptyGridFile, none] =
      some (.errOpen, { entries := [parsedEntry emptyGridFile.bytes] }) := by
    rw [loadOracleGridSet, if_neg (List.cons_ne_nil _ _), loadOracleGridFiles,
      loadOracleGridFile_of_accepted accepted]
    rfl
  rw [load] at result
  obtain ⟨rfl, rfl⟩ := Prod.mk.inj (Option.some.inj result)
  cases empty (by decide)

end RanInline.Osg
