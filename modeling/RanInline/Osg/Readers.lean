/-
Module: RanInline.Osg.Readers
Purpose: The two readers of oracle slot grid files on arbitrary contents: when they stay inside
  the file and accept exactly the format, and when they agree.
Trusted boundary: none
Main exports: ExactOsg, ReachesPayload, ReadersExact, readers_exact_iff, ReadersAgree,
  readers_agree_iff
-/
import RanInline.Osg.OracleGrid

namespace RanInline.Osg

open RanInline.Lib

/-! ### The format -/

/-- A valid header of 48 bytes, the grid and the transport block it announces, the CRC-32 of
all that, and nothing behind it. -/
def ExactOsg (buf : List UInt8) : Prop :=
  ∃ header grid tb : List UInt8,
    buf = header ++ grid ++ tb ++ fieldBytes 4 (ieeeCrc32 (header ++ grid ++ tb)).toNat ∧
      header.length = kFixedHeaderBytes ∧ HeaderValid header ∧ grid.length = gridLen header ∧
      tb.length = tbLen header

section Format

variable {buf : List UInt8}

theorem gridLen_append {header : List UInt8} (length : header.length = kFixedHeaderBytes)
    (rest : List UInt8) : gridLen (header ++ rest) = gridLen header :=
  fieldAt_append_left (by rw [length, kFixedHeaderBytes])

theorem tbLen_append {header : List UInt8} (length : header.length = kFixedHeaderBytes)
    (rest : List UInt8) : tbLen (header ++ rest) = tbLen header :=
  fieldAt_append_left (by rw [length, kFixedHeaderBytes]; decide)

/-- Only the fixed header decides whether a file has a valid one. -/
theorem headerValid_append_iff {header : List UInt8} (length : header.length = kFixedHeaderBytes)
    (rest : List UInt8) : HeaderValid (header ++ rest) ↔ HeaderValid header := by
  have field : ∀ offset width, offset + width ≤ 48 →
      fieldAt (header ++ rest) offset width = fieldAt header offset width :=
    fun offset width inside =>
      fieldAt_append_left (by rw [length, kFixedHeaderBytes]; exact inside)
  have magic : (header ++ rest).take 4 = header.take 4 :=
    List.take_append_of_le_length (by rw [length]; decide)
  constructor
  · rintro ⟨letters, version, iqFormat, consistent⟩
    rw [gridLen_append length, field 10 1 (by decide), field 8 2 (by decide)] at consistent
    exact ⟨magic ▸ letters, field 4 2 (by decide) ▸ version, field 6 1 (by decide) ▸ iqFormat,
      consistent⟩
  · rintro ⟨letters, version, iqFormat, consistent⟩
    refine ⟨magic.trans letters, (field 4 2 (by decide)).trans version,
      (field 6 1 (by decide)).trans iqFormat, ?_⟩
    rw [gridLen_append length, field 10 1 (by decide), field 8 2 (by decide), consistent]

/-- The format in terms of the fields of the file. -/
theorem exactOsg_iff :
    ExactOsg buf ↔ HeaderValid buf ∧
      buf.length = kFixedHeaderBytes + gridLen buf + tbLen buf + kTrailerBytes ∧
      fieldAt buf (kFixedHeaderBytes + gridLen buf + tbLen buf) kTrailerBytes =
        (ieeeCrc32 (buf.take (kFixedHeaderBytes + gridLen buf + tbLen buf))).toNat := by
  constructor
  · rintro ⟨header, grid, tb, file, length, valid, gridLength, tbLength⟩
    obtain ⟨trailer, checksum⟩ : ∃ trailer,
        trailer = (ieeeCrc32 (header ++ grid ++ tb)).toNat := ⟨_, rfl⟩
    have body : (header ++ grid ++ tb).length =
        kFixedHeaderBytes + gridLen header + tbLen header := by
      rw [List.length_append, List.length_append, length, gridLength, tbLength]
    have behind : buf = header ++ (grid ++ (tb ++ fieldBytes 4 trailer)) := by
      rw [file, checksum, List.append_assoc, List.append_assoc]
    have gridEq : gridLen buf = gridLen header := by rw [behind, gridLen_append length]
    have tbEq : tbLen buf = tbLen header := by rw [behind, tbLen_append length]
    rw [gridEq, tbEq, ← body]
    refine ⟨?_, ?_, ?_⟩
    · rwa [behind, headerValid_append_iff length]
    · rw [file, List.length_append, length_fieldBytes, kTrailerBytes]
    · rw [file, kTrailerBytes, fieldAt_append_fieldBytes, List.take_left]
      exact Nat.mod_eq_of_lt (UInt32.toNat_lt _)
  · rintro ⟨valid, length, stored⟩
    have header : (buf.take kFixedHeaderBytes).length = kFixedHeaderBytes := by
      rw [List.length_take]
      omega
    have whole := List.take_append_drop kFixedHeaderBytes buf
    have gridEq : gridLen (buf.take kFixedHeaderBytes) = gridLen buf := by
      rw [← gridLen_append header (buf.drop kFixedHeaderBytes), whole]
    have tbEq : tbLen (buf.take kFixedHeaderBytes) = tbLen buf := by
      rw [← tbLen_append header (buf.drop kFixedHeaderBytes), whole]
    have body : buf.take kFixedHeaderBytes ++ (buf.drop kFixedHeaderBytes).take (gridLen buf) ++
        (buf.drop (kFixedHeaderBytes + gridLen buf)).take (tbLen buf) =
          buf.take (kFixedHeaderBytes + gridLen buf + tbLen buf) := by
      rw [← List.take_add, ← List.take_add]
    refine ⟨buf.take kFixedHeaderBytes, (buf.drop kFixedHeaderBytes).take (gridLen buf),
      (buf.drop (kFixedHeaderBytes + gridLen buf)).take (tbLen buf), ?_, header, ?_, ?_, ?_⟩
    · have trailer : (buf.drop (kFixedHeaderBytes + gridLen buf + tbLen buf)).length = 4 := by
        rw [List.length_drop, length, kTrailerBytes]
        omega
      have bytes := fieldBytes_bytesValue (buf.drop (kFixedHeaderBytes + gridLen buf + tbLen buf))
      rw [fieldAt, kTrailerBytes, List.take_of_length_le trailer.le] at stored
      rw [trailer, stored] at bytes
      rw [body, bytes, List.take_append_drop]
    · rwa [← headerValid_append_iff header (buf.drop kFixedHeaderBytes), whole]
    · rw [gridEq, List.length_take, List.length_drop]
      omega
    · rw [tbEq, List.length_take, List.length_drop]
      omega

end Format

/-! ### Both readers on one file -/

/-- The checks in front of the checksum pass. -/
structure ReachesPayload (buf : List UInt8) : Prop where
  long : kFixedHeaderBytes + kTrailerBytes ≤ buf.length
  valid : HeaderValid buf
  fits : needBytes buf ≤ buf.length

/-- The lengths in the header add up to more than 64 bits hold. -/
def LengthsWrap (buf : List UInt8) : Prop :=
  2 ^ 64 ≤ kFixedHeaderBytes + gridLen buf + tbLen buf + kTrailerBytes

instance (buf : List UInt8) : Decidable (LengthsWrap buf) :=
  inferInstanceAs (Decidable (_ ≤ _))

/-- A file whose lengths wrap is still turned down: its trailer is in the file and both
checksums fail. -/
structure WrapDetected (buf : List UInt8) : Prop where
  inside : kTrailerBytes ≤ needBytes buf
  loader : ¬ CrcMatches buf ieeeCrc32 (crcOffset buf)
  reader : ¬ CrcMatches buf ieeeCrc32 (crcOffset buf % 2 ^ 32)

section Verdict

variable {buf : List UInt8} {crc32 : List UInt8 → UInt32} {covered : Nat → Nat}

theorem readVerdict_of_not_reaches (stopped : ¬ ReachesPayload buf) :
    readVerdict crc32 covered buf = .refused := by
  refine if_pos ?_
  by_contra passes
  rw [not_or, not_or, not_not] at passes
  exact stopped ⟨Nat.le_of_not_lt passes.1, passes.2.1, Nat.le_of_not_lt passes.2.2⟩

theorem readVerdict_of_reaches (reaches : ReachesPayload buf) :
    readVerdict crc32 covered buf =
      if needBytes buf < kTrailerBytes then .undefined
      else if ¬ CrcMatches buf crc32 (covered (crcOffset buf)) then .refused
      else if LengthsWrap buf then .undefined
      else .accepted := by
  have passes : ¬ (buf.length < kFixedHeaderBytes + kTrailerBytes ∨ ¬ HeaderValid buf ∨
      buf.length < needBytes buf) := by
    rintro (short | invalid | truncated)
    · exact absurd reaches.long (Nat.not_le.mpr short)
    · exact invalid reaches.valid
    · exact absurd reaches.fits (Nat.not_le.mpr truncated)
  rw [readVerdict, if_neg passes]
  refine ite_congr rfl (fun _ => rfl) fun inside => ?_
  refine ite_congr rfl (fun _ => rfl) fun _ => ?_
  refine ite_congr (propext ?_) (fun _ => rfl) (fun _ => rfl)
  -- the offset of the trailer falls behind the grid exactly when the sum wraps
  have small := reaches.valid.gridLen_le
  have block : tbLen buf < 256 ^ 8 := fieldAt_lt buf 16 8
  rw [needBytes, kTrailerBytes, kFixedHeaderBytes] at inside
  rw [crcOffset, LengthsWrap, kTrailerBytes, kFixedHeaderBytes]
  omega

theorem readVerdict_returns_iff (reaches : ReachesPayload buf) :
    readVerdict crc32 covered buf ≠ .undefined ↔ kTrailerBytes ≤ needBytes buf ∧
      (CrcMatches buf crc32 (covered (crcOffset buf)) → ¬ LengthsWrap buf) := by
  rw [readVerdict_of_reaches reaches]
  split_ifs with behind _ _ <;> simp_all

theorem trailer_inside (noWrap : ¬ LengthsWrap buf) : kTrailerBytes ≤ needBytes buf := by
  rw [LengthsWrap] at noWrap
  rw [needBytes]
  omega

/-- No file whose lengths wrap is accepted. -/
theorem readVerdict_ne_accepted (reaches : ReachesPayload buf) (wraps : LengthsWrap buf) :
    readVerdict crc32 covered buf ≠ .accepted := by
  rw [readVerdict_of_reaches reaches]
  split_ifs <;> simp

/-- Without a wrap the checksum decides. -/
theorem readVerdict_accepted_iff (reaches : ReachesPayload buf) (noWrap : ¬ LengthsWrap buf) :
    readVerdict crc32 covered buf = .accepted ↔
      CrcMatches buf crc32 (covered (crcOffset buf)) := by
  rw [readVerdict_of_reaches reaches, if_neg (Nat.not_lt.mpr (trailer_inside noWrap))]
  split_ifs with mismatch
  · simpa using mismatch
  · simpa using mismatch

/-- Both readers return exactly when a wrap is detected. -/
theorem readVerdicts_return_iff (reaches : ReachesPayload buf) :
    (readVerdict ieeeCrc32 (· % 2 ^ 32) buf ≠ .undefined ∧
        readVerdict ieeeCrc32 id buf ≠ .undefined) ↔
      (LengthsWrap buf → WrapDetected buf) := by
  rw [readVerdict_returns_iff reaches, readVerdict_returns_iff reaches, id_eq]
  constructor
  · rintro ⟨⟨inside, reader⟩, ⟨_, loader⟩⟩ wraps
    exact ⟨inside, fun same => loader same wraps, fun same => reader same wraps⟩
  · intro detected
    by_cases wraps : LengthsWrap buf
    · obtain ⟨inside, loader, reader⟩ := detected wraps
      exact ⟨⟨inside, fun same => absurd same reader⟩, ⟨inside, fun same => absurd same loader⟩⟩
    · have inside := trailer_inside wraps
      exact ⟨⟨inside, fun _ => wraps⟩, ⟨inside, fun _ => wraps⟩⟩

/-- A file in the format passes the checks, and its lengths do not wrap. -/
theorem reaches_of_exact {content : FileContent} (exact : ExactOsg content.bytes) :
    ReachesPayload content.bytes ∧ ¬ LengthsWrap content.bytes := by
  obtain ⟨valid, length, _⟩ := exactOsg_iff.mp exact
  have size := content.size_lt
  rw [LengthsWrap]
  refine ⟨⟨by omega, valid, ?_⟩, by omega⟩
  rw [needBytes]
  omega

/-- What the format asks of a file that passes the checks. -/
theorem exactOsg_iff_of_reaches (reaches : ReachesPayload buf) (noWrap : ¬ LengthsWrap buf) :
    ExactOsg buf ↔ buf.length = kFixedHeaderBytes + gridLen buf + tbLen buf + kTrailerBytes ∧
      CrcMatches buf ieeeCrc32 (crcOffset buf) := by
  have offset : crcOffset buf = kFixedHeaderBytes + gridLen buf + tbLen buf := by
    rw [LengthsWrap] at noWrap
    exact Nat.mod_eq_of_lt (by omega)
  rw [exactOsg_iff, CrcMatches, offset]
  exact and_iff_right reaches.valid

/-- `osg_read` returns and accepts as its verdict says. -/
theorem osgRead_iff_verdict (crc32 : List UInt8 → UInt32) (content : FileContent) (out : OsgFile) :
    (osgRead crc32 (some content) out ≠ none ↔
        readVerdict crc32 (· % 2 ^ 32) content.bytes ≠ .undefined) ∧
      ((∃ f, osgRead crc32 (some content) out = some (.ok, f)) ↔
        readVerdict crc32 (· % 2 ^ 32) content.bytes = .accepted) := by
  have outcome := osgRead_of_verdict crc32 content out
  cases verdict : readVerdict crc32 (· % 2 ^ 32) content.bytes with
  | refused =>
      rw [verdict] at outcome
      obtain ⟨status, bad, read⟩ := outcome
      simp [read, bad]
  | undefined =>
      rw [verdict] at outcome
      simp [outcome]
  | accepted =>
      rw [verdict] at outcome
      simp [outcome]

/-- The loader returns and accepts as its verdict says. -/
theorem loadOracleGridFile_iff_verdict (content : FileContent) :
    (loadOracleGridFile (some content) ≠ none ↔
        readVerdict ieeeCrc32 id content.bytes ≠ .undefined) ∧
      ((∃ entry, loadOracleGridFile (some content) = some (.ok entry)) ↔
        readVerdict ieeeCrc32 id content.bytes = .accepted) := by
  have outcome := loadOracleGridFile_of_verdict content
  cases verdict : readVerdict ieeeCrc32 id content.bytes with
  | refused =>
      rw [verdict] at outcome
      obtain ⟨status, _, read⟩ := outcome
      simp [read]
  | undefined =>
      rw [verdict] at outcome
      simp [outcome]
  | accepted =>
      rw [verdict] at outcome
      simp [outcome]

end Verdict

/-- Both readers stay inside the file, and accept it exactly when it has the format. -/
@[mk_iff]
structure ReadersExact (content : FileContent) (out : OsgFile) : Prop where
  readReturns : osgRead ieeeCrc32 (some content) out ≠ none
  loadReturns : loadOracleGridFile (some content) ≠ none
  readAccepts : (∃ f, osgRead ieeeCrc32 (some content) out = some (.ok, f)) ↔
    ExactOsg content.bytes
  loadAccepts : (∃ entry, loadOracleGridFile (some content) = some (.ok entry)) ↔
    ExactOsg content.bytes

/-- A file whose lengths do not wrap, with nothing behind a trailer that matches, for which
the low 32 bits of the length give the same outcome as the length. -/
structure EndsExactly (buf : List UInt8) : Prop where
  nothingBehind : CrcMatches buf ieeeCrc32 (crcOffset buf) →
    buf.length = kFixedHeaderBytes + gridLen buf + tbLen buf + kTrailerBytes
  sameChecksum : CrcMatches buf ieeeCrc32 (crcOffset buf % 2 ^ 32) ↔
    CrcMatches buf ieeeCrc32 (crcOffset buf)

/-- The readers are exact on a file if and only if, once its checks in front of the checksum
pass, its lengths do not wrap and it ends where they say, or they wrap and that is detected. -/
theorem readers_exact_iff (content : FileContent) (out : OsgFile) :
    ReadersExact content out ↔
      (ReachesPayload content.bytes →
        (LengthsWrap content.bytes ∧ WrapDetected content.bytes) ∨
          (¬ LengthsWrap content.bytes ∧ EndsExactly content.bytes)) := by
  obtain ⟨readReturns, readAccepts⟩ := osgRead_iff_verdict ieeeCrc32 content out
  obtain ⟨loadReturns, loadAccepts⟩ := loadOracleGridFile_iff_verdict content
  rw [readersExact_iff, readReturns, readAccepts, loadReturns, loadAccepts, ← and_assoc]
  by_cases reaches : ReachesPayload content.bytes
  · rw [readVerdicts_return_iff reaches]
    by_cases wraps : LengthsWrap content.bytes
    · have notExact : ¬ ExactOsg content.bytes := fun exact => (reaches_of_exact exact).2 wraps
      have neither : ∀ covered, readVerdict ieeeCrc32 covered content.bytes ≠ .accepted :=
        fun _ => readVerdict_ne_accepted reaches wraps
      simp [reaches, wraps, notExact, neither]
    · rw [readVerdict_accepted_iff reaches wraps, readVerdict_accepted_iff reaches wraps, id_eq,
        exactOsg_iff_of_reaches reaches wraps]
      constructor
      · rintro ⟨_, reader, loader⟩ _
        exact .inr ⟨wraps, fun same => (loader.mp same).1, reader.trans loader.symm⟩
      · intro safe
        rcases safe reaches with ⟨wrapped, _⟩ | ⟨_, nothingBehind, sameChecksum⟩
        · exact absurd wrapped wraps
        · have loader : CrcMatches content.bytes ieeeCrc32 (crcOffset content.bytes) ↔ _ :=
            ⟨fun same => ⟨nothingBehind same, same⟩, And.right⟩
          exact ⟨fun wrapped => absurd wrapped wraps, sameChecksum.trans loader, loader⟩
  · rw [readVerdict_of_not_reaches reaches, readVerdict_of_not_reaches reaches]
    have notExact : ¬ ExactOsg content.bytes := fun exact => reaches (reaches_of_exact exact).1
    simp [reaches, notExact]

/-- A header with no symbols. -/
private def emptyGridHeader (eaxcId tbLenBytes : List UInt8) : List UInt8 :=
  osgMagic ++ [1, 0, 0, 1, 51, 0, 0, 1] ++ eaxcId ++ [0, 0] ++ tbLenBytes ++ [1, 0, 0, 0] ++
    List.replicate 20 0

/-- A file of 52 bytes that announces a block of 2^64 - 52 bytes. -/
private def wrappedFile : FileContent where
  bytes := emptyGridHeader [0, 0] [0xCC, 0xFF, 0xFF, 0xFF, 0xFF, 0xFF, 0xFF, 0xFF] ++ [0, 0, 0, 0]
  size_lt := by decide

/-- The sum of its lengths is zero, and the readers look for the checksum behind the end of the
buffer. -/
theorem readers_not_exact_wrapped_length :
    ¬ ∀ (content : FileContent) (out : OsgFile), ReadersExact content out := by
  intro claim
  have returns := (claim wrappedFile (parsedFile [])).readReturns
  exact returns rfl

/-! ### The readers against each other -/

/-- The fields that both readers hold are the same numbers. -/
structure SameFields (f : OsgFile) (entry : OracleGridEntry) : Prop where
  nofPrb : entry.nofPrb = f.nofPrb
  nofSymbols : entry.nofSymbols = f.nofSymbolsPerSlot
  eaxcId : entry.eaxcId.toNat = f.eaxcId.toNat
  tbLenBytes : entry.tbLenBytes = f.tbLenBytes
  tbCrcOk : entry.tbCrcOk = true ↔ f.tbCrcOk ≠ 0
  rnti : entry.rnti = f.rnti
  harqId : entry.harqId = f.harqId
  mcsIndex : entry.mcsIndex = f.mcsIndex
  gridPayload : entry.gridPayload = f.gridPayload
  tbPayload : entry.tbPayload = f.tbPayload

/-- Both readers return, they accept the same files, and then they hold the same fields. -/
def ReadersAgree (content : FileContent) (out : OsgFile) : Prop :=
  ∃ status f loadStatus grids, osgRead ieeeCrc32 (some content) out = some (status, f) ∧
    loadOracleGridSet [some content] = some (loadStatus, grids) ∧
    (loadStatus = .ok ↔ status = .ok) ∧
    (status = .ok → ∃ entry, grids.entries = [entry] ∧ SameFields f entry)

/-- The identifier fits the loader's field. -/
theorem sameFields_iff (buf : List UInt8) :
    SameFields (parsedFile buf) (parsedEntry buf) ↔ fieldAt buf 12 2 < 256 := by
  have wide := fieldAt_lt buf 12 2
  have value : (parsedFile buf).eaxcId.toNat = fieldAt buf 12 2 := by
    rw [parsedFile, UInt16.toNat_ofNat', Nat.mod_eq_of_lt (by omega)]
  have narrow : (parsedEntry buf).eaxcId.toNat = fieldAt buf 12 2 % 256 := by
    rw [parsedEntry, UInt16.toNat_toUInt8, value]
  constructor
  · intro same
    have eaxcId := same.eaxcId
    rw [narrow, value] at eaxcId
    omega
  · intro small
    refine ⟨rfl, rfl, ?_, rfl, ?_, rfl, rfl, rfl, rfl, rfl⟩
    · rw [narrow, value]
      omega
    · exact decide_eq_true_iff

theorem loadOracleGridSet_singleton (file : Option FileContent) :
    loadOracleGridSet [file] = (loadOracleGridFile file).map fun result =>
      match result with
      | .error status => (status, { entries := [] })
      | .ok entry => (.ok, { entries := [entry] }) := by
  rw [loadOracleGridSet, if_neg (List.cons_ne_nil _ _), loadOracleGridFiles]
  cases loadOracleGridFile file with
  | none => rfl
  | some result =>
      cases result with
      | error status => rfl
      | ok entry => simp [loadOracleGridFiles, checkConsistency]

/-- What the readers agree on, in terms of their verdicts. -/
theorem readersAgree_iff_verdicts (content : FileContent) (out : OsgFile) :
    ReadersAgree content out ↔
      readVerdict ieeeCrc32 (· % 2 ^ 32) content.bytes ≠ .undefined ∧
        readVerdict ieeeCrc32 id content.bytes ≠ .undefined ∧
        (readVerdict ieeeCrc32 id content.bytes = .accepted ↔
          readVerdict ieeeCrc32 (· % 2 ^ 32) content.bytes = .accepted) ∧
        (readVerdict ieeeCrc32 id content.bytes = .accepted →
          fieldAt content.bytes 12 2 < 256) := by
  have read := osgRead_of_verdict ieeeCrc32 content out
  have load := loadOracleGridFile_of_verdict content
  rw [ReadersAgree, loadOracleGridSet_singleton, ← sameFields_iff]
  cases reader : readVerdict ieeeCrc32 (· % 2 ^ 32) content.bytes with
  | undefined =>
      rw [reader] at read
      simp [read]
  | refused =>
      rw [reader] at read
      obtain ⟨status, bad, read⟩ := read
      cases loader : readVerdict ieeeCrc32 id content.bytes with
      | undefined =>
          rw [loader] at load
          simp [load]
      | refused =>
          rw [loader] at load
          obtain ⟨loadStatus, loadBad, load⟩ := load
          simp [read, load, bad, loadBad]
      | accepted =>
          rw [loader] at load
          simp [read, load, bad]
  | accepted =>
      rw [reader] at read
      cases loader : readVerdict ieeeCrc32 id content.bytes with
      | undefined =>
          rw [loader] at load
          simp [load]
      | refused =>
          rw [loader] at load
          obtain ⟨loadStatus, loadBad, load⟩ := load
          simp [read, load, loadBad]
      | accepted =>
          rw [loader] at load
          simp [read, load]

/-- A file whose lengths do not wrap, for which the low 32 bits of the length give the same
outcome as the length, and whose identifier fits eight bits if the checksum matches. -/
structure ReadsAlike (buf : List UInt8) : Prop where
  sameChecksum : CrcMatches buf ieeeCrc32 (crcOffset buf % 2 ^ 32) ↔
    CrcMatches buf ieeeCrc32 (crcOffset buf)
  narrow : CrcMatches buf ieeeCrc32 (crcOffset buf) → fieldAt buf 12 2 < 256

/-- The readers agree on a file if and only if, once its checks in front of the checksum pass,
its lengths do not wrap and it reads alike, or they wrap and that is detected. -/
theorem readers_agree_iff (content : FileContent) (out : OsgFile) :
    ReadersAgree content out ↔
      (ReachesPayload content.bytes →
        (LengthsWrap content.bytes ∧ WrapDetected content.bytes) ∨
          (¬ LengthsWrap content.bytes ∧ ReadsAlike content.bytes)) := by
  rw [readersAgree_iff_verdicts, ← and_assoc]
  by_cases reaches : ReachesPayload content.bytes
  · rw [readVerdicts_return_iff reaches]
    by_cases wraps : LengthsWrap content.bytes
    · have neither : ∀ covered, readVerdict ieeeCrc32 covered content.bytes ≠ .accepted :=
        fun _ => readVerdict_ne_accepted reaches wraps
      simp [reaches, wraps, neither]
    · rw [readVerdict_accepted_iff reaches wraps, readVerdict_accepted_iff reaches wraps, id_eq]
      constructor
      · rintro ⟨_, alike, narrow⟩ _
        exact .inr ⟨wraps, alike.symm, narrow⟩
      · intro safe
        rcases safe reaches with ⟨wrapped, _⟩ | ⟨_, sameChecksum, narrow⟩
        · exact absurd wrapped wraps
        · exact ⟨fun wrapped => absurd wrapped wraps, sameChecksum.symm, narrow⟩
  · rw [readVerdict_of_not_reaches reaches, readVerdict_of_not_reaches reaches]
    simp [reaches]

/-- A file of 52 bytes with an empty grid, an empty block and the identifier 256. -/
private def wideEaxcFile : FileContent where
  bytes := emptyGridHeader [0, 1] (List.replicate 8 0) ++ [0x4A, 0xBA, 0x62, 0x83]
  size_lt := by decide

/-- The loader keeps the low byte of the identifier 256 and gets zero. -/
theorem readers_disagree_wide_eaxc :
    ¬ ∀ (content : FileContent) (out : OsgFile), ReadersAgree content out := by
  intro claim
  obtain ⟨_, _, _, narrow⟩ := (readersAgree_iff_verdicts wideEaxcFile (parsedFile [])).mp
    (claim wideEaxcFile (parsedFile []))
  have accepted : readVerdict ieeeCrc32 id wideEaxcFile.bytes = .accepted := by decide +kernel
  exact absurd (narrow accepted) (by decide)

end RanInline.Osg
