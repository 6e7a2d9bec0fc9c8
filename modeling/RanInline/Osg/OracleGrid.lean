/-
Module: RanInline.Osg.OracleGrid
Purpose: The oracle grid loader of the RU emulator in ru_emulator_oracle_grid.cpp, its checksum
  table, and what the loader and the reader of oi_osg_format.cpp make of the same files.
Trusted boundary: none
Main exports: crc32Ieee, bitwiseCrc32, OracleGridEntry, OracleGridSet, loadOracleGridFile,
  loadOracleGridSet, selectSymbolPayload, crc32Ieee_eq, crc32Ieee_eq_bit_at_a_time,
  loadOracleGridFile_of_verdict
-/
import RanInline.Osg.Format

namespace RanInline.Osg

open RanInline.Lib

/-! ### The checksum table -/

/-- One turn of the inner loop of `make_crc32_table`. -/
def crc32TableTurn (c : UInt32) : UInt32 :=
  if c &&& 1 ≠ 0 then (0xEDB88320 : UInt32) ^^^ (c >>> 1) else c >>> 1

/-- `make_crc32_table`. -/
def makeCrc32Table : List UInt32 :=
  (List.range 256).map fun i => crc32TableTurn^[8] (UInt32.ofNat i)

/-- One turn of the loop of `crc32_ieee`. -/
def crc32Turn (crc : UInt32) (byte : UInt8) : UInt32 :=
  makeCrc32Table.getD ((crc ^^^ byte.toUInt32) &&& 0xFF).toNat 0 ^^^ (crc >>> 8)

/-- `crc32_ieee`. -/
def crc32Ieee (data : List UInt8) : UInt32 :=
  data.foldl crc32Turn 0xFFFFFFFF ^^^ (0xFFFFFFFF : UInt32)

theorem toBitVec_crc32TableTurn (c : UInt32) :
    (crc32TableTurn c).toBitVec = crcShift 0xEDB88320#32 c.toBitVec := by
  have low : c &&& 1 ≠ 0 ↔ c.toBitVec.getLsbD 0 = true := by
    rw [Ne, ← UInt32.toNat_inj, UInt32.toNat_and, show (1 : UInt32).toNat = 1 from rfl,
      show (0 : UInt32).toNat = 0 from rfl, Nat.and_one_is_mod, BitVec.getLsbD,
      Nat.testBit_zero, decide_eq_true_eq]
    exact Nat.mod_two_ne_zero
  rw [crc32TableTurn, crcShift]
  by_cases bit : c.toBitVec.getLsbD 0 = true
  · rw [if_pos (low.mpr bit), if_pos bit]
    rfl
  · rw [if_neg (mt low.mp bit), if_neg bit]
    rfl

theorem toBitVec_crc32TableTurn_iterate (n : Nat) (c : UInt32) :
    (crc32TableTurn^[n] c).toBitVec = (crcShift 0xEDB88320#32)^[n] c.toBitVec := by
  induction n generalizing c with
  | zero => rfl
  | succ n inductionHypothesis =>
      rw [Function.iterate_succ_apply, Function.iterate_succ_apply, inductionHypothesis,
        toBitVec_crc32TableTurn]

/-- One byte through the table is one byte bit by bit. -/
theorem toBitVec_crc32Turn (crc : UInt32) (byte : UInt8) :
    (crc32Turn crc byte).toBitVec = crcByte 0xEDB88320#32 crc.toBitVec byte.toBitVec := by
  have index : ((crc ^^^ byte.toUInt32) &&& 0xFF).toNat < 256 := by
    rw [UInt32.toNat_and, show (0xFF : UInt32).toNat = 2 ^ 8 - 1 from rfl,
      Nat.and_two_pow_sub_one_eq_mod]
    omega
  have entry : makeCrc32Table.getD ((crc ^^^ byte.toUInt32) &&& 0xFF).toNat 0 =
      crc32TableTurn^[8] ((crc ^^^ byte.toUInt32) &&& 0xFF) := by
    rw [makeCrc32Table, List.getD_eq_getElem?_getD, List.getElem?_map, List.getElem?_range index,
      Option.map_some, Option.getD_some, UInt32.ofNat_toNat]
  have leaving : ((crc ^^^ byte.toUInt32) &&& 0xFF).toBitVec =
      (crc.toBitVec.setWidth 8 ^^^ byte.toBitVec).setWidth 32 := by
    have small : crc.toNat % 2 ^ 8 ^^^ byte.toNat < 2 ^ 8 :=
      Nat.xor_lt_two_pow (Nat.mod_lt _ (by decide)) byte.toNat_lt
    refine BitVec.eq_of_toNat_eq ?_
    rw [UInt32.toNat_toBitVec, UInt32.toNat_and, UInt32.toNat_xor, UInt8.toNat_toUInt32,
      show (0xFF : UInt32).toNat = 2 ^ 8 - 1 from rfl, Nat.and_two_pow_sub_one_eq_mod,
      Nat.xor_mod_two_pow, Nat.mod_eq_of_lt byte.toNat_lt, BitVec.toNat_setWidth,
      BitVec.toNat_xor, BitVec.toNat_setWidth, UInt32.toNat_toBitVec, UInt8.toNat_toBitVec,
      Nat.mod_eq_of_lt (show crc.toNat % 2 ^ 8 ^^^ byte.toNat < 2 ^ 32 by omega)]
  rw [crcByte_eq_table, crc32Turn, entry, UInt32.toBitVec_xor, toBitVec_crc32TableTurn_iterate,
    leaving]
  rfl

/-- The table computes the CRC-32 of IEEE 802.3. -/
theorem crc32Ieee_eq (data : List UInt8) : crc32Ieee data = ieeeCrc32 data := by
  have register : ∀ crc : UInt32, (data.foldl crc32Turn crc).toBitVec =
      data.foldl (fun register byte => crcByte 0xEDB88320#32 register byte.toBitVec)
        crc.toBitVec := by
    induction data with
    | nil => exact fun crc => rfl
    | cons byte data inductionHypothesis =>
        intro crc
        rw [List.foldl_cons, inductionHypothesis, toBitVec_crc32Turn, List.foldl_cons]
  rw [crc32Ieee, ieeeCrc32, ← UInt32.toBitVec_inj, UInt32.toBitVec_xor, register]
  rfl

/-- The CRC-32 taken one bit at a time: the reflected polynomial 0xEDB88320, each byte with its
least significant bit first, the register inverted before and after. -/
def bitwiseCrc32 (data : List UInt8) : UInt32 :=
  UInt32.ofBitVec ((data.flatMap fun byte => byteBits byte.toBitVec).foldl
    (crcBit 0xEDB88320#32) 0xFFFFFFFF#32 ^^^ 0xFFFFFFFF#32)

theorem ieeeCrc32_eq_bitwise (data : List UInt8) : ieeeCrc32 data = bitwiseCrc32 data := by
  have register : ∀ crc : BitVec 32,
      data.foldl (fun register byte => crcByte 0xEDB88320#32 register byte.toBitVec) crc =
        (data.flatMap fun byte => byteBits byte.toBitVec).foldl (crcBit 0xEDB88320#32) crc := by
    induction data with
    | nil => exact fun crc => rfl
    | cons byte data inductionHypothesis =>
        intro crc
        rw [List.foldl_cons, inductionHypothesis, List.flatMap_cons, List.foldl_append,
          crcByte_eq_bits 0xEDB88320#32 (by decide)]
  rw [ieeeCrc32, bitwiseCrc32, register]

/-- The table takes a byte to where its eight bits take the register, and so the checksum of
every string is the one taken bit by bit, which is also what the reader of oi_osg_format.cpp
expects of zlib's `crc32`. -/
theorem crc32Ieee_eq_bit_at_a_time :
    (∀ (crc : UInt32) (byte : UInt8), (crc32Turn crc byte).toBitVec =
      (byteBits byte.toBitVec).foldl (crcBit 0xEDB88320#32) crc.toBitVec) ∧
    ∀ data : List UInt8,
      crc32Ieee data = bitwiseCrc32 data ∧ ieeeCrc32 data = bitwiseCrc32 data := by
  constructor
  · intro crc byte
    rw [toBitVec_crc32Turn, crcByte_eq_bits 0xEDB88320#32 (by decide)]
  · intro data
    exact ⟨(crc32Ieee_eq data).trans (ieeeCrc32_eq_bitwise data), ieeeCrc32_eq_bitwise data⟩

/-- The check value of the CRC-32, over the digits 1 to 9. -/
example : bitwiseCrc32 [0x31, 0x32, 0x33, 0x34, 0x35, 0x36, 0x37, 0x38, 0x39] = 0xCBF43926 := by
  decide +kernel

/-! ### The loader -/

/-- `oracle_grid_entry`. -/
structure OracleGridEntry where
  nofPrb : UInt16
  nofSymbols : UInt8
  eaxcId : UInt8
  gridPayload : List UInt8
  tbLenBytes : UInt64
  tbCrcOk : Bool
  rnti : UInt32
  harqId : UInt32
  mcsIndex : UInt32
  tbPayload : List UInt8
deriving DecidableEq, Repr

/-- `oracle_grid_set`, without the compression parameters. -/
structure OracleGridSet where
  entries : List OracleGridEntry
deriving DecidableEq, Repr

/-- `oracle_grid_load_status`. -/
inductive OracleGridLoadStatus where
  | ok
  | errOpen
  | errBadMagic
  | errBadVersion
  | errBadIqFormat
  | errBadCrc32
  | errGridPayloadLenMismatch
  | errTruncated
  | errEmptyFileList
  | errInconsistentIqFormatAcrossFiles
deriving DecidableEq, Repr

/-- `expected_grid_payload_len`. -/
def expectedGridPayloadLen (nofSymbolsPerSlot : UInt8) (nofPrb : UInt16) : UInt64 :=
  nofSymbolsPerSlot.toUInt64 * nofPrb.toUInt64 * 12 * 4

/-- One turn of the loop of `load_oracle_grid_set`: the entry of a file, or the status it
returns with.  `none` is an access outside the buffer. -/
def loadOracleGridFile (file : Option FileContent) :
    Option (Except OracleGridLoadStatus OracleGridEntry) := do
  let some content := file | return .error .errOpen
  let buf := content.bytes
  let size := buf.length
  if size < kFixedHeaderBytes + kTrailerBytes then return .error .errTruncated
  if buf.take 4 ≠ osgMagic then return .error .errBadMagic
  let formatVersion ← getU16le buf 4
  if formatVersion ≠ 1 then return .error .errBadVersion
  let iqFormat ← buf[6]?
  if iqFormat ≠ 0 then return .error .errBadIqFormat
  let nofPrb ← getU16le buf 8
  let nofSymbols ← buf[10]?
  let eaxcId ← getU16le buf 12
  let eaxcId := eaxcId.toUInt8
  let tbLenBytes ← getU64le buf 16
  let tbCrcOk ← getU32le buf 24
  let tbCrcOk := tbCrcOk ≠ 0
  let rnti ← getU32le buf 28
  let harqId ← getU32le buf 32
  let mcsIndex ← getU32le buf 36
  let gridLen ← getU64le buf 40
  if gridLen ≠ expectedGridPayloadLen nofSymbols nofPrb then
    return .error .errGridPayloadLenMismatch
  let need := UInt64.ofNat kFixedHeaderBytes + gridLen + tbLenBytes + UInt64.ofNat kTrailerBytes
  if need > UInt64.ofNat size then return .error .errTruncated
  let gridOff := UInt64.ofNat kFixedHeaderBytes
  let tbOff := gridOff + gridLen
  let crcOff := tbOff + tbLenBytes
  let fileCrc ← getU32le buf crcOff.toNat
  let computedCrc := crc32Ieee (buf.take crcOff.toNat)
  if fileCrc ≠ computedCrc then return .error .errBadCrc32
  let gridPayload ← assignRange buf gridOff.toNat tbOff.toNat
  let tbPayload ← assignRange buf tbOff.toNat crcOff.toNat
  return .ok
    { nofPrb, nofSymbols, eaxcId, gridPayload, tbLenBytes, tbCrcOk, rnti, harqId, mcsIndex,
      tbPayload }

/-- The check behind the loop: all files have the dimensions of the first one. -/
def checkConsistency (out : OracleGridSet) : Option (OracleGridLoadStatus × OracleGridSet) := do
  let first ← out.entries.head?
  if out.entries.any fun e => e.nofPrb ≠ first.nofPrb ∨ e.nofSymbols ≠ first.nofSymbols then
    return (.errInconsistentIqFormatAcrossFiles, out)
  return (.ok, out)

/-- The loop of `load_oracle_grid_set`, with the entries so far in `out`. -/
def loadOracleGridFiles : List (Option FileContent) → OracleGridSet →
    Option (OracleGridLoadStatus × OracleGridSet)
  | [], out => checkConsistency out
  | file :: fileList, out => do
      match ← loadOracleGridFile file with
      | .error status => return (status, out)
      | .ok entry => loadOracleGridFiles fileList { entries := out.entries ++ [entry] }

/-- `load_oracle_grid_set`. -/
def loadOracleGridSet (fileList : List (Option FileContent)) :
    Option (OracleGridLoadStatus × OracleGridSet) :=
  let out : OracleGridSet := { entries := [] }
  if fileList = [] then some (.errEmptyFileList, out) else loadOracleGridFiles fileList out

/-- `select_symbol_payload`.  The 64-bit product of the 32-bit numbers does not overflow; an
assertion that fails is `none`. -/
def selectSymbolPayload (grids : OracleGridSet) (sfn slot slotsPerFrame : UInt32)
    (_eaxcId : UInt8) (symbolIndex : UInt32) : Option (List UInt8) := do
  let n := grids.entries.length
  if n = 0 then none
  let fileIdx := (sfn.toNat * slotsPerFrame.toNat + slot.toNat) % n
  let entry ← grids.entries[fileIdx]?
  let symbolBytes := entry.nofPrb.toNat * 12 * 4
  let offset := symbolIndex.toNat * symbolBytes
  if offset + symbolBytes ≤ entry.gridPayload.length then
    return (entry.gridPayload.drop offset).take symbolBytes
  else none

/-- The entry with the fields and sections that a header names. -/
def parsedEntry (buf : List UInt8) : OracleGridEntry where
  nofPrb := (parsedFile buf).nofPrb
  nofSymbols := (parsedFile buf).nofSymbolsPerSlot
  eaxcId := (parsedFile buf).eaxcId.toUInt8
  gridPayload := (parsedFile buf).gridPayload
  tbLenBytes := (parsedFile buf).tbLenBytes
  tbCrcOk := (parsedFile buf).tbCrcOk ≠ 0
  rnti := (parsedFile buf).rnti
  harqId := (parsedFile buf).harqId
  mcsIndex := (parsedFile buf).mcsIndex
  tbPayload := (parsedFile buf).tbPayload

/-- One turn of the loader on a file that is long enough, in terms of what its header says. -/
theorem loadOracleGridFile_eq {content : FileContent}
    (long : kFixedHeaderBytes + kTrailerBytes ≤ content.bytes.length) :
    loadOracleGridFile (some content) =
      if content.bytes.take 4 ≠ osgMagic then some (.error .errBadMagic)
      else if fieldAt content.bytes 4 2 ≠ 1 then some (.error .errBadVersion)
      else if fieldAt content.bytes 6 1 ≠ 0 then some (.error .errBadIqFormat)
      else if ¬ HeaderValid content.bytes then some (.error .errGridPayloadLenMismatch)
      else if content.bytes.length < needBytes content.bytes then some (.error .errTruncated)
      else if needBytes content.bytes < kTrailerBytes then none
      else if ¬ CrcMatches content.bytes ieeeCrc32 (crcOffset content.bytes) then
        some (.error .errBadCrc32)
      else if crcOffset content.bytes < kFixedHeaderBytes + gridLen content.bytes then none
      else some (.ok (parsedEntry content.bytes)) := by
  have reads := headerReads long
  have version := version_check content.bytes
  have iqFormat := iqFormat_check content.bytes
  rw [kFormatVersion] at version
  rw [kIqFormatUncompressed16] at iqFormat
  simp only [loadOracleGridFile, reads.version, reads.iqFormat, reads.nofPrb,
    reads.nofSymbols, reads.eaxcId, reads.tbLen, reads.tbCrcOk, reads.rnti,
    reads.harqId, reads.mcsIndex, reads.gridLen, Option.bind_eq_bind, Option.bind_some,
    Option.pure_def, ne_eq, version, iqFormat, crcOff_eq, crc32Ieee_eq]
  rw [if_neg (Nat.not_lt.mpr long)]
  refine ite_congr rfl (fun _ => rfl) fun magic => ?_
  refine ite_congr rfl (fun _ => rfl) fun version => ?_
  refine ite_congr rfl (fun _ => rfl) fun iqFormat => ?_
  have validIff := headerValid_iff (not_not.mp magic) (not_not.mp version) (not_not.mp iqFormat)
  refine ite_congr (propext (not_congr validIff)) (fun _ => rfl) fun valid => ?_
  refine ite_congr (propext need_check) (fun _ => rfl) fun fits => ?_
  rw [(not_not.mp valid).tbOff_eq]
  exact (not_not.mp valid).sections_eq (Nat.le_of_not_lt fits) content.size_lt
    (Except.error OracleGridLoadStatus.errBadCrc32)
    (fun grid tb => Except.ok
      { parsedEntry content.bytes with gridPayload := grid, tbPayload := tb }) _

/-- The loader follows the verdict on each file. -/
theorem loadOracleGridFile_of_verdict (content : FileContent) :
    match readVerdict ieeeCrc32 id content.bytes with
    | .refused => ∃ status, status ≠ .ok ∧ loadOracleGridFile (some content) = some (.error status)
    | .undefined => loadOracleGridFile (some content) = none
    | .accepted => loadOracleGridFile (some content) = some (.ok (parsedEntry content.bytes)) := by
  rw [readVerdict]
  by_cases long : kFixedHeaderBytes + kTrailerBytes ≤ content.bytes.length
  · rw [loadOracleGridFile_eq long]
    by_cases valid : HeaderValid content.bytes
    · rw [if_neg (not_not.mpr valid.magic), if_neg (not_not.mpr valid.version),
        if_neg (not_not.mpr valid.iqFormat), if_neg (not_not.mpr valid)]
      simp only [Nat.not_lt.mpr long, valid, not_true, false_or, id_eq]
      split_ifs <;> simp
    · simp only [valid, not_false_eq_true, true_or, or_true, if_true]
      split_ifs <;> exact ⟨_, by decide, rfl⟩
  · rw [if_pos (.inl (Nat.lt_of_not_le long))]
    exact ⟨.errTruncated, by decide, if_pos (Nat.lt_of_not_le long)⟩

end RanInline.Osg
