/-
Module: RanInline.Osg.Format
Purpose: The oracle slot grid files of oi_osg_format.cpp: the writer and the reader, with the
  arithmetic of the reader in 64 bits.  What is written is read back, and no part of it is
  taken for the whole.
Trusted boundary: zlib's crc32 is a parameter
Main exports: OsgFile, OsgStatus, FileContent, osgWrite, osgRead, ReadVerdict, readVerdict,
  parsedFile, osgRead_of_verdict, osgRead_osgWrite
-/
import Mathlib.Data.List.Induction
import RanInline.Lib.ByteRegion
import RanInline.Lib.ReflectedCrc

namespace RanInline.Osg

open RanInline.Lib

/-! ### Fields in a buffer -/

/-- `put_u16le`. -/
def putU16le (v : UInt16) : List UInt8 :=
  [(v &&& 0xFF).toUInt8, ((v >>> 8) &&& 0xFF).toUInt8]

/-- `put_u32le`. -/
def putU32le (v : UInt32) : List UInt8 :=
  (List.range 4).map fun i => ((v >>> UInt32.ofNat (8 * i)) &&& 0xFF).toUInt8

/-- `put_u64le`. -/
def putU64le (v : UInt64) : List UInt8 :=
  (List.range 8).map fun i => ((v >>> UInt64.ofNat (8 * i)) &&& 0xFF).toUInt8

/-- `get_u16le`.  A read behind the end of the buffer is `none`. -/
def getU16le (buf : List UInt8) (p : Nat) : Option UInt16 := do
  let b0 ← buf[p]?
  let b1 ← buf[p + 1]?
  return b0.toUInt16 ||| (b1.toUInt16 <<< 8)

/-- `get_u32le`. -/
def getU32le (buf : List UInt8) (p : Nat) : Option UInt32 := do
  let b0 ← buf[p]?
  let b1 ← buf[p + 1]?
  let b2 ← buf[p + 2]?
  let b3 ← buf[p + 3]?
  return b0.toUInt32 ||| (b1.toUInt32 <<< 8) ||| (b2.toUInt32 <<< 16) ||| (b3.toUInt32 <<< 24)

/-- `get_u64le`. -/
def getU64le (buf : List UInt8) (p : Nat) : Option UInt64 :=
  [7, 6, 5, 4, 3, 2, 1, 0].foldlM
    (fun v i => do
      let b ← buf[p + i]?
      return (v <<< 8) ||| b.toUInt64) 0

theorem putU16le_eq (v : UInt16) : putU16le v = fieldBytes 2 v.toNat := by
  have low : (v &&& 0xFF).toUInt8 = UInt8.ofNat (v.toNat / 256 ^ 0) := by
    rw [← UInt8.toNat_inj, UInt16.toNat_toUInt8, UInt16.toNat_and, UInt8.toNat_ofNat',
      show (0xFF : UInt16).toNat = 2 ^ 8 - 1 from rfl, Nat.and_two_pow_sub_one_eq_mod]
    omega
  have high : ((v >>> 8) &&& 0xFF).toUInt8 = UInt8.ofNat (v.toNat / 256 ^ 1) := by
    rw [← UInt8.toNat_inj, UInt16.toNat_toUInt8, UInt16.toNat_and, UInt8.toNat_ofNat',
      show (0xFF : UInt16).toNat = 2 ^ 8 - 1 from rfl, Nat.and_two_pow_sub_one_eq_mod,
      UInt16.toNat_shiftRight, Nat.shiftRight_eq_div_pow,
      show (8 : UInt16).toNat % 16 = 8 from rfl]
    omega
  rw [putU16le, low, high]
  rfl

theorem putU32le_eq (v : UInt32) : putU32le v = fieldBytes 4 v.toNat := by
  rw [putU32le, fieldBytes]
  refine List.map_congr_left fun i member => ?_
  have small : i < 4 := List.mem_range.mp member
  have shift : (UInt32.ofNat (8 * i)).toNat % 32 = 8 * i := by
    rw [UInt32.toNat_ofNat']
    omega
  rw [← UInt8.toNat_inj, UInt32.toNat_toUInt8, UInt32.toNat_and, UInt8.toNat_ofNat',
    show (0xFF : UInt32).toNat = 2 ^ 8 - 1 from rfl, Nat.and_two_pow_sub_one_eq_mod,
    UInt32.toNat_shiftRight, Nat.shiftRight_eq_div_pow, shift, Nat.pow_mul, Nat.mod_mod]

theorem putU64le_eq (v : UInt64) : putU64le v = fieldBytes 8 v.toNat := by
  rw [putU64le, fieldBytes]
  refine List.map_congr_left fun i member => ?_
  have small : i < 8 := List.mem_range.mp member
  have shift : (UInt64.ofNat (8 * i)).toNat % 64 = 8 * i := by
    rw [UInt64.toNat_ofNat']
    omega
  rw [← UInt8.toNat_inj, UInt64.toNat_toUInt8, UInt64.toNat_and, UInt8.toNat_ofNat',
    show (0xFF : UInt64).toNat = 2 ^ 8 - 1 from rfl, Nat.and_two_pow_sub_one_eq_mod,
    UInt64.toNat_shiftRight, Nat.shiftRight_eq_div_pow, shift, Nat.pow_mul, Nat.mod_mod]

/-- A higher part is or-ed to a lower one. -/
theorem or_shiftLeft_eq_add {low high k : Nat} (small : low < 2 ^ k) :
    low ||| high <<< k = low + high * 2 ^ k := by
  rw [Nat.shiftLeft_eq, Nat.or_comm, Nat.mul_comm, ← Nat.two_pow_add_eq_or_of_lt small,
    Nat.add_comm]

section Get

variable {buf : List UInt8} {p : Nat}

theorem getU16le_eq (inside : p + 2 ≤ buf.length) :
    getU16le buf p = some (UInt16.ofNat (fieldAt buf p 2)) := by
  obtain ⟨data, length, value, bytes⟩ := exists_bytes_of_inside inside
  match data, length with
  | [b0, b1], _ =>
      have shifted : b1.toNat <<< ((8 : UInt16).toNat % 16) % 2 ^ 16 = b1.toNat <<< 8 := by
        rw [show (8 : UInt16).toNat % 16 = 8 from rfl, Nat.shiftLeft_eq]
        have := b1.toNat_lt
        omega
      rw [getU16le, value, show buf[p]? = some b0 from bytes 0 (by omega),
        show buf[p + 1]? = some b1 from bytes 1 (by omega)]
      simp only [Option.bind_eq_bind, Option.bind_some, Option.pure_def, Option.some.injEq,
        ← UInt16.toNat_inj]
      have := b0.toNat_lt
      have := b1.toNat_lt
      rw [UInt16.toNat_or, UInt16.toNat_shiftLeft, UInt8.toNat_toUInt16, UInt8.toNat_toUInt16,
        shifted, or_shiftLeft_eq_add (by omega), UInt16.toNat_ofNat']
      simp only [bytesValue, List.map_cons, List.map_nil, Nat.ofDigits_cons, Nat.ofDigits_nil]
      omega

theorem toNat_shiftLeft_byte (b : UInt8) {shift : UInt32} {k : Nat} (amount : shift.toNat = k)
    (small : k ≤ 24) : (b.toUInt32 <<< shift).toNat = b.toNat <<< k := by
  have power : 2 ^ k ≤ 2 ^ 24 := Nat.pow_le_pow_right (by decide) small
  have product : b.toNat * 2 ^ k ≤ 255 * 2 ^ 24 :=
    Nat.mul_le_mul (Nat.le_of_lt_succ b.toNat_lt) power
  rw [UInt32.toNat_shiftLeft, UInt8.toNat_toUInt32, amount,
    show k % 32 = k by omega, Nat.shiftLeft_eq]
  exact Nat.mod_eq_of_lt (by omega)

theorem getU32le_eq (inside : p + 4 ≤ buf.length) :
    getU32le buf p = some (UInt32.ofNat (fieldAt buf p 4)) := by
  obtain ⟨data, length, value, bytes⟩ := exists_bytes_of_inside inside
  match data, length with
  | [b0, b1, b2, b3], _ =>
      rw [getU32le, value, show buf[p]? = some b0 from bytes 0 (by omega),
        show buf[p + 1]? = some b1 from bytes 1 (by omega),
        show buf[p + 2]? = some b2 from bytes 2 (by omega),
        show buf[p + 3]? = some b3 from bytes 3 (by omega)]
      simp only [Option.bind_eq_bind, Option.bind_some, Option.pure_def, Option.some.injEq,
        ← UInt32.toNat_inj]
      have := b0.toNat_lt
      have := b1.toNat_lt
      have := b2.toNat_lt
      have := b3.toNat_lt
      have two : b0.toNat ||| b1.toNat <<< 8 = b0.toNat + b1.toNat * 2 ^ 8 :=
        or_shiftLeft_eq_add (by omega)
      have three : b0.toNat + b1.toNat * 2 ^ 8 ||| b2.toNat <<< 16 =
          b0.toNat + b1.toNat * 2 ^ 8 + b2.toNat * 2 ^ 16 := or_shiftLeft_eq_add (by omega)
      rw [UInt32.toNat_or, UInt32.toNat_or, UInt32.toNat_or, UInt8.toNat_toUInt32,
        toNat_shiftLeft_byte b1 (k := 8) rfl (by decide),
        toNat_shiftLeft_byte b2 (k := 16) rfl (by decide),
        toNat_shiftLeft_byte b3 (k := 24) rfl (by decide), two, three,
        or_shiftLeft_eq_add (by omega), UInt32.toNat_ofNat']
      simp only [bytesValue, List.map_cons, List.map_nil, Nat.ofDigits_cons, Nat.ofDigits_nil]
      omega

theorem getU32le_eq_none (outside : buf.length ≤ p) : getU32le buf p = none := by
  rw [getU32le, List.getElem?_eq_none outside]
  rfl

/-- A loop over the bytes of a field, from the last down to the first. -/
theorem foldlM_reverse_range {data : List UInt8}
    (bytes : ∀ i < data.length, buf[p + i]? = data[i]?) {V : Type} (turn : V → UInt8 → V) (v : V) :
    (List.range data.length).reverse.foldlM
        (fun v i => do
          let b ← buf[p + i]?
          return turn v b) v =
      some (data.foldr (fun b v => turn v b) v) := by
  induction data using List.reverseRecOn generalizing v with
  | nil => rfl
  | append_singleton data b inductionHypothesis =>
      have last : buf[p + data.length]? = some b := by
        rw [bytes _ (by simp)]
        simp
      have before : ∀ i < data.length, buf[p + i]? = data[i]? := by
        intro i small
        rw [bytes i (by simp; omega), List.getElem?_append_left small]
      rw [List.length_append, List.length_singleton, List.range_succ, List.reverse_append,
        List.reverse_singleton, List.singleton_append, List.foldlM_cons, last, List.foldr_append]
      exact inductionHypothesis before (turn v b)

/-- The loop of `get_u64le`. -/
theorem toNat_foldr_shiftLeft_or {data : List UInt8} (short : data.length ≤ 8) :
    (data.foldr (fun b (v : UInt64) => (v <<< 8) ||| b.toUInt64) 0).toNat = bytesValue data := by
  induction data with
  | nil => rfl
  | cons b data inductionHypothesis =>
      rw [List.length_cons] at short
      have value := inductionHypothesis (by omega)
      have bound := bytesValue_lt data
      have low := b.toNat_lt
      have power : 256 ^ data.length ≤ 256 ^ 7 := Nat.pow_le_pow_right (by decide) (by omega)
      have unfolded : bytesValue (b :: data) = b.toNat + 256 * bytesValue data := rfl
      rw [List.foldr_cons, UInt64.toNat_or, UInt64.toNat_shiftLeft, UInt8.toNat_toUInt64, value,
        show (8 : UInt64).toNat % 64 = 8 from rfl,
        Nat.mod_eq_of_lt (by rw [Nat.shiftLeft_eq]; omega), Nat.or_comm,
        or_shiftLeft_eq_add (by omega), unfolded]
      omega

theorem getU64le_eq (inside : p + 8 ≤ buf.length) :
    getU64le buf p = some (UInt64.ofNat (fieldAt buf p 8)) := by
  obtain ⟨data, length, value, bytes⟩ := exists_bytes_of_inside inside
  have bound : bytesValue data < 2 ^ 64 := by
    have small := bytesValue_lt data
    rwa [length] at small
  have read := foldlM_reverse_range (length ▸ bytes)
    (fun (v : UInt64) b => (v <<< 8) ||| b.toUInt64) 0
  rw [length] at read
  rw [getU64le, value]
  refine read.trans ?_
  rw [Option.some.injEq, ← UInt64.toNat_inj, toNat_foldr_shiftLeft_or length.le,
    UInt64.toNat_ofNat', Nat.mod_eq_of_lt bound]

end Get

/-- The CRC-32 of IEEE 802.3, which zlib's `crc32` computes: the register takes the bytes bit
by bit, and is inverted before and after. -/
def ieeeCrc32 (data : List UInt8) : UInt32 :=
  UInt32.ofBitVec (data.foldl (fun register byte => crcByte 0xEDB88320#32 register byte.toBitVec)
    0xFFFFFFFF#32 ^^^ 0xFFFFFFFF#32)

/-! ### The files -/

/-- `osg_file`. -/
structure OsgFile where
  formatVersion : UInt16
  iqFormat : UInt8
  numerologyMu : UInt8
  nofPrb : UInt16
  nofSymbolsPerSlot : UInt8
  nofEaxc : UInt8
  eaxcId : UInt16
  tbLenBytes : UInt64
  tbCrcOk : UInt32
  rnti : UInt32
  harqId : UInt32
  mcsIndex : UInt32
  gridPayload : List UInt8
  tbPayload : List UInt8
deriving DecidableEq, Repr

/-- `osg_status`. -/
inductive OsgStatus where
  | ok
  | errOpen
  | errTooShort
  | errBadMagic
  | errBadVersion
  | errBadIqFormat
  | errBadCrc32
  | errGridPayloadLenMismatch
  | errTruncatedPayload
deriving DecidableEq, Repr

/-- What a reader gets of a file.  Its size is a `std::streamsize`. -/
structure FileContent where
  bytes : List UInt8
  size_lt : bytes.length < 2 ^ 63

/-- `kFixedHeaderBytes`. -/
def kFixedHeaderBytes : Nat := 48

/-- `kTrailerBytes`. -/
def kTrailerBytes : Nat := 4

/-- `kFormatVersion`. -/
def kFormatVersion : UInt16 := 1

/-- `kIqFormatUncompressed16`. -/
def kIqFormatUncompressed16 : UInt8 := 0

/-- The letters OSG1. -/
def osgMagic : List UInt8 := [0x4F, 0x53, 0x47, 0x31]

/-- `osg_expected_grid_payload_len`. -/
def osgExpectedGridPayloadLen (nofSymbolsPerSlot : UInt8) (nofPrb : UInt16) : UInt64 :=
  nofSymbolsPerSlot.toUInt64 * nofPrb.toUInt64 * 12 * 4

/-- The fixed header of `osg_write`. -/
def osgHeader (f : OsgFile) : List UInt8 :=
  osgMagic ++ putU16le f.formatVersion ++ [f.iqFormat] ++ [f.numerologyMu] ++
    putU16le f.nofPrb ++ [f.nofSymbolsPerSlot] ++ [f.nofEaxc] ++ putU16le f.eaxcId ++
    putU16le 0 ++ putU64le f.tbLenBytes ++ putU32le f.tbCrcOk ++ putU32le f.rnti ++
    putU32le f.harqId ++ putU32le f.mcsIndex ++
    putU64le (UInt64.ofNat f.gridPayload.length)

/-- `osg_write`: the bytes of the file, or `none` for the internal error.  The length goes
to `crc32` as a `uInt`. -/
def osgWrite (crc32 : List UInt8 → UInt32) (f : OsgFile) : Option (List UInt8) :=
  let buf := osgHeader f
  if buf.length ≠ kFixedHeaderBytes then none
  else
    let buf := buf ++ f.gridPayload ++ f.tbPayload
    let crc := crc32 (buf.take (buf.length % 2 ^ 32))
    some (buf ++ putU32le crc)

/-- `assign` of the range from `first` to `last` of a buffer.  A range that is not one of
the buffer is `none`. -/
def assignRange (buf : List UInt8) (first last : Nat) : Option (List UInt8) :=
  if first ≤ last ∧ last ≤ buf.length then some ((buf.drop first).take (last - first)) else none

/-- `osg_read`.  `none` is an access outside the buffer; the length goes to `crc32` as a
`uInt`. -/
def osgRead (crc32 : List UInt8 → UInt32) (file : Option FileContent) (out : OsgFile) :
    Option (OsgStatus × OsgFile) := do
  let some content := file | return (.errOpen, out)
  let buf := content.bytes
  let size := buf.length
  if size < kFixedHeaderBytes + kTrailerBytes then return (.errTooShort, out)
  if buf.take 4 ≠ osgMagic then return (.errBadMagic, out)
  let formatVersion ← getU16le buf 4
  if formatVersion ≠ kFormatVersion then return (.errBadVersion, out)
  let iqFormat ← buf[6]?
  if iqFormat ≠ kIqFormatUncompressed16 then return (.errBadIqFormat, out)
  let numerologyMu ← buf[7]?
  let nofPrb ← getU16le buf 8
  let nofSymbolsPerSlot ← buf[10]?
  let nofEaxc ← buf[11]?
  let eaxcId ← getU16le buf 12
  let tbLenBytes ← getU64le buf 16
  let tbCrcOk ← getU32le buf 24
  let rnti ← getU32le buf 28
  let harqId ← getU32le buf 32
  let mcsIndex ← getU32le buf 36
  let gridLen ← getU64le buf 40
  if gridLen ≠ osgExpectedGridPayloadLen nofSymbolsPerSlot nofPrb then
    return (.errGridPayloadLenMismatch, out)
  let need := UInt64.ofNat kFixedHeaderBytes + gridLen + tbLenBytes + UInt64.ofNat kTrailerBytes
  if need > UInt64.ofNat size then return (.errTruncatedPayload, out)
  let gridOff := UInt64.ofNat kFixedHeaderBytes
  let tbOff := gridOff + gridLen
  let crcOff := tbOff + tbLenBytes
  let fileCrc ← getU32le buf crcOff.toNat
  let computedCrc := crc32 (buf.take (crcOff.toNat % 2 ^ 32))
  if fileCrc ≠ computedCrc then return (.errBadCrc32, out)
  let gridPayload ← assignRange buf gridOff.toNat tbOff.toNat
  let tbPayload ← assignRange buf tbOff.toNat crcOff.toNat
  return (.ok,
    { formatVersion, iqFormat, numerologyMu, nofPrb, nofSymbolsPerSlot, nofEaxc, eaxcId,
      tbLenBytes, tbCrcOk, rnti, harqId, mcsIndex, gridPayload, tbPayload })

/-! ### What a reader makes of a file -/

section Layout

variable (buf : List UInt8)

/-- The grid length in a header. -/
def gridLen : Nat := fieldAt buf 40 8

/-- The transport block length in a header. -/
def tbLen : Nat := fieldAt buf 16 8

/-- A header of version 1, with uncompressed samples and a consistent grid length. -/
structure HeaderValid : Prop where
  magic : buf.take 4 = osgMagic
  version : fieldAt buf 4 2 = 1
  iqFormat : fieldAt buf 6 1 = 0
  consistent : gridLen buf = fieldAt buf 10 1 * fieldAt buf 8 2 * 12 * 4

instance : Decidable (HeaderValid buf) :=
  decidable_of_iff (buf.take 4 = osgMagic ∧ fieldAt buf 4 2 = 1 ∧ fieldAt buf 6 1 = 0 ∧
      gridLen buf = fieldAt buf 10 1 * fieldAt buf 8 2 * 12 * 4)
    ⟨fun ⟨magic, version, iqFormat, consistent⟩ => ⟨magic, version, iqFormat, consistent⟩,
      fun ⟨magic, version, iqFormat, consistent⟩ => ⟨magic, version, iqFormat, consistent⟩⟩

/-- `need`, as the 64-bit sum gives it. -/
def needBytes : Nat := (kFixedHeaderBytes + gridLen buf + tbLen buf + kTrailerBytes) % 2 ^ 64

/-- `crc_off`, as the 64-bit sum gives it. -/
def crcOffset : Nat := (kFixedHeaderBytes + gridLen buf + tbLen buf) % 2 ^ 64

/-- The checksum in the file is the one of its first `covered` bytes. -/
def CrcMatches (crc32 : List UInt8 → UInt32) (covered : Nat) : Prop :=
  fieldAt buf (crcOffset buf) kTrailerBytes = (crc32 (buf.take covered)).toNat

instance (crc32 : List UInt8 → UInt32) (covered : Nat) :
    Decidable (CrcMatches buf crc32 covered) :=
  inferInstanceAs (Decidable (_ = _))

/-- The file with the fields and sections that a header names. -/
def parsedFile : OsgFile where
  formatVersion := UInt16.ofNat (fieldAt buf 4 2)
  iqFormat := UInt8.ofNat (fieldAt buf 6 1)
  numerologyMu := UInt8.ofNat (fieldAt buf 7 1)
  nofPrb := UInt16.ofNat (fieldAt buf 8 2)
  nofSymbolsPerSlot := UInt8.ofNat (fieldAt buf 10 1)
  nofEaxc := UInt8.ofNat (fieldAt buf 11 1)
  eaxcId := UInt16.ofNat (fieldAt buf 12 2)
  tbLenBytes := UInt64.ofNat (fieldAt buf 16 8)
  tbCrcOk := UInt32.ofNat (fieldAt buf 24 4)
  rnti := UInt32.ofNat (fieldAt buf 28 4)
  harqId := UInt32.ofNat (fieldAt buf 32 4)
  mcsIndex := UInt32.ofNat (fieldAt buf 36 4)
  gridPayload := (buf.drop kFixedHeaderBytes).take (gridLen buf)
  tbPayload := (buf.drop (kFixedHeaderBytes + gridLen buf)).take (tbLen buf)

end Layout

/-- What a reader makes of a file. -/
inductive ReadVerdict where
  | refused
  | undefined
  | accepted
deriving DecidableEq, Repr

/-- The verdict of a reader whose checksum covers `covered` of the bytes in front of the
trailer. -/
def readVerdict (crc32 : List UInt8 → UInt32) (covered : Nat → Nat) (buf : List UInt8) :
    ReadVerdict :=
  if buf.length < kFixedHeaderBytes + kTrailerBytes ∨ ¬ HeaderValid buf ∨
      buf.length < needBytes buf then .refused
  -- the sum wrapped so far that the trailer lies behind the buffer
  else if needBytes buf < kTrailerBytes then .undefined
  else if ¬ CrcMatches buf crc32 (covered (crcOffset buf)) then .refused
  -- the sum wrapped: the transport block would end in front of its start
  else if crcOffset buf < kFixedHeaderBytes + gridLen buf then .undefined
  else .accepted

section Fields

variable {buf : List UInt8}

theorem getByte_eq {p : Nat} (inside : p < buf.length) :
    buf[p]? = some (UInt8.ofNat (fieldAt buf p 1)) := by
  obtain ⟨data, length, value, bytes⟩ :=
    exists_bytes_of_inside (show p + 1 ≤ buf.length from inside)
  obtain ⟨b, rfl⟩ := List.length_eq_one_iff.mp length
  rw [value, show buf[p]? = some b from bytes 0 Nat.one_pos, Option.some.injEq, bytesValue,
    List.map_singleton, Nat.ofDigits_singleton]
  simp

/-- Every field of the fixed header is inside the buffer. -/
structure HeaderReads (buf : List UInt8) : Prop where
  version : getU16le buf 4 = some (parsedFile buf).formatVersion
  iqFormat : buf[6]? = some (parsedFile buf).iqFormat
  numerologyMu : buf[7]? = some (parsedFile buf).numerologyMu
  nofPrb : getU16le buf 8 = some (parsedFile buf).nofPrb
  nofSymbols : buf[10]? = some (parsedFile buf).nofSymbolsPerSlot
  nofEaxc : buf[11]? = some (parsedFile buf).nofEaxc
  eaxcId : getU16le buf 12 = some (parsedFile buf).eaxcId
  tbLen : getU64le buf 16 = some (UInt64.ofNat (tbLen buf))
  tbCrcOk : getU32le buf 24 = some (parsedFile buf).tbCrcOk
  rnti : getU32le buf 28 = some (parsedFile buf).rnti
  harqId : getU32le buf 32 = some (parsedFile buf).harqId
  mcsIndex : getU32le buf 36 = some (parsedFile buf).mcsIndex
  gridLen : getU64le buf 40 = some (UInt64.ofNat (gridLen buf))

theorem headerReads (long : kFixedHeaderBytes + kTrailerBytes ≤ buf.length) : HeaderReads buf := by
  rw [kFixedHeaderBytes, kTrailerBytes] at long
  exact
    { version := getU16le_eq (by omega)
      iqFormat := getByte_eq (by omega)
      numerologyMu := getByte_eq (by omega)
      nofPrb := getU16le_eq (by omega)
      nofSymbols := getByte_eq (by omega)
      nofEaxc := getByte_eq (by omega)
      eaxcId := getU16le_eq (by omega)
      tbLen := getU64le_eq (by omega)
      tbCrcOk := getU32le_eq (by omega)
      rnti := getU32le_eq (by omega)
      harqId := getU32le_eq (by omega)
      mcsIndex := getU32le_eq (by omega)
      gridLen := getU64le_eq (by omega) }

theorem need_eq (buf : List UInt8) :
    (UInt64.ofNat kFixedHeaderBytes + UInt64.ofNat (gridLen buf) + UInt64.ofNat (tbLen buf) +
      UInt64.ofNat kTrailerBytes).toNat = needBytes buf := by
  simp only [UInt64.toNat_add, UInt64.toNat_ofNat', needBytes]
  omega

theorem crcOff_eq (buf : List UInt8) :
    (UInt64.ofNat kFixedHeaderBytes + UInt64.ofNat (gridLen buf) +
      UInt64.ofNat (tbLen buf)).toNat = crcOffset buf := by
  simp only [UInt64.toNat_add, UInt64.toNat_ofNat', crcOffset]
  omega

theorem HeaderValid.gridLen_le (valid : HeaderValid buf) : gridLen buf ≤ 255 * 65535 * 12 * 4 := by
  have symbols := fieldAt_lt buf 10 1
  have prbs := fieldAt_lt buf 8 2
  have product : fieldAt buf 10 1 * fieldAt buf 8 2 ≤ 255 * 65535 :=
    Nat.mul_le_mul (by omega) (by omega)
  rw [valid.consistent]
  omega

/-- The length check of the readers compares what the header says. -/
theorem gridLen_check (buf : List UInt8) :
    UInt64.ofNat (gridLen buf) =
        osgExpectedGridPayloadLen (parsedFile buf).nofSymbolsPerSlot (parsedFile buf).nofPrb ↔
      gridLen buf = fieldAt buf 10 1 * fieldAt buf 8 2 * 12 * 4 := by
  have symbols := fieldAt_lt buf 10 1
  have prbs := fieldAt_lt buf 8 2
  have grid : gridLen buf < 256 ^ 8 := fieldAt_lt buf 40 8
  have product : fieldAt buf 10 1 * fieldAt buf 8 2 ≤ 255 * 65535 :=
    Nat.mul_le_mul (by omega) (by omega)
  have expected : (osgExpectedGridPayloadLen (parsedFile buf).nofSymbolsPerSlot
      (parsedFile buf).nofPrb).toNat = fieldAt buf 10 1 * fieldAt buf 8 2 * 12 * 4 := by
    simp only [osgExpectedGridPayloadLen, parsedFile, UInt64.toNat_mul, UInt8.toNat_toUInt64,
      UInt16.toNat_toUInt64, UInt8.toNat_ofNat', UInt16.toNat_ofNat',
      show (12 : UInt64).toNat = 12 from rfl, show (4 : UInt64).toNat = 4 from rfl]
    rw [Nat.mod_eq_of_lt (show fieldAt buf 10 1 < 2 ^ 8 by omega),
      Nat.mod_eq_of_lt (show fieldAt buf 8 2 < 2 ^ 16 by omega)]
    omega
  rw [← UInt64.toNat_inj, expected, UInt64.toNat_ofNat', Nat.mod_eq_of_lt (by omega)]

theorem version_check (buf : List UInt8) :
    (parsedFile buf).formatVersion = kFormatVersion ↔ fieldAt buf 4 2 = 1 := by
  have small := fieldAt_lt buf 4 2
  rw [parsedFile, kFormatVersion, ← UInt16.toNat_inj, UInt16.toNat_ofNat',
    Nat.mod_eq_of_lt (by omega)]
  rfl

theorem iqFormat_check (buf : List UInt8) :
    (parsedFile buf).iqFormat = kIqFormatUncompressed16 ↔ fieldAt buf 6 1 = 0 := by
  have small := fieldAt_lt buf 6 1
  rw [parsedFile, kIqFormatUncompressed16, ← UInt8.toNat_inj, UInt8.toNat_ofNat',
    Nat.mod_eq_of_lt (by omega)]
  rfl

/-- Behind the first checks of a reader, the header is valid if its lengths agree. -/
theorem headerValid_iff (magic : buf.take 4 = osgMagic) (version : fieldAt buf 4 2 = 1)
    (iqFormat : fieldAt buf 6 1 = 0) :
    UInt64.ofNat (gridLen buf) =
        osgExpectedGridPayloadLen (parsedFile buf).nofSymbolsPerSlot (parsedFile buf).nofPrb ↔
      HeaderValid buf :=
  (gridLen_check buf).trans
    ⟨fun consistent => ⟨magic, version, iqFormat, consistent⟩, fun valid => valid.consistent⟩

/-- The length check of the readers, with the sum in 64 bits. -/
theorem need_check {content : FileContent} :
    UInt64.ofNat kFixedHeaderBytes + UInt64.ofNat (gridLen content.bytes) +
        UInt64.ofNat (tbLen content.bytes) + UInt64.ofNat kTrailerBytes >
      UInt64.ofNat content.bytes.length ↔ content.bytes.length < needBytes content.bytes := by
  have small := content.size_lt
  rw [gt_iff_lt, UInt64.lt_iff_toNat_lt, need_eq, UInt64.toNat_ofNat',
    Nat.mod_eq_of_lt (by omega)]

theorem HeaderValid.tbOff_eq (valid : HeaderValid buf) :
    (UInt64.ofNat kFixedHeaderBytes + UInt64.ofNat (gridLen buf)).toNat =
      kFixedHeaderBytes + gridLen buf := by
  have small := valid.gridLen_le
  simp only [UInt64.toNat_add, UInt64.toNat_ofNat', kFixedHeaderBytes]
  omega

/-- The part of the readers behind the length check. -/
theorem HeaderValid.sections_eq (valid : HeaderValid buf) (fits : needBytes buf ≤ buf.length)
    (size : buf.length < 2 ^ 63) {R : Type} (bad : R) (good : List UInt8 → List UInt8 → R)
    (computed : UInt32) :
    ((getU32le buf (crcOffset buf)).bind fun fileCrc =>
      if ¬ fileCrc = computed then some bad
      else
        (assignRange buf kFixedHeaderBytes (kFixedHeaderBytes + gridLen buf)).bind fun grid =>
        (assignRange buf (kFixedHeaderBytes + gridLen buf) (crcOffset buf)).bind fun tb =>
          some (good grid tb)) =
      if needBytes buf < kTrailerBytes then none
      else if ¬ fieldAt buf (crcOffset buf) kTrailerBytes = computed.toNat then some bad
      else if crcOffset buf < kFixedHeaderBytes + gridLen buf then none
      else some (good (parsedFile buf).gridPayload (parsedFile buf).tbPayload) := by
  have small := valid.gridLen_le
  have block : tbLen buf < 256 ^ 8 := fieldAt_lt buf 16 8
  have header : kFixedHeaderBytes = 48 := rfl
  have trailer : kTrailerBytes = 4 := rfl
  have need : needBytes buf = (48 + gridLen buf + tbLen buf + 4) % 2 ^ 64 := rfl
  have offset : crcOffset buf = (48 + gridLen buf + tbLen buf) % 2 ^ 64 := rfl
  by_cases behind : needBytes buf < kTrailerBytes
  · rw [if_pos behind, getU32le_eq_none (by omega)]
    rfl
  · have stored : fieldAt buf (crcOffset buf) kTrailerBytes < 2 ^ 32 :=
      fieldAt_lt buf (crcOffset buf) kTrailerBytes
    have read : getU32le buf (crcOffset buf) =
        some (UInt32.ofNat (fieldAt buf (crcOffset buf) kTrailerBytes)) :=
      getU32le_eq (by omega)
    have mismatch : ¬ UInt32.ofNat (fieldAt buf (crcOffset buf) kTrailerBytes) = computed ↔
        ¬ fieldAt buf (crcOffset buf) kTrailerBytes = computed.toNat := by
      rw [← UInt32.toNat_inj, UInt32.toNat_ofNat', Nat.mod_eq_of_lt stored]
    rw [if_neg behind, read, Option.bind_some, if_congr mismatch rfl rfl]
    by_cases same : fieldAt buf (crcOffset buf) kTrailerBytes = computed.toNat
    · rw [if_neg (not_not.mpr same), if_neg (not_not.mpr same)]
      by_cases wrapped : crcOffset buf < kFixedHeaderBytes + gridLen buf
      · have outside : ¬ (kFixedHeaderBytes + gridLen buf ≤ crcOffset buf ∧
            crcOffset buf ≤ buf.length) := by omega
        rw [if_pos wrapped, assignRange, assignRange, if_neg outside]
        split_ifs <;> rfl
      · rw [if_neg wrapped, assignRange, assignRange, if_pos (by omega), if_pos (by omega),
          Option.bind_some, Option.bind_some, parsedFile, Nat.add_sub_cancel_left,
          show crcOffset buf - (kFixedHeaderBytes + gridLen buf) = tbLen buf by omega]
    · rw [if_pos same, if_pos same]

end Fields

/-- `osg_read` on a file that is long enough, in terms of what its header says. -/
theorem osgRead_eq (crc32 : List UInt8 → UInt32) {content : FileContent} (out : OsgFile)
    (long : kFixedHeaderBytes + kTrailerBytes ≤ content.bytes.length) :
    osgRead crc32 (some content) out =
      if content.bytes.take 4 ≠ osgMagic then some (.errBadMagic, out)
      else if fieldAt content.bytes 4 2 ≠ 1 then some (.errBadVersion, out)
      else if fieldAt content.bytes 6 1 ≠ 0 then some (.errBadIqFormat, out)
      else if ¬ HeaderValid content.bytes then some (.errGridPayloadLenMismatch, out)
      else if content.bytes.length < needBytes content.bytes then some (.errTruncatedPayload, out)
      else if needBytes content.bytes < kTrailerBytes then none
      else if ¬ CrcMatches content.bytes crc32 (crcOffset content.bytes % 2 ^ 32) then
        some (.errBadCrc32, out)
      else if crcOffset content.bytes < kFixedHeaderBytes + gridLen content.bytes then none
      else some (.ok, parsedFile content.bytes) := by
  have reads := headerReads long
  simp only [osgRead, reads.version, reads.iqFormat, reads.numerologyMu, reads.nofPrb,
    reads.nofSymbols, reads.nofEaxc, reads.eaxcId, reads.tbLen, reads.tbCrcOk, reads.rnti,
    reads.harqId, reads.mcsIndex, reads.gridLen, Option.bind_eq_bind, Option.bind_some,
    Option.pure_def, ne_eq, version_check, iqFormat_check, crcOff_eq]
  rw [if_neg (Nat.not_lt.mpr long)]
  refine ite_congr rfl (fun _ => rfl) fun magic => ?_
  refine ite_congr rfl (fun _ => rfl) fun version => ?_
  refine ite_congr rfl (fun _ => rfl) fun iqFormat => ?_
  have validIff := headerValid_iff (not_not.mp magic) (not_not.mp version) (not_not.mp iqFormat)
  refine ite_congr (propext (not_congr validIff)) (fun _ => rfl) fun valid => ?_
  refine ite_congr (propext need_check) (fun _ => rfl) fun fits => ?_
  rw [(not_not.mp valid).tbOff_eq]
  exact (not_not.mp valid).sections_eq (Nat.le_of_not_lt fits) content.size_lt
    (OsgStatus.errBadCrc32, out)
    (fun grid tb => (OsgStatus.ok,
      { parsedFile content.bytes with gridPayload := grid, tbPayload := tb })) _

/-- `osg_read` follows the verdict: a file that is refused leaves `out` alone. -/
theorem osgRead_of_verdict (crc32 : List UInt8 → UInt32) (content : FileContent) (out : OsgFile) :
    match readVerdict crc32 (· % 2 ^ 32) content.bytes with
    | .refused => ∃ status, status ≠ .ok ∧ osgRead crc32 (some content) out = some (status, out)
    | .undefined => osgRead crc32 (some content) out = none
    | .accepted => osgRead crc32 (some content) out = some (.ok, parsedFile content.bytes) := by
  rw [readVerdict]
  by_cases long : kFixedHeaderBytes + kTrailerBytes ≤ content.bytes.length
  · rw [osgRead_eq crc32 out long]
    by_cases valid : HeaderValid content.bytes
    · rw [if_neg (not_not.mpr valid.magic), if_neg (not_not.mpr valid.version),
        if_neg (not_not.mpr valid.iqFormat), if_neg (not_not.mpr valid)]
      simp only [Nat.not_lt.mpr long, valid, not_true, false_or]
      split_ifs <;> simp
    · simp only [valid, not_false_eq_true, true_or, or_true, if_true]
      split_ifs <;> exact ⟨_, by decide, rfl⟩
  · rw [if_pos (.inl (Nat.lt_of_not_le long))]
    exact ⟨.errTooShort, by decide, if_pos (Nat.lt_of_not_le long)⟩

/-! ### What is written is read back -/

/-- A file that `osg_write` can be given: the lengths it states are those of its payloads, and
its size is a `std::streamsize`. -/
structure OsgFile.WellFormed (f : OsgFile) : Prop where
  version : f.formatVersion = kFormatVersion
  iqFormat : f.iqFormat = kIqFormatUncompressed16
  grid : f.gridPayload.length = f.nofSymbolsPerSlot.toNat * f.nofPrb.toNat * 48
  tb : f.tbLenBytes.toNat = f.tbPayload.length
  size : kFixedHeaderBytes + f.gridPayload.length + f.tbPayload.length + kTrailerBytes < 2 ^ 63

/-- The header as a sequence of fields. -/
def headerFields (f : OsgFile) : List (Nat × Nat) :=
  [(4, 0x3147534F), (2, f.formatVersion.toNat), (1, f.iqFormat.toNat), (1, f.numerologyMu.toNat),
    (2, f.nofPrb.toNat), (1, f.nofSymbolsPerSlot.toNat), (1, f.nofEaxc.toNat),
    (2, f.eaxcId.toNat), (2, 0), (8, f.tbLenBytes.toNat), (4, f.tbCrcOk.toNat), (4, f.rnti.toNat),
    (4, f.harqId.toNat), (4, f.mcsIndex.toNat), (8, f.gridPayload.length)]

theorem fieldBytes_toNat (b : UInt8) : fieldBytes 1 b.toNat = [b] := by
  simp [fieldBytes]

theorem osgHeader_eq {f : OsgFile} (wellFormed : f.WellFormed) :
    osgHeader f = encodeFields (headerFields f) := by
  have size := wellFormed.size
  have grid : (UInt64.ofNat f.gridPayload.length).toNat = f.gridPayload.length := by
    rw [UInt64.toNat_ofNat', Nat.mod_eq_of_lt (by omega)]
  have magic : osgMagic = fieldBytes 4 0x3147534F := by decide
  rw [osgHeader, magic]
  simp only [putU16le_eq, putU32le_eq, putU64le_eq, grid, ← fieldBytes_toNat, encodeFields,
    headerFields, List.flatMap_cons, List.flatMap_nil, List.append_nil, List.append_assoc]
  rfl

/-- The bytes in front of the trailer. -/
def osgBody (f : OsgFile) : List UInt8 := osgHeader f ++ f.gridPayload ++ f.tbPayload

section Written

variable {f : OsgFile}

theorem length_osgHeader (wellFormed : f.WellFormed) :
    (osgHeader f).length = kFixedHeaderBytes := by
  rw [osgHeader_eq wellFormed, length_encodeFields]
  simp [headerFields, kFixedHeaderBytes]

theorem osgWrite_eq (crc32 : List UInt8 → UInt32) (wellFormed : f.WellFormed) :
    osgWrite crc32 f =
      some (osgBody f ++
        putU32le (crc32 ((osgBody f).take ((osgBody f).length % 2 ^ 32)))) := by
  rw [osgWrite, if_neg (not_not.mpr (length_osgHeader wellFormed)), osgBody]

/-- A header field of a file that starts with what is written. -/
theorem fieldAt_written (wellFormed : f.WellFormed) (rest : List UInt8) (i : Nat)
    {width value offset : Nat} (found : (headerFields f)[i]? = some (width, value))
    (place : (((headerFields f).take i).map Prod.fst).sum = offset)
    (small : value < 256 ^ width) : fieldAt (osgBody f ++ rest) offset width = value := by
  rw [osgBody, List.append_assoc, List.append_assoc, osgHeader_eq wellFormed,
    fieldAt_encodeFields found place, Nat.mod_eq_of_lt small]

/-- The fields at the offsets where the readers look for them. -/
structure HeaderWritten (f : OsgFile) (buf : List UInt8) : Prop where
  version : fieldAt buf 4 2 = f.formatVersion.toNat
  iqFormat : fieldAt buf 6 1 = f.iqFormat.toNat
  numerologyMu : fieldAt buf 7 1 = f.numerologyMu.toNat
  nofPrb : fieldAt buf 8 2 = f.nofPrb.toNat
  nofSymbols : fieldAt buf 10 1 = f.nofSymbolsPerSlot.toNat
  nofEaxc : fieldAt buf 11 1 = f.nofEaxc.toNat
  eaxcId : fieldAt buf 12 2 = f.eaxcId.toNat
  tbLen : fieldAt buf 16 8 = f.tbLenBytes.toNat
  tbCrcOk : fieldAt buf 24 4 = f.tbCrcOk.toNat
  rnti : fieldAt buf 28 4 = f.rnti.toNat
  harqId : fieldAt buf 32 4 = f.harqId.toNat
  mcsIndex : fieldAt buf 36 4 = f.mcsIndex.toNat
  gridLen : fieldAt buf 40 8 = f.gridPayload.length

theorem headerWritten (wellFormed : f.WellFormed) (rest : List UInt8) :
    HeaderWritten f (osgBody f ++ rest) where
  version := fieldAt_written wellFormed rest 1 rfl (by simp [headerFields]) f.formatVersion.toNat_lt
  iqFormat := fieldAt_written wellFormed rest 2 rfl (by simp [headerFields]) f.iqFormat.toNat_lt
  numerologyMu :=
    fieldAt_written wellFormed rest 3 rfl (by simp [headerFields]) f.numerologyMu.toNat_lt
  nofPrb := fieldAt_written wellFormed rest 4 rfl (by simp [headerFields]) f.nofPrb.toNat_lt
  nofSymbols :=
    fieldAt_written wellFormed rest 5 rfl (by simp [headerFields]) f.nofSymbolsPerSlot.toNat_lt
  nofEaxc := fieldAt_written wellFormed rest 6 rfl (by simp [headerFields]) f.nofEaxc.toNat_lt
  eaxcId := fieldAt_written wellFormed rest 7 rfl (by simp [headerFields]) f.eaxcId.toNat_lt
  tbLen := fieldAt_written wellFormed rest 9 rfl (by simp [headerFields]) f.tbLenBytes.toNat_lt
  tbCrcOk := fieldAt_written wellFormed rest 10 rfl (by simp [headerFields]) f.tbCrcOk.toNat_lt
  rnti := fieldAt_written wellFormed rest 11 rfl (by simp [headerFields]) f.rnti.toNat_lt
  harqId := fieldAt_written wellFormed rest 12 rfl (by simp [headerFields]) f.harqId.toNat_lt
  mcsIndex := fieldAt_written wellFormed rest 13 rfl (by simp [headerFields]) f.mcsIndex.toNat_lt
  gridLen := by
    have size := wellFormed.size
    exact fieldAt_written wellFormed rest 14 rfl (by simp [headerFields]) (by omega)

theorem gridLen_written (wellFormed : f.WellFormed) (rest : List UInt8) :
    gridLen (osgBody f ++ rest) = f.gridPayload.length :=
  (headerWritten wellFormed rest).gridLen

theorem tbLen_written (wellFormed : f.WellFormed) (rest : List UInt8) :
    tbLen (osgBody f ++ rest) = f.tbPayload.length :=
  (headerWritten wellFormed rest).tbLen.trans wellFormed.tb

theorem headerValid_written (wellFormed : f.WellFormed) (rest : List UInt8) :
    HeaderValid (osgBody f ++ rest) := by
  have written := headerWritten wellFormed rest
  refine ⟨?_, ?_, ?_, ?_⟩
  · rw [osgBody, List.append_assoc, List.append_assoc, osgHeader, osgMagic]
    simp
  · rw [written.version, wellFormed.version]
    rfl
  · rw [written.iqFormat, wellFormed.iqFormat]
    rfl
  · rw [gridLen_written wellFormed, written.nofSymbols, written.nofPrb, wellFormed.grid]
    omega

theorem parsedFile_written (wellFormed : f.WellFormed) (rest : List UInt8) :
    parsedFile (osgBody f ++ rest) = f := by
  have header := length_osgHeader wellFormed
  have grid : ((osgBody f ++ rest).drop kFixedHeaderBytes).take f.gridPayload.length =
      f.gridPayload := by
    rw [osgBody, List.append_assoc, List.append_assoc, List.drop_append_of_le_length header.ge,
      List.drop_of_length_le header.le, List.nil_append,
      List.take_append_of_le_length (le_refl _), List.take_length]
  have tb : ((osgBody f ++ rest).drop (kFixedHeaderBytes + f.gridPayload.length)).take
      f.tbPayload.length = f.tbPayload := by
    have front : (osgHeader f ++ f.gridPayload).length =
        kFixedHeaderBytes + f.gridPayload.length := by
      rw [List.length_append, header]
    rw [osgBody, List.append_assoc, List.drop_append_of_le_length front.ge,
      List.drop_of_length_le front.le, List.nil_append,
      List.take_append_of_le_length (le_refl _), List.take_length]
  have written := headerWritten wellFormed rest
  simp only [parsedFile, gridLen_written wellFormed, tbLen_written wellFormed, grid, tb,
    written.version, written.iqFormat, written.numerologyMu, written.nofPrb, written.nofSymbols,
    written.nofEaxc, written.eaxcId, written.tbLen, written.tbCrcOk, written.rnti, written.harqId,
    written.mcsIndex, UInt8.ofNat_toNat, UInt16.ofNat_toNat, UInt32.ofNat_toNat,
    UInt64.ofNat_toNat]

theorem length_osgBody (wellFormed : f.WellFormed) :
    (osgBody f).length = kFixedHeaderBytes + f.gridPayload.length + f.tbPayload.length := by
  rw [osgBody, List.length_append, List.length_append, length_osgHeader wellFormed]

/-- The sums of the readers do not wrap on what is written. -/
theorem offsets_written (wellFormed : f.WellFormed) (rest : List UInt8) :
    crcOffset (osgBody f ++ rest) = (osgBody f).length ∧
      needBytes (osgBody f ++ rest) = (osgBody f).length + kTrailerBytes := by
  have size := wellFormed.size
  rw [crcOffset, needBytes, gridLen_written wellFormed, tbLen_written wellFormed,
    length_osgBody wellFormed]
  exact ⟨Nat.mod_eq_of_lt (by omega), Nat.mod_eq_of_lt (by omega)⟩

/-- The reader accepts what is written: its checksum is taken over the same bytes. -/
theorem readVerdict_written (crc32 : List UInt8 → UInt32) (wellFormed : f.WellFormed) :
    readVerdict crc32 (· % 2 ^ 32) (osgBody f ++
      putU32le (crc32 ((osgBody f).take ((osgBody f).length % 2 ^ 32)))) = .accepted := by
  rw [putU32le_eq]
  have body := length_osgBody wellFormed
  obtain ⟨offset, need⟩ := offsets_written wellFormed
    (fieldBytes 4 (crc32 ((osgBody f).take ((osgBody f).length % 2 ^ 32))).toNat)
  have matched : CrcMatches (osgBody f ++
      fieldBytes 4 (crc32 ((osgBody f).take ((osgBody f).length % 2 ^ 32))).toNat) crc32
        ((osgBody f).length % 2 ^ 32) := by
    rw [CrcMatches, offset, List.take_append_of_le_length (Nat.mod_le _ _), kTrailerBytes,
      fieldAt_append_fieldBytes]
    exact Nat.mod_eq_of_lt (UInt32.toNat_lt _)
  rw [readVerdict, need, offset, gridLen_written wellFormed, if_neg, if_neg (by omega),
    if_neg (not_not.mpr matched), if_neg (by omega)]
  rw [List.length_append, length_fieldBytes, kTrailerBytes]
  rintro (short | invalid | long)
  · omega
  · exact invalid (headerValid_written wellFormed _)
  · omega

/-- A part of what is written is refused: it is too short for its own header. -/
theorem readVerdict_of_part (crc32 : List UInt8 → UInt32) (covered : Nat → Nat)
    (wellFormed : f.WellFormed) {part trailer missing : List UInt8}
    (written : osgBody f ++ trailer = part ++ missing)
    (short : part.length < (osgBody f).length + kTrailerBytes) :
    readVerdict crc32 covered part = .refused := by
  rw [readVerdict]
  refine if_pos ?_
  rcases Nat.lt_or_ge part.length (kFixedHeaderBytes + kTrailerBytes) with tiny | long
  · exact .inl tiny
  · have header : kFixedHeaderBytes = 48 := rfl
    have grid : gridLen part = gridLen (osgBody f ++ trailer) := by
      rw [written, gridLen, gridLen, fieldAt_append_left (by omega)]
    have tb : tbLen part = tbLen (osgBody f ++ trailer) := by
      rw [written, tbLen, tbLen, fieldAt_append_left (by omega)]
    have need : needBytes part = needBytes (osgBody f ++ trailer) := by
      rw [needBytes, needBytes, grid, tb]
    refine .inr (.inr ?_)
    rwa [need, (offsets_written wellFormed trailer).2]

end Written

/-- What `osg_write` writes, `osg_read` reads back, and every strict part of it from the start
is refused without touching `out`; for every checksum function. -/
theorem osgRead_osgWrite (crc32 : List UInt8 → UInt32) {f : OsgFile} (wellFormed : f.WellFormed)
    (out : OsgFile) :
    ∃ content : FileContent, osgWrite crc32 f = some content.bytes ∧
      osgRead crc32 (some content) out = some (.ok, f) ∧
      ∀ part : FileContent, part.bytes <+: content.bytes → part.bytes ≠ content.bytes →
        ∃ status, status ≠ .ok ∧ osgRead crc32 (some part) out = some (status, out) := by
  have size := wellFormed.size
  have body := length_osgBody wellFormed
  obtain ⟨trailer, trailerEq⟩ : ∃ trailer, trailer =
      putU32le (crc32 ((osgBody f).take ((osgBody f).length % 2 ^ 32))) := ⟨_, rfl⟩
  have length : (osgBody f ++ trailer).length = (osgBody f).length + kTrailerBytes := by
    rw [List.length_append, trailerEq, putU32le_eq, length_fieldBytes, kTrailerBytes]
  obtain ⟨content, bytes⟩ : ∃ content : FileContent, content.bytes = osgBody f ++ trailer :=
    ⟨⟨osgBody f ++ trailer, by omega⟩, rfl⟩
  refine ⟨content, ?_, ?_, ?_⟩
  · rw [osgWrite_eq crc32 wellFormed, bytes, trailerEq]
  · have outcome := osgRead_of_verdict crc32 content out
    have accepted : readVerdict crc32 (· % 2 ^ 32) content.bytes = .accepted := by
      rw [bytes, trailerEq]
      exact readVerdict_written crc32 wellFormed
    rw [accepted] at outcome
    rw [outcome, bytes, parsedFile_written wellFormed]
  · rintro part ⟨missing, written⟩ strict
    have short : part.bytes.length < (osgBody f).length + kTrailerBytes := by
      rw [← length, ← bytes, ← written, List.length_append]
      have nonempty : missing ≠ [] := by
        rintro rfl
        exact strict (by rw [← written, List.append_nil])
      have := List.length_pos_iff.mpr nonempty
      omega
    have outcome := osgRead_of_verdict crc32 part out
    rw [readVerdict_of_part crc32 _ wellFormed (bytes.symm.trans written.symm) short] at outcome
    exact outcome

/-- A file with one resource block in one symbol and a block of three bytes. -/
private def smallFile : OsgFile where
  formatVersion := 1
  iqFormat := 0
  numerologyMu := 1
  nofPrb := 1
  nofSymbolsPerSlot := 1
  nofEaxc := 1
  eaxcId := 0x0102
  tbLenBytes := 3
  tbCrcOk := 1
  rnti := 0x4601
  harqId := 5
  mcsIndex := 21
  gridPayload := List.replicate 48 7
  tbPayload := [1, 2, 3]

private theorem smallFile_wellFormed : smallFile.WellFormed where
  version := rfl
  iqFormat := rfl
  grid := by decide
  tb := rfl
  size := by decide

/-- The small file comes back. -/
theorem osgRead_osgWrite_small :
    ∃ content : FileContent, osgWrite ieeeCrc32 smallFile = some content.bytes ∧
      osgRead ieeeCrc32 (some content) smallFile = some (.ok, smallFile) := by
  obtain ⟨content, written, read, _⟩ :=
    osgRead_osgWrite ieeeCrc32 smallFile_wellFormed smallFile
  exact ⟨content, written, read⟩

end RanInline.Osg
