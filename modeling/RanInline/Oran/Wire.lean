/-
Module: RanInline.Oran.Wire
Purpose: The frame descriptor of oi_frame_desc.h and the header layout of
  oi_oran_wire_layout.h, with bounded reads of a received frame.
Trusted boundary: none
Main exports: OiFrameDesc, byteAt, be16At, byteAt_eq
-/
import Mathlib.Data.Nat.Bitwise

namespace RanInline.Oran

/-- `oi_frame_desc`.  The reserved bytes are always zero and are left out. -/
structure OiFrameDesc where
  arenaOffset : UInt64
  frameLen : UInt32
  slotId : UInt32
  symbolId : UInt8
  sectionId : UInt8
  filterIndex : UInt8
  flags : UInt8
  startPrb : UInt16
  nofPrbs : UInt16
  ethHdrLen : UInt8
  payloadByteOff : UInt8
deriving DecidableEq, Repr

/-- A descriptor of all-zero bytes. -/
def OiFrameDesc.zero : OiFrameDesc where
  arenaOffset := 0
  frameLen := 0
  slotId := 0
  symbolId := 0
  sectionId := 0
  filterIndex := 0
  flags := 0
  startPrb := 0
  nofPrbs := 0
  ethHdrLen := 0
  payloadByteOff := 0

/-! ### Header layout -/

/-- `OI_WIRE_ETH_HEADER_BYTES_UNTAGGED`. -/
def wireEthHeaderBytesUntagged : Nat := 14

/-- `OI_WIRE_ETH_HEADER_BYTES_TAGGED`. -/
def wireEthHeaderBytesTagged : Nat := 18

/-- `OI_WIRE_ECPRI_HEADER_BYTES`: common header and IQ data fields. -/
def wireEcpriHeaderBytes : Nat := 4 + 4

/-- `OI_WIRE_ORAN_MSG_HEADER_BYTES`. -/
def wireOranMsgHeaderBytes : Nat := 4

/-- `OI_WIRE_ORAN_HEADER_BYTES`: message header and section header. -/
def wireOranHeaderBytes : Nat := wireOranMsgHeaderBytes + 4

/-- `OI_WIRE_PAYLOAD_OFFSET`. -/
def wirePayloadOffset (ethLen udcomphdrBytes : Nat) : Nat :=
  ethLen + wireEcpriHeaderBytes + wireOranHeaderBytes + udcomphdrBytes

/-- `OI_WIRE_OFF_ECPRI_REV_TYPE`. -/
def wireOffEcpriRevType (ethLen : Nat) : Nat := ethLen + 0

/-- `OI_WIRE_OFF_ECPRI_MSG_TYPE`. -/
def wireOffEcpriMsgType (ethLen : Nat) : Nat := ethLen + 1

/-- `OI_WIRE_OFF_ORAN_DIR_VER_FILTER`. -/
def wireOffOranDirVerFilter (ethLen : Nat) : Nat := ethLen + wireEcpriHeaderBytes + 0

/-- `OI_WIRE_OFF_ORAN_SLOTLO_SYMBOL`. -/
def wireOffOranSlotloSymbol (ethLen : Nat) : Nat := ethLen + wireEcpriHeaderBytes + 3

/-- `OI_WIRE_OFF_ORAN_SECTIONID_HI`. -/
def wireOffOranSectionidHi (ethLen : Nat) : Nat :=
  ethLen + wireEcpriHeaderBytes + wireOranMsgHeaderBytes + 0

/-- `OI_WIRE_OFF_ORAN_SECTIONID_LO_FLAGS_PRBHI`. -/
def wireOffOranSectionidLoFlagsPrbhi (ethLen : Nat) : Nat :=
  ethLen + wireEcpriHeaderBytes + wireOranMsgHeaderBytes + 1

/-- `OI_WIRE_OFF_ORAN_STARTPRB_LO`. -/
def wireOffOranStartprbLo (ethLen : Nat) : Nat :=
  ethLen + wireEcpriHeaderBytes + wireOranMsgHeaderBytes + 2

/-- `OI_WIRE_OFF_ORAN_NOF_PRB`. -/
def wireOffOranNofPrb (ethLen : Nat) : Nat :=
  ethLen + wireEcpriHeaderBytes + wireOranMsgHeaderBytes + 3

/-- `OI_WIRE_OFF_ETHERTYPE_UNTAGGED`. -/
def wireOffEthertypeUntagged : Nat := 12

/-- `OI_WIRE_OFF_VLAN_TPID`. -/
def wireOffVlanTpid : Nat := 12

/-- `OI_WIRE_OFF_ETHERTYPE_TAGGED`. -/
def wireOffEthertypeTagged : Nat := 16

/-- `OI_WIRE_ETHERTYPE_ORAN`. -/
def wireEthertypeOran : Nat := 0xAEFE

/-- `OI_WIRE_VLAN_TPID_8021Q`. -/
def wireVlanTpid8021q : Nat := 0x8100

/-- `OI_WIRE_MVP_FILTER_INDEX`. -/
def wireMvpFilterIndex : Nat := 0

/-- `OI_WIRE_MVP_PAYLOAD_VERSION`. -/
def wireMvpPayloadVersion : Nat := 1

/-- `OI_WIRE_BYTES_PER_RE`: 16-bit I and 16-bit Q. -/
def wireBytesPerRe : Nat := 4

/-- `OI_WIRE_RES_PER_PRB`. -/
def wireResPerPrb : Nat := 12

@[simp] theorem wirePayloadOffset_eq (ethLen udcomphdrBytes : Nat) :
    wirePayloadOffset ethLen udcomphdrBytes = ethLen + 16 + udcomphdrBytes := rfl

@[simp] theorem wireOffEcpriRevType_eq (ethLen : Nat) :
    wireOffEcpriRevType ethLen = ethLen := rfl

@[simp] theorem wireOffEcpriMsgType_eq (ethLen : Nat) :
    wireOffEcpriMsgType ethLen = ethLen + 1 := rfl

@[simp] theorem wireOffOranDirVerFilter_eq (ethLen : Nat) :
    wireOffOranDirVerFilter ethLen = ethLen + 8 := rfl

@[simp] theorem wireOffOranSlotloSymbol_eq (ethLen : Nat) :
    wireOffOranSlotloSymbol ethLen = ethLen + 11 := rfl

@[simp] theorem wireOffOranSectionidHi_eq (ethLen : Nat) :
    wireOffOranSectionidHi ethLen = ethLen + 12 := rfl

@[simp] theorem wireOffOranSectionidLoFlagsPrbhi_eq (ethLen : Nat) :
    wireOffOranSectionidLoFlagsPrbhi ethLen = ethLen + 13 := rfl

@[simp] theorem wireOffOranStartprbLo_eq (ethLen : Nat) :
    wireOffOranStartprbLo ethLen = ethLen + 14 := rfl

@[simp] theorem wireOffOranNofPrb_eq (ethLen : Nat) :
    wireOffOranNofPrb ethLen = ethLen + 15 := rfl

/-! ### Reads -/

/-- `frame_bytes[i]`; `none` is a read outside the frame. -/
def byteAt (frame : List UInt8) (i : Nat) : Option Nat :=
  frame[i]?.map UInt8.toNat

/-- A big-endian 16-bit read. -/
def be16At (frame : List UInt8) (i : Nat) : Option Nat := do
  let hi ← byteAt frame i
  let lo ← byteAt frame (i + 1)
  return (hi <<< 8 ||| lo) % 2 ^ 16

/-- The value of byte `i`, zero outside the frame. -/
def byteVal (frame : List UInt8) (i : Nat) : Nat :=
  (frame.getD i 0).toNat

theorem byteVal_lt (frame : List UInt8) (i : Nat) : byteVal frame i < 256 :=
  (frame.getD i 0).toNat_lt

theorem byteAt_eq {frame : List UInt8} {i : Nat} (inside : i < frame.length) :
    byteAt frame i = some (byteVal frame i) := by
  simp [byteAt, byteVal, inside]

theorem be16At_eq {frame : List UInt8} {i : Nat} (inside : i + 1 < frame.length) :
    be16At frame i = some (byteVal frame i * 256 + byteVal frame (i + 1)) := by
  have hi := byteVal_lt frame i
  have lo := byteVal_lt frame (i + 1)
  have joined : byteVal frame i <<< 8 ||| byteVal frame (i + 1) =
      byteVal frame i * 256 + byteVal frame (i + 1) := by
    rw [← Nat.shiftLeft_add_eq_or_of_lt lo, Nat.shiftLeft_eq]
  simp only [be16At, byteAt_eq (Nat.lt_of_succ_lt inside), byteAt_eq inside,
    Option.bind_eq_bind, Option.bind_some, joined]
  rw [Nat.mod_eq_of_lt (by omega)]
  rfl

end RanInline.Oran
