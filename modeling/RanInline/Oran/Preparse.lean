/-
Module: RanInline.Oran.Preparse
Purpose: oi_oran_preparse_frame, with every read of the frame bounded by its length.
Trusted boundary: none
Main exports: OiPreparseStatus, OiOranPreparseState, PreparseOutcome, oiOranPreparseFrame
-/
import RanInline.Oran.Wire

namespace RanInline.Oran

/-- `oi_preparse_status`. -/
inductive OiPreparseStatus where
  | ok
  | errTruncated
  | errMalformed
deriving DecidableEq, Repr

/-- `oi_oran_preparse_state`. -/
structure OiOranPreparseState where
  hasLastSymbol : Bool
  lastSymbolId : UInt8
  runningSlotId : UInt32
deriving DecidableEq, Repr

/-- The state before the first frame. -/
def OiOranPreparseState.zero : OiOranPreparseState where
  hasLastSymbol := false
  lastSymbolId := 0
  runningSlotId := 0

/-- What a call returns and leaves behind its two pointers. -/
structure PreparseOutcome where
  status : OiPreparseStatus
  state : OiOranPreparseState
  outDesc : OiFrameDesc
deriving DecidableEq, Repr

/-- The EtherType and VLAN detection: the Ethernet header length, or the error to
return.  `none` is a read outside the frame. -/
def detectEthHdrLen (frame : List UInt8) (frameLen : Nat) :
    Option (Except OiPreparseStatus Nat) := do
  if frameLen < wireOffEthertypeUntagged + 2 then
    return .error .errTruncated
  let ethertypeOrTpid ← be16At frame wireOffVlanTpid
  if ethertypeOrTpid = wireVlanTpid8021q then
    if frameLen < wireOffEthertypeTagged + 2 then
      return .error .errTruncated
    let realEthertype ← be16At frame wireOffEthertypeTagged
    if realEthertype ≠ wireEthertypeOran then
      return .error .errMalformed
    return .ok wireEthHeaderBytesTagged
  else
    if ethertypeOrTpid ≠ wireEthertypeOran then
      return .error .errMalformed
    return .ok wireEthHeaderBytesUntagged

/-- The host slot counter: it advances whenever the symbol number decreases. -/
def OiOranPreparseState.advance (state : OiOranPreparseState) (symbolId : UInt8) :
    OiOranPreparseState where
  hasLastSymbol := true
  lastSymbolId := symbolId
  runningSlotId :=
    if state.hasLastSymbol = true ∧ symbolId < state.lastSymbolId then
      state.runningSlotId + 1
    else state.runningSlotId

/-- The fields decoded from the section header, and the assignments to `*out_desc`.  A
count of zero PRBs stands for the whole band. -/
def fillDesc (outDesc : OiFrameDesc) (runningSlotId : UInt32)
    (symbolId filterIndex sectionIdHi sectionLoFlagsPrbhi startPrbLo nofPrb ethHdrLen
      payloadByteOff : Nat) : OiFrameDesc :=
  let sectionId := (sectionIdHi <<< 4 ||| sectionLoFlagsPrbhi >>> 4) % 2 ^ 16
  let isEveryRbUsed := if (sectionLoFlagsPrbhi >>> 3) &&& 1 = 0 then 1 else 0
  let useCurrentSymbolNumber := if (sectionLoFlagsPrbhi >>> 2) &&& 1 = 0 then 1 else 0
  let startPrb := ((sectionLoFlagsPrbhi &&& 0x03) <<< 8 ||| startPrbLo) % 2 ^ 16
  { outDesc with
    slotId := runningSlotId
    symbolId := UInt8.ofNat symbolId
    sectionId := UInt8.ofNat sectionId
    filterIndex := UInt8.ofNat filterIndex
    flags := UInt8.ofNat ((if isEveryRbUsed ≠ 0 then 0x01 else 0) |||
      (if useCurrentSymbolNumber ≠ 0 then 0x02 else 0))
    startPrb := UInt16.ofNat (if nofPrb = 0 then 0 else startPrb)
    nofPrbs := UInt16.ofNat (if nofPrb = 0 then 51 else nofPrb)
    ethHdrLen := UInt8.ofNat ethHdrLen
    payloadByteOff := UInt8.ofNat payloadByteOff }

/-- The rest of `oi_oran_preparse_frame`, once the Ethernet header length is known. -/
def preparseHeaders (state : OiOranPreparseState) (frame : List UInt8) (frameLen : Nat)
    (udcomphdrBytes : UInt8) (outDesc : OiFrameDesc) (ethHdrLen : Nat) :
    Option PreparseOutcome := do
  let payloadByteOff := wirePayloadOffset ethHdrLen udcomphdrBytes.toNat
  if frameLen < payloadByteOff then
    return { status := .errTruncated, state, outDesc }
  -- eCPRI common header
  let ecpriRevType ← byteAt frame (wireOffEcpriRevType ethHdrLen)
  let ecpriRevision := ecpriRevType >>> 4
  let ecpriMsgType ← byteAt frame (wireOffEcpriMsgType ethHdrLen)
  if ecpriRevision ≠ 1 ∨ ecpriMsgType ≠ 0x00 then
    return { status := .errMalformed, state, outDesc }
  -- O-RAN U-plane message header
  let dirVerFilter ← byteAt frame (wireOffOranDirVerFilter ethHdrLen)
  let oranVersion := (dirVerFilter >>> 4) &&& 0x07
  let filterIndex := dirVerFilter &&& 0x0F
  if oranVersion ≠ wireMvpPayloadVersion ∨ filterIndex ≠ wireMvpFilterIndex then
    return { status := .errMalformed, state, outDesc }
  let slotAndSymbol ← byteAt frame (wireOffOranSlotloSymbol ethHdrLen)
  let symbolId := slotAndSymbol &&& 0x3F
  if symbolId > 13 then
    return { status := .errMalformed, state, outDesc }
  -- O-RAN section header
  let sectionIdHi ← byteAt frame (wireOffOranSectionidHi ethHdrLen)
  let sectionLoFlagsPrbhi ← byteAt frame (wireOffOranSectionidLoFlagsPrbhi ethHdrLen)
  let startPrbLo ← byteAt frame (wireOffOranStartprbLo ethHdrLen)
  let nofPrb ← byteAt frame (wireOffOranNofPrb ethHdrLen)
  let advanced := state.advance (UInt8.ofNat symbolId)
  return {
    status := .ok
    state := advanced
    outDesc := fillDesc outDesc advanced.runningSlotId symbolId filterIndex sectionIdHi
      sectionLoFlagsPrbhi startPrbLo nofPrb ethHdrLen payloadByteOff }

/-- `oi_oran_preparse_frame`.  `none` is a read outside the frame. -/
def oiOranPreparseFrame (state : OiOranPreparseState) (frame : List UInt8) (frameLen : Nat)
    (udcomphdrBytes : UInt8) (outDesc : OiFrameDesc) : Option PreparseOutcome := do
  match ← detectEthHdrLen frame frameLen with
  | .error status => return { status, state, outDesc }
  | .ok ethHdrLen => preparseHeaders state frame frameLen udcomphdrBytes outDesc ethHdrLen

end RanInline.Oran
