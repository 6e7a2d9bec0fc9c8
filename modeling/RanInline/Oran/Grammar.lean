/-
Module: RanInline.Oran.Grammar
Purpose: The language oi_oran_preparse_frame accepts, the descriptor it yields, and what an
  802.1Q tag changes.
Trusted boundary: none
Main exports: Accepts, Truncated, Describes, oiOranPreparseFrame_of_accepts, preparse_grammar
-/
import RanInline.Oran.Preparse

namespace RanInline.Oran

/-! ### The accepted language -/

/-- Bytes 12 and 13 hold the 802.1Q tag protocol identifier. -/
def Tagged (frame : List UInt8) : Prop :=
  byteVal frame 12 = 0x81 ∧ byteVal frame 13 = 0x00

/-- The frame has one of the two Ethernet headers, of `hdr` bytes. -/
def EthHeader (frame : List UInt8) (hdr : Nat) : Prop :=
  (hdr = 14 ∧ byteVal frame 12 = 0xAE ∧ byteVal frame 13 = 0xFE) ∨
    (hdr = 18 ∧ Tagged frame ∧ byteVal frame 16 = 0xAE ∧ byteVal frame 17 = 0xFE)

/-- The grammar of accepted frames, with an Ethernet header of `hdr` bytes. -/
@[mk_iff]
structure Accepts (frame : List UInt8) (udcomphdrBytes hdr : Nat) : Prop where
  ethernet : EthHeader frame hdr
  complete : hdr + 16 + udcomphdrBytes ≤ frame.length
  revision : byteVal frame hdr / 16 = 1
  messageType : byteVal frame (hdr + 1) = 0
  version : byteVal frame (hdr + 8) / 16 % 8 = 1
  filterIndex : byteVal frame (hdr + 8) % 16 = 0
  symbol : byteVal frame (hdr + 11) % 64 ≤ 13

/-- The frames that end before a header the earlier checks asked for. -/
def Truncated (frame : List UInt8) (udcomphdrBytes : Nat) : Prop :=
  frame.length < 14 ∨ (Tagged frame ∧ frame.length < 18) ∨
    ∃ hdr, EthHeader frame hdr ∧ frame.length < hdr + 16 + udcomphdrBytes

/-- The descriptor of an accepted frame: the bit fields of its headers. -/
structure Describes (frame : List UInt8) (udcomphdrBytes hdr : Nat)
    (state : OiOranPreparseState) (outDesc desc : OiFrameDesc) : Prop where
  slotId : desc.slotId =
    (state.advance (UInt8.ofNat (byteVal frame (hdr + 11) % 64))).runningSlotId
  symbolId : desc.symbolId.toNat = byteVal frame (hdr + 11) % 64
  sectionId : desc.sectionId.toNat =
    byteVal frame (hdr + 12) % 16 * 16 + byteVal frame (hdr + 13) / 16
  filterIndex : desc.filterIndex = 0
  flags : desc.flags.toNat =
    (1 - byteVal frame (hdr + 13) / 8 % 2) + 2 * (1 - byteVal frame (hdr + 13) / 4 % 2)
  startPrb : desc.startPrb.toNat =
    if byteVal frame (hdr + 15) = 0 then 0
    else byteVal frame (hdr + 13) % 4 * 256 + byteVal frame (hdr + 14)
  nofPrbs : desc.nofPrbs.toNat =
    if byteVal frame (hdr + 15) = 0 then 51 else byteVal frame (hdr + 15)
  ethHdrLen : desc.ethHdrLen.toNat = hdr
  payloadByteOff : desc.payloadByteOff.toNat = hdr + 16 + udcomphdrBytes
  untouched : desc.arenaOffset = outDesc.arenaOffset ∧ desc.frameLen = outDesc.frameLen

/-! ### The calls follow the grammar -/

variable {frame : List UInt8} {hdr : Nat}

/-- A nonzero byte is inside the frame. -/
theorem lt_length_of_byteVal {i value : Nat} (read : byteVal frame i = value + 1) :
    i < frame.length := by
  by_contra outside
  simp [byteVal, Nat.le_of_not_lt outside] at read

theorem EthHeader.length_le (header : EthHeader frame hdr) : hdr ≤ frame.length := by
  rcases header with ⟨rfl, _, low⟩ | ⟨rfl, _, _, low⟩
  · exact lt_length_of_byteVal low
  · exact lt_length_of_byteVal low

theorem EthHeader.unique {other : Nat} (header : EthHeader frame hdr)
    (second : EthHeader frame other) : other = hdr := by
  simp only [EthHeader, Tagged] at header second
  omega

/-- The Ethernet-layer detection finds the header of the grammar, and tells the two ways
of not having one apart. -/
theorem detectEthHdrLen_cases (frame : List UInt8) :
    (∃ hdr, EthHeader frame hdr ∧ detectEthHdrLen frame frame.length = some (.ok hdr)) ∨
      ((frame.length < 14 ∨ (Tagged frame ∧ frame.length < 18)) ∧
        (∀ hdr, ¬ EthHeader frame hdr) ∧
        detectEthHdrLen frame frame.length = some (.error .errTruncated)) ∨
      (¬ (frame.length < 14 ∨ (Tagged frame ∧ frame.length < 18)) ∧
        (∀ hdr, ¬ EthHeader frame hdr) ∧
        detectEthHdrLen frame frame.length = some (.error .errMalformed)) := by
  have low := byteVal_lt frame 13
  have lowTagged := byteVal_lt frame 17
  by_cases short : frame.length < 14
  · refine .inr (.inl ⟨.inl short, fun hdr header => ?_, ?_⟩)
    · have := header.length_le
      simp only [EthHeader] at header
      omega
    · simp [detectEthHdrLen, wireOffEthertypeUntagged, short]
  have read := be16At_eq (show 12 + 1 < frame.length by omega)
  by_cases tagged : Tagged frame
  · have tpid : byteVal frame 12 * 256 + byteVal frame 13 = 0x8100 := by
      simp only [Tagged] at tagged
      omega
    by_cases cut : frame.length < 18
    · refine .inr (.inl ⟨.inr ⟨tagged, cut⟩, fun hdr header => ?_, ?_⟩)
      · have := header.length_le
        simp only [EthHeader, Tagged] at header tagged
        omega
      · simp [detectEthHdrLen, wireOffEthertypeUntagged, wireOffVlanTpid, wireVlanTpid8021q,
          wireOffEthertypeTagged, short, cut, read, tpid]
    have readTagged := be16At_eq (show 16 + 1 < frame.length by omega)
    by_cases oran : byteVal frame 16 * 256 + byteVal frame 17 = 0xAEFE
    · refine .inl ⟨18, .inr ⟨rfl, tagged, by omega, by omega⟩, ?_⟩
      simp [detectEthHdrLen, wireOffEthertypeUntagged, wireOffVlanTpid, wireVlanTpid8021q,
        wireOffEthertypeTagged, wireEthertypeOran, wireEthHeaderBytesTagged, short, cut, read,
        tpid, readTagged, oran]
    · refine .inr (.inr ⟨by simp [short, cut], fun hdr header => ?_, ?_⟩)
      · simp only [EthHeader, Tagged] at header tagged
        omega
      · simp [detectEthHdrLen, wireOffEthertypeUntagged, wireOffVlanTpid, wireVlanTpid8021q,
          wireOffEthertypeTagged, wireEthertypeOran, short, cut, read, tpid, readTagged, oran]
  · have noTpid : byteVal frame 12 * 256 + byteVal frame 13 ≠ 0x8100 := by
      simp only [Tagged] at tagged
      omega
    by_cases oran : byteVal frame 12 * 256 + byteVal frame 13 = 0xAEFE
    · refine .inl ⟨14, .inl ⟨rfl, by omega, by omega⟩, ?_⟩
      simp [detectEthHdrLen, wireOffEthertypeUntagged, wireOffVlanTpid, wireVlanTpid8021q,
        wireEthertypeOran, wireEthHeaderBytesUntagged, short, read, oran]
    · refine .inr (.inr ⟨by simp [short, tagged], fun hdr header => ?_, ?_⟩)
      · simp only [EthHeader] at header
        rcases header with ⟨_, high, low⟩ | ⟨_, isTagged, _⟩
        · omega
        · exact tagged isTagged
      · simp [detectEthHdrLen, wireOffEthertypeUntagged, wireOffVlanTpid, wireVlanTpid8021q,
          wireEthertypeOran, short, read, noTpid, oran]

section Fields

variable (state : OiOranPreparseState) (outDesc : OiFrameDesc) (udcomphdrBytes : UInt8)

/-- The descriptor of the header bytes behind an Ethernet header of `hdr` bytes. -/
def headerDesc (frame : List UInt8) (hdr : Nat) : OiFrameDesc :=
  let symbolId := byteVal frame (hdr + 11) % 64
  fillDesc outDesc (state.advance (UInt8.ofNat symbolId)).runningSlotId symbolId
    (byteVal frame (hdr + 8) % 16) (byteVal frame (hdr + 12)) (byteVal frame (hdr + 13))
    (byteVal frame (hdr + 14)) (byteVal frame (hdr + 15)) hdr (hdr + 16 + udcomphdrBytes.toNat)

/-- The call on a frame with all its headers, as a function of the header bytes. -/
theorem preparseHeaders_eq (complete : hdr + 16 + udcomphdrBytes.toNat ≤ frame.length) :
    preparseHeaders state frame frame.length udcomphdrBytes outDesc hdr =
      if ¬ byteVal frame hdr / 16 = 1 ∨ ¬ byteVal frame (hdr + 1) = 0 then
        some { status := .errMalformed, state, outDesc }
      else if ¬ byteVal frame (hdr + 8) / 16 % 8 = 1 ∨ ¬ byteVal frame (hdr + 8) % 16 = 0 then
        some { status := .errMalformed, state, outDesc }
      else if 13 < byteVal frame (hdr + 11) % 64 then
        some { status := .errMalformed, state, outDesc }
      else
        some { status := .ok
               state := state.advance (UInt8.ofNat (byteVal frame (hdr + 11) % 64))
               outDesc := headerDesc state outDesc udcomphdrBytes frame hdr } := by
  have notShort : ¬ frame.length < hdr + 16 + udcomphdrBytes.toNat := by omega
  have first : byteAt frame hdr = some (byteVal frame hdr) := byteAt_eq (by omega)
  have read : ∀ offset < 16, byteAt frame (hdr + offset) = some (byteVal frame (hdr + offset)) :=
    fun offset small => byteAt_eq (by omega)
  have mask7 (value : Nat) : value &&& 7 = value % 8 := Nat.and_two_pow_sub_one_eq_mod value 3
  have mask15 (value : Nat) : value &&& 15 = value % 16 := Nat.and_two_pow_sub_one_eq_mod value 4
  have mask63 (value : Nat) : value &&& 63 = value % 64 := Nat.and_two_pow_sub_one_eq_mod value 6
  simp [preparseHeaders, headerDesc, notShort, first, read, mask7, mask15, mask63,
    Nat.shiftRight_eq_div_pow, wireMvpPayloadVersion, wireMvpFilterIndex]

/-- A disjoint join of two bit fields is a sum. -/
private theorem join_bits {low bits : Nat} (high : Nat) (small : low < 2 ^ bits) :
    high <<< bits ||| low = high * 2 ^ bits + low := by
  rw [← Nat.shiftLeft_add_eq_or_of_lt small, Nat.shiftLeft_eq]

/-- The descriptor of the header bytes is the one the grammar describes. -/
theorem describes_headerDesc (dialect : udcomphdrBytes = 0 ∨ udcomphdrBytes = 2)
    (accepts : Accepts frame udcomphdrBytes.toNat hdr) :
    Describes frame udcomphdrBytes.toNat hdr state outDesc
      (headerDesc state outDesc udcomphdrBytes frame hdr) := by
  have small (i : Nat) : byteVal frame i < 256 := byteVal_lt frame i
  have header : hdr ≤ 18 := by
    have := accepts.ethernet
    simp only [EthHeader] at this
    omega
  have extension : udcomphdrBytes.toNat ≤ 2 := by
    rcases dialect with rfl | rfl <;> decide
  have mask1 (value : Nat) : value &&& 1 = value % 2 := Nat.and_two_pow_sub_one_eq_mod value 1
  have mask3 (value : Nat) : value &&& 3 = value % 4 := Nat.and_two_pow_sub_one_eq_mod value 2
  have hi := small (hdr + 12)
  have lo := small (hdr + 13)
  have startLo := small (hdr + 14)
  have count := small (hdr + 15)
  refine ⟨rfl, ?_, ?_, ?_, ?_, ?_, ?_, ?_, ?_, rfl, rfl⟩ <;>
    simp only [headerDesc, fillDesc, UInt8.toNat_ofNat', UInt16.toNat_ofNat', mask1, mask3,
      Nat.shiftRight_eq_div_pow]
  · omega
  · rw [join_bits _ (show byteVal frame (hdr + 13) / 2 ^ 4 < 2 ^ 4 by omega)]
    omega
  · simp [accepts.filterIndex]
  · rcases Nat.mod_two_eq_zero_or_one (byteVal frame (hdr + 13) / 2 ^ 3) with every | every <;>
      rcases Nat.mod_two_eq_zero_or_one (byteVal frame (hdr + 13) / 2 ^ 2) with
        current | current <;>
      simp_all
  · rw [join_bits _ (show byteVal frame (hdr + 14) < 2 ^ 8 by omega)]
    split <;> omega
  · split <;> omega
  · omega
  · omega

theorem Accepts.not_truncated {extension : Nat} (accepts : Accepts frame extension hdr) :
    ¬ Truncated frame extension := by
  have length := accepts.ethernet.length_le
  have complete := accepts.complete
  have header := accepts.ethernet
  rintro (short | ⟨tagged, short⟩ | ⟨other, second, short⟩)
  · simp only [EthHeader] at header
    omega
  · simp only [EthHeader, Tagged] at header tagged
    omega
  · have := header.unique second
    omega

/-- The three outcomes of a call, and the frames that lead to each. -/
theorem oiOranPreparseFrame_cases (frame : List UInt8) :
    (Truncated frame udcomphdrBytes.toNat ∧
        oiOranPreparseFrame state frame frame.length udcomphdrBytes outDesc =
          some { status := .errTruncated, state, outDesc }) ∨
      (¬ Truncated frame udcomphdrBytes.toNat ∧
        (∀ hdr, ¬ Accepts frame udcomphdrBytes.toNat hdr) ∧
        oiOranPreparseFrame state frame frame.length udcomphdrBytes outDesc =
          some { status := .errMalformed, state, outDesc }) ∨
      ∃ hdr, Accepts frame udcomphdrBytes.toNat hdr ∧
        oiOranPreparseFrame state frame frame.length udcomphdrBytes outDesc =
          some { status := .ok
                 state := state.advance (UInt8.ofNat (byteVal frame (hdr + 11) % 64))
                 outDesc := headerDesc state outDesc udcomphdrBytes frame hdr } := by
  rcases detectEthHdrLen_cases frame with
    ⟨hdr, header, detected⟩ | ⟨short, none, detected⟩ | ⟨long, none, detected⟩
  · have call : oiOranPreparseFrame state frame frame.length udcomphdrBytes outDesc =
        preparseHeaders state frame frame.length udcomphdrBytes outDesc hdr := by
      simp [oiOranPreparseFrame, detected]
    rw [call]
    by_cases short : frame.length < hdr + 16 + udcomphdrBytes.toNat
    · refine .inl ⟨.inr (.inr ⟨hdr, header, short⟩), ?_⟩
      simp [preparseHeaders, short]
    have complete := Nat.le_of_not_lt short
    have malformed (rejected : ¬ Accepts frame udcomphdrBytes.toNat hdr) :
        ¬ Truncated frame udcomphdrBytes.toNat ∧
          ∀ other, ¬ Accepts frame udcomphdrBytes.toNat other := by
      constructor
      · rintro (less | ⟨tagged, less⟩ | ⟨other, second, less⟩)
        · omega
        · simp only [EthHeader, Tagged] at header tagged
          omega
        · exact short (header.unique second ▸ less)
      · intro other accepts
        exact rejected (header.unique accepts.ethernet ▸ accepts)
    rw [preparseHeaders_eq state outDesc udcomphdrBytes complete]
    split
    next wrong =>
      obtain ⟨long, none⟩ := malformed fun accepts =>
        wrong.elim (absurd accepts.revision) (absurd accepts.messageType)
      exact .inr (.inl ⟨long, none, rfl⟩)
    next ecpri =>
      split
      next wrong =>
        obtain ⟨long, none⟩ := malformed fun accepts =>
          wrong.elim (absurd accepts.version) (absurd accepts.filterIndex)
        exact .inr (.inl ⟨long, none, rfl⟩)
      next oran =>
        split
        next wrong =>
          obtain ⟨long, none⟩ := malformed fun accepts => Nat.not_lt.mpr accepts.symbol wrong
          exact .inr (.inl ⟨long, none, rfl⟩)
        next symbol =>
          simp only [not_or, Decidable.not_not] at ecpri oran
          exact .inr (.inr ⟨hdr, ⟨header, complete, ecpri.1, ecpri.2, oran.1, oran.2,
            Nat.le_of_not_lt symbol⟩, rfl⟩)
  · refine .inl ⟨short.elim .inl fun cut => .inr (.inl cut), ?_⟩
    simp [oiOranPreparseFrame, detected]
  · refine .inr (.inl ⟨?_, fun hdr accepts => none hdr accepts.ethernet, ?_⟩)
    · rintro (less | cut | ⟨hdr, header, _⟩)
      · exact long (.inl less)
      · exact long (.inr cut)
      · exact none hdr header
    · simp [oiOranPreparseFrame, detected]

theorem oiOranPreparseFrame_of_truncated (short : Truncated frame udcomphdrBytes.toNat) :
    oiOranPreparseFrame state frame frame.length udcomphdrBytes outDesc =
      some { status := .errTruncated, state, outDesc } := by
  rcases oiOranPreparseFrame_cases state outDesc udcomphdrBytes frame with
    ⟨_, call⟩ | ⟨long, _, _⟩ | ⟨_, accepts, _⟩
  · exact call
  · exact absurd short long
  · exact absurd short accepts.not_truncated

theorem oiOranPreparseFrame_of_malformed (long : ¬ Truncated frame udcomphdrBytes.toNat)
    (rejected : ∀ hdr, ¬ Accepts frame udcomphdrBytes.toNat hdr) :
    oiOranPreparseFrame state frame frame.length udcomphdrBytes outDesc =
      some { status := .errMalformed, state, outDesc } := by
  rcases oiOranPreparseFrame_cases state outDesc udcomphdrBytes frame with
    ⟨short, _⟩ | ⟨_, _, call⟩ | ⟨hdr, accepts, _⟩
  · exact absurd short long
  · exact call
  · exact absurd accepts (rejected hdr)

theorem oiOranPreparseFrame_of_accepts (accepts : Accepts frame udcomphdrBytes.toNat hdr) :
    oiOranPreparseFrame state frame frame.length udcomphdrBytes outDesc =
      some { status := .ok
             state := state.advance (UInt8.ofNat (byteVal frame (hdr + 11) % 64))
             outDesc := headerDesc state outDesc udcomphdrBytes frame hdr } := by
  rcases oiOranPreparseFrame_cases state outDesc udcomphdrBytes frame with
    ⟨short, _⟩ | ⟨_, rejected, _⟩ | ⟨other, second, call⟩
  · exact absurd short accepts.not_truncated
  · exact absurd accepts (rejected hdr)
  · rw [call, second.ethernet.unique accepts.ethernet]

/-- A frame that is parsed follows the grammar. -/
theorem accepts_of_parsed {outcome : PreparseOutcome}
    (parsed : oiOranPreparseFrame state frame frame.length udcomphdrBytes outDesc = some outcome)
    (ok : outcome.status = .ok) :
    ∃ hdr, Accepts frame udcomphdrBytes.toNat hdr ∧
      outcome.outDesc = headerDesc state outDesc udcomphdrBytes frame hdr := by
  rcases oiOranPreparseFrame_cases state outDesc udcomphdrBytes frame with
    ⟨_, call⟩ | ⟨_, _, call⟩ | ⟨hdr, accepts, call⟩
  all_goals
    rw [call, Option.some_inj] at parsed
    subst parsed
  · cases ok
  · cases ok
  · exact ⟨hdr, accepts, rfl⟩

end Fields

/-! ### Inserting an 802.1Q tag -/

/-- The frame with an 802.1Q tag at byte 12. -/
def insertTag (tciHi tciLo : UInt8) (frame : List UInt8) : List UInt8 :=
  frame.take 12 ++ [0x81, 0x00, tciHi, tciLo] ++ frame.drop 12

/-- What the tag may change in an outcome. -/
def PreparseOutcome.retag (outcome : PreparseOutcome) : PreparseOutcome :=
  if outcome.status = .ok then
    { outcome with
      outDesc := {
        outcome.outDesc with
        ethHdrLen := outcome.outDesc.ethHdrLen + 4
        payloadByteOff := outcome.outDesc.payloadByteOff + 4 } }
  else outcome

section Tag

variable {tciHi tciLo : UInt8}

theorem length_insertTag (long : 12 ≤ frame.length) :
    (insertTag tciHi tciLo frame).length = frame.length + 4 := by
  simp [insertTag]
  omega

theorem byteVal_insertTag (long : 12 ≤ frame.length) {i : Nat} (after : 12 ≤ i) :
    byteVal (insertTag tciHi tciLo frame) (i + 4) = byteVal frame i := by
  have taken : (frame.take 12 ++ [0x81, 0x00, tciHi, tciLo]).length = 16 := by simp [long]
  rw [byteVal, byteVal, insertTag, List.getD_append_right _ _ _ _ (by omega), taken]
  simp only [List.getD_eq_getElem?_getD, List.getElem?_drop]
  congr 3
  omega

theorem tagged_insertTag (long : 12 ≤ frame.length) :
    Tagged (insertTag tciHi tciLo frame) := by
  have taken : (frame.take 12).length = 12 := by simp [long]
  constructor <;> simp [byteVal, insertTag, taken, List.getElem?_append_right]

/-- The tag moves the end of an untagged Ethernet header by four bytes. -/
theorem ethHeader_insertTag (long : 12 ≤ frame.length) (untagged : ¬ Tagged frame) :
    EthHeader (insertTag tciHi tciLo frame) (hdr + 4) ↔ EthHeader frame hdr := by
  have tagged : Tagged (insertTag tciHi tciLo frame) := tagged_insertTag long
  have high : byteVal (insertTag tciHi tciLo frame) 16 = byteVal frame 12 :=
    byteVal_insertTag long (Nat.le_refl 12)
  have low : byteVal (insertTag tciHi tciLo frame) 17 = byteVal frame 13 :=
    byteVal_insertTag long (by decide)
  simp only [EthHeader, high, low, tagged, untagged, true_and, false_and, and_false, or_false]
  simp only [Tagged] at tagged
  omega

/-- A tag behind a tag is not an O-RAN EtherType. -/
theorem not_ethHeader_insertTag (long : 12 ≤ frame.length) (tagged : Tagged frame) :
    ¬ EthHeader (insertTag tciHi tciLo frame) hdr := by
  have outer : Tagged (insertTag tciHi tciLo frame) := tagged_insertTag long
  have high : byteVal (insertTag tciHi tciLo frame) 16 = byteVal frame 12 :=
    byteVal_insertTag long (Nat.le_refl 12)
  simp only [EthHeader, Tagged] at outer tagged ⊢
  omega

theorem EthHeader.eq_of_insertTag (long : 12 ≤ frame.length)
    (header : EthHeader (insertTag tciHi tciLo frame) hdr) : hdr = 14 + 4 := by
  have tagged : Tagged (insertTag tciHi tciLo frame) := tagged_insertTag long
  simp only [EthHeader, Tagged] at header tagged
  omega

theorem accepts_insertTag (long : 12 ≤ frame.length) (untagged : ¬ Tagged frame)
    (extension : Nat) :
    Accepts (insertTag tciHi tciLo frame) extension (14 + 4) ↔ Accepts frame extension 14 := by
  have length : (insertTag tciHi tciLo frame).length = frame.length + 4 :=
    length_insertTag long
  have same (i : Nat) (after : 12 ≤ i) :
      byteVal (insertTag tciHi tciLo frame) (i + 4) = byteVal frame i :=
    byteVal_insertTag long after
  have header : EthHeader (insertTag tciHi tciLo frame) (14 + 4) ↔ EthHeader frame 14 :=
    ethHeader_insertTag long untagged
  have first := same 14 (by decide)
  have second := same 15 (by decide)
  have ninth := same 22 (by decide)
  have symbol := same 25 (by decide)
  have complete : 34 + extension ≤ (insertTag tciHi tciLo frame).length ↔
      30 + extension ≤ frame.length := by omega
  simp only [accepts_iff, Nat.reduceAdd] at first second ninth symbol header ⊢
  simp only [header, complete, first, second, ninth, symbol]

theorem truncated_insertTag (long : 12 ≤ frame.length) (untagged : ¬ Tagged frame)
    (extension : Nat) :
    Truncated (insertTag tciHi tciLo frame) extension ↔ Truncated frame extension := by
  have length : (insertTag tciHi tciLo frame).length = frame.length + 4 :=
    length_insertTag long
  have tagged : Tagged (insertTag tciHi tciLo frame) := tagged_insertTag long
  have header (hdr : Nat) :
      EthHeader (insertTag tciHi tciLo frame) (hdr + 4) ↔ EthHeader frame hdr :=
    ethHeader_insertTag long untagged
  constructor
  · rintro (short | ⟨_, short⟩ | ⟨hdr, inner, short⟩)
    · exact .inl (by omega)
    · exact .inl (by omega)
    · obtain rfl := inner.eq_of_insertTag long
      exact .inr (.inr ⟨14, (header 14).mp inner, by omega⟩)
  · rintro (short | ⟨isTagged, _⟩ | ⟨hdr, inner, short⟩)
    · exact .inr (.inl ⟨tagged, by omega⟩)
    · exact absurd isTagged untagged
    · exact .inr (.inr ⟨hdr + 4, (header hdr).mpr inner, by omega⟩)

variable (state : OiOranPreparseState) (outDesc : OiFrameDesc) (udcomphdrBytes : UInt8)

/-- The descriptor of the tagged frame, field by field the one of the untagged frame. -/
theorem headerDesc_insertTag (long : 12 ≤ frame.length) :
    headerDesc state outDesc udcomphdrBytes (insertTag tciHi tciLo frame) (14 + 4) =
      { headerDesc state outDesc udcomphdrBytes frame 14 with
        ethHdrLen := (headerDesc state outDesc udcomphdrBytes frame 14).ethHdrLen + 4
        payloadByteOff :=
          (headerDesc state outDesc udcomphdrBytes frame 14).payloadByteOff + 4 } := by
  have same (i : Nat) (after : 12 ≤ i) :
      byteVal (insertTag tciHi tciLo frame) (i + 4) = byteVal frame i :=
    byteVal_insertTag long after
  have ninth := same 22 (by decide)
  have symbol := same 25 (by decide)
  have sectionHi := same 26 (by decide)
  have sectionLo := same 27 (by decide)
  have start := same 28 (by decide)
  have count := same 29 (by decide)
  have offset : 34 + udcomphdrBytes.toNat = 30 + udcomphdrBytes.toNat + 4 := by omega
  simp only [Nat.reduceAdd] at ninth symbol sectionHi sectionLo start count
  simp only [headerDesc, fillDesc, Nat.reduceAdd, ninth, symbol, sectionHi, sectionLo, start,
    count, offset, UInt8.ofNat_add]
  rfl

/-- An 802.1Q tag in front of an untagged EtherType changes only the two offsets. -/
theorem oiOranPreparseFrame_insertTag (long : 12 ≤ frame.length)
    (untagged : ¬ Tagged frame) :
    oiOranPreparseFrame state (insertTag tciHi tciLo frame)
        (insertTag tciHi tciLo frame).length udcomphdrBytes outDesc =
      (oiOranPreparseFrame state frame frame.length udcomphdrBytes outDesc).map
        PreparseOutcome.retag := by
  have truncated : Truncated (insertTag tciHi tciLo frame) udcomphdrBytes.toNat ↔
      Truncated frame udcomphdrBytes.toNat := truncated_insertTag long untagged _
  have accepted : Accepts (insertTag tciHi tciLo frame) udcomphdrBytes.toNat (14 + 4) ↔
      Accepts frame udcomphdrBytes.toNat 14 := accepts_insertTag long untagged _
  rcases oiOranPreparseFrame_cases state outDesc udcomphdrBytes frame with
    ⟨short, call⟩ | ⟨notShort, rejected, call⟩ | ⟨hdr, accepts, call⟩
  · rw [call, oiOranPreparseFrame_of_truncated _ _ _ (truncated.mpr short)]
    rfl
  · rw [call, oiOranPreparseFrame_of_malformed _ _ _ (fun short => notShort (truncated.mp short))]
    · rfl
    · intro hdr accepts
      obtain rfl := accepts.ethernet.eq_of_insertTag long
      exact rejected 14 (accepted.mp accepts)
  · obtain rfl : hdr = 14 := by
      have := accepts.ethernet
      simp only [EthHeader, untagged, false_and, and_false, or_false] at this
      exact this.1
    have symbol : byteVal (insertTag tciHi tciLo frame) (14 + 4 + 11) = byteVal frame (14 + 11) :=
      byteVal_insertTag long (by decide)
    rw [call, oiOranPreparseFrame_of_accepts _ _ _ (accepted.mpr accepts),
      headerDesc_insertTag _ _ _ long, symbol]
    rfl

/-- A second tag is malformed. -/
theorem oiOranPreparseFrame_insertTag_tagged (long : 14 ≤ frame.length)
    (tagged : Tagged frame) :
    oiOranPreparseFrame state (insertTag tciHi tciLo frame)
        (insertTag tciHi tciLo frame).length udcomphdrBytes outDesc =
      some { status := .errMalformed, state, outDesc } := by
  have length : (insertTag tciHi tciLo frame).length = frame.length + 4 :=
    length_insertTag (by omega)
  have noHeader (hdr : Nat) : ¬ EthHeader (insertTag tciHi tciLo frame) hdr :=
    not_ethHeader_insertTag (by omega) tagged
  refine oiOranPreparseFrame_of_malformed _ _ _ ?_ fun hdr accepts => noHeader hdr accepts.ethernet
  rintro (short | ⟨_, short⟩ | ⟨hdr, header, _⟩)
  · omega
  · omega
  · exact noHeader hdr header

end Tag

/-- `oi_oran_preparse_frame` accepts exactly its grammar.  No call reads outside the
frame, the status follows the order of the checks, a rejected frame leaves the state and
the descriptor alone, and an accepted one fills the descriptor with its bit fields.  A
tag in front of an untagged EtherType moves the two offsets and nothing else; a second tag
makes the frame malformed. -/
theorem preparse_grammar (state : OiOranPreparseState) (frame : List UInt8)
    (outDesc : OiFrameDesc) {udcomphdrBytes : UInt8}
    (dialect : udcomphdrBytes = 0 ∨ udcomphdrBytes = 2) :
    ∃ outcome, oiOranPreparseFrame state frame frame.length udcomphdrBytes outDesc =
        some outcome ∧
      (outcome.status = .ok ↔ ∃ hdr, Accepts frame udcomphdrBytes.toNat hdr) ∧
      (outcome.status = .errTruncated ↔ Truncated frame udcomphdrBytes.toNat) ∧
      (outcome.status = .errMalformed ↔
        ¬ Truncated frame udcomphdrBytes.toNat ∧
          ∀ hdr, ¬ Accepts frame udcomphdrBytes.toNat hdr) ∧
      (outcome.status ≠ .ok → outcome.state = state ∧ outcome.outDesc = outDesc) ∧
      (∀ hdr, Accepts frame udcomphdrBytes.toNat hdr →
        Describes frame udcomphdrBytes.toNat hdr state outDesc outcome.outDesc) ∧
      (∀ tciHi tciLo, 12 ≤ frame.length → ¬ Tagged frame →
        oiOranPreparseFrame state (insertTag tciHi tciLo frame)
          (insertTag tciHi tciLo frame).length udcomphdrBytes outDesc = some outcome.retag) ∧
      (∀ tciHi tciLo, 14 ≤ frame.length → Tagged frame →
        oiOranPreparseFrame state (insertTag tciHi tciLo frame)
          (insertTag tciHi tciLo frame).length udcomphdrBytes outDesc =
            some { status := .errMalformed, state, outDesc }) := by
  have retagged : ∀ tciHi tciLo, 12 ≤ frame.length → ¬ Tagged frame →
      oiOranPreparseFrame state (insertTag tciHi tciLo frame)
          (insertTag tciHi tciLo frame).length udcomphdrBytes outDesc =
        (oiOranPreparseFrame state frame frame.length udcomphdrBytes outDesc).map
          PreparseOutcome.retag :=
    fun _ _ long untagged =>
      oiOranPreparseFrame_insertTag state outDesc udcomphdrBytes long untagged
  have second : ∀ tciHi tciLo, 14 ≤ frame.length → Tagged frame →
      oiOranPreparseFrame state (insertTag tciHi tciLo frame)
          (insertTag tciHi tciLo frame).length udcomphdrBytes outDesc =
        some { status := .errMalformed, state, outDesc } :=
    fun _ _ long tagged =>
      oiOranPreparseFrame_insertTag_tagged state outDesc udcomphdrBytes long tagged
  rcases oiOranPreparseFrame_cases state outDesc udcomphdrBytes frame with
    ⟨short, call⟩ | ⟨notShort, rejected, call⟩ | ⟨hdr, accepts, call⟩
  · have rejected (hdr : Nat) : ¬ Accepts frame udcomphdrBytes.toNat hdr :=
      fun accepts => accepts.not_truncated short
    refine ⟨_, call, ?_, ?_, ?_, ?_, ?_, ?_, second⟩
    · simp [rejected]
    · simp [short]
    · simp [short]
    · simp
    · exact fun hdr accepts => absurd accepts (rejected hdr)
    · intro tciHi tciLo long untagged
      rw [retagged tciHi tciLo long untagged, call, Option.map_some]
  · refine ⟨_, call, ?_, ?_, ?_, ?_, ?_, ?_, second⟩
    · simp [rejected]
    · simp [notShort]
    · simp [notShort, rejected]
    · simp
    · exact fun hdr accepts => absurd accepts (rejected hdr)
    · intro tciHi tciLo long untagged
      rw [retagged tciHi tciLo long untagged, call, Option.map_some]
  · have notShort := accepts.not_truncated
    refine ⟨_, call, ?_, ?_, ?_, ?_, ?_, ?_, second⟩
    · simpa using ⟨hdr, accepts⟩
    · simp [notShort]
    · simpa [notShort] using ⟨hdr, accepts⟩
    · simp
    · intro other second
      obtain rfl := accepts.ethernet.unique second.ethernet
      exact describes_headerDesc state outDesc udcomphdrBytes dialect accepts
    · intro tciHi tciLo long untagged
      rw [retagged tciHi tciLo long untagged, call, Option.map_some]

/-- An untagged frame of symbol 9, with a full-band section and no IQ bytes. -/
private def untaggedFrame : List UInt8 :=
  List.replicate 12 0 ++ [0xAE, 0xFE, 0x10, 0x00, 0, 0, 0, 0, 0, 0, 0x10, 0, 0, 9, 0, 0, 0, 0]

/-- The untagged frame is accepted, and describes the whole band. -/
theorem preparse_grammar_untagged :
    ∃ outcome, oiOranPreparseFrame .zero untaggedFrame untaggedFrame.length 0 .zero =
        some outcome ∧
      outcome.status = .ok ∧
      Describes untaggedFrame 0 14 .zero .zero outcome.outDesc ∧
      outcome.outDesc.symbolId = 9 ∧ outcome.outDesc.nofPrbs = 51 := by
  have accepts : Accepts untaggedFrame 0 14 := by
    refine ⟨.inl ⟨rfl, ?_, ?_⟩, ?_, ?_, ?_, ?_, ?_, ?_⟩ <;> decide
  obtain ⟨outcome, call, ok, _, _, _, describes, _⟩ :=
    preparse_grammar .zero untaggedFrame .zero (.inl rfl)
  refine ⟨outcome, call, ok.mpr ⟨14, accepts⟩, describes 14 accepts, ?_⟩
  have evaluated := call
  rw [oiOranPreparseFrame_of_accepts _ _ _ accepts] at evaluated
  cases evaluated
  decide

/-- A tag inserted into an accepted frame may make it malformed: the frame may already
have one. -/
theorem second_tag_rejected :
    ¬ ∀ (frame : List UInt8) (tciHi tciLo : UInt8) (outcome : PreparseOutcome),
      oiOranPreparseFrame .zero frame frame.length 0 .zero = some outcome →
      outcome.status = .ok →
      oiOranPreparseFrame .zero (insertTag tciHi tciLo frame)
        (insertTag tciHi tciLo frame).length 0 .zero = some outcome.retag := by
  intro claim
  obtain ⟨outcome, call, ok, changed⟩ :
      ∃ outcome, oiOranPreparseFrame .zero (insertTag 0 1 untaggedFrame)
          (insertTag 0 1 untaggedFrame).length 0 .zero = some outcome ∧
        outcome.status = .ok ∧
        oiOranPreparseFrame .zero (insertTag 0 1 (insertTag 0 1 untaggedFrame))
          (insertTag 0 1 (insertTag 0 1 untaggedFrame)).length 0 .zero ≠ some outcome.retag :=
    ⟨_, rfl, by decide, by decide⟩
  exact changed (claim _ 0 1 outcome call ok)

end RanInline.Oran
