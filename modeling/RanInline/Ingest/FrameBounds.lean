/-
Module: RanInline.Ingest.FrameBounds
Purpose: k1_depacketize on machine words, with every read of the arena checked: for the
  descriptor of a parsed frame it reads the bytes of that frame and writes the row of its
  symbol, and no index wraps around.
Trusted boundary: none
Main exports: K1Store, k1Kernel, K1Exact, k1Kernel_eq, parsed_frame_in_bounds
-/
import RanInline.Ingest.Poll

namespace RanInline.Ingest

open RanInline.Oran RanInline.Phy

/-! ### The kernel on words -/

/-- One store or atomic OR, with the index or mask the kernel computes. -/
inductive K1Store (F : Type) where
  | store (index : UInt32) (value : F × F)
  | orBits (mask : UInt32)

section Words

variable (desc : OiFrameDesc)

/-- `required_bytes`. -/
def k1RequiredBytes : UInt32 := desc.payloadByteOff.toUInt32 + desc.nofPrbs.toUInt32 * 12 * 4

/-- `nof_res`. -/
def k1NofRes : UInt32 := desc.nofPrbs.toUInt32 * 12

/-- `subcarrier`. -/
def k1Subcarrier (re : UInt32) : UInt32 := desc.startPrb.toUInt32 * 12 + re

/-- `byte_off`. -/
def k1ByteOff (re : UInt32) : UInt32 := re * 4

/-- The index into `re_grid`. -/
def k1GridIndex (re : UInt32) : UInt32 := desc.symbolId.toUInt32 * 612 + k1Subcarrier desc re

/-- `iq_base`, from the start of the arena. -/
def k1IqBase : UInt64 := desc.arenaOffset + desc.payloadByteOff.toUInt32.toUInt64

end Words

section Kernel

variable {F : Type} (q15 : Int → F) (read : UInt64 → Option UInt8)

/-- `oi_k1_read_q15`.  `none` is a read that is not allowed. -/
def oiK1ReadQ15 (base : UInt64) (off : UInt32) : Option F := do
  let high ← read (base + off.toUInt64)
  let low ← read (base + (off + 1).toUInt64)
  let raw : Nat := (high.toNat <<< 8 ||| low.toNat) % 2 ^ 16
  return q15 (Int.bmod raw (2 ^ 16))

/-- One turn of the loop over the resource elements. -/
def k1Turn (desc : OiFrameDesc) (re : UInt32) : Option (K1Store F) := do
  let iVal ← oiK1ReadQ15 q15 read (k1IqBase desc) (k1ByteOff re)
  let qVal ← oiK1ReadQ15 q15 read (k1IqBase desc) (k1ByteOff re + 2)
  return .store (k1GridIndex desc re) (iVal, qVal)

/-- `k1_depacketize` for one descriptor. -/
def k1Kernel (desc : OiFrameDesc) (slotId : UInt32) : Option (List (K1Store F)) :=
  if desc.slotId ≠ slotId then some []
  else if desc.frameLen < k1RequiredBytes desc ∨ desc.symbolId.toUInt32 ≥ 14 then some []
  else do
    let stores ← ((List.range (k1NofRes desc).toNat).takeWhile fun re =>
      decide (k1Subcarrier desc (UInt32.ofNat re) < 612)).mapM fun re =>
        k1Turn q15 read desc (UInt32.ofNat re)
    return stores ++ [.orBits (1 <<< desc.symbolId.toUInt32)]

end Kernel

/-! ### No index wraps around -/

/-- The words of the kernel are the numbers they stand for. -/
structure K1Exact (desc : OiFrameDesc) : Prop where
  requiredBytes : (k1RequiredBytes desc).toNat =
    desc.payloadByteOff.toNat + desc.nofPrbs.toNat * 12 * 4
  nofRes : (k1NofRes desc).toNat = desc.nofPrbs.toNat * 12
  subcarrier : ∀ re < desc.nofPrbs.toNat * 12,
    (k1Subcarrier desc (UInt32.ofNat re)).toNat = desc.startPrb.toNat * 12 + re
  byteOff : ∀ re < desc.nofPrbs.toNat * 12, ∀ k < 4,
    (k1ByteOff (UInt32.ofNat re) + UInt32.ofNat k).toNat = re * 4 + k
  gridIndex : ∀ re < desc.nofPrbs.toNat * 12,
    (k1GridIndex desc (UInt32.ofNat re)).toNat =
      desc.symbolId.toNat * 612 + (desc.startPrb.toNat * 12 + re)

theorem k1Exact (desc : OiFrameDesc) : K1Exact desc := by
  have prbs := desc.nofPrbs.toNat_lt
  have start := desc.startPrb.toNat_lt
  have header := desc.payloadByteOff.toNat_lt
  have symbol := desc.symbolId.toNat_lt
  have index (re : Nat) (inside : re < desc.nofPrbs.toNat * 12) : (UInt32.ofNat re).toNat = re :=
    Nat.mod_eq_of_lt (by omega)
  have subcarrier : ∀ re < desc.nofPrbs.toNat * 12,
      (k1Subcarrier desc (UInt32.ofNat re)).toNat = desc.startPrb.toNat * 12 + re := by
    intro re inside
    rw [k1Subcarrier, UInt32.toNat_add, UInt32.toNat_mul, UInt16.toNat_toUInt32, index re inside]
    change (desc.startPrb.toNat * 12 % 2 ^ 32 + re) % 2 ^ 32 = _
    omega
  refine ⟨?_, ?_, subcarrier, fun re inside k small => ?_, fun re inside => ?_⟩
  · rw [k1RequiredBytes, UInt32.toNat_add, UInt32.toNat_mul, UInt32.toNat_mul,
      UInt16.toNat_toUInt32, UInt8.toNat_toUInt32]
    change (desc.payloadByteOff.toNat + desc.nofPrbs.toNat * 12 % 2 ^ 32 * 4 % 2 ^ 32) % 2 ^ 32 = _
    omega
  · rw [k1NofRes, UInt32.toNat_mul, UInt16.toNat_toUInt32]
    change desc.nofPrbs.toNat * 12 % 2 ^ 32 = _
    omega
  · have few : (UInt32.ofNat k).toNat = k := Nat.mod_eq_of_lt (by omega)
    rw [k1ByteOff, UInt32.toNat_add, UInt32.toNat_mul, index re inside, few]
    change (re * 4 % 2 ^ 32 + k) % 2 ^ 32 = _
    omega
  · rw [k1GridIndex, UInt32.toNat_add, UInt32.toNat_mul, UInt8.toNat_toUInt32,
      subcarrier re inside]
    change (desc.symbolId.toNat * 612 % 2 ^ 32 + (desc.startPrb.toNat * 12 + re)) % 2 ^ 32 = _
    omega

/-! ### The kernel against its model on numbers -/

/-- A write as the kernel makes it. -/
def storeOf {F : Type} : K1Write F → K1Store F
  | .sample symbol subcarrier value => .store (UInt32.ofNat (symbol * 612 + subcarrier)) value
  | .orBit symbol => .orBits (1 <<< UInt32.ofNat symbol)

section Refines

variable {F : Type} {q15 : Int → F} {arena : Nat → UInt8} {read : UInt64 → Option UInt8}
  {desc : OiFrameDesc} {slotId : UInt32}

theorem mapM_eq_some_map {α β : Type} {f : α → Option β} {g : α → β} {list : List α}
    (defined : ∀ a ∈ list, f a = some (g a)) : list.mapM f = some (list.map g) := by
  induction list with
  | nil => rfl
  | cons a list inductionHypothesis =>
      have rest := inductionHypothesis fun b member => defined b (List.mem_cons_of_mem _ member)
      rw [List.mapM_cons, defined a List.mem_cons_self, rest]
      rfl

theorem takeWhile_congr_of_mem {α : Type} {p q : α → Bool} {list : List α}
    (same : ∀ a ∈ list, p a = q a) : list.takeWhile p = list.takeWhile q := by
  induction list with
  | nil => rfl
  | cons a list inductionHypothesis =>
      have rest := inductionHypothesis fun b member => same b (List.mem_cons_of_mem _ member)
      rw [List.takeWhile_cons, List.takeWhile_cons, same a List.mem_cons_self, rest]

theorem oiK1ReadQ15_eq {base : UInt64} {off : UInt32} {place : Nat}
    (first : read (base + off.toUInt64) = some (arena place))
    (second : read (base + (off + 1).toUInt64) = some (arena (place + 1))) :
    oiK1ReadQ15 q15 read base off = some (k1ReadQ15 q15 arena place) := by
  rw [oiK1ReadQ15, first, Option.bind_eq_bind, Option.bind_some, second]
  rfl

/-- The descriptor is dropped by the kernel on words exactly when the model drops it. -/
theorem dropped_iff (same : desc.slotId = slotId) :
    (desc.frameLen < k1RequiredBytes desc ∨ desc.symbolId.toUInt32 ≥ 14) ↔
      ¬ K1Accepts desc slotId := by
  have symbol : desc.symbolId.toUInt32 ≥ 14 ↔ 14 ≤ desc.symbolId.toNat := by
    rw [ge_iff_le, UInt32.le_iff_toNat_le, UInt8.toNat_toUInt32]
    rfl
  rw [UInt32.lt_iff_toNat_lt, (k1Exact desc).requiredBytes, symbol, K1Accepts, wireResPerPrb,
    wireBytesPerRe, k1NofSymbols]
  constructor
  · rintro dropped ⟨_, fits, small⟩
    omega
  · intro dropped
    by_contra accepted
    exact dropped ⟨same, by omega, by omega⟩

/-- The addresses of a section's bytes. -/
theorem address_eq {re k : Nat} (inside : re < desc.nofPrbs.toNat * 12) (small : k < 4)
    (fits : desc.arenaOffset.toNat + desc.payloadByteOff.toNat + re * 4 + k < 2 ^ 64) :
    k1IqBase desc + (k1ByteOff (UInt32.ofNat re) + UInt32.ofNat k).toUInt64 =
      UInt64.ofNat (desc.arenaOffset.toNat + desc.payloadByteOff.toNat + re * 4 + k) := by
  rw [← UInt64.toNat_inj, UInt64.toNat_ofNat', Nat.mod_eq_of_lt fits, k1IqBase, UInt64.toNat_add,
    UInt64.toNat_add, UInt32.toNat_toUInt64, UInt32.toNat_toUInt64, UInt8.toNat_toUInt32,
    (k1Exact desc).byteOff re inside k small]
  omega

/-- The loop runs up to the end of the section or of the grid. -/
theorem k1Loop_eq (desc : OiFrameDesc) :
    ((List.range (k1NofRes desc).toNat).takeWhile fun re =>
      decide (k1Subcarrier desc (UInt32.ofNat re) < 612)) =
        List.range (min (desc.nofPrbs.toNat * 12) (612 - desc.startPrb.toNat * 12)) := by
  rw [(k1Exact desc).nofRes, ← takeWhile_range_lt]
  apply takeWhile_congr_of_mem
  intro re member
  rw [decide_eq_decide, UInt32.lt_iff_toNat_lt,
    (k1Exact desc).subcarrier re (List.mem_range.mp member)]
  exact Iff.rfl

/-- One turn stores the sample of its resource element. -/
theorem k1Turn_eq (fits : desc.arenaOffset.toNat + desc.frameLen.toNat ≤ 2 ^ 64)
    (readable : ∀ k < desc.frameLen.toNat,
      read (UInt64.ofNat (desc.arenaOffset.toNat + k)) = some (arena (desc.arenaOffset.toNat + k)))
    (declared : desc.payloadByteOff.toNat + desc.nofPrbs.toNat * 12 * 4 ≤ desc.frameLen.toNat)
    {re : Nat} (inside : re < desc.nofPrbs.toNat * 12) :
    k1Turn q15 read desc (UInt32.ofNat re) = some (storeOf (.sample desc.symbolId.toNat
      (desc.startPrb.toNat * 12 + re)
      (k1Sample q15 arena (desc.arenaOffset.toNat + desc.payloadByteOff.toNat) re))) := by
  have byte (k : Nat) (small : k < 4) :
      read (k1IqBase desc + (k1ByteOff (UInt32.ofNat re) + UInt32.ofNat k).toUInt64) =
        some (arena (desc.arenaOffset.toNat + desc.payloadByteOff.toNat + re * 4 + k)) := by
    have place := readable (desc.payloadByteOff.toNat + re * 4 + k) (by omega)
    rw [address_eq inside small (by omega)]
    simpa only [Nat.add_assoc] using place
  have zero : k1ByteOff (UInt32.ofNat re) + UInt32.ofNat 0 = k1ByteOff (UInt32.ofNat re) :=
    UInt32.add_zero _
  have three : k1ByteOff (UInt32.ofNat re) + UInt32.ofNat 3 =
      k1ByteOff (UInt32.ofNat re) + 2 + 1 := by
    rw [UInt32.add_assoc]
    rfl
  have first := byte 0 (by decide)
  have last := byte 3 (by decide)
  rw [zero] at first
  rw [three] at last
  have index : k1GridIndex desc (UInt32.ofNat re) =
      UInt32.ofNat (desc.symbolId.toNat * 612 + (desc.startPrb.toNat * 12 + re)) := by
    rw [← (k1Exact desc).gridIndex re inside, UInt32.ofNat_toNat]
  have iVal : oiK1ReadQ15 q15 read (k1IqBase desc) (k1ByteOff (UInt32.ofNat re)) = some
      (k1ReadQ15 q15 arena (desc.arenaOffset.toNat + desc.payloadByteOff.toNat + re * 4)) :=
    oiK1ReadQ15_eq first (byte 1 (by decide))
  have qVal : oiK1ReadQ15 q15 read (k1IqBase desc) (k1ByteOff (UInt32.ofNat re) + 2) = some
      (k1ReadQ15 q15 arena (desc.arenaOffset.toNat + desc.payloadByteOff.toNat + re * 4 + 2)) :=
    oiK1ReadQ15_eq (byte 2 (by decide)) last
  rw [k1Turn, iVal, Option.bind_eq_bind, Option.bind_some, qVal, index]
  rfl

/-- On memory that has at least the bytes of the frame, the kernel on words makes the writes of
its model on numbers. -/
theorem k1Kernel_eq (fits : desc.arenaOffset.toNat + desc.frameLen.toNat ≤ 2 ^ 64)
    (readable : ∀ k < desc.frameLen.toNat,
      read (UInt64.ofNat (desc.arenaOffset.toNat + k)) = some (arena (desc.arenaOffset.toNat + k))) :
    k1Kernel q15 read desc slotId = some ((k1WorkItem q15 arena desc slotId).map storeOf) := by
  by_cases same : desc.slotId = slotId
  · rw [k1Kernel, if_neg (not_not.mpr same)]
    by_cases accepts : K1Accepts desc slotId
    · have declared := accepts.2.1
      rw [wireResPerPrb, wireBytesPerRe] at declared
      have turns : (List.range (min (desc.nofPrbs.toNat * 12)
          (612 - desc.startPrb.toNat * 12))).mapM
            (fun re => k1Turn q15 read desc (UInt32.ofNat re)) = some ((List.range
              (min (desc.nofPrbs.toNat * 12) (612 - desc.startPrb.toNat * 12))).map fun re =>
                storeOf (.sample desc.symbolId.toNat (desc.startPrb.toNat * 12 + re)
                  (k1Sample q15 arena (desc.arenaOffset.toNat + desc.payloadByteOff.toNat) re))) :=
        mapM_eq_some_map fun re member => k1Turn_eq fits readable declared
          (Nat.lt_of_lt_of_le (List.mem_range.mp member) (Nat.min_le_left _ _))
      have symbol : UInt32.ofNat desc.symbolId.toNat = desc.symbolId.toUInt32 := by
        rw [← UInt8.toNat_toUInt32, UInt32.ofNat_toNat]
      rw [if_neg fun dropped => (dropped_iff same).mp dropped accepts, k1Loop_eq, turns,
        k1WorkItem_of_accepts accepts, List.map_append, List.map_map, List.map_singleton,
        Option.bind_eq_bind, Option.bind_some, storeOf, symbol]
      rfl
    · rw [if_pos ((dropped_iff same).mpr accepts), k1WorkItem_of_not_accepts accepts]
      rfl
  · rw [k1Kernel, if_pos same, k1WorkItem, if_pos same]
    rfl

end Refines

/-! ### Parsed frames -/

/-- The bytes of the frame at its place in the arena, and nothing else. -/
def frameWindow (thisOffset : UInt64) (frame : List UInt8) (address : UInt64) : Option UInt8 :=
  if thisOffset ≤ address then frame[(address - thisOffset).toNat]? else none

section Parsed

variable {F Llr : Type} {q15 : Int → F} {arena : Nat → UInt8} {frame : List UInt8}
  {state : OiOranPreparseState} {udcomphdrBytes : UInt8} {outcome : PreparseOutcome}
  {arenaBytes thisOffset : UInt64}

/-- What the parser accepts has a symbol of the grid, and a header of one of four lengths. -/
theorem describes_of_parsed (dialect : udcomphdrBytes = 0 ∨ udcomphdrBytes = 2)
    (parsed : oiOranPreparseFrame state frame frame.length udcomphdrBytes .zero = some outcome)
    (ok : outcome.status = .ok) :
    ∃ hdr, Accepts frame udcomphdrBytes.toNat hdr ∧
      Describes frame udcomphdrBytes.toNat hdr state .zero outcome.outDesc := by
  obtain ⟨hdr, accepts, filled⟩ := accepts_of_parsed state .zero udcomphdrBytes parsed ok
  refine ⟨hdr, accepts, ?_⟩
  rw [filled]
  exact describes_headerDesc state .zero udcomphdrBytes dialect accepts

/-- The fields of the descriptor of a parsed frame. -/
structure ParsedRanges (desc : OiFrameDesc) : Prop where
  startPrb : desc.startPrb.toNat ≤ 1023
  nofPrbs : 1 ≤ desc.nofPrbs.toNat ∧ desc.nofPrbs.toNat ≤ 255
  symbolId : desc.symbolId.toNat ≤ 13
  header : desc.ethHdrLen.toNat = 14 ∨ desc.ethHdrLen.toNat = 18

theorem parsedRanges {hdr extension : Nat} {outDesc desc : OiFrameDesc}
    (accepts : Accepts frame extension hdr)
    (describes : Describes frame extension hdr state outDesc desc) : ParsedRanges desc := by
  have count := byteVal_lt frame (hdr + 15)
  have low := byteVal_lt frame (hdr + 14)
  refine ⟨?_, ?_, ?_, ?_⟩
  · rw [describes.startPrb]
    split_ifs <;> omega
  · rw [describes.nofPrbs]
    split_ifs <;> omega
  · rw [describes.symbolId]
    exact accepts.symbol
  · rw [describes.ethHdrLen]
    rcases accepts.ethernet with ⟨rfl, _⟩ | ⟨rfl, _⟩
    · exact .inl rfl
    · exact .inr rfl

theorem frameWindow_eq {k : Nat} (fits : thisOffset.toNat + k < 2 ^ 64) :
    frameWindow thisOffset frame (UInt64.ofNat (thisOffset.toNat + k)) = frame[k]? := by
  have address : (UInt64.ofNat (thisOffset.toNat + k)).toNat = thisOffset.toNat + k :=
    Nat.mod_eq_of_lt fits
  have behind : thisOffset ≤ UInt64.ofNat (thisOffset.toNat + k) := by
    rw [UInt64.le_iff_toNat_le, address]
    exact Nat.le_add_right _ _
  rw [frameWindow, if_pos behind, UInt64.toNat_sub_of_le _ _ behind, address,
    Nat.add_sub_cancel_left]

section Writes

variable {desc : OiFrameDesc} {slotId : UInt32}

/-- A store goes to the row of the symbol. -/
theorem store_index_in_row (symbol : desc.symbolId.toNat ≤ 13) {index : UInt32} {value : F × F}
    (member : .store index value ∈ (k1WorkItem q15 arena desc slotId).map storeOf) :
    desc.symbolId.toNat * 612 ≤ index.toNat ∧
      index.toNat < desc.symbolId.toNat * 612 + 612 ∧ index.toNat < 14 * 612 := by
  obtain ⟨write, made, same⟩ := List.mem_map.mp member
  cases write with
  | orBit symbol => cases same
  | sample symbol subcarrier carried =>
      obtain ⟨_, rfl, covers, _⟩ := mem_k1WorkItem_sample.mp made
      have column : subcarrier < 612 := covers.2.2
      cases same
      rw [UInt32.toNat_ofNat', Nat.mod_eq_of_lt (by omega)]
      omega

/-- The atomic OR sets the bit of the symbol. -/
theorem orBits_mask_eq {mask : UInt32}
    (member : .orBits mask ∈ (k1WorkItem q15 arena desc slotId).map storeOf) :
    mask = 1 <<< desc.symbolId.toUInt32 := by
  obtain ⟨write, made, same⟩ := List.mem_map.mp member
  cases write with
  | sample symbol subcarrier carried => cases same
  | orBit symbol =>
      obtain ⟨_, rfl⟩ := mem_k1WorkItem_orBit.mp made
      cases same
      rw [← UInt8.toNat_toUInt32, UInt32.ofNat_toNat]

/-- Nothing is written when the declared PRBs do not fit into the frame, and only then. -/
theorem writes_eq_nil_iff (own : slotId = desc.slotId) (symbol : desc.symbolId.toNat ≤ 13) :
    (k1WorkItem q15 arena desc slotId).map storeOf = [] ↔
      desc.frameLen.toNat < desc.payloadByteOff.toNat + desc.nofPrbs.toNat * 12 * 4 := by
  have kept : K1Accepts desc slotId ↔
      desc.payloadByteOff.toNat + desc.nofPrbs.toNat * 12 * 4 ≤ desc.frameLen.toNat := by
    rw [K1Accepts, wireResPerPrb, wireBytesPerRe, k1NofSymbols]
    exact ⟨fun all => all.2.1, fun fits => ⟨own.symm, fits, by omega⟩⟩
  by_cases accepted : K1Accepts desc slotId
  · rw [k1WorkItem_of_accepts accepted, List.map_append, List.append_eq_nil_iff]
    have fits := kept.mp accepted
    exact ⟨fun ⟨_, empty⟩ => absurd empty (List.cons_ne_nil _ _), fun short => by omega⟩
  · rw [k1WorkItem_of_not_accepts accepted]
    exact ⟨fun _ => Nat.lt_of_not_le (mt kept.mpr accepted), fun _ => rfl⟩

end Writes

/-- The work-item of a parsed frame: run on memory that has the bytes of that frame and no others,
it makes the writes of its model; they go to the row of the symbol and to its bit; no index wraps
around; and nothing is written exactly when the declared PRBs do not fit into the frame. -/
theorem parsed_frame_in_bounds (small : frame.length ≤ 9000)
    (dialect : udcomphdrBytes = 0 ∨ udcomphdrBytes = 2)
    (parsed : oiOranPreparseFrame state frame frame.length udcomphdrBytes .zero = some outcome)
    (ok : outcome.status = .ok)
    (placed : thisOffset.toNat + frame.length ≤ arenaBytes.toNat)
    (stored : ∀ k < frame.length, frame[k]? = some (arena (thisOffset.toNat + k)))
    (slotId : UInt32) :
    let desc := polledDesc outcome thisOffset frame.length
    ParsedRanges desc ∧ K1Exact desc ∧
      ∃ writes, k1Kernel q15 (frameWindow thisOffset frame) desc slotId = some writes ∧
        writes = (k1WorkItem q15 arena desc slotId).map storeOf ∧
        (∀ index value, .store index value ∈ writes →
          desc.symbolId.toNat * 612 ≤ index.toNat ∧
            index.toNat < desc.symbolId.toNat * 612 + 612 ∧ index.toNat < 14 * 612) ∧
        (∀ mask, .orBits mask ∈ writes → mask = 1 <<< desc.symbolId.toUInt32) ∧
        (slotId = desc.slotId → (writes = [] ↔
          frame.length < desc.payloadByteOff.toNat + desc.nofPrbs.toNat * 12 * 4)) := by
  intro desc
  obtain ⟨hdr, accepts, describes⟩ := describes_of_parsed dialect parsed ok
  have ranges : ParsedRanges desc := by
    obtain ⟨start, prbs, symbol, header⟩ := parsedRanges accepts describes
    exact ⟨start, prbs, symbol, header⟩
  have within := arenaBytes.toNat_lt
  have length : desc.frameLen.toNat = frame.length := Nat.mod_eq_of_lt (by omega)
  have kernel : k1Kernel q15 (frameWindow thisOffset frame) desc slotId =
      some ((k1WorkItem q15 arena desc slotId).map storeOf) := by
    apply k1Kernel_eq
    · rw [length]
      exact Nat.le_of_lt (Nat.lt_of_le_of_lt placed within)
    · intro k inside
      rw [length] at inside
      exact (frameWindow_eq (show thisOffset.toNat + k < 2 ^ 64 by omega)).trans (stored k inside)
  refine ⟨ranges, k1Exact desc, _, kernel, rfl, fun index value member => ?_,
    fun mask member => ?_, fun own => ?_⟩
  · exact store_index_in_row ranges.symbolId member
  · exact orBits_mask_eq member
  · rw [← length]
    exact writes_eq_nil_iff own ranges.symbolId

/-- A frame for one PRB of symbol 5. -/
def onePrbFrame : List UInt8 :=
  List.replicate 12 0 ++ [0xAE, 0xFE, 0x10, 0, 0, 0, 0, 0, 0, 0, 0x10, 0, 0, 5, 0, 0, 3, 1] ++
    List.replicate 48 0

/-- An arena that holds it from offset 64 on. -/
def onePrbArena (i : Nat) : UInt8 := onePrbFrame.getD (i - 64) 0

/-- The frame is not dropped. -/
theorem parsed_frame_in_bounds_onePrbFrame :
    ∃ outcome, oiOranPreparseFrame .zero onePrbFrame onePrbFrame.length 0 .zero = some outcome ∧
      ∃ writes, k1Kernel id (frameWindow 64 onePrbFrame)
          (polledDesc outcome 64 onePrbFrame.length) 0 = some writes ∧ writes ≠ [] := by
  have call : ∃ outcome, oiOranPreparseFrame .zero onePrbFrame onePrbFrame.length 0 .zero =
      some outcome ∧ outcome.status = .ok ∧ outcome.outDesc.slotId = 0 ∧
        outcome.outDesc.payloadByteOff = 30 ∧ outcome.outDesc.nofPrbs = 1 :=
    ⟨_, rfl, rfl, rfl, rfl, rfl⟩
  obtain ⟨outcome, parsed, ok, slot, header, prbs⟩ := call
  have stored : ∀ k < onePrbFrame.length,
      onePrbFrame[k]? = some (onePrbArena (UInt64.toNat 64 + k)) := by decide
  obtain ⟨_, _, writes, run, _, _, _, dropped⟩ := parsed_frame_in_bounds
    (show onePrbFrame.length ≤ 9000 by decide) (.inl rfl) parsed ok
    (show UInt64.toNat 64 + onePrbFrame.length ≤ UInt64.toNat 4096 by decide) stored 0
  refine ⟨outcome, parsed, writes, run, fun empty => ?_⟩
  have short := (dropped slot.symm).mp empty
  simp only [polledDesc, header, prbs] at short
  exact absurd short (by decide)

end Parsed

end RanInline.Ingest
