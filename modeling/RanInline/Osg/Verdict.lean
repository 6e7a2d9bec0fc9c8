/-
Module: RanInline.Osg.Verdict
Purpose: The verdict of pcap_comparator against what a capture carries: the samples of every
  section next to the resource elements that k1_depacketize writes for the same descriptor.
Trusted boundary: none
Main exports: OracleGrids, CarriesOwnRange, VerdictExact, reportsZero_iff, verdict_exact_iff
-/
import RanInline.Osg.Comparator
import RanInline.Osg.SlotPhase
import RanInline.Phy.Depacketize

namespace RanInline.Osg

open RanInline.Lib RanInline.Oran RanInline.Ingest RanInline.Phy

/-! ### What the verdict is to say -/

/-- One grid of 14 symbols and 51 PRBs for each slot of a frame, no two of them alike in any PRB
of any symbol. -/
structure OracleGrids (oracleSet : List OsgFile) (slotsPerFrame : UInt32) : Prop where
  length_eq : oracleSet.length = slotsPerFrame.toNat
  nofPrb_eq : ∀ f ∈ oracleSet, f.nofPrb = 51
  grid_length : ∀ f ∈ oracleSet, f.gridPayload.length = 14 * 51 * 48
  distinct : ∀ (i j : Nat) (f g : OsgFile), i ≠ j → oracleSet[i]? = some f →
    oracleSet[j]? = some g → ∀ symbol < 14, ∀ prb < 51, ∃ byte < 48,
      f.gridPayload[(symbol * 51 + prb) * 48 + byte]? ≠
        g.gridPayload[(symbol * 51 + prb) * 48 + byte]?

section Spec

variable {ruMac : RuMac} {udcomphdrBytes : UInt8}

/-- The section stays inside the band. -/
def SectionHeader.InBand (header : SectionHeader ruMac udcomphdrBytes) : Prop :=
  header.startPrb + header.nofPrbs ≤ 51

instance (header : SectionHeader ruMac udcomphdrBytes) : Decidable header.InBand :=
  inferInstanceAs (Decidable (_ ≤ _))

/-- Every resource element that K1 writes for the descriptor has the bytes of the grid. -/
def CarriesOwnRange (f : OsgFile) (carried : SectionHeader ruMac udcomphdrBytes × List UInt8) :
    Prop :=
  ∀ subcarrier, K1Covers (carried.1.desc .zero) subcarrier → ∀ byte < wireBytesPerRe,
    carried.2[(subcarrier - carried.1.startPrb * wireResPerPrb) * wireBytesPerRe + byte]? =
      f.gridPayload[(carried.1.symbol * k1NofSubcarriers + subcarrier) * wireBytesPerRe + byte]?

/-- The section carries the grid that the emulator schedules for its slot, when the first captured
slot is `start`. -/
def CarriesScheduled (oracleSet : List OsgFile) {slotsPerFrame : UInt32}
    (start : WireSlot slotsPerFrame) (carried : SectionHeader ruMac udcomphdrBytes × List UInt8) :
    Prop :=
  ∃ f, oracleSet[selectFileIdx (WireSlot.next^[carried.1.slot] start).sfn
      (WireSlot.next^[carried.1.slot] start).slot slotsPerFrame oracleSet.length]? = some f ∧
    CarriesOwnRange f carried

/-- The tool reports no mismatch exactly when, from some start phase on, every section carries the
grid of its slot in its own symbol and PRB range. -/
def VerdictExact (oracleSet : List OsgFile) (slotsPerFrame : UInt32)
    (capture : List (Captured ruMac udcomphdrBytes)) : Prop :=
  ReportsZero (pcapComparator oracleSet slotsPerFrame ruMac udcomphdrBytes
      (capture.map Captured.bytes)) ↔
    ∃ start : WireSlot slotsPerFrame, ∀ carried ∈ sectionsOf capture,
      CarriesScheduled oracleSet start carried

end Spec

/-! ### Both sides by bytes -/

/-- The payload is the part of the grid from `base` on. -/
def PayloadAt (base : Nat) (grid payload : List UInt8) : Prop :=
  ∀ i < payload.length, payload[i]? = grid[base + i]?

section Bytes

variable {ruMac : RuMac} {udcomphdrBytes : UInt8} {f : OsgFile}
  {carried : SectionHeader ruMac udcomphdrBytes × List UInt8}

theorem take_drop_eq_iff {base : Nat} {grid payload : List UInt8} :
    (grid.drop base).take payload.length = payload ↔ PayloadAt base grid payload := by
  constructor
  · intro same i inside
    have read : ((grid.drop base).take payload.length)[i]? = payload[i]? := by rw [same]
    rw [List.getElem?_take, if_pos inside, List.getElem?_drop] at read
    exact read.symm
  · intro same
    refine List.ext_getElem? fun i => ?_
    rw [List.getElem?_take, List.getElem?_drop]
    split
    · exact (same i ‹_›).symm
    · exact (List.getElem?_eq_none (Nat.le_of_not_lt ‹_›)).symm

/-- The tool compares with the grid from the first PRB of the symbol on. -/
theorem matchesSymbolSlice_iff {symbol : Nat} {payload : List UInt8} (nofPrb : f.nofPrb = 51)
    (gridLength : f.gridPayload.length = 14 * 51 * 48) (symbolSmall : symbol ≤ 13)
    (payloadSmall : payload.length ≤ 51 * 48) :
    matchesSymbolSlice f (UInt8.ofNat symbol) payload = true ↔
      PayloadAt (symbol * 51 * 48) f.gridPayload payload := by
  have symbolId : (UInt8.ofNat symbol).toNat = symbol := by
    rw [UInt8.toNat_ofNat']
    omega
  have base : symbol * (f.nofPrb.toNat * 12 * 4) = symbol * 51 * 48 := by
    rw [nofPrb]
    exact (Nat.mul_assoc symbol 51 48).symm
  simp only [matchesSymbolSlice, symbolId, base]
  rw [if_neg (by omega), beq_iff_eq, take_drop_eq_iff]

/-- K1 places the section from its own first PRB on. -/
theorem carriesOwnRange_iff (inBand : carried.1.InBand)
    (full : carried.2.length = carried.1.nofPrbs * wireResPerPrb * wireBytesPerRe) :
    CarriesOwnRange f carried ↔
      PayloadAt ((carried.1.symbol * 51 + carried.1.startPrb) * 48) f.gridPayload carried.2 := by
  have band : carried.1.startPrb + carried.1.nofPrbs ≤ 51 := inBand
  have covers : ∀ subcarrier, K1Covers (carried.1.desc .zero) subcarrier ↔
      carried.1.startPrb * 12 ≤ subcarrier ∧
        subcarrier < carried.1.startPrb * 12 + carried.1.nofPrbs * 12 ∧ subcarrier < 612 :=
    fun _ => Iff.rfl
  simp only [wireResPerPrb, wireBytesPerRe] at full
  simp only [CarriesOwnRange, covers, wireResPerPrb, wireBytesPerRe, k1NofSubcarriers]
  constructor
  · intro same i inside
    have read := same (carried.1.startPrb * 12 + i / 4) (by omega) (i % 4) (by omega)
    have left : (carried.1.startPrb * 12 + i / 4 - carried.1.startPrb * 12) * 4 + i % 4 = i := by
      omega
    have right : (carried.1.symbol * 612 + (carried.1.startPrb * 12 + i / 4)) * 4 + i % 4 =
        (carried.1.symbol * 51 + carried.1.startPrb) * 48 + i := by omega
    rwa [left, right] at read
  · intro same subcarrier covered byte small
    have read := same ((subcarrier - carried.1.startPrb * 12) * 4 + byte) (by omega)
    have right : (carried.1.symbol * 51 + carried.1.startPrb) * 48 +
        ((subcarrier - carried.1.startPrb * 12) * 4 + byte) =
        (carried.1.symbol * 612 + subcarrier) * 4 + byte := by omega
    rwa [right] at read

end Bytes

/-! ### The report -/

section Report

variable {ruMac : RuMac} {udcomphdrBytes : UInt8} {oracleSet : List OsgFile}
  {slotsPerFrame : UInt32}

/-- The facts about a section that the comparison needs. -/
structure WholeSection (carried : SectionHeader ruMac udcomphdrBytes × List UInt8) : Prop where
  inBand : carried.1.InBand
  full : carried.2.length = carried.1.nofPrbs * wireResPerPrb * wireBytesPerRe

theorem WholeSection.length_le {carried : SectionHeader ruMac udcomphdrBytes × List UInt8}
    (wellFormed : WholeSection carried) : carried.2.length ≤ 51 * 48 := by
  have band : carried.1.startPrb + carried.1.nofPrbs ≤ 51 := wellFormed.inBand
  rw [wellFormed.full, wireResPerPrb, wireBytesPerRe]
  omega

theorem WholeSection.length_ge {carried : SectionHeader ruMac udcomphdrBytes × List UInt8}
    (wellFormed : WholeSection carried) (dialect : udcomphdrBytes = 0 ∨ udcomphdrBytes = 2) :
    48 ≤ carried.2.length := by
  have positive := carried.1.nofPrbs_pos dialect
  rw [wellFormed.full, wireResPerPrb, wireBytesPerRe]
  omega

/-- The tool's comparison of a section, by the index of the file. -/
theorem sectionMatchesAt_iff (grids : OracleGrids oracleSet slotsPerFrame)
    (positive : 0 < slotsPerFrame.toNat) (phaseOffset slotId : UInt32)
    {carried : SectionHeader ruMac udcomphdrBytes × List UInt8}
    (wellFormed : WholeSection carried) :
    SectionMatchesAt oracleSet slotsPerFrame phaseOffset slotId carried ↔
      ∃ f, oracleSet[(slotId.toNat + phaseOffset.toNat) % slotsPerFrame.toNat]? = some f ∧
        PayloadAt (carried.1.symbol * 51 * 48) f.gridPayload carried.2 := by
  rw [SectionMatchesAt, toNat_fileIdxFor positive]
  refine exists_congr fun f => and_congr_right fun found => ?_
  have member := List.mem_of_getElem? found
  exact matchesSymbolSlice_iff (grids.nofPrb_eq f member) (grids.grid_length f member)
    carried.1.toWireFrame.symbol_le wellFormed.length_le

/-- Different grids are not both matched by one section. -/
theorem index_unique (grids : OracleGrids oracleSet slotsPerFrame)
    (dialect : udcomphdrBytes = 0 ∨ udcomphdrBytes = 2)
    {carried : SectionHeader ruMac udcomphdrBytes × List UInt8} (wellFormed : WholeSection carried)
    {i j : Nat} {f g : OsgFile} (foundI : oracleSet[i]? = some f) (foundJ : oracleSet[j]? = some g)
    (matchesI : PayloadAt (carried.1.symbol * 51 * 48) f.gridPayload carried.2)
    (matchesJ : PayloadAt (carried.1.symbol * 51 * 48) g.gridPayload carried.2) : i = j := by
  by_contra different
  have symbol := carried.1.toWireFrame.symbol_le
  obtain ⟨byte, small, differs⟩ := grids.distinct i j f g different foundI foundJ
    carried.1.symbol (Nat.lt_succ_of_le symbol) 0 (by decide)
  have inside : byte < carried.2.length := small.trans_le (wellFormed.length_ge dialect)
  exact differs ((matchesI byte inside).symm.trans (matchesJ byte inside))

/-- Offsets of one residue pick the same files. -/
theorem sectionMatchesAt_congr (positive : 0 < slotsPerFrame.toNat) {one two : UInt32}
    (same : one.toNat ≡ two.toNat [MOD slotsPerFrame.toNat]) (slotId : UInt32)
    (carried : SectionHeader ruMac udcomphdrBytes × List UInt8) :
    SectionMatchesAt oracleSet slotsPerFrame one slotId carried ↔
      SectionMatchesAt oracleSet slotsPerFrame two slotId carried := by
  have residue : (slotId.toNat + one.toNat) % slotsPerFrame.toNat =
      (slotId.toNat + two.toNat) % slotsPerFrame.toNat := same.add_left slotId.toNat
  rw [SectionMatchesAt, SectionMatchesAt, toNat_fileIdxFor positive, toNat_fileIdxFor positive,
    residue]

/-- A section that matches under some offset calibrates. -/
theorem calibrateOn_isSome (positive : 0 < slotsPerFrame.toNat) (state : OiOranPreparseState)
    (carried : SectionHeader ruMac udcomphdrBytes × List UInt8) {phaseOffset : UInt32}
    (matched : SectionMatchesAt oracleSet slotsPerFrame phaseOffset (carried.1.desc state).slotId
      carried) :
    ∃ calibrated, calibrateOn oracleSet slotsPerFrame state carried = some calibrated := by
  obtain ⟨f, found, fits⟩ := matched
  have inside : (fileIdxFor (carried.1.desc state).slotId.toUInt64 phaseOffset
      slotsPerFrame).toNat < slotsPerFrame.toNat := by
    rw [toNat_fileIdxFor positive]
    exact Nat.mod_lt _ positive
  refine calibratePhaseOffset_isSome (carried.1.desc state).slotId inside ?_
  rw [found]
  exact fits

/-- The calibrated offset is the one the section matches under, up to whole frames. -/
theorem calibrateOn_modEq (grids : OracleGrids oracleSet slotsPerFrame)
    (positive : 0 < slotsPerFrame.toNat) (dialect : udcomphdrBytes = 0 ∨ udcomphdrBytes = 2)
    {state : OiOranPreparseState} {phaseOffset calibrated : UInt32}
    {carried : SectionHeader ruMac udcomphdrBytes × List UInt8} (wellFormed : WholeSection carried)
    (found : calibrateOn oracleSet slotsPerFrame state carried = some calibrated)
    (matched : SectionMatchesAt oracleSet slotsPerFrame phaseOffset (carried.1.desc state).slotId
      carried) :
    calibrated.toNat ≡ phaseOffset.toNat [MOD slotsPerFrame.toNat] := by
  have calibratedMatches : SectionMatchesAt oracleSet slotsPerFrame calibrated
      (carried.1.desc state).slotId carried :=
    (Option.any_eq_true _ _).mp (calibratePhaseOffset_spec found)
  obtain ⟨f, foundF, fitsF⟩ :=
    (sectionMatchesAt_iff grids positive _ _ wellFormed).mp calibratedMatches
  obtain ⟨g, foundG, fitsG⟩ := (sectionMatchesAt_iff grids positive _ _ wellFormed).mp matched
  have residue := index_unique grids dialect wellFormed foundF foundG fitsF fitsG
  exact Nat.ModEq.add_left_cancel' (carried.1.desc state).slotId.toNat residue

/-- The tool reports no mismatch exactly when all sections match under some offset. -/
theorem reportsZero_iff (grids : OracleGrids oracleSet slotsPerFrame)
    (positive : 0 < slotsPerFrame.toNat) (dialect : udcomphdrBytes = 0 ∨ udcomphdrBytes = 2)
    {capture : List (Captured ruMac udcomphdrBytes)} (nonempty : capture ≠ [])
    (wellFormed : ∀ carried ∈ sectionsOf capture, WholeSection carried) :
    ReportsZero (pcapComparator oracleSet slotsPerFrame ruMac udcomphdrBytes
        (capture.map Captured.bytes)) ↔
      ∃ phaseOffset, SectionsMatch oracleSet slotsPerFrame phaseOffset .zero
        (sectionsOf capture) := by
  rw [reportsZero_iff_calibrate dialect grids.length_eq positive nonempty]
  cases split : sectionsOf capture with
  | nil => exact ⟨fun _ => ⟨0, .nil⟩, fun _ => trivial⟩
  | cons first rest =>
      obtain ⟨header, payload⟩ := first
      have firstFormed : WholeSection (header, payload) :=
        wellFormed _ (by rw [split]; exact List.mem_cons_self)
      constructor
      · rintro ⟨phaseOffset, _, matched⟩
        exact ⟨phaseOffset, matched⟩
      · rintro ⟨phaseOffset, matched⟩
        have atFirst := (sectionsMatch_cons.mp matched).1
        obtain ⟨calibrated, found⟩ := calibrateOn_isSome positive _ (header, payload) atFirst
        refine ⟨calibrated, found, ?_⟩
        have same := calibrateOn_modEq grids positive dialect firstFormed found atFirst
        refine List.Forall₂.imp ?_ matched
        intro slotId carried
        exact (sectionMatchesAt_congr positive same slotId carried).mpr

/-- A capture's sections have all their samples. -/
theorem full_of_mem {capture : List (Captured ruMac udcomphdrBytes)}
    {carried : SectionHeader ruMac udcomphdrBytes × List UInt8}
    (member : carried ∈ sectionsOf capture) :
    carried.2.length = carried.1.nofPrbs * wireResPerPrb * wireBytesPerRe := by
  obtain ⟨frame, _, found⟩ := List.mem_filterMap.mp member
  cases frame with
  | skipped bytes ignored => cases found
  | uplane header payload trailer full =>
      cases found
      exact full

variable {sections : List (SectionHeader ruMac udcomphdrBytes × List UInt8)}
  {headers : List (SectionHeader ruMac udcomphdrBytes)}

/-- In wire order the parser's slot ids are the wire slots, cut to 32 bits. -/
theorem sectionIds_eq (survives : Survives (headers.map SectionHeader.toWireFrame))
    (visible : WrapsVisible (headers.map SectionHeader.toWireFrame))
    (same : sections.map Prod.fst = headers) :
    sectionIds .zero sections = sections.map fun carried => UInt32.ofNat carried.1.slot := by
  have symbols : (sections.map fun carried => UInt8.ofNat carried.1.symbol) =
      (headers.map SectionHeader.toWireFrame).map fun frame => UInt8.ofNat frame.symbol := by
    rw [← same, List.map_map, List.map_map]
    rfl
  refine List.ext_getElem? fun k => ?_
  rw [sectionIds, List.getElem?_map]
  cases found : sections[k]? with
  | none =>
      have outside : sections.length ≤ k := List.getElem?_eq_none_iff.mp found
      rw [Option.map_none, List.getElem?_eq_none_iff, length_slotIds, List.length_map]
      exact outside
  | some carried =>
      have here : (headers.map SectionHeader.toWireFrame)[k]? = some carried.1.toWireFrame := by
        rw [← same, List.getElem?_map, List.getElem?_map, found]
        rfl
      rw [symbols, slotIds_eq_slot survives visible here]
      rfl

/-- In wire order all sections match exactly when each of them matches at its own slot. -/
theorem sectionsMatch_iff (survives : Survives (headers.map SectionHeader.toWireFrame))
    (visible : WrapsVisible (headers.map SectionHeader.toWireFrame))
    (same : sections.map Prod.fst = headers) (phaseOffset : UInt32) :
    SectionsMatch oracleSet slotsPerFrame phaseOffset .zero sections ↔
      ∀ carried ∈ sections, SectionMatchesAt oracleSet slotsPerFrame phaseOffset
        (UInt32.ofNat carried.1.slot) carried := by
  rw [SectionsMatch, sectionIds_eq survives visible same, List.forall₂_map_left_iff,
    List.forall₂_same]

/-- What a section is to carry, by the index of the file. -/
theorem carriesScheduled_iff (grids : OracleGrids oracleSet slotsPerFrame)
    (start : WireSlot slotsPerFrame)
    {carried : SectionHeader ruMac udcomphdrBytes × List UInt8}
    (wellFormed : WholeSection carried) :
    CarriesScheduled oracleSet start carried ↔
      ∃ f, oracleSet[(start.slot.toNat + carried.1.slot) % slotsPerFrame.toNat]? = some f ∧
        PayloadAt ((carried.1.symbol * 51 + carried.1.startPrb) * 48) f.gridPayload carried.2 := by
  rw [CarriesScheduled, grids.length_eq, selectFileIdx_eq_slot, wireSlot_iterate]
  exact exists_congr fun f => and_congr_right fun _ =>
    carriesOwnRange_iff wellFormed.inBand wellFormed.full

end Report

/-! ### When the verdict is exact -/

section Exact

variable {ruMac : RuMac} {udcomphdrBytes : UInt8} {oracleSet : List OsgFile}
  {slotsPerFrame : UInt32} {headers : List (SectionHeader ruMac udcomphdrBytes)}

/-- No section starts behind the first PRB, and the slot id does not wrap in the capture or wraps
to the same residue. -/
structure ComparedInPlace (headers : List (SectionHeader ruMac udcomphdrBytes))
    (slotsPerFrame : UInt32) : Prop where
  startPrb : ∀ header ∈ headers, header.startPrb = 0
  slots : (∀ header ∈ headers, header.slot < 2 ^ 32) ∨ slotsPerFrame.toNat ∣ 2 ^ 32

theorem ComparedInPlace.slot_modEq (inPlace : ComparedInPlace headers slotsPerFrame)
    {header : SectionHeader ruMac udcomphdrBytes} (member : header ∈ headers) :
    header.slot % 2 ^ 32 ≡ header.slot [MOD slotsPerFrame.toNat] := by
  rcases inPlace.slots with short | divides
  · rw [Nat.mod_eq_of_lt (short header member)]
  · exact (mod_modEq_self_iff _ _ _).mpr (divides.mul_right _)

/-- A start at the slot that an offset leaves as residue. -/
def WireSlot.atPhase (positive : 0 < slotsPerFrame.toNat) (phaseOffset : Nat) :
    WireSlot slotsPerFrame where
  sfn := 0
  slot := UInt32.ofNat (phaseOffset % slotsPerFrame.toNat)
  sfn_lt := Nat.two_pow_pos 10
  slot_lt := by
    have residue := Nat.mod_lt phaseOffset positive
    rw [UInt32.toNat_ofNat_of_lt' (residue.trans slotsPerFrame.toNat_lt)]
    exact residue

theorem WireSlot.toNat_slot_atPhase (positive : 0 < slotsPerFrame.toNat) (phaseOffset : Nat) :
    (WireSlot.atPhase positive phaseOffset).slot.toNat = phaseOffset % slotsPerFrame.toNat :=
  UInt32.toNat_ofNat_of_lt' ((Nat.mod_lt phaseOffset positive).trans slotsPerFrame.toNat_lt)

/-- A section at PRB 0 is compared with what it is to carry. -/
theorem sectionMatchesAt_iff_scheduled (grids : OracleGrids oracleSet slotsPerFrame)
    (inPlace : ComparedInPlace headers slotsPerFrame) {start : WireSlot slotsPerFrame}
    {phaseOffset : UInt32}
    (phase : start.slot.toNat ≡ phaseOffset.toNat [MOD slotsPerFrame.toNat])
    {carried : SectionHeader ruMac udcomphdrBytes × List UInt8}
    (wellFormed : WholeSection carried) (member : carried.1 ∈ headers) :
    SectionMatchesAt oracleSet slotsPerFrame phaseOffset (UInt32.ofNat carried.1.slot) carried ↔
      CarriesScheduled oracleSet start carried := by
  have index : (carried.1.slot % 2 ^ 32 + phaseOffset.toNat) % slotsPerFrame.toNat =
      (start.slot.toNat + carried.1.slot) % slotsPerFrame.toNat := by
    rw [Nat.add_comm start.slot.toNat]
    exact (inPlace.slot_modEq member).add phase.symm
  have base : (carried.1.symbol * 51 + carried.1.startPrb) * 48 = carried.1.symbol * 51 * 48 := by
    rw [inPlace.startPrb _ member, Nat.add_zero]
  rw [sectionMatchesAt_iff grids start.slots_pos _ _ wellFormed,
    carriesScheduled_iff grids start wellFormed, UInt32.toNat_ofNat', index, base]

/-- A capture whose sections are compared in place gets the exact verdict. -/
theorem verdictExact_of_inPlace (grids : OracleGrids oracleSet slotsPerFrame)
    (positive : 0 < slotsPerFrame.toNat) (dialect : udcomphdrBytes = 0 ∨ udcomphdrBytes = 2)
    (inBand : ∀ header ∈ headers, header.InBand)
    (survives : Survives (headers.map SectionHeader.toWireFrame))
    (visible : WrapsVisible (headers.map SectionHeader.toWireFrame))
    (inPlace : ComparedInPlace headers slotsPerFrame)
    {capture : List (Captured ruMac udcomphdrBytes)} (nonempty : capture ≠ [])
    (same : (sectionsOf capture).map Prod.fst = headers) :
    VerdictExact oracleSet slotsPerFrame capture := by
  have inHeaders : ∀ carried ∈ sectionsOf capture, carried.1 ∈ headers :=
    fun carried member => same ▸ List.mem_map_of_mem member
  have wellFormed : ∀ carried ∈ sectionsOf capture, WholeSection carried :=
    fun carried member => ⟨inBand _ (inHeaders carried member), full_of_mem member⟩
  rw [VerdictExact, reportsZero_iff grids positive dialect nonempty wellFormed]
  constructor
  · rintro ⟨phaseOffset, matched⟩
    rw [sectionsMatch_iff survives visible same] at matched
    have phase : (WireSlot.atPhase positive phaseOffset.toNat).slot.toNat ≡
        phaseOffset.toNat [MOD slotsPerFrame.toNat] := by
      rw [WireSlot.toNat_slot_atPhase]
      exact Nat.mod_modEq _ _
    refine ⟨.atPhase positive phaseOffset.toNat, fun carried member => ?_⟩
    exact (sectionMatchesAt_iff_scheduled grids inPlace phase (wellFormed carried member)
      (inHeaders carried member)).mp (matched carried member)
  · rintro ⟨start, scheduled⟩
    refine ⟨start.slot, (sectionsMatch_iff survives visible same _).mpr fun carried member => ?_⟩
    exact (sectionMatchesAt_iff_scheduled grids inPlace (Nat.ModEq.refl _)
      (wellFormed carried member) (inHeaders carried member)).mpr (scheduled carried member)

end Exact

/-! ### Grids that show where a section lies -/

/-- Byte `k` of a PRB: four bytes for the file, one for the PRB. -/
def markedByte (index prb k : Nat) : UInt8 :=
  UInt8.ofNat (if k < 4 then index / 256 ^ k % 256 else if k = 4 then prb else 0)

/-- A grid whose PRBs say which file and which PRB they are. -/
def markedGrid (index : Nat) : List UInt8 :=
  (List.range (14 * 51 * 48)).map fun i => markedByte index (i / 48 % 51) (i % 48)

/-- The oracle file with that grid. -/
def markedFile (index : Nat) : OsgFile where
  formatVersion := 1
  iqFormat := 0
  numerologyMu := 1
  nofPrb := 51
  nofSymbolsPerSlot := 14
  nofEaxc := 1
  eaxcId := 0
  tbLenBytes := 0
  tbCrcOk := 1
  rnti := 0
  harqId := 0
  mcsIndex := 0
  gridPayload := markedGrid index
  tbPayload := []

/-- One such file for each slot of a frame. -/
def markedSet (slotsPerFrame : UInt32) : List OsgFile :=
  (List.range slotsPerFrame.toNat).map markedFile

theorem length_markedGrid (index : Nat) : (markedGrid index).length = 14 * 51 * 48 := by
  rw [markedGrid, List.length_map, List.length_range]

theorem getElem?_markedGrid {index symbol prb k : Nat} (symbolSmall : symbol < 14)
    (prbSmall : prb < 51) (small : k < 48) :
    (markedGrid index)[(symbol * 51 + prb) * 48 + k]? = some (markedByte index prb k) := by
  have inside : (symbol * 51 + prb) * 48 + k < 14 * 51 * 48 := by omega
  have place : ((symbol * 51 + prb) * 48 + k) / 48 % 51 = prb := by omega
  have byte : ((symbol * 51 + prb) * 48 + k) % 48 = k := by omega
  rw [markedGrid, List.getElem?_map, List.getElem?_range inside, Option.map_some, place, byte]

-- the grid is read through the two lemmas above, never unfolded
attribute [irreducible] markedGrid

/-- The bytes of a PRB tell the file and the PRB. -/
theorem markedByte_injective {one two prbOne prbTwo : Nat} (oneSmall : one < 2 ^ 32)
    (twoSmall : two < 2 ^ 32) (prbOneSmall : prbOne < 51) (prbTwoSmall : prbTwo < 51)
    (same : ∀ k < 48, markedByte one prbOne k = markedByte two prbTwo k) :
    one = two ∧ prbOne = prbTwo := by
  have value : ∀ index prb k, prb < 51 → (markedByte index prb k).toNat =
      if k < 4 then index / 256 ^ k % 256 else if k = 4 then prb else 0 := by
    intro index prb k prbSmall
    rw [markedByte, UInt8.toNat_ofNat']
    split
    · exact Nat.mod_mod _ _
    · split
      · omega
      · rfl
  have read : ∀ k < 48, _ := fun k small =>
    (value one prbOne k prbOneSmall).symm.trans
      ((congrArg UInt8.toNat (same k small)).trans (value two prbTwo k prbTwoSmall))
  have file : ∀ k < 4, one / 256 ^ k % 256 = two / 256 ^ k % 256 := by
    intro k small
    have digit := read k (by omega)
    rwa [if_pos small, if_pos small] at digit
  have first := file 0 (by decide)
  have second := file 1 (by decide)
  have third := file 2 (by decide)
  have fourth := file 3 (by decide)
  have prb : prbOne = prbTwo := read 4 (by decide)
  omega

theorem getElem?_markedSet {slotsPerFrame : UInt32} {index : Nat} {f : OsgFile}
    (found : (markedSet slotsPerFrame)[index]? = some f) :
    index < slotsPerFrame.toNat ∧ f = markedFile index := by
  obtain ⟨inside, value⟩ := List.getElem?_eq_some_iff.mp found
  rw [markedSet, List.length_map, List.length_range] at inside
  refine ⟨inside, value.symm.trans ?_⟩
  simp only [markedSet, List.getElem_map, List.getElem_range]

theorem oracleGrids_markedSet (slotsPerFrame : UInt32) :
    OracleGrids (markedSet slotsPerFrame) slotsPerFrame := by
  have isMarked : ∀ f ∈ markedSet slotsPerFrame, ∃ index, f = markedFile index := by
    intro f member
    obtain ⟨index, _, rfl⟩ := List.mem_map.mp member
    exact ⟨index, rfl⟩
  refine ⟨by rw [markedSet, List.length_map, List.length_range], ?_, ?_, ?_⟩
  · intro f member
    obtain ⟨index, rfl⟩ := isMarked f member
    rfl
  · intro f member
    obtain ⟨index, rfl⟩ := isMarked f member
    exact length_markedGrid index
  · intro i j f g different foundI foundJ symbol symbolSmall prb prbSmall
    obtain ⟨insideI, rfl⟩ := getElem?_markedSet foundI
    obtain ⟨insideJ, rfl⟩ := getElem?_markedSet foundJ
    by_contra none
    push Not at none
    refine different (markedByte_injective (insideI.trans slotsPerFrame.toNat_lt)
      (insideJ.trans slotsPerFrame.toNat_lt) prbSmall prbSmall fun k small => ?_).1
    have read := none k small
    rw [markedFile, markedFile, getElem?_markedGrid symbolSmall prbSmall small,
      getElem?_markedGrid symbolSmall prbSmall small] at read
    exact Option.some.inj read

section Injected

variable {ruMac : RuMac} {udcomphdrBytes : UInt8} {slotsPerFrame : UInt32}
  {headers : List (SectionHeader ruMac udcomphdrBytes)}

/-- The samples of a grid that a section carries. -/
def ownPayload (grid : List UInt8) (header : SectionHeader ruMac udcomphdrBytes) : List UInt8 :=
  (List.range (header.nofPrbs * wireResPerPrb * wireBytesPerRe)).map fun i =>
    grid.getD ((header.symbol * 51 + header.startPrb) * 48 + i) 0

theorem length_ownPayload (grid : List UInt8) (header : SectionHeader ruMac udcomphdrBytes) :
    (ownPayload grid header).length = header.nofPrbs * wireResPerPrb * wireBytesPerRe := by
  rw [ownPayload, List.length_map, List.length_range]

/-- A capture of these sections from slot 0 of a frame on, with the marked grids injected. -/
def injectedCapture (slotsPerFrame : UInt32)
    (headers : List (SectionHeader ruMac udcomphdrBytes)) :
    List (Captured ruMac udcomphdrBytes) :=
  headers.map fun header => .uplane header
    (ownPayload (markedGrid (header.slot % slotsPerFrame.toNat)) header) []
    (length_ownPayload _ header)

theorem sectionsOf_injectedCapture (slotsPerFrame : UInt32)
    (headers : List (SectionHeader ruMac udcomphdrBytes)) :
    sectionsOf (injectedCapture slotsPerFrame headers) = headers.map fun header =>
      (header, ownPayload (markedGrid (header.slot % slotsPerFrame.toNat)) header) := by
  induction headers with
  | nil => rfl
  | cons header headers inductionHypothesis =>
      rw [List.map_cons, ← inductionHypothesis]
      rfl

theorem payloadAt_ownPayload {grid : List UInt8} {header : SectionHeader ruMac udcomphdrBytes}
    (gridLength : grid.length = 14 * 51 * 48) (inBand : header.InBand) :
    PayloadAt ((header.symbol * 51 + header.startPrb) * 48) grid (ownPayload grid header) := by
  intro i inside
  have band : header.startPrb + header.nofPrbs ≤ 51 := inBand
  have symbol : header.symbol ≤ 13 := header.toWireFrame.symbol_le
  rw [length_ownPayload] at inside
  have small : i < header.nofPrbs * 48 := by
    rw [wireResPerPrb, wireBytesPerRe] at inside
    omega
  have inGrid : (header.symbol * 51 + header.startPrb) * 48 + i < grid.length := by omega
  rw [ownPayload, List.getElem?_map, List.getElem?_range inside, Option.map_some,
    List.getD_eq_getElem?_getD, List.getElem?_eq_getElem inGrid, Option.getD_some]

/-- Every section of the capture carries the grid of its slot. -/
theorem injectedCapture_scheduled (positive : 0 < slotsPerFrame.toNat)
    (inBand : ∀ header ∈ headers, header.InBand) :
    ∀ carried ∈ sectionsOf (injectedCapture slotsPerFrame headers),
      CarriesScheduled (markedSet slotsPerFrame) (WireSlot.atPhase positive 0) carried := by
  intro carried member
  rw [sectionsOf_injectedCapture] at member
  obtain ⟨header, headerMember, rfl⟩ := List.mem_map.mp member
  have wellFormed : WholeSection (header,
      ownPayload (markedGrid (header.slot % slotsPerFrame.toNat)) header) :=
    ⟨inBand header headerMember, length_ownPayload _ header⟩
  rw [carriesScheduled_iff (oracleGrids_markedSet slotsPerFrame) _ wellFormed,
    WireSlot.toNat_slot_atPhase, Nat.zero_mod, Nat.zero_add]
  have inside := Nat.mod_lt header.slot positive
  refine ⟨markedFile (header.slot % slotsPerFrame.toNat), ?_, ?_⟩
  · rw [markedSet, List.getElem?_map, List.getElem?_range inside]
    rfl
  · exact payloadAt_ownPayload (length_markedGrid _) (inBand header headerMember)

/-- If the tool takes the capture for right, every section starts at PRB 0 and is compared with
the file of its slot. -/
theorem injectedCapture_matched (positive : 0 < slotsPerFrame.toNat)
    (dialect : udcomphdrBytes = 0 ∨ udcomphdrBytes = 2)
    (inBand : ∀ header ∈ headers, header.InBand)
    (survives : Survives (headers.map SectionHeader.toWireFrame))
    (visible : WrapsVisible (headers.map SectionHeader.toWireFrame)) (nonempty : headers ≠ [])
    (reported : ReportsZero (pcapComparator (markedSet slotsPerFrame) slotsPerFrame ruMac
      udcomphdrBytes ((injectedCapture slotsPerFrame headers).map Captured.bytes))) :
    ∃ phaseOffset : UInt32, ∀ header ∈ headers, header.startPrb = 0 ∧
      header.slot % slotsPerFrame.toNat =
        (header.slot % 2 ^ 32 + phaseOffset.toNat) % slotsPerFrame.toNat := by
  have grids := oracleGrids_markedSet slotsPerFrame
  have sections := sectionsOf_injectedCapture slotsPerFrame headers
  have same : (sectionsOf (injectedCapture slotsPerFrame headers)).map Prod.fst = headers := by
    rw [sections, List.map_map]
    exact List.map_id _
  have wellFormed : ∀ carried ∈ sectionsOf (injectedCapture slotsPerFrame headers),
      WholeSection carried := by
    intro carried member
    have inHeaders : carried.1 ∈ headers := same ▸ List.mem_map_of_mem member
    exact ⟨inBand _ inHeaders, full_of_mem member⟩
  have filled : injectedCapture slotsPerFrame headers ≠ [] := by
    simpa [injectedCapture] using nonempty
  obtain ⟨phaseOffset, matched⟩ :=
    (reportsZero_iff grids positive dialect filled wellFormed).mp reported
  rw [sectionsMatch_iff survives visible same] at matched
  refine ⟨phaseOffset, fun header member => ?_⟩
  have carriedMember : (header, ownPayload (markedGrid (header.slot % slotsPerFrame.toNat))
      header) ∈ sectionsOf (injectedCapture slotsPerFrame headers) := by
    rw [sections]
    exact List.mem_map_of_mem member
  have whole := wellFormed _ carriedMember
  obtain ⟨f, found, read⟩ :=
    (sectionMatchesAt_iff grids positive _ _ whole).mp (matched _ carriedMember)
  obtain ⟨inside, rfl⟩ := getElem?_markedSet found
  rw [UInt32.toNat_ofNat'] at inside read
  have band : header.startPrb + header.nofPrbs ≤ 51 := inBand header member
  have some := header.nofPrbs_pos dialect
  have symbol : header.symbol < 14 := Nat.lt_succ_of_le header.toWireFrame.symbol_le
  -- the first PRB of the section against the first PRB of the symbol
  have same : ∀ k < 48, markedByte (header.slot % slotsPerFrame.toNat) header.startPrb k =
      markedByte ((header.slot % 2 ^ 32 + phaseOffset.toNat) % slotsPerFrame.toNat) 0 k := by
    intro k small
    have inPayload := small.trans_le (whole.length_ge dialect)
    have carriedByte := payloadAt_ownPayload (length_markedGrid _) (inBand header member) k
      inPayload
    have comparedByte := read k inPayload
    rw [carriedByte, getElem?_markedGrid symbol (by omega) small] at comparedByte
    have place : header.symbol * 51 * 48 + k = (header.symbol * 51 + 0) * 48 + k := rfl
    rw [place, markedFile, getElem?_markedGrid symbol (by decide) small] at comparedByte
    exact Option.some.inj comparedByte
  obtain ⟨file, prb⟩ := markedByte_injective
    ((Nat.mod_lt header.slot positive).trans slotsPerFrame.toNat_lt)
    (inside.trans slotsPerFrame.toNat_lt) (by omega) (by decide) same
  exact ⟨prb, file⟩

theorem fst_injectedCapture (slotsPerFrame : UInt32)
    (headers : List (SectionHeader ruMac udcomphdrBytes)) :
    (sectionsOf (injectedCapture slotsPerFrame headers)).map Prod.fst = headers := by
  rw [sectionsOf_injectedCapture, List.map_map]
  exact List.map_id _

end Injected

/-- The address of the RU emulator. -/
def ruAddress : RuMac := fun i => [0x02, 0, 0, 0, 0, 0x01].getD i.val 0

/-- The header of one half of a symbol: PRBs 0 to 24, or 25 to 50. -/
def halfSymbolBytes (symbol : Fin 14) (upper : Bool) : List UInt8 :=
  List.replicate 6 0 ++ [0x02, 0, 0, 0, 0, 0x01, 0xAE, 0xFE, 0x10, 0x00, 0, 0, 0, 0, 0, 0, 0x10, 0,
    0, UInt8.ofNat symbol, 0, 0, if upper then 25 else 0, if upper then 26 else 25]

theorem halfSymbolBytes_symbol : ∀ (symbol : Fin 14) (upper : Bool),
    byteVal (halfSymbolBytes symbol upper) (14 + 11) % 64 = symbol := by
  decide

/-- Half of a symbol of slot 0. -/
def halfSymbol (symbol : Fin 14) (upper : Bool) : SectionHeader ruAddress 0 where
  slot := 0
  ethHdrLen := 14
  bytes := halfSymbolBytes symbol upper
  accepts := by
    refine ⟨.inl ⟨rfl, rfl, rfl⟩, Nat.le_refl 30, ?_, ?_, ?_, ?_, ?_⟩
    case refine_5 =>
      have carried := halfSymbolBytes_symbol symbol upper
      omega
    all_goals simp [halfSymbolBytes, byteVal]
  length_eq := rfl
  fromRu := rfl

/-- All of slot 0, every symbol in two sections. -/
def halvedSlot : List (SectionHeader ruAddress 0) :=
  (List.finRange 14).flatMap fun symbol => [halfSymbol symbol false, halfSymbol symbol true]

theorem slot_halvedSlot : ∀ header ∈ halvedSlot, header.slot = 0 := by
  intro header member
  obtain ⟨symbol, _, half⟩ := List.mem_flatMap.mp member
  rcases List.mem_pair.mp half with rfl | rfl <;> rfl

/-- Headers of one slot whose symbols do not descend are in wire order. -/
theorem wireOrder_of_one_slot {ruMac : RuMac} {udcomphdrBytes : UInt8}
    {headers : List (SectionHeader ruMac udcomphdrBytes)}
    (oneSlot : ∀ header ∈ headers, header.slot = 0)
    (ascending : (headers.map SectionHeader.symbol).IsChain (· ≤ ·)) :
    Survives (headers.map SectionHeader.toWireFrame) ∧
      WrapsVisible (headers.map SectionHeader.toWireFrame) := by
  have slotZero : ∀ (k : Nat) (frame : WireFrame udcomphdrBytes),
      (headers.map SectionHeader.toWireFrame)[k]? = some frame → frame.slot = 0 := by
    intro k frame here
    obtain ⟨header, member, rfl⟩ := List.mem_map.mp (List.mem_of_getElem? here)
    exact oneSlot header member
  have symbolAt : ∀ (k : Nat) (frame : WireFrame udcomphdrBytes),
      (headers.map SectionHeader.toWireFrame)[k]? = some frame →
      (headers.map SectionHeader.symbol)[k]? = some frame.symbol := by
    intro k frame here
    rw [List.getElem?_map, Option.map_eq_some_iff] at here
    obtain ⟨header, found, rfl⟩ := here
    rw [List.getElem?_map, found]
    rfl
  refine ⟨⟨slotZero 0, fun k frame after here next => .inl ?_⟩, fun k frame after here next => ?_⟩
  · rw [slotZero k frame here, slotZero (k + 1) after next]
  · obtain ⟨inside, value⟩ := List.getElem?_eq_some_iff.mp (symbolAt k frame here)
    obtain ⟨insideNext, valueNext⟩ := List.getElem?_eq_some_iff.mp (symbolAt (k + 1) after next)
    have ordered := List.isChain_iff_getElem.mp ascending k insideNext
    rw [value, valueNext] at ordered
    refine ⟨fun _ => ordered, fun advanced => ?_⟩
    rw [slotZero k frame here, slotZero (k + 1) after next] at advanced
    cases advanced

/-- The lower halves of two symbols. -/
def lowerHalves : List (SectionHeader ruAddress 0) := [halfSymbol 0 false, halfSymbol 1 false]

end RanInline.Osg
