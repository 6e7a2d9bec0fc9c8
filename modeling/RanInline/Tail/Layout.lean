/-
Module: RanInline.Tail.Layout
Purpose: The code blocks of a transport block in the layout of oi_p2_cb_segment.h:
  oi_p2_cb_desegment gives the transport block back from them, and refuses them after a short
  burst of bit errors.
Trusted boundary: none
Main exports: codeBlock, desegment_codeBlocks, Burst, desegment_detects_burst
-/
import RanInline.Tail.Desegment

namespace RanInline.Tail

open RanInline.Lib RanInline.Ldpc

/-- The CRC of a transport block, by its size. -/
def tbCrc (tb : List Bool) : List Bool := crcParity (tbCrcPoly tb.length) tb

/-- A piece of the transport block, its CRC and the padding. -/
def blockPayload (params : OiP2CbSegmentParams) (tb : List Bool) (cb : Nat) : List Bool :=
  cbPayload params (tbStream params tb (tbCrc tb)) cb

/-- The CRC24B of a code block, which it has when there are several. -/
def blockCrc (params : OiP2CbSegmentParams) (tb : List Bool) (cb : Nat) : List Bool :=
  if 1 < params.nofSegments then crcParity .crc24b (blockPayload params tb cb) else []

/-- A code block: the payload, its CRC and the filler. -/
def codeBlock (params : OiP2CbSegmentParams) (tb : List Bool) (filler : Nat → List Bool)
    (cb : Nat) : List Bool :=
  blockPayload params tb cb ++ blockCrc params tb cb ++ filler cb

theorem tbCrc_attached (tb : List Bool) : CrcAttached (tbCrcPoly tb.length) tb (tbCrc tb) :=
  crcAttached_crcParity _ tb

section Blocks

variable {params : OiP2CbSegmentParams} {tb : List Bool}

theorem blockCrc_attached (several : 1 < params.nofSegments) (cb : Nat) :
    CrcAttached .crc24b (blockPayload params tb cb) (blockCrc params tb cb) := by
  rw [blockCrc, if_pos several]
  exact crcAttached_crcParity _ _

/-- The last payload: what is left of the transport block, its CRC, and the padding. -/
theorem blockPayload_last (sizes : SegmentSizes tb.length params) :
    blockPayload params tb (params.nofSegments - 1) =
      cbShare params tb (params.nofSegments - 1) ++ tbCrc tb ++
        List.replicate params.zeroPad false := by
  have whole := sizes.last_block
  have last := sizes.last
  have crc := (tbCrc_attached tb).length_tbCrc sizes
  have start : (params.nofSegments - 1) * params.cbInfoBits ≤ tb.length := by omega
  rw [blockPayload, cbPayload, tbStream, List.append_assoc,
    List.drop_append_of_le_length start, cbShare, List.append_assoc]
  have rest : (tb.drop ((params.nofSegments - 1) * params.cbInfoBits)).length =
      params.cbInfoBitsLast := by
    rw [List.length_drop]
    omega
  rw [List.take_of_length_le, List.take_of_length_le]
  · omega
  · simp only [List.length_append, List.length_replicate]
    omega

end Blocks

/-! ### Round trip -/

section Desegment

variable {tb : List Bool} {filler : Nat → List Bool} {decodedCbs : List (List (BitVec 8))}
  {outTbBytes : List (BitVec 8)}

theorem le_maxTbs_of_small (small : tb.length + computeTbCrcSize tb.length ≤ 8 * scratchBytes) :
    tb.length ≤ maxTbs := by
  rw [maxTbs]
  rw [scratchBytes] at small
  omega

theorem length_le_of_room (room : divideCeil tb.length 8 ≤ outTbBytes.length) :
    tb.length ≤ 8 * outTbBytes.length := by
  have enough := le_mul_divideCeil tb.length (show 0 < 8 by decide)
  omega

/-- From the code blocks of a transport block, whatever their filler is, `oi_p2_cb_desegment`
puts the transport block in place, changes nothing else, and stays inside `scratch`. -/
theorem desegment_codeBlocks (baseGraph : BaseGraph)
    (small : tb.length + computeTbCrcSize tb.length ≤ 8 * scratchBytes)
    (built : BlocksStart (oiP2CbSegmentCompute tb.length baseGraph) decodedCbs
      (codeBlock (oiP2CbSegmentCompute tb.length baseGraph) tb filler))
    (room : divideCeil tb.length 8 ≤ outTbBytes.length) (scratch : Fin scratchBytes → BitVec 8) :
    ∃ out, oiP2CbDesegment (oiP2CbSegmentCompute tb.length baseGraph) tb.length decodedCbs
        outTbBytes scratch = some (.ok, out) ∧
      out.length = outTbBytes.length ∧ HoldsBits out 0 tb ∧
      ∀ j, tb.length ≤ j → getBit out j = getBit outTbBytes j := by
  have sizes := segmentSizes baseGraph (le_maxTbs_of_small small)
  apply oiP2CbDesegment_of_attached sizes (tbCrc_attached tb)
    (fun several cb _ => blockCrc_attached several cb) ?_ small (length_le_of_room room) scratch
  intro cb block
  obtain ⟨decoded, found, holds⟩ := built cb block
  exact ⟨decoded, found, holds.of_append⟩

/-- A byte from its bits, the first one on top. -/
def packByte (bit : Nat → Bool) : BitVec 8 :=
  (BitVec.ofBoolListBE ((List.range 8).map bit)).setWidth 8

theorem getLsbD_packByte (bit : Nat → Bool) {place : Nat} (inside : place < 8) :
    (packByte bit).getLsbD (7 - place) = bit place := by
  have back : 7 - (7 - place) = place := by omega
  have low : 7 - place < 8 := by omega
  simp [packByte, back, low]

/-- The bits in a buffer. -/
def packBytes (bits : List Bool) : List (BitVec 8) :=
  (List.range (divideCeil bits.length 8)).map fun byte =>
    packByte fun place => bits.getD (8 * byte + place) false

theorem packBytes_holds (bits : List Bool) : HoldsBits (packBytes bits) 0 bits := by
  intro i inside
  have enough := le_mul_divideCeil bits.length (show 0 < 8 by decide)
  have byte : i / 8 < divideCeil bits.length 8 := by omega
  rw [Nat.zero_add, getBit, packBytes, List.getElem?_map, List.getElem?_range byte,
    Option.map_some, Option.map_some, getLsbD_packByte _ (Nat.mod_lt i (by decide)),
    Nat.div_add_mod, List.getD_eq_getElem?_getD, List.getElem?_eq_getElem inside, Option.getD_some]

theorem blocksStart_packBytes {params : OiP2CbSegmentParams} (blocks : Nat → List Bool) :
    BlocksStart params ((List.range params.nofSegments).map fun cb => packBytes (blocks cb))
      blocks := by
  intro cb block
  refine ⟨_, ?_, packBytes_holds (blocks cb)⟩
  rw [List.getElem?_map, List.getElem?_range block, Option.map_some]

/-- The shortest transport block with two code blocks of base graph 2, every third bit set. -/
def twoBlocksTb : List Bool := (List.range 3825).map fun i => i % 3 == 0

theorem length_twoBlocksTb : twoBlocksTb.length = 3825 := by
  rw [twoBlocksTb, List.length_map, List.length_range]

theorem small_twoBlocksTb :
    twoBlocksTb.length + computeTbCrcSize twoBlocksTb.length ≤ 8 * scratchBytes := by
  rw [length_twoBlocksTb]
  decide

theorem room_twoBlocksTb :
    divideCeil twoBlocksTb.length 8 ≤ (List.replicate 479 (0x55 : BitVec 8)).length := by
  rw [length_twoBlocksTb, List.length_replicate]
  decide

/-- Its code blocks, with filler of zeros and of ones. -/
def twoBlocks : Nat → List Bool :=
  codeBlock (oiP2CbSegmentCompute twoBlocksTb.length .bg2) twoBlocksTb fun cb =>
    List.replicate 131 (cb == 1)

/-- Two blocks with their CRC24B and a bit of padding, in a buffer whose last seven bits stay. -/
theorem desegment_codeBlocks_twoBlocks :
    (oiP2CbSegmentCompute 3825 .bg2).nofSegments = 2 ∧
      ∃ out, oiP2CbDesegment (oiP2CbSegmentCompute 3825 .bg2) 3825
          ((List.range 2).map fun cb => packBytes (twoBlocks cb)) (List.replicate 479 0x55)
          (fun _ => 0xff) = some (.ok, out) ∧
        out.length = 479 ∧ (∀ i < 3825, getBit out i = some (i % 3 == 0)) ∧
        ∀ j, 3825 ≤ j → getBit out j = getBit (List.replicate 479 0x55) j := by
  obtain ⟨out, result, length, holds, kept⟩ := desegment_codeBlocks .bg2 small_twoBlocksTb
    (blocksStart_packBytes twoBlocks) room_twoBlocksTb fun _ => 0xff
  rw [length_twoBlocksTb] at result kept
  rw [List.length_replicate] at length
  refine ⟨by decide, out, result, length, fun i inside => ?_, kept⟩
  have held := holds i (by rwa [length_twoBlocksTb])
  rwa [Nat.zero_add, twoBlocksTb, List.getElem?_map, List.getElem?_range inside] at held

/-! ### Bursts of errors -/

/-- The bits of a code block that a CRC covers. -/
def coveredBits (params : OiP2CbSegmentParams) (tbSizeBits : Nat) : Nat :=
  if 1 < params.nofSegments then params.cbInfoBits + params.nofCrcBits
  else tbSizeBits + params.tbCrcBits

/-- The length of the bursts that this CRC detects. -/
def burstLength (params : OiP2CbSegmentParams) : Nat :=
  if 1 < params.nofSegments then 24 else params.tbCrcBits

/-- Some of the covered bits are flipped, all of them close together. -/
structure Burst (flips : Nat → Bool) (covered length : Nat) : Prop where
  flipped : ∃ i, flips i = true
  covered : ∀ i, flips i = true → i < covered
  short : ∃ start, ∀ i, flips i = true → start ≤ i ∧ i < start + length

/-- The bits with some of them flipped. -/
def withFlips (flips : Nat → Bool) (bits : List Bool) : List Bool :=
  bits.mapIdx fun i bit => xor bit (flips i)

theorem length_withFlips (flips : Nat → Bool) (bits : List Bool) :
    (withFlips flips bits).length = bits.length :=
  List.length_mapIdx

theorem withFlips_append (flips : Nat → Bool) (bits more : List Bool) :
    withFlips flips (bits ++ more) =
      withFlips flips bits ++ withFlips (fun i => flips (i + bits.length)) more :=
  List.mapIdx_append

/-- The blocks with some bits of one of them flipped. -/
def withHit (flips : Nat → Bool) (hit : Nat) (blocks : Nat → List Bool) (cb : Nat) : List Bool :=
  if cb = hit then withFlips flips (blocks cb) else blocks cb

/-- The first parts of the blocks have the flips too. -/
theorem BlocksStart.of_withHit_append {params : OiP2CbSegmentParams} {flips : Nat → Bool}
    {hit : Nat} {blocks more : Nat → List Bool}
    (starts : BlocksStart params decodedCbs
      (withHit flips hit fun cb => blocks cb ++ more cb)) :
    BlocksStart params decodedCbs (withHit flips hit blocks) := by
  intro cb inside
  obtain ⟨decoded, found, holds⟩ := starts cb inside
  refine ⟨decoded, found, ?_⟩
  rw [withHit] at holds ⊢
  split_ifs at holds ⊢ with same
  · rw [withFlips_append] at holds
    exact holds.of_append
  · exact holds.of_append

/-- A CRC that was attached does not survive a burst. -/
theorem CrcAttached.detects {poly : OiP2CrcPoly} {message parity : List Bool}
    (attached : CrcAttached poly message parity) {flips : Nat → Bool}
    (burst : Burst flips (message ++ parity).length (polyDef poly).order) :
    ¬ wordPoly (polyDef poly).polynom ∣ bitsPoly (withFlips flips (message ++ parity)) := by
  obtain ⟨i, set⟩ := burst.flipped
  obtain ⟨start, short⟩ := burst.short
  exact (divisor_polyDef poly).detects_burst attached.2 ⟨i, burst.covered i set, set⟩ short

variable {params : OiP2CbSegmentParams} {flips : Nat → Bool} {hit : Nat}

/-- With several code blocks, the first part finds the burst. -/
theorem cbCrcsPass_burst (sizes : SegmentSizes tb.length params) (several : 1 < params.nofSegments)
    (block : hit < params.nofSegments)
    (burst : Burst flips (coveredBits params tb.length) (burstLength params))
    (damaged : BlocksStart params decodedCbs (withHit flips hit (codeBlock params tb filler))) :
    cbCrcsPass params decodedCbs = some false := by
  have crcBits : params.nofCrcBits = 24 := by rw [sizes.crc, if_pos several]
  have length (cb : Nat) (inside : cb < params.nofSegments) :
      (blockPayload params tb cb ++ blockCrc params tb cb).length =
        params.cbInfoBits + params.nofCrcBits := by
    have payload : (blockPayload params tb cb).length = params.cbInfoBits :=
      sizes.length_cbPayload ((tbCrc_attached tb).length_tbCrc sizes) inside
    rw [List.length_append, payload, (blockCrc_attached several cb).1, crcBits]
    rfl
  rw [coveredBits, if_pos several, burstLength, if_pos several, ← length hit block] at burst
  obtain ⟨pass, checked, divides⟩ := cbCrcsPass_spec (by omega) damaged.of_withHit_append
      fun cb inside => by
    rw [withHit]
    split_ifs
    · rw [length_withFlips, length cb inside]
    · exact length cb inside
  have fails : pass ≠ true := by
    intro passes
    have multiple := divides.mp passes hit block
    rw [withHit, if_pos rfl] at multiple
    exact (blockCrc_attached several hit).detects burst multiple
  rw [checked, Bool.not_eq_true _ |>.mp fails]

/-- A single code block is the transport block and its CRC. -/
theorem single_block (sizes : SegmentSizes tb.length params) (single : ¬ 1 < params.nofSegments)
    (padding : params.zeroPad < params.nofSegments) (filler : Nat → List Bool) :
    params.nofSegments = 1 ∧ params.cbInfoBitsLast = tb.length ∧
      codeBlock params tb filler 0 = tb ++ tbCrc tb ++ filler 0 := by
  have one : params.nofSegments = 1 := by
    have segments := sizes.segments
    omega
  have whole := sizes.last_block
  have none : params.zeroPad = 0 := by omega
  rw [one, Nat.sub_self, Nat.zero_mul, Nat.zero_add] at whole
  have last := sizes.last
  have payload := blockPayload_last sizes
  rw [one, none] at payload
  have share : cbShare params tb 0 = tb := by
    rw [cbShare, Nat.zero_mul, List.drop_zero, List.take_of_length_le (by omega)]
  refine ⟨one, whole, ?_⟩
  rw [codeBlock, payload, share, blockCrc, if_neg single]
  simp

/-- A single code block fails the CRC of the transport block. -/
theorem desegment_single_burst (sizes : SegmentSizes tb.length params)
    (single : ¬ 1 < params.nofSegments) (padding : params.zeroPad < params.nofSegments)
    (burst : Burst flips (coveredBits params tb.length) (burstLength params))
    (damaged : BlocksStart params decodedCbs (withHit flips 0 (codeBlock params tb filler)))
    (small : tb.length + computeTbCrcSize tb.length ≤ 8 * scratchBytes)
    (room : tb.length ≤ 8 * outTbBytes.length) (scratch : Fin scratchBytes → BitVec 8) :
    ∃ status out, oiP2CbDesegment params tb.length decodedCbs outTbBytes scratch =
      some (status, out) ∧ status ≠ .ok := by
  obtain ⟨one, last, bits⟩ := single_block sizes single padding filler
  have crc := (tbCrc_attached tb).length_tbCrc sizes
  -- the block holds the damaged transport block, and behind it its damaged CRC
  obtain ⟨decoded, found, holds⟩ := damaged 0 (by omega)
  rw [withHit, if_pos rfl, bits, withFlips_append] at holds
  have both := holds.of_append
  rw [coveredBits, if_neg single, burstLength, if_neg single, ← crc, ← List.length_append,
    (tbCrc_attached tb).1] at burst
  have detected := (tbCrc_attached tb).detects burst
  rw [withFlips_append] at both detected
  have passes : cbCrcsPass params decodedCbs = some true := by
    rw [cbCrcsPass, sizes.crc, if_neg single, if_neg (by decide)]
  have share : cbShare params (withFlips flips tb) 0 = withFlips flips tb := by
    have fits := sizes.last
    rw [cbShare, Nat.zero_mul, List.drop_zero, List.take_of_length_le]
    rw [length_withFlips]
    omega
  have shares : BlocksStart params decodedCbs (cbShare params (withFlips flips tb)) := by
    intro cb block
    obtain rfl : cb = 0 := by omega
    refine ⟨decoded, found, ?_⟩
    rw [share]
    exact both.of_append
  have behind : ∃ decoded, decodedCbs[params.nofSegments - 1]? = some decoded ∧
      HoldsBits decoded params.cbInfoBitsLast
        (withFlips (fun i => flips (i + tb.length)) (tbCrc tb)) := by
    have crcHolds := both.behind_append
    rw [Nat.zero_add, length_withFlips] at crcHolds
    rw [one, last]
    exact ⟨decoded, found, crcHolds⟩
  have run := oiP2CbDesegment_of_cbsPass (by rwa [length_withFlips]) passes shares
    (by rw [length_withFlips, crc]) behind
    (by rwa [length_withFlips]) (by rwa [length_withFlips]) scratch
  rw [length_withFlips] at run
  obtain ⟨status, out, result, _, _, _, ok⟩ := run
  exact ⟨status, out, result, fun passed => detected (ok.mp passed)⟩

/-- A short burst in one code block is found: `oi_p2_cb_desegment` returns, and not with
`OI_P2_DESEG_OK`. -/
theorem desegment_detects_burst (baseGraph : BaseGraph)
    (small : tb.length + computeTbCrcSize tb.length ≤ 8 * scratchBytes)
    (block : hit < (oiP2CbSegmentCompute tb.length baseGraph).nofSegments)
    (burst : Burst flips (coveredBits (oiP2CbSegmentCompute tb.length baseGraph) tb.length)
      (burstLength (oiP2CbSegmentCompute tb.length baseGraph)))
    (damaged : BlocksStart (oiP2CbSegmentCompute tb.length baseGraph) decodedCbs
      (withHit flips hit (codeBlock (oiP2CbSegmentCompute tb.length baseGraph) tb filler)))
    (room : divideCeil tb.length 8 ≤ outTbBytes.length) (scratch : Fin scratchBytes → BitVec 8) :
    ∃ status out, oiP2CbDesegment (oiP2CbSegmentCompute tb.length baseGraph) tb.length decodedCbs
        outTbBytes scratch = some (status, out) ∧ status ≠ .ok := by
  have sizes := segmentSizes baseGraph (le_maxTbs_of_small small)
  have padding : (oiP2CbSegmentCompute tb.length baseGraph).zeroPad <
      (oiP2CbSegmentCompute tb.length baseGraph).nofSegments := zeroPad_lt baseGraph
  generalize oiP2CbSegmentCompute tb.length baseGraph = params at sizes padding block burst damaged ⊢
  by_cases several : 1 < params.nofSegments
  · refine ⟨.errCbCrc, outTbBytes, ?_, by decide⟩
    simp [oiP2CbDesegment, cbCrcsPass_burst sizes several block burst damaged]
  · have one := sizes.segments
    obtain rfl : hit = 0 := by omega
    exact desegment_single_burst sizes several padding burst damaged small
      (length_le_of_room room) scratch

/-- Three bits of the second block, two of them in its CRC24B. -/
def threeFlips (i : Nat) : Bool := i == 1921 || i == 1930 || i == 1944

/-- They are flipped. -/
theorem desegment_detects_burst_twoBlocks :
    (oiP2CbSegmentCompute 3825 .bg2).nofSegments = 2 ∧
      ∃ status out, oiP2CbDesegment (oiP2CbSegmentCompute 3825 .bg2) 3825
          ((List.range 2).map fun cb => packBytes (withHit threeFlips 1 twoBlocks cb))
          (List.replicate 479 0x55) (fun _ => 0xff) = some (status, out) ∧ status ≠ .ok := by
  have burst : Burst threeFlips (coveredBits (oiP2CbSegmentCompute 3825 .bg2) 3825)
      (burstLength (oiP2CbSegmentCompute 3825 .bg2)) := by
    change Burst threeFlips 1949 24
    refine ⟨⟨1921, rfl⟩, fun i set => ?_, ⟨1921, fun i set => ?_⟩⟩
    all_goals
      simp only [threeFlips, Bool.or_eq_true, beq_iff_eq] at set
      omega
  have block : 1 < (oiP2CbSegmentCompute twoBlocksTb.length .bg2).nofSegments := by
    rw [length_twoBlocksTb]
    decide
  obtain ⟨status, out, result, failed⟩ := desegment_detects_burst .bg2 small_twoBlocksTb block
    (by rwa [length_twoBlocksTb]) (blocksStart_packBytes (withHit threeFlips 1 twoBlocks))
    room_twoBlocksTb fun _ => 0xff
  rw [length_twoBlocksTb] at result
  exact ⟨by decide, status, out, result, failed⟩

end Desegment

end RanInline.Tail
