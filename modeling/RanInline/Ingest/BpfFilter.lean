/-
Module: RanInline.Ingest.BpfFilter
Purpose: The BPF filter that attach_bpf_filter puts on the capture socket: which frames it
  accepts, against src_mac_matches of pcap_comparator.cpp and oi_oran_preparse_frame.
Trusted boundary: none
Main exports: RuMac, attachBpfFilter, srcMacMatches, run_attachBpfFilter,
  filter_agrees_with_preparse
-/
import RanInline.Lib.ClassicBpf
import RanInline.Oran.Grammar

namespace RanInline.Ingest

open RanInline.Lib RanInline.Oran
open RanInline.Lib.Bpf (HasAt beValue loadAbs run operation)

/-- `uint8_t ru_mac[6]`. -/
abbrev RuMac := Fin 6 → UInt8

/-- `ru_hi32`. -/
def ruHi32 (ruMac : RuMac) : UInt32 :=
  (ruMac 0).toUInt32 <<< 24 ||| (ruMac 1).toUInt32 <<< 16 ||| (ruMac 2).toUInt32 <<< 8 |||
    (ruMac 3).toUInt32

/-- `ru_lo16`. -/
def ruLo16 (ruMac : RuMac) : UInt32 := (ruMac 4).toUInt32 <<< 8 ||| (ruMac 5).toUInt32

/-- The filter of `attach_bpf_filter`. -/
def attachBpfFilter (ruMac : RuMac) : List SockFilter :=
  [ { code := 0x28, jt := 0, jf := 0, k := 0x0000000c },
    { code := 0x15, jt := 3, jf := 0, k := 0x0000aefe },
    { code := 0x15, jt := 0, jf := 7, k := 0x00008100 },
    { code := 0x28, jt := 0, jf := 0, k := 0x00000010 },
    { code := 0x15, jt := 0, jf := 5, k := 0x0000aefe },
    { code := 0x20, jt := 0, jf := 0, k := 0x00000006 },
    { code := 0x15, jt := 0, jf := 3, k := ruHi32 ruMac },
    { code := 0x28, jt := 0, jf := 0, k := 0x0000000a },
    { code := 0x15, jt := 0, jf := 1, k := ruLo16 ruMac },
    { code := 0x06, jt := 0, jf := 0, k := 0x0000ffff },
    { code := 0x06, jt := 0, jf := 0, k := 0x00000000 } ]

/-- `src_mac_matches` of pcap_comparator.cpp. -/
def srcMacMatches (frame : List UInt8) (ruMac : RuMac) : Bool :=
  if frame.length < 12 then false else (frame.drop 6).take 6 == List.ofFn ruMac

/-! ### What the filter accepts -/

section Filter

variable {ruMac : RuMac} {frame : List UInt8}

theorem toNat_shifted (byte : UInt8) {places : UInt32} (few : places.toNat ≤ 24) :
    (byte.toUInt32 <<< places).toNat = byte.toNat <<< places.toNat := by
  have small := byte.toNat_lt
  have most : 2 ^ places.toNat ≤ 2 ^ 24 := Nat.pow_le_pow_right (by decide) few
  rw [UInt32.toNat_shiftLeft, UInt8.toNat_toUInt32,
    Nat.mod_eq_of_lt (show places.toNat < 32 by omega),
    Nat.mod_eq_of_lt]
  rw [Nat.shiftLeft_eq]
  calc byte.toNat * 2 ^ places.toNat ≤ 255 * 2 ^ 24 := Nat.mul_le_mul (by omega) most
    _ < 2 ^ 32 := by decide

/-- A byte behind others. -/
theorem shiftLeft_or_byte (value : Nat) (byte : UInt8) :
    value <<< 8 ||| byte.toNat = value * 256 + byte.toNat := by
  rw [← Nat.shiftLeft_add_eq_or_of_lt byte.toNat_lt, Nat.shiftLeft_eq]

theorem ruHi32_eq (ruMac : RuMac) :
    ruHi32 ruMac = UInt32.ofNat (beValue [ruMac 0, ruMac 1, ruMac 2, ruMac 3]) := by
  have bound : beValue [ruMac 0, ruMac 1, ruMac 2, ruMac 3] < 256 ^ 4 :=
    Bpf.beValue_lt [ruMac 0, ruMac 1, ruMac 2, ruMac 3]
  have joined : (ruMac 0).toNat <<< 24 ||| (ruMac 1).toNat <<< 16 ||| (ruMac 2).toNat <<< 8 |||
      (ruMac 3).toNat = beValue [ruMac 0, ruMac 1, ruMac 2, ruMac 3] := by
    have nested : (ruMac 0).toNat <<< 24 ||| (ruMac 1).toNat <<< 16 ||| (ruMac 2).toNat <<< 8 =
        (((ruMac 0).toNat <<< 8 ||| (ruMac 1).toNat) <<< 8 ||| (ruMac 2).toNat) <<< 8 := by
      simp only [Nat.shiftLeft_or_distrib, ← Nat.shiftLeft_add]
    rw [nested, shiftLeft_or_byte, shiftLeft_or_byte, shiftLeft_or_byte]
    simp [beValue]
  rw [← UInt32.toNat_inj, UInt32.toNat_ofNat', Nat.mod_eq_of_lt (by omega), ← joined, ruHi32,
    UInt32.toNat_or, UInt32.toNat_or, UInt32.toNat_or, toNat_shifted _ (by decide),
    toNat_shifted _ (by decide), toNat_shifted _ (by decide), UInt8.toNat_toUInt32]
  rfl

theorem ruLo16_eq (ruMac : RuMac) :
    ruLo16 ruMac = UInt32.ofNat (beValue [ruMac 4, ruMac 5]) := by
  have bound : beValue [ruMac 4, ruMac 5] < 256 ^ 2 := Bpf.beValue_lt [ruMac 4, ruMac 5]
  have joined : (ruMac 4).toNat <<< 8 ||| (ruMac 5).toNat = beValue [ruMac 4, ruMac 5] := by
    rw [shiftLeft_or_byte]
    simp [beValue]
  rw [← UInt32.toNat_inj, UInt32.toNat_ofNat', Nat.mod_eq_of_lt (by omega), ← joined, ruLo16,
    UInt32.toNat_or, toNat_shifted _ (by decide), UInt8.toNat_toUInt32]
  rfl

/-- The last instruction rejects. -/
theorem run_reject (ruMac : RuMac) (frame : List UInt8) (a : UInt32) :
    run frame ((attachBpfFilter ruMac).drop 10) a = some 0 :=
  Bpf.run_ret rfl

/-- A load that fails and a test that fails both reject. -/
theorem elim_reject (ruMac : RuMac) (frame : List UInt8) (loaded : Option UInt32) :
    loaded.elim (some 0) (run frame ((attachBpfFilter ruMac).drop 10)) = some 0 := by
  cases loaded with
  | none => rfl
  | some value => exact run_reject ruMac frame value

/-- The last six instructions accept the frames of the radio unit. -/
theorem run_macCheck (ruMac : RuMac) (frame : List UInt8) (a : UInt32) :
    run frame ((attachBpfFilter ruMac).drop 5) a =
      some (if HasAt frame 6 (List.ofFn ruMac) then 0xffff else 0) := by
  have mac : HasAt frame 6 (List.ofFn ruMac) ↔
      HasAt frame 6 [ruMac 0, ruMac 1, ruMac 2, ruMac 3] ∧ HasAt frame 10 [ruMac 4, ruMac 5] :=
    Bpf.hasAt_append frame 6 [ruMac 0, ruMac 1, ruMac 2, ruMac 3] [ruMac 4, ruMac 5]
  have first : run frame ((attachBpfFilter ruMac).drop 5) a =
      if HasAt frame 6 [ruMac 0, ruMac 1, ruMac 2, ruMac 3] then
        run frame ((attachBpfFilter ruMac).drop 7) (ruHi32 ruMac)
      else (loadAbs frame 6 4).elim (some 0) (run frame ((attachBpfFilter ruMac).drop 10)) :=
    Bpf.run_compare rfl rfl (ruHi32_eq ruMac) (by simp) (by simp)
  have second : run frame ((attachBpfFilter ruMac).drop 7) (ruHi32 ruMac) =
      if HasAt frame 10 [ruMac 4, ruMac 5] then
        run frame ((attachBpfFilter ruMac).drop 9) (ruLo16 ruMac)
      else (loadAbs frame 10 2).elim (some 0) (run frame ((attachBpfFilter ruMac).drop 10)) :=
    Bpf.run_compare rfl rfl (ruLo16_eq ruMac) (by simp) (by simp)
  have accept : run frame ((attachBpfFilter ruMac).drop 9) (ruLo16 ruMac) = some 0xffff :=
    Bpf.run_ret rfl
  rw [first, second, accept, elim_reject, elim_reject]
  by_cases high : HasAt frame 6 [ruMac 0, ruMac 1, ruMac 2, ruMac 3]
  · by_cases low : HasAt frame 10 [ruMac 4, ruMac 5]
    · rw [if_pos high, if_pos low, if_pos (mac.mpr ⟨high, low⟩)]
    · rw [if_pos high, if_neg low, if_neg fun both => low (mac.mp both).2]
  · rw [if_neg high, if_neg fun both => high (mac.mp both).1]

/-- The EtherType of O-RAN, in one of its two places. -/
def OranEthertype (frame : List UInt8) : Prop :=
  HasAt frame 12 [0xAE, 0xFE] ∨ HasAt frame 12 [0x81, 0x00] ∧ HasAt frame 16 [0xAE, 0xFE]

instance (frame : List UInt8) : Decidable (OranEthertype frame) :=
  inferInstanceAs (Decidable (_ ∨ _ ∧ _))

/-- The whole filter. -/
theorem run_attachBpfFilter (ruMac : RuMac) (frame : List UInt8) :
    run frame (attachBpfFilter ruMac) 0 =
      some (if HasAt frame 6 (List.ofFn ruMac) ∧ OranEthertype frame then 0xffff else 0) := by
  have first : run frame (attachBpfFilter ruMac) 0 =
      if HasAt frame 12 [0xAE, 0xFE] then run frame ((attachBpfFilter ruMac).drop 5) 0xAEFE
      else (loadAbs frame 12 2).elim (some 0) (run frame ((attachBpfFilter ruMac).drop 2)) :=
    Bpf.run_compare rfl rfl rfl (by decide) (by decide)
  have tagged (value : UInt32) : run frame ((attachBpfFilter ruMac).drop 2) value =
      run frame ((attachBpfFilter ruMac).drop (if value = 0x8100 then 3 else 10)) value := by
    rw [show (attachBpfFilter ruMac).drop 2 = { code := 0x15, jt := 0, jf := 7, k := 0x8100 } ::
      (attachBpfFilter ruMac).drop 3 from rfl, Bpf.run_jeq rfl]
    split_ifs <;> rfl
  have inner (value : UInt32) : run frame ((attachBpfFilter ruMac).drop 3) value =
      if HasAt frame 16 [0xAE, 0xFE] then run frame ((attachBpfFilter ruMac).drop 5) 0xAEFE
      else (loadAbs frame 16 2).elim (some 0) (run frame ((attachBpfFilter ruMac).drop 10)) :=
    Bpf.run_compare rfl rfl rfl (by decide) (by decide)
  have tpid : loadAbs frame 12 2 = some 0x8100 ↔ HasAt frame 12 [0x81, 0x00] :=
    Bpf.loadAbs_eq_some_iff (show 0 < [(0x81 : UInt8), 0x00].length by decide) (by decide)
  rw [first, run_macCheck]
  by_cases untagged : HasAt frame 12 [0xAE, 0xFE]
  · rw [if_pos untagged]
    simp only [OranEthertype, untagged, true_or, and_true]
  · rw [if_neg untagged]
    cases loaded : loadAbs frame 12 2 with
    | none =>
        have other : ¬ HasAt frame 12 [0x81, 0x00] := fun has => by
          rw [tpid.mpr has] at loaded
          cases loaded
        simp only [OranEthertype, untagged, other, false_and, or_false, and_false, if_false]
        rfl
    | some value =>
        rw [loaded, Option.some_inj] at tpid
        rw [Option.elim_some, tagged]
        by_cases isTagged : value = 0x8100
        · rw [if_pos isTagged, inner, run_macCheck, elim_reject]
          by_cases oran : HasAt frame 16 [0xAE, 0xFE]
          · simp only [OranEthertype, tpid.mp isTagged, oran, and_self, or_true, and_true, if_true]
          · simp only [OranEthertype, untagged, oran, and_false, or_false, if_false]
        · rw [if_neg isTagged, run_reject]
          simp only [OranEthertype, untagged, mt tpid.mpr isTagged, false_and, or_false, and_false,
            if_false]

/-! ### Against the comparator and the parser -/

theorem srcMacMatches_iff : srcMacMatches frame ruMac = true ↔ HasAt frame 6 (List.ofFn ruMac) := by
  have length : (List.ofFn ruMac).length = 6 := List.length_ofFn
  have taken : HasAt frame 6 (List.ofFn ruMac) ↔ (frame.drop 6).take 6 = List.ofFn ruMac := by
    rw [Bpf.hasAt_iff_take, length]
  rw [srcMacMatches, taken]
  split_ifs with short
  · constructor
    · intro absurd
      cases absurd
    · intro has
      have inside := (taken.mpr has).length_le (by omega)
      omega
  · exact beq_iff_eq

theorem hasAt_pair {offset : Nat} {high low : UInt8} (inside : offset + 1 < frame.length)
    (highByte : byteVal frame offset = high.toNat) (lowByte : byteVal frame (offset + 1) = low.toNat) :
    HasAt frame offset [high, low] := by
  have byte {i : Nat} {value : UInt8} (here : i < frame.length)
      (same : byteVal frame i = value.toNat) : frame[i]? = some value := by
    rw [byteVal, List.getD_eq_getElem?_getD, List.getElem?_eq_getElem here, Option.getD_some,
      UInt8.toNat_inj] at same
    rw [List.getElem?_eq_getElem here, same]
  exact Bpf.hasAt_pair_iff.mpr ⟨byte (by omega) highByte, byte inside lowByte⟩

theorem hasAt_mac_iff :
    HasAt frame 6 (List.ofFn ruMac) ↔ ∀ i : Fin 6, frame[6 + i.val]? = some (ruMac i) := by
  have length : (List.ofFn ruMac).length = 6 := List.length_ofFn
  have byte (i : Fin 6) : (List.ofFn ruMac)[i.val]? = some (ruMac i) := by
    rw [List.getElem?_ofFn, dif_pos i.isLt]
  constructor
  · intro has i
    rw [has i.val (by omega), byte]
  · intro bytes i less
    exact (bytes ⟨i, by omega⟩).trans (byte ⟨i, by omega⟩).symm

/-- What the parser accepts has the EtherType of O-RAN. -/
theorem oranEthertype_of_accepts {extension hdr : Nat} (accepts : Oran.Accepts frame extension hdr) :
    OranEthertype frame := by
  have complete := accepts.complete
  rcases accepts.ethernet with ⟨rfl, high, low⟩ | ⟨rfl, ⟨tagHigh, tagLow⟩, high, low⟩
  · exact .inl (hasAt_pair (by omega) high low)
  · exact .inr ⟨hasAt_pair (by omega) tagHigh tagLow, hasAt_pair (by omega) high low⟩

/-- The filter accepts the frames with the source address of the radio unit and the EtherType of
O-RAN, behind an 802.1Q tag or not: only frames that `src_mac_matches` takes, and every one of them
that `oi_oran_preparse_frame` parses. -/
theorem filter_agrees_with_preparse (ruMac : RuMac) (frame : List UInt8) :
    (Bpf.Accepts (attachBpfFilter ruMac) frame ↔
        (∀ i : Fin 6, frame[6 + i.val]? = some (ruMac i)) ∧
          ((frame[12]? = some 0xAE ∧ frame[13]? = some 0xFE) ∨
            (frame[12]? = some 0x81 ∧ frame[13]? = some 0x00 ∧
              frame[16]? = some 0xAE ∧ frame[17]? = some 0xFE))) ∧
      (Bpf.Accepts (attachBpfFilter ruMac) frame → srcMacMatches frame ruMac = true) ∧
      ∀ state udcomphdrBytes outDesc outcome, srcMacMatches frame ruMac = true →
        oiOranPreparseFrame state frame frame.length udcomphdrBytes outDesc = some outcome →
        outcome.status = .ok → Bpf.Accepts (attachBpfFilter ruMac) frame := by
  have kept : Bpf.Accepts (attachBpfFilter ruMac) frame ↔
      HasAt frame 6 (List.ofFn ruMac) ∧ OranEthertype frame := by
    rw [Bpf.Accepts, run_attachBpfFilter]
    by_cases wanted : HasAt frame 6 (List.ofFn ruMac) ∧ OranEthertype frame
    · rw [if_pos wanted]
      exact ⟨fun _ => wanted, fun _ => ⟨0xffff, rfl, by decide⟩⟩
    · rw [if_neg wanted]
      refine ⟨?_, fun holds => absurd holds wanted⟩
      rintro ⟨kept, same, nonzero⟩
      exact absurd (Option.some_inj.mp same).symm nonzero
  refine ⟨?_, fun accepted => srcMacMatches_iff.mpr (kept.mp accepted).1, ?_⟩
  · rw [kept, hasAt_mac_iff, OranEthertype, Bpf.hasAt_pair_iff, Bpf.hasAt_pair_iff,
      Bpf.hasAt_pair_iff, and_assoc]
  · intro state udcomphdrBytes outDesc outcome mac parsed ok
    obtain ⟨hdr, accepts, _⟩ := accepts_of_parsed state outDesc udcomphdrBytes parsed ok
    exact kept.mpr ⟨srcMacMatches_iff.mp mac, oranEthertype_of_accepts accepts⟩

end Filter

end RanInline.Ingest
