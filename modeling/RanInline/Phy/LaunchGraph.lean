/-
Module: RanInline.Phy.LaunchGraph
Purpose: The commands that oi_p2_launch_slot enqueues, with the buffers they use and the events they
  wait for: which orders of execution leave what the enqueue order leaves.  The way of the data REs
  through the transmit grid, K1 and the compaction.
Trusted boundary: none
Main exports: LaunchCommand, waitList, LaunchKernels, launchTask, Respects, packTbGrid,
  launch_order_matters_iff, compaction_inverts_transmit_map
-/
import Mathlib.Data.List.FinRange
import RanInline.Lib.Commuting
import RanInline.Lib.LastWins
import RanInline.Phy.Depacketize

namespace RanInline.Phy

open RanInline.Lib RanInline.Oran

/-! ### The commands of a launch -/

/-- The commands with an event: K1, K2a for a DMRS symbol, the copy of a data row, K2b, K3, K4 and
K5. -/
inductive LaunchCommand where
  | k1
  | k2a (i : Fin 3)
  | copy (lin : Fin 11)
  | k2b
  | k3
  | k4
  | k5
deriving DecidableEq, Repr

/-- The enqueue order. -/
def launchCommands : List LaunchCommand :=
  [.k1] ++ (List.finRange 3).map .k2a ++ (List.finRange 11).map .copy ++ [.k2b, .k3, .k4, .k5]

/-- The events that a command waits for. -/
def waitList : LaunchCommand → List LaunchCommand
  | .k1 => []
  | .k2a _ => [.k1]
  | .copy _ => [.k1]
  | .k2b => [.k2a 0, .k2a 1, .k2a 2, .copy 10]
  | .k3 => [.k2b]
  | .k4 => [.k3]
  | .k5 => [.k4]

/-- The device buffers of a launch.  `re_grid_compact` is taken row by row. -/
inductive LaunchBuffer where
  | reGrid
  | symbolBitmap
  | fdEst (i : Fin 3)
  | filteredPilot (i : Fin 3)
  | eprePartial (i : Fin 3)
  | compactRow (lin : Fin 11)
  | chEst
  | noiseVar
  | epre
  | eqSymbols
  | eqNoiseVar
  | llr
deriving DecidableEq, Repr

/-- The buffers a command reads.  K1 leaves what no frame covers; the partial EPRE sums reach K2b
as scalars that the host read behind K2a. -/
def launchReads : LaunchCommand → List LaunchBuffer
  | .k1 => [.reGrid, .symbolBitmap]
  | .k2a _ => [.reGrid, .symbolBitmap]
  | .copy _ => [.reGrid]
  | .k2b => (List.finRange 3).map .fdEst ++ (List.finRange 3).map .filteredPilot ++ [.reGrid] ++
      (List.finRange 3).map .eprePartial
  | .k3 => (List.finRange 11).map .compactRow ++ [.chEst, .noiseVar]
  | .k4 => [.eqSymbols, .eqNoiseVar]
  | .k5 => [.llr]

/-- The buffers a command writes. -/
def launchWrites : LaunchCommand → List LaunchBuffer
  | .k1 => [.reGrid, .symbolBitmap]
  | .k2a i => [.fdEst i, .filteredPilot i, .eprePartial i]
  | .copy lin => [.compactRow lin]
  | .k2b => [.chEst, .noiseVar, .epre]
  | .k3 => [.eqSymbols, .eqNoiseVar]
  | .k4 => [.llr]
  | .k5 => [.llr]

/-- `kDataSymbols`. -/
def kDataSymbols : List Nat := [0, 1, 3, 4, 5, 6, 8, 9, 10, 12, 13]

/-- `kDmrsSymbols`. -/
def kDmrsSymbols : List Nat := [2, 7, 11]

/-- The contents of the buffers, by index. -/
abbrev LaunchMemory (W : Type) := LaunchBuffer → Nat → W

/-- The kernels: what each command computes from the buffers it reads. -/
structure LaunchKernels (W : Type) where
  compute : LaunchCommand → LaunchMemory W → LaunchMemory W
  local_ : ∀ (command : LaunchCommand) (one two : LaunchMemory W),
    (∀ buffer ∈ launchReads command, one buffer = two buffer) →
      ∀ buffer ∈ launchWrites command, compute command one buffer = compute command two buffer

/-- What a command writes; a copy takes the row of its data symbol. -/
def launchCompute {W : Type} (kernels : LaunchKernels W) (command : LaunchCommand)
    (memory : LaunchMemory W) : LaunchMemory W :=
  match command with
  | .copy lin => fun _ i => memory .reGrid (kDataSymbols.getD lin 0 * k1NofSubcarriers + i)
  | _ => kernels.compute command memory

/-- The command as a task. -/
def launchTask {W : Type} (kernels : LaunchKernels W) (command : LaunchCommand) :
    Task LaunchBuffer (Nat → W) where
  reads := launchReads command
  writes := launchWrites command
  compute := launchCompute kernels command
  local_ := by
    intro one two same buffer written
    cases command with
    | copy lin =>
        have grid := same .reGrid List.mem_cons_self
        simp only [launchCompute, grid]
    | k1 | k2b | k3 | k4 | k5 => exact kernels.local_ _ one two same buffer written
    | k2a i => exact kernels.local_ _ one two same buffer written

/-- An order in which the commands can take effect: every command behind those it waits for. -/
structure Respects (order : List LaunchCommand) : Prop where
  perm : order.Perm launchCommands
  waits : ∀ command, ∀ awaited ∈ waitList command, [awaited, command].Sublist order

/-! ### What the wait lists order -/

/-- The commands that a command waits for, over so many steps. -/
def awaited : Nat → LaunchCommand → List LaunchCommand
  | 0, _ => []
  | n + 1, command => waitList command ++ (waitList command).flatMap (awaited n)

theorem launchCommands_nodup : launchCommands.Nodup := by decide

/-- The conflicts between commands, decided on the buffers. -/
def launchConflict (one two : LaunchCommand) : Bool :=
  (launchWrites one).any (fun buffer =>
    (launchReads two).contains buffer || (launchWrites two).contains buffer) ||
  (launchWrites two).any fun buffer => (launchReads one).contains buffer

theorem conflicts_iff {W : Type} (kernels : LaunchKernels W) (one two : LaunchCommand) :
    (launchTask kernels one).Conflicts (launchTask kernels two) ↔
      launchConflict one two = true := by
  simp [Task.Conflicts, launchTask, launchConflict]

/-- The commands in front of another one that conflicts with them are awaited by it, but for the
copies in front of K3. -/
theorem awaited_of_conflict : ∀ one ∈ launchCommands, ∀ two ∈ launchCommands,
    launchConflict one two = true → [one, two].Sublist launchCommands →
      one ∈ awaited 5 two ∨ two = .k3 ∧ ∃ lin, one = .copy lin := by
  decide +kernel

/-- The enqueue order, which an in-order queue keeps. -/
theorem launchCommands_respects : Respects launchCommands := by
  refine ⟨.refl _, fun command => ?_⟩
  cases command with
  | k2a i => revert i; decide
  | copy lin => revert lin; decide
  | _ => decide

section Orders

variable {order : List LaunchCommand}

theorem Respects.nodup (respects : Respects order) : order.Nodup :=
  respects.perm.nodup_iff.mpr launchCommands_nodup

theorem Respects.mem (respects : Respects order) (command : LaunchCommand) : command ∈ order := by
  have listed : command ∈ launchCommands := by
    cases command with
    | k2a i | copy lin => simp [launchCommands]
    | _ => decide
  exact respects.perm.mem_iff.mpr listed

theorem Respects.awaited (respects : Respects order) (n : Nat) (command : LaunchCommand) :
    ∀ earlier ∈ awaited n command, [earlier, command].Sublist order := by
  induction n generalizing command with
  | zero => exact List.forall_mem_nil _
  | succ n inductionHypothesis =>
      intro earlier member
      rcases List.mem_append.mp member with direct | indirect
      · exact respects.waits command earlier direct
      · obtain ⟨between, waited, member⟩ := List.mem_flatMap.mp indirect
        exact sublist_pair_trans respects.nodup (inductionHypothesis between earlier member)
          (respects.waits command between waited)

/-- With every copy in front of K3 the order leaves what the enqueue order leaves. -/
theorem Respects.runAll_eq (respects : Respects order)
    (copied : ∀ lin, [LaunchCommand.copy lin, .k3].Sublist order) {W : Type}
    (kernels : LaunchKernels W) (memory : LaunchMemory W) :
    runAll (launchTask kernels) order memory =
      runAll (launchTask kernels) launchCommands memory := by
  refine runAll_eq_of_conflicts_kept _ respects.perm respects.nodup ?_ memory
  intro one two conflicts before
  have inside (command : LaunchCommand) : command ∈ launchCommands :=
    respects.perm.mem_iff.mp (respects.mem command)
  have different : one ≠ two := by
    rintro rfl
    exact absurd (respects.nodup.sublist before) (by simp)
  rcases sublist_pair_or (inside one) (inside two) different with same | other
  · exact same
  · refine absurd before (not_sublist_pair respects.nodup ?_)
    have conflict := (conflicts_iff kernels two one).mp conflicts.symm
    rcases awaited_of_conflict two (inside two) one (inside one) conflict other with
      waited | ⟨rfl, lin, rfl⟩
    · exact respects.awaited 5 one two waited
    · exact copied lin

/-! ### A copy behind K3 -/

/-- Kernels that carry a row of the compact grid to the LLRs. -/
def rowProbe (lin : Fin 11) : LaunchKernels Bool where
  compute command memory buffer :=
    match command, buffer with
    | .k1, .reGrid => fun _ => true
    | .k3, .eqSymbols => memory (.compactRow lin)
    | .k4, .llr => memory .eqSymbols
    | .k5, .llr => memory .llr
    | _, _ => fun _ => false
  local_ command one two same buffer written := by
    cases command with
    | k3 =>
        have row := same (.compactRow lin) (by simp [launchReads])
        cases buffer with
        | eqSymbols => exact row
        | _ => rfl
    | k4 =>
        have symbols := same .eqSymbols (by decide)
        cases buffer with
        | llr => exact symbols
        | _ => rfl
    | k5 =>
        have soft := same .llr (by decide)
        cases buffer with
        | llr => exact soft
        | _ => rfl
    | k1 => cases buffer <;> rfl
    | k2a i | copy lin => rfl
    | k2b => rfl

theorem rowProbe_enqueue_order : ∀ lin, runAll (launchTask (rowProbe lin)) launchCommands
    (fun _ _ => false) .llr 0 = true := by
  decide +kernel

/-- The commands that write the buffers between a row and the LLRs. -/
theorem writer_of_eqSymbols {command : LaunchCommand}
    (writes : .eqSymbols ∈ launchWrites command) : command = .k3 := by
  cases command <;> simp_all [launchWrites]

theorem writer_of_llr {command : LaunchCommand} (writes : .llr ∈ launchWrites command) :
    command = .k4 ∨ command = .k5 := by
  cases command <;> simp_all [launchWrites]

theorem writer_of_compactRow {command : LaunchCommand} {lin : Fin 11}
    (writes : .compactRow lin ∈ launchWrites command) : command = .copy lin := by
  cases command <;> simp_all [launchWrites]

/-- K3 in front of a copy reads what the row held before the launch. -/
theorem Respects.rowProbe_stale (respects : Respects order) {lin : Fin 11}
    (late : ¬ [LaunchCommand.copy lin, .k3].Sublist order) :
    runAll (launchTask (rowProbe lin)) order (fun _ _ => false) .llr 0 = false := by
  have distinct := respects.nodup
  have k4First := respects.waits .k5 .k4 List.mem_cons_self
  have k3First := respects.waits .k4 .k3 List.mem_cons_self
  obtain ⟨front5, back5, rfl⟩ := List.append_of_mem (respects.mem .k5)
  have distinct5 : front5.Nodup := distinct.of_append_left
  have inFront5 := mem_front_of_sublist distinct k4First
  have behind5 : ∀ other ∈ back5, .llr ∉ (launchTask (rowProbe lin) other).writes := by
    intro other member writes
    rcases writer_of_llr writes with rfl | rfl
    · exact List.disjoint_of_nodup_append distinct inFront5 (List.mem_cons_of_mem _ member)
    · exact ne_of_mem_back distinct member rfl
  obtain ⟨front4, back4, rfl⟩ := List.append_of_mem inFront5
  have behind4 : ∀ other ∈ back4, .llr ∉ (launchTask (rowProbe lin) other).writes := by
    intro other member writes
    rcases writer_of_llr writes with rfl | rfl
    · exact ne_of_mem_back distinct5 member rfl
    · exact List.disjoint_of_nodup_append distinct
        (List.mem_append_right _ (List.mem_cons_of_mem _ member)) List.mem_cons_self
  have inFront4 : .k3 ∈ front4 := by
    rw [List.append_assoc] at distinct k3First
    exact mem_front_of_sublist distinct k3First
  obtain ⟨front3, back3, rfl⟩ := List.append_of_mem inFront4
  have behind3 : ∀ other ∈ back3, .eqSymbols ∉ (launchTask (rowProbe lin) other).writes := by
    intro other member writes
    obtain rfl := writer_of_eqSymbols writes
    exact ne_of_mem_back distinct5.of_append_left member rfl
  have front3Keeps : ∀ other ∈ front3,
      .compactRow lin ∉ (launchTask (rowProbe lin) other).writes := by
    intro other early writes
    obtain rfl := writer_of_compactRow writes
    refine late (List.Sublist.trans ?_ (List.sublist_append_left _ _))
    refine List.Sublist.trans ?_ (List.sublist_append_left _ _)
    exact (List.singleton_sublist.mpr early).append
      (List.singleton_sublist.mpr List.mem_cons_self)
  have written (command : LaunchCommand) (buffer : LaunchBuffer)
      (listed : buffer ∈ launchWrites command) :
      buffer ∈ (launchTask (rowProbe lin) command).writes := listed
  -- From K5 back to the row: each buffer holds what its last writer made of the one before.
  have softBits := runAll_last (launchTask (rowProbe lin))
    (front3 ++ .k3 :: back3 ++ .k4 :: back4) (written .k5 .llr (by decide)) behind5
    (fun _ _ => false)
  have demapped := runAll_last (launchTask (rowProbe lin)) (front3 ++ .k3 :: back3)
    (written .k4 .llr (by decide)) behind4 (fun _ _ => false)
  have equalized := runAll_last (launchTask (rowProbe lin)) front3
    (written .k3 .eqSymbols (by decide)) behind3 (fun _ _ => false)
  have row := runAll_of_not_written (launchTask (rowProbe lin)) front3Keeps (fun _ _ => false)
  exact congrFun (softBits.trans (demapped.trans (equalized.trans row))) 0

/-- For every order of the commands that respects the wait lists: it leaves what the enqueue order
leaves, whatever the kernels compute and the buffers held, just when each of the eleven copies
takes effect in front of K3.  The wait list of K2b names the last copy only, so that an out-of-order
queue may break this for the other ten. -/
theorem launch_order_matters_iff (respects : Respects order) :
    (∀ (W : Type) (kernels : LaunchKernels W) (memory : LaunchMemory W),
        runAll (launchTask kernels) order memory =
          runAll (launchTask kernels) launchCommands memory) ↔
      ∀ lin, [LaunchCommand.copy lin, .k3].Sublist order := by
  constructor
  · intro same lin
    by_contra late
    have stale := respects.rowProbe_stale late
    rw [same, rowProbe_enqueue_order] at stale
    cases stale
  · exact fun copied W kernels memory => respects.runAll_eq copied kernels memory

/-- An order with ten of the copies behind K5. -/
def lateCopies : List LaunchCommand :=
  [.k1] ++ (List.finRange 3).map .k2a ++ [.copy 10, .k2b, .k3, .k4, .k5] ++
    ((List.finRange 11).take 10).map .copy

theorem launch_order_matters_iff_late_copies :
    Respects lateCopies ∧
      ¬ ∀ (W : Type) (kernels : LaunchKernels W) (memory : LaunchMemory W),
        runAll (launchTask kernels) lateCopies memory =
          runAll (launchTask kernels) launchCommands memory := by
  have respects : Respects lateCopies := by
    refine ⟨by decide, fun command => ?_⟩
    cases command with
    | k2a i => revert i; decide
    | copy lin => revert lin; decide
    | _ => decide
  refine ⟨respects, fun same => ?_⟩
  exact absurd ((launch_order_matters_iff respects).mp same 0) (by decide)

end Orders

/-! ### From the transmit grid to the kernels -/

section TransmitMap

variable {F G : Type}

/-- The stores of step 6 of `pack_tb`: the data rows, then the pilots on every other subcarrier. -/
def packStores (symbols : Nat → G) (dmrsRef : Nat → Nat → G) : List ((Nat × Nat) × G) :=
  ((List.range 11).flatMap fun lin => (List.range k1NofSubcarriers).map fun sc =>
    ((kDataSymbols.getD lin 0, sc), symbols (lin * k1NofSubcarriers + sc))) ++
  (List.range 3).flatMap fun i => (List.range 306).map fun p =>
    ((kDmrsSymbols.getD i 0, 2 * p), dmrsRef i p)

/-- The `re_grid` of `pack_tb`, by symbol and subcarrier. -/
def packTbGrid (zero : G) (symbols : Nat → G) (dmrsRef : Nat → Nat → G) : Nat × Nat → G :=
  tableOf Prod.fst Prod.snd (packStores symbols dmrsRef) fun _ => zero

/-- Every data row and every pilot row is a symbol of its own. -/
theorem kDataSymbols_injective : ∀ one < 11, ∀ two < 11,
    kDataSymbols.getD one 0 = kDataSymbols.getD two 0 → one = two := by decide

theorem kDmrsSymbols_injective : ∀ one < 3, ∀ two < 3,
    kDmrsSymbols.getD one 0 = kDmrsSymbols.getD two 0 → one = two := by decide

theorem kDataSymbols_ne_kDmrsSymbols : ∀ lin < 11, ∀ i < 3,
    kDataSymbols.getD lin 0 ≠ kDmrsSymbols.getD i 0 := by decide

theorem kDataSymbols_lt : ∀ lin < 11, kDataSymbols.getD lin 0 < k1NofSymbols := by decide

theorem kDmrsSymbols_lt : ∀ i < 3, kDmrsSymbols.getD i 0 < k1NofSymbols := by decide

variable {zero : G} {symbols : Nat → G} {dmrsRef : Nat → Nat → G}

theorem mem_packStores {store : (Nat × Nat) × G} : store ∈ packStores symbols dmrsRef ↔
    (∃ lin < 11, ∃ sc < k1NofSubcarriers,
      ((kDataSymbols.getD lin 0, sc), symbols (lin * k1NofSubcarriers + sc)) = store) ∨
    ∃ i < 3, ∃ p < 306, ((kDmrsSymbols.getD i 0, 2 * p), dmrsRef i p) = store := by
  simp only [packStores, List.mem_append, List.mem_flatMap, List.mem_map, List.mem_range]

theorem packTbGrid_of_mem {entry : Nat × Nat} {value : G}
    (member : (entry, value) ∈ packStores symbols dmrsRef)
    (shared : ∀ other ∈ packStores symbols dmrsRef, other.1 = entry → other.2 = value) :
    packTbGrid zero symbols dmrsRef entry = value :=
  @tableOf_of_mem _ _ _ _ Prod.fst Prod.snd _ (fun _ => zero) (entry, value) member shared

theorem packTbGrid_data {lin sc : Nat} (row : lin < 11) (inside : sc < k1NofSubcarriers) :
    packTbGrid zero symbols dmrsRef (kDataSymbols.getD lin 0, sc) =
      symbols (lin * k1NofSubcarriers + sc) := by
  have member : ((kDataSymbols.getD lin 0, sc), symbols (lin * k1NofSubcarriers + sc)) ∈
      packStores symbols dmrsRef := mem_packStores.mpr (.inl ⟨lin, row, sc, inside, rfl⟩)
  refine packTbGrid_of_mem member fun other found keyed => ?_
  rcases mem_packStores.mp found with ⟨lin', row', sc', inside', rfl⟩ | ⟨i, dmrs, p, _, rfl⟩
  · obtain ⟨sameRow, sameColumn⟩ := Prod.mk.inj keyed
    simp only [kDataSymbols_injective _ row' _ row sameRow, sameColumn]
  · exact absurd (Prod.mk.inj keyed).1.symm (kDataSymbols_ne_kDmrsSymbols _ row _ dmrs)

theorem packTbGrid_dmrs {i p : Nat} (row : i < 3) (inside : p < 306) :
    packTbGrid zero symbols dmrsRef (kDmrsSymbols.getD i 0, 2 * p) = dmrsRef i p := by
  have member : ((kDmrsSymbols.getD i 0, 2 * p), dmrsRef i p) ∈ packStores symbols dmrsRef :=
    mem_packStores.mpr (.inr ⟨i, row, p, inside, rfl⟩)
  refine packTbGrid_of_mem member fun other found keyed => ?_
  rcases mem_packStores.mp found with ⟨lin, data, sc, _, rfl⟩ | ⟨i', row', p', _, rfl⟩
  · exact absurd (Prod.mk.inj keyed).1 (kDataSymbols_ne_kDmrsSymbols _ data _ row)
  · obtain ⟨sameRow, sameColumn⟩ := Prod.mk.inj keyed
    simp only [kDmrsSymbols_injective _ row' _ row sameRow,
      Nat.eq_of_mul_eq_mul_left Nat.two_pos sameColumn]

/-- What K1 leaves in the grid is what some schedule of its work-items leaves there. -/
def RunsK1 (kernels : LaunchKernels (F × F)) (threads : List (List (K1Write F))) : Prop :=
  ∀ memory, ∃ bitmap writes, Interleaves threads writes ∧
    ∀ symbol < k1NofSymbols, ∀ sc < k1NofSubcarriers,
      kernels.compute .k1 memory .reGrid (symbol * k1NofSubcarriers + sc) =
        (k1Run ⟨fun symbol sc => memory .reGrid (symbol * k1NofSubcarriers + sc), bitmap⟩
          writes).reGrid symbol sc

/-- The frames of a slot carry a grid over the full band: every accepted one the samples of its
symbol, and every sample is in one of them. -/
structure CarriesGrid (q15 : Int → F) (arena : Nat → UInt8) (descs : Nat → OiFrameDesc)
    (nofDescs : Nat) (slotId : UInt32) (received : Nat × Nat → F × F) : Prop where
  carried : ∀ gid < nofDescs, K1Accepts (descs gid) slotId → ∀ sc, K1Covers (descs gid) sc →
    k1Carried q15 arena (descs gid) sc = received ((descs gid).symbolId.toNat, sc)
  covered : ∀ symbol < k1NofSymbols, ∀ sc < k1NofSubcarriers, ∃ gid < nofDescs,
    K1Accepts (descs gid) slotId ∧ (descs gid).symbolId.toNat = symbol ∧ K1Covers (descs gid) sc

variable {q15 : Int → F} {arena : Nat → UInt8} {descs : Nat → OiFrameDesc} {nofDescs : Nat}
  {slotId : UInt32} {received : Nat × Nat → F × F} {kernels : LaunchKernels (F × F)}

/-- Whatever the grid held, K1 leaves the received one. -/
theorem CarriesGrid.k1 (carries : CarriesGrid q15 arena descs nofDescs slotId received)
    (runs : RunsK1 kernels (k1Threads q15 arena descs nofDescs slotId))
    (memory : LaunchMemory (F × F)) {symbol sc : Nat} (row : symbol < k1NofSymbols)
    (column : sc < k1NofSubcarriers) :
    kernels.compute .k1 memory .reGrid (symbol * k1NofSubcarriers + sc) =
      received (symbol, sc) := by
  obtain ⟨bitmap, writes, schedule, left⟩ := runs memory
  rw [left symbol row sc column]
  rcases k1Run_grid _ schedule symbol sc with
    ⟨gid, less, accepts, named, covers, value⟩ | ⟨none, _⟩
  · rw [value, carries.carried gid less accepts sc covers, named]
  · obtain ⟨gid, less, accepts, named, covers⟩ := carries.covered symbol row sc column
    exact absurd covers (none gid less accepts named)

theorem writer_of_reGrid {command : LaunchCommand} (writes : .reGrid ∈ launchWrites command) :
    command = .k1 := by
  cases command <;> simp_all [launchWrites]

/-- Behind K1 the grid is the received one. -/
theorem CarriesGrid.grid_behind_k1
    (carries : CarriesGrid q15 arena descs nofDescs slotId received)
    (runs : RunsK1 kernels (k1Threads q15 arena descs nofDescs slotId))
    {front : List LaunchCommand} (distinct : front.Nodup) (done : .k1 ∈ front)
    (memory : LaunchMemory (F × F)) {symbol sc : Nat} (row : symbol < k1NofSymbols)
    (column : sc < k1NofSubcarriers) :
    runAll (launchTask kernels) front memory .reGrid (symbol * k1NofSubcarriers + sc) =
      received (symbol, sc) := by
  obtain ⟨before, behind, rfl⟩ := List.append_of_mem done
  have kept : ∀ other ∈ behind, .reGrid ∉ (launchTask kernels other).writes := by
    intro other member writes
    exact ne_of_mem_back distinct member (writer_of_reGrid writes)
  have written : .reGrid ∈ (launchTask kernels .k1).writes :=
    show LaunchBuffer.reGrid ∈ launchWrites .k1 by decide
  rw [runAll_last (launchTask kernels) before written kept]
  exact carries.k1 runs _ row column

/-- For every order that respects the wait lists, every schedule of K1's work-items and frames that
carry the grid of `pack_tb` (`quantise` is the way of an entry over the wire): the data symbols
that K3 finds are those that were modulated, in their order, in each row whose copy is in front of
it, and K2a finds the pilots.  In the other rows K3 finds what they held before the launch. -/
theorem compaction_inverts_transmit_map {order : List LaunchCommand} (respects : Respects order)
    {quantise : G → F × F}
    (carries : CarriesGrid q15 arena descs nofDescs slotId fun entry =>
      quantise (packTbGrid zero symbols dmrsRef entry))
    (runs : RunsK1 kernels (k1Threads q15 arena descs nofDescs slotId))
    (memory : LaunchMemory (F × F)) :
    (∀ front back, order = front ++ .k3 :: back → ∀ (lin : Fin 11), ∀ sc < k1NofSubcarriers,
      runAll (launchTask kernels) front memory (.compactRow lin) sc =
        if .copy lin ∈ front then quantise (symbols (lin * k1NofSubcarriers + sc))
        else memory (.compactRow lin) sc) ∧
    ∀ (i : Fin 3) front back, order = front ++ .k2a i :: back → ∀ p < 306,
      runAll (launchTask kernels) front memory .reGrid
          (kDmrsSymbols.getD i 0 * k1NofSubcarriers + 2 * p) = quantise (dmrsRef i p) := by
  constructor
  · rintro front back rfl lin sc column
    have distinct : front.Nodup := respects.nodup.of_append_left
    by_cases copied : .copy lin ∈ front
    · rw [if_pos copied]
      obtain ⟨before, behind, rfl⟩ := List.append_of_mem copied
      have kept : ∀ other ∈ behind, .compactRow lin ∉ (launchTask kernels other).writes := by
        intro other member writes
        exact ne_of_mem_back distinct member (writer_of_compactRow writes)
      have written : .compactRow lin ∈ (launchTask kernels (.copy lin)).writes :=
        show LaunchBuffer.compactRow lin ∈ launchWrites (.copy lin) from List.mem_cons_self
      have first : .k1 ∈ before := by
        have waited := respects.waits (.copy lin) .k1 List.mem_cons_self
        have whole := respects.nodup
        rw [List.append_assoc] at waited whole
        exact mem_front_of_sublist whole waited
      rw [runAll_last (launchTask kernels) before written kept]
      calc runAll (launchTask kernels) before memory .reGrid
            (kDataSymbols.getD lin 0 * k1NofSubcarriers + sc)
        _ = quantise (packTbGrid zero symbols dmrsRef (kDataSymbols.getD lin 0, sc)) :=
            carries.grid_behind_k1 runs distinct.of_append_left first memory
              (kDataSymbols_lt lin lin.isLt) column
        _ = quantise (symbols (lin * k1NofSubcarriers + sc)) :=
            congrArg quantise (packTbGrid_data lin.isLt column)
    · rw [if_neg copied]
      have kept : ∀ other ∈ front, .compactRow lin ∉ (launchTask kernels other).writes := by
        intro other member writes
        exact copied (writer_of_compactRow writes ▸ member)
      rw [runAll_of_not_written (launchTask kernels) kept]
  · rintro i front back rfl p inside
    have first := mem_front_of_sublist respects.nodup
      (respects.waits (.k2a i) .k1 List.mem_cons_self)
    rw [carries.grid_behind_k1 runs respects.nodup.of_append_left first memory
      (kDmrsSymbols_lt i i.isLt) (by simp only [k1NofSubcarriers]; omega),
      packTbGrid_dmrs i.isLt inside]

/-- Kernels whose K1 runs its work-items one after the other. -/
def sequentialKernels (zero : F × F) (threads : List (List (K1Write F))) :
    LaunchKernels (F × F) where
  compute command memory buffer :=
    match command, buffer with
    | .k1, .reGrid => fun i =>
        (k1Run ⟨fun symbol sc => memory .reGrid (symbol * k1NofSubcarriers + sc), 0⟩
          threads.flatten).reGrid (i / k1NofSubcarriers) (i % k1NofSubcarriers)
    | _, _ => fun _ => zero
  local_ command one two same buffer written := by
    cases command with
    | k1 =>
        have grid := same .reGrid List.mem_cons_self
        cases buffer with
        | reGrid => exact congrArg (fun row : Nat → F × F => fun i =>
            (k1Run ⟨fun symbol sc => row (symbol * k1NofSubcarriers + sc), 0⟩
              threads.flatten).reGrid (i / k1NofSubcarriers) (i % k1NofSubcarriers)) grid
        | _ => rfl
    | k2a i | copy lin => rfl
    | k2b | k3 | k4 | k5 => rfl

private theorem rowEntry_div (symbol : Nat) {sc : Nat} (column : sc < k1NofSubcarriers) :
    (symbol * k1NofSubcarriers + sc) / k1NofSubcarriers = symbol := by
  rw [Nat.mul_comm, Nat.mul_add_div (by decide), Nat.div_eq_of_lt column, Nat.add_zero]

private theorem rowEntry_mod (symbol : Nat) {sc : Nat} (column : sc < k1NofSubcarriers) :
    (symbol * k1NofSubcarriers + sc) % k1NofSubcarriers = sc := by
  rw [Nat.mul_comm, Nat.mul_add_mod, Nat.mod_eq_of_lt column]

theorem runsK1_sequentialKernels (zero : F × F) (threads : List (List (K1Write F))) :
    RunsK1 (sequentialKernels zero threads) threads := by
  refine fun memory => ⟨0, _, Interleaves.sequential threads, fun symbol row sc column => ?_⟩
  simp only [sequentialKernels, rowEntry_div symbol column, rowEntry_mod symbol column]

/-- The descriptor of a symbol over the full band, its frames one behind the other. -/
def symbolFrameDesc (symbol : Nat) : OiFrameDesc where
  arenaOffset := UInt64.ofNat (symbol * 2448)
  frameLen := 2448
  slotId := 0
  symbolId := UInt8.ofNat symbol
  sectionId := 0
  filterIndex := 0
  flags := 0
  startPrb := 0
  nofPrbs := 51
  ethHdrLen := 0
  payloadByteOff := 0

/-- The grid of a ramp of data symbols, with pilots above them. -/
private def rampGrid : Nat × Nat → Nat := packTbGrid 0 id fun i p => 7000 + 306 * i + p

private theorem rampGrid_lt (entry : Nat × Nat) : rampGrid entry < 2 ^ 15 := by
  rw [rampGrid, packTbGrid, tableOf_apply]
  cases found : lastUnder Prod.fst entry (packStores id fun i p => 7000 + 306 * i + p) with
  | none => decide
  | some store =>
      have stored := List.mem_reverse.mp (List.mem_of_find?_eq_some found)
      rcases mem_packStores.mp stored with ⟨lin, row, sc, inside, rfl⟩ | ⟨i, row, p, inside, rfl⟩
      · change lin * k1NofSubcarriers + sc < 2 ^ 15
        rw [k1NofSubcarriers] at inside ⊢
        omega
      · change 7000 + 306 * i + p < 2 ^ 15
        omega

/-- The frames of that grid, one behind the other: two bytes of each sample are its level. -/
private def rampArena (i : Nat) : UInt8 :=
  let level := rampGrid (i / 4 / k1NofSubcarriers, i / 4 % k1NofSubcarriers)
  if i % 4 = 0 then UInt8.ofNat (level / 256)
  else if i % 4 = 1 then UInt8.ofNat level
  else 0

/-- A word of two bytes below the sign bit reads as itself. -/
private theorem bmod_word {level : Nat} (below : level < 2 ^ 15) :
    Int.bmod (((UInt8.ofNat (level / 256)).toNat <<< 8 ||| (UInt8.ofNat level).toNat) % 2 ^ 16 :
      Nat) (2 ^ 16) = level := by
  have high : (UInt8.ofNat (level / 256)).toNat = level / 256 := by
    rw [UInt8.toNat_ofNat', Nat.mod_eq_of_lt (by omega)]
  have low : (UInt8.ofNat level).toNat = level % 256 := UInt8.toNat_ofNat'
  have small : level % 256 < 2 ^ 8 := Nat.mod_lt _ (by decide)
  rw [high, low, ← Nat.shiftLeft_add_eq_or_of_lt small, Nat.shiftLeft_eq, Nat.div_add_mod',
    Nat.mod_eq_of_lt (by omega), Int.bmod_eq_of_le] <;> omega

private theorem rampArena_byte (symbol : Nat) {sc r : Nat} (column : sc < k1NofSubcarriers)
    (small : r < 4) : rampArena (symbol * 2448 + sc * wireBytesPerRe + r) =
      if r = 0 then UInt8.ofNat (rampGrid (symbol, sc) / 256)
      else if r = 1 then UInt8.ofNat (rampGrid (symbol, sc)) else 0 := by
  have sample : (symbol * 2448 + sc * wireBytesPerRe + r) / 4 = symbol * k1NofSubcarriers + sc := by
    rw [wireBytesPerRe, k1NofSubcarriers]
    omega
  have byte : (symbol * 2448 + sc * wireBytesPerRe + r) % 4 = r := by
    rw [wireBytesPerRe]
    omega
  simp only [rampArena, sample, byte, rowEntry_div symbol column, rowEntry_mod symbol column]

private theorem k1Sample_rampArena (symbol : Nat) {sc : Nat} (column : sc < k1NofSubcarriers) :
    k1Sample id rampArena (symbol * 2448) sc = ((rampGrid (symbol, sc) : Int), 0) := by
  have high := rampArena_byte symbol column (show 0 < 4 by decide)
  have low := rampArena_byte symbol column (show 1 < 4 by decide)
  have third := rampArena_byte symbol column (show 2 < 4 by decide)
  have fourth := rampArena_byte symbol column (show 3 < 4 by decide)
  rw [if_pos rfl, Nat.add_zero] at high
  rw [if_neg (by decide), if_pos rfl] at low
  rw [if_neg (by decide), if_neg (by decide)] at third fourth
  rw [k1Sample, k1ReadQ15, k1ReadQ15, Nat.add_assoc _ 2 1, high, low, third, fourth, id_eq, id_eq,
    bmod_word (rampGrid_lt _)]
  exact congrArg _ (by decide)

private theorem symbolFrameDesc_offset {gid : Nat} (less : gid < 14) :
    (symbolFrameDesc gid).arenaOffset.toNat = gid * 2448 :=
  UInt64.toNat_ofNat_of_lt (by rw [UInt64.size]; omega)

private theorem symbolFrameDesc_accepted : ∀ gid < k1NofSymbols,
    K1Accepts (symbolFrameDesc gid) 0 ∧ (symbolFrameDesc gid).symbolId.toNat = gid := by
  decide

private theorem carriesGrid_ramp :
    CarriesGrid id rampArena symbolFrameDesc 14 0 fun entry => ((rampGrid entry : Int), 0) := by
  constructor
  · intro gid less _ sc covers
    have start : sc - (symbolFrameDesc gid).startPrb.toNat * wireResPerPrb = sc := by
      simp [symbolFrameDesc]
    have payload : (symbolFrameDesc gid).payloadByteOff.toNat = 0 := rfl
    rw [k1Carried, symbolFrameDesc_offset less, (symbolFrameDesc_accepted gid less).2, payload,
      start, Nat.add_zero, k1Sample_rampArena gid covers.2.2]
  · intro symbol row sc column
    obtain ⟨accepts, same⟩ := symbolFrameDesc_accepted symbol row
    have covers : K1Covers (symbolFrameDesc symbol) sc := by
      refine ⟨?_, ?_, column⟩ <;> simp [symbolFrameDesc, wireResPerPrb]
      exact column
    exact ⟨symbol, row, accepts, same, covers⟩

/-- The data symbol and the pilot that K3 and K2a find for a ramp. -/
theorem compaction_inverts_transmit_map_ramp :
    let kernels := sequentialKernels (1, 1) (k1Threads id rampArena symbolFrameDesc 14 0)
    (∀ sc < k1NofSubcarriers, runAll (launchTask kernels) (launchCommands.take 16)
        (fun _ _ => (1, 1)) (.compactRow 10) sc = (((10 * k1NofSubcarriers + sc : Nat) : Int), 0)) ∧
      runAll (launchTask kernels) (launchCommands.take 3) (fun _ _ => (1, 1)) .reGrid
        (kDmrsSymbols.getD 2 0 * k1NofSubcarriers + 2 * 305) = (7917, 0) := by
  obtain ⟨data, pilots⟩ := @compaction_inverts_transmit_map _ _ 0 id (fun i p => 7000 + 306 * i + p)
    _ _ _ _ _ _ _ launchCommands_respects (fun level => ((level : Int), 0)) carriesGrid_ramp
    (runsK1_sequentialKernels (1, 1) _) fun _ _ => (1, 1)
  refine ⟨fun sc column => ?_, ?_⟩
  · exact (data (launchCommands.take 16) [.k4, .k5] (by decide) 10 sc column).trans
      (if_pos (by decide))
  · exact pilots 2 (launchCommands.take 3) (launchCommands.drop 4) (by decide) 305 (by decide)

end TransmitMap

end RanInline.Phy
