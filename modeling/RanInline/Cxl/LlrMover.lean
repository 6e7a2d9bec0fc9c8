/-
Module: RanInline.Cxl.LlrMover
Purpose: The v8 LLR mover: the uprobe handler of lddc_llr_mover.bpf.c, which fills a scratch slot
  and a descriptor and increments the head, and the poll loop of llr_consumer_v8.c, as two sides
  whose steps interleave in any order.
Trusted boundary: none
Main exports: LlrSpan, LlrDesc, LlrMoverState, LlrMoverAction, llrMoverNext, llrMoverSystem,
  Unhurried, TakesEveryBlock, mover_takes_every_block
-/
import RanInline.Cxl.FrontEnds
import RanInline.Lib.Progress
import RanInline.Lib.Wrap

namespace RanInline.Cxl

open RanInline.Lib

/-! ### The two sides -/

/-- `RING_CAP`. -/
def ringCap : Nat := 256

/-- The span of LLRs that `ldpc_decode` was called with; the pointer may be null. -/
structure LlrSpan where
  data : Option (Nat → Int8)
  size : UInt64

/-- The fields of `struct desc_t` that the consumer goes by. -/
structure LlrDesc where
  llrOffset : Nat
  llrLen : Nat
  seq : Nat
deriving DecidableEq, Repr

/-- The first bytes of a buffer. -/
def captured (data : Nat → Int8) (len : Nat) : List Int8 := (List.range len).map data

/-- Where the handler stands; the bytes that `bpf_probe_read_user` copies come in any order. -/
inductive HandlerPc where
  | idle
  | copying (seq : Nat) (data : Nat → Int8) (len : Nat) (written : List Nat)
  | described (data : Nat → Int8) (len : Nat)

/-- Where the poll loop stands, with the head it has read and the descriptor it has copied. -/
inductive PollPc where
  | polling
  | draining (head : Nat)
  | copying (head : Nat) (desc : LlrDesc) (got : List Nat)
deriving DecidableEq, Repr

/-- The three maps, the two sides, and the code blocks that were published and taken. -/
structure LlrMoverState where
  ringHead : Nat
  scratchMap : Nat → Nat → Int8
  ringMap : Nat → LlrDesc
  handler : HandlerPc
  consumer : PollPc
  lastHead : Nat
  lastTail : Nat
  scratchBuf : Nat → Int8
  published : List (List Int8)
  taken : List (List Int8)

/-- The steps of the two sides. -/
inductive LlrMoverAction where
  -- llr_mover
  | fire (span : LlrSpan)
  | copyByte (index : Nat)
  | probeFails (left : Nat → Int8)
  | writeDesc
  | publish
  -- the poll loop
  | pollHead
  | readDesc
  | readDescFails
  | copyScratch (index : Nat)
  | scratchFails
  | take
  | endDrain

/-- One step of `llr_mover`.  What a failed read leaves in the slot is not specified. -/
def handlerNext (state : LlrMoverState) : LlrMoverAction → HandlerPc → Option LlrMoverState
  | .fire span, .idle =>
      match span.data with
      | none => some state
      | some data =>
          if span.size = 0 then some state
          else
            let len := min span.size.toNat llrPerCb
            some { state with handler := .copying state.ringHead data len [] }
  | .copyByte index, .copying seq data len written =>
      if index < len ∧ index ∉ written then
        let slot := seq % ringCap
        some
          { state with
            scratchMap := Function.update state.scratchMap slot
              (Function.update (state.scratchMap slot) index (data index))
            handler := .copying seq data len (index :: written) }
      else none
  | .probeFails left, .copying seq _ _ _ =>
      some
        { state with
          scratchMap := Function.update state.scratchMap (seq % ringCap) left
          handler := .idle }
  | .writeDesc, .copying seq data len written =>
      if ∀ index < len, index ∈ written then
        let slot := seq % ringCap
        some
          { state with
            ringMap := Function.update state.ringMap slot
              { llrOffset := slot, llrLen := len, seq := seq }
            handler := .described data len }
      else none
  | .publish, .described data len =>
      some
        { state with
          ringHead := wrapAdd 32 state.ringHead 1
          handler := .idle
          published := state.published ++ [captured data len] }
  | _, _ => none

/-- One step of the poll loop.  Of a scratch slot only the bytes below `llr_len` are looked at
later, so only these are steps. -/
def pollNext (state : LlrMoverState) : LlrMoverAction → PollPc → Option LlrMoverState
  | .pollHead, .polling =>
      if state.ringHead = state.lastHead then some state
      else some { state with consumer := .draining state.ringHead }
  | .readDesc, .draining head =>
      if state.lastTail < head then
        let desc := state.ringMap (state.lastTail % ringCap)
        if desc.llrLen = 0 ∨ llrPerCb < desc.llrLen then
          some { state with lastTail := wrapAdd 32 state.lastTail 1 }
        else some { state with consumer := .copying head desc [] }
      else none
  | .readDescFails, .draining head =>
      if state.lastTail < head then
        some { state with lastTail := wrapAdd 32 state.lastTail 1 }
      else none
  | .copyScratch index, .copying head desc got =>
      if index < desc.llrLen ∧ index ∉ got then
        some
          { state with
            scratchBuf := Function.update state.scratchBuf index
              (state.scratchMap (desc.llrOffset % ringCap) index)
            consumer := .copying head desc (index :: got) }
      else none
  | .scratchFails, .copying head _ _ =>
      some
        { state with
          lastTail := wrapAdd 32 state.lastTail 1
          consumer := .draining head }
  | .take, .copying head desc got =>
      if ∀ index < desc.llrLen, index ∈ got then
        some
          { state with
            lastTail := wrapAdd 32 state.lastTail 1
            consumer := .draining head
            taken := state.taken ++ [captured state.scratchBuf desc.llrLen] }
      else none
  | .endDrain, .draining head =>
      if state.lastTail < head then none
      else some { state with lastHead := head, consumer := .polling }
  | _, _ => none

/-- The steps of the poll loop. -/
def LlrMoverAction.isPoll : LlrMoverAction → Bool
  | .pollHead | .readDesc | .readDescFails | .copyScratch _ | .scratchFails | .take
  | .endDrain => true
  | _ => false

/-- One step of either side; `none` when it is not enabled. -/
def llrMoverNext (state : LlrMoverState) (action : LlrMoverAction) : Option LlrMoverState :=
  if action.isPoll then pollNext state action state.consumer
  else handlerNext state action state.handler

/-- The zeroed maps, before the first fire. -/
def freshMover : LlrMoverState where
  ringHead := 0
  scratchMap := fun _ _ => 0
  ringMap := fun _ => { llrOffset := 0, llrLen := 0, seq := 0 }
  handler := .idle
  consumer := .polling
  lastHead := 0
  lastTail := 0
  scratchBuf := fun _ => 0
  published := []
  taken := []

/-- The mover under every interleaving. -/
def llrMoverSystem : TransitionSystem LlrMoverState LlrMoverAction :=
  .ofNext freshMover llrMoverNext

/-! ### The moves -/

/-- What a step can do in the runs that count here: the map lookups of the poll loop succeed. -/
inductive MoverMove (state : LlrMoverState) : LlrMoverAction → LlrMoverState → Prop where
  | noFire {span : LlrSpan} : MoverMove state (.fire span) state
  | fire {span : LlrSpan} {data : Nat → Int8} {len : Nat} (handler : state.handler = .idle)
      (some : 0 < len) (fits : len ≤ llrPerCb) :
      MoverMove state (.fire span)
        { state with handler := .copying state.ringHead data len [] }
  | copyByte {index seq len : Nat} {data : Nat → Int8} {written : List Nat}
      (handler : state.handler = .copying seq data len written) (inside : index < len) :
      MoverMove state (.copyByte index)
        { state with
          scratchMap := Function.update state.scratchMap (seq % ringCap)
            (Function.update (state.scratchMap (seq % ringCap)) index (data index))
          handler := .copying seq data len (index :: written) }
  | probeFails {seq len : Nat} {data left : Nat → Int8} {written : List Nat}
      (handler : state.handler = .copying seq data len written) :
      MoverMove state (.probeFails left)
        { state with
          scratchMap := Function.update state.scratchMap (seq % ringCap) left
          handler := .idle }
  | writeDesc {seq len : Nat} {data : Nat → Int8} {written : List Nat}
      (handler : state.handler = .copying seq data len written)
      (complete : ∀ index < len, index ∈ written) :
      MoverMove state .writeDesc
        { state with
          ringMap := Function.update state.ringMap (seq % ringCap)
            { llrOffset := seq % ringCap, llrLen := len, seq := seq }
          handler := .described data len }
  | publish {len : Nat} {data : Nat → Int8} (handler : state.handler = .described data len) :
      MoverMove state .publish
        { state with
          ringHead := wrapAdd 32 state.ringHead 1
          handler := .idle
          published := state.published ++ [captured data len] }
  | samePoll (consumer : state.consumer = .polling) (same : state.ringHead = state.lastHead) :
      MoverMove state .pollHead state
  | pollHead (consumer : state.consumer = .polling)
      (changed : state.ringHead ≠ state.lastHead) :
      MoverMove state .pollHead { state with consumer := .draining state.ringHead }
  | skipDesc {head : Nat} (consumer : state.consumer = .draining head)
      (more : state.lastTail < head)
      (invalid : (state.ringMap (state.lastTail % ringCap)).llrLen = 0 ∨
        llrPerCb < (state.ringMap (state.lastTail % ringCap)).llrLen) :
      MoverMove state .readDesc
        { state with lastTail := wrapAdd 32 state.lastTail 1, consumer := .draining head }
  | readDesc {head : Nat} (consumer : state.consumer = .draining head)
      (more : state.lastTail < head) :
      MoverMove state .readDesc
        { state with consumer := .copying head (state.ringMap (state.lastTail % ringCap)) [] }
  | copyScratch {index head : Nat} {desc : LlrDesc} {got : List Nat}
      (consumer : state.consumer = .copying head desc got) (inside : index < desc.llrLen)
      (fresh : index ∉ got) :
      MoverMove state (.copyScratch index)
        { state with
          scratchBuf := Function.update state.scratchBuf index
            (state.scratchMap (desc.llrOffset % ringCap) index)
          consumer := .copying head desc (index :: got) }
  | take {head : Nat} {desc : LlrDesc} {got : List Nat}
      (consumer : state.consumer = .copying head desc got)
      (complete : ∀ index < desc.llrLen, index ∈ got) :
      MoverMove state .take
        { state with
          lastTail := wrapAdd 32 state.lastTail 1
          consumer := .draining head
          taken := state.taken ++ [captured state.scratchBuf desc.llrLen] }
  | endDrain {head : Nat} (consumer : state.consumer = .draining head)
      (past : head ≤ state.lastTail) :
      MoverMove state .endDrain { state with lastHead := head, consumer := .polling }

/-- The condition: the handler writes into a slot only while fewer than 256 blocks wait in the
ring, fewer than 2^32 blocks are published, and no lookup of the poll loop fails. -/
def Unhurried (state : LlrMoverState) : LlrMoverAction → Prop
  | .copyByte _ | .probeFails _ | .writeDesc =>
      state.published.length < state.taken.length + ringCap
  | .publish => state.published.length + 1 < 2 ^ 32
  | .readDescFails | .scratchFails => False
  | _ => True

variable {state before after : LlrMoverState} {action : LlrMoverAction}

private theorem moverMove_of_handlerNext
    (step : handlerNext before action before.handler = some after) :
    MoverMove before action after := by
  cases action <;> cases handler : before.handler <;>
    simp only [handlerNext, handler, reduceCtorEq] at step
  case fire.idle span =>
    split at step
    · cases step
      exact .noFire
    · split at step
      · cases step
        exact .noFire
      · rename_i size
        cases step
        have some : 0 < span.size.toNat := by
          apply Nat.pos_of_ne_zero
          intro zero
          exact size (UInt64.toNat_inj.mp zero)
        exact .fire handler (Nat.lt_min.mpr ⟨some, by decide⟩) (Nat.min_le_right _ _)
  case copyByte.copying =>
    split at step
    · rename_i inside
      cases step
      exact .copyByte handler inside.1
    · cases step
  case probeFails.copying =>
    cases step
    exact .probeFails handler
  case writeDesc.copying =>
    split at step
    · rename_i complete
      cases step
      exact .writeDesc handler complete
    · cases step
  case publish.described =>
    cases step
    exact .publish handler

private theorem moverMove_of_pollNext (allowed : Unhurried before action)
    (step : pollNext before action before.consumer = some after) :
    MoverMove before action after := by
  cases action <;> cases consumer : before.consumer <;>
    simp only [pollNext, consumer, reduceCtorEq] at step
  case pollHead.polling =>
    split at step
    · rename_i same
      cases step
      exact .samePoll consumer same
    · rename_i changed
      cases step
      exact .pollHead consumer changed
  case readDesc.draining =>
    split at step
    · rename_i more
      split at step
      · rename_i invalid
        cases step
        exact .skipDesc consumer more invalid
      · cases step
        exact .readDesc consumer more
    · cases step
  case readDescFails.draining => exact absurd allowed id
  case copyScratch.copying =>
    split at step
    · rename_i inside
      cases step
      exact .copyScratch consumer inside.1 inside.2
    · cases step
  case scratchFails.copying => exact absurd allowed id
  case take.copying =>
    split at step
    · rename_i complete
      cases step
      exact .take consumer complete
    · cases step
  case endDrain.draining =>
    split at step
    · cases step
    · rename_i past
      cases step
      exact .endDrain consumer (Nat.le_of_not_lt past)

/-- Every enabled action that meets the condition is one of the moves. -/
theorem moverMove_of_step (allowed : Unhurried before action)
    (step : llrMoverNext before action = some after) : MoverMove before action after := by
  rw [llrMoverNext] at step
  split at step
  · exact moverMove_of_pollNext allowed step
  · exact moverMove_of_handlerNext step

/-! ### The invariant -/

theorem captured_getElem? (data : Nat → Int8) {len index : Nat} (inside : index < len) :
    (captured data len)[index]? = some (data index) := by
  simp [captured, inside]

theorem captured_length (data : Nat → Int8) (len : Nat) : (captured data len).length = len := by
  simp [captured]

/-- A buffer that agrees with a block byte by byte holds the block. -/
theorem captured_eq {data : Nat → Int8} {block : List Int8}
    (agrees : ∀ index < block.length, block[index]? = some (data index)) :
    captured data block.length = block := by
  apply List.ext_getElem?
  intro index
  rcases Nat.lt_or_ge index block.length with inside | outside
  · rw [captured_getElem? data inside, agrees index inside]
  · rw [List.getElem?_eq_none outside, List.getElem?_eq_none]
    rw [captured_length]
    exact outside

/-- The slot of a block holds its descriptor and its LLRs. -/
structure SlotHolds (ringMap : Nat → LlrDesc) (scratchMap : Nat → Nat → Int8) (index : Nat)
    (block : List Int8) : Prop where
  desc : ringMap (index % ringCap) =
    { llrOffset := index % ringCap, llrLen := block.length, seq := index }
  llrs : captured (scratchMap (index % ringCap)) block.length = block
  some : 0 < block.length
  fits : block.length ≤ llrPerCb

/-- What the handler knows between its steps. -/
def HandlerHolds (state : LlrMoverState) : Prop :=
  match state.handler with
  | .idle => True
  | .copying seq data len written =>
      seq = state.published.length ∧ 0 < len ∧ len ≤ llrPerCb ∧
        ∀ index ∈ written, state.scratchMap (state.published.length % ringCap) index = data index
  | .described data len =>
      state.published.length < state.taken.length + ringCap ∧
        SlotHolds state.ringMap state.scratchMap state.published.length (captured data len)

/-- What the poll loop knows between its steps. -/
def PollHolds (state : LlrMoverState) : Prop :=
  match state.consumer with
  | .polling => state.lastHead = state.taken.length
  | .draining head => state.taken.length ≤ head ∧ head ≤ state.published.length
  | .copying head desc got =>
      state.taken.length < head ∧ head ≤ state.published.length ∧ got.Nodup ∧
        (∀ index ∈ got, index < desc.llrLen) ∧
        ∃ block, state.published[state.taken.length]? = some block ∧
          desc = { llrOffset := state.taken.length % ringCap, llrLen := block.length,
                   seq := state.taken.length } ∧
          ∀ index ∈ got, block[index]? = some (state.scratchBuf index)

/-- The invariant of the unhurried runs. -/
structure MoverInvariant (state : LlrMoverState) : Prop where
  head_eq : state.ringHead = state.published.length
  few : state.published.length < 2 ^ 32
  tail_eq : state.lastTail = state.taken.length
  taken_published : state.taken <+: state.published
  bounded : state.published.length ≤ state.taken.length + ringCap
  window : ∀ index block, state.taken.length ≤ index → state.published[index]? = some block →
    SlotHolds state.ringMap state.scratchMap index block
  handlerHolds : HandlerHolds state
  pollHolds : PollHolds state

namespace MoverInvariant

/-- The slot the handler writes into holds no block that is still to be taken. -/
theorem slot_apart (room : before.published.length < before.taken.length + ringCap)
    {index : Nat} {block : List Int8} (unread : before.taken.length ≤ index)
    (found : before.published[index]? = some block) :
    index % ringCap ≠ before.published.length % ringCap := by
  have inside := (List.getElem?_eq_some_iff.mp found).1
  exact mod_ne_of_window inside (by omega)

/-- Such a write keeps the window. -/
theorem window_of_write (invariant : MoverInvariant before)
    (room : before.published.length < before.taken.length + ringCap)
    {scratchMap : Nat → Nat → Int8} {ringMap : Nat → LlrDesc} {handler : HandlerPc}
    (scratchSame : ∀ slot, slot ≠ before.published.length % ringCap →
      scratchMap slot = before.scratchMap slot)
    (ringSame : ∀ slot, slot ≠ before.published.length % ringCap →
      ringMap slot = before.ringMap slot)
    (handlerHolds : HandlerHolds
      { before with scratchMap := scratchMap, ringMap := ringMap, handler := handler }) :
    MoverInvariant
      { before with scratchMap := scratchMap, ringMap := ringMap, handler := handler } := by
  refine { invariant with window := ?_, handlerHolds := handlerHolds }
  intro index block unread found
  have apart := slot_apart room unread found
  obtain ⟨desc, llrs, some, fits⟩ := invariant.window index block unread found
  exact ⟨(ringSame _ apart).trans desc, (congrArg (captured · _) (scratchSame _ apart)).trans llrs,
    some, fits⟩

theorem fire (invariant : MoverInvariant before) (data : Nat → Int8) {len : Nat}
    (some : 0 < len) (fits : len ≤ llrPerCb) :
    MoverInvariant { before with handler := .copying before.ringHead data len [] } := by
  refine { invariant with handlerHolds := ⟨invariant.head_eq, some, fits, ?_⟩ }
  simp

theorem copyByte (invariant : MoverInvariant before) {index seq len : Nat} {data : Nat → Int8}
    {written : List Nat} (room : before.published.length < before.taken.length + ringCap)
    (handler : before.handler = .copying seq data len written) :
    MoverInvariant
      { before with
        scratchMap := Function.update before.scratchMap (seq % ringCap)
          (Function.update (before.scratchMap (seq % ringCap)) index (data index))
        handler := .copying seq data len (index :: written) } := by
  have handlerHolds := invariant.handlerHolds
  simp only [HandlerHolds, handler] at handlerHolds
  obtain ⟨rfl, some, fits, copied⟩ := handlerHolds
  apply invariant.window_of_write room
  · intro slot apart
    exact Function.update_of_ne apart _ _
  · intro slot _
    rfl
  · refine ⟨rfl, some, fits, ?_⟩
    intro other member
    simp only [Function.update_self]
    by_cases same : other = index
    · rw [same, Function.update_self]
    · rw [Function.update_of_ne same]
      exact copied other ((List.mem_cons.mp member).resolve_left same)

theorem probeFails (invariant : MoverInvariant before) {seq len : Nat} {data : Nat → Int8}
    {written : List Nat} (left : Nat → Int8)
    (room : before.published.length < before.taken.length + ringCap)
    (handler : before.handler = .copying seq data len written) :
    MoverInvariant
      { before with
        scratchMap := Function.update before.scratchMap (seq % ringCap) left
        handler := .idle } := by
  have handlerHolds := invariant.handlerHolds
  simp only [HandlerHolds, handler] at handlerHolds
  obtain ⟨rfl, _⟩ := handlerHolds
  apply invariant.window_of_write room
  · intro slot apart
    exact Function.update_of_ne apart _ _
  · intro slot _
    rfl
  · trivial

theorem writeDesc (invariant : MoverInvariant before) {seq len : Nat} {data : Nat → Int8}
    {written : List Nat} (room : before.published.length < before.taken.length + ringCap)
    (handler : before.handler = .copying seq data len written)
    (complete : ∀ index < len, index ∈ written) :
    MoverInvariant
      { before with
        ringMap := Function.update before.ringMap (seq % ringCap)
          { llrOffset := seq % ringCap, llrLen := len, seq := seq }
        handler := .described data len } := by
  have handlerHolds := invariant.handlerHolds
  simp only [HandlerHolds, handler] at handlerHolds
  obtain ⟨rfl, some, fits, copied⟩ := handlerHolds
  have length := captured_length data len
  apply invariant.window_of_write room
  · intro slot _
    rfl
  · intro slot apart
    exact Function.update_of_ne apart _ _
  · refine ⟨room, ?_, ?_, ?_, ?_⟩
    · simp only [Function.update_self, length]
    · apply captured_eq
      intro index inside
      rw [length] at inside
      rw [captured_getElem? data inside, copied index (complete index inside)]
    · rw [length]
      exact some
    · rw [length]
      exact fits

theorem publish (invariant : MoverInvariant before) {len : Nat} {data : Nat → Int8}
    (few : before.published.length + 1 < 2 ^ 32)
    (handler : before.handler = .described data len) :
    MoverInvariant
      { before with
        ringHead := wrapAdd 32 before.ringHead 1
        handler := .idle
        published := before.published ++ [captured data len] } := by
  have handlerHolds := invariant.handlerHolds
  have pollHolds := invariant.pollHolds
  simp only [HandlerHolds, handler] at handlerHolds
  obtain ⟨room, holds⟩ := handlerHolds
  constructor
  case handlerHolds => trivial
  case tail_eq => exact invariant.tail_eq
  case head_eq =>
    simp only [invariant.head_eq, List.length_append, List.length_singleton]
    exact wrapAdd_eq few
  case few =>
    simp only [List.length_append, List.length_singleton]
    exact few
  case taken_published => exact invariant.taken_published.trans (List.prefix_append _ _)
  case bounded =>
    simp only [List.length_append, List.length_singleton]
    exact room
  case window =>
    intro index block unread found
    simp only [List.getElem?_append] at found
    split at found
    · exact invariant.window index block unread found
    · rename_i beyond
      have bound := (List.getElem?_eq_some_iff.mp found).1
      rw [List.length_singleton] at bound
      have last : index = before.published.length := by omega
      subst last
      rw [Nat.sub_self, List.getElem?_cons_zero, Option.some.injEq] at found
      exact found ▸ holds
  case pollHolds =>
    simp only [PollHolds, List.length_append, List.length_singleton] at pollHolds ⊢
    split <;> rename_i standing <;> simp only [standing] at pollHolds
    · exact pollHolds
    · exact ⟨pollHolds.1, Nat.le_succ_of_le pollHolds.2⟩
    · obtain ⟨more, below, nodup, inside, block, found, desc, got⟩ := pollHolds
      refine ⟨more, Nat.le_succ_of_le below, nodup, inside, block, ?_, desc, got⟩
      rw [List.getElem?_append_left (Nat.lt_of_lt_of_le more below)]
      exact found

/-- The block the poll loop is about to read. -/
theorem next_block (invariant : MoverInvariant before) {head : Nat}
    (consumer : before.consumer = .draining head) (more : before.lastTail < head) :
    before.taken.length < head ∧ head ≤ before.published.length ∧
      ∃ block, before.published[before.taken.length]? = some block ∧
        SlotHolds before.ringMap before.scratchMap before.taken.length block := by
  have pollHolds := invariant.pollHolds
  simp only [PollHolds, consumer] at pollHolds
  rw [invariant.tail_eq] at more
  have inside : before.taken.length < before.published.length :=
    Nat.lt_of_lt_of_le more pollHolds.2
  have found := List.getElem?_eq_getElem inside
  exact ⟨more, pollHolds.2, _, found, invariant.window _ _ (Nat.le_refl _) found⟩

/-- No descriptor of the window is skipped. -/
theorem desc_valid (invariant : MoverInvariant before) {head : Nat}
    (consumer : before.consumer = .draining head) (more : before.lastTail < head) :
    ¬ ((before.ringMap (before.lastTail % ringCap)).llrLen = 0 ∨
      llrPerCb < (before.ringMap (before.lastTail % ringCap)).llrLen) := by
  obtain ⟨_, _, block, _, holds⟩ := invariant.next_block consumer more
  have some := holds.some
  have fits := holds.fits
  rw [invariant.tail_eq, holds.desc]
  simp only
  omega

theorem readDesc (invariant : MoverInvariant before) {head : Nat}
    (consumer : before.consumer = .draining head) (more : before.lastTail < head) :
    MoverInvariant
      { before with
        consumer := .copying head (before.ringMap (before.lastTail % ringCap)) [] } := by
  obtain ⟨below, bound, block, found, holds⟩ := invariant.next_block consumer more
  refine { invariant with
    pollHolds := ⟨below, bound, List.nodup_nil, ?_, block, found, ?_, ?_⟩ }
  · simp
  · rw [invariant.tail_eq]
    exact holds.desc
  · simp

theorem copyScratch (invariant : MoverInvariant before) {index head : Nat} {desc : LlrDesc}
    {got : List Nat} (consumer : before.consumer = .copying head desc got)
    (inside : index < desc.llrLen) (fresh : index ∉ got) :
    MoverInvariant
      { before with
        scratchBuf := Function.update before.scratchBuf index
          (before.scratchMap (desc.llrOffset % ringCap) index)
        consumer := .copying head desc (index :: got) } := by
  have pollHolds := invariant.pollHolds
  simp only [PollHolds, consumer] at pollHolds
  obtain ⟨below, bound, nodup, gotInside, block, found, rfl, agrees⟩ := pollHolds
  have holds := invariant.window _ block (Nat.le_refl _) found
  refine { invariant with
    pollHolds := ⟨below, bound, List.nodup_cons.mpr ⟨fresh, nodup⟩, ?_, block, found, rfl, ?_⟩ }
  · intro other member
    rcases List.mem_cons.mp member with rfl | old
    · exact inside
    · exact gotInside other old
  · intro other member
    show block[other]? = some (Function.update before.scratchBuf index _ other)
    by_cases same : other = index
    · subst same
      rw [Function.update_self, Nat.mod_mod]
      exact (congrArg (·[other]?) holds.llrs.symm).trans (captured_getElem? _ inside)
    · rw [Function.update_of_ne same]
      exact agrees other ((List.mem_cons.mp member).resolve_left same)

theorem take (invariant : MoverInvariant before) {head : Nat} {desc : LlrDesc} {got : List Nat}
    (consumer : before.consumer = .copying head desc got)
    (complete : ∀ index < desc.llrLen, index ∈ got) :
    MoverInvariant
      { before with
        lastTail := wrapAdd 32 before.lastTail 1
        consumer := .draining head
        taken := before.taken ++ [captured before.scratchBuf desc.llrLen] } := by
  have handlerHolds := invariant.handlerHolds
  have pollHolds := invariant.pollHolds
  have few := invariant.few
  simp only [PollHolds, consumer] at pollHolds
  obtain ⟨below, bound, nodup, gotInside, block, found, rfl, agrees⟩ := pollHolds
  have whole : captured before.scratchBuf block.length = block :=
    captured_eq fun index inside => agrees index (complete index inside)
  simp only [whole]
  constructor
  case head_eq => exact invariant.head_eq
  case few => exact invariant.few
  case tail_eq =>
    simp only [invariant.tail_eq, List.length_append, List.length_singleton]
    exact wrapAdd_eq (by omega)
  case taken_published =>
    obtain ⟨rest, split⟩ := invariant.taken_published
    rw [← split, List.getElem?_append_right (Nat.le_refl _), Nat.sub_self] at found
    cases rest with
    | nil => cases found
    | cons next rest =>
        cases found
        exact ⟨rest, by rw [← split, List.append_assoc, List.singleton_append]⟩
  case bounded =>
    have bounded := invariant.bounded
    simp only [List.length_append, List.length_singleton]
    omega
  case window =>
    intro index other unread present
    simp only [List.length_append, List.length_singleton] at unread
    exact invariant.window index other (by omega) present
  case handlerHolds =>
    simp only [HandlerHolds, List.length_append, List.length_singleton] at handlerHolds ⊢
    split <;> rename_i standing <;> simp only [standing] at handlerHolds
    · trivial
    · exact handlerHolds
    · exact ⟨by omega, handlerHolds.2⟩
  case pollHolds =>
    simp only [PollHolds, List.length_append, List.length_singleton]
    exact ⟨below, bound⟩

theorem endDrain (invariant : MoverInvariant before) {head : Nat}
    (consumer : before.consumer = .draining head) (past : head ≤ before.lastTail) :
    MoverInvariant { before with lastHead := head, consumer := .polling } := by
  have pollHolds := invariant.pollHolds
  have tail_eq := invariant.tail_eq
  simp only [PollHolds, consumer] at pollHolds
  refine { invariant with pollHolds := ?_ }
  show head = before.taken.length
  omega

/-- Every move of an unhurried run keeps the invariant. -/
theorem move (invariant : MoverInvariant before) (allowed : Unhurried before action)
    (move : MoverMove before action after) : MoverInvariant after := by
  cases move with
  | noFire | samePoll => exact invariant
  | fire _ some fits => exact invariant.fire _ some fits
  | copyByte handler => exact invariant.copyByte allowed handler
  | probeFails handler => exact invariant.probeFails _ allowed handler
  | writeDesc handler complete => exact invariant.writeDesc allowed handler complete
  | publish handler => exact invariant.publish allowed handler
  | pollHead =>
      refine { invariant with pollHolds := ⟨?_, Nat.le_of_eq invariant.head_eq⟩ }
      show before.taken.length ≤ before.ringHead
      rw [invariant.head_eq]
      exact invariant.taken_published.length_le
  | skipDesc consumer more invalid => exact absurd invalid (invariant.desc_valid consumer more)
  | readDesc consumer more => exact invariant.readDesc consumer more
  | copyScratch consumer inside fresh => exact invariant.copyScratch consumer inside fresh
  | take consumer complete => exact invariant.take consumer complete
  | endDrain consumer past => exact invariant.endDrain consumer past

end MoverInvariant

theorem moverInvariant_of_reaches (run : llrMoverSystem.Reaches Unhurried state) :
    MoverInvariant state := by
  apply run.invariant
  · rintro state rfl
    constructor
    case handlerHolds => trivial
    all_goals simp [freshMover, PollHolds]
  · intro before action after invariant allowed step
    exact invariant.move allowed (moverMove_of_step allowed step)

/-! ### The poll loop gets on -/

/-- How many steps the poll loop has made that were no fruitless polls, at least. -/
def LlrMoverState.pollProgress (state : LlrMoverState) : Nat :=
  (llrPerCb + 4) * state.taken.length +
    match state.consumer with
    | .polling => 1
    | .draining head => if state.lastTail < head then 2 else 0
    | .copying _ _ got => 3 + got.length

namespace MoverInvariant

/-- The bytes copied of one block are at most its length. -/
theorem pollProgress_lt (invariant : MoverInvariant state) :
    state.pollProgress < (llrPerCb + 4) * (state.taken.length + 1) := by
  have pollHolds := invariant.pollHolds
  rw [LlrMoverState.pollProgress, Nat.mul_succ]
  apply Nat.add_lt_add_left
  cases consumer : state.consumer with
  | polling => simp [llrPerCb]
  | draining head =>
      simp only [llrPerCb]
      split <;> omega
  | copying head desc got =>
      simp only [PollHolds, consumer] at pollHolds
      obtain ⟨_, _, nodup, inside, block, found, rfl, _⟩ := pollHolds
      have holds := invariant.window _ block (Nat.le_refl _) found
      have fits := holds.fits
      have short : got.length ≤ block.length := by
        have subset : got ⊆ List.range block.length := fun index member =>
          List.mem_range.mpr (inside index member)
        simpa using (nodup.subperm subset).length_le
      simp only
      omega

/-- No move sets the poll loop back, and its own moves get it on while a block is untaken. -/
theorem pollProgress_move (invariant : MoverInvariant before) (allowed : Unhurried before action)
    (move : MoverMove before action after) :
    before.pollProgress ≤ after.pollProgress ∧
      (action.isPoll = true → before.taken.length < before.published.length →
        before.pollProgress < after.pollProgress) := by
  have pollHolds := invariant.pollHolds
  have head_eq := invariant.head_eq
  have tail_eq := invariant.tail_eq
  have ordered := invariant.taken_published.length_le
  have limit := invariant.pollProgress_lt
  cases move with
  | noFire | fire | copyByte | probeFails | writeDesc | publish =>
      exact ⟨Nat.le_refl _, Bool.noConfusion⟩
  | samePoll consumer same =>
      simp only [PollHolds, consumer] at pollHolds
      exact ⟨Nat.le_refl _, fun _ untaken => by omega⟩
  | pollHead consumer changed =>
      simp only [PollHolds, consumer] at pollHolds
      have behind : before.lastTail < before.ringHead := by omega
      simp only [LlrMoverState.pollProgress, consumer, if_pos behind]
      omega
  | skipDesc consumer more invalid => exact absurd invalid (invariant.desc_valid consumer more)
  | readDesc consumer more =>
      simp only [LlrMoverState.pollProgress, consumer, if_pos more]
      omega
  | copyScratch consumer =>
      simp only [LlrMoverState.pollProgress, consumer, List.length_cons]
      omega
  | take consumer =>
      have further : before.pollProgress < (llrPerCb + 4) * (before.taken.length + 1) := limit
      simp only [LlrMoverState.pollProgress, List.length_append, List.length_singleton] at further ⊢
      omega
  | endDrain consumer past =>
      simp only [LlrMoverState.pollProgress, consumer, if_neg (Nat.not_lt.mpr past)]
      omega

end MoverInvariant

/-! ### Every block -/

/-- Every published block is taken exactly once, in order and with the LLRs its own fire captured:
what is taken is a prefix of what is published, and every published block is taken in the end. -/
def TakesEveryBlock (run : llrMoverSystem.InfiniteRun) : Prop :=
  (∀ n, (run.state n).taken <+: (run.state n).published) ∧
    ∀ (n k : Nat) (block : List Int8), (run.state n).published[k]? = some block →
      ∃ m, n ≤ m ∧ (run.state m).taken[k]? = some block

/-- The poll loop keeps taking steps. -/
def FairPolling (run : llrMoverSystem.InfiniteRun) : Prop :=
  ∀ n, ∃ m, n ≤ m ∧ (run.action m).isPoll = true

/-- Array maps have every slot, so the lookups of the poll loop succeed. -/
def LookupsSucceed (run : llrMoverSystem.InfiniteRun) : Prop :=
  ∀ n, run.action n ≠ .readDescFails ∧ run.action n ≠ .scratchFails

/-- Nothing published is taken back. -/
theorem published_mono (step : llrMoverNext before action = some after) :
    before.published <+: after.published := by
  rw [llrMoverNext] at step
  split at step
  · cases action <;> cases consumer : before.consumer <;>
      simp only [pollNext, consumer, reduceCtorEq] at step
    all_goals
      repeat' split at step
    all_goals
      cases step
    all_goals exact List.prefix_refl _
  · cases action <;> cases handler : before.handler <;>
      simp only [handlerNext, handler, reduceCtorEq] at step
    all_goals
      repeat' split at step
    all_goals
      cases step
    all_goals
      first
      | exact List.prefix_refl _
      | exact List.prefix_append _ _

theorem published_from (run : llrMoverSystem.InfiniteRun) {n m : Nat} (later : n ≤ m) :
    (run.state n).published <+: (run.state m).published := by
  apply run.always_from (fun state => (run.state n).published <+: state.published) _
    (List.prefix_refl _) later
  intro m _ grown
  exact grown.trans (published_mono (run.step m))

/-- In every unhurried run every published block is taken exactly once, in order, with the bytes
and the length that its own fire captured. -/
theorem mover_takes_every_block (run : llrMoverSystem.InfiniteRun) (fair : FairPolling run)
    (unhurried : ∀ n, Unhurried (run.state n) (run.action n)) : TakesEveryBlock run := by
  have invariantAt : ∀ n, MoverInvariant (run.state n) := fun n =>
    moverInvariant_of_reaches (run.reaches unhurried n)
  have moveAt : ∀ n, MoverMove (run.state n) (run.action n) (run.state (n + 1)) := fun n =>
    moverMove_of_step (unhurried n) (run.step n)
  refine ⟨fun n => (invariantAt n).taken_published, ?_⟩
  intro n k block found
  have inside := (List.getElem?_eq_some_iff.mp found).1
  have reached : ∃ m, n ≤ m ∧ k < (run.state m).taken.length := by
    apply run.eventually_of_rank (fun state => k < state.taken.length)
      (fun _ action => action.isPoll = true)
      (fun state => (llrPerCb + 4) * (k + 1) - state.pollProgress)
    · intro m later _
      obtain ⟨forward, _⟩ := (invariantAt m).pollProgress_move (unhurried m) (moveAt m)
      right
      omega
    · intro m later notYet polls
      obtain ⟨_, onward⟩ := (invariantAt m).pollProgress_move (unhurried m) (moveAt m)
      have still := (published_from run later).length_le
      have gained := onward polls (by omega)
      have limit := (invariantAt m).pollProgress_lt
      have below : (llrPerCb + 4) * ((run.state m).taken.length + 1) ≤ (llrPerCb + 4) * (k + 1) :=
        Nat.mul_le_mul_left _ (by omega)
      right
      omega
    · intro m later
      obtain ⟨step, after, polls⟩ := fair m
      exact ⟨step, after, .inr polls⟩
  obtain ⟨m, later, taken⟩ := reached
  obtain ⟨rest, split⟩ := (invariantAt m).taken_published
  obtain ⟨more, grown⟩ := published_from run later
  refine ⟨m, later, ?_⟩
  rw [← List.getElem?_append_left taken, split, ← grown, List.getElem?_append_left inside]
  exact found

/-- One fire on a single LLR. -/
private def fireOne (llr : Int8) : List LlrMoverAction :=
  [.fire { data := some fun _ => llr, size := 1 }, .copyByte 0, .writeDesc, .publish]

/-- The poll loop takes one block of a single LLR. -/
private def takeOne : List LlrMoverAction := [.readDesc, .copyScratch 0, .take]

/-- A run that ends in fruitless polls is fair. -/
private theorem fair_of_polls {run : llrMoverSystem.InfiniteRun} {last : LlrMoverState}
    {length : Nat} (polls : ∀ n, length ≤ n → run.state n = last ∧ run.action n = .pollHead) :
    FairPolling run := by
  intro n
  refine ⟨max n length, Nat.le_max_left _ _, ?_⟩
  rw [(polls _ (Nat.le_max_right n length)).2]
  rfl

private def oneBlock : List LlrMoverAction :=
  fireOne 5 ++ LlrMoverAction.pollHead :: takeOne ++ [LlrMoverAction.endDrain]

theorem mover_takes_one_block :
    ∃ run : llrMoverSystem.InfiniteRun,
      (∃ n, (run.state n).published = [[5]]) ∧ TakesEveryBlock run := by
  obtain ⟨last, executed, stays, published⟩ :
      ∃ last, TransitionSystem.execute llrMoverNext freshMover oneBlock = some last ∧
        llrMoverNext last .pollHead = some last ∧ last.published = [[5]] :=
    ⟨_, rfl, rfl, rfl⟩
  obtain ⟨run, polls, actions⟩ := TransitionSystem.InfiniteRun.exists_follow llrMoverSystem
    (fun _ _ _ step => step) rfl executed stays
  have short : ∀ n, (run.state n).published.length ≤ 1 := by
    intro n
    have grown := (published_from run (Nat.le_max_left n oneBlock.length)).length_le
    rw [(polls _ (Nat.le_max_right n oneBlock.length)).1, published] at grown
    exact grown
  have unhurried : ∀ n, ∀ action ∈ oneBlock, Unhurried (run.state n) action := by
    intro n
    have few := short n
    simp only [oneBlock, fireOne, takeOne, List.cons_append, List.nil_append, List.forall_mem_cons,
      Unhurried, ringCap]
    refine ⟨trivial, by omega, by omega, by omega, trivial, trivial, trivial, trivial, trivial, ?_⟩
    simp
  refine ⟨run, ⟨oneBlock.length, ?_⟩, ?_⟩
  · rw [(polls _ (Nat.le_refl _)).1, published]
  · apply mover_takes_every_block run (fair_of_polls polls)
    intro n
    rcases actions n with inside | same
    · exact unhurried n _ inside
    · rw [same]
      trivial

private def latePoll : List LlrMoverAction :=
  ((List.range 257).flatMap fun fire => fireOne (if fire = 256 then 1 else 0)) ++
    LlrMoverAction.pollHead :: ((List.range 257).flatMap fun _ => takeOne) ++
    [LlrMoverAction.endDrain]

/-- With 257 fires ahead of the poll loop, the first block it takes is the last one published. -/
theorem late_poll_takes_overwritten_block :
    ¬ ∀ run : llrMoverSystem.InfiniteRun, FairPolling run → LookupsSucceed run →
        TakesEveryBlock run := by
  intro claim
  have final : (TransitionSystem.execute llrMoverNext freshMover latePoll).map
      (fun state => (decide (state.consumer = .polling ∧ state.ringHead = state.lastHead),
        state.taken[0]?, state.published[0]?)) = some (true, some [1], some [0]) := by
    decide +kernel
  obtain ⟨last, executed, facts⟩ := Option.map_eq_some_iff.mp final
  simp only [Prod.mk.injEq, decide_eq_true_eq] at facts
  obtain ⟨⟨consumer, same⟩, taken, published⟩ := facts
  have stays : llrMoverNext last .pollHead = some last := by
    simp [llrMoverNext, LlrMoverAction.isPoll, pollNext, consumer, same]
  obtain ⟨run, polls, actions⟩ := TransitionSystem.InfiniteRun.exists_follow llrMoverSystem
    (fun _ _ _ step => step) rfl executed stays
  have succeed : LookupsSucceed run := by
    intro n
    rcases actions n with inside | repeated
    · simp only [latePoll, fireOne, takeOne, List.mem_append, List.mem_cons, List.mem_flatMap,
        List.not_mem_nil, or_false] at inside
      constructor <;> rintro failed <;> rw [failed] at inside <;> simp at inside
    · simp [repeated]
  obtain ⟨ordered, _⟩ := claim run (fair_of_polls polls) succeed
  have mismatch := ordered latePoll.length
  rw [(polls _ (Nat.le_refl _)).1] at mismatch
  obtain ⟨rest, split⟩ := mismatch
  have inside := (List.getElem?_eq_some_iff.mp taken).1
  rw [← split, List.getElem?_append_left inside, taken] at published
  exact absurd published (by decide)

end RanInline.Cxl
