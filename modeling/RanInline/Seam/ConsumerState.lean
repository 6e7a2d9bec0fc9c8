/-
Module: RanInline.Seam.ConsumerState
Purpose: The sidecar file in which oi_seam_release leaves epoch and tail: persist_consumer_state
  step by step, with kills and failing file operations, and oi_seam_read_consumer_state.
Trusted boundary: none
Main exports: consumerStateLine, readConsumerState, persistConsumerState, runReleases,
  consumer_state_after_kills
-/
import Mathlib.Algebra.Group.Nat.Defs
import Mathlib.Data.List.Induction
import Mathlib.Data.List.TakeDrop
import Mathlib.Data.List.TakeWhile
import Mathlib.Data.Nat.Basic

namespace RanInline.Seam

/-! ### The text -/

/-- The format up to the epoch. -/
def stateOpening : List Char := "\x7b\"schema\":\"oi-p4-consumer-state/1\",\"epoch\":".toList

/-- The format between epoch and tail. -/
def stateMiddle : List Char := ",\"tail\":".toList

/-- The line that `fprintf` formats. -/
def consumerStateLine (epoch : UInt32) (tail : UInt64) : List Char :=
  stateOpening ++ Nat.toDigits 10 epoch.toNat ++ stateMiddle ++ Nat.toDigits 10 tail.toNat ++
    "\x7d\n".toList

/-- A literal part of a `fscanf` format; the format here has no white space. -/
def scanLiteral : List Char → List Char → Option (List Char)
  | [], input => some input
  | c :: cs, d :: input => if c = d then scanLiteral cs input else none
  | _ :: _, [] => none

/-- `isspace`. -/
def isSpace (c : Char) : Bool := c == ' ' || (9 ≤ c.toNat && c.toNat ≤ 13)

/-- `%u` and `%llu`: white space, a sign, digits; the value as `strtoull` gives it. -/
def scanUnsigned (bits : Nat) (input : List Char) : Option (Nat × List Char) :=
  let input := input.dropWhile isSpace
  let negative := input.head? == some '-'
  let input := if negative || input.head? == some '+' then input.tail else input
  let digits := input.takeWhile Char.isDigit
  if digits = [] then none
  else
    let value := min (Nat.ofDigitChars 10 digits 0) (2 ^ 64 - 1)
    let value := if negative then 2 ^ 64 - value else value
    some (value % 2 ^ bits, input.dropWhile Char.isDigit)

/-- `oi_seam_read_consumer_state`: what it returns, the epoch and the tail.  The `fscanf` counts
two conversions whatever is behind the tail. -/
def readConsumerState (file : Option (List Char)) : Bool × UInt32 × UInt64 :=
  let scanned : Option (Nat × Nat) := do
    let input ← file
    let input ← scanLiteral stateOpening input
    let (epoch, input) ← scanUnsigned 32 input
    let input ← scanLiteral stateMiddle input
    let (tail, _) ← scanUnsigned 64 input
    pure (epoch, tail)
  match scanned with
  | none => (false, 0, 0)
  | some (epoch, tail) => (true, UInt32.ofNat epoch, UInt64.ofNat tail)

/-! ### The files -/

/-- `consumer_state_path`, and the same with `.tmp` behind it. -/
structure StateFiles where
  target : Option (List Char)
  tmp : Option (List Char)
deriving DecidableEq, Repr

/-- What the file system makes of one call: whether the file opens, how much of the line reaches it
before the disk is full, and whether the rename succeeds. -/
structure FileOutcome where
  opened : Bool
  written : Nat
  renamed : Bool
deriving DecidableEq, Repr

/-- The operations of `persist_consumer_state`; `fprintf` and `fclose` are not checked. -/
def persistSteps (outcome : FileOutcome) (line : List Char) : List (StateFiles → StateFiles) :=
  if outcome.opened = false then []
  else
    [fun files => { files with tmp := some [] },
      fun files => { files with tmp := some (line.take outcome.written) },
      fun files => if outcome.renamed = true then ⟨files.tmp, none⟩ else files]

/-- `persist_consumer_state` in a process that is killed behind that many operations. -/
def persistConsumerState (outcome : FileOutcome) (killedAfter : Nat) (epoch : UInt32)
    (tail : UInt64) (files : StateFiles) : StateFiles :=
  ((persistSteps outcome (consumerStateLine epoch tail)).take killedAfter).foldl
    (fun files step => step files) files

/-- A call of `oi_seam_release` seen from the file: epoch and new tail of the ring, and how the call
ended.  The consumer is started again behind a kill. -/
structure Release where
  epoch : UInt32
  newTail : UInt64
  outcome : FileOutcome
  killedAfter : Nat
deriving DecidableEq, Repr

/-- A sequence of releases. -/
def runReleases (files : StateFiles) (releases : List Release) : StateFiles :=
  releases.foldl (fun files release =>
    persistConsumerState release.outcome release.killedAfter release.epoch release.newTail files)
    files

/-- The rename was reached and succeeded. -/
def Release.completed (release : Release) : Bool :=
  release.outcome.opened && release.outcome.renamed && decide (3 ≤ release.killedAfter)

/-! ### Reading the line -/

theorem scanLiteral_append (literal rest : List Char) :
    scanLiteral literal (literal ++ rest) = some rest := by
  induction literal with
  | nil => rfl
  | cons c literal inductionHypothesis =>
      rw [List.cons_append, scanLiteral, if_pos rfl, inductionHypothesis]

/-- A literal that is cut off does not match. -/
theorem scanLiteral_take {literal : List Char} {n : Nat} (short : n < literal.length) :
    scanLiteral literal (literal.take n) = none := by
  induction literal generalizing n with
  | nil => exact absurd short (Nat.not_lt_zero n)
  | cons c literal inductionHypothesis =>
      cases n with
      | zero => rfl
      | succ n =>
          rw [List.take_succ_cons, scanLiteral, if_pos rfl]
          exact inductionHypothesis (Nat.lt_of_succ_lt_succ short)

theorem not_isSpace_of_isDigit {c : Char} (digit : c.isDigit = true) : isSpace c = false := by
  have bounds : 48 ≤ c.toNat := by
    rw [Char.isDigit, Bool.and_eq_true, decide_eq_true_eq] at digit
    exact digit.1
  have blank : c ≠ ' ' := by
    rintro rfl
    exact absurd bounds (by decide)
  rw [isSpace, Bool.or_eq_false_iff, Bool.and_eq_false_iff]
  refine ⟨beq_false_of_ne blank, Or.inr ?_⟩
  rw [decide_eq_false_iff_not]
  omega

/-- A conversion in front of which no digit stands. -/
theorem scanUnsigned_nil (bits : Nat) : scanUnsigned bits [] = none := rfl

/-- Digits in front of something else, or of the end. -/
theorem scanUnsigned_digits {bits : Nat} (fits : bits ≤ 64) {digits : List Char} (rest : List Char)
    (nonempty : digits ≠ []) (all : ∀ c ∈ digits, c.isDigit = true)
    (behind : rest.takeWhile Char.isDigit = []) (small : Nat.ofDigitChars 10 digits 0 < 2 ^ bits) :
    scanUnsigned bits (digits ++ rest) = some (Nat.ofDigitChars 10 digits 0, rest) := by
  obtain ⟨c, others, rfl⟩ := List.exists_cons_of_ne_nil nonempty
  have digit : c.isDigit = true := all c List.mem_cons_self
  have noBlank : (c :: others ++ rest).dropWhile isSpace = c :: others ++ rest := by
    rw [List.cons_append, List.dropWhile_cons_of_neg]
    rw [not_isSpace_of_isDigit digit]
    decide
  have noMinus : ((c :: others ++ rest).head? == some '-') = false := by
    refine beq_false_of_ne fun same => ?_
    obtain rfl : c = '-' := Option.some.inj same
    exact absurd digit (by decide)
  have noPlus : ((c :: others ++ rest).head? == some '+') = false := by
    refine beq_false_of_ne fun same => ?_
    obtain rfl : c = '+' := Option.some.inj same
    exact absurd digit (by decide)
  have front : (c :: others ++ rest).takeWhile Char.isDigit = c :: others := by
    rw [List.takeWhile_append_of_pos all, behind, List.append_nil]
  have back : (c :: others ++ rest).dropWhile Char.isDigit = rest := by
    have whole := List.takeWhile_append_dropWhile (p := Char.isDigit) (l := c :: others ++ rest)
    rw [front] at whole
    exact List.append_cancel_left whole
  have power : 2 ^ bits ≤ 2 ^ 64 := Nat.pow_le_pow_right (by decide) fits
  have exact_ : min (Nat.ofDigitChars 10 (c :: others) 0) (2 ^ 64 - 1) =
      Nat.ofDigitChars 10 (c :: others) 0 := Nat.min_eq_left (by omega)
  rw [scanUnsigned]
  simp only [noBlank, noMinus, noPlus, front, back, exact_, Bool.or_self, Bool.false_eq_true,
    if_false, if_neg nonempty, Nat.mod_eq_of_lt small]

theorem ofDigitChars_lt {digits : List Char} (all : ∀ c ∈ digits, c.isDigit = true) :
    Nat.ofDigitChars 10 digits 0 < 10 ^ digits.length := by
  induction digits with
  | nil => decide
  | cons c digits inductionHypothesis =>
      obtain ⟨digit, all⟩ := List.forall_mem_cons.mp all
      have rest := inductionHypothesis all
      have value : c.toNat - '0'.toNat ≤ 9 := by
        rw [Char.isDigit, Bool.and_eq_true, decide_eq_true_eq, decide_eq_true_eq] at digit
        have upper : c.toNat ≤ 57 := digit.2
        have zero : '0'.toNat = 48 := rfl
        omega
      have bound := Nat.mul_le_mul_left (10 ^ digits.length) value
      rw [Nat.ofDigitChars_cons, Nat.ofDigitChars_eq_ofDigitChars_zero, List.length_cons,
        Nat.pow_succ, Nat.mul_zero, Nat.zero_add]
      omega

/-- The leading digits of a number are the number without its last digits. -/
theorem ofDigitChars_take_toDigits (n m : Nat) :
    Nat.ofDigitChars 10 ((Nat.toDigits 10 n).take m) 0 =
      n / 10 ^ ((Nat.toDigits 10 n).length - m) := by
  have all : ∀ c ∈ (Nat.toDigits 10 n).drop m, c.isDigit = true := fun c member =>
    Nat.isDigit_of_mem_toDigits (by decide) (by decide) (List.mem_of_mem_drop member)
  have low := ofDigitChars_lt all
  have whole : Nat.ofDigitChars 10 ((Nat.toDigits 10 n).take m ++ (Nat.toDigits 10 n).drop m) 0 =
      n := by
    rw [List.take_append_drop]
    exact Nat.ofDigitChars_ten_toDigits
  rw [Nat.ofDigitChars_append, Nat.ofDigitChars_eq_ofDigitChars_zero] at whole
  rw [List.length_drop] at low whole
  calc Nat.ofDigitChars 10 ((Nat.toDigits 10 n).take m) 0
      = (10 ^ ((Nat.toDigits 10 n).length - m) *
            Nat.ofDigitChars 10 ((Nat.toDigits 10 n).take m) 0 +
          Nat.ofDigitChars 10 ((Nat.toDigits 10 n).drop m) 0) /
            10 ^ ((Nat.toDigits 10 n).length - m) := by
        rw [Nat.mul_add_div (Nat.pow_pos (by decide)), Nat.div_eq_of_lt low, Nat.add_zero]
    _ = n / 10 ^ ((Nat.toDigits 10 n).length - m) := by rw [whole]

/-! ### Reading what was written -/

/-- The characters in front of the tail. -/
def beforeTail (epoch : UInt32) : List Char :=
  stateOpening ++ Nat.toDigits 10 epoch.toNat ++ stateMiddle

theorem digits_isDigit (n : Nat) : ∀ c ∈ Nat.toDigits 10 n, c.isDigit = true := fun _ member =>
  Nat.isDigit_of_mem_toDigits (by decide) (by decide) member

/-- The reader behind the opening and the digits of an epoch. -/
theorem readConsumerState_of_epoch (epoch : UInt32) {rest : List Char}
    (behind : rest.takeWhile Char.isDigit = []) :
    readConsumerState (some (stateOpening ++ Nat.toDigits 10 epoch.toNat ++ rest)) =
      match scanLiteral stateMiddle rest >>= scanUnsigned 64 with
      | none => (false, 0, 0)
      | some (tail, _) => (true, epoch, UInt64.ofNat tail) := by
  have value : Nat.ofDigitChars 10 (Nat.toDigits 10 epoch.toNat) 0 = epoch.toNat :=
    Nat.ofDigitChars_ten_toDigits
  have scanned := scanUnsigned_digits (by decide : 32 ≤ 64) rest Nat.toDigits_ne_nil
    (digits_isDigit epoch.toNat) behind (by rw [value]; exact epoch.toNat_lt)
  rw [value] at scanned
  rw [readConsumerState, List.append_assoc]
  simp only [Option.bind_eq_bind, Option.bind_some, scanLiteral_append, scanned]
  cases scanLiteral stateMiddle rest with
  | none => rfl
  | some input =>
      rw [Option.bind_some, Option.bind_some]
      cases scanUnsigned 64 input with
      | none => rfl
      | some tail =>
          rw [Option.bind_some]
          exact congrArg (fun e => (true, e, UInt64.ofNat tail.1)) UInt32.ofNat_toNat

/-- The leading digits of a number in front of something else. -/
theorem scanUnsigned_take {bits : Nat} (fits : bits ≤ 64) {n m : Nat} (some_ : 0 < m)
    (small : n < 2 ^ bits) (rest : List Char) (behind : rest.takeWhile Char.isDigit = []) :
    scanUnsigned bits ((Nat.toDigits 10 n).take m ++ rest) =
      some (n / 10 ^ ((Nat.toDigits 10 n).length - m), rest) := by
  have nonempty : (Nat.toDigits 10 n).take m ≠ [] := by
    rw [Ne, List.take_eq_nil_iff, not_or]
    exact ⟨by omega, Nat.toDigits_ne_nil⟩
  have value := ofDigitChars_take_toDigits n m
  have below : n / 10 ^ ((Nat.toDigits 10 n).length - m) < 2 ^ bits :=
    Nat.lt_of_le_of_lt (Nat.div_le_self ..) small
  rw [scanUnsigned_digits fits rest nonempty
    (fun c member => digits_isDigit n c (List.mem_of_mem_take member)) behind
    (by rwa [value]), value]

/-- A line that was cut off in front of the tail is not read. -/
theorem readConsumerState_take_front (epoch : UInt32) (n : Nat) :
    readConsumerState (some ((beforeTail epoch).take n)) = (false, 0, 0) := by
  rcases Nat.lt_or_ge n stateOpening.length with early | late
  · rw [beforeTail, List.append_assoc, List.take_append_of_le_length early.le, readConsumerState]
    simp only [Option.bind_eq_bind, Option.bind_some, scanLiteral_take early, Option.bind_none]
  · rcases Nat.lt_or_ge n (stateOpening.length + (Nat.toDigits 10 epoch.toNat).length)
      with inEpoch | behind
    · have text : (beforeTail epoch).take n =
          stateOpening ++ (Nat.toDigits 10 epoch.toNat).take (n - stateOpening.length) := by
        rw [beforeTail, List.take_append_of_le_length (by rw [List.length_append]; omega),
          List.take_append, List.take_of_length_le late]
      rw [text, readConsumerState]
      simp only [Option.bind_eq_bind, Option.bind_some, scanLiteral_append]
      rcases Nat.eq_zero_or_pos (n - stateOpening.length) with none_ | some_
      · rw [none_, List.take_zero, scanUnsigned_nil, Option.bind_none]
      · have scanned := scanUnsigned_take (by decide : 32 ≤ 64) some_ epoch.toNat_lt [] rfl
        rw [List.append_nil] at scanned
        rw [scanned]
        rfl
    · have text : (beforeTail epoch).take n = stateOpening ++ Nat.toDigits 10 epoch.toNat ++
          stateMiddle.take (n - (stateOpening ++ Nat.toDigits 10 epoch.toNat).length) := by
        rw [beforeTail, List.take_append,
          List.take_of_length_le (by rw [List.length_append]; omega)]
      generalize n - (stateOpening ++ Nat.toDigits 10 epoch.toNat).length = m at text
      have noDigit : (stateMiddle.take m).takeWhile Char.isDigit = [] := by cases m <;> rfl
      have noTail : scanLiteral stateMiddle (stateMiddle.take m) >>= scanUnsigned 64 = none := by
        rcases Nat.lt_or_ge m stateMiddle.length with cut | whole
        · rw [scanLiteral_take cut]
          rfl
        · have matched := scanLiteral_append stateMiddle []
          rw [List.append_nil] at matched
          rw [List.take_of_length_le whole, matched]
          rfl
      rw [text, readConsumerState_of_epoch epoch noDigit, noTail]

/-- What the reader makes of a line of which only a part reached the file. -/
theorem readConsumerState_take (epoch : UInt32) (tail : UInt64) (written : Nat) :
    readConsumerState (some ((consumerStateLine epoch tail).take written)) =
      if written ≤ (beforeTail epoch).length then (false, 0, 0)
      else (true, epoch, UInt64.ofNat (tail.toNat /
        10 ^ ((Nat.toDigits 10 tail.toNat).length - (written - (beforeTail epoch).length)))) := by
  have line : consumerStateLine epoch tail =
      beforeTail epoch ++ (Nat.toDigits 10 tail.toNat ++ "\x7d\n".toList) := by
    rw [consumerStateLine, beforeTail, List.append_assoc _ (Nat.toDigits 10 tail.toNat)]
  rw [line]
  split_ifs with front
  · rw [List.take_append_of_le_length front, readConsumerState_take_front]
  · have some_ : 0 < written - (beforeTail epoch).length := by omega
    rw [List.take_append, List.take_of_length_le (by omega)]
    generalize written - (beforeTail epoch).length = m at some_ ⊢
    rw [List.take_append]
    generalize closing : "\x7d\n".toList.take (m - (Nat.toDigits 10 tail.toNat).length) = rest
    have noDigit : rest.takeWhile Char.isDigit = [] := by
      rw [← closing]
      cases m - (Nat.toDigits 10 tail.toNat).length <;> rfl
    have scanned := scanUnsigned_take (le_refl 64) some_ tail.toNat_lt rest noDigit
    rw [beforeTail, List.append_assoc _ stateMiddle, readConsumerState_of_epoch epoch rfl]
    rw [scanLiteral_append, Option.bind_eq_bind, Option.bind_some, scanned]

/-- The reader finds what was written just when the last digit of the tail reached the file. -/
theorem readConsumerState_take_eq_iff (epoch : UInt32) (tail : UInt64) (written : Nat) :
    readConsumerState (some ((consumerStateLine epoch tail).take written)) = (true, epoch, tail) ↔
      (beforeTail epoch).length + (Nat.toDigits 10 tail.toNat).length ≤ written := by
  have digits : 0 < (Nat.toDigits 10 tail.toNat).length := Nat.length_toDigits_pos
  rw [readConsumerState_take]
  split_ifs with front
  · exact iff_of_false (fun same => Bool.false_ne_true (congrArg Prod.fst same)) (by omega)
  · rw [Prod.mk.injEq, Prod.mk.injEq, ← UInt64.toNat_inj, UInt64.toNat_ofNat_of_lt'
      (Nat.lt_of_le_of_lt (Nat.div_le_self ..) tail.toNat_lt)]
    simp only [true_and]
    constructor
    · intro same
      by_contra cut
      -- A tail of more than one digit is not zero, so that each lost digit makes it smaller.
      have large : 0 < tail.toNat := by
        by_contra zero
        rw [Nat.eq_zero_of_not_pos zero] at cut digits
        have one : (Nat.toDigits 10 0).length = 1 := rfl
        omega
      have lost : 10 ≤ 10 ^ ((Nat.toDigits 10 tail.toNat).length -
          (written - (beforeTail epoch).length)) := Nat.le_self_pow (by omega) 10
      exact absurd same (Nat.ne_of_lt (Nat.div_lt_self large (by omega)))
    · intro whole
      rw [Nat.sub_eq_zero_of_le (by omega), Nat.pow_zero, Nat.div_one]

/-! ### Runs of releases -/

/-- A call whose rename is reached puts in place what it wrote; any other leaves the file. -/
theorem target_persistConsumerState (files : StateFiles) (release : Release) :
    (persistConsumerState release.outcome release.killedAfter release.epoch release.newTail
        files).target =
      if release.completed = true then
        some ((consumerStateLine release.epoch release.newTail).take release.outcome.written)
      else files.target := by
  obtain ⟨epoch, newTail, ⟨opened, written, renamed⟩, killedAfter⟩ := release
  rw [persistConsumerState, persistSteps, Release.completed]
  cases opened with
  | false => simp
  | true =>
      match killedAfter with
      | 0 | 1 | 2 => simp
      | k + 3 => cases renamed <;> simp

/-- The last call whose rename was reached decides. -/
theorem target_runReleases (files : StateFiles) (releases : List Release) :
    (runReleases files releases).target =
      ((releases.filter Release.completed).getLast?.map fun release =>
        (consumerStateLine release.epoch release.newTail).take release.outcome.written).or
          files.target := by
  induction releases using List.reverseRecOn with
  | nil => rfl
  | append_singleton releases release inductionHypothesis =>
      have step : runReleases files (releases ++ [release]) =
          persistConsumerState release.outcome release.killedAfter release.epoch release.newTail
            (runReleases files releases) := List.foldl_append
      rw [step, target_persistConsumerState, inductionHypothesis, List.filter_append]
      cases done : release.completed <;> simp [done]

/-- However the releases of a run end (the consumer killed behind any of their file operations, or
one of these failing), the state file holds what the last call wrote whose rename was reached: the
reader returns that call's epoch and tail exactly when the tail's last digit had reached the disk,
nothing when no digit had, and otherwise the tail without the digits that were lost. -/
theorem consumer_state_after_kills (files : StateFiles) (releases : List Release) :
    match (releases.filter Release.completed).getLast? with
    | none => readConsumerState (runReleases files releases).target = readConsumerState files.target
    | some last =>
        let front := (beforeTail last.epoch).length
        let digits := (Nat.toDigits 10 last.newTail.toNat).length
        readConsumerState (runReleases files releases).target =
            (if last.outcome.written ≤ front then (false, 0, 0)
            else (true, last.epoch, UInt64.ofNat (last.newTail.toNat /
              10 ^ (digits - (last.outcome.written - front))))) ∧
          (readConsumerState (runReleases files releases).target =
              (true, last.epoch, last.newTail) ↔ front + digits ≤ last.outcome.written) := by
  have target := target_runReleases files releases
  generalize (releases.filter Release.completed).getLast? = last at target ⊢
  cases last with
  | none => rw [target, Option.map_none, Option.none_or]
  | some last =>
      rw [Option.map_some, Option.some_or] at target
      rw [target]
      exact ⟨readConsumerState_take .., readConsumerState_take_eq_iff ..⟩

end RanInline.Seam
