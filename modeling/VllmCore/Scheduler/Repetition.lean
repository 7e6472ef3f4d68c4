import Mathlib.Data.List.Basic

namespace VllmCore.Scheduler

open List

/-!
# Stopping on repeated output

`checkSequenceRepetition` looks for a pattern that the output repeats at its end.  It
compares single tokens at shifted positions; what it decides is whether the output ends
with enough copies of one pattern.
-/

/-- The detection parameters, with the checks of `__post_init__` as fields. -/
structure RepetitionDetectionParams where
  maxPatternSize : Nat := 0
  minPatternSize : Nat := 0
  minCount : Int := 0
  sizes_valid : minPatternSize ≤ maxPatternSize
  minCount_valid : 0 < maxPatternSize → 2 ≤ minCount

section

variable {Token : Type} [DecidableEq Token] (tokenIds : List Token)

/--
Compare the last tokens with those of the copies before them.

Positions count from the end: `tokenIds.reverse` at `n` is the source's `token_ids[-(n + 1)]`.
All of them are inside a list of `patternLen * repetitionMinCount` tokens.
-/
def hasRepeatingPattern (patternLen repetitionMinCount : Nat) : Bool :=
  (range patternLen).all fun n => (range (repetitionMinCount - 1)).all fun m =>
    tokenIds.reverse[patternLen * (m + 1) + n]? == tokenIds.reverse[n]?

/-- The loop over the pattern lengths. -/
def checkPatternLengths (minCount : Nat) : List Nat → Bool
  | [] => false
  | patternLen :: rest =>
    if patternLen * minCount > tokenIds.length then
      false
    else
      hasRepeatingPattern tokenIds patternLen minCount || checkPatternLengths minCount rest

def checkSequenceRepetition (params : RepetitionDetectionParams) : Bool :=
  let minPatternSize := if params.minPatternSize ≤ 0 then 1 else params.minPatternSize
  if params.maxPatternSize ≤ 0 ∨ params.minCount < 2 ∨ minPatternSize > params.maxPatternSize then
    false
  else
    checkPatternLengths tokenIds params.minCount.toNat
      (range' minPatternSize (params.maxPatternSize + 1 - minPatternSize))

end

variable {Token : Type} {tokens pattern : List Token} {size copies minCount : Nat}

/-- The list ends with at least `minCount` copies of its last `size` tokens. -/
def EndsWithCopies (tokens : List Token) (size : Nat) (minCount : Int) : Prop :=
  ∃ pattern copies, pattern.length = size ∧ minCount ≤ (copies : Nat) ∧
    (replicate copies pattern).flatten <:+ tokens

/-- Each copy shows the pattern again. -/
theorem getElem?_copies (block : Nat) (listed : block < copies) (inside : offset < pattern.length)
    (rest : List Token) :
    ((replicate copies pattern).flatten ++ rest)[pattern.length * block + offset]? =
      pattern[offset]? := by
  induction copies generalizing block with
  | zero => omega
  | succ copies ih =>
    rw [replicate_succ, flatten_cons, append_assoc]
    cases block with
    | zero =>
      rw [Nat.mul_zero, Nat.zero_add]
      exact getElem?_append_left inside
    | succ block =>
      rw [Nat.mul_succ, Nat.add_right_comm, getElem?_append_right (Nat.le_add_left _ _),
        Nat.add_sub_cancel]
      exact ih block (Nat.lt_of_succ_lt_succ listed)

/-- Tokens that repeat at every shift form copies of the first ones. -/
theorem copies_eq_take
    (repeats : ∀ block < copies, ∀ n < size, tokens[size * block + n]? = tokens[n]?) :
    (replicate copies (tokens.take size)).flatten = tokens.take (size * copies) := by
  induction copies with
  | zero => simp
  | succ copies ih =>
    have last : (tokens.drop (size * copies)).take size = tokens.take size := by
      apply ext_getElem?
      intro n
      rw [getElem?_take, getElem?_take, getElem?_drop]
      split
      · exact repeats copies (Nat.lt_succ_self copies) n ‹_›
      · rfl
    rw [replicate_succ', flatten_append, flatten_singleton, Nat.mul_succ, take_add, last,
      ih fun block listed => repeats block (Nat.lt_succ_of_lt listed)]

theorem reverse_copies :
    (replicate copies pattern).flatten.reverse = (replicate copies pattern.reverse).flatten := by
  rw [reverse_flatten, map_replicate, reverse_replicate]

variable [DecidableEq Token]

/-- What the length check and the comparison of single tokens decide. -/
theorem endsWithCopies_iff (several : 2 ≤ minCount) :
    EndsWithCopies tokens size minCount ↔
      size * minCount ≤ tokens.length ∧ hasRepeatingPattern tokens size minCount = true := by
  simp only [hasRepeatingPattern, all_eq_true, mem_range, beq_iff_eq]
  constructor
  · rintro ⟨pattern, copies, rfl, enough, front, rfl⟩
    have enough : minCount ≤ copies := Int.ofNat_le.mp enough
    have long := Nat.mul_le_mul_left pattern.length enough
    refine ⟨?_, fun n inside m listed => ?_⟩
    · simp [Nat.mul_comm copies]
      omega
    · rw [← length_reverse] at inside ⊢
      rw [reverse_append, reverse_copies, getElem?_copies _ (by omega) inside]
      have first := getElem?_copies 0 (show 0 < copies by omega) inside front.reverse
      simpa using first.symm
  · rintro ⟨fits, repeats⟩
    have long := Nat.mul_le_mul_left size several
    refine ⟨(tokens.reverse.take size).reverse, minCount, ?_, Int.le_refl _, ?_⟩
    · simp
      omega
    · rw [← reverse_prefix, reverse_copies, reverse_reverse, copies_eq_take]
      · exact take_prefix _ _
      · rintro (_ | m) listed n inside
        · simp
        · exact repeats n inside m (by omega)

/-- Lengths come in ascending order, so the loop may stop at the first too long one. -/
theorem checkPatternLengths_iff (several : 2 ≤ minCount) (ascending : lengths.Pairwise (· ≤ ·)) :
    checkPatternLengths tokens minCount lengths = true ↔
      ∃ size ∈ lengths, EndsWithCopies tokens size minCount := by
  induction lengths with
  | nil => simp [checkPatternLengths]
  | cons size rest ih =>
    rw [pairwise_cons] at ascending
    unfold checkPatternLengths
    split
    · rename_i long
      refine iff_of_false Bool.false_ne_true ?_
      rintro ⟨other, listed, ends⟩
      have fits := ((endsWithCopies_iff several).mp ends).1
      have le : size ≤ other := by
        rcases mem_cons.mp listed with rfl | later
        · exact Nat.le_refl _
        · exact ascending.1 other later
      have := Nat.mul_le_mul_right minCount le
      omega
    · rename_i short
      simp [ih ascending.2, endsWithCopies_iff several, Nat.le_of_not_lt short]

/-- Repetition is reported exactly when the output ends with enough copies of a pattern. -/
theorem checkSequenceRepetition_iff (tokens : List Token) (params : RepetitionDetectionParams) :
    checkSequenceRepetition tokens params = true ↔
      ∃ size, 1 ≤ size ∧ params.minPatternSize ≤ size ∧ size ≤ params.maxPatternSize ∧
        EndsWithCopies tokens size params.minCount := by
  have least : (if params.minPatternSize ≤ 0 then 1 else params.minPatternSize) =
      max 1 params.minPatternSize := by
    split <;> omega
  have valid := params.minCount_valid
  unfold checkSequenceRepetition
  dsimp only
  rw [least]
  split
  · rename_i disabled
    refine iff_of_false Bool.false_ne_true ?_
    rintro ⟨size, _, above, below, _⟩
    omega
  · rename_i enabled
    have count : (params.minCount.toNat : Int) = params.minCount := by omega
    rw [checkPatternLengths_iff (by omega) pairwise_le_range', count]
    refine exists_congr fun size => ?_
    rw [mem_range'_1, ← and_assoc, ← and_assoc]
    refine and_congr_left fun _ => ?_
    omega

end VllmCore.Scheduler
