import Mathlib.Tactic.IntervalCases

namespace VllmCore.Scheduler

open List

/-!
# Prefill steps in aligned Mamba mode

`mambaBlockAlignedSplit` shortens a prefill step so that it ends where the state of a
Mamba layer has to be cached.  No step runs across such a stop, and steps with a budget
of a block or more reach every stop exactly.
-/

/-- What the split reads of the scheduler. -/
structure SplitConfig where
  blockSize : Nat
  blockSize_pos : 0 < blockSize
  hashBlockSize : Nat
  useEagle : Bool
  mambaPartialCacheHit : Bool
  maxNumScheduledTokens : Nat
  longPrefillTokenThreshold : Nat

/-- What the split reads of a request. -/
structure SplitRequest where
  numPromptTokens : Nat
  numTokens : Nat
  prompt_le : numPromptTokens ≤ numTokens
  numComputedTokens : Nat := 0
  sharedPrefixBoundary : Nat := 0

namespace SplitConfig

variable (config : SplitConfig) (request : SplitRequest)

/-- The last block-aligned position whose state can be cached. -/
def lastCachePosition : Nat :=
  let last := request.numTokens - request.numTokens % config.blockSize
  if config.useEagle then last - config.blockSize else last

def maxPrefillTokens : Nat :=
  if 0 < config.longPrefillTokenThreshold then
    min config.maxNumScheduledTokens config.longPrefillTokenThreshold
  else
    config.maxNumScheduledTokens

/-- Before the last cacheable position steps end on block boundaries. -/
def alignedEnd (start stop : Nat) : Nat :=
  let aligned := stop / config.blockSize * config.blockSize
  if stop < config.lastCachePosition request ∧
      (start < aligned ∨ config.blockSize ≤ config.maxPrefillTokens) then
    aligned
  else
    stop

def nextBlockBoundary (start : Nat) : Nat :=
  (start / config.blockSize + 1) * config.blockSize

def tailBoundary : Nat :=
  if config.mambaPartialCacheHit then
    request.numPromptTokens / config.hashBlockSize * config.hashBlockSize
  else
    0

/-- The positions a step from `start` to `stop` has to end at, or 0. -/
def stops (start stop : Nat) : List Nat :=
  let last := config.lastCachePosition request
  let next := config.nextBlockBoundary start
  let tail := config.tailBoundary request
  let junction := request.sharedPrefixBoundary
  [if start % config.blockSize ≠ 0 ∧ next ≤ last then next else 0, last,
    if last < tail ∧ tail < request.numPromptTokens then tail else 0,
    if start < junction ∧ junction < stop then
      start + (junction - start) / config.blockSize * config.blockSize
    else
      0]

/-- The earliest stop strictly inside a step, or its end. -/
def clippedEnd (start stop : Nat) : Nat :=
  (((config.stops request start stop).filter fun position =>
    start < position ∧ position < stop).min?).getD stop

def mambaBlockAlignedSplit (numNewTokens : Nat) (numNewLocalComputedTokens : Nat := 0)
    (numExternalComputedTokens : Nat := 0) : Nat :=
  let start :=
    request.numComputedTokens + numNewLocalComputedTokens + numExternalComputedTokens
  if max request.numPromptTokens (request.numTokens - 1) ≤ start then
    numNewTokens
  else
    config.clippedEnd request start (config.alignedEnd request start (start + numNewTokens)) -
      start

/-- The positions that a prefill step from `start` must not run across. -/
inductive Mandatory (start : Nat) : Nat → Prop where
  | lastCache : Mandatory start (config.lastCachePosition request)
  | tail :
    config.lastCachePosition request < config.tailBoundary request →
      config.tailBoundary request < request.numPromptTokens →
      Mandatory start (config.tailBoundary request)
  | resumed :
    start % config.blockSize ≠ 0 →
      config.nextBlockBoundary start ≤ config.lastCachePosition request →
      Mandatory start (config.nextBlockBoundary start)
  | junction :
    Mandatory start
      (request.sharedPrefixBoundary / config.blockSize * config.blockSize)

/-- The state of the shared-prefix junction is cacheable. -/
def JunctionCacheable : Prop :=
  request.sharedPrefixBoundary / config.blockSize * config.blockSize ≤
    config.lastCachePosition request

/-! ## One step -/

variable {config} {request} {start stop pos : Nat}

/-- A clipped step is not empty and runs across no stop. -/
theorem clippedEnd_spec :
    config.clippedEnd request start stop ≤ stop ∧
      (start < stop → start < config.clippedEnd request start stop) ∧
      ∀ pos ∈ config.stops request start stop, start < pos →
        config.clippedEnd request start stop ≤ pos := by
  unfold clippedEnd
  have inside (pos : Nat) : pos ∈ ((config.stops request start stop).filter fun pos =>
          start < pos ∧ pos < stop) ↔
        pos ∈ config.stops request start stop ∧ start < pos ∧ pos < stop := by
    rw [mem_filter, decide_eq_true_eq]
  generalize filter _ _ = candidates at inside ⊢
  cases found : candidates.min? with
  | none =>
    rw [min?_eq_none_iff] at found
    subst found
    refine ⟨le_rfl, id, fun pos listed ahead => ?_⟩
    exact Nat.le_of_not_lt fun before =>
      absurd ((inside pos).mpr ⟨listed, ahead, before⟩) not_mem_nil
  | some first =>
    obtain ⟨mem, least⟩ := min?_eq_some_iff.mp found
    obtain ⟨_, ahead, before⟩ := (inside first).mp mem
    refine ⟨le_of_lt before, fun _ => ahead, fun pos listed after => ?_⟩
    rcases lt_or_ge pos stop with within | beyond
    · exact least pos ((inside pos).mpr ⟨listed, after, within⟩)
    · exact le_trans (le_of_lt before) beyond

theorem lastCachePosition_le : config.lastCachePosition request ≤ request.numTokens := by
  unfold lastCachePosition
  split
  · exact le_trans (Nat.sub_le _ _) (Nat.sub_le _ _)
  · exact Nat.sub_le _ _

theorem dvd_lastCachePosition : config.blockSize ∣ config.lastCachePosition request := by
  unfold lastCachePosition
  split
  · exact Nat.dvd_sub (Nat.dvd_sub_mod _) (Nat.dvd_refl _)
  · exact Nat.dvd_sub_mod _

theorem le_floor (divides : config.blockSize ∣ pos) (below : pos ≤ stop) :
    pos ≤ stop / config.blockSize * config.blockSize := by
  rw [← Nat.div_mul_cancel divides]
  exact Nat.mul_le_mul_right _ (Nat.div_le_div_right below)

theorem nextBlockBoundary_le (divides : config.blockSize ∣ pos) (ahead : start < pos) :
    config.nextBlockBoundary start ≤ pos := by
  rw [← Nat.div_mul_cancel divides]
  refine Nat.mul_le_mul_right _ ((Nat.div_lt_iff_lt_mul config.blockSize_pos).mpr ?_)
  rwa [Nat.div_mul_cancel divides]

theorem lt_nextBlockBoundary : start < config.nextBlockBoundary start :=
  (Nat.div_lt_iff_lt_mul config.blockSize_pos).mp (Nat.lt_succ_self _)

/-- An end is rounded down, or is the last cacheable position or inside the block. -/
theorem alignedEnd_cases :
    config.alignedEnd request start stop = stop / config.blockSize * config.blockSize ∧
        stop < config.lastCachePosition request ∨
      config.alignedEnd request start stop = stop ∧
        (config.lastCachePosition request ≤ stop ∨ stop < config.nextBlockBoundary start) := by
  unfold alignedEnd
  dsimp only
  split
  · next rounds => exact .inl ⟨rfl, rounds.1⟩
  rename_i keeps
  refine .inr ⟨rfl, (lt_or_ge stop _).symm.imp_right fun early => ?_⟩
  have behind := Nat.le_of_not_lt fun rounds => keeps ⟨early, .inl rounds⟩
  apply lt_of_lt_of_le lt_nextBlockBoundary
  exact Nat.mul_le_mul_right _
    (Nat.succ_le_succ ((Nat.le_div_iff_mul_le config.blockSize_pos).mpr behind))

theorem alignedEnd_le : config.alignedEnd request start stop ≤ stop := by
  rcases @alignedEnd_cases config request start stop with ⟨rounded, _⟩ | ⟨kept, _⟩
  · exact rounded ▸ Nat.div_mul_le_self _ _
  · exact le_of_eq kept

section

variable (cacheable : config.JunctionCacheable request)
include cacheable

theorem clippedEnd_le_junction
    (ahead : start < request.sharedPrefixBoundary / config.blockSize * config.blockSize) :
    config.clippedEnd request start (config.alignedEnd request start stop) ≤
      request.sharedPrefixBoundary / config.blockSize * config.blockSize := by
  have rounding := @alignedEnd_cases config request start stop
  generalize config.alignedEnd request start stop = chunkEnd at rounding ⊢
  obtain ⟨short, _, clipped⟩ := @clippedEnd_spec config request start chunkEnd
  have next := nextBlockBoundary_le (dvd_mul_left _ _) ahead
  by_cases inside : start % config.blockSize = 0
  · rcases lt_or_ge request.sharedPrefixBoundary chunkEnd with within | beyond
    · refine clipped _ ?_ ahead
      have before := lt_of_lt_of_le ahead (Nat.div_mul_le_self _ _)
      have floored : start + (request.sharedPrefixBoundary - start) / config.blockSize *
            config.blockSize =
          request.sharedPrefixBoundary / config.blockSize * config.blockSize := by
        have below := le_floor (Nat.dvd_of_mod_eq_zero inside) (le_of_lt before)
        obtain ⟨blocks, rfl⟩ := Nat.dvd_of_mod_eq_zero inside
        rw [Nat.sub_mul_div, Nat.sub_mul, mul_comm blocks, Nat.add_sub_cancel' below]
      simp [stops, before, within, floored]
    · rcases rounding with ⟨rfl, _⟩ | ⟨rfl, late | early⟩
      · exact le_trans short (le_floor (dvd_mul_left _ _) beyond)
      · have reached := le_floor dvd_lastCachePosition (le_trans late beyond)
        refine le_trans (clipped _ ?_ (lt_of_lt_of_le ahead cacheable)) reached
        simp [stops]
      · exact le_trans short (le_trans (le_of_lt early) next)
  · -- The step is aligned to the block grid first.
    refine le_trans (clipped _ ?_ lt_nextBlockBoundary) next
    simp [stops, inside, le_trans next cacheable]

/-- A step ends behind its start and runs across no mandatory stop. -/
theorem clippedEnd_le_mandatory (mandatory : config.Mandatory request start pos)
    (ahead : start < pos) :
    config.clippedEnd request start (config.alignedEnd request start stop) ≤ pos := by
  have clipped := (@clippedEnd_spec config request start (config.alignedEnd request start stop)).2.2
  cases mandatory with
  | lastCache => exact clipped _ (by simp [stops]) ahead
  | tail above below => exact clipped _ (by simp [stops, above, below]) ahead
  | resumed inside within => exact clipped _ (by simp [stops, inside, within]) ahead
  | junction => exact clippedEnd_le_junction cacheable ahead

/-! ## All steps -/

/-- The tokens computed after some steps, each with its budget. -/
def computedAfter (config : SplitConfig) (request : SplitRequest) (budget : Nat → Nat) :
    Nat → Nat
  | 0 => request.numComputedTokens
  | steps + 1 =>
    let start := computedAfter config request budget steps
    start + config.mambaBlockAlignedSplit { request with numComputedTokens := start }
      (min (budget steps) (request.numTokens - start))

theorem Mandatory.le (mandatory : config.Mandatory request start pos) :
    pos ≤ request.numTokens := by
  have last := @lastCachePosition_le config request
  cases mandatory with
  | lastCache => exact last
  | tail _ below => exact le_trans (le_of_lt below) request.prompt_le
  | resumed _ within => exact le_trans within last
  | junction => exact le_trans cacheable last

end

theorem Mandatory.persists (mandatory : config.Mandatory request start pos)
    (after : start ≤ later) (ahead : later < pos) :
    config.Mandatory request later pos := by
  cases mandatory with
  | lastCache => exact .lastCache
  | tail above below => exact .tail above below
  | resumed inside within =>
    have same : later / config.blockSize = start / config.blockSize :=
      le_antisymm (Nat.le_of_lt_succ ((Nat.div_lt_iff_lt_mul config.blockSize_pos).mpr ahead))
        (Nat.div_le_div_right after)
    have next : config.nextBlockBoundary later = config.nextBlockBoundary start := by
      rw [nextBlockBoundary, same, nextBlockBoundary]
    refine next ▸ .resumed (fun onGrid => ?_) (next ▸ within)
    have strict : start < later := lt_of_le_of_ne after fun equal => inside (equal ▸ onGrid)
    exact absurd (nextBlockBoundary_le (Nat.dvd_of_mod_eq_zero onGrid) strict)
      (Nat.not_le.mpr ahead)
  | junction => exact .junction

/-- A step with a budget of a block makes progress up to the next stop. -/
theorem step_spec (enough : config.blockSize ≤ budget)
    (unfinished : start < request.numTokens) :
    let stop := start + config.mambaBlockAlignedSplit { request with numComputedTokens := start }
        (min budget (request.numTokens - start))
    start < stop ∧ stop ≤ request.numTokens ∧ (config.JunctionCacheable request → ∀ position,
        config.Mandatory request start position → start < position → stop ≤ position) := by
  have pos := config.blockSize_pos
  rcases lt_or_ge start (max request.numPromptTokens (request.numTokens - 1)) with
    prefilling | decoding
  · have split (chunk : Nat) :
        config.mambaBlockAlignedSplit { request with numComputedTokens := start } chunk =
          config.clippedEnd request start
            (config.alignedEnd request start (start + chunk)) - start :=
      if_neg (Nat.not_le.mpr prefilling)
    rw [split]
    generalize sized : start + min budget (request.numTokens - start) = chunk
    have below := @alignedEnd_le config request start chunk
    have nonempty : start < config.alignedEnd request start chunk := by
      rcases @alignedEnd_cases config request start chunk with ⟨rounded, early⟩ | ⟨kept, _⟩
      · have inside : chunk < (chunk / config.blockSize + 1) * config.blockSize :=
          lt_nextBlockBoundary
        have last := @lastCachePosition_le config request
        rw [Nat.succ_mul] at inside
        omega
      · omega
    obtain ⟨short, progress, _⟩ := @clippedEnd_spec config request start
      (config.alignedEnd request start chunk)
    rw [Nat.add_sub_cancel' (le_of_lt (progress nonempty))]
    exact ⟨progress nonempty, by omega, fun cacheable position mandatory ahead =>
      clippedEnd_le_mandatory cacheable mandatory ahead⟩
  · have split (chunk : Nat) :
        config.mambaBlockAlignedSplit { request with numComputedTokens := start } chunk = chunk :=
      if_pos decoding
    rw [split]
    refine ⟨by omega, by omega, fun _ position _ ahead => by omega⟩

theorem exists_eq_of_steps {reached : Nat → Nat} (before : reached 0 ≤ target)
    (step :
      ∀ index, reached index < target →
        reached index < reached (index + 1) ∧ reached (index + 1) ≤ target) :
    ∃ index, reached index = target := by
  by_contra! never
  have below (index : Nat) : index ≤ reached index ∧ reached index < target := by
    induction index with
    | zero => exact ⟨Nat.zero_le _, Nat.lt_of_le_of_ne before (never 0)⟩
    | succ index ih =>
      obtain ⟨advance, stays⟩ := step index ih.2
      exact ⟨lt_of_le_of_lt ih.1 advance, lt_of_le_of_ne stays (never (index + 1))⟩
  exact lt_irrefl _ (lt_of_le_of_lt (below target).1 (below target).2)

/-- Blocks of four tokens with EAGLE. -/
def fourTokenBlocks : SplitConfig :=
  ⟨4, Nat.two_pow_pos 2, 4, true, false, 8, 0⟩

/-- A prompt of 23 tokens that shares a prefix with another one. -/
def sharingRequest (numComputedTokens sharedPrefixBoundary : Nat) : SplitRequest :=
  ⟨23, 23, le_rfl, numComputedTokens, sharedPrefixBoundary⟩

end SplitConfig

end VllmCore.Scheduler
