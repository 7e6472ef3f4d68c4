import VllmCore.ManagerRelease

namespace VllmCore

open Lib SingleTypeKVCacheManager List

/-!
# Prediction and cost of a group

For one group, the prediction of the capacity check is compared with what adopting
cached blocks, loading external tokens and taking slots cost.  The prediction covers
the cost under `Foreseen`, a condition on the request and the state before the call.
-/

namespace GroupCache

variable {BlockHash : Type} {reqId : RequestId} {others free : List BlockId}
  {cache : GroupCache BlockHash} {config : ManagerConfig}

/-! ## Taking slots, for every kind -/

/-- What slots cost behind a table of some length. -/
def takeCost (config : ManagerConfig) (numTokens numTokensMainModel length : Nat)
    (isPartial allocated : Bool) : Nat :=
  if config.isAlign then
    alignCost config numTokensMainModel length isPartial allocated
  else
    baseCost config (numTokens + config.blockSize * config.numSpeculativeBlocks) length
      isPartial

/-- How long a table is at least once slots were taken. -/
def slotLength (config : ManagerConfig) (numTokens numTokensMainModel : Nat) : Nat :=
  if config.isAlign then
    cdiv numTokensMainModel config.blockSize + config.numSpeculativeBlocks
  else
    cdiv (numTokens + config.blockSize * config.numSpeculativeBlocks) config.blockSize

variable [DecidableEq BlockHash]

theorem allocateNewBlocks_eq :
    cache.allocateNewBlocks reqId tokens numMain =
      if cache.manager.isAlign then
        cache.alignAllocateNewBlocks reqId numMain
      else
        cache.baseAllocateNewBlocks reqId
          (tokens + cache.manager.blockSize * cache.manager.numSpeculativeBlocks) := by
  unfold allocateNewBlocks ManagerConfig.isAlign ManagerConfig.numSpeculativeBlocks
  cases cache.manager.kind with
  | mamba mode numSpeculativeBlocks => cases mode <;> rfl
  | _ => rfl

/-- Taking slots costs what `takeCost` says. -/
theorem allocateNewBlocks_meets
    (ledger : Ledger cache.pool free (cache.manager.references ++ others))
    (states :
      cache.manager.isAlign = true → reqId ∈ cache.manager.allocatedBlockReqs →
        cache.manager.numSpeculativeBlocks ≤ (cache.manager.table reqId).length)
    (enough :
      takeCost cache.manager.toManagerConfig tokens numMain
        (cache.manager.table reqId).length
        (cache.manager.partialHitReqs.contains reqId)
        (reqId ∈ cache.manager.allocatedBlockReqs) ≤ free.length) :
    Meets Fault.NotValue (fun result =>
      Ready reqId
          (slotLength cache.manager.toManagerConfig tokens numMain)
          cache.manager result.2.manager ∧
        ∃ free', Spends reqId others
            (takeCost cache.manager.toManagerConfig tokens numMain
              (cache.manager.table reqId).length
              (cache.manager.partialHitReqs.contains reqId)
              (reqId ∈ cache.manager.allocatedBlockReqs))
            cache free result.2 free')
      (cache.allocateNewBlocks reqId tokens numMain) := by
  rw [allocateNewBlocks_eq]
  unfold takeCost at enough ⊢
  unfold slotLength
  cases isAlign : cache.manager.isAlign with
  | true =>
    rw [isAlign] at enough
    exact alignAllocate_meets ledger (states isAlign) enough
  | false =>
    rw [isAlign] at enough
    refine (baseAllocate_meets ledger enough).mono ?_
    rintro result ⟨filled, spends⟩
    refine ⟨⟨?_, filled.partialHit, filled.numCachedBlock⟩, spends⟩
    rw [filled.length]
    exact le_max_right _ _

/-! ## The prediction, for every kind -/

theorem toAllocate_eq {tokens : Nat} {newComputedBlocks : List BlockId}
    {numLocal numMain : Nat} :
    cache.getNumBlocksToAllocate reqId tokens newComputedBlocks
        totalComputedTokens numLocal numMain =
      if cache.manager.kind.isMamba && cache.hitsThisStep newComputedBlocks then
        .ok (cache.pool.config.numGpuBlocks + 1)
      else if cache.manager.isAlign then
        .ok (cache.alignNumBlocksToAllocate reqId newComputedBlocks
          numLocal numMain)
      else
        cache.baseNumBlocksToAllocate reqId
          (tokens + cache.manager.blockSize * cache.manager.numSpeculativeBlocks)
          newComputedBlocks totalComputedTokens numLocal false := by
  have sameSize := cache.manager.blockSize_mamba
  unfold getNumBlocksToAllocate ManagerConfig.isAlign ManagerConfig.numSpeculativeBlocks
    ManagerConfig.kind at *
  cases isKind : cache.manager.kvCacheSpec.kind with
  | mamba mode numSpeculativeBlocks =>
    rw [isKind] at sameSize
    rw [sameSize rfl]
    cases mode <;> rfl
  | _ => rfl

omit [DecidableEq BlockHash]

/-- Blocks that a call finds evictable are no more later in the call. -/
theorem evictable_mono {pool after : BlockPool BlockHash} (frame : SameFrame pool after)
    (counts : ∀ block, (pool.blocks block).refCnt ≤ (after.blocks block).refCnt)
    (nonneg : ∀ block, (pool.blocks block).isNull = false → 0 ≤ (pool.blocks block).refCnt)
    :
    getNumEvictableBlocks after blocks ≤ getNumEvictableBlocks pool blocks := by
  refine countP_mono_left fun block _ evictable => ?_
  simp only [decide_eq_true_eq] at evictable ⊢
  rw [frame.isNull] at evictable
  have := counts block
  have := nonneg block evictable.2
  exact ⟨by omega, evictable.2⟩

theorem evictable_drop_le
    (pool : BlockPool BlockHash) (count : Nat) (blocks : List BlockId) :
    getNumEvictableBlocks pool (blocks.drop count) ≤ getNumEvictableBlocks pool blocks :=
  (drop_sublist count blocks).countP_le

/-! ## Skipped blocks -/

/-- No more tokens are skipped than are computed. -/
theorem getNumSkippedTokens_le (config : ManagerConfig) (numComputedTokens : Nat) :
    config.kind.getNumSkippedTokens numComputedTokens ≤ numComputedTokens := by
  have window := config.window_pos
  unfold ManagerConfig.kind SpecKind.getNumSkippedTokens
  split
  · omega
  · rename_i isWindow
    have := window _ isWindow
    omega
  · exact_mod_cast Nat.div_mul_le_self _ _
  · omega
  · omega

theorem leadingNulls_le (config : ManagerConfig) (numComputedTokens : Nat) :
    leadingNulls config numComputedTokens ≤ cdiv numComputedTokens config.blockSize := by
  have skipped := getNumSkippedTokens_le config numComputedTokens
  have pos := config.blockSize_pos
  unfold leadingNulls ManagerConfig.numSkippedBlocks
  have quotient : config.kind.getNumSkippedTokens numComputedTokens / config.blockSize ≤
      (numComputedTokens / config.blockSize : Nat) := by
    exact Int.ediv_le_ediv (by omega) skipped
  have rounded : numComputedTokens / config.blockSize ≤
      cdiv numComputedTokens config.blockSize := by
    by_contra short
    have := (cdiv_le_iff pos).mp (le_refl (cdiv numComputedTokens config.blockSize))
    have := Nat.div_le_of_le_mul (Nat.mul_comm _ _ ▸ this)
    omega
  omega

/-- In `align` mode all but the last block of the computed tokens are skipped. -/
theorem leadingNulls_align (isAlign : config.isAlign = true) :
    leadingNulls config numComputedTokens = cdiv numComputedTokens config.blockSize - 1 := by
  have pos := config.blockSize_pos
  have skipped :
      config.kind.getNumSkippedTokens numComputedTokens = (numComputedTokens : Int) - 1 := by
    unfold ManagerConfig.isAlign at isAlign
    split at isAlign
    · rename_i isKind
      rw [isKind]
      rfl
    · cases isAlign
  unfold leadingNulls ManagerConfig.numSkippedBlocks
  rw [skipped]
  cases numComputedTokens with
  | zero =>
    have negative : ((0 : Nat) : Int) - 1 < 0 := by decide
    have quotient := Int.ediv_neg_of_neg_of_pos negative (Int.natCast_pos.mpr pos)
    have rounded : cdiv 0 config.blockSize ≤ 0 := (cdiv_le_iff pos).mpr (by omega)
    omega
  | succ before =>
    have quotient : (((before + 1 : Nat) : Int) - 1) / config.blockSize =
        (before / config.blockSize : Nat) := by
      have shifted : ((before + 1 : Nat) : Int) - 1 = before := by omega
      rw [shifted, Int.natCast_div]
    have above : before / config.blockSize < cdiv (before + 1) config.blockSize :=
      div_lt_cdiv pos (Nat.lt_succ_self before)
    have below : cdiv (before + 1) config.blockSize ≤ before / config.blockSize + 1 := by
      rw [cdiv_le_iff pos]
      exact Nat.lt_mul_of_div_lt (Nat.lt_succ_self _) pos
    rw [quotient]
    exact Nat.eq_sub_of_add_eq (Nat.le_antisymm above below)

/-! ## A request that adopts blocks -/

section

variable (config : ManagerConfig)

section

variable (hits : List BlockId)

/-- How long a table is once cached blocks are adopted. -/
def adoptedLength (numComputedTokens : Nat) : Nat :=
  max (leadingNulls config numComputedTokens) hits.length

section

variable (numLocalComputedTokens numExternalComputedTokens : Nat)

/-- Whether the adopted blocks end inside a block. -/
def adoptedPartial : Bool :=
  config.hasPartialLocalHit
    (hits.drop (leadingNulls config (numLocalComputedTokens + numExternalComputedTokens)))
    numLocalComputedTokens

/-- What the external tokens cost behind the adopted blocks. -/
def loadCost : Nat :=
  if 0 < numExternalComputedTokens then
    externalCost config
      (adoptedLength config hits (numLocalComputedTokens + numExternalComputedTokens))
      numLocalComputedTokens numExternalComputedTokens
  else
    0

end

end

end

/--
The prediction of a group foresees the cost of a call.

The drafts of a running request were not rejected past a block boundary, no hit is
longer than the computed tokens, and external tokens do not need a Mamba state of their
own beside the one of the new tokens.
-/
@[mk_iff]
structure Foreseen (manager : SingleTypeKVCacheManager BlockHash) (requestId : RequestId)
    (hits : List BlockId)
    (numLocalComputedTokens numExternalComputedTokens numTokensMainModel : Nat) :
    Prop where
  drafts :
    manager.isAlign = true → hits.length + (manager.table requestId).length ≤
        cdiv numTokensMainModel manager.blockSize + manager.numSpeculativeBlocks ∨
      manager.hasPartialLocalHit hits numLocalComputedTokens = true ∨
      manager.partialHitReqs.contains requestId = true
  fits :
    0 < numExternalComputedTokens → hits.length ≤
      cdiv (numLocalComputedTokens + numExternalComputedTokens) manager.blockSize
  state :
    0 < numExternalComputedTokens → manager.isAlign = true →
      cdiv numTokensMainModel manager.blockSize ≤
          cdiv (numLocalComputedTokens + numExternalComputedTokens) manager.blockSize ∨
        hits.length = cdiv (numLocalComputedTokens + numExternalComputedTokens) manager.blockSize

instance
    (manager : SingleTypeKVCacheManager BlockHash) (requestId : RequestId)
    (hits : List BlockId)
    (numLocalComputedTokens numExternalComputedTokens numTokensMainModel : Nat) :
    Decidable (Foreseen manager requestId hits numLocalComputedTokens
      numExternalComputedTokens numTokensMainModel) :=
  decidable_of_iff _ (foreseen_iff ..).symm

theorem partialHit_of_drop {hits : List BlockId} {count numLocal : Nat}
    (isPartial : config.hasPartialLocalHit (hits.drop count) numLocal = true) :
    count < hits.length ∧ config.hasPartialLocalHit hits numLocal = true := by
  simp only [ManagerConfig.hasPartialLocalHit, length_drop, Bool.and_eq_true,
    decide_eq_true_eq] at isPartial ⊢
  omega

variable {hits : List BlockId}
  {numLocalComputedTokens numExternalComputedTokens tokens numMain : Nat}

/-- What the prediction counts for a copy covers it. -/
theorem copyCost_adoptedPartial_le (config : ManagerConfig) (hits : List BlockId)
    (numLocal numExternal : Nat) :
    (copyCost (adoptedPartial config hits numLocal numExternal) : Int) ≤
      if config.hasPartialLocalHit hits numLocal then 1 else 0 := by
  unfold copyCost adoptedPartial
  split
  · rename_i isPartial
    rw [if_pos (partialHit_of_drop isPartial).2]
    decide
  · split <;> decide

theorem loadCost_cases (config : ManagerConfig) (hits : List BlockId)
    (numLocal numExternal : Nat) :
    loadCost config hits numLocal numExternal = 0 ∨ 0 < numExternal ∧
        loadCost config hits numLocal numExternal = cdiv (numLocal + numExternal) config.blockSize -
            adoptedLength config hits
              (numLocal + numExternal) := by
  unfold loadCost externalCost
  split
  · rename_i loads
    split
    · exact .inl rfl
    · exact .inr ⟨loads, rfl⟩
  · exact .inl rfl

/-- What adopting, loading and taking slots then costs a request without blocks. -/
def adoptingCost (cache : GroupCache BlockHash) (hits : List BlockId)
    (numLocalComputedTokens numExternalComputedTokens : Nat) (take : Nat → Bool → Nat) : Nat :=
  let config := cache.manager.toManagerConfig
  let numComputedTokens := numLocalComputedTokens + numExternalComputedTokens
  let load := loadCost config hits numLocalComputedTokens numExternalComputedTokens
  getNumEvictableBlocks cache.pool (hits.drop (leadingNulls config numComputedTokens)) + load +
    take (adoptedLength config hits numComputedTokens + load)
      (adoptedPartial config hits numLocalComputedTokens numExternalComputedTokens)

theorem base_adopting_le (fresh : Forgotten reqId cache.manager)
    (covers : numLocal + numExternal ≤ tokens)
    (ran :
      cache.baseNumBlocksToAllocate reqId tokens hits
        (numLocal + numExternal) numLocal
        false = .ok predicted) :
    adoptingCost cache hits numLocal numExternal
        (baseCost cache.manager.toManagerConfig tokens) ≤ predicted := by
  have untracked : cache.manager.numCachedBlock.contains reqId = false := by
    rw [Dict.contains, fresh.numCachedBlock]
    rfl
  unfold baseNumBlocksToAllocate at ran
  simp only [untracked, Bool.false_eq_true, if_false, fresh.table, length_nil,
    Nat.cast_zero, sub_zero, add_zero, Except.ok.injEq] at ran
  rw [← ran]
  have rounds := cdiv_mono covers cache.manager.blockSize
  have copies := copyCost_adoptedPartial_le cache.manager.toManagerConfig hits numLocal numExternal
  have loads := loadCost_cases cache.manager.toManagerConfig hits numLocal numExternal
  have required : numRequiredBlocks cache.manager.toManagerConfig tokens false =
        cdiv tokens cache.manager.blockSize := rfl
  have sameDrop : (max 0 (cache.manager.numSkippedBlocks (numLocal + numExternal))).toNat =
      leadingNulls cache.manager.toManagerConfig (numLocal + numExternal) := by
    unfold leadingNulls
    omega
  rw [sameDrop]
  unfold adoptingCost baseCost
  dsimp only
  unfold adoptedLength at loads ⊢
  rcases loads with nothing | ⟨loading, loads⟩ <;> omega

/-- Loading in `align` mode fills the table up to the block of the last token. -/
theorem loadCost_align (isAlign : config.isAlign = true) :
    loadCost config hits numLocal numExternal =
      if 0 < numExternal then
        cdiv (numLocal + numExternal) config.blockSize -
          adoptedLength config hits (numLocal + numExternal)
      else
        0 := by
  unfold ManagerConfig.isAlign at isAlign
  split at isAlign
  · rename_i isKind
    have notCross : config.isCrossAttention = false := by
      unfold ManagerConfig.isCrossAttention
      rw [isKind]
      rfl
    unfold loadCost
    split
    · have needed : ¬numNeededExternalTokens config numLocal numExternal ≤ 0 := by
        unfold numNeededExternalTokens
        rw [isKind]
        dsimp only [SpecKind.getNumSkippedTokens]
        split <;> omega
      rw [externalCost, notCross, if_neg (by simpa using needed)]
    · rfl
  · cases isAlign

/-- The prediction for aligned states: a copy and a state, or no more than is missing. -/
theorem alignToAllocate_eq
    (partialIs :
      (cache.manager.hasPartialLocalHit hits numLocal ||
        cache.manager.partialHitReqs.contains reqId) = isPartial) :
    cache.alignNumBlocksToAllocate reqId hits numLocal
        numMain =
      (if isPartial = true ∨ hits.length + (cache.manager.table reqId).length <
              cdiv numMain cache.manager.blockSize + cache.manager.numSpeculativeBlocks then
          1 + copyCost isPartial + (if reqId ∈ cache.manager.allocatedBlockReqs then 0
              else (cache.manager.numSpeculativeBlocks : Int))
        else
          (cdiv numMain cache.manager.blockSize : Int) + cache.manager.numSpeculativeBlocks -
            hits.length - (cache.manager.table reqId).length) +
        getNumEvictableBlocks cache.pool hits := by
  unfold alignNumBlocksToAllocate copyCost
  dsimp only
  rw [partialIs]
  cases isPartial with
  | true =>
    have needed (missing : Int) : 0 < max missing 0 + 1 := by omega
    simp only [if_true, needed, true_or]
    split <;> omega
  | false =>
    simp only [Bool.false_eq_true, if_false, false_or]
    by_cases missing : hits.length + (cache.manager.table reqId).length <
          cdiv numMain cache.manager.blockSize + cache.manager.numSpeculativeBlocks
    · rw [if_pos (by omega)]
      split <;> omega
    · rw [if_neg missing, if_neg (by omega)]

/-- A first aligned state takes at most one block beside the drafts and the copy. -/
theorem alignCost_fresh_le
    (config : ManagerConfig) (numMain length : Nat) (isPartial : Bool) :
    alignCost config numMain length isPartial false ≤ copyCost isPartial +
      (cdiv numMain config.blockSize + config.numSpeculativeBlocks -
        max length (cdiv numMain config.blockSize - 1)) := by
  unfold alignCost alignedLength
  simp only [Nat.add_sub_cancel, Bool.false_eq_true, if_false]
  split
  · exact Nat.zero_le _
  · exact Nat.le_refl _

theorem align_adopting_le (isAlign : cache.manager.isAlign = true)
    (fresh : Forgotten reqId cache.manager)
    (covers : numLocalComputedTokens + numExternal ≤ numMain)
    (foreseen :
      Foreseen cache.manager reqId hits numLocalComputedTokens
        numExternal numMain) :
    adoptingCost cache hits numLocalComputedTokens numExternal
        (alignCost cache.manager.toManagerConfig numMain · · false) ≤
      cache.alignNumBlocksToAllocate reqId hits numLocalComputedTokens
        numMain := by
  have rounds := cdiv_mono covers cache.manager.blockSize
  have drafts := foreseen.drafts isAlign
  have state := fun loads => foreseen.state loads isAlign
  have noHit : cache.manager.partialHitReqs.contains reqId = false := by
    rw [Dict.contains, fresh.partialHit]
    rfl
  have notAllocated := fresh.allocated isAlign
  have partialIs : (cache.manager.hasPartialLocalHit hits numLocalComputedTokens ||
        cache.manager.partialHitReqs.contains reqId) =
      cache.manager.hasPartialLocalHit hits numLocalComputedTokens := by
    rw [noHit, Bool.or_false]
  rw [alignToAllocate_eq partialIs, if_neg notAllocated, fresh.table]
  unfold adoptingCost
  dsimp only
  rw [loadCost_align isAlign]
  rw [noHit] at drafts
  have takes := alignCost_fresh_le cache.manager.toManagerConfig numMain
  unfold adoptedPartial adoptedLength
  rw [leadingNulls_align isAlign]
  generalize computedIs :
    cdiv (numLocalComputedTokens + numExternal) cache.manager.blockSize = computed at *
  have dropped := evictable_drop_le cache.pool (computed - 1) hits
  have partialKept :
      cache.manager.hasPartialLocalHit (hits.drop (computed - 1)) numLocalComputedTokens = true →
        computed - 1 < hits.length ∧
          cache.manager.hasPartialLocalHit hits numLocalComputedTokens = true :=
    partialHit_of_drop
  generalize cache.manager.hasPartialLocalHit (hits.drop (computed - 1))
    numLocalComputedTokens = keptPartial at *
  generalize cache.manager.hasPartialLocalHit hits numLocalComputedTokens = isPartial at *
  generalize loadIs :
    (if 0 < numExternal then computed - max (computed - 1) hits.length else 0) = load
  have takes := takes (max (computed - 1) hits.length + load) keptPartial
  -- External tokens need a block of their own only behind hits that end before them.
  have loads : load = 0 ∨ 0 < numExternal ∧ hits.length < computed := by
    split at loadIs <;> omega
  have loadsOne : load ≤ 1 := by split at loadIs <;> omega
  cases isPartial with
  | true =>
    rw [if_pos (.inl rfl)]
    cases keptPartial with
    | true => omega
    | false =>
      simp only [copyCost, if_true, Bool.false_eq_true, if_false] at takes ⊢
      omega
  | false =>
    have noCopy : keptPartial = false := by
      rw [← Bool.not_eq_true]
      intro isKept
      exact Bool.false_ne_true (partialKept isKept).2
    subst noCopy
    simp only [copyCost, Bool.false_eq_true, if_false, false_or, or_false,
      length_nil, add_zero] at takes drafts state ⊢
    split <;> omega

/-! ## A request that continues -/

theorem align_continuing_le
    (drafts :
      (cache.manager.table reqId).length ≤ cdiv numMain cache.manager.blockSize +
          cache.manager.numSpeculativeBlocks ∨
        cache.manager.partialHitReqs.contains reqId = true) :
    (alignCost cache.manager.toManagerConfig numMain
        (cache.manager.table reqId).length
        (cache.manager.partialHitReqs.contains reqId)
        (reqId ∈ cache.manager.allocatedBlockReqs) : Int) ≤
      cache.alignNumBlocksToAllocate reqId [] numLocal
        numMain := by
  rw [alignToAllocate_eq (show (cache.manager.hasPartialLocalHit [] numLocal ||
      cache.manager.partialHitReqs.contains reqId) =
        cache.manager.partialHitReqs.contains reqId from rfl)]
  unfold alignCost alignedLength getNumEvictableBlocks
  simp only [add_sub_cancel, length_nil, zero_add, countP_nil]
  generalize cache.manager.partialHitReqs.contains reqId = isPartial at *
  by_cases allocated : reqId ∈ cache.manager.allocatedBlockReqs <;>
    simp only [allocated, decide_true, decide_false, Bool.false_eq_true, if_false, if_true]
  all_goals
    cases isPartial with
    | true =>
      simp only [copyCost, Bool.not_true, Bool.and_false, Bool.false_eq_true, if_false,
        if_true, true_or]
      omega
    | false =>
      simp only [copyCost, Bool.not_false, Bool.and_true, Bool.false_eq_true, if_false,
        false_or, or_false, decide_eq_true_eq] at drafts ⊢
      split <;> split <;> omega

theorem base_continuing_le (noPartial : cache.manager.partialHitReqs.get? reqId = none)
    (covered :
      leadingNulls cache.manager.toManagerConfig totalComputedTokens ≤
        (cache.manager.table reqId).length)
    (ran :
      cache.baseNumBlocksToAllocate reqId tokens [] totalComputedTokens
        numLocal false = .ok predicted) :
    (baseCost cache.manager.toManagerConfig tokens
        (cache.manager.table reqId).length
        (cache.manager.partialHitReqs.contains reqId) : Int) ≤ predicted := by
  have noCopy : cache.manager.partialHitReqs.contains reqId = false := by
    rw [Dict.contains, noPartial]
    rfl
  rw [noCopy]
  unfold baseCost copyCost
  unfold baseNumBlocksToAllocate at ran
  dsimp only at ran
  have required : numRequiredBlocks cache.manager.toManagerConfig tokens false =
        cdiv tokens cache.manager.blockSize := rfl
  split at ran
  · cases ran
    simp only [Bool.false_eq_true, if_false]
    omega
  · cases ran
    unfold leadingNulls at covered
    simp only [ManagerConfig.hasPartialLocalHit, length_nil, lt_irrefl,
      decide_false, Bool.false_and, Bool.false_eq_true, if_false]
    omega

end GroupCache

end VllmCore
