import VllmCore.AlignLedger

namespace VllmCore

open Lib SingleTypeKVCacheManager List

/-!
# Caching and giving back

Caching changes no reference.  Giving blocks back moves references from a table to
the free list; the table keeps its length, since null blocks take the freed places.
-/

namespace GroupCache

variable {BlockHash : Type} {reqId : RequestId} {others free : List BlockId}
  {cache : GroupCache BlockHash}

/-! ## Giving back skipped blocks -/

section NullDown

variable {nullBlock : BlockId}

theorem length_nullDown (first last : Nat) (blocks : List BlockId) :
    (nullDown nullBlock first last blocks).2.length = blocks.length := by
  induction last generalizing blocks with
  | zero => rfl
  | succ last ih =>
    rw [nullDown]
    split
    · rfl
    dsimp only
    split
    · rfl
    · exact (ih _).trans length_set

variable {block : BlockId}

theorem mem_nullDown
    (mem :
      block ∈ (nullDown nullBlock first last blocks).1 ∨
        block ∈ (nullDown nullBlock first last blocks).2) :
    block ∈ blocks ∨ block = nullBlock := by
  induction last generalizing blocks with
  | zero =>
    rcases mem with impossible | kept
    · cases impossible
    · exact .inl kept
  | succ last ih =>
    rw [nullDown] at mem
    split at mem
    · rcases mem with impossible | kept
      · cases impossible
      · exact .inl kept
    dsimp only at mem
    split at mem
    · rcases mem with impossible | kept
      · cases impossible
      · exact .inl kept
    rename_i notNull
    have deeper : block = blocks.getD last nullBlock ∨
        block ∈ blocks.set last nullBlock ∨ block = nullBlock := by
      rcases mem with freed | kept
      · rcases mem_cons.mp freed with here | later
        · exact .inl here
        · exact .inr (ih (.inl later))
      · exact .inr (ih (.inr kept))
    rcases deeper with here | listed | isNull
    · rw [getD_eq_getElem?_getD] at here notNull
      cases found : blocks[last]? with
      | none =>
        rw [found] at notNull
        exact absurd rfl notNull
      | some other =>
        rw [found] at here
        exact .inl (here ▸ mem_of_getElem? found)
    · rcases mem_or_eq_of_mem_set listed with kept | isNull
      · exact .inl kept
      · exact .inr isNull
    · exact .inr isNull

/-- Every block, null ones aside, is freed or kept. -/
theorem count_nullDown (first last : Nat) (blocks : List BlockId) (notNull : block ≠ nullBlock) :
    (nullDown nullBlock first last blocks).1.count block +
        (nullDown nullBlock first last blocks).2.count block =
      blocks.count block := by
  induction last generalizing blocks with
  | zero => exact zero_add _
  | succ last ih =>
    rw [nullDown]
    split
    · exact zero_add _
    dsimp only
    split
    · exact zero_add _
    rename_i present
    have freed := ih (blocks.set last nullBlock)
    rw [getD_eq_getElem?_getD] at present ⊢
    cases found : blocks[last]? with
    | none =>
      rw [found] at present
      exact absurd rfl present
    | some other =>
      have traded := count_set_of_getElem? found nullBlock block
      have uncounted : [nullBlock].count block = 0 :=
        count_eq_zero.mpr (fun mem => notNull (mem_singleton.mp mem))
      dsimp only [Option.getD_some]
      rw [count_cons]
      rw [count_singleton] at traded
      omega

end NullDown

/-- Freed blocks leave the table, null blocks take their places. -/
theorem free_from_table (ledger : Ledger cache.pool free (cache.manager.references ++ others))
    (inside :
      ∀ block, block ∈ freed ∨ block ∈ remaining →
        block ∈ cache.manager.table reqId ∨ block = cache.pool.nullBlock)
    (counts :
      ∀ block, block ≠ cache.pool.nullBlock → freed.count block + remaining.count block =
          (cache.manager.table reqId).count block) :
    ∃ pool free', cache.pool.freeBlocks freed = .ok pool ∧ Spends reqId others 0 cache free
          ⟨pool, cache.manager.setTable reqId remaining⟩ free' := by
  have bounded :
      ∀ block, block ∈ freed ∨ block ∈ remaining → block < cache.pool.config.numGpuBlocks := by
    intro block mem
    rcases inside block mem with listed | isNull
    · exact ledger.inside block (mem_append_left _ (mem_references_of_table listed))
    · exact isNull ▸ ledger.null_inside
  obtain ⟨pool, free', released, after, same, grows⟩ :=
    (ledger_setTable ledger bounded counts).freeBlocks (.refl _)
  refine ⟨pool, free', released, after, grows, same.sameFrame, SameExcept.setTable _ _, ?_⟩
  intro sound
  exact ⟨sound.requestedCounts, sound.offloads⟩

theorem grown_setTable {manager : SingleTypeKVCacheManager BlockHash}
    (length : blocks.length = (manager.table reqId).length) :
    Grown reqId 0 manager (manager.setTable reqId blocks) := by
  refine ⟨?_, ⟨rfl, rfl, rfl⟩⟩
  rw [table_setTable, if_pos rfl, length]
  rfl

/-- Blocks went back to the pool; the table of the request kept its length. -/
abbrev Released (requestId : RequestId) (others : List BlockId) (cache : GroupCache BlockHash)
    (free : List BlockId) (after : GroupCache BlockHash) : Prop :=
  Grown requestId 0 cache.manager after.manager ∧
    ∃ free', Spends requestId others 0 cache free after free'

section

variable (ledger : Ledger cache.pool free (cache.manager.references ++ others))
include ledger

theorem removeBlocksInRange_meets {firstBlock lastBlock : Nat} :
    Meets Fault.NotValue (Released reqId others cache free)
      (cache.removeBlocksInRange reqId firstBlock lastBlock) := by
  unfold removeBlocksInRange
  split
  · exact ⟨⟨rfl, ⟨rfl, rfl, rfl⟩⟩, free, Spends.refl ledger⟩
  obtain ⟨pool, free', released, spends⟩ :=
    free_from_table ledger (fun block mem => mem_nullDown mem)
      (fun block notNull => count_nullDown firstBlock
        (min lastBlock (cache.manager.table reqId).length)
        (cache.manager.table reqId) notNull)
  dsimp only
  rw [released]
  exact ⟨grown_setTable (length_nullDown _ _ _), free', spends⟩

theorem baseRemoveSkipped_meets {processedComputedTokens : Nat} :
    Meets Fault.NotValue (Released reqId others cache free)
      (cache.baseRemoveSkippedBlocks reqId processedComputedTokens) := by
  unfold baseRemoveSkippedBlocks
  dsimp only
  split
  · exact ⟨⟨rfl, ⟨rfl, rfl, rfl⟩⟩, free, Spends.refl ledger⟩
  have listing := spends_relist reqId ledger
  refine (removeBlocksInRange_meets listing.ledger).mono ?_
  rintro after ⟨grown, free', spends⟩
  exact ⟨(grown_setTable rfl).trans grown, free', listing.trans spends⟩

end

section FreeOne

variable {nullBlock block other : BlockId} {blocks : List BlockId} {pos : Nat}

theorem mem_freeOne (found : blocks[pos]? = some block)
    (mem : other ∈ [block] ∨ other ∈ blocks.set pos nullBlock) :
    other ∈ blocks ∨ other = nullBlock := by
  rcases mem with here | kept
  · rw [mem_singleton.mp here]
    exact .inl (mem_of_getElem? found)
  · exact mem_or_eq_of_mem_set kept

theorem count_freeOne (found : blocks[pos]? = some block) (notNull : other ≠ nullBlock) :
    [block].count other + (blocks.set pos nullBlock).count other = blocks.count other := by
  have traded := count_set_of_getElem? found nullBlock other
  have uncounted : [nullBlock].count other = 0 :=
    count_eq_zero.mpr (fun mem => notNull (mem_singleton.mp mem))
  omega

end FreeOne

variable {processedComputedTokens : Nat}

section

variable (ledger : Ledger cache.pool free (cache.manager.references ++ others))
include ledger

theorem removeLastState_meets :
    Meets Fault.NotValue (Released reqId others cache free)
      (cache.removeLastState reqId processedComputedTokens) := by
  unfold removeLastState
  split
  · exact ⟨⟨rfl, ⟨rfl, rfl, rfl⟩⟩, free, Spends.refl ledger⟩
  split
  · refine meets_indexed.bind fun block found => ?_
    split
    · exact ⟨grown_setTable rfl, free, spends_relist reqId ledger⟩
    obtain ⟨pool, free', released, spends⟩ :=
      free_from_table ledger (fun other mem => mem_freeOne found mem)
        (fun other differs => count_freeOne found differs)
    rw [released]
    have nullBlock : pool.nullBlock = cache.pool.nullBlock := spends.frame.nullBlock
    show Grown _ _ _ (cache.manager.setTable reqId _) ∧ _
    rw [nullBlock]
    exact ⟨grown_setTable length_set, free', spends⟩
  · exact ⟨⟨rfl, ⟨rfl, rfl, rfl⟩⟩, free, Spends.refl ledger⟩

theorem removeSkippedBlocks_meets :
    Meets Fault.NotValue (Released reqId others cache free)
      (cache.removeSkippedBlocks reqId processedComputedTokens) := by
  refine (baseRemoveSkipped_meets ledger).bind ?_
  rintro removed ⟨grown, free', spends⟩
  split
  · refine (removeLastState_meets spends.ledger).mono ?_
    rintro after ⟨laterGrown, free'', later⟩
    exact ⟨grown.trans laterGrown, free'', spends.trans later⟩
  · exact ⟨grown, free', spends⟩

end

/-! ## Freeing a request -/

section Forget

/-- Nothing is left of a request. -/
structure Forgotten (requestId : RequestId)
    (manager : SingleTypeKVCacheManager BlockHash) : Prop where
  table : manager.table requestId = []
  numCachedBlock : manager.numCachedBlock.get? requestId = none
  partialHit : manager.partialHitReqs.get? requestId = none
  allocated : manager.isAlign = true → requestId ∉ manager.allocatedBlockReqs

variable {manager : SingleTypeKVCacheManager BlockHash}

theorem pop_forgotten : Forgotten reqId (manager.popBlocksForFree reqId).2 := by
  refine ⟨?_, ?_, ?_, ?_⟩
  · exact (Dict.getD_erase _ _ _ _).trans (if_pos rfl)
  · exact (Dict.get?_erase _).trans (if_pos rfl)
  · exact (Dict.get?_erase _).trans (if_pos rfl)
  · unfold SingleTypeKVCacheManager.popBlocksForFree dropAlignState
    split
    · intro _ mem
      simpa using (mem_filter.mp mem).2
    · intro isAlign
      contradiction

theorem sameExcept_pop :
    SameExcept reqId manager (manager.popBlocksForFree reqId).2 := by
  have dropping : SameExcept reqId manager (manager.dropAlignState reqId) := by
    unfold dropAlignState
    split
    · refine ⟨rfl, fun other differs => ⟨rfl, rfl, rfl, ?_⟩⟩
      simp [differs]
    · exact SameExcept.refl _
  refine dropping.trans ⟨rfl, fun other differs => ⟨?_, ?_, ?_, Iff.rfl⟩⟩
  · exact (Dict.getD_erase _ _ _ _).trans (if_neg differs)
  all_goals exact (Dict.get?_erase _).trans (if_neg differs)

/-- The references of a request go to the caller. -/
theorem references_pop
    (manager : SingleTypeKVCacheManager BlockHash) (reqId : RequestId) :
    manager.references.Perm
      ((manager.popBlocksForFree reqId).1 ++ (manager.popBlocksForFree reqId).2.references) := by
  have tables : (manager.dropAlignState reqId).reqToBlocks = manager.reqToBlocks ∧
      (manager.dropAlignState reqId).pendingCowCopies = manager.pendingCowCopies := by
    unfold dropAlignState
    split <;> exact ⟨rfl, rfl⟩
  have remaining : (manager.popBlocksForFree reqId).2.references =
      (manager.reqToBlocks.erase reqId).items ++
        manager.pendingCowCopies.flatMap fun copy => [copy.1, copy.2] := by
    rw [← tables.1, ← tables.2]
    rfl
  rw [remaining, ← append_assoc]
  exact (manager.reqToBlocks.items_perm reqId).append_right _

theorem sound_popBlocksForFree (sound : manager.Sound numGpu) :
    (manager.popBlocksForFree reqId).2.Sound numGpu := by
  have dropped : (manager.dropAlignState reqId).Sound numGpu := by
    unfold dropAlignState
    split
    · exact ⟨sound.requestedCounts, fun entry mem => sound.offloads entry (mem_filter.mp mem).1⟩
    · exact sound
  exact ⟨dropped.requestedCounts, dropped.offloads⟩

end Forget

theorem free_meets (ledger : Ledger cache.pool free (cache.manager.references ++ others)) :
    Meets Fault.NotValue (fun after =>
      Forgotten reqId after.manager ∧ ∃ free', Spends reqId others 0 cache free after free')
      (cache.free reqId) := by
  have held : (cache.manager.references ++ others).Perm
      ((cache.manager.popBlocksForFree reqId).1.reverse ++
        ((cache.manager.popBlocksForFree reqId).2.references ++ others)) := by
    rw [← append_assoc]
    refine ((references_pop cache.manager reqId).trans ?_).append_right _
    exact (reverse_perm _).symm.append_right _
  obtain ⟨pool, free', released, after, same, grows⟩ := ledger.freeBlocks held
  unfold GroupCache.free
  dsimp only
  rw [released]
  exact ⟨pop_forgotten, free', after, grows, same.sameFrame, sameExcept_pop, sound_popBlocksForFree⟩

/-! ## Caching -/

variable [DecidableEq BlockHash]

/-- Caching changes keys and the bookkeeping of one request, but no reference. -/
structure Cached (requestId : RequestId) (before after : GroupCache BlockHash) : Prop where
  step : BlockPool.CacheStep before.pool after.pool
  tables : ∀ other, after.manager.table other = before.manager.table other
  references : after.manager.references.Perm before.manager.references
  same : SameExcept requestId before.manager after.manager
  allocated : after.manager.allocatedBlockReqs = before.manager.allocatedBlockReqs
  partialHit :
    before.manager.isAlign = false → after.manager.partialHitReqs = before.manager.partialHitReqs
  requestedCounts : after.manager.requestedCounts = before.manager.requestedCounts
  offloads : after.manager.pendingPartialTailOffloads = before.manager.pendingPartialTailOffloads

namespace Cached

omit [DecidableEq BlockHash] in
theorem refl (coherent : BlockPool.CacheCoherent first.pool) : Cached reqId first first :=
  ⟨.refl coherent, fun _ => rfl, .refl _, .refl _, rfl, fun _ => rfl, rfl, rfl⟩

omit [DecidableEq BlockHash] in
theorem trans (before : Cached reqId first second) (later : Cached reqId second third) :
    Cached reqId first third := by
  have config : second.manager.isAlign = first.manager.isAlign :=
    congrArg ManagerConfig.isAlign before.same.config
  refine ⟨before.step.trans later.step, ?_, later.references.trans before.references,
    before.same.trans later.same, later.allocated.trans before.allocated, ?_,
    later.requestedCounts.trans before.requestedCounts,
    later.offloads.trans before.offloads⟩
  · intro other
    rw [later.tables, before.tables]
  · intro notAlign
    rw [later.partialHit (config.trans notAlign), before.partialHit notAlign]

end Cached

omit [DecidableEq BlockHash] in
/-- Listing a request that is read. -/
theorem cached_relist (coherent : BlockPool.CacheCoherent cache.pool) :
    Cached reqId cache
      { cache with
        manager := cache.manager.setTable reqId (cache.manager.table reqId) } := by
  refine ⟨.refl coherent, ?_, ?_, SameExcept.setTable _ _, rfl, fun _ => rfl, rfl, rfl⟩
  · intro other
    rw [table_setTable]
    split
    · rename_i same
      rw [same]
    · rfl
  · rw [perm_iff_count]
    intro block
    have balance := cache.manager.count_setTable reqId (cache.manager.table reqId) block
    dsimp only
    omega

variable (coherent : BlockPool.CacheCoherent cache.pool)
include coherent

variable {after : GroupCache BlockHash}

theorem baseCacheBlocks_cached
    (ran : cache.baseCacheBlocks request numTokens retention = .ok after) :
    Cached request.requestId cache after := by
  unfold baseCacheBlocks at ran
  dsimp only at ran
  split at ran
  · cases ran
    exact .refl coherent
  obtain ⟨blockMask, _, cached⟩ := bind_ok.mp ran
  obtain ⟨pool, caches, cached⟩ := bind_ok.mp cached
  cases cached
  refine (cached_relist coherent).trans ?_
  refine ⟨(coherent.cacheFullBlocks caches).step, fun _ => rfl, .refl _, ⟨rfl, ?_⟩, rfl,
    fun _ => rfl, rfl, rfl⟩
  intro other differs
  exact ⟨rfl, (Dict.get?_set _).trans (if_neg differs), rfl, Iff.rfl⟩

theorem cacheAttentionTail_cached
    (ran : cache.cacheAttentionTail request numTokens = .ok after) :
    Cached request.requestId cache after := by
  unfold cacheAttentionTail at ran
  dsimp only at ran
  split at ran
  · cases ran
    exact .refl coherent
  split at ran
  · cases ran
    exact .refl coherent
  split at ran
  · cases ran
    exact cached_relist coherent
  obtain ⟨⟨_, pool⟩, caches, cached⟩ := bind_ok.mp ran
  cases cached
  refine (cached_relist coherent).trans ?_
  exact ⟨(coherent.cachePartialBlock caches).step, fun _ => rfl, .refl _, .refl _, rfl,
    fun _ => rfl, rfl, rfl⟩

theorem cacheMambaTail_cached (isAlign : cache.manager.isAlign = true)
    (ran : cache.cacheMambaTail request numTokens = .ok after) :
    Cached request.requestId cache after := by
  unfold cacheMambaTail at ran
  dsimp only at ran
  split at ran
  · split at ran
    · cases ran
      exact .refl coherent
    split at ran
    · cases ran
      exact .refl coherent
    obtain ⟨⟨partialHash, pool⟩, caches, cached⟩ := bind_ok.mp ran
    cases cached
    have step := (coherent.cachePartialBlock caches).step
    cases partialHash with
    | none => exact ⟨step, fun _ => rfl, .refl _, .refl _, rfl, fun _ => rfl, rfl, rfl⟩
    | some key =>
      refine ⟨step, fun _ => rfl, .refl _, ⟨rfl, ?_⟩, rfl, ?_, rfl, rfl⟩
      · intro other differs
        exact ⟨rfl, (Dict.get?_set _).trans (if_neg differs),
          (Dict.get?_set _).trans (if_neg differs), Iff.rfl⟩
      · intro notAlign
        rw [isAlign] at notAlign
        cases notAlign
  · cases ran
    exact .refl coherent

theorem cacheTailIfAlign_cached (ran : cache.cacheTailIfAlign request numTokens = .ok after) :
    Cached request.requestId cache after := by
  unfold cacheTailIfAlign at ran
  split at ran
  · rename_i isAlign
    exact cacheMambaTail_cached coherent isAlign ran
  · cases ran
    exact .refl coherent

/-- Caching the blocks of a request changes no reference. -/
theorem cacheBlocks_cached
    (ran : cache.cacheBlocks request numTokens retention = .ok after) :
    Cached request.requestId cache after := by
  unfold cacheBlocks at ran
  split at ran
  · cases ran
  · obtain ⟨cached, caches, ran⟩ := bind_ok.mp ran
    have full := baseCacheBlocks_cached coherent caches
    split at ran
    · cases ran
      exact full
    · exact full.trans (cacheAttentionTail_cached full.step.coherent ran)
  · obtain ⟨cached, caches, ran⟩ := bind_ok.mp ran
    obtain ⟨tailed, tails, ran⟩ := bind_ok.mp ran
    cases ran
    have full := baseCacheBlocks_cached coherent caches
    have tail := cacheTailIfAlign_cached full.step.coherent tails
    refine (full.trans tail).trans ?_
    exact ⟨.refl tail.step.coherent, fun _ => rfl, .refl _,
      ⟨rfl, fun _ _ => ⟨rfl, rfl, rfl, Iff.rfl⟩⟩, rfl, fun _ => rfl, rfl, rfl⟩
  · exact baseCacheBlocks_cached coherent ran

end GroupCache

end VllmCore
