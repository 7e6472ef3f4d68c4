import VllmCore.BlockHashMaintenance
import VllmCore.BlockPoolCache

namespace VllmCore

open Function Lib List

/-!
# Invariants of the block pool

A pool is coherent when its free queue holds exactly the unreferenced blocks and
its prefix cache agrees with the keys recorded in the blocks.  Every operation
is described by what it does to the list of free blocks, the reference counts
and the keys; coherence of all reachable pools follows.
-/

namespace BlockPool

variable {BlockHash : Type} {pool after : BlockPool BlockHash}
  {free pending : List BlockId} {block : BlockId} {blocks : List BlockId}

/--
A pool whose free queue holds `free`.

While an operation is under way, `pending` lists unreferenced blocks that are
out of the queue.
-/
structure CoherentWith (pool : BlockPool BlockHash) (free pending : List BlockId) : Prop where
  cache : CacheCoherent pool
  queue : pool.freeBlockQueue.Holds free
  nodup : (free ++ pending).Nodup
  unreferenced_iff :
    ∀ block, block ∈ free ++ pending ↔
      block < pool.config.numGpuBlocks ∧ (pool.blocks block).isNull = false ∧
        (pool.blocks block).refCnt = 0
  null_iff : ∀ block, (pool.blocks block).isNull = true ↔ block = pool.nullBlock
  null_inside : pool.nullBlock < pool.config.numGpuBlocks
  refCnt_nonneg :
    ∀ block, (pool.blocks block).isNull = false → 0 ≤ (pool.blocks block).refCnt

/-- A pool between operations. -/
def Coherent (pool : BlockPool BlockHash) (free : List BlockId) : Prop :=
  CoherentWith pool free []

/-- Two pools differ at most in reference counts and the free queue. -/
structure SameKeys (pool after : BlockPool BlockHash) : Prop where
  config : after.config = pool.config
  nullBlock : after.nullBlock = pool.nullBlock
  cachedBlockHashToBlock : after.cachedBlockHashToBlock = pool.cachedBlockHashToBlock
  cachedBlockHashesByBlock : after.cachedBlockHashesByBlock = pool.cachedBlockHashesByBlock
  isNull : ∀ block, (after.blocks block).isNull = (pool.blocks block).isNull
  blockHash : ∀ block, (after.blocks block).blockHash = (pool.blocks block).blockHash
  blockHashNumTokens :
    ∀ block, (after.blocks block).blockHashNumTokens = (pool.blocks block).blockHashNumTokens

namespace SameKeys

theorem refl (pool : BlockPool BlockHash) : SameKeys pool pool :=
  ⟨rfl, rfl, rfl, rfl, fun _ => rfl, fun _ => rfl, fun _ => rfl⟩

theorem trans (before : SameKeys first second)
    (later : SameKeys second third) : SameKeys first third :=
  ⟨later.config.trans before.config, later.nullBlock.trans before.nullBlock,
    later.cachedBlockHashToBlock.trans before.cachedBlockHashToBlock,
    later.cachedBlockHashesByBlock.trans before.cachedBlockHashesByBlock,
    fun block => (later.isNull block).trans (before.isNull block),
    fun block => (later.blockHash block).trans (before.blockHash block),
    fun block => (later.blockHashNumTokens block).trans (before.blockHashNumTokens block)⟩

theorem holdsKey_iff (same : SameKeys pool after)
    (key : BlockHashWithGroupId BlockHash) (block : BlockId) :
    after.HoldsKey key block ↔ pool.HoldsKey key block := by
  simp only [HoldsKey, secondaryKeys, same.blockHash, same.cachedBlockHashesByBlock]

theorem cacheCoherent (same : SameKeys pool after) (coherent : CacheCoherent pool) :
    CacheCoherent after := by
  refine ⟨?_, ?_, ?_⟩
  · intro key block
    rw [same.holdsKey_iff, same.cachedBlockHashToBlock, coherent.listed_iff]
  · intro key block isNull
    rw [same.holdsKey_iff]
    rw [same.isNull] at isNull
    exact coherent.null_keyless key block isNull
  · intro block noHash
    rw [same.blockHash] at noHash
    rw [same.blockHashNumTokens]
    exact coherent.tokens_none block noHash

end SameKeys

theorem sameKeys_setQueue : SameKeys pool { pool with freeBlockQueue := queue } :=
  ⟨rfl, rfl, rfl, rfl, fun _ => rfl, fun _ => rfl, fun _ => rfl⟩

/-- Changing the count of one block changes nothing else. -/
theorem sameKeys_setRefCnt (pool : BlockPool BlockHash) (block : BlockId) (count : Int) :
    SameKeys pool
      (pool.setBlock block { pool.blocks block with refCnt := count }) := by
  have fields (other : BlockId) : ((pool.setBlock block
          { pool.blocks block with refCnt := count }).blocks other).isNull =
          (pool.blocks other).isNull ∧
        ((pool.setBlock block { pool.blocks block with refCnt := count }).blocks other).blockHash =
          (pool.blocks other).blockHash ∧
        ((pool.setBlock block
          { pool.blocks block with
            refCnt := count }).blocks other).blockHashNumTokens =
          (pool.blocks other).blockHashNumTokens := by
    by_cases same : other = block
    · subst same
      simp [setBlock]
    · simp [setBlock, same]
  exact ⟨rfl, rfl, rfl, rfl, fun other => (fields other).1,
    fun other => (fields other).2.1, fun other => (fields other).2.2⟩

theorem refCnt_setRefCnt (pool : BlockPool BlockHash) (block other : BlockId) (count : Int) :
    ((pool.setBlock block { pool.blocks block with refCnt := count }).blocks other).refCnt =
      if other = block then count else (pool.blocks other).refCnt := by
  by_cases same : other = block
  · subst same
    simp [setBlock]
  · simp [setBlock, same]

namespace CoherentWith

/-- A step of the cache part keeps the pool coherent. -/
theorem cacheStep (coherent : CoherentWith pool free pending) (step : CacheStep pool after) :
    CoherentWith after free pending := by
  refine ⟨step.coherent, ?_, coherent.nodup, ?_, ?_, ?_, ?_⟩
  · rw [step.same.freeBlockQueue]
    exact coherent.queue
  · intro block
    rw [step.same.config, step.same.isNull, step.same.refCnt, coherent.unreferenced_iff]
  · intro block
    rw [step.same.isNull, step.same.nullBlock, coherent.null_iff]
  · rw [step.same.nullBlock, step.same.config]
    exact coherent.null_inside
  · intro block notNull
    rw [step.same.isNull] at notNull
    rw [step.same.refCnt]
    exact coherent.refCnt_nonneg block notNull

/-- Recounting references keeps a pool coherent if the queue follows. -/
theorem recount (coherent : CoherentWith pool free pending)
    (same : SameKeys pool after) (queue : after.freeBlockQueue.Holds newFree)
    (nodup : (newFree ++ newPending).Nodup)
    (unreferenced_iff :
      ∀ block, block ∈ newFree ++ newPending ↔
        block < pool.config.numGpuBlocks ∧ (pool.blocks block).isNull = false ∧
          (after.blocks block).refCnt = 0)
    (refCnt_nonneg :
      ∀ block, (pool.blocks block).isNull = false → 0 ≤ (after.blocks block).refCnt) :
    CoherentWith after newFree newPending := by
  refine ⟨same.cacheCoherent coherent.cache, queue, nodup, ?_, ?_, ?_, ?_⟩
  · intro block
    rw [unreferenced_iff, same.config, same.isNull]
  · intro block
    rw [same.isNull, same.nullBlock, coherent.null_iff]
  · rw [same.nullBlock, same.config]
    exact coherent.null_inside
  · intro block notNull
    rw [same.isNull] at notNull
    exact refCnt_nonneg block notNull

end CoherentWith

/-! ## Taking references -/

/-- Touching a block of the pool takes it out of the queue and counts one more. -/
theorem CoherentWith.touchBlock (coherent : CoherentWith pool free [])
    (inside : block < pool.config.numGpuBlocks) :
    ∃ after, pool.touchBlock block = .ok after ∧ CoherentWith after (free.erase block) [] ∧
      SameKeys pool after ∧
      ∀ other, (after.blocks other).refCnt =
        (pool.blocks other).refCnt + if other = block then 1 else 0 := by
  have nodup : free.Nodup := by simpa using coherent.nodup
  have free_iff := coherent.unreferenced_iff
  simp only [append_nil] at free_iff
  obtain ⟨queue, claimed, holds⟩ :
      ∃ queue, pool.claimBlock block = .ok queue ∧ queue.Holds (free.erase block) := by
    unfold claimBlock
    by_cases unused : (pool.blocks block).refCnt = 0 ∧ !(pool.blocks block).isNull
    · rw [if_pos unused]
      exact coherent.queue.remove ((free_iff block).mpr ⟨inside, by simpa using unused.2, unused.1⟩)
    rw [if_neg unused]
    have notFree : block ∉ free := by
      intro mem
      have := (free_iff block).mp mem
      exact unused ⟨this.2.2, by simp [this.2.1]⟩
    rw [erase_of_not_mem notFree]
    exact ⟨_, rfl, coherent.queue⟩
  have counts (other : BlockId) : (({ pool with freeBlockQueue := queue }.setBlock block
          { pool.blocks block with
            refCnt := (pool.blocks block).refCnt + 1 }).blocks other).refCnt =
        (pool.blocks other).refCnt + if other = block then 1 else 0 := by
    rw [refCnt_setRefCnt { pool with freeBlockQueue := queue }]
    by_cases same : other = block <;> simp [same]
  have same : SameKeys pool ({ pool with freeBlockQueue := queue }.setBlock block
          { pool.blocks block with refCnt := (pool.blocks block).refCnt + 1 }) :=
    sameKeys_setQueue.trans (sameKeys_setRefCnt { pool with freeBlockQueue := queue } block _)
  refine ⟨_, by simp only [BlockPool.touchBlock, claimed, ok_bind],
    coherent.recount same holds (by simpa using nodup.erase block) ?_ ?_, same, counts⟩
  · intro other
    rw [append_nil, nodup.mem_erase_iff, free_iff, counts]
    by_cases equal : other = block
    · subst equal
      simp only [ne_eq, not_true, false_and, if_true, false_iff, not_and]
      intro _ notNull
      have := coherent.refCnt_nonneg other notNull
      omega
    · simp [equal]
  · intro other notNull
    have := coherent.refCnt_nonneg other notNull
    rw [counts]
    split <;> omega

/-- Touching blocks of the pool takes them out of the queue and counts each. -/
theorem Coherent.touch (coherent : Coherent pool free)
    (inside : ∀ block ∈ blocks, block < pool.config.numGpuBlocks) :
    ∃ after, pool.touch blocks = .ok after ∧ Coherent after (blocks.foldl List.erase free) ∧
      SameKeys pool after ∧
      ∀ other, (after.blocks other).refCnt = (pool.blocks other).refCnt + blocks.count other := by
  induction blocks generalizing pool free with
  | nil => exact ⟨pool, rfl, coherent, SameKeys.refl pool, by simp⟩
  | cons block rest ih =>
    obtain ⟨between, touched, betweenCoherent, betweenSame, betweenCounts⟩ :=
      CoherentWith.touchBlock coherent (inside block (by simp))
    obtain ⟨after, next, afterCoherent, afterSame, afterCounts⟩ :=
      ih betweenCoherent (by
        intro other mem
        rw [betweenSame.config]
        exact inside other (by simp [mem]))
    refine ⟨after, ?_, afterCoherent, betweenSame.trans afterSame, ?_⟩
    · unfold BlockPool.touch at next ⊢
      rw [foldlM_cons, touched]
      exact next
    · intro other
      rw [afterCounts, betweenCounts]
      by_cases same : other = block
      · subst same
        simp
        omega
      · have nodup : ¬ block = other := fun equal => same equal.symm
        simp [same, nodup]

/-! ## Handing out blocks -/

/-- Popping blocks off the queue makes them pending. -/
theorem Coherent.popleftN (coherent : Coherent pool free) {count : Nat}
    (enough : count ≤ free.length) :
    ∃ queue, pool.freeBlockQueue.popleftN count = .ok (free.take count, queue) ∧
      CoherentWith { pool with freeBlockQueue := queue }
          (free.drop count) (free.take count) := by
  obtain ⟨queue, popped, holds⟩ := coherent.queue.popleftN enough
  have reordered : (free.drop count ++ free.take count).Perm free :=
    perm_append_comm.trans (Perm.of_eq (take_append_drop count free))
  have nodup : free.Nodup := by simpa using coherent.nodup
  refine ⟨queue, popped, coherent.recount sameKeys_setQueue holds
    (reordered.nodup_iff.mpr nodup) ?_ coherent.refCnt_nonneg⟩
  intro block
  rw [reordered.mem_iff]
  simpa using coherent.unreferenced_iff block

section Allocation

variable [DecidableEq BlockHash]

/-- Handing out a pending block evicts it from the cache and counts one. -/
theorem CoherentWith.allocateBlock
    (coherent : CoherentWith pool free (block :: pending)) :
    ∃ after, pool.allocateBlock block = .ok after ∧ CoherentWith after free pending ∧
      after.config = pool.config ∧
      (∀ other, (after.blocks other).isNull = (pool.blocks other).isNull ∧
        (after.blocks other).refCnt = (pool.blocks other).refCnt + if other = block then 1 else 0) ∧
      ∀ key other, after.HoldsKey key other ↔ pool.HoldsKey key other ∧
          (pool.config.enableCaching = true → other ≠ block) := by
  let evicted := if pool.config.enableCaching then pool.maybeEvictCachedBlock block else pool
  have eviction : CacheChange pool evicted (fun key other =>
      pool.HoldsKey key other ∧ (pool.config.enableCaching = true → other ≠ block)) := by
    by_cases caching : pool.config.enableCaching = true
    · have change := coherent.cache.maybeEvictCachedBlock block
      simp only [evicted, caching, if_true, forall_const]
      exact change
    have kept : evicted = pool := if_neg caching
    rw [kept]
    exact ⟨SameCounts.refl pool, coherent.cache,
      fun _ _ => (and_iff_left fun enabled => absurd enabled caching).symm⟩
  have evictedCoherent := coherent.cacheStep eviction.step
  have unreferenced := (evictedCoherent.unreferenced_iff block).mp (by simp)
  have counts := refCnt_setRefCnt evicted block
  have same := sameKeys_setRefCnt evicted block ((evicted.blocks block).refCnt + 1)
  have parts := nodup_append.mp evictedCoherent.nodup
  have notPending : block ∉ pending := (nodup_cons.mp parts.2.1).1
  have notFree : block ∉ free := fun inFree => parts.2.2 block inFree block (by simp) rfl
  refine ⟨_, ?_, evictedCoherent.recount same evictedCoherent.queue ?_ ?_ ?_, ?_, ?_, ?_⟩
  · simp only [BlockPool.allocateBlock]
    rw [ensure_of unreferenced.2.2, ok_bind]
  · exact evictedCoherent.nodup.sublist (Sublist.append_left (sublist_cons_self block pending) free)
  · intro other
    have old := evictedCoherent.unreferenced_iff other
    rw [counts]
    by_cases equal : other = block
    · subst equal
      simp [notFree, notPending, unreferenced.2.2]
    · simpa [equal] using old
  · intro other notNull
    have := evictedCoherent.refCnt_nonneg other notNull
    rw [counts]
    split <;> omega
  · exact same.config.trans eviction.same.config
  · intro other
    refine ⟨(same.isNull other).trans (eviction.same.isNull other), ?_⟩
    rw [counts]
    by_cases equal : other = block
    · subst equal
      simp [eviction.same.refCnt]
    · simp [equal, eviction.same.refCnt]
  · intro key other
    rw [same.holdsKey_iff, eviction.holdsKey_iff]

/-- Handing out all pending blocks. -/
theorem CoherentWith.allocateAll
    (coherent : CoherentWith pool free blocks) :
    ∃ after, blocks.foldlM BlockPool.allocateBlock pool = .ok after ∧ Coherent after free ∧
      after.config = pool.config ∧
      (∀ other, (after.blocks other).isNull = (pool.blocks other).isNull ∧
        (after.blocks other).refCnt = (pool.blocks other).refCnt + blocks.count other) ∧
      ∀ key other, after.HoldsKey key other ↔ pool.HoldsKey key other ∧
          (pool.config.enableCaching = true → other ∉ blocks) := by
  induction blocks generalizing pool with
  | nil => exact ⟨pool, rfl, coherent, rfl, by simp, by simp⟩
  | cons block rest ih =>
    obtain ⟨between, handed, betweenCoherent, betweenConfig, betweenCounts,
      betweenKeys⟩ := coherent.allocateBlock
    obtain ⟨after, next, afterCoherent, afterConfig, afterCounts, afterKeys⟩ := ih betweenCoherent
    refine ⟨after, ?_, afterCoherent, afterConfig.trans betweenConfig, ?_, ?_⟩
    · rw [foldlM_cons, handed]
      exact next
    · intro other
      refine ⟨(afterCounts other).1.trans (betweenCounts other).1, ?_⟩
      rw [(afterCounts other).2, (betweenCounts other).2]
      by_cases same : other = block
      · subst same
        simp
        omega
      · have nodup : ¬ block = other := fun equal => same equal.symm
        simp [same, nodup]
    · intro key other
      rw [afterKeys, betweenKeys, betweenConfig, mem_cons]
      tauto

/-- Asking for no more blocks than are free hands out the first free ones. -/
theorem Coherent.getNewBlocks (coherent : Coherent pool free) {count : Nat}
    (enough : count ≤ free.length) :
    ∃ after, pool.getNewBlocks count = .ok (free.take count, after) ∧
      Coherent after (free.drop count) ∧
      after.config = pool.config ∧
      (∀ other, (after.blocks other).isNull = (pool.blocks other).isNull ∧
        (after.blocks other).refCnt = (pool.blocks other).refCnt + (free.take count).count other) ∧
      ∀ key other, after.HoldsKey key other ↔ pool.HoldsKey key other ∧
          (pool.config.enableCaching = true → other ∉ free.take count) := by
  obtain ⟨queue, popped, pendingCoherent⟩ := coherent.popleftN enough
  obtain ⟨after, handed, afterCoherent, config, counts, keys⟩ := pendingCoherent.allocateAll
  have available : ¬ pool.getNumFreeBlocks < (count : Int) := by
    rw [getNumFreeBlocks, coherent.queue.numFreeBlocks]
    omega
  refine ⟨after, ?_, afterCoherent, config, counts, ?_⟩
  · simp only [BlockPool.getNewBlocks, available, if_false, popped, ok_bind, handed]
  · intro key other
    rw [keys]
    rfl

/-- Asking for more blocks than are free raises. -/
theorem Coherent.getNewBlocks_eq_error (coherent : Coherent pool free) {count : Int}
    (tooMany : (free.length : Int) < count) :
    pool.getNewBlocks count = .error (.value s!"Cannot get {count} free blocks from the pool") := by
  have short : pool.getNumFreeBlocks < count := by
    rw [getNumFreeBlocks, coherent.queue.numFreeBlocks]
    exact tooMany
  simp only [BlockPool.getNewBlocks, short, if_true]

end Allocation

/-! ## Dropping references -/

theorem CoherentWith.perm (coherent : CoherentWith pool free pending)
    (perm : pending.Perm reordered) : CoherentWith pool free reordered := by
  have whole : (free ++ pending).Perm (free ++ reordered) := perm.append_left free
  refine ⟨coherent.cache, coherent.queue, whole.nodup_iff.mp coherent.nodup, ?_,
    coherent.null_iff, coherent.null_inside, coherent.refCnt_nonneg⟩
  intro block
  rw [← whole.mem_iff, coherent.unreferenced_iff]

/-- Dropping one reference; the block becomes pending if it was the last one. -/
theorem CoherentWith.dropReference (coherent : CoherentWith pool free pending)
    (inside : block < pool.config.numGpuBlocks)
    (referenced : (pool.blocks block).isNull = false → 1 ≤ (pool.blocks block).refCnt) :
    CoherentWith
      (pool.setBlock block { pool.blocks block with refCnt := (pool.blocks block).refCnt - 1 })
      free
      (if (pool.blocks block).refCnt - 1 = 0 ∧ !(pool.blocks block).isNull then
        block :: pending else pending) := by
  have counts := refCnt_setRefCnt pool block
  have same := sameKeys_setRefCnt pool block ((pool.blocks block).refCnt - 1)
  have outside (notNull : (pool.blocks block).isNull = false) : block ∉ free ++ pending := by
    intro mem
    have unreferenced := (coherent.unreferenced_iff block).mp mem
    have := referenced notNull
    omega
  have nonneg : ∀ other, (pool.blocks other).isNull = false → 0 ≤ ((pool.setBlock block
      { pool.blocks block with
        refCnt := (pool.blocks block).refCnt - 1 }).blocks other).refCnt := by
    intro other notNull
    rw [counts]
    by_cases equal : other = block
    · subst equal
      have := referenced notNull
      omega
    · simp only [equal, if_false]
      exact coherent.refCnt_nonneg other notNull
  by_cases last : (pool.blocks block).refCnt - 1 = 0 ∧ !(pool.blocks block).isNull
  · rw [if_pos last]
    have notNull : (pool.blocks block).isNull = false := by simpa using last.2
    have fresh := outside notNull
    refine coherent.recount same coherent.queue ?_ ?_ nonneg
    · rw [nodup_middle]
      exact nodup_cons.mpr ⟨fresh, coherent.nodup⟩
    · intro other
      have old := coherent.unreferenced_iff other
      rw [counts]
      by_cases equal : other = block
      · subst equal
        simp [inside, notNull, last.1]
      · simpa [equal] using old
  · rw [if_neg last]
    refine coherent.recount same coherent.queue coherent.nodup ?_ nonneg
    intro other
    rw [coherent.unreferenced_iff, counts]
    by_cases equal : other = block
    · subst equal
      simp only [if_true]
      refine and_congr_right fun _ => and_congr_right fun notNull => ?_
      have := referenced notNull
      have notLast : ¬ (pool.blocks other).refCnt - 1 = 0 :=
        fun zero => last ⟨zero, by simp [notNull]⟩
      constructor
      · intro zero
        omega
      · intro zero
        exact absurd zero notLast
    · simp [equal]

section

variable {withoutHash withHash : List BlockId}
    (coherent : CoherentWith pool free (withoutHash ++ withHash))
include coherent

/-- One round of the releasing loop. -/
theorem CoherentWith.releaseBlock (inside : block < pool.config.numGpuBlocks)
    (referenced : (pool.blocks block).isNull = false → 1 ≤ (pool.blocks block).refCnt) :
    ∃ after newWithout newWith, BlockPool.releaseBlock (pool, withoutHash, withHash) block =
        (after, newWithout, newWith) ∧
      CoherentWith after free (newWithout ++ newWith) ∧
      SameKeys pool after ∧
      ∀ other, (after.blocks other).refCnt =
          (pool.blocks other).refCnt - if other = block then 1 else 0 := by
  have dropped := coherent.dropReference inside referenced
  have same := sameKeys_setRefCnt pool block ((pool.blocks block).refCnt - 1)
  have counts (other : BlockId) : ((pool.setBlock block
          { pool.blocks block with
            refCnt := (pool.blocks block).refCnt - 1 }).blocks other).refCnt =
        (pool.blocks other).refCnt - if other = block then 1 else 0 := by
    rw [refCnt_setRefCnt]
    by_cases equal : other = block <;> simp [equal]
  by_cases last : (pool.blocks block).refCnt - 1 = 0 ∧ !(pool.blocks block).isNull
  · rw [if_pos last] at dropped
    by_cases keyless : ((pool.blocks block).blockHash.isNone && pool.config.enableCaching) = true
    · refine ⟨_, withoutHash ++ [block], withHash, ?_, dropped.perm ?_, same, counts⟩
      · simp only [BlockPool.releaseBlock]
        rw [if_pos last, if_pos keyless]
      · rw [append_assoc]
        exact perm_middle.symm
    refine ⟨_, withoutHash, withHash ++ [block], ?_, dropped.perm ?_, same, counts⟩
    · simp only [BlockPool.releaseBlock]
      rw [if_pos last, if_neg keyless]
    · rw [← append_assoc]
      exact (perm_append_singleton block _).symm
  · rw [if_neg last] at dropped
    refine ⟨_, withoutHash, withHash, ?_, dropped, same, counts⟩
    simp only [BlockPool.releaseBlock]
    rw [if_neg last]

/-- The releasing loop drops one reference for each occurrence. -/
theorem CoherentWith.releaseAll
    (inside : ∀ block ∈ blocks, block < pool.config.numGpuBlocks)
    (covered :
      ∀ block ∈ blocks, (pool.blocks block).isNull = false →
        (blocks.count block : Int) ≤ (pool.blocks block).refCnt) :
    ∃ after newWithout newWith, blocks.foldl BlockPool.releaseBlock (pool, withoutHash, withHash) =
          (after, newWithout, newWith) ∧
        CoherentWith after free (newWithout ++ newWith) ∧
        SameKeys pool after ∧
        ∀ other, (after.blocks other).refCnt = (pool.blocks other).refCnt - blocks.count other := by
  induction blocks generalizing pool withoutHash withHash with
  | nil => exact ⟨pool, withoutHash, withHash, rfl, coherent, SameKeys.refl pool, by simp⟩
  | cons block rest ih =>
    obtain ⟨between, betweenWithout, betweenWith, released, betweenCoherent,
      betweenSame, betweenCounts⟩ :=
      coherent.releaseBlock (inside block (by simp)) (by
        intro notNull
        have := covered block (by simp) notNull
        rw [count_cons_self] at this
        omega)
    obtain ⟨after, newWithout, newWith, done, afterCoherent, afterSame,
      afterCounts⟩ := ih betweenCoherent
      (by
        intro other mem
        rw [betweenSame.config]
        exact inside other (by simp [mem]))
      (by
        intro other mem notNull
        rw [betweenSame.isNull] at notNull
        have := covered other (by simp [mem]) notNull
        rw [betweenCounts]
        by_cases equal : other = block
        · subst equal
          simp at this ⊢
          omega
        have nodup : ¬ block = other := fun same => equal same.symm
        simp [nodup] at this
        simp [equal]
        exact this)
    refine ⟨after, newWithout, newWith, ?_, afterCoherent, betweenSame.trans afterSame, ?_⟩
    · rw [foldl_cons, released, done]
    · intro other
      rw [afterCounts, betweenCounts]
      by_cases equal : other = block
      · subst equal
        simp
        omega
      · have nodup : ¬ block = other := fun same => equal same.symm
        simp [equal, nodup]

end

/-- Freeing covered blocks returns the unreferenced ones to the queue. -/
theorem Coherent.freeBlocks (coherent : Coherent pool free)
    (inside : ∀ block ∈ blocks, block < pool.config.numGpuBlocks)
    (covered :
      ∀ block ∈ blocks, (pool.blocks block).isNull = false →
        (blocks.count block : Int) ≤ (pool.blocks block).refCnt) :
    ∃ after first last, pool.freeBlocks blocks = .ok after ∧
        Coherent after (first ++ free ++ last) ∧
        SameKeys pool after ∧
        ∀ other, (after.blocks other).refCnt = (pool.blocks other).refCnt - blocks.count other := by
  obtain ⟨released, withoutHash, withHash, looped, pendingCoherent, same, counts⟩ :=
    CoherentWith.releaseAll (show CoherentWith pool free ([] ++ []) from coherent) inside covered
  have parts := nodup_append.mp pendingCoherent.nodup
  have pendingParts := nodup_append.mp parts.2.1
  obtain ⟨prepended, prepends, prependedHolds⟩ :=
    pendingCoherent.queue.prependN pendingParts.1 (fun block mem inFree =>
        parts.2.2 block inFree block (by simp [mem]) rfl)
  obtain ⟨queue, appends, holds⟩ :=
    prependedHolds.appendN pendingParts.2.1 (by
      intro block mem inFront
      rcases mem_append.mp inFront with inWithout | inFree
      · exact pendingParts.2.2 block inWithout block mem rfl
      · exact parts.2.2 block inFree block (by simp [mem]) rfl)
  have reordered : (withoutHash ++ free ++ withHash).Perm (free ++ (withoutHash ++ withHash)) := by
    rw [← append_assoc]
    exact perm_append_comm.append_right withHash
  refine ⟨{ released with freeBlockQueue := queue }, withoutHash, withHash, ?_, ?_,
    same.trans sameKeys_setQueue, counts⟩
  · unfold BlockPool.freeBlocks
    rw [looped]
    simp only [prepends, appends, ok_bind]
  refine pendingCoherent.recount sameKeys_setQueue holds ?_ ?_ pendingCoherent.refCnt_nonneg
  · rw [append_nil]
    exact reordered.nodup_iff.mpr pendingCoherent.nodup
  · intro block
    rw [append_nil, reordered.mem_iff, pendingCoherent.unreferenced_iff]

/-! ## Reachable pools -/

/-- The constructor makes block 0 the null block and frees all others. -/
theorem coherent_init (config : PoolConfig BlockHash) :
    ∃ pool, init config = .ok pool ∧ pool.config = config ∧
      Coherent pool (range' 1 (config.numGpuBlocks - 1)) := by
  have whole : range config.numGpuBlocks = 0 :: range' 1 (config.numGpuBlocks - 1) := by
    rw [range_eq_range']
    obtain ⟨count, total⟩ := Nat.exists_eq_add_of_lt config.numGpuBlocks_pos
    rw [total]
    simp [range'_succ]
  have initial := FreeKVCacheBlockQueue.holds_init config.numGpuBlocks
  rw [whole] at initial
  obtain ⟨queue, popped, holds⟩ := initial.popleft
  have made (block : Nat) : update (fun _ => ({} : KVCacheBlock BlockHash)) 0
      { isNull := true } block = { isNull := block == 0 } := by
    by_cases equal : block = 0 <;> simp [equal]
  refine ⟨_, by simp only [init, popped, ok_bind]; rfl, rfl, ?_⟩
  refine ⟨⟨?_, ?_, ?_⟩, holds, ?_, ?_, ?_, config.numGpuBlocks_pos, ?_⟩
  · intro key block
    simp [BlockHashToBlockMap.listed, BlockHashToBlockMap.empty, HoldsKey, secondaryKeys, made]
  · intro key block _
    simp [HoldsKey, secondaryKeys, made]
  · intro block _
    simp [made]
  · simpa using nodup_range'
  · intro (block : Nat)
    change _ ↔ block < config.numGpuBlocks ∧ _ ∧ _
    simp [mem_range'_1, made]
    omega
  · intro block
    simp [made]
  · intro block _
    simp [made]

variable {config : PoolConfig BlockHash}

/-- A new pool holds no keys. -/
theorem refCnt_init (made : init config = .ok pool)
    (notNull : (pool.blocks block).isNull = false) : (pool.blocks block).refCnt = 0 := by
  obtain ⟨⟨null, queue⟩, _, constructed⟩ := bind_ok.mp made
  cases constructed
  by_cases isNull : block = null
  · simp [isNull] at notNull
  · simp [isNull]

theorem not_holdsKey_init (made : init config = .ok pool)
    (key : BlockHashWithGroupId BlockHash) (block : BlockId) : ¬ pool.HoldsKey key block := by
  obtain ⟨⟨null, queue⟩, _, constructed⟩ := bind_ok.mp made
  cases constructed
  by_cases isNull : block = null <;> simp [HoldsKey, secondaryKeys, isNull]

end BlockPool

/-- The mutating operations of a pool. -/
inductive PoolOp (BlockHash : Type) where
  | getNewBlocks (numBlocks : Int)
  | touch (blocks : List BlockId)
  | freeBlocks (orderedBlocks : List BlockId)
  | cacheFullBlocks (request : HashedRequest BlockHash) (blocks : List BlockId)
    (numCachedBlocks numFullBlocks blockSize kvCacheGroupId : Nat)
    (blockMask : Option (List Bool))
  | cachePartialBlock (request : HashedRequest BlockHash) (block : BlockId)
    (numTokens kvCacheGroupId blockSize : Nat)
  | moveBlockHashes (srcBlock dstBlock : BlockId)
  | evictBlocks (blockIds : List Int)
  | resetPrefixCache

namespace PoolOp

variable {BlockHash : Type} [DecidableEq BlockHash]

variable (pool : BlockPool BlockHash)

/-- Run one operation. -/
def apply :
    PoolOp BlockHash → Outcome (BlockPool BlockHash)
  | .getNewBlocks numBlocks => do
      let result ← pool.getNewBlocks numBlocks
      .ok result.2
  | .touch blocks => pool.touch blocks
  | .freeBlocks orderedBlocks => pool.freeBlocks orderedBlocks
  | .cacheFullBlocks request blocks numCachedBlocks numFullBlocks blockSize
      kvCacheGroupId blockMask =>
      pool.cacheFullBlocks request blocks numCachedBlocks numFullBlocks blockSize
        kvCacheGroupId blockMask
  | .cachePartialBlock request block numTokens kvCacheGroupId blockSize => do
      let result ←
        pool.cachePartialBlock request block numTokens kvCacheGroupId blockSize
      .ok result.2
  | .moveBlockHashes srcBlock dstBlock => pool.moveBlockHashes srcBlock dstBlock
  | .evictBlocks blockIds => pool.evictBlocks blockIds
  | .resetPrefixCache => .ok pool.resetPrefixCache.2

/-- References are taken and dropped on blocks of the pool, never too many dropped. -/
def Balanced : PoolOp BlockHash → Prop
  | .touch blocks => ∀ block ∈ blocks, block < pool.config.numGpuBlocks
  | .freeBlocks orderedBlocks =>
    ∀ block ∈ orderedBlocks, block < pool.config.numGpuBlocks ∧
        ((pool.blocks block).isNull = false →
          (orderedBlocks.count block : Int) ≤ (pool.blocks block).refCnt)
  | _ => True

/-- Block counts are not negative and keys are not moved to the null block. -/
def Sane : PoolOp BlockHash → Prop
  | .getNewBlocks numBlocks => 0 ≤ numBlocks
  | .moveBlockHashes _ dstBlock => dstBlock ≠ pool.nullBlock
  | _ => True

instance decidableBalanced :
    DecidablePred (Balanced pool)
  | .getNewBlocks _ => isTrue trivial
  | .touch _ => inferInstanceAs (Decidable (∀ _ ∈ _, _))
  | .freeBlocks _ => inferInstanceAs (Decidable (∀ _ ∈ _, _ ∧ (_ → _)))
  | .cacheFullBlocks .. => isTrue trivial
  | .cachePartialBlock .. => isTrue trivial
  | .moveBlockHashes .. => isTrue trivial
  | .evictBlocks _ => isTrue trivial
  | .resetPrefixCache => isTrue trivial

instance decidableSane :
    DecidablePred (Sane pool)
  | .getNewBlocks _ => inferInstanceAs (Decidable (_ ≤ _))
  | .touch _ => isTrue trivial
  | .freeBlocks _ => isTrue trivial
  | .cacheFullBlocks .. => isTrue trivial
  | .cachePartialBlock .. => isTrue trivial
  | .moveBlockHashes .. => inferInstanceAs (Decidable (_ ≠ _))
  | .evictBlocks _ => isTrue trivial
  | .resetPrefixCache => isTrue trivial

end PoolOp

namespace BlockPool

variable {BlockHash : Type} [DecidableEq BlockHash]

/-- Pools reached from the constructor by operations that are allowed and return. -/
inductive Reachable
    (allowed : BlockPool BlockHash → PoolOp BlockHash → Prop)
    (config : PoolConfig BlockHash) :
    BlockPool BlockHash → Prop where
  | init {pool : BlockPool BlockHash} (constructed : BlockPool.init config = .ok pool) :
    Reachable allowed config pool
  | step {pool after : BlockPool BlockHash} (reachable : Reachable allowed config pool)
    (op : PoolOp BlockHash) (isAllowed : allowed pool op) (returned : op.apply pool = .ok after) :
    Reachable allowed config after

/-- Run operations one after the other, each of which has to be allowed. -/
def run (allowed : BlockPool BlockHash → PoolOp BlockHash → Prop)
    [∀ pool, DecidablePred (allowed pool)]
    (config : PoolConfig BlockHash) (ops : List (PoolOp BlockHash)) :
    Outcome (BlockPool BlockHash) := do
  let pool ← init config
  ops.foldlM (fun pool op => do
    ensure (allowed pool op)
    op.apply pool) pool

variable {config : PoolConfig BlockHash} {pool : BlockPool BlockHash}

theorem reachable_of_run
    [∀ pool, DecidablePred (allowed pool)]
    (ran : run allowed config ops = .ok pool) : Reachable allowed config pool := by
  obtain ⟨start, constructed, next⟩ := bind_ok.mp ran
  refine foldlM_preserves (Reachable allowed config) ?_ (.init constructed) next
  intro pool op after _ reachable stepped
  obtain ⟨_, isAllowed, returned⟩ := bind_ok.mp stepped
  exact reachable.step op (ensure_eq_ok.mp isAllowed) returned

/-- Every balanced and sane operation that returns leaves a coherent pool. -/
theorem Coherent.apply {pool after : BlockPool BlockHash}
    (coherent : Coherent pool free) (op : PoolOp BlockHash) (balanced : op.Balanced pool)
    (sane : op.Sane pool) (ran : op.apply pool = .ok after) :
    ∃ newFree, Coherent after newFree := by
  cases op with
  | getNewBlocks numBlocks =>
    obtain ⟨result, handed, rfl⟩ : ∃ result,
        pool.getNewBlocks numBlocks = .ok result ∧ result.2 = after := by
      obtain ⟨result, handed, same⟩ := bind_ok.mp ran
      exact ⟨result, handed, Except.ok.inj same⟩
    obtain ⟨count, rfl⟩ := Int.eq_ofNat_of_zero_le sane
    rcases lt_or_ge free.length count with short | enough
    · have raises := coherent.getNewBlocks_eq_error (Int.ofNat_lt.mpr short)
      rw [raises] at handed
      cases handed
    obtain ⟨allocated, succeeds, allocatedCoherent, _⟩ := coherent.getNewBlocks enough
    rw [succeeds] at handed
    cases handed
    exact ⟨_, allocatedCoherent⟩
  | touch blocks =>
    obtain ⟨touched, succeeds, touchedCoherent, _⟩ := coherent.touch balanced
    rw [show pool.touch blocks = .ok after from ran] at succeeds
    cases succeeds
    exact ⟨_, touchedCoherent⟩
  | freeBlocks orderedBlocks =>
    obtain ⟨freed, first, last, succeeds, freedCoherent, _⟩ :=
      coherent.freeBlocks (fun block mem => (balanced block mem).1)
        (fun block mem => (balanced block mem).2)
    rw [show pool.freeBlocks orderedBlocks = .ok after from ran] at succeeds
    cases succeeds
    exact ⟨_, freedCoherent⟩
  | cacheFullBlocks =>
    exact ⟨free, coherent.cacheStep (coherent.cache.cacheFullBlocks ran).step⟩
  | cachePartialBlock =>
    obtain ⟨result, cached, same⟩ := bind_ok.mp ran
    cases same
    exact ⟨free, coherent.cacheStep (coherent.cache.cachePartialBlock cached).step⟩
  | moveBlockHashes srcBlock dstBlock =>
    have notNull : (pool.blocks dstBlock).isNull = false := by
      rw [← Bool.not_eq_true, coherent.null_iff]
      exact sane
    exact ⟨free, coherent.cacheStep (coherent.cache.moveBlockHashes notNull ran).1⟩
  | evictBlocks => exact ⟨free, coherent.cacheStep (coherent.cache.evictBlocks ran).step⟩
  | resetPrefixCache =>
    cases ran
    exact ⟨free, coherent.cacheStep coherent.cache.resetPrefixCache.step⟩

theorem Reachable.coherent
    (reachable : Reachable (fun pool op => op.Balanced pool ∧ op.Sane pool) config pool) :
    ∃ free, Coherent pool free := by
  induction reachable with
  | init constructed =>
    obtain ⟨pool, succeeds, _, coherent⟩ := coherent_init config
    rw [constructed] at succeeds
    cases succeeds
    exact ⟨_, coherent⟩
  | step _ op isAllowed ran ih =>
    obtain ⟨free, coherent⟩ := ih
    exact coherent.apply op isAllowed.1 isAllowed.2 ran

/--
In every pool reached by balanced and sane operations the free queue holds
exactly the unreferenced blocks, a key maps to a block exactly when it is
recorded with it, and the null block is neither free nor cached.
-/
theorem Reachable.queue_cache_and_null
    (reachable : Reachable (fun pool op => op.Balanced pool ∧ op.Sane pool) config pool) :
    (∃ free, pool.freeBlockQueue.Holds free ∧ (∀ block, block ∈ free ↔
          block < pool.config.numGpuBlocks ∧ (pool.blocks block).isNull = false ∧
            (pool.blocks block).refCnt = 0) ∧
        pool.nullBlock ∉ free) ∧
      (∀ key block, pool.cachedBlockHashToBlock.contain key block = true ↔
        ((pool.blocks block).blockHash = some key ∨ key ∈ pool.secondaryKeys block)) ∧
      (pool.blocks pool.nullBlock).isNull = true ∧
      ∀ key, pool.cachedBlockHashToBlock.contain key pool.nullBlock = false := by
  obtain ⟨free, coherent⟩ := reachable.coherent
  have isNull := (coherent.null_iff pool.nullBlock).mpr rfl
  have free_iff := coherent.unreferenced_iff
  simp only [append_nil] at free_iff
  have contain_iff (key : BlockHashWithGroupId BlockHash) (block : BlockId) :
      pool.cachedBlockHashToBlock.contain key block = true ↔ pool.HoldsKey key block :=
    (BlockHashToBlockMap.contain_iff _ _).trans (coherent.cache.listed_iff key block)
  refine ⟨⟨free, coherent.queue, free_iff, ?_⟩, contain_iff, isNull, ?_⟩
  · intro member
    have unreferenced := (free_iff pool.nullBlock).mp member
    rw [isNull] at unreferenced
    cases unreferenced.2.1
  · intro key
    rw [← Bool.not_eq_true, contain_iff]
    exact coherent.cache.null_keyless key pool.nullBlock isNull

end BlockPool

/-! ## A small pool -/

/-- A pool of three blocks for hashes of two tokens. -/
def smallPoolConfig : PoolConfig SymbolicHash where
  numGpuBlocks := 3
  numGpuBlocks_pos := by decide
  enableCaching := true
  hasher := symbolicHasher 2 (by decide)
  enableKvCacheEvents := true
  useIntBlockHashes := false
  hashToInt := fun _ => 0

/-- A request with one full block. -/
def oneBlockRequest : HashedRequest SymbolicHash :=
  HashedRequest.create (symbolicHasher 2 (by decide)) { allTokenIds := [7, 8] }

/-- The key of that block in group 0. -/
def oneBlockKey : BlockHashWithGroupId SymbolicHash :=
  ⟨.block .seed [7, 8] none, 0⟩

/-- A block that was allocated, cached and freed is free and still cached. -/
theorem smallPool_queue_cache_and_null :
    ∃ pool, BlockPool.Reachable (fun pool op => op.Balanced pool ∧ op.Sane pool)
        smallPoolConfig pool ∧
      pool.cachedBlockHashToBlock.contain oneBlockKey 1 = true ∧
      (pool.blocks 1).refCnt = 0 ∧
      (∃ free, pool.freeBlockQueue.Holds free ∧ 1 ∈ free ∧ pool.nullBlock ∉ free) ∧
      ∀ key, pool.cachedBlockHashToBlock.contain key pool.nullBlock = false := by
  obtain ⟨pool, ran, facts⟩ := exists_of_satisfies (show satisfies
      (BlockPool.run (fun pool op => op.Balanced pool ∧ op.Sane pool) smallPoolConfig
        [.getNewBlocks 1, .cacheFullBlocks oneBlockRequest [1] 0 1 2 0 none, .freeBlocks [1]])
      (fun pool =>
        pool.cachedBlockHashToBlock.contain oneBlockKey 1 &&
          decide ((pool.blocks 1).refCnt = 0 ∧ (pool.blocks 1).isNull = false ∧
            1 < pool.config.numGpuBlocks)) = true by decide)
  rw [Bool.and_eq_true, decide_eq_true_eq] at facts
  have reachable := BlockPool.reachable_of_run ran
  obtain ⟨⟨free, holds, free_iff, nullOut⟩, _, _, nullKeyless⟩ := reachable.queue_cache_and_null
  exact ⟨pool, reachable, facts.1, facts.2.1,
    ⟨free, holds, (free_iff 1).mpr ⟨facts.2.2.2, facts.2.2.1, facts.2.1⟩, nullOut⟩,
    nullKeyless⟩

/--
Two calls that pass their own assertions: moving keys to the null block puts it
under a key, and asking for minus one block lets the counter exceed the list.
-/
theorem smallPool_null_cached_and_counter_off :
    (∃ pool, BlockPool.Reachable (fun pool op => op.Balanced pool) smallPoolConfig pool ∧
        pool.cachedBlockHashToBlock.contain oneBlockKey pool.nullBlock = true) ∧
      ∃ pool, BlockPool.Reachable (fun pool op => op.Balanced pool) smallPoolConfig pool ∧
          pool.getNumFreeBlocks = smallPoolConfig.numGpuBlocks := by
  constructor
  · obtain ⟨pool, ran, facts⟩ := exists_of_satisfies (show satisfies
        (BlockPool.run (fun pool op => op.Balanced pool) smallPoolConfig
          [.getNewBlocks 1, .cacheFullBlocks oneBlockRequest [1] 0 1 2 0 none,
            .moveBlockHashes 1 0])
        (fun pool => pool.cachedBlockHashToBlock.contain oneBlockKey pool.nullBlock) = true
        by decide)
    exact ⟨pool, BlockPool.reachable_of_run ran, facts⟩
  · obtain ⟨pool, ran, facts⟩ := exists_of_satisfies (show satisfies
        (BlockPool.run (fun pool op => op.Balanced pool) smallPoolConfig [.getNewBlocks (-1)])
        (fun pool => pool.getNumFreeBlocks = smallPoolConfig.numGpuBlocks) = true
        by decide)
    exact ⟨pool, BlockPool.reachable_of_run ran, of_decide_eq_true facts⟩

end VllmCore
