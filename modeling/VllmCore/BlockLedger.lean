import VllmCore.KVCacheManager

namespace VllmCore

open Lib List BlockPool

/-!
# Who refers to which block

Every reference to a block is held by someone: a table, a pending copy, a pin, or
a party outside the managers.  `Ledger` says that the reference counts of a coherent
pool are exactly the multiplicities in a list of all held references, so that giving
references back never drops a count below zero.
-/

variable {BlockHash : Type} {pool after : BlockPool BlockHash}

/-- The pool is coherent and its counts are the multiplicities of the references. -/
structure Ledger (pool : BlockPool BlockHash) (free references : List BlockId) : Prop where
  coherent : BlockPool.Coherent pool free
  inside : ∀ block ∈ references, block < pool.config.numGpuBlocks
  refCnt :
    ∀ block, (pool.blocks block).isNull = false →
      (pool.blocks block).refCnt = references.count block

/-- Pools that an operation leaves alike: same configuration, same null block. -/
structure SameFrame (pool after : BlockPool BlockHash) : Prop where
  config : after.config = pool.config
  nullBlock : after.nullBlock = pool.nullBlock
  isNull : ∀ block, (after.blocks block).isNull = (pool.blocks block).isNull

namespace SameFrame

theorem refl (pool : BlockPool BlockHash) : SameFrame pool pool :=
  ⟨rfl, rfl, fun _ => rfl⟩

theorem trans (before : SameFrame first second)
    (later : SameFrame second third) : SameFrame first third :=
  ⟨later.config.trans before.config, later.nullBlock.trans before.nullBlock,
    fun block => (later.isNull block).trans (before.isNull block)⟩

end SameFrame

theorem BlockPool.CacheStep.sameFrame
    (step : CacheStep pool after) : SameFrame pool after :=
  ⟨step.same.config, step.same.nullBlock, step.same.isNull⟩

theorem BlockPool.SameKeys.sameFrame
    (same : SameKeys pool after) : SameFrame pool after :=
  ⟨same.config, same.nullBlock, same.isNull⟩

namespace Ledger

variable {pool after : BlockPool BlockHash} {free references : List BlockId}

section

variable (ledger : Ledger pool free references)
include ledger

theorem perm (perm : references.Perm reordered) : Ledger pool free reordered := by
  refine ⟨ledger.coherent, ?_, ?_⟩
  · intro block mem
    exact ledger.inside block (perm.mem_iff.mpr mem)
  · intro block notNull
    rw [ledger.refCnt block notNull, perm.count_eq]

/-- Null blocks may be added to and left out of the references. -/
theorem ignoreNull
    (inside : ∀ block ∈ others, block < pool.config.numGpuBlocks)
    (counts : ∀ block, block ≠ pool.nullBlock → others.count block = references.count block) :
    Ledger pool free others := by
  refine ⟨ledger.coherent, inside, ?_⟩
  intro block notNull
  have differs : block ≠ pool.nullBlock := by
    intro same
    rw [(ledger.coherent.null_iff block).mpr same] at notNull
    cases notNull
  rw [ledger.refCnt block notNull, counts block differs]

theorem null_inside : pool.nullBlock < pool.config.numGpuBlocks :=
  ledger.coherent.null_inside

theorem getNumFreeBlocks : pool.getNumFreeBlocks = free.length :=
  ledger.coherent.queue.numFreeBlocks

/-- Every block is the null block, free or referenced, and only one of these. -/
theorem partition :
    (pool.nullBlock :: free ++ references.dedup.filter (· ≠ pool.nullBlock)).Perm
      (range pool.config.numGpuBlocks) := by
  have coherent := ledger.coherent
  have free_iff (block : BlockId) : block ∈ free ↔
      block < pool.config.numGpuBlocks ∧ block ≠ pool.nullBlock ∧ block ∉ references := by
    have unreferenced := coherent.unreferenced_iff block
    rw [append_nil] at unreferenced
    rw [unreferenced, Ne, ← coherent.null_iff, Bool.not_eq_true]
    refine and_congr_right fun _ => and_congr_right fun notNull => ?_
    rw [ledger.refCnt block notNull, Int.natCast_eq_zero, count_eq_zero]
  have nodup := coherent.nodup
  rw [append_nil] at nodup
  refine (perm_ext_iff_of_nodup ?_ nodup_range).mpr fun block => ?_
  · refine nodup_cons.mpr ⟨?_, nodup.append ((nodup_dedup _).filter _) ?_⟩
    · simp [free_iff]
    · intro block isFree used
      exact ((free_iff block).mp isFree).2.2 (mem_dedup.mp (mem_of_mem_filter used))
  · by_cases isNull : block = pool.nullBlock
    · simpa [isNull] using coherent.null_inside
    · by_cases used : block ∈ references
      · simpa [isNull, used, free_iff] using ledger.inside block used
      · simp [isNull, used, free_iff]

/-- No more blocks are free than there are. -/
theorem length_free_le : free.length ≤ pool.config.numGpuBlocks := by
  have total := ledger.partition.length_eq
  rw [length_append, length_cons, length_range] at total
  omega

/-- A step of the cache part keeps the ledger. -/
theorem cacheStep (step : CacheStep pool after) : Ledger after free references := by
  refine ⟨ledger.coherent.cacheStep step, ?_, ?_⟩
  · intro block mem
    rw [step.same.config]
    exact ledger.inside block mem
  · intro block notNull
    rw [step.same.isNull] at notNull
    rw [step.same.refCnt, ledger.refCnt block notNull]

end

/-- Erasing blocks shortens a list by at most those of them that are in it. -/
theorem length_foldl_erase (blocks free : List BlockId) :
    free.length ≤
      (blocks.foldl List.erase free).length + blocks.countP (fun block => block ∈ free) := by
  induction blocks generalizing free with
  | nil => simp
  | cons block rest ih =>
    have shorter := ih (free.erase block)
    have fewer : rest.countP (fun other => other ∈ free.erase block) ≤
        rest.countP fun other => other ∈ free := by
      refine countP_mono_left fun other _ inErased => ?_
      simpa using mem_of_mem_erase (by simpa using inErased)
    rw [foldl_cons, countP_cons]
    by_cases mem : block ∈ free
    · rw [length_erase_of_mem mem] at shorter
      simp only [mem, decide_true, if_true]
      omega
    · rw [erase_of_not_mem mem] at shorter fewer ⊢
      omega

section

variable (ledger : Ledger pool free references)
include ledger

/-- Touched blocks are referred to once more. -/
theorem touch {blocks : List BlockId}
    (inside : ∀ block ∈ blocks, block < pool.config.numGpuBlocks) :
    ∃ after free', pool.touch blocks = .ok after ∧ Ledger after free' (blocks ++ references) ∧
      SameKeys pool after ∧
      (∀ block, (pool.blocks block).refCnt ≤ (after.blocks block).refCnt) ∧
      free.length ≤ free'.length + getNumEvictableBlocks pool blocks := by
  obtain ⟨after, touched, coherent, same, counts⟩ := ledger.coherent.touch inside
  refine ⟨after, blocks.foldl List.erase free, touched, ⟨coherent, ?_, ?_⟩, same, ?_, ?_⟩
  · intro block mem
    rw [same.config]
    rcases mem_append.mp mem with adopted | held
    · exact inside block adopted
    · exact ledger.inside block held
  · intro block notNull
    rw [same.isNull] at notNull
    rw [counts, ledger.refCnt block notNull, count_append]
    omega
  · intro block
    rw [counts]
    omega
  · refine le_trans (length_foldl_erase blocks free) (Nat.add_le_add_left ?_ _)
    refine countP_mono_left fun block _ mem => ?_
    obtain ⟨_, notNull, unreferenced⟩ :=
      (ledger.coherent.unreferenced_iff block).mp (by simpa using mem)
    simpa using ⟨unreferenced, notNull⟩

/-- New blocks come out of the free list. -/
theorem getNewBlocks [DecidableEq BlockHash] {count : Nat} (enough : count ≤ free.length) :
    ∃ after, pool.getNewBlocks count = .ok (free.take count, after) ∧
      Ledger after (free.drop count) (free.take count ++ references) ∧
      SameFrame pool after ∧
      ∀ key other, after.HoldsKey key other ↔ pool.HoldsKey key other ∧
        (pool.config.enableCaching = true → other ∉ free.take count) := by
  obtain ⟨after, taken, coherent, config, fields, keys⟩ := ledger.coherent.getNewBlocks enough
  have nullBlock : after.nullBlock = pool.nullBlock := by
    rw [← ledger.coherent.null_iff, ← (fields after.nullBlock).1, coherent.null_iff]
  refine ⟨after, taken, ⟨coherent, ?_, ?_⟩,
    ⟨config, nullBlock, fun block => (fields block).1⟩, keys⟩
  · intro block mem
    rw [config]
    rcases mem_append.mp mem with new | held
    · exact ((ledger.coherent.unreferenced_iff block).mp (by simpa using mem_of_mem_take new)).1
    · exact ledger.inside block held
  · intro block notNull
    rw [(fields block).1] at notNull
    rw [(fields block).2, ledger.refCnt block notNull, count_append]
    omega

/-- References that are held can be given back. -/
theorem freeBlocks {blocks rest : List BlockId} (held : references.Perm (blocks ++ rest)) :
    ∃ after free', pool.freeBlocks blocks = .ok after ∧ Ledger after free' rest ∧
      SameKeys pool after ∧
      free.length ≤ free'.length := by
  have split := ledger.perm held
  obtain ⟨after, first, last, released, coherent, same, counts⟩ :=
    ledger.coherent.freeBlocks (fun block mem => split.inside block (mem_append_left rest mem)) (by
        intro block _ notNull
        rw [split.refCnt block notNull, count_append]
        omega)
  refine ⟨after, first ++ free ++ last, released, ⟨coherent, ?_, ?_⟩, same, ?_⟩
  · intro block mem
    rw [same.config]
    exact split.inside block (mem_append_right blocks mem)
  · intro block notNull
    rw [same.isNull] at notNull
    rw [counts, split.refCnt block notNull, count_append]
    omega
  · simp only [length_append]
    omega

/-- One more reference to a block that is in use. -/
theorem addReference (held : block ∈ references) :
    Ledger (GroupCache.addReference pool block) free (block :: references) ∧
      SameKeys pool (GroupCache.addReference pool block) := by
  have same : SameKeys pool (GroupCache.addReference pool block) :=
    sameKeys_setRefCnt pool block ((pool.blocks block).refCnt + 1)
  have counts := refCnt_setRefCnt pool block
  refine ⟨⟨?_, ?_, ?_⟩, same⟩
  · refine ledger.coherent.recount same ledger.coherent.queue ledger.coherent.nodup ?_ ?_
    · intro other
      rw [ledger.coherent.unreferenced_iff, GroupCache.addReference, counts]
      refine and_congr_right fun _ => and_congr_right fun notNull => ?_
      by_cases here : other = block
      · subst here
        rw [ledger.refCnt other notNull]
        have := count_pos_iff.mpr held
        omega
      · rw [if_neg here]
    · intro other notNull
      rw [GroupCache.addReference, counts]
      have := ledger.coherent.refCnt_nonneg other notNull
      split
      · rename_i here
        subst here
        omega
      · exact this
  · intro other mem
    rcases mem_cons.mp mem with here | elsewhere
    · exact ledger.inside other (here ▸ held)
    · exact ledger.inside other elsewhere
  · intro other notNull
    have before : (pool.blocks other).isNull = false := (same.isNull other) ▸ notNull
    rw [GroupCache.addReference, counts, ledger.refCnt other before]
    by_cases here : other = block
    · subst here
      simp [ledger.refCnt other before]
    · simp [here, Ne.symm here]

end

end Ledger

end VllmCore
