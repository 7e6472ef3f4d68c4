import VllmCore.BlockPool

namespace VllmCore

open Function Lib List BlockHashToBlockMap KVCacheBlock

/-!
# The prefix cache inside the block pool

The map from keys to blocks and the keys recorded with each block describe the
same relation.  Caching, promoting, moving and evicting all go through two
primitives, removing every key of a block and adding one key; the invariant and
its frame conditions are proved for these two and carried to the operations.
-/

namespace BlockHashToBlockMap

variable {BlockHash : Type} [DecidableEq BlockHash]

variable (map : BlockHashToBlockMap BlockHash) (key : BlockHashWithGroupId BlockHash)

/-- All blocks under a key. -/
def listed (key : BlockHashWithGroupId BlockHash) : List BlockId :=
  match map.cache key with
  | none => []
  | some (.single block) => [block]
  | some (.many blocks) => blocks

variable {block : BlockId}

omit [DecidableEq BlockHash] in
theorem contain_iff : map.contain key block = true ↔ block ∈ map.listed key := by
  unfold contain listed
  cases map.cache key with
  | none => simp
  | some blocks => cases blocks <;> simp [eq_comm]

omit [DecidableEq BlockHash] in
/-- A lookup returns the first listed block. -/
theorem getOneBlock_eq : map.getOneBlock key = (map.listed key).head? := by
  unfold getOneBlock listed
  cases map.cache key with
  | none => rfl
  | some blocks => cases blocks <;> rfl

/-- Inserting adds exactly one pair. -/
theorem mem_listed_insert {key other : BlockHashWithGroupId BlockHash} {cached : BlockId} :
    cached ∈ (map.insert key block).listed other ↔
      cached ∈ map.listed other ∨ (other = key ∧ cached = block) := by
  by_cases same : other = key
  · subst same
    simp only [insert, listed, update_self]
    cases map.cache other with
    | none => simp
    | some blocks =>
      cases blocks with
      | single first => by_cases equal : first = block <;> simp [equal]
      | many blocks =>
        by_cases mem : block ∈ blocks
        · simp only [mem, if_true, true_and]
          exact ⟨.inl, fun either => either.elim id fun is => is ▸ mem⟩
        · simp [mem]
  · simp [insert, listed, same]

/-- Popping takes the block out of the list under its key. -/
theorem listed_pop {key other : BlockHashWithGroupId BlockHash} :
    (map.pop key block).2.listed other =
      if other = key then (map.listed other).filter (fun cached => cached ≠ block)
      else map.listed other := by
  by_cases same : other = key
  · subst same
    rw [if_pos rfl]
    unfold pop
    cases entry : map.cache other with
    | none => simp [listed, entry]
    | some blocks =>
      cases blocks with
      | single first => by_cases equal : first = block <;> simp [listed, entry, equal]
      | many blocks =>
        simp only [listed, entry, update_self]
        by_cases none : blocks.filter (fun cached => cached ≠ block) = []
        · rw [if_pos none, none]
        · rw [if_neg none]
  · rw [if_neg same]
    unfold pop
    cases map.cache key with
    | none => rfl
    | some blocks =>
      cases blocks with
      | single first =>
        by_cases equal : first = block <;>
          simp [listed, equal, update_of_ne same]
      | many blocks => simp [listed, update_of_ne same]

/-- Popping reports whether the pair was there. -/
theorem isSome_pop : (map.pop key block).1.isSome = true ↔ block ∈ map.listed key := by
  unfold pop listed
  cases map.cache key with
  | none => simp
  | some blocks =>
    cases blocks with
    | single first =>
      by_cases equal : block = first
      · simp [equal]
      · simp [equal, Ne.symm equal]
    | many blocks => by_cases mem : block ∈ blocks <;> simp [mem]

end BlockHashToBlockMap

namespace BlockPool

variable {BlockHash : Type} [DecidableEq BlockHash] {pool after : BlockPool BlockHash}

/-- A key recorded with a block: its primary key or a secondary one. -/
def HoldsKey (pool : BlockPool BlockHash) (key : BlockHashWithGroupId BlockHash)
    (block : BlockId) : Prop :=
  (pool.blocks block).blockHash = some key ∨ key ∈ pool.secondaryKeys block

/-- The cache and the keys recorded with the blocks describe one relation. -/
structure CacheCoherent (pool : BlockPool BlockHash) : Prop where
  listed_iff :
    ∀ key block, block ∈ pool.cachedBlockHashToBlock.listed key ↔ pool.HoldsKey key block
  null_keyless :
    ∀ key block, (pool.blocks block).isNull = true → ¬ pool.HoldsKey key block
  tokens_none :
    ∀ block, (pool.blocks block).blockHash = none → (pool.blocks block).blockHashNumTokens = none

/-- Two pools differ at most in cache entries, recorded keys and events. -/
structure SameCounts (pool after : BlockPool BlockHash) : Prop where
  config : after.config = pool.config
  freeBlockQueue : after.freeBlockQueue = pool.freeBlockQueue
  nullBlock : after.nullBlock = pool.nullBlock
  refCnt : ∀ block, (after.blocks block).refCnt = (pool.blocks block).refCnt
  isNull : ∀ block, (after.blocks block).isNull = (pool.blocks block).isNull

omit [DecidableEq BlockHash] in
theorem SameCounts.refl (pool : BlockPool BlockHash) : SameCounts pool pool :=
  ⟨rfl, rfl, rfl, fun _ => rfl, fun _ => rfl⟩

omit [DecidableEq BlockHash] in
theorem SameCounts.trans
    (before : SameCounts first second) (later : SameCounts second third) : SameCounts first third :=
  ⟨later.config.trans before.config, later.freeBlockQueue.trans before.freeBlockQueue,
    later.nullBlock.trans before.nullBlock,
    fun block => (later.refCnt block).trans (before.refCnt block),
    fun block => (later.isNull block).trans (before.isNull block)⟩

/--
A change of the cache part of a pool: the rest stays and coherence is kept.

The new keys are the old ones as the given relation says.
-/
structure CacheChange (pool after : BlockPool BlockHash)
    (Keys : BlockHashWithGroupId BlockHash → BlockId → Prop) : Prop where
  same : SameCounts pool after
  coherent : CacheCoherent after
  holdsKey_iff : ∀ key block, after.HoldsKey key block ↔ Keys key block

/-! ## Removing the keys of a block -/

variable {keys : List (BlockHashWithGroupId BlockHash)}

theorem mem_listed_foldl_popKey {block cached : BlockId} {key : BlockHashWithGroupId BlockHash} :
    cached ∈ (keys.foldl (popKey block) state).2.listed key ↔
      cached ∈ state.2.listed key ∧ ¬ (key ∈ keys ∧ cached = block) := by
  induction keys generalizing state with
  | nil => simp
  | cons first rest ih =>
    rw [foldl_cons, ih]
    simp only [popKey, listed_pop, mem_cons]
    by_cases same : key = first
    · subst same
      simp
      tauto
    · simp [same]

theorem mem_foldl_popKey {block : BlockId} {key : BlockHashWithGroupId BlockHash} :
    key ∈ (keys.foldl (popKey block) state).1 ↔
      key ∈ state.1 ∨ (key ∈ keys ∧ block ∈ state.2.listed key) := by
  induction keys generalizing state with
  | nil => simp
  | cons first rest ih =>
    have done : key ∈ (popKey block state first).1 ↔
          key ∈ state.1 ∨ (key = first ∧ block ∈ state.2.listed first) := by
      by_cases there : (state.2.pop first block).1.isSome = true
      · have listed := (isSome_pop _ _).mp there
        simp [popKey, there, listed]
      · have notListed := mt (isSome_pop _ _).mpr there
        simp [popKey, there, notListed]
    have remaining : block ∈ (popKey block state first).2.listed key ↔
          block ∈ state.2.listed key ∧ key ≠ first := by
      simp only [popKey, listed_pop]
      by_cases same : key = first <;> simp [same]
    rw [foldl_cons, ih, done, remaining]
    by_cases same : key = first
    · subst same
      simp
    · simp [same]

/-- All keys recorded with a block, the primary one first. -/
def recordedKeys (pool : BlockPool BlockHash) (block : BlockId) :
    List (BlockHashWithGroupId BlockHash) :=
  (pool.blocks block).blockHash.toList ++ pool.secondaryKeys block

variable {key : BlockHashWithGroupId BlockHash} {block : BlockId}

omit [DecidableEq BlockHash] in
theorem mem_recordedKeys : key ∈ pool.recordedKeys block ↔ pool.HoldsKey key block := by
  simp [recordedKeys, HoldsKey]

/-- Removal pops every recorded key and clears the records of the block. -/
theorem CacheCoherent.removeHashes_eq (coherent : CacheCoherent pool) (block : BlockId) :
    pool.removeCachedBlockHashes block = (((pool.recordedKeys block).foldl (popKey block)
          ([], pool.cachedBlockHashToBlock)).1,
        { pool with
          cachedBlockHashToBlock :=
            ((pool.recordedKeys block).foldl (popKey block) ([], pool.cachedBlockHashToBlock)).2
          cachedBlockHashesByBlock := update pool.cachedBlockHashesByBlock block none
          blocks :=
            update pool.blocks block (pool.blocks block).resetHash }) := by
  unfold BlockPool.removeCachedBlockHashes
  by_cases none : pool.recordedKeys block = []
  · have noHash : (pool.blocks block).blockHash = Option.none := by
      have front := (append_eq_nil_iff.mp none).1
      cases hash : (pool.blocks block).blockHash with
      | none => rfl
      | some key =>
        rw [hash] at front
        cases front
    have same : (pool.blocks block).resetHash = pool.blocks block := by
      have noTokens := coherent.tokens_none block noHash
      cases value : pool.blocks block
      rw [value] at noHash noTokens
      simp only at noHash noTokens
      simp [resetHash, noHash, noTokens]
    have keys : (pool.blocks block).blockHash.toList ++ pool.secondaryKeys block = [] := none
    simp only [keys, if_true, none, same, update_eq_self, foldl_nil]
  · have keys : (pool.blocks block).blockHash.toList ++ pool.secondaryKeys block ≠ [] :=
      none
    simp only [keys, if_false]
    rfl

/-- Removing the keys of a block takes away exactly these. -/
theorem CacheCoherent.removeCachedBlockHashes (coherent : CacheCoherent pool) (block : BlockId) :
    CacheChange pool (pool.removeCachedBlockHashes block).2
        (fun key cached => pool.HoldsKey key cached ∧ cached ≠ block) ∧
      ∀ key, key ∈ (pool.removeCachedBlockHashes block).1 ↔ pool.HoldsKey key block := by
  rw [coherent.removeHashes_eq block]
  have holdsKey_iff : ∀ key cached, HoldsKey
            { pool with
              cachedBlockHashToBlock :=
                ((pool.recordedKeys block).foldl (popKey block) ([], pool.cachedBlockHashToBlock)).2
              cachedBlockHashesByBlock := update pool.cachedBlockHashesByBlock block none
              blocks := update pool.blocks block (pool.blocks block).resetHash }
            key cached ↔
          pool.HoldsKey key cached ∧ cached ≠ block := by
    intro key cached
    by_cases same : cached = block
    · subst same
      simp [HoldsKey, secondaryKeys, resetHash]
    · simp [HoldsKey, secondaryKeys, same]
  refine ⟨⟨⟨rfl, rfl, rfl, ?_, ?_⟩, ⟨?_, ?_, ?_⟩, holdsKey_iff⟩, ?_⟩
  · intro cached
    by_cases same : cached = block
    · subst same
      simp [resetHash]
    · simp [same]
  · intro cached
    by_cases same : cached = block
    · subst same
      simp [resetHash]
    · simp [same]
  · intro key cached
    rw [holdsKey_iff, mem_listed_foldl_popKey, mem_recordedKeys, coherent.listed_iff]
    constructor
    · rintro ⟨held, notRemoved⟩
      exact ⟨held, fun same => notRemoved ⟨same ▸ held, same⟩⟩
    · rintro ⟨held, nodup⟩
      exact ⟨held, fun removed => nodup removed.2⟩
  · intro key cached isNull
    rw [holdsKey_iff]
    rintro ⟨held, nodup⟩
    simp only [update_of_ne nodup] at isNull
    exact coherent.null_keyless key cached isNull held
  · intro cached noHash
    by_cases same : cached = block
    · subst same
      simp [resetHash]
    · simp only [update_of_ne same] at noHash ⊢
      exact coherent.tokens_none cached noHash
  · intro key
    rw [mem_foldl_popKey, mem_recordedKeys, coherent.listed_iff]
    simp

/-! ## Adding a key to a block -/

section

variable (coherent : CacheCoherent pool)
include coherent

/-- Recording a key with a block and listing the block under it. -/
theorem CacheCoherent.record (keyed : BlockPool BlockHash)
    (notNull : (pool.blocks block).isNull = false) (same : SameCounts pool keyed)
    (sameCache : keyed.cachedBlockHashToBlock = pool.cachedBlockHashToBlock)
    (holdsKey_iff :
      ∀ other cached, keyed.HoldsKey other cached ↔
          pool.HoldsKey other cached ∨ (other = key ∧ cached = block))
    (tokens_none :
      ∀ cached, (keyed.blocks cached).blockHash = none →
        (keyed.blocks cached).blockHashNumTokens = none) :
    CacheChange pool
      { keyed with
        cachedBlockHashToBlock := keyed.cachedBlockHashToBlock.insert key block }
      (fun other cached =>
        pool.HoldsKey other cached ∨ (other = key ∧ cached = block)) := by
  refine ⟨⟨same.config, same.freeBlockQueue, same.nullBlock, same.refCnt, same.isNull⟩,
    ⟨?_, ?_, tokens_none⟩, holdsKey_iff⟩
  · intro other cached
    refine Iff.trans ?_ (holdsKey_iff other cached).symm
    rw [mem_listed_insert, sameCache, coherent.listed_iff]
  intro other cached isNull held
  have wasNull : (pool.blocks cached).isNull = true := by
    rw [← same.isNull cached]
    exact isNull
  rcases (holdsKey_iff other cached).mp held with already | ⟨_, rfl⟩
  · exact coherent.null_keyless other cached wasNull already
  · rw [notNull] at wasNull
    cases wasNull

/-- Recording a key with a block touches the records of this block only. -/
theorem CacheCoherent.recordKey
    (key : BlockHashWithGroupId BlockHash) (block : BlockId) (numTokens : Option Nat) :
    ∃ keyed, pool.recordKey key block numTokens = .ok keyed ∧ SameCounts pool keyed ∧
        keyed.cachedBlockHashToBlock = pool.cachedBlockHashToBlock ∧
        (∀ other cached, keyed.HoldsKey other cached ↔
            pool.HoldsKey other cached ∨ (other = key ∧ cached = block)) ∧
        (∀ cached, (keyed.blocks cached).blockHash = none →
          (keyed.blocks cached).blockHashNumTokens = none) := by
  unfold BlockPool.recordKey
  cases hash : (pool.blocks block).blockHash with
  | none =>
    have noTokens := coherent.tokens_none block hash
    have set : (pool.blocks block).setBlockHash key numTokens = .ok { pool.blocks block with
            blockHash := some key, blockHashNumTokens := numTokens } := by
      simp [setBlockHash, hash, noTokens, ensure]
    refine ⟨pool.setBlock block
        { pool.blocks block with
          blockHash := some key, blockHashNumTokens := numTokens },
      by simp only [set, ok_bind], ⟨rfl, rfl, rfl, ?_, ?_⟩, rfl, ?_, ?_⟩
    · intro other
      by_cases same : other = block
      · subst same
        simp [setBlock]
      · simp [setBlock, same]
    · intro other
      by_cases same : other = block
      · subst same
        simp [setBlock]
      · simp [setBlock, same]
    · intro other cached
      by_cases same : cached = block
      · subst same
        simp only [HoldsKey, setBlock, secondaryKeys, update_self,
          hash, Option.some.injEq, reduceCtorEq, false_or, and_true,
          eq_comm (a := key)]
        tauto
      · simp [HoldsKey, setBlock, secondaryKeys, same]
    · intro other noHash
      by_cases same : other = block
      · subst same
        simp [setBlock] at noHash
      · simp only [setBlock, update_of_ne same] at noHash ⊢
        exact coherent.tokens_none other noHash
  | some first =>
    refine ⟨_, rfl, ⟨rfl, rfl, rfl, fun _ => rfl, fun _ => rfl⟩, rfl, ?_, coherent.tokens_none⟩
    intro other cached
    by_cases same : cached = block
    · subst same
      simp only [HoldsKey, secondaryKeys, update_self, Option.getD_some, mem_insert_iff, and_true]
      tauto
    · simp [HoldsKey, secondaryKeys, same]

variable {numTokens : Option Nat}

/-- Adding a key to a block that is not null adds exactly this key. -/
theorem CacheCoherent.insertBlockHash (notNull : (pool.blocks block).isNull = false) :
    ∃ after, pool.insertBlockHash key block numTokens = .ok after ∧ CacheChange pool after
          (fun other cached =>
            pool.HoldsKey other cached ∨ (other = key ∧ cached = block)) := by
  have unchanged (held : pool.HoldsKey key block) : CacheChange pool pool (fun other cached =>
          pool.HoldsKey other cached ∨ (other = key ∧ cached = block)) := by
    refine ⟨SameCounts.refl pool, coherent, ?_⟩
    intro other cached
    constructor
    · exact .inl
    · rintro (already | ⟨rfl, rfl⟩)
      · exact already
      · exact held
  unfold BlockPool.insertBlockHash
  by_cases primary : (pool.blocks block).blockHash = some key
  · rw [if_pos primary]
    exact ⟨pool, rfl, unchanged (.inl primary)⟩
  rw [if_neg primary]
  by_cases cached : pool.cachedBlockHashToBlock.contain key block = true
  · rw [if_pos cached]
    refine ⟨pool, rfl, unchanged ?_⟩
    exact (coherent.listed_iff key block).mp ((contain_iff _ _).mp cached)
  rw [if_neg cached]
  obtain ⟨keyed, recorded, same, sameCache, holdsKey_iff, tokens_none⟩ :=
    coherent.recordKey key block numTokens
  refine ⟨{ keyed with
      cachedBlockHashToBlock := keyed.cachedBlockHashToBlock.insert key block },
    by simp only [recorded, ok_bind],
    coherent.record keyed notNull same sameCache holdsKey_iff tokens_none⟩

theorem CacheCoherent.insertBlockHash_ok (notNull : (pool.blocks block).isNull = false)
    (inserted : pool.insertBlockHash key block numTokens = .ok after) :
    CacheChange pool after (fun other cached =>
      pool.HoldsKey other cached ∨ (other = key ∧ cached = block)) := by
  obtain ⟨result, ran, change⟩ := coherent.insertBlockHash notNull
  rw [inserted] at ran
  cases ran
  exact change

end

/-! ## The cache operations -/

/-- A step that changes the cache part only and leaves it coherent. -/
structure CacheStep (pool after : BlockPool BlockHash) : Prop where
  same : SameCounts pool after
  coherent : CacheCoherent after

namespace CacheStep

omit [DecidableEq BlockHash] in
theorem refl (coherent : CacheCoherent pool) : CacheStep pool pool :=
  ⟨SameCounts.refl pool, coherent⟩

omit [DecidableEq BlockHash] in
theorem trans (before : CacheStep first second)
    (later : CacheStep second third) : CacheStep first third :=
  ⟨before.same.trans later.same, later.coherent⟩

end CacheStep

omit [DecidableEq BlockHash] in
theorem CacheChange.step {Keys : BlockHashWithGroupId BlockHash → BlockId → Prop}
    (change : CacheChange pool after Keys) : CacheStep pool after :=
  ⟨change.same, change.coherent⟩

omit [DecidableEq BlockHash] in
/-- Events are not part of the cache. -/
theorem CacheCoherent.emit (coherent : CacheCoherent pool)
    (events : List (KVCacheEvent BlockHash)) :
    CacheChange pool (pool.emit events) pool.HoldsKey := by
  unfold BlockPool.emit
  split
  · exact ⟨⟨rfl, rfl, rfl, fun _ => rfl, fun _ => rfl⟩,
      ⟨coherent.listed_iff, coherent.null_keyless, coherent.tokens_none⟩,
      fun _ _ => Iff.rfl⟩
  · exact ⟨SameCounts.refl pool, coherent, fun _ _ => Iff.rfl⟩

/-- Evicting a block removes exactly its keys. -/
theorem CacheCoherent.maybeEvictCachedBlock (coherent : CacheCoherent pool) (block : BlockId) :
    CacheChange pool (pool.maybeEvictCachedBlock block)
      (fun key cached => pool.HoldsKey key cached ∧ cached ≠ block) := by
  have removed := (coherent.removeCachedBlockHashes block).1
  have emitted := removed.coherent.emit ((pool.removeCachedBlockHashes block).1.map fun key =>
      .blockRemoved [(pool.removeCachedBlockHashes block).2.config.maybeConvertBlockHash
          key.blockHash] key.groupId)
  exact ⟨removed.same.trans emitted.same, emitted.coherent, fun key cached =>
      (emitted.holdsKey_iff key cached).trans (removed.holdsKey_iff key cached)⟩

/-- A step of the cache part; every key held afterwards is an old or an added one. -/
structure CacheGrowth (pool after : BlockPool BlockHash)
    (Added : BlockHashWithGroupId BlockHash → BlockId → Prop) : Prop where
  step : CacheStep pool after
  keys : ∀ key block, after.HoldsKey key block → pool.HoldsKey key block ∨ Added key block

namespace CacheGrowth

omit [DecidableEq BlockHash]

variable {Added More : BlockHashWithGroupId BlockHash → BlockId → Prop}

theorem refl (coherent : CacheCoherent pool) : CacheGrowth pool pool Added :=
  ⟨.refl coherent, fun _ _ => .inl⟩

theorem trans (before : CacheGrowth first second Added)
    (later : CacheGrowth second third Added) : CacheGrowth first third Added := by
  refine ⟨before.step.trans later.step, fun key block held => ?_⟩
  rcases later.keys key block held with earlier | added
  · exact before.keys key block earlier
  · exact .inr added

theorem mono (growth : CacheGrowth pool after Added)
    (implied : ∀ key block, Added key block → More key block) : CacheGrowth pool after More :=
  ⟨growth.step, fun key block held => (growth.keys key block held).imp_right (implied key block)⟩

/-- A change that only removes keys. -/
theorem shrink
    (growth : CacheGrowth pool between Added)
    (change : CacheChange between after Keys)
    (fewer : ∀ key block, Keys key block → between.HoldsKey key block) :
    CacheGrowth pool after Added :=
  growth.trans ⟨change.step, fun key block held =>
      .inl (fewer key block ((change.holdsKey_iff key block).mp held))⟩

theorem emit (growth : CacheGrowth pool after Added) (events : List (KVCacheEvent BlockHash)) :
    CacheGrowth pool (after.emit events) Added :=
  growth.shrink (growth.step.coherent.emit events) fun _ _ => id

end CacheGrowth

theorem CacheCoherent.cacheFullBlock (coherent : CacheCoherent pool)
    (notNull : (pool.blocks block).isNull = false)
    (cached : pool.cacheFullBlock key block numHashTokens = .ok after) :
    CacheGrowth pool after (fun other keyed => other = key ∧ keyed = block) := by
  obtain ⟨promoted, promotes, inserts⟩ := bind_ok.mp cached
  have promotion : CacheGrowth pool promoted (fun other keyed => other = key ∧ keyed = block) := by
    unfold promoteBlock at promotes
    split at promotes
    · cases promotes
      exact .refl coherent
    obtain ⟨_, _, evicts⟩ := bind_ok.mp promotes
    cases evicts
    exact CacheGrowth.shrink (.refl coherent) (coherent.maybeEvictCachedBlock block)
      fun _ _ => And.left
  have stillNotNull : (promoted.blocks block).isNull = false := by
    rw [promotion.step.same.isNull, notNull]
  have inserted := promotion.step.coherent.insertBlockHash_ok stillNotNull inserts
  exact promotion.trans
    ⟨inserted.step, fun other keyed held => (inserted.holdsKey_iff other keyed).mp held⟩

variable {request : HashedRequest BlockHash} {blocks : List BlockId}
    {kvCacheGroupId size numCachedBlocks : Nat}

section

variable (coherent : CacheCoherent pool)
include coherent

/-- The loop only gives the listed blocks their hashes, null ones aside. -/
theorem CacheCoherent.cacheFullLoop
    (done :
      BlockPool.cacheFullLoop newBlockHashes numCachedBlocks size
        kvCacheGroupId blockMask blocks i pool newHashes = .ok result) :
    CacheGrowth pool result.1 (fun key block =>
      ∃ j, blocks[j]? = some block ∧ (pool.blocks block).isNull = false ∧
        newBlockHashes[i + j]? = some key.blockHash ∧ key.groupId = kvCacheGroupId) := by
  induction blocks generalizing i pool newHashes with
  | nil =>
    cases done
    exact .refl coherent
  | cons block rest ih =>
    obtain ⟨masked, _, continues⟩ := bind_ok.mp done
    have later
        {between : BlockPool BlockHash}
        {newHashes : List (ExternalBlockHash BlockHash)}
        (coherent : CacheCoherent between)
        (isNull : ∀ other, (between.blocks other).isNull = (pool.blocks other).isNull)
        (loops : BlockPool.cacheFullLoop newBlockHashes numCachedBlocks size
            kvCacheGroupId blockMask rest (i + 1) between newHashes = .ok result) :
        CacheGrowth between result.1 (fun key other =>
          ∃ j, (block :: rest)[j]? = some other ∧ (pool.blocks other).isNull = false ∧
            newBlockHashes[i + j]? = some key.blockHash ∧
            key.groupId = kvCacheGroupId) := by
      refine (ih coherent loops).mono ?_
      rintro key other ⟨j, listed, notNull, hashed, group⟩
      refine ⟨j + 1, listed, ?_, ?_, group⟩
      · rw [← isNull, notNull]
      · rw [← hashed, add_assoc, add_comm 1 j]
    split at continues
    · exact later coherent (fun _ => rfl) continues
    rename_i kept
    obtain ⟨blockHash, hashed, caches⟩ := bind_ok.mp continues
    obtain ⟨cached, cachedBlock, loops⟩ := bind_ok.mp caches
    have notNull : (pool.blocks block).isNull = false := by
      cases isNull : (pool.blocks block).isNull with
      | false => rfl
      | true =>
        rw [isNull] at kept
        exact absurd rfl kept
    have first := coherent.cacheFullBlock notNull cachedBlock
    refine (first.mono ?_).trans (later first.step.coherent first.step.same.isNull loops)
    rintro key other ⟨rfl, rfl⟩
    exact ⟨0, rfl, notNull, indexed_eq_ok.mp hashed, rfl⟩

/-- The keys that caching the full blocks of a request adds. -/
def FullKey (pool : BlockPool BlockHash) (request : HashedRequest BlockHash)
    (blocks : List BlockId) (numFullBlocks blockSize kvCacheGroupId : Nat)
    (key : BlockHashWithGroupId BlockHash) (block : BlockId) : Prop :=
  ∃ blockHashes position,
    resolveBlockHashes request.blockHashes pool.config.hasher.hashBlockSize blockSize =
        .ok blockHashes ∧
      position < numFullBlocks ∧ blocks[position]? = some block ∧
      (pool.blocks block).isNull = false ∧
      blockHashes[position]? = some key.blockHash ∧ key.groupId = kvCacheGroupId

/-- Caching full blocks gives them their hashes and keeps the cache coherent. -/
theorem CacheCoherent.cacheFullBlocks
    (done :
      pool.cacheFullBlocks request blocks numCachedBlocks numFullBlocks size
        kvCacheGroupId blockMask = .ok after) :
    CacheGrowth pool after
      (pool.FullKey request blocks numFullBlocks size kvCacheGroupId) := by
  unfold BlockPool.cacheFullBlocks at done
  split at done
  · cases done
    exact .refl coherent
  obtain ⟨_, _, resolves⟩ := bind_ok.mp done
  obtain ⟨hashes, resolved, loops⟩ := bind_ok.mp resolves
  obtain ⟨⟨cached, newHashes⟩, looped, reports⟩ := bind_ok.mp loops
  have growth : CacheGrowth pool cached
        (pool.FullKey request blocks numFullBlocks size kvCacheGroupId) := by
    refine (coherent.cacheFullLoop looped).mono ?_
    rintro key block ⟨j, listed, notNull, hashed, group⟩
    rw [getElem?_drop, getElem?_take] at listed
    split at listed
    · next below =>
      rw [getElem?_drop, zero_add] at hashed
      exact ⟨hashes, numCachedBlocks + j, resolved, below, listed, notNull, hashed, group⟩
    · cases listed
  simp only at reports
  split at reports
  · obtain ⟨parent, _, checks⟩ := bind_ok.mp reports
    obtain ⟨_, _, emits⟩ := bind_ok.mp checks
    cases emits
    exact growth.emit _
  · cases reports
    exact growth

/-- The key that a partial entry adds. -/
def PartialKey (pool : BlockPool BlockHash) (request : HashedRequest BlockHash) (block : BlockId)
    (numTokens kvCacheGroupId blockSize : Nat) (key : BlockHashWithGroupId BlockHash)
    (keyed : BlockId) : Prop :=
  keyed = block ∧ (pool.blocks block).isNull = false ∧
    blockSize % pool.config.hasher.hashBlockSize = 0 ∧
    numTokens % pool.config.hasher.hashBlockSize = 0 ∧
    0 < numTokens / pool.config.hasher.hashBlockSize ∧
    request.blockHashes[numTokens / pool.config.hasher.hashBlockSize - 1]? = some key.blockHash ∧
    key.groupId = kvCacheGroupId

/-- Registering a partial entry keeps the cache coherent. -/
theorem CacheCoherent.cachePartialBlock
    (done :
      pool.cachePartialBlock request block numTokens kvCacheGroupId size = .ok result) :
    CacheGrowth pool result.2
      (pool.PartialKey request block numTokens kvCacheGroupId size) := by
  unfold BlockPool.cachePartialBlock at done
  split at done
  · cases done
    exact .refl coherent
  rename_i notNull
  obtain ⟨_, _, done⟩ := bind_ok.mp done
  obtain ⟨_, whole, done⟩ := bind_ok.mp done
  obtain ⟨_, _, done⟩ := bind_ok.mp done
  obtain ⟨blockHash, hashes, done⟩ := bind_ok.mp done
  obtain ⟨inserted, inserts, done⟩ := bind_ok.mp done
  rw [Bool.not_eq_true] at notNull
  have isKey : pool.PartialKey request block numTokens kvCacheGroupId size
        ⟨blockHash, kvCacheGroupId⟩ block := by
    obtain ⟨_, aligned, hashes⟩ := bind_ok.mp hashes
    obtain ⟨_, inside, hashes⟩ := bind_ok.mp hashes
    exact ⟨rfl, notNull, ensure_eq_ok.mp whole, ensure_eq_ok.mp aligned,
      (ensure_eq_ok.mp inside).1, indexed_eq_ok.mp hashes, rfl⟩
  have insertion
      {between : BlockPool BlockHash}
      (promoted : CacheGrowth pool between
          (pool.PartialKey request block numTokens kvCacheGroupId size))
      {tokens : Option Nat}
      (inserts : between.insertBlockHash ⟨blockHash, kvCacheGroupId⟩ block tokens = .ok inserted) :
      CacheGrowth pool inserted (pool.PartialKey request block numTokens kvCacheGroupId size) := by
    have change := promoted.step.coherent.insertBlockHash_ok
      (by rw [promoted.step.same.isNull, notNull]) inserts
    refine promoted.trans ⟨change.step, fun key keyed held => ?_⟩
    rcases (change.holdsKey_iff key keyed).mp held with old | ⟨rfl, rfl⟩
    · exact .inl old
    · exact .inr isKey
  have growth : CacheGrowth pool inserted
        (pool.PartialKey request block numTokens kvCacheGroupId size) := by
    split at inserts
    · exact insertion (CacheGrowth.shrink (.refl coherent) (coherent.maybeEvictCachedBlock block)
          fun _ _ => And.left) inserts
    · exact insertion (.refl coherent) inserts
  cases done
  split
  · exact growth
  · exact growth.emit _

/-- Moving the keys of a block to one that is not null keeps the cache coherent. -/
theorem CacheCoherent.moveBlockHashes
    (notNull : (pool.blocks dstBlock).isNull = false)
    (done : pool.moveBlockHashes srcBlock dstBlock = .ok after) :
    CacheStep pool after ∧ ∀ key block, after.HoldsKey key block →
        (pool.HoldsKey key block ∧ block ≠ srcBlock) ∨
          (pool.HoldsKey key srcBlock ∧ block = dstBlock) := by
  obtain ⟨_, _, done⟩ := bind_ok.mp done
  obtain ⟨_, _, done⟩ := bind_ok.mp done
  obtain ⟨removed, removedKeys⟩ := coherent.removeCachedBlockHashes srcBlock
  refine foldlM_preserves
    (fun between => CacheStep pool between ∧ ∀ key block, between.HoldsKey key block →
        (pool.HoldsKey key block ∧ block ≠ srcBlock) ∨
          (pool.HoldsKey key srcBlock ∧ block = dstBlock))
    ?_ ⟨removed.step, fun key block held =>
      .inl ((removed.holdsKey_iff key block).mp held)⟩ done
  rintro between key next mem ⟨step, keys⟩ inserted
  have change := step.coherent.insertBlockHash_ok (by rw [step.same.isNull, notNull]) inserted
  refine ⟨step.trans change.step, fun other block held => ?_⟩
  rcases (change.holdsKey_iff other block).mp held with old | ⟨rfl, rfl⟩
  · exact keys other block old
  · exact .inr ⟨(removedKeys other).mp mem, rfl⟩

/-- Evicting blocks by id removes keys and keeps the cache coherent. -/
theorem CacheCoherent.evictBlocks
    (done : pool.evictBlocks blockIds = .ok after) :
    CacheGrowth pool after (fun _ _ => False) := by
  refine foldlM_preserves (fun between => CacheGrowth pool between fun _ _ => False)
    ?_ (.refl coherent) done
  intro between blockId next _ growth evicted
  obtain ⟨_, _, evicted⟩ := bind_ok.mp evicted
  obtain ⟨block, _, evicted⟩ := bind_ok.mp evicted
  cases evicted
  exact growth.shrink (growth.step.coherent.maybeEvictCachedBlock block) fun _ _ => And.left

end

omit [DecidableEq BlockHash] in
/-- Resetting the cache leaves it coherent, and empty if the reset went through. -/
theorem CacheCoherent.resetPrefixCache (coherent : CacheCoherent pool) :
    CacheGrowth pool pool.resetPrefixCache.2 (fun _ _ => False) := by
  unfold BlockPool.resetPrefixCache
  split
  · exact .refl coherent
  have cleared : CacheCoherent
        { pool with
          cachedBlockHashToBlock := empty
          cachedBlockHashesByBlock := fun _ => none
          blocks := fun block => (pool.blocks block).resetHash } :=
    ⟨fun key block => by
        simp [empty, listed, HoldsKey, secondaryKeys, resetHash],
      fun key block _ => by
        simp [HoldsKey, secondaryKeys, resetHash],
      fun block _ => rfl⟩
  have emitted := cleared.emit [.allBlocksCleared]
  refine ⟨⟨⟨emitted.same.config, emitted.same.freeBlockQueue, emitted.same.nullBlock,
        emitted.same.refCnt, emitted.same.isNull⟩, emitted.coherent⟩,
      fun key block held => ?_⟩
  have none := (emitted.holdsKey_iff key block).mp held
  simp [HoldsKey, secondaryKeys, resetHash] at none

end BlockPool

end VllmCore
