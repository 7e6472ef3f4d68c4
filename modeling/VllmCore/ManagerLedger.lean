import VllmCore.BlockLedger

namespace VllmCore

open Lib List

/-!
# What the operations of one manager do to the references

A manager refers to the blocks in its tables and to both ends of its pending
copies.  Each operation on a request is shown to keep the ledger balanced, to leave
every other request alone and to take no more free blocks than a stated cost.
-/

variable {BlockHash : Type}

namespace SingleTypeKVCacheManager

variable (manager : SingleTypeKVCacheManager BlockHash)

/-- All references a manager holds. -/
def references : List BlockId :=
  manager.reqToBlocks.items ++ manager.pendingCowCopies.flatMap fun copy => [copy.1, copy.2]

theorem references_addCowCopy (sourceBlock cowBlock : BlockId) :
    (manager.addCowCopy sourceBlock cowBlock).references =
      manager.references ++ [sourceBlock, cowBlock] := by
  simp [references, addCowCopy, flatMap_append]

variable {reqId : RequestId} {blocks : List BlockId} {block : BlockId}

@[simp]
theorem table_setTable {other : RequestId} :
    (manager.setTable reqId blocks).table other =
      if other = reqId then blocks else manager.table other :=
  Dict.getD_set _ _ _ _ _

theorem count_setTable
    (reqId : RequestId) (blocks : List BlockId) (block : BlockId) :
    (manager.setTable reqId blocks).references.count block + (manager.table reqId).count block =
      manager.references.count block + blocks.count block := by
  have old := (manager.reqToBlocks.items_perm reqId).count_eq block
  have new := (manager.reqToBlocks.items_set_perm reqId blocks).count_eq block
  rw [count_append] at old new
  simp only [references, setTable, table, count_append]
  omega

theorem mem_setTable {manager : SingleTypeKVCacheManager BlockHash}
    (mem : block ∈ (manager.setTable reqId blocks).references) :
    block ∈ blocks ∨ block ∈ manager.references := by
  have balance := manager.count_setTable reqId blocks block
  have listed := count_pos_iff.mpr mem
  by_cases isNew : block ∈ blocks
  · exact .inl isNew
  · rw [count_eq_zero.mpr isNew] at balance
    exact .inr (count_pos_iff.mp (by omega))

theorem mem_references_of_table {manager : SingleTypeKVCacheManager BlockHash}
    (mem : block ∈ manager.table reqId) : block ∈ manager.references :=
  mem_append_left _ ((manager.reqToBlocks.items_perm reqId).mem_iff.mpr (mem_append_left _ mem))

/-- Two managers agree on everything about a request that later steps read. -/
structure SameFor (before after : SingleTypeKVCacheManager BlockHash)
    (requestId : RequestId) : Prop where
  table : after.table requestId = before.table requestId
  numCachedBlock : after.numCachedBlock.get? requestId = before.numCachedBlock.get? requestId
  partialHitReqs : after.partialHitReqs.get? requestId = before.partialHitReqs.get? requestId
  allocatedBlockReqs : requestId ∈ after.allocatedBlockReqs ↔ requestId ∈ before.allocatedBlockReqs

/-- An operation on one request changes nothing for the others. -/
structure SameExcept (requestId : RequestId)
    (before after : SingleTypeKVCacheManager BlockHash) : Prop where
  config : after.toManagerConfig = before.toManagerConfig
  others : ∀ other, other ≠ requestId → SameFor before after other

namespace SameExcept

variable {reqId : RequestId} {first second third : SingleTypeKVCacheManager BlockHash}

theorem refl (manager : SingleTypeKVCacheManager BlockHash) :
    SameExcept reqId manager manager :=
  ⟨rfl, fun _ _ => ⟨rfl, rfl, rfl, Iff.rfl⟩⟩

theorem trans (before : SameExcept reqId first second)
    (later : SameExcept reqId second third) : SameExcept reqId first third := by
  refine ⟨later.config.trans before.config, fun other differs => ?_⟩
  have earlier := before.others other differs
  have after := later.others other differs
  exact ⟨after.table.trans earlier.table, after.numCachedBlock.trans earlier.numCachedBlock,
    after.partialHitReqs.trans earlier.partialHitReqs,
    after.allocatedBlockReqs.trans earlier.allocatedBlockReqs⟩

theorem setTable (manager : SingleTypeKVCacheManager BlockHash) (blocks : List BlockId) :
    SameExcept reqId manager (manager.setTable reqId blocks) := by
  refine ⟨rfl, fun other differs => ⟨?_, rfl, rfl, Iff.rfl⟩⟩
  rw [table_setTable, if_neg differs]

end SameExcept

/-- Two managers agree on all bookkeeping beside the tables. -/
structure SameBook (before after : SingleTypeKVCacheManager BlockHash) : Prop where
  numCachedBlock : after.numCachedBlock = before.numCachedBlock
  partialHitReqs : after.partialHitReqs = before.partialHitReqs
  allocatedBlockReqs : after.allocatedBlockReqs = before.allocatedBlockReqs

variable (manager : SingleTypeKVCacheManager BlockHash) (reqId : RequestId)
  (blocks : List BlockId)

theorem references_extendTable :
    (manager.extendTable reqId blocks).references =
      (manager.setTable reqId (manager.table reqId ++ blocks)).references := by
  unfold extendTable recordNewBlocks
  split <;> rfl

theorem table_extendTable :
    (manager.extendTable reqId blocks).table reqId = manager.table reqId ++ blocks := by
  have extended : (manager.extendTable reqId blocks).table reqId =
      (manager.setTable reqId (manager.table reqId ++ blocks)).table
        reqId := by
    unfold extendTable recordNewBlocks
    split <;> rfl
  rw [extended, table_setTable, if_pos rfl]

theorem sameExcept_extendTable :
    SameExcept reqId manager (manager.extendTable reqId blocks) := by
  refine (SameExcept.setTable manager (manager.table reqId ++ blocks)).trans ?_
  unfold extendTable recordNewBlocks
  split
  · exact ⟨rfl, fun _ _ => ⟨rfl, rfl, rfl, Iff.rfl⟩⟩
  · exact SameExcept.refl _

theorem sameBook_extendTable : SameBook manager (manager.extendTable reqId blocks) := by
  unfold extendTable recordNewBlocks
  split <;> exact ⟨rfl, rfl, rfl⟩

/-- Counts given to the pool are not negative and hand-offs name real blocks. -/
structure Sound (numGpuBlocks : Nat) (manager : SingleTypeKVCacheManager BlockHash) : Prop where
  requestedCounts : ∀ count ∈ manager.requestedCounts, 0 ≤ count
  offloads : ∀ entry ∈ manager.pendingPartialTailOffloads, entry.2.2.1 < numGpuBlocks

theorem Sound.extendTable {manager : SingleTypeKVCacheManager BlockHash}
    (sound : manager.Sound numGpu) (reqId : RequestId) (blocks : List BlockId) :
    (manager.extendTable reqId blocks).Sound numGpu := by
  unfold SingleTypeKVCacheManager.extendTable recordNewBlocks
  split <;> exact ⟨sound.requestedCounts, sound.offloads⟩

theorem Sound.noteRequest {manager : SingleTypeKVCacheManager BlockHash}
    (sound : manager.Sound numGpu) {count : Int} (nonneg : 0 ≤ count) :
    (manager.noteRequest count).Sound numGpu := by
  refine ⟨?_, sound.offloads⟩
  intro other mem
  rcases mem_append.mp mem with earlier | last
  · exact sound.requestedCounts other earlier
  · rw [mem_singleton.mp last]
    exact nonneg

end SingleTypeKVCacheManager

open SingleTypeKVCacheManager

/--
An operation on one request: the ledger balances, other requests keep what they
have and at most `cost` blocks leave the free list.
-/
structure Spends (requestId : RequestId) (others : List BlockId) (cost : Nat)
    (before : GroupCache BlockHash) (free : List BlockId) (after : GroupCache BlockHash)
    (free' : List BlockId) : Prop where
  ledger : Ledger after.pool free' (after.manager.references ++ others)
  spent : free.length ≤ free'.length + cost
  frame : SameFrame before.pool after.pool
  same : SameExcept requestId before.manager after.manager
  sound :
    before.manager.Sound before.pool.config.numGpuBlocks →
      after.manager.Sound before.pool.config.numGpuBlocks

namespace Spends

variable {reqId : RequestId} {others free free' free'' : List BlockId}
  {first second third : GroupCache BlockHash} {cost more : Nat}

theorem refl (ledger : Ledger first.pool free (first.manager.references ++ others)) :
    Spends reqId others 0 first free first free :=
  ⟨ledger, le_rfl, SameFrame.refl _, SameExcept.refl _, id⟩

theorem trans (before : Spends reqId others cost first free second free')
    (later : Spends reqId others more second free' third free'') :
    Spends reqId others (cost + more) first free third free'' := by
  refine ⟨later.ledger, ?_, before.frame.trans later.frame, before.same.trans later.same, ?_⟩
  · have := before.spent
    have := later.spent
    omega
  · intro sound
    have after := later.sound
    rw [before.frame.config] at after
    exact after (before.sound sound)

theorem mono (spends : Spends reqId others cost first free second free')
    (cheaper : cost ≤ more) : Spends reqId others more first free second free' :=
  ⟨spends.ledger, le_trans spends.spent (Nat.add_le_add_left cheaper _),
    spends.frame, spends.same, spends.sound⟩

end Spends

namespace GroupCache

variable {reqId : RequestId} {others free : List BlockId}
  {cache : GroupCache BlockHash}

variable {manager : SingleTypeKVCacheManager BlockHash} {blocks : List BlockId}
  (config : ManagerConfig)

/-- Blocks taken out of a table are still accounted for, null ones aside. -/
theorem ledger_setTable {freed : List BlockId}
    (ledger : Ledger cache.pool free (cache.manager.references ++ others))
    (inside : ∀ block, block ∈ freed ∨ block ∈ blocks → block < cache.pool.config.numGpuBlocks)
    (counts :
      ∀ block, block ≠ cache.pool.nullBlock → freed.count block + blocks.count block =
        (cache.manager.table reqId).count block) :
    Ledger cache.pool free
      (freed ++ ((cache.manager.setTable reqId blocks).references ++ others)) := by
  refine ledger.ignoreNull ?_ ?_
  · intro block mem
    rcases mem_append.mp mem with released | held
    · exact inside block (.inl released)
    rcases mem_append.mp held with listed | elsewhere
    · rcases mem_setTable listed with new | old
      · exact inside block (.inr new)
      · exact ledger.inside block (mem_append_left _ old)
    · exact ledger.inside block (mem_append_right _ elsewhere)
  · intro block notNull
    have balance := cache.manager.count_setTable reqId blocks block
    have := counts block notNull
    simp only [count_append]
    omega

/-- Changing a table to one that refers to the same blocks, null ones aside. -/
theorem spends_setTable (ledger : Ledger cache.pool free (cache.manager.references ++ others))
    (inside : ∀ block ∈ blocks, block < cache.pool.config.numGpuBlocks)
    (counts :
      ∀ block, block ≠ cache.pool.nullBlock →
        blocks.count block = (cache.manager.table reqId).count block) :
    Spends reqId others 0 cache free
      { cache with manager := cache.manager.setTable reqId blocks } free := by
  refine ⟨?_, le_rfl, SameFrame.refl _, SameExcept.setTable _ _,
    fun sound => ⟨sound.requestedCounts, sound.offloads⟩⟩
  refine @ledger_setTable _ _ _ _ _ _ [] ledger ?_ ?_
  · simpa using inside
  · simpa using counts

/-- Reading the table of a request lists it. -/
theorem spends_relist (reqId : RequestId)
    (ledger : Ledger cache.pool free (cache.manager.references ++ others)) :
    Spends reqId others 0 cache free
      { cache with
        manager := cache.manager.setTable reqId (cache.manager.table reqId) }
      free :=
  spends_setTable ledger (fun block mem => ledger.inside block
      (mem_append_left _ (mem_references_of_table mem)))
    (fun _ _ => rfl)

/-- Bookkeeping that touches neither tables nor copies. -/
theorem spends_of_same (ledger : Ledger cache.pool free (cache.manager.references ++ others))
    (references : manager.references = cache.manager.references)
    (same : SameExcept reqId cache.manager manager)
    (sound :
      cache.manager.Sound cache.pool.config.numGpuBlocks →
        manager.Sound cache.pool.config.numGpuBlocks) :
    Spends reqId others 0 cache free { cache with manager } free := by
  refine ⟨?_, le_rfl, SameFrame.refl _, same, sound⟩
  rw [references]
  exact ledger

/-! ## Adopting cached blocks -/

theorem touchComputed_meets (ledger : Ledger cache.pool free (cache.manager.references ++ others))
    (inside : ∀ block ∈ blocks, block < cache.pool.config.numGpuBlocks) :
    Meets Fault.NotValue (fun pool =>
      ∃ free', Ledger pool free' (blocks ++ (cache.manager.references ++ others)) ∧
        free.length ≤ free'.length + getNumEvictableBlocks cache.pool blocks ∧
        SameFrame cache.pool pool ∧
        ∀ block, (cache.pool.blocks block).refCnt ≤ (pool.blocks block).refCnt)
      (cache.touchComputed blocks) := by
  unfold touchComputed
  split
  · obtain ⟨after, free', touched, touchedLedger, same, counts, spent⟩ :=
      ledger.touch inside
    exact meets_of_ok touched ⟨free', touchedLedger, spent, same.sameFrame, counts⟩
  · refine meets_ensure.bind fun _ none => ?_
    subst none
    exact ⟨free, ledger, Nat.le_add_right _ _, SameFrame.refl _, fun _ => Int.le_refl _⟩

/-- Only bookkeeping of the request changes when its hit is recorded. -/
theorem recordPartialHit_same :
    (recordPartialHit manager reqId blocks numLocal).references = manager.references ∧
      SameExcept reqId manager
        (recordPartialHit manager reqId blocks numLocal) ∧
      (recordPartialHit manager reqId blocks numLocal).table reqId = manager.table reqId ∧
      ((recordPartialHit manager reqId blocks
          numLocal).allocatedBlockReqs = manager.allocatedBlockReqs) ∧
      ∀ numGpu, manager.Sound numGpu → (recordPartialHit manager reqId blocks
          numLocal).Sound numGpu := by
  unfold recordPartialHit
  split
  · exact ⟨rfl, SameExcept.refl _, rfl, rfl, fun _ => id⟩
  split
  · refine ⟨rfl, ⟨rfl, fun other differs => ⟨rfl, ?_, ?_, Iff.rfl⟩⟩, rfl, rfl,
      fun _ sound => ⟨sound.requestedCounts, sound.offloads⟩⟩
    all_goals exact (Dict.get?_set _).trans (if_neg differs)
  · exact ⟨rfl, SameExcept.refl _, rfl, rfl, fun _ => id⟩

theorem recordPartialHit_hits :
    (recordPartialHit manager reqId blocks numLocal).partialHitReqs.contains reqId =
      (manager.hasPartialLocalHit blocks numLocal ||
        manager.partialHitReqs.contains reqId) := by
  unfold recordPartialHit ManagerConfig.hasPartialLocalHit
  cases isLast : blocks.getLast? with
  | none =>
    rw [getLast?_eq_none_iff.mp isLast]
    rfl
  | some last =>
    have nonempty : 0 < blocks.length := by
      rw [length_pos_iff_ne_nil]
      rintro rfl
      cases isLast
    by_cases aligned : numLocal % manager.blockSize = 0
    · simp [aligned]
    · simp [aligned, nonempty]

theorem recordPartialHit_cached
    (tracked : manager.numCachedBlock.contains reqId = true) :
    (recordPartialHit manager reqId blocks
      numLocal).numCachedBlock.contains reqId = true := by
  unfold recordPartialHit
  split
  · exact tracked
  · split
    · simp
    · exact tracked

/-- How many leading places of a table are null from the start. -/
def leadingNulls (numComputedTokens : Nat) : Nat :=
  (config.numSkippedBlocks numComputedTokens).toNat

/-- What adopting cached blocks leaves behind for the request. -/
structure Adopted (requestId : RequestId) (hits : List BlockId) (numLocalComputedTokens nulls : Nat)
    (before after : GroupCache BlockHash) : Prop where
  table : after.manager.table requestId = replicate nulls before.pool.nullBlock ++ hits.drop nulls
  partialHit :
    after.manager.partialHitReqs.contains requestId =
      (before.manager.hasPartialLocalHit (hits.drop nulls) numLocalComputedTokens ||
        before.manager.partialHitReqs.contains requestId)
  tracked : after.manager.numCachedBlock.contains requestId = true
  allocated : after.manager.allocatedBlockReqs = before.manager.allocatedBlockReqs
  counts : ∀ block, (before.pool.blocks block).refCnt ≤ (after.pool.blocks block).refCnt

variable {count : Int}

/-- Adopting cached blocks takes the evictable ones among those kept. -/
theorem local_meets
    (ledger : Ledger cache.pool free (cache.manager.references ++ others))
    (attention : cache.manager.isCrossAttention = false)
    (inside : ∀ block ∈ hits, block < cache.pool.config.numGpuBlocks)
    (nullsAre : leadingNulls cache.manager.toManagerConfig (numLocal + numExternal) = nulls) :
    Meets Fault.NotValue (fun after =>
      Adopted reqId hits numLocal nulls cache after ∧ ∃ free', Spends reqId others
        (getNumEvictableBlocks cache.pool (hits.drop nulls)) cache free after free')
      (cache.addLocalComputedBlocks reqId hits numLocal numExternal) := by
  unfold addLocalComputedBlocks
  rw [attention]
  refine meets_ensure.bind fun _ noTable => ?_
  have empty : cache.manager.table reqId = [] := length_eq_zero_iff.mp noTable
  unfold leadingNulls at nullsAre
  simp only [nullsAre]
  have keptInside : ∀ block ∈ hits.drop nulls, block < cache.pool.config.numGpuBlocks :=
    fun block mem => inside block (mem_of_mem_drop mem)
  refine (touchComputed_meets ledger keptInside).bind ?_
  rintro pool ⟨free', touched, spent, frame, counts⟩
  have nullBlock : pool.nullBlock = cache.pool.nullBlock := frame.nullBlock
  generalize reqBlocksAre : replicate nulls pool.nullBlock ++ hits.drop nulls = reqBlocks
  obtain ⟨references, same, table, allocated, sound⟩ := recordPartialHit_same
  have adopting : SameExcept reqId cache.manager (cache.manager.adoptBlocks reqId reqBlocks) := by
    refine (SameExcept.setTable cache.manager reqBlocks).trans ⟨rfl, fun other differs => ?_⟩
    exact ⟨rfl, (Dict.get?_set _).trans (if_neg differs), rfl, Iff.rfl⟩
  refine ⟨⟨?_, ?_, ?_, allocated, counts⟩, free', ?_, spent, frame, adopting.trans same, ?_⟩
  · rw [← nullBlock, reqBlocksAre]
    exact table.trans ((table_setTable _).trans (if_pos rfl))
  · exact recordPartialHit_hits
  · exact recordPartialHit_cached (by simp [adoptBlocks])
  · refine touched.ignoreNull ?_ ?_
    · intro block mem
      rw [references] at mem
      rcases mem_append.mp mem with listed | elsewhere
      · rcases mem_setTable listed with new | old
        · rw [← reqBlocksAre] at new
          rcases mem_append.mp new with padding | adopted
          · rw [eq_of_mem_replicate padding]
            exact touched.null_inside
          · exact touched.inside block (mem_append_left _ adopted)
        · exact touched.inside block (mem_append_right _ (mem_append_left _ old))
      · exact touched.inside block (mem_append_right _ (mem_append_right _ elsewhere))
    · intro block notNull
      have balance := cache.manager.count_setTable reqId reqBlocks block
      rw [empty, count_nil, ← reqBlocksAre, count_append,
        count_replicate, if_neg (by simpa using notNull.symm)] at balance
      rw [references, count_append, count_append, count_append]
      have unfolded : (cache.manager.adoptBlocks reqId reqBlocks).references.count block =
            (cache.manager.setTable reqId reqBlocks).references.count block := rfl
      rw [unfolded, ← reqBlocksAre]
      omega
  · intro before
    exact sound _ ⟨before.requestedCounts, before.offloads⟩

/-! ## Taking new blocks -/

variable [DecidableEq BlockHash]

theorem getNewBlocks_eq_ok {references : List BlockId} (ledger : Ledger cache.pool free references)
    (nonneg : 0 ≤ count) (enough : count.toNat ≤ free.length) :
    ∃ pool, cache.getNewBlocks count =
        .ok (free.take count.toNat, ⟨pool, cache.manager.noteRequest count⟩) ∧
      Ledger pool (free.drop count.toNat) (free.take count.toNat ++ references) ∧
      SameFrame cache.pool pool := by
  obtain ⟨pool, taken, after, frame, _⟩ := ledger.getNewBlocks enough
  rw [Int.toNat_of_nonneg nonneg] at taken
  refine ⟨pool, ?_, after, frame⟩
  rw [getNewBlocks, taken]
  rfl

omit [DecidableEq BlockHash] in
/-- Blocks held for a request move behind the end of its table. -/
theorem ledger_setTable_append {pool : BlockPool BlockHash}
    (ledger : Ledger pool free (blocks ++ (manager.references ++ others))) :
    Ledger pool free
      ((manager.setTable reqId (manager.table reqId ++ blocks)).references ++ others) := by
  refine ledger.ignoreNull ?_ ?_
  · intro block mem
    rcases mem_append.mp mem with listed | elsewhere
    · rcases mem_setTable listed with inTable | old
      · rcases mem_append.mp inTable with old | new
        · exact ledger.inside block (mem_append_right _
            (mem_append_left _ (mem_references_of_table old)))
        · exact ledger.inside block (mem_append_left _ new)
      · exact ledger.inside block (mem_append_right _ (mem_append_left _ old))
    · exact ledger.inside block (mem_append_right _ (mem_append_right _ elsewhere))
  · intro block _
    have balance := manager.count_setTable reqId (manager.table reqId ++ blocks) block
    simp only [count_append] at balance ⊢
    omega

/-- New blocks behind the end of a table. -/
theorem getNewBlocks_extendTable
    (ledger : Ledger cache.pool free (cache.manager.references ++ others)) (nonneg : 0 ≤ count)
    (enough : count.toNat ≤ free.length) :
    ∃ pool, cache.getNewBlocks count =
        .ok (free.take count.toNat, ⟨pool, cache.manager.noteRequest count⟩) ∧
      Spends reqId others count.toNat cache free
        ⟨pool, (cache.manager.noteRequest count).extendTable reqId (free.take count.toNat)⟩
        (free.drop count.toNat) := by
  obtain ⟨pool, taken, after, frame⟩ := getNewBlocks_eq_ok ledger nonneg enough
  refine ⟨pool, taken, ?_, ?_, frame, ?_, ?_⟩
  · rw [references_extendTable]
    exact ledger_setTable_append after
  · rw [length_drop]
    omega
  · have noted : SameExcept reqId cache.manager (cache.manager.noteRequest count) :=
      ⟨rfl, fun _ _ => ⟨rfl, rfl, rfl, Iff.rfl⟩⟩
    exact noted.trans (sameExcept_extendTable _ _ _)
  · intro sound
    exact (sound.noteRequest nonneg).extendTable _ _

/-- How many blocks external tokens take behind a table. -/
def externalCost (length numLocalComputedTokens numExternalComputedTokens : Nat) : Nat :=
  if config.isCrossAttention ||
      numNeededExternalTokens config numLocalComputedTokens numExternalComputedTokens ≤ 0 then
    0
  else
    cdiv (numLocalComputedTokens + numExternalComputedTokens) config.blockSize - length

/-- The table of a request grew by a number of blocks; the other bookkeeping stayed. -/
structure Grown (requestId : RequestId) (count : Nat)
    (before after : SingleTypeKVCacheManager BlockHash) : Prop where
  length : (after.table requestId).length = (before.table requestId).length + count
  book : SameBook before after

omit [DecidableEq BlockHash] in
theorem Grown.trans {first second third : SingleTypeKVCacheManager BlockHash} {count more : Nat}
    (before : Grown reqId count first second) (later : Grown reqId more second third) :
    Grown reqId (count + more) first third := by
  refine ⟨?_, ?_⟩
  · rw [later.length, before.length, add_assoc]
  · exact ⟨later.book.numCachedBlock.trans before.book.numCachedBlock,
      later.book.partialHitReqs.trans before.book.partialHitReqs,
      later.book.allocatedBlockReqs.trans before.book.allocatedBlockReqs⟩

theorem external_meets
    (ledger : Ledger cache.pool free (cache.manager.references ++ others))
    (short :
      (cache.manager.table reqId).length ≤ cdiv (numLocal + numExternal) cache.manager.blockSize)
    (enough :
      externalCost cache.manager.toManagerConfig (cache.manager.table reqId).length
        numLocal numExternal ≤ free.length) :
    Meets Fault.NotValue (fun after =>
      Grown reqId
          (externalCost cache.manager.toManagerConfig
            (cache.manager.table reqId).length numLocal
            numExternal)
          cache.manager after.manager ∧
        ∃ free', Spends reqId others
            (externalCost cache.manager.toManagerConfig
              (cache.manager.table reqId).length numLocal
              numExternal)
            cache free after free')
      (cache.allocateExternalComputedBlocks reqId numLocal numExternal) := by
  unfold allocateExternalComputedBlocks
  unfold externalCost at enough ⊢
  by_cases cross : cache.manager.isCrossAttention = true
  · simp only [cross, Bool.true_or, if_true]
    exact ⟨⟨rfl, ⟨rfl, rfl, rfl⟩⟩, free, Spends.refl ledger⟩
  simp only [cross, Bool.false_or, decide_eq_true_eq] at enough ⊢
  split
  · exact ⟨⟨rfl, ⟨rfl, rfl, rfl⟩⟩, free, Spends.refl ledger⟩
  rename_i needed
  rw [if_neg needed] at enough
  generalize countIs : (cdiv (numLocal + numExternal) cache.manager.blockSize : Int) -
      (cache.manager.table reqId).length = count
  have nonneg : 0 ≤ count := by omega
  have toNat : count.toNat = cdiv (numLocal + numExternal) cache.manager.blockSize -
      (cache.manager.table reqId).length := by omega
  rw [← toNat] at enough ⊢
  obtain ⟨pool, taken, spends⟩ := getNewBlocks_extendTable ledger nonneg enough
  rw [taken]
  refine ⟨⟨?_, ?_⟩, _, spends⟩
  · rw [table_extendTable, length_append, length_take, min_eq_left enough]
    rfl
  · have book := sameBook_extendTable (cache.manager.noteRequest count) reqId
      (free.take count.toNat)
    exact ⟨book.numCachedBlock, book.partialHitReqs, book.allocatedBlockReqs⟩

omit [DecidableEq BlockHash] in
/-- Replacing one entry of a table trades its reference for another. -/
theorem count_set_of_getElem?
    (found : blocks[pos]? = some old) (new block : BlockId) :
    (blocks.set pos new).count block + [old].count block =
      blocks.count block + [new].count block := by
  obtain ⟨within, isOld⟩ := List.getElem?_eq_some_iff.mp found
  have mem : 0 < blocks.count old := count_pos_iff.mpr (isOld ▸ getElem_mem within)
  rw [count_set within, isOld, count_singleton, count_singleton]
  by_cases same : old = block
  · subst same
    simp only [beq_self_eq_true, if_true]
    omega
  · simp [same]

omit [DecidableEq BlockHash] in
theorem applyCow_meets {cowBlock : BlockId}
    (ledger : Ledger cache.pool free (cowBlock :: (cache.manager.references ++ others)))
    :
    Meets Fault.NotValue (fun after =>
      Grown reqId 0 cache.manager after.manager ∧ Spends reqId others 0 cache free after free)
      (cache.applyCow reqId blockIdx sourceBlock cowBlock) := by
  refine meets_ensure.bind fun _ _ => meets_ensure.bind fun _ isSource => ?_
  refine meets_ensure.bind fun _ _ => ?_
  obtain ⟨referenced, same⟩ := ledger.addReference mem_cons_self
  have sourceInside : sourceBlock < cache.pool.config.numGpuBlocks :=
    ledger.inside sourceBlock (mem_cons_of_mem _ (mem_append_left _
      (mem_references_of_table (mem_of_getElem? isSource))))
  refine ⟨⟨?_, ⟨rfl, rfl, rfl⟩⟩, ?_, le_rfl, same.sameFrame, ?_, ?_⟩
  · show ((cache.manager.setTable reqId _).table reqId).length = _
    rw [table_setTable, if_pos rfl, length_set]
    rfl
  · refine referenced.ignoreNull ?_ ?_
    · intro block mem
      rw [references_addCowCopy, append_assoc, mem_append, mem_append] at mem
      rcases mem with listed | copied | elsewhere
      · rcases mem_setTable listed with new | old
        · rcases mem_or_eq_of_mem_set new with kept | isCow
          · exact ledger.inside block (mem_cons_of_mem _ (mem_append_left _
              (mem_references_of_table kept)))
          · exact ledger.inside block (isCow ▸ mem_cons_self)
        · exact ledger.inside block (mem_cons_of_mem _ (mem_append_left _ old))
      · simp only [mem_cons, not_mem_nil, or_false] at copied
        rcases copied with rfl | rfl
        · exact sourceInside
        · exact ledger.inside block mem_cons_self
      · exact ledger.inside block (mem_cons_of_mem _ (mem_append_right _ elsewhere))
    · intro block _
      have balance := cache.manager.count_setTable reqId
        ((cache.manager.table reqId).set blockIdx cowBlock) block
      have traded := count_set_of_getElem? isSource cowBlock block
      simp only [references_addCowCopy, count_append, count_cons, count_nil] at balance traded ⊢
      omega
  · refine (SameExcept.setTable cache.manager
      ((cache.manager.table reqId).set blockIdx cowBlock)).trans
      ⟨rfl, fun _ _ => ⟨rfl, rfl, rfl, Iff.rfl⟩⟩
  · intro sound
    exact ⟨sound.requestedCounts, sound.offloads⟩

/-- One block for the copy of a hit that ended inside a block. -/
def copyCost (isPartial : Bool) : Nat :=
  if isPartial then 1 else 0

/-- Slots were taken: the table has `length` entries and no copy is pending. -/
structure Filled (requestId : RequestId) (length : Nat)
    (before after : SingleTypeKVCacheManager BlockHash) : Prop where
  length : (after.table requestId).length = length
  partialHit : after.partialHitReqs.get? requestId = none
  numCachedBlock : after.numCachedBlock = before.numCachedBlock
  allocatedBlockReqs : after.allocatedBlockReqs = before.allocatedBlockReqs

section

variable (ledger : Ledger cache.pool free (cache.manager.references ++ others))
include ledger

theorem copyPartialHit_meets
    (enough : copyCost (cache.manager.partialHitReqs.contains reqId) ≤ free.length) :
    Meets Fault.NotValue (fun result =>
      Filled reqId (cache.manager.table reqId).length cache.manager
          result.2.manager ∧
        ∃ free', Spends reqId others
            (copyCost (cache.manager.partialHitReqs.contains reqId)) cache free
            result.2 free')
      (cache.copyPartialHit reqId) := by
  unfold copyPartialHit copyCost Dict.contains at *
  cases found : cache.manager.partialHitReqs.get? reqId with
  | none => exact ⟨⟨rfl, found, rfl, rfl⟩, free, Spends.refl ledger⟩
  | some hit =>
    obtain ⟨blockIdx, sourceBlock⟩ := hit
    rw [found] at enough
    have one : 1 ≤ free.length := enough
    obtain ⟨cowBlock, rest, rfl⟩ := exists_cons_of_length_pos one
    let popped : GroupCache BlockHash :=
      { cache with manager := cache.manager.popPartialHit reqId }
    have poppedLedger :
        Ledger popped.pool (cowBlock :: rest) (popped.manager.references ++ others) :=
      ledger
    obtain ⟨pool, taken, after, frame⟩ :=
      getNewBlocks_eq_ok poppedLedger (show (0 : Int) ≤ 1 by decide) one
    have same : SameExcept reqId cache.manager (popped.manager.noteRequest 1) := by
      refine ⟨rfl, fun other differs => ⟨rfl, rfl, ?_, Iff.rfl⟩⟩
      exact (Dict.get?_erase _).trans (if_neg differs)
    show Meets _ _ (popped.getNewBlocks 1 >>= _)
    rw [taken]
    let noted : GroupCache BlockHash := ⟨pool, popped.manager.noteRequest 1⟩
    have copying : Meets Fault.NotValue (fun after =>
          Grown reqId 0 noted.manager after.manager ∧ Spends reqId others 0 noted rest after rest)
        (noted.applyCow reqId blockIdx sourceBlock cowBlock) :=
      applyCow_meets after
    refine copying.bind ?_
    rintro copied ⟨grown, spends⟩
    refine ⟨⟨grown.length, ?_, ?_, ?_⟩, rest, spends.ledger, ?_, ?_, ?_, ?_⟩
    · exact (congrArg (fun hits => hits.get? reqId) grown.book.partialHitReqs).trans
        ((Dict.get?_erase _).trans (if_pos rfl))
    · exact grown.book.numCachedBlock
    · exact grown.book.allocatedBlockReqs
    · exact le_rfl
    · exact frame.trans spends.frame
    · have noted : SameExcept reqId copied.manager (copied.manager.noteNewBlock cowBlock) :=
        ⟨rfl, fun _ _ => ⟨rfl, rfl, rfl, Iff.rfl⟩⟩
      exact (same.trans spends.same).trans noted
    · intro sound
      have after := spends.sound
      rw [frame.config] at after
      have poppedSound : popped.manager.Sound cache.pool.config.numGpuBlocks :=
        ⟨sound.requestedCounts, sound.offloads⟩
      have requested := poppedSound.noteRequest (show (0 : Int) ≤ 1 by decide)
      exact ⟨(after requested).requestedCounts, (after requested).offloads⟩

/-- What slots cost beside a table: the copy and the missing blocks. -/
def baseCost (numTokens length : Nat) (isPartial : Bool) : Nat :=
  copyCost isPartial + (cdiv numTokens config.blockSize - length)

theorem baseAllocate_meets
    (enough :
      baseCost cache.manager.toManagerConfig numTokens
        (cache.manager.table reqId).length
        (cache.manager.partialHitReqs.contains reqId) ≤ free.length) :
    Meets Fault.NotValue (fun result =>
      Filled reqId
          (max (cache.manager.table reqId).length (cdiv numTokens cache.manager.blockSize))
          cache.manager result.2.manager ∧
        ∃ free', Spends reqId others
            (baseCost cache.manager.toManagerConfig numTokens
              (cache.manager.table reqId).length
              (cache.manager.partialHitReqs.contains reqId))
            cache free result.2 free')
      (cache.baseAllocateNewBlocks reqId numTokens) := by
  unfold baseCost at enough ⊢
  refine (copyPartialHit_meets ledger (by omega)).bind ?_
  rintro ⟨cowBlocks, copied⟩ ⟨filled, free', spends⟩
  have size : copied.manager.blockSize = cache.manager.blockSize :=
    congrArg ManagerConfig.blockSize spends.same.config
  have length : (copied.manager.table reqId).length =
        (cache.manager.table reqId).length := filled.length
  dsimp only
  rw [size, length]
  have budget := spends.spent
  split
  · refine ⟨⟨?_, filled.partialHit, filled.numCachedBlock, filled.allocatedBlockReqs⟩,
      free', (spends.trans (spends_relist reqId spends.ledger)).mono (by omega)⟩
    rw [table_setTable, if_pos rfl]
    omega
  rename_i missing
  generalize countIs : (cdiv numTokens cache.manager.blockSize : Int) -
      (cache.manager.table reqId).length = count at missing ⊢
  obtain ⟨pool, taken, extending⟩ :=
    getNewBlocks_extendTable spends.ledger (show 0 ≤ count by omega)
      (show count.toNat ≤ free'.length by omega)
  rw [taken]
  refine ⟨⟨?_, ?_, ?_, ?_⟩, _, (spends.trans extending).mono (by omega)⟩
  · show (((copied.manager.noteRequest count).extendTable reqId _).table reqId).length = _
    rw [table_extendTable, length_append, length_take]
    have : ((copied.manager.noteRequest count).table reqId).length =
        (cache.manager.table reqId).length := length
    omega
  · have book := sameBook_extendTable (copied.manager.noteRequest count) reqId
      (free'.take count.toNat)
    exact (congrArg (fun hits => hits.get? reqId) book.partialHitReqs).trans filled.partialHit
  · exact (sameBook_extendTable (copied.manager.noteRequest count) reqId
      (free'.take count.toNat)).numCachedBlock.trans filled.numCachedBlock
  · exact (sameBook_extendTable (copied.manager.noteRequest count) reqId
      (free'.take count.toNat)).allocatedBlockReqs.trans filled.allocatedBlockReqs

end

end GroupCache

end VllmCore
