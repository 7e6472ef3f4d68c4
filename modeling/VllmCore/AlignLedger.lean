import VllmCore.ManagerLedger

namespace VllmCore

open Lib SingleTypeKVCacheManager List

/-!
# The references of aligned Mamba states

In `align` mode a request keeps one block for its running state and one for each
speculative token.  Before new blocks are taken, skipped places become null and the
speculative blocks move behind the end, which changes no reference.  A hit that ended
inside a block is copied into the first new block.
-/

namespace GroupCache

variable {BlockHash : Type} [DecidableEq BlockHash] {others free : List BlockId}
    {cache : GroupCache BlockHash}

section Reuse

omit [DecidableEq BlockHash]

variable {nullBlock : BlockId} {numSkippedBlocks : Nat}

theorem length_reuse {first count : Nat} :
    (reuseSpeculativeBlocks nullBlock numSkippedBlocks (range' first count) reqBlocks).length =
      reqBlocks.length + min count (numSkippedBlocks - first) := by
  induction count generalizing first reqBlocks with
  | zero => simp [reuseSpeculativeBlocks]
  | succ count ih =>
    rw [range'_succ, reuseSpeculativeBlocks]
    split
    · rw [ih, length_set, length_append, length_singleton]
      omega
    · omega

variable {block : BlockId}

theorem mem_reuse {places : List Nat}
    (mem : block ∈ reuseSpeculativeBlocks nullBlock numSkippedBlocks places reqBlocks) :
    block ∈ reqBlocks ∨ block = nullBlock := by
  induction places generalizing reqBlocks with
  | nil => exact .inl mem
  | cons place rest ih =>
    rw [reuseSpeculativeBlocks] at mem
    split at mem
    · rcases ih mem with listed | isNull
      · rcases mem_or_eq_of_mem_set listed with appended | isNull
        · rcases mem_append.mp appended with old | moved
          · exact .inl old
          rw [mem_singleton, getD_eq_getElem?_getD] at moved
          cases found : reqBlocks[place]? with
          | none =>
            rw [found] at moved
            exact .inr moved
          | some other =>
            rw [found] at moved
            exact .inl (moved ▸ mem_of_getElem? found)
        · exact .inr isNull
      · exact .inr isNull
    · exact .inl mem

/-- Moving blocks to the end changes no count but that of the null block. -/
theorem count_reuse {places : List Nat} (notNull : block ≠ nullBlock) :
    (reuseSpeculativeBlocks nullBlock numSkippedBlocks places reqBlocks).count block =
      reqBlocks.count block := by
  induction places generalizing reqBlocks with
  | nil => rfl
  | cons place rest ih =>
    rw [reuseSpeculativeBlocks]
    split
    · rw [ih]
      cases found : reqBlocks[place]? with
      | none =>
        rw [getD_eq_getElem?_getD, found]
        have behind := getElem?_eq_none_iff.mp found
        rw [set_append_right _ _ behind, count_append]
        have nulls : ([(none : Option BlockId).getD nullBlock].set (place - reqBlocks.length)
            nullBlock).count block = 0 := by
          rw [count_eq_zero]
          intro mem
          rcases mem_or_eq_of_mem_set mem with kept | isNull
          · exact notNull (mem_singleton.mp kept)
          · exact notNull isNull
        rw [nulls, add_zero]
      | some old =>
        rw [getD_eq_getElem?_getD, found]
        obtain ⟨within, _⟩ := List.getElem?_eq_some_iff.mp found
        have traded := count_set_of_getElem? found nullBlock block
        rw [set_append_left _ _ within, count_append]
        have uncounted : [nullBlock].count block = 0 :=
          count_eq_zero.mpr (fun mem => notNull (mem_singleton.mp mem))
        rw [uncounted] at traded
        exact traded
    · rfl

end Reuse

/-- How long a table is once skipped places are null and drafts reused. -/
def alignedLength (spec length numSkippedBlocks : Nat) (allocated : Bool) : Nat :=
  if allocated then
    max length numSkippedBlocks + min spec (numSkippedBlocks + spec - length)
  else
    max length numSkippedBlocks

section Aligned

omit [DecidableEq BlockHash]

variable {manager : SingleTypeKVCacheManager BlockHash} {nullBlock : BlockId}

theorem length_alignedTable (nullBlock : BlockId)
    (states :
      reqId ∈ manager.allocatedBlockReqs →
        manager.numSpeculativeBlocks ≤ (manager.table reqId).length)
    (numSkippedBlocks : Nat) :
    (alignedTable manager nullBlock reqId numSkippedBlocks).length =
      alignedLength manager.numSpeculativeBlocks (manager.table reqId).length
        numSkippedBlocks (reqId ∈ manager.allocatedBlockReqs) := by
  unfold alignedTable alignedLength
  by_cases allocated : reqId ∈ manager.allocatedBlockReqs
  · have := states allocated
    rw [if_pos allocated, if_pos (decide_eq_true allocated),
      length_reuse, length_append, length_replicate]
    omega
  · rw [if_neg allocated, if_neg (by simpa using allocated), length_append, length_replicate]
    omega

variable {numSkippedBlocks : Nat} {block : BlockId}

theorem mem_alignedTable (mem : block ∈ alignedTable manager nullBlock reqId numSkippedBlocks) :
    block ∈ manager.table reqId ∨ block = nullBlock := by
  have padded : block ∈ manager.table reqId ++
        replicate (numSkippedBlocks - (manager.table reqId).length) nullBlock ∨
      block = nullBlock := by
    unfold alignedTable at mem
    split at mem
    · exact mem_reuse mem
    · exact .inl mem
  rcases padded with listed | isNull
  · rcases mem_append.mp listed with old | padding
    · exact .inl old
    · exact .inr (eq_of_mem_replicate padding)
  · exact .inr isNull

theorem count_alignedTable (notNull : block ≠ nullBlock) :
    (alignedTable manager nullBlock reqId numSkippedBlocks).count block =
      (manager.table reqId).count block := by
  have padding (count : Nat) : (replicate count nullBlock).count block = 0 := by
    rw [count_eq_zero]
    intro mem
    exact notNull (eq_of_mem_replicate mem)
  unfold alignedTable
  split
  · rw [count_reuse notNull, count_append, padding, add_zero]
  · rw [count_append, padding, add_zero]

theorem recordLastState_same :
    ∃ lastStateBlockIdx, recordLastState manager reqId = { manager with lastStateBlockIdx } := by
  unfold recordLastState
  dsimp only
  split
  · exact ⟨_, rfl⟩
  · split <;> exact ⟨_, rfl⟩

theorem handOffPartialTail_same :
    (handOffPartialTail manager reqId cowBlock).references = manager.references ∧
      (handOffPartialTail manager reqId cowBlock).reqToBlocks = manager.reqToBlocks ∧
      SameBook manager (handOffPartialTail manager reqId cowBlock) ∧
      (handOffPartialTail manager reqId cowBlock).toManagerConfig = manager.toManagerConfig ∧
      ∀ numGpu, cowBlock < numGpu → manager.Sound numGpu →
        (handOffPartialTail manager reqId cowBlock).Sound numGpu := by
  unfold handOffPartialTail
  split
  · exact ⟨rfl, rfl, ⟨rfl, rfl, rfl⟩, rfl, fun _ _ => id⟩
  refine ⟨rfl, rfl, ⟨rfl, rfl, rfl⟩, rfl, fun _ inside sound => ?_⟩
  refine ⟨sound.requestedCounts, fun entry mem => ?_⟩
  rcases mem_append.mp mem with earlier | last
  · exact sound.offloads entry earlier
  · rw [mem_singleton.mp last]
    exact inside

end Aligned

theorem insertBlockHash_meets {pool : BlockPool BlockHash}
    :
    Meets Fault.NotValue (fun _ => True) (pool.insertBlockHash key block numTokens) := by
  have keyed (value : KVCacheBlock BlockHash) :
      Meets Fault.NotValue (fun _ => True) (value.setBlockHash key numTokens) :=
    meets_ensure.bind fun _ _ => trivial
  have recorded : Meets Fault.NotValue (fun _ => True) (pool.recordKey key block numTokens) := by
    unfold BlockPool.recordKey
    split
    · exact (keyed _).bind fun _ _ => trivial
    · trivial
  unfold BlockPool.insertBlockHash
  split
  · trivial
  · split
    · trivial
    · exact recorded.bind fun _ _ => trivial

/-- Moving the cache entries of a block to a copy of it. -/
theorem moveBlockHashes_meets {references : List BlockId}
    (ledger : Ledger cache.pool free references)
    (notNull : (cache.pool.blocks cowBlock).isNull = false) :
    Meets Fault.NotValue
      (fun moved => Ledger moved free references ∧ SameFrame cache.pool moved)
      (cache.pool.moveBlockHashes sourceBlock cowBlock) := by
  cases done : cache.pool.moveBlockHashes sourceBlock cowBlock with
  | ok moved =>
    have step := (ledger.coherent.cache.moveBlockHashes notNull done).1
    exact ⟨ledger.cacheStep step, step.sameFrame⟩
  | error fault =>
    have raises : Meets Fault.NotValue (fun _ => True)
        (cache.pool.moveBlockHashes sourceBlock cowBlock) := by
      refine meets_ensure.bind fun _ _ => meets_ensure.bind fun _ _ => ?_
      exact meets_foldlM _ (fun _ _ _ _ => insertBlockHash_meets) trivial
    exact raises.of_eq_error done

/-- The request keeps its block; both ends of the copy are referred to. -/
theorem moveToCow_meets
    (ledger : Ledger cache.pool free (cowBlock :: (cache.manager.references ++ others)))
    (notNull : (cache.pool.blocks cowBlock).isNull = false) :
    Meets Fault.NotValue (fun after =>
      Grown reqId 0 cache.manager after.manager ∧ Spends reqId others 0 cache free after free)
      (cache.moveToCow reqId blockIdx sourceBlock cowBlock) := by
  refine meets_indexed.bind fun current found => meets_ensure.bind fun _ isSource => ?_
  subst isSource
  refine (moveBlockHashes_meets ledger notNull).bind ?_
  rintro moved ⟨movedLedger, frame⟩
  have held : current ∈ cowBlock :: (cache.manager.references ++ others) :=
    mem_cons_of_mem _ (mem_append_left _ (mem_references_of_table (mem_of_getElem? found)))
  obtain ⟨referenced, same⟩ := movedLedger.addReference held
  obtain ⟨references, reqToBlocks, book, config, sound⟩ := handOffPartialTail_same
  have table (other : RequestId) :
      (handOffPartialTail (cache.manager.addCowCopy current cowBlock) reqId
        cowBlock).table other = cache.manager.table other :=
    congrArg (fun tables => Dict.getD tables other []) reqToBlocks
  refine ⟨⟨?_, ?_⟩, ?_, le_rfl, frame.trans same.sameFrame, ?_, ?_⟩
  · exact congrArg List.length (table reqId)
  · exact ⟨book.numCachedBlock, book.partialHitReqs, book.allocatedBlockReqs⟩
  · have listed : Ledger (addReference moved current) free
        ((handOffPartialTail (cache.manager.addCowCopy current cowBlock) reqId
          cowBlock).references ++ others) := by
      rw [references, references_addCowCopy]
      refine referenced.perm ?_
      rw [perm_iff_count]
      intro block
      simp only [count_append, count_cons, count_nil]
      omega
    exact listed
  · refine ⟨config, fun other _ => ⟨table other, ?_, ?_, ?_⟩⟩
    · exact congrArg (fun counts => Dict.get? counts other) book.numCachedBlock
    · exact congrArg (fun hits => Dict.get? hits other) book.partialHitReqs
    · exact Iff.of_eq (congrArg (fun requests => other ∈ requests) book.allocatedBlockReqs)
  · intro before
    have handed := sound _ (ledger.inside cowBlock mem_cons_self)
      ⟨before.requestedCounts, before.offloads⟩
    exact ⟨handed.requestedCounts, handed.offloads⟩

theorem alignCow_meets
    (ledger : Ledger cache.pool free (newBlocks ++ (cache.manager.references ++ others)))
    (notNull : ∀ block ∈ newBlocks, (cache.pool.blocks block).isNull = false) :
    Meets Fault.NotValue (fun result =>
      result.2.1 = newBlocks.drop (copyCost (cache.manager.partialHitReqs.contains reqId)) ∧
        Grown reqId 0 cache.manager result.2.2.manager ∧
        Spends reqId (result.2.1 ++ others) 0 cache free result.2.2 free)
      (cache.alignCow reqId newBlocks) := by
  unfold alignCow copyCost Dict.contains
  cases found : cache.manager.partialHitReqs.get? reqId with
  | none =>
    refine ⟨rfl, ⟨rfl, ⟨rfl, rfl, rfl⟩⟩, Spends.refl (ledger.perm ?_)⟩
    rw [perm_iff_count]
    intro block
    simp only [count_append]
    omega
  | some hit =>
    refine meets_indexed.bind fun cowBlock isFirst => ?_
    cases newBlocks with
    | nil => cases isFirst
    | cons first rest =>
      cases isFirst
      have split : Ledger cache.pool free
          (cowBlock :: (cache.manager.references ++ (rest ++ others))) := by
        refine ledger.perm ?_
        rw [perm_iff_count]
        intro block
        simp only [count_append, count_cons]
        omega
      by_cases allocated : reqId ∈ cache.manager.allocatedBlockReqs
      · rw [if_pos allocated]
        refine (moveToCow_meets split (notNull cowBlock mem_cons_self)).bind ?_
        rintro moved ⟨grown, spends⟩
        exact ⟨rfl, grown, spends⟩
      · rw [if_neg allocated]
        refine (applyCow_meets split).bind ?_
        rintro copied ⟨grown, spends⟩
        exact ⟨rfl, grown, spends⟩

/-- What the next aligned state costs: the copy and the missing blocks. -/
def alignCost (config : ManagerConfig) (numTokensMainModel length : Nat)
    (isPartial allocated : Bool) : Nat :=
  let spec := config.numSpeculativeBlocks
  let required := cdiv numTokensMainModel config.blockSize + spec
  let aligned := alignedLength spec length (required - spec - 1) allocated
  if required ≤ length && !isPartial then
    0
  else
    copyCost isPartial + (required - aligned)

/-- Slots were taken: the table is long enough and no copy is pending. -/
structure Ready (requestId : RequestId) (length : Nat)
    (before after : SingleTypeKVCacheManager BlockHash) : Prop where
  length : length ≤ (after.table requestId).length
  partialHit : after.partialHitReqs.get? requestId = none
  numCachedBlock : after.numCachedBlock = before.numCachedBlock

section

variable (ledger : Ledger cache.pool free (cache.manager.references ++ others))
include ledger

theorem takeAligned_meets {count : Int} (nonneg : 0 ≤ count)
    (enough : count.toNat ≤ free.length) :
    Meets Fault.NotValue (fun result =>
      Ready reqId
          ((cache.manager.table reqId).length +
            (count.toNat - copyCost (cache.manager.partialHitReqs.contains reqId)))
          cache.manager result.2.manager ∧
        ∃ free', Spends reqId others count.toNat cache free result.2 free')
      (cache.takeAligned reqId prevBlockLen count) := by
  unfold takeAligned
  obtain ⟨pool, taken, after, frame⟩ := getNewBlocks_eq_ok ledger nonneg enough
  rw [taken]
  let noted : GroupCache BlockHash := ⟨pool, cache.manager.noteRequest count⟩
  have fresh : ∀ block ∈ free.take count.toNat, (noted.pool.blocks block).isNull = false := by
    intro block mem
    have unreferenced := (ledger.coherent.unreferenced_iff block).mp
      (mem_append_left _ (mem_of_mem_take mem))
    rw [frame.isNull]
    exact unreferenced.2.1
  have notedLedger : Ledger noted.pool (free.drop count.toNat)
        (free.take count.toNat ++ (noted.manager.references ++ others)) := after
  refine (alignCow_meets notedLedger fresh).bind ?_
  rintro ⟨cowBlocks, rest, settled⟩ ⟨restIs, grown, spends⟩
  dsimp only at restIs grown spends ⊢
  have placed : Ledger settled.pool (free.drop count.toNat) ((settled.manager.setTable reqId
      (settled.manager.table reqId ++ rest)).references ++ others) := by
    refine ledger_setTable_append (spends.ledger.perm ?_)
    rw [perm_iff_count]
    intro block
    simp only [count_append]
    omega
  have noting : SameExcept reqId cache.manager noted.manager :=
    ⟨rfl, fun _ _ => ⟨rfl, rfl, rfl, Iff.rfl⟩⟩
  refine ⟨⟨?_, ?_, ?_⟩, free.drop count.toNat, placed, ?_, ?_, ?_, ?_⟩
  · show _ ≤ ((settled.manager.setTable reqId _).table reqId).length
    have sameLength : (settled.manager.table reqId).length =
      (cache.manager.table reqId).length := grown.length
    have sameCost : copyCost (noted.manager.partialHitReqs.contains reqId) =
        copyCost (cache.manager.partialHitReqs.contains reqId) := rfl
    rw [table_setTable, if_pos rfl, length_append, restIs, length_drop, length_take]
    omega
  · exact (Dict.get?_erase _).trans (if_pos rfl)
  · exact grown.book.numCachedBlock
  · rw [length_drop]
    omega
  · exact frame.trans spends.frame
  · refine (noting.trans spends.same).trans
      ((SameExcept.setTable _ (settled.manager.table reqId ++ rest)).trans ?_)
    refine ⟨rfl, fun other differs => ⟨rfl, rfl, ?_, ?_⟩⟩
    · exact (Dict.get?_erase _).trans (if_neg differs)
    · show other ∈ List.insert reqId _ ↔ _
      rw [mem_insert_iff]
      exact or_iff_right differs
  · intro sound
    have settledSound := spends.sound
    have config : noted.pool.config = cache.pool.config := frame.config
    rw [config] at settledSound
    have requested := settledSound (sound.noteRequest nonneg)
    exact ⟨requested.requestedCounts, requested.offloads⟩

theorem alignAllocate_meets
    (states :
      reqId ∈ cache.manager.allocatedBlockReqs →
        cache.manager.numSpeculativeBlocks ≤ (cache.manager.table reqId).length)
    {numMain : Nat}
    (enough :
      alignCost cache.manager.toManagerConfig numMain
        (cache.manager.table reqId).length
        (cache.manager.partialHitReqs.contains reqId)
        (reqId ∈ cache.manager.allocatedBlockReqs) ≤ free.length) :
    Meets Fault.NotValue (fun result =>
      Ready reqId
          (cdiv numMain cache.manager.blockSize + cache.manager.numSpeculativeBlocks)
          cache.manager result.2.manager ∧
        ∃ free', Spends reqId others
            (alignCost cache.manager.toManagerConfig numMain
              (cache.manager.table reqId).length
              (cache.manager.partialHitReqs.contains reqId)
              (reqId ∈ cache.manager.allocatedBlockReqs))
            cache free result.2 free')
      (cache.alignAllocateNewBlocks reqId numMain) := by
  unfold alignAllocateNewBlocks
  unfold alignCost at enough ⊢
  dsimp only at enough ⊢
  generalize requiredIs : cdiv numMain cache.manager.blockSize +
      cache.manager.numSpeculativeBlocks = required at enough ⊢
  have aligns := length_alignedTable cache.pool.nullBlock states
    (required - cache.manager.numSpeculativeBlocks - 1)
  rw [← aligns] at enough ⊢
  by_cases early : (decide (required ≤ (cache.manager.table reqId).length) &&
        !cache.manager.partialHitReqs.contains reqId) = true
  · rw [if_pos early, if_pos early]
    simp only [Bool.and_eq_true, decide_eq_true_eq, Bool.not_eq_true', Dict.contains,
      Option.isSome_eq_false_iff, Option.isNone_iff_eq_none] at early
    refine ⟨⟨?_, early.2, rfl⟩, free, spends_relist reqId ledger⟩
    rw [table_setTable, if_pos rfl]
    exact early.1
  · rw [if_neg early] at enough
    rw [if_neg early, if_neg early]
    generalize alignedIs : alignedTable cache.manager cache.pool.nullBlock reqId
        (required - cache.manager.numSpeculativeBlocks - 1) = aligned at enough aligns ⊢
    refine meets_ensure.bind fun _ _ => ?_
    obtain ⟨lastStateBlockIdx, recorded⟩ := recordLastState_same
    rw [recorded]
    let saved : GroupCache BlockHash :=
      { cache with manager := { cache.manager with lastStateBlockIdx } }
    have saving : Spends reqId others 0 cache free saved free :=
      spends_of_same ledger rfl ⟨rfl, fun _ _ => ⟨rfl, rfl, rfl, Iff.rfl⟩⟩
        (fun sound => ⟨sound.requestedCounts, sound.offloads⟩)
    have placing : Spends reqId others 0 saved free
        { saved with manager := saved.manager.setTable reqId aligned } free := by
      refine spends_setTable saving.ledger ?_ ?_
      · intro block mem
        rw [← alignedIs] at mem
        rcases mem_alignedTable mem with old | isNull
        · exact ledger.inside block (mem_append_left _ (mem_references_of_table old))
        · exact isNull ▸ ledger.null_inside
      · intro block notNull
        rw [← alignedIs]
        exact count_alignedTable notNull
    have prepared := saving.trans placing
    generalize countIs : (if cache.manager.partialHitReqs.contains reqId = true then
        max ((required : Int) - aligned.length) 0 + 1
      else (required : Int) - aligned.length) = count
    have counted : 0 ≤ count ∧
        count.toNat = copyCost (cache.manager.partialHitReqs.contains reqId) +
          (required - aligned.length) := by
      unfold copyCost
      by_cases isPartial : cache.manager.partialHitReqs.contains reqId = true
      · rw [if_pos isPartial] at countIs ⊢
        omega
      rw [if_neg isPartial] at countIs ⊢
      simp only [isPartial, Bool.not_false, Bool.and_true, decide_eq_true_eq] at early
      unfold alignedLength at aligns
      split at aligns <;> omega
    rw [← counted.2] at enough ⊢
    refine (takeAligned_meets prepared.ledger counted.1 enough).mono ?_
    rintro result ⟨ready, free', spends⟩
    refine ⟨⟨le_trans ?_ ready.length, ready.partialHit, ready.numCachedBlock⟩, free',
      (prepared.trans spends).mono (by omega)⟩
    have sameCost : copyCost
            ((saved.manager.setTable reqId aligned).partialHitReqs.contains reqId) =
          copyCost (cache.manager.partialHitReqs.contains reqId) := rfl
    rw [table_setTable, if_pos rfl, sameCost]
    omega

end

end GroupCache

end VllmCore