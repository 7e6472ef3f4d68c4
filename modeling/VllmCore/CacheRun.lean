import VllmCore.SlotAllocation

namespace VllmCore

open Function Lib SingleTypeKVCacheManager List GroupCache BlockPool
open KVCacheManager (tableReferences)

/-!
# Runs of the cache manager

A run applies the operations that the scheduler and the connectors call.  Beside the
state it records how many tokens each request has slots for and which references are
held outside the managers: by deferred frees, by copies the worker still has to make
and by connectors.

`Proper` says what the callers promise.  Along every run the ledger balances, and the
managers keep, for each request, what `Kept` says.
-/

variable {BlockHash : Type}

/-- The state of a run. -/
structure CacheRun (BlockHash : Type) where
  state : KVCacheManager BlockHash
  slots : RequestId → Nat
  held : List BlockId

/-- The operations of a run. -/
inductive CacheOp (BlockHash : Type) where
  | newStepStarts
  | allocateSlots (call : SlotCall BlockHash)
  | cacheBlocks (request : KVRequest BlockHash) (numComputedTokens : Nat)
  | removeSkippedBlocks (requestId : RequestId) (processedComputedTokens : Nat)
  | free (requestId : RequestId)
  | popBlocksForFree (requestId : RequestId)
  | takeKvCacheBlockCopies
  | takePartialTailOffloads
  | getNumCommonPrefixBlocks (requestId : RequestId)
  | touch (blocks : List BlockId)
  | releaseHeld (blocks : List BlockId)
  | evictBlocks (blockIds : List Int)
  | resetPrefixCache

namespace CacheRun

/-- A manager of all groups before its first request. -/
def initManager (config : PoolConfig BlockHash) (groups : List ManagerConfig)
    (maxModelLen watermarkBlocks : Nat) (retentionInterval : Option Nat) :
    Outcome (KVCacheManager BlockHash) := do
  let pool ← BlockPool.init config
  .ok
    { pool
      managers := groups.map fun group => { toManagerConfig := group }
      maxModelLen
      enableCaching := config.enableCaching
      watermarkBlocks
      retentionInterval
      partialTailPins := .empty }

/-- A run before its first operation. -/
def init (state : KVCacheManager BlockHash) : CacheRun BlockHash where
  state
  slots := fun _ => 0
  held := []

variable (run : CacheRun BlockHash)

/-- Operations on the pool alone. -/
def withPool (pool : BlockPool BlockHash) : CacheRun BlockHash :=
  { run with state := { run.state with pool } }

/-- Slots of a request after an operation. -/
def setSlots (state : KVCacheManager BlockHash) (requestId : RequestId) (numTokens : Nat) :
    CacheRun BlockHash :=
  { run with state, slots := update run.slots requestId numTokens }

/-- The run after `allocate_slots`: the request has slots if it got them. -/
def afterAllocate (call : SlotCall BlockHash) :
    Bool × KVCacheManager BlockHash → CacheRun BlockHash
  | (true, state) =>
    run.setSlots state call.request.requestId (call.numComputedTokens + call.numNewTokens)
  | (false, state) => { run with state }

section Apply

variable [DecidableEq BlockHash]

/-- Apply one operation. -/
def apply (run : CacheRun BlockHash) : CacheOp BlockHash → Outcome (CacheRun BlockHash)
  | .newStepStarts => .ok { run with state := run.state.newStepStarts }
  | .allocateSlots call => do
      let result ← run.state.allocateSlots call
      .ok (run.afterAllocate call result)
  | .cacheBlocks request numComputedTokens => do
      let state ← run.state.cacheBlocks request numComputedTokens
      .ok { run with state }
  | .removeSkippedBlocks requestId processedComputedTokens => do
      let state ← run.state.removeSkippedBlocks requestId processedComputedTokens
      .ok { run with state }
  | .free requestId => do
      let state ← run.state.free requestId
      .ok (run.setSlots state requestId 0)
  | .popBlocksForFree requestId =>
    let popped := run.state.popBlocksForFree requestId
    .ok { run.setSlots popped.2 requestId 0 with held := popped.1 ++ run.held }
  | .takeKvCacheBlockCopies =>
    let taken := run.state.takeKvCacheBlockCopies
    .ok { run with state := taken.2, held := taken.1 ++ run.held }
  | .takePartialTailOffloads => do
      let state ← run.state.takePartialTailOffloads
      .ok { run with state }
  | .getNumCommonPrefixBlocks requestId =>
    .ok { run with state := (run.state.getNumCommonPrefixBlocks requestId).2 }
  | .touch blocks => do
      let pool ← run.state.pool.touch blocks
      .ok { run.withPool pool with held := blocks ++ run.held }
  | .releaseHeld blocks => do
      let pool ← run.state.pool.freeBlocks blocks
      .ok { run.withPool pool with held := run.held.diff blocks }
  | .evictBlocks blockIds => do
      let pool ← run.state.pool.evictBlocks blockIds
      .ok (run.withPool pool)
  | .resetPrefixCache => .ok (run.withPool run.state.pool.resetPrefixCache.2)

end Apply

/-- What the scheduler promises when it asks for slots. -/
@[mk_iff]
structure ProperCall (run : CacheRun BlockHash) (call : SlotCall BlockHash) : Prop where
  listed : run.state.managers.length = (run.state.newComputedBlockList call).length
  inside :
    ∀ hits ∈ run.state.newComputedBlockList call, ∀ block ∈ hits,
      block < run.state.pool.config.numGpuBlocks
  first :
    run.slots call.request.requestId = 0 → call.request.numComputedTokens = 0 ∧
      ((∀ hits ∈ run.state.newComputedBlockList call, hits = []) → call.numNewComputedTokens = 0)
  continuing :
    run.slots call.request.requestId ≠ 0 →
      call.request.numComputedTokens ≤ run.slots call.request.requestId ∧
        call.numNewComputedTokens = 0 ∧
        (∀ hits ∈ run.state.newComputedBlockList call, hits = []) ∧
        call.numExternalComputedTokens = 0
  someTokens : 0 < call.numNewTokens ∨ 0 < call.numExternalComputedTokens
  fits : call.numComputedTokens + call.numNewTokens ≤ run.state.maxModelLen

instance (run : CacheRun BlockHash) (call : SlotCall BlockHash) : Decidable (run.ProperCall call) :=
  decidable_of_iff _ (properCall_iff run call).symm

/-- What the callers of the other operations promise. -/
def Proper (run : CacheRun BlockHash) : CacheOp BlockHash → Prop
  | .allocateSlots call => run.ProperCall call
  | .cacheBlocks request _ => run.slots request.requestId ≠ 0
  | .touch blocks => ∀ block ∈ blocks, block < run.state.pool.config.numGpuBlocks
  | .releaseHeld blocks => ∀ block ∈ blocks, blocks.count block ≤ run.held.count block
  | _ => True

instance (run : CacheRun BlockHash) (op : CacheOp BlockHash) : Decidable (run.Proper op) :=
  match op with
  | .newStepStarts => isTrue trivial
  | .allocateSlots _ => inferInstanceAs (Decidable (run.ProperCall _))
  | .cacheBlocks _ _ => inferInstanceAs (Decidable (_ ≠ _))
  | .removeSkippedBlocks _ _ => isTrue trivial
  | .free _ => isTrue trivial
  | .popBlocksForFree _ => isTrue trivial
  | .takeKvCacheBlockCopies => isTrue trivial
  | .takePartialTailOffloads => isTrue trivial
  | .getNumCommonPrefixBlocks _ => isTrue trivial
  | .touch blocks =>
    inferInstanceAs (Decidable (∀ block ∈ blocks, block < run.state.pool.config.numGpuBlocks))
  | .releaseHeld blocks =>
    inferInstanceAs
      (Decidable (∀ block ∈ blocks, blocks.count block ≤ run.held.count block))
  | .evictBlocks _ => isTrue trivial
  | .resetPrefixCache => isTrue trivial

section Runs

variable [DecidableEq BlockHash]

/-- The states reached by proper operations that meet a further condition. -/
inductive Reachable
    (Allowed : CacheRun BlockHash → CacheOp BlockHash → Prop) :
    CacheRun BlockHash → Prop
  | start {config : PoolConfig BlockHash} {groups : List ManagerConfig}
    {maxModelLen watermarkBlocks : Nat} {retentionInterval : Option Nat}
    {state : KVCacheManager BlockHash}
    (initial :
      initManager config groups maxModelLen watermarkBlocks retentionInterval = .ok state) :
    Reachable Allowed (init state)
  | step {run after : CacheRun BlockHash} {op : CacheOp BlockHash}
    (reachable : Reachable Allowed run) (proper : run.Proper op) (allowed : Allowed run op)
    (applied : run.apply op = .ok after) :
    Reachable Allowed after

variable (Allowed : CacheRun BlockHash → CacheOp BlockHash → Prop)
  [∀ run op, Decidable (Allowed run op)]

/-- Apply operations one after the other, checking what their callers promise. -/
def applyAll :
    CacheRun BlockHash → List (CacheOp BlockHash) → Outcome (CacheRun BlockHash)
  | run, [] => .ok run
  | run, op :: rest => do
      ensure (run.Proper op ∧ Allowed run op)
      let after ← run.apply op
      applyAll after rest

theorem Reachable.applyAll {Allowed : CacheRun BlockHash → CacheOp BlockHash → Prop}
    [∀ run op, Decidable (Allowed run op)]
    {run after : CacheRun BlockHash} {ops : List (CacheOp BlockHash)}
    (reachable : Reachable Allowed run) (ran : CacheRun.applyAll Allowed run ops = .ok after) :
    Reachable Allowed after := by
  induction ops generalizing run with
  | nil =>
    cases ran
    exact reachable
  | cons op rest ih =>
    obtain ⟨_, checked, ran⟩ := bind_ok.mp ran
    obtain ⟨between, applied, ran⟩ := bind_ok.mp ran
    obtain ⟨proper, allowed⟩ := ensure_eq_ok.mp checked
    exact ih (reachable.step proper allowed applied) ran

end Runs

/-! ## What the managers keep for each request -/

/-- The bookkeeping of one manager agrees with the slots of the requests. -/
structure Kept (slots : RequestId → Nat) (numGpuBlocks : Nat)
    (manager : SingleTypeKVCacheManager BlockHash) : Prop where
  untracked : ∀ requestId, slots requestId = 0 → GroupCache.Forgotten requestId manager
  covered :
    manager.isAlign = false → manager.isCrossAttention = false → ∀ requestId,
      cdiv (slots requestId) manager.blockSize ≤ (manager.table requestId).length
  noPartial : manager.isAlign = false → ∀ requestId, manager.partialHitReqs.get? requestId = none
  states :
    manager.isAlign = true → ∀ requestId ∈ manager.allocatedBlockReqs,
      manager.numSpeculativeBlocks ≤ (manager.table requestId).length
  sound : manager.Sound numGpuBlocks

namespace Kept

variable {slots : RequestId → Nat} {numGpu : Nat} {reqId : RequestId}
  {before after : SingleTypeKVCacheManager BlockHash}

theorem forgotten_of_sameFor
    (config : after.toManagerConfig = before.toManagerConfig) (same : SameFor before after other)
    (forgotten : Forgotten other before) : Forgotten other after := by
  refine ⟨?_, ?_, ?_, ?_⟩
  · rw [same.table, forgotten.table]
  · rw [same.numCachedBlock, forgotten.numCachedBlock]
  · rw [same.partialHitReqs, forgotten.partialHit]
  · intro isAlign allocated
    have wasAlign : before.isAlign = true :=
      (congrArg ManagerConfig.isAlign config).symm.trans isAlign
    exact forgotten.allocated wasAlign (same.allocatedBlockReqs.mp allocated)

variable (kept : Kept slots numGpu before)
include kept

/-- An operation on one request only has to account for that request. -/
theorem change (same : SameExcept reqId before after) (sound : after.Sound numGpu)
    (untracked : numTokens = 0 → Forgotten reqId after)
    (covered :
      before.isAlign = false → before.isCrossAttention = false →
        cdiv numTokens before.blockSize ≤ (after.table reqId).length)
    (noPartial : before.isAlign = false → after.partialHitReqs.get? reqId = none)
    (states :
      before.isAlign = true → reqId ∈ after.allocatedBlockReqs →
        before.numSpeculativeBlocks ≤ (after.table reqId).length) :
    Kept (update slots reqId numTokens) numGpu after := by
  have config := same.config
  have isAlign : after.isAlign = before.isAlign := congrArg ManagerConfig.isAlign config
  have isCross : after.isCrossAttention = before.isCrossAttention :=
    congrArg ManagerConfig.isCrossAttention config
  have size : after.blockSize = before.blockSize := congrArg ManagerConfig.blockSize config
  have drafts : after.numSpeculativeBlocks = before.numSpeculativeBlocks :=
    congrArg ManagerConfig.numSpeculativeBlocks config
  refine ⟨?_, ?_, ?_, ?_, sound⟩
  · intro other none
    by_cases here : other = reqId
    · subst here
      rw [update_self] at none
      exact untracked none
    · rw [update_of_ne here] at none
      exact forgotten_of_sameFor config (same.others other here) (kept.untracked other none)
  · intro notAlign notCross other
    rw [isAlign] at notAlign
    rw [isCross] at notCross
    rw [size]
    by_cases here : other = reqId
    · subst here
      rw [update_self]
      exact covered notAlign notCross
    · rw [update_of_ne here, (same.others other here).table]
      exact kept.covered notAlign notCross other
  · intro notAlign other
    rw [isAlign] at notAlign
    by_cases here : other = reqId
    · subst here
      exact noPartial notAlign
    · rw [(same.others other here).partialHitReqs]
      exact kept.noPartial notAlign other
  · intro align other allocated
    rw [isAlign] at align
    rw [drafts]
    by_cases here : other = reqId
    · subst here
      exact states align allocated
    · rw [(same.others other here).table]
      exact kept.states align other ((same.others other here).allocatedBlockReqs.mp allocated)

/-- Bookkeeping that no later step reads. -/
theorem same (config : after.toManagerConfig = before.toManagerConfig)
    (all : ∀ other, SameFor before after other) (sound : after.Sound numGpu) :
    Kept slots numGpu after := by
  have except : SameExcept 0 before after := ⟨config, fun other _ => all other⟩
  rw [← update_eq_self 0 slots]
  refine kept.change except sound ?_ ?_ ?_ ?_
  · intro none
    exact forgotten_of_sameFor config (all 0) (kept.untracked 0 none)
  · intro notAlign notCross
    rw [(all 0).table]
    exact kept.covered notAlign notCross 0
  · intro notAlign
    rw [(all 0).partialHitReqs]
    exact kept.noPartial notAlign 0
  · intro align allocated
    rw [(all 0).table]
    exact kept.states align 0 ((all 0).allocatedBlockReqs.mp allocated)

/-- Nothing about a request that later steps read changed, but its table grew. -/
theorem grown {count : Nat} (same : SameExcept reqId before after)
    (sound : after.Sound numGpu) (grown : Grown reqId count before after)
    (none : slots reqId = 0 → count = 0) : Kept slots numGpu after := by
  rw [← update_eq_self reqId slots]
  refine kept.change same sound ?_ ?_ ?_ ?_
  · intro empty
    have forgotten := kept.untracked reqId empty
    refine ⟨?_, ?_, ?_, ?_⟩
    · rw [← length_eq_zero_iff, grown.length, forgotten.table, none empty]
      rfl
    · rw [grown.book.numCachedBlock, forgotten.numCachedBlock]
    · rw [grown.book.partialHitReqs, forgotten.partialHit]
    · intro isAlign allocated
      rw [grown.book.allocatedBlockReqs] at allocated
      exact forgotten.allocated
        ((congrArg ManagerConfig.isAlign same.config).symm.trans isAlign) allocated
  · intro notAlign notCross
    rw [grown.length]
    exact le_trans (kept.covered notAlign notCross reqId) (Nat.le_add_right _ _)
  · intro notAlign
    rw [grown.book.partialHitReqs]
    exact kept.noPartial notAlign reqId
  · intro align allocated
    rw [grown.book.allocatedBlockReqs] at allocated
    rw [grown.length]
    exact le_trans (kept.states align reqId allocated) (Nat.le_add_right _ _)

theorem forgotten (same : SameExcept reqId before after) (sound : after.Sound numGpu)
    (forgotten : Forgotten reqId after) : Kept (update slots reqId 0) numGpu after := by
  refine kept.change same sound (fun _ => forgotten) ?_ ?_ ?_
  · intro _ _
    have none : cdiv 0 before.blockSize ≤ 0 :=
      (cdiv_le_iff before.blockSize_pos).mpr (Nat.zero_le _)
    exact le_trans none (Nat.zero_le _)
  · intro _
    exact forgotten.partialHit
  · intro align allocated
    exact absurd allocated
      (forgotten.allocated ((congrArg ManagerConfig.isAlign same.config).trans align))

theorem cached (tracked : slots reqId ≠ 0)
    (cached : Cached reqId ⟨beforePool, before⟩ ⟨afterPool, after⟩) : Kept slots numGpu after := by
  rw [← update_eq_self reqId slots]
  have requestedCounts : after.requestedCounts = before.requestedCounts := cached.requestedCounts
  have offloads : after.pendingPartialTailOffloads = before.pendingPartialTailOffloads :=
    cached.offloads
  have table : after.table reqId = before.table reqId := cached.tables reqId
  refine kept.change cached.same ⟨?_, ?_⟩ (fun none => absurd none tracked) ?_ ?_ ?_
  · rw [requestedCounts]
    exact kept.sound.requestedCounts
  · rw [offloads]
    exact kept.sound.offloads
  · intro notAlign notCross
    rw [table]
    exact kept.covered notAlign notCross reqId
  · intro notAlign
    have same : after.partialHitReqs = before.partialHitReqs := cached.partialHit notAlign
    rw [same]
    exact kept.noPartial notAlign reqId
  · intro align allocated
    have same : after.allocatedBlockReqs = before.allocatedBlockReqs := cached.allocated
    rw [same] at allocated
    rw [table]
    exact kept.states align reqId allocated

end Kept

/-- Every reference is accounted for, and every manager keeps what it should. -/
structure Accounted (slots : RequestId → Nat) (others : List BlockId)
    (state : KVCacheManager BlockHash) : Prop where
  ledger : ∃ free, Ledger state.pool free (KVCacheManager.tableReferences state.managers ++ others)
  kept : ∀ manager ∈ state.managers, Kept slots state.pool.config.numGpuBlocks manager

/-- A state of a run that accounts for pins and references held outside. -/
def Balanced (run : CacheRun BlockHash) : Prop :=
  Accounted run.slots (run.state.partialTailPins.items ++ run.held) run.state

/-! ## Operations on all managers -/

section Lists

theorem tableReferences_perm {managers after : List (SingleTypeKVCacheManager BlockHash)}
    (matched :
      Forall₂ (fun (before after : SingleTypeKVCacheManager BlockHash) =>
        after.references.Perm before.references)
        managers after) :
    (tableReferences after).Perm
      (tableReferences managers) := by
  induction matched with
  | nil => exact .refl _
  | cons head _ ih => exact head.append ih

/-- Managers changed one by one, with references that move out of them. -/
theorem tableReferences_moved (managers : List (SingleTypeKVCacheManager BlockHash))
    (change : SingleTypeKVCacheManager BlockHash → SingleTypeKVCacheManager BlockHash)
    (moved : SingleTypeKVCacheManager BlockHash → List BlockId)
    (each :
      ∀ manager : SingleTypeKVCacheManager BlockHash,
        manager.references.Perm (moved manager ++ (change manager).references)) :
    (tableReferences managers).Perm
      (managers.flatMap moved ++ tableReferences (managers.map change)) := by
  induction managers with
  | nil => exact .refl _
  | cons manager rest ih =>
    rw [perm_iff_count]
    intro block
    have here := (each manager).count_eq block
    have later := ih.count_eq block
    simp only [tableReferences, flatMap_cons, map_cons, count_append] at here later ⊢
    omega

end Lists

/-- Caching in every group. -/
theorem forEachManager_cached {Input : Type}
    {operation : GroupCache BlockHash → Input → Outcome (GroupCache BlockHash)}
    {reqId : RequestId}
    (each :
      ∀ cache input after, CacheCoherent cache.pool →
        operation cache input = .ok after → Cached reqId cache after)
    {entries : List (SingleTypeKVCacheManager BlockHash × Input)} {pool final : BlockPool BlockHash}
    {managers : List (SingleTypeKVCacheManager BlockHash)} (coherent : CacheCoherent pool)
    (ran : KVCacheManager.forEachManager operation pool entries = .ok (final, managers)) :
    CacheStep pool final ∧ Forall₂ (fun entry after =>
        ∃ before later, Cached reqId ⟨before, entry.1⟩ ⟨later, after⟩)
        entries managers := by
  induction entries generalizing pool managers with
  | nil =>
    cases ran
    exact ⟨.refl coherent, .nil⟩
  | cons entry rest ih =>
    obtain ⟨first, operated, ran⟩ := bind_ok.mp ran
    obtain ⟨⟨last, changed⟩, next, ran⟩ := bind_ok.mp ran
    cases ran
    have cached := each _ _ _ coherent operated
    obtain ⟨step, matched⟩ := ih cached.step.coherent next
    exact ⟨cached.step.trans step, .cons ⟨pool, first.pool, cached⟩ matched⟩

variable {run after : CacheRun BlockHash} {free others : List BlockId}
  {slots slots' : RequestId → Nat} {state : KVCacheManager BlockHash}

theorem cacheBlocks_accounted [DecidableEq BlockHash]
    {after : KVCacheManager BlockHash} {numComputedTokens : Nat}
    (accounted : Accounted slots others state) (tracked : slots request.requestId ≠ 0)
    (ran : state.coordinatorCacheBlocks request numComputedTokens = .ok after) :
    state.KeepsRest after ∧ CacheStep state.pool after.pool ∧ Accounted slots others after := by
  obtain ⟨free, ledger⟩ := accounted.ledger
  obtain ⟨⟨pool, managers⟩, each, done⟩ := bind_ok.mp ran
  cases done
  obtain ⟨step, matched⟩ :=
    forEachManager_cached (fun _ _ _ coherent cached => cacheBlocks_cached coherent cached)
      ledger.coherent.cache each
  rw [forall₂_map_left_iff] at matched
  refine ⟨rfl, step, ⟨free, ?_⟩, ?_⟩
  · refine (ledger.cacheStep step).perm ?_
    refine (tableReferences_perm (matched.imp ?_)).symm.append_right _
    rintro before after ⟨_, _, cached⟩
    exact cached.references
  · intro manager mem
    obtain ⟨before, inside, ⟨_, _, cached⟩⟩ := exists_left_of_forall₂ matched mem
    have frame : pool.config = state.pool.config := step.same.config
    rw [frame]
    exact (accounted.kept before inside).cached tracked cached

variable (reqId : RequestId)

section

variable (accounted : Accounted slots others state)
include accounted

/-- Operations on one request that free blocks or leave them. -/
theorem onManagers_accounted
    (each :
      ∀ manager pool others free,
        Kept slots state.pool.config.numGpuBlocks manager → SameFrame state.pool pool →
          Ledger pool free (manager.references ++ others) →
          Meets Fault.NotValue (fun after =>
            (Kept slots' state.pool.config.numGpuBlocks after.manager ∧
              Post manager after.manager) ∧
              ∃ free', Spends reqId others 0 ⟨pool, manager⟩ free after free')
            (operation ⟨pool, manager⟩)) :
    Meets Fault.NotValue (fun after =>
      state.KeepsRest after ∧ SameFrame state.pool after.pool ∧ Accounted slots' others after ∧
        Forall₂ Post state.managers after.managers)
      (state.onManagers operation) := by
  obtain ⟨free, ledger⟩ := accounted.ledger
  have all :=
    KVCacheManager.onManagers_meets reqId operation (fun _ => 0) (fun plan manager =>
        manager = plan ∧ Kept slots state.pool.config.numGpuBlocks plan)
      (fun plan after => Kept slots' state.pool.config.numGpuBlocks after ∧ Post plan after)
      state
      (by
        rintro plan _ pool others free ⟨rfl, keptBefore⟩ frame ledger _
        exact each _ pool others free keptBefore frame ledger)
      (forall₂_same.mpr fun manager mem => ⟨rfl, accounted.kept manager mem⟩)
      ledger
      (by simp)
  refine all.mono ?_
  rintro after ⟨keeps, matched, frame, free', finalLedger, _⟩
  refine ⟨keeps, frame, ⟨⟨free', finalLedger⟩, ?_⟩, matched.imp fun _ _ both => both.2⟩
  intro manager mem
  obtain ⟨_, _, keptAfter, _⟩ := exists_left_of_forall₂ matched mem
  rw [frame.config]
  exact keptAfter

theorem removeSkipped_accounted {processedComputedTokens : Nat} :
    Meets Fault.NotValue (fun after =>
      state.KeepsRest after ∧ SameFrame state.pool after.pool ∧ Accounted slots others after ∧
        Forall₂ (fun before after =>
          SameExcept reqId before after ∧ Grown reqId 0 before after)
          state.managers after.managers)
      (state.removeSkippedBlocks reqId processedComputedTokens) := by
  refine onManagers_accounted reqId accounted ?_
  intro manager pool others free keptBefore frame ledger
  refine (removeSkippedBlocks_meets ledger).mono ?_
  rintro after ⟨grown, free', spends⟩
  have sound := spends.sound
  rw [frame.config] at sound
  exact ⟨⟨keptBefore.grown spends.same (sound keptBefore.sound) grown (fun _ => rfl),
    spends.same, grown⟩, free', spends⟩

theorem freeManagers_accounted :
    Meets Fault.NotValue (fun after =>
      state.KeepsRest after ∧ SameFrame state.pool after.pool ∧
        Accounted (update slots reqId 0) others after ∧
        Forall₂ (fun before after =>
          SameExcept reqId before after ∧ Forgotten reqId after)
          state.managers after.managers)
      (state.onManagers fun cache => cache.free reqId) := by
  refine onManagers_accounted reqId accounted ?_
  intro manager pool others free keptBefore frame ledger
  refine (free_meets ledger).mono ?_
  rintro after ⟨forgotten, free', spends⟩
  have sound := spends.sound
  rw [frame.config] at sound
  exact ⟨⟨keptBefore.forgotten spends.same (sound keptBefore.sound) forgotten, spends.same,
    forgotten⟩, free', spends⟩

end

/-! ## Asking for slots -/

/-- Every group foresees what a call costs. -/
def ForeseenCall (state : KVCacheManager BlockHash) (call : SlotCall BlockHash) : Prop :=
  ∀ plan ∈ state.plans call,
    GroupCache.Foreseen plan.1 call.request.requestId plan.2 call.numLocalComputedTokens
      call.numExternalComputedTokens (call.numTokensMainModel state.maxModelLen)

instance (state : KVCacheManager BlockHash) (call : SlotCall BlockHash) :
    Decidable (ForeseenCall state call) :=
  inferInstanceAs (Decidable (∀ plan ∈ state.plans call,
    GroupCache.Foreseen plan.1 call.request.requestId plan.2 call.numLocalComputedTokens
      call.numExternalComputedTokens (call.numTokensMainModel state.maxModelLen)))

variable {call : SlotCall BlockHash} {prepared : KVCacheManager BlockHash}

/-- A call without cached blocks and external tokens adopts nothing, and conversely. -/
theorem adoptsIn_eq_false_iff :
    state.adoptsIn call = false ↔ (∀ hits ∈ state.newComputedBlockList call, hits = []) ∧
      call.numExternalComputedTokens = 0 := by
  unfold KVCacheManager.adoptsIn
  simp only [Bool.or_eq_false_iff, any_eq_false, decide_eq_true_eq, not_lt,
    Nat.le_zero, length_eq_zero_iff, decide_eq_false_iff_not]

/-- The numbers of a proper call. -/
theorem ProperCall.sized (proper : run.ProperCall call) :
    KVCacheManager.Sized call run.state.maxModelLen := by
  refine ⟨proper.fits, ?_⟩
  have := proper.fits
  have := proper.someTokens
  unfold SlotCall.numTokensMainModel SlotCall.totalComputedTokens SlotCall.numComputedTokens at *
  omega

/-- A proper call finds every group as its plan expects. -/
theorem ProperCall.planned (proper : run.ProperCall call)
    (config : prepared.pool.config = run.state.pool.config)
    (listedAlike : prepared.newComputedBlockList call = run.state.newComputedBlockList call)
    (kept : ∀ manager ∈ prepared.managers, Kept run.slots prepared.pool.config.numGpuBlocks manager)
    (foreseen : ForeseenCall prepared call)
    (mem : plan ∈ prepared.plans call) :
    KVCacheManager.Planned (prepared.adoptsIn call) call plan
      prepared.pool.config.numGpuBlocks := by
  obtain ⟨isManager, isListed⟩ := of_mem_zip mem
  have keeps := kept plan.1 isManager
  have seen := foreseen plan mem
  have untracked : prepared.adoptsIn call = true → run.slots call.request.requestId = 0 := by
    intro adopts
    by_contra tracked
    obtain ⟨_, _, noHits, noExternal⟩ := proper.continuing tracked
    rw [← listedAlike] at noHits
    rw [adoptsIn_eq_false_iff.mpr ⟨noHits, noExternal⟩] at adopts
    cases adopts
  refine ⟨?_, ?_, ?_, ?_, ?_, ?_, ?_⟩
  · intro adopts
    exact keeps.untracked _ (untracked adopts)
  · intro _ loads
    exact seen.fits loads
  · intro continues
    obtain ⟨noHits, noExternal⟩ := adoptsIn_eq_false_iff.mp continues
    exact ⟨noHits plan.2 isListed, noExternal⟩
  · intro continues notCross notAlign
    obtain ⟨noHits, noExternal⟩ := adoptsIn_eq_false_iff.mp continues
    rw [listedAlike] at noHits
    refine le_trans (leadingNulls_le _ _) (le_trans (cdiv_mono ?_ _)
        (keeps.covered notAlign notCross call.request.requestId))
    unfold SlotCall.numComputedTokens SlotCall.numLocalComputedTokens
    by_cases first : run.slots call.request.requestId = 0
    · obtain ⟨computed, hits⟩ := proper.first first
      have := hits noHits
      omega
    · obtain ⟨computed, hits, _, _⟩ := proper.continuing first
      omega
  · intro notAlign
    exact keeps.noPartial notAlign _
  · intro align allocated
    exact keeps.states align _ allocated
  · intro block inHits
    rw [config]
    rw [listedAlike] at isListed
    exact proper.inside plan.2 isListed block inHits

section Prepared

theorem forall₂_zip {Item Other : Type} {Related : Item → Item → Prop} {items after : List Item}
    (matched : Forall₂ Related items after) (others : List Other) :
    Forall₂ (fun (before after : Item × Other) =>
      Related before.1 after.1 ∧ before.2 = after.2) (items.zip others) (after.zip others) := by
  induction matched generalizing others with
  | nil => exact .nil
  | cons head _ ih =>
    cases others with
    | nil => exact .nil
    | cons other rest => exact .cons ⟨head, rfl⟩ (ih rest)

variable (keeps : state.KeepsRest prepared)
  (matched :
    Forall₂
      (fun before after =>
        SameExcept call.request.requestId before after ∧
          Grown call.request.requestId 0 before after)
      state.managers prepared.managers)

include matched in
theorem newComputedBlockList_prepared :
    prepared.newComputedBlockList call = state.newComputedBlockList call := by
  unfold KVCacheManager.newComputedBlockList
  rw [map_const', map_const', matched.length_eq]

include keeps matched in
/-- Giving back skipped blocks changes nothing that the prediction foresees. -/
theorem foreseenCall_prepared (foreseen : ForeseenCall state call) :
    ForeseenCall prepared call := by
  have maxModelLen : prepared.maxModelLen = state.maxModelLen := by rw [keeps]
  intro plan mem
  unfold KVCacheManager.plans at mem
  rw [newComputedBlockList_prepared matched] at mem
  obtain ⟨before, wasPlan, ⟨same, grown⟩, hits⟩ :=
    exists_left_of_forall₂ (forall₂_zip matched (state.newComputedBlockList call)) mem
  have seen := foreseen before wasPlan
  have config := same.config
  have isAlign : plan.1.isAlign = before.1.isAlign := congrArg ManagerConfig.isAlign config
  have size : plan.1.blockSize = before.1.blockSize := congrArg ManagerConfig.blockSize config
  have drafts : plan.1.numSpeculativeBlocks = before.1.numSpeculativeBlocks :=
    congrArg ManagerConfig.numSpeculativeBlocks config
  have partialHit : plan.1.hasPartialLocalHit plan.2 call.numLocalComputedTokens =
      before.1.hasPartialLocalHit before.2 call.numLocalComputedTokens := by
    rw [← hits]
    unfold ManagerConfig.hasPartialLocalHit
    rw [size]
  refine ⟨?_, ?_, ?_⟩
  · rw [isAlign, size, drafts, partialHit, grown.length, grown.book.partialHitReqs,
      ← hits, maxModelLen]
    exact seen.drafts
  · rw [size, ← hits]
    exact seen.fits
  · rw [isAlign, size, ← hits, maxModelLen]
    exact seen.state

end Prepared

/-- Slots that were taken are kept. -/
theorem kept_of_settled {before after : SingleTypeKVCacheManager BlockHash}
    (sized : KVCacheManager.Sized call state.maxModelLen)
    (kept : Kept slots state.pool.config.numGpuBlocks before)
    (settled : state.Settled call (before, hits) after) :
    Kept
      (update slots call.request.requestId (call.numComputedTokens + call.numNewTokens))
      state.pool.config.numGpuBlocks after := by
  have mainIs := sized.main
  have someTokens := sized.someTokens
  have slotsCover := sized.main_le_slots
  have length := settled.length
  refine kept.change settled.same (settled.sound kept.sound) ?_ ?_ ?_ ?_
  · intro none
    omega
  · intro notAlign notCross
    refine le_trans ?_ length
    unfold slotLength KVCacheManager.slotTokens
    rw [notAlign, notCross, ← mainIs]
    refine cdiv_mono ?_ _
    exact le_trans slotsCover (Nat.le_add_right _ _)
  · intro _
    exact settled.partialHit
  · intro align _
    refine le_trans ?_ length
    unfold slotLength
    rw [align]
    exact Nat.le_add_left _ _

/-- The part of a call that takes blocks stays within the prediction. -/
theorem takeBlocks_within [DecidableEq BlockHash] (proper : run.ProperCall call)
    (frame : SameFrame run.state.pool prepared.pool) (keeps : run.state.KeepsRest prepared)
    (listedAlike : prepared.newComputedBlockList call = run.state.newComputedBlockList call)
    (sameManagers : prepared.managers.length = run.state.managers.length)
    (accounted : Accounted run.slots others prepared) (foreseen : ForeseenCall prepared call)
    (ran : prepared.predicted call = .ok needed) (room : prepared.hasRoom call needed = true) :
    Meets Fault.NotValue (fun after =>
      prepared.KeepsRest after ∧ SameFrame prepared.pool after.pool ∧ Accounted
          (update run.slots call.request.requestId (call.numComputedTokens + call.numNewTokens))
          others after ∧
        prepared.pool.getNumFreeBlocks - after.pool.getNumFreeBlocks ≤ needed)
      (prepared.takeBlocks call) := by
  obtain ⟨free, ledger⟩ := accounted.ledger
  have maxModelLen : prepared.maxModelLen = run.state.maxModelLen := by rw [keeps]
  have sized : KVCacheManager.Sized call prepared.maxModelLen := by
    rw [maxModelLen]
    exact proper.sized
  have listed : prepared.managers.length = (prepared.newComputedBlockList call).length := by
    rw [listedAlike, sameManagers]
    exact proper.listed
  have planned : ∀ plan ∈ prepared.plans call,
      KVCacheManager.Planned (prepared.adoptsIn call) call plan prepared.pool.config.numGpuBlocks :=
    fun plan mem => proper.planned frame.config listedAlike accounted.kept foreseen mem
  obtain ⟨cheap, enough⟩ :=
    KVCacheManager.callCost_le_predicted sized planned foreseen ledger ran room
  refine (KVCacheManager.takeBlocks_meets listed planned ledger enough).mono ?_
  rintro after ⟨keepsRest, settled, laterFrame, free', finalLedger, spent⟩
  refine ⟨keepsRest, laterFrame, ⟨⟨free', finalLedger⟩, ?_⟩, ?_⟩
  · intro manager mem
    obtain ⟨⟨before, hits⟩, wasPlan, taken⟩ := exists_left_of_forall₂ settled mem
    rw [laterFrame.config]
    exact kept_of_settled sized (accounted.kept before (of_mem_zip wasPlan).1) taken
  · rw [ledger.getNumFreeBlocks, finalLedger.getNumFreeBlocks]
    omega

/-- A state with the pins of the run is balanced if it is accounted for. -/
theorem balanced_of_accounted {pins : List BlockId} (accounted : Accounted run.slots pins run.state)
    (pinsAre : run.state.partialTailPins.items ++ run.held = pins) : run.Balanced := by
  unfold Balanced
  rw [pinsAre]
  exact accounted

/-- The request was prepared: skipped blocks are given back. -/
theorem freeSkipped_accounted (balanced : run.Balanced)
    (freed : run.state.freeSkipped call = .ok prepared) :
    run.state.KeepsRest prepared ∧ SameFrame run.state.pool prepared.pool ∧
      Accounted run.slots (run.state.partialTailPins.items ++ run.held) prepared ∧
      Forall₂ (fun before after =>
        SameExcept call.request.requestId before after ∧
          Grown call.request.requestId 0 before after)
        run.state.managers prepared.managers :=
  (removeSkipped_accounted call.request.requestId balanced).of_eq_ok freed

theorem cacheCommitted_accounted [DecidableEq BlockHash] {after : KVCacheManager BlockHash}
    (accounted : Accounted slots others state) (tracked : slots call.request.requestId ≠ 0)
    (ran : state.cacheCommitted call = .ok after) :
    state.KeepsRest after ∧ CacheStep state.pool after.pool ∧ Accounted slots others after := by
  unfold KVCacheManager.cacheCommitted at ran
  split at ran
  · cases ran
    obtain ⟨_, ledger⟩ := accounted.ledger
    exact ⟨rfl, .refl ledger.coherent.cache, accounted⟩
  · exact cacheBlocks_accounted accounted tracked ran

theorem allocateSlots_balanced [DecidableEq BlockHash] {result : Bool × KVCacheManager BlockHash}
    (balanced : run.Balanced) (proper : run.ProperCall call)
    (foreseen : ForeseenCall run.state call)
    (ran : run.state.allocateSlots call = .ok result) :
    (run.afterAllocate call result).Balanced := by
  unfold KVCacheManager.allocateSlots at ran
  split at ran
  · cases ran
  obtain ⟨fits, _, ran⟩ := bind_ok.mp ran
  split at ran
  · obtain ⟨prepared, freed, ran⟩ := bind_ok.mp ran
    obtain ⟨keeps, frame, accounted, matched⟩ := freeSkipped_accounted balanced freed
    have pins : prepared.partialTailPins = run.state.partialTailPins := by rw [keeps]
    obtain ⟨needed, predicts, ran⟩ := bind_ok.mp ran
    split at ran
    · rename_i room
      obtain ⟨taken, takes, ran⟩ := bind_ok.mp ran
      obtain ⟨cached, caches, ran⟩ := bind_ok.mp ran
      cases ran
      obtain ⟨takenKeeps, _, takenAccounted, _⟩ :=
        (takeBlocks_within proper frame keeps (newComputedBlockList_prepared matched)
          matched.length_eq.symm accounted (foreseenCall_prepared keeps matched foreseen)
          predicts room).of_eq_ok takes
      have tracked : update run.slots call.request.requestId
          (call.numComputedTokens + call.numNewTokens) call.request.requestId ≠ 0 := by
        rw [update_self]
        unfold SlotCall.numComputedTokens
        omega
      obtain ⟨cachedKeeps, _, cachedAccounted⟩ :=
        cacheCommitted_accounted takenAccounted tracked caches
      have sameTaken : taken.partialTailPins = prepared.partialTailPins := by rw [takenKeeps]
      have sameCached : cached.partialTailPins = taken.partialTailPins := by rw [cachedKeeps]
      refine balanced_of_accounted cachedAccounted ?_
      show cached.partialTailPins.items ++ run.held = _
      rw [sameCached, sameTaken, pins]
    · cases ran
      refine balanced_of_accounted accounted ?_
      show prepared.partialTailPins.items ++ run.held = _
      rw [pins]
  · cases ran
    exact balanced

/-! ## The other operations -/

/-- Every manager changed by itself, nothing a request needs and no reference with it. -/
theorem mapManagers_accounted {after : KVCacheManager BlockHash}
    (accounted : Accounted slots others state)
    (pool : after.pool = state.pool) (managers : after.managers = state.managers.map change)
    (references :
      (tableReferences state.managers ++ others).Perm
        (tableReferences (state.managers.map change) ++ moved))
    (kept :
      ∀ manager ∈ state.managers, Kept slots' state.pool.config.numGpuBlocks (change manager)) :
    Accounted slots' moved after := by
  obtain ⟨free, ledger⟩ := accounted.ledger
  refine ⟨⟨free, ?_⟩, ?_⟩
  · rw [pool, managers]
    exact ledger.perm references
  intro manager mem
  rw [managers] at mem
  rw [pool]
  obtain ⟨before, inside, rfl⟩ := mem_map.mp mem
  exact kept before inside

section

variable (balanced : run.Balanced)
include balanced

theorem newStepStarts_balanced : Balanced { run with state := run.state.newStepStarts } := by
  have only (manager : SingleTypeKVCacheManager BlockHash) : ∃ cachedBlocksThisStep,
      manager.newStepStarts = { manager with cachedBlocksThisStep } := by
    unfold SingleTypeKVCacheManager.newStepStarts
    split <;> exact ⟨_, rfl⟩
  refine mapManagers_accounted balanced rfl rfl ?_ ?_
  · have unmoved := tableReferences_moved run.state.managers
      SingleTypeKVCacheManager.newStepStarts (fun _ => [])
      (by
        intro manager
        obtain ⟨_, changed⟩ := only manager
        rw [changed]
        exact .refl _)
    rw [flatMap_eq_nil_iff.mpr (fun _ _ => rfl)] at unmoved
    exact unmoved.append_right _
  · intro manager mem
    obtain ⟨_, changed⟩ := only manager
    have kept := balanced.kept manager mem
    rw [changed]
    exact kept.same rfl (fun _ => ⟨rfl, rfl, rfl, Iff.rfl⟩)
      ⟨kept.sound.requestedCounts, kept.sound.offloads⟩

theorem popBlocksForFree_balanced {reqId : RequestId} :
    Balanced
      { run.setSlots (run.state.popBlocksForFree reqId).2 reqId 0 with
        held := (run.state.popBlocksForFree reqId).1 ++ run.held } := by
  refine mapManagers_accounted balanced rfl map_map ?_ ?_
  · have popped := tableReferences_moved run.state.managers
      (fun manager => (manager.popBlocksForFree reqId).2)
      (fun manager => (manager.popBlocksForFree reqId).1)
      (fun manager => references_pop manager reqId)
    have pins := run.state.partialTailPins.items_perm reqId
    rw [perm_iff_count]
    intro block
    have inTables := popped.count_eq block
    have inPins := pins.count_eq block
    simp only [KVCacheManager.popBlocksForFree, setSlots, flatMap_map, count_append,
      Function.comp_def] at inTables inPins ⊢
    omega
  · intro manager mem
    have kept := balanced.kept manager mem
    exact kept.forgotten sameExcept_pop (sound_popBlocksForFree kept.sound) pop_forgotten

theorem takeCopies_balanced :
    Balanced
      { run with
        state := run.state.takeKvCacheBlockCopies.2
        held := run.state.takeKvCacheBlockCopies.1 ++ run.held } := by
  refine mapManagers_accounted balanced rfl rfl ?_ ?_
  · have taken := tableReferences_moved run.state.managers
      (fun manager => { manager with pendingCowCopies := [] })
      (fun manager => manager.pendingCowCopies.flatMap fun copy => [copy.1, copy.2])
      (by
        intro manager
        unfold references
        rw [flatMap_nil, append_nil]
        exact perm_append_comm)
    rw [perm_iff_count]
    intro block
    have inTables := taken.count_eq block
    simp only [KVCacheManager.takeKvCacheBlockCopies, count_append, flatMap_assoc] at inTables ⊢
    omega
  · intro manager mem
    have kept := balanced.kept manager mem
    exact kept.same rfl (fun _ => ⟨rfl, rfl, rfl, Iff.rfl⟩)
      ⟨kept.sound.requestedCounts, kept.sound.offloads⟩

theorem commonPrefix_balanced {reqId : RequestId} :
    Balanced { run with state := (run.state.getNumCommonPrefixBlocks reqId).2 } := by
  have only (manager : SingleTypeKVCacheManager BlockHash) :
      (getNumCommonPrefixBlocks ⟨run.state.pool, manager⟩ reqId).2.manager = manager ∨
        (getNumCommonPrefixBlocks ⟨run.state.pool, manager⟩ reqId).2.manager =
          manager.setTable reqId (manager.table reqId) := by
    unfold getNumCommonPrefixBlocks
    split
    · exact .inr rfl
    · exact .inl rfl
  have relisted (manager : SingleTypeKVCacheManager BlockHash) : manager.references.Perm
      (manager.setTable reqId (manager.table reqId)).references := by
    rw [perm_iff_count]
    intro block
    have := manager.count_setTable reqId (manager.table reqId) block
    omega
  refine mapManagers_accounted balanced rfl map_map ?_ ?_
  · have unmoved := tableReferences_moved run.state.managers (fun manager =>
        (getNumCommonPrefixBlocks ⟨run.state.pool, manager⟩ reqId).2.manager)
      (fun _ => [])
      (by
        intro manager
        rcases only manager with same | listed
        · rw [same]
          exact .refl _
        · rw [listed]
          exact relisted manager)
    rw [flatMap_eq_nil_iff.mpr (fun _ _ => rfl)] at unmoved
    exact unmoved.append_right _
  · intro manager mem
    have kept := balanced.kept manager mem
    dsimp only [Function.comp]
    rcases only manager with same | listed
    · rw [same]
      exact kept
    · rw [listed]
      refine kept.grown (SameExcept.setTable _ _) ⟨kept.sound.requestedCounts, kept.sound.offloads⟩
        (grown_setTable rfl) (fun _ => rfl)

end

variable {pool : BlockPool BlockHash}

/-- An operation on the pool that leaves references and managers as they are. -/
theorem withPool_accounted (accounted : Accounted slots others state)
    (frame : SameFrame state.pool pool)
    (ledger : Ledger pool free' (tableReferences state.managers ++ moved)) :
    Accounted slots moved { state with pool } := by
  refine ⟨⟨free', ledger⟩, ?_⟩
  intro manager mem
  rw [frame.config]
  exact accounted.kept manager mem

theorem cacheStep_balanced (balanced : run.Balanced)
    (step : CacheStep run.state.pool pool) : (run.withPool pool).Balanced := by
  obtain ⟨free, ledger⟩ := balanced.ledger
  exact withPool_accounted balanced step.sameFrame (ledger.cacheStep step)

variable {blocks : List BlockId}

/-- References are taken outside the tables. -/
theorem touch_accounted (accounted : Accounted slots others state)
    (inside : ∀ block ∈ blocks, block < state.pool.config.numGpuBlocks)
    (ran : state.pool.touch blocks = .ok pool) (added : (blocks ++ others).Perm moved) :
    Accounted slots moved { state with pool } ∧ pool.config = state.pool.config := by
  obtain ⟨free, ledger⟩ := accounted.ledger
  obtain ⟨after, free', touched, touchedLedger, same, _, _⟩ := ledger.touch inside
  rw [ran] at touched
  cases touched
  refine ⟨withPool_accounted accounted same.sameFrame (touchedLedger.perm ?_), same.config⟩
  exact (perm_append_comm_assoc _ _ _).trans (added.append_left _)

/-- References outside the tables are given up. -/
theorem release_accounted (accounted : Accounted slots others state)
    (ran : state.pool.freeBlocks blocks = .ok pool) (given : others.Perm (blocks ++ moved)) :
    Accounted slots moved { state with pool } := by
  obtain ⟨free, ledger⟩ := accounted.ledger
  obtain ⟨after, free', released, releasedLedger, same, _⟩ :=
    ledger.freeBlocks ((given.append_left _).trans (perm_append_comm_assoc _ _ _))
  rw [ran] at released
  cases released
  exact withPool_accounted accounted same.sameFrame releasedLedger

section

variable (balanced : run.Balanced)
include balanced

theorem touch_balanced (inside : ∀ block ∈ blocks, block < run.state.pool.config.numGpuBlocks)
    (ran : run.state.pool.touch blocks = .ok pool) :
    Balanced { run.withPool pool with held := blocks ++ run.held } :=
  (touch_accounted balanced inside ran (perm_append_comm_assoc _ _ _)).1

theorem releaseHeld_balanced (held : ∀ block ∈ blocks, blocks.count block ≤ run.held.count block)
    (ran : run.state.pool.freeBlocks blocks = .ok pool) :
    Balanced { run.withPool pool with held := run.held.diff blocks } := by
  have parts := subperm_append_diff_self_of_count_le held
  exact release_accounted balanced ran
    ((parts.symm.append_left _).trans (perm_append_comm_assoc _ _ _))

theorem unpin_accounted {reqId : RequestId}
    (ran : run.state.unpin reqId = .ok unpinned) :
    Accounted run.slots (unpinned.partialTailPins.items ++ run.held) unpinned := by
  obtain ⟨pool, frees, done⟩ := bind_ok.mp ran
  cases done
  have pins := (run.state.partialTailPins.items_perm reqId).append_right run.held
  rw [append_assoc] at pins
  have changed := release_accounted balanced frees pins
  exact ⟨changed.ledger, changed.kept⟩

theorem free_balanced {reqId : RequestId} {after : KVCacheManager BlockHash}
    (ran : run.state.free reqId = .ok after) : (run.setSlots after reqId 0).Balanced := by
  obtain ⟨unpinned, unpins, ran⟩ := bind_ok.mp ran
  have accounted := unpin_accounted balanced unpins
  obtain ⟨keeps, _, freed, _⟩ := (freeManagers_accounted reqId accounted).of_eq_ok ran
  have pins : after.partialTailPins = unpinned.partialTailPins := by rw [keeps]
  refine balanced_of_accounted freed ?_
  show after.partialTailPins.items ++ run.held = _
  rw [pins]

end

/-- Pinning handed-off blocks, one after the other. -/
theorem pinOffloads_accounted {offloads : List (RequestId × Nat × BlockId × Nat)}
    {before after : KVCacheManager BlockHash} {held : List BlockId}
    (inside : ∀ offload ∈ offloads, offload.2.2.1 < numGpu)
    (config : before.pool.config.numGpuBlocks = numGpu)
    (accounted : Accounted slots (before.partialTailPins.items ++ held) before)
    (ran : offloads.foldlM KVCacheManager.pinOffload before = .ok after) :
    Accounted slots (after.partialTailPins.items ++ held) after := by
  induction offloads generalizing before with
  | nil =>
    cases ran
    exact accounted
  | cons offload rest ih =>
    obtain ⟨between, pinned, next⟩ := bind_ok.mp ran
    obtain ⟨pool, touches, done⟩ := bind_ok.mp pinned
    cases done
    have pinInside : ∀ block ∈ [offload.2.2.1], block < before.pool.config.numGpuBlocks := by
      intro block mem
      rw [mem_singleton.mp mem, config]
      exact inside offload mem_cons_self
    have pins : ([offload.2.2.1] ++ (before.partialTailPins.items ++ held)).Perm
        ((before.partialTailPins.set offload.1
          (before.partialTailPins.getD offload.1 [] ++ [offload.2.2.1])).items ++ held) := by
      rw [perm_iff_count]
      intro block
      have old := (before.partialTailPins.items_perm offload.1).count_eq block
      have new := (before.partialTailPins.items_set_perm offload.1
        (before.partialTailPins.getD offload.1 [] ++ [offload.2.2.1])).count_eq block
      simp only [count_append] at old new ⊢
      omega
    obtain ⟨changed, same⟩ := touch_accounted accounted pinInside touches pins
    refine ih (fun other mem => inside other (mem_cons_of_mem _ mem))
      (by rw [← config, ← same]) ?_ next
    exact ⟨changed.ledger, changed.kept⟩

theorem takeOffloads_balanced {after : KVCacheManager BlockHash}
    (balanced : run.Balanced) (ran : run.state.takePartialTailOffloads = .ok after) :
    Balanced { run with state := after } := by
  have drained : Accounted run.slots (run.state.partialTailPins.items ++ run.held)
        { run.state with
          managers := run.state.managers.map fun manager =>
            { manager with pendingPartialTailOffloads := [] } } := by
    refine mapManagers_accounted balanced rfl rfl ?_ ?_
    · have unmoved := tableReferences_moved run.state.managers
        (fun manager => { manager with pendingPartialTailOffloads := [] })
        (fun _ => []) (fun _ => .refl _)
      rw [flatMap_eq_nil_iff.mpr (fun _ _ => rfl)] at unmoved
      exact unmoved.append_right _
    · intro manager mem
      have kept := balanced.kept manager mem
      exact kept.same rfl (fun _ => ⟨rfl, rfl, rfl, Iff.rfl⟩) ⟨kept.sound.requestedCounts, nofun⟩
  have inside : ∀ offload ∈ run.state.managers.flatMap fun manager =>
        manager.pendingPartialTailOffloads,
      offload.2.2.1 < run.state.pool.config.numGpuBlocks := by
    intro offload mem
    obtain ⟨manager, isManager, listed⟩ := mem_flatMap.mp mem
    exact (balanced.kept manager isManager).sound.offloads offload listed
  refine pinOffloads_accounted inside ?_ drained ran
  rfl

/-- Every proper and foreseen operation keeps the balance. -/
def ForeseenOp (run : CacheRun BlockHash) : CacheOp BlockHash → Prop
  | .allocateSlots call => ForeseenCall run.state call
  | _ => True

theorem apply_balanced [DecidableEq BlockHash] {op : CacheOp BlockHash} (balanced : run.Balanced)
    (proper : run.Proper op) (foreseen : run.ForeseenOp op) (applied : run.apply op = .ok after) :
    after.Balanced := by
  cases op with
  | newStepStarts =>
    cases applied
    exact newStepStarts_balanced balanced
  | allocateSlots call =>
    obtain ⟨result, ran, done⟩ := bind_ok.mp applied
    cases done
    exact allocateSlots_balanced balanced proper foreseen ran
  | cacheBlocks request numComputedTokens =>
    obtain ⟨state, ran, done⟩ := bind_ok.mp applied
    cases done
    unfold KVCacheManager.cacheBlocks at ran
    split at ran
    · obtain ⟨keeps, _, accounted⟩ :=
        cacheBlocks_accounted balanced proper ran
      refine balanced_of_accounted accounted ?_
      rw [keeps]
    · cases ran
      exact balanced
  | removeSkippedBlocks reqId processedComputedTokens =>
    obtain ⟨state, ran, done⟩ := bind_ok.mp applied
    cases done
    obtain ⟨keeps, _, accounted, _⟩ :=
      (removeSkipped_accounted reqId balanced).of_eq_ok ran
    refine balanced_of_accounted accounted ?_
    rw [keeps]
  | free reqId =>
    obtain ⟨state, ran, done⟩ := bind_ok.mp applied
    cases done
    exact free_balanced balanced ran
  | popBlocksForFree reqId =>
    cases applied
    exact popBlocksForFree_balanced balanced
  | takeKvCacheBlockCopies =>
    cases applied
    exact takeCopies_balanced balanced
  | takePartialTailOffloads =>
    obtain ⟨state, ran, done⟩ := bind_ok.mp applied
    cases done
    exact takeOffloads_balanced balanced ran
  | getNumCommonPrefixBlocks reqId =>
    cases applied
    exact commonPrefix_balanced balanced
  | touch blocks =>
    obtain ⟨pool, ran, done⟩ := bind_ok.mp applied
    cases done
    exact touch_balanced balanced proper ran
  | releaseHeld blocks =>
    obtain ⟨pool, ran, done⟩ := bind_ok.mp applied
    cases done
    exact releaseHeld_balanced balanced proper ran
  | evictBlocks blockIds =>
    obtain ⟨pool, ran, done⟩ := bind_ok.mp applied
    cases done
    obtain ⟨_, ledger⟩ := balanced.ledger
    exact cacheStep_balanced balanced (ledger.coherent.cache.evictBlocks ran).step
  | resetPrefixCache =>
    cases applied
    obtain ⟨_, ledger⟩ := balanced.ledger
    exact cacheStep_balanced balanced ledger.coherent.cache.resetPrefixCache.step

/-! ## Whole runs -/

theorem init_balanced {config : PoolConfig BlockHash}
    (initial :
      initManager config groups maxModelLen watermarkBlocks retention = .ok state) :
    (init state).Balanced := by
  obtain ⟨pool, made, done⟩ := bind_ok.mp initial
  cases done
  obtain ⟨_, madeToo, _, coherent⟩ := coherent_init config
  rw [made] at madeToo
  cases madeToo
  have fresh (group : ManagerConfig) :
      references ({ toManagerConfig := group } : SingleTypeKVCacheManager BlockHash) = [] :=
    rfl
  have noReferences : tableReferences (groups.map fun group =>
      ({ toManagerConfig := group } : SingleTypeKVCacheManager BlockHash)) = [] := by
    unfold tableReferences
    rw [flatMap_map, flatMap_eq_nil_iff]
    intro group _
    exact fresh group
  refine ⟨⟨_, coherent, ?_, ?_⟩, ?_⟩
  · intro block mem
    dsimp only [init] at mem
    rw [noReferences] at mem
    cases mem
  · intro block notNull
    dsimp only [init] at notNull ⊢
    rw [noReferences]
    exact refCnt_init made notNull
  · intro manager mem
    obtain ⟨group, _, rfl⟩ := mem_map.mp mem
    refine ⟨fun reqId _ => ⟨rfl, rfl, rfl, fun _ => not_mem_nil⟩, ?_, ?_, ?_, ?_⟩
    · intro _ _ reqId
      exact (cdiv_le_iff group.blockSize_pos).mpr (Nat.zero_le _)
    · intro _ reqId
      rfl
    · intro _ reqId absurd'
      cases absurd'
    · exact ⟨nofun, nofun⟩

/-- Along every run of proper and foreseen operations the balance holds. -/
theorem Reachable.balanced [DecidableEq BlockHash] (reachable : Reachable ForeseenOp run) :
    run.Balanced := by
  induction reachable with
  | start initial => exact init_balanced initial
  | step _ proper foreseen applied balanced => exact apply_balanced balanced proper foreseen applied

end CacheRun

end VllmCore
