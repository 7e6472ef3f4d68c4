import Mathlib.Algebra.BigOperators.Group.List.Basic
import VllmCore.AllocationCost

namespace VllmCore

open Lib SingleTypeKVCacheManager List

/-!
# Taking slots in every group

The groups share one pool, so what a call costs is the sum of the costs of its
groups.  `forEachManager_meets` lifts what one manager does to all of them; the
phases of `takeBlocks` are then chained.  Every phase is stated over a plan for each
group, so that the costs of all phases are known before the first one starts.
-/

variable {BlockHash : Type}

namespace KVCacheManager

/-- All references the managers hold. -/
def tableReferences (managers : List (SingleTypeKVCacheManager BlockHash)) : List BlockId :=
  managers.flatMap references

variable {Plan Input : Type} {reqId : RequestId} {others free : List BlockId}
  {pool : BlockPool BlockHash}

/-- What every manager does within its cost, all managers do within the sum. -/
theorem forEachManager_meets
    (operation : GroupCache BlockHash → Input → Outcome (GroupCache BlockHash))
    (Holds : BlockPool BlockHash → Prop) (cost : Plan → Nat)
    (Pre : Plan → SingleTypeKVCacheManager BlockHash × Input → Prop)
    (Post : Plan → SingleTypeKVCacheManager BlockHash → Prop)
    (each :
      ∀ plan entry pool others free, Pre plan entry → Holds pool →
          Ledger pool free (entry.1.references ++ others) → cost plan ≤ free.length →
          Meets Fault.NotValue (fun after =>
            Post plan after.manager ∧ Holds after.pool ∧ ∃ free',
              Spends reqId others (cost plan) ⟨pool, entry.1⟩ free after free')
            (operation ⟨pool, entry.1⟩ entry.2))
    (matched : Forall₂ Pre plans entries) (holds : Holds pool)
    (ledger : Ledger pool free (tableReferences (entries.map Prod.fst) ++ others))
    (enough : (plans.map cost).sum ≤ free.length) :
    Meets Fault.NotValue (fun result =>
      Forall₂ Post plans result.2 ∧ Holds result.1 ∧ SameFrame pool result.1 ∧ ∃ free',
          Ledger result.1 free' (tableReferences result.2 ++ others) ∧
            free.length ≤ free'.length + (plans.map cost).sum)
      (forEachManager operation pool entries) := by
  induction matched generalizing pool others free with
  | nil => exact ⟨.nil, holds, .refl _, free, ledger, le_rfl⟩
  | @cons plan entry plans entries head _ ih =>
    obtain ⟨manager, input⟩ := entry
    rw [map_cons, sum_cons] at enough
    have split : Ledger pool free
        (manager.references ++ (tableReferences (entries.map Prod.fst) ++ others)) := by
      rw [← append_assoc]
      exact ledger
    refine (each plan (manager, input) pool _ free head holds split (by omega)).bind ?_
    rintro first ⟨post, firstHolds, free', spends⟩
    have budget := spends.spent
    have rest : Ledger first.pool free' (tableReferences (entries.map Prod.fst) ++
        (first.manager.references ++ others)) := by
      refine spends.ledger.perm ?_
      rw [perm_iff_count]
      intro block
      simp only [count_append]
      omega
    refine (ih firstHolds rest (by omega)).bind ?_
    rintro ⟨final, managers⟩ ⟨posts, finalHolds, frame, free'', finalLedger, spent⟩
    refine ⟨.cons post posts, finalHolds, spends.frame.trans frame, free'', ?_, ?_⟩
    · refine finalLedger.perm ?_
      rw [perm_iff_count]
      intro block
      simp only [tableReferences, flatMap_cons, count_append]
      omega
    · rw [map_cons, sum_cons]
      omega

/-- Only the pool and the managers change. -/
def KeepsRest (state after : KVCacheManager BlockHash) : Prop :=
  after = { state with pool := after.pool, managers := after.managers }

theorem KeepsRest.trans
    (before : KeepsRest first second) (later : KeepsRest second third) : KeepsRest first third := by
  rw [before] at later
  exact later

/-- What every manager does within its cost, an operation on all managers does. -/
theorem onManagers_meets (reqId : RequestId)
    (operation : GroupCache BlockHash → Outcome (GroupCache BlockHash)) (cost : Plan → Nat)
    (Pre Post : Plan → SingleTypeKVCacheManager BlockHash → Prop) (state : KVCacheManager BlockHash)
    (each :
      ∀ plan manager pool others free, Pre plan manager → SameFrame state.pool pool →
          Ledger pool free (manager.references ++ others) → cost plan ≤ free.length →
          Meets Fault.NotValue (fun after =>
            Post plan after.manager ∧ ∃ free',
              Spends reqId others (cost plan) ⟨pool, manager⟩ free after free')
            (operation ⟨pool, manager⟩))
    (matched : Forall₂ Pre plans state.managers)
    (ledger : Ledger state.pool free (tableReferences state.managers ++ others))
    (enough : (plans.map cost).sum ≤ free.length) :
    Meets Fault.NotValue (fun after =>
      KeepsRest state after ∧ Forall₂ Post plans after.managers ∧ SameFrame state.pool after.pool ∧
        ∃ free', Ledger after.pool free' (tableReferences after.managers ++ others) ∧
            free.length ≤ free'.length + (plans.map cost).sum)
      (state.onManagers operation) := by
  have entries : Forall₂ (fun plan (entry : SingleTypeKVCacheManager BlockHash × Unit) =>
      Pre plan entry.1) plans (state.managers.map fun manager => (manager, ())) :=
    forall₂_map_right_iff.mpr matched
  have listed : (state.managers.map fun manager => (manager, ())).map Prod.fst =
      state.managers := by
    rw [map_map]
    exact map_id _
  have all :=
    forEachManager_meets (fun cache (_ : Unit) => operation cache)
      (SameFrame state.pool) cost _ Post
      (fun plan entry pool others free pre frame ledger enough =>
        (each plan entry.1 pool others free pre frame ledger enough).mono (fun after result =>
            ⟨result.1, frame.trans (result.2.choose_spec).frame, result.2⟩))
      entries (SameFrame.refl _) (by rw [listed]; exact ledger) enough
  refine all.bind ?_
  rintro ⟨pool, managers⟩ ⟨posts, _, frame, free', after, spent⟩
  exact ⟨rfl, posts, frame, free', after, spent⟩

/-! ## The plan of a group -/

/-- A manager with the cached blocks a call has for its group. -/
abbrev GroupPlan (BlockHash : Type) := SingleTypeKVCacheManager BlockHash × List BlockId

section Plan

variable (adopts : Bool) (call : SlotCall BlockHash) (maxModelLen : Nat)
  (plan : GroupPlan BlockHash)

/-- Whether a group adopts blocks when the call does. -/
def adoptedBy : Bool :=
  adopts && !plan.1.isCrossAttention

/-- What adopting costs a group. -/
def adoptPhaseCost (pool : BlockPool BlockHash) : Nat :=
  if adoptedBy adopts plan then
    getNumEvictableBlocks pool
      (plan.2.drop (GroupCache.leadingNulls plan.1.toManagerConfig call.numComputedTokens))
  else
    0

/-- What loading external tokens costs a group. -/
def loadPhaseCost : Nat :=
  if adoptedBy adopts plan then
    GroupCache.loadCost plan.1.toManagerConfig plan.2 call.numLocalComputedTokens
      call.numExternalComputedTokens
  else
    0

/-- How long the table is once blocks are adopted. -/
def heldLength : Nat :=
  if adoptedBy adopts plan then
    GroupCache.adoptedLength plan.1.toManagerConfig plan.2 call.numComputedTokens
  else
    (plan.1.table call.request.requestId).length

/-- Whether a copy is pending once blocks are adopted. -/
def heldPartial : Bool :=
  if adoptedBy adopts plan then
    GroupCache.adoptedPartial plan.1.toManagerConfig plan.2 call.numLocalComputedTokens
      call.numExternalComputedTokens
  else
    plan.1.partialHitReqs.contains call.request.requestId

/-- The tokens a group has to hold. -/
def slotTokens (config : ManagerConfig) : Nat :=
  if config.isCrossAttention then
    call.numEncoderTokens
  else
    call.numTokensNeedSlot maxModelLen

/-- What taking slots costs a group. -/
def takePhaseCost : Nat :=
  GroupCache.takeCost plan.1.toManagerConfig
    (slotTokens call maxModelLen plan.1.toManagerConfig)
    (call.numTokensMainModel maxModelLen)
    (heldLength adopts call plan + loadPhaseCost adopts call plan)
    (heldPartial adopts call plan)
    (call.request.requestId ∈ plan.1.allocatedBlockReqs)

/-- What a call costs a group. -/
def groupCost (pool : BlockPool BlockHash) : Nat :=
  adoptPhaseCost adopts call plan pool + loadPhaseCost adopts call plan +
    takePhaseCost adopts call maxModelLen plan

/-- The state of a group fits the call: a request without blocks, or one that continues. -/
structure Planned (numGpuBlocks : Nat) : Prop where
  adopting : adopts = true → GroupCache.Forgotten call.request.requestId plan.1
  fits :
    adopts = true → 0 < call.numExternalComputedTokens →
      plan.2.length ≤ cdiv call.numComputedTokens plan.1.blockSize
  continuing : adopts = false → plan.2 = [] ∧ call.numExternalComputedTokens = 0
  covered :
    adopts = false → plan.1.isCrossAttention = false → plan.1.isAlign = false →
      GroupCache.leadingNulls plan.1.toManagerConfig call.numComputedTokens ≤
        (plan.1.table call.request.requestId).length
  noPartial : plan.1.isAlign = false → plan.1.partialHitReqs.get? call.request.requestId = none
  states :
    plan.1.isAlign = true → call.request.requestId ∈ plan.1.allocatedBlockReqs →
      plan.1.numSpeculativeBlocks ≤ (plan.1.table call.request.requestId).length
  inside : ∀ block ∈ plan.2, block < numGpuBlocks

end Plan

/-- A manager on the way through a call, with a table of some length. -/
structure Holding (requestId : RequestId) (numGpuBlocks : Nat)
    (before : SingleTypeKVCacheManager BlockHash) (length : Nat) (isPartial : Bool)
    (after : SingleTypeKVCacheManager BlockHash) : Prop where
  same : SameExcept requestId before after
  sound : before.Sound numGpuBlocks → after.Sound numGpuBlocks
  length : (after.table requestId).length = length
  partialHit : after.partialHitReqs.contains requestId = isPartial
  allocated : after.allocatedBlockReqs = before.allocatedBlockReqs

/-- A manager at the end of a call that took slots. -/
structure SlotsTaken (requestId : RequestId) (numGpuBlocks length : Nat)
    (before after : SingleTypeKVCacheManager BlockHash) : Prop where
  same : SameExcept requestId before after
  sound : before.Sound numGpuBlocks → after.Sound numGpuBlocks
  length : length ≤ (after.table requestId).length
  partialHit : after.partialHitReqs.get? requestId = none

variable {adopts : Bool} {call : SlotCall BlockHash} {maxModelLen numGpu : Nat}
  {plan : GroupPlan BlockHash}

theorem Holding.refl (manager : SingleTypeKVCacheManager BlockHash) :
    Holding reqId numGpu manager (manager.table reqId).length
      (manager.partialHitReqs.contains reqId) manager :=
  ⟨.refl _, id, rfl, rfl, rfl⟩

/-- The pool of a later moment of a call: references were only added. -/
structure LaterPool (start pool : BlockPool BlockHash) : Prop where
  frame : SameFrame start pool
  counts : ∀ block, (start.blocks block).refCnt ≤ (pool.blocks block).refCnt

theorem local_holding
    (nonneg : ∀ block, (start.blocks block).isNull = false → 0 ≤ (start.blocks block).refCnt)
    (planned : Planned true call plan start.config.numGpuBlocks) (later : LaterPool start pool)
    (ledger : Ledger pool free (plan.1.references ++ others)) :
    Meets Fault.NotValue (fun after =>
      Holding call.request.requestId start.config.numGpuBlocks plan.1
          (heldLength true call plan) (heldPartial true call plan) after.manager ∧
        LaterPool start after.pool ∧
        ∃ free', Spends call.request.requestId others (adoptPhaseCost true call plan start)
            ⟨pool, plan.1⟩ free after free')
      (GroupCache.addLocalComputedBlocks ⟨pool, plan.1⟩ call.request.requestId plan.2
        call.numLocalComputedTokens call.numExternalComputedTokens) := by
  obtain ⟨manager, hits⟩ := plan
  unfold heldLength heldPartial adoptPhaseCost adoptedBy
  cases cross : manager.isCrossAttention with
  | true =>
    unfold GroupCache.addLocalComputedBlocks
    rw [if_pos cross]
    refine meets_ensure.bind fun _ _ => ?_
    exact ⟨.refl _, later, free, .refl ledger⟩
  | false =>
    have fresh := planned.adopting rfl
    have noHit : manager.partialHitReqs.contains call.request.requestId = false := by
      rw [Dict.contains, fresh.partialHit]
      rfl
    have hitsInside : ∀ block ∈ hits, block < pool.config.numGpuBlocks := by
      intro block mem
      rw [later.frame.config]
      exact planned.inside block mem
    refine (GroupCache.local_meets ledger cross hitsInside rfl).mono ?_
    rintro after ⟨adopted, free', spends⟩
    refine ⟨⟨spends.same, ?_, ?_, ?_, adopted.allocated⟩, ⟨?_, ?_⟩, free', spends.mono ?_⟩
    · have sound := spends.sound
      rw [later.frame.config] at sound
      exact sound
    · rw [adopted.table, length_append, length_replicate, length_drop]
      show _ = GroupCache.adoptedLength _ _ _
      unfold GroupCache.adoptedLength SlotCall.numComputedTokens
      dsimp only
      omega
    · rw [adopted.partialHit, noHit, Bool.or_false]
      rfl
    · exact later.frame.trans spends.frame
    · intro block
      exact le_trans (later.counts block) (adopted.counts block)
    · exact GroupCache.evictable_mono later.frame later.counts nonneg

variable [DecidableEq BlockHash]

theorem external_holding
    (loads : 0 < call.numExternalComputedTokens) (planned : Planned true call plan numGpu)
    (holding :
      Holding call.request.requestId numGpu plan.1 (heldLength true call plan)
        (heldPartial true call plan) manager)
    (config : pool.config.numGpuBlocks = numGpu)
    (ledger : Ledger pool free (manager.references ++ others))
    (enough : loadPhaseCost true call plan ≤ free.length) :
    Meets Fault.NotValue (fun after =>
      Holding call.request.requestId numGpu plan.1
          (heldLength true call plan + loadPhaseCost true call plan)
          (heldPartial true call plan) after.manager ∧
        ∃ free', Spends call.request.requestId others (loadPhaseCost true call plan)
            ⟨pool, manager⟩ free after free')
      (GroupCache.allocateExternalComputedBlocks ⟨pool, manager⟩ call.request.requestId
        call.numLocalComputedTokens call.numExternalComputedTokens) := by
  have sameConfig := holding.same.config
  have costIs : GroupCache.externalCost manager.toManagerConfig
        (manager.table call.request.requestId).length call.numLocalComputedTokens
        call.numExternalComputedTokens =
      loadPhaseCost true call plan := by
    rw [sameConfig, holding.length]
    unfold loadPhaseCost heldLength adoptedBy
    cases cross : plan.1.isCrossAttention with
    | true =>
      rw [GroupCache.externalCost, cross]
      rfl
    | false => exact (if_pos loads).symm
  have short : (manager.table call.request.requestId).length ≤
      cdiv (call.numLocalComputedTokens + call.numExternalComputedTokens) manager.blockSize := by
    rw [holding.length, show manager.blockSize = plan.1.blockSize from
      congrArg ManagerConfig.blockSize sameConfig]
    unfold heldLength
    split
    · exact Nat.max_le.mpr ⟨GroupCache.leadingNulls_le _ _, planned.fits rfl loads⟩
    · rw [(planned.adopting rfl).table]
      exact Nat.zero_le _
  let cache : GroupCache BlockHash := ⟨pool, manager⟩
  have loading :=
    GroupCache.external_meets
      (show Ledger cache.pool free (cache.manager.references ++ others) from ledger) short
      (by rw [costIs]; exact enough)
  rw [costIs] at loading
  refine loading.mono ?_
  rintro after ⟨grown, free', spends⟩
  have sound := spends.sound
  rw [config] at sound
  refine ⟨⟨holding.same.trans spends.same, fun before => sound (holding.sound before),
    ?_, ?_, grown.book.allocatedBlockReqs.trans holding.allocated⟩, free', spends⟩
  · rw [grown.length, holding.length]
  · rw [grown.book.partialHitReqs, holding.partialHit]

theorem allocateNewBlocks_taken
    (planned : Planned adopts call plan numGpu)
    (holding :
      Holding call.request.requestId numGpu plan.1
        (heldLength adopts call plan + loadPhaseCost adopts call plan)
        (heldPartial adopts call plan) manager)
    (config : pool.config.numGpuBlocks = numGpu)
    (ledger : Ledger pool free (manager.references ++ others))
    (enough : takePhaseCost adopts call maxModelLen plan ≤ free.length) :
    Meets Fault.NotValue (fun result =>
      SlotsTaken call.request.requestId numGpu
          (GroupCache.slotLength plan.1.toManagerConfig
            (slotTokens call maxModelLen plan.1.toManagerConfig)
            (call.numTokensMainModel maxModelLen))
          plan.1 result.2.manager ∧
        ∃ free', Spends call.request.requestId others
            (takePhaseCost adopts call maxModelLen plan) ⟨pool, manager⟩ free result.2
            free')
      (GroupCache.allocateNewBlocks ⟨pool, manager⟩ call.request.requestId
        (slotTokens call maxModelLen manager.toManagerConfig)
        (call.numTokensMainModel maxModelLen)) := by
  have sameConfig := holding.same.config
  have costIs : GroupCache.takeCost manager.toManagerConfig
        (slotTokens call maxModelLen manager.toManagerConfig)
        (call.numTokensMainModel maxModelLen)
        (manager.table call.request.requestId).length
        (manager.partialHitReqs.contains call.request.requestId)
        (call.request.requestId ∈ manager.allocatedBlockReqs) =
      takePhaseCost adopts call maxModelLen plan := by
    rw [sameConfig, holding.length, holding.partialHit, holding.allocated]
    rfl
  have states : manager.isAlign = true → call.request.requestId ∈ manager.allocatedBlockReqs →
      manager.numSpeculativeBlocks ≤ (manager.table call.request.requestId).length := by
    intro isAlign allocated
    have wasAlign : plan.1.isAlign = true :=
      (congrArg ManagerConfig.isAlign sameConfig).symm.trans isAlign
    rw [holding.allocated] at allocated
    rw [holding.length, show manager.numSpeculativeBlocks = plan.1.numSpeculativeBlocks from
      congrArg ManagerConfig.numSpeculativeBlocks sameConfig]
    cases adopts with
    | true => exact absurd allocated ((planned.adopting rfl).allocated wasAlign)
    | false => exact le_trans (planned.states wasAlign allocated) (Nat.le_add_right _ _)
  let cache : GroupCache BlockHash := ⟨pool, manager⟩
  have taking :=
    GroupCache.allocateNewBlocks_meets
      (show Ledger cache.pool free (cache.manager.references ++ others) from ledger) states
      (by rw [costIs]; exact enough)
  rw [costIs] at taking
  refine taking.mono ?_
  rintro result ⟨ready, free', spends⟩
  have sound := spends.sound
  rw [config] at sound
  refine ⟨⟨holding.same.trans spends.same, fun before => sound (holding.sound before),
    ?_, ready.partialHit⟩, free', spends⟩
  have length := ready.length
  rw [show cache.manager.toManagerConfig = plan.1.toManagerConfig from sameConfig] at length
  exact length

/-! ## A whole call -/

/-- Whether a call adopts blocks. -/
def adoptsIn (state : KVCacheManager BlockHash) (call : SlotCall BlockHash) : Bool :=
  (state.newComputedBlockList call).any (fun group => 0 < group.length) ||
    0 < call.numExternalComputedTokens

/-- The managers with the cached blocks a call has for them. -/
def plans (state : KVCacheManager BlockHash) (call : SlotCall BlockHash) :
    List (GroupPlan BlockHash) :=
  state.managers.zip (state.newComputedBlockList call)

variable {state : KVCacheManager BlockHash}

omit [DecidableEq BlockHash] in
theorem map_fst_plans (listed : state.managers.length = (state.newComputedBlockList call).length) :
    (state.plans call).map Prod.fst = state.managers :=
  map_fst_zip (le_of_eq listed)

omit [DecidableEq BlockHash] in
/-- What holds for every plan holds for the managers side by side with the plans. -/
theorem forall₂_plans
    (listed : state.managers.length = (state.newComputedBlockList call).length)
    (each : ∀ plan ∈ state.plans call, Post plan plan.1) :
    Forall₂ Post (state.plans call) state.managers := by
  have beside : Forall₂ Post (state.plans call) ((state.plans call).map Prod.fst) :=
    forall₂_map_right_iff.mpr (forall₂_same.mpr each)
  rw [map_fst_plans listed] at beside
  exact beside

/-- The result of adopting and loading. -/
def Held (adopts : Bool) (call : SlotCall BlockHash) (numGpuBlocks : Nat)
    (plan : GroupPlan BlockHash) (after : SingleTypeKVCacheManager BlockHash) : Prop :=
  Planned adopts call plan numGpuBlocks ∧ Holding call.request.requestId numGpuBlocks plan.1
      (heldLength adopts call plan + loadPhaseCost adopts call plan)
      (heldPartial adopts call plan) after

/-- What adopting and loading cost all groups. -/
def adoptCost (state : KVCacheManager BlockHash) (call : SlotCall BlockHash) (adopts : Bool) :
    Nat :=
  ((state.plans call).map fun plan => adoptPhaseCost adopts call plan state.pool).sum +
    ((state.plans call).map (loadPhaseCost adopts call)).sum

section

variable (listed : state.managers.length = (state.newComputedBlockList call).length)
include listed

theorem newComputed_eq
    (fresh : ∀ plan ∈ state.plans call, GroupCache.Forgotten call.request.requestId plan.1) :
    state.allocateNewComputedBlocks call.request.requestId
        (state.newComputedBlockList call) call.numLocalComputedTokens
        call.numExternalComputedTokens =
      (do
        let (pool, managers) ←
          forEachManager (fun cache blocks =>
            cache.addLocalComputedBlocks call.request.requestId blocks
              call.numLocalComputedTokens call.numExternalComputedTokens)
            state.pool (state.plans call)
        let adopted := { state with pool, managers }
        if 0 < call.numExternalComputedTokens then
          adopted.onManagers fun cache =>
            cache.allocateExternalComputedBlocks call.request.requestId
              call.numLocalComputedTokens call.numExternalComputedTokens
        else
          .ok adopted) := by
  have untracked : ¬(state.managers.any fun manager =>
      manager.numCachedBlock.contains call.request.requestId) = true := by
    intro tracked
    obtain ⟨manager, mem, contained⟩ := any_eq_true.mp tracked
    rw [← map_fst_plans listed] at mem
    obtain ⟨plan, planMember, rfl⟩ := mem_map.mp mem
    rw [Dict.contains, (fresh plan planMember).numCachedBlock] at contained
    cases contained
  unfold allocateNewComputedBlocks withBlocks
  rw [if_neg untracked, if_neg (by omega)]
  rfl

theorem adoptAll_meets
    (planned : ∀ plan ∈ state.plans call, Planned true call plan state.pool.config.numGpuBlocks)
    (ledger : Ledger state.pool free (tableReferences state.managers ++ others))
    (enough : state.adoptCost call true ≤ free.length) :
    Meets Fault.NotValue (fun after =>
      KeepsRest state after ∧
        Forall₂ (Held true call state.pool.config.numGpuBlocks) (state.plans call)
          after.managers ∧
        SameFrame state.pool after.pool ∧
        ∃ free', Ledger after.pool free' (tableReferences after.managers ++ others) ∧
            free.length ≤ free'.length + state.adoptCost call true)
      (state.allocateNewComputedBlocks call.request.requestId
        (state.newComputedBlockList call) call.numLocalComputedTokens
        call.numExternalComputedTokens) := by
  rw [newComputed_eq listed (fun plan mem => (planned plan mem).adopting rfl)]
  unfold adoptCost at enough ⊢
  have nonneg := ledger.coherent.refCnt_nonneg
  have start : LaterPool state.pool state.pool := ⟨.refl _, fun _ => le_refl _⟩
  have adopting :=
    forEachManager_meets (fun cache blocks =>
        cache.addLocalComputedBlocks call.request.requestId blocks
          call.numLocalComputedTokens call.numExternalComputedTokens)
      (LaterPool state.pool)
      (fun plan => adoptPhaseCost true call plan state.pool)
      (fun plan entry => entry = plan ∧ Planned true call plan state.pool.config.numGpuBlocks)
      (fun plan after =>
        Planned true call plan state.pool.config.numGpuBlocks ∧
          Holding call.request.requestId state.pool.config.numGpuBlocks plan.1
            (heldLength true call plan) (heldPartial true call plan) after)
      (by
        rintro plan _ pool others free ⟨rfl, planned⟩ later ledger _
        refine (local_holding nonneg planned later ledger).mono ?_
        rintro after ⟨holding, laterStill, spends⟩
        exact ⟨⟨planned, holding⟩, laterStill, spends⟩)
      (forall₂_same.mpr fun plan mem => ⟨rfl, planned plan mem⟩)
      start (by rw [map_fst_plans listed]; exact ledger) (by omega)
  refine adopting.bind ?_
  rintro ⟨pool, managers⟩ ⟨held, _, frame, free', adopted, spent⟩
  dsimp only at held frame adopted ⊢
  by_cases loads : 0 < call.numExternalComputedTokens
  · rw [if_pos loads]
    have loading :=
      onManagers_meets call.request.requestId (fun cache =>
          cache.allocateExternalComputedBlocks call.request.requestId
            call.numLocalComputedTokens call.numExternalComputedTokens)
        (loadPhaseCost true call)
        (fun plan manager =>
          Planned true call plan state.pool.config.numGpuBlocks ∧
            Holding call.request.requestId state.pool.config.numGpuBlocks plan.1
              (heldLength true call plan) (heldPartial true call plan) manager)
        (Held true call state.pool.config.numGpuBlocks)
        { state with pool, managers }
        (by
          rintro plan manager later others free ⟨planned, holding⟩ laterFrame ledger enough
          refine (external_holding loads planned holding
            (by rw [laterFrame.config, frame.config]) ledger enough).mono ?_
          rintro after ⟨loaded, spends⟩
          exact ⟨⟨planned, loaded⟩, spends⟩)
        held adopted (by omega)
    refine loading.mono ?_
    rintro after ⟨keeps, loaded, later, free'', ledger, more⟩
    exact ⟨keeps, loaded, frame.trans later, free'', ledger, by omega⟩
  · rw [if_neg loads]
    refine ⟨rfl, held.imp ?_, frame, free', adopted, by omega⟩
    rintro plan manager ⟨planned, holding⟩
    have noLoad : loadPhaseCost true call plan = 0 := by
      unfold loadPhaseCost GroupCache.loadCost
      rw [if_neg loads]
      exact ite_self 0
    refine ⟨planned, ?_⟩
    rw [noLoad]
    exact holding

theorem adoptComputed_meets
    (planned :
      ∀ plan ∈ state.plans call,
        Planned (state.adoptsIn call) call plan state.pool.config.numGpuBlocks)
    (ledger : Ledger state.pool free (tableReferences state.managers ++ others))
    (enough : state.adoptCost call (state.adoptsIn call) ≤ free.length) :
    Meets Fault.NotValue (fun after =>
      KeepsRest state after ∧
        Forall₂ (Held (state.adoptsIn call) call state.pool.config.numGpuBlocks)
          (state.plans call) after.managers ∧
        SameFrame state.pool after.pool ∧
        ∃ free', Ledger after.pool free' (tableReferences after.managers ++ others) ∧
            free.length ≤ free'.length + state.adoptCost call (state.adoptsIn call))
      (state.adoptComputed call) := by
  show Meets _ _ (if state.adoptsIn call = true then _ else _)
  cases adopting : state.adoptsIn call with
  | false =>
    rw [adopting] at planned
    refine ⟨rfl, ?_, .refl _, free, ledger, Nat.le_add_right _ _⟩
    exact forall₂_plans listed fun plan mem => ⟨planned plan mem, .refl _⟩
  | true =>
    rw [adopting] at planned enough
    exact adoptAll_meets listed planned ledger enough

end

/-- What a call costs all groups. -/
def callCost (state : KVCacheManager BlockHash) (call : SlotCall BlockHash) : Nat :=
  ((state.plans call).map fun plan =>
    groupCost (state.adoptsIn call) call state.maxModelLen plan state.pool).sum

omit [DecidableEq BlockHash] in
theorem callCost_eq :
    state.callCost call = state.adoptCost call (state.adoptsIn call) + ((state.plans call).map
      (takePhaseCost (state.adoptsIn call) call state.maxModelLen)).sum := by
  unfold callCost adoptCost groupCost
  rw [sum_map_add, sum_map_add]

/-- A group at the end of a call that took slots. -/
def Settled (state : KVCacheManager BlockHash) (call : SlotCall BlockHash)
    (plan : GroupPlan BlockHash) (after : SingleTypeKVCacheManager BlockHash) : Prop :=
  SlotsTaken call.request.requestId state.pool.config.numGpuBlocks
    (GroupCache.slotLength plan.1.toManagerConfig
      (slotTokens call state.maxModelLen plan.1.toManagerConfig)
      (call.numTokensMainModel state.maxModelLen))
    plan.1 after

/-- Taking the blocks of a call removes no more free blocks than its cost. -/
theorem takeBlocks_meets (listed : state.managers.length = (state.newComputedBlockList call).length)
    (planned :
      ∀ plan ∈ state.plans call,
        Planned (state.adoptsIn call) call plan state.pool.config.numGpuBlocks)
    (ledger : Ledger state.pool free (tableReferences state.managers ++ others))
    (enough : state.callCost call ≤ free.length) :
    Meets Fault.NotValue (fun after =>
      KeepsRest state after ∧ Forall₂ (state.Settled call) (state.plans call) after.managers ∧
        SameFrame state.pool after.pool ∧
        ∃ free', Ledger after.pool free' (tableReferences after.managers ++ others) ∧
          free.length ≤ free'.length + state.callCost call)
      (state.takeBlocks call) := by
  rw [callCost_eq] at enough ⊢
  refine (adoptComputed_meets listed planned ledger (by omega)).bind ?_
  rintro adopted ⟨keeps, held, frame, free', adoptedLedger, spent⟩
  have taking :=
    onManagers_meets call.request.requestId (fun cache => do
        let result ← cache.allocateNewBlocks call.request.requestId
            (slotTokens call state.maxModelLen cache.manager.toManagerConfig)
            (call.numTokensMainModel state.maxModelLen)
        .ok result.2)
      (takePhaseCost (state.adoptsIn call) call state.maxModelLen)
      (Held (state.adoptsIn call) call state.pool.config.numGpuBlocks)
      (state.Settled call) adopted
      (by
        rintro plan manager later others free ⟨planned, holding⟩ laterFrame ledger enough
        refine (allocateNewBlocks_taken planned holding
          (by rw [laterFrame.config, frame.config]) ledger enough).bind ?_
        rintro ⟨blocks, allocated⟩ ⟨taken, spends⟩
        exact ⟨taken, spends⟩)
      held adoptedLedger (by omega)
  refine taking.mono ?_
  rintro after ⟨laterKeeps, settled, laterFrame, free'', finalLedger, more⟩
  exact ⟨keeps.trans laterKeeps, settled, frame.trans laterFrame, free'', finalLedger, by omega⟩

/-! ## The prediction of a call -/

/-- The numbers of a call: computed tokens are among those that need slots. -/
structure Sized (call : SlotCall BlockHash) (maxModelLen : Nat) : Prop where
  fits : call.numComputedTokens + call.numNewTokens ≤ maxModelLen
  someTokens : 0 < call.numTokensMainModel maxModelLen

omit [DecidableEq BlockHash] in
theorem Sized.main (sized : Sized call maxModelLen) :
    call.numTokensMainModel maxModelLen = call.numComputedTokens + call.numNewTokens := by
  have := sized.fits
  unfold SlotCall.numTokensMainModel SlotCall.totalComputedTokens
  omega

omit [DecidableEq BlockHash] in
theorem Sized.main_le_slots (sized : Sized call maxModelLen) :
    call.numTokensMainModel maxModelLen ≤ call.numTokensNeedSlot maxModelLen := by
  have := sized.fits
  rw [SlotCall.numTokensNeedSlot, sized.main]
  omega

/-- The prediction of one group for a call. -/
def groupPrediction (state : KVCacheManager BlockHash) (call : SlotCall BlockHash)
    (plan : GroupPlan BlockHash) : Outcome Int :=
  groupNumBlocksToAllocate { pool := state.pool, manager := plan.1 } call.request.requestId
    (call.numTokensNeedSlot state.maxModelLen) plan.2 call.numEncoderTokens
    call.numComputedTokens call.numLocalComputedTokens
    (call.numTokensMainModel state.maxModelLen) false

/-- A group refuses a hit whose state is only computed in this step. -/
def refusesHit (pool : BlockPool BlockHash) (plan : GroupPlan BlockHash) : Bool :=
  plan.1.kind.isMamba && GroupCache.hitsThisStep ⟨pool, plan.1⟩ plan.2

omit [DecidableEq BlockHash] in
theorem notAlign_of_cross (cross : config.isCrossAttention = true) :
    config.kind.isMamba = false ∧ config.isAlign = false ∧
      config.numSpeculativeBlocks = 0 ∧ GroupCache.leadingNulls config 0 = 0 := by
  unfold ManagerConfig.isCrossAttention at cross
  simp only [decide_eq_true_eq] at cross
  unfold ManagerConfig.isAlign ManagerConfig.numSpeculativeBlocks GroupCache.leadingNulls
    ManagerConfig.numSkippedBlocks
  rw [cross]
  simp [SpecKind.isMamba, SpecKind.getNumSkippedTokens]

theorem crossCost_le_prediction {predicted : Int} (cross : plan.1.isCrossAttention = true)
    (planned : Planned adopts call plan numGpu)
    (ran : state.groupPrediction call plan = .ok predicted) :
    (groupCost adopts call state.maxModelLen plan state.pool : Int) ≤ predicted := by
  obtain ⟨notMamba, notAlign, noDrafts, noNulls⟩ := notAlign_of_cross cross
  unfold groupPrediction groupNumBlocksToAllocate at ran
  rw [if_pos cross, GroupCache.toAllocate_eq] at ran
  simp only [notMamba, notAlign, Bool.false_and, Bool.false_eq_true, if_false] at ran
  have covered : GroupCache.leadingNulls plan.1.toManagerConfig 0 ≤
      (plan.1.table call.request.requestId).length := by
    rw [noNulls]
    exact Nat.zero_le _
  have costs := GroupCache.base_continuing_le (planned.noPartial notAlign) covered ran
  unfold groupCost adoptPhaseCost loadPhaseCost takePhaseCost GroupCache.takeCost heldLength
    heldPartial slotTokens adoptedBy loadPhaseCost adoptedBy
  simpa [cross, notAlign] using costs

section

variable {predicted : Int}
    (foreseen :
      GroupCache.Foreseen plan.1 call.request.requestId plan.2
        call.numLocalComputedTokens call.numExternalComputedTokens
        (call.numTokensMainModel state.maxModelLen))
    (ran : state.groupPrediction call plan = .ok predicted)
include foreseen ran

theorem continuingCost_le (cross : plan.1.isCrossAttention = false)
    (admits : refusesHit state.pool plan = false) (planned : Planned false call plan numGpu) :
    (groupCost false call state.maxModelLen plan state.pool : Int) ≤ predicted := by
  obtain ⟨noHits, _⟩ := planned.continuing rfl
  have drafts := foreseen.drafts
  unfold groupPrediction groupNumBlocksToAllocate at ran
  rw [if_neg (by rw [cross]; exact Bool.false_ne_true), GroupCache.toAllocate_eq] at ran
  unfold refusesHit at admits
  simp only [admits, Bool.false_eq_true, if_false] at ran
  rw [noHits] at ran
  unfold groupCost adoptPhaseCost takePhaseCost GroupCache.takeCost heldLength heldPartial
    loadPhaseCost slotTokens adoptedBy
  simp only [Bool.false_and, Bool.false_eq_true, if_false, cross, zero_add, add_zero]
  cases isAlign : plan.1.isAlign with
  | true =>
    simp only [isAlign, if_true, Except.ok.injEq] at ran ⊢
    rw [← ran]
    let cache : GroupCache BlockHash := ⟨state.pool, plan.1⟩
    have possible : (cache.manager.table call.request.requestId).length ≤
          cdiv (call.numTokensMainModel state.maxModelLen) cache.manager.blockSize +
            cache.manager.numSpeculativeBlocks ∨
        cache.manager.partialHitReqs.contains call.request.requestId = true := by
      have possible := drafts isAlign
      rw [noHits, length_nil, zero_add] at possible
      rcases possible with fits | impossible | isPartial
      · exact .inl fits
      · cases impossible
      · exact .inr isPartial
    have costs : _ ≤ cache.alignNumBlocksToAllocate call.request.requestId []
        call.numLocalComputedTokens (call.numTokensMainModel state.maxModelLen) :=
      GroupCache.align_continuing_le possible
    exact costs
  | false =>
    simp only [isAlign, Bool.false_eq_true, if_false] at ran ⊢
    have costs := GroupCache.base_continuing_le (planned.noPartial isAlign)
      (planned.covered rfl cross isAlign) ran
    exact costs

variable (sized : Sized call state.maxModelLen)
include sized

theorem adoptingCost_le_prediction (cross : plan.1.isCrossAttention = false)
    (admits : refusesHit state.pool plan = false) (planned : Planned true call plan numGpu) :
    (groupCost true call state.maxModelLen plan state.pool : Int) ≤ predicted := by
  have fresh := planned.adopting rfl
  have mainIs := sized.main
  have slots := sized.main_le_slots
  unfold groupPrediction groupNumBlocksToAllocate at ran
  rw [if_neg (by rw [cross]; exact Bool.false_ne_true), GroupCache.toAllocate_eq] at ran
  unfold refusesHit at admits
  simp only [admits, Bool.false_eq_true, if_false] at ran
  have adopts : adoptedBy true plan = true := by
    rw [adoptedBy, cross]
    rfl
  unfold groupCost adoptPhaseCost takePhaseCost GroupCache.takeCost heldLength heldPartial
    loadPhaseCost slotTokens
  simp only [adopts, if_true, cross, Bool.false_eq_true, if_false]
  cases isAlign : plan.1.isAlign with
  | true =>
    simp only [isAlign, if_true, Except.ok.injEq] at ran ⊢
    rw [← ran]
    have notAllocated := fresh.allocated isAlign
    rw [decide_eq_false notAllocated]
    exact GroupCache.align_adopting_le isAlign fresh (by rw [mainIs]; exact Nat.le_add_right _ _)
      foreseen
  | false =>
    simp only [isAlign, Bool.false_eq_true, if_false] at ran ⊢
    have computed : call.numComputedTokens ≤ call.numTokensNeedSlot state.maxModelLen := by omega
    have costs := GroupCache.base_adopting_le fresh (le_trans computed (Nat.le_add_right _ _)) ran
    exact costs

/-- The prediction of a group covers its cost, or refuses the call. -/
theorem groupCost_le_prediction (planned : Planned adopts call plan numGpu) :
    predicted = state.pool.config.numGpuBlocks + 1 ∨
      (groupCost adopts call state.maxModelLen plan state.pool : Int) ≤ predicted := by
  cases cross : plan.1.isCrossAttention with
  | true => exact .inr (crossCost_le_prediction cross planned ran)
  | false =>
    cases refuses : refusesHit state.pool plan with
    | true =>
      refine .inl ?_
      unfold groupPrediction groupNumBlocksToAllocate at ran
      rw [if_neg (by rw [cross]; exact Bool.false_ne_true), GroupCache.toAllocate_eq] at ran
      unfold refusesHit at refuses
      simp only [refuses, if_true, Except.ok.injEq] at ran
      exact ran.symm
    | false =>
      refine .inr ?_
      cases adopts with
      | true => exact adoptingCost_le_prediction foreseen ran sized cross refuses planned
      | false => exact continuingCost_le foreseen ran cross refuses planned

end

/-- Costs below non-negative predictions, unless one prediction is out of reach. -/
theorem sum_cost_le_or_refused {Item : Type} {Predicts : Item → Int → Prop} (cost : Item → Nat)
    {bound : Nat} {items : List Item}
    (matched : Forall₂ Predicts items predictions)
    (each :
      ∀ item ∈ items, ∀ predicted, Predicts item predicted →
        predicted = bound + 1 ∨ (cost item : Int) ≤ predicted) :
    0 ≤ predictions.sum ∧ ((bound : Int) + 1 ≤ predictions.sum ∨
        ((items.map cost).sum : Int) ≤ predictions.sum) := by
  induction matched with
  | nil => simp
  | @cons item predicted items predictions head _ ih =>
    obtain ⟨nonneg, rest⟩ := ih (fun other mem => each other (mem_cons_of_mem _ mem))
    have here := each item mem_cons_self predicted head
    rw [sum_cons, map_cons, sum_cons]
    omega

/-- A call that passes the check costs no more than predicted, and so much is free. -/
theorem callCost_le_predicted {needed : Int} (sized : Sized call state.maxModelLen)
    (planned :
      ∀ plan ∈ state.plans call,
        Planned (state.adoptsIn call) call plan state.pool.config.numGpuBlocks)
    (foreseen :
      ∀ plan ∈ state.plans call, GroupCache.Foreseen plan.1 call.request.requestId plan.2
          call.numLocalComputedTokens call.numExternalComputedTokens
          (call.numTokensMainModel state.maxModelLen))
    (ledger : Ledger state.pool free others) (ran : state.predicted call = .ok needed)
    (room : state.hasRoom call needed = true) :
    (state.callCost call : Int) ≤ needed ∧ state.callCost call ≤ free.length := by
  obtain ⟨groups, listed, sums⟩ := bind_ok.mp ran
  unfold withBlocks at listed
  split at listed
  · cases listed
  · cases listed
    obtain ⟨predictions, matched, total⟩ := foldlM_add_eq_ok sums
    obtain ⟨_, covered⟩ :=
      sum_cost_le_or_refused (fun plan =>
          groupCost (state.adoptsIn call) call state.maxModelLen plan state.pool)
        matched
        (fun plan mem predicted ran =>
          groupCost_le_prediction (foreseen plan mem) ran sized (planned plan mem))
    have few := ledger.length_free_le
    unfold hasRoom at room
    rw [decide_eq_true_eq, ledger.getNumFreeBlocks] at room
    unfold callCost plans
    omega

end KVCacheManager

end VllmCore
