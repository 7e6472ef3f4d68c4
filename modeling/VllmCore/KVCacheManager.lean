import VllmCore.SingleTypeManager

namespace VllmCore

open Lib

/-!
# The cache manager of all groups

`KVCacheManager` joins the managers of all groups and the pool they share.
`allocateSlots` frees what a request no longer needs, compares the predicted need
with the free blocks and only then takes blocks: first the cached ones of every
group, then blocks for externally computed tokens, then blocks for new tokens.
-/

/-- The managers of all groups with their pool. -/
structure KVCacheManager (BlockHash : Type) where
  pool : BlockPool BlockHash
  managers : List (SingleTypeKVCacheManager BlockHash)
  maxModelLen : Nat
  enableCaching : Bool
  watermarkBlocks : Nat
  retentionInterval : Option Nat
  partialTailPins : Dict RequestId (List BlockId)

/-- The arguments of one `allocate_slots` call. -/
structure SlotCall (BlockHash : Type) where
  request : KVRequest BlockHash
  numNewTokens : Nat
  numNewComputedTokens : Nat := 0
  newComputedBlocks : Option (List (List BlockId)) := none
  numLookaheadTokens : Nat := 0
  numExternalComputedTokens : Nat := 0
  delayCacheBlocks : Bool := false
  numEncoderTokens : Nat := 0
  fullSequenceMustFit : Bool := false
  reservedBlocks : Nat := 0
  hasScheduledReqs : Bool := true

namespace SlotCall

variable {BlockHash : Type}

variable (call : SlotCall BlockHash)

def numLocalComputedTokens : Nat :=
  call.request.numComputedTokens + call.numNewComputedTokens

/-- Computed tokens, locally or externally, not capped. -/
def numComputedTokens : Nat :=
  call.numLocalComputedTokens + call.numExternalComputedTokens

variable (maxModelLen : Nat)

def totalComputedTokens : Nat :=
  min call.numComputedTokens maxModelLen

def numTokensMainModel : Nat :=
  call.totalComputedTokens maxModelLen + call.numNewTokens

def numTokensNeedSlot : Nat :=
  min (call.numTokensMainModel maxModelLen + call.numLookaheadTokens) maxModelLen

end SlotCall

namespace KVCacheManager

variable {BlockHash : Type}

variable (state : KVCacheManager BlockHash)

variable (call : SlotCall BlockHash) (requestId : RequestId)

/-- The cached blocks of a call, an empty list for each group by default. -/
def newComputedBlockList : List (List BlockId) :=
  call.newComputedBlocks.getD (state.managers.map fun _ => [])

/-- Run one operation of every manager in turn, passing the pool on. -/
def forEachManager {Input : Type}
    (operation : GroupCache BlockHash → Input → Outcome (GroupCache BlockHash)) :
    BlockPool BlockHash → List (SingleTypeKVCacheManager BlockHash × Input) →
      Outcome (BlockPool BlockHash × List (SingleTypeKVCacheManager BlockHash))
  | pool, [] => .ok (pool, [])
  | pool, (manager, input) :: rest => do
      let first ← operation { pool, manager } input
      let (final, managers) ← forEachManager operation first.pool rest
      .ok (final, first.manager :: managers)

/-- Run one operation of every manager on the state. -/
def onManagers (operation : GroupCache BlockHash → Outcome (GroupCache BlockHash)) :
    Outcome (KVCacheManager BlockHash) := do
  let (pool, managers) ←
    forEachManager (fun cache (_ : Unit) => operation cache) state.pool
      (state.managers.map fun manager => (manager, ()))
  .ok { state with pool, managers }

variable [DecidableEq BlockHash]

/-- The prediction of one group for a call. -/
def groupNumBlocksToAllocate
    (cache : GroupCache BlockHash) (requestId : RequestId) (numTokens : Nat)
    (newComputedBlocks : List BlockId)
    (numEncoderTokens totalComputedTokens numLocalComputedTokens numTokensMainModel : Nat)
    (applyAdmissionCap : Bool) : Outcome Int :=
  if cache.manager.isCrossAttention then
    cache.getNumBlocksToAllocate requestId numEncoderTokens [] 0 0 numEncoderTokens
      applyAdmissionCap
  else
    cache.getNumBlocksToAllocate requestId numTokens newComputedBlocks
      totalComputedTokens numLocalComputedTokens numTokensMainModel applyAdmissionCap

/-- The managers with the cached blocks of their groups. -/
def withBlocks (newComputedBlocks : List (List BlockId)) :
    Outcome (List (SingleTypeKVCacheManager BlockHash × List BlockId)) :=
  if newComputedBlocks.length < state.managers.length then
    .error (.index "tuple index out of range")
  else
    .ok (state.managers.zip newComputedBlocks)

/-- The prediction summed over the groups. -/
def getNumBlocksToAllocate (numTokens : Nat) (newComputedBlocks : List (List BlockId))
    (numEncoderTokens totalComputedTokens numLocalComputedTokens numTokensMainModel : Nat)
    (applyAdmissionCap : Bool := false) : Outcome Int := do
  let groups ← state.withBlocks newComputedBlocks
  groups.foldlM
    (fun total entry => do
      let needed ←
        groupNumBlocksToAllocate { pool := state.pool, manager := entry.1 } requestId
          numTokens entry.2 numEncoderTokens totalComputedTokens numLocalComputedTokens
          numTokensMainModel applyAdmissionCap
      .ok (total + needed))
    0

/-- What the capacity check of a call predicts. -/
def predicted : Outcome Int :=
  state.getNumBlocksToAllocate call.request.requestId
    (call.numTokensNeedSlot state.maxModelLen) (state.newComputedBlockList call)
    call.numEncoderTokens call.numComputedTokens call.numLocalComputedTokens
    (call.numTokensMainModel state.maxModelLen)

/-- Adopt cached blocks in every group, then take blocks for external tokens. -/
def allocateNewComputedBlocks (newComputedBlocks : List (List BlockId))
    (numLocalComputedTokens numExternalComputedTokens : Nat) : Outcome (KVCacheManager BlockHash) :=
  if state.managers.any fun manager => manager.numCachedBlock.contains requestId then do
    ensure (∀ blocks ∈ newComputedBlocks, blocks.length = 0)
    .ok state
  else do
    let groups ← state.withBlocks newComputedBlocks
    let (pool, managers) ←
      forEachManager
        (fun cache blocks =>
          cache.addLocalComputedBlocks requestId blocks numLocalComputedTokens
            numExternalComputedTokens)
        state.pool groups
    let adopted := { state with pool, managers }
    if 0 < numExternalComputedTokens then
      adopted.onManagers fun cache =>
        cache.allocateExternalComputedBlocks requestId numLocalComputedTokens
          numExternalComputedTokens
    else
      .ok adopted

/-- Take new blocks in every group. -/
def allocateNewBlocks (numTokens numTokensMainModel numEncoderTokens : Nat) :
    Outcome (KVCacheManager BlockHash) :=
  state.onManagers fun cache => do
    let (_, allocated) ←
      cache.allocateNewBlocks requestId
        (if cache.manager.isCrossAttention then numEncoderTokens else numTokens)
        numTokensMainModel
    .ok allocated

/-- Adopt the cached blocks of a call, if there are any or tokens are loaded. -/
def adoptComputed : Outcome (KVCacheManager BlockHash) :=
  let blocks := state.newComputedBlockList call
  if blocks.any (fun group => 0 < group.length) || 0 < call.numExternalComputedTokens then
    state.allocateNewComputedBlocks call.request.requestId blocks
      call.numLocalComputedTokens call.numExternalComputedTokens
  else
    .ok state

/-- The part of a call that takes blocks from the pool. -/
def takeBlocks : Outcome (KVCacheManager BlockHash) := do
  let adopted ← state.adoptComputed call
  adopted.allocateNewBlocks call.request.requestId
    (call.numTokensNeedSlot state.maxModelLen)
    (call.numTokensMainModel state.maxModelLen) call.numEncoderTokens

def removeSkippedBlocks (processedComputedTokens : Nat) : Outcome (KVCacheManager BlockHash) :=
  state.onManagers fun cache => cache.removeSkippedBlocks requestId processedComputedTokens

/-- The part of a call that frees what the request no longer needs. -/
def freeSkipped : Outcome (KVCacheManager BlockHash) :=
  state.removeSkippedBlocks call.request.requestId
    (call.totalComputedTokens state.maxModelLen - call.request.numInFlightTokens)

/-- Free blocks kept as headroom when a waiting request is admitted to a busy step. -/
def watermark : Nat :=
  if call.hasScheduledReqs &&
      (call.request.status = .waiting || call.request.status = .preempted) then
    state.watermarkBlocks
  else
    0

/-- Whether a sequence that has to fit as a whole does. -/
def fullSequenceFits : Outcome Bool :=
  if call.fullSequenceMustFit then do
    let fullNumTokens := min call.request.numTokens state.maxModelLen
    let needed ←
      state.getNumBlocksToAllocate call.request.requestId fullNumTokens
        (state.newComputedBlockList call) call.numEncoderTokens
        (call.totalComputedTokens state.maxModelLen) call.numLocalComputedTokens
        fullNumTokens true
    .ok (needed + state.watermark call ≤ state.pool.getNumFreeBlocks)
  else
    .ok true

/-- The capacity check. -/
def hasRoom (numBlocksToAllocate : Int) : Bool :=
  numBlocksToAllocate + state.watermark call ≤ state.pool.getNumFreeBlocks - call.reservedBlocks

/-- Cache the blocks of a request in every group. -/
def coordinatorCacheBlocks (request : KVRequest BlockHash) (numComputedTokens : Nat) :
    Outcome (KVCacheManager BlockHash) :=
  state.onManagers fun cache =>
    cache.cacheBlocks request numComputedTokens state.retentionInterval

/-- Cache the committed tokens of a call, unless caching is off or delayed. -/
def cacheCommitted : Outcome (KVCacheManager BlockHash) :=
  if !state.enableCaching || call.delayCacheBlocks then
    .ok state
  else
    state.coordinatorCacheBlocks call.request
      (min (call.numTokensMainModel state.maxModelLen) call.request.numTokens)

/-- Check for room and take the blocks of a call; `false` if there is no room. -/
def checkAndTake : Outcome (Bool × KVCacheManager BlockHash) := do
  let numBlocksToAllocate ← state.predicted call
  if state.hasRoom call numBlocksToAllocate then do
    let taken ← state.takeBlocks call
    let cached ← taken.cacheCommitted call
    .ok (true, cached)
  else
    .ok (false, state)

/-- Give a request slots for its next tokens; `false` if there is no room. -/
def allocateSlots : Outcome (Bool × KVCacheManager BlockHash) :=
  if call.numNewTokens = 0 ∧ call.numExternalComputedTokens = 0 then
    .error (.value
      ("num_new_tokens must be greater than 0 when there are no " ++ "external computed tokens"))
  else do
    let fits ← state.fullSequenceFits call
    if fits then do
      let freed ← state.freeSkipped call
      freed.checkAndTake call
    else
      .ok (false, state)

/-! ## The other operations -/

/-- Cache the blocks of a request, if caching is on. -/
def cacheBlocks (request : KVRequest BlockHash) (numComputedTokens : Nat) :
    Outcome (KVCacheManager BlockHash) :=
  if state.enableCaching then
    state.coordinatorCacheBlocks request numComputedTokens
  else
    .ok state

/-- Release the pinned blocks of a request. -/
def unpin : Outcome (KVCacheManager BlockHash) := do
  let pins := state.partialTailPins.getD requestId []
  let pool ← state.pool.freeBlocks pins
  .ok { state with pool, partialTailPins := state.partialTailPins.erase requestId }

/-- Free the blocks of a request. -/
def free : Outcome (KVCacheManager BlockHash) := do
  let unpinned ← state.unpin requestId
  unpinned.onManagers fun cache => cache.free requestId

/-- Forget a request; the caller frees its blocks later. -/
def popBlocksForFree : List BlockId × KVCacheManager BlockHash :=
  let popped := state.managers.map fun manager => manager.popBlocksForFree requestId
  (state.partialTailPins.getD requestId [] ++ popped.flatMap Prod.fst, { state with
      managers := popped.map Prod.snd
      partialTailPins := state.partialTailPins.erase requestId })

/-- Hand the pending copies to the worker; the caller keeps their ends referenced. -/
def takeKvCacheBlockCopies : List BlockId × KVCacheManager BlockHash :=
  let pending := state.managers.flatMap fun manager => manager.pendingCowCopies
  (pending.flatMap fun copy => [copy.1, copy.2], { state with
      managers := state.managers.map fun manager =>
        { manager with pendingCowCopies := [] } })

/-- Pin one handed-off block until the blocks of its request are freed. -/
def pinOffload (offload : RequestId × Nat × BlockId × Nat) :
    Outcome (KVCacheManager BlockHash) := do
  let pool ← state.pool.touch [offload.2.2.1]
  let pins := state.partialTailPins.getD offload.1 []
  .ok
    { state with
      pool
      partialTailPins := state.partialTailPins.set offload.1 (pins ++ [offload.2.2.1]) }

/-- Hand the boundary states of producers to the connector, pinned. -/
def takePartialTailOffloads : Outcome (KVCacheManager BlockHash) :=
  let offloads := state.managers.flatMap fun manager => manager.pendingPartialTailOffloads
  let drained :=
    { state with
      managers := state.managers.map fun manager =>
        { manager with pendingPartialTailOffloads := [] } }
  offloads.foldlM pinOffload drained

def newStepStarts : KVCacheManager BlockHash :=
  { state with managers := state.managers.map fun manager => manager.newStepStarts }

/-- Ask every group for the blocks shared by all requests. -/
def getNumCommonPrefixBlocks (runningRequestId : RequestId) : List Nat × KVCacheManager BlockHash :=
  let answers := state.managers.map fun manager =>
    GroupCache.getNumCommonPrefixBlocks { pool := state.pool, manager } runningRequestId
  (answers.map Prod.fst, { state with managers := answers.map fun answer => answer.2.manager })

end KVCacheManager

end VllmCore
