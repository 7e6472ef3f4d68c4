import VllmCore.HybridCoordinator

namespace VllmCore

open Lib

/-!
# The cache manager of one group

A manager keeps, for each request, the table of blocks that hold its tokens.  It
predicts how many free blocks the next step of a request needs, adopts cached
blocks, takes new ones and gives blocks back once no later token reads them.

The managers of all groups share one block pool; `GroupCache` is a manager with
that pool.  Full, sliding-window, chunked-local and cross attention differ in a few
branches on the kind of the group; Mamba in `align` mode has its own allocator.
-/

/-- Identifies a request. -/
abbrev RequestId := Nat

/-- The life cycle of a request. -/
inductive RequestStatus where
  | waiting
  | waitingForStructuredOutputGrammar
  | waitingForRemoteKvs
  | waitingForStreamingReq
  | running
  | preempted
  | finishedStopped
  | finishedLengthCapped
  | finishedAborted
  | finishedIgnored
  | finishedError
  | finishedRepetition
  deriving Repr, DecidableEq

/-- The part of a request the cache managers read. -/
structure KVRequest (BlockHash : Type) extends HashedRequest BlockHash where
  requestId : RequestId
  status : RequestStatus := .waiting
  numPromptTokens : Nat
  numComputedTokens : Nat := 0
  numInFlightTokens : Nat := 0
  sharedPrefixBoundary : Nat := 0

/-- What a manager is constructed with. -/
structure ManagerConfig where
  kvCacheSpec : KVCacheSpec
  blockSize : Nat
  blockSize_pos : 0 < blockSize
  blockSize_mamba : kvCacheSpec.kind.isMamba = true → blockSize = kvCacheSpec.blockSize
  window_pos : ∀ window, kvCacheSpec.kind = .slidingWindow window → 0 < window
  enableCaching : Bool
  kvCacheGroupId : Nat
  schedulerBlockSize : Nat
  useEagle : Bool
  recordNewBlockIds : Bool
  maxAdmissionBlocksPerRequest : Option Nat

namespace ManagerConfig

variable (config : ManagerConfig)

def kind : SpecKind :=
  config.kvCacheSpec.kind

def numSpeculativeBlocks (config : ManagerConfig) : Nat :=
  match config.kind with
  | .mamba _ numSpeculativeBlocks => numSpeculativeBlocks
  | _ => 0

/-- Mamba states kept at block boundaries only. -/
def isAlign : Bool :=
  match config.kind with
  | .mamba .align _ => true
  | _ => false

def isCrossAttention : Bool :=
  config.kind = .crossAttention

/-- How many leading blocks no later token reads; `-1` before the first Mamba state. -/
def numSkippedBlocks (numComputedTokens : Nat) : Int :=
  config.kind.getNumSkippedTokens numComputedTokens / config.blockSize

/-- The hit ends inside a block, so its last block has to be copied. -/
def hasPartialLocalHit (newComputedBlocks : List BlockId) (numLocalComputedTokens : Nat) : Bool :=
  0 < newComputedBlocks.length && numLocalComputedTokens % config.blockSize ≠ 0

end ManagerConfig

/--
The manager of one group.

`requestedCounts` records every count given to `get_new_blocks`; no function reads it.
-/
structure SingleTypeKVCacheManager (BlockHash : Type) extends ManagerConfig where
  reqToBlocks : Dict RequestId (List BlockId) := .empty
  numCachedBlock : Dict RequestId Nat := .empty
  partialHitReqs : Dict RequestId (Nat × BlockId) := .empty
  pendingCowCopies : List (BlockId × BlockId) := []
  pendingPartialTailOffloads : List (RequestId × Nat × BlockId × Nat) := []
  newBlockIds : List BlockId := []
  cachedBlocksThisStep : List (BlockHashWithGroupId BlockHash) := []
  lastStateBlockIdx : Dict RequestId Nat := .empty
  allocatedBlockReqs : List RequestId := []
  producerPartialTailReqs : Dict RequestId Nat := .empty
  requestedCounts : List Int := []

/-- A manager with the pool it shares with the managers of the other groups. -/
structure GroupCache (BlockHash : Type) where
  pool : BlockPool BlockHash
  manager : SingleTypeKVCacheManager BlockHash

namespace SingleTypeKVCacheManager

variable {BlockHash : Type}

variable (manager : SingleTypeKVCacheManager BlockHash)

variable (requestId : RequestId)

/-- The blocks of a request, in token order. -/
def table : List BlockId :=
  manager.reqToBlocks.getD requestId []

def setTable (blocks : List BlockId) : SingleTypeKVCacheManager BlockHash :=
  { manager with reqToBlocks := manager.reqToBlocks.set requestId blocks }

/-- Note new blocks for the worker to clear, if it clears this kind. -/
def recordNewBlocks (blocks : List BlockId) : SingleTypeKVCacheManager BlockHash :=
  if manager.recordNewBlockIds then
    { manager with newBlockIds := manager.newBlockIds ++ blocks }
  else
    manager

/-- Note the block of a copy, whichever blocks the worker clears. -/
def noteNewBlock (block : BlockId) : SingleTypeKVCacheManager BlockHash :=
  { manager with newBlockIds := manager.newBlockIds ++ [block] }

/-- Append new blocks to the table of a request. -/
def extendTable (blocks : List BlockId) : SingleTypeKVCacheManager BlockHash :=
  (manager.setTable requestId (manager.table requestId ++ blocks)).recordNewBlocks blocks

/-- Forget the hit of a request that ended inside a block. -/
def popPartialHit : SingleTypeKVCacheManager BlockHash :=
  { manager with partialHitReqs := manager.partialHitReqs.erase requestId }

/-- Note a pending copy. -/
def addCowCopy (sourceBlock cowBlock : BlockId) : SingleTypeKVCacheManager BlockHash :=
  { manager with
    pendingCowCopies := manager.pendingCowCopies ++ [(sourceBlock, cowBlock)] }

/-- Note that a request has a block for its running state. -/
def addAllocated : SingleTypeKVCacheManager BlockHash :=
  { manager with allocatedBlockReqs := manager.allocatedBlockReqs.insert requestId }

/-- Note one more count given to `get_new_blocks`. -/
def noteRequest (count : Int) : SingleTypeKVCacheManager BlockHash :=
  { manager with requestedCounts := manager.requestedCounts ++ [count] }

/-- Start the table of a request with blocks that are all cached already. -/
def adoptBlocks (reqBlocks : List BlockId) : SingleTypeKVCacheManager BlockHash :=
  { manager.setTable requestId reqBlocks with
    numCachedBlock := manager.numCachedBlock.set requestId reqBlocks.length }

end SingleTypeKVCacheManager

/-! ## Predicting the need for blocks -/

/-- Cached blocks that a hit takes out of the free queue. -/
def getNumEvictableBlocks {BlockHash : Type} (pool : BlockPool BlockHash) (blocks : List BlockId) :
    Nat :=
  blocks.countP fun block =>
    (pool.blocks block).refCnt = 0 ∧ (pool.blocks block).isNull = false

namespace GroupCache

variable {BlockHash : Type}

/-- The required blocks, capped for admission by what a request ever holds at once. -/
def numRequiredBlocks (config : ManagerConfig) (numTokens : Nat) (applyAdmissionCap : Bool) : Nat :=
  match applyAdmissionCap, config.maxAdmissionBlocksPerRequest with
  | true, some cap => min (cdiv numTokens config.blockSize) cap
  | _, _ => cdiv numTokens config.blockSize

variable (cache : GroupCache BlockHash) (manager : SingleTypeKVCacheManager BlockHash)

variable (requestId : RequestId)

/-- The prediction for a request the manager tracks, or one that it does not yet. -/
def baseNumBlocksToAllocate (numTokens : Nat) (newComputedBlocks : List BlockId)
    (totalComputedTokens numLocalComputedTokens : Nat) (applyAdmissionCap : Bool) : Outcome Int :=
  let manager := cache.manager
  let required : Int := numRequiredBlocks manager.toManagerConfig numTokens applyAdmissionCap
  let numReqBlocks : Int := (manager.table requestId).length
  if manager.numCachedBlock.contains requestId then do
    ensure (newComputedBlocks.length = 0)
    .ok (max (required - numReqBlocks) 0)
  else
    let skipped := manager.numSkippedBlocks totalComputedTokens
    let numLocalComputedBlocks : Int := newComputedBlocks.length + numReqBlocks
    let numNewBlocks := max (required - max skipped numLocalComputedBlocks) 0
    let skippedNew := max 0 (skipped - numReqBlocks)
    let evictable :=
      getNumEvictableBlocks cache.pool (newComputedBlocks.drop skippedNew.toNat)
    let copied : Int :=
      if manager.hasPartialLocalHit newComputedBlocks numLocalComputedTokens then 1 else 0
    .ok (numNewBlocks + copied + evictable)

/-- The prediction for aligned Mamba states. -/
def alignNumBlocksToAllocate (newComputedBlocks : List BlockId)
    (numLocalComputedTokens numTokensMainModel : Nat) : Int :=
  let manager := cache.manager
  let required : Int :=
    cdiv numTokensMainModel manager.blockSize + manager.numSpeculativeBlocks
  let missing : Int :=
    required - newComputedBlocks.length - (manager.table requestId).length
  let hasPartialHit :=
    manager.hasPartialLocalHit newComputedBlocks numLocalComputedTokens ||
      manager.partialHitReqs.contains requestId
  let copied : Int := if hasPartialHit then 1 else 0
  let numNewBlocks := if hasPartialHit then max missing 0 + 1 else missing
  let needed : Int :=
    if 0 < numNewBlocks then
      if requestId ∈ manager.allocatedBlockReqs then
        1 + copied
      else
        1 + manager.numSpeculativeBlocks + copied
    else
      numNewBlocks
  needed + getNumEvictableBlocks cache.pool newComputedBlocks

variable [DecidableEq BlockHash]

/-- The last hit was only cached in this step, so its state is not there yet. -/
def hitsThisStep (newComputedBlocks : List BlockId) : Bool :=
  match newComputedBlocks.getLast? with
  | none => false
  | some last =>
    match (cache.pool.blocks last).blockHash with
    | none => false
    | some key => key ∈ cache.manager.cachedBlocksThisStep

/-- How many free blocks the next tokens of a request need. -/
def getNumBlocksToAllocate (numTokens : Nat) (newComputedBlocks : List BlockId)
    (totalComputedTokens numLocalComputedTokens numTokensMainModel : Nat)
    (applyAdmissionCap : Bool := false) : Outcome Int :=
  match cache.manager.kind with
  | .mamba mode numSpeculativeBlocks =>
    if cache.hitsThisStep newComputedBlocks then
      -- More than the pool has, so that the request waits for the next step.
      .ok (cache.pool.config.numGpuBlocks + 1)
    else if mode = .align then
      .ok (cache.alignNumBlocksToAllocate requestId newComputedBlocks
        numLocalComputedTokens numTokensMainModel)
    else
      cache.baseNumBlocksToAllocate requestId
        (numTokens + cache.manager.kvCacheSpec.blockSize * numSpeculativeBlocks)
        newComputedBlocks totalComputedTokens numLocalComputedTokens applyAdmissionCap
  | _ =>
    cache.baseNumBlocksToAllocate requestId numTokens newComputedBlocks
      totalComputedTokens numLocalComputedTokens applyAdmissionCap

/-! ## Adopting cached blocks -/

/-- Take a reference to adopted blocks; there are none without caching. -/
def touchComputed (blocks : List BlockId) : Outcome (BlockPool BlockHash) :=
  if cache.manager.enableCaching then
    cache.pool.touch blocks
  else do
    ensure (blocks = [])
      "Computed blocks should be empty when prefix caching is disabled"
    .ok cache.pool

/-- Remember a hit that ends inside a block until its last block is copied. -/
def recordPartialHit (newComputedBlocks : List BlockId) (numLocalComputedTokens : Nat) :
    SingleTypeKVCacheManager BlockHash :=
  match newComputedBlocks.getLast? with
  | none => manager
  | some last =>
    if numLocalComputedTokens % manager.blockSize ≠ 0 then
      let blockIdx := numLocalComputedTokens / manager.blockSize
      { manager with
        partialHitReqs := manager.partialHitReqs.set requestId (blockIdx, last)
        numCachedBlock := manager.numCachedBlock.set requestId blockIdx }
    else
      manager

/-- Adopt the cached blocks of a request that has none yet. -/
def addLocalComputedBlocks (newComputedBlocks : List BlockId)
    (numLocalComputedTokens numExternalComputedTokens : Nat) : Outcome (GroupCache BlockHash) :=
  if cache.manager.isCrossAttention then do
    ensure (newComputedBlocks.length = 0)
    .ok cache
  else do
    ensure ((cache.manager.table requestId).length = 0)
    let skipped :=
      cache.manager.numSkippedBlocks (numLocalComputedTokens + numExternalComputedTokens)
    let kept := newComputedBlocks.drop skipped.toNat
    let pool ← cache.touchComputed kept
    let reqBlocks := List.replicate skipped.toNat pool.nullBlock ++ kept
    .ok
      { pool
        manager :=
          recordPartialHit (cache.manager.adoptBlocks requestId reqBlocks) requestId kept
            numLocalComputedTokens }

/-- Take new blocks from the pool. -/
def getNewBlocks (numBlocks : Int) : Outcome (List BlockId × GroupCache BlockHash) := do
  let (blocks, pool) ← cache.pool.getNewBlocks numBlocks
  .ok (blocks, { pool, manager := cache.manager.noteRequest numBlocks })

/-- Externally computed tokens that some later token reads. -/
def numNeededExternalTokens
    (config : ManagerConfig) (numLocalComputedTokens numExternalComputedTokens : Nat) : Int :=
  let total := numLocalComputedTokens + numExternalComputedTokens
  let skipped := config.kind.getNumSkippedTokens total
  if 0 < skipped then
    min (total - skipped) numExternalComputedTokens
  else
    numExternalComputedTokens

/-- Take the blocks that externally computed tokens are loaded into. -/
def allocateExternalComputedBlocks (numLocalComputedTokens numExternalComputedTokens : Nat) :
    Outcome (GroupCache BlockHash) :=
  if cache.manager.isCrossAttention then
    .ok cache
  else if numNeededExternalTokens cache.manager.toManagerConfig numLocalComputedTokens
      numExternalComputedTokens ≤ 0 then
    .ok cache
  else do
    let total := numLocalComputedTokens + numExternalComputedTokens
    let (blocks, taken) ←
      cache.getNewBlocks
        ((cdiv total cache.manager.blockSize : Int) - (cache.manager.table requestId).length)
    .ok { taken with manager := taken.manager.extendTable requestId blocks }

/-! ## Taking new blocks -/

/-- One more reference to a block. -/
def addReference (pool : BlockPool BlockHash) (block : BlockId) : BlockPool BlockHash :=
  pool.setBlock block
    { pool.blocks block with refCnt := (pool.blocks block).refCnt + 1 }

/--
Put a private block in the place of a shared one.

Both ends of the copy stay referenced until it has run: the shared block by the
reference of the hit, the private one by a second reference.
-/
def applyCow (blockIdx : Nat) (sourceBlock cowBlock : BlockId) :
    Outcome (GroupCache BlockHash) := do
  let reqBlocks := cache.manager.table requestId
  ensure (blockIdx < reqBlocks.length)
  ensure (reqBlocks[blockIdx]? = some sourceBlock)
  ensure ((cache.pool.blocks sourceBlock).isNull = false ∧
    0 < (cache.pool.blocks sourceBlock).refCnt)
  let replaced := cache.manager.setTable requestId (reqBlocks.set blockIdx cowBlock)
  .ok
    { pool := addReference cache.pool cowBlock
      manager := replaced.addCowCopy sourceBlock cowBlock }

/-- Copy the last block of a hit that ended inside it, if there was one. -/
def copyPartialHit : Outcome (List BlockId × GroupCache BlockHash) :=
  match cache.manager.partialHitReqs.get? requestId with
  | none => .ok ([], cache)
  | some (blockIdx, sourceBlock) => do
      let popped := { cache with manager := cache.manager.popPartialHit requestId }
      let (blocks, taken) ← popped.getNewBlocks 1
      let cowBlock ← indexed blocks 0
      let copied ← taken.applyCow requestId blockIdx sourceBlock cowBlock
      .ok ([cowBlock], { copied with manager := copied.manager.noteNewBlock cowBlock })

/-- Give a request slots for `numTokens` tokens; returns the new blocks. -/
def baseAllocateNewBlocks (numTokens : Nat) : Outcome (List BlockId × GroupCache BlockHash) := do
  let (cowBlocks, copied) ← cache.copyPartialHit requestId
  let reqBlocks := copied.manager.table requestId
  let numNewBlocks : Int :=
    (cdiv numTokens copied.manager.blockSize : Int) - reqBlocks.length
  if numNewBlocks ≤ 0 then
    .ok
      (cowBlocks, { copied with manager := copied.manager.setTable requestId reqBlocks })
  else do
    let (blocks, taken) ← copied.getNewBlocks numNewBlocks
    .ok
      (cowBlocks ++ blocks, { taken with manager := taken.manager.extendTable requestId blocks })

/-- Move the blocks at the listed places behind the end, up to the skipped ones. -/
def reuseSpeculativeBlocks (nullBlock : BlockId) (numSkippedBlocks : Nat) :
    List Nat → List BlockId → List BlockId
  | [], reqBlocks => reqBlocks
  | blockIdx :: rest, reqBlocks =>
    if blockIdx < numSkippedBlocks then
      reuseSpeculativeBlocks nullBlock numSkippedBlocks rest
        ((reqBlocks ++ [reqBlocks.getD blockIdx nullBlock]).set blockIdx nullBlock)
    else
      reqBlocks

/-- The table before new blocks are taken: skipped places null, drafts reused. -/
def alignedTable (nullBlock : BlockId) (requestId : RequestId) (numSkippedBlocks : Nat) :
    List BlockId :=
  let reqBlocks := manager.table requestId
  let prevBlockLen := reqBlocks.length
  let padded := reqBlocks ++ List.replicate (numSkippedBlocks - prevBlockLen) nullBlock
  if requestId ∈ manager.allocatedBlockReqs then
    reuseSpeculativeBlocks nullBlock numSkippedBlocks
      (List.range' (prevBlockLen - manager.numSpeculativeBlocks) manager.numSpeculativeBlocks)
      padded
  else
    padded

/-- Remember where the running state of a request was last saved. -/
def recordLastState : SingleTypeKVCacheManager BlockHash :=
  let prevBlockLen := (manager.table requestId).length
  if requestId ∈ manager.allocatedBlockReqs then
    { manager with
      lastStateBlockIdx :=
        manager.lastStateBlockIdx.set requestId
          (prevBlockLen - 1 - manager.numSpeculativeBlocks) }
  else if 0 < prevBlockLen then
    { manager with
      lastStateBlockIdx := manager.lastStateBlockIdx.set requestId (prevBlockLen - 1) }
  else
    manager

/-- Hand the copy of a producer's own boundary state to the connector. -/
def handOffPartialTail (cowBlock : BlockId) : SingleTypeKVCacheManager BlockHash :=
  match manager.producerPartialTailReqs.get? requestId with
  | none => manager
  | some boundaryTokens =>
    { manager with
      producerPartialTailReqs := manager.producerPartialTailReqs.erase requestId
      pendingPartialTailOffloads :=
        manager.pendingPartialTailOffloads ++
          [(requestId, manager.kvCacheGroupId, cowBlock, boundaryTokens)] }

/--
Preserve the boundary state of a running request.

The worker's table of a running request only grows, so the request keeps the source
block and the cache entry moves to the copy.
-/
def moveToCow (blockIdx : Nat) (sourceBlock cowBlock : BlockId) :
    Outcome (GroupCache BlockHash) := do
  let current ← indexed (cache.manager.table requestId) blockIdx
  ensure (current = sourceBlock)
  let moved ← cache.pool.moveBlockHashes sourceBlock cowBlock
  let copied := cache.manager.addCowCopy sourceBlock cowBlock
  let handed := handOffPartialTail copied requestId cowBlock
  .ok
    { pool := addReference moved sourceBlock
      manager :=
        { handed with
          cachedBlocksThisStep :=
            handed.cachedBlocksThisStep ++ (moved.blocks cowBlock).blockHash.toList } }

/-- Use the first new block for a pending copy, if there is one. -/
def alignCow (newBlocks : List BlockId) :
    Outcome (List BlockId × List BlockId × GroupCache BlockHash) :=
  match cache.manager.partialHitReqs.get? requestId with
  | none => .ok ([], newBlocks, cache)
  | some (blockIdx, sourceBlock) => do
      let cowBlock ← indexed newBlocks 0
      if requestId ∈ cache.manager.allocatedBlockReqs then do
        let moved ← cache.moveToCow requestId blockIdx sourceBlock cowBlock
        .ok ([], newBlocks.drop 1, moved)
      else do
        let copied ← cache.applyCow requestId blockIdx sourceBlock cowBlock
        .ok ([cowBlock], newBlocks.drop 1, copied)

/-- Take new blocks behind an aligned table, the first one for a pending copy. -/
def takeAligned (prevBlockLen : Nat) (numNewBlocks : Int) :
    Outcome (List BlockId × GroupCache BlockHash) := do
  let aligned := cache.manager.table requestId
  let (newBlocks, taken) ← cache.getNewBlocks numNewBlocks
  let (cowBlocks, rest, settled) ← taken.alignCow requestId newBlocks
  let extended :=
    settled.manager.setTable requestId (settled.manager.table requestId ++ rest)
  .ok
    (cowBlocks ++ aligned.drop prevBlockLen ++ rest, { settled with
        manager := (extended.addAllocated requestId).popPartialHit requestId })

/-- Give a request the block of its next aligned Mamba state. -/
def alignAllocateNewBlocks (numTokensMainModel : Nat) :
    Outcome (List BlockId × GroupCache BlockHash) :=
  let manager := cache.manager
  let spec := manager.numSpeculativeBlocks
  let prevBlockLen := (manager.table requestId).length
  let required := cdiv numTokensMainModel manager.blockSize + spec
  let hasPartialHit := manager.partialHitReqs.contains requestId
  if required ≤ prevBlockLen && !hasPartialHit then
    .ok ([], { cache with manager := manager.setTable requestId (manager.table requestId) })
  else do
    let numSkippedBlocks := required - spec - 1
    let aligned := alignedTable manager cache.pool.nullBlock requestId numSkippedBlocks
    let copied : Int := if hasPartialHit then 1 else 0
    let missing : Int := (required : Int) - aligned.length
    let numNewBlocks := if hasPartialHit then max missing 0 + 1 else missing
    ensure (numNewBlocks ≤
      if requestId ∈ manager.allocatedBlockReqs then 1 + copied else spec + 1 + copied)
    let prepared :=
      { cache with
        manager := (recordLastState manager requestId).setTable requestId aligned }
    prepared.takeAligned requestId prevBlockLen numNewBlocks

/-- Give a request slots for its next tokens; returns the new blocks. -/
def allocateNewBlocks (numTokens numTokensMainModel : Nat) :
    Outcome (List BlockId × GroupCache BlockHash) :=
  match cache.manager.kind with
  | .mamba mode numSpeculativeBlocks =>
    if mode = .align then
      cache.alignAllocateNewBlocks requestId numTokensMainModel
    else
      cache.baseAllocateNewBlocks requestId
        (numTokens + cache.manager.blockSize * numSpeculativeBlocks)
  | _ => cache.baseAllocateNewBlocks requestId numTokens

end GroupCache

/-! ## Caching full blocks -/

namespace ManagerConfig

/-- The distance of the tails kept for every prefix, unless only boundaries are kept. -/
def segmentTokens (alignmentTokens : Nat) : Option Nat → Option Nat
  | none => some alignmentTokens
  | some 0 => none
  | some interval => some interval

variable (config : ManagerConfig)

/-- The blocks of a sliding window that can serve a hit. -/
def slidingWindowMask (slidingWindow startBlock endBlock : Nat) (retentionInterval : Option Nat)
    (reachableBoundaries : List Int) : Option (List Bool) :=
  let alignmentTokens := config.schedulerBlockSize
  let blockSize := config.kvCacheSpec.blockSize
  let need :=
    SlidingWindowManager.contiguousBlocksForHit slidingWindow blockSize config.useEagle
  let shift := if config.useEagle then 1 else 0
  let perSegment := (segmentTokens alignmentTokens retentionInterval).map (· / blockSize)
  let onSegment (perSegment i : Nat) : Bool :=
    shift ≤ i && perSegment ≤ (i - shift) % perSegment + need
  let onBoundary (i : Nat) (boundaryTokens : Int) : Bool :=
    let aligned := boundaryTokens / alignmentTokens * alignmentTokens
    let tailEnd := aligned / blockSize + shift
    tailEnd - need ≤ i && i < tailEnd
  if perSegment.any (· ≤ need) then
    none
  else
    some ((List.range' startBlock (endBlock - startBlock)).map fun i =>
      perSegment.any (onSegment · i) ||
        (retentionInterval.isSome && reachableBoundaries.any (onBoundary i)))

/-- The Mamba states that are kept as snapshots. -/
def mambaMask (startBlock endBlock : Nat) (retentionInterval : Option Nat)
    (reachableBoundaries : List Int) : Option (List Bool) :=
  match retentionInterval with
  | none => none
  | some interval =>
    let alignmentTokens := config.schedulerBlockSize
    let blockSize := config.kvCacheSpec.blockSize
    let perSegment := if interval = 0 then none else some (interval / blockSize)
    let onSegment (perSegment i : Nat) : Bool :=
      let firstBoundary := (startBlock + perSegment) / perSegment * perSegment - 1
      firstBoundary ≤ i && (i - firstBoundary) % perSegment = 0
    let onBoundary (i : Nat) (boundaryTokens : Int) : Bool :=
      let aligned := boundaryTokens / alignmentTokens * alignmentTokens
      aligned / blockSize - 1 = i
    if perSegment.any (· ≤ 1) then
      none
    else
      some ((List.range' startBlock (endBlock - startBlock)).map fun i =>
        perSegment.any (onSegment · i) || reachableBoundaries.any (onBoundary i))

/-- Which of the new full blocks are worth caching; `none` means all. -/
def reachableBlockMask (startBlock endBlock : Nat) (retentionInterval : Option Nat)
    (reachableBoundaries : List Int) : Outcome (Option (List Bool)) :=
  match config.kind with
  | .slidingWindow slidingWindow => do
      ensure (config.schedulerBlockSize % config.kvCacheSpec.blockSize = 0)
      .ok (config.slidingWindowMask slidingWindow startBlock endBlock retentionInterval
        reachableBoundaries)
  | .mamba _ _ => .ok (config.mambaMask startBlock endBlock retentionInterval reachableBoundaries)
  | _ => .ok none

end ManagerConfig

namespace GroupCache

variable {BlockHash : Type} [DecidableEq BlockHash]

variable (cache : GroupCache BlockHash)

variable (request : KVRequest BlockHash) (requestId : RequestId)

/-- Cache the full blocks of a request up to `numTokens`. -/
def baseCacheBlocks (numTokens : Nat) (retentionInterval : Option Nat) :
    Outcome (GroupCache BlockHash) :=
  let manager := cache.manager
  let numCachedBlocks := manager.numCachedBlock.getD request.requestId 0
  let numFullBlocks := numTokens / manager.blockSize
  if numFullBlocks ≤ numCachedBlocks then
    .ok cache
  else do
    let replayBoundary : Int := (request.numPromptTokens : Int) - 1
    let reachableBoundaries : List Int :=
      if request.sharedPrefixBoundary = 0 then
        [replayBoundary]
      else
        [replayBoundary, request.sharedPrefixBoundary]
    let blockMask ←
      manager.reachableBlockMask numCachedBlocks numFullBlocks retentionInterval
        reachableBoundaries
    let pool ←
      cache.pool.cacheFullBlocks request.toHashedRequest
        (manager.table request.requestId) numCachedBlocks numFullBlocks manager.blockSize
        manager.kvCacheGroupId blockMask
    let listed := manager.setTable request.requestId (manager.table request.requestId)
    .ok
      { pool
        manager :=
          { listed with
            numCachedBlock := listed.numCachedBlock.set request.requestId numFullBlocks } }

/-- The last hash boundary inside the prompt. -/
def lastPromptBoundary : Nat :=
  let hashBlockSize := cache.pool.config.hasher.hashBlockSize
  request.numPromptTokens / hashBlockSize * hashBlockSize

/-- Register the prompt tail of full attention when it ends inside a block. -/
def cacheAttentionTail (numTokens : Nat) : Outcome (GroupCache BlockHash) :=
  let boundaryTokens := cache.lastPromptBoundary request
  let blockIdx := boundaryTokens / cache.manager.blockSize
  if boundaryTokens = 0 ∨ numTokens < boundaryTokens then
    .ok cache
  else if boundaryTokens % cache.manager.blockSize = 0 then
    .ok cache
  else
    let blocks := cache.manager.table request.requestId
    let listed := cache.manager.setTable request.requestId blocks
    match blocks[blockIdx]? with
    | none => .ok { cache with manager := listed }
    | some block => do
        let (_, pool) ←
          cache.pool.cachePartialBlock request.toHashedRequest block boundaryTokens
            cache.manager.kvCacheGroupId cache.manager.blockSize
        .ok { pool, manager := listed }

/-- Whether a step ends on the last prompt boundary, inside a Mamba block. -/
def endsOnPartialTail (numTokens : Nat) : Bool :=
  let hashBlockSize := cache.pool.config.hasher.hashBlockSize
  cache.manager.blockSize ≠ hashBlockSize &&
    numTokens % cache.manager.blockSize ≠ 0 &&
    numTokens % hashBlockSize = 0 &&
    numTokens = cache.lastPromptBoundary request

/-- Note a registered Mamba tail: the next step copies it before it is overwritten. -/
def recordMambaTail (manager : SingleTypeKVCacheManager BlockHash) (requestId : RequestId)
    (blockIdx : Nat) (sourceBlock : BlockId) (numTokens : Nat)
    (partialHash : Option (BlockHashWithGroupId BlockHash)) : SingleTypeKVCacheManager BlockHash :=
  match partialHash with
  | none => manager
  | some key =>
    { manager with
      partialHitReqs := manager.partialHitReqs.set requestId (blockIdx, sourceBlock)
      numCachedBlock := manager.numCachedBlock.set requestId blockIdx
      producerPartialTailReqs := manager.producerPartialTailReqs.set requestId numTokens
      cachedBlocksThisStep := manager.cachedBlocksThisStep ++ [key] }

/-- Register the Mamba state at the last prompt boundary, if a step ends there. -/
def cacheMambaTail (numTokens : Nat) : Outcome (GroupCache BlockHash) :=
  let blockIdx := numTokens / cache.manager.blockSize
  if cache.endsOnPartialTail request numTokens then
    match (cache.manager.table request.requestId)[blockIdx]? with
    | none => .ok cache
    | some sourceBlock =>
      if (cache.pool.blocks sourceBlock).isNull then
        .ok cache
      else do
        let (partialHash, pool) ←
          cache.pool.cachePartialBlock request.toHashedRequest sourceBlock numTokens
            cache.manager.kvCacheGroupId cache.manager.blockSize
        .ok
          { pool
            manager :=
              recordMambaTail cache.manager request.requestId blockIdx sourceBlock
                numTokens partialHash }
  else
    .ok cache

/-- Note the states cached in this step. -/
def recordCachedThisStep (numCachedBefore numCachedAfter : Nat) : GroupCache BlockHash :=
  let newBlocks := ((cache.manager.table requestId).take numCachedAfter).drop numCachedBefore
  let keys := newBlocks.filterMap fun block =>
    if (cache.pool.blocks block).isNull then none else (cache.pool.blocks block).blockHash
  { cache with
    manager :=
      { cache.manager with
        cachedBlocksThisStep := cache.manager.cachedBlocksThisStep ++ keys } }

/-- Register the tail in `align` mode only. -/
def cacheTailIfAlign (numTokens : Nat) : Outcome (GroupCache BlockHash) :=
  if cache.manager.isAlign then
    cache.cacheMambaTail request numTokens
  else
    .ok cache

/-- Cache the blocks of a request. -/
def cacheBlocks (numTokens : Nat) (retentionInterval : Option Nat) :
    Outcome (GroupCache BlockHash) :=
  match cache.manager.kind with
  | .crossAttention => .error (.value "Should not be called as prefix caching is disabled.")
  | .fullAttention => do
      let cached ← cache.baseCacheBlocks request numTokens retentionInterval
      if cached.manager.blockSize = cached.pool.config.hasher.hashBlockSize then
        .ok cached
      else
        cached.cacheAttentionTail request numTokens
  | .mamba _ _ => do
      let before := cache.manager.numCachedBlock.getD request.requestId 0
      let cached ← cache.baseCacheBlocks request numTokens retentionInterval
      let after := cached.manager.numCachedBlock.getD request.requestId 0
      let tailed ← cached.cacheTailIfAlign request numTokens
      .ok (tailed.recordCachedThisStep request.requestId before after)
  | _ => cache.baseCacheBlocks request numTokens retentionInterval

/-! ## Giving blocks back -/

/-- Replace blocks by null from `last` down to `first`, stopping at a null one. -/
def nullDown (nullBlock : BlockId) (first : Nat) :
    Nat → List BlockId → List BlockId × List BlockId
  | 0, blocks => ([], blocks)
  | last + 1, blocks =>
    if last < first then
      ([], blocks)
    else
      let block := blocks.getD last nullBlock
      if block = nullBlock then
        ([], blocks)
      else
        let (freed, remaining) := nullDown nullBlock first last (blocks.set last nullBlock)
        (block :: freed, remaining)

/-- Give back the blocks of a range, last one first. -/
def removeBlocksInRange (firstBlock lastBlock : Nat) : Outcome (GroupCache BlockHash) :=
  if !cache.manager.reqToBlocks.contains requestId || lastBlock ≤ firstBlock then
    .ok cache
  else do
    let blocks := cache.manager.table requestId
    let (freed, remaining) :=
      nullDown cache.pool.nullBlock firstBlock (min lastBlock blocks.length) blocks
    let pool ← cache.pool.freeBlocks freed
    .ok { pool, manager := cache.manager.setTable requestId remaining }

section

variable (processedComputedTokens : Nat)

/-- Give back the blocks no later token reads. -/
def baseRemoveSkippedBlocks : Outcome (GroupCache BlockHash) :=
  let skippedTokens := cache.manager.kind.getNumSkippedTokens processedComputedTokens
  if skippedTokens ≤ 0 then
    .ok cache
  else
    let blocks := cache.manager.table requestId
    let listed := { cache with manager := cache.manager.setTable requestId blocks }
    let numSkippedBlocks := (skippedTokens / cache.manager.blockSize).toNat
    listed.removeBlocksInRange requestId 0 (min numSkippedBlocks blocks.length)

/-- Give back the Mamba state saved two steps ago. -/
def removeLastState : Outcome (GroupCache BlockHash) :=
  match cache.manager.lastStateBlockIdx.get? requestId with
  | none => .ok cache
  | some lastStateBlockIdx =>
    if lastStateBlockIdx + 1 < cdiv processedComputedTokens cache.manager.blockSize then do
      let blocks := cache.manager.table requestId
      let block ← indexed blocks lastStateBlockIdx
      if block = cache.pool.nullBlock then
        .ok { cache with manager := cache.manager.setTable requestId blocks }
      else do
        let pool ← cache.pool.freeBlocks [block]
        .ok
          { pool
            manager :=
              cache.manager.setTable requestId
                (blocks.set lastStateBlockIdx pool.nullBlock) }
    else
      .ok cache

/-- Give back the blocks a request no longer needs. -/
def removeSkippedBlocks : Outcome (GroupCache BlockHash) := do
  let removed ← cache.baseRemoveSkippedBlocks requestId processedComputedTokens
  if removed.manager.isAlign then
    removed.removeLastState requestId processedComputedTokens
  else
    .ok removed

end

end GroupCache

namespace SingleTypeKVCacheManager

variable {BlockHash : Type}

variable (manager : SingleTypeKVCacheManager BlockHash)

/-- Forget the state `align` mode keeps for a request. -/
def dropAlignState (requestId : RequestId) : SingleTypeKVCacheManager BlockHash :=
  if manager.isAlign then
    { manager with
      allocatedBlockReqs := manager.allocatedBlockReqs.filter (· ≠ requestId)
      lastStateBlockIdx := manager.lastStateBlockIdx.erase requestId
      producerPartialTailReqs := manager.producerPartialTailReqs.erase requestId
      pendingPartialTailOffloads :=
        manager.pendingPartialTailOffloads.filter fun entry => entry.1 ≠ requestId }
  else
    manager

/-- Forget a request; its blocks go to the caller, who frees them later. -/
def popBlocksForFree (requestId : RequestId) : List BlockId × SingleTypeKVCacheManager BlockHash :=
  let dropped := manager.dropAlignState requestId
  (manager.table requestId, { dropped with
      reqToBlocks := dropped.reqToBlocks.erase requestId
      numCachedBlock := dropped.numCachedBlock.erase requestId
      partialHitReqs := dropped.partialHitReqs.erase requestId })

/-- Forget what was cached in the previous step. -/
def newStepStarts : SingleTypeKVCacheManager BlockHash :=
  match manager.kind with
  | .mamba _ _ => { manager with cachedBlocksThisStep := [] }
  | _ => manager

end SingleTypeKVCacheManager

namespace GroupCache

variable {BlockHash : Type}

/-- How many leading blocks of a request every listed request holds, by their counts. -/
def getNumCommonPrefixBlocks (cache : GroupCache BlockHash) (runningRequestId : RequestId) :
    Nat × GroupCache BlockHash :=
  match cache.manager.kind with
  | .fullAttention =>
    let blocks := cache.manager.table runningRequestId
    -- Reading the table of an unknown request lists it.
    let listed := cache.manager.setTable runningRequestId blocks
    let shared := blocks.takeWhile fun block =>
      (cache.pool.blocks block).refCnt = listed.reqToBlocks.size
    (shared.length, { cache with manager := listed })
  | _ => (0, cache)

variable [DecidableEq BlockHash]

/-- Free the blocks of a request, last one first. -/
def free (cache : GroupCache BlockHash) (requestId : RequestId) :
    Outcome (GroupCache BlockHash) := do
  let (blocks, manager) := cache.manager.popBlocksForFree requestId
  let pool ← cache.pool.freeBlocks blocks.reverse
  .ok { pool, manager }

end GroupCache

end VllmCore
