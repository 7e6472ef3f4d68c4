import Mathlib.Algebra.Group.Nat.Defs
import VllmCore.BlockHasher
import VllmCore.FreeBlockQueue
import VllmCore.Lib.Dict

namespace VllmCore

open Function Lib

/-!
# The block pool

The pool owns all cache blocks: their reference counts, the queue of free ones
and the prefix cache, a map from hash keys to blocks.  A block may be reachable
under several keys; the first is stored in the block, the others in a side table.

Block contents and metrics are not part of the model.  Operations that raise
return a `Fault`; what the source would leave behind in that case is not kept.
-/

/-- A prefix-cache key: a block hash within one cache group. -/
structure BlockHashWithGroupId (BlockHash : Type) where
  blockHash : BlockHash
  groupId : Nat
  deriving Repr, DecidableEq

/-- Metadata of one cache block; the links of the free list live in the queue. -/
structure KVCacheBlock (BlockHash : Type) where
  refCnt : Int := 0
  blockHash : Option (BlockHashWithGroupId BlockHash) := none
  blockHashNumTokens : Option Nat := none
  isNull : Bool := false

namespace KVCacheBlock

variable {BlockHash : Type}

/-- Give a block its primary key. -/
def setBlockHash (block : KVCacheBlock BlockHash) (key : BlockHashWithGroupId BlockHash)
    (numTokens : Option Nat) : Outcome (KVCacheBlock BlockHash) := do
  ensure (block.blockHash.isNone ∧ block.blockHashNumTokens.isNone)
    "The block already has a hash. This should not happen."
  .ok { block with blockHash := some key, blockHashNumTokens := numTokens }

/-- Forget the primary key of a block. -/
def resetHash (block : KVCacheBlock BlockHash) : KVCacheBlock BlockHash :=
  { block with blockHash := none, blockHashNumTokens := none }

end KVCacheBlock

/-- The blocks under one key: a single block, or several in insertion order. -/
inductive CachedBlocks where
  | single (block : BlockId)
  | many (blocks : List BlockId)
  deriving Repr, DecidableEq

/-- The prefix cache: a map from keys to blocks. -/
structure BlockHashToBlockMap (BlockHash : Type) where
  cache : BlockHashWithGroupId BlockHash → Option CachedBlocks

namespace BlockHashToBlockMap

variable {BlockHash : Type}

def empty : BlockHashToBlockMap BlockHash where
  cache := fun _ => none

/-- Any block under a key: the first one inserted. -/
def getOneBlock (map : BlockHashToBlockMap BlockHash) (key : BlockHashWithGroupId BlockHash) :
    Option BlockId :=
  match map.cache key with
  | none => none
  | some (.single block) => some block
  | some (.many blocks) => blocks.head?

/-- Whether a key maps to a block, possibly among others. -/
def contain (map : BlockHashToBlockMap BlockHash) (key : BlockHashWithGroupId BlockHash)
    (block : BlockId) : Bool :=
  match map.cache key with
  | none => false
  | some (.single cached) => cached = block
  | some (.many blocks) => block ∈ blocks

variable [DecidableEq BlockHash]

/-- Add a block under a key. -/
def insert (map : BlockHashToBlockMap BlockHash) (key : BlockHashWithGroupId BlockHash)
    (block : BlockId) : BlockHashToBlockMap BlockHash :=
  let entry : CachedBlocks :=
    match map.cache key with
    | none => .single block
    | some (.single cached) => .many (if cached = block then [cached] else [cached, block])
    | some (.many blocks) => .many (if block ∈ blocks then blocks else blocks ++ [block])
  { cache := update map.cache key (some entry) }

/-- Take a block away from a key; returns it if it was there. -/
def pop (map : BlockHashToBlockMap BlockHash) (key : BlockHashWithGroupId BlockHash)
    (block : BlockId) : Option BlockId × BlockHashToBlockMap BlockHash :=
  match map.cache key with
  | none => (none, map)
  | some (.single cached) =>
    if cached = block then
      (some cached, { cache := update map.cache key none })
    else
      (none, map)
  | some (.many blocks) =>
    let remaining := blocks.filter (fun other => other ≠ block)
    let entry := if remaining = [] then none else some (.many remaining)
    (if block ∈ blocks then some block else none, { cache := update map.cache key entry })

end BlockHashToBlockMap

/-- A block hash as event consumers see it. -/
inductive ExternalBlockHash (BlockHash : Type) where
  | bytes (hash : BlockHash)
  | int64 (value : Nat)
  deriving Repr, DecidableEq

/-- Cache events for external consumers. -/
inductive KVCacheEvent (BlockHash : Type) where
  | blockStored (blockHashes : List (ExternalBlockHash BlockHash))
    (parentBlockHash : Option (ExternalBlockHash BlockHash)) (tokenIds : List TokenId)
    (blockSize : Nat) (loraId : Option Nat) (loraName : Option String)
    (extraKeys : Option (List (Option (List ExtraKey)))) (groupIdx : Nat)
  | blockRemoved (blockHashes : List (ExternalBlockHash BlockHash)) (groupIdx : Nat)
  | allBlocksCleared
  deriving Repr, DecidableEq

/--
What a pool is configured with.

`hashToInt` reads the bytes of a hash as a number.
-/
structure PoolConfig (BlockHash : Type) where
  numGpuBlocks : Nat
  numGpuBlocks_pos : 0 < numGpuBlocks
  enableCaching : Bool
  hasher : BlockHasher BlockHash
  enableKvCacheEvents : Bool
  useIntBlockHashes : Bool
  hashToInt : BlockHash → Nat

/-- The hash shown in events. -/
def PoolConfig.maybeConvertBlockHash
    {BlockHash : Type} (config : PoolConfig BlockHash) (hash : BlockHash) :
    ExternalBlockHash BlockHash :=
  if config.useIntBlockHashes then
    .int64 (config.hashToInt hash % 2 ^ 64)
  else
    .bytes hash

/-- The pool: blocks, free queue, prefix cache, secondary keys and events. -/
structure BlockPool (BlockHash : Type) where
  config : PoolConfig BlockHash
  blocks : BlockId → KVCacheBlock BlockHash
  freeBlockQueue : FreeKVCacheBlockQueue
  cachedBlockHashToBlock : BlockHashToBlockMap BlockHash
  cachedBlockHashesByBlock : BlockId → Option (List (BlockHashWithGroupId BlockHash))
  nullBlock : BlockId
  kvEventQueue : List (KVCacheEvent BlockHash)

/--
Block hashes viewed at a coarser block size.

Hashes chain over their whole prefix, so the hash at a coarser boundary is the
fine hash that ends there.
-/
def blockHashListWithBlockSize {BlockHash : Type} (blockHashes : List BlockHash)
    (hashBlockSize targetBlockSize : Nat) : Outcome (List BlockHash) := do
  ensure (targetBlockSize % hashBlockSize = 0)
  let scaleFactor := targetBlockSize / hashBlockSize
  .ok ((List.range (blockHashes.length / scaleFactor)).filterMap fun idx =>
    blockHashes[(idx + 1) * scaleFactor - 1]?)

/-- A lookup that may end inside a block probes hashes finer than the block. -/
def fineGrained (alignmentTokens blockSize : Nat) : Bool :=
  alignmentTokens < blockSize && blockSize % alignmentTokens == 0

/-- Block hashes at the granularity a group looks them up with. -/
def resolveBlockHashes
    {BlockHash : Type} (blockHashes : List BlockHash) (hashBlockSize blockSize : Nat)
    (supportsFineGrainedHashLookup : Bool := false) (alignmentTokens : Option Nat := none) :
    Outcome (List BlockHash) :=
  if blockSize = hashBlockSize then
    .ok blockHashes
  else if supportsFineGrainedHashLookup &&
      alignmentTokens.any (fineGrained · blockSize) then
    .ok blockHashes
  else
    blockHashListWithBlockSize blockHashes hashBlockSize blockSize

namespace BlockPool

variable {BlockHash : Type}

/-- Replace the metadata of one block. -/
def setBlock (pool : BlockPool BlockHash) (block : BlockId) (value : KVCacheBlock BlockHash) :
    BlockPool BlockHash :=
  { pool with blocks := update pool.blocks block value }

/-- The pool as constructed: every block free except the null block. -/
def init (config : PoolConfig BlockHash) : Outcome (BlockPool BlockHash) := do
  let (nullBlock, freeBlockQueue) ←
    (FreeKVCacheBlockQueue.init config.numGpuBlocks).popleft
  .ok
    { config
      blocks := update (fun _ => {}) nullBlock { isNull := true }
      freeBlockQueue
      cachedBlockHashToBlock := BlockHashToBlockMap.empty
      cachedBlockHashesByBlock := fun _ => none
      nullBlock
      kvEventQueue := [] }

def getNumFreeBlocks (pool : BlockPool BlockHash) : Int :=
  pool.freeBlockQueue.numFreeBlocks

section

variable (pool : BlockPool BlockHash)

/-- The cached block under a hash in every given group, if none is missing. -/
def getCachedBlock (blockHash : BlockHash) (kvCacheGroupIds : List Nat) : Option (List BlockId) :=
  kvCacheGroupIds.mapM fun groupId =>
    pool.cachedBlockHashToBlock.getOneBlock ⟨blockHash, groupId⟩

/-- Append an event if events are enabled. -/
def emit (events : List (KVCacheEvent BlockHash)) : BlockPool BlockHash :=
  if pool.config.enableKvCacheEvents then
    { pool with kvEventQueue := pool.kvEventQueue ++ events }
  else
    pool

/-- The secondary keys of a block. -/
def secondaryKeys (block : BlockId) : List (BlockHashWithGroupId BlockHash) :=
  (pool.cachedBlockHashesByBlock block).getD []

/-- One removal event for each key. -/
def emitBlockRemovedEvents (keys : List (BlockHashWithGroupId BlockHash)) : BlockPool BlockHash :=
  pool.emit (keys.map fun key =>
    .blockRemoved [pool.config.maybeConvertBlockHash key.blockHash] key.groupId)

end

variable [DecidableEq BlockHash]

/-- Pop one key of a block from the cache, collecting the keys that were there. -/
def popKey (block : BlockId)
    (state : List (BlockHashWithGroupId BlockHash) × BlockHashToBlockMap BlockHash)
    (key : BlockHashWithGroupId BlockHash) :
    List (BlockHashWithGroupId BlockHash) × BlockHashToBlockMap BlockHash :=
  let popped := state.2.pop key block
  (if popped.1.isSome then state.1 ++ [key] else state.1, popped.2)

section

variable (pool : BlockPool BlockHash)

/-- Remove every key of a block from the cache; returns the removed keys. -/
def removeCachedBlockHashes (block : BlockId) :
    List (BlockHashWithGroupId BlockHash) × BlockPool BlockHash :=
  let keys := (pool.blocks block).blockHash.toList ++ pool.secondaryKeys block
  let withoutSecondary :=
    { pool with
      cachedBlockHashesByBlock :=
        update pool.cachedBlockHashesByBlock block none }
  if keys = [] then
    ([], withoutSecondary)
  else
    let popped := keys.foldl (popKey block) ([], pool.cachedBlockHashToBlock)
    (popped.1, { withoutSecondary with cachedBlockHashToBlock := popped.2 }.setBlock block
        (pool.blocks block).resetHash)

section

variable (key : BlockHashWithGroupId BlockHash)

section

variable (block : BlockId)

/-- Record a key with a block: as its primary key if it has none yet. -/
def recordKey (numTokens : Option Nat) : Outcome (BlockPool BlockHash) :=
  match (pool.blocks block).blockHash with
  | none => do
      let value ← (pool.blocks block).setBlockHash key numTokens
      .ok (pool.setBlock block value)
  | some _ =>
    .ok
      { pool with
        cachedBlockHashesByBlock :=
          update pool.cachedBlockHashesByBlock block
            (some ((pool.secondaryKeys block).insert key)) }

/-- Make a block reachable under a key. -/
def insertBlockHash (numTokens : Option Nat) : Outcome (BlockPool BlockHash) :=
  if (pool.blocks block).blockHash = some key then
    .ok pool
  else if pool.cachedBlockHashToBlock.contain key block then
    .ok pool
  else do
    let keyed ← pool.recordKey key block numTokens
    .ok
      { keyed with
        cachedBlockHashToBlock := keyed.cachedBlockHashToBlock.insert key block }

/-- The stored event of a run of blocks of a request. -/
def buildBlockStoredEvent
    (request : RequestContent) (blockHashes : List (ExternalBlockHash BlockHash))
    (parentBlockHash : Option (ExternalBlockHash BlockHash))
    (startTokenIdx endTokenIdx blockSize kvCacheGroupId : Nat)
    (extraKeysList : List (Option (List ExtraKey))) : KVCacheEvent BlockHash :=
  .blockStored blockHashes parentBlockHash
    (BlockHasher.blockTokens request startTokenIdx endTokenIdx) blockSize
    (request.loraRequest.map LoRARequest.loraIntId)
    (request.loraRequest.map LoRARequest.loraName)
    (if extraKeysList = [] then none else some extraKeysList) kvCacheGroupId

/--
Drop the entries of a block that is about to be cached as full.

The only valid case of a new full block with a hash is the promotion of a
partial entry.
-/
def promoteBlock (numHashTokens : Nat) : Outcome (BlockPool BlockHash) :=
  match (pool.blocks block).blockHash with
  | none => .ok pool
  | some _ => do
      ensure (∃ numTokens ∈ (pool.blocks block).blockHashNumTokens, numTokens < numHashTokens)
      let removed := pool.removeCachedBlockHashes block
      .ok (removed.2.emitBlockRemovedEvents removed.1)

/-- Cache one full block. -/
def cacheFullBlock (numHashTokens : Nat) : Outcome (BlockPool BlockHash) := do
  let promoted ← pool.promoteBlock block numHashTokens
  promoted.insertBlockHash key block (some numHashTokens)

end

end

end

/-- Whether the mask leaves out the `i`-th new block. -/
def maskedOut (blockMask : Option (List Bool)) (i : Nat) : Outcome Bool :=
  match blockMask with
  | none => .ok false
  | some mask => do
      let kept ← indexed mask i
      .ok (!kept)

/-- The caching loop over new full blocks, from the `i`-th one on. -/
def cacheFullLoop (newBlockHashes : List BlockHash) (numCachedBlocks blockSize kvCacheGroupId : Nat)
    (blockMask : Option (List Bool)) :
    List BlockId → Nat → BlockPool BlockHash → List (ExternalBlockHash BlockHash) →
      Outcome (BlockPool BlockHash × List (ExternalBlockHash BlockHash))
  | [], _, pool, newHashes => .ok (pool, newHashes)
  | block :: rest, i, pool, newHashes => do
      let masked ← maskedOut blockMask i
      if (pool.blocks block).isNull || masked then
        cacheFullLoop newBlockHashes numCachedBlocks blockSize kvCacheGroupId
          blockMask rest (i + 1) pool newHashes
      else do
        let blockHash ← indexed newBlockHashes i
        let cached ← pool.cacheFullBlock ⟨blockHash, kvCacheGroupId⟩ block
          ((numCachedBlocks + i + 1) * blockSize)
        cacheFullLoop newBlockHashes numCachedBlocks blockSize kvCacheGroupId
          blockMask rest (i + 1) cached
          (newHashes ++ [pool.config.maybeConvertBlockHash blockHash])

/-- The extra keys reported for consecutive blocks, left out where not kept. -/
def storedExtraKeys (hasher : BlockHasher BlockHash) (request : RequestContent) (blockSize : Nat) :
    List Bool → Nat → MmCursor → List (Option (List ExtraKey))
  | [], _, _ => []
  | false :: rest, i, currMmIdx => storedExtraKeys hasher request blockSize rest (i + 1) currMmIdx
  | true :: rest, i, currMmIdx =>
    let extra := hasher.generateBlockHashExtraKeys request
      (i * blockSize) (i * blockSize + blockSize) currMmIdx
    extra.1 :: storedExtraKeys hasher request blockSize rest (i + 1) extra.2

/-- The hash reported as parent of the first new block. -/
def parentBlockHash (config : PoolConfig BlockHash) (blockHashes : List BlockHash)
    (numCachedBlocks : Nat) : Outcome (Option (ExternalBlockHash BlockHash)) :=
  if numCachedBlocks = 0 then
    .ok none
  else do
    let parent ← indexed blockHashes (numCachedBlocks - 1)
    .ok (some (config.maybeConvertBlockHash parent))

section

variable (pool : BlockPool BlockHash)

section

variable (request : HashedRequest BlockHash)

/-- Cache the full blocks `numCachedBlocks … numFullBlocks - 1` of a request. -/
def cacheFullBlocks (blocks : List BlockId)
    (numCachedBlocks numFullBlocks blockSize kvCacheGroupId : Nat)
    (blockMask : Option (List Bool)) : Outcome (BlockPool BlockHash) :=
  if numFullBlocks ≤ numCachedBlocks then
    .ok pool
  else do
    let newFullBlocks := (blocks.take numFullBlocks).drop numCachedBlocks
    ensure (∀ mask ∈ blockMask, mask.length = newFullBlocks.length)
    let blockHashes ←
      resolveBlockHashes request.blockHashes pool.config.hasher.hashBlockSize blockSize
    let (cached, newHashes) ←
      cacheFullLoop (blockHashes.drop numCachedBlocks) numCachedBlocks blockSize
        kvCacheGroupId blockMask newFullBlocks 0 pool []
    if pool.config.enableKvCacheEvents then do
      let parent ← parentBlockHash pool.config blockHashes numCachedBlocks
      -- The event loop indexes every block of the range.
      let _ ← indexed blocks (numFullBlocks - 1)
      let unmasked := blockMask.getD (newFullBlocks.map fun _ => true)
      let kept := newFullBlocks.zipWith
        (fun block unmasked => !(cached.blocks block).isNull && unmasked) unmasked
      let extraKeysList :=
        storedExtraKeys pool.config.hasher request.toRequestContent blockSize
          kept numCachedBlocks (.index 0)
      .ok (cached.emit
        [buildBlockStoredEvent request.toRequestContent newHashes parent
          (numCachedBlocks * blockSize) (numFullBlocks * blockSize) blockSize
          kvCacheGroupId extraKeysList])
    else
      .ok cached

/-- Report blocks reused from the prefix cache; the cache itself is unchanged. -/
def emitCachedBlockEvents (numCachedBlocks blockSize kvCacheGroupId : Nat) :
    Outcome (BlockPool BlockHash) :=
  if !pool.config.enableKvCacheEvents || numCachedBlocks = 0 then
    .ok pool
  else do
    let blockHashes ←
      resolveBlockHashes request.blockHashes pool.config.hasher.hashBlockSize blockSize
    let cachedHashes ←
      (List.range numCachedBlocks).mapM fun i => do
        let blockHash ← indexed blockHashes i
        Except.ok (pool.config.maybeConvertBlockHash blockHash)
    let extraKeysList :=
      storedExtraKeys pool.config.hasher request.toRequestContent blockSize
        (List.replicate numCachedBlocks true) 0 (.index 0)
    .ok (pool.emit
      [buildBlockStoredEvent request.toRequestContent cachedHashes none
        0 (numCachedBlocks * blockSize) blockSize kvCacheGroupId extraKeysList])

/-- The hash at a partial prefix boundary. -/
def getPartialBlockHash (numTokens : Nat) : Outcome BlockHash := do
  ensure (numTokens % pool.config.hasher.hashBlockSize = 0)
  let numHashBlocks := numTokens / pool.config.hasher.hashBlockSize
  ensure (0 < numHashBlocks ∧ numHashBlocks ≤ request.blockHashes.length)
  indexed request.blockHashes (numHashBlocks - 1)

/-- The stored event of a partial entry: the last hash block of its prefix. -/
def partialStoredEvent (blockHash : BlockHash) (numTokens kvCacheGroupId : Nat) :
    KVCacheEvent BlockHash :=
  let numHashBlocks := numTokens / pool.config.hasher.hashBlockSize
  let parentHash :=
    if 1 < numHashBlocks then request.blockHashes[numHashBlocks - 2]? else none
  let blockStart := (numHashBlocks - 1) * pool.config.hasher.hashBlockSize
  let currMmIdx : MmCursor := if 0 < blockStart then .last else .index 0
  let extraKeys := (pool.config.hasher.generateBlockHashExtraKeys
    request.toRequestContent blockStart numTokens currMmIdx).1
  .blockStored [pool.config.maybeConvertBlockHash blockHash]
    (parentHash.map pool.config.maybeConvertBlockHash)
    (BlockHasher.blockTokens request.toRequestContent blockStart numTokens)
    (numTokens - blockStart)
    (request.loraRequest.map LoRARequest.loraIntId)
    (request.loraRequest.map LoRARequest.loraName)
    (some [extraKeys]) kvCacheGroupId

/-- Make a block reachable from a prefix boundary inside it. -/
def cachePartialBlock (block : BlockId) (numTokens kvCacheGroupId blockSize : Nat) :
    Outcome (Option (BlockHashWithGroupId BlockHash) × BlockPool BlockHash) :=
  let hashBlockSize := pool.config.hasher.hashBlockSize
  if (pool.blocks block).isNull then
    .ok (none, pool)
  else do
    ensure (hashBlockSize < blockSize)
    ensure (blockSize % hashBlockSize = 0)
    ensure (numTokens % blockSize ≠ 0)
    let blockHash ← pool.getPartialBlockHash request numTokens
    let numHashTokens := numTokens / hashBlockSize * hashBlockSize
    let key : BlockHashWithGroupId BlockHash := ⟨blockHash, kvCacheGroupId⟩
    let alreadyCached :=
      (pool.blocks block).blockHash = some key ∨ pool.cachedBlockHashToBlock.contain key block
    let promoted :=
      if ¬ alreadyCached ∧ (pool.blocks block).blockHash.isSome ∧
          ∃ tokens ∈ (pool.blocks block).blockHashNumTokens, tokens < numHashTokens then
        let removed := pool.removeCachedBlockHashes block
        removed.2.emitBlockRemovedEvents removed.1
      else
        pool
    let inserted ← promoted.insertBlockHash key block (some numHashTokens)
    let reported :=
      if alreadyCached then inserted
      else inserted.emit
        [pool.partialStoredEvent request blockHash numTokens kvCacheGroupId]
    .ok (some key, reported)

end

/-- Re-point every cache entry of one block to another. -/
def moveBlockHashes (srcBlock dstBlock : BlockId) : Outcome (BlockPool BlockHash) := do
  ensure ((pool.blocks dstBlock).blockHash.isNone)
  ensure ((pool.cachedBlockHashesByBlock dstBlock).isNone)
  let numTokens := (pool.blocks srcBlock).blockHashNumTokens
  let removed := pool.removeCachedBlockHashes srcBlock
  removed.1.foldlM
    (fun pool key => pool.insertBlockHash key dstBlock numTokens) removed.2

section

variable (block : BlockId)

/-- Evict a block from the prefix cache, if it is there. -/
def maybeEvictCachedBlock : BlockPool BlockHash :=
  let removed := pool.removeCachedBlockHashes block
  removed.2.emitBlockRemovedEvents removed.1

/-- Hand out one popped block. -/
def allocateBlock : Outcome (BlockPool BlockHash) := do
  let evicted :=
    if pool.config.enableCaching then pool.maybeEvictCachedBlock block else pool
  ensure ((evicted.blocks block).refCnt = 0)
  .ok (evicted.setBlock block
    { evicted.blocks block with refCnt := (evicted.blocks block).refCnt + 1 })

/-- Take `numBlocks` blocks from the front of the free queue. -/
def getNewBlocks (numBlocks : Int) : Outcome (List BlockId × BlockPool BlockHash) :=
  if pool.getNumFreeBlocks < numBlocks then
    .error (.value s!"Cannot get {numBlocks} free blocks from the pool")
  else do
    let (popped, freeBlockQueue) ← pool.freeBlockQueue.popleftN numBlocks
    let allocated ← popped.foldlM allocateBlock { pool with freeBlockQueue }
    .ok (popped, allocated)

/-- The free queue without a block that is about to be used. -/
def claimBlock : Outcome FreeKVCacheBlockQueue :=
  if (pool.blocks block).refCnt = 0 ∧ !(pool.blocks block).isNull then
    pool.freeBlockQueue.remove block
  else
    .ok pool.freeBlockQueue

/-- Take one more reference to a block, out of the free queue if need be. -/
def touchBlock : Outcome (BlockPool BlockHash) := do
  let value := pool.blocks block
  let freeBlockQueue ← pool.claimBlock block
  .ok ({ pool with freeBlockQueue }.setBlock block { value with refCnt := value.refCnt + 1 })

end

/-- Take one more reference to each of the blocks. -/
def touch (blocks : List BlockId) : Outcome (BlockPool BlockHash) :=
  blocks.foldlM touchBlock pool

end

/-- Drop one reference; a block nobody refers to joins one of the two lists. -/
def releaseBlock (state : BlockPool BlockHash × List BlockId × List BlockId) (block : BlockId) :
    BlockPool BlockHash × List BlockId × List BlockId :=
  let (pool, withoutHash, withHash) := state
  let value := pool.blocks block
  let released := pool.setBlock block { value with refCnt := value.refCnt - 1 }
  if value.refCnt - 1 = 0 ∧ !value.isNull then
    -- Blocks without a hash can never be hit and are evicted first.
    if value.blockHash.isNone && pool.config.enableCaching then
      (released, withoutHash ++ [block], withHash)
    else
      (released, withoutHash, withHash ++ [block])
  else
    (released, withoutHash, withHash)

/-- Drop one reference to each of the blocks, in eviction order. -/
def freeBlocks (pool : BlockPool BlockHash) (orderedBlocks : List BlockId) :
    Outcome (BlockPool BlockHash) := do
  let (released, withoutHash, withHash) :=
    orderedBlocks.foldl releaseBlock (pool, [], [])
  let prepended ← released.freeBlockQueue.prependN withoutHash
  let freeBlockQueue ← prepended.appendN withHash
  .ok { released with freeBlockQueue }

/-- The block a Python index stands for; negative indices count from the end. -/
def blockAt (pool : BlockPool BlockHash) (blockId : Int) : Outcome BlockId :=
  let index := if blockId < 0 then blockId + pool.config.numGpuBlocks else blockId
  if 0 ≤ index ∧ index < pool.config.numGpuBlocks then
    .ok index.toNat
  else
    .error (.index "list index out of range")

/-- Evict blocks from the prefix cache by their ids. -/
def evictBlocks (pool : BlockPool BlockHash) (blockIds : List Int) :
    Outcome (BlockPool BlockHash) :=
  blockIds.foldlM (fun pool (blockId : Int) => do
    ensure (blockId < pool.config.numGpuBlocks)
      s!"Invalid block_id {blockId}. This indicates a bug in the KV connector"
    let block ← pool.blockAt blockId
    .ok (pool.maybeEvictCachedBlock block)) pool

/-- Forget all cache entries, if no block is in use. -/
def resetPrefixCache (pool : BlockPool BlockHash) : Bool × BlockPool BlockHash :=
  if (pool.config.numGpuBlocks : Int) - pool.getNumFreeBlocks ≠ 1 then
    (false, pool)
  else
    (true, { pool with
        cachedBlockHashToBlock := BlockHashToBlockMap.empty
        cachedBlockHashesByBlock := fun _ => none
        blocks := fun block => (pool.blocks block).resetHash }.emit
          [.allBlocksCleared])

end BlockPool

end VllmCore
