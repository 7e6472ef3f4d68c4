import VllmCore.BlockPoolInvariant
import VllmCore.Lib.Rounding

namespace VllmCore

open Lib

/-!
# Finding cached prefixes, one kind of attention at a time

Each kind of attention has its own finder.  Full attention needs every block of
the prefix and extends a run of cached blocks from the left; a sliding window
needs the last blocks only and scans from the right; chunked local attention
needs the blocks of the last chunk; Mamba needs the one state that ends at the
boundary.  All finders meet one contract, `Serves`.
-/

/-- When Mamba states are kept for reuse. -/
inductive MambaCacheMode where
  | none
  | all
  | align
  deriving Repr, DecidableEq

/-- The attention, or state, a group of layers has. -/
inductive SpecKind where
  | fullAttention
  | slidingWindow (slidingWindow : Nat)
  | chunkedLocalAttention (attentionChunkSize : Nat)
  | mamba (mambaCacheMode : MambaCacheMode) (numSpeculativeBlocks : Nat)
  | crossAttention
  deriving Repr, DecidableEq

/--
The cache format of a group.

`layout` stands for heads, sizes and element types, which distinguish two
formats and are not read otherwise.
-/
structure KVCacheSpec where
  kind : SpecKind
  blockSize : Nat
  blockSize_pos : 0 < blockSize
  layout : Nat
  deriving Repr, DecidableEq

namespace SpecKind

def isFullAttention : SpecKind → Bool
  | fullAttention => true
  | _ => false

def isMamba : SpecKind → Bool
  | mamba _ _ => true
  | _ => false

/-- The managers that can match a prefix ending inside a block. -/
def supportsFineGrainedHashLookup : SpecKind → Bool
  | fullAttention => true
  | mamba _ _ => true
  | _ => false

/-- How many leading tokens the next token does not attend to. -/
def getNumSkippedTokens (kind : SpecKind) (numComputedTokens : Nat) : Int :=
  match kind with
  | fullAttention => 0
  | slidingWindow window => max 0 ((numComputedTokens : Int) - window + 1)
  | chunkedLocalAttention chunk => (numComputedTokens / chunk * chunk : Nat)
  | mamba _ _ => (numComputedTokens : Int) - 1
  | crossAttention => 0

/-- The token after a prefix reads this position of the prefix. -/
def Needs (kind : SpecKind) (hitLength position : Nat) : Prop :=
  position < hitLength ∧ kind.getNumSkippedTokens hitLength ≤ position

end SpecKind

/-! ## The finders -/

/-- The blocks found so far, one list for each group searched together. -/
abbrev ComputedBlocks := List (List BlockId)

namespace ComputedBlocks

variable (computed : ComputedBlocks)

def append (cached : List BlockId) : ComputedBlocks :=
  computed.zipWith (fun blocks block => blocks ++ [block]) cached

def set (position : Nat) (cached : List BlockId) : ComputedBlocks :=
  computed.zipWith (fun blocks block => blocks.set position block) cached

/-- The number of blocks found, read off the first group. -/
def count : Nat :=
  (computed.headD []).length

/-- Drop all blocks from a position on. -/
def truncate (numBlocks : Nat) : ComputedBlocks :=
  computed.map fun blocks => blocks.take numBlocks

end ComputedBlocks

variable {BlockHash : Type}

/-- Extend by cached blocks until one is missing. -/
def collectBlocks (pool : BlockPool BlockHash) (kvCacheGroupIds : List Nat) :
    List BlockHash → ComputedBlocks → ComputedBlocks
  | [], computed => computed
  | blockHash :: rest, computed =>
    match pool.getCachedBlock blockHash kvCacheGroupIds with
    | none => computed
    | some cached => collectBlocks pool kvCacheGroupIds rest (computed.append cached)

/-- The highest accepted index from `lower` on whose hash is cached. -/
def searchDown (pool : BlockPool BlockHash) (kvCacheGroupIds : List Nat)
    (blockHashes : List BlockHash) (accepts : Nat → Bool) (lower : Nat) :
    Nat → Outcome (Option (Nat × List BlockId))
  | 0 => .ok none
  | index + 1 =>
    if index < lower then
      .ok none
    else do
      let blockHash ← indexed blockHashes index
      match pool.getCachedBlock blockHash kvCacheGroupIds with
      | none => searchDown pool kvCacheGroupIds blockHashes accepts lower index
      | some cached =>
        if accepts index then
          .ok (some (index, cached))
        else
          searchDown pool kvCacheGroupIds blockHashes accepts lower index

namespace FullAttentionManager

/-- The hashes of the full blocks, whichever granularity the lookup keeps. -/
def fullBlockHashes (blockHashes : List BlockHash) (blockSize alignmentTokens : Nat) :
    Outcome (List BlockHash) :=
  if fineGrained alignmentTokens blockSize then
    blockHashListWithBlockSize blockHashes alignmentTokens blockSize
  else
    .ok blockHashes

/-- Extend a run of full blocks into the first block that is not full. -/
def extendPartial (pool : BlockPool BlockHash) (blockHashes : List BlockHash) (maxLength : Nat)
    (kvCacheGroupIds : List Nat) (blockSize alignmentTokens : Nat) (computed : ComputedBlocks) :
    Outcome (ComputedBlocks × Nat) :=
  let hitLength := computed.count * blockSize
  if fineGrained alignmentTokens blockSize then do
    let scaleFactor := blockSize / alignmentTokens
    let firstPartialIdx := computed.count * scaleFactor
    let maxPartialIdx :=
      min (firstPartialIdx + scaleFactor - 1)
        (min (maxLength / alignmentTokens) blockHashes.length)
    let found ←
      searchDown pool kvCacheGroupIds blockHashes (fun _ => true) firstPartialIdx
        maxPartialIdx
    match found with
    | none => .ok (computed, hitLength)
    | some (fineIdx, cachedTail) =>
      .ok (computed.append cachedTail, (fineIdx + 1) * alignmentTokens)
  else
    .ok (computed, hitLength)

/-- The hit length after the EAGLE drop, rounded down to the alignment. -/
def settledLength (hitLength blockSize : Nat) (dropEagleBlock : Bool) (alignmentTokens : Nat) :
    Nat :=
  let dropped :=
    if dropEagleBlock && hitLength > 0 then
      hitLength - min alignmentTokens blockSize
    else
      hitLength
  dropped - dropped % alignmentTokens

def findLongestCacheHit
    (pool : BlockPool BlockHash) (blockHashes : List BlockHash) (maxLength : Nat)
    (kvCacheGroupIds : List Nat) (blockSize : Nat) (dropEagleBlock : Bool) (alignmentTokens : Nat) :
    Outcome (ComputedBlocks × Nat) := do
  let blockHashes ←
    resolveBlockHashes blockHashes pool.config.hasher.hashBlockSize blockSize true
      (some alignmentTokens)
  let fullHashes ← fullBlockHashes blockHashes blockSize alignmentTokens
  let run :=
    collectBlocks pool kvCacheGroupIds (fullHashes.take (maxLength / blockSize))
      (kvCacheGroupIds.map fun _ => [])
  let (computed, hitLength) ←
    extendPartial pool blockHashes maxLength kvCacheGroupIds blockSize
      alignmentTokens run
  let settled := settledLength hitLength blockSize dropEagleBlock alignmentTokens
  .ok (computed.truncate (cdiv settled blockSize), settled)

end FullAttentionManager

namespace SlidingWindowManager

/-- Cached blocks in a row that a hit needs. -/
def contiguousBlocksForHit (windowSize blockSize : Nat) (useEagle : Bool) : Nat :=
  cdiv (windowSize - 1) blockSize + if useEagle then 1 else 0

/-- A run may start only where it ends aligned, counting the EAGLE drop. -/
def mayStart (index blockSize : Nat) (dropEagleBlock : Bool) (alignmentTokens : Nat) : Bool :=
  blockSize == alignmentTokens ||
    (if dropEagleBlock then index else index + 1) * blockSize % alignmentTokens == 0

/--
Scan right to left for enough cached blocks in a row.

The last component tells whether the scan stopped at a match.
-/
def scan (pool : BlockPool BlockHash) (kvCacheGroupIds : List Nat)
    (blockHashes : List BlockHash) (blockSize : Nat) (dropEagleBlock : Bool)
    (alignmentTokens needed : Nat) :
    Nat → ComputedBlocks → Nat → Outcome (ComputedBlocks × Nat × Bool)
  | 0, computed, numContiguousBlocks => .ok (computed, numContiguousBlocks, false)
  | index + 1, computed, numContiguousBlocks => do
      let blockHash ← indexed blockHashes index
      match pool.getCachedBlock blockHash kvCacheGroupIds with
      | none =>
        scan pool kvCacheGroupIds blockHashes blockSize dropEagleBlock
          alignmentTokens needed index computed 0
      | some cached =>
        if numContiguousBlocks = 0 ∧
            mayStart index blockSize dropEagleBlock alignmentTokens = false then
          scan pool kvCacheGroupIds blockHashes blockSize dropEagleBlock
            alignmentTokens needed index computed numContiguousBlocks
        else if needed ≤ numContiguousBlocks + 1 then
          .ok
            ((computed.set index cached).truncate (index + (numContiguousBlocks + 1)),
              numContiguousBlocks + 1, true)
        else
          scan pool kvCacheGroupIds blockHashes blockSize dropEagleBlock
            alignmentTokens needed index (computed.set index cached)
            (numContiguousBlocks + 1)

/-- Pop blocks until the length is aligned. -/
def alignedCount (blockSize alignmentTokens : Nat) : Nat → Nat
  | 0 => 0
  | numBlocks + 1 =>
    if blockSize ≠ alignmentTokens ∧ (numBlocks + 1) * blockSize % alignmentTokens ≠ 0 then
      alignedCount blockSize alignmentTokens numBlocks
    else
      numBlocks + 1

/-- Trim what the scan left: to the match, or to the aligned leading run. -/
def trimmed (blockSize alignmentTokens : Nat) (scanned : ComputedBlocks × Nat × Bool) :
    ComputedBlocks :=
  let (computed, numContiguousBlocks, matchFound) := scanned
  if matchFound then
    computed
  else
    let leading := computed.truncate numContiguousBlocks
    leading.truncate (alignedCount blockSize alignmentTokens leading.count)

/-- Pop the block matched for EAGLE only, and align again. -/
def dropped (blockSize : Nat) (dropEagleBlock : Bool) (alignmentTokens : Nat)
    (computed : ComputedBlocks) : ComputedBlocks :=
  if dropEagleBlock ∧ computed.count ≠ 0 then
    computed.truncate
      (alignedCount blockSize alignmentTokens (computed.count - 1))
  else
    computed

def findLongestCacheHit
    (pool : BlockPool BlockHash) (blockHashes : List BlockHash) (maxLength : Nat)
    (kvCacheGroupIds : List Nat) (slidingWindow blockSize : Nat) (dropEagleBlock : Bool)
    (alignmentTokens : Nat) : Outcome (ComputedBlocks × Nat) := do
  ensure (alignmentTokens % blockSize = 0)
    "SlidingWindowManager does not support fine-grained (partial) cache hits"
  let blockHashes ←
    resolveBlockHashes blockHashes pool.config.hasher.hashBlockSize blockSize false
      (some alignmentTokens)
  let maxNumBlocks := maxLength / blockSize
  let scanned ←
    scan pool kvCacheGroupIds blockHashes blockSize dropEagleBlock alignmentTokens
      (contiguousBlocksForHit slidingWindow blockSize dropEagleBlock) maxNumBlocks
      (kvCacheGroupIds.map fun _ => List.replicate maxNumBlocks pool.nullBlock) 0
  let computed :=
    dropped blockSize dropEagleBlock alignmentTokens
      (trimmed blockSize alignmentTokens scanned)
  .ok (computed, computed.count * blockSize)

end SlidingWindowManager

namespace ChunkedLocalAttentionManager

def findLongestCacheHit
    (pool : BlockPool BlockHash) (blockHashes : List BlockHash) (maxLength : Nat)
    (kvCacheGroupIds : List Nat) (attentionChunkSize blockSize : Nat)
    (dropEagleBlock : Bool) (alignmentTokens : Nat) : Outcome (ComputedBlocks × Nat) := do
  ensure (dropEagleBlock = false)
    "Hybrid KV cache is not supported for eagle + chunked local attention."
  ensure (blockSize = alignmentTokens)
    ("KV cache groups with different block sizes are not compatible with " ++
      "chunked local attention now")
  let blockHashes ←
    resolveBlockHashes blockHashes pool.config.hasher.hashBlockSize blockSize false
      (some alignmentTokens)
  let maxNumBlocks := maxLength / blockSize
  let localAttentionStartBlockIdx :=
    maxLength / attentionChunkSize * attentionChunkSize / blockSize
  let computed ←
    collect blockHashes (maxNumBlocks - localAttentionStartBlockIdx)
      localAttentionStartBlockIdx
      (kvCacheGroupIds.map fun _ =>
        List.replicate localAttentionStartBlockIdx pool.nullBlock)
  .ok (computed, computed.count * blockSize)
where
  /-- Extend by cached blocks from an index on, until one is missing. -/
  collect
      (blockHashes : List BlockHash) :
      Nat → Nat → ComputedBlocks → Outcome ComputedBlocks
    | 0, _, computed => .ok computed
    | remaining + 1, index, computed => do
        let blockHash ← indexed blockHashes index
        match pool.getCachedBlock blockHash kvCacheGroupIds with
        | none => .ok computed
        | some cached =>
            collect blockHashes remaining (index + 1) (computed.append cached)

end ChunkedLocalAttentionManager

namespace MambaManager

/-- One state block behind null blocks. -/
def stateAt (pool : BlockPool BlockHash) (kvCacheGroupIds : List Nat)
    (found : Option (Nat × List BlockId)) (blockIdx hitLength : Nat → Nat) : ComputedBlocks × Nat :=
  match found with
  | none => (kvCacheGroupIds.map fun _ => [], 0)
  | some (index, cached) =>
    (ComputedBlocks.append
      (kvCacheGroupIds.map fun _ =>
        List.replicate (blockIdx index) pool.nullBlock) cached,
      hitLength index)

def findLongestCacheHit
    (pool : BlockPool BlockHash) (blockHashes : List BlockHash) (maxLength : Nat)
    (kvCacheGroupIds : List Nat) (blockSize alignmentTokens : Nat) :
    Outcome (ComputedBlocks × Nat) := do
  let blockHashes ←
    resolveBlockHashes blockHashes pool.config.hasher.hashBlockSize blockSize true
      (some alignmentTokens)
  if fineGrained alignmentTokens blockSize then do
    let scaleFactor := blockSize / alignmentTokens
    let found ←
      searchDown pool kvCacheGroupIds blockHashes (fun _ => true) 0
        (min (maxLength / alignmentTokens) blockHashes.length)
    .ok (stateAt pool kvCacheGroupIds found (· / scaleFactor)
      fun fineIdx => (fineIdx + 1) * alignmentTokens)
  else do
    let accepts (i : Nat) :=
      blockSize == alignmentTokens || (i + 1) * blockSize % alignmentTokens == 0
    let found ←
      searchDown pool kvCacheGroupIds blockHashes accepts 0 (maxLength / blockSize)
    .ok (stateAt pool kvCacheGroupIds found id fun i => (i + 1) * blockSize)

end MambaManager

/-- The finder of the manager a spec is registered with. -/
def SpecKind.findLongestCacheHit
    (kind : SpecKind) (pool : BlockPool BlockHash) (blockHashes : List BlockHash)
    (maxLength : Nat) (kvCacheGroupIds : List Nat) (blockSize : Nat)
    (dropEagleBlock : Bool) (alignmentTokens : Nat) : Outcome (ComputedBlocks × Nat) :=
  match kind with
  | .fullAttention =>
    FullAttentionManager.findLongestCacheHit pool blockHashes maxLength
      kvCacheGroupIds blockSize dropEagleBlock alignmentTokens
  | .slidingWindow window =>
    SlidingWindowManager.findLongestCacheHit pool blockHashes maxLength
      kvCacheGroupIds window blockSize dropEagleBlock alignmentTokens
  | .chunkedLocalAttention chunk =>
    ChunkedLocalAttentionManager.findLongestCacheHit pool blockHashes maxLength
      kvCacheGroupIds chunk blockSize dropEagleBlock alignmentTokens
  | .mamba _ _ =>
    MambaManager.findLongestCacheHit pool blockHashes maxLength kvCacheGroupIds
      blockSize alignmentTokens
  | .crossAttention => .error (.runtime "CrossAttentionManager does not support caching")

end VllmCore
