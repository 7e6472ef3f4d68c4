import VllmCore.Lib.Effect
import VllmCore.Offload.CachePolicy

namespace VllmCore.Offload

open Lib

/-!
# The CPU offloading manager

`CPUOffloadingManager` of `v1/kv_offload/cpu/manager.py`: a pool of block slots, the
policy's block table, two counters kept beside it, and the optional tracker of lookups
that holds back keys not asked for often enough.  A call that raises leaves the
manager as it was at that point.
-/

inductive LookupResult where
  | hit
  | miss
  | hitPending
  | retry
  deriving Repr, DecidableEq

/-- Keys stored in or removed from the tier. -/
structure OffloadingEvent (Key : Type) where
  keys : List Key
  removed : Bool
  deriving Repr, DecidableEq

/-- The keys to store, their slots and the keys evicted for them. -/
structure PrepareStoreOutput (Key : Type) where
  keysToStore : List Key
  storeSpec : List Nat
  evictedKeys : List Key
  deriving Repr, DecidableEq

structure CPUOffloadingManager (Key : Type) where
  numBlocks : Nat
  numAllocatedBlocks : Nat := 0
  freeList : List Nat := []
  events : Option (List (OffloadingEvent Key))
  policy : CachePolicy Key
  numEvictableCacheBlocks : Int := 0
  numWritePendingBlocks : Int := 0
  storeThreshold : Int
  maxTrackerSize : Int
  storesSkippedInCurrentBatch : Nat := 0
  allocationSizesInCurrentBatch : List Nat := []
  counts : Option (Dict Key Nat)

namespace CPUOffloadingManager

variable {Key : Type} [DecidableEq Key]

/-- A manager as constructed, over a policy without blocks. -/
def init (numBlocks : Nat) (policy : CachePolicy Key) (enableEvents : Bool := false)
    (storeThreshold : Int := 1) (maxTrackerSize : Int := 64000) :
    CPUOffloadingManager Key where
  numBlocks := numBlocks
  events := if enableEvents then some [] else none
  policy := policy
  storeThreshold := storeThreshold
  maxTrackerSize := maxTrackerSize
  counts := if 2 ≤ storeThreshold then some .empty else none

/-! ## Block pool -/

variable (manager : CPUOffloadingManager Key) (keys : List Key) (key : Key)

def getNumFreeBlocks : Int :=
  manager.freeList.length + manager.numBlocks - manager.numAllocatedBlocks

/-- Slots for `number` blocks: fresh ones first, then reused ones from the end. -/
def allocateBlocks (number : Nat) : Effect (CPUOffloadingManager Key) (List BlockStatus) :=
  fun manager =>
    let numFresh := min number (manager.numBlocks - manager.numAllocatedBlocks)
    let numReused := number - numFresh
    if numReused ≤ manager.freeList.length then
      let kept := manager.freeList.length - numReused
      let slots :=
        List.range' manager.numAllocatedBlocks numFresh ++ (manager.freeList.drop kept).reverse
      .ok (slots.map BlockStatus.new)
        { manager with
          numAllocatedBlocks := manager.numAllocatedBlocks + numFresh
          freeList := manager.freeList.take kept }
    else
      .error (.assertion "") manager

/-- Record an event, when events are enabled. -/
def emit (keys : List Key) (removed : Bool) : CPUOffloadingManager Key :=
  if keys = [] then
    manager
  else
    { manager with events := manager.events.map fun events => events ++ [⟨keys, removed⟩] }

/-! ## The offloading interface -/

/-- The tracker after one more lookup of a key. -/
def track (counts : Dict Key Nat) (maxTrackerSize : Int) (key : Key) : Outcome (Dict Key Nat) :=
  match counts.get? key with
  | some count => .ok ((counts.moveToEnd key).set key (count + 1))
  | none =>
    if maxTrackerSize ≤ counts.size then
      -- `popitem` raises on an empty dictionary
      if counts.size = 0 then .error (.key "dictionary is empty")
      else .ok ((counts.dropFirst 1).set key 1)
    else
      .ok (counts.set key 1)

/-- What the block table holds of a key. -/
def status (key : Key) : LookupResult :=
  match manager.policy.get key with
  | none => .miss
  | some block => if block.isReady then .hit else .hitPending

def lookup : Effect (CPUOffloadingManager Key) LookupResult :=
  fun manager =>
    match manager.counts with
    | none => .ok (manager.status key) manager
    | some counts =>
      match track counts manager.maxTrackerSize key with
      | .error fault => .error fault manager
      | .ok tracked => .ok (manager.status key) { manager with counts := some tracked }

/-- One more reference to a block. -/
def addReference (key : Key) (block : BlockStatus) : CPUOffloadingManager Key :=
  { manager with
    policy := manager.policy.update key { block with refCnt := int32 (block.refCnt + 1) } }

def prepareLoadKey : Effect (CPUOffloadingManager Key) Nat :=
  fun manager =>
    match manager.policy.get key with
    | none => .error (.assertion "not found in cache") manager
    | some block =>
      if ¬ block.isReady then
        .error (.assertion "is not ready for reading") manager
      else if block.refCnt = 0 then
        match manager.policy.markNonEvictable key with
        | .error fault => .error fault manager
        | .ok policy =>
          let marked :=
            { manager with
              policy := policy
              numEvictableCacheBlocks := manager.numEvictableCacheBlocks - 1 }
          if 0 ≤ marked.numEvictableCacheBlocks then
            .ok block.blockId (marked.addReference key block)
          else
            .error (.assertion "") marked
      else
        .ok block.blockId (manager.addReference key block)

/-- Take a reference to each block; the slots to read from. -/
def prepareLoad : Effect (CPUOffloadingManager Key) (List Nat) :=
  keys.mapM prepareLoadKey

def touch : Effect (CPUOffloadingManager Key) Unit :=
  fun manager => .ok () { manager with policy := manager.policy.touch keys }

def completeLoadKey : Effect (CPUOffloadingManager Key) Unit :=
  fun manager =>
    match manager.policy.get key with
    | none => .error (.assertion "not found") manager
    | some block =>
      if 0 < block.refCnt then
        let released := { block with refCnt := int32 (block.refCnt - 1) }
        let policy := manager.policy.update key released
        if released.refCnt = 0 then
          .ok ()
            { manager with
              numEvictableCacheBlocks := manager.numEvictableCacheBlocks + 1
              policy := policy.markEvictable key }
        else
          .ok () { manager with policy := policy }
      else
        .error (.assertion "ref_cnt is already 0") manager

def completeLoad : Effect (CPUOffloadingManager Key) Unit := do
  let _ ← keys.mapM completeLoadKey

/-- The keys asked for often enough, the others counted as skipped. -/
def admitKeys (keys : List Key) : CPUOffloadingManager Key × List Key :=
  match manager.counts with
  | none => (manager, keys)
  | some counts =>
    let kept :=
      keys.filter fun key => decide (manager.storeThreshold ≤ (counts.getD key 0 : Nat))
    ({ manager with
        storesSkippedInCurrentBatch :=
          manager.storesSkippedInCurrentBatch + (keys.length - kept.length) },
      kept)

/-- Evict as many blocks as are missing; nothing when there are not enough. -/
def makeRoom (missing : Int) (shielded : List Key) :
    Effect (CPUOffloadingManager Key) (Option (List Key)) :=
  fun manager =>
    if missing ≤ 0 then
      .ok (some []) manager
    else if manager.numEvictableCacheBlocks < missing then
      .ok none manager
    else
      match manager.policy.evict missing.toNat shielded with
      | .error fault => .error fault manager
      | .ok none => .ok none manager
      | .ok (some (evicted, policy)) =>
        let counted :=
          { manager with
            policy := policy
            numEvictableCacheBlocks :=
              manager.numEvictableCacheBlocks - evicted.length }
        if 0 ≤ counted.numEvictableCacheBlocks then
          let freed :=
            { counted with
              freeList :=
                counted.freeList ++ evicted.map (BlockStatus.blockId ∘ Prod.snd) }
          .ok (some (evicted.map Prod.fst)) (freed.emit (evicted.map Prod.fst) true)
        else
          .error (.assertion "") counted

/-- Enter newly allocated blocks into the block table. -/
def insertBlocks (policy : CachePolicy Key) (entries : List (Key × BlockStatus)) :
    CachePolicy Key :=
  entries.foldl (fun policy entry => policy.insert entry.1 entry.2) policy

/-- Allocate slots for the keys and enter them as pending. -/
def placeKeys (keysToStore evictedKeys : List Key) :
    Effect (CPUOffloadingManager Key) (PrepareStoreOutput Key) := do
  let blocks ← allocateBlocks keysToStore.length
  if blocks.length = keysToStore.length then
    modify fun manager =>
      { manager with
        policy := insertBlocks manager.policy (keysToStore.zip blocks)
        numWritePendingBlocks := manager.numWritePendingBlocks + keysToStore.length }
    pure ⟨keysToStore, blocks.map BlockStatus.blockId, evictedKeys⟩
  else
    throw (.assertion "Block pool did not allocate the expected number of blocks")

/-- Make room for keys that are not in the tier yet and enter them. -/
def storeNew (wanted keysToStore : List Key) :
    Effect (CPUOffloadingManager Key) (Option (PrepareStoreOutput Key)) := do
  let manager ← get
  match ← makeRoom (keysToStore.length - manager.getNumFreeBlocks) wanted with
  | none => pure none
  | some evictedKeys => some <$> placeKeys keysToStore evictedKeys

/-- Allocate slots for the keys that are not in the tier yet. -/
def prepareStore : Effect (CPUOffloadingManager Key) (Option (PrepareStoreOutput Key)) :=
  fun manager =>
    let (admitted, wanted) := manager.admitKeys keys
    let keysToStore := wanted.filter fun key => (admitted.policy.get key).isNone
    if keysToStore = [] then
      .ok (some ⟨[], [], []⟩) admitted
    else
      storeNew wanted keysToStore
        { admitted with
          allocationSizesInCurrentBatch :=
            admitted.allocationSizesInCurrentBatch ++ [keysToStore.length] }

/-- A pending block becomes readable. -/
def completeStoreKey : Effect (CPUOffloadingManager Key) (List Key) :=
  fun manager =>
    match manager.policy.get key with
    | none => .ok [] manager
    | some block =>
      if block.isReady then
        .ok [] manager
      else
        .ok [key]
          { manager with
            numWritePendingBlocks := manager.numWritePendingBlocks - 1
            numEvictableCacheBlocks := manager.numEvictableCacheBlocks + 1
            policy :=
              (manager.policy.update key { block with refCnt := 0 }).markEvictable key }

/-- A pending block leaves the tier. -/
def dropStoreKey : Effect (CPUOffloadingManager Key) Unit :=
  fun manager =>
    match manager.policy.get key with
    | none => .ok () manager
    | some block =>
      if block.isReady then
        .ok () manager
      else
        .ok ()
          { manager with
            numWritePendingBlocks := manager.numWritePendingBlocks - 1
            policy := manager.policy.remove key
            freeList := manager.freeList ++ [block.blockId] }

def completeStore (success : Bool := true) : Effect (CPUOffloadingManager Key) Unit := do
  if success then
    let stored ← keys.mapM completeStoreKey
    modify fun manager => manager.emit stored.flatten false
  else
    let _ ← keys.mapM dropStoreKey

def resetCache : Effect (CPUOffloadingManager Key) Unit :=
  modify fun manager =>
    { manager with
      policy := manager.policy.clear
      numEvictableCacheBlocks := 0
      numWritePendingBlocks := 0
      freeList := []
      numAllocatedBlocks := 0 }

end CPUOffloadingManager

end VllmCore.Offload
