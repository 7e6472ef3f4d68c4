import Mathlib.Data.Rat.Floor
import VllmCore.Lib.Dict
import VllmCore.Lib.Outcome

namespace VllmCore.Offload

open Lib

/-!
# Cache policies of the CPU offloading tier

The block table of `v1/kv_offload/cpu/policies`: the LRU policy keeps the blocks
without references in an ordered dictionary of their own, the ARC policy keeps all
blocks in a recent and a frequent partition and remembers evicted keys in two ghost
lists.  The manager writes the reference count through the block object it got from
the policy; `update` is that write.
-/

/-- The value a 32 bit field holds after an assignment. -/
def int32 (value : Int) : Int :=
  value.bmod (2 ^ 32)

/-- Status of one block: its reference count, -1 while a store is pending, and slot. -/
structure BlockStatus where
  refCnt : Int
  blockId : Nat
  deriving Repr, DecidableEq

namespace BlockStatus

/-- A newly allocated block is not ready. -/
def new (blockId : Nat) : BlockStatus where
  refCnt := -1
  blockId := blockId

def isReady (block : BlockStatus) : Bool :=
  decide (0 ≤ block.refCnt)

end BlockStatus

variable {Key : Type} [DecidableEq Key]

/-! ## Least recently used -/

structure LRUCachePolicy (Key : Type) where
  evictableBlocks : Dict Key Unit
  blocks : Dict Key BlockStatus

namespace LRUCachePolicy

variable (policy : LRUCachePolicy Key)

variable (key : Key)

def get : Option BlockStatus :=
  policy.blocks.get? key

def insert (block : BlockStatus) :
    LRUCachePolicy Key where
  blocks := policy.blocks.set key block
  evictableBlocks :=
    if block.refCnt = 0 then policy.evictableBlocks.set key ()
    else policy.evictableBlocks

def remove : LRUCachePolicy Key where
  blocks := policy.blocks.erase key
  evictableBlocks := policy.evictableBlocks.erase key

def touch (keys : List Key) : LRUCachePolicy Key :=
  { policy with
    evictableBlocks :=
      keys.reverse.foldl
        (fun evictable key =>
          if evictable.contains key then evictable.moveToEnd key else evictable)
        policy.evictableBlocks }

def clear (_ : LRUCachePolicy Key) : LRUCachePolicy Key where
  evictableBlocks := .empty
  blocks := .empty

/-- The loop that collects `number` candidates, oldest first. -/
def gather (policy : LRUCachePolicy Key) (number : Nat) (shielded : List Key) :
    List Key → List (Key × BlockStatus) → Outcome (List (Key × BlockStatus))
  | [], candidates => .ok candidates
  | key :: rest, candidates =>
    if key ∈ shielded then
      gather policy number shielded rest candidates
    else
      match policy.blocks.get? key with
      | none => .error (.key "")
      | some block =>
        if block.refCnt ≠ 0 then
          .error (.assertion "")
        else if (candidates ++ [(key, block)]).length = number then
          .ok (candidates ++ [(key, block)])
        else
          gather policy number shielded rest (candidates ++ [(key, block)])

/-- Evict exactly `number` blocks outside the shielded keys, or none at all. -/
def evict (number : Nat) (shielded : List Key) :
    Outcome (Option (List (Key × BlockStatus) × LRUCachePolicy Key)) :=
  if number = 0 then
    .ok (some ([], policy))
  else do
    let candidates ← policy.gather number shielded policy.evictableBlocks.keys []
    if candidates.length < number then
      .ok none
    else
      .ok (some (candidates,
        { evictableBlocks := policy.evictableBlocks.eraseAll (candidates.map Prod.fst)
          blocks := policy.blocks.eraseAll (candidates.map Prod.fst) }))

def markEvictable : LRUCachePolicy Key :=
  { policy with evictableBlocks := policy.evictableBlocks.set key () }

def markNonEvictable : Outcome (LRUCachePolicy Key) :=
  if policy.evictableBlocks.contains key then
    .ok { policy with evictableBlocks := policy.evictableBlocks.erase key }
  else
    .error (.key "")

/-- A write to the block object of a cached key. -/
def update (block : BlockStatus) : LRUCachePolicy Key :=
  if policy.blocks.contains key then
    { policy with blocks := policy.blocks.set key block }
  else
    policy

end LRUCachePolicy

/-! ## Adaptive replacement -/

/-- `rounding` is how the platform rounds the result of a float operation. -/
structure ARCCachePolicy (Key : Type) where
  cacheCapacity : Nat
  rounding : ℚ → ℚ
  targetT1Size : ℚ
  t1 : Dict Key BlockStatus
  t2 : Dict Key BlockStatus
  b1 : Dict Key Unit
  b2 : Dict Key Unit

namespace ARCCachePolicy

variable (policy : ARCCachePolicy Key)

variable (key : Key)

def get : Option BlockStatus :=
  (policy.t1.get? key).or (policy.t2.get? key)

def insert (block : BlockStatus) : ARCCachePolicy Key :=
  { policy with
    t1 := policy.t1.set key block
    b1 := policy.b1.erase key
    b2 := policy.b2.erase key }

def remove : ARCCachePolicy Key :=
  if policy.t1.contains key then
    { policy with t1 := policy.t1.erase key }
  else
    { policy with t2 := policy.t2.erase key }

/-- The step by which a hit in one ghost list moves the target. -/
def delta (other own : Dict Key Unit) : ℚ :=
  max 1 (policy.rounding (other.size / own.size))

def touchKey : ARCCachePolicy Key :=
  match policy.t1.get? key with
  | some block =>
    if block.isReady then
      { policy with t1 := policy.t1.erase key, t2 := policy.t2.set key block }
    else
      -- just prepared to be stored, not touched twice: it stays in T1
      { policy with t1 := (policy.t1.erase key).set key block }
  | none =>
    if policy.t2.contains key then
      { policy with t2 := policy.t2.moveToEnd key }
    else if policy.b1.contains key then
      { policy with
        targetT1Size :=
          min (policy.rounding (policy.targetT1Size + policy.delta policy.b2 policy.b1))
            policy.cacheCapacity
        b1 := policy.b1.moveToEnd key }
    else if policy.b2.contains key then
      { policy with
        targetT1Size :=
          max (policy.rounding (policy.targetT1Size - policy.delta policy.b1 policy.b2)) 0
        b2 := policy.b2.moveToEnd key }
    else
      policy

def touch (keys : List Key) : ARCCachePolicy Key :=
  keys.reverse.foldl touchKey policy

def clear : ARCCachePolicy Key :=
  { policy with
    targetT1Size := 0
    t1 := .empty
    t2 := .empty
    b1 := .empty
    b2 := .empty }

/-- `int` of a float truncates towards zero. -/
def truncate (value : ℚ) : Int :=
  if 0 ≤ value then ⌊value⌋ else ⌈value⌉

/-- The first block of a partition that may be taken. -/
def pick (partition : Dict Key BlockStatus) (shielded selected : List Key) :
    Option (Key × BlockStatus) :=
  partition.entries.find? fun entry =>
    decide (entry.2.refCnt = 0 ∧ entry.1 ∉ shielded ∧ entry.1 ∉ selected)

/-- Collect `number` further candidates, each with whether it comes from T1. -/
def select (policy : ARCCachePolicy Key) (shielded : List Key) :
    Nat → Int → List (Key × BlockStatus × Bool) → Option (List (Key × BlockStatus × Bool))
  | 0, _, candidates => some candidates
  | number + 1, virtualT1Size, candidates =>
    let recent :=
      if truncate policy.targetT1Size ≤ virtualT1Size then
        pick policy.t1 shielded (candidates.map Prod.fst)
      else
        none
    match recent with
    | some (key, block) =>
      select policy shielded number (virtualT1Size - 1)
        (candidates ++ [(key, block, true)])
    | none =>
      match pick policy.t2 shielded (candidates.map Prod.fst) with
      | some (key, block) =>
        select policy shielded number virtualT1Size
          (candidates ++ [(key, block, false)])
      | none => none

/-- Take one candidate out of its partition and into its ghost list. -/
def take (candidate : Key × BlockStatus × Bool) : ARCCachePolicy Key :=
  if candidate.2.2 then
    { policy with
      t1 := policy.t1.erase candidate.1
      b1 := policy.b1.set candidate.1 () }
  else
    { policy with
      t2 := policy.t2.erase candidate.1
      b2 := policy.b2.set candidate.1 () }

/-- Trim a ghost list to the capacity. -/
def trim (ghost : Dict Key Unit) : Dict Key Unit :=
  ghost.dropFirst (ghost.size - policy.cacheCapacity)

def evict (number : Nat) (shielded : List Key) :
    Option (List (Key × BlockStatus) × ARCCachePolicy Key) :=
  if number = 0 then
    some ([], policy)
  else
    (policy.select shielded number policy.t1.size []).map fun candidates =>
      let taken := candidates.foldl take policy
      (candidates.map fun candidate => (candidate.1, candidate.2.1),
        { taken with b1 := taken.trim taken.b1, b2 := taken.trim taken.b2 })

/-- A write to the block object of a cached key. -/
def update (block : BlockStatus) : ARCCachePolicy Key :=
  if policy.t1.contains key then
    { policy with t1 := policy.t1.set key block }
  else if policy.t2.contains key then
    { policy with t2 := policy.t2.set key block }
  else
    policy

end ARCCachePolicy

/-! ## Either policy -/

inductive CachePolicy (Key : Type) where
  | lru (policy : LRUCachePolicy Key)
  | arc (policy : ARCCachePolicy Key)

namespace CachePolicy

variable (policy : CachePolicy Key)

variable (key : Key)

def get : Option BlockStatus :=
  match policy with
  | lru policy => policy.get key
  | arc policy => policy.get key

def insert (block : BlockStatus) : CachePolicy Key :=
  match policy with
  | lru policy => lru (policy.insert key block)
  | arc policy => arc (policy.insert key block)

def remove : CachePolicy Key :=
  match policy with
  | lru policy => lru (policy.remove key)
  | arc policy => arc (policy.remove key)

def touch (keys : List Key) : CachePolicy Key :=
  match policy with
  | lru policy => lru (policy.touch keys)
  | arc policy => arc (policy.touch keys)

def evict (number : Nat) (shielded : List Key) :
    Outcome (Option (List (Key × BlockStatus) × CachePolicy Key)) :=
  match policy with
  | lru policy =>
    (policy.evict number shielded).map fun result =>
      result.map fun (evicted, after) => (evicted, lru after)
  | arc policy =>
    .ok ((policy.evict number shielded).map fun (evicted, after) => (evicted, arc after))

def clear : CachePolicy Key :=
  match policy with
  | lru policy => lru policy.clear
  | arc policy => arc policy.clear

/-- The ARC policy keeps the default, which does nothing. -/
def markEvictable : CachePolicy Key :=
  match policy with
  | lru policy => lru (policy.markEvictable key)
  | arc policy => arc policy

def markNonEvictable : Outcome (CachePolicy Key) :=
  match policy with
  | lru policy => (policy.markNonEvictable key).map lru
  | arc policy => .ok (arc policy)

def update (block : BlockStatus) : CachePolicy Key :=
  match policy with
  | lru policy => lru (policy.update key block)
  | arc policy => arc (policy.update key block)

end CachePolicy

end VllmCore.Offload
