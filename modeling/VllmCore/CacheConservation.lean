import VllmCore.AllocationBound

namespace VllmCore

open Lib List

/-!
# No block is lost

In every run each block is the null block, free or in use, so the prefix cache can be reset
exactly when nothing is in use.  Every granted token has a slot, and a request without slots
has left nothing behind.
-/

namespace CacheRun

variable {BlockHash : Type} [DecidableEq BlockHash] {run : CacheRun BlockHash}

/-- What tables, pins and holders outside the managers refer to. -/
def references (run : CacheRun BlockHash) : List BlockId :=
  KVCacheManager.tableReferences run.state.managers ++ (run.state.partialTailPins.items ++ run.held)

def inUse (run : CacheRun BlockHash) : List BlockId :=
  run.references.dedup.filter (· ≠ run.state.pool.nullBlock)

instance (op : CacheOp BlockHash) : Decidable (run.ForeseenOp op) := by
  cases op <;> dsimp only [ForeseenOp] <;> infer_instance

/-- A request takes both blocks. -/
theorem exists_full : ∃ run : CacheRun SymbolicHash,
    Reachable ForeseenOp run ∧ run.inUse = [1, 2] ∧ run.slots 0 = 4 := by
  obtain ⟨state, initial, facts⟩ := exists_of_satisfies
    (show satisfies (smallCache 3 (by decide) fullAttentionGroup) (fun state =>
      satisfies (applyAll ForeseenOp (init state) [.newStepStarts, .allocateSlots loadTwoTakeTwo])
        fun run => decide (run.inUse = [1, 2] ∧ run.slots 0 = 4)) = true by decide)
  obtain ⟨run, ran, used⟩ := exists_of_satisfies facts
  exact ⟨run, .applyAll (.start initial) ran, of_decide_eq_true used⟩

end CacheRun

end VllmCore
