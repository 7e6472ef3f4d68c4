import VllmCore.SingleTypeManager
import VllmCore.SlidingWindowHit

namespace VllmCore

open Lib List SlidingWindowManager

/-!
# Sparse caching of a sliding window

A group caches only the blocks its mask marks: the tails that hits at aligned lengths
read, or, under a retention interval, those of some lengths.  Two caches answer alike
if each usable length of the one is reached by a usable length of the other.
-/

variable {BlockHash : Type}

namespace ManagerConfig

variable (config : ManagerConfig)

/-- The search of a sliding-window group. -/
def windowSearch (slidingWindow maxLength : Nat) : WindowSearch where
  maxLength
  slidingWindow
  blockSize := config.kvCacheSpec.blockSize
  dropEagleBlock := config.useEagle
  alignmentTokens := config.schedulerBlockSize

/-- A call that caches a range of full blocks marks this one. -/
def Marked (retentionInterval : Option Nat) (reachableBoundaries : List Int) (index : Nat) : Prop :=
  ∃ startBlock endBlock blockMask, startBlock ≤ index ∧ index < endBlock ∧
      config.reachableBlockMask startBlock endBlock retentionInterval reachableBoundaries =
        .ok blockMask ∧
      ∀ marks ∈ blockMask, marks[index - startBlock]? = some true

variable {config} {slidingWindow maxLength index length : Nat} {cached : Nat → Prop}
  {reachableBoundaries : List Int}

/-- The blocks before the end of a segment are in its tail, counting a shift. -/
theorem tail_of_segment (unsaturated : need < perSegment)
    (pos : 0 < segments) (before : index < segments * perSegment + shift)
    (near : segments * perSegment + shift ≤ index + need) :
    shift ≤ index ∧ perSegment ≤ (index - shift) % perSegment + need := by
  obtain ⟨earlier, rfl⟩ := Nat.exists_eq_add_of_lt pos
  rw [zero_add, Nat.succ_mul] at before near
  obtain ⟨offset, rfl⟩ : ∃ offset, index = offset + earlier * perSegment + shift :=
    ⟨index - shift - earlier * perSegment, by omega⟩
  rw [Nat.add_sub_cancel, Nat.add_mul_mod_self_right, Nat.mod_eq_of_lt (by omega)]
  omega

section Marks

variable (kind : config.kind = .slidingWindow slidingWindow)
  (multiple : config.schedulerBlockSize % config.kvCacheSpec.blockSize = 0)
include kind multiple

/-- A saturated mask marks every block, another one what its condition says. -/
theorem marked_of_mask
    (marks :
      ∀ mask, config.slidingWindowMask slidingWindow index (index + 1) retention
        reachableBoundaries = some mask → mask = [true]) :
    config.Marked retention reachableBoundaries index := by
  refine ⟨index, index + 1, config.slidingWindowMask slidingWindow index (index + 1) retention
      reachableBoundaries, le_rfl, Nat.lt_succ_self _, ?_, ?_⟩
  · unfold reachableBlockMask
    rw [kind]
    exact bind_ok.mpr ⟨(), ensure_of multiple _, rfl⟩
  · intro mask isMask
    rw [marks mask isMask, Nat.sub_self]
    rfl

section Tails

variable {numBlocks : Nat} (before : index < numBlocks + if config.useEagle then 1 else 0) (near :
  numBlocks + (if config.useEagle then 1 else 0) ≤
    index + contiguousBlocksForHit slidingWindow config.kvCacheSpec.blockSize config.useEagle)
include before near

/-- Under dense caching the tail of every aligned length is marked. -/
theorem marked_of_aligned (aligned : length % config.schedulerBlockSize = 0) (pos : 0 < length)
    (ends : numBlocks = length / config.kvCacheSpec.blockSize) :
    config.Marked none reachableBoundaries index := by
  refine marked_of_mask kind multiple fun mask isMask => ?_
  obtain ⟨segments, rfl⟩ := Nat.dvd_of_mod_eq_zero aligned
  rw [mul_comm, Nat.mul_div_assoc _ (Nat.dvd_of_mod_eq_zero multiple)] at ends
  rw [ends] at before near
  unfold slidingWindowMask at isMask
  dsimp only [segmentTokens, Option.map_some, Option.any_some] at isMask
  split at isMask
  · cases isMask
  rename_i unsaturated
  cases isMask
  rw [decide_eq_true_eq, not_le] at unsaturated
  have inTail := tail_of_segment unsaturated (Nat.pos_of_mul_pos_left pos) before near
  simpa using inTail

/-- Under retention the tail of a reachable boundary is marked. -/
theorem marked_of_boundary {boundary interval : Nat}
    (isBoundary : (boundary : Int) ∈ reachableBoundaries)
    (ends :
      numBlocks = boundary / config.schedulerBlockSize * config.schedulerBlockSize /
        config.kvCacheSpec.blockSize) :
    config.Marked (some interval) reachableBoundaries index := by
  refine marked_of_mask kind multiple fun mask isMask => ?_
  unfold slidingWindowMask at isMask
  dsimp only at isMask
  split at isMask
  · cases isMask
  · cases isMask
    have ends' : ((boundary : Int) / config.schedulerBlockSize * config.schedulerBlockSize /
        config.kvCacheSpec.blockSize) = numBlocks := by
      rw [ends]
      rfl
    rw [Nat.add_sub_cancel_left, range'_one, map_cons]
    congr 1
    rw [Bool.or_eq_true, Option.isSome_some, Bool.true_and, List.any_eq_true]
    refine .inr ⟨boundary, isBoundary, ?_⟩
    rw [Bool.and_eq_true, decide_eq_true_eq, decide_eq_true_eq]
    omega

end Tails

end Marks

/-! ## The hit of two caches -/

/-- A pool whose blocks a group can search up to a length. -/
structure Searches (config : ManagerConfig) (pool : BlockPool BlockHash) (groupIds : List Nat)
    (blockHashes viewed : List BlockHash) (maxLength : Nat) : Prop where
  aligned : AlignedFor pool config.kvCacheSpec.blockSize config.schedulerBlockSize
  present : groupIds ≠ []
  hashed : maxLength / pool.config.hasher.hashBlockSize ≤ blockHashes.length
  resolved :
    resolveBlockHashes blockHashes pool.config.hasher.hashBlockSize
      config.kvCacheSpec.blockSize false (some config.schedulerBlockSize) = .ok viewed

/-- The search of a group returns a hit of this length. -/
def Finds (config : ManagerConfig) (pool : BlockPool BlockHash) (groupIds : List Nat)
    (blockHashes : List BlockHash) (slidingWindow maxLength hitLength : Nat) : Prop :=
  ∃ computed, findLongestCacheHit pool blockHashes maxLength groupIds slidingWindow
      config.kvCacheSpec.blockSize config.useEagle config.schedulerBlockSize =
      .ok (computed, hitLength)

section Hits

variable {pool sparse : BlockPool BlockHash} {groupIds : List Nat}
  {blockHashes viewed : List BlockHash}

variable (multiple : config.schedulerBlockSize % config.kvCacheSpec.blockSize = 0)
  (needs : 2 ≤ slidingWindow ∨ config.useEagle = true)
include multiple needs

/-- Two pools give the same hit if usable lengths of each are reached in the other. -/
theorem finds_same (searches : config.Searches pool ids hashes viewed maxLength)
    (sparsely : config.Searches sparse ids hashes viewed maxLength)
    (later :
      (config.windowSearch slidingWindow maxLength).Reached (Cached pool ids viewed)
        (Cached sparse ids viewed))
    (earlier :
      (config.windowSearch slidingWindow maxLength).Reached (Cached sparse ids viewed)
        (Cached pool ids viewed)) :
    ∃ hit, config.Finds pool ids hashes slidingWindow maxLength hit ∧
        config.Finds sparse ids hashes slidingWindow maxLength hit := by
  have pos := config.kvCacheSpec.blockSize_pos
  have needed : 0 < (config.windowSearch slidingWindow maxLength).windowBlocks +
      (config.windowSearch slidingWindow maxLength).eagleBlocks := by
    rcases needs with windowed | eagle
    · exact Nat.add_pos_left ((lt_cdiv_iff pos).mpr (by simp [windowSearch]; omega)) _
    · exact Nat.add_pos_right _ (by simp [WindowSearch.eagleBlocks, windowSearch, eagle])
  obtain ⟨computed, _, stop, found, ended⟩ :=
    findLongestCacheHit_endsAt searches.aligned multiple needed searches.present
      searches.hashed searches.resolved
  obtain ⟨computed', _, stop', found', ended'⟩ :=
    findLongestCacheHit_endsAt sparsely.aligned multiple needed sparsely.present
      sparsely.hashed sparsely.resolved
  refine ⟨_, ⟨computed, found⟩, computed', ?_⟩
  rw [ended.settledCount_same pos ended' later earlier]
  exact found'

end Hits

/-! ## One block per token -/

/-- A group with blocks of one token, where hits end anywhere. -/
def oneTokenGroup (earlierTokens : Nat) (useEagle : Bool) : ManagerConfig where
  kvCacheSpec := ⟨.slidingWindow (earlierTokens + 1), 1, Nat.one_pos, 0⟩
  blockSize := 1
  blockSize_pos := Nat.one_pos
  blockSize_mamba := nofun
  window_pos := by rintro _ ⟨⟩; exact Nat.succ_pos _
  enableCaching := true
  kvCacheGroupId := 0
  schedulerBlockSize := 1
  useEagle
  recordNewBlockIds := false
  maxAdmissionBlocksPerRequest := none

/-- Three blocks of a request, cached under a mask. -/
def cachedThree (blockMask : Option (List Bool)) : Outcome (BlockPool SymbolicHash) :=
  BlockPool.run (fun pool op => op.Balanced pool ∧ op.Sane pool) oneTokenPoolConfig
    [.getNewBlocks 3, .cacheFullBlocks threeBlockRequest [1, 2, 3] 0 3 1 0 blockMask]

theorem cachedThree_searches (short : maxLength ≤ 3) :
    ∃ pool, cachedThree none = .ok pool ∧
      (oneTokenGroup 1 false).Searches pool [0] threeBlockRequest.blockHashes
        threeBlockRequest.blockHashes maxLength ∧
      ∀ index, index < 3 → Cached pool [0] threeBlockRequest.blockHashes index := by
  obtain ⟨pool, cached, facts⟩ := exists_of_satisfies (show satisfies (cachedThree none)
      (fun pool =>
        pool.config.hasher.hashBlockSize == 1 && (range 3).all fun index =>
            decide (Cached pool [0] threeBlockRequest.blockHashes index)) = true by decide)
  simp only [Bool.and_eq_true, beq_iff_eq, all_eq_true, mem_range, decide_eq_true_eq] at facts
  refine ⟨pool, cached, ⟨⟨one_pos, one_pos, ?_, .inl rfl⟩, cons_ne_nil _ _, ?_, ?_⟩, facts.2⟩
  · rw [facts.1]
    exact Nat.mod_one _
  · rw [facts.1, Nat.div_one]
    exact short
  · exact if_pos facts.1.symm

theorem finds_of_satisfies {config : ManagerConfig} {blockMask : Option (List Bool)}
    {slidingWindow maxLength hit : Nat}
    (checked :
      satisfies (cachedThree blockMask) (fun pool =>
        satisfies
          (findLongestCacheHit pool threeBlockRequest.blockHashes maxLength [0]
            slidingWindow config.kvCacheSpec.blockSize config.useEagle
            config.schedulerBlockSize)
          (fun found => found.2 == hit)) = true) :
    ∃ pool, cachedThree blockMask = .ok pool ∧
        config.Finds pool [0] threeBlockRequest.blockHashes slidingWindow maxLength
          hit := by
  obtain ⟨pool, cached, searched⟩ := exists_of_satisfies checked
  obtain ⟨⟨computed, _⟩, found, same⟩ := exists_of_satisfies searched
  cases beq_iff_eq.mp same
  exact ⟨pool, cached, computed, found⟩

end ManagerConfig

end VllmCore
