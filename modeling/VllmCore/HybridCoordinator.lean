import VllmCore.CacheHitContract

namespace VllmCore

open Lib List

/-!
# The hybrid search for a common cached prefix

A model with several kinds of layers can reuse a prefix only as far as every
kind can.  The coordinator lets each attention group shorten the candidate length
in turn and repeats until no group shortens it any more.
-/

/-- The block size a group's manager works with; Mamba states are not sharded. -/
def KVCacheSpec.managerBlockSize (spec : KVCacheSpec) (dcpWorldSize : Nat) : Nat :=
  if spec.kind.isMamba then spec.blockSize else spec.blockSize * dcpWorldSize

/-- Cache groups of one spec, looked up together. -/
structure SpecGroup where
  spec : KVCacheSpec
  groupIds : List Nat
  useEagle : Bool
  deriving Repr, DecidableEq

/-- Add a cache group to the attention group of its spec. -/
def addToGroups (spec : KVCacheSpec) (groupId : Nat) (useEagle : Bool) :
    List SpecGroup → List SpecGroup
  | [] => [⟨spec, [groupId], useEagle⟩]
  | group :: rest =>
    if group.spec = spec then
      { group with
        groupIds := group.groupIds ++ [groupId]
        useEagle := group.useEagle || useEagle } :: rest
    else
      group :: addToGroups spec groupId useEagle rest

/-- Group the cache groups by spec, in the order of their first member. -/
def groupBySpec (kvCacheGroups : List KVCacheSpec) (eagleGroupIds : List Nat) : List SpecGroup :=
  kvCacheGroups.zipIdx.foldl
    (fun groups entry =>
      addToGroups entry.1 entry.2 (eagleGroupIds.contains entry.2) groups)
    []

/-- The attention groups; the sort by kind is stable and puts full attention first. -/
def verifyAndSplitKvCacheGroups (kvCacheGroups : List KVCacheSpec) (eagleGroupIds : List Nat) :
    List SpecGroup :=
  let groups := groupBySpec kvCacheGroups eagleGroupIds
  groups.filter (fun group => group.spec.kind.isFullAttention) ++
    groups.filter fun group => !group.spec.kind.isFullAttention

/--
A hybrid coordinator.

The fields after the data are the constructor's assertions, except that the
scheduler block size is handed in as the least common multiple of the block sizes.
-/
structure HybridKVCacheCoordinator (BlockHash : Type) where
  poolConfig : PoolConfig BlockHash
  kvCacheGroups : List KVCacheSpec
  eagleGroupIds : List Nat
  dcpWorldSize : Nat
  schedulerBlockSize : Nat
  dcpWorldSize_pos : 0 < dcpWorldSize
  schedulerBlockSize_pos : 0 < schedulerBlockSize
  hash_divides :
    ∀ spec ∈ kvCacheGroups, spec.managerBlockSize dcpWorldSize % poolConfig.hasher.hashBlockSize = 0
  scheduler_multiple :
    ∀ spec ∈ kvCacheGroups, schedulerBlockSize % spec.managerBlockSize dcpWorldSize = 0
  context_parallel :
    1 < dcpWorldSize → ∀ spec ∈ kvCacheGroups, spec.kind.isFullAttention || spec.kind.isMamba
  several : 1 < (verifyAndSplitKvCacheGroups kvCacheGroups eagleGroupIds).length

/-- What the search knows: candidate, lengths and blocks found so far. -/
structure HybridSearch where
  currHitLength : Nat
  longestHitLength : Nat
  hitBlocksByGroup : Nat → Option (List BlockId)
  hitLengthByGroup : Nat → Nat
  eagleVerified : List Nat

/-- The blocks of every cache group, the hit and the uncached common prefix. -/
structure HybridHit where
  blocks : List (List BlockId)
  hitLength : Nat
  numUncachedCommonPrefixTokens : Int
  deriving Repr, DecidableEq

namespace HybridKVCacheCoordinator

variable {BlockHash : Type}

variable (coordinator : HybridKVCacheCoordinator BlockHash)

def attentionGroups : List SpecGroup :=
  verifyAndSplitKvCacheGroups coordinator.kvCacheGroups coordinator.eagleGroupIds

def hashBlockSize : Nat :=
  coordinator.poolConfig.hasher.hashBlockSize

def groupBlockSize (group : SpecGroup) : Nat :=
  group.spec.managerBlockSize coordinator.dcpWorldSize

/-- Hits may end inside a block when an aligned Mamba state does. -/
def enablePartialHashHits : Bool :=
  coordinator.dcpWorldSize == 1 &&
    coordinator.kvCacheGroups.any fun spec =>
      match spec.kind with
      | .mamba .align _ => coordinator.hashBlockSize < spec.blockSize
      | _ => false

def cacheHitAlignmentTokens : Nat :=
  if coordinator.enablePartialHashHits then
    coordinator.hashBlockSize
  else
    coordinator.schedulerBlockSize

def isSimpleHybrid : Bool :=
  coordinator.attentionGroups.length == 2 &&
    coordinator.attentionGroups.head?.any fun group =>
      group.spec.kind.isFullAttention

/-- What an EAGLE lookup matches beyond the candidate, to drop it again. -/
def eagleMargin (group : SpecGroup) : Nat :=
  if coordinator.enablePartialHashHits &&
      group.spec.kind.supportsFineGrainedHashLookup &&
      coordinator.hashBlockSize < coordinator.groupBlockSize group then
    coordinator.hashBlockSize
  else
    coordinator.groupBlockSize group

/-- Store one list for each cache group of an attention group. -/
def storeBlocks (groupIds : List Nat) (hitBlocks : ComputedBlocks)
    (hitBlocksByGroup : Nat → Option (List BlockId)) : Nat → Option (List BlockId) :=
  (groupIds.zip hitBlocks).foldl
    (fun stored entry => Function.update stored entry.1 (some entry.2))
    hitBlocksByGroup

/-- Record the result of a lookup. -/
def record (search : HybridSearch) (idx : Nat) (group : SpecGroup) (dropEagleBlock : Bool)
    (hitBlocks : ComputedBlocks) (newHitLength : Nat) : HybridSearch :=
  { currHitLength := newHitLength
    longestHitLength := max search.longestHitLength newHitLength
    hitBlocksByGroup :=
      storeBlocks group.groupIds hitBlocks search.hitBlocksByGroup
    hitLengthByGroup := fun groupId =>
      if groupId ∈ group.groupIds then newHitLength
      else search.hitLengthByGroup groupId
    eagleVerified :=
      if dropEagleBlock then
        idx :: search.eagleVerified
      else if newHitLength < search.currHitLength then
        []
      else
        search.eagleVerified }

variable (pool : BlockPool BlockHash)

/-- Let one attention group shorten the candidate. -/
def lookupGroup (blockHashes : List BlockHash) (maxCacheHitLength : Nat) (search : HybridSearch)
    (entry : SpecGroup × Nat) : Outcome HybridSearch :=
  let (group, idx) := entry
  let firstGroupId := group.groupIds.headD 0
  if group.spec.kind.isFullAttention &&
      (search.hitBlocksByGroup firstGroupId).isSome then
    .ok
      { search with
        currHitLength :=
          min search.currHitLength (search.hitLengthByGroup firstGroupId) }
  else do
    let dropEagleBlock := group.useEagle && !search.eagleVerified.contains idx
    let maxLength :=
      if dropEagleBlock && !group.spec.kind.isMamba then
        min (search.currHitLength + coordinator.eagleMargin group) maxCacheHitLength
      else
        search.currHitLength
    let (hitBlocks, newHitLength) ←
      group.spec.kind.findLongestCacheHit pool blockHashes maxLength group.groupIds
        (coordinator.groupBlockSize group) dropEagleBlock
        coordinator.cacheHitAlignmentTokens
    .ok (record search idx group dropEagleBlock hitBlocks newHitLength)

/-- One round over all attention groups. -/
def lookupRound (blockHashes : List BlockHash) (maxCacheHitLength hitLength : Nat)
    (search : HybridSearch) : Outcome HybridSearch :=
  coordinator.attentionGroups.zipIdx.foldlM
    (coordinator.lookupGroup pool blockHashes maxCacheHitLength)
    { search with currHitLength := hitLength }

/-- Rounds until the candidate stays.  Every further round has a shorter one. -/
def searchLoop (coordinator : HybridKVCacheCoordinator BlockHash) (pool : BlockPool BlockHash)
    (blockHashes : List BlockHash) (maxCacheHitLength : Nat) :
    Nat → Nat → HybridSearch → Outcome (Nat × HybridSearch)
  | 0, _, _ => .error (.runtime "search rounds exhausted")
  | rounds + 1, hitLength, search => do
      let after ←
        coordinator.lookupRound pool blockHashes maxCacheHitLength hitLength search
      if hitLength ≤ after.currHitLength then
        .ok (hitLength, after)
      else if coordinator.isSimpleHybrid then
        .ok (after.currHitLength, after)
      else
        searchLoop coordinator pool blockHashes maxCacheHitLength rounds
          after.currHitLength after

/-- Truncate the blocks of the first attention group if it has full attention. -/
def truncateFirstGroup (hitLength : Nat) (hitBlocksByGroup : Nat → Option (List BlockId)) :
    Nat → Option (List BlockId) :=
  match coordinator.attentionGroups with
  | [] => hitBlocksByGroup
  | first :: _ =>
    if first.spec.kind.isFullAttention then
      fun groupId =>
        if groupId ∈ first.groupIds then
          (hitBlocksByGroup groupId).map fun blocks =>
            blocks.take (cdiv hitLength (coordinator.groupBlockSize first))
        else
          hitBlocksByGroup groupId
    else
      hitBlocksByGroup

def startSearch : HybridSearch where
  currHitLength := 0
  longestHitLength := 0
  hitBlocksByGroup := fun _ => none
  hitLengthByGroup := fun _ => 0
  eagleVerified := []

def findLongestCacheHit (blockHashes : List BlockHash) (maxCacheHitLength : Nat) :
    Outcome HybridHit := do
  let (hitLength, search) ←
    coordinator.searchLoop pool blockHashes maxCacheHitLength (maxCacheHitLength + 1)
      maxCacheHitLength startSearch
  let hitBlocksByGroup :=
    coordinator.truncateFirstGroup hitLength search.hitBlocksByGroup
  .ok
    { blocks :=
        (List.range coordinator.kvCacheGroups.length).map fun groupId =>
          (hitBlocksByGroup groupId).getD []
      hitLength
      numUncachedCommonPrefixTokens := (search.longestHitLength : Int) - hitLength }

end HybridKVCacheCoordinator

/-! ## The attention groups -/

/-- The members of an attention group have its spec, and there is one. -/
structure SpecGroup.Of (kvCacheGroups : List KVCacheSpec) (group : SpecGroup) : Prop where
  nonempty : group.groupIds ≠ []
  members : ∀ groupId ∈ group.groupIds, kvCacheGroups[groupId]? = some group.spec

variable {kvCacheGroups : List KVCacheSpec} {groups : List SpecGroup} {spec : KVCacheSpec}
  {useEagle : Bool} {groupId : Nat}

theorem addToGroups_perm :
    ((addToGroups spec groupId useEagle groups).flatMap SpecGroup.groupIds).Perm
      (groupId :: groups.flatMap SpecGroup.groupIds) := by
  induction groups with
  | nil => exact .refl _
  | cons group rest ih =>
    unfold addToGroups
    split
    · simp only [flatMap_cons, append_assoc, singleton_append]
      exact perm_middle
    · exact (ih.append_left _).trans perm_middle

theorem addToGroups_of (present : kvCacheGroups[groupId]? = some spec)
    (holds : ∀ group ∈ groups, group.Of kvCacheGroups) :
    ∀ group ∈ addToGroups spec groupId useEagle groups, group.Of kvCacheGroups := by
  induction groups with
  | nil =>
    intro group mem
    rw [addToGroups, mem_singleton] at mem
    subst mem
    refine ⟨cons_ne_nil _ _, ?_⟩
    intro memberId listed
    rw [mem_singleton.mp listed]
    exact present
  | cons first rest ih =>
    intro group mem
    have firstHolds := holds first mem_cons_self
    have restHolds : ∀ group ∈ rest, group.Of kvCacheGroups :=
      fun group inside => holds group (mem_cons_of_mem _ inside)
    unfold addToGroups at mem
    split at mem
    · rename_i same
      rcases mem_cons.mp mem with here | further
      · subst here
        refine ⟨by simp, ?_⟩
        intro memberId listed
        rcases mem_append.mp listed with before | added
        · exact firstHolds.members memberId before
        · rw [mem_singleton.mp added, present, same]
      · exact restHolds group further
    · rcases mem_cons.mp mem with here | further
      · subst here
        exact firstHolds
      · exact ih restHolds group further

/-- Grouping loses and duplicates no cache group. -/
theorem foldl_addToGroups (kvCacheGroups : List KVCacheSpec) (eagleGroupIds : List Nat)
    (entries : List (KVCacheSpec × Nat)) (groups : List SpecGroup)
    (present : ∀ entry ∈ entries, kvCacheGroups[entry.2]? = some entry.1)
    (holds : ∀ group ∈ groups, group.Of kvCacheGroups) :
    let grouped :=
      entries.foldl (fun groups entry =>
          addToGroups entry.1 entry.2 (eagleGroupIds.contains entry.2) groups)
        groups
    (grouped.flatMap SpecGroup.groupIds).Perm
        (entries.map Prod.snd ++ groups.flatMap SpecGroup.groupIds) ∧
      ∀ group ∈ grouped, group.Of kvCacheGroups := by
  induction entries generalizing groups with
  | nil => exact ⟨.refl _, holds⟩
  | cons entry rest ih =>
    obtain ⟨perm, ofSpecs⟩ :=
      ih (addToGroups entry.1 entry.2 (eagleGroupIds.contains entry.2) groups)
        (fun other mem => present other (mem_cons_of_mem _ mem))
        (addToGroups_of (present entry mem_cons_self) holds)
    refine ⟨?_, ofSpecs⟩
    refine perm.trans ?_
    refine (List.Perm.append_left _ addToGroups_perm).trans ?_
    exact perm_middle

theorem groupBySpec_perm :
    ((groupBySpec kvCacheGroups eagleGroupIds).flatMap SpecGroup.groupIds).Perm
        (List.range kvCacheGroups.length) ∧
      ∀ group ∈ groupBySpec kvCacheGroups eagleGroupIds, group.Of kvCacheGroups := by
  have grouped :=
    foldl_addToGroups kvCacheGroups eagleGroupIds kvCacheGroups.zipIdx [] (by
        intro entry mem
        exact mk_mem_zipIdx_iff_getElem?.mp mem)
      (fun group absent => absurd absent not_mem_nil)
  simpa [groupBySpec, range_eq_range'] using grouped

namespace HybridKVCacheCoordinator

variable {BlockHash : Type}

section

variable (coordinator : HybridKVCacheCoordinator BlockHash)

/-- Every cache group is in exactly one attention group, which has its spec. -/
theorem attentionGroups_perm :
    (coordinator.attentionGroups.flatMap SpecGroup.groupIds).Perm
        (List.range coordinator.kvCacheGroups.length) ∧
      ∀ group ∈ coordinator.attentionGroups, group.Of coordinator.kvCacheGroups := by
  obtain ⟨perm, ofSpecs⟩ :=
    groupBySpec_perm
  have sorted : coordinator.attentionGroups.Perm
      (groupBySpec coordinator.kvCacheGroups coordinator.eagleGroupIds) :=
    filter_append_perm _ _
  refine ⟨(sorted.flatMap_right _).trans perm, ?_⟩
  intro group mem
  exact ofSpecs group (sorted.mem_iff.mp mem)

theorem pairwise_disjoint :
    coordinator.attentionGroups.Pairwise fun first second =>
      List.Disjoint first.groupIds second.groupIds := by
  have nodup : (coordinator.attentionGroups.flatMap SpecGroup.groupIds).Nodup :=
    coordinator.attentionGroups_perm.1.nodup_iff.mpr nodup_range
  exact (nodup_flatMap.mp nodup).2

end

variable {coordinator : HybridKVCacheCoordinator BlockHash}

/-- Different attention groups have no cache group in common. -/
theorem disjoint_of_ne
    (firstMember : first ∈ coordinator.attentionGroups)
    (secondMember : second ∈ coordinator.attentionGroups) (different : first ≠ second) :
    List.Disjoint first.groupIds second.groupIds := by
  have symmetric : Std.Symm fun first second : SpecGroup =>
      List.Disjoint first.groupIds second.groupIds :=
    ⟨fun _ _ apart => apart.symm⟩
  exact coordinator.pairwise_disjoint.forall firstMember secondMember different

theorem exists_attentionGroup
    (inside : groupId < coordinator.kvCacheGroups.length) :
    ∃ group ∈ coordinator.attentionGroups, groupId ∈ group.groupIds := by
  have mem : groupId ∈ coordinator.attentionGroups.flatMap SpecGroup.groupIds :=
    coordinator.attentionGroups_perm.1.mem_iff.mpr (mem_range.mpr inside)
  exact mem_flatMap.mp mem

theorem managerBlockSize_pos
    (coordinator : HybridKVCacheCoordinator BlockHash) (spec : KVCacheSpec) :
    0 < spec.managerBlockSize coordinator.dcpWorldSize := by
  unfold KVCacheSpec.managerBlockSize
  split
  · exact spec.blockSize_pos
  · exact Nat.mul_pos spec.blockSize_pos coordinator.dcpWorldSize_pos

variable {group : SpecGroup}

theorem spec_mem (mem : group ∈ coordinator.attentionGroups) :
    group.spec ∈ coordinator.kvCacheGroups := by
  have ofSpecs := coordinator.attentionGroups_perm.2 group mem
  obtain ⟨groupId, listed⟩ := exists_mem_of_ne_nil _ ofSpecs.nonempty
  exact mem_of_getElem? (ofSpecs.members groupId listed)

/-- The alignment the coordinator asks for suits every group. -/
theorem alignedFor {pool : BlockPool BlockHash}
    (configured : pool.config.hasher.hashBlockSize = coordinator.hashBlockSize)
    (mem : group ∈ coordinator.attentionGroups) :
    AlignedFor pool (coordinator.groupBlockSize group)
      coordinator.cacheHitAlignmentTokens := by
  have listed := spec_mem mem
  refine ⟨coordinator.managerBlockSize_pos group.spec, ?_, ?_, ?_⟩
  · unfold cacheHitAlignmentTokens
    split
    · exact coordinator.poolConfig.hasher.hashBlockSize_pos
    · exact coordinator.schedulerBlockSize_pos
  · rw [configured]
    exact coordinator.hash_divides group.spec listed
  · unfold cacheHitAlignmentTokens
    split
    · rw [configured]
      exact .inr rfl
    · exact .inl (coordinator.scheduler_multiple group.spec listed)

end HybridKVCacheCoordinator

end VllmCore
