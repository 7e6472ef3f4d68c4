import VllmCore.CacheHitReturns
import VllmCore.HybridCacheHit

namespace VllmCore

open Lib List BlockPool

/-!
# Soundness of the hybrid search

A returned hit is sound when it is bounded and aligned and every group's list has
the right length, holds cached blocks only and covers what the group reads.  This
holds for every pool content exactly when no full-attention group other than the
first can keep the longer result of an earlier round.
-/

/-- A group's list fits the hit and serves the group's attention. -/
structure GroupHit {BlockHash : Type} (pool : BlockPool BlockHash) (blockHashes : List BlockHash)
    (kind : SpecKind) (blockSize hitLength groupId : Nat) (blocks : List BlockId) : Prop where
  length_eq : blocks.length = cdiv hitLength blockSize
  cached :
    ∀ position block, blocks[position]? = some block → block ≠ pool.nullBlock →
      CachedAt pool blockHashes blockSize hitLength groupId position block
  covers :
    ∀ position, kind.Needs hitLength position →
      ∃ block, blocks[position / blockSize]? = some block ∧ block ≠ pool.nullBlock

section Shape

variable {BlockHash : Type} {pool : BlockPool BlockHash} {free : List BlockId}
  {hashes : List BlockHash}

theorem CachedAt.ne_nullBlock
    (coherent : pool.Coherent free)
    (cached : CachedAt pool hashes size hitLength groupId pos block) :
    block ≠ pool.nullBlock := by
  obtain ⟨_, ⟨_, hash, _, _, listed⟩, _⟩ := cached
  intro same
  have isNull := (coherent.null_iff block).mpr same
  exact coherent.cache.null_keyless _ block isNull ((coherent.cache.listed_iff _ block).mp listed)

theorem Tail.groupHit
    {blocks : List BlockId}
    (coherent : pool.Coherent free) (pos : 0 < size)
    (tail : Tail pool hashes size start hitLength groupId blocks)
    (covered : ∀ position, kind.Needs hitLength position → start ≤ position / size) :
    GroupHit pool hashes kind size hitLength groupId blocks where
  length_eq := tail.length_eq
  cached := by
    intro position block present notNull
    rcases lt_or_ge position start with before | behind
    · exact absurd (tail.null_before position block before present) notNull
    · exact tail.cached position block behind present
  covers := by
    intro position needs
    have inside : position / size < blocks.length := by
      rw [tail.length_eq]
      exact div_lt_cdiv pos needs.1
    have present := getElem?_eq_getElem inside
    exact ⟨_, present,
      CachedAt.ne_nullBlock coherent (tail.cached _ _ (covered position needs) present)⟩

end Shape

namespace HybridKVCacheCoordinator

variable {BlockHash : Type}

/-- What a caller of the search relies on. -/
structure SoundHit (coordinator : HybridKVCacheCoordinator BlockHash) (pool : BlockPool BlockHash)
    (blockHashes : List BlockHash) (maxCacheHitLength : Nat) (hit : HybridHit) : Prop where
  bounded : hit.hitLength ≤ maxCacheHitLength
  multiple : hit.hitLength % coordinator.cacheHitAlignmentTokens = 0
  groups :
    ∀ groupId spec, coordinator.kvCacheGroups[groupId]? = some spec → ∃ blocks,
      hit.blocks[groupId]? = some blocks ∧ GroupHit pool blockHashes spec.kind
        (spec.managerBlockSize coordinator.dcpWorldSize) hit.hitLength groupId
        blocks

/-- The finders of all groups accept the configuration. -/
def Supported (coordinator : HybridKVCacheCoordinator BlockHash) : Prop :=
  ∀ spec ∈ coordinator.kvCacheGroups,
    spec.kind.Supported (spec.managerBlockSize coordinator.dcpWorldSize)
      coordinator.cacheHitAlignmentTokens

/-- The attention groups with full attention. -/
def fullAttentionGroups (coordinator : HybridKVCacheCoordinator BlockHash) : List SpecGroup :=
  coordinator.attentionGroups.filter fun group => group.spec.kind.isFullAttention

section Sound

variable {hybrid : HybridKVCacheCoordinator BlockHash}
  {pool : BlockPool BlockHash} {free : List BlockId} {hashes : List BlockHash} {maxHit : Nat}
  {group : SpecGroup} {search : HybridSearch}

variable {hitLength groupId : Nat} {rest : List SpecGroup} {first : SpecGroup}

section

variable (looked : hybrid.Looked pool hashes search group hitLength)
include looked

theorem Looked.tail (mem : groupId ∈ group.groupIds) :
    ∃ blocks start, search.hitBlocksByGroup groupId = some blocks ∧
      Tail pool hashes (hybrid.groupBlockSize group) start hitLength
        groupId blocks ∧
      ∀ pos, group.spec.kind.Needs hitLength pos → start ≤ pos / hybrid.groupBlockSize group := by
  obtain ⟨_, ⟨computed, ⟨start, tails, covered⟩, stored⟩, _⟩ := looked
  obtain ⟨index, rfl⟩ := mem_iff_get.mp mem
  obtain ⟨sameLength, storedAt⟩ := forall₂_iff_get.mp stored
  obtain ⟨_, tailAt⟩ := forall₂_iff_get.mp tails
  have inside : index.val < computed.length := sameLength ▸ index.isLt
  exact ⟨computed.get ⟨index, inside⟩, start, storedAt index index.isLt inside,
    tailAt index index.isLt inside, covered⟩

theorem Looked.not_fresh (mem : group ∈ hybrid.attentionGroups)
    (full : group.spec.kind.isFullAttention = true) : ¬ Fresh search group := by
  obtain ⟨blocks, _, present, _⟩ := looked.tail (headD_mem mem)
  intro fresh
  rw [Fresh, full, present] at fresh
  cases fresh

end

/-- Sorting puts the groups with full attention first. -/
theorem attentionGroups_eq (hybrid : HybridKVCacheCoordinator BlockHash) :
    hybrid.attentionGroups = hybrid.fullAttentionGroups ++
      hybrid.attentionGroups.filter fun group =>
        !group.spec.kind.isFullAttention := by
  simp only [fullAttentionGroups, attentionGroups, verifyAndSplitKvCacheGroups,
    filter_append, filter_filter]
  simp

section

variable (shape : hybrid.attentionGroups = first :: rest)
include shape

/-- A second group with full attention comes behind a first one. -/
theorem first_isFullAttention (mem : group ∈ rest)
    (full : group.spec.kind.isFullAttention = true) :
    first.spec.kind.isFullAttention = true ∧ 2 ≤ hybrid.fullAttentionGroups.length := by
  have sorted := hybrid.attentionGroups_eq
  have firstFull : first.spec.kind.isFullAttention = true := by
    cases listed : hybrid.fullAttentionGroups with
    | nil =>
      have inFull : group ∈ hybrid.fullAttentionGroups := by
        rw [fullAttentionGroups, mem_filter, shape]
        exact ⟨mem_cons_of_mem _ mem, full⟩
      rw [listed] at inFull
      cases inFull
    | cons head others =>
      rw [listed, shape] at sorted
      have isHead : first = head := (cons.inj sorted).1
      have inFull : head ∈ hybrid.fullAttentionGroups := by
        rw [listed]
        exact mem_cons_self
      rw [isHead]
      exact (mem_filter.mp inFull).2
  refine ⟨firstFull, ?_⟩
  rw [fullAttentionGroups, shape]
  simp only [filter_cons, firstFull, if_true, length_cons]
  apply Nat.succ_le_succ
  exact length_pos_of_mem (mem_filter.mpr ⟨mem, full⟩)

variable {stored : Nat → Option (List BlockId)}

/-- The result of a group whose stored length is the hit is returned as it is. -/
theorem truncate_of_not_mem
    (other : groupId ∉ first.groupIds ∨ first.spec.kind.isFullAttention = false) :
    hybrid.truncateFirstGroup hitLength stored groupId = stored groupId := by
  unfold truncateFirstGroup
  rw [shape]
  rcases other with absent | notFull
  · simp only
    split
    · exact if_neg absent
    · rfl
  · simp [notFull]

theorem truncateFirstGroup_of_mem (full : first.spec.kind.isFullAttention = true)
    (mem : groupId ∈ first.groupIds) :
    hybrid.truncateFirstGroup hitLength stored groupId = (stored groupId).map fun blocks =>
      blocks.take (cdiv hitLength (hybrid.groupBlockSize first)) := by
  unfold truncateFirstGroup
  rw [shape]
  simp [full, mem]

end

/-- Full attention needs no more of a shorter prefix. -/
theorem needs_of_le {kind : SpecKind}
    (full : kind.isFullAttention = true) (below : shorter ≤ longer)
    (needs : kind.Needs shorter pos) : kind.Needs longer pos := by
  cases kind with
  | fullAttention => exact ⟨lt_of_lt_of_le needs.1 below, needs.2⟩
  | _ => cases full

theorem fresh_startSearch : Fresh startSearch group := by
  simp [Fresh, startSearch]

theorem supported_group (supported : hybrid.Supported)
    (mem : group ∈ hybrid.attentionGroups) :
    group.spec.kind.Supported (hybrid.groupBlockSize group)
      hybrid.cacheHitAlignmentTokens :=
  supported group.spec (spec_mem mem)

theorem attentionGroups_shape (hybrid : HybridKVCacheCoordinator BlockHash) :
    ∃ first second rest, hybrid.attentionGroups = first :: second :: rest := by
  have several := hybrid.several
  change 1 < hybrid.attentionGroups.length at several
  cases shape : hybrid.attentionGroups with
  | nil =>
    rw [shape] at several
    cases several
  | cons first others =>
    cases others with
    | nil =>
      rw [shape] at several
      exact absurd several (lt_irrefl 1)
    | cons second rest => exact ⟨first, second, rest, rfl⟩

/-- The list returned for a cache group of an attention group. -/
theorem groupHit_truncated (coherent : pool.Coherent free)
    (few : hybrid.fullAttentionGroups.length ≤ 1 ∨ hybrid.attentionGroups.length = 2)
    (mem : group ∈ hybrid.attentionGroups) (listed : groupId ∈ group.groupIds)
    (looked : hybrid.Looked pool hashes search group hitLength)
    (below : finalLength ≤ hitLength)
    (exact :
      group.spec.kind.isFullAttention = false ∨ hybrid.isSimpleHybrid = true ∧
            hybrid.attentionGroups.getLast? = some group →
        hitLength = finalLength) :
    ∃ blocks, hybrid.truncateFirstGroup finalLength search.hitBlocksByGroup groupId = some blocks ∧
        GroupHit pool hashes group.spec.kind (hybrid.groupBlockSize group)
          finalLength groupId blocks := by
  obtain ⟨blocks, start, stored, tail, covered⟩ := looked.tail listed
  have pos := hybrid.managerBlockSize_pos group.spec
  obtain ⟨first, second, rest, shape⟩ := hybrid.attentionGroups_shape
  cases full : group.spec.kind.isFullAttention with
  | false =>
    -- The group was looked up in the last round, so its list needs no trimming.
    have same := exact (.inl full)
    subst same
    refine ⟨blocks, ?_, tail.groupHit coherent pos covered⟩
    rw [truncate_of_not_mem shape, stored]
    by_cases isFirst : group = first
    · exact .inr (isFirst ▸ full)
    have firstMember : first ∈ hybrid.attentionGroups := by
      rw [shape]
      exact mem_cons_self
    exact .inl fun again => disjoint_of_ne mem firstMember isFirst listed again
  | true =>
    rw [shape, mem_cons] at mem
    rcases mem with isFirst | inRest
    · subst isFirst
      refine ⟨blocks.take (cdiv finalLength (hybrid.groupBlockSize group)), ?_, ?_⟩
      · rw [truncateFirstGroup_of_mem shape full listed, stored]
        rfl
      · refine (tail.take below).groupHit coherent pos ?_
        intro position needs
        exact covered position (needs_of_le full below needs)
    · -- A later group with full attention occurs only in a simple hybrid.
      obtain ⟨firstFull, two⟩ := first_isFullAttention shape inRest full
      have lengthTwo : hybrid.attentionGroups.length = 2 := few.resolve_left (Nat.not_le.mpr two)
      have empty : rest = [] := by
        rw [shape] at lengthTwo
        simpa using lengthTwo
      subst empty
      rw [mem_singleton] at inRest
      subst inRest
      have simple : hybrid.isSimpleHybrid = true := by simp [isSimpleHybrid, shape, firstFull]
      have same := exact (.inr ⟨simple, by rw [shape]; rfl⟩)
      subst same
      refine ⟨blocks, ?_, tail.groupHit coherent pos covered⟩
      rw [truncate_of_not_mem shape, stored]
      left
      intro again
      have disjoint := hybrid.pairwise_disjoint
      rw [shape, pairwise_cons] at disjoint
      exact disjoint.1 group mem_cons_self again listed

/-- With one full-attention group, or two groups at all, every hit is sound. -/
theorem soundHit_of_few (supported : hybrid.Supported)
    (few : hybrid.fullAttentionGroups.length ≤ 1 ∨ hybrid.attentionGroups.length = 2)
    (sized : pool.config.hasher.hashBlockSize = hybrid.hashBlockSize)
    (coherent : pool.Coherent free)
    (found : hybrid.findLongestCacheHit pool hashes maxHit = .ok hit) :
    hybrid.SoundHit pool hashes maxHit hit := by
  obtain ⟨⟨finalLength, after⟩, searched, ran⟩ := bind_ok.mp found
  cases ran
  obtain ⟨bounded, times, results⟩ :=
    searchLoop_eq_ok sized (fun group mem => (supported_group supported mem).searchable)
      (.inl fun group _ => fresh_startSearch) searched
  refine ⟨bounded, times, ?_⟩
  intro groupId spec present
  obtain ⟨inside, _⟩ := List.getElem?_eq_some_iff.mp present
  obtain ⟨group, mem, listed⟩ := exists_attentionGroup inside
  have same : group.spec = spec := by
    have ofSpec := (hybrid.attentionGroups_perm.2 group mem).members groupId listed
    exact Option.some.inj (ofSpec.symm.trans present)
  obtain ⟨length, looked, below, exact⟩ := results group mem
  obtain ⟨blocks, stored, groupHit⟩ :=
    groupHit_truncated coherent few mem listed looked below exact
  refine ⟨blocks, ?_, same ▸ groupHit⟩
  simp only [getElem?_map, getElem?_range inside, Option.map_some, stored, Option.getD_some]

end Sound

/-! ## The search returns -/

section Returns

variable {hybrid : HybridKVCacheCoordinator BlockHash}
  {pool : BlockPool BlockHash} {hashes : List BlockHash}
  {maxHit hitLength : Nat} {search after : HybridSearch} {group : SpecGroup} {idx : Nat}

/-- A fresh lookup searches at least up to the candidate. -/
theorem lookupGroup_fresh (fresh : Fresh search group)
    (stepped : hybrid.lookupGroup pool hashes maxHit search (group, idx) = .ok after) :
    ∃ limit eagle hitBlocks, group.spec.kind.findLongestCacheHit pool hashes limit group.groupIds
          (hybrid.groupBlockSize group) eagle
          hybrid.cacheHitAlignmentTokens =
        .ok (hitBlocks, after.currHitLength) ∧
      (search.currHitLength ≤ maxHit → search.currHitLength ≤ limit ∧ limit ≤ maxHit) := by
  unfold lookupGroup at stepped
  simp only at stepped
  rw [if_neg (by rw [fresh]; exact Bool.false_ne_true)] at stepped
  obtain ⟨⟨hitBlocks, newHitLength⟩, found, recorded⟩ := bind_ok.mp stepped
  cases recorded
  refine ⟨_, _, hitBlocks, found, ?_⟩
  intro bounded
  split
  · exact ⟨Nat.le_min.mpr ⟨Nat.le_add_right _ _, bounded⟩, min_le_right _ _⟩
  · exact ⟨le_rfl, bounded⟩

theorem lookupGroup_shorter (sized : pool.config.hasher.hashBlockSize = hybrid.hashBlockSize)
    (supported : hybrid.Supported) (mem : group ∈ hybrid.attentionGroups)
    (stepped : hybrid.lookupGroup pool hashes maxHit search (group, idx) = .ok after) :
    after.currHitLength ≤ search.currHitLength := by
  rcases lookupGroup_cases sized mem (supported_group supported mem).searchable stepped with
    ⟨_, rfl⟩ | ⟨_, _, shorter, _⟩
  · exact min_le_left _ _
  · exact shorter

variable {entries : List (SpecGroup × Nat)}

section

variable (sized : pool.config.hasher.hashBlockSize = hybrid.hashBlockSize)
    (supported : hybrid.Supported)
include sized supported

theorem lookups_shorter (inside : ∀ entry ∈ entries, entry.1 ∈ hybrid.attentionGroups)
    (done : entries.foldlM (hybrid.lookupGroup pool hashes maxHit) search = .ok after) :
    after.currHitLength ≤ search.currHitLength := by
  refine foldlM_preserves
    (fun state => state.currHitLength ≤ search.currHitLength) ?_ le_rfl done
  intro state entry next listed below stepped
  exact le_trans (lookupGroup_shorter sized supported (inside entry listed) stepped) below

section

variable (hashed : maxHit / hybrid.hashBlockSize ≤ hashes.length)
include hashed

theorem lookupGroup_returns (mem : group ∈ hybrid.attentionGroups)
    (bounded : search.currHitLength ≤ maxHit) :
    ∃ after, hybrid.lookupGroup pool hashes maxHit search (group, idx) = .ok after := by
  unfold lookupGroup
  simp only
  split
  · exact ⟨_, rfl⟩
  refine exists_bind_ok ?_ fun result found => ⟨_, rfl⟩
  apply SpecKind.findLongestCacheHit_returns (supported_group supported mem) (alignedFor sized mem)
  rw [sized]
  apply le_trans (Nat.div_le_div_right _) hashed
  split
  · exact min_le_right _ _
  · exact bounded

theorem foldlM_lookupGroup_returns (inside : ∀ entry ∈ entries, entry.1 ∈ hybrid.attentionGroups)
    (bounded : search.currHitLength ≤ maxHit) :
    ∃ after, entries.foldlM (hybrid.lookupGroup pool hashes maxHit)
      search = .ok after := by
  induction entries generalizing search with
  | nil => exact ⟨search, rfl⟩
  | cons entry rest ih =>
    have mem := inside entry mem_cons_self
    refine exists_bind_ok (lookupGroup_returns sized supported hashed mem bounded) ?_
    intro between stepped
    refine ih ?_ ?_
    · exact fun other inRest => inside other (mem_cons_of_mem _ inRest)
    · exact le_trans (lookupGroup_shorter sized supported mem stepped) bounded

end

end

theorem mem_of_zipIdx
    (listed : entry ∈ hybrid.attentionGroups.zipIdx) : entry.1 ∈ hybrid.attentionGroups := by
  rw [← zipIdx_map_fst 0 hybrid.attentionGroups]
  exact mem_map_of_mem listed

section

variable (sized : pool.config.hasher.hashBlockSize = hybrid.hashBlockSize)
    (supported : hybrid.Supported)
include sized supported

theorem searchLoop_shorter
    (done :
      hybrid.searchLoop pool hashes maxHit rounds hitLength
        search = .ok (finalLength, after)) :
    finalLength ≤ hitLength := by
  induction rounds generalizing hitLength search with
  | zero => cases done
  | succ rounds ih =>
    obtain ⟨between, looked, next⟩ := bind_ok.mp done
    have shorter : between.currHitLength ≤ hitLength :=
      lookups_shorter sized supported (fun entry => mem_of_zipIdx) looked
    split at next
    · cases next
      exact le_rfl
    split at next
    · cases next
      exact shorter
    · exact le_trans (ih next) shorter

section

variable (hashed : maxHit / hybrid.hashBlockSize ≤ hashes.length)
include hashed

/-- Every round shortens the candidate, so the search ends. -/
theorem searchLoop_returns (bounded : hitLength ≤ maxHit)
    (enough : hitLength < rounds) :
    ∃ result, hybrid.searchLoop pool hashes maxHit rounds hitLength
      search = .ok result := by
  induction rounds generalizing hitLength search with
  | zero => exact absurd enough (Nat.not_lt_zero _)
  | succ rounds ih =>
    refine exists_bind_ok (foldlM_lookupGroup_returns sized supported hashed
        (fun entry => mem_of_zipIdx) bounded) ?_
    intro between looked
    split
    · exact ⟨_, rfl⟩
    · split
      · exact ⟨_, rfl⟩
      · exact ih (by omega) (by omega)

/-- The search returns whenever the request has hashes for the maximum length. -/
theorem findLongestCacheHit_returns :
    ∃ hit, hybrid.findLongestCacheHit pool hashes maxHit = .ok hit :=
  exists_bind_ok (searchLoop_returns sized supported hashed le_rfl (Nat.lt_succ_self _))
    fun _ _ => ⟨_, rfl⟩

end

end

/-! ## Results that stay -/

variable (sized : pool.config.hasher.hashBlockSize = hybrid.hashBlockSize)
    (supported : hybrid.Supported)
include sized supported

/-- A full-attention group that was looked up keeps its result through a round. -/
theorem lookups_unchanged (inside : ∀ entry ∈ entries, entry.1 ∈ hybrid.attentionGroups)
    (mem : group ∈ hybrid.attentionGroups) (stale : ¬ Fresh search group)
    (done : entries.foldlM (hybrid.lookupGroup pool hashes maxHit) search = .ok after) :
    ∀ groupId ∈ group.groupIds, Unchanged search after groupId := by
  induction entries generalizing search with
  | nil =>
    cases done
    exact fun _ _ => ⟨rfl, rfl⟩
  | cons entry rest ih =>
    obtain ⟨between, stepped, next⟩ := bind_ok.mp done
    have here := inside entry mem_cons_self
    have step : ∀ groupId ∈ group.groupIds, Unchanged search between groupId := by
      rcases lookupGroup_cases sized here (supported_group supported here).searchable stepped with
        ⟨_, rfl⟩ | ⟨fresh, _, _, unchanged⟩
      · exact fun _ _ => ⟨rfl, rfl⟩
      intro groupId listed
      apply unchanged
      intro again
      have different : entry.1 ≠ group := by
        intro same
        exact stale (same ▸ fresh)
      exact disjoint_of_ne here mem different again listed
    have staleBetween : ¬ Fresh between group := by rwa [fresh_of_unchanged mem step]
    intro groupId listed
    have behind :=
      ih (fun other inRest => inside other (mem_cons_of_mem _ inRest))
        staleBetween next groupId listed
    have before := step groupId listed
    exact ⟨behind.1.trans before.1, behind.2.trans before.2⟩

theorem searchLoop_unchanged
    (mem : group ∈ hybrid.attentionGroups) (stale : ¬ Fresh search group)
    (done :
      hybrid.searchLoop pool hashes maxHit rounds hitLength
        search = .ok (finalLength, after)) :
    ∀ groupId ∈ group.groupIds, Unchanged search after groupId := by
  induction rounds generalizing hitLength search with
  | zero => cases done
  | succ rounds ih =>
    obtain ⟨between, looked, next⟩ := bind_ok.mp done
    have start : ¬ Fresh { search with currHitLength := hitLength } group := stale
    have round : ∀ groupId ∈ group.groupIds,
        Unchanged { search with currHitLength := hitLength } between groupId :=
      lookups_unchanged sized supported (fun entry => mem_of_zipIdx) mem start looked
    split at next
    · cases next
      exact round
    split at next
    · cases next
      exact round
    have staleBetween : ¬ Fresh between group := by rwa [fresh_of_unchanged mem round]
    intro groupId listed
    have behind := ih staleBetween next groupId listed
    have before := round groupId listed
    exact ⟨behind.1.trans before.1, behind.2.trans before.2⟩

end Returns

/-! ## An untrimmed list -/

section Untrimmed

variable [DecidableEq BlockHash]

/-- A coherent pool in which exactly the given keys are cached. -/
theorem exists_coherent_caching
    (config : PoolConfig BlockHash) (keys : List (BlockHashWithGroupId BlockHash)) :
    ∃ pool free, pool.config = config ∧ Coherent pool free ∧ ∀ key,
      (pool.cachedBlockHashToBlock.getOneBlock key).isSome = true ↔ key ∈ keys := by
  obtain ⟨fresh, made, sized, coherent⟩ := coherent_init config
  have keyless := not_holdsKey_init made
  let block := fresh.nullBlock + 1
  let cache : BlockHashToBlockMap BlockHash :=
    ⟨fun key => if key ∈ keys then some (.single block) else none⟩
  let pool : BlockPool BlockHash :=
    { fresh with
      cachedBlockHashToBlock := cache
      cachedBlockHashesByBlock := fun other => if other = block then some keys else none }
  have listed (key : BlockHashWithGroupId BlockHash) :
      cache.listed key = if key ∈ keys then [block] else [] := by
    simp only [BlockHashToBlockMap.listed, cache]
    split <;> simp_all
  have holds_iff (key : BlockHashWithGroupId BlockHash) (other : BlockId) :
      pool.HoldsKey key other ↔ other = block ∧ key ∈ keys := by
    have primary : (pool.blocks other).blockHash ≠ some key :=
      fun present => keyless key other (.inl present)
    simp only [HoldsKey, primary, false_or, secondaryKeys, pool]
    split <;> simp_all
  have step : CacheStep fresh pool := by
    refine ⟨⟨rfl, rfl, rfl, fun _ => rfl, fun _ => rfl⟩, ?_, ?_, ?_⟩
    · intro key other
      rw [listed]
      split <;> simp_all
    · intro key other isNull held
      have isNullBlock := (coherent.null_iff other).mp isNull
      have isBlock := ((holds_iff key other).mp held).1
      rw [isNullBlock] at isBlock
      exact absurd isBlock (ne_of_lt (Nat.lt_succ_self _))
    · exact coherent.cache.tokens_none
  refine ⟨pool, _, sized, coherent.cacheStep step, ?_⟩
  intro key
  rw [BlockHashToBlockMap.getOneBlock_eq, listed]
  split <;> simp_all

end Untrimmed

section Exact

variable {hybrid : HybridKVCacheCoordinator BlockHash}
  {pool : BlockPool BlockHash} {hashes : List BlockHash}
  {maxHit : Nat} {search after : HybridSearch} {group : SpecGroup} {idx : Nat} {ids : List Nat}

theorem getCachedBlock_isSome {hash : BlockHash}
    (cached :
      ∀ groupId ∈ ids, (pool.cachedBlockHashToBlock.getOneBlock ⟨hash, groupId⟩).isSome = true) :
    ∃ blocks, pool.getCachedBlock hash ids = some blocks := by
  unfold getCachedBlock
  induction ids with
  | nil => exact ⟨[], rfl⟩
  | cons groupId rest ih =>
    obtain ⟨block, found⟩ := Option.isSome_iff_exists.mp (cached groupId mem_cons_self)
    obtain ⟨blocks, others⟩ := ih fun other mem => cached other (mem_cons_of_mem _ mem)
    exact ⟨block :: blocks, by rw [mapM_cons, found, others]; rfl⟩

theorem uncached_of_missing (mem : groupId ∈ ids)
    (missing : ∀ hash, pool.cachedBlockHashToBlock.getOneBlock ⟨hash, groupId⟩ = none) :
    Uncached pool ids := by
  intro hash
  cases found : pool.getCachedBlock hash ids with
  | none => rfl
  | some blocks =>
    have listed := getCachedBlock_eq_some found
    obtain ⟨index, rfl⟩ := mem_iff_get.mp mem
    obtain ⟨sameLength, listedAt⟩ := forall₂_iff_get.mp listed
    have here := listedAt index index.isLt (sameLength ▸ index.isLt)
    have nothing := missing hash
    rw [BlockHashToBlockMap.getOneBlock_eq, head?_eq_none_iff] at nothing
    rw [nothing] at here
    cases here

section

variable (sized : pool.config.hasher.hashBlockSize = hybrid.hashBlockSize)
include sized

/-- A fully cached full-attention group shortens the candidate by little. -/
theorem lookupGroup_allCached (hashed : maxHit / hybrid.hashBlockSize ≤ hashes.length)
    (mem : group ∈ hybrid.attentionGroups) (full : group.spec.kind.isFullAttention = true)
    (cached : AllCached pool hashes group.groupIds)
    (bounded : search.currHitLength ≤ maxHit) (fresh : Fresh search group)
    (stepped : hybrid.lookupGroup pool hashes maxHit search (group, idx) = .ok after) :
    search.currHitLength < after.currHitLength + 2 * hybrid.groupBlockSize group +
      hybrid.cacheHitAlignmentTokens := by
  obtain ⟨limit, eagle, hitBlocks, found, range⟩ := lookupGroup_fresh fresh stepped
  obtain ⟨above, below⟩ := range bounded
  cases kind : group.spec.kind with
  | fullAttention =>
    rw [kind] at found
    apply lt_of_le_of_lt above
    refine cached.lt_findLongestCacheHit (alignedFor sized mem)
      (hybrid.attentionGroups_perm.2 group mem).nonempty ?_ found
    rw [sized]
    exact le_trans (Nat.div_le_div_right below) hashed
  | _ =>
    rw [kind] at full
    cases full

/-- A lookup leaves what is stored for other attention groups alone. -/
theorem lookupGroup_unchanged {other : SpecGroup} (supported : hybrid.Supported)
    (mem : group ∈ hybrid.attentionGroups)
    (apart : Disjoint group.groupIds other.groupIds)
    (stepped : hybrid.lookupGroup pool hashes maxHit search (group, idx) = .ok after) :
    ∀ groupId ∈ other.groupIds, Unchanged search after groupId := by
  intro groupId listed
  rcases lookupGroup_cases sized mem (supported_group supported mem).searchable stepped with
    ⟨_, rfl⟩ | ⟨_, _, _, same⟩
  · exact ⟨rfl, rfl⟩
  · exact same groupId fun again => apart again listed

variable {second third : SpecGroup} {rest : List SpecGroup} (supported : hybrid.Supported)
    (shape : hybrid.attentionGroups = group :: second :: third :: rest)
    (firstFull : group.spec.kind.isFullAttention = true)
    (secondFull : second.spec.kind.isFullAttention = true)
    (firstCached : AllCached pool hashes group.groupIds)
    (secondCached : AllCached pool hashes second.groupIds)
    (thirdUncached : Uncached pool third.groupIds)
    (hashed : maxHit / hybrid.hashBlockSize ≤ hashes.length)
    (long :
      2 * hybrid.groupBlockSize group + 2 * hybrid.groupBlockSize second +
          2 * hybrid.cacheHitAlignmentTokens ≤
        maxHit)
include supported shape firstFull secondFull firstCached secondCached thirdUncached hashed long

/--
The first round over two cached full-attention groups and an uncached group.

The second group's result is stored before the third group reduces the candidate
to nothing.
-/
theorem lookupRound_untrimmed
    (looked : hybrid.lookupRound pool hashes maxHit maxHit startSearch = .ok after) :
    after.currHitLength = 0 ∧ ∃ length, 0 < length ∧
      hybrid.Looked pool hashes after second length := by
  have firstMember : group ∈ hybrid.attentionGroups := by simp [shape]
  have secondMember : second ∈ hybrid.attentionGroups := by simp [shape]
  have thirdMember : third ∈ hybrid.attentionGroups := by simp [shape]
  have disjoint := hybrid.pairwise_disjoint
  rw [shape] at disjoint
  simp only [pairwise_cons, mem_cons, forall_eq_or_imp] at disjoint
  obtain ⟨⟨apartSecond, apartThird, _⟩, ⟨apartSecondThird, _⟩, _⟩ := disjoint
  have inside : ∀ entry ∈ (third :: rest).zipIdx 2, entry.1 ∈ hybrid.attentionGroups := by
    intro entry listed
    apply mem_of_zipIdx
    rw [shape]
    exact mem_cons_of_mem _ (mem_cons_of_mem _ listed)
  have startFresh (other : SpecGroup) : Fresh { startSearch with currHitLength := maxHit } other :=
    fresh_startSearch
  unfold lookupRound at looked
  rw [shape, zipIdx_cons, foldlM_cons] at looked
  obtain ⟨first, firstStep, afterFirst⟩ := bind_ok.mp looked
  obtain ⟨next, secondStep, afterSecond⟩ := bind_ok.mp afterFirst
  have firstLength :=
    lookupGroup_allCached sized hashed firstMember firstFull firstCached
      le_rfl (startFresh group) firstStep
  have firstBound := lookupGroup_shorter sized supported firstMember firstStep
  have secondFresh : Fresh first second :=
    (fresh_of_unchanged secondMember
      (lookupGroup_unchanged sized supported firstMember apartSecond firstStep)).mpr
      (startFresh second)
  have secondLength :=
    lookupGroup_allCached sized hashed secondMember secondFull secondCached
      firstBound secondFresh secondStep
  obtain ⟨_, stored, _, _⟩ :=
    (lookupGroup_cases sized secondMember
      (supported_group supported secondMember).searchable secondStep).resolve_left
      fun stale => stale.1 secondFresh
  have kept : ∀ groupId ∈ second.groupIds, Unchanged next after groupId :=
    lookups_unchanged sized supported inside secondMember
      (stored.not_fresh secondMember secondFull) afterSecond
  refine ⟨?_, next.currHitLength, ?_, stored.of_unchanged kept⟩
  · obtain ⟨last, thirdStep, afterThird⟩ := bind_ok.mp afterSecond
    have thirdFresh : Fresh next third :=
      (fresh_of_unchanged thirdMember
        (lookupGroup_unchanged sized supported secondMember apartSecondThird secondStep)).mpr
        ((fresh_of_unchanged thirdMember
          (lookupGroup_unchanged sized supported firstMember apartThird
            firstStep)).mpr (startFresh third))
    obtain ⟨_, _, _, found, _⟩ := lookupGroup_fresh thirdFresh thirdStep
    have nothing :=
      thirdUncached.findLongestCacheHit (supported_group supported thirdMember).searchable found
    have shorter :=
      lookups_shorter sized supported
        (fun entry inRest => inside entry (mem_cons_of_mem _ inRest)) afterThird
    exact Nat.le_zero.mp (nothing ▸ shorter)
  · simp only at firstLength
    omega

/-- The second group's list is returned untrimmed with an empty hit. -/
theorem untrimmed_second
    (found : hybrid.findLongestCacheHit pool hashes maxHit = .ok hit) :
    ¬ hybrid.SoundHit pool hashes maxHit hit := by
  have secondMember : second ∈ hybrid.attentionGroups := by simp [shape]
  have apart : Disjoint group.groupIds second.groupIds := by
    have disjoint := hybrid.pairwise_disjoint
    rw [shape] at disjoint
    exact (pairwise_cons.mp disjoint).1 second mem_cons_self
  obtain ⟨⟨finalLength, final⟩, searched, ran⟩ := bind_ok.mp found
  cases ran
  obtain ⟨between, looked, next⟩ := bind_ok.mp searched
  obtain ⟨nothing, length, pos, stored⟩ :=
    lookupRound_untrimmed sized supported shape firstFull secondFull firstCached
      secondCached thirdUncached hashed long looked
  have blockSize_pos := hybrid.managerBlockSize_pos second.spec
  have unsettled : ¬ maxHit ≤ between.currHitLength := by
    have firstSize := hybrid.managerBlockSize_pos group.spec
    change 0 < hybrid.groupBlockSize group at firstSize
    omega
  have notSimple : hybrid.isSimpleHybrid = false := by simp [isSimpleHybrid, shape]
  rw [if_neg unsettled, notSimple, nothing] at next
  have zero : finalLength = 0 := Nat.le_zero.mp (searchLoop_shorter sized supported next)
  have headMember := headD_mem secondMember
  obtain ⟨blocks, _, present, tail, _⟩ := stored.tail headMember
  have kept :=
    searchLoop_unchanged sized supported secondMember
      (stored.not_fresh secondMember secondFull) next _ headMember
  intro sound
  have specAt := (hybrid.attentionGroups_perm.2 second secondMember).members _ headMember
  obtain ⟨inside, _⟩ := List.getElem?_eq_some_iff.mp specAt
  obtain ⟨listed, atGroup, groupHit⟩ := sound.groups _ _ specAt
  have same : listed = blocks := by
    simp only [getElem?_map, getElem?_range inside, Option.map_some] at atGroup
    rw [truncate_of_not_mem shape (.inl fun again => apart again headMember),
      kept.1, present] at atGroup
    exact (Option.some.inj atGroup).symm
  have length_listed := groupHit.length_eq
  rw [same, tail.length_eq] at length_listed
  simp only [zero] at length_listed
  have some : 0 < cdiv length (hybrid.groupBlockSize second) :=
    (lt_cdiv_iff blockSize_pos).mpr (by omega)
  have none : cdiv 0 (second.spec.managerBlockSize hybrid.dcpWorldSize) = 0 :=
    Nat.le_zero.mp ((cdiv_le_iff blockSize_pos).mpr (Nat.zero_le _))
  omega

end

/-- Two full-attention groups and a third group head the attention groups. -/
theorem three_groups
    (many : ¬ (hybrid.fullAttentionGroups.length ≤ 1 ∨ hybrid.attentionGroups.length = 2)) :
    ∃ first second third rest, hybrid.attentionGroups = first :: second :: third :: rest ∧
        first.spec.kind.isFullAttention = true ∧
        second.spec.kind.isFullAttention = true := by
  rw [not_or] at many
  have sorted := hybrid.attentionGroups_eq
  have full : ∀ group ∈ hybrid.fullAttentionGroups, group.spec.kind.isFullAttention = true :=
    fun group mem => (mem_filter.mp mem).2
  cases listed : hybrid.fullAttentionGroups with
  | nil =>
    rw [listed] at many
    exact absurd (Nat.zero_le 1) many.1
  | cons first others =>
    cases others with
    | nil =>
      rw [listed] at many
      exact absurd (le_refl 1) many.1
    | cons second others =>
      rw [listed] at full sorted
      cases rest : others ++ hybrid.attentionGroups.filter fun group =>
            !group.spec.kind.isFullAttention with
      | nil =>
        rw [cons_append, cons_append, rest] at sorted
        rw [sorted] at many
        exact absurd rfl many.2
      | cons third rest' =>
        rw [cons_append, cons_append, rest] at sorted
        exact ⟨first, second, third, rest', sorted, full first mem_cons_self,
          full second (mem_cons_of_mem _ mem_cons_self)⟩

end Exact

/--
The search is sound for every pool content, hash list and maximum length exactly
when there is at most one full-attention spec or there are two specs in all.
-/
theorem findLongestCacheHit_sound_iff [DecidableEq BlockHash]
    (coordinator : HybridKVCacheCoordinator BlockHash) (supported : coordinator.Supported) :
    (∀ pool free blockHashes maxCacheHitLength hit,
      pool.config.hasher.hashBlockSize = coordinator.hashBlockSize → pool.Coherent free →
        coordinator.findLongestCacheHit pool blockHashes maxCacheHitLength = .ok hit →
        coordinator.SoundHit pool blockHashes maxCacheHitLength hit) ↔
      coordinator.fullAttentionGroups.length ≤ 1 ∨ coordinator.attentionGroups.length = 2 := by
  constructor
  · intro sound
    by_contra many
    obtain ⟨first, second, third, rest, shape, firstFull, secondFull⟩ := three_groups many
    have thirdMember : third ∈ coordinator.attentionGroups := by simp [shape]
    have disjoint := coordinator.pairwise_disjoint
    rw [shape] at disjoint
    simp only [pairwise_cons, mem_cons, forall_eq_or_imp] at disjoint
    obtain ⟨⟨_, apartFirst, _⟩, ⟨apartSecond, _⟩, _⟩ := disjoint
    -- One hash, cached for the first two groups only.
    let hash := coordinator.poolConfig.hasher.noneHash
    obtain ⟨pool, free, configured, coherent, cached_iff⟩ :=
      exists_coherent_caching coordinator.poolConfig
        ((first.groupIds ++ second.groupIds).map fun groupId => ⟨hash, groupId⟩)
    have sameHash : pool.config.hasher.hashBlockSize = coordinator.hashBlockSize := by
      rw [configured]
      rfl
    let maxLength :=
      2 * coordinator.groupBlockSize first + 2 * coordinator.groupBlockSize second +
        2 * coordinator.cacheHitAlignmentTokens
    have hashed : maxLength / coordinator.hashBlockSize ≤ (replicate maxLength hash).length := by
      rw [length_replicate]
      exact Nat.div_le_self _ _
    have allCached (groupIds : List Nat)
        (known : ∀ groupId ∈ groupIds, groupId ∈ first.groupIds ++ second.groupIds) :
        AllCached pool (replicate maxLength hash) groupIds := by
      intro other member
      rw [eq_of_mem_replicate member]
      apply getCachedBlock_isSome
      intro groupId listed
      rw [cached_iff]
      exact mem_map_of_mem (known groupId listed)
    have uncached : Uncached pool third.groupIds := by
      apply uncached_of_missing (headD_mem thirdMember)
      intro other
      rw [← Option.not_isSome_iff_eq_none, cached_iff]
      intro member
      obtain ⟨groupId, listed, same⟩ := mem_map.mp member
      have sameId : groupId = third.groupIds.headD 0 := congrArg (·.groupId) same
      rw [sameId] at listed
      rcases mem_append.mp listed with inFirst | inSecond
      · exact apartFirst inFirst (headD_mem thirdMember)
      · exact apartSecond inSecond (headD_mem thirdMember)
    obtain ⟨hit, found⟩ := findLongestCacheHit_returns sameHash supported hashed
    exact untrimmed_second sameHash supported shape firstFull secondFull
      (allCached _ fun _ listed => mem_append_left _ listed)
      (allCached _ fun _ listed => mem_append_right _ listed)
      uncached hashed le_rfl found
      (sound pool free _ _ hit sameHash coherent found)
  · intro few pool free blockHashes maxCacheHitLength hit configured coherent found
    exact soundHit_of_few supported few configured coherent found

/-- A pool for the models below. -/
def hybridPoolConfig : PoolConfig SymbolicHash :=
  { smallPoolConfig with
    numGpuBlocks := 4
    numGpuBlocks_pos := by decide }

/-- A spec with blocks of two tokens. -/
def twoTokenSpec (kind : SpecKind) (layout : Nat) : KVCacheSpec where
  kind
  blockSize := 2
  blockSize_pos := Nat.two_pos
  layout

/-- Full attention, a window of three tokens and Mamba. -/
def mixedModel : HybridKVCacheCoordinator SymbolicHash where
  poolConfig := hybridPoolConfig
  kvCacheGroups :=
    [twoTokenSpec .fullAttention 0, twoTokenSpec (.slidingWindow 3) 0,
      twoTokenSpec (.mamba .all 0) 0]
  eagleGroupIds := []
  dcpWorldSize := 1
  schedulerBlockSize := 2
  dcpWorldSize_pos := Nat.one_pos
  schedulerBlockSize_pos := Nat.two_pos
  hash_divides := by decide
  scheduler_multiple := by decide
  context_parallel := by decide
  several := by decide

/-- Two kinds of full attention and a window of three tokens. -/
def twoFullModel : HybridKVCacheCoordinator SymbolicHash where
  poolConfig := hybridPoolConfig
  kvCacheGroups :=
    [twoTokenSpec .fullAttention 0, twoTokenSpec .fullAttention 1,
      twoTokenSpec (.slidingWindow 3) 0]
  eagleGroupIds := []
  dcpWorldSize := 1
  schedulerBlockSize := 2
  dcpWorldSize_pos := Nat.one_pos
  schedulerBlockSize_pos := Nat.two_pos
  hash_divides := by decide
  scheduler_multiple := by decide
  context_parallel := by decide
  several := by decide

/-- A block cached for every group of the mixed model is a sound hit. -/
theorem mixedModel_hit_sound :
    ∃ pool hit, BlockPool.Reachable (fun pool op => op.Balanced pool ∧ op.Sane pool)
        hybridPoolConfig pool ∧
      mixedModel.findLongestCacheHit pool oneBlockRequest.blockHashes 2 = .ok hit ∧
      hit.hitLength = 2 ∧
      mixedModel.SoundHit pool oneBlockRequest.blockHashes 2 hit := by
  obtain ⟨pool, ran, facts⟩ := exists_of_satisfies (show satisfies
      (BlockPool.run (fun pool op => op.Balanced pool ∧ op.Sane pool) hybridPoolConfig
        [.getNewBlocks 3, .cacheFullBlocks oneBlockRequest [1] 0 1 2 0 none,
          .cacheFullBlocks oneBlockRequest [2] 0 1 2 1 none,
          .cacheFullBlocks oneBlockRequest [3] 0 1 2 2 none])
      (fun pool =>
        pool.config.hasher.hashBlockSize == mixedModel.hashBlockSize && satisfies
            (mixedModel.findLongestCacheHit pool oneBlockRequest.blockHashes 2)
            (fun hit => hit.hitLength == 2)) = true by decide)
  rw [Bool.and_eq_true, beq_iff_eq] at facts
  obtain ⟨hit, found, length⟩ := exists_of_satisfies facts.2
  have reachable := BlockPool.reachable_of_run ran
  obtain ⟨free, coherent⟩ := reachable.coherent
  have supported : mixedModel.Supported := by
    intro spec member
    simp only [mixedModel, mem_cons, not_mem_nil, or_false] at member
    rcases member with rfl | rfl | rfl
    · exact trivial
    · exact rfl
    · exact trivial
  exact ⟨pool, hit, reachable, found, beq_iff_eq.mp length,
    (findLongestCacheHit_sound_iff mixedModel supported).mpr (.inl (by decide))
      pool free _ _ hit facts.1 coherent found⟩

/--
One block cached for both full-attention groups and none for the window.

The hit is empty, yet the list of the second full-attention group has an entry.
-/
theorem twoFullModel_list_untrimmed :
    ∃ pool hit, BlockPool.Reachable (fun pool op => op.Balanced pool ∧ op.Sane pool)
        hybridPoolConfig pool ∧
      twoFullModel.findLongestCacheHit pool oneBlockRequest.blockHashes 2 = .ok hit ∧
      hit.hitLength = 0 ∧ hit.blocks = [[], [2], []] ∧
      ¬ twoFullModel.SoundHit pool oneBlockRequest.blockHashes 2 hit := by
  obtain ⟨pool, ran, facts⟩ := exists_of_satisfies (show satisfies
      (BlockPool.run (fun pool op => op.Balanced pool ∧ op.Sane pool) hybridPoolConfig
        [.getNewBlocks 2, .cacheFullBlocks oneBlockRequest [1] 0 1 2 0 none,
          .cacheFullBlocks oneBlockRequest [2] 0 1 2 1 none])
      (fun pool =>
        satisfies (twoFullModel.findLongestCacheHit pool oneBlockRequest.blockHashes 2)
          (fun hit => hit.hitLength == 0 && hit.blocks == [[], [2], []])) = true
      by decide)
  obtain ⟨hit, found, result⟩ := exists_of_satisfies facts
  rw [Bool.and_eq_true, beq_iff_eq, beq_iff_eq] at result
  refine ⟨pool, hit, BlockPool.reachable_of_run ran, found, result.1, result.2, ?_⟩
  intro sound
  obtain ⟨blocks, present, groupHit⟩ := sound.groups 1 (twoTokenSpec .fullAttention 1) rfl
  rw [result.2] at present
  cases present
  have length_eq := groupHit.length_eq
  rw [result.1] at length_eq
  exact absurd length_eq (by decide)

end HybridKVCacheCoordinator

end VllmCore
