import VllmCore.HybridCoordinator

namespace VllmCore

open Function Lib List

/-!
# What the hybrid search returns

Every lookup stores a result that serves its attention group for some length, and
no lookup raises the candidate.  A round that leaves the candidate unchanged
therefore stored results for exactly this length, except where a full-attention
group was looked up in an earlier round and kept its longer result.
-/

namespace HybridKVCacheCoordinator

variable {BlockHash : Type}

/-- The stored result of an attention group serves it for a length. -/
structure Looked (coordinator : HybridKVCacheCoordinator BlockHash) (pool : BlockPool BlockHash)
    (blockHashes : List BlockHash) (search : HybridSearch) (group : SpecGroup)
    (hitLength : Nat) : Prop where
  multiple : hitLength % coordinator.cacheHitAlignmentTokens = 0
  served :
    ∃ computed, Serves pool blockHashes group.spec.kind (coordinator.groupBlockSize group)
        hitLength group.groupIds computed ∧
      List.Forall₂
        (fun groupId blocks => search.hitBlocksByGroup groupId = some blocks)
        group.groupIds computed
  length_eq : ∀ groupId ∈ group.groupIds, search.hitLengthByGroup groupId = hitLength

/-- A lookup in this state would search the pool for the group. -/
def Fresh (search : HybridSearch) (group : SpecGroup) : Prop :=
  (group.spec.kind.isFullAttention &&
    (search.hitBlocksByGroup (group.groupIds.headD 0)).isSome) = false

/-- What is stored for a cache group did not change. -/
def Unchanged (search after : HybridSearch) (groupId : Nat) : Prop :=
  after.hitBlocksByGroup groupId = search.hitBlocksByGroup groupId ∧
    after.hitLengthByGroup groupId = search.hitLengthByGroup groupId

section Storing

variable {hitBlocksByGroup : Nat → Option (List BlockId)} {ids : List Nat}

theorem storeBlocks_of_not_mem (absent : groupId ∉ ids) :
    storeBlocks ids hitBlocks hitBlocksByGroup groupId = hitBlocksByGroup groupId := by
  unfold storeBlocks
  induction ids generalizing hitBlocks hitBlocksByGroup with
  | nil => rfl
  | cons first rest ih =>
    rw [mem_cons, not_or] at absent
    cases hitBlocks with
    | nil => rfl
    | cons blocks others => rw [zip_cons_cons, foldl_cons, ih absent.2, update_of_ne absent.1]

theorem forall₂_storeBlocks (nodup : ids.Nodup)
    (holds : List.Forall₂ Holds ids hitBlocks) :
    List.Forall₂ (fun groupId blocks =>
      storeBlocks ids hitBlocks hitBlocksByGroup groupId = some blocks)
      ids hitBlocks := by
  induction holds generalizing hitBlocksByGroup with
  | nil => exact .nil
  | @cons first blocks rest others _ _ ih =>
    obtain ⟨absent, restDistinct⟩ := nodup_cons.mp nodup
    refine .cons ?_ (ih restDistinct)
    have kept : storeBlocks rest others (update hitBlocksByGroup first (some blocks)) first =
        update hitBlocksByGroup first (some blocks) first :=
      storeBlocks_of_not_mem absent
    rw [update_self] at kept
    exact kept

end Storing

section Rounds

variable {hybrid : HybridKVCacheCoordinator BlockHash} {pool : BlockPool BlockHash}
    {maxHit hit : Nat} {search after : HybridSearch} {group : SpecGroup}

theorem Looked.of_unchanged (looked : hybrid.Looked pool hashes search group hit)
    (same : ∀ groupId ∈ group.groupIds, Unchanged search after groupId) :
    hybrid.Looked pool hashes after group hit := by
  obtain ⟨times, ⟨computed, serves, stored⟩, lengths⟩ := looked
  refine ⟨times, ⟨computed, serves, ?_⟩, ?_⟩
  · rw [List.forall₂_iff_get] at stored ⊢
    refine ⟨stored.1, ?_⟩
    intro index before behind
    rw [(same _ (get_mem _ _)).1]
    exact stored.2 index before behind
  · intro groupId mem
    rw [(same groupId mem).2]
    exact lengths groupId mem

theorem headD_mem (mem : group ∈ hybrid.attentionGroups) :
    group.groupIds.headD 0 ∈ group.groupIds := by
  have nonempty := (hybrid.attentionGroups_perm.2 group mem).nonempty
  cases shape : group.groupIds with
  | nil => exact absurd shape nonempty
  | cons first rest => exact mem_cons_self

theorem groupIds_nodup (mem : group ∈ hybrid.attentionGroups) : group.groupIds.Nodup := by
  have nodup : (hybrid.attentionGroups.flatMap SpecGroup.groupIds).Nodup :=
    hybrid.attentionGroups_perm.1.nodup_iff.mpr nodup_range
  exact (nodup_flatMap.mp nodup).1 group mem

section

variable (sized : pool.config.hasher.hashBlockSize = hybrid.hashBlockSize)
    (mem : group ∈ hybrid.attentionGroups) (searchable : group.spec.kind.Searchable)
include sized mem searchable

/-- A lookup that returns drops no more than its margin. -/
theorem eagleMargin_eq
    (attention : group.spec.kind.isMamba = false)
    (found :
      group.spec.kind.findLongestCacheHit pool hashes limit group.groupIds
        (hybrid.groupBlockSize group) eagle
        hybrid.cacheHitAlignmentTokens = .ok result) :
    hybrid.eagleMargin group =
      min hybrid.cacheHitAlignmentTokens (hybrid.groupBlockSize group) := by
  have aligned := alignedFor sized mem
  have whole : hybrid.cacheHitAlignmentTokens % hybrid.groupBlockSize group = 0 →
      min hybrid.cacheHitAlignmentTokens (hybrid.groupBlockSize group) =
        hybrid.groupBlockSize group := by
    intro times
    exact min_eq_right (Nat.le_of_dvd aligned.alignment_pos (Nat.dvd_of_mod_eq_zero times))
  unfold eagleMargin
  cases kind : group.spec.kind with
  | fullAttention =>
    cases partialHits : hybrid.enablePartialHashHits with
    | false =>
      have align : hybrid.cacheHitAlignmentTokens = hybrid.schedulerBlockSize := by
        simp [cacheHitAlignmentTokens, partialHits]
      rw [whole]
      · simp
      · rw [align]
        exact hybrid.scheduler_multiple group.spec (spec_mem mem)
    | true =>
      have align : hybrid.cacheHitAlignmentTokens = hybrid.hashBlockSize := by
        simp [cacheHitAlignmentTokens, partialHits]
      rw [align]
      simp only [SpecKind.supportsFineGrainedHashLookup, Bool.and_self,
        Bool.true_and, decide_eq_true_eq]
      split
      · rename_i larger
        exact (min_eq_left (le_of_lt larger)).symm
      · rename_i smaller
        exact (min_eq_right (Nat.not_lt.mp smaller)).symm
  | slidingWindow window =>
    rw [kind] at found
    obtain ⟨_, passed, _⟩ := bind_ok.mp found
    rw [whole (ensure_eq_ok.mp passed)]
    simp [SpecKind.supportsFineGrainedHashLookup]
  | mamba mode numSpeculativeBlocks =>
    rw [kind] at attention
    cases attention
  | _ =>
    rw [kind] at searchable
    exact searchable.elim

/--
What one lookup does.

A full-attention group that was looked up before caps the candidate; any other
lookup stores a result for the new candidate, which is no longer than the old one.
-/
theorem lookupGroup_cases
    (stepped : hybrid.lookupGroup pool hashes maxHit search (group, idx) = .ok after) :
    (¬ Fresh search group ∧ after = { search with
      currHitLength :=
            min search.currHitLength (search.hitLengthByGroup (group.groupIds.headD 0)) }) ∨
      (Fresh search group ∧ hybrid.Looked pool hashes after group after.currHitLength ∧
        after.currHitLength ≤ search.currHitLength ∧
        ∀ groupId, groupId ∉ group.groupIds → Unchanged search after groupId) := by
  unfold lookupGroup at stepped
  simp only at stepped
  split at stepped
  · rename_i known
    cases stepped
    refine .inl ⟨?_, rfl⟩
    intro fresh
    rw [Fresh, known] at fresh
    cases fresh
  · rename_i fresh
    obtain ⟨⟨hitBlocks, newHitLength⟩, found, recorded⟩ := bind_ok.mp stepped
    cases recorded
    obtain ⟨serves, times, bounded⟩ :=
      SpecKind.findLongestCacheHit_eq_ok searchable (alignedFor sized mem)
        (hybrid.attentionGroups_perm.2 group mem).nonempty found
    refine .inr ⟨Bool.eq_false_iff.mpr fresh, ⟨times, ⟨hitBlocks, serves, ?_⟩, ?_⟩, ?_, ?_⟩
    · obtain ⟨_, tails, _⟩ := serves
      exact forall₂_storeBlocks (groupIds_nodup mem) tails
    · intro groupId listed
      exact if_pos listed
    · -- The margin an EAGLE lookup adds is the length its finder drops.
      apply le_trans bounded
      split
      · rename_i dropped
        rw [eagleMargin_eq sized mem searchable
          (by simpa using (Bool.and_eq_true_iff.mp dropped).2) found]
        omega
      · exact Nat.sub_le _ _
    · intro groupId absent
      exact ⟨storeBlocks_of_not_mem absent, if_neg absent⟩

end

theorem fresh_of_unchanged (mem : group ∈ hybrid.attentionGroups)
    (same : ∀ groupId ∈ group.groupIds, Unchanged search after groupId) :
    Fresh after group ↔ Fresh search group := by
  rw [Fresh, Fresh, (same _ (headD_mem mem)).1]

/-- The results after some lookups, with the candidate below each of them. -/
structure RoundResult
    (coordinator : HybridKVCacheCoordinator BlockHash) (pool : BlockPool BlockHash)
    (blockHashes : List BlockHash) (entries : List (SpecGroup × Nat))
    (search after : HybridSearch) : Prop where
  shorter : after.currHitLength ≤ search.currHitLength
  multiple_or_same :
    entries ≠ [] ∧ after.currHitLength % coordinator.cacheHitAlignmentTokens = 0 ∨
      after.currHitLength = search.currHitLength
  unchanged :
    ∀ groupId, (∀ entry ∈ entries, groupId ∉ entry.1.groupIds) → Unchanged search after groupId
  looked :
    ∀ entry ∈ entries, ∃ hitLength, coordinator.Looked pool blockHashes after entry.1 hitLength ∧
      after.currHitLength ≤ hitLength ∧
      (Fresh search entry.1 → hitLength ≤ search.currHitLength) ∧
      (Fresh search entry.1 → entries.getLast? = some entry → hitLength = after.currHitLength)

/-- One more lookup in front of a round. -/
theorem RoundResult.cons {between : HybridSearch} {idx : Nat} {rest : List (SpecGroup × Nat)}
    (mem : group ∈ hybrid.attentionGroups)
    (inside : ∀ entry ∈ rest, entry.1 ∈ hybrid.attentionGroups)
    (apart : ∀ entry ∈ rest, List.Disjoint group.groupIds entry.1.groupIds)
    (known : Fresh search group ∨ ∃ hit, hybrid.Looked pool hashes search group hit)
    (stepped :
      (¬ Fresh search group ∧ between = { search with
        currHitLength :=
              min search.currHitLength (search.hitLengthByGroup (group.groupIds.headD 0)) }) ∨
        (Fresh search group ∧ hybrid.Looked pool hashes between group between.currHitLength ∧
          between.currHitLength ≤ search.currHitLength ∧
          ∀ groupId, groupId ∉ group.groupIds → Unchanged search between groupId))
    (result : RoundResult hybrid pool hashes rest between after) :
    RoundResult hybrid pool hashes ((group, idx) :: rest) search after := by
  -- First what the step alone does.
  have step : between.currHitLength ≤ search.currHitLength ∧
      (between.currHitLength % hybrid.cacheHitAlignmentTokens = 0 ∨
        between.currHitLength = search.currHitLength) ∧
      (∀ groupId, groupId ∉ group.groupIds → Unchanged search between groupId) ∧
      ∃ hit, hybrid.Looked pool hashes between group hit ∧ between.currHitLength ≤ hit ∧
          (Fresh search group → hit = between.currHitLength) := by
    rcases stepped with ⟨stale, rfl⟩ | ⟨_, looked, shorter, unchanged⟩
    · rcases known with fresh | ⟨hit, looked⟩
      · exact absurd fresh stale
      have stored := looked.length_eq _ (headD_mem mem)
      refine ⟨min_le_left _ _, ?_, fun _ _ => ⟨rfl, rfl⟩, hit,
        looked.of_unchanged fun _ _ => ⟨rfl, rfl⟩, ?_, fun fresh => absurd fresh stale⟩
      · rcases le_total search.currHitLength hit with below | above
        · exact .inr (by simp only [stored, min_eq_left below])
        · exact .inl (by simp only [stored, min_eq_right above, looked.multiple])
      · simp only [stored, min_le_right]
    · exact ⟨shorter, .inl looked.multiple, unchanged, between.currHitLength, looked,
        le_rfl, fun _ => rfl⟩
  obtain ⟨shorter, times, unchanged, hit, looked, below, exact⟩ := step
  have kept : ∀ groupId ∈ group.groupIds, Unchanged between after groupId := by
    intro groupId listed
    apply result.unchanged
    intro entry inRest
    exact fun again => apart entry inRest listed again
  refine ⟨le_trans result.shorter shorter, ?_, ?_, ?_⟩
  · rcases result.multiple_or_same with ⟨_, aligned⟩ | same
    · exact .inl ⟨cons_ne_nil _ _, aligned⟩
    · rw [same]
      exact times.imp_left fun aligned => ⟨cons_ne_nil _ _, aligned⟩
  · intro groupId absent
    have before := unchanged groupId (absent (group, idx) mem_cons_self)
    have behind :=
      result.unchanged groupId fun entry inRest => absent entry (mem_cons_of_mem _ inRest)
    exact ⟨behind.1.trans before.1, behind.2.trans before.2⟩
  · intro entry listed
    rcases mem_cons.mp listed with rfl | inRest
    · refine ⟨hit, looked.of_unchanged kept, le_trans result.shorter below, ?_, ?_⟩
      · intro fresh
        rw [exact fresh]
        exact shorter
      · intro fresh last
        cases rest with
        | nil =>
          rw [exact fresh]
          rcases result.multiple_or_same with ⟨nonempty, _⟩ | same
          · exact absurd rfl nonempty
          · exact same.symm
        | cons next others =>
          rw [getLast?_cons_cons] at last
          have again := mem_of_getLast? last
          exact absurd (headD_mem mem) (apart _ again (headD_mem mem))
    · obtain ⟨found, foundLooked, foundBelow, foundShorter, foundLast⟩ :=
        result.looked entry inRest
      have same : Fresh between entry.1 ↔ Fresh search entry.1 := by
        apply fresh_of_unchanged (inside entry inRest)
        intro groupId listed
        exact unchanged groupId fun inGroup => apart entry inRest inGroup listed
      refine ⟨found, foundLooked, foundBelow, ?_, ?_⟩
      · intro fresh
        exact le_trans (foundShorter (same.mpr fresh)) shorter
      · intro fresh last
        apply foundLast (same.mpr fresh)
        cases rest with
        | nil => cases inRest
        | cons next others => rwa [getLast?_cons_cons] at last

section

variable (sized : pool.config.hasher.hashBlockSize = hybrid.hashBlockSize)
    (searchable : ∀ group ∈ hybrid.attentionGroups, group.spec.kind.Searchable)
include sized searchable

theorem roundResult_of_foldlM
    (inside : ∀ entry ∈ entries, entry.1 ∈ hybrid.attentionGroups)
    (apart :
      entries.Pairwise fun first second =>
        List.Disjoint first.1.groupIds second.1.groupIds)
    (known :
      ∀ entry ∈ entries, Fresh search entry.1 ∨ ∃ hit, hybrid.Looked pool hashes search entry.1 hit)
    (done : entries.foldlM (hybrid.lookupGroup pool hashes maxHit) search = .ok after) :
    RoundResult hybrid pool hashes entries search after := by
  induction entries generalizing search with
  | nil =>
    cases done
    exact ⟨le_rfl, .inr rfl, fun _ _ => ⟨rfl, rfl⟩, fun entry absent => absurd absent not_mem_nil⟩
  | cons entry rest ih =>
    obtain ⟨group, idx⟩ := entry
    obtain ⟨between, stepped, next⟩ := bind_ok.mp done
    obtain ⟨apartFirst, apartRest⟩ := pairwise_cons.mp apart
    have mem := inside _ mem_cons_self
    have insideRest : ∀ entry ∈ rest, entry.1 ∈ hybrid.attentionGroups :=
      fun entry inRest => inside entry (mem_cons_of_mem _ inRest)
    have cases := lookupGroup_cases sized mem (searchable _ mem) stepped
    have frame : ∀ groupId, groupId ∉ group.groupIds → Unchanged search between groupId := by
      rcases cases with ⟨_, rfl⟩ | ⟨_, _, _, same⟩
      · exact fun _ _ => ⟨rfl, rfl⟩
      · exact same
    refine RoundResult.cons mem insideRest apartFirst (known _ mem_cons_self) cases
      (ih insideRest apartRest ?_ next)
    intro entry inRest
    have same : ∀ groupId ∈ entry.1.groupIds, Unchanged search between groupId :=
      fun groupId listed => frame groupId fun inGroup => apartFirst entry inRest inGroup listed
    rcases known entry (mem_cons_of_mem _ inRest) with fresh | ⟨length, looked⟩
    · exact .inl ((fresh_of_unchanged (insideRest entry inRest) same).mpr fresh)
    · exact .inr ⟨length, looked.of_unchanged same⟩

/-- What a whole round does, stated for the attention groups. -/
theorem lookupRound_eq_ok
    (known :
      ∀ group ∈ hybrid.attentionGroups, Fresh search group ∨
          ∃ length, hybrid.Looked pool hashes search group length)
    (done : hybrid.lookupRound pool hashes maxHit hit search = .ok after) :
    after.currHitLength ≤ hit ∧
      (after.currHitLength % hybrid.cacheHitAlignmentTokens = 0 ∨ after.currHitLength = hit) ∧
      ∀ group ∈ hybrid.attentionGroups, ∃ length,
        hybrid.Looked pool hashes after group length ∧ after.currHitLength ≤ length ∧
          (Fresh search group → length ≤ hit) ∧
          (Fresh search group → hybrid.attentionGroups.getLast? = some group →
            length = after.currHitLength) := by
  have groups := zipIdx_map_fst 0 hybrid.attentionGroups
  have inside : ∀ entry ∈ hybrid.attentionGroups.zipIdx, entry.1 ∈ hybrid.attentionGroups := by
    intro entry listed
    rw [← groups]
    exact mem_map_of_mem listed
  have apart : hybrid.attentionGroups.zipIdx.Pairwise fun first second =>
      List.Disjoint first.1.groupIds second.1.groupIds := by
    have disjoint := hybrid.pairwise_disjoint
    rw [← groups, pairwise_map] at disjoint
    exact disjoint
  have knownAtStart : ∀ entry ∈ hybrid.attentionGroups.zipIdx,
        Fresh { search with currHitLength := hit } entry.1 ∨ ∃ length, hybrid.Looked pool hashes
              { search with currHitLength := hit } entry.1 length := by
    intro entry listed
    rcases known entry.1 (inside entry listed) with fresh | ⟨length, looked⟩
    · exact .inl fresh
    · exact .inr ⟨length, looked.of_unchanged fun _ _ => ⟨rfl, rfl⟩⟩
  have result := roundResult_of_foldlM sized searchable inside apart knownAtStart done
  refine ⟨result.shorter, result.multiple_or_same.imp_left And.right, ?_⟩
  intro group mem
  have last : hybrid.attentionGroups.zipIdx.getLast?.map Prod.fst =
      hybrid.attentionGroups.getLast? := by
    rw [← getLast?_map, groups]
  by_cases isLast : hybrid.attentionGroups.getLast? = some group
  · rw [isLast] at last
    obtain ⟨entry, lastEntry, rfl⟩ := Option.map_eq_some_iff.mp last
    obtain ⟨length, looked, below, fresh, exact⟩ := result.looked entry (mem_of_getLast? lastEntry)
    exact ⟨length, looked, below, fresh, fun isFresh _ => exact isFresh lastEntry⟩
  · rw [← groups] at mem
    obtain ⟨entry, listed, rfl⟩ := mem_map.mp mem
    obtain ⟨length, looked, below, fresh, _⟩ := result.looked entry listed
    exact ⟨length, looked, below, fresh, fun _ again => absurd again isLast⟩

end

/-- In a simple hybrid the group without full attention comes last. -/
theorem getLast?_of_simpleHybrid (simple : hybrid.isSimpleHybrid = true)
    (mem : group ∈ hybrid.attentionGroups)
    (other : group.spec.kind.isFullAttention = false) :
    hybrid.attentionGroups.getLast? = some group := by
  rw [isSimpleHybrid, Bool.and_eq_true, beq_iff_eq] at simple
  obtain ⟨two, first⟩ := simple
  obtain ⟨head, tail, shape⟩ := length_eq_two.mp two
  rw [shape] at first mem ⊢
  rcases mem_cons.mp mem with rfl | inTail
  · rw [head?_cons, Option.any_some, other] at first
    cases first
  · rw [mem_singleton.mp inTail]
    rfl

/--
What the search returns.

Every attention group has a result at least as long as the hit; it is exactly as
long unless the group has full attention and other groups follow it.
-/
theorem searchLoop_eq_ok
    (sized : pool.config.hasher.hashBlockSize = hybrid.hashBlockSize)
    (searchable : ∀ group ∈ hybrid.attentionGroups, group.spec.kind.Searchable)
    (known :
      (∀ group ∈ hybrid.attentionGroups, Fresh search group) ∨
        hybrid.isSimpleHybrid = false ∧ hit % hybrid.cacheHitAlignmentTokens = 0 ∧
          ∀ group ∈ hybrid.attentionGroups, ∃ length, hybrid.Looked pool hashes search group length)
    (done :
      hybrid.searchLoop pool hashes maxHit rounds hit
        search = .ok (finalLength, after)) :
    finalLength ≤ hit ∧ finalLength % hybrid.cacheHitAlignmentTokens = 0 ∧
      ∀ group ∈ hybrid.attentionGroups, ∃ length,
        hybrid.Looked pool hashes after group length ∧ finalLength ≤ length ∧
          (group.spec.kind.isFullAttention = false ∨ hybrid.isSimpleHybrid = true ∧
              hybrid.attentionGroups.getLast? = some group →
            length = finalLength) := by
  induction rounds generalizing hit search with
  | zero => cases done
  | succ rounds ih =>
    obtain ⟨between, looked, next⟩ := bind_ok.mp done
    have knownEach : ∀ group ∈ hybrid.attentionGroups, Fresh search group ∨
        ∃ length, hybrid.Looked pool hashes search group length := by
      intro group mem
      rcases known with fresh | ⟨_, _, stored⟩
      · exact .inl (fresh group mem)
      · exact .inr (stored group mem)
    obtain ⟨shorter, times, results⟩ := lookupRound_eq_ok sized searchable knownEach looked
    -- The candidate is aligned: it was before, or the last group made it so.
    have aligned : between.currHitLength % hybrid.cacheHitAlignmentTokens = 0 := by
      rcases known with fresh | ⟨_, before, _⟩
      · have nonempty : hybrid.attentionGroups ≠ [] := by
          have several := hybrid.several
          intro empty
          rw [attentionGroups] at empty
          rw [empty] at several
          cases several
        obtain ⟨group, last⟩ := Option.isSome_iff_exists.mp (getLast?_isSome.mpr nonempty)
        have mem := mem_of_getLast? last
        obtain ⟨length, stored, _, _, exact⟩ := results group mem
        rw [← exact (fresh group mem) last]
        exact stored.multiple
      · rcases times with already | same
        · exact already
        · rw [same]
          exact before
    split at next
    · rename_i settled
      cases next
      have same := le_antisymm shorter settled
      refine ⟨le_rfl, same ▸ aligned, ?_⟩
      intro group mem
      obtain ⟨length, stored, below, bounded, _⟩ := results group mem
      refine ⟨length, stored, le_trans settled below, ?_⟩
      intro condition
      apply le_antisymm _ (le_trans settled below)
      apply bounded
      rcases condition with other | ⟨simple, _⟩
      · rw [Fresh, other, Bool.false_and]
      rcases known with fresh | ⟨notSimple, _⟩
      · exact fresh group mem
      · rw [simple] at notSimple
        cases notSimple
    · split at next
      · rename_i simple
        cases next
        refine ⟨shorter, aligned, ?_⟩
        intro group mem
        obtain ⟨length, stored, below, _, exact⟩ := results group mem
        refine ⟨length, stored, below, ?_⟩
        intro condition
        rcases known with fresh | ⟨notSimple, _⟩
        · apply exact (fresh group mem)
          rcases condition with other | ⟨_, last⟩
          · exact getLast?_of_simpleHybrid simple mem other
          · exact last
        · rw [simple] at notSimple
          cases notSimple
      · rename_i notSimple
        obtain ⟨further, rest⟩ :=
          ih (.inr ⟨by simpa using notSimple, aligned, fun group mem =>
              (results group mem).imp fun _ stored => stored.1⟩)
            next
        exact ⟨le_trans further shorter, rest⟩

end Rounds

end HybridKVCacheCoordinator

end VllmCore
