import VllmCore.Offload.CachePolicy

namespace VllmCore.Offload

open Lib List Prod

/-!
# What a cache policy does to the cached blocks

The two policies keep their blocks in different places; seen as a list of cached
entries they agree.  An update replaces the entry of its key, an eviction takes out
blocks without references only, or nothing at all, and a touch reorders.
-/

namespace CachePolicy

variable {Key : Type}

/-- The cached entries. -/
def cached : CachePolicy Key → List (Key × BlockStatus)
  | lru policy => policy.blocks.entries
  | arc policy => policy.t1.entries ++ policy.t2.entries

variable [DecidableEq Key]

/-- The cached entries of all other keys. -/
def others (policy : CachePolicy Key) (key : Key) : List (Key × BlockStatus) :=
  policy.cached.filter fun entry => entry.1 ≠ key

/-- The entries an eviction may take. -/
def takeable (shielded : List Key) (entries : List (Key × BlockStatus)) :
    List (Key × BlockStatus) :=
  entries.filter fun entry => decide (entry.2.refCnt = 0 ∧ entry.1 ∉ shielded)

/-- The evictable keys are those without references; no key is in both partitions. -/
def Coherent : CachePolicy Key → Prop
  | lru policy =>
    ∀ key, policy.evictableBlocks.contains key = true ↔
      ∃ block, policy.blocks.get? key = some block ∧ block.refCnt = 0
  | arc policy => ∀ key, policy.t1.contains key = true → policy.t2.get? key = none

variable {policy : CachePolicy Key} {key : Key} {block : BlockStatus}

/-! ## The cached entries -/

section

variable (coherent : policy.Coherent)
include coherent

theorem get_eq_some_iff : policy.get key = some block ↔ (key, block) ∈ policy.cached := by
  cases policy with
  | lru policy => exact Dict.get?_eq_some_iff
  | arc policy =>
    have apart := coherent key
    simp only [get, ARCCachePolicy.get, cached, mem_append, ← Dict.get?_eq_some_iff]
    unfold Dict.contains at apart
    cases recent : policy.t1.get? key with
    | none => simp
    | some other =>
      rw [recent] at apart
      simp [apart rfl]

theorem cached_keys_nodup : (policy.cached.map fst).Nodup := by
  cases policy with
  | lru policy => exact policy.blocks.distinct
  | arc policy =>
    simp only [cached, map_append]
    refine Nodup.append policy.t1.distinct policy.t2.distinct ?_
    intro key recent frequent
    have found := coherent key (Dict.contains_iff_mem_keys.mpr recent)
    exact Dict.get?_eq_none_iff.mp found frequent

/-- A cached block and the blocks of the other keys. -/
theorem cached_perm (found : policy.get key = some block) :
    policy.cached.Perm ((key, block) :: policy.others key) := by
  let table : Dict Key BlockStatus := ⟨policy.cached, cached_keys_nodup coherent⟩
  have mem : table.get? key = some block :=
    Dict.get?_eq_some_iff.mpr ((get_eq_some_iff coherent).mp found)
  exact Dict.entries_perm_of_get? mem

theorem others_eq_cached (absent : policy.get key = none) : policy.others key = policy.cached := by
  unfold others
  rw [filter_eq_self]
  rintro ⟨other, block⟩ mem
  have found := (get_eq_some_iff coherent).mpr mem
  simp only [ne_eq, decide_eq_true_eq]
  rintro rfl
  rw [absent] at found
  cases found

variable {after : CachePolicy Key}

/-- What lookups find when one entry is replaced or gone. -/
theorem get_of_perm (entry : Option BlockStatus) (coherentAfter : after.Coherent)
    (replaced : after.cached.Perm (entry.toList.map (key, ·) ++ policy.others key)) (other : Key) :
    after.get other = if other = key then entry else policy.get other := by
  apply Option.ext
  intro found
  rw [get_eq_some_iff coherentAfter, replaced.mem_iff, mem_append, others]
  by_cases same : other = key
  · simp [same]
  · simp [same, get_eq_some_iff coherent, Ne.symm same]

end

/-! ## Entering, changing and removing one block -/

@[simp]
theorem cached_markEvictable (policy : CachePolicy Key) (key : Key) :
    (policy.markEvictable key).cached = policy.cached := by
  cases policy <;> rfl

/-- Only one partition of the adaptive policy knows a key. -/
theorem filter_eq_entries {dict : Dict Key BlockStatus} (absent : dict.get? key = none) :
    dict.entries.filter (fun entry => entry.1 ≠ key) = dict.entries :=
  congrArg Dict.entries (Dict.erase_eq_self_of_get? absent)

section

variable (coherent : policy.Coherent)
include coherent

theorem update_cached (found : policy.get key = some block) (written : BlockStatus) :
    (policy.update key written).cached.Perm ((key, written) :: policy.others key) := by
  cases policy with
  | lru policy =>
    have known : policy.blocks.contains key = true := by
      simp only [get, LRUCachePolicy.get] at found
      simp [Dict.contains, found]
    simp only [update, LRUCachePolicy.update, known, if_true, cached, others]
    exact policy.blocks.entries_set_perm key written
  | arc policy =>
    simp only [get, ARCCachePolicy.get] at found
    simp only [update, ARCCachePolicy.update, others, cached, filter_append]
    by_cases recent : policy.t1.contains key = true
    · rw [filter_eq_entries (coherent key recent), if_pos recent]
      exact (policy.t1.entries_set_perm key written).append_right _
    have absent : policy.t1.get? key = none := by simpa [Dict.contains] using recent
    have known : policy.t2.contains key = true := by
      rw [absent] at found
      simp only [Option.none_or] at found
      simp [Dict.contains, found]
    rw [filter_eq_entries absent, if_neg recent, if_pos known]
    exact ((policy.t2.entries_set_perm key written).append_left _).trans perm_middle

theorem remove_cached (key : Key) : (policy.remove key).cached.Perm (policy.others key) := by
  cases policy with
  | lru policy => exact .refl _
  | arc policy =>
    simp only [remove, ARCCachePolicy.remove, others, cached, filter_append]
    by_cases recent : policy.t1.contains key = true
    · rw [filter_eq_entries (coherent key recent), if_pos recent]
      exact .refl _
    have absent : policy.t1.get? key = none := by simpa [Dict.contains] using recent
    rw [filter_eq_entries absent, if_neg recent]
    exact .refl _

theorem insert_cached (absent : policy.get key = none) (block : BlockStatus) :
    (policy.insert key block).cached.Perm ((key, block) :: policy.cached) := by
  rw [← others_eq_cached coherent absent]
  cases policy with
  | lru policy => exact policy.blocks.entries_set_perm key block
  | arc policy =>
    simp only [get, ARCCachePolicy.get, Option.or_eq_none_iff] at absent
    simp only [insert, ARCCachePolicy.insert, others, cached, filter_append,
      filter_eq_entries absent.2]
    exact (policy.t1.entries_set_perm key block).append_right _

/-! ## Coherence -/

/-- A key whose block may be replaced by a pending one. -/
def Enterable : CachePolicy Key → Key → Prop
  | lru policy, key => policy.evictableBlocks.contains key = false
  | arc policy, key => policy.t2.get? key = none

theorem enterable_of_absent (absent : policy.get key = none) : policy.Enterable key := by
  cases policy with
  | lru policy =>
    have before := coherent key
    simp only [get, LRUCachePolicy.get] at absent
    simpa [Enterable, absent] using before
  | arc policy => exact (Option.or_eq_none_iff.mp absent).2

theorem coherent_insert (enterable : policy.Enterable key) (pending : block.refCnt ≠ 0) :
    (policy.insert key block).Coherent := by
  cases policy with
  | lru policy =>
    intro other
    have before := coherent other
    simp only [LRUCachePolicy.insert, if_neg pending, Dict.get?_set]
    by_cases same : other = key
    · subst same
      simp only [Enterable] at enterable
      simp [enterable, pending]
    · simpa [same] using before
  | arc policy =>
    intro other
    have before := coherent other
    simp only [ARCCachePolicy.insert, Dict.contains_set, Bool.or_eq_true, decide_eq_true_eq]
    rintro (rfl | recent)
    · exact enterable
    · exact before recent

theorem coherent_remove (key : Key) : (policy.remove key).Coherent := by
  cases policy with
  | lru policy =>
    intro other
    have before := coherent other
    simp only [LRUCachePolicy.remove, Dict.contains_erase, Dict.get?_erase]
    by_cases same : other = key
    · simp [same]
    · simpa [same] using before
  | arc policy =>
    intro other
    have before := coherent other
    simp only [ARCCachePolicy.remove]
    split
    · simp only [Dict.contains_erase, Bool.and_eq_true]
      exact fun recent => before recent.2
    rw [Dict.get?_erase]
    intro recent
    split
    · rfl
    · exact before recent

end

theorem coherent_arc_update {policy : ARCCachePolicy Key} {written : BlockStatus}
    (coherent : (arc policy).Coherent) : (arc (policy.update key written)).Coherent := by
  intro other
  have before := coherent other
  unfold ARCCachePolicy.update
  split
  · rename_i recent
    simp only [Dict.contains_set, Bool.or_eq_true, decide_eq_true_eq]
    rintro (rfl | known)
    · exact before recent
    · exact before known
  rename_i absent
  split
  · rw [Dict.get?_set]
    intro recent
    split
    · rename_i same
      exact absurd (same ▸ recent) absent
    · exact before recent
  · exact before

section

variable (coherent : policy.Coherent) (found : policy.get key = some block)
    (written : BlockStatus)
include coherent found written

/-- A write that leaves a referenced block referenced. -/
theorem coherent_update (held : block.refCnt ≠ 0) (holds : written.refCnt ≠ 0) :
    (policy.update key written).Coherent := by
  cases policy with
  | lru policy =>
    intro other
    have before := coherent other
    simp only [get, LRUCachePolicy.get] at found
    simp only [LRUCachePolicy.update, Dict.contains, found, Option.isSome_some, if_true,
      Dict.get?_set]
    simp only [Dict.contains] at before
    by_cases same : other = key
    · subst same
      rw [before, found]
      simp [held, holds]
    · simpa [same] using before
  | arc policy => exact coherent_arc_update coherent

/-- A write that takes the last reference off a block. -/
theorem coherent_release (free : written.refCnt = 0) :
    ((policy.update key written).markEvictable key).Coherent := by
  cases policy with
  | lru policy =>
    intro other
    have before := coherent other
    simp only [get, LRUCachePolicy.get] at found
    have known : policy.blocks.contains key = true := by simp [Dict.contains, found]
    simp only [LRUCachePolicy.update, known, if_true, LRUCachePolicy.markEvictable,
      Dict.get?_set, Dict.contains_set]
    by_cases same : other = key
    · simp [same, free]
    · simpa [same] using before
  | arc policy => exact coherent_arc_update coherent

/-- A write that puts the first reference on a block, marked before it. -/
theorem coherent_hold (free : block.refCnt = 0) (holds : written.refCnt ≠ 0) :
    ∃ marked, policy.markNonEvictable key = .ok marked ∧ (marked.update key written).Coherent ∧
      (marked.update key written).cached.Perm ((key, written) :: policy.others key) := by
  cases policy with
  | lru policy =>
    have evictable := (coherent key).mpr ⟨block, found, free⟩
    refine ⟨lru { policy with evictableBlocks := policy.evictableBlocks.erase key }, ?_, ?_⟩
    · simp [markNonEvictable, LRUCachePolicy.markNonEvictable, evictable, Except.map]
    · have known : policy.blocks.contains key = true := by
        simp only [get, LRUCachePolicy.get] at found
        simp [Dict.contains, found]
      simp only [update, LRUCachePolicy.update, known, if_true]
      refine ⟨?_, policy.blocks.entries_set_perm key written⟩
      intro other
      have before := coherent other
      simp only [Dict.get?_set, Dict.contains_erase]
      by_cases same : other = key
      · simp [same, holds]
      · simpa [same] using before
  | arc policy =>
    exact ⟨arc policy, rfl, coherent_arc_update coherent, update_cached coherent found written⟩

end

/-! ## Touching, evicting and clearing -/

variable {shielded keys : List Key} {partition : Dict Key BlockStatus}
  {candidates : List (Key × BlockStatus × Bool)}

/-- The evictable list keeps its keys when one is moved. -/
theorem contains_lru_touch {policy : LRUCachePolicy Key} :
    (policy.touch keys).evictableBlocks.contains key = policy.evictableBlocks.contains key := by
  simp only [LRUCachePolicy.touch]
  generalize policy.evictableBlocks = evictable
  induction keys.reverse generalizing evictable with
  | nil => rfl
  | cons first rest ih =>
    rw [foldl_cons, ih]
    split
    · simp [Dict.contains]
    · rfl

theorem arc_touchKey {policy : ARCCachePolicy Key} (coherent : (arc policy).Coherent) :
    (arc (policy.touchKey key)).Coherent ∧
      (arc (policy.touchKey key)).cached.Perm (arc policy).cached := by
  unfold ARCCachePolicy.touchKey
  cases recent : policy.t1.get? key with
  | some block =>
    have frequent : policy.t2.get? key = none := coherent key (by simp [Dict.contains, recent])
    have listed := Dict.entries_perm_of_get? recent
    dsimp only
    split
    · constructor
      · intro other
        simp only [Dict.contains_erase, Bool.and_eq_true, Bool.not_eq_true',
          decide_eq_false_iff_not, Dict.get?_set]
        rintro ⟨differs, known⟩
        rw [if_neg differs]
        exact coherent other known
      · have entered := policy.t2.entries_set_perm key block
        rw [Dict.erase_eq_self_of_get? frequent] at entered
        have moved := (entered.append_left (policy.t1.erase key).entries).trans perm_middle
        exact moved.trans (listed.symm.append_right policy.t2.entries)
    · have moved : (policy.t1.erase key).set key block = policy.t1.moveToEnd key := by
        simp [Dict.moveToEnd, recent]
      rw [moved]
      constructor
      · intro other
        simpa [Dict.contains] using coherent other
      · exact (policy.t1.entries_moveToEnd_perm key).append_right _
  | none =>
    dsimp only
    split
    · constructor
      · intro other
        simpa using coherent other
      · exact (policy.t2.entries_moveToEnd_perm key).append_left _
    · split
      · exact ⟨coherent, .refl _⟩
      · split <;> exact ⟨coherent, .refl _⟩

/-- A touch changes the order of the cached blocks only. -/
theorem coherent_touch (coherent : policy.Coherent) :
    (policy.touch keys).Coherent ∧ (policy.touch keys).cached.Perm policy.cached := by
  cases policy with
  | lru policy =>
    refine ⟨?_, .refl _⟩
    intro key
    rw [contains_lru_touch]
    exact coherent key
  | arc policy =>
    simp only [touch, ARCCachePolicy.touch]
    induction keys.reverse generalizing policy with
    | nil => exact ⟨coherent, .refl _⟩
    | cons first rest ih =>
      obtain ⟨coherentFirst, sameFirst⟩ := arc_touchKey coherent
      obtain ⟨coherentRest, sameRest⟩ := ih _ coherentFirst
      exact ⟨coherentRest, sameRest.trans sameFirst⟩

theorem coherent_clear (policy : CachePolicy Key) :
    policy.clear.Coherent ∧ policy.clear.cached = [] := by
  cases policy with
  | lru policy =>
    refine ⟨?_, rfl⟩
    intro key
    simp [LRUCachePolicy.clear, Dict.contains]
  | arc policy =>
    refine ⟨?_, rfl⟩
    intro key _
    rfl

/-- What an eviction took out, all of it or nothing. -/
structure Evicted (policy : CachePolicy Key) (number : Nat) (shielded : List Key)
    (evicted : List (Key × BlockStatus)) (after : CachePolicy Key) :
    Prop where
  coherent : after.Coherent
  split : policy.cached.Perm (evicted ++ after.cached)
  all : evicted.length = number
  free : ∀ entry ∈ evicted, entry.2.refCnt = 0
  spared : ∀ entry ∈ evicted, entry.1 ∉ shielded

variable {number : Nat}

/-- What the collection loop adds to the candidates. -/
theorem gather_eq_ok {policy : LRUCachePolicy Key} (shielded : List Key)
    (candidates : List (Key × BlockStatus))
    (evictable : ∀ key ∈ keys, ∃ block, policy.blocks.get? key = some block ∧ block.refCnt = 0)
    (missing : candidates.length < number) :
    ∃ added, policy.gather number shielded keys candidates = .ok (candidates ++ added) ∧
      (candidates ++ added).length ≤ number ∧
      (added.map fst).Sublist keys ∧
      (∀ entry ∈ added, policy.blocks.get? entry.1 = some entry.2 ∧ entry.2.refCnt = 0 ∧
          entry.1 ∉ shielded) ∧
      ((candidates ++ added).length < number →
        ∀ key ∈ keys, key ∉ shielded → key ∈ added.map fst) := by
  induction keys generalizing candidates with
  | nil =>
    exact ⟨[], by simp [LRUCachePolicy.gather], by simpa using missing.le,
      Sublist.refl _, by simp, by simp⟩
  | cons key rest ih =>
    have later :
        ∀ other ∈ rest, ∃ block, policy.blocks.get? other = some block ∧ block.refCnt = 0 :=
      fun other mem => evictable other (mem_cons_of_mem _ mem)
    unfold LRUCachePolicy.gather
    split
    · rename_i held
      obtain ⟨added, gathered, bound, listed, free, all⟩ := ih candidates later missing
      refine ⟨added, gathered, bound, listed.cons key, free, ?_⟩
      intro short
      exact forall_mem_cons.mpr ⟨(absurd held ·), all short⟩
    · rename_i spared
      obtain ⟨block, found, idle⟩ := evictable key mem_cons_self
      rw [found]
      simp only [ne_eq, idle, not_true_eq_false, if_false]
      split
      · rename_i full
        refine ⟨[(key, block)], rfl, full.le, ?_, ?_, ?_⟩
        · exact (nil_sublist rest).cons_cons key
        · simp [found, idle, spared]
        · exact fun short => absurd full short.ne
      rename_i unfull
      have room : (candidates ++ [(key, block)]).length < number := by
        rw [length_append, length_singleton] at unfull ⊢
        omega
      obtain ⟨added, gathered, bound, listed, free, all⟩ := ih _ later room
      rw [append_assoc] at gathered bound all
      refine ⟨(key, block) :: added, gathered, bound, listed.cons_cons key, ?_, ?_⟩
      · exact forall_mem_cons.mpr ⟨⟨found, idle, spared⟩, free⟩
      · intro short
        refine forall_mem_cons.mpr ⟨fun _ => mem_cons_self, ?_⟩
        intro other mem spared
        exact mem_cons_of_mem _ (all short other mem spared)

theorem lru_evict {policy : LRUCachePolicy Key} (coherent : (lru policy).Coherent)
    (number : Nat) (shielded : List Key) :
    policy.evict number shielded = .ok none ∧
        (takeable shielded policy.blocks.entries).length < number ∨
      ∃ evicted after, policy.evict number shielded = .ok (some (evicted, after)) ∧
          Evicted (lru policy) number shielded evicted (lru after) := by
  unfold LRUCachePolicy.evict
  by_cases nothing : number = 0
  · rw [if_pos nothing]
    refine .inr ⟨[], policy, rfl, coherent, .refl _, nothing.symm, ?_, ?_⟩
    all_goals simp
  have evictable : ∀ key ∈ policy.evictableBlocks.keys, ∃ block,
      policy.blocks.get? key = some block ∧ block.refCnt = 0 :=
    fun key mem => (coherent key).mp (Dict.contains_iff_mem_keys.mpr mem)
  obtain ⟨added, gathered, bound, listed, free, all⟩ :=
    gather_eq_ok shielded [] evictable (pos_of_ne_zero nothing)
  rw [nil_append] at gathered bound all
  rw [if_neg nothing, gathered, ok_bind]
  by_cases few : added.length < number
  · refine .inl ⟨if_pos few, ?_⟩
    have taken : (takeable shielded policy.blocks.entries).map fst ⊆ added.map fst := by
      intro key mem
      obtain ⟨entry, known, rfl⟩ := mem_map.mp mem
      simp only [takeable, mem_filter, decide_eq_true_eq] at known
      have idle := (coherent entry.1).mpr ⟨_, Dict.get?_eq_some_iff.mpr known.1, known.2.1⟩
      exact all few entry.1 (Dict.contains_iff_mem_keys.mp idle) known.2.2
    have nodup : ((takeable shielded policy.blocks.entries).map fst).Nodup :=
      policy.blocks.distinct.sublist (filter_sublist.map fst)
    have counted := (subperm_of_subset nodup taken).length_le
    rw [length_map, length_map] at counted
    exact counted.trans_lt few
  · rw [if_neg few]
    have nodup : (added.map fst).Nodup := policy.evictableBlocks.distinct.sublist listed
    refine .inr ⟨added, _, rfl, ?_, ?_, by omega, fun entry mem => (free entry mem).2.1,
      fun entry mem => (free entry mem).2.2⟩
    · intro key
      have before := coherent key
      simp only [Dict.contains, Dict.get?_eraseAll] at before ⊢
      by_cases taken : key ∈ added.map fst
      · simp [taken]
      · simpa only [taken, if_false] using before
    · exact Dict.entries_perm_eraseAll nodup fun entry mem => (free entry mem).1

theorem pick_eq_some
    (picked : ARCCachePolicy.pick partition shielded selected = some (key, block)) :
    partition.get? key = some block ∧ block.refCnt = 0 ∧ key ∉ shielded ∧ key ∉ selected := by
  have passes := find?_some picked
  rw [decide_eq_true_eq] at passes
  exact ⟨Dict.get?_eq_some_iff.mpr (mem_of_find?_eq_some picked), passes⟩

/-- A candidate is a block without references from the partition it names. -/
def Eligible (policy : ARCCachePolicy Key) (shielded : List Key)
    (candidate : Key × BlockStatus × Bool) : Prop :=
  (if candidate.2.2 then policy.t1 else policy.t2).get? candidate.1 = some candidate.2.1 ∧
    candidate.2.1.refCnt = 0 ∧ candidate.1 ∉ shielded

/-- What a selection collects: as many candidates as asked for, no key twice. -/
theorem select_eq_some {policy : ARCCachePolicy Key}
    (distinct : (candidates.map fst).Nodup)
    (eligible : ∀ candidate ∈ candidates, Eligible policy shielded candidate)
    (found : policy.select shielded number virtualT1Size candidates = some selected) :
    selected.length = candidates.length + number ∧ (selected.map fst).Nodup ∧
      ∀ candidate ∈ selected, Eligible policy shielded candidate := by
  induction number generalizing virtualT1Size candidates with
  | zero =>
    cases found
    exact ⟨rfl, distinct, eligible⟩
  | succ number ih =>
    -- whichever partition the next candidate comes from, it is new and eligible
    have extend
        {key : Key}
        {block : BlockStatus}
        {recent : Bool}
        {size : Int}
        (picked : ARCCachePolicy.pick (if recent then policy.t1 else policy.t2) shielded
            (candidates.map fst) = some (key, block))
        (next : policy.select shielded number size (candidates ++ [(key, block, recent)]) =
            some selected) :
        selected.length = candidates.length + (number + 1) ∧ (selected.map fst).Nodup ∧
          ∀ candidate ∈ selected, Eligible policy shielded candidate := by
      obtain ⟨known, idle, spared, fresh⟩ := pick_eq_some picked
      obtain ⟨length, nodup, all⟩ :=
        ih (by
            rw [map_append, nodup_append]
            refine ⟨distinct, nodup_singleton _, ?_⟩
            rintro other mem _ (_ | ⟨_, ⟨⟩⟩) rfl
            exact fresh mem)
          (by
            intro candidate mem
            rcases mem_append.mp mem with mem | mem
            · exact eligible candidate mem
            · rw [mem_singleton.mp mem]
              exact ⟨known, idle, spared⟩)
          next
      refine ⟨?_, nodup, all⟩
      rw [length, length_append, length_singleton]
      omega
    unfold ARCCachePolicy.select at found
    dsimp only at found
    split at found
    · rename_i key block recent
      split at recent
      · exact extend (by simpa using recent) found
      · cases recent
    · split at found
      · rename_i key block frequent
        exact extend (by simpa using frequent) found
      · cases found

/-- Taking candidates out erases them from the partitions they came from. -/
theorem foldl_take (policy : ARCCachePolicy Key) (candidates : List (Key × BlockStatus × Bool)) :
    (candidates.foldl ARCCachePolicy.take policy).t1 =
        policy.t1.eraseAll ((candidates.filter fun entry => entry.2.2).map fst) ∧
      (candidates.foldl ARCCachePolicy.take policy).t2 =
        policy.t2.eraseAll ((candidates.filter fun entry => !entry.2.2).map fst) := by
  induction candidates generalizing policy with
  | nil => exact ⟨rfl, rfl⟩
  | cons candidate rest ih =>
    obtain ⟨key, block, recent⟩ := candidate
    cases recent with
    | _ => exact ih _

/-- The eligible candidates of one partition and what the partition keeps. -/
theorem partition_perm (nodup : (candidates.map fst).Nodup)
    (found : ∀ candidate ∈ candidates, partition.get? candidate.1 = some candidate.2.1) :
    partition.entries.Perm
      ((candidates.map fun candidate => (candidate.1, candidate.2.1)) ++
        (partition.eraseAll (candidates.map fst)).entries) := by
  have keys : (candidates.map fun candidate => (candidate.1, candidate.2.1)).map fst =
      candidates.map fst := by
    simp
  rw [← keys] at nodup ⊢
  refine Dict.entries_perm_eraseAll nodup ?_
  intro entry mem
  obtain ⟨candidate, taken, rfl⟩ := mem_map.mp mem
  exact found candidate taken

theorem arc_evict {policy : ARCCachePolicy Key}
    {after : ARCCachePolicy Key} (coherent : (arc policy).Coherent)
    (ran : policy.evict number shielded = some (evicted, after)) :
    Evicted (arc policy) number shielded evicted (arc after) := by
  unfold ARCCachePolicy.evict at ran
  by_cases nothing : number = 0
  · rw [if_pos nothing] at ran
    cases ran
    exact ⟨coherent, .refl _, nothing.symm, by simp, by simp⟩
  rw [if_neg nothing, Option.map_eq_some_iff] at ran
  obtain ⟨candidates, selected, same⟩ := ran
  obtain ⟨length, nodup, eligible⟩ := select_eq_some (by simp) (by simp) selected
  obtain ⟨first, second⟩ := foldl_take policy candidates
  cases same
  refine ⟨?_, ?_, by simpa using length, ?_, ?_⟩
  · intro key
    simp only [first, second, Dict.contains, Dict.get?_eraseAll]
    intro recent
    have apart := coherent key
    split
    · rfl
    · split at recent
      · cases recent
      · exact apart recent
  · have fromRecent : ∀ candidate ∈ candidates.filter (fun entry => entry.2.2),
        policy.t1.get? candidate.1 = some candidate.2.1 := by
      intro candidate mem
      obtain ⟨taken, recent⟩ := mem_filter.mp mem
      simpa [recent] using (eligible candidate taken).1
    have fromFrequent : ∀ candidate ∈ candidates.filter (fun entry => !entry.2.2),
        policy.t2.get? candidate.1 = some candidate.2.1 := by
      intro candidate mem
      obtain ⟨taken, frequent⟩ := mem_filter.mp mem
      rw [Bool.not_eq_true'] at frequent
      simpa [frequent] using (eligible candidate taken).1
    have recent := partition_perm (nodup.sublist (filter_sublist.map fst)) fromRecent
    have frequent := partition_perm (nodup.sublist (filter_sublist.map fst)) fromFrequent
    have divided :=
      (filter_append_perm (fun entry : Key × BlockStatus × Bool => entry.2.2)
        candidates).map fun candidate => (candidate.1, candidate.2.1)
    rw [map_append] at divided
    simp only [cached, first, second]
    refine (recent.append frequent).trans ?_
    rw [append_assoc]
    refine ((perm_append_comm_assoc _ _ _).append_left _).trans ?_
    rw [← append_assoc]
    exact divided.append_right _
  · intro entry mem
    obtain ⟨candidate, taken, rfl⟩ := mem_map.mp mem
    exact (eligible candidate taken).2.1
  · intro entry mem
    obtain ⟨candidate, taken, rfl⟩ := mem_map.mp mem
    exact (eligible candidate taken).2.2

/-- An eviction never raises; it takes out what it was asked for, or changes nothing. -/
theorem evict_cases (coherent : policy.Coherent) :
    policy.evict number shielded = .ok none ∨ ∃ evicted after,
      policy.evict number shielded = .ok (some (evicted, after)) ∧
        Evicted policy number shielded evicted after := by
  cases policy with
  | lru policy =>
    rcases lru_evict coherent number shielded with ⟨failed, _⟩ | ⟨evicted, after, done, result⟩
    · exact .inl (by simp [evict, failed, Except.map])
    · exact .inr ⟨evicted, lru after, by simp [evict, done, Except.map], result⟩
  | arc policy =>
    cases ran : policy.evict number shielded with
    | none => exact .inl (by simp [evict, ran])
    | some result =>
      obtain ⟨evicted, after⟩ := result
      exact .inr ⟨evicted, arc after, by simp [evict, ran], arc_evict coherent ran⟩

end CachePolicy

end VllmCore.Offload
