import VllmCore.Offload.CPURuns

namespace VllmCore.Offload

open Lib List

/-!
# When an eviction finds its blocks

With the LRU policy an eviction succeeds whenever enough blocks can be taken.  With the
adaptive policy T1 gives up blocks only while it is not smaller than its target, so an
eviction that T2 cannot complete fails although T1 holds blocks that could be taken.
-/

namespace CachePolicy

variable {Key : Type} [DecidableEq Key]

/-- A call the manager makes, with the write to the block that goes with it. -/
inductive Step (policy : CachePolicy Key) : CachePolicy Key → Prop where
  /-- A store enters keys that are not cached, possibly one of them twice. -/
  | insert (entries : List (Key × BlockStatus))
    (pending : ∀ entry ∈ entries, policy.get entry.1 = none ∧ entry.2.refCnt = -1) :
    Step policy (CPUOffloadingManager.insertBlocks policy entries)
  | remove (key : Key) :
    Step policy (policy.remove key)
  | touch (keys : List Key) :
    Step policy (policy.touch keys)
  | clear :
    Step policy policy.clear
  | evict (number : Nat) (shielded : List Key) {result : List (Key × BlockStatus) × CachePolicy Key}
    (done : policy.evict number shielded = .ok (some result)) :
    Step policy result.2
  /-- A reference is added, the first one after a mark. -/
  | hold {key : Key} {block written : BlockStatus} {marked : CachePolicy Key}
    (found : policy.get key = some block)
    (done : (if block.refCnt = 0 then policy.markNonEvictable key else .ok policy) = .ok marked)
    (holds : written.refCnt ≠ 0) :
    Step policy (marked.update key written)
  /-- A reference is dropped or a store completed; a block without references is marked. -/
  | release {key : Key} {block : BlockStatus} (found : policy.get key = some block)
    (held : block.refCnt ≠ 0) (written : BlockStatus) :
    Step policy
      (if written.refCnt = 0 then (policy.update key written).markEvictable key
      else policy.update key written)

/-- A state of a policy under the calls of its manager. -/
def Reached (policy : CachePolicy Key) : Prop :=
  ∃ name cacheCapacity rounding,
    Relation.ReflTransGen Step (init name cacheCapacity rounding) policy

variable {policy after : CachePolicy Key} {number : Nat} {shielded : List Key} {key : Key}
  {entries : List (Key × BlockStatus)} {partition : Dict Key BlockStatus} {selected : List Key}

theorem coherent_insertBlocks (coherent : policy.Coherent)
    (pending : ∀ entry ∈ entries, policy.Enterable entry.1 ∧ entry.2.refCnt = -1) :
    (CPUOffloadingManager.insertBlocks policy entries).Coherent := by
  induction entries generalizing policy with
  | nil => exact coherent
  | cons entry rest ih =>
    obtain ⟨⟨enterable, stored⟩, later⟩ := forall_mem_cons.mp pending
    have held : entry.2.refCnt ≠ 0 := by omega
    refine ih (coherent_insert coherent enterable held) ?_
    cases policy with
    | lru policy => simpa [insert, LRUCachePolicy.insert, Enterable, held] using later
    | arc policy => exact later

theorem Step.coherent (step : Step policy after) (coherent : policy.Coherent) : after.Coherent := by
  cases step with
  | insert entries pending =>
    refine coherent_insertBlocks coherent ?_
    intro entry mem
    exact (pending entry mem).imp_left (enterable_of_absent coherent)
  | remove key => exact coherent_remove coherent key
  | touch keys => exact (coherent_touch coherent).1
  | clear => exact (coherent_clear policy).1
  | evict number shielded done =>
    rcases evict_cases coherent with failed | ⟨evicted, after, ran, result⟩
    · rw [failed] at done
      cases done
    · rw [ran] at done
      cases done
      exact result.coherent
  | hold found done holds =>
    split at done
    · rename_i free
      obtain ⟨marked, ran, kept, _⟩ := coherent_hold coherent found _ free holds
      rw [ran] at done
      cases done
      exact kept
    · rename_i held
      cases done
      exact coherent_update coherent found _ held holds
  | release found held written =>
    split
    · rename_i free
      exact coherent_release coherent found written free
    · rename_i holds
      exact coherent_update coherent found written held holds

theorem Reached.coherent (reached : Reached policy) : policy.Coherent := by
  obtain ⟨name, cacheCapacity, rounding, steps⟩ := reached
  induction steps with
  | refl =>
    cases name with
    | lru => simp [init, Coherent, Dict.contains]
    | arc =>
      intro key _
      rfl
  | tail steps step ih => exact step.coherent ih

/-! ## Counting what can be taken -/

theorem takeable_append :
    takeable (shielded ++ (selected ++ [key])) partition.entries =
      takeable (shielded ++ selected) (partition.erase key).entries := by
  simp only [takeable, Dict.erase, filter_filter]
  congr 1
  funext entry
  simp [Bool.and_assoc]

/-- A picked block is one of those that could be taken. -/
theorem length_takeable_append
    (picked : ARCCachePolicy.pick partition shielded selected = some (key, block)) :
    (takeable (shielded ++ (selected ++ [key])) partition.entries).length + 1 =
      (takeable (shielded ++ selected) partition.entries).length := by
  obtain ⟨known, idle, spared, fresh⟩ := pick_eq_some picked
  have listed : (takeable (shielded ++ selected) partition.entries).Perm
      (takeable (shielded ++ selected) ((key, block) :: (partition.erase key).entries)) :=
    (Dict.entries_perm_of_get? known).filter _
  rw [listed.length_eq, takeable_append, takeable, takeable, filter_cons_of_pos, length_cons]
  simp [idle, spared, fresh]

theorem takeable_eq_nil (picked : ARCCachePolicy.pick partition shielded selected = none) :
    takeable (shielded ++ selected) partition.entries = [] := by
  simpa [ARCCachePolicy.pick, takeable] using picked

/-- A selection finds the blocks T1 may give up and those of T2. -/
theorem select_isSome_iff {policy : ARCCachePolicy Key}
    (coherent : (arc policy).Coherent) :
    (policy.select shielded number virtualT1Size candidates).isSome ↔ number ≤
      min (takeable (shielded ++ candidates.map Prod.fst) policy.t1.entries).length
          (virtualT1Size + 1 - ARCCachePolicy.truncate policy.targetT1Size).toNat +
        (takeable (shielded ++ candidates.map Prod.fst) policy.t2.entries).length := by
  induction number generalizing virtualT1Size candidates with
  | zero => simp [ARCCachePolicy.select]
  | succ number ih =>
    unfold ARCCachePolicy.select
    dsimp only
    split
    · rename_i key block recent
      split at recent
      · have fewer := length_takeable_append recent
        have absent := coherent key (by simp [Dict.contains, (pick_eq_some recent).1])
        rw [ih, map_append, map_singleton, @takeable_append _ _ _ _ policy.t2,
          Dict.erase_eq_self_of_get? absent]
        dsimp only
        omega
      · cases recent
    · rename_i recent
      have none : min (takeable (shielded ++ candidates.map Prod.fst) policy.t1.entries).length
          (virtualT1Size + 1 - ARCCachePolicy.truncate policy.targetT1Size).toNat = 0 := by
        split at recent
        · simp [takeable_eq_nil recent]
        · omega
      rw [none]
      split
      · rename_i key block frequent
        have fewer := length_takeable_append frequent
        have absent : policy.t1.get? key = .none := by
          by_contra known
          have apart := coherent key (Option.isSome_iff_ne_none.mpr known)
          simp [(pick_eq_some frequent).1] at apart
        rw [ih, map_append, map_singleton, @takeable_append _ _ _ _ policy.t1,
          Dict.erase_eq_self_of_get? absent, none]
        dsimp only
        omega
      · rename_i frequent
        simp [takeable_eq_nil frequent]

/-- T1 with its target lets an eviction have `number` blocks. -/
def Allows (policy : CachePolicy Key) (number : Nat) (shielded : List Key) : Prop :=
  match policy with
  | lru _ => True
  | arc policy =>
    number ≤ (policy.t1.size + 1 - ARCCachePolicy.truncate policy.targetT1Size).toNat +
        (takeable shielded policy.t2.entries).length

theorem evict_isSome_iff {outcome : Option (List (Key × BlockStatus) × CachePolicy Key)}
    (coherent : policy.Coherent) (ran : policy.evict number shielded = .ok outcome) :
    outcome.isSome ↔
      number ≤ (takeable shielded policy.cached).length ∧ policy.Allows number shielded := by
  cases policy with
  | lru policy =>
    rcases lru_evict coherent number shielded with ⟨failed, few⟩ | ⟨evicted, after, done, result⟩
    · simp only [evict, failed, Except.map, Option.map_none, Except.ok.injEq] at ran
      simpa [← ran, cached, Allows] using few
    simp only [evict, done, Except.map, Option.map_some, Except.ok.injEq] at ran
    have counted : (takeable shielded (lru policy).cached).Perm
        (takeable shielded (evicted ++ (lru after).cached)) :=
      result.split.filter _
    rw [counted.length_eq, takeable, filter_append, filter_eq_self.mpr, length_append, result.all]
    · simp [← ran, Allows]
    · intro entry mem
      exact decide_eq_true ⟨result.free entry mem, result.spared entry mem⟩
  | arc policy =>
    simp only [evict, Except.ok.injEq, ARCCachePolicy.evict] at ran
    subst ran
    have selected : (policy.select shielded number policy.t1.size []).isSome ↔ _ :=
      select_isSome_iff coherent
    rw [map_nil, append_nil] at selected
    rw [Option.isSome_map, cached, takeable, filter_append, length_append]
    split
    · simp [Allows, *]
    · rw [Option.isSome_map, selected]
      simp only [Allows, takeable]
      omega

/-- An eviction returns blocks exactly when enough can be taken and T1 allows it. -/
theorem evict_takes_exactly (reached : Reached policy) (number : Nat) (shielded : List Key) :
    ∃ outcome, policy.evict number shielded = .ok outcome ∧
      (outcome.isSome ↔ number ≤ (takeable shielded policy.cached).length ∧
        policy.Allows number shielded) ∧
      ∀ evicted after, outcome = some (evicted, after) →
        evicted.length = number ∧ (evicted.map Prod.fst).Nodup ∧
          evicted ⊆ takeable shielded policy.cached ∧
          policy.cached.Perm (evicted ++ after.cached) := by
  have coherent := reached.coherent
  rcases evict_cases coherent with failed | ⟨evicted, after, done, result⟩
  · exact ⟨none, failed, evict_isSome_iff coherent failed, by simp⟩
  refine ⟨_, done, evict_isSome_iff coherent done, ?_⟩
  rintro _ _ ⟨⟩
  have distinct := (result.split.map Prod.fst).nodup (cached_keys_nodup coherent)
  rw [map_append] at distinct
  refine ⟨result.all, distinct.of_append_left, ?_, result.split⟩
  intro entry member
  rw [takeable, mem_filter, result.split.mem_iff]
  exact ⟨mem_append_left _ member,
    decide_eq_true ⟨result.free entry member, result.spared entry member⟩⟩

/-- Two blocks whose stores are completed. -/
def twoStored : CachePolicy Nat :=
  ((CPUOffloadingManager.insertBlocks (init .arc 2 id)
    [(1, .new 0), (2, .new 1)]).update 1 ⟨0, 0⟩).update 2 ⟨0, 1⟩

theorem twoStored_reached : twoStored.Reached := by
  have entered : Step (init .arc 2 id) _ := .insert [(1, .new 0), (2, .new 1)] (by simp; decide)
  have steps := Relation.ReflTransGen.single entered
  have first := steps.tail (@Step.release _ _ _ 1 (.new 0) rfl (by decide) ⟨0, 0⟩)
  exact ⟨.arc, 2, id, first.tail (@Step.release _ _ _ 2 (.new 1) rfl (by decide) ⟨0, 1⟩)⟩

theorem twoStored_evict_one :
    ∃ evicted after, twoStored.evict 1 [] = .ok (some (evicted, after)) ∧ evicted.length = 1 := by
  obtain ⟨outcome, returned, succeeds, taken⟩ := evict_takes_exactly twoStored_reached 1 []
  obtain ⟨⟨evicted, after⟩, rfl⟩ :=
    Option.isSome_iff_exists.mp (succeeds.mpr ⟨by decide, by change 1 ≤ _; decide +kernel⟩)
  exact ⟨evicted, after, returned, (taken evicted after rfl).1⟩

/-- After the older block is evicted and touched twice, the other one cannot be evicted. -/
theorem twoStored_touched_evict_none :
    ∃ policy : CachePolicy Nat, policy.Reached ∧
      satisfies (policy.evict 1 []) Option.isNone = true ∧
      takeable [] policy.cached = [(2, ⟨0, 1⟩)] := by
  obtain ⟨name, cacheCapacity, rounding, steps⟩ := twoStored_reached
  refine ⟨_, ⟨name, cacheCapacity, rounding,
    (steps.tail (.evict 1 [] rfl)).tail (.touch [1, 1])⟩, ?_, ?_⟩
  all_goals decide +kernel

end CachePolicy

end VllmCore.Offload
