import VllmCore.Offload.CPUManager
import VllmCore.Offload.PolicyLaws

namespace VllmCore.Offload

open Lib List CachePolicy BlockStatus

/-!
# Accounting of the CPU offloading manager

Every slot handed out so far belongs to one cached block or waits in the free list,
and the two counters are the numbers of blocks without references and of pending
blocks.  Each call keeps this, also where it raises; a call replaces the entry of one
key, removes a pending one, or evicts blocks without references and enters new ones.
-/

namespace CPUOffloadingManager

variable {Key : Type} [DecidableEq Key]

/-- The slots of the cached blocks. -/
def owned (manager : CPUOffloadingManager Key) : List Nat :=
  manager.policy.cached.map (BlockStatus.blockId ∘ Prod.snd)

/-- The number of cached blocks with a reference count. -/
def number (manager : CPUOffloadingManager Key) (refCnt : Int) : Nat :=
  manager.policy.cached.countP fun entry => decide (entry.2.refCnt = refCnt)

/-- The invariant: the policy is coherent and slots and counters are accounted for. -/
structure Sound (manager : CPUOffloadingManager Key) : Prop where
  coherent : manager.policy.Coherent
  slots : (manager.owned ++ manager.freeList).Perm (range manager.numAllocatedBlocks)
  bounded : manager.numAllocatedBlocks ≤ manager.numBlocks
  evictable : manager.numEvictableCacheBlocks = manager.number 0
  pending : manager.numWritePendingBlocks = manager.number (-1)
  width : ∀ entry ∈ manager.policy.cached, entry.2.refCnt < 2 ^ 31

variable {manager after : CPUOffloadingManager Key} {key : Key} {block : BlockStatus}

/-! ## Changes of one entry -/

/-- One for a block with this reference count. -/
def indicator (block : BlockStatus) (refCnt : Int) : Int :=
  if block.refCnt = refCnt then 1 else 0

/-- How many of some entries have this reference count. -/
def tally (entries : List (Key × BlockStatus)) (refCnt : Int) : Nat :=
  entries.countP fun entry => decide (entry.2.refCnt = refCnt)

section

omit [DecidableEq Key]

@[simp]
theorem tally_nil (refCnt : Int) : tally ([] : List (Key × BlockStatus)) refCnt = 0 := rfl

theorem tally_of_same {entries : List (Key × BlockStatus)}
    (same : ∀ entry ∈ entries, entry.2.refCnt = value) (refCnt : Int) :
    tally entries refCnt = if value = refCnt then entries.length else 0 := by
  unfold tally
  split
  case isTrue equal => exact countP_eq_length.mpr fun entry mem => by simp [same entry mem, equal]
  case isFalse differs => exact countP_eq_zero.mpr fun entry mem => by simp [same entry mem, differs]

theorem tally_singleton (key : Key) (refCnt : Int) :
    tally [(key, block)] refCnt = indicator block refCnt := by
  unfold tally indicator
  by_cases same : block.refCnt = refCnt <;> simp [same]

end

/-- The entry of a key after one call for it; all other entries stay. -/
structure Rewrote (manager : CPUOffloadingManager Key) (key : Key) (entry : Option BlockStatus)
    (after : CPUOffloadingManager Key) :
    Prop where
  sound : after.Sound
  get : ∀ other, after.policy.get other = if other = key then entry else manager.policy.get other

/-- Some cached entries give way to others; their slots are freed or handed out. -/
theorem Sound.exchange (sound : manager.Sound) (gone added : List (Key × BlockStatus))
    (fresh : Nat) (before : manager.policy.cached.Perm (gone ++ kept))
    (behind : after.policy.cached.Perm (added ++ kept)) (coherent : after.policy.Coherent)
    (width : ∀ entry ∈ added, entry.2.refCnt < 2 ^ 31)
    (allocated : after.numAllocatedBlocks = manager.numAllocatedBlocks + fresh)
    (bounded : after.numAllocatedBlocks ≤ after.numBlocks)
    (slots :
      (added.map (blockId ∘ Prod.snd) ++ after.freeList).Perm
        (gone.map (blockId ∘ Prod.snd) ++ manager.freeList ++
          range' manager.numAllocatedBlocks fresh))
    (evictable :
      after.numEvictableCacheBlocks + tally gone 0 = manager.numEvictableCacheBlocks + tally added 0)
    (pending :
      after.numWritePendingBlocks + tally gone (-1) =
        manager.numWritePendingBlocks + tally added (-1)) :
    after.Sound := by
  have counts (refCnt : Int) :
      after.number refCnt + tally gone refCnt = manager.number refCnt + tally added refCnt := by
    unfold number tally
    rw [before.countP_eq, behind.countP_eq, countP_append, countP_append]
    omega
  refine ⟨coherent, ?_, bounded, ?_, ?_, ?_⟩
  · have ownedAfter := behind.map (blockId ∘ Prod.snd)
    have ownedBefore := before.map (blockId ∘ Prod.snd)
    rw [map_append] at ownedAfter ownedBefore
    rw [allocated, range_eq_range', ← range'_append_1, zero_add, ← range_eq_range']
    refine Perm.trans (perm_iff_count.mpr fun slot => ?_) (sound.slots.append_right _)
    have after := ownedAfter.count_eq slot
    have before := ownedBefore.count_eq slot
    have moved := slots.count_eq slot
    simp only [count_append, owned] at after before moved ⊢
    omega
  · have number := counts 0
    rw [sound.evictable] at evictable
    omega
  · have number := counts (-1)
    rw [sound.pending] at pending
    omega
  · intro entry mem
    rcases mem_append.mp (behind.mem_iff.mp mem) with entered | stays
    · exact width entry entered
    · exact sound.width entry (before.mem_iff.mpr (mem_append_right _ stays))

/-- The entry of a cached key is replaced, its slot kept. -/
theorem Sound.replace (sound : manager.Sound) (found : manager.policy.get key = some block)
    (written : BlockStatus) (slot : written.blockId = block.blockId)
    (width : written.refCnt < 2 ^ 31) (coherent : after.policy.Coherent)
    (replaced : after.policy.cached.Perm ((key, written) :: manager.policy.others key))
    (sameBlocks : after.numBlocks = manager.numBlocks)
    (sameAllocated : after.numAllocatedBlocks = manager.numAllocatedBlocks)
    (sameFree : after.freeList = manager.freeList)
    (evictable :
      after.numEvictableCacheBlocks =
        manager.numEvictableCacheBlocks - indicator block 0 + indicator written 0)
    (pending :
      after.numWritePendingBlocks =
        manager.numWritePendingBlocks - indicator block (-1) + indicator written (-1)) :
    manager.Rewrote key (some written) after := by
  refine ⟨?_, get_of_perm sound.coherent (some written) coherent replaced⟩
  refine sound.exchange [(key, block)] [(key, written)] 0 (cached_perm sound.coherent found)
    replaced coherent (by simpa using width) sameAllocated ?_ ?_ ?_ ?_
  · rw [sameAllocated, sameBlocks]
    exact sound.bounded
  · simp [slot, sameFree]
  · rw [tally_singleton, tally_singleton]
    omega
  · rw [tally_singleton, tally_singleton]
    omega

/-! ## The calls for single keys -/

theorem int32_succ (lower : 0 ≤ value) (upper : value < 2 ^ 31) :
    int32 (value + 1) ≠ 0 ∧ int32 (value + 1) ≠ -1 ∧ int32 (value + 1) < 2 ^ 31 := by
  simp only [int32, Int.bmod_def]
  omega

theorem int32_pred (lower : 0 < value) (upper : value < 2 ^ 31) :
    int32 (value - 1) = value - 1 := by
  simp only [int32, Int.bmod_def]
  omega

section

variable (sound : manager.Sound) (found : manager.policy.get key = some block)
include sound found

theorem Sound.refCnt_lt : block.refCnt < 2 ^ 31 :=
  sound.width _ ((get_eq_some_iff sound.coherent).mp found)

theorem Sound.evictable_pos (free : block.refCnt = 0) : 0 < manager.numEvictableCacheBlocks := by
  rw [sound.evictable, Int.natCast_pos]
  exact countP_pos_iff.mpr ⟨_, (get_eq_some_iff sound.coherent).mp found, by simpa using free⟩

/-- A reference to a ready block is taken. -/
theorem prepareLoadKey_ok (ready : 0 ≤ block.refCnt) :
    ∃ after, prepareLoadKey key manager = .ok block.blockId after ∧
      manager.Rewrote key (some { block with refCnt := int32 (block.refCnt + 1) }) after := by
  obtain ⟨referenced, settled, width⟩ := int32_succ ready (sound.refCnt_lt found)
  have isReady : block.isReady = true := by simpa [isReady] using ready
  have waiting : block.refCnt ≠ -1 := by omega
  by_cases free : block.refCnt = 0
  · obtain ⟨marked, marks, coherent, replaced⟩ :=
      coherent_hold sound.coherent found
        { block with refCnt := int32 (block.refCnt + 1) } free referenced
    have pos := sound.evictable_pos found free
    have enough : 0 ≤ manager.numEvictableCacheBlocks - 1 := by omega
    let counted :=
      { manager with
        policy := marked
        numEvictableCacheBlocks := manager.numEvictableCacheBlocks - 1 }
    refine ⟨counted.addReference key block, ?_, ?_⟩
    · unfold prepareLoadKey
      rw [found]
      dsimp only
      rw [if_neg (by simp [isReady]), if_pos free, marks]
      exact if_pos enough
    · refine sound.replace found _ rfl width coherent replaced rfl rfl rfl ?_ ?_
      · rw [indicator, if_pos free, indicator, if_neg referenced, add_zero]
        rfl
      · rw [indicator, if_neg waiting, indicator, if_neg settled]
        simp [addReference, counted]
  · have coherent := coherent_update sound.coherent found
      { block with refCnt := int32 (block.refCnt + 1) } free referenced
    have replaced := update_cached sound.coherent found
      { block with refCnt := int32 (block.refCnt + 1) }
    refine ⟨manager.addReference key block, ?_, ?_⟩
    · simp [prepareLoadKey, found, isReady, free]
    · refine sound.replace found _ rfl width coherent replaced rfl rfl rfl ?_ ?_
      · simp [addReference, indicator, free, referenced]
      · simp [addReference, indicator, waiting, settled]

/-- A block loses its last reference, or a pending one becomes readable. -/
theorem Sound.release (held : block.refCnt ≠ 0) (sameBlocks : after.numBlocks = manager.numBlocks)
    (sameAllocated : after.numAllocatedBlocks = manager.numAllocatedBlocks)
    (sameFree : after.freeList = manager.freeList)
    (released :
      after.policy = (manager.policy.update key { block with refCnt := 0 }).markEvictable key)
    (evictable : after.numEvictableCacheBlocks = manager.numEvictableCacheBlocks + 1)
    (pending : after.numWritePendingBlocks = manager.numWritePendingBlocks - indicator block (-1)) :
    manager.Rewrote key (some { block with refCnt := 0 }) after := by
  have coherent := coherent_release sound.coherent found
    { block with refCnt := 0 } rfl
  have replaced := update_cached sound.coherent found { block with refCnt := 0 }
  rw [← cached_markEvictable _ key, ← released] at replaced
  rw [← released] at coherent
  refine sound.replace found _ rfl (by norm_num) coherent replaced sameBlocks sameAllocated
    sameFree ?_ ?_
  · simp [evictable, indicator, held]
  · simp [pending, indicator]

/-- A reference to a block is given back. -/
theorem completeLoadKey_ok (referenced : 0 < block.refCnt) :
    ∃ after, completeLoadKey key manager = .ok () after ∧
      manager.Rewrote key (some { block with refCnt := block.refCnt - 1 }) after := by
  have limit := sound.refCnt_lt found
  have lower := int32_pred referenced limit
  have held : block.refCnt ≠ 0 := by omega
  have waiting : block.refCnt ≠ -1 := by omega
  by_cases last : block.refCnt - 1 = 0
  · rw [last] at lower ⊢
    refine ⟨
      { manager with
        numEvictableCacheBlocks := manager.numEvictableCacheBlocks + 1
        policy := (manager.policy.update key { block with refCnt := 0 }).markEvictable key },
      ?_, ?_⟩
    · simp [completeLoadKey, found, referenced, lower, last]
    · apply sound.release found held <;> simp [indicator, waiting]
  · have coherent := coherent_update sound.coherent found
      { block with refCnt := block.refCnt - 1 } held last
    have replaced := update_cached sound.coherent found
      { block with refCnt := block.refCnt - 1 }
    refine ⟨
      { manager with
        policy := manager.policy.update key { block with refCnt := block.refCnt - 1 } },
      ?_, ?_⟩
    · simp [completeLoadKey, found, referenced, lower, last]
    have settled : block.refCnt - 1 ≠ -1 := by omega
    refine sound.replace found _ rfl ?_ coherent replaced rfl rfl rfl ?_ ?_
    · show block.refCnt - 1 < 2 ^ 31
      omega
    · simp [indicator, held, last]
    · simp [indicator, waiting, settled]

/-- A pending block becomes readable. -/
theorem completeStoreKey_pending (stored : block.refCnt = -1) :
    ∃ after, completeStoreKey key manager = .ok [key] after ∧
      manager.Rewrote key (some { block with refCnt := 0 }) after := by
  refine ⟨
    { manager with
      numWritePendingBlocks := manager.numWritePendingBlocks - 1
      numEvictableCacheBlocks := manager.numEvictableCacheBlocks + 1
      policy := (manager.policy.update key { block with refCnt := 0 }).markEvictable key },
    ?_, ?_⟩
  · simp [completeStoreKey, found, isReady, stored]
  · apply sound.release found <;> simp [indicator, stored]

/-- A pending block leaves the tier. -/
theorem dropStoreKey_pending (stored : block.refCnt = -1) :
    ∃ after, dropStoreKey key manager = .ok () after ∧ manager.Rewrote key none after := by
  refine ⟨
    { manager with
      numWritePendingBlocks := manager.numWritePendingBlocks - 1
      policy := manager.policy.remove key
      freeList := manager.freeList ++ [block.blockId] },
    ?_, ?_⟩
  · simp [dropStoreKey, found, isReady, stored]
  have coherent := coherent_remove sound.coherent key
  have removed := remove_cached sound.coherent key
  refine ⟨?_, get_of_perm sound.coherent none coherent removed⟩
  refine sound.exchange [(key, block)] [] 0 (cached_perm sound.coherent found) removed coherent
    (by simp) rfl sound.bounded ?_ ?_ ?_
  · simp
  · simp [tally, stored]
  · simp [tally, stored]

end

/-! ## Making room -/

variable {number : Nat} {keys : List Key} {evicted entries : List (Key × BlockStatus)}
    {keysToStore : List Key}

omit [DecidableEq Key] in
@[simp]
theorem emit_policy : (manager.emit keys removed).policy = manager.policy := by
  unfold emit
  split <;> rfl

omit [DecidableEq Key] in
@[simp]
theorem emit_getNumFreeBlocks :
    (manager.emit keys removed).getNumFreeBlocks = manager.getNumFreeBlocks := by
  unfold emit
  split <;> rfl

/-- Events are not part of the accounting. -/
theorem Sound.emit (sound : manager.Sound) (keys : List Key) (removed : Bool) :
    (manager.emit keys removed).Sound := by
  unfold CPUOffloadingManager.emit
  split
  · exact sound
  · exact ⟨sound.coherent, sound.slots, sound.bounded, sound.evictable, sound.pending, sound.width⟩

/-- Either nothing happens, or as many blocks are evicted as were missing. -/
theorem makeRoom_cases (sound : manager.Sound) :
    makeRoom missing shielded manager = .ok none manager ∨ ∃ evicted after,
        makeRoom missing shielded manager = .ok (some (evicted.map Prod.fst)) after ∧
        after.Sound ∧
        Evicted manager.policy missing.toNat shielded evicted after.policy ∧
        missing ≤ after.getNumFreeBlocks - manager.getNumFreeBlocks := by
  unfold makeRoom
  by_cases enough : missing ≤ 0
  · rw [if_pos enough]
    refine .inr ⟨[], manager, rfl, sound, ?_, by omega⟩
    exact ⟨sound.coherent, .refl _, (Int.toNat_of_nonpos enough).symm, by simp, by simp⟩
  rw [if_neg enough]
  by_cases few : manager.numEvictableCacheBlocks < missing
  · exact .inl (if_pos few)
  rw [if_neg few]
  rcases evict_cases sound.coherent with
    failed | ⟨evicted, policy, done, result⟩
  · rw [failed]
    exact .inl rfl
  rw [done]
  have length := result.all
  let counted :=
    { manager with
      policy := policy
      numEvictableCacheBlocks := manager.numEvictableCacheBlocks - evicted.length }
  let freed :=
    { counted with
      freeList := counted.freeList ++ evicted.map (blockId ∘ Prod.snd) }
  have counts : 0 ≤ counted.numEvictableCacheBlocks := by
    show 0 ≤ manager.numEvictableCacheBlocks - evicted.length
    omega
  refine .inr ⟨evicted, freed.emit (evicted.map Prod.fst) true, if_pos counts, ?_, ?_, ?_⟩
  · apply Sound.emit
    refine sound.exchange evicted [] 0 result.split (.refl _) result.coherent (by simp) rfl
      sound.bounded ?_ ?_ ?_
    · simp [freed, counted, perm_append_comm]
    · simp [tally_of_same result.free, freed, counted]
    · simp [tally_of_same result.free, freed, counted]
  · rw [emit_policy]
    exact result
  · rw [emit_getNumFreeBlocks]
    simp only [getNumFreeBlocks, freed, counted, length_append, length_map]
    omega

/-! ## Entering new blocks -/

omit [DecidableEq Key] in
/-- What allocation hands out: slots that were free or never used. -/
theorem allocateBlocks_ok (bounded : manager.numAllocatedBlocks ≤ manager.numBlocks)
    (room : number ≤ manager.getNumFreeBlocks) :
    ∃ slots fresh freeList, allocateBlocks number manager = .ok (slots.map new)
          { manager with
            numAllocatedBlocks := manager.numAllocatedBlocks + fresh
            freeList := freeList } ∧
      slots.length = number ∧
      manager.numAllocatedBlocks + fresh ≤ manager.numBlocks ∧
      (slots ++ freeList).Perm
        (manager.freeList ++ range' manager.numAllocatedBlocks fresh) := by
  unfold getNumFreeBlocks at room
  set fresh := min number (manager.numBlocks - manager.numAllocatedBlocks) with freshIs
  set kept := manager.freeList.length - (number - fresh) with keptIs
  have reused : number - fresh ≤ manager.freeList.length := by omega
  refine ⟨range' manager.numAllocatedBlocks fresh ++ (manager.freeList.drop kept).reverse,
    fresh, manager.freeList.take kept, if_pos reused, ?_, ?_, ?_⟩
  · simp only [length_append, length_range', length_reverse, length_drop]
    omega
  · omega
  rw [append_assoc]
  refine perm_append_comm.trans (Perm.append_right _ ?_)
  refine ((reverse_perm _).append_right _).trans ?_
  refine perm_append_comm.trans ?_
  rw [take_append_drop]

/-- Entering several new blocks. -/
theorem insertBlocks_cached {policy : CachePolicy Key} (coherent : policy.Coherent)
    (nodup : (entries.map Prod.fst).Nodup)
    (absent : ∀ entry ∈ entries, policy.get entry.1 = none)
    (pending : ∀ entry ∈ entries, entry.2.refCnt = -1) :
    (insertBlocks policy entries).Coherent ∧
      (insertBlocks policy entries).cached.Perm (entries ++ policy.cached) := by
  induction entries generalizing policy with
  | nil => exact ⟨coherent, .refl _⟩
  | cons entry rest ih =>
    rw [map_cons, nodup_cons] at nodup
    have free := absent entry mem_cons_self
    have stored := pending entry mem_cons_self
    have held : entry.2.refCnt ≠ 0 := by omega
    have inserted := insert_cached coherent free entry.2
    have coherentAfter := coherent_insert coherent (enterable_of_absent coherent free) held
    have stillAbsent : ∀ other ∈ rest, (policy.insert entry.1 entry.2).get other.1 = none := by
      intro other mem
      have differs : other.1 ≠ entry.1 := fun equal => nodup.1 (equal ▸ mem_map_of_mem mem)
      rw [← others_eq_cached coherent free] at inserted
      rw [get_of_perm coherent (some entry.2) coherentAfter inserted, if_neg differs]
      exact absent other (mem_cons_of_mem _ mem)
    obtain ⟨coherentRest, insertedRest⟩ :=
      ih coherentAfter nodup.2 stillAbsent fun other mem => pending other (mem_cons_of_mem _ mem)
    refine ⟨coherentRest, insertedRest.trans ?_⟩
    exact (inserted.append_left rest).trans perm_middle

/-- What a call that stores new keys does to the block table. -/
structure Stored (manager : CPUOffloadingManager Key) (output : PrepareStoreOutput Key)
    (after : CPUOffloadingManager Key) :
    Prop where
  sound : after.Sound
  fresh :
    ∀ key ∈ output.keysToStore, manager.policy.get key = none ∧
        ∃ slot, after.policy.get key = some (BlockStatus.new slot)
  evicted :
    ∀ key ∈ output.evictedKeys, (∃ block, manager.policy.get key = some block ∧ block.refCnt = 0) ∧
        after.policy.get key = none
  same :
    ∀ key, key ∉ output.keysToStore → key ∉ output.evictedKeys →
      after.policy.get key = manager.policy.get key

/-- Room for the keys is there: they are entered as pending. -/
theorem placeKeys_ok (sound : manager.Sound) (nodup : keysToStore.Nodup)
    (absent : ∀ key ∈ keysToStore, manager.policy.get key = none)
    (room : keysToStore.length ≤ manager.getNumFreeBlocks) (evictedKeys : List Key) :
    ∃ slots after,
      placeKeys keysToStore evictedKeys manager = .ok ⟨keysToStore, slots, evictedKeys⟩ after ∧
      Stored manager ⟨keysToStore, slots, []⟩ after := by
  obtain ⟨slots, fresh, freeList, allocated, length, bounded, shared⟩ :=
    allocateBlocks_ok sound.bounded room
  set entries := keysToStore.zip (slots.map new) with entriesAre
  have keys : entries.map Prod.fst = keysToStore := map_fst_zip (by simp [length])
  have blocks : entries.map Prod.snd = slots.map new := map_snd_zip (by simp [length])
  have pendingEntries : ∀ entry ∈ entries, entry.2.refCnt = -1 := by
    intro entry mem
    have listed : entry.2 ∈ slots.map new := by
      rw [← blocks]
      exact mem_map_of_mem mem
    obtain ⟨slot, _, same⟩ := mem_map.mp listed
    rw [← same]
    rfl
  have absentEntries : ∀ entry ∈ entries, manager.policy.get entry.1 = none := by
    intro entry mem
    refine absent entry.1 ?_
    rw [← keys]
    exact mem_map_of_mem mem
  obtain ⟨coherent, entered⟩ :=
    insertBlocks_cached sound.coherent (keys ▸ nodup) absentEntries pendingEntries
  have slotsOfEntries : entries.map (blockId ∘ Prod.snd) = slots := by
    rw [← map_map, blocks, map_map]
    exact map_id slots
  let placed :=
    { manager with
      numAllocatedBlocks := manager.numAllocatedBlocks + fresh
      freeList := freeList
      policy := insertBlocks manager.policy entries
      numWritePendingBlocks := manager.numWritePendingBlocks + keysToStore.length }
  refine ⟨slots, placed, ?_, ?_, ?_, by simp, ?_⟩
  · have complete : (slots.map new).length = keysToStore.length := by
      rw [length_map, length]
    have identity : (slots.map new).map blockId = slots := by
      rw [map_map]
      exact map_id slots
    simp only [placeKeys, bind, EStateM.bind, allocated, complete, if_true, identity]
    rfl
  · refine sound.exchange [] entries fresh (.refl _) entered coherent ?_ rfl bounded ?_ ?_ ?_
    · intro entry mem
      rw [pendingEntries entry mem]
      norm_num
    · rw [slotsOfEntries]
      exact shared
    · simp [tally_of_same pendingEntries, placed]
    · simp [tally_of_same pendingEntries, placed, ← keys]
  · intro key mem
    refine ⟨absent key mem, ?_⟩
    rw [← keys] at mem
    obtain ⟨entry, listed, rfl⟩ := mem_map.mp mem
    have listedBlock : entry.2 ∈ slots.map new := by
      rw [← blocks]
      exact mem_map_of_mem listed
    obtain ⟨slot, _, same⟩ := mem_map.mp listedBlock
    refine ⟨slot, ?_⟩
    rw [same]
    exact (get_eq_some_iff coherent).mpr (entered.mem_iff.mpr (mem_append_left _ listed))
  · intro key missing _
    apply Option.ext
    intro block
    have unlisted : (key, block) ∉ entries := by
      intro listed
      apply missing
      rw [← keys]
      exact mem_map_of_mem listed
    rw [get_eq_some_iff coherent, entered.mem_iff, get_eq_some_iff sound.coherent]
    simp [unlisted]

/-- Lookups after an eviction find what was not evicted. -/
theorem get_of_evicted {policy remaining : CachePolicy Key} (coherent : policy.Coherent)
    (result : Evicted policy number shielded evicted remaining) (key : Key) :
    remaining.get key = if key ∈ evicted.map Prod.fst then none else policy.get key := by
  have distinct := cached_keys_nodup coherent
  rw [(result.split.map Prod.fst).nodup_iff, map_append, nodup_append] at distinct
  apply Option.ext
  intro block
  rw [get_eq_some_iff result.coherent]
  split
  · rename_i gone
    simp only [reduceCtorEq, iff_false]
    intro mem
    exact distinct.2.2 key gone key (mem_map_of_mem mem) rfl
  · rename_i kept
    have unlisted : (key, block) ∉ evicted := fun listed => kept (mem_map_of_mem listed)
    rw [get_eq_some_iff coherent, result.split.mem_iff]
    simp [unlisted]

/-- New keys are entered after as many evictions as they need, or nothing happens. -/
theorem storeNew_cases (sound : manager.Sound) {wanted : List Key} (nodup : keysToStore.Nodup)
    (absent : ∀ key ∈ keysToStore, manager.policy.get key = none) :
    storeNew wanted keysToStore manager = .ok none manager ∨ ∃ output after,
        storeNew wanted keysToStore manager = .ok (some output) after ∧
        output.keysToStore = keysToStore ∧
        (∀ key ∈ output.evictedKeys, key ∉ wanted) ∧
        Stored manager output after := by
  have read : (get : Effect (CPUOffloadingManager Key) _) manager = .ok manager manager := rfl
  unfold storeNew
  rw [bind_of_ok read]
  simp only [bind, EStateM.bind]
  rcases makeRoom_cases sound with
    failed | ⟨evicted, middle, made, soundMiddle, result, room⟩
  · rw [failed]
    exact .inl rfl
  rw [made]
  have found := get_of_evicted sound.coherent result
  have absentMiddle : ∀ key ∈ keysToStore, middle.policy.get key = none := by
    intro key mem
    rw [found, absent key mem]
    exact ite_self none
  obtain ⟨slots, after, placed, stored⟩ :=
    placeKeys_ok soundMiddle nodup absentMiddle (by omega) (evicted.map Prod.fst)
  refine .inr ⟨⟨keysToStore, slots, evicted.map Prod.fst⟩, after, ?_, rfl, ?_, ?_⟩
  · simp only [Functor.map, EStateM.map, placed]
  · intro key mem
    obtain ⟨entry, listed, rfl⟩ := mem_map.mp mem
    exact result.spared entry listed
  · refine ⟨stored.sound, ?_, ?_, ?_⟩
    · intro key mem
      exact ⟨absent key mem, (stored.fresh key mem).2⟩
    · intro key gone
      have before : ∃ block, manager.policy.get key = some block ∧ block.refCnt = 0 := by
        obtain ⟨entry, listed, rfl⟩ := mem_map.mp gone
        refine ⟨entry.2, ?_, result.free entry listed⟩
        exact (get_eq_some_iff sound.coherent).mpr
          (result.split.mem_iff.mpr (mem_append_left _ listed))
      refine ⟨before, ?_⟩
      have notStored : key ∉ keysToStore := by
        intro mem
        obtain ⟨block, known, _⟩ := before
        rw [absent key mem] at known
        cases known
      rw [stored.same key notStored (by simp), found, if_pos gone]
    · intro key notStored kept
      rw [stored.same key notStored (by simp), found, if_neg kept]

/-- The keys a store may enter. -/
def candidates (manager : CPUOffloadingManager Key) (keys : List Key) : List Key :=
  (manager.admitKeys keys).2.filter fun key => (manager.policy.get key).isNone

theorem admitKeys_fst (manager : CPUOffloadingManager Key) (keys : List Key) :
    ∃ skipped,
      (manager.admitKeys keys).1 = { manager with storesSkippedInCurrentBatch := skipped } := by
  unfold admitKeys
  split
  · exact ⟨manager.storesSkippedInCurrentBatch, rfl⟩
  · exact ⟨_, rfl⟩

theorem admitKeys_sublist (manager : CPUOffloadingManager Key) (keys : List Key) :
    (manager.admitKeys keys).2.Sublist keys := by
  unfold admitKeys
  cases manager.counts with
  | none => exact Sublist.refl _
  | some counts => exact filter_sublist

/-- The batch statistics are not part of the accounting. -/
theorem Sound.statistics (sound : manager.Sound) (skipped : Nat) (sizes : List Nat) :
    ({ manager with
        storesSkippedInCurrentBatch := skipped
        allocationSizesInCurrentBatch := sizes } : CPUOffloadingManager Key).Sound :=
  ⟨sound.coherent, sound.slots, sound.bounded, sound.evictable, sound.pending, sound.width⟩

/-- A store of distinct keys enters the new ones, or leaves blocks and slots alone. -/
theorem prepareStore_cases (sound : manager.Sound) (nodup : keys.Nodup) :
    (∃ after, prepareStore keys manager = .ok none after ∧ after.Sound ∧
        after.policy = manager.policy ∧ after.freeList = manager.freeList) ∨
    ∃ output after, prepareStore keys manager = .ok (some output) after ∧
        output.keysToStore = manager.candidates keys ∧
        (∀ key ∈ output.evictedKeys, key ∉ (manager.admitKeys keys).2) ∧
        Stored manager output after := by
  obtain ⟨skipped, admitted⟩ := manager.admitKeys_fst keys
  have keysToStoreDistinct : (manager.candidates keys).Nodup :=
    nodup.sublist (filter_sublist.trans (manager.admitKeys_sublist keys))
  have absent : ∀ key ∈ manager.candidates keys, manager.policy.get key = none := by
    intro key mem
    simpa using (mem_filter.mp mem).2
  have unfolded : prepareStore keys manager =
        if manager.candidates keys = [] then
          .ok (some ⟨[], [], []⟩) (manager.admitKeys keys).1
        else
          storeNew (manager.admitKeys keys).2 (manager.candidates keys)
            { manager with
              storesSkippedInCurrentBatch := skipped
              allocationSizesInCurrentBatch :=
                manager.allocationSizesInCurrentBatch ++ [(manager.candidates keys).length] } := by
    simp only [prepareStore, admitted, candidates]
  rw [unfolded]
  by_cases nothing : manager.candidates keys = []
  · rw [if_pos nothing, admitted]
    refine .inr ⟨⟨[], [], []⟩, _, rfl, nothing.symm, by simp, ?_⟩
    exact ⟨sound.statistics _ _, by simp, by simp, fun _ _ _ => rfl⟩
  rw [if_neg nothing]
  have soundSized := sound.statistics skipped
    (manager.allocationSizesInCurrentBatch ++ [(manager.candidates keys).length])
  rcases storeNew_cases soundSized keysToStoreDistinct absent with
      failed | ⟨output, after, done, entered, spared, stored⟩
  · exact .inl ⟨_, failed, soundSized, rfl, rfl⟩
  · exact .inr ⟨output, after, done, entered, spared,
      ⟨stored.sound, stored.fresh, stored.evicted, stored.same⟩⟩

end CPUOffloadingManager

end VllmCore.Offload
