import VllmCore.Offload.CPURuns

namespace VllmCore.Offload

open Lib List
open CPUOffloadingManager (prepareLoad prepareStore)

/-!
# Who reads and who writes the primary tier

A ledger lists the references readers hold on blocks, with repetitions, and the keys
whose block is being written.  The manager agrees with it when a written key is pending
and every other cached block has as many references as the readers list.  The calls of
the manager move keys in and out of these lists.
-/

namespace CPUOffloadingManager

variable {Key : Type} [DecidableEq Key]

/-- An entry of the block table agrees with the readers and the writer of its key. -/
def Agrees (entry : Option BlockStatus) (references : Nat) (written : Prop) : Prop :=
  match entry with
  | none => references = 0 ∧ ¬ written
  | some block =>
    written ∧ references = 0 ∧ block.refCnt = -1 ∨ ¬ written ∧ block.refCnt = references

/-- The manager agrees with the lists of readers and writers. -/
structure Ledger (manager : CPUOffloadingManager Key) (readers writers : List Key) :
    Prop where
  sound : manager.Sound
  agrees : ∀ key, Agrees (manager.policy.get key) (readers.count key) (key ∈ writers)
  distinct : writers.Nodup

/-- The block of a key is cached and readable. -/
def Readable (manager : CPUOffloadingManager Key) (key : Key) : Prop :=
  ∃ block, manager.policy.get key = some block ∧ 0 ≤ block.refCnt

variable {manager after : CPUOffloadingManager Key} {readers writers keys : List Key} {key : Key}
  {block : BlockStatus}

section

variable (ledger : manager.Ledger readers writers)
include ledger

theorem Ledger.perm (sameReaders : readers.Perm otherReaders)
    (sameWriters : writers.Perm otherWriters) :
    manager.Ledger otherReaders otherWriters where
  sound := ledger.sound
  agrees := by
    intro key
    rw [← sameReaders.count_eq, ← sameWriters.mem_iff]
    exact ledger.agrees key
  distinct := sameWriters.nodup_iff.mp ledger.distinct

/-- Another manager with the same entries. -/
theorem Ledger.congr (sound : after.Sound)
    (same : ∀ key, after.policy.get key = manager.policy.get key) :
    after.Ledger readers writers where
  sound := sound
  agrees := by
    intro key
    rw [same]
    exact ledger.agrees key
  distinct := ledger.distinct

/-- The entry of one key and its places in the lists change together. -/
theorem Ledger.rewrite
    (rewrote : manager.Rewrote key entry after)
    (sameReaders : ∀ other, other ≠ key → readersAfter.count other = readers.count other)
    (sameWriters : ∀ other, other ≠ key → (other ∈ writersAfter ↔ other ∈ writers))
    (distinct : writersAfter.Nodup)
    (agrees : Agrees entry (readersAfter.count key) (key ∈ writersAfter)) :
    after.Ledger readersAfter writersAfter where
  sound := rewrote.sound
  agrees := by
    intro other
    rw [rewrote.get]
    by_cases same : other = key
    · rw [if_pos same, same]
      exact agrees
    · rw [if_neg same, sameReaders other same, sameWriters other same]
      exact ledger.agrees other
  distinct := distinct

/-! ## What the ledger says of a key -/

theorem Ledger.refCnt_of_ready (found : manager.policy.get key = some block)
    (ready : 0 ≤ block.refCnt) : key ∉ writers ∧ block.refCnt = readers.count key := by
  have agrees := ledger.agrees key
  rw [found] at agrees
  rcases agrees with ⟨_, _, waiting⟩ | settled
  · omega
  · exact settled

theorem Ledger.found_of_mem_readers (mem : key ∈ readers) :
    key ∉ writers ∧
      ∃ block, manager.policy.get key = some block ∧ block.refCnt = readers.count key := by
  have pos := count_pos_iff.mpr mem
  have agrees := ledger.agrees key
  cases found : manager.policy.get key with
  | none =>
    rw [found] at agrees
    have none := agrees.1
    omega
  | some block =>
    rw [found] at agrees
    rcases agrees with ⟨_, none, _⟩ | ⟨unwritten, counted⟩
    · omega
    · exact ⟨unwritten, block, rfl, counted⟩

theorem Ledger.found_of_mem_writers (mem : key ∈ writers) :
    readers.count key = 0 ∧ ∃ block, manager.policy.get key = some block ∧ block.refCnt = -1 := by
  have agrees := ledger.agrees key
  cases found : manager.policy.get key with
  | none =>
    rw [found] at agrees
    exact absurd mem agrees.2
  | some block =>
    rw [found] at agrees
    rcases agrees with ⟨_, none, waiting⟩ | ⟨unwritten, _⟩
    · exact ⟨none, block, rfl, waiting⟩
    · exact absurd mem unwritten

/-! ## Readers -/

theorem Ledger.prepareLoadKey (readable : manager.Readable key)
    (limit : readers.count key + 1 < 2 ^ 31) :
    ∃ slot after, CPUOffloadingManager.prepareLoadKey key manager = .ok slot after ∧
      after.Ledger (key :: readers) writers ∧
        ∀ other, manager.Readable other → after.Readable other := by
  obtain ⟨block, found, ready⟩ := readable
  obtain ⟨after, loaded, rewrote⟩ := prepareLoadKey_ok ledger.sound found ready
  obtain ⟨unwritten, counted⟩ := ledger.refCnt_of_ready found ready
  have exact32 : int32 (block.refCnt + 1) = block.refCnt + 1 := by
    simp only [int32, Int.bmod_def]
    omega
  rw [exact32] at rewrote
  refine ⟨block.blockId, after, loaded, ?_, ?_⟩
  · apply ledger.rewrite rewrote
    · intro other differs
      exact count_cons_of_ne (Ne.symm differs)
    · intro other _
      exact Iff.rfl
    · exact ledger.distinct
    · refine .inr ⟨unwritten, ?_⟩
      rw [count_cons_self]
      push_cast
      omega
  · rintro other ⟨entry, known, readyEntry⟩
    rw [Readable, rewrote.get]
    split
    · exact ⟨_, rfl, by show 0 ≤ block.refCnt + 1; omega⟩
    · exact ⟨entry, known, readyEntry⟩

/-- References to readable blocks are taken. -/
theorem Ledger.prepareLoad (readable : ∀ key ∈ keys, manager.Readable key)
    (limit : ∀ key ∈ keys, readers.count key + keys.count key < 2 ^ 31) :
    ∃ slots after, prepareLoad keys manager = .ok slots after ∧
      after.Ledger (keys ++ readers) writers ∧
        ∀ other, manager.Readable other → after.Readable other := by
  induction keys generalizing manager readers with
  | nil => exact ⟨[], manager, rfl, ledger, fun _ => id⟩
  | cons key rest ih =>
    have first := limit key mem_cons_self
    rw [count_cons_self] at first
    obtain ⟨slot, middle, loaded, ledgerMiddle, stays⟩ :=
      ledger.prepareLoadKey (readable key mem_cons_self) (by omega)
    have later : ∀ other ∈ rest, (key :: readers).count other + rest.count other < 2 ^ 31 := by
      intro other mem
      have bound := limit other (mem_cons_of_mem _ mem)
      rw [count_cons] at bound ⊢
      omega
    obtain ⟨slots, after, loadedRest, ledgerAfter, staysRest⟩ :=
      ih ledgerMiddle (fun other mem => stays other (readable other (mem_cons_of_mem _ mem))) later
    refine ⟨slot :: slots, after, ?_, ?_, fun other known => staysRest other (stays other known)⟩
    · have unfolded : prepareLoad (key :: rest) manager =
            (CPUOffloadingManager.prepareLoadKey key >>= fun slot =>
              prepareLoad rest >>= fun slots =>
                pure (slot :: slots)) manager := by
        unfold prepareLoad
        rw [mapM_cons]
      rw [unfolded]
      simp only [bind, EStateM.bind, loaded, loadedRest]
      rfl
    · exact ledgerAfter.perm perm_middle (.refl _)

end

theorem Ledger.completeLoadKey (ledger : manager.Ledger (key :: readers) writers) :
    ∃ after, CPUOffloadingManager.completeLoadKey key manager = .ok () after ∧
      after.Ledger readers writers := by
  obtain ⟨unwritten, block, found, counted⟩ := ledger.found_of_mem_readers mem_cons_self
  rw [count_cons_self] at counted
  obtain ⟨after, released, rewrote⟩ := completeLoadKey_ok ledger.sound found (by omega)
  refine ⟨after, released, ?_⟩
  apply ledger.rewrite rewrote
  · intro other differs
    exact (count_cons_of_ne (Ne.symm differs)).symm
  · intro other _
    exact Iff.rfl
  · exact ledger.distinct
  · refine .inr ⟨unwritten, ?_⟩
    show block.refCnt - 1 = _
    omega

/-- References are given back. -/
theorem Ledger.completeLoad (ledger : manager.Ledger (keys ++ readers) writers) :
    ∃ after, CPUOffloadingManager.completeLoad keys manager = .ok () after ∧
      after.Ledger readers writers := by
  have loop : ∃ results after,
      keys.mapM CPUOffloadingManager.completeLoadKey manager = .ok results after ∧
        after.Ledger readers writers := by
    induction keys generalizing manager with
    | nil => exact ⟨[], manager, rfl, ledger⟩
    | cons key rest ih =>
      obtain ⟨middle, released, ledgerMiddle⟩ := ledger.completeLoadKey
      obtain ⟨results, after, releasedRest, ledgerAfter⟩ := ih ledgerMiddle
      refine ⟨() :: results, after, ?_, ledgerAfter⟩
      rw [mapM_cons]
      simp only [bind, EStateM.bind, released, releasedRest]
      rfl
  obtain ⟨results, after, released, ledgerAfter⟩ := loop
  refine ⟨after, ?_, ledgerAfter⟩
  simp only [CPUOffloadingManager.completeLoad, bind, EStateM.bind, released]
  rfl

/-! ## Writers -/

/-- A store enters its new keys as written, or changes no entry. -/
theorem Ledger.prepareStore (ledger : manager.Ledger readers writers) (nodup : keys.Nodup) :
    (∃ after, prepareStore keys manager = .ok none after ∧ after.Ledger readers writers) ∨
    ∃ output after, prepareStore keys manager = .ok (some output) after ∧
      after.Ledger readers (output.keysToStore ++ writers) := by
  rcases prepareStore_cases ledger.sound nodup with
    ⟨after, refused, sound, samePolicy, _⟩ | ⟨output, after, done, candidates, _, stored⟩
  · exact .inl ⟨after, refused, ledger.congr sound fun key => by rw [samePolicy]⟩
  refine .inr ⟨output, after, done, stored.sound, ?_, ?_⟩
  · intro key
    have agrees := ledger.agrees key
    by_cases fresh : key ∈ output.keysToStore
    · obtain ⟨absent, slot, entered⟩ := stored.fresh key fresh
      rw [absent] at agrees
      rw [entered]
      exact .inl ⟨mem_append_left _ fresh, agrees.1, rfl⟩
    have sameWriting : key ∈ output.keysToStore ++ writers ↔ key ∈ writers := by simp [fresh]
    rw [sameWriting]
    by_cases gone : key ∈ output.evictedKeys
    · obtain ⟨⟨block, found, free⟩, removed⟩ := stored.evicted key gone
      rw [found] at agrees
      rw [removed]
      rcases agrees with ⟨_, _, waiting⟩ | ⟨unwritten, counted⟩
      · omega
      · exact ⟨by omega, unwritten⟩
    · rw [stored.same key fresh gone]
      exact agrees
  · rw [nodup_append]
    refine ⟨?_, ledger.distinct, ?_⟩
    · rw [candidates]
      exact nodup.sublist (filter_sublist.trans (manager.admitKeys_sublist keys))
    · rintro key fresh other written rfl
      obtain ⟨_, block, found, _⟩ := ledger.found_of_mem_writers written
      rw [(stored.fresh key fresh).1] at found
      cases found

section

variable (ledger : manager.Ledger readers (key :: writers))
include ledger

/-- The write of one key ends, and its entry is readable or gone. -/
theorem Ledger.endWrite (rewrote : manager.Rewrote key entry after)
    (idle : ∀ block, entry = some block → block.refCnt = 0) : after.Ledger readers writers := by
  have unread := (ledger.found_of_mem_writers mem_cons_self).1
  have distinct := nodup_cons.mp ledger.distinct
  apply ledger.rewrite rewrote
  · intro other _
    rfl
  · intro other differs
    simp [differs]
  · exact distinct.2
  · cases entry with
    | none => exact ⟨unread, distinct.1⟩
    | some block =>
      refine .inr ⟨distinct.1, ?_⟩
      rw [idle block rfl, unread]
      rfl

/-- One round of a completion. -/
theorem Ledger.completeStoreKey :
    ∃ after, CPUOffloadingManager.completeStoreKey key manager = .ok [key] after ∧
      after.Ledger readers writers ∧ after.Readable key ∧
        ∀ other, manager.Readable other → after.Readable other := by
  obtain ⟨_, block, found, waiting⟩ := ledger.found_of_mem_writers mem_cons_self
  obtain ⟨after, ended, rewrote⟩ := completeStoreKey_pending ledger.sound found waiting
  have here : after.Readable key :=
    ⟨{ block with refCnt := 0 }, by rw [rewrote.get, if_pos rfl], le_refl _⟩
  refine ⟨after, ended, ledger.endWrite rewrote ?_, here, ?_⟩
  · intro written same
    cases same
    rfl
  · rintro other ⟨entry, known, ready⟩
    by_cases same : other = key
    · rw [same]
      exact here
    · exact ⟨entry, by rw [rewrote.get, if_neg same, known], ready⟩

theorem Ledger.dropStoreKey :
    ∃ after, CPUOffloadingManager.dropStoreKey key manager = .ok () after ∧
      after.Ledger readers writers := by
  obtain ⟨_, block, found, waiting⟩ := ledger.found_of_mem_writers mem_cons_self
  obtain ⟨after, dropped, rewrote⟩ := dropStoreKey_pending ledger.sound found waiting
  refine ⟨after, dropped, ledger.endWrite rewrote ?_⟩
  intro written same
  cases same

end

section

variable (ledger : manager.Ledger readers (keys ++ writers))
include ledger

theorem Ledger.completeStoreKeys :
    ∃ stored after, keys.mapM CPUOffloadingManager.completeStoreKey manager = .ok stored after ∧
      after.Ledger readers writers ∧ (∀ key ∈ keys, after.Readable key) ∧
        ∀ other, manager.Readable other → after.Readable other := by
  induction keys generalizing manager with
  | nil => exact ⟨[], manager, rfl, ledger, by simp, fun _ => id⟩
  | cons key rest ih =>
    obtain ⟨middle, ended, ledgerMiddle, here, stays⟩ := ledger.completeStoreKey
    obtain ⟨stored, after, completedRest, ledgerAfter, readable, staysRest⟩ := ih ledgerMiddle
    refine ⟨[key] :: stored, after, ?_, ledgerAfter, ?_,
      fun other known => staysRest other (stays other known)⟩
    · rw [mapM_cons]
      simp only [bind, EStateM.bind, ended, completedRest]
      rfl
    intro other mem
    rcases mem_cons.mp mem with rfl | later
    · exact staysRest other here
    · exact readable other later

theorem Ledger.dropStoreKeys :
    ∃ dropped after, keys.mapM CPUOffloadingManager.dropStoreKey manager = .ok dropped after ∧
      after.Ledger readers writers := by
  induction keys generalizing manager with
  | nil => exact ⟨[], manager, rfl, ledger⟩
  | cons key rest ih =>
    obtain ⟨middle, dropped, ledgerMiddle⟩ := ledger.dropStoreKey
    obtain ⟨results, after, droppedRest, ledgerAfter⟩ := ih ledgerMiddle
    refine ⟨() :: results, after, ?_, ledgerAfter⟩
    rw [mapM_cons]
    simp only [bind, EStateM.bind, dropped, droppedRest]
    rfl

/-- Writes end; after a success their keys are readable. -/
theorem Ledger.completeStore (success : Bool) :
    ∃ after, CPUOffloadingManager.completeStore keys success manager = .ok () after ∧
      after.Ledger readers writers ∧ (success = true → ∀ key ∈ keys, after.Readable key) := by
  cases success with
  | true =>
    obtain ⟨stored, after, ended, ledgerAfter, readable, _⟩ := ledger.completeStoreKeys
    refine ⟨after.emit stored.flatten false, ?_, ?_, ?_⟩
    · simp only [CPUOffloadingManager.completeStore, if_true, bind, EStateM.bind, ended]
      rfl
    · exact ledgerAfter.congr (ledgerAfter.sound.emit _ _) fun key => by rw [emit_policy]
    · intro _ key mem
      rw [Readable, emit_policy]
      exact readable key mem
  | false =>
    obtain ⟨dropped, after, ended, ledgerAfter⟩ := ledger.dropStoreKeys
    refine ⟨after, ?_, ledgerAfter, nofun⟩
    simp only [CPUOffloadingManager.completeStore, Bool.false_eq_true, if_false, bind,
      EStateM.bind, ended]
    rfl

end

/-! ## Lookups, touches and resets -/

/-- No tracker of lookups, as with the default store threshold. -/
def Untracked (manager : CPUOffloadingManager Key) : Prop :=
  manager.counts = none

omit [DecidableEq Key] in
theorem untracked_allocateBlocks {number : Nat} :
    Keeps Untracked (allocateBlocks number : Effect (CPUOffloadingManager Key) _) := by
  intro manager untracked
  unfold allocateBlocks
  dsimp only
  split <;> exact untracked

omit [DecidableEq Key] in
theorem untracked_emit (untracked : manager.Untracked) : (manager.emit keys removed).Untracked := by
  unfold emit
  split <;> exact untracked

theorem untracked_prepareLoad : Keeps Untracked (prepareLoad keys) := by
  refine Keeps.mapM fun key _ => ?_
  intro manager untracked
  unfold CPUOffloadingManager.prepareLoadKey
  split
  · exact untracked
  split
  · exact untracked
  split
  · split
    · exact untracked
    · dsimp only
      split <;> exact untracked
  · exact untracked

theorem untracked_completeLoad : Keeps Untracked (CPUOffloadingManager.completeLoad keys) := by
  refine Keeps.bind (Keeps.mapM fun key _ => ?_) fun _ => Keeps.pure _ _
  intro manager untracked
  unfold CPUOffloadingManager.completeLoadKey
  split
  · exact untracked
  split
  · dsimp only
    split <;> exact untracked
  · exact untracked

theorem untracked_makeRoom {shielded : List Key} : Keeps Untracked (makeRoom missing shielded) := by
  intro manager untracked
  unfold makeRoom
  split
  · exact untracked
  split
  · exact untracked
  split
  · exact untracked
  · exact untracked
  dsimp only
  split
  · apply untracked_emit
    exact untracked
  · exact untracked

theorem untracked_placeKeys (keysToStore evictedKeys : List Key) :
    Keeps Untracked (placeKeys keysToStore evictedKeys) := by
  refine Keeps.bind untracked_allocateBlocks fun blocks => ?_
  split
  all_goals
    intro manager untracked
    exact untracked

theorem untracked_prepareStore : Keeps Untracked (prepareStore keys) := by
  intro manager untracked
  unfold prepareStore
  have admitted : manager.admitKeys keys = (manager, keys) := by
    unfold admitKeys
    rw [untracked]
  rw [admitted]
  dsimp only
  split
  · exact untracked
  have keeps (wanted keysToStore : List Key) : Keeps Untracked (storeNew wanted keysToStore) := by
    refine Keeps.bind (fun _ holds => holds) fun _ => ?_
    refine Keeps.bind untracked_makeRoom fun room => ?_
    cases room with
    | none => exact Keeps.pure _ _
    | some evictedKeys =>
      intro middle holds
      have ended := untracked_placeKeys keysToStore evictedKeys middle holds
      simp only [Functor.map, EStateM.map]
      revert ended
      cases placeKeys keysToStore evictedKeys middle with
      | _ => exact id
  exact keeps _ _ _ untracked

theorem untracked_completeStore :
    Keeps Untracked (CPUOffloadingManager.completeStore keys success) := by
  cases success with
  | true =>
    refine Keeps.bind (Keeps.mapM fun key _ => ?_) fun stored => ?_
    · intro manager untracked
      unfold CPUOffloadingManager.completeStoreKey
      split
      · exact untracked
      · split <;> exact untracked
    · intro manager untracked
      exact untracked_emit untracked
  | false =>
    refine Keeps.bind (Keeps.mapM fun key _ => ?_) fun _ => Keeps.pure _ _
    intro manager untracked
    unfold CPUOffloadingManager.dropStoreKey
    split
    · exact untracked
    · split <;> exact untracked

theorem Ledger.touch (ledger : manager.Ledger readers writers) (keys : List Key) :
    ∃ after, CPUOffloadingManager.touch keys manager = .ok () after ∧
      after.Ledger readers writers := by
  obtain ⟨sound, same⟩ := touch_left ledger.sound
  exact ⟨_, rfl, ledger.congr sound same⟩

/-- Without a tracker a lookup changes nothing. -/
theorem lookup_untracked (untracked : manager.Untracked) (key : Key) :
    lookup key manager = .ok (manager.status key) manager := by
  unfold lookup
  rw [untracked]

theorem readable_of_status (hit : manager.status key = .hit) : manager.Readable key := by
  unfold status at hit
  split at hit
  · cases hit
  rename_i block found
  split at hit
  · rename_i ready
    exact ⟨block, found, by simpa [BlockStatus.isReady] using ready⟩
  · cases hit

theorem ledger_resetCache (manager : CPUOffloadingManager Key) :
    ∃ after, resetCache manager = .ok () after ∧ after.Ledger [] [] := by
  refine ⟨_, rfl, resetCache_left, ?_, nodup_nil⟩
  intro key
  have cleared : manager.policy.clear.get key = none := by
    cases manager.policy with
    | _ => rfl
  rw [cleared]
  exact ⟨rfl, not_mem_nil⟩

end CPUOffloadingManager

end VllmCore.Offload
