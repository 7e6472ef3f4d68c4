import VllmCore.Offload.CPUAccounting

namespace VllmCore.Offload

open Lib List

/-!
# Runs of the CPU offloading manager

A session is the manager with the keys whose store is prepared and neither completed
nor reset.  Over any run the accounting holds, a block leaves the tier only by
eviction without references, by a failed store or by a reset, and a store that is
refused changes neither blocks nor slots.
-/

variable {Key : Type} [DecidableEq Key]

inductive PolicyName where
  | lru
  | arc
  deriving Repr, DecidableEq

/-- A policy as constructed. -/
def CachePolicy.init (name : PolicyName) (cacheCapacity : Nat) (rounding : ℚ → ℚ) :
    CachePolicy Key :=
  match name with
  | .lru => lru { evictableBlocks := .empty, blocks := .empty }
  | .arc =>
    arc
      { cacheCapacity := cacheCapacity
        rounding := rounding
        targetT1Size := 0
        t1 := .empty
        t2 := .empty
        b1 := .empty
        b2 := .empty }

/-- A call of the manager. -/
inductive Call (Key : Type) where
  | lookup (key : Key)
  | touch (keys : List Key)
  | prepareLoad (keys : List Key)
  | completeLoad (keys : List Key)
  | prepareStore (keys : List Key)
  | completeStore (keys : List Key) (success : Bool)
  | resetCache
  deriving Repr, DecidableEq

/-- The manager and the keys whose store is prepared and not completed. -/
structure Session (Key : Type) where
  manager : CPUOffloadingManager Key
  stores : List Key := []

namespace Session

open CPUOffloadingManager

variable (session : Session Key)

/-- The session after a store was prepared. -/
def entered :
    EStateM.Result Fault (CPUOffloadingManager Key) (Option (PrepareStoreOutput Key)) → Session Key
  | .ok (some output) after => ⟨after, session.stores ++ output.keysToStore⟩
  | .ok none after => ⟨after, session.stores⟩
  | .error _ after => ⟨after, session.stores⟩

/-- The session after a call, whether the call returned or raised. -/
def perform : Call Key → Session Key
  | .lookup key => { session with manager := left (lookup key session.manager) }
  | .touch keys => { session with manager := left (touch keys session.manager) }
  | .prepareLoad keys => { session with manager := left (prepareLoad keys session.manager) }
  | .completeLoad keys => { session with manager := left (completeLoad keys session.manager) }
  | .prepareStore keys => session.entered (prepareStore keys session.manager)
  | .completeStore keys success =>
    { manager := left (completeStore keys success session.manager)
      stores := session.stores.filter fun key => key ∉ keys }
  | .resetCache =>
    { manager := left (resetCache session.manager)
      stores := [] }

def run (calls : List (Call Key)) : Session Key :=
  calls.foldl perform session

/-- A store is completed for keys whose store is prepared. -/
def Matched : Call Key → Prop
  | .completeStore keys _ => ∀ key ∈ keys, key ∈ session.stores
  | _ => True

/-- A store names no key twice. -/
def Distinct : Call Key → Prop
  | .prepareStore keys => keys.Nodup
  | _ => True

instance (session : Session Key) (call : Call Key) : Decidable (session.Matched call) := by
  unfold Matched
  cases call <;> infer_instance

instance (call : Call Key) : Decidable (Distinct call) := by
  unfold Distinct
  cases call <;> infer_instance

/-- Every call of a run is matched, and meets a condition of its own. -/
def Admissible (condition : Call Key → Prop) : Session Key → List (Call Key) → Prop
  | _, [] => True
  | session, call :: rest =>
    session.Matched call ∧ condition call ∧ Admissible condition (session.perform call) rest

instance decidableAdmissible (condition : Call Key → Prop) [DecidablePred condition] :
    (session : Session Key) →
    (calls : List (Call Key)) →
    Decidable (Admissible condition session calls)
  | _, [] => .isTrue trivial
  | session, call :: rest =>
    have := decidableAdmissible condition (session.perform call) rest
    inferInstanceAs (Decidable (_ ∧ _ ∧ _))

end Session

namespace CPUOffloadingManager

variable {manager after : CPUOffloadingManager Key} {key : Key} {keys : List Key}

/-! ## What the calls keep -/

/-- Kept whenever the entry of a readable block is rewritten. -/
def Stable (Property : CPUOffloadingManager Key → Prop) : Prop :=
  ∀ manager key block written after,
    Property manager → manager.policy.get key = some block → 0 ≤ block.refCnt →
      manager.Rewrote key (some written) after → Property after

variable {Property : CPUOffloadingManager Key → Prop}

theorem prepareLoad_keeps (stable : Stable Property) (keys : List Key) :
    Keeps (fun manager => manager.Sound ∧ Property manager) (prepareLoad keys) := by
  refine Keeps.mapM fun key _ => ?_
  rintro manager ⟨sound, holds⟩
  cases found : manager.policy.get key with
  | none =>
    simp only [prepareLoadKey, found]
    exact ⟨sound, holds⟩
  | some block =>
    by_cases ready : 0 ≤ block.refCnt
    · obtain ⟨after, loaded, rewrote⟩ := prepareLoadKey_ok sound found ready
      rw [loaded]
      exact ⟨rewrote.sound, stable _ _ _ _ _ holds found ready rewrote⟩
    · simp only [prepareLoadKey, found, BlockStatus.isReady, ready, decide_false]
      exact ⟨sound, holds⟩

theorem completeLoad_keeps (stable : Stable Property) (keys : List Key) :
    Keeps (fun manager => manager.Sound ∧ Property manager) (completeLoad keys) := by
  refine Keeps.bind (Keeps.mapM fun key _ => ?_) fun _ => Keeps.pure _ _
  rintro manager ⟨sound, holds⟩
  cases found : manager.policy.get key with
  | none =>
    simp only [completeLoadKey, found]
    exact ⟨sound, holds⟩
  | some block =>
    by_cases referenced : 0 < block.refCnt
    · obtain ⟨after, released, rewrote⟩ := completeLoadKey_ok sound found referenced
      rw [released]
      exact ⟨rewrote.sound, stable _ _ _ _ _ holds found referenced.le rewrote⟩
    · simp only [completeLoadKey, found, referenced, if_false]
      exact ⟨sound, holds⟩

/-- Neither pending nor readable is what only an overflown count could be. -/
def InRange (manager : CPUOffloadingManager Key) (key : Key) : Prop :=
  ∀ block, manager.policy.get key = some block → -1 ≤ block.refCnt

/-- A round of a completion: the entry stays, or was pending and is written. -/
theorem completeKey_keeps {Value : Type} {round : Key → Effect (CPUOffloadingManager Key) Value}
    (written : BlockStatus → Option BlockStatus)
    (inRange : ∀ block found, written block = some found → -1 ≤ found.refCnt)
    (idle :
      ∀ key manager, (∀ block, manager.policy.get key = some block → 0 ≤ block.refCnt) →
          ∃ value, round key manager = .ok value manager)
    (pending :
      ∀ key manager block, manager.Sound → manager.policy.get key = some block → block.refCnt = -1 →
          ∃ value after, round key manager = .ok value after ∧
            manager.Rewrote key (written block) after)
    (stable :
      ∀ manager key block after,
        key ∈ keys → Property manager → manager.policy.get key = some block →
          block.refCnt = -1 → manager.Rewrote key (written block) after → Property after) :
    Keeps (fun manager =>
      (manager.Sound ∧ ∀ key ∈ keys, manager.InRange key) ∧ Property manager)
      (keys.mapM round) := by
  refine Keeps.mapM fun key mem => ?_
  rintro manager ⟨⟨sound, ranges⟩, holds⟩
  by_cases waits : ∃ block, manager.policy.get key = some block ∧ block.refCnt = -1
  · obtain ⟨block, found, waiting⟩ := waits
    obtain ⟨value, after, completed, rewrote⟩ := pending key manager block sound found waiting
    rw [completed]
    refine ⟨⟨rewrote.sound, ?_⟩, stable manager key block after mem holds found waiting rewrote⟩
    intro other listed entry known
    rw [rewrote.get] at known
    split at known
    · exact inRange block entry known
    · exact ranges other listed entry known
  · obtain ⟨value, ran⟩ :=
      idle key manager fun block found => by
        have range := ranges key mem block found
        have settled : block.refCnt ≠ -1 := fun waiting => waits ⟨block, found, waiting⟩
        omega
    rw [ran]
    exact ⟨⟨sound, ranges⟩, holds⟩

/-- Completing stores rewrites pending entries of the keys only. -/
theorem completeStore_keeps {success : Bool}
    (stable :
      ∀ manager key block written after,
        key ∈ keys → Property manager → manager.policy.get key = some block →
          block.refCnt = -1 → (success = true → written.isSome = true) →
            manager.Rewrote key written after → Property after)
    (silent : ∀ manager stored, Property manager → Property (manager.emit stored false)) :
    Keeps (fun manager =>
      (manager.Sound ∧ ∀ key ∈ keys, manager.InRange key) ∧ Property manager)
      (completeStore keys success) := by
  cases success with
  | true =>
    refine Keeps.bind (completeKey_keeps (fun block => some { block with refCnt := 0 }) ?_ ?_ ?_ ?_)
      fun stored => ?_
    · intro block found same
      cases same
      norm_num
    · intro key manager ready
      cases found : manager.policy.get key with
      | none => exact ⟨[], by simp [completeStoreKey, found]⟩
      | some block =>
        exact ⟨[], by simp [completeStoreKey, found, BlockStatus.isReady, ready block found]⟩
    · intro key manager block sound found waiting
      obtain ⟨after, completed, rewrote⟩ := completeStoreKey_pending sound found waiting
      exact ⟨[key], after, completed, rewrote⟩
    · intro manager key block after mem holds found waiting rewrote
      exact stable manager key block _ after mem holds found waiting (fun _ => rfl) rewrote
    · rintro manager ⟨⟨sound, ranges⟩, holds⟩
      refine ⟨⟨sound.emit _ _, ?_⟩, silent _ _ holds⟩
      intro other listed entry known
      rw [emit_policy] at known
      exact ranges other listed entry known
  | false =>
    refine Keeps.bind (completeKey_keeps (fun _ => none) ?_ ?_ ?_ ?_) fun _ => Keeps.pure _ _
    · intro block found same
      cases same
    · intro key manager ready
      cases found : manager.policy.get key with
      | none => exact ⟨(), by simp [dropStoreKey, found]⟩
      | some block =>
        exact ⟨(), by simp [dropStoreKey, found, BlockStatus.isReady, ready block found]⟩
    · intro key manager block sound found waiting
      obtain ⟨after, dropped, rewrote⟩ := dropStoreKey_pending sound found waiting
      exact ⟨(), after, dropped, rewrote⟩
    · intro manager key block after mem holds found waiting rewrote
      exact stable manager key block _ after mem holds found waiting
        (absurd · Bool.false_ne_true) rewrote

/-- The store of a key is prepared and not completed. -/
def Pending (manager : CPUOffloadingManager Key) (key : Key) : Prop :=
  ∃ slot, manager.policy.get key = some (BlockStatus.new slot)

/-- A pending entry is not readable, so no other entry's rewriting touches it. -/
theorem stable_pending (stores : List Key) :
    Stable fun manager : CPUOffloadingManager Key => ∀ key ∈ stores, manager.Pending key := by
  intro manager key block written after pending found ready rewrote other mem
  obtain ⟨slot, waiting⟩ := pending other mem
  refine ⟨slot, ?_⟩
  rw [rewrote.get, if_neg, waiting]
  rintro rfl
  rw [waiting] at found
  cases found
  simp [BlockStatus.new] at ready

/-- Rewriting an entry keeps every key cached. -/
theorem stable_cached :
    Stable fun manager : CPUOffloadingManager Key => manager.policy.get key ≠ none := by
  intro manager other block written after known _ _ rewrote
  rw [rewrote.get]
  split
  · simp
  · exact known

theorem lookup_left (manager : CPUOffloadingManager Key) (key : Key) :
    ∃ counts, left (lookup key manager) = { manager with counts := counts } := by
  unfold lookup
  split
  · exact ⟨manager.counts, rfl⟩
  · split
    · exact ⟨manager.counts, rfl⟩
    · exact ⟨_, rfl⟩

theorem Sound.tracker (sound : manager.Sound) (counts : Option (Dict Key Nat)) :
    ({ manager with counts := counts } : CPUOffloadingManager Key).Sound :=
  ⟨sound.coherent, sound.slots, sound.bounded, sound.evictable, sound.pending, sound.width⟩

/-- A touch changes no entry. -/
theorem touch_left (sound : manager.Sound) :
    (left (touch keys manager)).Sound ∧
      ∀ key, (left (touch keys manager)).policy.get key = manager.policy.get key := by
  obtain ⟨coherent, reordered⟩ := CachePolicy.coherent_touch sound.coherent
  refine ⟨sound.exchange [] [] 0 (.refl _) reordered coherent (by simp) rfl sound.bounded ?_ rfl rfl,
    ?_⟩
  · simp [touch, left]
  intro key
  apply Option.ext
  intro block
  exact (CachePolicy.get_eq_some_iff coherent).trans
    (reordered.mem_iff.trans (CachePolicy.get_eq_some_iff sound.coherent).symm)

theorem resetCache_left : (left (resetCache manager)).Sound := by
  obtain ⟨coherent, cleared⟩ := CachePolicy.coherent_clear manager.policy
  refine ⟨coherent, ?_, Nat.zero_le _, ?_, ?_, ?_⟩
  · show (List.map _ manager.policy.clear.cached ++ []).Perm (range 0)
    rw [cleared]
    exact .refl _
  · show (0 : Int) = (List.countP _ manager.policy.clear.cached : Nat)
    rw [cleared]
    rfl
  · show (0 : Int) = (List.countP _ manager.policy.clear.cached : Nat)
    rw [cleared]
    rfl
  · intro entry mem
    have listed : entry ∈ manager.policy.clear.cached := mem
    rw [cleared] at listed
    cases listed

end CPUOffloadingManager

namespace Session

open CPUOffloadingManager

/-! ## Sessions -/

/-- The accounting, and every prepared store is pending. -/
structure Valid (session : Session Key) : Prop where
  sound : session.manager.Sound
  pending : ∀ key ∈ session.stores, session.manager.Pending key

variable {session : Session Key} {call : Call Key} {key : Key} {block : BlockStatus}
  {success : Bool}

theorem Valid.inRange (valid : session.Valid) (mem : key ∈ session.stores) :
    session.manager.InRange key := by
  intro block found
  obtain ⟨slot, waiting⟩ := valid.pending key mem
  rw [waiting] at found
  cases found
  exact le_refl _

variable {keys : List Key}

section

variable (valid : session.Valid)
include valid

/-- What completing stores leaves pending. -/
theorem Valid.completeStore (matched : session.Matched (.completeStore keys success)) :
    (session.perform (.completeStore keys success)).Valid := by
  let Waiting (manager : CPUOffloadingManager Key) : Prop :=
    ∀ key ∈ session.stores.filter (fun key => key ∉ keys), manager.Pending key
  have keeps : Keeps (fun manager =>
        (manager.Sound ∧ ∀ key ∈ keys, manager.InRange key) ∧ Waiting manager)
      (CPUOffloadingManager.completeStore keys success) := by
    apply completeStore_keeps
    · intro manager key block written after mem waiting found _ _ rewrote other listed
      obtain ⟨slot, known⟩ := waiting other listed
      refine ⟨slot, ?_⟩
      have outside := (mem_filter.mp listed).2
      rw [rewrote.get, if_neg, known]
      rintro rfl
      simp [mem] at outside
    · intro manager stored waiting other listed
      obtain ⟨slot, known⟩ := waiting other listed
      exact ⟨slot, by rw [emit_policy, known]⟩
  have start : (session.manager.Sound ∧ ∀ key ∈ keys, session.manager.InRange key) ∧
      Waiting session.manager :=
    ⟨⟨valid.sound, fun key mem => valid.inRange (matched key mem)⟩,
      fun key listed => valid.pending key (mem_of_mem_filter listed)⟩
  have ended := keeps.left start
  exact ⟨ended.1.1, ended.2⟩

/-- What preparing a store leaves pending. -/
theorem Valid.prepareStore (nodup : keys.Nodup) : (session.perform (.prepareStore keys)).Valid := by
  show (session.entered (CPUOffloadingManager.prepareStore keys session.manager)).Valid
  rcases prepareStore_cases valid.sound nodup with
    ⟨after, refused, sound, samePolicy, _⟩ | ⟨output, after, done, _, _, stored⟩
  · rw [refused]
    refine ⟨sound, ?_⟩
    intro key mem
    obtain ⟨slot, waiting⟩ := valid.pending key mem
    exact ⟨slot, samePolicy ▸ waiting⟩
  rw [done]
  refine ⟨stored.sound, ?_⟩
  intro key mem
  rcases mem_append.mp mem with old | new
  · obtain ⟨slot, waiting⟩ := valid.pending key old
    refine ⟨slot, ?_⟩
    show after.policy.get key = _
    rw [stored.same, waiting]
    · intro fresh
      rw [(stored.fresh key fresh).1] at waiting
      cases waiting
    · intro evicted
      obtain ⟨⟨block, known, free⟩, _⟩ := stored.evicted key evicted
      rw [waiting] at known
      cases known
      simp [BlockStatus.new] at free
  · exact (stored.fresh key new).2

/-- A call keeps the session valid. -/
theorem Valid.perform (matched : session.Matched call) (nodup : Distinct call) :
    (session.perform call).Valid := by
  cases call with
  | lookup key =>
    obtain ⟨counts, same⟩ := session.manager.lookup_left key
    refine ⟨?_, ?_⟩
    · show (left (lookup key session.manager)).Sound
      rw [same]
      exact valid.sound.tracker counts
    · show ∀ other ∈ session.stores, (left (lookup key session.manager)).Pending other
      rw [same]
      exact valid.pending
  | touch keys =>
    obtain ⟨sound, found⟩ := touch_left valid.sound
    refine ⟨sound, ?_⟩
    intro key mem
    obtain ⟨slot, waiting⟩ := valid.pending key mem
    exact ⟨slot, (found key).trans waiting⟩
  | prepareLoad keys =>
    have ended :=
      (prepareLoad_keeps (stable_pending session.stores) keys).left ⟨valid.sound, valid.pending⟩
    exact ⟨ended.1, ended.2⟩
  | completeLoad keys =>
    have ended :=
      (completeLoad_keeps (stable_pending session.stores) keys).left ⟨valid.sound, valid.pending⟩
    exact ⟨ended.1, ended.2⟩
  | prepareStore keys => exact valid.prepareStore nodup
  | completeStore keys success => exact valid.completeStore matched
  | resetCache => exact ⟨resetCache_left, by simp [Session.perform]⟩

theorem Valid.run (admissible : Admissible Distinct session calls) : (session.run calls).Valid := by
  induction calls generalizing session with
  | nil => exact valid
  | cons call rest ih =>
    obtain ⟨matched, nodup, later⟩ := admissible
    exact ih (valid.perform matched nodup) later

/-! ## What becomes of a cached block -/

/-- How a cached block may leave the tier. -/
def MayLose (call : Call Key) (key : Key) (block : BlockStatus) : Prop :=
  match call with
  | .prepareStore _ => block.refCnt = 0
  | .completeStore keys success => success = false ∧ key ∈ keys ∧ block.refCnt = -1
  | .resetCache => True
  | _ => False

/-- Completing stores loses pending blocks of a failed store only. -/
theorem completeStore_lost (matched : session.Matched (.completeStore keys success))
    (found : session.manager.policy.get key = some block)
    (lost : (session.perform (.completeStore keys success)).manager.policy.get key = none) :
    success = false ∧ key ∈ keys ∧ block.refCnt = -1 := by
  -- the entry is as before, or was pending and stays cached after a success
  let Kept (manager : CPUOffloadingManager Key) : Prop :=
    manager.policy.get key = some block ∨ key ∈ keys ∧ block.refCnt = -1 ∧
        (success = true → (manager.policy.get key).isSome = true)
  have keeps : Keeps (fun manager =>
        (manager.Sound ∧ ∀ key ∈ keys, manager.InRange key) ∧ Kept manager)
      (CPUOffloadingManager.completeStore keys success) := by
    apply completeStore_keeps
    · intro manager other pending written after mem kept before waiting some rewrote
      by_cases same : key = other
      · subst same
        refine .inr ⟨mem, ?_, ?_⟩
        · rcases kept with unchanged | ⟨_, waited, _⟩
          · rw [before] at unchanged
            cases unchanged
            exact waiting
          · exact waited
        · intro succeeded
          rw [rewrote.get, if_pos rfl]
          exact some succeeded
      · have unchanged : after.policy.get key = manager.policy.get key := by
          rw [rewrote.get, if_neg same]
        unfold Kept
        rw [unchanged]
        exact kept
    · intro manager stored kept
      unfold Kept
      rw [emit_policy]
      exact kept
  have ended := keeps.left
    ⟨⟨valid.sound, fun key mem => valid.inRange (matched key mem)⟩, .inl found⟩
  have gone :
      (left (CPUOffloadingManager.completeStore keys success session.manager)).policy.get key =
        none :=
    lost
  rcases ended.2 with unchanged | ⟨mem, waited, cached⟩
  · rw [gone] at unchanged
    cases unchanged
  refine ⟨?_, mem, waited⟩
  cases success with
  | false => rfl
  | true =>
    have still := cached rfl
    rw [gone] at still
    cases still

/-- A call loses a block only without references, pending in a failed store, or by a reset. -/
theorem perform_lost (matched : session.Matched call) (nodup : Distinct call)
    (found : session.manager.policy.get key = some block)
    (lost : (session.perform call).manager.policy.get key = none) : MayLose call key block := by
  have known : session.manager.policy.get key ≠ none := by simp [found]
  cases call with
  | lookup other =>
    obtain ⟨counts, same⟩ := session.manager.lookup_left other
    have unchanged : (left (lookup other session.manager)).policy.get key = none := lost
    rw [same] at unchanged
    exact known unchanged
  | touch keys => exact known (((touch_left valid.sound).2 key).symm.trans lost)
  | prepareLoad keys =>
    exact ((prepareLoad_keeps stable_cached keys).left ⟨valid.sound, known⟩).2 lost
  | completeLoad keys =>
    exact ((completeLoad_keeps stable_cached keys).left ⟨valid.sound, known⟩).2 lost
  | prepareStore keys =>
    have gone : (session.entered
        (CPUOffloadingManager.prepareStore keys session.manager)).manager.policy.get key = none :=
      lost
    rcases prepareStore_cases valid.sound nodup with
      ⟨after, refused, _, samePolicy, _⟩ | ⟨output, after, done, _, _, stored⟩
    · rw [refused] at gone
      exact absurd (samePolicy ▸ gone) known
    rw [done] at gone
    by_cases evicted : key ∈ output.evictedKeys
    · obtain ⟨⟨other, before, free⟩, _⟩ := stored.evicted key evicted
      rw [found] at before
      cases before
      exact free
    · have stays : key ∉ output.keysToStore :=
        fun fresh => known (stored.fresh key fresh).1
      exact absurd ((stored.same key stays evicted).symm.trans gone) known
  | completeStore keys success => exact completeStore_lost valid matched found lost
  | resetCache => trivial

end

end Session

/-! ## The accounting of every run -/

namespace CPUOffloadingManager

/-- The cached keys whose block has a slot. -/
def owners (manager : CPUOffloadingManager Key) (slot : Nat) : List Key :=
  (manager.policy.cached.filter fun entry => entry.2.blockId = slot).map Prod.fst

/-- Slots and counters agree with the cached blocks. -/
structure Accounted (manager : CPUOffloadingManager Key) : Prop where
  slots :
    ∀ slot < manager.numAllocatedBlocks,
      (manager.owners slot).length + manager.freeList.count slot = 1
  bounded : manager.numAllocatedBlocks ≤ manager.numBlocks
  evictable : manager.numEvictableCacheBlocks = manager.number 0
  pending : manager.numWritePendingBlocks = manager.number (-1)

variable {manager : CPUOffloadingManager Key}

omit [DecidableEq Key] in
theorem length_owners : (manager.owners slot).length = manager.owned.count slot := by
  unfold owners owned
  rw [length_map, ← countP_eq_length_filter, List.count, countP_map]
  apply countP_congr
  intro entry _
  simp

theorem Sound.accounted (sound : manager.Sound) : manager.Accounted := by
  refine ⟨?_, sound.bounded, sound.evictable, sound.pending⟩
  intro slot allocated
  rw [length_owners, ← count_append, sound.slots.count_eq]
  exact count_eq_one_of_mem nodup_range (mem_range.mpr allocated)

end CPUOffloadingManager

namespace Session

open CPUOffloadingManager

variable (numBlocks : Nat)

variable (name : PolicyName)

/-- A session over a newly constructed manager. -/
def start (rounding : ℚ → ℚ) (enableEvents : Bool) (storeThreshold maxTrackerSize : Int) :
    Session Key where
  manager :=
    CPUOffloadingManager.init numBlocks (.init name numBlocks rounding) enableEvents
      storeThreshold maxTrackerSize

theorem valid_start (rounding : ℚ → ℚ) (enableEvents : Bool) (storeThreshold maxTrackerSize : Int) :
    (start numBlocks name rounding enableEvents storeThreshold maxTrackerSize :
      Session Key).Valid := by
  refine ⟨?_, by simp [start]⟩
  cases name with
  | lru =>
    refine ⟨?_, .refl _, Nat.zero_le _, rfl, rfl, ?_⟩
    · intro key
      simp [Dict.contains]
    · intro entry mem
      cases mem
  | arc =>
    refine ⟨?_, .refl _, Nat.zero_le _, rfl, rfl, ?_⟩
    · intro key _
      rfl
    · intro entry mem
      cases mem

/--
Over every run of calls, whatever they raise, in which no store names a key twice and
stores are completed for prepared keys: the slots and counters are accounted for, a block
leaves the tier only without references, by a failed store or by a reset, and a refused
store changes neither blocks nor free slots.
-/
theorem run_accounted (rounding : ℚ → ℚ) (enableEvents : Bool) (storeThreshold maxTrackerSize : Int)
    (calls : List (Call Key))
    (admissible :
      Admissible Distinct
        (start numBlocks name rounding enableEvents storeThreshold maxTrackerSize) calls) :
    let session :=
      (start numBlocks name rounding enableEvents storeThreshold maxTrackerSize).run calls
    session.manager.Accounted ∧ (∀ call key block, session.Matched call → Distinct call →
          session.manager.policy.get key = some block →
            (session.perform call).manager.policy.get key = none → MayLose call key block) ∧
      ∀ keys after, keys.Nodup → prepareStore keys session.manager = .ok none after →
          after.policy = session.manager.policy ∧ after.freeList = session.manager.freeList := by
  intro session
  have valid : session.Valid := (valid_start _ _ _ _ _ _).run admissible
  refine ⟨valid.sound.accounted, ?_, ?_⟩
  · intro call key block matched distinct found lost
    exact perform_lost valid matched distinct found lost
  · intro keys after distinct refused
    rcases prepareStore_cases valid.sound distinct with
      ⟨other, returned, _, samePolicy, sameFree⟩ | ⟨output, other, done, _⟩
    · rw [refused] at returned
      cases returned
      exact ⟨samePolicy, sameFree⟩
    · rw [refused] at done
      cases done

/-- A block is stored, read, and evicted once it is not read any more. -/
theorem oneBlock_accounted :
    ((start 1 .lru id true 1 64000).run
      [.prepareStore [7], .completeStore [7] true, .prepareLoad [7], .prepareStore [8],
        .completeLoad [7], .prepareStore [8]] : Session Nat).manager.Accounted :=
  (run_accounted 1 .lru id true 1 64000 _ (by decide)).1

/-- A key named twice in one store loses the slot of its first copy. -/
theorem repeatedKey_leaks :
    Admissible (fun _ => True) (start 2 .lru id false 1 64000 : Session Nat)
        [.prepareStore [7, 7]] ∧
      ¬ ((start 2 .lru id false 1 64000).run
          [.prepareStore [7, 7]] : Session Nat).manager.Accounted := by
  refine ⟨by decide, ?_⟩
  intro accounted
  exact absurd (accounted.slots 0 (by decide)) (by decide)

end Session

end VllmCore.Offload
