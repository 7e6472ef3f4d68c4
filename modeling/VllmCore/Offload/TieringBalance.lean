import VllmCore.Offload.TieringRequests

namespace VllmCore.Offload

open Lib List

/-!
# Tiered offloading keeps its references balanced

Over any run in which resets find every job reported, a readable block of the primary
tier has one reference for each load of the GPU and each reading job, a block is
pending exactly when one store, waiting promotion or promotion job writes it, and no
call raises.
-/

namespace TieringSession

variable {Key : Type} [DecidableEq Key]

open TieringOffloadingManager

/-- The keys of the GPU's stores. -/
def storeKeys (session : TieringSession Key) : List Key :=
  session.stores.flatMap Prod.snd

/-- The number of jobs that read a key from the primary tier. -/
def readingJobs (session : TieringSession Key) (key : Key) : Nat :=
  session.manager.transferJobs.values.countP fun job =>
    !job.isPromotion && decide (key ∈ job.keys)

/-- The references that should be held on a key. -/
def references (session : TieringSession Key) (key : Key) : Nat :=
  session.loads.count key + session.readingJobs key

/-- What callers and tiers observe: loads of readable blocks, completions of what was
prepared, known requests, and tiers that report each submitted job at most once. -/
def Allowed (session : TieringSession Key) : TieringCall Key → Prop
  | .onNewRequest _ reqContext _ => session.manager.reqState.get? reqContext.reqId = none
  | .onRequestFinished _ reqContext =>
    ∃ state, session.manager.reqState.get? reqContext.reqId = some state
  | .lookup _ _ _ finished _ => session.manager.Polls finished
  | .createStoreJob keys _ =>
    keys.Nodup ∧ ∀ key ∈ keys,
        session.manager.primaryTier.Readable key ∧ session.references key + 1 < 2 ^ 31
  | .touch _ => True
  | .prepareLoad keys =>
    ∀ key ∈ keys, session.manager.primaryTier.Readable key ∧
        session.references key + keys.count key < 2 ^ 31
  | .completeLoad keys => keys.Subperm session.loads
  | .prepareStore keys reqContext finished =>
    keys.Nodup ∧ session.manager.Polls finished ∧ ∃ state,
        session.manager.reqState.get? reqContext.reqId = some state ∧
          ∀ key ∈ keys, session.references key + state.requestLevelTiers.length < 2 ^ 31
  | .completeStore keys reqContext _ =>
    (∃ store ∈ session.stores, isStore reqContext.reqId keys store = true) ∧
      session.manager.secondaryTiers.length < 2 ^ 31
  | .poll finished => session.manager.Polls finished
  | .endStep => True
  | .resetCache finished => session.manager.Reported (session.manager.results finished)

instance
    (manager : TieringOffloadingManager Key) (results : List JobResult) :
    Decidable (manager.Reported results) :=
  decidable_of_iff _ (TieringOffloadingManager.reported_iff manager results).symm

instance
    (manager : TieringOffloadingManager Key)
    (finished : Nat → List JobResult) : Decidable (manager.Polls finished) :=
  inferInstanceAs (Decidable (_ → _))

instance
    (manager : CPUOffloadingManager Key) (key : Key) : Decidable (manager.Readable key) :=
  inferInstanceAs (Decidable (∃ _, _ ∧ _))

instance
    (session : TieringSession Key) (call : TieringCall Key) : Decidable (session.Allowed call) :=
  match call with
  | .onNewRequest _ _ _ => inferInstanceAs (Decidable (_ = _))
  | .onRequestFinished _ _ => inferInstanceAs (Decidable (∃ _, _))
  | .lookup _ _ _ finished _ => inferInstanceAs (Decidable (session.manager.Polls finished))
  | .createStoreJob _ _ => inferInstanceAs (Decidable (_ ∧ _))
  | .touch _ => .isTrue trivial
  | .prepareLoad keys => inferInstanceAs (Decidable (∀ key ∈ keys, _))
  | .completeLoad keys => inferInstanceAs (Decidable (keys.Subperm session.loads))
  | .prepareStore _ _ _ => inferInstanceAs (Decidable (_ ∧ _ ∧ ∃ _, _ ∧ _))
  | .completeStore _ _ _ => inferInstanceAs (Decidable ((∃ _ ∈ session.stores, _) ∧ _))
  | .poll finished => inferInstanceAs (Decidable (session.manager.Polls finished))
  | .endStep => .isTrue trivial
  | .resetCache finished =>
    inferInstanceAs
      (Decidable (session.manager.Reported (session.manager.results finished)))

/-- A reset finds every job reported by the drained tiers. -/
def Drained (session : TieringSession Key) : TieringCall Key → Prop
  | .resetCache finished => session.manager.Drains finished
  | _ => True

instance
    (session : TieringSession Key) (call : TieringCall Key) : Decidable (session.Drained call) :=
  match call with
  | .resetCache _ => inferInstanceAs (Decidable (∀ _ ∈ session.manager.transferJobs.keys, _))
  | .onNewRequest _ _ _ | .onRequestFinished _ _ | .lookup _ _ _ _ _ | .createStoreJob _ _
  | .touch _ | .prepareLoad _ | .completeLoad _ | .prepareStore _ _ _ | .completeStore _ _ _
  | .poll _ | .endStep => .isTrue trivial

/-- The manager agrees with what the callers hold. -/
structure Balanced (session : TieringSession Key) : Prop where
  agrees : session.manager.Agrees session.loads (session.storeKeys ++ session.manager.waitingKeys)
  counts : Counts session.manager.reqState session.stores

variable {session : TieringSession Key} {keys : List Key}

/-! ## References as counts -/

omit [DecidableEq Key] in
/-- A key is read by as many jobs as list it. -/
theorem count_flatMap_jobReads [DecidableEq Key] {jobs : List (JobMetadata Key)}
    (nodup : ∀ job ∈ jobs, job.isPromotion = false → job.keys.Nodup) :
    (jobs.flatMap jobReads).count key =
      jobs.countP fun job => !job.isPromotion && decide (key ∈ job.keys) := by
  induction jobs with
  | nil => rfl
  | cons job rest ih =>
    have later := ih fun other mem => nodup other (mem_cons_of_mem _ mem)
    have own := nodup job mem_cons_self
    rw [flatMap_cons, count_append, later, countP_cons, add_comm]
    unfold jobReads
    cases promotion : job.isPromotion with
    | true => simp
    | false =>
      by_cases mem : key ∈ job.keys
      · simp [mem, count_eq_one_of_mem (own promotion) mem]
      · simp [mem, count_eq_zero_of_not_mem mem]

section

variable (balanced : session.Balanced)
include balanced

theorem Balanced.references_eq (key : Key) :
    session.references key = (session.loads ++ session.manager.readingKeys).count key := by
  rw [count_append, references, readingJobs, readingKeys, Dict.flat, count_flatMap_jobReads]
  intro job mem promotion
  obtain ⟨⟨id, other⟩, listed, rfl⟩ := mem_map.mp mem
  exact balanced.agrees.distinct id other (Dict.get?_eq_some_iff.mpr listed) promotion

/-! ## Requests -/

theorem Balanced.onNewRequest (fresh : session.manager.reqState.get? context.reqId = none)
    (origin : Option Nat) (requestLevel : List Nat) :
    ∃ next, session.perform (.onNewRequest origin context requestLevel) = .ok next ∧
      next.Balanced := by
  have returned := session.manager.onNewRequest_eq context origin requestLevel
  exact ⟨_, perform_of_ok (silent_of_ok returned), balanced.agrees.congr rfl rfl rfl,
    balanced.counts.onNewRequest fresh _ _⟩

theorem Balanced.onRequestFinished
    (known : session.manager.reqState.get? context.reqId = some state) (origin : Option Nat) :
    ∃ next, session.perform (.onRequestFinished origin context) = .ok next ∧ next.Balanced := by
  have returned := onRequestFinished_eq known origin
  have counts := balanced.counts.onRequestFinished known
  refine ⟨_, perform_of_ok (silent_of_ok returned), ?_⟩
  split
  · rename_i idle
    rw [if_pos idle] at counts
    exact ⟨balanced.agrees.congr rfl rfl rfl, counts⟩
  · rename_i waits
    rw [if_neg waits] at counts
    exact ⟨balanced.agrees.congr rfl rfl rfl, counts⟩

/-! ## Calls that leave requests and stores alone -/

theorem Balanced.settle {next : TieringSession Key}
    (agrees : next.manager.Agrees next.loads (next.storeKeys ++ next.manager.waitingKeys))
    (sameRequests : next.manager.reqState = session.manager.reqState)
    (sameStores : next.stores = session.stores) :
    next.Balanced where
  agrees := agrees
  counts := by
    rw [sameRequests, sameStores]
    exact balanced.counts

theorem Balanced.lookup (polls : session.manager.Polls done)
    (origin : Option Nat) (key : Key) (context : ReqContext) (answers : Nat → LookupResult) :
    ∃ next, session.perform (.lookup origin key context done answers) = .ok next ∧
      next.Balanced := by
  obtain ⟨result, after, ran, promoted⟩ :=
    balanced.agrees.lookup polls key context origin answers
  obtain ⟨extra, agrees, waiting⟩ := promoted.agrees
  refine ⟨_, perform_of_ok (silent_of_ok ran), balanced.settle ?_ promoted.framed.reqState rfl⟩
  refine agrees.perm (.refl _) ?_
  refine (perm_append_comm_assoc _ _ _).trans ?_
  exact waiting.symm.append_left _

end

omit [DecidableEq Key] in
theorem waitingKeys_of_same {manager after : TieringOffloadingManager Key}
    (same : after.pendingLoadSubmissions = manager.pendingLoadSubmissions) :
    after.waitingKeys = manager.waitingKeys := by
  unfold waitingKeys
  rw [same]

section

variable (balanced : session.Balanced)
include balanced

theorem Balanced.createStoreJob (allowed : session.Allowed (.createStoreJob keys context)) :
    ∃ next, session.perform (.createStoreJob keys context) = .ok next ∧ next.Balanced := by
  obtain ⟨nodup, readable⟩ := allowed
  obtain ⟨job, after, ran, agrees, framed, waiting, _⟩ :=
    balanced.agrees.createStoreJob (fun key mem => (readable key mem).1) nodup (fun key mem => by
        rw [← balanced.references_eq]
        exact (readable key mem).2)
      context
  refine ⟨_, perform_of_ok (silent_of_ok ran), balanced.settle ?_ framed.reqState rfl⟩
  rw [← waitingKeys_of_same waiting] at agrees
  exact agrees

/-- An operation of the primary tier that moves references only. -/
theorem Balanced.onPrimary
    {Value : Type} {operation : Effect (CPUOffloadingManager Key) Value} {value : Value}
    {primaryTier : CPUOffloadingManager Key} {loads : List Key}
    (keeps : Keeps CPUOffloadingManager.Untracked operation)
    (ran : operation session.manager.primaryTier = .ok value primaryTier)
    (ledger :
      primaryTier.Ledger (loads ++ session.manager.readingKeys)
        (session.storeKeys ++ session.manager.waitingKeys ++ session.manager.writingKeys)) :
    ({ session with
        manager := { session.manager with primaryTier := primaryTier }
        loads := loads } : TieringSession Key).Balanced :=
  ⟨⟨ledger, untracked_of_keeps keeps balanced.agrees.untracked ran, balanced.agrees.fresh,
    balanced.agrees.distinct⟩, balanced.counts⟩

theorem Balanced.touch (keys : List Key) :
    ∃ next, session.perform (.touch keys) = .ok next ∧ next.Balanced := by
  obtain ⟨primaryTier, ran, ledger⟩ := balanced.agrees.ledger.touch keys
  have keeps : Keeps CPUOffloadingManager.Untracked (CPUOffloadingManager.touch keys) :=
    fun _ holds => holds
  exact ⟨_, perform_of_ok (silent_of_ok (onPrimary_of_ok ran)), balanced.onPrimary keeps ran ledger⟩

theorem Balanced.prepareLoad (allowed : session.Allowed (.prepareLoad keys)) :
    ∃ next, session.perform (.prepareLoad keys) = .ok next ∧ next.Balanced := by
  obtain ⟨slots, primaryTier, ran, ledger, _⟩ :=
    balanced.agrees.ledger.prepareLoad (fun key mem => (allowed key mem).1) fun key mem => by
        rw [← balanced.references_eq]
        exact (allowed key mem).2
  rw [← append_assoc] at ledger
  exact ⟨_, perform_of_ok (silent_of_ok (onPrimary_of_ok ran)),
    balanced.onPrimary (CPUOffloadingManager.untracked_prepareLoad) ran ledger⟩

theorem Balanced.completeLoad (allowed : session.Allowed (.completeLoad keys)) :
    ∃ next, session.perform (.completeLoad keys) = .ok next ∧ next.Balanced := by
  have divided : (keys ++ session.loads.diff keys).Perm session.loads :=
    subperm_append_diff_self_of_count_le fun key _ => allowed.count_le key
  have ledger := balanced.agrees.ledger.perm (divided.symm.append_right _) (.refl _)
  rw [append_assoc] at ledger
  obtain ⟨primaryTier, ran, ledgerAfter⟩ := ledger.completeLoad
  exact ⟨_, perform_of_ok (silent_of_ok (onPrimary_of_ok ran)),
    balanced.onPrimary (CPUOffloadingManager.untracked_completeLoad) ran ledgerAfter⟩

theorem Balanced.poll {done : Nat → List JobResult} (polls : session.manager.Polls done) :
    ∃ next, session.perform (.poll done) = .ok next ∧ next.Balanced := by
  obtain ⟨after, ran, agrees, framed, waiting, _⟩ :=
    balanced.agrees.maybeProcessFinishedJobs polls
  refine ⟨_, perform_of_ok (silent_of_ok ran), balanced.settle ?_ framed.reqState rfl⟩
  rw [← waitingKeys_of_same waiting] at agrees
  exact agrees

theorem Balanced.endStep : ∃ next, session.perform .endStep = .ok next ∧ next.Balanced := by
  let opened := { session.manager with processedJobsThisStep := false }
  have agreesOpened : opened.Agrees session.loads (session.storeKeys ++ opened.waitingKeys) :=
    balanced.agrees.congr rfl rfl rfl
  obtain ⟨after, flushed, agrees, framed, waiting⟩ := agreesOpened.flushPendingPromotions
  refine ⟨_, perform_of_ok (silent_of_ok flushed), balanced.settle ?_ framed.reqState rfl⟩
  show after.Agrees session.loads (session.storeKeys ++ after.waitingKeys)
  rw [waiting, append_nil]
  exact agrees

end

/-! ## Stores and resets -/

variable {finished : Nat → List JobResult}

section

variable (balanced : session.Balanced)
include balanced

theorem Balanced.prepareStore (allowed : session.Allowed (.prepareStore keys context done)) :
    ∃ next, session.perform (.prepareStore keys context done) = .ok next ∧ next.Balanced := by
  obtain ⟨nodup, polls, state, known, limit⟩ := allowed
  obtain ⟨reply, after, ran, prepared⟩ :=
    balanced.agrees.prepareStore polls known nodup fun key mem => by
      rw [← balanced.references_eq]
      exact limit key mem
  have agrees := prepared.agrees
  have requests := prepared.reqState
  rw [← waitingKeys_of_same prepared.settled.waiting, ← append_assoc] at agrees
  refine ⟨_, perform_of_ok ran, ?_⟩
  by_cases nothing : storedKeys reply = []
  · have same : session.record (.prepareStore keys context done) reply after =
        { session with manager := after } := by
      simp only [record, nothing, if_true]
    rw [same]
    have none : (reply.map PrepareStoreOutput.keysToStore).getD [] = [] := nothing
    rw [none] at agrees requests
    exact balanced.settle agrees (requests.trans (if_pos rfl)) rfl
  · have grown : session.record (.prepareStore keys context done) reply after = { session with
          manager := after
          stores := (context.reqId, storedKeys reply) :: session.stores } := by
      simp only [record, nothing, if_false]
    replace requests := requests.trans (if_neg nothing)
    rw [grown]
    refine ⟨agrees, ?_⟩
    rw [requests]
    exact balanced.counts.prepareStore known _

theorem Balanced.completeStore {success : Bool}
    (allowed : session.Allowed (.completeStore keys context success)) :
    ∃ next, session.perform (.completeStore keys context success) = .ok next ∧ next.Balanced := by
  obtain ⟨⟨found, listed, matches_⟩, limit⟩ := allowed
  obtain ⟨store, before, behind, _, isStored, split, erased⟩ := exists_of_eraseP listed matches_
  simp only [isStore, Bool.and_eq_true, decide_eq_true_eq, isPerm_iff] at isStored
  have reordered : session.stores.Perm (store :: (before ++ behind)) := by
    rw [split]
    exact perm_middle
  have mem := reordered.mem_iff.mpr mem_cons_self
  obtain ⟨state, known⟩ := balanced.counts.registered store mem
  have counts := balanced.counts.completeStore known reordered
  have pos := balanced.counts.pending_pos known mem
  rw [isStored.1] at known counts
  have agrees : session.manager.Agrees session.loads
      (keys ++ ((before ++ behind).flatMap Prod.snd ++ session.manager.waitingKeys)) := by
    refine balanced.agrees.perm (.refl _) ?_
    rw [← append_assoc]
    refine Perm.append_right _ ?_
    refine (reordered.flatMap_right Prod.snd).trans ?_
    exact isStored.2.append_right _
  obtain ⟨after, ran, agreesAfter, settled, requests⟩ :=
    agrees.completeStore known pos limit success
  refine ⟨_, perform_of_ok (silent_of_ok ran), ?_⟩
  have next : session.record (.completeStore keys context success) none after =
      { session with manager := after, stores := before ++ behind } := by
    simp only [record, erased]
  rw [next]
  rw [← waitingKeys_of_same settled.waiting] at agreesAfter
  refine ⟨agreesAfter, ?_⟩
  rw [requests]
  exact counts

theorem Balanced.resetCache (reported : session.manager.Reported (session.manager.results done))
    (drains : session.manager.Drains done) :
    ∃ next, session.perform (.resetCache done) = .ok next ∧ next.Balanced := by
  obtain ⟨after, ran, agrees, waiting, requests⟩ := balanced.agrees.resetCache reported drains
  refine ⟨_, perform_of_ok (silent_of_ok ran), ?_, ?_⟩
  · show after.Agrees [] ([] ++ after.waitingKeys)
    rw [waiting]
    exact agrees
  · show Counts after.reqState []
    rw [requests]
    exact Counts.reset _

/-! ## Whole runs -/

/-- A call of a balanced session returns and keeps it balanced. -/
theorem Balanced.perform (allowed : session.Allowed call)
    (drained : session.Drained call) : ∃ next, session.perform call = .ok next ∧ next.Balanced := by
  cases call with
  | onNewRequest origin context requestLevel =>
    exact balanced.onNewRequest allowed origin requestLevel
  | onRequestFinished origin context =>
    obtain ⟨state, known⟩ := allowed
    exact balanced.onRequestFinished known origin
  | lookup origin key context done answers =>
    exact balanced.lookup allowed origin key context answers
  | createStoreJob keys context => exact balanced.createStoreJob allowed
  | touch keys => exact balanced.touch keys
  | prepareLoad keys => exact balanced.prepareLoad allowed
  | completeLoad keys => exact balanced.completeLoad allowed
  | prepareStore keys context done => exact balanced.prepareStore allowed
  | completeStore keys context success => exact balanced.completeStore allowed
  | poll done => exact balanced.poll allowed
  | endStep => exact balanced.endStep
  | resetCache done => exact balanced.resetCache allowed drained

theorem Balanced.run
    (admissible :
      Admissible (fun session call => session.Allowed call ∧ session.Drained call)
        session calls) :
    ∃ ended, session.run calls = .ok ended ∧ ended.Balanced := by
  induction calls generalizing session with
  | nil => exact ⟨session, rfl, balanced⟩
  | cons call rest ih =>
    obtain ⟨⟨allowed, drained⟩, later⟩ := admissible
    obtain ⟨next, ran, balancedNext⟩ := balanced.perform allowed drained
    rw [ran] at later
    obtain ⟨ended, continued, balancedEnded⟩ := ih balancedNext later
    exact ⟨ended, (run_cons_of_ok ran).trans continued, balancedEnded⟩

end

theorem balanced_start
    {secondaryTiers : List Nat} :
    (start numBlocks name rounding enableEvents secondaryTiers : TieringSession Key).Balanced := by
  have sound :=
    (Session.valid_start numBlocks name rounding enableEvents 1 64000 : (_ : Session Key).Valid).sound
  have empty :
      ∀ key, (CachePolicy.init name numBlocks rounding : CachePolicy Key).get key = none := by
    intro key
    cases name with
    | _ => rfl
  refine ⟨⟨⟨sound, ?_, nodup_nil⟩, rfl, ?_, ?_⟩, Counts.empty⟩
  · intro key
    have none : (start numBlocks name rounding enableEvents secondaryTiers :
        TieringSession Key).manager.primaryTier.policy.get key = none :=
      empty key
    rw [none]
    exact ⟨rfl, not_mem_nil⟩
  all_goals
    intro id job found
    cases found

/-- References and writers of the primary tier, as the callers count them. -/
structure Fair (session : TieringSession Key) : Prop where
  reading :
    ∀ key block, session.manager.primaryTier.policy.get key = some block →
      0 ≤ block.refCnt → block.refCnt = session.references key
  writing :
    ∀ key, (∃ block, session.manager.primaryTier.policy.get key = some block ∧ block.refCnt = -1) ↔
      key ∈ session.storeKeys ∨ key ∈ session.manager.waitingKeys ∨
        key ∈ session.manager.writingKeys
  apart : (session.storeKeys ++ session.manager.waitingKeys ++ session.manager.writingKeys).Nodup

theorem Balanced.fair (balanced : session.Balanced) : session.Fair := by
  have ledger := balanced.agrees.ledger
  refine ⟨?_, ?_, ledger.distinct⟩
  · intro key block found ready
    rw [balanced.references_eq]
    exact (ledger.refCnt_of_ready found ready).2
  · intro key
    have listed :
        key ∈ session.storeKeys ++ session.manager.waitingKeys ++ session.manager.writingKeys ↔
          key ∈ session.storeKeys ∨ key ∈ session.manager.waitingKeys ∨
            key ∈ session.manager.writingKeys := by
      simp only [mem_append, or_assoc]
    rw [← listed]
    constructor
    · rintro ⟨block, found, waiting⟩
      have agrees := ledger.agrees key
      rw [found] at agrees
      rcases agrees with ⟨written, _⟩ | ⟨_, counted⟩
      · exact written
      · omega
    · intro mem
      exact (ledger.found_of_mem_writers mem).2

/--
In every run whose resets find all jobs reported, no call raises, and in every state
reached the references and pending writes of the primary tier are those its callers hold.
-/
theorem run_fair (numBlocks : Nat) (name : PolicyName) (rounding : ℚ → ℚ)
    (enableEvents : Bool) (secondaryTiers : List Nat) (calls : List (TieringCall Key))
    (admissible :
      Admissible (fun session call => session.Allowed call ∧ session.Drained call)
        (start numBlocks name rounding enableEvents secondaryTiers) calls) :
    ∃ ended, (start numBlocks name rounding enableEvents secondaryTiers).run calls = .ok ended ∧
        ended.Fair := by
  obtain ⟨ended, ran, balanced⟩ := balanced_start.run admissible
  exact ⟨ended, ran, balanced.fair⟩

/-- A request whose loads may come from tier 0. -/
def localRequest : ReqContext where
  reqId := 1
  loadTiers := [0]

/-- A block is stored and cascaded, another promoted, both are read, and all is reset. -/
theorem storedAndPromoted_fair :
    ∃ ended, (start 4 .lru id false [0] : TieringSession Nat).run
        [.onNewRequest none localRequest [], .prepareStore [7] localRequest fun _ => [],
          .completeStore [7] localRequest true,
          .lookup none 8 localRequest (fun _ => []) fun _ => .hit,
          .endStep,
          .poll fun _ => [⟨1, true⟩],
          .prepareLoad [7, 8],
          .completeLoad [7],
          .resetCache fun _ => [⟨0, true⟩]] =
      .ok ended ∧
      ended.Fair :=
  run_fair 4 .lru id false [0] _ (by decide +kernel)

/-- No slot has two keys, and a key that a load or a cascade reads is there, ready. -/
def KeepsReads (session : TieringSession Key) : Prop :=
  session.manager.primaryTier.Accounted ∧ ∀ key, 0 < session.references key →
    ∃ block, session.manager.primaryTier.policy.get key = some block ∧ 0 < block.refCnt

/-- In such a run what is read stays in the primary tier. -/
theorem run_keepsReads {secondaryTiers : List Nat}
    (admissible :
      Admissible (fun session call => session.Allowed call ∧ session.Drained call)
        (start numBlocks name rounding enableEvents secondaryTiers : TieringSession Key) calls) :
    ∃ ended, (start numBlocks name rounding enableEvents secondaryTiers).run calls = .ok ended ∧
      ended.KeepsReads := by
  obtain ⟨ended, ran, balanced⟩ := balanced_start.run admissible
  have ledger := balanced.agrees.ledger
  refine ⟨ended, ran, ledger.sound.accounted, fun key read => ?_⟩
  rw [balanced.references_eq] at read
  obtain ⟨_, block, found, counted⟩ := ledger.found_of_mem_readers (count_pos_iff.mp read)
  exact ⟨block, found, by omega⟩

/-- A stored block is read by its cascade and by a load. -/
theorem storedBlock_keepsReads :
    ∃ ended, (start 4 .lru id false [0] : TieringSession Nat).run
        [.onNewRequest none localRequest [], .prepareStore [7] localRequest fun _ => [],
          .completeStore [7] localRequest true, .prepareLoad [7]] =
      .ok ended ∧ ended.KeepsReads :=
  run_keepsReads (by decide +kernel)

/-- A job the drained tier did not report raises once it is reported. -/
theorem unreportedJob_raises :
    Admissible Allowed (start 4 .lru id false [0] : TieringSession Nat)
        [.onNewRequest none localRequest [], .prepareStore [7] localRequest fun _ => [],
          .completeStore [7] localRequest true,
          .resetCache fun _ => [],
          .poll fun _ => [⟨0, true⟩]] ∧
      raised
          ((start 4 .lru id false [0] : TieringSession Nat).run
            [.onNewRequest none localRequest [], .prepareStore [7] localRequest fun _ => [],
              .completeStore [7] localRequest true,
              .resetCache fun _ => [],
              .poll fun _ => [⟨0, true⟩]]) =
        some (.assertion "not found") := by
  decide +kernel

end TieringSession

end VllmCore.Offload
