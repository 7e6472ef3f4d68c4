import VllmCore.Offload.CPULedger
import VllmCore.Offload.Tiering

namespace VllmCore.Offload

open Lib CPUOffloadingManager

/-!
# References and writes of the tiering manager

The readers of the primary tier are the loads of the GPU and the jobs that read it;
its writers are the stores of the GPU, the waiting promotions and the jobs of
promotions.  Every operation of the manager moves keys between these and returns.
-/

namespace TieringOffloadingManager

variable {Key : Type}

/-- The keys a job reads from the primary tier. -/
def jobReads (job : JobMetadata Key) : List Key :=
  if job.isPromotion then [] else job.keys

/-- The keys a job writes to the primary tier. -/
def jobWrites (job : JobMetadata Key) : List Key :=
  if job.isPromotion then job.keys else []

/-- The keys of jobs that read the primary tier, with repetitions. -/
def readingKeys (manager : TieringOffloadingManager Key) : List Key :=
  manager.transferJobs.flat jobReads

/-- The keys of promotion jobs. -/
def writingKeys (manager : TieringOffloadingManager Key) : List Key :=
  manager.transferJobs.flat jobWrites

/-- The keys of promotions not submitted yet. -/
def waitingKeys (manager : TieringOffloadingManager Key) : List Key :=
  manager.pendingLoadSubmissions.flat (Dict.flat PendingPromotion.keys)

variable [DecidableEq Key]

/-- The manager agrees with the references and writes held outside its jobs. -/
structure Agrees (manager : TieringOffloadingManager Key) (loads writes : List Key) :
    Prop where
  ledger : manager.primaryTier.Ledger (loads ++ manager.readingKeys) (writes ++ manager.writingKeys)
  untracked : manager.primaryTier.Untracked
  fresh : ∀ id job, manager.transferJobs.get? id = some job → id < manager.jobIdCounter
  distinct :
    ∀ id job, manager.transferJobs.get? id = some job → job.isPromotion = false → job.keys.Nodup

/-- Requests and tiers are as before. -/
structure Framed (manager after : TieringOffloadingManager Key) : Prop where
  reqState : after.reqState = manager.reqState
  secondaryTiers : after.secondaryTiers = manager.secondaryTiers

variable {Value : Type} {manager middle after : TieringOffloadingManager Key}
  {loads writes keys : List Key}

omit [DecidableEq Key] in
theorem Framed.refl (manager : TieringOffloadingManager Key) : Framed manager manager :=
  ⟨rfl, rfl⟩

omit [DecidableEq Key] in
theorem Framed.trans (first : Framed manager middle) (second : Framed middle after) :
    Framed manager after :=
  ⟨second.reqState.trans first.reqState, second.secondaryTiers.trans first.secondaryTiers⟩

theorem Agrees.perm (agrees : manager.Agrees loads writes)
    (sameLoads : loads.Perm otherLoads) (sameWrites : writes.Perm otherWrites) :
    manager.Agrees otherLoads otherWrites where
  ledger := agrees.ledger.perm (sameLoads.append_right _) (sameWrites.append_right _)
  untracked := agrees.untracked
  fresh := agrees.fresh
  distinct := agrees.distinct

variable {primaryTier : CPUOffloadingManager Key} {job : JobMetadata Key}

omit [DecidableEq Key] in
theorem onPrimary_of_ok (ran : operation manager.primaryTier = .ok value primaryTier) :
    onPrimary operation manager = .ok value { manager with primaryTier := primaryTier } := by
  unfold onPrimary
  rw [ran]

omit [DecidableEq Key] in
/-- A primary tier without a tracker stays so. -/
theorem untracked_of_keeps (keeps : Keeps Untracked operation)
    (untracked : manager.primaryTier.Untracked)
    (ran : operation manager.primaryTier = .ok value primaryTier) : primaryTier.Untracked :=
  keeps.of_ok ran untracked

/-! ## Finished jobs -/

/-- Each of these jobs is known, and none is reported twice. -/
@[mk_iff]
structure Reported (manager : TieringOffloadingManager Key) (results : List JobResult) :
    Prop where
  known : ∀ result ∈ results, ∃ job, manager.transferJobs.get? result.jobId = some job
  once : (results.map JobResult.jobId).Nodup

theorem Agrees.finishJob (agrees : manager.Agrees loads writes)
    (known : manager.transferJobs.get? result.jobId = some job) :
    ∃ after, TieringOffloadingManager.finishJob result manager = .ok () after ∧
      after.Agrees loads writes ∧ Framed manager after ∧
        after.transferJobs = manager.transferJobs.erase result.jobId ∧
          after.pendingLoadSubmissions = manager.pendingLoadSubmissions := by
  have reading := manager.transferJobs.flat_perm_erase result.jobId jobReads
  have writing := manager.transferJobs.flat_perm_erase result.jobId jobWrites
  rw [known] at reading writing
  have fresh : ∀ id other, (manager.transferJobs.erase result.jobId).get? id = some other →
      manager.transferJobs.get? id = some other :=
    fun _ _ found => (Dict.get?_erase_eq_some.mp found).2
  unfold TieringOffloadingManager.finishJob
  rw [known]
  cases promotion : job.isPromotion with
  | true =>
    simp only [Option.elim, jobReads, jobWrites, promotion, if_true, List.nil_append]
      at reading writing
    have ledger := agrees.ledger.perm (reading.append_left loads)
      ((writing.append_left writes).trans (List.perm_append_comm_assoc _ _ _))
    obtain ⟨primaryTier, completed, ledgerAfter, _⟩ := ledger.completeStore result.success
    simp only [promotion, if_true]
    refine ⟨_, onPrimary_of_ok completed, ⟨ledgerAfter, ?_, ?_, ?_⟩, ⟨rfl, rfl⟩, rfl, rfl⟩
    · exact untracked_of_keeps untracked_completeStore agrees.untracked completed
    · exact fun id other found => agrees.fresh id other (fresh id other found)
    · exact fun id other found => agrees.distinct id other (fresh id other found)
  | false =>
    simp only [Option.elim, jobReads, jobWrites, promotion, Bool.false_eq_true, if_false,
      List.nil_append] at reading writing
    have ledger := agrees.ledger.perm
      ((reading.append_left loads).trans (List.perm_append_comm_assoc _ _ _))
      (writing.append_left writes)
    obtain ⟨primaryTier, completed, ledgerAfter⟩ := ledger.completeLoad
    simp only [promotion, Bool.false_eq_true, if_false]
    refine ⟨_, onPrimary_of_ok completed, ⟨ledgerAfter, ?_, ?_, ?_⟩, ⟨rfl, rfl⟩, rfl, rfl⟩
    · exact untracked_of_keeps untracked_completeLoad agrees.untracked completed
    · exact fun id other found => agrees.fresh id other (fresh id other found)
    · exact fun id other found => agrees.distinct id other (fresh id other found)

/-- What is left of the jobs after some were reported. -/
structure Polled (manager : TieringOffloadingManager Key) (results : List JobResult)
    (after : TieringOffloadingManager Key) :
    Prop where
  framed : Framed manager after
  waiting : after.pendingLoadSubmissions = manager.pendingLoadSubmissions
  jobs :
    ∀ id job, after.transferJobs.get? id = some job →
      manager.transferJobs.get? id = some job ∧ id ∉ results.map JobResult.jobId

theorem Agrees.finishJobs (agrees : manager.Agrees loads writes)
    (reported : manager.Reported results) :
    ∃ values after, results.mapM TieringOffloadingManager.finishJob manager = .ok values after ∧
      after.Agrees loads writes ∧ Polled manager results after := by
  induction results generalizing manager with
  | nil =>
    exact ⟨[], manager, rfl, agrees, Framed.refl manager, rfl, fun id job found => ⟨found, by simp⟩⟩
  | cons result rest ih =>
    obtain ⟨job, known⟩ := reported.known result List.mem_cons_self
    obtain ⟨middle, done, agreesMiddle, framed, erased, waiting⟩ := agrees.finishJob known
    have distinct := reported.once
    rw [List.map_cons, List.nodup_cons] at distinct
    have later : middle.Reported rest := by
      refine ⟨?_, distinct.2⟩
      intro other mem
      have differs : other.jobId ≠ result.jobId :=
        fun equal => distinct.1 (equal ▸ List.mem_map_of_mem mem)
      rw [erased, Dict.get?_erase, if_neg differs]
      exact reported.known other (List.mem_cons_of_mem _ mem)
    obtain ⟨values, after, finishedRest, agreesAfter, polled⟩ := ih agreesMiddle later
    refine ⟨() :: values, after, ?_, agreesAfter, framed.trans polled.framed,
      polled.waiting.trans waiting, ?_⟩
    · rw [List.mapM_cons, bind_of_ok done, bind_of_ok finishedRest]
      rfl
    intro id other found
    obtain ⟨remaining, unreported⟩ := polled.jobs id other found
    rw [erased, Dict.get?_erase_eq_some] at remaining
    exact ⟨remaining.2, by simp [remaining.1, unreported]⟩

/-- The results the tiers report when they are polled. -/
def results (manager : TieringOffloadingManager Key) (finished : Nat → List JobResult) :
    List JobResult :=
  manager.secondaryTiers.flatMap finished

variable {finished : Nat → List JobResult}

theorem Agrees.processFinishedJobs (agrees : manager.Agrees loads writes)
    (reported : manager.Reported (manager.results finished)) :
    ∃ after, TieringOffloadingManager.processFinishedJobs finished manager = .ok () after ∧
      after.Agrees loads writes ∧ Polled manager (manager.results finished) after := by
  obtain ⟨values, after, done, agreesAfter, polled⟩ := agrees.finishJobs reported
  refine ⟨after, ?_, agreesAfter, polled⟩
  have unfolded : TieringOffloadingManager.processFinishedJobs finished manager =
        ((manager.results finished).mapM TieringOffloadingManager.finishJob >>= fun _ =>
          pure ()) manager :=
    rfl
  rw [unfolded, bind_of_ok done]
  rfl

/-- When the gate is open, the tiers report known jobs, each once. -/
def Polls (manager : TieringOffloadingManager Key) (finished : Nat → List JobResult) : Prop :=
  manager.processedJobsThisStep = false → manager.Reported (manager.results finished)

theorem maybeProcess_eq :
    maybeProcessFinishedJobs done manager =
      if manager.processedJobsThisStep then
        .ok () manager
      else
        processFinishedJobs done { manager with processedJobsThisStep := true } := by
  have read : (get : Effect (TieringOffloadingManager Key) _) manager = .ok manager manager := rfl
  unfold maybeProcessFinishedJobs
  rw [bind_of_ok read]
  split <;> rfl

theorem Agrees.maybeProcessFinishedJobs (agrees : manager.Agrees loads writes)
    (polls : manager.Polls finished) :
    ∃ after, TieringOffloadingManager.maybeProcessFinishedJobs finished manager = .ok () after ∧
      after.Agrees loads writes ∧ Framed manager after ∧
        after.pendingLoadSubmissions = manager.pendingLoadSubmissions ∧
          after.readingKeys.Subperm manager.readingKeys := by
  rw [maybeProcess_eq]
  cases gate : manager.processedJobsThisStep with
  | true => exact ⟨manager, rfl, agrees, Framed.refl manager, rfl, List.Subperm.refl _⟩
  | false =>
    have reported := polls gate
    have agreesMarked : Agrees { manager with processedJobsThisStep := true } loads writes :=
      ⟨agrees.ledger, agrees.untracked, agrees.fresh, agrees.distinct⟩
    obtain ⟨after, done, agreesAfter, polled⟩ :=
      agreesMarked.processFinishedJobs ⟨reported.known, reported.once⟩
    exact ⟨after, done, agreesAfter, ⟨polled.framed.reqState, polled.framed.secondaryTiers⟩,
      polled.waiting, Dict.flat_subperm (fun id job found => (polled.jobs id job found).1) _⟩

/-! ## Promotions -/

/-- The waiting promotions gain some keys, which count as writes. -/
structure Promoted (manager : TieringOffloadingManager Key) (loads writes : List Key)
    (after : TieringOffloadingManager Key) :
    Prop where
  framed : Framed manager after
  agrees :
    ∃ extra, after.Agrees loads (extra ++ writes) ∧
      after.waitingKeys.Perm (extra ++ manager.waitingKeys)

theorem Agrees.promoted (agrees : after.Agrees loads writes) (framed : Framed manager after)
    (waiting : after.pendingLoadSubmissions = manager.pendingLoadSubmissions) :
    Promoted manager loads writes after := by
  refine ⟨framed, [], agrees, ?_⟩
  unfold waitingKeys
  rw [waiting]
  exact .refl _

omit [DecidableEq Key] in
/-- The blocks of one promotion join the waiting ones. -/
theorem waitingKeys_enqueue
    (manager : TieringOffloadingManager Key) (tier : Nat) (context : ReqContext)
    (output : PrepareStoreOutput Key) :
    ∃ after, enqueuePromotion tier context output manager = .ok () after ∧
      after.waitingKeys.Perm (output.keysToStore ++ manager.waitingKeys) ∧
        after.primaryTier = manager.primaryTier ∧ after.transferJobs = manager.transferJobs ∧
          after.jobIdCounter = manager.jobIdCounter ∧ Framed manager after := by
  refine ⟨_, rfl, ?_, rfl, rfl, rfl, ⟨rfl, rfl⟩⟩
  apply Dict.flat_set_perm
  have inner :
      ((manager.pendingLoadSubmissions.get? tier).elim [] (Dict.flat PendingPromotion.keys)) =
        (manager.pendingLoadSubmissions.getD tier .empty).flat PendingPromotion.keys := by
    unfold Dict.getD
    cases manager.pendingLoadSubmissions.get? tier with
    | _ => rfl
  rw [inner]
  apply Dict.flat_set_perm
  unfold Dict.getD
  cases (manager.pendingLoadSubmissions.get? tier).getD .empty |>.get? context.reqId with
  | none => simp
  | some entry => exact List.perm_append_comm

theorem Agrees.initiatePromotion (agrees : manager.Agrees loads writes)
    (tier : Nat) (key : Key) (context : ReqContext) :
    ∃ promoted after, TieringOffloadingManager.initiatePromotion tier key context manager =
        .ok promoted after ∧
      Promoted manager loads writes after := by
  unfold TieringOffloadingManager.initiatePromotion
  rcases agrees.ledger.prepareStore (List.nodup_singleton key) with
    ⟨primaryTier, refused, ledger⟩ | ⟨output, primaryTier, done, ledger⟩
  · rw [bind_of_ok (onPrimary_of_ok refused)]
    refine ⟨false, _, rfl, Agrees.promoted ⟨ledger, ?_, agrees.fresh, agrees.distinct⟩
      ⟨rfl, rfl⟩ rfl⟩
    exact untracked_of_keeps untracked_prepareStore agrees.untracked refused
  rw [bind_of_ok (onPrimary_of_ok done)]
  obtain ⟨after, enqueued, waiting, samePrimary, sameJobs, sameCounter, framed⟩ :=
    waitingKeys_enqueue { manager with primaryTier := primaryTier } tier context output
  refine ⟨true, after, ?_, ⟨framed.reqState, framed.secondaryTiers⟩, output.keysToStore,
    ⟨?_, ?_, ?_, ?_⟩, waiting⟩
  · dsimp only
    rw [bind_of_ok enqueued]
    rfl
  · simp only [readingKeys, writingKeys, samePrimary, sameJobs]
    rw [List.append_assoc]
    exact ledger
  · rw [samePrimary]
    exact untracked_of_keeps untracked_prepareStore agrees.untracked done
  · rw [sameJobs, sameCounter]
    exact agrees.fresh
  · rw [sameJobs]
    exact agrees.distinct

theorem Agrees.lookupTiers (agrees : manager.Agrees loads writes)
    (key : Key) (context : ReqContext) (excludeTier : Option Nat) (answers : Nat → LookupResult)
    (tiers : List Nat) (anyRetry : Bool) :
    ∃ result after,
      TieringOffloadingManager.lookupTiers key context excludeTier answers tiers anyRetry
            manager =
          .ok result after ∧
        Promoted manager loads writes after := by
  induction tiers generalizing anyRetry with
  | nil => exact ⟨_, manager, rfl, agrees.promoted (Framed.refl manager) rfl⟩
  | cons tier rest ih =>
    unfold TieringOffloadingManager.lookupTiers
    split
    · exact ih anyRetry
    · cases answers tier with
      | hit =>
        obtain ⟨promoted, after, done, result⟩ := agrees.initiatePromotion tier key context
        refine ⟨if promoted then .retry else .miss, after, ?_, result⟩
        dsimp only
        rw [bind_of_ok done]
        rfl
      | retry => exact ih true
      | _ => exact ih anyRetry

theorem Promoted.of_framed (promoted : Promoted middle loads writes after)
    (framed : Framed manager middle)
    (waiting : middle.pendingLoadSubmissions = manager.pendingLoadSubmissions) :
    Promoted manager loads writes after := by
  obtain ⟨extra, agrees, grown⟩ := promoted.agrees
  refine ⟨framed.trans promoted.framed, extra, agrees, ?_⟩
  unfold waitingKeys at grown ⊢
  rw [← waiting]
  exact grown

theorem Agrees.lookup (agrees : manager.Agrees loads writes) (polls : manager.Polls done)
    (key : Key) (context : ReqContext) (excludeTier : Option Nat)
    (answers : Nat → LookupResult) :
    ∃ result after, TieringOffloadingManager.lookup key context excludeTier done answers manager =
          .ok result after ∧
        Promoted manager loads writes after := by
  obtain ⟨middle, polled, agreesMiddle, framed, waiting, _⟩ := agrees.maybeProcessFinishedJobs polls
  have found := lookup_untracked agreesMiddle.untracked key
  unfold TieringOffloadingManager.lookup
  rw [bind_of_ok polled, bind_of_ok (onPrimary_of_ok found)]
  have same : Promoted manager loads writes middle := agreesMiddle.promoted framed waiting
  obtain ⟨result, after, asked, promoted⟩ :=
    agreesMiddle.lookupTiers key context excludeTier answers middle.secondaryTiers false
  cases middle.primaryTier.status key with
  | hit => exact ⟨.hit, middle, rfl, same⟩
  | hitPending => exact ⟨.hitPending, middle, rfl, same⟩
  | _ => exact ⟨result, after, asked, promoted.of_framed framed waiting⟩

/-! ## Jobs -/

theorem Agrees.next_absent (agrees : manager.Agrees loads writes) :
    manager.transferJobs.get? manager.jobIdCounter = none := by
  cases found : manager.transferJobs.get? manager.jobIdCounter with
  | none => rfl
  | some other => exact absurd (agrees.fresh _ other found) (lt_irrefl _)

/-- A new job takes its keys from the references or writes held outside. -/
theorem Agrees.registerJob
    (agrees : manager.Agrees (jobReads job ++ loads) (jobWrites job ++ writes))
    (nodup : job.isPromotion = false → job.keys.Nodup)
    (sameJobs : after.transferJobs = manager.transferJobs.set manager.jobIdCounter job)
    (sameCounter : after.jobIdCounter = manager.jobIdCounter + 1)
    (samePrimary : after.primaryTier = manager.primaryTier) : after.Agrees loads writes := by
  have absent := agrees.next_absent
  have reading : after.readingKeys.Perm (jobReads job ++ manager.readingKeys) := by
    unfold readingKeys
    rw [sameJobs]
    apply Dict.flat_set_perm
    rw [absent]
    simp
  have writing : after.writingKeys.Perm (jobWrites job ++ manager.writingKeys) := by
    unfold writingKeys
    rw [sameJobs]
    apply Dict.flat_set_perm
    rw [absent]
    simp
  refine ⟨?_, ?_, ?_, ?_⟩
  · rw [samePrimary]
    have ledger := agrees.ledger
    rw [List.append_assoc, List.append_assoc] at ledger
    refine ledger.perm ?_ ?_
    · exact (List.perm_append_comm_assoc _ _ _).trans (reading.symm.append_left loads)
    · exact (List.perm_append_comm_assoc _ _ _).trans (writing.symm.append_left writes)
  · rw [samePrimary]
    exact agrees.untracked
  · intro id other found
    rw [sameJobs, Dict.get?_set] at found
    split at found
    · omega
    · have before := agrees.fresh id other found
      omega
  · intro id other found reads
    rw [sameJobs, Dict.get?_set] at found
    split at found
    · cases found
      exact nodup reads
    · exact agrees.distinct id other found reads

section

variable (agrees : manager.Agrees loads writes)
include agrees

theorem Agrees.createStoreJob (readable : ∀ key ∈ keys, manager.primaryTier.Readable key)
    (nodup : keys.Nodup)
    (limit : ∀ key ∈ keys, (loads ++ manager.readingKeys).count key + 1 < 2 ^ 31)
    (context : ReqContext) :
    ∃ job after, TieringOffloadingManager.createStoreJob keys context manager = .ok job after ∧
      after.Agrees loads writes ∧ Framed manager after ∧
        after.pendingLoadSubmissions = manager.pendingLoadSubmissions ∧
          after.readingKeys.Perm (keys ++ manager.readingKeys) ∧
            ∀ other, manager.primaryTier.Readable other → after.primaryTier.Readable other := by
  have enough :
      ∀ key ∈ keys, (loads ++ manager.readingKeys).count key + keys.count key < 2 ^ 31 := by
    intro key mem
    rw [List.count_eq_one_of_mem nodup mem]
    exact limit key mem
  obtain ⟨blockIds, primaryTier, loaded, ledger, stays⟩ := agrees.ledger.prepareLoad readable enough
  unfold TieringOffloadingManager.createStoreJob
  rw [bind_of_ok (onPrimary_of_ok loaded)]
  let job : JobMetadata Key := ⟨manager.jobIdCounter, keys, blockIds, false, context⟩
  have pinned : Agrees { manager with primaryTier := primaryTier }
      (jobReads job ++ loads) (jobWrites job ++ writes) := by
    refine ⟨?_, ?_, agrees.fresh, agrees.distinct⟩
    · rw [List.append_assoc]
      exact ledger
    · exact untracked_of_keeps untracked_prepareLoad agrees.untracked loaded
  refine ⟨job, _, rfl, pinned.registerJob (fun _ => nodup) rfl rfl rfl, ⟨rfl, rfl⟩, rfl, ?_, stays⟩
  apply Dict.flat_set_perm
  rw [agrees.next_absent]
  show keys.Perm (keys ++ [])
  rw [List.append_nil]

/-- Calls on the tiers are not part of the bookkeeping. -/
theorem Agrees.congr (samePrimary : after.primaryTier = manager.primaryTier)
    (sameJobs : after.transferJobs = manager.transferJobs)
    (sameCounter : after.jobIdCounter = manager.jobIdCounter) :
    after.Agrees loads writes where
  ledger := by
    simp only [readingKeys, writingKeys, samePrimary, sameJobs]
    exact agrees.ledger
  untracked := by
    rw [samePrimary]
    exact agrees.untracked
  fresh := by
    rw [sameJobs, sameCounter]
    exact agrees.fresh
  distinct := by
    rw [sameJobs]
    exact agrees.distinct

/-- Blocks are cascaded to tiers one after the other. -/
theorem Agrees.cascades {tiers : List Nat}
    (readable : ∀ key ∈ keys, manager.primaryTier.Readable key) (nodup : keys.Nodup)
    (limit : ∀ key ∈ keys, (loads ++ manager.readingKeys).count key + tiers.length < 2 ^ 31)
    (context : ReqContext) :
    ∃ values after, tiers.mapM (cascade keys context) manager = .ok values after ∧
      after.Agrees loads writes ∧ Framed manager after ∧
        after.pendingLoadSubmissions = manager.pendingLoadSubmissions := by
  induction tiers generalizing manager with
  | nil => exact ⟨[], manager, rfl, agrees, Framed.refl manager, rfl⟩
  | cons tier rest ih =>
    simp only [List.length_cons] at limit
    obtain ⟨job, middle, created, agreesMiddle, framed, waiting, reading, stays⟩ :=
      agrees.createStoreJob readable nodup
        (fun key mem => by have bound := limit key mem; omega) context
    let called := { middle with tierCalls := middle.tierCalls ++ [TierCall.submitStore tier job] }
    have agreesCalled : called.Agrees loads writes := agreesMiddle.congr rfl rfl rfl
    have later : ∀ key ∈ keys, (loads ++ called.readingKeys).count key + rest.length < 2 ^ 31 := by
      intro key mem
      have bound := limit key mem
      have pinned :
          called.readingKeys.count key = keys.count key + manager.readingKeys.count key := by
        have counted := reading.count_eq key
        rw [List.count_append] at counted
        exact counted
      rw [List.count_append] at bound ⊢
      rw [pinned, List.count_eq_one_of_mem nodup mem]
      omega
    obtain ⟨values, after, done, agreesAfter, framedRest, waitingRest⟩ :=
      ih agreesCalled (fun key mem => stays key (readable key mem)) later
    refine ⟨() :: values, after, ?_, agreesAfter, ⟨framedRest.reqState.trans framed.reqState,
        framedRest.secondaryTiers.trans framed.secondaryTiers⟩,
      waitingRest.trans waiting⟩
    have first : cascade keys context tier manager = .ok () called := by
      unfold cascade
      rw [bind_of_ok created]
      rfl
    rw [List.mapM_cons, bind_of_ok first, bind_of_ok done]
    rfl

end

omit [DecidableEq Key] in
theorem flatMap_waitingPromotions :
    (manager.waitingPromotions.flatMap fun waiting => waiting.2.keys) = manager.waitingKeys := by
  unfold waitingPromotions waitingKeys Dict.flat Dict.values
  rw [List.flatMap_assoc, List.flatMap_map]
  congr 1
  funext entry
  rw [List.flatMap_map]

/-- The waiting promotions become jobs. -/
theorem Agrees.flushPendingPromotions
    (agrees : manager.Agrees loads (writes ++ manager.waitingKeys)) :
    ∃ after, TieringOffloadingManager.flushPendingPromotions manager = .ok () after ∧
      after.Agrees loads writes ∧ Framed manager after ∧ after.waitingKeys = [] := by
  let remaining (rest : List (Nat × PendingPromotion Key)) : List Key :=
    rest.flatMap fun waiting => waiting.2.keys
  have submitted : ∃ values middle,
      manager.waitingPromotions.mapM submitPromotion manager = .ok values middle ∧
        middle.Agrees loads (writes ++ remaining []) ∧ Framed manager middle := by
    apply mapM_ok fun rest (middle : TieringOffloadingManager Key) =>
      middle.Agrees loads (writes ++ remaining rest) ∧ Framed manager middle
    · rintro ⟨tier, waiting⟩ rest middle ⟨agreesMiddle, framed⟩
      let job : JobMetadata Key :=
        ⟨middle.jobIdCounter, waiting.keys, waiting.blockIds, true, waiting.reqContext⟩
      refine ⟨(), _, rfl, ?_, ⟨framed.reqState, framed.secondaryTiers⟩⟩
      have held : middle.Agrees (jobReads job ++ loads)
          (jobWrites job ++ (writes ++ remaining rest)) := by
        refine agreesMiddle.perm (.refl _) ?_
        exact List.perm_append_comm_assoc _ _ _
      exact held.registerJob nofun rfl rfl rfl
    · refine ⟨?_, Framed.refl manager⟩
      show manager.Agrees loads (writes ++ manager.waitingPromotions.flatMap _)
      rw [flatMap_waitingPromotions]
      exact agrees
  obtain ⟨values, middle, done, agreesMiddle, framed⟩ := submitted
  have rest : writes ++ remaining [] = writes := List.append_nil writes
  rw [rest] at agreesMiddle
  refine ⟨{ middle with pendingLoadSubmissions := .empty }, ?_, agreesMiddle.congr rfl rfl rfl,
    ⟨framed.reqState, framed.secondaryTiers⟩, rfl⟩
  have unfolded : TieringOffloadingManager.flushPendingPromotions manager =
        (manager.waitingPromotions.mapM submitPromotion >>= fun _ =>
          modify fun manager => { manager with pendingLoadSubmissions := .empty }) manager :=
    rfl
  rw [unfolded, bind_of_ok done]
  rfl

end TieringOffloadingManager

end VllmCore.Offload
