import Mathlib.Data.List.Induction
import VllmCore.Lib.Trace
import VllmCore.Offload.TieringSteps

namespace VllmCore.Offload

open Lib List

/-!
# The order of the calls on a tier

A tier is told of a request, may be given jobs for it, and is told once that it has
finished.  Most operations of the manager only submit jobs and queue promotions; what
they submit and queue is for requests the tier knows of.
-/

variable {Key : Type}

namespace TierCall

/-- A tier knows of a request: told of it, and not yet that it has finished. -/
def told (tier reqId : Nat) : List (TierCall Key) → Bool
  | [] => false
  | .onNewRequest other reqContext :: before =>
    (decide (other = tier ∧ reqContext.reqId = reqId)) || told tier reqId before
  | .onRequestFinished other reqContext :: before =>
    !(decide (other = tier ∧ reqContext.reqId = reqId)) && told tier reqId before
  | .submitLoad _ _ :: before => told tier reqId before
  | .submitStore _ _ :: before => told tier reqId before

/-- Jobs and the end of a request are for requests the tier knows of. -/
def Admits (before : List (TierCall Key)) : TierCall Key → Prop
  | .onNewRequest _ _ => True
  | .submitLoad tier job => told tier job.reqContext.reqId before = true
  | .submitStore tier job => told tier job.reqContext.reqId before = true
  | .onRequestFinished tier reqContext => told tier reqContext.reqId before = true

variable (calls : List (TierCall Key)) (tiers : List Nat) (context : ReqContext) (tier reqId : Nat)

/-- The calls on the tiers, newest first, are in order. -/
def InOrder : Prop :=
  AllAllowed Admits calls.reverse

/-- Whether a tier knows of a request after some calls. -/
def knows (tier reqId : Nat) : Bool :=
  told tier reqId calls.reverse

/-- A job submitted to a tier that is meant to get it. -/
def Submits (meant : Nat → Nat → Prop) : TierCall Key → Prop
  | .submitLoad tier job => meant tier job.reqContext.reqId
  | .submitStore tier job => meant tier job.reqContext.reqId
  | _ => False

/-! ## Batches of calls -/

theorem knows_append_submits {calls submits : List (TierCall Key)}
    (submitted : ∀ call ∈ submits, Submits meant call) (tier reqId : Nat) :
    knows (calls ++ submits) tier reqId = knows calls tier reqId := by
  induction submits using reverseRecOn with
  | nil => rw [append_nil]
  | append_singleton rest call ih =>
    have earlier := ih fun other mem => submitted other (mem_append_left _ mem)
    have last := submitted call (by simp)
    rw [← earlier]
    simp only [knows, reverse_append, reverse_singleton, singleton_append]
    cases call with
    | submitLoad other job => rfl
    | submitStore other job => rfl
    | _ => exact last.elim

theorem InOrder.append_submits {calls submits : List (TierCall Key)} (inOrder : InOrder calls)
    (submitted : ∀ call ∈ submits, Submits (fun tier reqId => knows calls tier reqId = true) call) :
    InOrder (calls ++ submits) := by
  induction submits using reverseRecOn with
  | nil =>
    rw [append_nil]
    exact inOrder
  | append_singleton rest call ih =>
    have earlier := fun other mem => submitted other (mem_append_left _ mem)
    have last := submitted call (by simp)
    have known : ∀ tier reqId, knows (calls ++ rest) tier reqId = knows calls tier reqId :=
      knows_append_submits earlier
    rw [← append_assoc]
    unfold InOrder
    rw [reverse_append, reverse_singleton]
    refine ⟨?_, ih earlier⟩
    cases call with
    | submitLoad tier job => exact (known tier job.reqContext.reqId).trans last
    | submitStore tier job => exact (known tier job.reqContext.reqId).trans last
    | onNewRequest tier context => trivial
    | onRequestFinished tier context => exact last.elim

/-- Calls that tell every tier the same about one request. -/
theorem knows_append_map
    (tells :
      ∀ last log, told tier reqId (call last :: log) =
        if last = tier ∧ context.reqId = reqId then value else told tier reqId log) :
    knows (calls ++ tiers.map call) tier reqId =
      if tier ∈ tiers ∧ context.reqId = reqId then value else knows calls tier reqId := by
  induction tiers using reverseRecOn with
  | nil => simp
  | append_singleton rest last ih =>
    rw [map_append, ← append_assoc]
    simp only [knows, map_cons, map_nil, reverse_append, reverse_singleton,
      singleton_append, tells] at ih ⊢
    rw [ih]
    by_cases here : last = tier
    · by_cases same : context.reqId = reqId <;> simp [here, same]
    · simp [here, Ne.symm here]

theorem knows_append_new :
    knows (calls ++ tiers.map fun tier => .onNewRequest tier context) tier reqId =
      if tier ∈ tiers ∧ context.reqId = reqId then true else knows calls tier reqId :=
  knows_append_map calls tiers context tier reqId fun last _ => by
    by_cases same : last = tier ∧ context.reqId = reqId <;> simp [told, same]

theorem InOrder.append_new {calls : List (TierCall Key)} (inOrder : InOrder calls)
    (tiers : List Nat) (context : ReqContext) :
    InOrder (calls ++ tiers.map fun tier => .onNewRequest tier context) := by
  unfold InOrder
  rw [reverse_append]
  refine AllAllowed.append inOrder ?_
  intro call mem log
  obtain ⟨tier, _, rfl⟩ := mem_map.mp (mem_reverse.mp mem)
  trivial

theorem knows_append_finished :
    knows (calls ++ tiers.map fun tier => .onRequestFinished tier context) tier reqId =
      if tier ∈ tiers ∧ context.reqId = reqId then false else knows calls tier reqId :=
  knows_append_map calls tiers context tier reqId fun last _ => by
    by_cases same : last = tier ∧ context.reqId = reqId <;> simp [told, same]

theorem InOrder.append_finished
    {calls : List (TierCall Key)} {tiers : List Nat} {context : ReqContext}
    (inOrder : InOrder calls) (nodup : tiers.Nodup)
    (known : ∀ tier ∈ tiers, knows calls tier context.reqId = true) :
    InOrder (calls ++ tiers.map fun tier => .onRequestFinished tier context) := by
  induction tiers using reverseRecOn with
  | nil =>
    rw [map_nil, append_nil]
    exact inOrder
  | append_singleton rest last ih =>
    rw [nodup_append] at nodup
    have earlier := ih nodup.1 fun tier mem => known tier (mem_append_left _ mem)
    have fresh : last ∉ rest := fun mem => nodup.2.2 last mem last (by simp) rfl
    have still : knows (calls ++ rest.map fun tier => .onRequestFinished tier context) last
        context.reqId = true := by
      rw [knows_append_finished, known last (by simp)]
      simp [fresh]
    rw [map_append, ← append_assoc]
    unfold InOrder
    rw [reverse_append]
    exact ⟨still, earlier⟩

end TierCall

/-! ## Operations that only submit jobs -/

namespace TieringOffloadingManager

open TierCall

/-- Every waiting promotion is named by its request, which may wait for its tier. -/
def Queues (waits : Nat → Nat → Prop) (pending : Dict Nat (Dict Nat (PendingPromotion Key))) :
    Prop :=
  ∀ tier tierPending reqId entry,
    pending.get? tier = some tierPending → tierPending.get? reqId = some entry →
      entry.reqContext.reqId = reqId ∧ waits tier reqId

/-- Whether some tier has a promotion of a request waiting. -/
def queued (manager : TieringOffloadingManager Key) (reqId : Nat) : Bool :=
  manager.pendingLoadSubmissions.values.any fun tierPending => tierPending.contains reqId

/-- Since a point of the log only jobs were submitted, all of them as meant. -/
structure Quiet (meant waits : Nat → Nat → Prop)
    (calls : List (TierCall Key)) (reqState : Dict Nat RequestState) (tiers : List Nat)
    (manager : TieringOffloadingManager Key) :
    Prop where
  submits : ∃ new, manager.tierCalls = calls ++ new ∧ ∀ call ∈ new, Submits meant call
  requests : manager.reqState = reqState
  secondaryTiers : manager.secondaryTiers = tiers
  queues : Queues waits manager.pendingLoadSubmissions

section Steps

variable {meant waits : Nat → Nat → Prop} {calls : List (TierCall Key)}
  {reqState : Dict Nat RequestState} {tiers : List Nat}
  {manager after : TieringOffloadingManager Key} {Value : Type}

theorem Quiet.congr (quiet : manager.Quiet meant waits calls reqState tiers)
    (sameCalls : after.tierCalls = manager.tierCalls)
    (sameRequests : after.reqState = manager.reqState)
    (sameTiers : after.secondaryTiers = manager.secondaryTiers)
    (sameQueues : after.pendingLoadSubmissions = manager.pendingLoadSubmissions) :
    after.Quiet meant waits calls reqState tiers where
  submits := sameCalls ▸ quiet.submits
  requests := sameRequests.trans quiet.requests
  secondaryTiers := sameTiers.trans quiet.secondaryTiers
  queues := sameQueues ▸ quiet.queues

theorem Quiet.withState (quiet : manager.Quiet meant waits calls reqState tiers)
    (reqId : Nat) (state : RequestState) :
    (manager.withState reqId state).Quiet meant waits calls (manager.reqState.set reqId state)
      tiers where
  submits := quiet.submits
  requests := rfl
  secondaryTiers := quiet.secondaryTiers
  queues := quiet.queues

theorem Queues.unqueued {reqId : Nat} (queues : Queues waits manager.pendingLoadSubmissions)
    (none : manager.queued reqId = false) :
    Queues (fun tier other => waits tier other ∧ other ≠ reqId)
      manager.pendingLoadSubmissions := by
  intro tier tierPending other entry found listed
  obtain ⟨named, allowed⟩ := queues tier tierPending other entry found listed
  refine ⟨named, allowed, ?_⟩
  intro same
  subst same
  have pending : tierPending ∈ manager.pendingLoadSubmissions.values :=
    mem_map_of_mem (Dict.get?_eq_some_iff.mp found)
  have absent := any_eq_false.mp none tierPending pending
  apply absent
  rw [Dict.contains, listed]
  rfl

theorem quiet_onPrimary : Keeps (Quiet meant waits calls reqState tiers) (onPrimary operation) := by
  intro manager quiet
  unfold onPrimary
  cases operation manager.primaryTier with
  | _ => exact quiet.congr rfl rfl rfl rfl

variable {context : ReqContext} (keys : List Key)

theorem quiet_registerJob :
    Keeps (Quiet meant waits calls reqState tiers)
      (registerJob keys blockIds isPromotion context) :=
  fun _ quiet => quiet.congr rfl rfl rfl rfl

theorem quiet_callTier {call : TierCall Key} (submits : Submits meant call) :
    Keeps (Quiet meant waits calls reqState tiers) (callTier call) := by
  intro manager quiet
  obtain ⟨new, logged, each⟩ := quiet.submits
  refine ⟨⟨new ++ [call], ?_, ?_⟩, quiet.requests, quiet.secondaryTiers, quiet.queues⟩
  · show manager.tierCalls ++ [call] = calls ++ (new ++ [call])
    rw [logged, append_assoc]
  · intro other mem
    rcases mem_append.mp mem with earlier | last
    · exact each other earlier
    · cases mem_singleton.mp last
      exact submits

variable {tier : Nat}

theorem quiet_enqueuePromotion (allowed : waits tier context.reqId) :
    Keeps (Quiet meant waits calls reqState tiers) (enqueuePromotion tier context output) := by
  intro manager quiet
  refine ⟨quiet.submits, quiet.requests, quiet.secondaryTiers, ?_⟩
  intro other otherPending reqId entry found listed
  have queued : ∀ reqId entry,
      (manager.pendingLoadSubmissions.getD tier .empty).get? reqId = some entry →
        entry.reqContext.reqId = reqId ∧ waits tier reqId := by
    intro reqId entry found
    unfold Dict.getD at found
    cases present : manager.pendingLoadSubmissions.get? tier with
    | none =>
      rw [present] at found
      cases found
    | some tierPending =>
      rw [present] at found
      exact quiet.queues tier tierPending reqId entry present found
  have updated := found
  rw [Dict.get?_set] at updated
  split at updated
  · rename_i same
    cases updated
    subst same
    rw [Dict.get?_set] at listed
    split at listed
    · rename_i sameRequest
      cases listed
      refine ⟨?_, sameRequest ▸ allowed⟩
      rw [sameRequest]
      unfold Dict.getD
      cases present : (manager.pendingLoadSubmissions.getD other .empty).get? context.reqId with
      | none =>
        unfold Dict.getD at present
        simp [present]
      | some waiting =>
        have named := (queued _ waiting present).1
        unfold Dict.getD at present
        simp [present, named]
    · exact queued reqId entry listed
  · exact quiet.queues other otherPending reqId entry updated listed

/-! ### The end of a step -/

theorem mem_waitingPromotions (queues : Queues waits manager.pendingLoadSubmissions)
    (mem : waiting ∈ manager.waitingPromotions) : waits waiting.1 waiting.2.reqContext.reqId := by
  obtain ⟨⟨tier, tierPending⟩, listed, inner⟩ := mem_flatMap.mp mem
  obtain ⟨entry, queued, rfl⟩ := mem_map.mp inner
  obtain ⟨⟨reqId, other⟩, found, rfl⟩ := mem_map.mp queued
  obtain ⟨named, allowed⟩ :=
    queues tier tierPending reqId other (Dict.get?_eq_some_iff.mpr listed)
      (Dict.get?_eq_some_iff.mpr found)
  rw [named]
  exact allowed

theorem quiet_submitPromotion (means : meant waiting.1 waiting.2.reqContext.reqId) :
    Keeps (Quiet meant waits calls reqState tiers) (submitPromotion waiting) := by
  have registers : Triple (Quiet meant waits calls reqState tiers)
        (registerJob waiting.2.keys waiting.2.blockIds true waiting.2.reqContext)
        (fun job manager =>
          manager.Quiet meant waits calls reqState tiers ∧ job.reqContext = waiting.2.reqContext)
        (Quiet meant waits calls reqState tiers) :=
    fun _ quiet => ⟨quiet.congr rfl rfl rfl rfl, rfl⟩
  refine Triple.bind registers ?_
  intro job manager holds
  refine quiet_callTier ?_ manager holds.1
  show meant waiting.1 job.reqContext.reqId
  rw [holds.2]
  exact means

theorem Quiet.cleared (quiet : manager.Quiet meant waits calls reqState tiers) :
    Quiet meant waits calls reqState tiers { manager with pendingLoadSubmissions := .empty } where
  submits := quiet.submits
  requests := quiet.requests
  secondaryTiers := quiet.secondaryTiers
  queues := by
    intro tier tierPending reqId entry found
    cases found

theorem quiet_flush (means : ∀ tier reqId, waits tier reqId → meant tier reqId) :
    Keeps (Quiet meant waits calls reqState tiers)
      (flushPendingPromotions : Effect (TieringOffloadingManager Key) Unit) := by
  intro manager quiet
  have flushes : Keeps (Quiet meant waits calls reqState tiers)
        (manager.waitingPromotions.mapM submitPromotion >>= fun _ =>
          modify fun manager => { manager with pendingLoadSubmissions := .empty }) := by
    refine (Keeps.mapM fun waiting mem => ?_).bind fun _ => ?_
    · exact quiet_submitPromotion (means _ _ (mem_waitingPromotions quiet.queues mem))
    · exact fun _ quiet => quiet.cleared
  exact flushes manager quiet

/-! ### Polls -/

variable [DecidableEq Key]

theorem quiet_finishJob :
    Keeps (Quiet meant waits calls reqState tiers)
      (finishJob result : Effect (TieringOffloadingManager Key) Unit) := by
  intro manager quiet
  unfold finishJob
  cases manager.transferJobs.get? result.jobId with
  | none => exact quiet
  | some job => exact quiet_onPrimary _ (quiet.congr rfl rfl rfl rfl)

theorem quiet_process :
    Keeps (Quiet meant waits calls reqState tiers)
      (processFinishedJobs finished : Effect (TieringOffloadingManager Key) Unit) := by
  refine Keeps.bind (fun manager quiet => quiet) fun manager => ?_
  exact (Keeps.mapM fun result _ => quiet_finishJob).bind fun _ => Keeps.pure _ _

theorem quiet_maybeProcess :
    Keeps (Quiet meant waits calls reqState tiers)
      (maybeProcessFinishedJobs finished : Effect (TieringOffloadingManager Key) Unit) := by
  intro manager quiet
  rw [maybeProcess_eq]
  split
  · exact quiet
  · exact quiet_process _ (quiet.congr rfl rfl rfl rfl)

/-! ### Lookups -/

theorem quiet_initiatePromotion (allowed : waits tier context.reqId) :
    Keeps (Quiet meant waits calls reqState tiers) (initiatePromotion tier key context) := by
  refine quiet_onPrimary.bind fun reply => ?_
  cases reply with
  | none => exact Keeps.pure _ _
  | some output => exact (quiet_enqueuePromotion allowed).bind fun _ => Keeps.pure _ _

theorem quiet_lookupTiers
    (allowed : ∀ tier ∈ asked, some tier ≠ excludeTier → waits tier context.reqId) (key : Key)
    (answers : Nat → LookupResult) (anyRetry : Bool) :
    Keeps (Quiet meant waits calls reqState tiers)
      (lookupTiers key context excludeTier answers asked anyRetry) := by
  induction asked generalizing anyRetry with
  | nil => exact Keeps.pure _ _
  | cons tier rest ih =>
    have later := ih fun other mem => allowed other (mem_cons_of_mem _ mem)
    unfold lookupTiers
    split
    · exact later anyRetry
    rename_i eligible
    have here := allowed tier mem_cons_self fun excluded => eligible (.inl excluded)
    split
    · exact (quiet_initiatePromotion here).bind fun _ => Keeps.pure _ _
    · exact later true
    · exact later anyRetry

theorem quiet_lookup (allowed : ∀ tier ∈ tiers, some tier ≠ excludeTier → waits tier context.reqId)
    :
    Keeps (Quiet meant waits calls reqState tiers)
      (lookup key context excludeTier finished answers) := by
  refine quiet_maybeProcess.bind fun _ => ?_
  refine quiet_onPrimary.bind fun result => ?_
  have asks : Keeps (Quiet meant waits calls reqState tiers)
        (get >>= fun manager : TieringOffloadingManager Key =>
          lookupTiers key context excludeTier answers manager.secondaryTiers false) := by
    intro manager quiet
    have eligible : ∀ tier ∈ manager.secondaryTiers, some tier ≠ excludeTier →
        waits tier context.reqId := by
      rw [quiet.secondaryTiers]
      exact allowed
    exact quiet_lookupTiers eligible key answers false manager quiet
  cases result with
  | miss => exact asks
  | retry => exact asks
  | _ => exact Keeps.pure _ _

/-! ### Cascades -/

theorem quiet_createStoreJob (context : ReqContext) :
    Keeps (Quiet meant waits calls reqState tiers) (createStoreJob keys context) := by
  exact quiet_onPrimary.bind fun blockIds => quiet_registerJob _

theorem reqContext_createStoreJob {keys : List Key}
    (created : createStoreJob keys context manager = .ok job after) : job.reqContext = context := by
  obtain ⟨blockIds, middle, _, registered⟩ := ok_of_bind created
  cases registered
  rfl

theorem quiet_cascade (means : meant tier context.reqId) {keys : List Key} :
    Keeps (Quiet meant waits calls reqState tiers) (cascade keys context tier) := by
  have creates : Triple (Quiet meant waits calls reqState tiers) (createStoreJob keys context)
        (fun job manager =>
          manager.Quiet meant waits calls reqState tiers ∧ job.reqContext = context)
        (Quiet meant waits calls reqState tiers) := by
    intro manager quiet
    have ended := quiet_createStoreJob keys context manager quiet
    cases created : createStoreJob keys context manager with
    | ok job after =>
      rw [created] at ended
      exact ⟨ended, reqContext_createStoreJob created⟩
    | error fault after =>
      rw [created] at ended
      exact ended
  refine Triple.bind creates ?_
  intro job manager holds
  refine quiet_callTier ?_ manager holds.1
  show meant tier job.reqContext.reqId
  rw [holds.2]
  exact means

theorem quiet_readyKeys : Keeps (Quiet meant waits calls reqState tiers) (readyKeys keys) := by
  induction keys with
  | nil => exact Keeps.pure _ _
  | cons key rest ih =>
    refine quiet_onPrimary.bind fun result => ?_
    exact ih.bind fun others => Keeps.pure _ _

theorem quiet_cascades {targets : List Nat} (means : ∀ tier ∈ targets, meant tier context.reqId)
    {keys : List Key} :
    Keeps (Quiet meant waits calls reqState tiers)
      (targets.mapM (cascade keys context) >>= fun _ => pure ()) :=
  (Keeps.mapM fun tier mem => quiet_cascade (means tier mem)).bind fun _ => Keeps.pure _ _

theorem quiet_cascadeExisting {state : RequestState}
    (known : reqState.get? context.reqId = some state)
    (means : ∀ tier ∈ state.requestLevelTiers, meant tier context.reqId) {keys : List Key} :
    Keeps (Quiet meant waits calls reqState tiers)
      (cascadeExistingBlocks keys context output) := by
  intro manager quiet
  have here : manager.reqState.get? context.reqId = some state := by
    rw [quiet.requests]
    exact known
  unfold cascadeExistingBlocks
  rw [bind_of_ok (requestState_of here)]
  split
  · exact quiet
  refine Keeps.bind (quiet_readyKeys _) (fun ready => ?_) manager quiet
  split
  · exact Keeps.pure _ _
  · exact quiet_cascades means

theorem quiet_cascadeToAll (means : ∀ tier ∈ tiers, meant tier context.reqId)
    {keys : List Key} {success : Bool} :
    Keeps (Quiet meant waits calls reqState tiers) (cascadeToAll keys context success) := by
  intro manager quiet
  cases success with
  | false => exact quiet
  | true =>
    have targets : ∀ tier ∈ manager.secondaryTiers, meant tier context.reqId := by
      rw [quiet.secondaryTiers]
      exact means
    exact quiet_cascades targets manager quiet

end Steps

end TieringOffloadingManager

end VllmCore.Offload
