import VllmCore.Offload.TieringLedger

namespace VllmCore.Offload

open Lib List

/-!
# What the calls of the tiering manager return

Calls about requests have exact results.  Stores and resets keep the agreement of the
manager with the references and writes held outside, and say what becomes of the
request states.
-/

namespace TieringOffloadingManager

variable {Key : Type}

/-! ## What the request calls do -/

section

variable (manager : TieringOffloadingManager Key)

theorem mapM_callTier (tiers : List Nat) (call : Nat → TierCall Key) :
    ∃ values, (tiers.mapM fun tier => callTier (call tier)) manager =
        .ok values { manager with tierCalls := manager.tierCalls ++ tiers.map call } := by
  induction tiers generalizing manager with
  | nil =>
    refine ⟨[], ?_⟩
    rw [map_nil, append_nil]
    rfl
  | cons tier rest ih =>
    have first : callTier (call tier) manager =
          .ok () { manager with tierCalls := manager.tierCalls ++ [call tier] } :=
      rfl
    obtain ⟨values, next⟩ := ih { manager with tierCalls := manager.tierCalls ++ [call tier] }
    refine ⟨() :: values, ?_⟩
    rw [mapM_cons, bind_of_ok first, bind_of_ok next]
    simp only [append_assoc, singleton_append]
    rfl

theorem tellFinished_eq (context : ReqContext) (tiers : List Nat) :
    tellFinished context tiers manager = .ok ()
        { manager with
          tierCalls :=
            manager.tierCalls ++ tiers.map fun tier => .onRequestFinished tier context } := by
  obtain ⟨values, told⟩ := manager.mapM_callTier tiers fun tier => .onRequestFinished tier context
  unfold tellFinished
  rw [bind_of_ok told]
  rfl

/-- The manager once a request is finalized. -/
def finalized (reqId : Nat) (reqContext : ReqContext) (tiers : List Nat) :
    TieringOffloadingManager Key :=
  { manager with
    tierCalls :=
      manager.tierCalls ++ tiers.map fun tier => .onRequestFinished tier reqContext
    reqState := manager.reqState.erase reqId }

end

variable {reqId : Nat} {finished : Nat → List JobResult}

theorem maybeFinalize_eq {manager : TieringOffloadingManager Key} {state : RequestState}
    (known : manager.reqState.get? reqId = some state) {excludeTier : Option Nat} :
    maybeFinalizeRequest reqId excludeTier manager = .ok ()
        (if state.isFinished ∧ state.pendingPrimaryStores = 0 then
          manager.finalized reqId state.reqContext (manager.tiersExcept excludeTier)
        else
          manager) := by
  have found : requestState reqId manager = .ok state manager := by
    unfold requestState
    rw [known]
  unfold maybeFinalizeRequest
  rw [bind_of_ok found]
  split
  · have told := manager.tellFinished_eq state.reqContext (manager.tiersExcept excludeTier)
    have unfolded :
        (get >>= fun manager => tellFinished state.reqContext (manager.tiersExcept excludeTier) >>=
          fun _ => forgetRequest reqId) manager =
        (tellFinished state.reqContext (manager.tiersExcept excludeTier) >>=
          fun _ => forgetRequest reqId) manager :=
      rfl
    rw [unfolded, bind_of_ok told]
    rfl
  · rfl

/-- The manager with the state of a request replaced. -/
def withState (manager : TieringOffloadingManager Key) (reqId : Nat) (state : RequestState) :
    TieringOffloadingManager Key :=
  { manager with reqState := manager.reqState.set reqId state }

theorem onNewRequest_eq (manager : TieringOffloadingManager Key) (context : ReqContext)
    (excludeTier : Option Nat) (requestLevel : List Nat) :
    onNewRequest context excludeTier requestLevel manager = .ok ()
        { manager with
          tierCalls :=
            manager.tierCalls ++
              (manager.tiersExcept excludeTier).map fun tier => .onNewRequest tier context
          reqState :=
            manager.reqState.set context.reqId
              { reqContext := context
                requestLevelTiers :=
                  (manager.tiersExcept excludeTier).filter fun tier => tier ∈ requestLevel } } := by
  obtain ⟨values, told⟩ :=
    manager.mapM_callTier (manager.tiersExcept excludeTier) fun tier => .onNewRequest tier context
  have unfolded : onNewRequest context excludeTier requestLevel manager =
        (((manager.tiersExcept excludeTier).mapM fun tier =>
            callTier (.onNewRequest tier context)) >>= fun _ =>
          setRequestState context.reqId
            { reqContext := context
              requestLevelTiers :=
                (manager.tiersExcept excludeTier).filter fun tier => tier ∈ requestLevel })
          manager :=
    rfl
  rw [unfolded, bind_of_ok told]
  rfl

theorem onRequestFinished_eq {manager : TieringOffloadingManager Key} {context : ReqContext}
    {state : RequestState} (known : manager.reqState.get? context.reqId = some state)
    (excludeTier : Option Nat) :
    onRequestFinished context excludeTier manager = .ok ()
        (if state.pendingPrimaryStores = 0 then
          (manager.withState context.reqId { state with isFinished := true }).finalized
            context.reqId state.reqContext (manager.tiersExcept excludeTier)
        else
          manager.withState context.reqId { state with isFinished := true }) := by
  have found : requestState context.reqId manager = .ok state manager := by
    unfold requestState
    rw [known]
  have marked : setRequestState context.reqId { state with isFinished := true } manager =
        .ok () (manager.withState context.reqId { state with isFinished := true }) :=
    rfl
  unfold onRequestFinished
  rw [bind_of_ok found, bind_of_ok marked]
  rw [maybeFinalize_eq (Dict.get?_set_self _)]
  simp only [true_and]
  rfl

/-! ## Stores -/

variable [DecidableEq Key]

variable {manager after : TieringOffloadingManager Key} {loads writes keys : List Key}
  {context : ReqContext} {state : RequestState}

omit [DecidableEq Key] in
theorem requestState_of (known : manager.reqState.get? context.reqId = some state) :
    requestState context.reqId manager = .ok state manager := by
  unfold requestState
  rw [known]

theorem readyKeys_eq (untracked : manager.primaryTier.Untracked) :
    readyKeys keys manager =
      .ok (keys.filter fun key => manager.primaryTier.status key = .hit) manager := by
  induction keys with
  | nil => rfl
  | cons key rest ih =>
    have found := CPUOffloadingManager.lookup_untracked untracked key
    unfold readyKeys
    rw [bind_of_ok (onPrimary_of_ok found), bind_of_ok ih, filter_cons]
    simp only [decide_eq_true_eq]
    rfl

/-- The waiting promotions and the tiers are as before. -/
structure Settled (manager after : TieringOffloadingManager Key) : Prop where
  waiting : after.pendingLoadSubmissions = manager.pendingLoadSubmissions
  secondaryTiers : after.secondaryTiers = manager.secondaryTiers

theorem Agrees.cascadeExistingBlocks (agrees : manager.Agrees loads writes)
    (known : manager.reqState.get? context.reqId = some state) (nodup : keys.Nodup)
    (limit :
      ∀ key ∈ keys,
        (loads ++ manager.readingKeys).count key + state.requestLevelTiers.length < 2 ^ 31)
    (output : PrepareStoreOutput Key) :
    ∃ after, TieringOffloadingManager.cascadeExistingBlocks keys context output manager =
          .ok () after ∧
        after.Agrees loads writes ∧ Framed manager after ∧
          after.pendingLoadSubmissions = manager.pendingLoadSubmissions := by
  have same :
      ∃ after, (pure () : Effect (TieringOffloadingManager Key) Unit) manager = .ok () after ∧
          after.Agrees loads writes ∧ Framed manager after ∧
            after.pendingLoadSubmissions = manager.pendingLoadSubmissions :=
    ⟨manager, rfl, agrees, Framed.refl manager, rfl⟩
  unfold TieringOffloadingManager.cascadeExistingBlocks
  rw [bind_of_ok (requestState_of known)]
  split
  · exact same
  unfold cascadeExistingBlocksToRequestLevelTiers
  rw [bind_of_ok (readyKeys_eq agrees.untracked)]
  split
  · exact same
  have within : ∀ key, key ∈ (keys.filter fun key => key ∉ output.keysToStore).filter
            (fun key => manager.primaryTier.status key = .hit) →
          key ∈ keys ∧ manager.primaryTier.Readable key := by
    intro key mem
    obtain ⟨existing, hit⟩ := mem_filter.mp mem
    exact ⟨mem_of_mem_filter existing, CPUOffloadingManager.readable_of_status (by simpa using hit)⟩
  obtain ⟨values, after, cascaded, agreesAfter, framed, waiting⟩ :=
    agrees.cascades (fun key mem => (within key mem).2)
      ((nodup.filter _).filter _) (fun key mem => limit key (within key mem).1)
      context
  refine ⟨after, ?_, agreesAfter, framed, waiting⟩
  rw [bind_of_ok cascaded]
  rfl

omit [DecidableEq Key] in
theorem countPrimaryStore_eq (known : manager.reqState.get? context.reqId = some state)
    (output : PrepareStoreOutput Key) :
    countPrimaryStore context output manager = .ok ()
        (if output.keysToStore = [] then
          manager
        else
          manager.withState context.reqId
            { state with pendingPrimaryStores := state.pendingPrimaryStores + 1 }) := by
  unfold countPrimaryStore
  split
  · rfl
  · rw [bind_of_ok (requestState_of known)]
    rfl

/-- What a returning store of the GPU leaves. -/
structure Prepared (manager : TieringOffloadingManager Key) (loads writes : List Key) (reqId : Nat)
    (state : RequestState) (stored : List Key) (after : TieringOffloadingManager Key) :
    Prop where
  agrees : after.Agrees loads (stored ++ writes)
  settled : Settled manager after
  reqState :
    after.reqState =
      if stored = [] then
        manager.reqState
      else
        manager.reqState.set reqId
          { state with pendingPrimaryStores := state.pendingPrimaryStores + 1 }

theorem Agrees.prepareStore (agrees : manager.Agrees loads writes) (polls : manager.Polls finished)
    (known : manager.reqState.get? context.reqId = some state) (nodup : keys.Nodup)
    (limit :
      ∀ key ∈ keys,
        (loads ++ manager.readingKeys).count key + state.requestLevelTiers.length < 2 ^ 31) :
    ∃ reply after,
      TieringOffloadingManager.prepareStore keys context finished manager = .ok reply after ∧
        Prepared manager loads writes context.reqId state
          ((reply.map PrepareStoreOutput.keysToStore).getD []) after := by
  obtain ⟨middle, polled, agreesMiddle, framed, waiting, fewer⟩ :=
    agrees.maybeProcessFinishedJobs polls
  unfold TieringOffloadingManager.prepareStore
  rw [bind_of_ok polled]
  rcases agreesMiddle.ledger.prepareStore nodup with
    ⟨primaryTier, refused, ledger⟩ | ⟨output, primaryTier, done, ledger⟩
  · rw [bind_of_ok (onPrimary_of_ok refused)]
    refine ⟨none, _, rfl, ⟨ledger, ?_, agreesMiddle.fresh, agreesMiddle.distinct⟩,
      ⟨waiting, framed.secondaryTiers⟩, framed.reqState⟩
    exact untracked_of_keeps (CPUOffloadingManager.untracked_prepareStore)
      agreesMiddle.untracked refused
  rw [bind_of_ok (onPrimary_of_ok done)]
  dsimp only
  set stored := { middle with primaryTier := primaryTier } with storedIs
  have knownStored : stored.reqState.get? context.reqId = some state := by
    rw [← known, ← framed.reqState]
  have counted := countPrimaryStore_eq knownStored output
  rw [bind_of_ok counted]
  set noted :=
    (if output.keysToStore = [] then
      stored
    else
      stored.withState context.reqId
        { state with pendingPrimaryStores := state.pendingPrimaryStores + 1 }) with notedIs
  have agreesStored : stored.Agrees loads (output.keysToStore ++ writes) := by
    refine ⟨?_, ?_, agreesMiddle.fresh, agreesMiddle.distinct⟩
    · rw [append_assoc]
      exact ledger
    · exact untracked_of_keeps (CPUOffloadingManager.untracked_prepareStore)
        agreesMiddle.untracked done
  have same : noted.Agrees loads (output.keysToStore ++ writes) ∧ Settled manager noted ∧
        noted.readingKeys = middle.readingKeys ∧
        (∃ other, noted.reqState.get? context.reqId = some other ∧
          other.requestLevelTiers = state.requestLevelTiers) ∧
        noted.reqState =
          if output.keysToStore = [] then
            manager.reqState
          else
            manager.reqState.set context.reqId
              { state with pendingPrimaryStores := state.pendingPrimaryStores + 1 } := by
    rw [notedIs]
    split
    · exact ⟨agreesStored, ⟨waiting, framed.secondaryTiers⟩, rfl, ⟨state, knownStored, rfl⟩,
        framed.reqState⟩
    refine ⟨agreesStored.congr rfl rfl rfl, ⟨waiting, framed.secondaryTiers⟩, rfl,
      ⟨_, Dict.get?_set_self _, rfl⟩, ?_⟩
    show stored.reqState.set _ _ = _
    rw [framed.reqState]
  obtain ⟨agreesNoted, settled, reading, ⟨other, knownOther, sameTiers⟩, reqStateNoted⟩ := same
  have bound : ∀ key ∈ keys,
        (loads ++ noted.readingKeys).count key + other.requestLevelTiers.length < 2 ^ 31 := by
    intro key mem
    have before := limit key mem
    have less := fewer.count_le key
    rw [count_append] at before ⊢
    rw [reading, sameTiers]
    omega
  obtain ⟨after, cascaded, agreesAfter, framedAfter, waitingAfter⟩ :=
    agreesNoted.cascadeExistingBlocks knownOther nodup bound output
  rw [bind_of_ok cascaded]
  exact ⟨some output, after, rfl, agreesAfter, ⟨waitingAfter.trans settled.waiting,
      framedAfter.secondaryTiers.trans settled.secondaryTiers⟩,
    framedAfter.reqState.trans reqStateNoted⟩

theorem cascadeToAll_ok (agrees : manager.Agrees loads writes)
    (readable : success = true → ∀ key ∈ keys, manager.primaryTier.Readable key)
    (nodup : keys.Nodup) (unread : ∀ key ∈ keys, (loads ++ manager.readingKeys).count key = 0)
    (limit : manager.secondaryTiers.length < 2 ^ 31) :
    ∃ after, cascadeToAll keys context success manager = .ok () after ∧
        after.Agrees loads writes ∧ Framed manager after ∧
          after.pendingLoadSubmissions = manager.pendingLoadSubmissions := by
  cases success with
  | false => exact ⟨manager, rfl, agrees, Framed.refl manager, rfl⟩
  | true =>
    have bound : ∀ key ∈ keys,
          (loads ++ manager.readingKeys).count key + manager.secondaryTiers.length < 2 ^ 31 := by
      intro key mem
      rw [unread key mem, zero_add]
      exact limit
    obtain ⟨values, after, cascaded, agreesAfter, framed, waiting⟩ :=
      agrees.cascades (readable rfl) nodup bound context
    refine ⟨after, ?_, agreesAfter, framed, waiting⟩
    have unfolded : cascadeToAll keys context true manager =
          (manager.secondaryTiers.mapM (cascade keys context) >>= fun _ => pure ())
            manager :=
      rfl
    rw [unfolded, bind_of_ok cascaded]
    rfl

variable (reqState : Dict Nat RequestState)

/-- The request states after one store of a request is completed. -/
def released (reqId : Nat) (state : RequestState) : Dict Nat RequestState :=
  let counted := { state with pendingPrimaryStores := state.pendingPrimaryStores - 1 }
  if state.isFinished ∧ state.pendingPrimaryStores - 1 = 0 then
    (reqState.set reqId counted).erase reqId
  else
    reqState.set reqId counted

theorem Agrees.completeStore (agrees : manager.Agrees loads (keys ++ writes))
    (known : manager.reqState.get? context.reqId = some state)
    (counted : 0 < state.pendingPrimaryStores) (limit : manager.secondaryTiers.length < 2 ^ 31)
    (success : Bool) :
    ∃ after, TieringOffloadingManager.completeStore keys context success manager = .ok () after ∧
        after.Agrees loads writes ∧ Settled manager after ∧
          after.reqState = released manager.reqState context.reqId state := by
  have ledger := agrees.ledger
  rw [append_assoc] at ledger
  have nodup : keys.Nodup := (nodup_append.mp ledger.distinct).1
  have unread : ∀ key ∈ keys, (loads ++ manager.readingKeys).count key = 0 :=
    fun key mem => (ledger.found_of_mem_writers (mem_append_left _ mem)).1
  obtain ⟨primaryTier, completed, ledgerAfter, readable⟩ := ledger.completeStore success
  unfold TieringOffloadingManager.completeStore
  rw [bind_of_ok (onPrimary_of_ok completed)]
  have agreesStored : Agrees { manager with primaryTier := primaryTier } loads writes := by
    refine ⟨ledgerAfter, ?_, agrees.fresh, agrees.distinct⟩
    exact untracked_of_keeps (CPUOffloadingManager.untracked_completeStore)
      agrees.untracked completed
  obtain ⟨middle, cascaded, agreesMiddle, framed, waiting⟩ :=
    cascadeToAll_ok agreesStored readable nodup unread limit
  have knownMiddle : middle.reqState.get? context.reqId = some state := by
    rw [framed.reqState]
    exact known
  rw [bind_of_ok cascaded, bind_of_ok (requestState_of knownMiddle), if_pos counted]
  have noted : setRequestState context.reqId
          { state with pendingPrimaryStores := state.pendingPrimaryStores - 1 } middle =
        .ok () (middle.withState context.reqId
          { state with pendingPrimaryStores := state.pendingPrimaryStores - 1 }) :=
    rfl
  rw [bind_of_ok noted, maybeFinalize_eq (Dict.get?_set_self _)]
  refine ⟨_, rfl, ?_, ?_, ?_⟩
  · split <;> exact agreesMiddle.congr rfl rfl rfl
  · split <;> exact ⟨waiting, framed.secondaryTiers⟩
  · unfold released
    rw [← framed.reqState]
    split <;> rfl

/-! ## Resets -/

/-- The request states after one of them is reset. -/
def resetState (entry : Nat × RequestState) : Dict Nat RequestState :=
  if entry.2.isFinished then
    reqState.erase entry.1
  else
    reqState.set entry.1 { entry.2 with pendingPrimaryStores := 0 }

/-- What the tiers are told when a request is reset. -/
def resetCalls (tiers : List Nat) (entry : Nat × RequestState) : List (TierCall Key) :=
  if entry.2.isFinished then
    tiers.map fun tier => .onRequestFinished tier entry.2.reqContext
  else
    []

omit [DecidableEq Key] in
theorem mapM_resetRequest
    (manager : TieringOffloadingManager Key) (entries : List (Nat × RequestState)) :
    ∃ values, entries.mapM resetRequest manager = .ok values
          { manager with
            tierCalls := manager.tierCalls ++ entries.flatMap (resetCalls manager.secondaryTiers)
            reqState := entries.foldl resetState manager.reqState } := by
  induction entries generalizing manager with
  | nil =>
    refine ⟨[], ?_⟩
    rw [flatMap_nil, append_nil]
    rfl
  | cons entry rest ih =>
    let reset : TieringOffloadingManager Key :=
      { manager with
        tierCalls := manager.tierCalls ++ resetCalls manager.secondaryTiers entry
        reqState := resetState manager.reqState entry }
    have first : resetRequest entry manager = .ok () reset := by
      unfold resetRequest
      by_cases done : entry.2.isFinished
      · rw [if_pos done]
        have unfolded : (get >>= fun manager =>
              tellFinished entry.2.reqContext manager.secondaryTiers >>= fun _ =>
                forgetRequest entry.1) manager =
              (tellFinished entry.2.reqContext manager.secondaryTiers >>= fun _ =>
                forgetRequest entry.1) manager :=
          rfl
        rw [unfolded, bind_of_ok (manager.tellFinished_eq _ _)]
        simp only [reset, resetCalls, resetState, if_pos done]
        rfl
      · simp only [reset, resetCalls, resetState, if_neg done, append_nil]
        rfl
    obtain ⟨values, next⟩ := ih reset
    refine ⟨() :: values, ?_⟩
    rw [mapM_cons, bind_of_ok first, bind_of_ok next]
    simp only [reset, flatMap_cons, foldl_cons, append_assoc]
    rfl

/-- The state of a request after a reset, if it is still known. -/
def resetOne (state : RequestState) : Option RequestState :=
  if state.isFinished then none else some { state with pendingPrimaryStores := 0 }

theorem get?_resetState :
    (resetState reqState entry).get? reqId =
      if reqId = entry.1 then resetOne entry.2 else reqState.get? reqId := by
  unfold resetState resetOne
  split
  · exact Dict.get?_erase _
  · exact Dict.get?_set _

theorem get?_foldl_resetState {entries : List (Nat × RequestState)}
    (nodup : (entries.map Prod.fst).Nodup) {reqState : Dict Nat RequestState} :
    (entries.foldl resetState reqState).get? reqId =
      (entries.find? fun entry => entry.1 = reqId).elim (reqState.get? reqId)
        fun entry => resetOne entry.2 := by
  induction entries generalizing reqState with
  | nil => rfl
  | cons entry rest ih =>
    rw [map_cons, nodup_cons] at nodup
    rw [foldl_cons, ih nodup.2, get?_resetState]
    by_cases same : entry.1 = reqId
    · have absent : rest.find? (fun other => other.1 = reqId) = none := by
        rw [find?_eq_none]
        intro other mem
        simp only [decide_eq_true_eq]
        intro equal
        exact nodup.1 ((same.trans equal.symm) ▸ mem_map_of_mem mem)
      simp [same, absent]
    · simp [same, Ne.symm same]

/-- A reset forgets the finished requests and the stores of the others. -/
theorem get?_reset_reqState :
    (reqState.entries.foldl resetState reqState).get? reqId =
      (reqState.get? reqId).bind resetOne := by
  rw [get?_foldl_resetState reqState.distinct]
  unfold Dict.get?
  cases reqState.entries.find? fun entry => entry.1 = reqId with
  | _ => rfl

/-- The drained tiers report every job. -/
def Drains (manager : TieringOffloadingManager Key) (finished : Nat → List JobResult) : Prop :=
  ∀ id ∈ manager.transferJobs.keys, id ∈ (manager.results finished).map JobResult.jobId

theorem Agrees.resetCache (agrees : manager.Agrees loads writes)
    (reported : manager.Reported (manager.results done)) (drains : manager.Drains done) :
    ∃ after, TieringOffloadingManager.resetCache done manager = .ok () after ∧
        after.Agrees [] [] ∧ after.waitingKeys = [] ∧
          after.reqState = manager.reqState.entries.foldl resetState manager.reqState := by
  obtain ⟨middle, processed, agreesMiddle, polled⟩ := agrees.processFinishedJobs reported
  have jobless : middle.transferJobs.entries = [] := by
    rw [Dict.entries_eq_nil_iff]
    intro id
    cases found : middle.transferJobs.get? id with
    | none => rfl
    | some job =>
      obtain ⟨before, unreported⟩ := polled.jobs id job found
      have listed : id ∈ manager.transferJobs.keys :=
        mem_map_of_mem (Dict.get?_eq_some_iff.mp before)
      exact absurd (drains id listed) unreported
  have sameRequests : middle.reqState = manager.reqState := polled.framed.reqState
  let cleared : TieringOffloadingManager Key := { middle with pendingLoadSubmissions := .empty }
  obtain ⟨values, told⟩ := cleared.mapM_resetRequest middle.reqState.entries
  obtain ⟨primaryTier, reset, ledger⟩ := CPUOffloadingManager.ledger_resetCache middle.primaryTier
  have unfolded : TieringOffloadingManager.resetCache done manager =
        (middle.reqState.entries.mapM resetRequest >>= fun _ =>
          onPrimary CPUOffloadingManager.resetCache >>= fun _ =>
            modify fun manager => { manager with processedJobsThisStep := false }) cleared := by
    unfold TieringOffloadingManager.resetCache
    rw [bind_of_ok processed]
    rfl
  let informed : TieringOffloadingManager Key :=
    { cleared with
      tierCalls :=
        cleared.tierCalls ++ middle.reqState.entries.flatMap (resetCalls cleared.secondaryTiers)
      reqState := middle.reqState.entries.foldl resetState cleared.reqState }
  have resetInformed : onPrimary CPUOffloadingManager.resetCache informed =
        .ok () { informed with primaryTier := primaryTier } :=
    onPrimary_of_ok reset
  rw [unfolded, bind_of_ok told, bind_of_ok resetInformed]
  have flat (list : JobMetadata Key → List Key) : middle.transferJobs.flat list = [] := by
    unfold Dict.flat Dict.values
    rw [jobless]
    rfl
  refine ⟨_, rfl, ⟨?_, ?_, ?_, ?_⟩, rfl, ?_⟩
  · show primaryTier.Ledger (middle.transferJobs.flat jobReads) (middle.transferJobs.flat jobWrites)
    rw [flat, flat]
    exact ledger
  · have keeps : Keeps CPUOffloadingManager.Untracked
          (CPUOffloadingManager.resetCache : Effect (CPUOffloadingManager Key) Unit) :=
      fun _ holds => holds
    exact untracked_of_keeps keeps agreesMiddle.untracked reset
  · exact agreesMiddle.fresh
  · exact agreesMiddle.distinct
  · show middle.reqState.entries.foldl resetState middle.reqState = _
    rw [sameRequests]

end TieringOffloadingManager

end VllmCore.Offload
