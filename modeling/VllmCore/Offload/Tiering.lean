import VllmCore.Offload.CPUManager

namespace VllmCore.Offload

open Lib

/-!
# The tiering manager

`TieringOffloadingManager` of `v1/kv_offload/tiering/manager.py`: a CPU primary tier
and secondary tiers behind it.  The secondary tiers are not modelled; they are
numbered, what they answer and report is an argument of the operation that asks them,
and what the manager calls on them about a request is kept in the order of the calls.
-/

/-- A request: its id and the tiers its load filter allows. -/
structure ReqContext where
  reqId : Nat
  loadTiers : List Nat
  deriving Repr, DecidableEq

/-- An asynchronous transfer between the primary tier and a secondary one. -/
structure JobMetadata (Key : Type) where
  jobId : Nat
  keys : List Key
  blockIds : List Nat
  isPromotion : Bool
  reqContext : ReqContext
  deriving Repr, DecidableEq

structure JobResult where
  jobId : Nat
  success : Bool
  deriving Repr, DecidableEq

/-- The blocks awaiting `submit_load` for one tier and request. -/
structure PendingPromotion (Key : Type) where
  reqContext : ReqContext
  keys : List Key := []
  blockIds : List Nat := []
  deriving Repr, DecidableEq

structure RequestState where
  reqContext : ReqContext
  pendingPrimaryStores : Int := 0
  isFinished : Bool := false
  requestLevelTiers : List Nat := []
  deriving Repr, DecidableEq

/-- A call of the manager on a secondary tier about a request. -/
inductive TierCall (Key : Type) where
  | onNewRequest (tier : Nat) (reqContext : ReqContext)
  | submitLoad (tier : Nat) (job : JobMetadata Key)
  | submitStore (tier : Nat) (job : JobMetadata Key)
  | onRequestFinished (tier : Nat) (reqContext : ReqContext)
  deriving Repr, DecidableEq

structure TieringOffloadingManager (Key : Type) where
  primaryTier : CPUOffloadingManager Key
  secondaryTiers : List Nat
  jobIdCounter : Nat := 0
  transferJobs : Dict Nat (JobMetadata Key) := .empty
  pendingLoadSubmissions : Dict Nat (Dict Nat (PendingPromotion Key)) := .empty
  processedJobsThisStep : Bool := false
  reqState : Dict Nat RequestState := .empty
  tierCalls : List (TierCall Key) := []

namespace TieringOffloadingManager

variable {Key Value : Type}

/-- An operation of the primary tier. -/
def onPrimary (operation : Effect (CPUOffloadingManager Key) Value) :
    Effect (TieringOffloadingManager Key) Value :=
  fun manager =>
    match operation manager.primaryTier with
    | .ok value primaryTier => .ok value { manager with primaryTier := primaryTier }
    | .error fault primaryTier => .error fault { manager with primaryTier := primaryTier }

/-- A call on a secondary tier. -/
def callTier (call : TierCall Key) : Effect (TieringOffloadingManager Key) Unit :=
  modify fun manager => { manager with tierCalls := manager.tierCalls ++ [call] }

variable (keys : List Key) (finished : Nat → List JobResult) (reqContext : ReqContext) (reqId : Nat)

/-- The state of a request, which must be known. -/
def requestState : Effect (TieringOffloadingManager Key) RequestState :=
  fun manager =>
    match manager.reqState.get? reqId with
    | none => .error (.key "") manager
    | some state => .ok state manager

def setRequestState (state : RequestState) : Effect (TieringOffloadingManager Key) Unit :=
  modify fun manager => { manager with reqState := manager.reqState.set reqId state }

/-- A new job is entered under the next id. -/
def registerJob (blockIds : List Nat) (isPromotion : Bool) (reqContext : ReqContext) :
    Effect (TieringOffloadingManager Key) (JobMetadata Key) :=
  fun manager =>
    let job := ⟨manager.jobIdCounter, keys, blockIds, isPromotion, reqContext⟩
    .ok job
      { manager with
        jobIdCounter := manager.jobIdCounter + 1
        transferJobs := manager.transferJobs.set manager.jobIdCounter job }

variable [DecidableEq Key]

/-! ## Finished jobs -/

/-- A job reported by a tier gives back its references or ends its writes. -/
def finishJob (result : JobResult) : Effect (TieringOffloadingManager Key) Unit :=
  fun manager =>
    match manager.transferJobs.get? result.jobId with
    | none => .error (.assertion "not in _transfer_jobs") manager
    | some job =>
      onPrimary
        (if job.isPromotion then
          CPUOffloadingManager.completeStore job.keys result.success
        else
          CPUOffloadingManager.completeLoad job.keys)
        { manager with transferJobs := manager.transferJobs.erase result.jobId }

/-- Poll all tiers; `finished` is what each reports. -/
def processFinishedJobs : Effect (TieringOffloadingManager Key) Unit := do
  let manager ← get
  let _ ← (manager.secondaryTiers.flatMap finished).mapM finishJob

/-- Poll at most once per step. -/
def maybeProcessFinishedJobs : Effect (TieringOffloadingManager Key) Unit := do
  let manager ← get
  if manager.processedJobsThisStep then
    pure ()
  else
    set { manager with processedJobsThisStep := true }
    processFinishedJobs finished

/-! ## Lookups and promotions -/

/-- The blocks of a promotion join those waiting for the same tier and request. -/
def enqueuePromotion (tier : Nat) (reqContext : ReqContext) (output : PrepareStoreOutput Key) :
    Effect (TieringOffloadingManager Key) Unit :=
  modify fun manager =>
    let tierPending := manager.pendingLoadSubmissions.getD tier .empty
    let entry := tierPending.getD reqContext.reqId { reqContext := reqContext }
    { manager with
      pendingLoadSubmissions :=
        manager.pendingLoadSubmissions.set tier
          (tierPending.set reqContext.reqId
            { entry with
              keys := entry.keys ++ output.keysToStore
              blockIds := entry.blockIds ++ output.storeSpec }) }

/-- Allocate a block for promotion; false when the primary tier is full. -/
def initiatePromotion (tier : Nat) (key : Key) (reqContext : ReqContext) :
    Effect (TieringOffloadingManager Key) Bool := do
  match ← onPrimary (CPUOffloadingManager.prepareStore [key]) with
  | none => pure false
  | some output => do
      enqueuePromotion tier reqContext output
      pure true

/-- Ask the tiers in order, stopping at the first that has the block. -/
def lookupTiers (key : Key) (reqContext : ReqContext) (excludeTier : Option Nat)
    (answers : Nat → LookupResult) :
    List Nat → Bool → Effect (TieringOffloadingManager Key) LookupResult
  | [], anyRetry => pure (if anyRetry then .retry else .miss)
  | tier :: rest, anyRetry =>
    if some tier = excludeTier ∨ tier ∉ reqContext.loadTiers then
      lookupTiers key reqContext excludeTier answers rest anyRetry
    else
      match answers tier with
      | .hit => do
          let promoted ← initiatePromotion tier key reqContext
          pure (if promoted then .retry else .miss)
      | .retry => lookupTiers key reqContext excludeTier answers rest true
      | _ => lookupTiers key reqContext excludeTier answers rest anyRetry

def lookup (key : Key) (reqContext : ReqContext) (excludeTier : Option Nat)
    (finished : Nat → List JobResult) (answers : Nat → LookupResult) :
    Effect (TieringOffloadingManager Key) LookupResult := do
  maybeProcessFinishedJobs finished
  match ← onPrimary (CPUOffloadingManager.lookup key) with
  | .hit => pure .hit
  | .hitPending => pure .hitPending
  | _ => do
      let manager ← get
      lookupTiers key reqContext excludeTier answers manager.secondaryTiers false

/-- The waiting blocks of one tier and request become one job. -/
def submitPromotion (waiting : Nat × PendingPromotion Key) :
    Effect (TieringOffloadingManager Key) Unit := do
  let job ← registerJob waiting.2.keys waiting.2.blockIds true waiting.2.reqContext
  callTier (.submitLoad waiting.1 job)

/-- The waiting promotions, tier by tier. -/
def waitingPromotions (manager : TieringOffloadingManager Key) :
    List (Nat × PendingPromotion Key) :=
  manager.pendingLoadSubmissions.entries.flatMap fun entry =>
    entry.2.values.map fun waiting => (entry.1, waiting)

def flushPendingPromotions : Effect (TieringOffloadingManager Key) Unit := do
  let manager ← get
  let _ ← manager.waitingPromotions.mapM submitPromotion
  modify fun manager => { manager with pendingLoadSubmissions := .empty }

/-! ## Loads and stores -/

def prepareLoad : Effect (TieringOffloadingManager Key) (List Nat) :=
  onPrimary (CPUOffloadingManager.prepareLoad keys)

def touch : Effect (TieringOffloadingManager Key) Unit :=
  onPrimary (CPUOffloadingManager.touch keys)

def completeLoad : Effect (TieringOffloadingManager Key) Unit :=
  onPrimary (CPUOffloadingManager.completeLoad keys)

section

variable (reqContext : ReqContext)

/-- Pin blocks in the primary tier and track a job that reads them. -/
def createStoreJob : Effect (TieringOffloadingManager Key) (JobMetadata Key) := do
  let blockIds ← onPrimary (CPUOffloadingManager.prepareLoad keys)
  registerJob keys blockIds false reqContext

/-- Start the transfer of blocks to one tier. -/
def cascade (tier : Nat) : Effect (TieringOffloadingManager Key) Unit := do
  let job ← createStoreJob keys reqContext
  callTier (.submitStore tier job)

/-- The keys among some that are ready in the primary tier. -/
def readyKeys : List Key → Effect (TieringOffloadingManager Key) (List Key)
  | [] => pure []
  | key :: rest => do
      let result ← onPrimary (CPUOffloadingManager.lookup key)
      let others ← readyKeys rest
      pure (if result = .hit then key :: others else others)

def cascadeExistingBlocksToRequestLevelTiers (requestLevelTiers : List Nat) :
    Effect (TieringOffloadingManager Key) Unit := do
  let ready ← readyKeys keys
  if ready = [] then
    pure ()
  else
    let _ ← requestLevelTiers.mapM (cascade ready reqContext)

end

/-- A prepared store with new keys is counted for its request. -/
def countPrimaryStore (output : PrepareStoreOutput Key) :
    Effect (TieringOffloadingManager Key) Unit :=
  if output.keysToStore = [] then
    pure ()
  else do
    let state ← requestState reqContext.reqId
    setRequestState reqContext.reqId
      { state with pendingPrimaryStores := state.pendingPrimaryStores + 1 }

/-- Blocks that are in the primary tier already go to the request-level tiers. -/
def cascadeExistingBlocks (reqContext : ReqContext) (output : PrepareStoreOutput Key) :
    Effect (TieringOffloadingManager Key) Unit := do
  let state ← requestState reqContext.reqId
  let existing := keys.filter fun key => key ∉ output.keysToStore
  if state.requestLevelTiers = [] ∨ existing = [] then
    pure ()
  else
    cascadeExistingBlocksToRequestLevelTiers existing reqContext state.requestLevelTiers

def prepareStore (reqContext : ReqContext) (finished : Nat → List JobResult) :
    Effect (TieringOffloadingManager Key) (Option (PrepareStoreOutput Key)) := do
  maybeProcessFinishedJobs finished
  match ← onPrimary (CPUOffloadingManager.prepareStore keys) with
  | none => pure none
  | some output => do
      countPrimaryStore reqContext output
      cascadeExistingBlocks keys reqContext output
      pure (some output)

/-! ## Requests -/

/-- Tell tiers that a request has finished. -/
def tellFinished (tiers : List Nat) : Effect (TieringOffloadingManager Key) Unit := do
  let _ ← tiers.mapM fun tier => callTier (.onRequestFinished tier reqContext)

/-- The secondary tiers other than the excluded one. -/
def tiersExcept (manager : TieringOffloadingManager Key) (excludeTier : Option Nat) : List Nat :=
  manager.secondaryTiers.filter fun tier => some tier ≠ excludeTier

def forgetRequest : Effect (TieringOffloadingManager Key) Unit :=
  modify fun manager => { manager with reqState := manager.reqState.erase reqId }

section

variable (excludeTier : Option Nat)

/-- Forward the end of a request once no more cascades can follow. -/
def maybeFinalizeRequest : Effect (TieringOffloadingManager Key) Unit := do
  let state ← requestState reqId
  if state.isFinished ∧ state.pendingPrimaryStores = 0 then
    let manager ← get
    tellFinished state.reqContext (manager.tiersExcept excludeTier)
    forgetRequest reqId
  else
    pure ()

/-- New blocks of the primary tier go to all secondary tiers. -/
def cascadeToAll (reqContext : ReqContext) (success : Bool) :
    Effect (TieringOffloadingManager Key) Unit :=
  if success then do
    let manager ← get
    let _ ← manager.secondaryTiers.mapM (cascade keys reqContext)
  else
    pure ()

def completeStore (reqContext : ReqContext) (success : Bool) :
    Effect (TieringOffloadingManager Key) Unit := do
  onPrimary (CPUOffloadingManager.completeStore keys success)
  cascadeToAll keys reqContext success
  let state ← requestState reqContext.reqId
  if 0 < state.pendingPrimaryStores then
    setRequestState reqContext.reqId
      { state with pendingPrimaryStores := state.pendingPrimaryStores - 1 }
    maybeFinalizeRequest reqContext.reqId none
  else
    throw (.assertion "")

/-- A request is announced; `requestLevel` are the tiers that want all its blocks. -/
def onNewRequest (requestLevel : List Nat) : Effect (TieringOffloadingManager Key) Unit := do
  let manager ← get
  let _ ← (manager.tiersExcept excludeTier).mapM fun tier =>
    callTier (.onNewRequest tier reqContext)
  setRequestState reqContext.reqId
    { reqContext := reqContext
      requestLevelTiers :=
        (manager.tiersExcept excludeTier).filter fun tier => tier ∈ requestLevel }

def onRequestFinished : Effect (TieringOffloadingManager Key) Unit := do
  let state ← requestState reqContext.reqId
  setRequestState reqContext.reqId { state with isFinished := true }
  maybeFinalizeRequest reqContext.reqId excludeTier

end

/-! ## Requests of other instances, ends of steps, resets -/

/-- What a tier asks of the manager for a remote request. -/
inductive ParentCall (Key : Type) where
  | onNewRequest (reqContext : ReqContext) (requestLevel : List Nat)
  | lookup (key : Key) (reqContext : ReqContext) (finished : Nat → List JobResult)
    (answers : Nat → LookupResult)
  | createStoreJob (keys : List Key) (reqContext : ReqContext)
  | onRequestFinished (reqContext : ReqContext)

/-- A call of a tier through its parent handle, which excludes the tier itself. -/
def serve (tier : Nat) : ParentCall Key → Effect (TieringOffloadingManager Key) Unit
  | .onNewRequest reqContext requestLevel =>
    TieringOffloadingManager.onNewRequest reqContext (some tier) requestLevel
  | .lookup key reqContext finished answers => do
      let _ ← TieringOffloadingManager.lookup key reqContext (some tier) finished answers
  | .createStoreJob keys reqContext => do
      let _ ← TieringOffloadingManager.createStoreJob keys reqContext
  | .onRequestFinished reqContext =>
    TieringOffloadingManager.onRequestFinished reqContext (some tier)

/-- The end of a step: poll, serve the tiers' remote requests, flush the promotions. -/
def onScheduleEnd (external : Nat → List (ParentCall Key)) :
    Effect (TieringOffloadingManager Key) Unit := do
  maybeProcessFinishedJobs finished
  let manager ← get
  let _ ← manager.secondaryTiers.mapM fun tier => (external tier).mapM (serve tier)
  modify fun manager => { manager with processedJobsThisStep := false }
  flushPendingPromotions

/-- A finished request is reported to all tiers, an active one keeps its state. -/
def resetRequest (entry : Nat × RequestState) : Effect (TieringOffloadingManager Key) Unit := do
  if entry.2.isFinished then
    let manager ← get
    tellFinished entry.2.reqContext manager.secondaryTiers
    forgetRequest entry.1
  else
    setRequestState entry.1 { entry.2 with pendingPrimaryStores := 0 }

/-- Reset the primary tier; `finished` is what the drained tiers report. -/
def resetCache : Effect (TieringOffloadingManager Key) Unit := do
  processFinishedJobs finished
  modify fun manager => { manager with pendingLoadSubmissions := .empty }
  let manager ← get
  let _ ← manager.reqState.entries.mapM resetRequest
  onPrimary CPUOffloadingManager.resetCache
  modify fun manager => { manager with processedJobsThisStep := false }

end TieringOffloadingManager

end VllmCore.Offload
