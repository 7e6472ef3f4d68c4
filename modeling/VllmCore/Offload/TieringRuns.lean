import VllmCore.Offload.TieringSteps

namespace VllmCore.Offload

open Lib List

/-!
# Runs of the tiering manager

A session is the manager with what its callers hold: the loads and stores of the GPU
that are prepared and not completed, and the tier each request came from.  The end of a
step is three kinds of calls, the poll, the calls tiers make through their parent
handles and the flush, so that a run may hold them in any order.
-/

/-- A call of the scheduler, or of a tier through its parent handle. -/
inductive TieringCall (Key : Type) where
  | onNewRequest (origin : Option Nat) (reqContext : ReqContext) (requestLevel : List Nat)
  | onRequestFinished (origin : Option Nat) (reqContext : ReqContext)
  | lookup (origin : Option Nat) (key : Key) (reqContext : ReqContext)
    (finished : Nat → List JobResult) (answers : Nat → LookupResult)
  | createStoreJob (keys : List Key) (reqContext : ReqContext)
  | touch (keys : List Key)
  | prepareLoad (keys : List Key)
  | completeLoad (keys : List Key)
  | prepareStore (keys : List Key) (reqContext : ReqContext) (finished : Nat → List JobResult)
  | completeStore (keys : List Key) (reqContext : ReqContext) (success : Bool)
  | poll (finished : Nat → List JobResult)
  | endStep
  | resetCache (finished : Nat → List JobResult)

/-- The manager and what its callers hold. -/
structure TieringSession (Key : Type) where
  manager : TieringOffloadingManager Key
  loads : List Key := []
  stores : List (Nat × List Key) := []
  origins : Dict Nat (Option Nat) := .empty

namespace TieringSession

variable {Key : Type} [DecidableEq Key]

open TieringOffloadingManager

/-- A call whose result does not matter. -/
def silent {Value : Type} (operation : Effect (TieringOffloadingManager Key) Value) :
    Effect (TieringOffloadingManager Key) (Option (PrepareStoreOutput Key)) := do
  let _ ← operation
  pure none

/-- What a call does to the manager. -/
def effect :
    TieringCall Key → Effect (TieringOffloadingManager Key) (Option (PrepareStoreOutput Key))
  | .onNewRequest origin reqContext requestLevel =>
    silent (onNewRequest reqContext origin requestLevel)
  | .onRequestFinished origin reqContext => silent (onRequestFinished reqContext origin)
  | .lookup origin key reqContext finished answers =>
    silent (lookup key reqContext origin finished answers)
  | .createStoreJob keys reqContext => silent (createStoreJob keys reqContext)
  | .touch keys => silent (touch keys)
  | .prepareLoad keys => silent (prepareLoad keys)
  | .completeLoad keys => silent (completeLoad keys)
  | .prepareStore keys reqContext finished => prepareStore keys reqContext finished
  | .completeStore keys reqContext success => silent (completeStore keys reqContext success)
  | .poll finished => silent (maybeProcessFinishedJobs finished)
  | .endStep =>
    silent do
      modify fun manager => { manager with processedJobsThisStep := false }
      flushPendingPromotions
  | .resetCache finished => silent (resetCache finished)

/-- The keys a store entered, none if it was refused. -/
def storedKeys (reply : Option (PrepareStoreOutput Key)) : List Key :=
  (reply.map PrepareStoreOutput.keysToStore).getD []

/-- Whether an entry is the store of some keys for a request. -/
def isStore (reqId : Nat) (keys : List Key) (store : Nat × List Key) : Bool :=
  decide (store.1 = reqId) && store.2.isPerm keys

section

variable (session : TieringSession Key)

/-- What the callers hold after a call. -/
def record (call : TieringCall Key) (reply : Option (PrepareStoreOutput Key))
    (manager : TieringOffloadingManager Key) : TieringSession Key :=
  match call with
  | .onNewRequest origin reqContext _ =>
    { session with
      manager := manager
      origins := session.origins.set reqContext.reqId origin }
  | .prepareLoad keys => { session with manager := manager, loads := keys ++ session.loads }
  | .completeLoad keys => { session with manager := manager, loads := session.loads.diff keys }
  | .prepareStore _ reqContext _ =>
    { session with
      manager := manager
      stores :=
        if storedKeys reply = [] then session.stores
        else (reqContext.reqId, storedKeys reply) :: session.stores }
  | .completeStore keys reqContext _ =>
    { session with
      manager := manager
      stores := session.stores.eraseP (isStore reqContext.reqId keys) }
  | .resetCache _ => { session with manager := manager, loads := [], stores := [] }
  | _ => { session with manager := manager }

def perform (call : TieringCall Key) : Outcome (TieringSession Key) :=
  match effect call session.manager with
  | .ok reply manager => .ok (session.record call reply manager)
  | .error fault _ => .error fault

def run (calls : List (TieringCall Key)) : Outcome (TieringSession Key) :=
  calls.foldlM perform session

end

/-- Every call of a run meets a rule, in the session it finds. -/
def Admissible (Rule : TieringSession Key → TieringCall Key → Prop) :
    TieringSession Key → List (TieringCall Key) → Prop
  | _, [] => True
  | session, call :: rest =>
    Rule session call ∧
      match session.perform call with
      | .ok next => Admissible Rule next rest
      | .error _ => True

instance decidableAdmissible (Rule : TieringSession Key → TieringCall Key → Prop)
    [∀ session call, Decidable (Rule session call)] :
    (session : TieringSession Key) →
    (calls : List (TieringCall Key)) →
    Decidable (Admissible Rule session calls)
  | _, [] => .isTrue trivial
  | session, call :: rest =>
    have later :
        (performed : Outcome (TieringSession Key)) → Decidable
            (match performed with
            | .ok next => Admissible Rule next rest
            | .error _ => True) := fun performed =>
      match performed with
      | .ok next => decidableAdmissible Rule next rest
      | .error _ => .isTrue trivial
    have := later (session.perform call)
    inferInstanceAs (Decidable (_ ∧ _))

/-- A session over a new manager. -/
def start (numBlocks : Nat) (name : PolicyName) (rounding : ℚ → ℚ)
    (enableEvents : Bool) (secondaryTiers : List Nat) :
    TieringSession Key where
  manager :=
    { primaryTier :=
        CPUOffloadingManager.init numBlocks (.init name numBlocks rounding) enableEvents
      secondaryTiers := secondaryTiers }

variable {session next : TieringSession Key} {call : TieringCall Key}
  {externals : Nat → List (ParentCall Key)} {manager : TieringOffloadingManager Key}

theorem perform_of_ok
    (ran : effect call session.manager = .ok reply manager) :
    session.perform call = .ok (session.record call reply manager) := by
  unfold perform
  rw [ran]

theorem perform_eq_ok (performed : session.perform call = .ok next) :
    ∃ reply manager, effect call session.manager = .ok reply manager ∧
      next = session.record call reply manager := by
  unfold perform at performed
  split at performed
  · rename_i reply manager ran
    cases performed
    exact ⟨reply, manager, ran, rfl⟩
  · cases performed

omit [DecidableEq Key] in
theorem silent_of_ok {Value : Type} {operation : Effect (TieringOffloadingManager Key) Value}
    {after : TieringOffloadingManager Key} {value : Value}
    (ran : operation manager = .ok value after) : silent operation manager = .ok none after := by
  unfold silent
  rw [bind_of_ok ran]
  rfl

/-! ## The end of a step -/

/-- The call a tier makes through its parent handle. -/
def external (tier : Nat) : ParentCall Key → TieringCall Key
  | .onNewRequest reqContext requestLevel => .onNewRequest (some tier) reqContext requestLevel
  | .lookup key reqContext finished answers => .lookup (some tier) key reqContext finished answers
  | .createStoreJob keys reqContext => .createStoreJob keys reqContext
  | .onRequestFinished reqContext => .onRequestFinished (some tier) reqContext

/-- The calls the end of a step consists of. -/
def scheduleEnd (tiers : List Nat) (finished : Nat → List JobResult)
    (externals : Nat → List (ParentCall Key)) : List (TieringCall Key) :=
  .poll finished :: (tiers.flatMap fun tier => (externals tier).map (external tier)) ++ [.endStep]

theorem run_append :
    session.run (first ++ second) = (session.run first >>= fun middle => middle.run second) := by
  unfold run
  rw [foldlM_append]

theorem run_cons_of_ok
    (ran : session.perform call = .ok next) : session.run (call :: rest) = next.run rest := by
  unfold run
  rw [foldlM_cons, ran]
  rfl

theorem manager_record (session : TieringSession Key) (call : TieringCall Key)
    (reply : Option (PrepareStoreOutput Key)) (manager : TieringOffloadingManager Key) :
    (session.record call reply manager).manager = manager := by
  cases call <;> rfl

variable {after : TieringOffloadingManager Key}

/-- A call of a tier is a call of the run. -/
theorem perform_external
    (ran : serve tier served session.manager = .ok () after) :
    ∃ next, session.perform (external tier served) = .ok next ∧ next.manager = after := by
  have effects : effect (external tier served) session.manager = .ok none after := by
    cases served with
    | lookup key context done answers =>
      obtain ⟨result, middle, found, same⟩ := ok_of_bind ran
      cases same
      exact silent_of_ok found
    | createStoreJob keys context =>
      obtain ⟨job, middle, created, same⟩ := ok_of_bind ran
      cases same
      exact silent_of_ok created
    | _ => exact silent_of_ok ran
  exact ⟨_, perform_of_ok effects, session.manager_record _ _ _⟩

/-- A loop whose rounds are runs of calls is a run of all the calls. -/
theorem run_mapM {Item Value : Type} {action : Item → Effect (TieringOffloadingManager Key) Value}
    {calls : Item → List (TieringCall Key)}
    (each :
      ∀ item (session : TieringSession Key) value after,
        action item session.manager = .ok value after →
          ∃ ended, session.run (calls item) = .ok ended ∧ ended.manager = after)
    {items : List Item} {values : List Value}
    (ran : items.mapM action session.manager = .ok values after) :
    ∃ ended, session.run (items.flatMap calls) = .ok ended ∧ ended.manager = after := by
  induction items generalizing session values with
  | nil =>
    cases ran
    exact ⟨session, rfl, rfl⟩
  | cons first rest ih =>
    rw [mapM_cons] at ran
    obtain ⟨value, middle, ranFirst, later⟩ := ok_of_bind ran
    obtain ⟨others, last, ranRest, same⟩ := ok_of_bind later
    cases same
    obtain ⟨next, performed, here⟩ := each first session value middle ranFirst
    rw [← here] at ranRest
    obtain ⟨ended, continued, there⟩ := ih ranRest
    refine ⟨ended, ?_, there⟩
    rw [flatMap_cons, run_append, performed, ok_bind, continued]

theorem run_tiers {tiers : List Nat} {values : List (List Unit)}
    (ran :
      (tiers.mapM fun tier => (externals tier).mapM (serve tier)) session.manager =
        .ok values after) :
    ∃ ended,
      session.run (tiers.flatMap fun tier => (externals tier).map (external tier)) = .ok ended ∧
        ended.manager = after := by
  refine run_mapM (fun tier _ _ _ served => ?_) ran
  rw [map_eq_flatMap]
  refine run_mapM (fun call _ _ _ servedOne => ?_) served
  obtain ⟨next, performed, here⟩ := perform_external servedOne
  exact ⟨next, run_cons_of_ok performed, here⟩

/-- The end of a step is a run of its calls. -/
theorem run_scheduleEnd
    (ran : onScheduleEnd finished externals session.manager = .ok () after) :
    ∃ polled ended, session.perform (.poll finished) = .ok polled ∧
      session.run (scheduleEnd polled.manager.secondaryTiers finished externals) = .ok ended ∧
        ended.manager = after := by
  obtain ⟨_, polledManager, polled, later⟩ := ok_of_bind ran
  obtain ⟨_, same, got, serving⟩ := ok_of_bind later
  cases got
  obtain ⟨values, servedManager, served, ending⟩ := ok_of_bind serving
  let polledSession : TieringSession Key := { session with manager := polledManager }
  have first : session.perform (.poll finished) = .ok polledSession :=
    perform_of_ok (silent_of_ok polled)
  have start : (polledManager.secondaryTiers.mapM fun tier => (externals tier).mapM (serve tier))
        polledSession.manager =
      .ok values servedManager :=
    served
  obtain ⟨servedSession, middle, here⟩ := run_tiers start
  have last : servedSession.perform .endStep = .ok { servedSession with manager := after } := by
    apply perform_of_ok
    rw [here]
    exact silent_of_ok ending
  refine ⟨polledSession, { servedSession with manager := after }, first, ?_, rfl⟩
  unfold scheduleEnd
  rw [cons_append, run_cons_of_ok first, run_append, middle, ok_bind, run_cons_of_ok last]
  rfl

/-- Tier 0 reports a remote request. -/
theorem run_scheduleEnd_newRequest :
    ∃ tiers ended, (start 4 .lru id false [0] : TieringSession Nat).run
      (scheduleEnd tiers (fun _ => []) fun _ => [.onNewRequest ⟨1, [0]⟩ []]) = .ok ended := by
  have ran : onScheduleEnd (fun _ => []) (fun _ => [.onNewRequest ⟨1, [0]⟩ []])
    (start 4 .lru id false [0] : TieringSession Nat).manager = .ok () _ := rfl
  obtain ⟨_, ended, _, same, _⟩ := run_scheduleEnd ran
  exact ⟨_, ended, same⟩

end TieringSession

end VllmCore.Offload
