import VllmCore.Offload.TierCalls
import VllmCore.Offload.TieringRequests

namespace VllmCore.Offload

open Lib TierCall TieringOffloadingManager List

/-!
# Tiers hear of a request before its jobs and not after its end

Over any run in which no promotion of a request is waiting when the request is
finalized, a tier is given jobs only for requests it was told of and not yet told the
end of, and is told the end of such requests only.
-/

namespace TieringSession

variable {Key : Type} [DecidableEq Key]

/-- A request is known and was opened through a parent handle, or locally. -/
def Opened (session : TieringSession Key) (origin : Option Nat) (reqId : Nat) : Prop :=
  session.manager.reqState.contains reqId = true ∧ session.origins.get? reqId = some origin

/-- Requests are opened under new ids, and used and closed by those who opened them. -/
def Conducts (session : TieringSession Key) : TieringCall Key → Prop
  | .onNewRequest _ reqContext _ => session.manager.reqState.get? reqContext.reqId = none
  | .onRequestFinished origin reqContext => session.Opened origin reqContext.reqId
  | .lookup origin _ reqContext _ _ => session.Opened origin reqContext.reqId
  | .prepareStore _ reqContext _ => session.Opened none reqContext.reqId
  | .completeStore keys reqContext _ =>
    ∃ store ∈ session.stores, isStore reqContext.reqId keys store = true
  | _ => True

/-- No promotion of a request is waiting when the call finalizes the request. -/
def Flushed (session : TieringSession Key) : TieringCall Key → Prop
  | .onRequestFinished _ reqContext =>
    ∀ state ∈ session.manager.reqState.get? reqContext.reqId,
      state.pendingPrimaryStores = 0 → session.manager.queued reqContext.reqId = false
  | .completeStore _ reqContext _ =>
    ∀ state ∈ session.manager.reqState.get? reqContext.reqId,
      state.isFinished = true → state.pendingPrimaryStores = 1 →
        session.manager.queued reqContext.reqId = false
  | _ => True

instance
    (session : TieringSession Key) (origin : Option Nat) (reqId : Nat) :
    Decidable (session.Opened origin reqId) :=
  inferInstanceAs (Decidable (_ ∧ _))

instance
    (session : TieringSession Key) (call : TieringCall Key) : Decidable (session.Conducts call) :=
  match call with
  | .onNewRequest _ _ _ => inferInstanceAs (Decidable (_ = _))
  | .onRequestFinished origin reqContext =>
    inferInstanceAs (Decidable (session.Opened origin reqContext.reqId))
  | .lookup origin _ reqContext _ _ =>
    inferInstanceAs (Decidable (session.Opened origin reqContext.reqId))
  | .prepareStore _ reqContext _ =>
    inferInstanceAs (Decidable (session.Opened none reqContext.reqId))
  | .completeStore _ _ _ => inferInstanceAs (Decidable (∃ _ ∈ session.stores, _))
  | .createStoreJob _ _ | .touch _ | .prepareLoad _ | .completeLoad _ | .poll _ | .endStep
  | .resetCache _ => .isTrue trivial

instance
    (session : TieringSession Key) (call : TieringCall Key) : Decidable (session.Flushed call) :=
  match call with
  | .onRequestFinished _ reqContext =>
    inferInstanceAs
      (Decidable (∀ state ∈ session.manager.reqState.get? reqContext.reqId, _ → _))
  | .completeStore _ reqContext _ =>
    inferInstanceAs
      (Decidable (∀ state ∈ session.manager.reqState.get? reqContext.reqId, _ → _ → _))
  | .onNewRequest _ _ _ | .lookup _ _ _ _ _ | .prepareStore _ _ _ | .createStoreJob _ _
  | .touch _ | .prepareLoad _ | .completeLoad _ | .poll _ | .endStep | .resetCache _ =>
    .isTrue trivial

/-- Whether a tier knows of a request. -/
def Known (session : TieringSession Key) (tier reqId : Nat) : Prop :=
  knows session.manager.tierCalls tier reqId = true

/-- The calls so far are in order, and tiers know of the requests opened elsewhere. -/
structure Orderly (session : TieringSession Key) : Prop where
  inOrder : InOrder session.manager.tierCalls
  known :
    ∀ tier reqId, session.Known tier reqId ↔
      ∃ origin, session.Opened origin reqId ∧ tier ∈ session.manager.tiersExcept origin
  named :
    ∀ reqId state, session.manager.reqState.get? reqId = some state →
      state.reqContext.reqId = reqId ∧ ∀ tier ∈ state.requestLevelTiers, session.Known tier reqId
  queues : Queues session.Known session.manager.pendingLoadSubmissions
  distinct : session.manager.secondaryTiers.Nodup

/-- The log is in order, and stores are of local requests. -/
structure Conducted (session : TieringSession Key) : Prop where
  orderly : session.Orderly
  counts : Counts session.manager.reqState session.stores
  stores : ∀ store ∈ session.stores, session.origins.get? store.1 = some none

variable {session next : TieringSession Key} {context : ReqContext} {origin : Option Nat}

/-! ## What one request or the whole log goes through -/

/-- What the order of calls depends on in the state of a request. -/
def view (state : RequestState) : ReqContext × List Nat :=
  (state.reqContext, state.requestLevelTiers)

variable {manager after : TieringOffloadingManager Key} {finished : Nat → List JobResult}
    {reply : Option (PrepareStoreOutput Key)} {meant waits : Nat → Nat → Prop}
    {calls : List (TierCall Key)} {keys : List Key} {state : RequestState} {reqId : Nat}

omit [DecidableEq Key] in
theorem tiersExcept_of_same (same : after.secondaryTiers = manager.secondaryTiers) :
    after.tiersExcept origin = manager.tiersExcept origin := by
  unfold tiersExcept
  rw [same]

variable {requests others : Dict Nat RequestState} {entry : Nat × RequestState}
    {call : TieringCall Key} {success : Bool} {Value : Type}

omit [DecidableEq Key] in
theorem contains_of_view (same : (others.get? reqId).map view = (requests.get? reqId).map view) :
    others.contains reqId = requests.contains reqId := by
  have sizes := congrArg Option.isSome same
  rw [Option.isSome_map, Option.isSome_map] at sizes
  exact sizes

omit [DecidableEq Key] in
theorem found_of_view (same : (others.get? reqId).map view = (requests.get? reqId).map view)
    (found : others.get? reqId = some state) :
    ∃ before, requests.get? reqId = some before ∧ before.reqContext = state.reqContext ∧
      before.requestLevelTiers = state.requestLevelTiers := by
  rw [found] at same
  obtain ⟨before, foundBefore, equal⟩ := Option.map_eq_some_iff.mp same.symm
  exact ⟨before, foundBefore, congrArg Prod.fst equal, congrArg Prod.snd equal⟩

theorem view_set (known : requests.get? reqId = some state)
    (same : view changed = view state) (other : Nat) :
    ((requests.set reqId changed).get? other).map view = (requests.get? other).map view := by
  rw [Dict.get?_set]
  split
  · rename_i equal
    rw [equal, known]
    exact congrArg some same
  · rfl

omit [DecidableEq Key] in
/-- Nothing has been submitted yet. -/
theorem Orderly.quiet (orderly : session.Orderly) :
    session.manager.Quiet session.Known session.Known session.manager.tierCalls
      session.manager.reqState session.manager.secondaryTiers where
  submits := by
    refine ⟨[], (append_nil _).symm, ?_⟩
    intro call mem
    cases mem
  requests := rfl
  secondaryTiers := rfl
  queues := orderly.queues

omit [DecidableEq Key] in
/-- Submitting jobs to tiers that know of their requests keeps the order. -/
theorem Orderly.submitted (orderly : session.Orderly)
    (quiet :
      next.manager.Quiet session.Known waits session.manager.tierCalls requests
        session.manager.secondaryTiers)
    (allowed : ∀ tier reqId, waits tier reqId → session.Known tier reqId)
    (sameViews :
      ∀ reqId, (requests.get? reqId).map view = (session.manager.reqState.get? reqId).map view)
    (sameOrigins : next.origins = session.origins) : next.Orderly := by
  rw [← quiet.requests] at sameViews
  obtain ⟨new, logged, submits⟩ := quiet.submits
  have same : ∀ tier reqId, next.Known tier reqId ↔ session.Known tier reqId := by
    intro tier reqId
    unfold Known
    rw [logged, knows_append_submits submits]
  refine ⟨?_, ?_, ?_, ?_, ?_⟩
  · rw [logged]
    exact orderly.inOrder.append_submits submits
  · intro tier reqId
    rw [same, orderly.known]
    unfold Opened
    rw [contains_of_view (sameViews reqId), sameOrigins]
    simp only [tiersExcept_of_same quiet.secondaryTiers]
  · intro reqId state found
    obtain ⟨before, foundBefore, sameContext, sameLevel⟩ := found_of_view (sameViews reqId) found
    obtain ⟨named, level⟩ := orderly.named reqId before foundBefore
    rw [← sameContext, ← sameLevel]
    exact ⟨named, fun tier mem => (same tier reqId).mpr (level tier mem)⟩
  · intro tier tierPending reqId entry found listed
    obtain ⟨named, waiting⟩ := quiet.queues tier tierPending reqId entry found listed
    exact ⟨named, (same tier reqId).mpr (allowed tier reqId waiting)⟩
  · rw [quiet.secondaryTiers]
    exact orderly.distinct

omit [DecidableEq Key] in
/-- Finalizing a request none of whose promotions waits keeps the order. -/
theorem Orderly.finalized (orderly : session.Orderly)
    (opened : session.Opened origin context.reqId)
    (queues : Queues waits session.manager.pendingLoadSubmissions)
    (unqueued : ∀ tier, ¬ waits tier context.reqId)
    (logged :
      next.manager.tierCalls = session.manager.tierCalls ++
        (session.manager.tiersExcept origin).map fun tier => .onRequestFinished tier context)
    (views :
      ∀ reqId, (next.manager.reqState.get? reqId).map view =
        if reqId = context.reqId then none
        else (session.manager.reqState.get? reqId).map view)
    (sameTiers : next.manager.secondaryTiers = session.manager.secondaryTiers)
    (sameQueues : next.manager.pendingLoadSubmissions = session.manager.pendingLoadSubmissions)
    (sameOrigins : next.origins = session.origins) : next.Orderly := by
  have knowledge :
      ∀ tier, session.Known tier context.reqId ↔ tier ∈ session.manager.tiersExcept origin := by
    intro tier
    rw [orderly.known]
    constructor
    · rintro ⟨other, openedOther, mem⟩
      have same : other = origin := Option.some.inj (openedOther.2.symm.trans opened.2)
      rw [← same]
      exact mem
    · exact fun mem => ⟨origin, opened, mem⟩
  have known : ∀ tier reqId,
      next.Known tier reqId ↔ reqId ≠ context.reqId ∧ session.Known tier reqId := by
    intro tier reqId
    unfold Known
    rw [logged, knows_append_finished]
    by_cases same : context.reqId = reqId
    · have own := knowledge tier
      by_cases mem : tier ∈ session.manager.tiersExcept origin
      · simp [same, mem]
      have unknown : knows session.manager.tierCalls tier reqId ≠ true := by
        rw [← same]
        exact fun knows => mem (own.mp knows)
      simp [same, unknown]
    · simp [same, Ne.symm same]
  refine ⟨?_, ?_, ?_, ?_, ?_⟩
  · rw [logged]
    exact orderly.inOrder.append_finished (orderly.distinct.filter _) fun tier mem =>
      (knowledge tier).mpr mem
  · intro tier reqId
    rw [known, orderly.known]
    have seen := views reqId
    by_cases same : reqId = context.reqId
    · rw [if_pos same, Option.map_eq_none_iff] at seen
      constructor
      · exact fun both => absurd same both.1
      · rintro ⟨other, openedOther, _⟩
        have present := openedOther.1
        unfold Dict.contains at present
        rw [seen] at present
        cases present
    · rw [if_neg same] at seen
      unfold Opened
      rw [contains_of_view seen, sameOrigins]
      simp only [tiersExcept_of_same sameTiers]
      exact ⟨fun both => both.2, fun found => ⟨same, found⟩⟩
  · intro reqId state found
    have seen := views reqId
    split at seen
    · rw [found] at seen
      cases seen
    rename_i differs
    obtain ⟨before, foundBefore, sameContext, sameLevel⟩ := found_of_view seen found
    obtain ⟨named, level⟩ := orderly.named reqId before foundBefore
    rw [← sameContext, ← sameLevel]
    exact ⟨named, fun tier mem => (known tier reqId).mpr ⟨differs, level tier mem⟩⟩
  · rw [sameQueues]
    intro tier tierPending reqId entry found listed
    obtain ⟨named, waiting⟩ := orderly.queues tier tierPending reqId entry found listed
    refine ⟨named, (known tier reqId).mpr ⟨?_, waiting⟩⟩
    intro same
    exact unqueued tier (same ▸ (queues tier tierPending reqId entry found listed).2)
  · rw [sameTiers]
    exact orderly.distinct

theorem next_of_ok (performed : session.perform call = .ok next)
    (ran : effect call session.manager = .ok reply manager) :
    next = session.record call reply manager :=
  Except.ok.inj (performed.symm.trans (perform_of_ok ran))

/-! ## Requests -/

theorem Conducted.onNewRequest (conducted : session.Conducted)
    (fresh : session.manager.reqState.get? context.reqId = none)
    (ran : session.perform (.onNewRequest origin context requestLevel) = .ok next) :
    next.Conducted := by
  have orderly := conducted.orderly
  have returned := session.manager.onNewRequest_eq context origin requestLevel
  obtain rfl := next_of_ok ran (silent_of_ok returned)
  set state : RequestState :=
    { reqContext := context
      requestLevelTiers :=
        (session.manager.tiersExcept origin).filter fun tier => tier ∈ requestLevel } with stateIs
  have known : ∀ tier reqId, knows (session.manager.tierCalls ++
          (session.manager.tiersExcept origin).map fun tier => .onNewRequest tier context)
        tier reqId = true ↔
      (tier ∈ session.manager.tiersExcept origin ∧ context.reqId = reqId) ∨
        session.Known tier reqId := by
    intro tier reqId
    rw [knows_append_new]
    by_cases informed : tier ∈ session.manager.tiersExcept origin ∧ context.reqId = reqId
    · simp [informed]
    · rw [if_neg informed]
      exact (or_iff_right informed).symm
  have unknown : ∀ tier, ¬ session.Known tier context.reqId := by
    intro tier knownBefore
    obtain ⟨other, opened, _⟩ := (orderly.known tier context.reqId).mp knownBefore
    have present := opened.1
    unfold Dict.contains at present
    rw [fresh] at present
    cases present
  refine ⟨⟨orderly.inOrder.append_new _ _, ?_, ?_, ?_, orderly.distinct⟩,
    conducted.counts.onNewRequest fresh _ _, ?_⟩
  · intro tier reqId
    refine (known tier reqId).trans ?_
    show _ ↔ ∃ other, ((session.manager.reqState.set context.reqId state).contains reqId = true ∧
          (session.origins.set context.reqId origin).get? reqId = some other) ∧
          tier ∈ session.manager.tiersExcept other
    rw [Dict.get?_set]
    by_cases same : reqId = context.reqId
    · subst same
      simp [unknown tier]
    · rw [orderly.known]
      simp [same, Ne.symm same, Opened]
  · intro reqId other found
    have updated : (session.manager.reqState.set context.reqId state).get? reqId = some other :=
      found
    rw [Dict.get?_set] at updated
    split at updated
    · rename_i same
      cases updated
      refine ⟨same.symm, fun tier mem => (known tier reqId).mpr (.inl ⟨?_, same.symm⟩)⟩
      exact mem_of_mem_filter mem
    · obtain ⟨named, level⟩ := orderly.named reqId other updated
      exact ⟨named, fun tier mem => (known tier reqId).mpr (.inr (level tier mem))⟩
  · intro tier tierPending reqId entry found listed
    obtain ⟨named, waiting⟩ := orderly.queues tier tierPending reqId entry found listed
    exact ⟨named, (known tier reqId).mpr (.inr waiting)⟩
  · intro store mem
    show (session.origins.set context.reqId origin).get? store.1 = some none
    have differs : store.1 ≠ context.reqId := by
      intro same
      obtain ⟨other, registered⟩ := conducted.counts.registered store mem
      rw [same, fresh] at registered
      cases registered
    rw [Dict.get?_set, if_neg differs]
    exact conducted.stores store mem

theorem Conducted.onRequestFinished (conducted : session.Conducted)
    (opened : session.Opened origin context.reqId)
    (flushed : session.Flushed (.onRequestFinished origin context))
    (ran : session.perform (.onRequestFinished origin context) = .ok next) :
    next.Conducted := by
  have orderly := conducted.orderly
  obtain ⟨state, known⟩ := Option.isSome_iff_exists.mp opened.1
  have named := (orderly.named _ state known).1
  have counts := conducted.counts.onRequestFinished known
  obtain rfl := next_of_ok ran (silent_of_ok (onRequestFinished_eq known origin))
  split
  · rename_i idle
    rw [if_pos idle] at counts
    refine ⟨?_, counts, conducted.stores⟩
    have unqueued := orderly.queues.unqueued (flushed state known idle)
    have openedHere : session.Opened origin state.reqContext.reqId := by
      rw [named]
      exact opened
    refine orderly.finalized openedHere unqueued ?_ rfl ?_ rfl rfl rfl
    · intro tier waits
      exact waits.2 named
    · intro reqId
      rw [named]
      show (((session.manager.reqState.set context.reqId _).erase context.reqId).get?
        reqId).map view = _
      rw [Dict.get?_erase]
      split
      · rfl
      · rename_i differs
        rw [Dict.get?_set, if_neg differs]
  · rename_i waits
    rw [if_neg waits] at counts
    refine ⟨?_, counts, conducted.stores⟩
    have quiet := (orderly.quiet.congr rfl rfl rfl rfl).withState context.reqId
      { state with isFinished := true }
    exact orderly.submitted quiet (fun _ _ waiting => waiting) (view_set known rfl) rfl

/-! ## Calls that only submit jobs -/

omit [DecidableEq Key] in
/-- A call that submits jobs and touches neither requests nor stores. -/
theorem Conducted.quiet (conducted : session.Conducted)
    (keeps :
      Keeps
        (Quiet session.Known session.Known session.manager.tierCalls session.manager.reqState
          session.manager.secondaryTiers)
        operation)
    (ran : operation session.manager = .ok value manager) (loads : List Key) :
    ({ session with manager := manager, loads := loads } : TieringSession Key).Conducted := by
  have quiet := keeps.of_ok ran conducted.orderly.quiet
  refine ⟨?_, ?_, conducted.stores⟩
  · exact conducted.orderly.submitted quiet (fun _ _ waiting => waiting) (fun _ => rfl) rfl
  · rw [quiet.requests]
    exact conducted.counts

omit [DecidableEq Key] in
theorem ok_of_silent (returned : silent operation manager = .ok reply after) :
    ∃ value, operation manager = .ok value after := by
  obtain ⟨value, middle, ran, same⟩ := ok_of_bind returned
  cases same
  exact ⟨value, ran⟩

theorem Conducted.lookup (conducted : session.Conducted)
    (opened : session.Opened origin context.reqId)
    (performed : session.perform (.lookup origin key context done answers) = .ok next) :
    next.Conducted := by
  obtain ⟨reply, manager, returned, rfl⟩ := perform_eq_ok performed
  obtain ⟨value, ran⟩ := ok_of_silent returned
  refine conducted.quiet (quiet_lookup ?_) ran session.loads
  intro tier mem other
  rw [conducted.orderly.known]
  exact ⟨origin, opened, mem_filter.mpr ⟨mem, by simpa using other⟩⟩

theorem Conducted.endStep (conducted : session.Conducted)
    (performed : session.perform .endStep = .ok next) : next.Conducted := by
  obtain ⟨reply, manager, returned, rfl⟩ := perform_eq_ok performed
  obtain ⟨value, ran⟩ := ok_of_silent returned
  refine conducted.quiet (Keeps.bind ?_ fun _ => ?_) ran session.loads
  · exact fun _ quiet => quiet.congr rfl rfl rfl rfl
  · exact quiet_flush fun _ _ waiting => waiting

/-! ## Stores -/

theorem prepareStore_quiet (quiet : manager.Quiet meant waits calls manager.reqState tiers)
    (known : manager.reqState.get? context.reqId = some state)
    (means : ∀ tier ∈ state.requestLevelTiers, meant tier context.reqId)
    (ran :
      TieringOffloadingManager.prepareStore keys context done manager = .ok reply after) :
    after.Quiet meant waits calls
      (if storedKeys reply = [] then
        manager.reqState
      else
        manager.reqState.set context.reqId
          { state with pendingPrimaryStores := state.pendingPrimaryStores + 1 })
      tiers := by
  obtain ⟨_, polled, polls, later⟩ := ok_of_bind ran
  have quietPolled := quiet_maybeProcess.of_ok polls quiet
  obtain ⟨answer, stored, primary, counting⟩ := ok_of_bind later
  have quietStored := quiet_onPrimary.of_ok primary quietPolled
  cases answer with
  | none =>
    cases counting
    exact quietStored
  | some output =>
    have knownStored : stored.reqState.get? context.reqId = some state := by
      rw [quietStored.requests]
      exact known
    obtain ⟨_, counted, counts, cascading⟩ := ok_of_bind counting
    rw [countPrimaryStore_eq knownStored output] at counts
    cases counts
    obtain ⟨_, cascaded, cascades, same⟩ := ok_of_bind cascading
    cases same
    have replied : storedKeys (some output) = output.keysToStore := rfl
    rw [replied]
    split at cascades
    · rename_i nothing
      rw [if_pos nothing]
      exact (quiet_cascadeExisting known means).of_ok cascades quietStored
    rename_i some
    rw [if_neg some]
    refine (quiet_cascadeExisting (Dict.get?_set_self _) ?_).of_ok cascades ?_
    · exact means
    · have noted := quietStored.withState context.reqId
        { state with pendingPrimaryStores := state.pendingPrimaryStores + 1 }
      rw [quietStored.requests] at noted
      exact noted

theorem Conducted.prepareStore (conducted : session.Conducted)
    (opened : session.Opened none context.reqId)
    (performed : session.perform (.prepareStore keys context done) = .ok next) :
    next.Conducted := by
  have orderly := conducted.orderly
  obtain ⟨state, known⟩ := Option.isSome_iff_exists.mp opened.1
  obtain ⟨reply, manager, ran, rfl⟩ := perform_eq_ok performed
  have quiet := prepareStore_quiet orderly.quiet known (orderly.named _ state known).2 ran
  have requests := quiet.requests
  by_cases nothing : storedKeys reply = []
  · have same : session.record (.prepareStore keys context done) reply manager =
        { session with manager := manager } := by
      simp only [record, nothing, if_true]
    rw [same]
    rw [if_pos nothing] at quiet requests
    refine ⟨orderly.submitted quiet (fun _ _ waiting => waiting) (fun _ => rfl) rfl, ?_,
      conducted.stores⟩
    rw [requests]
    exact conducted.counts
  · have grown : session.record (.prepareStore keys context done) reply manager = { session with
          manager := manager
          stores := (context.reqId, storedKeys reply) :: session.stores } := by
      simp only [record, nothing, if_false]
    rw [grown]
    rw [if_neg nothing] at quiet requests
    refine ⟨orderly.submitted quiet (fun _ _ waiting => waiting) (view_set known rfl) rfl, ?_, ?_⟩
    · rw [requests]
      exact conducted.counts.prepareStore known _
    · intro store mem
      rcases mem_cons.mp mem with rfl | old
      · exact opened.2
      · exact conducted.stores store old

theorem completeStore_quiet (quiet : manager.Quiet meant waits calls manager.reqState tiers)
    (known : manager.reqState.get? context.reqId = some state)
    (means : ∀ tier ∈ tiers, meant tier context.reqId)
    (ran :
      TieringOffloadingManager.completeStore keys context success manager = .ok () after) :
    ∃ middle : TieringOffloadingManager Key, middle.Quiet meant waits calls
        (manager.reqState.set context.reqId
          { state with pendingPrimaryStores := state.pendingPrimaryStores - 1 }) tiers ∧
        after =
          if state.isFinished ∧ state.pendingPrimaryStores - 1 = 0 then
            middle.finalized context.reqId state.reqContext (middle.tiersExcept none)
          else
            middle := by
  obtain ⟨_, stored, primary, cascading⟩ := ok_of_bind ran
  have quietStored := quiet_onPrimary.of_ok primary quiet
  obtain ⟨_, cascaded, cascades, counting⟩ := ok_of_bind cascading
  have quietCascaded := (quiet_cascadeToAll means).of_ok cascades quietStored
  have knownCascaded : cascaded.reqState.get? context.reqId = some state := by
    rw [quietCascaded.requests]
    exact known
  rw [bind_of_ok (requestState_of knownCascaded)] at counting
  split at counting
  · have noted := quietCascaded.withState context.reqId
      { state with pendingPrimaryStores := state.pendingPrimaryStores - 1 }
    rw [quietCascaded.requests] at noted
    refine ⟨_, noted, ?_⟩
    have set : setRequestState context.reqId
            { state with pendingPrimaryStores := state.pendingPrimaryStores - 1 } cascaded =
          .ok () (cascaded.withState context.reqId
            { state with pendingPrimaryStores := state.pendingPrimaryStores - 1 }) :=
      rfl
    rw [bind_of_ok set, maybeFinalize_eq (Dict.get?_set_self _)] at counting
    cases counting
    rfl
  · cases counting

theorem Conducted.completeStore (conducted : session.Conducted)
    (held : ∃ store ∈ session.stores, isStore context.reqId keys store = true)
    (flushed : session.Flushed (.completeStore keys context success))
    (performed : session.perform (.completeStore keys context success) = .ok next) :
    next.Conducted := by
  have orderly := conducted.orderly
  obtain ⟨found, listed, matches_⟩ := held
  obtain ⟨store, before, behind, _, isStored, split, erased⟩ := exists_of_eraseP listed matches_
  simp only [isStore, Bool.and_eq_true, decide_eq_true_eq] at isStored
  have reordered : session.stores.Perm (store :: (before ++ behind)) := by
    rw [split]
    exact perm_middle
  have mem := reordered.mem_iff.mpr mem_cons_self
  obtain ⟨state, known⟩ := conducted.counts.registered store mem
  have counts := conducted.counts.completeStore known reordered
  have localStore := conducted.stores store mem
  rw [isStored.1] at known counts localStore
  have opened : session.Opened none context.reqId := by
    refine ⟨?_, localStore⟩
    unfold Dict.contains
    rw [known]
    rfl
  obtain ⟨reply, manager, returned, recorded⟩ := perform_eq_ok performed
  obtain ⟨value, ran⟩ := ok_of_silent returned
  have next_eq : next = { session with manager := manager, stores := before ++ behind } := by
    rw [recorded]
    simp only [record, erased]
  have told : ∀ tier ∈ session.manager.secondaryTiers, session.Known tier context.reqId := by
    intro tier mem
    rw [orderly.known]
    exact ⟨none, opened, mem_filter.mpr ⟨mem, by simp⟩⟩
  have stores : ∀ other ∈ before ++ behind, session.origins.get? other.1 = some none :=
    fun other mem => conducted.stores other (reordered.mem_iff.mpr (mem_cons_of_mem _ mem))
  rw [next_eq]
  by_cases last : state.isFinished = true ∧ state.pendingPrimaryStores - 1 = 0
  · have unqueued :=
      orderly.queues.unqueued (flushed state known last.1 (by omega))
    have quiet : session.manager.Quiet session.Known
        (fun tier other => session.Known tier other ∧ other ≠ context.reqId)
        session.manager.tierCalls session.manager.reqState session.manager.secondaryTiers :=
      ⟨orderly.quiet.submits, rfl, rfl, unqueued⟩
    obtain ⟨middle, quietMiddle, ended⟩ := completeStore_quiet quiet known told ran
    rw [if_pos last] at ended
    have named := (orderly.named _ state known).1
    have orderlyMiddle : ({ session with manager := middle } : TieringSession Key).Orderly :=
      orderly.submitted quietMiddle (fun _ _ waiting => waiting.1) (view_set known rfl) rfl
    have openedMiddle : ({ session with manager := middle } : TieringSession Key).Opened none
          state.reqContext.reqId := by
      rw [named]
      refine ⟨?_, localStore⟩
      rw [quietMiddle.requests]
      simp
    refine ⟨?_, ?_, stores⟩
    · refine orderlyMiddle.finalized openedMiddle quietMiddle.queues ?_ ?_ ?_ ?_ ?_ rfl
      · intro tier waits
        exact waits.2 named
      · rw [ended]
        rfl
      · intro reqId
        rw [ended, named]
        show ((middle.reqState.erase context.reqId).get? reqId).map view = _
        rw [Dict.get?_erase]
        split <;> rfl
      all_goals
        rw [ended]
        rfl
    · unfold released at counts
      rw [if_pos last] at counts
      rw [ended]
      show Counts (middle.reqState.erase context.reqId) (before ++ behind)
      rw [quietMiddle.requests]
      exact counts
  · obtain ⟨middle, quietMiddle, ended⟩ := completeStore_quiet orderly.quiet known told ran
    rw [if_neg last] at ended
    subst ended
    refine ⟨?_, ?_, stores⟩
    · exact orderly.submitted quietMiddle (fun _ _ waiting => waiting) (view_set known rfl) rfl
    · unfold released at counts
      rw [if_neg last] at counts
      rw [quietMiddle.requests]
      exact counts

/-! ## Resets -/

/-- The manager after some requests are reset. -/
def resetAll (manager : TieringOffloadingManager Key) (entries : List (Nat × RequestState)) :
    TieringOffloadingManager Key :=
  { manager with
    tierCalls := manager.tierCalls ++ entries.flatMap (resetCalls manager.secondaryTiers)
    reqState := entries.foldl resetState manager.reqState }

omit [DecidableEq Key] in
theorem resetAll_cons :
    resetAll manager (entry :: rest) = resetAll (resetAll manager [entry]) rest := by
  simp [resetAll]

omit [DecidableEq Key] in
/-- Resetting one request that is active or local keeps the order. -/
theorem Orderly.reset_one (orderly : session.Orderly)
    (empty : session.manager.pendingLoadSubmissions = .empty)
    (known : session.manager.reqState.get? entry.1 = some entry.2)
    (opened : entry.2.isFinished = true → session.origins.get? entry.1 = some none) :
    ({ session with manager := resetAll session.manager [entry] } :
      TieringSession Key).Orderly := by
  have requests : (resetAll session.manager [entry]).reqState =
      resetState session.manager.reqState entry :=
    rfl
  have calls : (resetAll session.manager [entry]).tierCalls =
      session.manager.tierCalls ++ resetCalls session.manager.secondaryTiers entry := by
    simp [resetAll]
  by_cases done : entry.2.isFinished = true
  · have named := (orderly.named _ entry.2 known).1
    have openedHere : session.Opened none entry.2.reqContext.reqId := by
      rw [named]
      refine ⟨?_, opened done⟩
      unfold Dict.contains
      rw [known]
      rfl
    have unqueued : Queues (fun _ _ => False) session.manager.pendingLoadSubmissions := by
      rw [empty]
      intro tier tierPending reqId waiting found
      cases found
    have everyone : session.manager.tiersExcept none = session.manager.secondaryTiers := by
      unfold tiersExcept
      simp
    refine orderly.finalized openedHere unqueued (fun _ waits => waits) ?_ ?_ rfl rfl rfl
    · rw [everyone]
      unfold resetCalls at calls
      rw [if_pos done] at calls
      exact calls
    · intro reqId
      rw [named]
      show ((resetState session.manager.reqState entry).get? reqId).map view = _
      rw [get?_resetState]
      unfold resetOne
      rw [if_pos done]
      split <;> rfl
  · unfold resetCalls at calls
    rw [if_neg done, append_nil] at calls
    unfold resetState at requests
    rw [if_neg done] at requests
    have quiet := orderly.quiet.withState entry.1 { entry.2 with pendingPrimaryStores := 0 }
    have quietReset := quiet.congr calls requests rfl rfl
    exact orderly.submitted quietReset (fun _ _ waiting => waiting) (view_set known rfl) rfl

omit [DecidableEq Key] in
theorem Orderly.reset_all (orderly : session.Orderly)
    (empty : session.manager.pendingLoadSubmissions = .empty)
    (nodup : (entries.map Prod.fst).Nodup)
    (known : ∀ entry ∈ entries, session.manager.reqState.get? entry.1 = some entry.2)
    (opened :
      ∀ entry ∈ entries, entry.2.isFinished = true → session.origins.get? entry.1 = some none) :
    ({ session with manager := resetAll session.manager entries } :
      TieringSession Key).Orderly := by
  induction entries generalizing session with
  | nil =>
    have same : resetAll session.manager [] = session.manager := by simp [resetAll]
    rw [same]
    exact orderly
  | cons entry rest ih =>
    rw [map_cons, nodup_cons] at nodup
    have first := orderly.reset_one empty (known entry mem_cons_self) (opened entry mem_cons_self)
    have later := ih first empty nodup.2 ?_ ?_
    · rw [resetAll_cons]
      exact later
    · intro other mem
      show (resetState session.manager.reqState entry).get? other.1 = some other.2
      have differs : other.1 ≠ entry.1 := by
        intro same
        exact nodup.1 (same ▸ mem_map_of_mem mem)
      rw [get?_resetState, if_neg differs]
      exact known other (mem_cons_of_mem _ mem)
    · intro other mem
      exact opened other (mem_cons_of_mem _ mem)

/-- A reset is a poll, and a reset of all requests once nothing waits. -/
theorem resetCache_quiet (quiet : manager.Quiet meant waits calls manager.reqState tiers)
    (ran : TieringOffloadingManager.resetCache done manager = .ok () after) :
    ∃ middle : TieringOffloadingManager Key, middle.Quiet meant waits calls manager.reqState tiers ∧
      middle.pendingLoadSubmissions = .empty ∧
      after.tierCalls = (resetAll middle manager.reqState.entries).tierCalls ∧
      after.reqState = (resetAll middle manager.reqState.entries).reqState ∧
      after.secondaryTiers = middle.secondaryTiers ∧
      after.pendingLoadSubmissions = .empty := by
  obtain ⟨_, polled, polls, clearing⟩ := ok_of_bind ran
  have quietPolled := quiet_process.of_ok polls quiet
  let cleared : TieringOffloadingManager Key := { polled with pendingLoadSubmissions := .empty }
  have resetting : (cleared.reqState.entries.mapM resetRequest >>= fun _ =>
        onPrimary CPUOffloadingManager.resetCache >>= fun _ =>
          modify fun manager => { manager with processedJobsThisStep := false }) cleared =
        .ok () after :=
    clearing
  have requests : cleared.reqState = manager.reqState := quietPolled.requests
  rw [requests] at resetting
  obtain ⟨values, told⟩ := cleared.mapM_resetRequest manager.reqState.entries
  obtain ⟨primaryTier, emptied, _⟩ := CPUOffloadingManager.ledger_resetCache cleared.primaryTier
  have reset :
      onPrimary CPUOffloadingManager.resetCache (resetAll cleared manager.reqState.entries) =
        .ok () { resetAll cleared manager.reqState.entries with primaryTier := primaryTier } :=
    onPrimary_of_ok emptied
  have informed : manager.reqState.entries.mapM resetRequest cleared =
      .ok values (resetAll cleared manager.reqState.entries) :=
    told
  rw [bind_of_ok informed] at resetting
  cases resetting
  exact ⟨cleared, quietPolled.cleared, rfl, rfl, rfl, rfl, rfl⟩

theorem Conducted.resetCache (conducted : session.Conducted)
    (performed : session.perform (.resetCache done) = .ok next) : next.Conducted := by
  have orderly := conducted.orderly
  obtain ⟨reply, manager, returned, rfl⟩ := perform_eq_ok performed
  obtain ⟨value, ran⟩ := ok_of_silent returned
  obtain ⟨middle, quiet, empty, calls, requests, tiers, cleared⟩ :=
    resetCache_quiet orderly.quiet ran
  have orderlyMiddle : ({ session with manager := middle } : TieringSession Key).Orderly :=
    orderly.submitted quiet (fun _ _ waiting => waiting) (fun _ => rfl) rfl
  have known : ∀ entry ∈ session.manager.reqState.entries,
      session.manager.reqState.get? entry.1 = some entry.2 :=
    fun entry mem => Dict.get?_eq_some_iff.mpr mem
  have orderlyReset :=
    orderlyMiddle.reset_all empty session.manager.reqState.distinct (fun entry mem => by
        rw [quiet.requests]
        exact known entry mem)
      (fun entry mem done => by
        obtain ⟨store, held, same⟩ :=
          conducted.counts.store_of_finished (known entry mem) done
        rw [← same]
        exact conducted.stores store held)
  refine ⟨?_, ?_, ?_⟩
  · refine orderlyReset.submitted (orderlyReset.quiet.congr calls requests tiers ?_)
      (fun _ _ waiting => waiting) (fun _ => rfl) rfl
    exact cleared.trans empty.symm
  · show Counts manager.reqState []
    rw [requests]
    show Counts (session.manager.reqState.entries.foldl resetState middle.reqState) []
    rw [quiet.requests]
    exact Counts.reset _
  · intro store mem
    cases mem

/-! ## Whole runs -/

theorem Conducted.perform (conducted : session.Conducted) (conducts : session.Conducts call)
    (flushed : session.Flushed call) (performed : session.perform call = .ok next) :
    next.Conducted := by
  have quietly
      {Value : Type}
      {operation : Effect (TieringOffloadingManager Key) Value}
      (keeps : Keeps
        (Quiet session.Known session.Known session.manager.tierCalls session.manager.reqState
          session.manager.secondaryTiers)
        operation)
      {reply : Option (PrepareStoreOutput Key)}
      {manager : TieringOffloadingManager Key}
      (returned : silent operation session.manager = .ok reply manager)
      (loads : List Key) :
      ({ session with manager := manager, loads := loads } : TieringSession Key).Conducted := by
    obtain ⟨value, ran⟩ := ok_of_silent returned
    exact conducted.quiet keeps ran loads
  obtain ⟨reply, manager, returned, recorded⟩ := perform_eq_ok performed
  cases call with
  | onNewRequest origin context requestLevel => exact conducted.onNewRequest conducts performed
  | onRequestFinished origin context => exact conducted.onRequestFinished conducts flushed performed
  | lookup origin key context done answers => exact conducted.lookup conducts performed
  | createStoreJob keys context =>
    rw [recorded]
    exact quietly (quiet_createStoreJob keys context) returned session.loads
  | touch keys =>
    rw [recorded]
    exact quietly quiet_onPrimary returned session.loads
  | prepareStore keys context done => exact conducted.prepareStore conducts performed
  | completeStore keys context success => exact conducted.completeStore conducts flushed performed
  | poll done =>
    rw [recorded]
    exact quietly quiet_maybeProcess returned session.loads
  | endStep => exact conducted.endStep performed
  | resetCache done => exact conducted.resetCache performed
  | _ =>
    rw [recorded]
    exact quietly quiet_onPrimary returned _

omit [DecidableEq Key] in
theorem conducted_start
    :
    (start numBlocks name rounding enableEvents (range numTiers) :
      TieringSession Key).Conducted := by
  refine ⟨⟨trivial, ?_, ?_, ?_, nodup_range⟩, Counts.empty, ?_⟩
  · intro tier reqId
    constructor
    · intro known
      cases known
    · rintro ⟨origin, opened, _⟩
      cases opened.1
  · intro reqId state found
    cases found
  · intro tier tierPending reqId entry found
    cases found
  · intro store mem
    cases mem

theorem Conducted.run {calls : List (TieringCall Key)} (conducted : session.Conducted)
    (admissible :
      Admissible (fun session call => session.Conducts call ∧ session.Flushed call)
        session calls)
    (ran : session.run calls = .ok next) : next.Conducted := by
  induction calls generalizing session with
  | nil =>
    cases ran
    exact conducted
  | cons call rest ih =>
    obtain ⟨⟨conducts, flushed⟩, later⟩ := admissible
    unfold run at ran
    rw [foldlM_cons] at ran
    obtain ⟨middle, performed, continued⟩ := bind_ok.mp ran
    rw [performed] at later
    exact ih (conducted.perform conducts flushed performed) later continued

/--
In every run that finds no promotion of a request waiting when it finalizes the request,
each tier is given jobs for a request, and told its end, only between the two
notifications of that request.
-/
theorem run_inOrder (numBlocks : Nat) (name : PolicyName) (rounding : ℚ → ℚ)
    (enableEvents : Bool) (numTiers : Nat) (calls : List (TieringCall Key))
    (ended : TieringSession Key)
    (admissible :
      Admissible (fun session call => session.Conducts call ∧ session.Flushed call)
        (start numBlocks name rounding enableEvents (range numTiers)) calls)
    (ran : (start numBlocks name rounding enableEvents (range numTiers)).run calls = .ok ended) :
    InOrder ended.manager.tierCalls :=
  (conducted_start.run admissible ran).orderly.inOrder

/-- A request of tier 0 whose loads may come from tier 1. -/
def remoteRequest : ReqContext where
  reqId := 1
  loadTiers := [1]

/-- A local request that stores. -/
def storingRequest : ReqContext where
  reqId := 2
  loadTiers := []

/-- A remote request is served by a promotion, a local one stores and finishes early. -/
theorem served_and_stored_inOrder :
    ∃ ended, (start 4 .lru id false (range 2) : TieringSession Nat).run
        [.onNewRequest (some 0) remoteRequest [],
          .lookup (some 0) 8 remoteRequest (fun _ => []) fun _ => .hit,
          .onNewRequest none storingRequest [1],
          .prepareStore [7] storingRequest fun _ => [],
          .endStep,
          .onRequestFinished (some 0) remoteRequest,
          .onRequestFinished none storingRequest,
          .completeStore [7] storingRequest true] =
        .ok ended ∧
      ended.manager.tierCalls.length = 9 ∧ InOrder ended.manager.tierCalls := by
  refine exists_ok_and (by decide +kernel) ?_
  intro ended ran _
  exact run_inOrder 4 .lru id false 2 _ ended (by decide +kernel) ran

/-- A promotion that waits when its request ends is submitted after the end. -/
theorem waitingPromotion_outOfOrder :
    Admissible Conducts (start 4 .lru id false (range 2) : TieringSession Nat)
        [.onNewRequest (some 0) remoteRequest [],
          .lookup (some 0) 8 remoteRequest (fun _ => []) fun _ => .hit,
          .onRequestFinished (some 0) remoteRequest,
          .endStep] ∧
      ∃ ended, (start 4 .lru id false (range 2) : TieringSession Nat).run
            [.onNewRequest (some 0) remoteRequest [],
              .lookup (some 0) 8 remoteRequest (fun _ => []) fun _ => .hit,
              .onRequestFinished (some 0) remoteRequest,
              .endStep] =
            .ok ended ∧
          ended.manager.tierCalls =
            [.onNewRequest 1 remoteRequest, .onRequestFinished 1 remoteRequest,
              .submitLoad 1 ⟨0, [8], [0], true, remoteRequest⟩] ∧
          ¬ InOrder ended.manager.tierCalls := by
  refine ⟨by decide +kernel, ?_⟩
  refine exists_ok_and (by decide +kernel) ?_
  intro ended _ calls inOrder
  rw [calls] at inOrder
  cases inOrder.1

end TieringSession

end VllmCore.Offload
