import VllmCore.P2P.Link

namespace VllmCore.P2P

open Lib List

/-!
# The loads of a client

A client opens a load with a request, completes it with the answer of the peer and keeps
it otherwise.  It sends fetches that ask for blocks only when it opens a load.
-/

/-- The message fetches blocks in a round. -/
def Message.Fetches (kvRequestId : KvRequestId) (roundSeq : RoundSeq) :
    Message → Prop
  | .fetch other keys _ otherSeq => other = kvRequestId ∧ otherSeq = roundSeq ∧ keys ≠ []
  | _ => False

namespace Client

variable {client : Client} {kvId : KvRequestId}

theorem request_setRequest
    (client : Client) (kvId other : KvRequestId) (request : ClientRequestState) :
    (client.setRequest kvId request).request other =
      if other = kvId then request else client.request other :=
  Dict.getD_set _ _ _ _ _

theorem load_setRequest {request : ClientRequestState} :
    (client.setRequest kvId request).load other seq =
      if other = kvId then request.loads.get? seq
      else client.load other seq := by
  unfold load
  rw [request_setRequest]
  split <;> rfl

theorem loads_isEmpty_iff :
    (client.request kvId).loads.entries.isEmpty = true ↔ ∀ seq, client.load kvId seq = none :=
  isEmpty_iff.trans Dict.entries_eq_nil_iff

variable {request : ClientRequestState} {after : Client} {jobId : JobId} {keys : List OffloadKey}

theorem request_of_get? (found : client.requests.get? kvId = some request) :
    client.request kvId = request := by
  rw [Client.request, Dict.getD, found]
  rfl

theorem load_maybePrune : (client.maybePrune kvId).load other seq = client.load other seq := by
  unfold maybePrune
  dsimp only
  split
  · next idle =>
    have empty := (Bool.and_eq_true_iff.mp (Bool.and_eq_true_iff.mp idle).1).1
    unfold load Client.request
    rw [Dict.getD_erase]
    split
    · next same =>
      rw [same]
      exact (loads_isEmpty_iff.mp empty seq).symm
    · rfl
  · rfl

theorem maybePrune_fields :
    (client.maybePrune kvId).events = client.events ∧
      (client.maybePrune kvId).completedLoads = client.completedLoads ∧
      (client.maybePrune kvId).sent = client.sent ∧
      (client.maybePrune kvId).activeLoads = client.activeLoads := by
  unfold maybePrune
  dsimp only
  split <;> exact ⟨rfl, rfl, rfl, rfl⟩

/-! ## Calls without a new or completed load -/

/-- Nothing is asked for, completed or shown. -/
structure Waits (before after : Client) : Prop where
  events : after.events = before.events
  completedLoads : after.completedLoads = before.completedLoads
  sent :
    ∃ messages, after.sent = before.sent ++ messages ∧
      ∀ message ∈ messages, ∀ kvRequestId roundSeq, ¬message.Fetches kvRequestId roundSeq
  loads :
    ∀ kvRequestId roundSeq load, after.load kvRequestId roundSeq = some load →
      ∃ earlier, before.load kvRequestId roundSeq = some earlier ∧ earlier.jobId = load.jobId

theorem Waits.refl (client : Client) : Waits client client :=
  ⟨rfl, rfl, ⟨[], (append_nil _).symm, nofun⟩, fun _ _ load found => ⟨load, found, rfl⟩⟩

theorem Waits.trans (before : Waits first second)
    (later : Waits second third) : Waits first third := by
  obtain ⟨messages, sent, fetchless⟩ := before.sent
  obtain ⟨more, sentLater, fetchlessLater⟩ := later.sent
  refine ⟨later.events.trans before.events,
    later.completedLoads.trans before.completedLoads, ⟨messages ++ more, ?_, ?_⟩, ?_⟩
  · rw [sentLater, sent, append_assoc]
  · intro message mem
    rcases mem_append.mp mem with isFirst | isLater
    · exact fetchless message isFirst
    · exact fetchlessLater message isLater
  · intro kvId seq load found
    obtain ⟨earlier, wasFound, same⟩ := later.loads kvId seq load found
    obtain ⟨first, firstFound, firstSame⟩ := before.loads kvId seq earlier wasFound
    exact ⟨first, firstFound, firstSame.trans same⟩

theorem foldl_waits {Item : Type} (step : Client → Item → Client)
    (each : ∀ client item, Waits client (step client item)) :
    ∀ (items : List Item) (client : Client), Waits client (items.foldl step client)
  | [], client => .refl client
  | item :: rest, client => (each client item).trans (foldl_waits step each rest (step client item))

/-- The loads and what was shown stay; a message that fetches nothing may be sent. -/
theorem waits_of_loads (events : after.events = client.events)
    (completedLoads : after.completedLoads = client.completedLoads) (messages : List Message)
    (sent : after.sent = client.sent ++ messages)
    (fetchless : ∀ message ∈ messages, ∀ kvId seq, ¬message.Fetches kvId seq)
    (loads : ∀ kvId seq load, after.load kvId seq = some load → client.load kvId seq = some load) :
    Waits client after :=
  ⟨events, completedLoads, ⟨messages, sent, fetchless⟩,
    fun kvId seq load found => ⟨load, loads kvId seq load found, rfl⟩⟩

theorem setRequest_loads
    (fewer : ∀ seq load, request.loads.get? seq = some load → client.load kvId seq = some load)
    (other : KvRequestId) (seq : RoundSeq) (load : InboundLoadState)
    (found : (client.setRequest kvId request).load other seq = some load) :
    client.load other seq = some load := by
  rw [load_setRequest] at found
  split at found
  · next same =>
    rw [same]
    exact fewer seq load found
  · exact found

theorem noMessages : ∀ message ∈ ([] : List Message), ∀ kvId seq, ¬message.Fetches kvId seq :=
  nofun

theorem registerLookup_waits : Waits client (client.registerLookup kvId key).2 := by
  unfold registerLookup
  dsimp only
  split <;>
    exact waits_of_loads rfl rfl [] (append_nil _).symm noMessages (setRequest_loads fun _ _ => id)

theorem flushLookups_waits (client : Client) (kvId : KvRequestId) :
    Waits client (client.flushLookups kvId) := by
  unfold flushLookups
  split
  · exact .refl client
  rename_i request found
  split
  · exact .refl client
  refine waits_of_loads rfl rfl [.lookup kvId request.unsent request.roundSeq] rfl ?_ ?_
  · intro message mem
    rw [mem_singleton.mp mem]
    exact fun _ _ => id
  · refine setRequest_loads fun seq state isLoad => ?_
    rw [load, request_of_get? found]
    exact isLoad

theorem flushPendingLookups_waits : Waits client client.flushPendingLookups :=
  (foldl_waits flushLookups flushLookups_waits client.flushPending client).trans
    (waits_of_loads rfl rfl [] (append_nil _).symm noMessages fun _ _ _ => id)

theorem onLookupResp_waits : Waits client (client.onLookupResp kvId keys hits) := by
  unfold onLookupResp
  split
  · exact .refl client
  rename_i request found
  refine waits_of_loads rfl rfl [] (append_nil _).symm noMessages
    (setRequest_loads fun seq state isLoad => ?_)
  rw [load, request_of_get? found]
  exact isLoad

/-- What a finish sends: aborts and the terminal fetch. -/
def finishMessages (kvRequestId : KvRequestId) (request : ClientRequestState) : List Message :=
  abortMessages kvRequestId request.loads ++
    if request.peerLookupOpen then [.fetch kvRequestId [] [] request.roundSeq] else []

theorem finish_sent (found : client.requests.get? kvId = some request) :
    (client.finish kvId).sent = client.sent ++ finishMessages kvId request := by
  unfold finish finishMessages
  rw [found]
  rw [maybePrune_fields.2.2.1]
  by_cases empty : request.loads.entries.isEmpty = true
  · have noAborts : abortMessages kvId request.loads = [] := by
      unfold abortMessages
      rw [isEmpty_iff.mp empty]
      rfl
    rw [if_pos empty, noAborts]
    cases request.peerLookupOpen with
    | false => exact (append_nil _).symm
    | true => rfl
  · rw [if_neg empty]
    cases request.peerLookupOpen with
    | false => exact congrArg _ (append_nil _).symm
    | true => exact append_assoc _ _ _

theorem load_finish :
    (client.finish kvId).load other seq =
      if other = kvId then none else client.load other seq := by
  unfold finish
  split
  · next absent =>
    split
    · next same =>
      rw [same]
      unfold load Client.request
      rw [Dict.getD, absent]
      rfl
    · rfl
  · next request found =>
    rw [load_maybePrune]
    refine load_setRequest.trans ?_
    split
    · rfl
    · split <;> split <;> rfl

theorem finish_waits : Waits client (client.finish kvId) := by
  cases found : client.requests.get? kvId with
  | none =>
    unfold finish
    rw [found]
    exact .refl client
  | some request =>
    refine waits_of_loads ?_ ?_ (finishMessages kvId request) (finish_sent found) ?_ ?_
    · unfold finish
      rw [found]
      refine maybePrune_fields.1.trans ?_
      split <;> split <;> rfl
    · unfold finish
      rw [found]
      refine maybePrune_fields.2.1.trans ?_
      split <;> split <;> rfl
    · intro message mem other seq
      rcases mem_append.mp mem with isAbort | isFetch
      · obtain ⟨entry, _, rfl⟩ := mem_map.mp isAbort
        exact id
      split at isFetch
      · rw [mem_singleton.mp isFetch]
        rintro ⟨_, _, nonempty⟩
        exact nonempty rfl
      · cases isFetch
    · intro other seq load isLoad
      rw [load_finish] at isLoad
      split at isLoad
      · cases isLoad
      · exact isLoad

/-! ## Polling -/

/-- The client holds a load of the job under the round. -/
def Holds (client : Client) (kvRequestId : KvRequestId) (roundSeq : RoundSeq)
    (jobId : JobId) : Prop :=
  ∃ load, client.load kvRequestId roundSeq = some load ∧ load.jobId = jobId

theorem load_abortLoad
    :
    (abortLoad now kvId client entry).load other seq =
      if entry.2.abortedAt.isNone && loadTimeout ≤ now - entry.2.submittedAt then
        if other = kvId ∧ seq = entry.1 then
          some { entry.2 with abortedAt := some now }
        else
          client.load other seq
      else
        client.load other seq := by
  unfold abortLoad
  split
  · refine load_setRequest.trans ?_
    rw [Dict.get?_set]
    by_cases same : other = kvId
    · subst same
      by_cases sameSeq : seq = entry.1 <;> simp [sameSeq, load]
    · simp [same]
  · rfl

section

variable {entry : RoundSeq × InboundLoadState}
    (isEntry : client.Holds kvId entry.1 entry.2.jobId)
include isEntry

variable {now : Time}

theorem holds_abortLoad :
    (abortLoad now kvId client entry).Holds other seq jobId ↔ client.Holds other seq jobId := by
  unfold Holds
  rw [load_abortLoad]
  split
  · split
    · next same =>
      obtain ⟨rfl, rfl⟩ := same
      obtain ⟨load, found, isJob⟩ := isEntry
      rw [found]
      simp [isJob]
    · rfl
  · rfl

theorem abortLoad_waits : Waits client (abortLoad now kvId client entry) := by
  refine ⟨?_, ?_, ?_, ?_⟩
  · unfold abortLoad
    split <;> rfl
  · unfold abortLoad
    split <;> rfl
  · unfold abortLoad
    split
    · refine ⟨[.abortFetch kvId entry.1], rfl, ?_⟩
      intro message mem
      rw [mem_singleton.mp mem]
      exact fun _ _ => id
    · exact ⟨[], (append_nil _).symm, noMessages⟩
  · intro other seq load found
    exact (holds_abortLoad isEntry).mp ⟨load, found, rfl⟩

end

/-- What a walk over loads keeps. -/
structure Walks (before after : Client) : Prop where
  waits : Waits before after
  holds :
    ∀ kvRequestId roundSeq jobId, before.Holds kvRequestId roundSeq jobId →
      after.Holds kvRequestId roundSeq jobId
  activeLoads : after.activeLoads = before.activeLoads

theorem Walks.refl (client : Client) : Walks client client :=
  ⟨.refl client, fun _ _ _ => id, rfl⟩

theorem Walks.trans (before : Walks first second)
    (later : Walks second third) : Walks first third :=
  ⟨before.waits.trans later.waits, fun kvId seq jobId held =>
      later.holds kvId seq jobId (before.holds kvId seq jobId held),
    later.activeLoads.trans before.activeLoads⟩

variable {now : Time}

theorem abortLoads_walks {entries : List (RoundSeq × InboundLoadState)}
    (listed : ∀ entry ∈ entries, client.Holds kvId entry.1 entry.2.jobId) :
    Walks client (entries.foldl (abortLoad now kvId) client) := by
  induction entries generalizing client with
  | nil => exact .refl client
  | cons entry rest ih =>
    have isEntry := listed entry mem_cons_self
    have first : Walks client (abortLoad now kvId client entry) := by
      refine ⟨abortLoad_waits isEntry, fun _ _ _ => (holds_abortLoad isEntry).mpr, ?_⟩
      unfold abortLoad
      split <;> rfl
    exact first.trans (ih fun later mem =>
      first.holds _ _ _ (listed later (mem_cons_of_mem _ mem)))

theorem walkLoads_walks (held : client.Holds kvId seq jobId) :
    ∃ after, walkLoads now client kvId = .ok after ∧ Walks client after := by
  obtain ⟨state, found, _⟩ := held
  cases listed : client.requests.get? kvId with
  | none =>
    rw [load, Client.request, Dict.getD, listed] at found
    cases found
  | some request =>
    have isRequest := request_of_get? listed
    unfold walkLoads
    rw [listed]
    dsimp only
    have nonempty : request.loads.entries.isEmpty = false := by
      rw [← Bool.not_eq_true, ← isRequest, loads_isEmpty_iff]
      intro none
      rw [none seq] at found
      cases found
    rw [nonempty]
    refine ⟨_, rfl, abortLoads_walks ?_⟩
    intro entry mem
    refine ⟨entry.2, ?_, rfl⟩
    rw [load, isRequest]
    exact Dict.get?_eq_some_iff.mpr mem

/-- Requests are listed as active once, and only while they have a load. -/
structure Active (client : Client) : Prop where
  distinct : client.activeLoads.Nodup
  loading :
    ∀ kvRequestId ∈ client.activeLoads, ∃ roundSeq jobId, client.Holds kvRequestId roundSeq jobId

theorem walk_walks {kvRequestIds : List KvRequestId}
    (loading : ∀ kvId ∈ kvRequestIds, ∃ seq jobId, client.Holds kvId seq jobId) :
    ∃ after, kvRequestIds.foldlM (walkLoads now) client = .ok after ∧ Walks client after := by
  induction kvRequestIds generalizing client with
  | nil => exact ⟨client, rfl, .refl client⟩
  | cons kvId rest ih =>
    obtain ⟨_, _, held⟩ := loading kvId mem_cons_self
    obtain ⟨middle, isMiddle, walks⟩ := walkLoads_walks held
    have stillLoading : ∀ other ∈ rest, ∃ seq jobId, middle.Holds other seq jobId := by
      intro other mem
      obtain ⟨seq, jobId, otherHeld⟩ := loading other (mem_cons_of_mem _ mem)
      exact ⟨seq, jobId, walks.holds _ _ _ otherHeld⟩
    obtain ⟨after, isAfter, later⟩ := ih stillLoading
    refine ⟨after, ?_, walks.trans later⟩
    rw [foldlM_cons, isMiddle]
    exact isAfter

/-- Give up the loads whose abort was not acknowledged in time. -/
def giveUp (client : Client) (overdue : List (KvRequestId × RoundSeq)) : Client :=
  overdue.foldl (fun client entry => client.completeLoad entry.1 entry.2 false) client

/-- A poll walks the loads, gives some up and reports; it never raises. -/
theorem collectResults_walks (active : client.Active) (now : Time) :
    ∃ walked, Walks client walked ∧
      client.collectResults now = .ok (walked.giveUp (client.overdue now)).report := by
  obtain ⟨walked, isWalked, walks⟩ := walk_walks active.loading
  refine ⟨walked, walks, ?_⟩
  unfold collectResults
  rw [isWalked]
  rfl

/-! ## Listed requests -/

/-- The list stays and no request loses its last load. -/
theorem Active.of_holds (active : client.Active)
    (activeLoads : after.activeLoads = client.activeLoads)
    (holds : ∀ kvId seq jobId, client.Holds kvId seq jobId → after.Holds kvId seq jobId) :
    after.Active := by
  refine ⟨activeLoads ▸ active.distinct, ?_⟩
  rw [activeLoads]
  intro kvId mem
  obtain ⟨seq, jobId, held⟩ := active.loading kvId mem
  exact ⟨seq, jobId, holds kvId seq jobId held⟩

/-- One request is dropped from the list. -/
theorem Active.drop (active : client.Active)
    (activeLoads : after.activeLoads = client.activeLoads.erase kvId)
    (holds :
      ∀ other seq jobId, other ≠ kvId →
        client.Holds other seq jobId → after.Holds other seq jobId) :
    after.Active := by
  refine ⟨activeLoads ▸ active.distinct.erase kvId, ?_⟩
  rw [activeLoads]
  intro other mem
  rw [active.distinct.mem_erase_iff] at mem
  obtain ⟨seq, jobId, held⟩ := active.loading other mem.2
  exact ⟨seq, jobId, holds other seq jobId mem.1 held⟩

theorem holds_of_load (same : after.load kvId seq = client.load kvId seq)
    (held : client.Holds kvId seq jobId) : after.Holds kvId seq jobId := by
  unfold Holds at held ⊢
  rw [same]
  exact held

theorem setRequest_load (same : request.loads = (client.request kvId).loads)
    (other : KvRequestId) (seq : RoundSeq) :
    (client.setRequest kvId request).load other seq = client.load other seq := by
  rw [load_setRequest]
  split
  · next sameRequest =>
    rw [same, sameRequest]
    rfl
  · rfl

theorem load_openLoad (client : Client) (now : Time) (jobId : JobId) (kvId other : KvRequestId)
    (keys : List OffloadKey) (blockIds : List Nat) (seq : RoundSeq) :
    (client.openLoad now jobId kvId keys blockIds).load other seq =
      if other = kvId ∧ seq = (client.request kvId).roundSeq then
        some ⟨jobId, now, none⟩
      else
        client.load other seq := by
  refine load_setRequest.trans ?_
  rw [Dict.get?_set]
  by_cases same : other = kvId
  · subst same
    by_cases sameSeq : seq = (client.request other).roundSeq <;> simp [sameSeq, load]
  · simp [same]

/-- What follows the fetch changes only the probes. -/
theorem requestBlocks_kept :
    let opened := client.openLoad now jobId kvId keys blockIds
    let after := (client.requestBlocks now jobId kvId keys blockIds).2
    after.events = opened.events ∧ after.completedLoads = opened.completedLoads ∧
      after.sent = opened.sent ∧ after.activeLoads = opened.activeLoads ∧
      ∀ other seq, after.load other seq = opened.load other seq := by
  unfold requestBlocks
  dsimp only
  split
  · exact ⟨rfl, rfl, rfl, rfl, setRequest_load rfl⟩
  · exact ⟨rfl, rfl, rfl, rfl, fun _ _ => rfl⟩

/-! ## Completed loads -/

theorem onLoadTerminal_fields :
    (client.onLoadTerminal kvId).events = client.events ∧
      (client.onLoadTerminal kvId).completedLoads = client.completedLoads ∧
      (client.onLoadTerminal kvId).sent = client.sent ∧
      ∀ other seq, (client.onLoadTerminal kvId).load other seq = client.load other seq := by
  unfold onLoadTerminal
  split
  · obtain ⟨events, ended, sent, _⟩ :=
      maybePrune_fields
    exact ⟨events, ended, sent, fun _ _ => load_maybePrune⟩
  · exact ⟨rfl, rfl, rfl, fun _ _ => rfl⟩

/-- A load is taken out and its result is kept. -/
structure Completes (before : Client) (kvRequestId : KvRequestId) (roundSeq : RoundSeq)
    (result : LoadResult) (after : Client) : Prop where
  events : after.events = before.events
  completedLoads : after.completedLoads = before.completedLoads ++ [result]
  sent : after.sent = before.sent
  loads :
    ∀ other otherSeq, after.load other otherSeq =
      if other = kvRequestId ∧ otherSeq = roundSeq then none
      else before.load other otherSeq

theorem completeLoad_completes
    (found : client.load kvId seq = some state) :
    Completes client kvId seq ⟨state.jobId, kvId, success⟩
      (client.completeLoad kvId seq success) := by
  unfold completeLoad
  rw [found]
  obtain ⟨events, ended, sent, loads⟩ := onLoadTerminal_fields
  refine ⟨events, ended, sent, fun other seq' => (loads other seq').trans ?_⟩
  refine load_setRequest.trans ?_
  rw [Dict.get?_erase]
  by_cases same : other = kvId
  · subst same
    by_cases sameSeq : seq' = seq <;> simp [sameSeq, load]
  · simp [same]

theorem completeLoad_absent (absent : client.load kvId seq = none) :
    client.completeLoad kvId seq success = client := by
  unfold completeLoad
  rw [absent]

/-- A request without loads leaves the list. -/
theorem onLoadTerminal_active (nodup : client.activeLoads.Nodup)
    (loading :
      ∀ other ∈ client.activeLoads, other ≠ kvId → ∃ seq jobId, client.Holds other seq jobId) :
    (client.onLoadTerminal kvId).Active := by
  unfold onLoadTerminal
  split
  · refine ⟨?_, ?_⟩
    · rw [maybePrune_fields.2.2.2]
      exact nodup.erase kvId
    · rw [maybePrune_fields.2.2.2]
      intro other mem
      rw [nodup.mem_erase_iff] at mem
      obtain ⟨seq, jobId, held⟩ := loading other mem.2 mem.1
      exact ⟨seq, jobId, holds_of_load load_maybePrune held⟩
  · next nonempty =>
    refine ⟨nodup, fun other mem => ?_⟩
    by_cases same : other = kvId
    · rw [loads_isEmpty_iff, not_forall] at nonempty
      obtain ⟨seq, isLoad⟩ := nonempty
      obtain ⟨state, found⟩ := Option.ne_none_iff_exists'.mp isLoad
      exact ⟨seq, state.jobId, state, same ▸ found, rfl⟩
    · exact loading other mem same

theorem Active.completeLoad (active : client.Active)
    (kvId : KvRequestId) (seq : RoundSeq) (success : Bool) :
    (client.completeLoad kvId seq success).Active := by
  unfold Client.completeLoad
  split
  · exact active
  refine onLoadTerminal_active active.distinct fun other mem different => ?_
  obtain ⟨seq', jobId, held⟩ := active.loading other mem
  refine ⟨seq', jobId, holds_of_load ?_ held⟩
  exact load_setRequest.trans (if_neg different)

theorem Active.finish (active : client.Active) (kvId : KvRequestId) :
    (client.finish kvId).Active := by
  have others (other : KvRequestId) (seq : RoundSeq) (jobId : JobId) (different : other ≠ kvId)
      (held : client.Holds other seq jobId) :
      (client.finish kvId).Holds other seq jobId :=
    holds_of_load (load_finish.trans (if_neg different)) held
  cases found : client.requests.get? kvId with
  | none =>
    unfold Client.finish
    rw [found]
    exact active
  | some request =>
    by_cases empty : request.loads.entries.isEmpty = true
    · have activeLoads : (client.finish kvId).activeLoads = client.activeLoads := by
        unfold Client.finish
        rw [found]
        refine maybePrune_fields.2.2.2.trans ?_
        split <;> rfl
      refine ⟨activeLoads ▸ active.distinct, ?_⟩
      rw [activeLoads]
      intro other mem
      obtain ⟨seq, jobId, held⟩ := active.loading other mem
      refine ⟨seq, jobId, others other seq jobId ?_ held⟩
      rintro rfl
      obtain ⟨state, isLoad, _⟩ := held
      rw [← request_of_get? found] at empty
      rw [loads_isEmpty_iff.mp empty seq] at isLoad
      cases isLoad
    · refine active.drop ?_ others
      unfold Client.finish
      rw [found]
      refine maybePrune_fields.2.2.2.trans ?_
      split <;> rfl

theorem Active.giveUp (active : client.Active) (overdue : List (KvRequestId × RoundSeq)) :
    (client.giveUp overdue).Active := by
  induction overdue generalizing client with
  | nil => exact active
  | cons entry rest ih => exact ih (active.completeLoad entry.1 entry.2 false)

theorem foldl_flushLookups_fields (kvRequestIds : List KvRequestId) (client : Client) :
    (kvRequestIds.foldl flushLookups client).activeLoads = client.activeLoads ∧
      ∀ other seq, (kvRequestIds.foldl flushLookups client).load other seq =
        client.load other seq := by
  induction kvRequestIds generalizing client with
  | nil => exact ⟨rfl, fun _ _ => rfl⟩
  | cons kvId rest ih =>
    have first : (client.flushLookups kvId).activeLoads = client.activeLoads ∧ ∀ other seq,
        (client.flushLookups kvId).load other seq = client.load other seq := by
      unfold flushLookups
      split
      · exact ⟨rfl, fun _ _ => rfl⟩
      rename_i request found
      split
      · exact ⟨rfl, fun _ _ => rfl⟩
      · refine ⟨rfl, setRequest_load ?_⟩
        rw [request_of_get? found]
    obtain ⟨activeLoads, loads⟩ := ih (client.flushLookups kvId)
    exact ⟨activeLoads.trans first.1, fun other seq => (loads other seq).trans (first.2 other seq)⟩

theorem Active.call (active : client.Active) (op : ClientOp) : (client.call op).Active := by
  cases op with
  | requestBlocks now jobId kvId keys blockIds =>
    have opened : (client.openLoad now jobId kvId keys blockIds).Active := by
      have loads := load_openLoad client now jobId kvId
      refine ⟨active.distinct.insert, ?_⟩
      intro other mem
      by_cases same : other = kvId
      · subst same
        exact ⟨_, jobId, _, (loads other keys blockIds _).trans (if_pos ⟨rfl, rfl⟩), rfl⟩
      have listed := (mem_insert_iff.mp mem).resolve_left same
      obtain ⟨seq, job', held⟩ := active.loading other listed
      exact ⟨seq, job', holds_of_load ((loads other keys blockIds seq).trans
          (if_neg fun both => same both.1)) held⟩
    obtain ⟨_, _, _, activeLoads, loads⟩ := requestBlocks_kept
    exact opened.of_holds activeLoads fun other seq _ => holds_of_load (loads other seq)
  | registerLookup kvId key =>
    have kept : (client.registerLookup kvId key).2.activeLoads = client.activeLoads ∧
        ∀ other seq, (client.registerLookup kvId key).2.load other seq = client.load other seq := by
      unfold Client.registerLookup
      dsimp only
      split <;> exact ⟨rfl, setRequest_load rfl⟩
    exact active.of_holds kept.1 fun other seq _ => holds_of_load (kept.2 other seq)
  | flushPendingLookups =>
    obtain ⟨activeLoads, loads⟩ := foldl_flushLookups_fields client.flushPending client
    exact active.of_holds activeLoads fun other seq _ => holds_of_load (loads other seq)
  | finish kvId => exact active.finish kvId
  | onTransferDone kvId success seq => exact active.completeLoad kvId seq success
  | onAbortAck kvId seq => exact active.completeLoad kvId seq false
  | onLookupResp kvId keys hits =>
    have kept : (client.onLookupResp kvId keys hits).activeLoads = client.activeLoads ∧
        ∀ other seq, (client.onLookupResp kvId keys hits).load other seq =
          client.load other seq := by
      unfold Client.onLookupResp
      split
      · exact ⟨rfl, fun _ _ => rfl⟩
      · next request found =>
        refine ⟨rfl, setRequest_load ?_⟩
        rw [request_of_get? found]
    exact active.of_holds kept.1 fun other seq _ => holds_of_load (kept.2 other seq)
  | collectResults now =>
    obtain ⟨walked, walks, isCollected⟩ := collectResults_walks active now
    have stillActive := active.of_holds walks.activeLoads walks.holds
    simp only [Client.call, isCollected]
    exact (stillActive.giveUp _).of_holds rfl fun _ _ _ => id

end Client

end VllmCore.P2P
