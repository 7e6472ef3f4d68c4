import VllmCore.P2P.LinkApart

namespace VllmCore.P2P

open Lib List Client

/-!
# Loads across a link

The client counts the rounds of a request and forgets the count with the request.  As
long as every load asks in a round of which nothing is left, each load is reported once
its transfers have ended, and as done once its blocks have arrived.
-/

/-- The message takes part in a round. -/
def Message.Concerns (kvRequestId : KvRequestId) (roundSeq : RoundSeq) :
    Message → Prop
  | .fetch other _ _ otherSeq | .abortFetch other otherSeq =>
    other = kvRequestId ∧ otherSeq = roundSeq
  | _ => False

/-- A fetch is the first message of its round. -/
def InOrder (queue : List Message) : Prop :=
  queue.Pairwise fun first second =>
    ∀ kvRequestId roundSeq, second.Fetches kvRequestId roundSeq →
      ¬first.Concerns kvRequestId roundSeq

theorem InOrder.append (ordered : InOrder queue)
    (fetchless : ∀ message ∈ messages, ∀ kvId seq, ¬message.Fetches kvId seq) :
    InOrder (queue ++ messages) := by
  refine pairwise_append.mpr ⟨ordered, ?_, ?_⟩
  · refine pairwise_of_forall_mem_list ?_
    exact fun _ _ second mem kvId seq fetches =>
      absurd fetches (fetchless second mem kvId seq)
  · exact fun _ _ second mem kvId seq fetches =>
      absurd fetches (fetchless second mem kvId seq)

namespace Link

def traffic (link : Link) : Traffic where
  queue := link.toServer
  back := link.toClient
  completed := link.client.completedLoads
  silent := fun _ _ => False

/-- Nothing of the round is left. -/
structure Idle (link : Link) (kvRequestId : KvRequestId) (roundSeq : RoundSeq) : Prop where
  unsent : ∀ message ∈ link.toServer, ¬message.Concerns kvRequestId roundSeq
  untouched : link.server.Untouched link.toClient kvRequestId roundSeq

structure Sound (link : Link) : Prop where
  coherent : link.server.Coherent
  flown : link.server.Flown
  filed : link.server.Filed
  active : link.client.Active
  relayed : link.server.sent = [] ∧ link.client.sent = [] ∧ link.client.events = []
  apart : Apart link.traffic ⟨link.server, [], []⟩
  ordered : InOrder link.toServer
  requested :
    ∀ kvRequestId keys blockIndexes roundSeq,
      Message.fetch kvRequestId keys blockIndexes roundSeq ∈ link.toServer → keys ≠ [] →
        ∃ jobId, latestRequest link.server.events kvRequestId roundSeq =
              some (jobId, keys.zip blockIndexes) ∧
            link.traffic.Open link.server.events jobId
  loads :
    ∀ kvRequestId roundSeq load, link.client.load kvRequestId roundSeq = some load → ∃ wanted,
        latestRequest link.server.events kvRequestId roundSeq = some (load.jobId, wanted) ∧
          link.traffic.Open link.server.events load.jobId
  unique :
    ∀ jobId kvRequestId roundSeq wanted other otherSeq otherWanted,
      Event.requested jobId kvRequestId roundSeq wanted ∈ link.server.events →
        Event.requested jobId other otherSeq otherWanted ∈ link.server.events →
          kvRequestId = other ∧ roundSeq = otherSeq

variable {link : Link} {kvId : KvRequestId} {seq : RoundSeq}

theorem init_sound : init.Sound where
  coherent := Server.init_coherent
  flown := Server.init_flown
  filed := Server.init_filed
  active := ⟨nodup_nil, nofun⟩
  relayed := ⟨rfl, rfl, rfl⟩
  apart :=
    { log := trivial
      untouched := nofun
      answered := nofun
      filled := nofun
      asked := nofun
      completed := nofun }
  ordered := .nil
  requested := nofun
  loads := nofun
  unique := nofun

theorem Sound.settle_eq (sound : link.Sound) : link.settle = link := by
  obtain ⟨client, server, toServer, toClient⟩ := link
  obtain ⟨serverSent, clientSent, clientEvents⟩ := sound.relayed
  obtain ⟨requests, flushPending, activeLoads, completedLoads, sent, events⟩ := client
  dsimp only at serverSent clientSent clientEvents
  subst clientSent clientEvents
  unfold Link.settle
  simp only [append_nil, nil_append, serverSent]
  rw [← serverSent]

section

variable (sound : link.Sound)
include sound

/-- Messages are taken from the channels. -/
theorem Sound.take (shorter : queue.Sublist link.toServer)
    (fewer : back.Sublist link.toClient) :
    { link with toServer := queue, toClient := back }.Sound where
  coherent := sound.coherent
  flown := sound.flown
  filed := sound.filed
  active := sound.active
  relayed := sound.relayed
  apart :=
    sound.apart.weaken (fun _ mem _ _ _ => shorter.subset mem)
      (fun _ mem => fewer.subset mem) rfl fun _ _ => id
  ordered := sound.ordered.sublist shorter
  requested := fun kvId keys indexes seq mem =>
    sound.requested kvId keys indexes seq (shorter.subset mem)
  loads := sound.loads
  unique := sound.unique

/-! ## The server -/

theorem Sound.served {after : Server}
    (shorter : queue.Sublist link.toServer)
    (moves : Moves permit ⟨link.server, [], []⟩ ⟨after, [], []⟩)
    (apart : Apart { link.traffic with queue } ⟨after, [], []⟩) :
    ({ link with server := after, toServer := queue }.settle).Sound := by
  obtain ⟨_, clientSent, clientEvents⟩ := sound.relayed
  have isSettled :
      { link with server := after, toServer := queue }.settle =
        ⟨{ link.client with sent := [], events := [] }, { after with sent := [] }, queue,
          link.toClient ++ after.sent⟩ := by
    unfold Link.settle
    simp only [clientSent, clientEvents, append_nil, nil_append]
  have logs := moves.logs
  have isOpen {jobId : JobId} (wasOpen : link.traffic.Open link.server.events jobId) :
      ¬Reported after.events jobId ∧ ∀ result ∈ link.client.completedLoads, result.jobId ≠ jobId :=
    ⟨fun reported => wasOpen.1 (logs.reported reported), wasOpen.2⟩
  rw [isSettled]
  refine ⟨?_, moves.flown sound.coherent sound.flown, moves.filed sound.filed, ?_,
    ⟨rfl, rfl, rfl⟩, apart.relay, sound.ordered.sublist shorter, ?_, ?_, ?_⟩
  · exact (moves.coherent sound.coherent).calm
      (Server.calm_of_same (fun _ _ => rfl) rfl rfl rfl rfl (nil_append _).symm nofun)
  · exact sound.active.of_holds rfl fun _ _ _ => id
  · intro kvId keys indexes seq mem nonempty
    obtain ⟨jobId, latest, wasOpen⟩ :=
      sound.requested kvId keys indexes seq (shorter.subset mem) nonempty
    exact ⟨jobId, (logs.latestRequest _ _).trans latest, isOpen wasOpen⟩
  · intro kvId seq load found
    obtain ⟨wanted, latest, wasOpen⟩ := sound.loads kvId seq load found
    exact ⟨wanted, (logs.latestRequest _ _).trans latest, isOpen wasOpen⟩
  · intro jobId kvId seq wanted other seq' otherWanted first second
    exact sound.unique jobId kvId seq wanted other seq' otherWanted
      (logs.requested first) (logs.requested second)

/-- What the delivery of an abort does. -/
def aborting (kvRequestId : KvRequestId) (roundSeq : RoundSeq) : Permit :=
  { Permit.local with
    parks := fun other otherSeq => other = kvRequestId ∧ otherSeq = roundSeq }

theorem Sound.deliverToServer (env : Environment) : (link.step (.deliverToServer env)).Sound := by
  unfold Link.step
  dsimp only
  split
  · exact sound
  rename_i message rest isQueue
  have shorter : rest.Sublist link.toServer := isQueue ▸ sublist_cons_self message rest
  have ordered := isQueue ▸ sound.ordered
  have last (other : KvRequestId) (seq' : RoundSeq) (concerns : message.Concerns other seq') :
      ∀ later ∈ rest, ¬later.Fetches other seq' := by
    intro later mem fetches
    exact (pairwise_cons.mp ordered).1 later mem other seq' fetches concerns
  have taken := sound.take shorter (Sublist.refl _)
  cases message with
  | fetch kvId keys indexes seq =>
    have moves : Moves .all ⟨link.server, [], []⟩
          ⟨(link.server.onFetch env kvId keys indexes seq).2, [], []⟩ :=
      Server.onFetch_moves sound.coherent trivial trivial trivial fun _ => .inl trivial
    refine sound.served shorter moves (Apart.fetch ?_ sound.coherent env
      (last kvId seq ⟨rfl, rfl⟩) ?_)
    · rw [← isQueue]
      exact sound.apart
    · exact sound.requested kvId keys indexes seq (isQueue ▸ mem_cons_self)
  | abortFetch kvId seq =>
    have moves : Moves (aborting kvId seq) ⟨link.server, [], []⟩
          ⟨link.server.onAbortFetch env kvId seq, [], []⟩ :=
      Server.onAbortFetch_moves sound.coherent ⟨rfl, rfl⟩ (.inl trivial)
    refine sound.served shorter moves
      (moves.apart sound.coherent taken.apart (fun _ _ => id) ?_ fun _ _ => False.elim)
    rintro _ _ ⟨rfl, rfl⟩
    exact last _ _ ⟨rfl, rfl⟩
  | lookup kvId keys seq =>
    have moves : Moves .local ⟨link.server, [], []⟩
          ⟨link.server.onLookup env kvId keys seq, [], []⟩ :=
      Server.onLookup_moves trivial
    exact sound.served shorter moves
      (moves.apart sound.coherent taken.apart (fun _ _ => id) (fun _ _ => False.elim)
        fun _ _ => False.elim)
  | _ => exact taken

theorem Sound.callServer (newJobs : link.server.NewJobs op) (isLocal : op.Local) :
    (link.callServer op).Sound := by
  have moves := Server.localCall_moves sound.coherent sound.filed newJobs isLocal
  exact sound.served (Sublist.refl _) moves
    (moves.apart sound.coherent sound.apart (fun _ _ => id) (fun _ _ => False.elim)
      fun _ _ => False.elim)

end

/-! ## The client -/

section

variable (sound : link.Sound)
include sound

variable {after : Client} {success : Bool}

/-- The client changes and what it sent and showed is relayed. -/
theorem Sound.relay {events : List Event} (active : after.Active)
    (sent : after.sent = queue) (shown : after.events = events)
    (apart :
      Apart ⟨link.toServer ++ queue, link.toClient, after.completedLoads, fun _ _ => False⟩
        ⟨{ link.server with events := events ++ link.server.events }, [], []⟩)
    (ordered : InOrder (link.toServer ++ queue))
    (harmless : ∀ event ∈ events, event.Harmless link.server.transport.nextId)
    (requested :
      ∀ kvId keys indexes seq, Message.fetch kvId keys indexes seq ∈ link.toServer ++ queue →
          keys ≠ [] → ∃ jobId, latestRequest (events ++ link.server.events) kvId seq =
                  some (jobId, keys.zip indexes) ∧
                ¬Reported (events ++ link.server.events) jobId ∧
                  ∀ result ∈ after.completedLoads, result.jobId ≠ jobId)
    (loads :
      ∀ kvId seq load, after.load kvId seq = some load → ∃ wanted,
          latestRequest (events ++ link.server.events) kvId seq = some (load.jobId, wanted) ∧
            ¬Reported (events ++ link.server.events) load.jobId ∧
              ∀ result ∈ after.completedLoads, result.jobId ≠ load.jobId)
    (unique :
      ∀ jobId kvId seq wanted other seq' otherWanted,
        Event.requested jobId kvId seq wanted ∈ events ++ link.server.events →
          Event.requested jobId other seq' otherWanted ∈ events ++ link.server.events →
            kvId = other ∧ seq = seq') :
    ({ link with client := after }.settle).Sound := by
  subst sent shown
  have isSettled :
      { link with client := after }.settle = ⟨{ after with sent := [], events := [] },
          { link.server with events := after.events ++ link.server.events },
          link.toServer ++ after.sent, link.toClient⟩ := by
    unfold Link.settle
    simp only [sound.relayed.1, append_nil]
  have calm : Server.Calm link.server
        { link.server with events := after.events ++ link.server.events } :=
    Server.calm_of_same (fun _ _ => rfl) rfl rfl rfl rfl rfl harmless
  rw [isSettled]
  exact ⟨sound.coherent.calm calm, sound.flown.calm calm, sound.filed,
    active.of_holds rfl fun _ _ _ => id, ⟨sound.relayed.1, rfl, rfl⟩, apart, ordered,
    requested, loads, unique⟩

theorem Sound.waits (active : after.Active) (waits : Waits link.client after) :
    ({ link with client := after }.settle).Sound := by
  obtain ⟨messages, sent, fetchless⟩ := waits.sent
  rw [sound.relayed.2.1] at sent
  have completed := waits.completedLoads
  refine sound.relay active sent (waits.events.trans sound.relayed.2.2)
    (sound.apart.weaken ?_ (fun _ => id) completed fun _ _ => id)
    (sound.ordered.append fetchless) nofun ?_ ?_ sound.unique
  · intro message mem kvId seq fetches
    exact (mem_append.mp mem).resolve_right fun isNew => fetchless message isNew kvId seq fetches
  · rw [completed]
    intro kvId keys indexes seq mem nonempty
    refine sound.requested kvId keys indexes seq ?_ nonempty
    exact (mem_append.mp mem).resolve_right fun isNew =>
      fetchless _ isNew kvId seq ⟨rfl, rfl, nonempty⟩
  rw [completed]
  intro kvId seq load found
  obtain ⟨earlier, wasFound, same⟩ := waits.loads kvId seq load found
  rw [← same]
  exact sound.loads kvId seq earlier wasFound

variable {load : InboundLoadState}

/-- A load is complete once no transfer of its round is in flight. -/
theorem Sound.answered (found : link.client.load kvId seq = some load)
    (landed : link.server.Landed kvId seq)
    (filled :
      success = true → ∃ jobId wanted,
          latestRequest link.server.events kvId seq = some (jobId, wanted) ∧
            ∀ place ∈ wanted, FilledFor link.server.events jobId kvId seq place) :
    LoadAnswered link.server.events ⟨load.jobId, kvId, success⟩ := by
  obtain ⟨wanted, latest, _⟩ := sound.loads kvId seq load found
  have requested := latestRequest_mem latest
  refine ⟨?_, seq, wanted, requested, ?_⟩
  · intro tid other seq' storeJobs blocks submitted
    obtain ⟨later, before, otherWanted, split, otherLatest⟩ := submitted
    have otherRequested :
        Event.requested load.jobId other seq' otherWanted ∈ link.server.events := by
      rw [split]
      exact mem_append_right _ (mem_cons_of_mem _ (latestRequest_mem otherLatest))
    obtain ⟨rfl, rfl⟩ := sound.unique _ _ _ _ _ _ _ requested otherRequested
    have wrote : Event.wrote (some tid) kvId seq storeJobs blocks ∈ link.server.events := by
      rw [split]
      exact mem_append_right _ mem_cons_self
    rcases (sound.flown tid _ _ _ _ wrote).2 with ended | ⟨xfer, isFlying, sameId, sameSeq, _⟩
    · exact ended
    · exact absurd ⟨sameId, sameSeq⟩ (landed tid xfer isFlying)
  · intro succeeded
    obtain ⟨jobId, otherWanted, otherLatest, all⟩ := filled succeeded
    cases latest.symm.trans otherLatest
    exact all

theorem Sound.completes (active : after.Active)
    (found : link.client.load kvId seq = some load)
    (completes : Completes link.client kvId seq ⟨load.jobId, kvId, success⟩ after)
    (answered : LoadAnswered link.server.events ⟨load.jobId, kvId, success⟩)
    (unasked : link.server.hasDemand kvId seq = false)
    (unfetched : ∀ message ∈ link.toServer, ¬message.Fetches kvId seq) :
    ({ link with client := after }.settle).Sound := by
  obtain ⟨wanted, latest, _⟩ := sound.loads kvId seq load found
  have sameRound {other : KvRequestId} {seq' : RoundSeq}
      {otherWanted : List (OffloadKey × Nat)}
      (otherLatest : latestRequest link.server.events other seq' = some (load.jobId, otherWanted)) :
      kvId = other ∧ seq = seq' :=
    sound.unique _ _ _ _ _ _ _ (latestRequest_mem latest) (latestRequest_mem otherLatest)
  have stillOpen {jobId : JobId} (different : jobId ≠ load.jobId)
      (isOpen : link.traffic.Open link.server.events jobId) :
      ¬Reported link.server.events jobId ∧
        ∀ result ∈ after.completedLoads, result.jobId ≠ jobId := by
    refine ⟨isOpen.1, fun result mem => ?_⟩
    rw [completes.completedLoads] at mem
    rcases mem_append.mp mem with old | isNew
    · exact isOpen.2 result old
    · rw [mem_singleton.mp isNew]
      exact different.symm
  have apart : Apart ⟨link.toServer ++ [], link.toClient, after.completedLoads, fun _ _ => False⟩
        ⟨link.server, [], []⟩ := by
    rw [append_nil, completes.completedLoads]
    refine sound.apart.complete answered fun other seq' isAsked otherWanted otherLatest => ?_
    obtain ⟨rfl, rfl⟩ := sameRound otherLatest
    rw [unasked] at isAsked
    cases isAsked
  refine sound.relay active (completes.sent.trans sound.relayed.2.1)
    (completes.events.trans sound.relayed.2.2) apart ?_ nofun
    ?_ ?_ sound.unique
  · rw [append_nil]
    exact sound.ordered
  · intro other keys indexes seq' mem nonempty
    rw [append_nil] at mem
    obtain ⟨jobId, otherLatest, isOpen⟩ :=
      sound.requested other keys indexes seq' mem nonempty
    refine ⟨jobId, otherLatest, stillOpen ?_ isOpen⟩
    rintro rfl
    obtain ⟨rfl, rfl⟩ := sameRound otherLatest
    exact unfetched _ mem ⟨rfl, rfl, nonempty⟩
  · intro other seq' otherLoad found'
    rw [completes.loads] at found'
    split at found'
    · cases found'
    rename_i different
    obtain ⟨otherWanted, otherLatest, isOpen⟩ := sound.loads other seq' otherLoad found'
    refine ⟨otherWanted, otherLatest, stillOpen ?_ isOpen⟩
    intro same
    rw [same] at otherLatest
    obtain ⟨rfl, rfl⟩ := sameRound otherLatest
    exact different ⟨rfl, rfl⟩

/-- The answer to a fetch or to an abort arrives. -/
theorem Sound.deliverAnswer
    (isBack : link.toClient = message :: rest) (isAnswer : message.Answers kvId seq)
    (succeeds : success = true → message = .transferDone kvId true seq) :
    ({ link with
        client := link.client.completeLoad kvId seq success
        toClient := rest }.settle).Sound := by
  have fewer : rest.Sublist link.toClient := isBack ▸ sublist_cons_self message rest
  have taken := sound.take (Sublist.refl _) fewer
  have mem : message ∈ link.toClient ++ link.server.sent :=
    mem_append_left _ (isBack ▸ mem_cons_self)
  cases found : link.client.load kvId seq with
  | none =>
    rw [completeLoad_absent found]
    rw [← taken.settle_eq] at taken
    exact taken
  | some load =>
    obtain ⟨unasked, flying⟩ := sound.apart.answered kvId seq message mem isAnswer
    refine taken.completes (sound.active.completeLoad _ _ _) found (completeLoad_completes found)
      (taken.answered found ?_ ?_) (unasked.resolve_left id) ?_
    · intro tid xfer isFlying same
      cases flying tid xfer isFlying same.1 same.2
    · intro succeeded
      rw [succeeds succeeded] at mem
      exact sound.apart.filled kvId seq mem
    · intro queued isQueued fetches
      exact (sound.apart.untouched kvId seq queued isQueued fetches).unanswered message mem isAnswer

theorem Sound.deliverToClient : (link.step .deliverToClient).Sound := by
  unfold Link.step
  dsimp only
  split
  · exact sound
  rename_i message rest isBack
  have fewer : rest.Sublist link.toClient := isBack ▸ sublist_cons_self message rest
  have taken := sound.take (Sublist.refl _) fewer
  cases message with
  | transferDone kvId success seq =>
    refine sound.deliverAnswer isBack ⟨rfl, rfl⟩ ?_
    rintro rfl
    rfl
  | abortAck kvId seq => exact sound.deliverAnswer isBack ⟨rfl, rfl⟩ nofun
  | lookupResp kvId keys hits =>
    exact taken.waits (sound.active.call (.onLookupResp kvId keys hits)) onLookupResp_waits
  | _ => exact taken

/-- Complete loads are reported while aborts are sent. -/
theorem Sound.reports {walked : Client} (active : walked.Active)
    (waits : Waits link.client walked) :
    ({ link with client := walked.report.2 }.settle).Sound := by
  have shown : walked.report.2.events = link.client.completedLoads.map Event.loadReported := by
    have noEvents := waits.events.trans sound.relayed.2.2
    unfold report
    rw [noEvents, waits.completedLoads, append_nil]
  obtain ⟨messages, sent, fetchless⟩ := waits.sent
  rw [sound.relayed.2.1] at sent
  have unrelated := Apart.reports_unrelated link.client.completedLoads
  have latest (kvId : KvRequestId) (seq : RoundSeq) : latestRequest
          (link.client.completedLoads.map Event.loadReported ++ link.server.events)
          kvId seq =
        latestRequest link.server.events kvId seq :=
    latestRequest_append fun event mem => (unrelated kvId seq event mem).2
  have stillOpen {jobId : JobId} (isOpen : link.traffic.Open link.server.events jobId) :
      ¬Reported (link.client.completedLoads.map Event.loadReported ++ link.server.events) jobId ∧
        ∀ result ∈ walked.report.2.completedLoads, result.jobId ≠ jobId := by
    refine ⟨?_, nofun⟩
    rintro ⟨other, success, mem⟩
    rcases mem_append.mp mem with isNew | old
    · obtain ⟨result, isCompleted, same⟩ := mem_map.mp isNew
      cases same
      exact isOpen.2 _ isCompleted rfl
    · exact isOpen.1 ⟨other, success, old⟩
  have old {jobId : JobId} {kvId : KvRequestId} {seq : RoundSeq}
      {wanted : List (OffloadKey × Nat)}
      (mem : Event.requested jobId kvId seq wanted ∈
          link.client.completedLoads.map Event.loadReported ++ link.server.events) :
      Event.requested jobId kvId seq wanted ∈ link.server.events := by
    refine (mem_append.mp mem).resolve_left fun isNew => ?_
    obtain ⟨_, _, same⟩ := mem_map.mp isNew
    cases same
  refine sound.relay (active.of_holds rfl fun _ _ _ => id) sent shown
    (sound.apart.report.weaken ?_ (fun _ => id) rfl fun _ _ => id)
    (sound.ordered.append fetchless) ?_ ?_ ?_ ?_
  · intro message mem kvId seq fetches
    exact (mem_append.mp mem).resolve_right fun isNew => fetchless message isNew kvId seq fetches
  · intro event mem
    obtain ⟨_, _, rfl⟩ := mem_map.mp mem
    trivial
  · intro kvId keys indexes seq mem nonempty
    have wasQueued :=
      (mem_append.mp mem).resolve_right fun isNew =>
        fetchless _ isNew kvId seq ⟨rfl, rfl, nonempty⟩
    obtain ⟨jobId, wasLatest, isOpen⟩ :=
      sound.requested kvId keys indexes seq wasQueued nonempty
    exact ⟨jobId, (latest _ _).trans wasLatest, stillOpen isOpen⟩
  · intro kvId seq load found
    obtain ⟨earlier, wasFound, same⟩ := waits.loads kvId seq load found
    obtain ⟨wanted, wasLatest, isOpen⟩ := sound.loads kvId seq earlier wasFound
    rw [← same]
    exact ⟨wanted, (latest _ _).trans wasLatest, stillOpen isOpen⟩
  · intro jobId kvId seq wanted other seq' otherWanted first second
    exact sound.unique _ _ _ _ _ _ _ (old first) (old second)

end

variable {jobId : JobId}

/-- A load that was reported had asked. -/
theorem reported_requested {events : List Event} (log : RoundsApart events)
    (reported : Reported events jobId) :
    ∃ kvId seq wanted, Event.requested jobId kvId seq wanted ∈ events := by
  induction events with
  | nil =>
    obtain ⟨_, _, mem⟩ := reported
    cases mem
  | cons event rest ih =>
    obtain ⟨kvId, success, mem⟩ := reported
    rcases mem_cons.mp mem with rfl | old
    · obtain ⟨_, seq, wanted, requested, _⟩ := log.1
      exact ⟨kvId, seq, wanted, mem_cons_of_mem _ requested⟩
    · obtain ⟨other, seq, wanted, requested⟩ :=
        ih log.2 ⟨kvId, success, old⟩
      exact ⟨other, seq, wanted, mem_cons_of_mem _ requested⟩

theorem Sound.new_open (sound : link.Sound)
    (new : ∀ kvId seq wanted, Event.requested jobId kvId seq wanted ∉ link.server.events) :
    link.traffic.Open link.server.events jobId := by
  refine ⟨fun reported => ?_, ?_⟩
  · obtain ⟨_, _, _, requested⟩ := reported_requested sound.apart.log reported
    exact new _ _ _ requested
  · rintro result mem rfl
    obtain ⟨_, _, _, requested, _⟩ := sound.apart.completed result mem
    exact new _ _ _ requested

/-- A load asks in a round of which nothing is left. -/
theorem Sound.opens {after : Client} {keys : List OffloadKey}
    (sound : link.Sound) (active : after.Active)
    (sent : after.sent = [.fetch kvId keys blockIds seq])
    (shown : after.events = [.requested jobId kvId seq (keys.zip blockIds)])
    (completed : after.completedLoads = link.client.completedLoads)
    (loads :
      ∀ other seq', after.load other seq' =
          if other = kvId ∧ seq' = seq then some ⟨jobId, now, none⟩
          else link.client.load other seq')
    (new : ∀ kvId seq wanted, Event.requested jobId kvId seq wanted ∉ link.server.events)
    (idle : link.Idle kvId seq) : ({ link with client := after }.settle).Sound := by
  have isOpen := sound.new_open new
  have latestSelf : latestRequest
          ([.requested jobId kvId seq (keys.zip blockIds)] ++ link.server.events)
          kvId seq = some (jobId, keys.zip blockIds) := by
    simp [latestRequest, Event.requestOf]
  have latestOther {other : KvRequestId} {seq' : RoundSeq}
      (different : ¬(other = kvId ∧ seq' = seq)) :
      latestRequest ([.requested jobId kvId seq (keys.zip blockIds)] ++ link.server.events)
          other seq' = latestRequest link.server.events other seq' := by
    refine latestRequest_append fun event mem => ?_
    rw [mem_singleton.mp mem]
    refine if_neg ?_
    rintro ⟨rfl, rfl⟩
    exact different ⟨rfl, rfl⟩
  have stillOpen {other : JobId} (wasOpen : link.traffic.Open link.server.events other) : ¬Reported
          ([.requested jobId kvId seq (keys.zip blockIds)] ++ link.server.events)
          other ∧
        ∀ result ∈ after.completedLoads, result.jobId ≠ other := by
    refine ⟨fun reported => wasOpen.1 (Reported.of_append reported ?_), completed ▸ wasOpen.2⟩
    rintro event mem result rfl
    cases mem_singleton.mp mem
  have onBack : link.toClient ++ link.server.sent = link.toClient := by
    rw [sound.relayed.1, append_nil]
  refine sound.relay active sent shown ?_ ?_ ?_ ?_ ?_ ?_
  · rw [completed]
    exact sound.apart.request (onBack.symm ▸ idle.untouched)
  · refine pairwise_append.mpr ⟨sound.ordered, pairwise_singleton _ _, ?_⟩
    intro first mem second isNew other seq' fetches
    rw [mem_singleton.mp isNew] at fetches
    obtain ⟨rfl, rfl, _⟩ := fetches
    exact idle.unsent first mem
  · intro event mem
    rw [mem_singleton.mp mem]
    trivial
  · intro other otherKeys indexes seq' mem nonempty
    rcases mem_append.mp mem with old | isNew
    · obtain ⟨job', latest, wasOpen⟩ :=
        sound.requested other otherKeys indexes seq' old nonempty
      refine ⟨job', (latestOther ?_).trans latest, stillOpen wasOpen⟩
      rintro ⟨rfl, rfl⟩
      exact idle.unsent _ old ⟨rfl, rfl⟩
    · cases mem_singleton.mp isNew
      exact ⟨jobId, latestSelf, stillOpen isOpen⟩
  · intro other seq' load found
    rw [loads] at found
    split at found
    · next same =>
      obtain ⟨rfl, rfl⟩ := same
      cases found
      exact ⟨_, latestSelf, stillOpen isOpen⟩
    · next different =>
      obtain ⟨wanted, latest, wasOpen⟩ := sound.loads other seq' load found
      exact ⟨wanted, (latestOther different).trans latest, stillOpen wasOpen⟩
  · intro job' first firstSeq firstWanted second secondSeq secondWanted isFirst isSecond
    rcases mem_append.mp isFirst with firstNew | firstOld <;>
      rcases mem_append.mp isSecond with secondNew | secondOld
    · cases mem_singleton.mp firstNew
      cases mem_singleton.mp secondNew
      exact ⟨rfl, rfl⟩
    · cases mem_singleton.mp firstNew
      exact absurd secondOld (new _ _ _)
    · cases mem_singleton.mp secondNew
      exact absurd firstOld (new _ _ _)
    · exact sound.unique _ _ _ _ _ _ _ firstOld secondOld

/-! ## Runs -/

/-- No abort is given up. -/
def Timely (link : Link) : LinkOp → Prop
  | .client (.collectResults now) => link.client.overdue now = []
  | _ => True

/-- Every load asks in a round of which nothing is left. -/
def AsksIdleRound (link : Link) : LinkOp → Prop
  | .client (.requestBlocks _ _ kvRequestId _ _) =>
    link.Idle kvRequestId (link.client.request kvRequestId).roundSeq
  | _ => True

theorem Sound.callClient {op : ClientOp} (sound : link.Sound)
    (promised : link.Promised (.client op)) (timely : link.Timely (.client op))
    (idle : link.AsksIdleRound (.client op)) : (link.callClient op).Sound := by
  have active := sound.active.call op
  cases op with
  | requestBlocks now jobId kvId keys blockIds =>
    obtain ⟨events, completed, sent, _, loads⟩ := requestBlocks_kept
    have isSent := sent.trans (congrArg (· ++ _) sound.relayed.2.1)
    have isShown := events.trans (congrArg (cons _) sound.relayed.2.2)
    exact sound.opens active isSent isShown completed (fun other seq' => (loads other seq').trans
        (load_openLoad link.client now jobId kvId other keys blockIds seq'))
      promised.2 idle
  | registerLookup kvId key => exact sound.waits active registerLookup_waits
  | flushPendingLookups => exact sound.waits active flushPendingLookups_waits
  | finish kvId => exact sound.waits active finish_waits
  | collectResults now =>
    obtain ⟨walked, walks, isCollected⟩ := collectResults_walks sound.active now
    have isOverdue : link.client.overdue now = [] := timely
    rw [isOverdue] at isCollected
    have isCalled : link.client.call (.collectResults now) = walked.report.2 := by
      simp only [call, isCollected]
      rfl
    unfold Link.callClient
    rw [isCalled]
    exact sound.reports (sound.active.of_holds walks.activeLoads walks.holds) walks.waits
  | _ => exact promised.elim

theorem Reached.sound
    (reached : Reached (fun link op => link.Timely op ∧ link.AsksIdleRound op) link) :
    link.Sound := by
  induction reached with
  | init => exact init_sound
  | @step link op _ promised allowed sound =>
    cases op with
    | client op => exact sound.callClient promised allowed.1 allowed.2
    | server op => exact sound.callServer promised.2 promised.1
    | deliverToServer env => exact sound.deliverToServer env
    | deliverToClient => exact sound.deliverToClient

/-- A load of one block asks and the server gets it. -/
def askedLink : Link :=
  (init.step (.client (.requestBlocks 0 1 0 [7] [5]))).step
    (.deliverToServer (quietEnvironment .proc))

theorem askedLink_reached (Allowed : Link → LinkOp → Prop)
    (asks : Allowed init (.client (.requestBlocks 0 1 0 [7] [5])))
    (delivers :
      Allowed (init.step (.client (.requestBlocks 0 1 0 [7] [5])))
        (.deliverToServer (quietEnvironment .proc))) :
    Reached Allowed askedLink :=
  .step (.step .init ⟨rfl, nofun⟩ asks) trivial delivers

/-- The block is stored and its transfer is done. -/
def filledLink : Link :=
  (askedLink.step (.server (.addStoredBlocks (quietEnvironment .proc) 0 [7] [3] 10))).step
    (.server (.collectResults (quietEnvironment .done)))

theorem filledLink_reached (reached : Reached Allowed askedLink)
    (stores : Allowed askedLink (.server (.addStoredBlocks (quietEnvironment .proc) 0 [7] [3] 10)))
    (polls :
      Allowed
        (askedLink.step (.server (.addStoredBlocks (quietEnvironment .proc) 0 [7] [3] 10)))
        (.server (.collectResults (quietEnvironment .done)))) :
    Reached Allowed filledLink := by
  refine .step (.step reached ⟨trivial, ?_⟩ stores) ⟨trivial, trivial⟩ polls
  intro kvId blocks mem
  have events : askedLink.server.events = [.demanded 0 0 [(7, 5)], .requested 1 0 0 [(7, 5)]] := by
    decide
  rw [events] at mem
  simp at mem

end Link

end VllmCore.P2P
