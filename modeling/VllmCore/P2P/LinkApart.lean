import VllmCore.P2P.ServerApart

namespace VllmCore.P2P

open Lib List

/-!
# Fetch rounds of a link stay apart

A load asks in the round its client counts.  When nothing of that round is left in the
channels or at the server, what the server sends and transfers in it is for that load.
-/

/-! ## Traffic -/

namespace Apart

variable {traffic : Traffic} {server : Server} {failing : List RoundRef}
  {done : List StoreResult} {kvId : KvRequestId} {seq : RoundSeq}

section

variable (apart : Apart traffic ⟨server, failing, done⟩)
include apart

/-- Less is on its way. -/
theorem weaken
    (queue : ∀ message ∈ less.queue, ∀ kvId seq, message.Fetches kvId seq → message ∈ traffic.queue)
    (back : ∀ message ∈ less.back, message ∈ traffic.back)
    (completed : less.completed = traffic.completed)
    (silent : ∀ kvId seq, traffic.silent kvId seq → less.silent kvId seq) :
    Apart less ⟨server, failing, done⟩ := by
  have onBack {message : Message} (mem : message ∈ less.back ++ server.sent) :
      message ∈ traffic.back ++ server.sent :=
    (mem_append.mp mem).elim (fun isBack => mem_append_left _ (back message isBack))
      (mem_append_right _)
  refine ⟨apart.log, ?_, ?_, ?_, ?_, ?_⟩
  · intro kvId seq message mem fetches
    obtain ⟨unasked, landed, unparked, unanswered⟩ :=
      apart.untouched kvId seq message (queue message mem kvId seq fetches) fetches
    exact ⟨unasked, landed, unparked, fun answer isBack => unanswered answer (onBack isBack)⟩
  · intro kvId seq message mem isAnswer
    obtain ⟨unasked, flying⟩ := apart.answered kvId seq message (onBack mem) isAnswer
    exact ⟨unasked.imp (silent _ _) id, flying⟩
  · exact fun kvId seq mem => apart.filled kvId seq (onBack mem)
  · intro kvId seq ref found isAsked
    refine (apart.asked kvId seq ref found isAsked).imp (silent _ _) ?_
    rintro ⟨⟨jobId, wanted, asked, unreported, uncompleted⟩, single⟩
    exact ⟨⟨jobId, wanted, asked, unreported, completed ▸ uncompleted⟩, single⟩
  · rw [completed]
    exact apart.completed

/-- A round without its demand needs no silence. -/
theorem hear (unasked : ∀ kvId seq, traffic.silent kvId seq → server.hasDemand kvId seq = false) :
    Apart { traffic with silent := fun _ _ => False } ⟨server, failing, done⟩ := by
  refine ⟨apart.log, apart.untouched, ?_, apart.filled, ?_, apart.completed⟩
  · intro kvId seq message mem isAnswer
    obtain ⟨fate, flying⟩ := apart.answered kvId seq message mem isAnswer
    exact ⟨.inr (fate.elim (unasked kvId seq) id), flying⟩
  · intro kvId seq ref found isAsked
    refine .inr ((apart.asked kvId seq ref found isAsked).resolve_left ?_)
    intro silent
    have absent := unasked kvId seq silent
    rw [Server.hasDemand_iff.mpr ⟨ref, found, isAsked⟩] at absent
    cases absent

/-- What the server sent goes on its way. -/
theorem relay :
    Apart { traffic with back := traffic.back ++ server.sent }
      ⟨{ server with sent := [] }, failing, done⟩ := by
  have onBack {message : Message} (mem : message ∈ (traffic.back ++ server.sent) ++ []) :
      message ∈ traffic.back ++ server.sent := by
    rwa [append_nil] at mem
  refine ⟨apart.log, ?_, ?_, ?_, apart.asked, apart.completed⟩
  · intro kvId seq message mem fetches
    obtain ⟨unasked, landed, unparked, unanswered⟩ :=
      apart.untouched kvId seq message mem fetches
    exact ⟨unasked, landed, unparked, fun answer isBack => unanswered answer (onBack isBack)⟩
  · exact fun kvId seq message mem => apart.answered kvId seq message (onBack mem)
  · exact fun kvId seq mem => apart.filled kvId seq (onBack mem)

/-- A load is complete whose round has ended. -/
theorem complete {result : LoadResult} (answered : LoadAnswered server.events result)
    (ended :
      ∀ kvId seq, server.hasDemand kvId seq = true → ∀ wanted,
        latestRequest server.events kvId seq ≠ some (result.jobId, wanted)) :
    Apart { traffic with completed := traffic.completed ++ [result] }
      ⟨server, failing, done⟩ := by
  refine ⟨apart.log, apart.untouched, apart.answered, apart.filled, ?_, ?_⟩
  · intro kvId seq ref found isAsked
    refine (apart.asked kvId seq ref found isAsked).imp id ?_
    rintro ⟨⟨jobId, wanted, asked, unreported, uncompleted⟩, single⟩
    refine ⟨⟨jobId, wanted, asked, unreported, ?_⟩, single⟩
    intro other mem
    rcases mem_append.mp mem with old | isNew
    · exact uncompleted other old
    rw [mem_singleton.mp isNew]
    rintro rfl
    exact ended kvId seq (Server.hasDemand_iff.mpr ⟨ref, found, isAsked⟩) wanted asked.latestRequest
  · intro other mem
    rcases mem_append.mp mem with old | isNew
    · exact apart.completed other old
    · rw [mem_singleton.mp isNew]
      exact answered

end

theorem reports_unrelated (results : List LoadResult) (kvId : KvRequestId) (seq : RoundSeq) :
    ∀ event ∈ results.map Event.loadReported, event.demandOf kvId seq = none ∧
      event.requestOf kvId seq = none := by
  intro event mem
  obtain ⟨_, _, rfl⟩ := mem_map.mp mem
  exact ⟨rfl, rfl⟩

variable {results : List LoadResult} {events : List Event}

/-- The answer of a load outlives reports. -/
theorem answered_reports (answered : LoadAnswered events result) :
    LoadAnswered (results.map Event.loadReported ++ events) result := by
  refine answered.append fun tid _ _ _ _ submitted => submitted.of_append ?_
  intro event mem _ _ _ _ _
  obtain ⟨_, _, rfl⟩ := mem_map.mp mem
  exact nofun

theorem reports_log (log : RoundsApart events)
    (answered : ∀ result ∈ results, LoadAnswered events result) :
    RoundsApart (results.map Event.loadReported ++ events) := by
  induction results with
  | nil => exact log
  | cons result rest ih =>
    exact ⟨answered_reports (answered result mem_cons_self),
      ih fun other mem => answered other (mem_cons_of_mem _ mem)⟩

/-- Complete loads are reported. -/
theorem report (apart : Apart traffic ⟨server, failing, done⟩) :
    Apart { traffic with completed := [] }
      ⟨{ server with events := traffic.completed.map Event.loadReported ++ server.events },
        failing, done⟩ := by
  have unrelated := reports_unrelated traffic.completed
  refine ⟨reports_log apart.log apart.completed, ?_, apart.answered, ?_, ?_, nofun⟩
  · intro kvId seq message mem fetches
    obtain ⟨unasked, landed, unparked, unanswered⟩ :=
      apart.untouched kvId seq message mem fetches
    exact ⟨unasked, landed, unparked, unanswered⟩
  · intro kvId seq mem
    obtain ⟨jobId, wanted, latest, filled⟩ := apart.filled kvId seq mem
    refine ⟨jobId, wanted, ?_, fun place isWanted => (filled place isWanted).append _⟩
    exact (latestRequest_append fun event isNew => (unrelated kvId seq event isNew).2).trans latest
  · intro kvId seq ref found isAsked
    refine (apart.asked kvId seq ref found isAsked).imp id ?_
    rintro ⟨⟨jobId, wanted, asked, unreported, uncompleted⟩, single⟩
    refine ⟨⟨jobId, wanted, asked.append (unrelated kvId seq), ?_, nofun⟩, single⟩
    rintro ⟨other, success, mem⟩
    rcases mem_append.mp mem with isNew | old
    · obtain ⟨result, isCompleted, same⟩ := mem_map.mp isNew
      cases same
      exact uncompleted _ isCompleted rfl
    · exact unreported ⟨other, success, old⟩

/-- A load asks in a round of which nothing is left. -/
theorem request {keys : List OffloadKey}
    (apart : Apart traffic ⟨server, failing, done⟩)
    (untouched : server.Untouched (traffic.back ++ server.sent) kvId seq) :
    Apart { traffic with queue := traffic.queue ++ [.fetch kvId keys blockIds seq] }
      ⟨{ server with
          events :=
            [.requested jobId kvId seq (keys.zip blockIds)] ++ server.events },
        failing, done⟩ := by
  have unrelated {other : KvRequestId} {seq' : RoundSeq}
      (different : ¬(other = kvId ∧ seq' = seq)) :
      ∀ event ∈ [Event.requested jobId kvId seq (keys.zip blockIds)],
        event.demandOf other seq' = none ∧ event.requestOf other seq' = none := by
    intro event mem
    rw [mem_singleton.mp mem]
    refine ⟨rfl, if_neg ?_⟩
    rintro ⟨rfl, rfl⟩
    exact different ⟨rfl, rfl⟩
  refine ⟨⟨trivial, apart.log⟩, ?_, apart.answered, ?_, ?_, ?_⟩
  · intro other seq' message mem fetches
    rcases mem_append.mp mem with old | isNew
    · obtain ⟨unasked, landed, unparked, unanswered⟩ :=
        apart.untouched other seq' message old fetches
      exact ⟨unasked, landed, unparked, unanswered⟩
    · rw [mem_singleton.mp isNew] at fetches
      obtain ⟨rfl, rfl, _⟩ := fetches
      exact ⟨untouched.unasked, untouched.landed, untouched.unparked, untouched.unanswered⟩
  · intro other seq' mem
    obtain ⟨job', wanted, latest, filled⟩ := apart.filled other seq' mem
    refine ⟨job', wanted, ?_, fun place isWanted => (filled place isWanted).append [_]⟩
    refine Eq.trans (latestRequest_append fun event isNew => (unrelated ?_ event isNew).2) latest
    rintro ⟨rfl, rfl⟩
    exact untouched.unanswered _ mem ⟨rfl, rfl⟩
  · intro other seq' ref found isAsked
    refine (apart.asked other seq' ref found isAsked).imp id ?_
    rintro ⟨⟨job', wanted, asked, unreported, uncompleted⟩, single⟩
    refine ⟨⟨job', wanted, asked.append (unrelated ?_), ?_, uncompleted⟩, single⟩
    · rintro ⟨rfl, rfl⟩
      have isDemanded : server.hasDemand other seq' = true :=
        Server.hasDemand_iff.mpr ⟨ref, found, isAsked⟩
      cases untouched.unasked.symm.trans isDemanded
    · intro reported
      refine unreported (Reported.of_append reported ?_)
      rintro event mem result rfl
      cases mem_singleton.mp mem
  · intro result mem
    refine LoadAnswered.append (apart.completed result mem) ?_
    intro tid other seq' storeJobs blocks submitted
    refine submitted.of_append ?_
    intro event isNew _ _ _ _ _ isWrite
    rw [mem_singleton.mp isNew] at isWrite
    cases isWrite

end Apart

/-! ## What the server logs -/

/-- The event is none of the client. -/
def Event.OfServer : Event → Prop
  | .requested _ _ _ _ | .loadReported _ => False
  | _ => True

/-- The log grows by events of the server. -/
def Logs (before after : Server) : Prop :=
  ∃ new, after.events = new ++ before.events ∧ ∀ event ∈ new, event.OfServer

namespace Logs

variable {before after : Server}

theorem of_same (events : after.events = before.events) : Logs before after :=
  ⟨[], events, nofun⟩

theorem of_cons (events : after.events = event :: before.events)
    (ofServer : event.OfServer) : Logs before after :=
  ⟨[event], events, fun _ mem => mem_singleton.mp mem ▸ ofServer⟩

theorem trans (first : Logs before after) (second : Logs after third) : Logs before third := by
  obtain ⟨new, events, ofServer⟩ := first
  obtain ⟨more, moreEvents, moreOfServer⟩ := second
  refine ⟨more ++ new, by rw [moreEvents, events, append_assoc], ?_⟩
  intro event mem
  exact (mem_append.mp mem).elim (moreOfServer event) (ofServer event)

theorem latestRequest (logs : Logs before after) (kvId : KvRequestId) (seq : RoundSeq) :
    latestRequest after.events kvId seq = latestRequest before.events kvId seq := by
  obtain ⟨new, events, ofServer⟩ := logs
  rw [events]
  refine latestRequest_append fun event mem => ?_
  have isOfServer := ofServer event mem
  cases event with
  | requested => exact isOfServer.elim
  | _ => rfl

variable {jobId : JobId}

theorem reported (logs : Logs before after) (wasReported : Reported after.events jobId) :
    Reported before.events jobId := by
  obtain ⟨new, events, ofServer⟩ := logs
  rw [events] at wasReported
  refine wasReported.of_append ?_
  rintro event mem result rfl
  exact ofServer _ mem

theorem requested
    (logs : Logs before after) (mem : Event.requested jobId kvId seq wanted ∈ after.events) :
    Event.requested jobId kvId seq wanted ∈ before.events := by
  obtain ⟨new, events, ofServer⟩ := logs
  rw [events] at mem
  exact (mem_append.mp mem).resolve_left fun isNew => ofServer _ isNew

end Logs

variable {permit : Permit} {before after : Serving}

open Server in
theorem Move.logs (move : Move permit before after) : Logs before.server after.server := by
  have settles (success : Bool) (jobIds : List JobId) (server : Server) :
      Logs server (settleJobs success jobIds server).2 := by
    rw [settleJobs_eq]
    exact .of_same rfl
  have writes (env : Environment) (server : Server) (kvId : KvRequestId)
      (result : MatchResult) (ref : RoundRef) (seq : RoundSeq) :
      Logs server (server.writeMatched env kvId result ref seq).2 :=
    .of_cons (writeMatched_frame env server kvId result ref seq).2 trivial
  cases move with
  | bookkeep same _ _ =>
    obtain ⟨new, events, isLookup⟩ := same.events
    refine ⟨new, events, fun event mem => ?_⟩
    obtain ⟨ctx, rfl | rfl⟩ := isLookup event mem <;> trivial
  | openRound _ _ => exact .of_same (openRound_events _ _ _)
  | supply _ _ _ _ _ _ => exact .of_cons rfl trivial
  | @supplyWrite server _ _ kvId seq ref env blocks jobId now looked =>
    have supplied : Logs server (server.supplyRound kvId ref blocks jobId now looked).2 :=
      .of_cons rfl trivial
    exact supplied.trans (writes env _ kvId _ ref seq)
  | demand _ _ _ _ => exact .of_cons rfl trivial
  | @demandWrite server _ _ kvId seq ref env wanted =>
    have demanded : Logs server (server.demandRound kvId seq ref wanted).2 := .of_cons rfl trivial
    exact demanded.trans (writes env _ kvId _ ref seq)
  | endRound _ _ _ => exact .of_same endRound_fields.2.2.1
  | timeout jobIds _ => exact settles false jobIds _
  | poll env =>
    refine ⟨_, (append_assoc _ _ _).symm, fun event mem => ?_⟩
    rcases mem_append.mp mem with failed | done
    · obtain ⟨_, _, rfl⟩ := mem_map.mp failed
      trivial
    · obtain ⟨_, _, rfl⟩ := mem_map.mp done
      trivial
  | complete _ _ => exact .of_same completeXfer_ends.events
  | fail _ _ _ => exact .of_same (failXfer_ends _ _ _).events
  | @cancel server _ _ tid xfer _ =>
    exact .of_cons (congrArg (cons _) (dropInflight_fields).2.2.2.2.1) trivial
  | failJobs _ _ => exact settles false _ _
  | report =>
    refine ⟨_, rfl, fun event mem => ?_⟩
    obtain ⟨_, _, rfl⟩ := mem_map.mp mem
    trivial
  | _ => exact .of_same rfl

theorem Moves.logs (moves : Moves permit before after) : Logs before.server after.server :=
  moves.keeps (fun serving => Logs before.server serving.server)
    (fun _ _ logs move => logs.trans move.logs) (.of_same rfl)

/-! ## Fetches -/

section Fetches

open Server

variable {server : Server} {kvId : KvRequestId} {seq : RoundSeq}

theorem registered_finalizeAll (keys : List RoundSeq) (server : Server) (kvId : KvRequestId)
    (seq : RoundSeq)
    (listed : server.registered kvId seq ≠ none → seq ∈ keys) :
    (keys.foldl
      (fun server roundKey => server.finalizeRegistered kvId roundKey none false)
      server).registered kvId seq = none := by
  induction keys generalizing server with
  | nil =>
    by_contra registered
    cases listed registered
  | cons roundKey rest ih =>
    refine ih _ ?_
    rw [registered_finalize]
    intro registered
    by_cases same : seq = roundKey
    · rw [if_pos ⟨rfl, same⟩] at registered
      exact absurd rfl registered
    · rw [if_neg fun both => same both.2] at registered
      exact (mem_cons.mp (listed registered)).resolve_left same

/-- A fetch for nothing ends every round of its request. -/
theorem registered_terminalFetch
    (unasked : server.hasDemand kvId seq = false) :
    (server.onFetch env kvId [] indexes seq).2.registered kvId
      seq' = none := by
  unfold onFetch
  rw [unasked]
  refine registered_finalizeAll _ _ _ _ fun registered => ?_
  by_contra absent
  exact registered (Dict.get?_eq_none_iff.mpr absent)

/-- What a fetch for nothing does. -/
def Permit.closing : Permit :=
  { Permit.local with stores := False, tells := False }

variable {queue back : List Message} {completed : List LoadResult} {keys : List OffloadKey}
  {indexes : List Nat}

/-- A fetch keeps the rounds apart. -/
theorem Apart.fetch
    (apart :
      Apart
        ⟨.fetch kvId keys indexes seq :: queue, back, completed, fun _ _ => False⟩ ⟨server, [], []⟩)
    (coherent : server.Coherent) (env : Environment)
    (last : ∀ message ∈ queue, ¬message.Fetches kvId seq)
    (requested :
      keys ≠ [] → ∃ jobId, latestRequest server.events kvId seq = some (jobId, keys.zip indexes) ∧
            Traffic.Open ⟨queue, back, completed, fun _ _ => False⟩ server.events jobId) :
    Apart ⟨queue, back, completed, fun _ _ => False⟩
      ⟨(server.onFetch env kvId keys indexes seq).2, [], []⟩ := by
  have received {traffic : Traffic} (isQueue : traffic.queue = queue)
      (isBack : traffic.back = back) (isCompleted : traffic.completed = completed)
      {current : Server}
      (held : Apart ⟨.fetch kvId keys indexes seq :: queue, back, completed,
        fun _ _ => False⟩ ⟨current, [], []⟩) :
      Apart traffic ⟨current, [], []⟩ := by
    refine held.weaken ?_ ?_ isCompleted fun _ _ => False.elim
    · rw [isQueue]
      exact fun _ mem _ _ _ => mem_cons_of_mem _ mem
    · rw [isBack]
      exact fun _ => id
  by_cases isAsked : server.hasDemand kvId seq = true
  · -- A second fetch of a round is refused.
    unfold onFetch
    rw [if_pos isAsked]
    exact received rfl rfl rfl apart
  have unasked : server.hasDemand kvId seq = false := Bool.not_eq_true _ ▸ isAsked
  obtain ⟨middle, demands, rest⟩ : ∃ middle, Demands (server.openRound kvId seq).2 kvId seq
        (server.openRound kvId seq).1 (keys.zip indexes) middle ∧
      ∀ permit : Permit, (keys = [] → permit.forces ∨ ∀ seq', server.Landed kvId seq') →
          (keys ≠ [] → permit.tells) → Moves permit ⟨middle, [], []⟩
            ⟨(server.onFetch env kvId keys indexes seq).2, [], []⟩ :=
    onFetch_path coherent unasked
  have opening : Moves .local ⟨server, [], []⟩ ⟨(server.openRound kvId seq).2, [], []⟩ :=
    openRound_moves trivial
  have opened :=
    opening.apart coherent apart (fun _ _ => id) (fun _ _ => False.elim) (fun _ _ => False.elim)
  have found := registered_open_self server kvId seq
  have isUnasked := openRound_unasked unasked
  have openedCoherent := opening.coherent coherent
  have middleCoherent := demands.coherent openedCoherent found isUnasked
  by_cases terminal : keys = []
  · subst terminal
    have silenced : Apart ⟨queue, back, completed, fun other seq' => other = kvId ∧ seq' = seq⟩
        ⟨middle, [], []⟩ :=
      (received rfl rfl rfl opened).demands openedCoherent demands found isUnasked last
        (.inl ⟨⟨rfl, rfl⟩, rfl⟩)
    have closed :=
      (rest .closing (fun _ => .inl trivial) fun nonempty => absurd rfl nonempty).apart
        middleCoherent silenced (fun _ _ => id) (fun _ _ => False.elim)
        (fun _ _ _ => ⟨id, id⟩)
    refine closed.hear ?_
    rintro _ _ ⟨rfl, rfl⟩
    rw [← Bool.not_eq_true, hasDemand_iff]
    rintro ⟨ref, isRegistered, _⟩
    rw [registered_terminalFetch unasked] at isRegistered
    cases isRegistered
  · have fetchable : Fetchable ⟨queue, back, completed, fun _ _ => False⟩
        (server.openRound kvId seq).2 kvId seq
        (keys.zip indexes) := by
      refine ⟨opened.untouched kvId seq _ mem_cons_self ⟨rfl, rfl, terminal⟩, ?_⟩
      rw [openRound_events]
      exact requested terminal
    have served : Apart ⟨queue, back, completed, fun _ _ => False⟩ ⟨middle, [], []⟩ :=
      (received rfl rfl rfl opened).demands openedCoherent demands found isUnasked last
        (.inr ⟨id, fetchable⟩)
    exact (rest .local (fun isEmpty => absurd isEmpty terminal) fun _ => trivial).apart
      middleCoherent served (fun _ _ => id) (fun _ _ => False.elim) (fun _ _ => False.elim)

end Fetches

end VllmCore.P2P
