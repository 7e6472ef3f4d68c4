import VllmCore.P2P.ClientLoads
import VllmCore.P2P.FetchLog

namespace VllmCore.P2P

open Function Lib List

/-!
# A server between two channels

While the fetch of a load is on its way, the server has done nothing in its round.  When
an answer is on its way back, the round has ended and none of its transfers is in
flight.  In between, the round of the server is the round of the load.
-/

/-- The message answers the fetch of a round. -/
def Message.Answers (kvRequestId : KvRequestId) (roundSeq : RoundSeq) :
    Message → Prop
  | .transferDone other _ otherSeq | .abortAck other otherSeq =>
    other = kvRequestId ∧ otherSeq = roundSeq
  | _ => False

/-- What surrounds a server during an operation. -/
structure Traffic where
  /-- Messages on their way to the server. -/
  queue : List Message
  /-- Messages on their way back. -/
  back : List Message
  /-- Loads that are going to be reported. -/
  completed : List LoadResult
  /-- Rounds demanded by a fetch that asks for nothing and is being processed. -/
  silent : KvRequestId → RoundSeq → Prop

/-- The load is neither reported nor about to be. -/
def Traffic.Open (traffic : Traffic) (events : List Event) (jobId : JobId) : Prop :=
  ¬Reported events jobId ∧ ∀ result ∈ traffic.completed, result.jobId ≠ jobId

/-- Nothing of the round is left at the server or on its way back. -/
structure Server.Untouched (server : Server) (back : List Message) (kvRequestId : KvRequestId)
    (roundSeq : RoundSeq) : Prop where
  unasked : server.hasDemand kvRequestId roundSeq = false
  landed : server.Landed kvRequestId roundSeq
  unparked : server.pendingAborts.contains (kvRequestId, roundSeq) = false
  unanswered : ∀ message ∈ back, ¬message.Answers kvRequestId roundSeq

structure Apart (traffic : Traffic) (serving : Serving) : Prop where
  log : RoundsApart serving.server.events
  untouched :
    ∀ kvRequestId roundSeq, ∀ message ∈ traffic.queue, message.Fetches kvRequestId roundSeq →
      serving.server.Untouched (traffic.back ++ serving.server.sent) kvRequestId roundSeq
  answered :
    ∀ kvRequestId roundSeq, ∀ message ∈ traffic.back ++ serving.server.sent,
      message.Answers kvRequestId roundSeq → (traffic.silent kvRequestId roundSeq ∨
          serving.server.hasDemand kvRequestId roundSeq = false) ∧
        ∀ tid xfer, serving.server.inflight.get? tid = some xfer →
          xfer.kvRequestId = kvRequestId → xfer.roundKey = roundSeq → xfer.round ∈ serving.failing
  filled :
    ∀ kvRequestId roundSeq, Message.transferDone kvRequestId true roundSeq ∈
        traffic.back ++ serving.server.sent →
      ∃ jobId wanted,
        latestRequest serving.server.events kvRequestId roundSeq = some (jobId, wanted) ∧
          ∀ place ∈ wanted, FilledFor serving.server.events jobId kvRequestId roundSeq place
  asked :
    ∀ kvRequestId roundSeq ref, serving.server.registered kvRequestId roundSeq = some ref →
      (serving.server.rounds ref).demandReceived = true →
        traffic.silent kvRequestId roundSeq ∨ (∃ jobId wanted,
          Asked serving.server.events kvRequestId roundSeq jobId wanted ∧
            traffic.Open serving.server.events jobId) ∧
          ∀ tid xfer, serving.server.inflight.get? tid = some xfer →
            xfer.kvRequestId = kvRequestId → xfer.roundKey = roundSeq → xfer.round = ref
  completed : ∀ result ∈ traffic.completed, LoadAnswered serving.server.events result

/-- The event neither asks, demands nor submits anything and reports no load. -/
def Event.Bystander : Event → Prop
  | .demanded _ _ _ | .wrote _ _ _ _ _ | .requested _ _ _ _ | .loadReported _ => False
  | _ => True

variable {event : Event}

theorem Event.Bystander.unrelated (bystander : event.Bystander)
    (kvId : KvRequestId) (seq : RoundSeq) :
    event.demandOf kvId seq = none ∧ event.requestOf kvId seq = none := by
  cases event with
  | demanded => exact bystander.elim
  | requested => exact bystander.elim
  | _ => exact ⟨rfl, rfl⟩

theorem Event.Bystander.allowed (bystander : event.Bystander) (before : List Event) :
    event.RoundAllows before := by
  cases event with
  | wrote => exact bystander.elim
  | loadReported => exact bystander.elim
  | _ => trivial

namespace Server

variable {server : Server} {kvId : KvRequestId} {seq : RoundSeq} {ref : RoundRef}

theorem hasDemand_iff :
    server.hasDemand kvId seq = true ↔ ∃ ref, server.registered kvId seq = some ref ∧
      (server.rounds ref).demandReceived = true := by
  unfold hasDemand
  split
  · next ref found =>
    constructor
    · exact fun asked => ⟨ref, found, asked⟩
    · rintro ⟨other, found', asked⟩
      cases found.symm.trans found'
      exact asked
  · next free =>
    constructor
    · intro impossible
      cases impossible
    · rintro ⟨other, found', _⟩
      cases free.symm.trans found'

/-- No round gets its demand and no transfer is submitted. -/
structure Shrinks (before after : Server) : Prop where
  demanded :
    ∀ kvRequestId roundSeq ref, after.registered kvRequestId roundSeq = some ref →
      (after.rounds ref).demandReceived = true → before.registered kvRequestId roundSeq = some ref ∧
        (before.rounds ref).demandReceived = true
  inflight : ∀ tid xfer, after.inflight.get? tid = some xfer → before.inflight.get? tid = some xfer

variable {after : Server}

theorem Shrinks.of_same
    (registered :
      ∀ kvId seq ref, after.registered kvId seq = some ref → server.registered kvId seq = some ref)
    (demanded : ∀ ref, (after.rounds ref).demandReceived = (server.rounds ref).demandReceived)
    (inflight :
      ∀ tid xfer, after.inflight.get? tid = some xfer → server.inflight.get? tid = some xfer) :
    Shrinks server after :=
  ⟨fun _ _ ref found asked => ⟨registered _ _ ref found, demanded ref ▸ asked⟩, inflight⟩

theorem Shrinks.of_rest (registered : after.registered = server.registered)
    (rounds : after.rounds = server.rounds) (inflight : after.inflight = server.inflight) :
    Shrinks server after :=
  .of_same (fun _ _ _ => registered ▸ id) (fun _ => rounds ▸ rfl) fun _ _ => inflight ▸ id

theorem Calm.shrinks (calm : Calm server after) : Shrinks server after :=
  .of_same calm.registered (fun ref => (calm.rounds ref).demandReceived) fun _ _ found =>
    calm.inflight ▸ found

theorem EndsXfer.shrinks
    {results : List StoreResult} (ends : EndsXfer success server tid xfer results after) :
    Shrinks server after :=
  .of_same ends.registered ends.demandReceived fun _ _ found =>
    (Dict.get?_erase_eq_some.mp (ends.inflight ▸ found)).2

end Server

variable {jobId : JobId}

theorem Reported.of_append {new events : List Event} (reported : Reported (new ++ events) jobId)
    (other : ∀ event ∈ new, ∀ result, event ≠ .loadReported result) : Reported events jobId := by
  obtain ⟨kvId, success, mem⟩ := reported
  rcases mem_append.mp mem with isNew | old
  · exact absurd rfl (other _ isNew _)
  · exact ⟨kvId, success, old⟩

theorem Traffic.Open.append {traffic : Traffic} {new events : List Event}
    (isOpen : traffic.Open events jobId)
    (other : ∀ event ∈ new, ∀ result, event ≠ .loadReported result) :
    traffic.Open (new ++ events) jobId :=
  ⟨fun reported => isOpen.1 (reported.of_append other), isOpen.2⟩

/-- The latest load of a round has all its places filled. -/
def Satisfied (events : List Event) (kvRequestId : KvRequestId) (roundSeq : RoundSeq) : Prop :=
  ∃ jobId wanted, latestRequest events kvRequestId roundSeq = some (jobId, wanted) ∧
      ∀ place ∈ wanted, FilledFor events jobId kvRequestId roundSeq place

theorem Satisfied.append {new events : List Event} {kvId : KvRequestId} {seq : RoundSeq}
    (satisfied : Satisfied events kvId seq)
    (other : ∀ event ∈ new, event.requestOf kvId seq = none) :
    Satisfied (new ++ events) kvId seq := by
  obtain ⟨jobId, wanted, isLatest, filled⟩ := satisfied
  exact ⟨jobId, wanted, (latestRequest_append other).trans isLatest,
    fun place isWanted => (filled place isWanted).append new⟩

namespace Apart

variable {traffic : Traffic} {before after : Serving}

variable (apart : Apart traffic before) (messages : List Message) (new : List Event)
    (shrinks : Server.Shrinks before.server after.server)
include apart messages new shrinks

/-- Nothing is demanded or submitted; answers come from rounds that ended. -/
theorem answer
    (failing :
      ∀ tid xfer, after.server.inflight.get? tid = some xfer →
        xfer.round ∈ before.failing → xfer.round ∈ after.failing)
    (aborts :
      ∀ kvId seq, after.server.pendingAborts.contains (kvId, seq) = true →
          before.server.pendingAborts.contains (kvId, seq) = true ∨
            ∀ message ∈ traffic.queue, ¬message.Fetches kvId seq)
    (sent : after.server.sent = before.server.sent ++ messages)
    (answers :
      ∀ message ∈ messages, ∀ kvId seq, message.Answers kvId seq →
          (∀ message ∈ traffic.queue, ¬message.Fetches kvId seq) ∧
            after.server.hasDemand kvId seq = false ∧
            ∀ tid xfer, after.server.inflight.get? tid = some xfer →
              xfer.kvRequestId = kvId → xfer.roundKey = seq → xfer.round ∈ after.failing)
    (successes :
      ∀ kvId seq, Message.transferDone kvId true seq ∈ messages →
          Satisfied before.server.events kvId seq)
    (events : after.server.events = new ++ before.server.events)
    (bystanders : ∀ event ∈ new, event.Bystander) : Apart traffic after := by
  have unasked {kvId : KvRequestId} {seq : RoundSeq}
      (wasUnasked : before.server.hasDemand kvId seq = false) :
      after.server.hasDemand kvId seq = false := by
    rw [← Bool.not_eq_true, Server.hasDemand_iff] at wasUnasked ⊢
    rintro ⟨ref, found, asked⟩
    exact wasUnasked ⟨ref, shrinks.demanded _ _ ref found asked⟩
  have onBack {message : Message} (mem : message ∈ traffic.back ++ after.server.sent) :
      message ∈ traffic.back ++ before.server.sent ∨ message ∈ messages := by
    rw [sent, ← append_assoc] at mem
    exact mem_append.mp mem
  refine ⟨?_, ?_, ?_, ?_, ?_, ?_⟩
  · rw [events]
    exact AllAllowed.append apart.log fun event mem => (bystanders event mem).allowed
  · intro kvId seq message mem fetches
    have old := apart.untouched kvId seq message mem fetches
    refine ⟨unasked old.unasked, old.landed.of_inflight shrinks.inflight, ?_, ?_⟩
    · rw [← Bool.not_eq_true]
      intro parked
      rcases aborts kvId seq parked with wasParked | none
      · rw [old.unparked] at wasParked
        cases wasParked
      · exact none message mem fetches
    · intro other otherMember isAnswer
      rcases onBack otherMember with wasSent | isNew
      · exact old.unanswered other wasSent isAnswer
      · exact (answers other isNew kvId seq isAnswer).1 message mem fetches
  · intro kvId seq message mem isAnswer
    rcases onBack mem with wasSent | isNew
    · obtain ⟨wasUnasked, flying⟩ :=
        apart.answered kvId seq message wasSent isAnswer
      refine ⟨wasUnasked.imp id unasked, ?_⟩
      intro tid xfer found isRequest isRound
      exact failing tid xfer found
        (flying tid xfer (shrinks.inflight tid xfer found) isRequest isRound)
    · obtain ⟨_, isUnasked, flying⟩ := answers message isNew kvId seq isAnswer
      exact ⟨.inr isUnasked, flying⟩
  · intro kvId seq mem
    have known : Satisfied before.server.events kvId seq :=
      (onBack mem).elim (apart.filled kvId seq) (successes kvId seq)
    rw [events]
    exact known.append fun event mem => ((bystanders event mem).unrelated _ _).2
  · intro kvId seq ref found isAsked
    obtain ⟨wasFound, wasAsked⟩ := shrinks.demanded kvId seq ref found isAsked
    rcases apart.asked kvId seq ref wasFound wasAsked with
      silent | ⟨⟨jobId, wanted, asked, isOpen⟩, single⟩
    · exact .inl silent
    rw [events]
    refine .inr ⟨⟨jobId, wanted, asked.append fun event mem => (bystanders event mem).unrelated _ _,
      isOpen.append ?_⟩, ?_⟩
    · rintro event mem result rfl
      exact bystanders _ mem
    · exact fun tid xfer isFound => single tid xfer (shrinks.inflight tid xfer isFound)
  · intro result mem
    rw [events]
    refine (apart.completed result mem).append ?_
    intro tid kvId seq storeJobs blocks submitted
    refine submitted.of_append ?_
    rintro _ isNew _ _ _ _ _ rfl
    exact bystanders _ isNew

/-- Nothing is demanded, submitted or answered. -/
theorem quiet (failing : after.failing = before.failing)
    (aborts : after.server.pendingAborts = before.server.pendingAborts)
    (sent : after.server.sent = before.server.sent ++ messages)
    (answers : ∀ message ∈ messages, ∀ kvId seq, ¬message.Answers kvId seq)
    (events : after.server.events = new ++ before.server.events)
    (bystanders : ∀ event ∈ new, event.Bystander) : Apart traffic after := by
  refine apart.answer messages new shrinks ?_ ?_ sent ?_ ?_ events bystanders
  · rw [failing]
    exact fun _ _ _ => id
  · rw [aborts]
    exact fun _ _ => .inl
  · exact fun message mem kvId seq isAnswer => absurd isAnswer (answers message mem kvId seq)
  · exact fun kvId seq mem => absurd ⟨rfl, rfl⟩ (answers _ mem kvId seq)

end Apart

/-! ## Moves -/

section Moves

open Server

variable {traffic : Traffic} {server : Server} {failing : List RoundRef}
    {done : List StoreResult} {kvId : KvRequestId} {seq : RoundSeq} {ref : RoundRef}
    {xfer : InflightXfer} {tid : TransferId} {wanted : List (OffloadKey × Nat)} {jobId : JobId}
    {result : MatchResult} {after : Server}

theorem writeMatched_rest :
    (∀ other, ((server.writeMatched env kvId result ref seq).2.rounds
        other).demandReceived = (server.rounds other).demandReceived) ∧
      (server.writeMatched env kvId result ref seq).2.pendingAborts = server.pendingAborts ∧
      (server.writeMatched env kvId result ref seq).2.sent = server.sent ∧
      ∀ tid xfer, (server.writeMatched env kvId result ref seq).2.inflight.get? tid = some xfer →
          server.inflight.get? tid = some xfer ∨
            xfer = ⟨kvId, result.blocks, result.jobIds, ref, seq⟩ := by
  have sameAsked (round : OutboundRequestState)
      (same : round.demandReceived = (server.rounds ref).demandReceived)
      (other : RoundRef) :
      (update server.rounds ref round other).demandReceived =
        (server.rounds other).demandReceived := by
    by_cases isRef : other = ref
    · subst isRef
      rw [update_self]
      exact same
    · rw [update_of_ne isRef]
  unfold writeMatched
  dsimp only
  split
  · refine ⟨sameAsked _ rfl, rfl, rfl, ?_⟩
    intro tid xfer found
    change (server.inflight.set _ _).get? tid = some xfer at found
    rw [Dict.get?_set] at found
    split at found
    · cases found
      exact .inr rfl
    · exact .inl found
  · exact ⟨sameAsked _ rfl, rfl, rfl, fun _ _ => .inl⟩

/-- A transfer is submitted for the load whose demand the round has. -/
theorem Apart.write (apart : Apart traffic ⟨server, failing, done⟩) (env : Environment)
    (found : server.registered kvId seq = some ref)
    (isAsked : (server.rounds ref).demandReceived = true)
    (loud : ¬traffic.silent kvId seq)
    (wants :
      ∀ wanted, latestDemand server.events kvId seq = some wanted →
        ∀ block ∈ result.blocks, block.want ∈ wanted) :
    Apart traffic
      ⟨(server.writeMatched env kvId result ref seq).2, failing, done⟩ := by
  have hasDemand : server.hasDemand kvId seq = true := hasDemand_iff.mpr ⟨ref, found, isAsked⟩
  obtain ⟨⟨jobId, wanted, asked, isOpen⟩, single⟩ :=
    (apart.asked kvId seq ref found isAsked).resolve_left loud
  have allEvents := (writeMatched_frame env server kvId result ref seq).2
  have registered (other : KvRequestId) (seq' : RoundSeq) :=
    registered_write env server kvId other result ref seq seq'
  obtain ⟨demandReceived, aborts, sent, inflight⟩ := writeMatched_rest
  generalize (server.writeMatched env kvId result ref seq).2 = after at *
  generalize (server.transport.writeBlocks env result.blocks).1 = taken at allEvents
  generalize isWrite : Event.wrote taken kvId seq result.jobIds result.blocks = write at allEvents
  have events : after.events = [write] ++ server.events := allEvents
  have unrelated (other : KvRequestId) (seq' : RoundSeq) : ∀ event ∈ [write],
      event.demandOf other seq' = none ∧ event.requestOf other seq' = none := by
    intro event mem
    rw [mem_singleton.mp mem, ← isWrite]
    exact ⟨rfl, rfl⟩
  have sameDemand (other : KvRequestId) (seq' : RoundSeq) :
      after.hasDemand other seq' = server.hasDemand other seq' := by
    unfold Server.hasDemand
    rw [registered]
    split
    · exact demandReceived _
    · rfl
  have keyed {other : KvRequestId} {seq' : RoundSeq} {tid : TransferId}
      {xfer : InflightXfer}
      (isFound : after.inflight.get? tid = some xfer)
      (isRequest : xfer.kvRequestId = other)
      (isRound : xfer.roundKey = seq')
      (unasked : server.hasDemand other seq' = false) :
      server.inflight.get? tid = some xfer := by
    rcases inflight tid xfer isFound with old | rfl
    · exact old
    · subst isRequest isRound
      rw [hasDemand] at unasked
      cases unasked
  refine ⟨?_, ?_, ?_, ?_, ?_, ?_⟩
  · rw [allEvents, ← isWrite]
    exact ⟨⟨jobId, wanted, asked.latestRequest, isOpen.1, wants wanted asked.latestDemand⟩,
      apart.log⟩
  · intro other seq' message mem fetches
    have old := apart.untouched other seq' message mem fetches
    refine ⟨(sameDemand _ _).trans old.unasked, ?_, ?_, ?_⟩
    · intro tid xfer isFound isKey
      exact old.landed tid xfer (keyed isFound isKey.1 isKey.2 old.unasked) isKey
    · rw [aborts]
      exact old.unparked
    · rw [sent]
      exact old.unanswered
  · intro other seq' message mem isAnswer
    rw [sent] at mem
    obtain ⟨unasked, flying⟩ := apart.answered other seq' message mem isAnswer
    refine ⟨unasked.imp id (sameDemand _ _).trans, ?_⟩
    intro tid xfer isFound isRequest isRound
    rcases inflight tid xfer isFound with old | rfl
    · exact flying tid xfer old isRequest isRound
    subst isRequest isRound
    rcases unasked with silent | wasUnasked
    · exact absurd silent loud
    · rw [hasDemand] at wasUnasked
      cases wasUnasked
  · intro other seq' mem
    rw [sent] at mem
    rw [events]
    exact Satisfied.append (apart.filled other seq' mem) fun event isNew =>
      (unrelated other seq' event isNew).2
  · intro other seq' ref' found' otherAsked
    rw [registered] at found'
    rw [demandReceived] at otherAsked
    rcases apart.asked other seq' ref' found' otherAsked with
      silent | ⟨⟨job', otherWanted, wasAsked, wasOpen⟩, otherSingle⟩
    · exact .inl silent
    rw [events]
    refine .inr ⟨⟨job', otherWanted, wasAsked.append (unrelated other seq'), wasOpen.append ?_⟩, ?_⟩
    · rintro event mem result rfl
      have impossible := mem_singleton.mp mem
      rw [← isWrite] at impossible
      cases impossible
    intro tid xfer isFound isRequest isRound
    rcases inflight tid xfer isFound with old | rfl
    · exact otherSingle tid xfer old isRequest isRound
    · subst isRequest isRound
      exact Option.some.inj (found.symm.trans found')
  · intro loadResult mem
    rw [events]
    refine (apart.completed loadResult mem).append ?_
    intro tid other seq' storeJobs blocks submitted
    rcases SubmittedFor.of_cons submitted with ⟨isNew, _, isLatest⟩ | older
    · rw [← isWrite] at isNew
      cases isNew
      have same := Option.some.inj (asked.latestRequest.symm.trans isLatest)
      exact absurd (congrArg Prod.fst same).symm (isOpen.2 loadResult mem)
    · exact older

/-- What is handed over was asked for. -/
theorem Server.Accounts.limbo_wanted {blocks : List MatchedBlock}
    (accounts : server.Accounts kvId seq ref (blocks.map MatchedBlock.want) wanted filled) :
    ∀ block ∈ blocks, block.want ∈ wanted := by
  intro block mem
  have counted := accounts.places block.want
  have isLimbo := count_pos_iff.mpr (mem_map_of_mem (f := MatchedBlock.want) mem)
  exact count_pos_iff.mp (by omega)

/-- What a fetch finds in its round. -/
structure Fetchable (traffic : Traffic) (server : Server) (kvRequestId : KvRequestId)
    (roundSeq : RoundSeq) (wanted : List (OffloadKey × Nat)) : Prop where
  untouched : server.Untouched (traffic.back ++ server.sent) kvRequestId roundSeq
  requested :
    ∃ jobId, latestRequest server.events kvRequestId roundSeq = some (jobId, wanted) ∧
      traffic.Open server.events jobId

theorem Apart.demand (apart : Apart traffic ⟨server, failing, done⟩)
    (coherent : server.Coherent) (wanted : List (OffloadKey × Nat))
    (found : server.registered kvId seq = some ref)
    (last : ∀ message ∈ traffic.queue, ¬message.Fetches kvId seq)
    (fate : traffic.silent kvId seq ∨ Fetchable traffic server kvId seq wanted) :
    Apart traffic
      ⟨(server.demandRound kvId seq ref wanted).2, failing, done⟩ := by
  have changes := demandRound_changes found wanted
  have demandReceived {ref' : RoundRef} (different : ref' ≠ ref) :
      (server.demandRound kvId seq ref wanted).2.rounds ref' = server.rounds ref' :=
    changes.rounds_other different
  have sameDemand {other : KvRequestId} {seq' : RoundSeq}
      (different : ¬(other = kvId ∧ seq' = seq)) :
      (server.demandRound kvId seq ref wanted).2.hasDemand other seq' =
        server.hasDemand other seq' := by
    unfold Server.hasDemand
    rw [changes.registered]
    split
    · next ref' found' =>
      rw [demandReceived]
      rintro rfl
      exact different (coherent.distinct _ _ _ _ _ found' found)
    · rfl
  have unreporting : ∀ event ∈ [Event.demanded kvId seq wanted],
      ∀ result, event ≠ .loadReported result := by
    rintro event mem result rfl
    cases mem_singleton.mp mem
  refine ⟨⟨trivial, apart.log⟩, ?_, ?_, ?_, ?_, ?_⟩
  · intro other seq' message mem fetches
    have different : ¬(other = kvId ∧ seq' = seq) := by
      rintro ⟨rfl, rfl⟩
      exact last message mem fetches
    have old := apart.untouched other seq' message mem fetches
    exact ⟨(sameDemand different).trans old.unasked, old.landed, old.unparked, old.unanswered⟩
  · intro other seq' message mem isAnswer
    obtain ⟨unasked, flying⟩ := apart.answered other seq' message mem isAnswer
    refine ⟨?_, flying⟩
    by_cases same : other = kvId ∧ seq' = seq
    · obtain ⟨rfl, rfl⟩ := same
      rcases fate with silent | fetchable
      · exact .inl silent
      · exact absurd isAnswer (fetchable.untouched.unanswered message mem)
    · exact unasked.imp id (sameDemand same).trans
  · intro other seq' mem
    rw [changes.events]
    refine Satisfied.append (apart.filled other seq' mem) fun event isNew => ?_
    rw [mem_singleton.mp isNew]
    rfl
  · intro other seq' ref' found' otherAsked
    by_cases same : other = kvId ∧ seq' = seq
    · obtain ⟨rfl, rfl⟩ := same
      rcases fate with silent | ⟨untouched, jobId, isLatest, isOpen⟩
      · exact .inl silent
      · exact .inr ⟨⟨jobId, wanted, ⟨[], server.events, changes.events, nofun, isLatest⟩,
          changes.events ▸ isOpen.append unreporting⟩, fun tid xfer isFound isRequest isRound =>
            absurd ⟨isRequest, isRound⟩ (untouched.landed tid xfer isFound)⟩
    · have different : ref' ≠ ref := by
        rintro rfl
        exact same (coherent.distinct _ _ _ _ _ found' found)
      rw [demandReceived different] at otherAsked
      rcases apart.asked other seq' ref' found' otherAsked with
        silent | ⟨⟨job', otherWanted, wasAsked, wasOpen⟩, single⟩
      · exact .inl silent
      rw [changes.events]
      refine .inr ⟨⟨job', otherWanted, wasAsked.append ?_, wasOpen.append unreporting⟩, single⟩
      intro event mem
      rw [mem_singleton.mp mem]
      refine ⟨if_neg ?_, rfl⟩
      rintro ⟨rfl, rfl⟩
      exact same ⟨rfl, rfl⟩
  · intro result mem
    rw [changes.events]
    refine (apart.completed result mem).append ?_
    intro tid other seq' storeJobs blocks submitted
    refine submitted.of_append ?_
    intro event isNew _ _ _ _ _ isWrite
    rw [mem_singleton.mp isNew] at isWrite
    cases isWrite

theorem Apart.demands {middle : Server} (apart : Apart traffic ⟨server, failing, done⟩)
    (coherent : server.Coherent) (demands : Demands server kvId seq ref wanted middle)
    (found : server.registered kvId seq = some ref)
    (unasked : (server.rounds ref).demandReceived = false)
    (last : ∀ message ∈ traffic.queue, ¬message.Fetches kvId seq)
    (fate :
      traffic.silent kvId seq ∧ wanted = [] ∨ ¬traffic.silent kvId seq ∧
        Fetchable traffic server kvId seq wanted) :
    Apart traffic ⟨middle, failing, done⟩ := by
  have demanded := apart.demand coherent wanted found last (fate.imp And.left And.right)
  have accounts := demandRound_accounts coherent found unasked wanted
  have wants := accounts.limbo_wanted
  cases demands with
  | demand => exact demanded
  | write env matched =>
    rcases fate with ⟨_, rfl⟩ | ⟨loud, _⟩
    · obtain ⟨block, mem⟩ := exists_mem_of_ne_nil _ matched
      cases wants block mem
    refine demanded.write env found ?_ loud ?_
    · rw [(demandRound_changes found wanted).rounds_self]
      exact (demandedRound_round).1
    · intro other isLatest
      cases accounts.latest.symm.trans isLatest
      exact wants

/-- A complete round has filled every place of its load. -/
theorem filled_of_complete (coherent : server.Coherent)
    (found : server.registered kvId seq = some ref)
    (isAsked : (server.rounds ref).demandReceived = true)
    (complete : (server.rounds ref).remaining = 0)
    (asked : Asked server.events kvId seq jobId wanted) :
    ∀ place ∈ wanted, FilledFor server.events jobId kvId seq place := by
  obtain ⟨other, filled, accounts⟩ := coherent.accounts kvId seq ref found isAsked
  cases accounts.latest.symm.trans asked.latestDemand
  intro place mem
  have isFilled := (accounts.filled_perm complete).1.mem_iff.mpr mem
  obtain ⟨tid, storeJobs, blocks, wrote, ended, inBlocks⟩ := accounts.served place isFilled
  obtain ⟨block, blockMember, isPlace⟩ := mem_map.mp inBlocks
  have since : ∀ event ∈ sinceDemand server.events kvId seq, event ∈ server.events :=
    fun _ isSince => (takeWhile_sublist _).subset isSince
  exact ⟨tid, storeJobs, blocks, asked.submitted wrote, since _ ended, block, blockMember,
    isPlace, coherent.sourced tid _ _ storeJobs blocks (since _ wrote) block blockMember⟩

theorem endRound_rest {tell : Bool} :
    (server.endRound kvId seq ref success tell).sent = server.sent ++
        (if tell then [.transferDone kvId success seq] else []) ∧
      (server.endRound kvId seq ref success tell).pendingAborts = server.pendingAborts := by
  unfold endRound settleRoundJobs
  rw [settleJobs_eq]
  cases tell with
  | false => exact ⟨(append_nil _).symm, rfl⟩
  | true => exact ⟨rfl, rfl⟩

theorem Apart.endRound {success tell : Bool} (apart : Apart traffic ⟨server, failing, done⟩)
    (coherent : server.Coherent) (found : server.registered kvId seq = some ref)
    (told : tell = true → ¬traffic.silent kvId seq ∧ server.Quiet ref ∧
        (server.rounds ref).demandReceived = true ∧
          (success = true → (server.rounds ref).remaining = 0)) :
    Apart traffic
      ⟨server.endRound kvId seq ref success tell, failing, done⟩ := by
  have calm := endRound_calm server kvId seq ref success tell
  obtain ⟨sent, aborts⟩ := endRound_rest
  have messages {message : Message} (mem :
        message ∈ if tell then [Message.transferDone kvId success seq] else []) :
      tell = true ∧ message = .transferDone kvId success seq := by
    cases tell with
    | false => cases mem
    | true => exact ⟨rfl, mem_singleton.mp mem⟩
  refine apart.answer _ [] calm.shrinks (fun _ _ _ => id) ?_ sent ?_ ?_ endRound_fields.2.2.1 nofun
  · rw [aborts]
    exact fun _ _ => .inl
  · intro message mem other seq' isAnswer
    obtain ⟨tells, rfl⟩ := messages mem
    obtain ⟨rfl, rfl⟩ := isAnswer
    obtain ⟨loud, quiet, isAsked, _⟩ := told tells
    have hasDemand : server.hasDemand kvId seq = true := hasDemand_iff.mpr ⟨ref, found, isAsked⟩
    refine ⟨?_, ?_, ?_⟩
    · intro other otherMember fetches
      have unasked := (apart.untouched kvId seq other otherMember fetches).unasked
      rw [hasDemand] at unasked
      cases unasked
    · rw [← Bool.not_eq_true, hasDemand_iff]
      rintro ⟨ref', found', _⟩
      rw [registered_endRound, if_pos ⟨rfl, rfl⟩] at found'
      cases found'
    · intro tid xfer isFound isRequest isRound
      rw [calm.inflight] at isFound
      have single := ((apart.asked kvId seq ref found isAsked).resolve_left loud).2
      exact absurd (single tid xfer isFound isRequest isRound) (quiet tid xfer isFound)
  · intro other seq' mem
    obtain ⟨tells, same⟩ := messages mem
    cases same
    obtain ⟨loud, _, isAsked, complete⟩ := told tells
    obtain ⟨⟨jobId, wanted, asked, _⟩, _⟩ :=
      (apart.asked kvId seq ref found isAsked).resolve_left loud
    exact ⟨jobId, wanted, asked.latestRequest,
      filled_of_complete coherent found isAsked (complete rfl) asked⟩

theorem settleDropped_rest
    (success : Bool) (server : Server) (tid : TransferId) (xfer : InflightXfer) :
    ((server.dropInflight tid xfer).settleXferJobs xfer success).2.pendingAborts =
        server.pendingAborts ∧
      ((server.dropInflight tid xfer).settleXferJobs xfer success).2.sent = server.sent := by
  obtain ⟨_, _, _, _, _, _, _, aborts, sent⟩ := dropInflight_fields
  unfold settleXferJobs
  rw [settleJobs_eq]
  exact ⟨aborts, sent⟩

theorem completeXfer_rest :
    (server.completeXfer tid xfer).2.pendingAborts = server.pendingAborts ∧
      (server.completeXfer tid xfer).2.sent = server.sent := by
  have rest := settleDropped_rest true server tid xfer
  unfold completeXfer
  dsimp only
  split <;> exact rest

/-- A failed transfer ends its round and tells so, or its round had ended. -/
theorem failXfer_rest :
    (server.failXfer tid xfer).2.2.pendingAborts = server.pendingAborts ∧
      ((server.failXfer tid xfer).2.2.sent = server.sent ∨ (server.failXfer tid xfer).2.2.sent =
          server.sent ++ [.transferDone xfer.kvRequestId false xfer.roundKey] ∧
        server.registered xfer.kvRequestId xfer.roundKey = some xfer.round ∧
        (server.failXfer tid xfer).2.2.registered xfer.kvRequestId xfer.roundKey = none ∧
        (server.failXfer tid xfer).2.1 = [(xfer.kvRequestId, xfer.round)]) := by
  obtain ⟨aborts, sent⟩ := settleDropped_rest false server tid xfer
  have ends := settleDropped_ends false server tid xfer
  unfold failXfer
  dsimp only
  generalize (server.dropInflight tid xfer).settleXferJobs xfer false = settled
    at aborts sent ends ⊢
  split
  · next registered =>
    refine ⟨aborts, .inr ⟨congrArg (· ++ _) sent, ends.registered _ _ _ registered, ?_, rfl⟩⟩
    show (settled.2.unregister _ _).registered _ _ = none
    rw [registered_unregister, if_pos ⟨rfl, rfl⟩]
  · exact ⟨aborts, .inl sent⟩

theorem Apart.ends (apart : Apart traffic ⟨server, failing, done⟩)
    (ends : EndsXfer success server tid xfer results after)
    (aborts : after.pendingAborts = server.pendingAborts) (sent : after.sent = server.sent)
    (new : List RoundRef) (more : List StoreResult) :
    Apart traffic ⟨after, new ++ failing, more⟩ := by
  refine apart.answer [] [] ends.shrinks (fun _ _ _ => mem_append_right _) ?_
    (sent.trans (append_nil _).symm) nofun nofun ends.events nofun
  rw [aborts]
  exact fun _ _ => .inl

theorem Apart.fail (apart : Apart traffic ⟨server, failing, done⟩) (coherent : server.Coherent)
    (inFlight : server.inflight.get? tid = some xfer)
    (loud : ¬traffic.silent xfer.kvRequestId xfer.roundKey) (more : List StoreResult) :
    Apart traffic
      ⟨(server.failXfer tid xfer).2.2,
        (server.failXfer tid xfer).2.1.map Prod.snd ++ failing, more⟩ := by
  have ends := failXfer_ends server tid xfer
  obtain ⟨aborts, silent | ⟨sent, registered, unregistered, failed⟩⟩ := failXfer_rest
  · exact apart.ends ends aborts silent _ _
  have single :=
    ((apart.asked _ _ _ registered (coherent.asked tid xfer inFlight)).resolve_left loud).2
  refine apart.answer _ [] ends.shrinks (fun _ _ _ => mem_append_right _) ?_ sent ?_
    ?_ ends.events nofun
  · rw [aborts]
    exact fun _ _ => .inl
  · intro message mem other seq' isAnswer
    rw [mem_singleton.mp mem] at isAnswer
    obtain ⟨rfl, rfl⟩ := isAnswer
    refine ⟨?_, ?_, ?_⟩
    · intro message queued fetches
      exact (apart.untouched _ _ message queued fetches).landed tid xfer inFlight ⟨rfl, rfl⟩
    · rw [← Bool.not_eq_true, hasDemand_iff]
      rintro ⟨ref, found, _⟩
      cases unregistered.symm.trans found
    · intro other xfer' found isRequest isRound
      rw [single other xfer' (ends.shrinks.inflight other xfer' found) isRequest isRound]
      rw [failed]
      exact mem_cons_self
  · intro other seq' mem
    cases mem_singleton.mp mem

theorem supplyRound_sameDemand (found : server.registered kvId seq = some ref)
    (found' :
      (server.supplyRound kvId ref blocks jobId now looked).2.registered other
        seq' = some ref') :
    server.registered other seq' = some ref' ∧
      ((server.supplyRound kvId ref blocks jobId now looked).2.rounds
        ref').demandReceived = (server.rounds ref').demandReceived := by
  have changes := supplyRound_changes found blocks jobId now looked
  refine ⟨found', ?_⟩
  by_cases same : ref' = ref
  · subst same
    rw [changes.rounds_self]
    exact addStoredBlocks_round.1
  · rw [changes.rounds_other same]

variable (apart : Apart traffic ⟨server, failing, done⟩)
include apart

theorem Apart.supply (found : server.registered kvId seq = some ref)
    (blocks : List (OffloadKey × Nat)) (now : Time) (looked : Bool) :
    Apart traffic
      ⟨(server.supplyRound kvId ref blocks jobId now looked).2, failing, done⟩ := by
  have changes := supplyRound_changes found blocks jobId now looked
  refine apart.quiet [] _ ⟨?_, ?_⟩ rfl rfl (append_nil _).symm nofun changes.events ?_
  · intro other seq' ref' found' asked
    obtain ⟨wasFound, same⟩ := supplyRound_sameDemand found found'
    exact ⟨wasFound, same.symm.trans asked⟩
  · intro tid xfer isFound
    exact changes.inflight ▸ isFound
  · intro event mem
    rw [mem_singleton.mp mem]
    trivial

theorem Apart.supplyWrite {jobId : JobId} (coherent : server.Coherent) (env : Environment)
    (found : server.registered kvId seq = some ref)
    (blocks : List (OffloadKey × Nat)) (now : Time) (looked : Bool)
    (asked : (server.rounds ref).demandReceived = true)
    (loud : ¬traffic.silent kvId seq) :
    Apart traffic
      ⟨((server.supplyRound kvId ref blocks jobId now looked).2.writeMatched env
          kvId (server.supplyRound kvId ref blocks jobId now looked).1 ref
          seq).2,
        failing, done⟩ := by
  have changes := supplyRound_changes found blocks jobId now looked
  obtain ⟨wanted, filled, accounts⟩ := supplyRound_accounts coherent found asked
  refine (apart.supply found blocks now looked).write env ?_ ?_ loud ?_
  · exact found
  · rw [changes.rounds_self]
    exact addStoredBlocks_round.1.trans asked
  · intro other isLatest
    cases accounts.latest.symm.trans isLatest
    exact accounts.limbo_wanted

/-- A calm change that sends and logs nothing. -/
theorem Apart.calm (calm : Calm server after) (aborts : after.pendingAborts = server.pendingAborts)
    (sent : after.sent = server.sent) (events : after.events = server.events)
    (more : List StoreResult) : Apart traffic ⟨after, failing, more⟩ :=
  apart.quiet [] [] calm.shrinks rfl aborts (sent.trans (append_nil _).symm) nofun events nofun

theorem Apart.opensRound (coherent : server.Coherent)
    (free : server.registered kvId seq = none) :
    Apart traffic
      ⟨(server.openRound kvId seq).2, failing, done⟩ := by
  refine apart.quiet [] [] ⟨?_, ?_⟩ rfl ?_ ?_ nofun (openRound_events _ _ _) nofun
  · intro other seq' ref found asked
    rw [registered_openRound free] at found
    unfold Server.openRound at asked
    rw [free] at asked
    dsimp only at asked
    split at found
    · cases found
      rw [update_self] at asked
      cases asked
    · rw [update_of_ne (ne_of_lt (coherent.roundsBelow _ _ _ found))] at asked
      exact ⟨found, asked⟩
  · rw [openRound_inflight]
    exact fun _ _ => id
  · unfold Server.openRound
    rw [free]
    rfl
  · unfold Server.openRound
    rw [free]
    exact (append_nil _).symm

end Moves

variable {traffic : Traffic} {permit : Permit} {before after : Serving}
    (coherent : before.server.Coherent)
    (isApart : Apart traffic before)
    (undemanding : ∀ kvId seq, ¬permit.demands kvId seq)
    (parking :
      ∀ kvId seq, permit.parks kvId seq → ∀ message ∈ traffic.queue, ¬message.Fetches kvId seq)
    (silence : ∀ kvId seq, traffic.silent kvId seq → ¬permit.stores ∧ ¬permit.tells)
include coherent isApart undemanding parking silence

open Server in
/-- Moves that demand nothing keep the rounds isApart. -/
theorem Move.apart (move : Move permit before after) : Apart traffic after := by
  cases move with
  | @bookkeep server after _ _ same _ _ =>
    obtain ⟨answers, sent, isAnswer⟩ := same.sent
    obtain ⟨new, events, isLookup⟩ := same.events
    refine isApart.quiet answers new same.calm.shrinks rfl same.pendingAborts sent ?_ events ?_
    · intro message mem kvId seq
      obtain ⟨_, _, _, rfl⟩ := isAnswer message mem
      exact id
    · intro event mem
      obtain ⟨ctx, rfl | rfl⟩ := isLookup event mem <;> trivial
  | openRound free _ => exact isApart.opensRound coherent free
  | supply blocks now looked found _ _ => exact isApart.supply found blocks now looked
  | @supplyWrite _ _ _ kvId seq _ env blocks _ now looked found _ permitted asked _ =>
      exact isApart.supplyWrite coherent env found blocks now looked asked fun silent =>
        (silence kvId seq silent).1 permitted
  | demand _ _ _ permitted => exact absurd permitted (undemanding _ _)
  | demandWrite _ _ _ _ permitted _ => exact absurd permitted (undemanding _ _)
  | @finishing server _ _ ref =>
    have calm : Calm server (server.setRound ref { server.rounds ref with finishing := true }) :=
      setRound_calm ⟨rfl, rfl, rfl, rfl, rfl⟩
    exact isApart.calm calm rfl rfl rfl _
  | @endRound _ _ _ kvId seq _ _ _ found _ told =>
    exact isApart.endRound coherent found fun tells =>
      ⟨fun silent => (silence kvId seq silent).2 (told tells).1, (told tells).2⟩
  | @timeout server _ _ jobIds _ =>
    refine isApart.calm (settleJobs_calm false jobIds server) ?_ ?_ ?_ _ <;>
      rw [settleJobs_eq]
  | @takeDeferred server _ _ =>
    have calm : Calm server { server with pendingStoreResults := [] } :=
      ⟨fun _ _ _ => id, fun _ => SameBlocks.refl _, rfl, rfl, rfl, fun _ => id, [], rfl, nofun⟩
    exact isApart.calm calm rfl rfl rfl _
  | @poll server _ _ env =>
    refine isApart.quiet [] _ (.of_rest rfl rfl rfl) rfl rfl (append_nil _).symm nofun
      (append_assoc _ _ _).symm ?_
    intro event mem
    rcases mem_append.mp mem with failed | done
    · obtain ⟨_, _, rfl⟩ := mem_map.mp failed
      trivial
    · obtain ⟨_, _, rfl⟩ := mem_map.mp done
      trivial
  | @complete server _ _ tid xfer _ _ =>
    obtain ⟨aborts, sent⟩ := completeXfer_rest
    exact isApart.ends completeXfer_ends aborts sent [] _
  | fail inFlight _ permitted =>
    exact isApart.fail coherent inFlight (fun silent => (silence _ _ silent).2 permitted) _
  | @cancel server _ _ tid xfer inFlight =>
    obtain ⟨inflight, _, _, _, events, _, _, aborts, sent⟩ := dropInflight_fields
    refine isApart.quiet [] [.ended tid false] (.of_same ?_ ?_ ?_) rfl aborts
      (sent.trans (append_nil _).symm) nofun (congrArg (cons _) events) ?_
    · exact fun _ _ _ => (registered_dropInflight server tid xfer _ _).symm.trans
    · exact fun ref => (dropInflight_rounds server tid xfer ref).1
    · exact fun _ _ found => (Dict.get?_erase_eq_some.mp (inflight ▸ found)).2
    · intro event mem
      rw [mem_singleton.mp mem]
      trivial
  | @failJobs server failing others _ ref mem quiet =>
    have calm := settleRoundJobs_calm server ref false
    refine isApart.answer [] [] calm.shrinks ?_ ?_ ?_ nofun nofun ?_ nofun
    · intro tid xfer found wasFailing
      have wasFlying : server.inflight.get? tid = some xfer := calm.inflight ▸ found
      exact (mem_cons.mp (mem.mem_iff.mp wasFailing)).resolve_left (quiet tid xfer wasFlying)
    all_goals
      unfold failRoundJobs settleRoundJobs
      rw [settleJobs_eq]
    · exact fun _ _ => .inl
    · exact (append_nil _).symm
    · rfl
  | @parkAbort server _ _ abort now permitted =>
    refine isApart.answer [] [] (.of_rest rfl rfl rfl) (fun _ _ _ => id) ?_ (append_nil _).symm
      nofun nofun rfl nofun
    intro kvId seq parked
    by_cases same : (kvId, seq) = abort
    · subst same
      exact .inr (parking kvId seq permitted)
    · refine .inl ?_
      simpa [same] using parked
  | @ackAbort server _ _ kvId seq parked detached drained =>
    refine isApart.answer [.abortAck kvId seq] [] (.of_rest rfl rfl rfl)
      (fun _ _ _ => id) ?_ rfl ?_ (fun _ _ mem => by cases mem_singleton.mp mem)
      rfl nofun
    · intro other seq' isParked
      refine .inl ?_
      change (server.pendingAborts.erase (kvId, seq)).contains _ = true at isParked
      rw [Dict.contains_erase] at isParked
      exact (Bool.and_eq_true_iff.mp isParked).2
    intro message mem other seq' isAnswer
    rw [mem_singleton.mp mem] at isAnswer
    obtain ⟨rfl, rfl⟩ := isAnswer
    refine ⟨?_, ?_, ?_⟩
    · intro message queued fetches
      have unparked := (isApart.untouched _ _ message queued fetches).unparked
      cases unparked.symm.trans parked
    · rw [← Bool.not_eq_true, hasDemand_iff]
      rintro ⟨ref, found, _⟩
      cases detached.symm.trans found
    · intro tid xfer found isRequest isRound
      exact absurd ⟨isRequest, isRound⟩ (drained tid xfer found)
  | report =>
    refine isApart.quiet [] _ (.of_rest rfl rfl rfl) rfl rfl (append_nil _).symm nofun rfl ?_
    intro event mem
    obtain ⟨_, _, rfl⟩ := mem_map.mp mem
    trivial

theorem Moves.apart (moves : Moves permit before after) : Apart traffic after :=
  (moves.keeps (fun serving => serving.server.Coherent ∧ Apart traffic serving)
    (fun _ _ held move =>
      ⟨move.coherent held.1, move.apart held.1 held.2 undemanding parking silence⟩)
    ⟨coherent, isApart⟩).2

end VllmCore.P2P
