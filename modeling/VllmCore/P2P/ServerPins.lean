import VllmCore.Lib.Trace
import VllmCore.P2P.ServerFlights

namespace VllmCore.P2P

open Function Lib List

/-!
# Pins cover every read

A store job pins its blocks until its result is reported.  A transfer may read a block
only from a job that stored the block under the key and is still to be reported, and a
job may be reported only when every transfer built from its blocks has left the
transport.

Every job belongs to one round, and its blocks are read by one transfer at most: that
keeps the results a poll reports away from the transfers in flight, unless a round is
ended or a job times out while its blocks are in use.
-/

/-! ## The property of a log -/

variable (before : List Event)

/-- Every block is read from a job that stored it and was not reported. -/
def ReadsPinned (jobIds : List JobId) (blocks : List MatchedBlock) : Prop :=
  ∀ block ∈ blocks, ∃ jobId ∈ jobIds, Server.Stored before jobId block.source ∧
      ∀ success, Event.storeReported ⟨jobId, success⟩ ∉ before

/-- Every transfer built from blocks of the job has left the transport. -/
def Released (jobId : JobId) : Prop :=
  ∀ tid kvRequestId roundSeq jobIds blocks,
    Event.wrote (some tid) kvRequestId roundSeq jobIds blocks ∈ before →
      jobId ∈ jobIds → ∃ done, Event.ended tid done ∈ before

def Event.PinsAllow : Event → Prop
  | .wrote _ _ _ jobIds blocks => ReadsPinned before jobIds blocks
  | .storeReported result => Released before result.jobId
  | _ => True

/-- Pins cover every read of a log. -/
def PinsCover : List Event → Prop :=
  AllAllowed Event.PinsAllow

/-- Neither a transfer nor a report. -/
def Event.Unpinned : Event → Prop
  | .wrote _ _ _ _ _ | .storeReported _ => False
  | _ => True

theorem Event.Unpinned.allowed {event : Event} (unpinned : event.Unpinned) (before : List Event) :
    event.PinsAllow before := by
  cases event with
  | wrote => exact unpinned.elim
  | storeReported => exact unpinned.elim
  | _ => trivial

theorem PinsCover.append {new before : List Event} (covered : PinsCover before)
    (unpinned : ∀ event ∈ new, event.Unpinned) : PinsCover (new ++ before) :=
  AllAllowed.append covered fun event mem => (unpinned event mem).allowed

theorem Released.report {before : List Event} {jobId : JobId} (released : Released before jobId)
    (results : List StoreResult) : Released (results.map Event.storeReported ++ before) jobId := by
  intro tid kvId seq jobIds blocks wrote mem
  rcases mem_append.mp wrote with isReport | old
  · obtain ⟨_, _, absurd'⟩ := mem_map.mp isReport
    cases absurd'
  · obtain ⟨done, ended⟩ := released tid kvId seq jobIds blocks old mem
    exact ⟨done, mem_append_right _ ended⟩

theorem PinsCover.report {before : List Event} (covered : PinsCover before)
    (results : List StoreResult) (released : ∀ result ∈ results, Released before result.jobId) :
    PinsCover (results.map Event.storeReported ++ before) :=
  AllAllowed.map covered fun result mem => (released result mem).report

namespace Server

/-! ## What keeps the property -/

/-- Some store job with this id brought blocks. -/
def Used (events : List Event) (jobId : JobId) : Prop :=
  ∃ kvRequestId blocks, Event.stored kvRequestId jobId blocks ∈ events

/-- The round has a claim on the job. -/
def Owns (server : Server) (ref : RoundRef) (jobId : JobId) : Prop :=
  jobId ∈ (server.rounds ref).pendingJobIds ∨
    (∃ key localIdx, (server.rounds ref).available.get? key = some (jobId, localIdx)) ∨
    ∃ tid xfer, server.inflight.get? tid = some xfer ∧ xfer.round = ref ∧ jobId ∈ xfer.jobIds

/-- The round is registered and waits for its fetch. -/
def Waiting (server : Server) (ref : RoundRef) : Prop :=
  (∃ kvRequestId roundSeq, server.registered kvRequestId roundSeq = some ref) ∧
    (server.rounds ref).demandReceived = false

end Server

/-- A result of the job was reported or is on its way. -/
def Serving.Settled (serving : Serving) (jobId : JobId) : Prop :=
  (∃ success, Event.storeReported ⟨jobId, success⟩ ∈ serving.server.events) ∨
    ∃ result ∈ serving.collected ++ serving.server.pendingStoreResults, result.jobId = jobId

structure Pinned (serving : Serving) : Prop where
  log : PinsCover serving.server.events
  owned : ∀ ref jobId, serving.server.Owns ref jobId → Server.Used serving.server.events jobId
  listed : ∀ jobId, serving.server.storeJobs.contains jobId = true →
    Server.Used serving.server.events jobId
  settled : ∀ jobId, serving.Settled jobId → Server.Used serving.server.events jobId
  homes :
    ∀ ref other jobId, serving.server.Owns ref jobId → serving.server.Owns other jobId → ref = other
  single :
    ∀ tid xfer other otherXfer jobId, serving.server.inflight.get? tid = some xfer →
      serving.server.inflight.get? other = some otherXfer → jobId ∈ xfer.jobIds →
        jobId ∈ otherXfer.jobIds → tid = other
  live :
    ∀ ref key jobId localIdx, serving.server.Waiting ref →
      (serving.server.rounds ref).available.get? key = some (jobId, localIdx) →
        serving.server.storeJobs.contains jobId = true
  unsettled : ∀ jobId, serving.server.storeJobs.contains jobId = true → ¬serving.Settled jobId
  landed :
    ∀ jobId, serving.Settled jobId →
      ∀ tid xfer, serving.server.inflight.get? tid = some xfer → jobId ∉ xfer.jobIds
  failingAsked :
    ∀ ref ∈ serving.failing, ref < serving.server.nextRound ∧
      (serving.server.rounds ref).demandReceived = true

theorem init_pinned : Pinned ⟨.init, [], []⟩ where
  log := trivial
  owned := by
    rintro ref jobId (mem | ⟨key, idx, found⟩ | ⟨tid, xfer, found, _⟩)
    · cases mem
    all_goals cases found
  listed := nofun
  settled := by
    rintro jobId (⟨_, mem⟩ | ⟨_, mem, _⟩)
    all_goals cases mem
  homes := by
    rintro ref other jobId (mem | ⟨key, idx, found⟩ | ⟨tid, xfer, found, _⟩) _
    · cases mem
    all_goals cases found
  single := nofun
  live := nofun
  unsettled := nofun
  landed := nofun
  failingAsked := nofun

/-! ## Moves that take nothing into use -/

/-- Nothing is taken into use and the listed ones of some jobs are settled. -/
structure Eases (jobIds : List JobId) (before after : Serving) : Prop where
  pending :
    ∀ ref, ∀ jobId ∈ (after.server.rounds ref).pendingJobIds,
      jobId ∈ (before.server.rounds ref).pendingJobIds
  available :
    ∀ ref key supply, (after.server.rounds ref).available.get? key = some supply →
      (before.server.rounds ref).available.get? key = some supply ∧
        (after.server.Waiting ref → before.server.Waiting ref)
  inflight :
    ∀ tid xfer, after.server.inflight.get? tid = some xfer →
      before.server.inflight.get? tid = some xfer
  storeJobs : after.server.storeJobs = before.server.storeJobs.eraseAll jobIds
  settled :
    ∀ jobId, after.Settled jobId → before.Settled jobId ∨
      jobId ∈ jobIds ∧ before.server.storeJobs.contains jobId = true
  unread :
    ∀ jobId ∈ jobIds, before.server.storeJobs.contains jobId = true → after.server.Unread jobId
  kept : ∀ event ∈ before.server.events, event ∈ after.server.events
  nextRound : before.server.nextRound ≤ after.server.nextRound
  asked :
    ∀ ref < before.server.nextRound, (before.server.rounds ref).demandReceived = true →
      (after.server.rounds ref).demandReceived = true
  failing :
    ∀ ref ∈ after.failing, ref ∈ before.failing ∨
      ref < before.server.nextRound ∧ (before.server.rounds ref).demandReceived = true

namespace Eases

variable {jobIds : List JobId} {before after : Serving}

variable {jobId : JobId}

section

variable (eases : Eases jobIds before after)
include eases

theorem owns (owned : after.server.Owns ref jobId) : before.server.Owns ref jobId := by
  rcases owned with pending | ⟨key, idx, found⟩ | ⟨tid, xfer, found, rest⟩
  · exact .inl (eases.pending ref jobId pending)
  · exact .inr (.inl ⟨key, idx, (eases.available ref key _ found).1⟩)
  · exact .inr (.inr ⟨tid, xfer, eases.inflight tid xfer found, rest⟩)

theorem used (used : Server.Used before.server.events jobId) :
    Server.Used after.server.events jobId := by
  obtain ⟨kvId, blocks, mem⟩ := used
  exact ⟨kvId, blocks, eases.kept _ mem⟩

theorem contains :
    after.server.storeJobs.contains jobId = true ↔
      jobId ∉ jobIds ∧ before.server.storeJobs.contains jobId = true := by
  unfold Dict.contains
  rw [eases.storeJobs, Dict.get?_eraseAll]
  split <;> simp [*]

end

end Eases

variable {before after : Serving}

theorem Pinned.eases (jobIds : List JobId) (pinned : Pinned before)
    (eases : Eases jobIds before after) (log : PinsCover after.server.events) :
    Pinned after where
  log := log
  owned := fun ref jobId owned => eases.used (pinned.owned ref jobId (eases.owns owned))
  listed := fun jobId contains => eases.used (pinned.listed jobId (eases.contains.mp contains).2)
  settled := by
    intro jobId isSettled
    rcases eases.settled jobId isSettled with old | ⟨_, contains⟩
    · exact eases.used (pinned.settled jobId old)
    · exact eases.used (pinned.listed jobId contains)
  homes := fun ref other jobId owned otherOwned =>
    pinned.homes ref other jobId (eases.owns owned) (eases.owns otherOwned)
  single := fun tid xfer other xfer' jobId found found' =>
    pinned.single tid xfer other xfer' jobId (eases.inflight tid xfer found)
      (eases.inflight other xfer' found')
  live := by
    intro ref key jobId idx waiting found
    obtain ⟨old, wasWaiting⟩ := eases.available ref key _ found
    have contains := pinned.live ref key jobId idx (wasWaiting waiting) old
    refine eases.contains.mpr ⟨?_, contains⟩
    intro mem
    obtain ⟨⟨kvId, seq, registered⟩, unasked⟩ := waiting
    exact (eases.unread jobId mem contains).2 kvId seq ref registered unasked key idx found
  unsettled := by
    intro jobId contains isSettled
    obtain ⟨fresh, contained⟩ := eases.contains.mp contains
    rcases eases.settled jobId isSettled with old | ⟨mem, _⟩
    · exact pinned.unsettled jobId contained old
    · exact fresh mem
  landed := by
    intro jobId isSettled tid xfer found
    rcases eases.settled jobId isSettled with old | ⟨mem, contains⟩
    · exact pinned.landed jobId old tid xfer (eases.inflight tid xfer found)
    · exact (eases.unread jobId mem contains).1 tid xfer found
  failingAsked := by
    intro ref mem
    have below := (eases.failing ref mem).elim (pinned.failingAsked ref) id
    exact ⟨lt_of_lt_of_le below.1 eases.nextRound, eases.asked ref below.1 below.2⟩

variable {jobIds : List JobId}

open Server in
/-- A calm move that settles jobs. -/
theorem Eases.of_calm (calm : Calm before.server after.server)
    (pending :
      ∀ ref, ∀ jobId ∈ (after.server.rounds ref).pendingJobIds,
        jobId ∈ (before.server.rounds ref).pendingJobIds)
    (storeJobs : after.server.storeJobs = before.server.storeJobs.eraseAll jobIds)
    (settled :
      ∀ jobId, after.Settled jobId → before.Settled jobId ∨
          jobId ∈ jobIds ∧ before.server.storeJobs.contains jobId = true)
    (unread :
      ∀ jobId ∈ jobIds, before.server.storeJobs.contains jobId = true → after.server.Unread jobId)
    (failing : ∀ ref ∈ after.failing, ref ∈ before.failing) : Eases jobIds before after := by
  obtain ⟨new, events, _⟩ := calm.events
  refine ⟨pending, ?_, ?_, storeJobs, settled, unread, ?_, le_of_eq calm.nextRound.symm,
    ?_, fun ref mem => .inl (failing ref mem)⟩
  · intro ref key supply found
    rw [(calm.rounds ref).available] at found
    refine ⟨found, ?_⟩
    rintro ⟨⟨kvId, seq, registered⟩, unasked⟩
    rw [(calm.rounds ref).demandReceived] at unasked
    exact ⟨⟨kvId, seq, calm.registered _ _ _ registered⟩, unasked⟩
  · rw [calm.inflight]
    exact fun _ _ => id
  · intro event mem
    rw [events]
    exact mem_append_right _ mem
  · intro ref _ asked
    rw [(calm.rounds ref).demandReceived]
    exact asked

open Server in
/-- Results come from the settled jobs. -/
theorem settled_of_results (success : Bool)
    (events :
      ∀ result, Event.storeReported result ∈ after.server.events →
        Event.storeReported result ∈ before.server.events)
    (results :
      ∀ result ∈ after.collected ++ after.server.pendingStoreResults,
        result ∈ before.collected ++ before.server.pendingStoreResults ∨
          result ∈ settledResults success jobIds before.server.storeJobs)
    (jobId : JobId) (settled : after.Settled jobId) :
    before.Settled jobId ∨ jobId ∈ jobIds ∧ before.server.storeJobs.contains jobId = true := by
  rcases settled with ⟨success, reported⟩ | ⟨result, mem, rfl⟩
  · exact .inl (.inl ⟨success, events _ reported⟩)
  · rcases results result mem with old | isNew
    · exact .inl (.inr ⟨result, old, rfl⟩)
    · exact .inr (mem_settledResults isNew).2

section Moves

open Server

variable {server : Server} {failing : List RoundRef} {done : List StoreResult} {ref : RoundRef}

/-- Books, aborts and marks keep what the property needs. -/
theorem Eases.of_books {after : Server} (calm : Calm server after)
    (pending : ∀ ref, (after.rounds ref).pendingJobIds = (server.rounds ref).pendingJobIds)
    (storeJobs : after.storeJobs = server.storeJobs)
    (pendingStoreResults : after.pendingStoreResults = server.pendingStoreResults)
    (events :
      ∀ result, Event.storeReported result ∈ after.events →
        Event.storeReported result ∈ server.events) :
    Eases [] ⟨server, failing, done⟩ ⟨after, failing, done⟩ := by
  refine .of_calm calm (fun ref jobId mem => pending ref ▸ mem) storeJobs ?_ nofun (fun _ => id)
  refine settled_of_results true events ?_
  intro result mem
  rw [pendingStoreResults] at mem
  exact .inl mem

variable {xfer : InflightXfer} {tid : TransferId}

section

variable (pinned : Pinned ⟨server, failing, done⟩)
include pinned

/-- Jobs of a quiet round are not in flight. -/
theorem Pinned.quiet_unread (quiet : server.Quiet ref)
    (mem : jobId ∈ (server.rounds ref).pendingJobIds)
    (found : server.inflight.get? tid = some xfer) : jobId ∉ xfer.jobIds := by
  intro inXfer
  exact quiet tid xfer found
    (pinned.homes xfer.round ref jobId (.inr (.inr ⟨tid, xfer, found, rfl, inXfer⟩)) (.inl mem))

theorem Pinned.endRound {success tell : Bool} (coherent : server.Coherent)
    (found : server.registered kvId seq = some ref) (quiet : server.Quiet ref) :
    Pinned ⟨server.endRound kvId seq ref success tell, failing, done⟩ := by
  obtain ⟨storeJobs, results, events, rounds⟩ := endRound_fields
  have calm := endRound_calm server kvId seq ref success tell
  refine pinned.eases (server.rounds ref).pendingJobIds
    (.of_calm calm ?_ storeJobs ?_ ?_ fun _ => id) ?_
  · rw [rounds]
    exact pendingJobIds_update nofun
  · refine settled_of_results success (fun _ => events ▸ id) ?_
    intro result mem
    rw [results, ← append_assoc] at mem
    exact mem_append.mp mem
  · intro jobId mem _
    refine ⟨fun tid xfer inFlight => ?_, ?_⟩
    · rw [calm.inflight] at inFlight
      exact pinned.quiet_unread quiet mem inFlight
    · intro other seq' ref' registered _ key idx available
      rw [(calm.rounds ref').available] at available
      have same := pinned.homes ref' ref jobId (.inr (.inl ⟨key, idx, available⟩)) (.inl mem)
      subst same
      rw [registered_endRound] at registered
      split at registered
      · cases registered
      · next different => exact different (coherent.distinct _ _ _ _ _ registered found)
  · rw [events]
    exact pinned.log

theorem Pinned.timeout {jobIds : List JobId} (unread : ∀ jobId ∈ jobIds, server.Unread jobId) :
    Pinned ⟨(settleJobs false jobIds server).2, failing,
      done ++ (settleJobs false jobIds server).1⟩ := by
  have calm := settleJobs_calm false jobIds server
  rw [settleJobs_eq] at calm ⊢
  refine pinned.eases jobIds
    (.of_calm calm (fun _ _ => id) rfl ?_ (fun jobId mem _ => unread jobId mem)
      fun _ => id) pinned.log
  refine settled_of_results false (fun _ => id) ?_
  intro result mem
  simp only [mem_append] at mem ⊢
  tauto

theorem Pinned.failJobs {others : List RoundRef} (mem : failing.Perm (ref :: others))
    (quiet : server.Quiet ref) :
    Pinned ⟨(server.failRoundJobs ref).2, others, done ++ (server.failRoundJobs ref).1⟩ := by
  have calm := settleRoundJobs_calm server ref false
  have asked := (pinned.failingAsked ref (mem.mem_iff.mpr mem_cons_self)).2
  unfold failRoundJobs
  have fields : server.settleRoundJobs ref false =
        (settledResults false (server.rounds ref).pendingJobIds server.storeJobs, { server with
            storeJobs := server.storeJobs.eraseAll (server.rounds ref).pendingJobIds
            rounds :=
              update server.rounds ref
                { server.rounds ref with pendingJobIds := [] } }) := by
    unfold settleRoundJobs
    rw [settleJobs_eq]
    rfl
  rw [fields] at calm ⊢
  refine pinned.eases (server.rounds ref).pendingJobIds
    (.of_calm calm (pendingJobIds_update nofun) rfl ?_ ?_ ?_)
    pinned.log
  · refine settled_of_results false (fun _ => id) ?_
    intro result isResult
    simp only [mem_append] at isResult ⊢
    tauto
  · intro jobId isPending _
    refine ⟨fun tid xfer inFlight => pinned.quiet_unread quiet isPending inFlight, ?_⟩
    intro other seq' ref' _ unasked key idx available
    rw [(calm.rounds ref').available] at available
    rw [(calm.rounds ref').demandReceived] at unasked
    have same := pinned.homes ref' ref jobId (.inr (.inl ⟨key, idx, available⟩)) (.inl isPending)
    subst same
    rw [asked] at unasked
    cases unasked
  · exact fun other isOther => mem.mem_iff.mpr (mem_cons_of_mem _ isOther)

end

/-! ## Transfers that end -/

theorem Pinned.endsXfer {after : Server}
    (pinned : Pinned ⟨server, failing, done⟩)
    (coherent : server.Coherent) (ends : EndsXfer success server tid xfer results after)
    (inFlight : server.inflight.get? tid = some xfer)
    (failed : ∀ ref ∈ others, ref ∈ failing ∨ ref = xfer.round) :
    Pinned ⟨after, others, done ++ results⟩ := by
  have asked := coherent.asked tid xfer inFlight
  refine pinned.eases xfer.jobIds ⟨ends.pending, ?_, ?_, ends.storeJobs, ?_, ?_, ?_,
    le_of_eq ends.nextRound.symm, ?_, ?_⟩ ?_
  · intro ref key supply found
    rw [ends.available] at found
    refine ⟨found, ?_⟩
    rintro ⟨⟨kvId, seq, registered⟩, unasked⟩
    rw [ends.demandReceived] at unasked
    exact ⟨⟨kvId, seq, ends.registered _ _ _ registered⟩, unasked⟩
  · intro other xfer' found
    rw [ends.inflight] at found
    exact (Dict.get?_erase_eq_some.mp found).2
  · refine settled_of_results success (fun _ => ends.events ▸ id) ?_
    intro result mem
    rw [ends.results, ends.pendingStoreResults] at mem
    simp only [mem_append] at mem ⊢
    tauto
  · intro jobId mem _
    constructor
    · intro other xfer' found inOther
      rw [ends.inflight, Dict.get?_erase_eq_some] at found
      exact found.1 (pinned.single other xfer' tid xfer jobId found.2 inFlight inOther mem)
    · intro kvId seq ref _ unasked key idx available
      rw [ends.available] at available
      rw [ends.demandReceived] at unasked
      have same := pinned.homes ref xfer.round jobId (.inr (.inl ⟨key, idx, available⟩))
        (.inr (.inr ⟨tid, xfer, inFlight, rfl, mem⟩))
      subst same
      rw [asked] at unasked
      cases unasked
  · rw [ends.events]
    exact fun _ => id
  · intro ref _ isAsked
    rw [ends.demandReceived]
    exact isAsked
  · intro ref mem
    rcases failed ref mem with old | rfl
    · exact .inl old
    · exact .inr ⟨(coherent.flyingBelow tid xfer inFlight).1, asked⟩
  · rw [ends.events]
    exact pinned.log

theorem Pinned.cancel (pinned : Pinned ⟨server, failing, done⟩) :
    Pinned ⟨(server.dropInflight tid xfer).note (.ended tid false), failing, done⟩ := by
  obtain ⟨inflight, _, nextRound, _, events, storeJobs, results, _⟩ :=
    dropInflight_fields
  have rounds := dropInflight_rounds server tid xfer
  have allEvents : ((server.dropInflight tid xfer).note (.ended tid false)).events =
      .ended tid false :: server.events :=
    congrArg (cons _) events
  refine pinned.eases [] ⟨?_, ?_, ?_, storeJobs, ?_, nofun, ?_,
    le_of_eq nextRound.symm, ?_, fun _ => .inl⟩ ?_
  · exact fun ref jobId mem => (rounds ref).2.2.2.2 ▸ mem
  · intro ref key supply found
    refine ⟨(rounds ref).2.2.2.1 ▸ found, ?_⟩
    rintro ⟨⟨kvId, seq, registered⟩, unasked⟩
    refine ⟨⟨kvId, seq, ?_⟩, (rounds ref).1 ▸ unasked⟩
    exact (registered_dropInflight server tid xfer kvId seq) ▸ registered
  · intro other xfer' found
    change (server.dropInflight tid xfer).inflight.get? other = _ at found
    rw [inflight] at found
    exact (Dict.get?_erase_eq_some.mp found).2
  · refine settled_of_results true ?_ ?_
    · intro result mem
      rw [allEvents] at mem
      rcases mem_cons.mp mem with absurd' | old
      · cases absurd'
      · exact old
    · intro result mem
      change result ∈ done ++ (server.dropInflight tid xfer).pendingStoreResults at mem
      rw [results] at mem
      exact .inl mem
  · rw [allEvents]
    exact fun _ => mem_cons_of_mem _
  · exact fun ref _ asked => (rounds ref).1.trans asked
  · rw [allEvents]
    exact ⟨trivial, pinned.log⟩

/-- What a poll collected is not in flight when it is reported. -/
theorem Pinned.report (pinned : Pinned ⟨server, [], done⟩) (flown : server.Flown) :
    Pinned ⟨server.report done, [], []⟩ := by
  have released : ∀ result ∈ done, Released server.events result.jobId := by
    intro result mem tid kvId seq jobIds blocks wrote inJobs
    rcases (flown tid kvId seq jobIds blocks wrote).2 with
      ended | ⟨xfer, found, _, _, same⟩
    · exact ended
    · exact absurd (same ▸ inJobs) (pinned.landed result.jobId
          (.inr ⟨result, mem_append_left _ mem, rfl⟩) tid xfer found)
  refine pinned.eases [] ⟨fun _ _ => id, fun _ _ _ found => ⟨found, id⟩, fun _ _ => id, rfl,
    ?_, nofun, fun _ => mem_append_right _, le_refl _,
    fun _ _ => id, fun _ => .inl⟩ (pinned.log.report done released)
  · rintro jobId (⟨success, mem⟩ | ⟨result, mem, same⟩)
    · rcases mem_append.mp mem with isNew | old
      · obtain ⟨result, isCollected, same⟩ := mem_map.mp isNew
        refine .inl (.inr ⟨result, mem_append_left _ isCollected, ?_⟩)
        exact congrArg StoreResult.jobId (Event.storeReported.inj same)
      · exact .inl (.inl ⟨success, old⟩)
    · exact .inl (.inr ⟨result, mem_append_right _ mem, same⟩)

/-! ## Rounds, supply and demand -/

theorem Pinned.openRound (pinned : Pinned ⟨server, failing, done⟩)
    (free : server.registered kvId seq = none) :
    Pinned ⟨(server.openRound kvId seq).2, failing, done⟩ := by
  have registered := registered_openRound free
  have opened : (server.openRound kvId seq).2 = { server.setRequest kvId
      { server.request kvId with
        outbound :=
                (server.request kvId).outbound.set seq server.nextRound } with
          rounds := update server.rounds server.nextRound .new
          nextRound := server.nextRound + 1 } := by
    unfold Server.openRound
    rw [free]
  rw [opened] at registered ⊢
  refine pinned.eases [] ⟨?_, ?_, fun _ _ => id, rfl, ?_, nofun,
    fun _ => id, Nat.le_succ _, ?_, fun _ => .inl⟩ pinned.log
  · exact pendingJobIds_update nofun
  · intro ref key supply found
    by_cases isNew : ref = server.nextRound
    · subst isNew
      dsimp only at found
      rw [update_self] at found
      cases found
    have same : update server.rounds server.nextRound .new ref =
        server.rounds ref := update_of_ne isNew _ _
    dsimp only at found
    rw [same] at found
    refine ⟨found, ?_⟩
    rintro ⟨⟨other, seq', isRegistered⟩, unasked⟩
    dsimp only at unasked
    rw [same] at unasked
    refine ⟨⟨other, seq', ?_⟩, unasked⟩
    rw [registered] at isRegistered
    split at isRegistered
    · cases isRegistered
      exact absurd rfl isNew
    · exact isRegistered
  · exact settled_of_results true (fun _ => id) fun _ => .inl
  · intro ref below asked
    dsimp only
    rw [update_of_ne (ne_of_lt below)]
    exact asked

theorem demandRound_eases (wanted : List (OffloadKey × Nat)) :
    Eases [] ⟨server, failing, done⟩
      ⟨(server.demandRound kvId seq ref wanted).2, failing, done⟩ := by
  obtain ⟨asked, _, _, _, pending⟩ := demandedRound_round
  have rounds (other : RoundRef) : ((server.demandRound kvId seq ref wanted).2.rounds other) =
      if other = ref then server.demandedRound ref wanted else server.rounds other :=
    update_apply _ _ _ _
  refine ⟨?_, ?_, fun _ _ => id, rfl, ?_, nofun,
    fun _ => mem_cons_of_mem _, le_refl _, ?_, fun _ => .inl⟩
  · exact pendingJobIds_update fun _ mem => pending ▸ mem
  · intro other key supply found
    rw [rounds] at found
    split at found
    · next same =>
      subst same
      have old := OutboundRequestState.takeDemand_available wanted _ found
      refine ⟨old, ?_⟩
      rintro ⟨_, unasked⟩
      rw [rounds, if_pos rfl, asked] at unasked
      cases unasked
    · next different =>
      refine ⟨found, ?_⟩
      rintro ⟨registered, unasked⟩
      rw [rounds, if_neg different] at unasked
      exact ⟨registered, unasked⟩
  · refine settled_of_results true ?_ fun _ => .inl
    intro result mem
    rcases mem_cons.mp mem with absurd' | old
    · cases absurd'
    · exact old
  · intro other _ isAsked
    rw [rounds]
    split
    · exact asked
    · exact isAsked

theorem Pinned.demand (pinned : Pinned ⟨server, failing, done⟩)
    (wanted : List (OffloadKey × Nat)) :
    Pinned ⟨(server.demandRound kvId seq ref wanted).2, failing, done⟩ :=
  pinned.eases [] (demandRound_eases wanted) ⟨trivial, pinned.log⟩

end Moves

end VllmCore.P2P
