import VllmCore.Lib.Trace
import VllmCore.P2P.ServerFlights

namespace VllmCore.P2P

open Lib List

/-!
# Loads in the log of a link

The log of a link tells which load asked for which places of its local blocks, which
transfers were submitted and when loads were reported.  A transfer is submitted for the
load that asked last in its round.

Rounds stay apart when every transfer is submitted for a load that is still to be
reported, and a load is reported only when its transfers have ended, and as done only
when each of its places was filled with a block stored under its key.
-/

/-- What a load asked for in a round. -/
def Event.requestOf (kvRequestId : KvRequestId) (roundSeq : RoundSeq) :
    Event → Option (JobId × List (OffloadKey × Nat))
  | .requested jobId other otherSeq wanted =>
    if other = kvRequestId ∧ otherSeq = roundSeq then some (jobId, wanted) else none
  | _ => none

variable (events : List Event)

/-- The last load that asked in a round, with what it asked for. -/
def latestRequest (kvRequestId : KvRequestId) (roundSeq : RoundSeq) :
    Option (JobId × List (OffloadKey × Nat)) :=
  events.findSome? (Event.requestOf kvRequestId roundSeq)

/-- A transfer was submitted for the load. -/
def SubmittedFor
    (jobId : JobId) (tid : TransferId) (kvRequestId : KvRequestId) (roundSeq : RoundSeq)
    (storeJobs : List JobId) (blocks : List MatchedBlock) : Prop :=
  ∃ later before wanted,
    events = later ++ .wrote (some tid) kvRequestId roundSeq storeJobs blocks :: before ∧
      latestRequest before kvRequestId roundSeq = some (jobId, wanted)

/-- A transfer for the load filled a place with a block stored under its key. -/
def FilledFor (jobId : JobId) (kvRequestId : KvRequestId) (roundSeq : RoundSeq)
    (place : OffloadKey × Nat) : Prop :=
  ∃ tid storeJobs blocks, SubmittedFor events jobId tid kvRequestId roundSeq storeJobs blocks ∧
      Event.ended tid true ∈ events ∧
      ∃ block ∈ blocks, block.want = place ∧
        ∃ storeJob ∈ storeJobs, Server.Stored events storeJob block.source

def Reported (jobId : JobId) : Prop :=
  ∃ kvRequestId success, Event.loadReported ⟨jobId, kvRequestId, success⟩ ∈ events

/-- The load may be reported with this result. -/
def LoadAnswered (result : LoadResult) : Prop :=
  (∀ tid kvRequestId roundSeq storeJobs blocks,
    SubmittedFor events result.jobId tid kvRequestId roundSeq storeJobs blocks →
      ∃ done, Event.ended tid done ∈ events) ∧
    ∃ roundSeq wanted, Event.requested result.jobId result.kvRequestId roundSeq wanted ∈ events ∧
        (result.success = true → ∀ place ∈ wanted,
            FilledFor events result.jobId result.kvRequestId roundSeq place)

def Event.RoundAllows (before : List Event) : Event → Prop
  | .loadReported result => LoadAnswered before result
  | .wrote _ kvRequestId roundSeq _ blocks =>
    ∃ jobId wanted, latestRequest before kvRequestId roundSeq = some (jobId, wanted) ∧
      ¬Reported before jobId ∧ ∀ block ∈ blocks, block.want ∈ wanted
  | _ => True

/-- Fetch rounds do not interfere in a log. -/
def RoundsApart : List Event → Prop :=
  AllAllowed Event.RoundAllows

/-! ## What more events change -/

section Logs

variable {events new : List Event} {jobId : JobId} {tid : TransferId}
  {kvId : KvRequestId} {seq : RoundSeq} {storeJobs : List JobId}
  {blocks : List MatchedBlock}

theorem latestRequest_append (other : ∀ event ∈ new, event.requestOf kvId seq = none) :
    latestRequest (new ++ events) kvId seq = latestRequest events kvId seq := by
  unfold latestRequest
  rw [findSome?_append, findSome?_eq_none_iff.mpr other, Option.none_or]

theorem latestRequest_mem
    (latest : latestRequest events kvId seq = some (jobId, wanted)) :
    Event.requested jobId kvId seq wanted ∈ events := by
  obtain ⟨event, mem, isRequest⟩ := exists_of_findSome?_eq_some latest
  cases event with
  | requested job' other seq' otherWanted =>
    by_cases same : other = kvId ∧ seq' = seq
    · rw [Event.requestOf, if_pos same] at isRequest
      cases isRequest
      rw [← same.1, ← same.2]
      exact mem
    · rw [Event.requestOf, if_neg same] at isRequest
      cases isRequest
  | _ => cases isRequest

section

variable (submitted : SubmittedFor events jobId tid kvId seq storeJobs blocks)
include submitted

theorem SubmittedFor.append (new : List Event) :
    SubmittedFor (new ++ events) jobId tid kvId seq storeJobs blocks := by
  obtain ⟨later, before, wanted, rfl, latest⟩ := submitted
  exact ⟨new ++ later, before, wanted, (append_assoc _ _ _).symm, latest⟩

theorem SubmittedFor.wrote : Event.wrote (some tid) kvId seq storeJobs blocks ∈ events := by
  obtain ⟨later, before, wanted, rfl, _⟩ := submitted
  exact mem_append_right _ mem_cons_self

end

/-- A submission in a longer log is the new event or an older one. -/
theorem SubmittedFor.of_cons
    (submitted : SubmittedFor (event :: events) jobId tid kvId seq storeJobs blocks) :
    (event = .wrote (some tid) kvId seq storeJobs blocks ∧
      ∃ wanted, latestRequest events kvId seq = some (jobId, wanted)) ∨
      SubmittedFor events jobId tid kvId seq storeJobs blocks := by
  obtain ⟨later, before, wanted, split, latest⟩ := submitted
  cases later with
  | nil =>
    cases split
    exact .inl ⟨rfl, wanted, latest⟩
  | cons first rest =>
    cases split
    exact .inr ⟨rest, before, wanted, rfl, latest⟩

theorem SubmittedFor.of_append
    (submitted : SubmittedFor (new ++ events) jobId tid kvId seq storeJobs blocks)
    (other :
      ∀ event ∈ new, ∀ tid kvId seq storeJobs blocks,
        event ≠ .wrote (some tid) kvId seq storeJobs blocks) :
    SubmittedFor events jobId tid kvId seq storeJobs blocks := by
  induction new with
  | nil => exact submitted
  | cons event rest ih =>
    rcases submitted.of_cons with ⟨isWrite, _⟩ | older
    · exact absurd isWrite (other event mem_cons_self _ _ _ _ _)
    · exact ih older fun first mem => other first (mem_cons_of_mem _ mem)

theorem FilledFor.append
    (filled : FilledFor events jobId kvId seq place) (new : List Event) :
    FilledFor (new ++ events) jobId kvId seq place := by
  obtain ⟨tid, storeJobs, blocks, submitted, ended, block, mem, isPlace, storeJob, isJob,
    stored⟩ := filled
  exact ⟨tid, storeJobs, blocks, submitted.append new, mem_append_right _ ended, block,
    mem, isPlace, storeJob, isJob, stored.mono fun _ => mem_append_right _⟩

/-- An answer stays valid when no transfer is submitted for the load. -/
theorem LoadAnswered.append (answered : LoadAnswered events result)
    (submissions :
      ∀ tid kvId seq storeJobs blocks,
        SubmittedFor (new ++ events) result.jobId tid kvId seq storeJobs blocks →
          SubmittedFor events result.jobId tid kvId seq storeJobs blocks) :
    LoadAnswered (new ++ events) result := by
  obtain ⟨ended, seq, wanted, requested, filled⟩ := answered
  refine ⟨?_, seq, wanted, mem_append_right _ requested, ?_⟩
  · intro tid kvId seq' storeJobs blocks submitted
    obtain ⟨done, isEnded⟩ := ended tid _ _ _ _ (submissions tid _ _ _ _ submitted)
    exact ⟨done, mem_append_right _ isEnded⟩
  · exact fun success place mem => (filled success place mem).append new

end Logs

/-! ## The demand of a load -/

/-- The last demand of a round is that of the last load that asked in it. -/
def Asked (events : List Event) (kvRequestId : KvRequestId) (roundSeq : RoundSeq) (jobId : JobId)
    (wanted : List (OffloadKey × Nat)) : Prop :=
  ∃ later before, events = later ++ .demanded kvRequestId roundSeq wanted :: before ∧
      (∀ event ∈ later, event.demandOf kvRequestId roundSeq = none ∧
          event.requestOf kvRequestId roundSeq = none) ∧
      latestRequest before kvRequestId roundSeq = some (jobId, wanted)

namespace Asked

variable {events new : List Event} {kvId : KvRequestId} {seq : RoundSeq}
  {jobId : JobId} {wanted : List (OffloadKey × Nat)}

variable (asked : Asked events kvId seq jobId wanted)
include asked

theorem append
    (other : ∀ event ∈ new, event.demandOf kvId seq = none ∧ event.requestOf kvId seq = none) :
    Asked (new ++ events) kvId seq jobId wanted := by
  obtain ⟨later, before, rfl, unrelated, latest⟩ := asked
  refine ⟨new ++ later, before, (append_assoc _ _ _).symm, ?_, latest⟩
  intro event mem
  rcases mem_append.mp mem with isNew | old
  · exact other event isNew
  · exact unrelated event old

theorem latestDemand : latestDemand events kvId seq = some wanted := by
  obtain ⟨later, before, rfl, unrelated, _⟩ := asked
  rw [latestDemand_append fun event mem => (unrelated event mem).1]
  exact latestDemand_cons_self

theorem latestRequest : latestRequest events kvId seq = some (jobId, wanted) := by
  obtain ⟨later, before, rfl, unrelated, latest⟩ := asked
  rw [latestRequest_append fun event mem => (unrelated event mem).2]
  exact latest

/-- Transfers of the round since its demand are submitted for the load. -/
theorem submitted
    (wrote : Event.wrote (some tid) kvId seq storeJobs blocks ∈ sinceDemand events kvId seq) :
    SubmittedFor events jobId tid kvId seq storeJobs blocks := by
  obtain ⟨later, before, rfl, unrelated, latest⟩ := asked
  rw [sinceDemand_append fun event mem => (unrelated event mem).1] at wrote
  have since : sinceDemand (.demanded kvId seq wanted :: before) kvId seq = [] := by
    simp [sinceDemand, Event.demandOf]
  rw [since, append_nil] at wrote
  obtain ⟨first, second, rfl⟩ := append_of_mem wrote
  refine ⟨first, second ++ .demanded kvId seq wanted :: before, wanted, ?_, ?_⟩
  · simp
  · rw [latestRequest_append]
    · exact latest
    · intro event mem
      exact (unrelated event (mem_append_right _ (mem_cons_of_mem _ mem))).2

end Asked

end VllmCore.P2P
