import VllmCore.P2P.ServerCalls
import VllmCore.P2P.ServerPins

namespace VllmCore.P2P

open Function Lib List OutboundRequestState

/-!
# Runs of a server

A run is any interleaving of stores, messages of the peer, the local finish of requests
and polls.  When no round is ended and no job times out while its blocks are in use,
every read is covered by a pin.
-/

section Moves

open Server

variable {server : Server} {failing : List RoundRef} {done : List StoreResult} {ref : RoundRef}

/-! ## Stores -/

variable {jobId : JobId}

/-- A new job takes part in nothing yet. -/
theorem Pinned.unused (pinned : Pinned ⟨server, failing, done⟩)
    (unused : server.Unused jobId) :
    (∀ ref, ¬server.Owns ref jobId) ∧ ¬Serving.Settled ⟨server, failing, done⟩ jobId := by
  have notUsed : ¬Used server.events jobId :=
    fun ⟨kvId, blocks, mem⟩ => unused kvId blocks mem
  exact ⟨fun ref owned => notUsed (pinned.owned ref jobId owned),
    fun settled => notUsed (pinned.settled jobId settled)⟩

/-- A store gives its round one job more. -/
theorem owns_supplyRound
    (owned : (server.supplyRound kvId ref blocks jobId now looked).2.Owns other job') :
    server.Owns other job' ∨ other = ref ∧ job' = jobId := by
  have rounds : (server.supplyRound kvId ref blocks jobId now looked).2.rounds other =
      if other = ref then server.suppliedRound ref blocks jobId looked
      else server.rounds other :=
    update_apply _ _ _ _
  rcases owned with pending | ⟨key, idx, found⟩ | inFlight
  · rw [rounds] at pending
    split at pending
    · next same =>
      subst same
      have all : (server.suppliedRound other blocks jobId looked).pendingJobIds =
          (server.rounds other).pendingJobIds.insert jobId :=
        addStoredBlocks_round.2.2.2.2
      rw [all] at pending
      rcases mem_insert_iff.mp pending with isNew | old
      · exact .inr ⟨rfl, isNew⟩
      · exact .inl (.inl old)
    · exact .inl (.inl pending)
  · rw [rounds] at found
    split at found
    · next same =>
      subst same
      rcases takeSupply_available jobId blocks _ found with
        old | ⟨isNew, _⟩
      · exact .inl (.inr (.inl ⟨key, idx, old⟩))
      · exact .inr ⟨rfl, isNew⟩
    · exact .inl (.inr (.inl ⟨key, idx, found⟩))
  · exact .inl (.inr (.inr inFlight))

theorem settled_supplyRound :
    Serving.Settled
        ⟨(server.supplyRound kvId ref blocks jobId now looked).2, failing, done⟩ job' ↔
      Serving.Settled ⟨server, failing, done⟩ job' := by
  constructor
  · rintro (⟨success, mem⟩ | results)
    · rcases mem_cons.mp mem with absurd' | old
      · cases absurd'
      · exact .inl ⟨success, old⟩
    · exact .inr results
  · rintro (⟨success, mem⟩ | results)
    · exact .inl ⟨success, mem_cons_of_mem _ mem⟩
    · exact .inr results

theorem Pinned.supply (pinned : Pinned ⟨server, failing, done⟩)
    (blocks : List (OffloadKey × Nat)) (now : Time) (looked : Bool)
    (unused : server.Unused jobId) :
    Pinned ⟨(server.supplyRound kvId ref blocks jobId now looked).2, failing, done⟩ := by
  obtain ⟨unowned, unsettled⟩ := pinned.unused unused
  have usedAfter {job' : JobId} (used : Used server.events job') :
      Used (server.supplyRound kvId ref blocks jobId now looked).2.events
        job' := by
    obtain ⟨other, otherBlocks, mem⟩ := used
    exact ⟨other, otherBlocks, mem_cons_of_mem _ mem⟩
  have isUsed : Used (server.supplyRound kvId ref blocks jobId now looked).2.events jobId :=
    ⟨kvId, blocks, mem_cons_self⟩
  have rounds (other : RoundRef) :
      (server.supplyRound kvId ref blocks jobId now looked).2.rounds other =
        if other = ref then server.suppliedRound ref blocks jobId looked
        else server.rounds other :=
    update_apply _ _ _ _
  have asked : (server.suppliedRound ref blocks jobId looked).demandReceived =
      (server.rounds ref).demandReceived :=
    addStoredBlocks_round.1
  have contains (job' : JobId) :
      (server.supplyRound kvId ref blocks jobId now looked).2.storeJobs.contains
        job' = (decide (job' = jobId) || server.storeJobs.contains job') :=
    Dict.contains_set _ _ _ _
  refine ⟨⟨trivial, pinned.log⟩, ?_, ?_, ?_, ?_, pinned.single, ?_, ?_, ?_, ?_⟩
  · intro other job' owned
    rcases owns_supplyRound owned with old | ⟨_, rfl⟩
    · exact usedAfter (pinned.owned other job' old)
    · exact isUsed
  · intro job' isListed
    rw [contains, Bool.or_eq_true, decide_eq_true_eq] at isListed
    rcases isListed with rfl | old
    · exact isUsed
    · exact usedAfter (pinned.listed job' old)
  · intro job' settled
    exact usedAfter (pinned.settled job' (settled_supplyRound.mp settled))
  · intro first second job' owned otherOwned
    rcases owns_supplyRound owned with old | ⟨rfl, rfl⟩
    · rcases owns_supplyRound otherOwned with otherOld | ⟨rfl, rfl⟩
      · exact pinned.homes first second job' old otherOld
      · exact absurd old (unowned first)
    · rcases owns_supplyRound otherOwned with otherOld | ⟨rfl, _⟩
      · exact absurd otherOld (unowned second)
      · rfl
  · intro other key job' idx waiting found
    rw [contains, Bool.or_eq_true, decide_eq_true_eq]
    obtain ⟨registered, unasked⟩ := waiting
    rw [rounds] at found unasked
    split at found
    · next same =>
      subst same
      rw [if_pos rfl, asked] at unasked
      rcases takeSupply_available jobId blocks _ found with
        old | ⟨isNew, _⟩
      · exact .inr (pinned.live other key job' idx ⟨registered, unasked⟩ old)
      · exact .inl isNew
    · next different =>
      rw [if_neg different] at unasked
      exact .inr (pinned.live other key job' idx ⟨registered, unasked⟩ found)
  · intro job' isListed settled
    have wasSettled := settled_supplyRound.mp settled
    rw [contains, Bool.or_eq_true, decide_eq_true_eq] at isListed
    rcases isListed with rfl | old
    · exact unsettled wasSettled
    · exact pinned.unsettled job' old wasSettled
  · intro job' settled
    exact pinned.landed job' (settled_supplyRound.mp settled)
  · intro other mem
    obtain ⟨below, isAsked⟩ := pinned.failingAsked other mem
    refine ⟨below, ?_⟩
    rw [rounds]
    split
    · next same =>
      subst same
      exact asked.trans isAsked
    · exact isAsked

/-! ## Transfers -/

/-- Jobs that only this round has a claim on, not settled and not in flight. -/
structure Reserved (serving : Serving) (ref : RoundRef) (jobId : JobId) : Prop where
  used : Used serving.server.events jobId
  unsettled : ¬serving.Settled jobId
  home : ∀ other, serving.server.Owns other jobId → other = ref
  idle : ∀ tid xfer, serving.server.inflight.get? tid = some xfer → jobId ∉ xfer.jobIds

section

variable (pinned : Pinned ⟨server, failing, done⟩)
include pinned

variable {env : Environment}

theorem Pinned.writeRefused (refused : env.accepts server.transport.calls = false)
    (reads : ReadsPinned server.events result.jobIds result.blocks) :
    Pinned ⟨(server.writeMatched env kvId result ref seq).2, failing, done⟩ := by
  have calm : Calm server (server.writeMatched env kvId result ref seq).2 :=
    refused_calm refused
  have fields : (server.writeMatched env kvId result ref seq).2 = { server with
          transport := { server.transport with calls := server.transport.calls + 1 }
          rounds := update server.rounds ref { server.rounds ref with finishing := true }
          events :=
            .wrote none kvId seq result.jobIds result.blocks :: server.events } := by
    unfold writeMatched Transport.writeBlocks
    simp only [refused, Bool.false_eq_true, if_false]
    rfl
  rw [fields] at calm ⊢
  refine pinned.eases [] (.of_books calm ?_ rfl rfl ?_) ⟨reads, pinned.log⟩
  · intro other
    by_cases same : other = ref
    · subst same
      dsimp only
      rw [update_self]
    · dsimp only
      rw [update_of_ne same]
  · intro report mem
    rcases mem_cons.mp mem with absurd' | old
    · cases absurd'
    · exact old

theorem Pinned.writeAccepted (accepts : env.accepts server.transport.calls = true)
    (reads : ReadsPinned server.events result.jobIds result.blocks)
    (reserved : ∀ jobId ∈ result.jobIds, Reserved ⟨server, failing, done⟩ ref jobId) :
    Pinned ⟨(server.writeMatched env kvId result ref seq).2, failing, done⟩ := by
  obtain ⟨inflight, rounds, storeJobs, results, events, nextRound, _⟩ :=
    writeMatched_accepted accepts
  have registered (other : KvRequestId) (seq' : RoundSeq) :=
    registered_write env server kvId other result ref seq seq'
  generalize (server.writeMatched env kvId result ref seq).2 = after at *
  have sameRound (other : RoundRef) :
      (after.rounds other).pendingJobIds = (server.rounds other).pendingJobIds ∧
        (after.rounds other).available = (server.rounds other).available ∧
        (after.rounds other).demandReceived = (server.rounds other).demandReceived := by
    rw [rounds]
    by_cases same : other = ref
    · subst same
      rw [update_self]
      exact ⟨rfl, rfl, rfl⟩
    · rw [update_of_ne same]
      exact ⟨rfl, rfl, rfl⟩
  have usedAfter {jobId : JobId} (used : Used server.events jobId) : Used after.events jobId := by
    obtain ⟨other, blocks, mem⟩ := used
    exact ⟨other, blocks, events ▸ mem_cons_of_mem _ mem⟩
  have settledBefore {jobId : JobId} (settled : Serving.Settled ⟨after, failing, done⟩ jobId) :
      Serving.Settled ⟨server, failing, done⟩ jobId := by
    rcases settled with ⟨success, mem⟩ | ⟨report, mem, same⟩
    · rw [events] at mem
      rcases mem_cons.mp mem with absurd' | old
      · cases absurd'
      · exact .inl ⟨success, old⟩
    · rw [results] at mem
      exact .inr ⟨report, mem, same⟩
  have owns {other : RoundRef} {jobId : JobId} (owned : after.Owns other jobId) :
      server.Owns other jobId ∨ other = ref ∧ jobId ∈ result.jobIds := by
    rcases owned with pending | ⟨key, idx, found⟩ | ⟨tid, xfer, found, isRound, mem⟩
    · exact .inl (.inl ((sameRound other).1 ▸ pending))
    · exact .inl (.inr (.inl ⟨key, idx, (sameRound other).2.1 ▸ found⟩))
    rw [inflight, Dict.get?_set] at found
    split at found
    · cases found
      exact .inr ⟨isRound.symm, mem⟩
    · exact .inl (.inr (.inr ⟨tid, xfer, found, isRound, mem⟩))
  refine ⟨?_, ?_, ?_, ?_, ?_, ?_, ?_, ?_, ?_, ?_⟩
  · rw [events]
    exact ⟨reads, pinned.log⟩
  · intro other jobId owned
    rcases owns owned with old | ⟨_, mem⟩
    · exact usedAfter (pinned.owned other jobId old)
    · exact usedAfter (reserved jobId mem).used
  · intro jobId isListed
    exact usedAfter (pinned.listed jobId (storeJobs ▸ isListed))
  · exact fun jobId settled => usedAfter (pinned.settled jobId (settledBefore settled))
  · intro first second jobId owned otherOwned
    rcases owns owned with old | ⟨rfl, mem⟩
    · rcases owns otherOwned with otherOld | ⟨rfl, mem⟩
      · exact pinned.homes first second jobId old otherOld
      · exact (reserved jobId mem).home first old
    · rcases owns otherOwned with otherOld | ⟨rfl, _⟩
      · exact ((reserved jobId mem).home second otherOld).symm
      · rfl
  · intro tid xfer other xfer' jobId found found' mem otherMember
    rw [inflight, Dict.get?_set] at found found'
    split at found
    · next isNew =>
      split at found'
      · next otherNew => exact isNew.trans otherNew.symm
      · cases found
        exact absurd otherMember ((reserved jobId mem).idle other xfer' found')
    · split at found'
      · cases found'
        exact absurd mem ((reserved jobId otherMember).idle tid xfer found)
      · exact pinned.single tid xfer other xfer' jobId found found' mem otherMember
  · intro other key jobId idx waiting found
    rw [storeJobs]
    rw [(sameRound other).2.1] at found
    obtain ⟨⟨otherId, seq', isRegistered⟩, unasked⟩ := waiting
    refine pinned.live other key jobId idx ⟨⟨otherId, seq', ?_⟩, ?_⟩ found
    · exact (registered otherId seq').symm.trans isRegistered
    · exact (sameRound other).2.2.symm.trans unasked
  · intro jobId isListed settled
    exact pinned.unsettled jobId (storeJobs ▸ isListed) (settledBefore settled)
  · intro jobId settled tid xfer found mem
    rw [inflight, Dict.get?_set] at found
    split at found
    · cases found
      exact (reserved jobId mem).unsettled (settledBefore settled)
    · exact pinned.landed jobId (settledBefore settled) tid xfer found mem
  · intro other mem
    obtain ⟨below, asked⟩ := pinned.failingAsked other mem
    exact ⟨nextRound ▸ below, (sameRound other).2.2.trans asked⟩

theorem Pinned.write (env : Environment)
    (reads : ReadsPinned server.events result.jobIds result.blocks)
    (reserved : ∀ jobId ∈ result.jobIds, Reserved ⟨server, failing, done⟩ ref jobId) :
    Pinned ⟨(server.writeMatched env kvId result ref seq).2, failing, done⟩ := by
  cases accepts : env.accepts server.transport.calls with
  | false => exact pinned.writeRefused accepts reads
  | true => exact pinned.writeAccepted accepts reads reserved

end

/-- A job that was not settled was not reported. -/
theorem not_reported (unsettled : ¬Serving.Settled ⟨server, failing, done⟩ jobId)
    (success : Bool) : Event.storeReported ⟨jobId, success⟩ ∉ server.events :=
  fun reported => unsettled (.inl ⟨success, reported⟩)

theorem Pinned.supplyWrite (pinned : Pinned ⟨server, failing, done⟩)
    (env : Environment) (blocks : List (OffloadKey × Nat)) (now : Time) (looked : Bool)
    (unused : server.Unused jobId) :
    Pinned
      ⟨((server.supplyRound kvId ref blocks jobId now looked).2.writeMatched env
        kvId (server.supplyRound kvId ref blocks jobId now looked).1 ref
        seq).2, failing, done⟩ := by
  obtain ⟨unowned, unsettled⟩ := pinned.unused unused
  have stillUnsettled : ¬Serving.Settled
      ⟨(server.supplyRound kvId ref blocks jobId now looked).2, failing, done⟩ jobId :=
    fun settled => unsettled (settled_supplyRound.mp settled)
  have jobIds : (server.supplyRound kvId ref blocks jobId now looked).1.jobIds =
        if (server.supplyRound kvId ref blocks jobId now
          looked).1.blocks.isEmpty then [] else [jobId] := rfl
  refine (pinned.supply blocks now looked unused).write env ?_ ?_
  · intro block mem
    refine ⟨jobId, ?_, ⟨kvId, blocks, mem_cons_self, takeSupply_source jobId blocks _ block mem⟩,
      not_reported stillUnsettled⟩
    rw [jobIds, if_neg]
    · exact mem_singleton_self jobId
    · intro none
      rw [isEmpty_iff.mp none] at mem
      cases mem
  · intro job' mem
    have same : job' = jobId := by
      rw [jobIds] at mem
      split at mem
      · cases mem
      · exact mem_singleton.mp mem
    subst same
    refine ⟨⟨kvId, blocks, mem_cons_self⟩, stillUnsettled, ?_, ?_⟩
    · intro other owned
      exact (owns_supplyRound owned).elim (fun old => absurd old (unowned other)) And.left
    · intro tid xfer found inXfer
      exact unowned xfer.round (.inr (.inr ⟨tid, xfer, found, rfl, inXfer⟩))

theorem Pinned.demandWrite (pinned : Pinned ⟨server, failing, done⟩)
    (coherent : server.Coherent) (env : Environment) (wanted : List (OffloadKey × Nat))
    (found : server.registered kvId seq = some ref)
    (unasked : (server.rounds ref).demandReceived = false) :
    Pinned
      ⟨((server.demandRound kvId seq ref wanted).2.writeMatched env kvId
          (server.demandRound kvId seq ref wanted).1 ref seq).2,
        failing, done⟩ := by
  have eases : Eases [] ⟨server, failing, done⟩
      ⟨(server.demandRound kvId seq ref wanted).2, failing, done⟩ :=
    demandRound_eases wanted
  have unsettled {jobId : JobId} {key : OffloadKey} {idx : Nat}
      (available : (server.rounds ref).available.get? key = some (jobId, idx)) :
      ¬Serving.Settled ⟨(server.demandRound kvId seq ref wanted).2, failing, done⟩
        jobId := by
    intro settled
    rcases eases.settled jobId settled with old | ⟨absurd', _⟩
    · exact pinned.unsettled jobId
        (pinned.live ref key jobId idx ⟨⟨_, _, found⟩, unasked⟩ available) old
    · cases absurd'
  refine (pinned.demand wanted).write env ?_ ?_
  · intro block mem
    obtain ⟨jobId, jobMember, available⟩ := takeDemand_blocks wanted _ block mem
    exact ⟨jobId, jobMember,
      (coherent.stocked ref block.key jobId block.localIdx available).mono eases.kept,
      not_reported (unsettled available)⟩
  · intro jobId mem
    obtain ⟨key, idx, available⟩ := takeDemand_jobIds wanted _ jobId mem
    have owned : server.Owns ref jobId := .inr (.inl ⟨key, idx, available⟩)
    refine ⟨eases.used (pinned.owned ref jobId owned), unsettled available, ?_, ?_⟩
    · exact fun other otherOwned => pinned.homes other ref jobId (eases.owns otherOwned) owned
    · intro tid xfer inFlight inXfer
      exact coherent.quiet_of_unasked unasked tid xfer inFlight (pinned.homes xfer.round ref jobId
          (.inr (.inr ⟨tid, xfer, inFlight, rfl, inXfer⟩)) owned)

end Moves

variable {before after : Serving}

open Server in
/-- Without force, every move keeps reads pinned. -/
theorem Move.pinned (gentle : ¬permit.forces)
    (move : Move permit before after) (coherent : before.server.Coherent)
    (flown : before.server.Flown) (pinned : Pinned before) : Pinned after := by
  cases move with
  | bookkeep same _ _ =>
    obtain ⟨new, events, lookups⟩ := same.events
    have unpinned : ∀ event ∈ new, event.Unpinned := by
      intro event mem
      obtain ⟨ctx, rfl | rfl⟩ := lookups event mem <;> trivial
    refine pinned.eases [] (.of_books same.calm (fun _ => by rw [same.rounds]) same.storeJobs
        same.pendingStoreResults ?_) ?_
    · intro result mem
      rw [events] at mem
      rcases mem_append.mp mem with isNew | old
      · exact (unpinned _ isNew).elim
      · exact old
    · rw [events]
      exact pinned.log.append unpinned
  | openRound free _ => exact pinned.openRound free
  | supply blocks now looked _ unused _ => exact pinned.supply blocks now looked unused
  | supplyWrite env blocks now looked _ unused _ _ _ =>
    exact pinned.supplyWrite env blocks now looked unused
  | demand wanted _ _ _ => exact pinned.demand wanted
  | demandWrite env wanted found unasked _ _ =>
    exact pinned.demandWrite coherent env wanted found unasked
  | @finishing server failing done ref =>
    refine pinned.eases [] (.of_books (setRound_calm ⟨rfl, rfl, rfl, rfl, rfl⟩) ?_ rfl rfl
      fun _ => id) pinned.log
    intro other
    by_cases same : other = ref
    · subst same
      unfold setRound
      dsimp only
      rw [update_self]
    · unfold setRound
      dsimp only
      rw [update_of_ne same]
  | endRound found quiet _ => exact pinned.endRound coherent found (quiet.resolve_left gentle)
  | timeout jobIds unread => exact pinned.timeout (unread.resolve_left gentle)
  | @takeDeferred server failing done =>
    refine pinned.eases [] (.of_calm (calm_of_same (fun _ _ => rfl) rfl rfl rfl rfl
      (nil_append _).symm nofun) (fun _ _ => id) rfl ?_
      nofun fun _ => id) pinned.log
    refine settled_of_results true (fun _ => id) ?_
    intro result mem
    rw [append_nil] at mem
    exact .inl mem
  | @poll server failing done env =>
    refine pinned.eases [] (.of_books (poll_calm coherent) (fun _ => rfl) rfl rfl ?_) ?_
    · intro result mem
      rcases mem_append.mp mem with isFailed | rest
      · obtain ⟨_, _, absurd'⟩ := mem_map.mp isFailed
        cases absurd'
      rcases mem_append.mp rest with isDone | old
      · obtain ⟨_, _, absurd'⟩ := mem_map.mp isDone
        cases absurd'
      · exact old
    · refine PinsCover.append (PinsCover.append pinned.log ?_) ?_
      all_goals
        intro event mem
        obtain ⟨_, _, rfl⟩ := mem_map.mp mem
        trivial
  | complete inFlight _ => exact pinned.endsXfer coherent completeXfer_ends inFlight fun _ => .inl
  | fail inFlight _ _ =>
    refine pinned.endsXfer coherent (failXfer_ends _ _ _) inFlight ?_
    intro ref mem
    rcases mem_append.mp mem with isNew | old
    · refine .inr ?_
      unfold failXfer at isNew
      dsimp only at isNew
      split at isNew
      · exact mem_singleton.mp isNew
      · cases isNew
    · exact .inl old
  | cancel _ => exact pinned.cancel
  | failJobs mem quiet => exact pinned.failJobs mem quiet
  | report => exact pinned.report flown
  | _ =>
    exact pinned.eases []
      (.of_books (calm_of_same (fun _ _ => rfl) rfl rfl rfl rfl (nil_append _).symm
        nofun) (fun _ => rfl) rfl rfl fun _ => id) pinned.log

theorem Moves.pinned (gentle : ¬permit.forces)
    (moves : Moves permit before after) (coherent : before.server.Coherent)
    (flown : before.server.Flown) (pinned : Pinned before) : Pinned after :=
  (moves.keeps (fun serving => serving.server.Coherent ∧ serving.server.Flown ∧ Pinned serving)
    (fun _ _ held move =>
      ⟨move.coherent held.1, move.flown held.1 held.2.1,
        move.pinned gentle held.1 held.2.1 held.2.2⟩)
    ⟨coherent, flown, pinned⟩).2.2

/-! ## Runs -/

namespace Server

/-- The call ends no round and times out no job whose blocks are in use. -/
def Gentle (server : Server) : ServerOp → Prop
  | .onFetch _ kvRequestId keys _ _ => keys = [] → ∀ roundSeq, server.Landed kvRequestId roundSeq
  | .onAbortFetch _ kvRequestId roundSeq => server.Landed kvRequestId roundSeq
  | .collectResults env | .collectIdleTimeouts env =>
    ∀ jobId ∈ server.timedOut env, server.Unread jobId
  | .drainPendingAborts _ => ∀ abort ∈ server.pendingAborts.keys, server.Landed abort.1 abort.2
  | _ => True

/-- The servers that calls of a kind lead to. -/
inductive Reached (Allowed : Server → ServerOp → Prop) : Server → Prop
  | init : Reached Allowed .init
  | call {server : Server} {op : ServerOp} (before : Reached Allowed server)
    (newJobs : server.NewJobs op) (allowed : Allowed server op) :
    Reached Allowed (server.call op)

end Server

/-- Everything but force. -/
def Permit.gentle : Permit :=
  { Permit.all with forces := False }

namespace Server

variable {server : Server}

/-- A call is a sequence of moves, without force if it is gentle. -/
theorem call_moves {forces : Prop} (coherent : server.Coherent) (filed : server.Filed)
    (newJobs : server.NewJobs op) (gentle : forces ∨ server.Gentle op) :
    Moves { Permit.all with forces } ⟨server, [], []⟩ ⟨server.call op, [], []⟩ := by
  cases op with
  | addStoredBlocks env kvId keys blockIds jobId =>
    exact addStoredBlocks_moves coherent trivial trivial trivial newJobs
  | onLookup env kvId keys seq => exact onLookup_moves trivial
  | onFetch env kvId keys indexes seq =>
    exact onFetch_moves coherent trivial trivial trivial fun empty => gentle.imp_right (· empty)
  | onAbortFetch env kvId seq => exact onAbortFetch_moves coherent trivial gentle
  | serveExternalRequests env parent =>
    have set : Moves { Permit.all with forces } ⟨server, [], []⟩ ⟨{ server with parent }, [], []⟩ :=
      setParent_moves
    have ready : Ready { Permit.all with forces } { server with parent } :=
      ⟨set.coherent coherent, set.filed filed, newJobs, fun _ _ _ => trivial⟩
    exact serveExternal_serves ⟨fun _ _ => id, trivial, trivial⟩ ready
  | finish kvId => exact finish_moves trivial coherent
  | collectResults env => exact collectResults_moves trivial coherent gentle
  | collectIdleTimeouts env => exact idleTimeouts_moves gentle
  | drainPendingAborts env => exact drainPendingAborts_moves coherent gentle

theorem Reached.pinned (reached : Reached Gentle server) :
    server.Coherent ∧ server.Filed ∧ server.Flown ∧ Pinned ⟨server, [], []⟩ := by
  induction reached with
  | init => exact ⟨init_coherent, init_filed, init_flown, init_pinned⟩
  | call _ newJobs gentle ih =>
    obtain ⟨coherent, filed, flown, pinned⟩ := ih
    have moves : Moves .gentle _ _ := call_moves coherent filed newJobs (.inr gentle)
    exact ⟨moves.coherent coherent, moves.filed filed, moves.flown coherent flown,
      moves.pinned id coherent flown pinned⟩

theorem Reached.coherent (reached : Reached Allowed server) : server.Coherent ∧ server.Filed := by
  induction reached with
  | init => exact ⟨init_coherent, init_filed⟩
  | call _ newJobs _ ih =>
    have moves : Moves .all _ _ := call_moves ih.1 ih.2 newJobs (.inl trivial)
    exact ⟨moves.coherent ih.1, moves.filed ih.2⟩

/--
Whatever is called in whatever order, every accepted transfer sends blocks that its jobs
stored under their keys, and a round fills no place of its last demand more often than asked.
-/
theorem Reached.sends_stored_where_asked (reached : Reached Allowed server) :
    (∀ tid kvId seq jobIds blocks, Event.wrote (some tid) kvId seq jobIds blocks ∈ server.events →
        ∀ block ∈ blocks, ∃ jobId ∈ jobIds, Stored server.events jobId block.source) ∧
      ∀ kvId seq ref, server.registered kvId seq = some ref →
        (server.rounds ref).demandReceived = true →
          ∃ wanted filled, server.Accounts kvId seq ref [] wanted filled :=
  ⟨reached.coherent.1.sourced, reached.coherent.1.accounts⟩

/-- A tear-down gives up the transfers before it reports the jobs. -/
theorem close_pinsCover (flown : server.Flown) (pinned : Pinned ⟨server, [], []⟩) :
    PinsCover server.close.2.2.events := by
  have ended : PinsCover
      (server.inflight.keys.map (fun tid => Event.ended tid false) ++ server.events) := by
    refine pinned.log.append ?_
    intro event mem
    obtain ⟨_, _, rfl⟩ := mem_map.mp mem
    trivial
  have reports : server.close.2.2.events =
      (server.storeJobs.keys.map fun jobId => StoreResult.mk jobId false).map Event.storeReported ++
        (server.inflight.keys.map (fun tid => Event.ended tid false) ++ server.events) := by
    rw [map_map]
    rfl
  rw [reports]
  refine ended.report _ ?_
  intro result _ tid kvId seq jobIds blocks wrote _
  have old : Event.wrote (some tid) kvId seq jobIds blocks ∈ server.events := by
    rcases mem_append.mp wrote with isEnd | old
    · obtain ⟨_, _, absurd'⟩ := mem_map.mp isEnd
      cases absurd'
    · exact old
  rcases (flown tid kvId seq jobIds blocks old).2 with
    ⟨done, isEnded⟩ | ⟨xfer, found, _⟩
  · exact ⟨done, mem_append_right _ isEnded⟩
  · refine ⟨false, mem_append_left _ (mem_map.mpr ⟨tid, ?_, rfl⟩)⟩
    exact mem_map.mpr ⟨(tid, xfer), Dict.get?_eq_some_iff.mp found, rfl⟩

/-- One block is stored and fetched. -/
def fetchedServer : Server :=
  (init.call (.addStoredBlocks (quietEnvironment .proc) 0 [7] [3] 1)).call
    (.onFetch (quietEnvironment .proc) 0 [7] [5] 0)

theorem fetchedServer_reached
    (allowed :
      Allowed init (.addStoredBlocks (quietEnvironment .proc) 0 [7] [3] 1) ∧
        Allowed (init.call (.addStoredBlocks (quietEnvironment .proc) 0 [7] [3] 1))
          (.onFetch (quietEnvironment .proc) 0 [7] [5] 0)) :
    Reached Allowed fetchedServer :=
  .call (.call .init nofun allowed.1) trivial allowed.2

theorem sends_stored_where_asked_fetched :
    Event.wrote (some 0) 0 0 [1] [⟨7, 3, 5⟩] ∈ fetchedServer.events ∧
      Stored fetchedServer.events 1 (7, 3) := by
  have wrote : Event.wrote (some 0) 0 0 [1] [⟨7, 3, 5⟩] ∈ fetchedServer.events := by decide
  have reached : Reached (fun _ _ => True) fetchedServer := fetchedServer_reached ⟨trivial, trivial⟩
  obtain ⟨jobId, isJob, stored⟩ :=
    reached.sends_stored_where_asked.1 _ _ _ _ _ wrote _ mem_cons_self
  rw [mem_singleton.mp isJob] at stored
  exact ⟨wrote, stored⟩

end Server

end VllmCore.P2P
