import VllmCore.P2P.ServerChanges

namespace VllmCore.P2P

open Lib List

/-!
# The moves of a server

Every operation of the server is a sequence of moves: a round is opened, supplied,
asked for or ended, a transfer is handed over, done, failed or cancelled, a job is
settled, or only the books are kept.  Coherence is kept by each move.
-/

namespace Server

variable (server : Server)

/-- The rounds of the lookups of a request that are still to be resolved. -/
def openLookups (kvRequestId : KvRequestId) : List RoundSeq :=
  (server.request kvRequestId).pendingLookups.map PendingLookup.roundSeq ++
    (server.request kvRequestId).lookups.values.map ActiveLookup.roundSeq

/-- Lookups are parked with the request they came for. -/
def Filed : Prop :=
  ∀ kvRequestId lookupId lookup, (server.request kvRequestId).lookups.get? lookupId = some lookup →
      lookup.ctx.kvRequestId = kvRequestId

/-- No store job with this id brought blocks so far. -/
def Unused (jobId : JobId) : Prop :=
  ∀ kvRequestId blocks, Event.stored kvRequestId jobId blocks ∉ server.events

/-- Neither a transfer in flight nor a round that waits for its fetch uses the job. -/
def Unread (jobId : JobId) : Prop :=
  (∀ tid xfer, server.inflight.get? tid = some xfer → jobId ∉ xfer.jobIds) ∧
    ∀ kvRequestId roundSeq ref, server.registered kvRequestId roundSeq = some ref →
      (server.rounds ref).demandReceived = false →
        ∀ key localIdx, (server.rounds ref).available.get? key ≠ some (jobId, localIdx)

/-- Requests keep their rounds and their list of transfers. -/
def SameHeld (before after : Server) : Prop :=
  ∀ kvRequestId, (after.request kvRequestId).outbound = (before.request kvRequestId).outbound ∧
      (after.request kvRequestId).inflightTids = (before.request kvRequestId).inflightTids

theorem SameHeld.registered {before after : Server} (same : SameHeld before after)
    (kvId : KvRequestId) (seq : RoundSeq) :
    after.registered kvId seq = before.registered kvId seq := by
  unfold Server.registered
  rw [(same kvId).1]

/-- Only lookups, the list of requests and the table of the transport change. -/
structure SameCore (before after : Server) : Prop where
  held : SameHeld before after
  rounds : after.rounds = before.rounds
  nextRound : after.nextRound = before.nextRound
  inflight : after.inflight = before.inflight
  storeJobs : after.storeJobs = before.storeJobs
  pendingStoreResults : after.pendingStoreResults = before.pendingStoreResults
  pendingAborts : after.pendingAborts = before.pendingAborts
  nextId : after.transport.nextId = before.transport.nextId
  listed : ∀ tid ∈ after.transport.inflight.keys, tid ∈ before.transport.inflight.keys
  sent :
    ∃ answers, after.sent = before.sent ++ answers ∧
      ∀ message ∈ answers, ∃ kvRequestId keys hits, message = .lookupResp kvRequestId keys hits
  events :
    ∃ new, after.events = new ++ before.events ∧
      ∀ event ∈ new, ∃ ctx, event = .newRequest ctx ∨ event = .requestFinished ctx

end Server

/-- What the moves of an operation may do. -/
structure Permit where
  opens : KvRequestId → RoundSeq → Prop
  demands : KvRequestId → RoundSeq → Prop
  looks : KvRequestId → RoundSeq → Prop
  /-- An abort may wait for the transfers of its round. -/
  parks : KvRequestId → RoundSeq → Prop
  /-- Store jobs may bring blocks. -/
  stores : Prop
  /-- The peer may be told that a round is done. -/
  tells : Prop
  /-- Rounds may end and jobs may time out while their blocks are in use. -/
  forces : Prop

/-- Everything is allowed. -/
def Permit.all : Permit where
  opens := fun _ _ => True
  demands := fun _ _ => True
  looks := fun _ _ => True
  parks := fun _ _ => True
  stores := True
  tells := True
  forces := True

/--
A server inside an operation: the rounds that failed and still have transfers to
cancel, and the results the operation is going to return.
-/
structure Serving where
  server : Server
  failing : List RoundRef
  collected : List StoreResult

open Server in
/-- One move. -/
inductive Move (permit : Permit) : Serving → Serving → Prop
  | bookkeep {server after : Server} {failing : List RoundRef} {collected : List StoreResult}
    (same : SameCore server after)
    (looks :
      ∀ kvRequestId, ∀ roundSeq ∈ after.openLookups kvRequestId,
        roundSeq ∈ server.openLookups kvRequestId ∨ permit.looks kvRequestId roundSeq)
    (filed : server.Filed → after.Filed) :
    Move permit ⟨server, failing, collected⟩ ⟨after, failing, collected⟩
  | openRound {server : Server} {failing : List RoundRef} {collected : List StoreResult}
    {kvRequestId : KvRequestId} {roundSeq : RoundSeq}
    (free : server.registered kvRequestId roundSeq = none)
    (permitted : permit.opens kvRequestId roundSeq) :
    Move permit ⟨server, failing, collected⟩
      ⟨(server.openRound kvRequestId roundSeq).2, failing, collected⟩
  | supply {server : Server} {failing : List RoundRef} {collected : List StoreResult}
    {kvRequestId : KvRequestId} {roundSeq : RoundSeq} {ref : RoundRef}
    (blocks : List (OffloadKey × Nat)) {jobId : JobId} (now : Time) (fromLookup : Bool)
    (found : server.registered kvRequestId roundSeq = some ref) (unused : server.Unused jobId)
    (permitted : permit.stores) :
    Move permit ⟨server, failing, collected⟩
      ⟨(server.supplyRound kvRequestId ref blocks jobId now fromLookup).2, failing, collected⟩
  | supplyWrite {server : Server} {failing : List RoundRef} {collected : List StoreResult}
    {kvRequestId : KvRequestId} {roundSeq : RoundSeq} {ref : RoundRef} (env : Environment)
    (blocks : List (OffloadKey × Nat)) {jobId : JobId} (now : Time) (fromLookup : Bool)
    (found : server.registered kvRequestId roundSeq = some ref) (unused : server.Unused jobId)
    (permitted : permit.stores) (asked : (server.rounds ref).demandReceived = true)
    (matched : (server.supplyRound kvRequestId ref blocks jobId now fromLookup).1.blocks ≠ []) :
    Move permit ⟨server, failing, collected⟩
      ⟨((server.supplyRound kvRequestId ref blocks jobId now
          fromLookup).2.writeMatched env kvRequestId
          (server.supplyRound kvRequestId ref blocks jobId now fromLookup).1 ref
          roundSeq).2,
        failing, collected⟩
  | demand {server : Server} {failing : List RoundRef} {collected : List StoreResult}
    {kvRequestId : KvRequestId} {roundSeq : RoundSeq} {ref : RoundRef}
    (wanted : List (OffloadKey × Nat)) (found : server.registered kvRequestId roundSeq = some ref)
    (unasked : (server.rounds ref).demandReceived = false)
    (permitted : permit.demands kvRequestId roundSeq) :
    Move permit ⟨server, failing, collected⟩
      ⟨(server.demandRound kvRequestId roundSeq ref wanted).2, failing, collected⟩
  | demandWrite {server : Server} {failing : List RoundRef} {collected : List StoreResult}
    {kvRequestId : KvRequestId} {roundSeq : RoundSeq} {ref : RoundRef} (env : Environment)
    (wanted : List (OffloadKey × Nat)) (found : server.registered kvRequestId roundSeq = some ref)
    (unasked : (server.rounds ref).demandReceived = false)
    (permitted : permit.demands kvRequestId roundSeq)
    (matched : (server.demandRound kvRequestId roundSeq ref wanted).1.blocks ≠ []) :
    Move permit ⟨server, failing, collected⟩
      ⟨((server.demandRound kvRequestId roundSeq ref wanted).2.writeMatched env kvRequestId
          (server.demandRound kvRequestId roundSeq ref wanted).1 ref roundSeq).2,
        failing, collected⟩
  | finishing {server : Server} {failing : List RoundRef} {collected : List StoreResult}
      (ref : RoundRef) :
      Move permit ⟨server, failing, collected⟩
        ⟨server.setRound ref { server.rounds ref with finishing := true }, failing, collected⟩
  | endRound {server : Server} {failing : List RoundRef} {collected : List StoreResult}
    {kvRequestId : KvRequestId} {roundSeq : RoundSeq} {ref : RoundRef} {success tell : Bool}
    (found : server.registered kvRequestId roundSeq = some ref)
    (quiet : permit.forces ∨ server.Quiet ref)
    (told : tell = true →
      permit.tells ∧ server.Quiet ref ∧ (server.rounds ref).demandReceived = true ∧
        (success = true → (server.rounds ref).remaining = 0)) :
    Move permit ⟨server, failing, collected⟩
      ⟨server.endRound kvRequestId roundSeq ref success tell, failing, collected⟩
  | timeout {server : Server} {failing : List RoundRef} {collected : List StoreResult}
    (jobIds : List JobId) (unread : permit.forces ∨ ∀ jobId ∈ jobIds, server.Unread jobId) :
    Move permit ⟨server, failing, collected⟩
      ⟨(settleJobs false jobIds server).2, failing, collected ++ (settleJobs false jobIds server).1⟩
  | takeDeferred {server : Server} {failing : List RoundRef} {collected : List StoreResult} :
      Move permit ⟨server, failing, collected⟩
        ⟨{ server with pendingStoreResults := [] }, failing,
          collected ++ server.pendingStoreResults⟩
  | poll {server : Server} {failing : List RoundRef} {collected : List StoreResult}
    (env : Environment) :
    Move permit ⟨server, failing, collected⟩
      ⟨(server.pollTransport env).2.2, failing, collected⟩
  | complete {server : Server} {failing : List RoundRef} {collected : List StoreResult}
    {tid : TransferId} {xfer : InflightXfer} (inFlight : server.inflight.get? tid = some xfer)
    (done :
      ∀ kvRequestId roundSeq,
        Event.ended tid true ∈ sinceDemand server.events kvRequestId roundSeq) :
    Move permit ⟨server, failing, collected⟩
      ⟨(server.completeXfer tid xfer).2, failing, collected ++ (server.completeXfer tid xfer).1⟩
  | fail {server : Server} {failing : List RoundRef} {collected : List StoreResult}
    {tid : TransferId} {xfer : InflightXfer} (inFlight : server.inflight.get? tid = some xfer)
    (ended : ∃ done, Event.ended tid done ∈ server.events) (permitted : permit.tells) :
    Move permit ⟨server, failing, collected⟩
      ⟨(server.failXfer tid xfer).2.2, (server.failXfer tid xfer).2.1.map Prod.snd ++ failing,
        collected ++ (server.failXfer tid xfer).1⟩
  | cancel {server : Server} {failing : List RoundRef} {collected : List StoreResult}
    {tid : TransferId} {xfer : InflightXfer} (inFlight : server.inflight.get? tid = some xfer) :
    Move permit ⟨server, failing, collected⟩
      ⟨(server.dropInflight tid xfer).note (.ended tid false), failing, collected⟩
  | failJobs {server : Server} {failing others : List RoundRef} {collected : List StoreResult}
    {ref : RoundRef} (member : failing.Perm (ref :: others)) (quiet : server.Quiet ref) :
    Move permit ⟨server, failing, collected⟩
      ⟨(server.failRoundJobs ref).2, others, collected ++ (server.failRoundJobs ref).1⟩
  | parkAbort {server : Server} {failing : List RoundRef} {collected : List StoreResult}
      (abort : KvRequestId × RoundSeq) (now : Time) (permitted : permit.parks abort.1 abort.2) :
      Move permit ⟨server, failing, collected⟩
        ⟨{ server with pendingAborts := server.pendingAborts.set abort now }, failing, collected⟩
  | ackAbort {server : Server} {failing : List RoundRef} {collected : List StoreResult}
      {kvRequestId : KvRequestId} {roundSeq : RoundSeq}
      (parked : server.pendingAborts.contains (kvRequestId, roundSeq) = true)
      (detached : server.registered kvRequestId roundSeq = none)
      (drained :
        ∀ tid xfer, server.inflight.get? tid = some xfer →
          ¬(xfer.kvRequestId = kvRequestId ∧ xfer.roundKey = roundSeq)) :
      Move permit ⟨server, failing, collected⟩
        ⟨{ server with
            pendingAborts := server.pendingAborts.erase (kvRequestId, roundSeq) }.send
              (.abortAck kvRequestId roundSeq),
          failing, collected⟩
  | report {server : Server} {collected : List StoreResult} :
    Move permit ⟨server, [], collected⟩ ⟨server.report collected, [], []⟩

namespace Server

variable {after before : Server}

theorem SameCore.registered (same : SameCore before after)
    (kvId : KvRequestId) (seq : RoundSeq) :
    after.registered kvId seq = before.registered kvId seq :=
  same.held.registered kvId seq

theorem SameCore.calm (same : SameCore before after) : Calm before after := by
  obtain ⟨new, events, lookups⟩ := same.events
  refine ⟨?_, ?_, same.nextRound, same.inflight, same.nextId, same.listed, new, events, ?_⟩
  · intro kvId seq ref found
    rwa [same.registered] at found
  · intro ref
    rw [same.rounds]
    exact SameBlocks.refl _
  · intro event mem
    obtain ⟨ctx, rfl | rfl⟩ := lookups event mem <;> trivial

variable {server : Server} {ref : RoundRef}

/-- Nothing but books, results and messages changes. -/
theorem calm_of_same
    (registered :
      ∀ other seq', after.registered other seq' = server.registered other seq')
    (rounds : after.rounds = server.rounds) (nextRound : after.nextRound = server.nextRound)
    (inflight : after.inflight = server.inflight) (transport : after.transport = server.transport)
    (events : after.events = new ++ server.events)
    (harmless : ∀ event ∈ new, event.Harmless server.transport.nextId) : Calm server after := by
  refine ⟨?_, ?_, nextRound, inflight, by rw [transport], ?_, new, events, harmless⟩
  · intro other seq' ref found
    rwa [registered] at found
  · intro ref
    rw [rounds]
    exact SameBlocks.refl _
  · rw [transport]
    exact fun _ => id

variable (coherent : server.Coherent) {env : Environment}
include coherent

theorem Coherent.supplyWrite {blocks : List (OffloadKey × Nat)} {jobId : JobId} {now : Time}
    {looked : Bool} (found : server.registered kvId seq = some ref)
    (asked : (server.rounds ref).demandReceived = true)
    (matched : (server.supplyRound kvId ref blocks jobId now looked).1.blocks ≠ []) :
    ((server.supplyRound kvId ref blocks jobId now looked).2.writeMatched env
      kvId (server.supplyRound kvId ref blocks jobId now looked).1 ref
      seq).2.Coherent := by
  have changes := supplyRound_changes found blocks jobId now looked
  obtain ⟨wanted, filled, accounts⟩ := supplyRound_accounts coherent found asked
  refine (coherent.supplyRound found blocks jobId now looked).writeMatched ?_ ?_ matched accounts ?_
  · exact found
  · rw [changes.rounds_self]
    exact addStoredBlocks_round.1.trans asked
  intro block mem
  have supplied := OutboundRequestState.takeSupply_source jobId blocks _ block mem
  refine ⟨jobId, ?_, kvId, blocks, mem_cons_self, supplied⟩
  have jobIds : (server.supplyRound kvId ref blocks jobId now looked).1.jobIds =
        if (server.supplyRound kvId ref blocks jobId now
          looked).1.blocks.isEmpty then [] else [jobId] := rfl
  rw [jobIds, if_neg (by simpa using matched)]
  exact mem_singleton_self jobId

theorem Coherent.demandWrite {wanted : List (OffloadKey × Nat)}
    (found : server.registered kvId seq = some ref)
    (unasked : (server.rounds ref).demandReceived = false)
    (matched : (server.demandRound kvId seq ref wanted).1.blocks ≠ []) :
    ((server.demandRound kvId seq ref wanted).2.writeMatched env kvId
      (server.demandRound kvId seq ref wanted).1 ref seq).2.Coherent := by
  have changes := demandRound_changes found wanted
  refine (coherent.demandRound found unasked wanted).writeMatched ?_ ?_ matched
    (demandRound_accounts coherent found unasked wanted) ?_
  · exact found
  · rw [changes.rounds_self]
    exact (demandedRound_round).1
  intro block mem
  obtain ⟨jobId, jobMember, available⟩ :=
    OutboundRequestState.takeDemand_blocks wanted _ block mem
  exact ⟨jobId, jobMember,
    (coherent.stocked ref block.key jobId block.localIdx available).mono changes.kept⟩

theorem Coherent.failXfer
    (inFlight : server.inflight.get? tid = some xfer) :
    (server.failXfer tid xfer).2.2.Coherent := by
  have settled :=
    (coherent.dropInflight inFlight).calm
      (settleXferJobs_calm (server.dropInflight tid xfer) xfer false)
  unfold Server.failXfer
  dsimp only
  split
  · refine settled.calm ((unregister_calm _ xfer.kvRequestId xfer.roundKey).trans ?_)
    exact calm_of_same (fun _ _ => rfl) rfl rfl rfl rfl (nil_append _).symm nofun
  · exact settled

theorem poll_calm : Calm server (server.pollTransport env).2.2 := by
  refine ⟨fun _ _ _ => id, fun _ => SameBlocks.refl _, rfl, rfl, rfl, ?_, _,
    (append_assoc _ _ _).symm, ?_⟩
  · intro tid mem
    by_contra absent
    have gone := Dict.get?_eq_none_iff.mpr absent
    refine Dict.get?_eq_none_iff.mp ?_ mem
    show (Dict.eraseAll (Dict.eraseAll _ _) _).get? tid = none
    rw [Dict.get?_eraseAll, Dict.get?_eraseAll, gone, ite_self, ite_self]
  · intro event mem
    rcases mem_append.mp mem with failed | done
    · obtain ⟨tid, listed, rfl⟩ := mem_map.mp failed
      exact coherent.listedBelow tid (mem_filter.mp listed).1
    · obtain ⟨tid, listed, rfl⟩ := mem_map.mp done
      exact coherent.listedBelow tid (mem_filter.mp listed).1

end Server

variable {permit : Permit} {before after : Serving}

open Server in
/-- Every move keeps the server coherent. -/
theorem Move.coherent (move : Move permit before after) (coherent : before.server.Coherent) :
    after.server.Coherent := by
  have noEvents (nextId : TransferId) : ∀ event ∈ ([] : List Event), event.Harmless nextId := nofun
  cases move with
  | bookkeep same _ _ => exact coherent.calm same.calm
  | openRound free _ => exact coherent.openRound free
  | supply blocks now looked found _ _ =>
    exact coherent.supplyRound found blocks _ now looked
  | supplyWrite env blocks now looked found _ _ asked matched =>
    exact coherent.supplyWrite found asked matched
  | demand wanted found unasked _ => exact coherent.demandRound found unasked wanted
  | demandWrite env wanted found unasked _ matched =>
    exact coherent.demandWrite found unasked matched
  | finishing ref => exact coherent.calm (setRound_calm ⟨rfl, rfl, rfl, rfl, rfl⟩)
  | endRound _ _ _ => exact coherent.calm (endRound_calm _ _ _ _ _ _)
  | timeout jobIds _ => exact coherent.calm (settleJobs_calm false jobIds _)
  | poll env => exact coherent.calm (poll_calm coherent)
  | complete inFlight done => exact coherent.completeXfer inFlight (done _ _)
  | fail inFlight _ _ => exact coherent.failXfer inFlight
  | @cancel server failing collected tid xfer inFlight =>
    have dropped := coherent.dropInflight inFlight
    refine dropped.calm (calm_of_same (fun _ _ => rfl) rfl rfl rfl rfl
        (show _ = [Event.ended tid false] ++ _ from rfl) ?_)
    intro event mem
    rw [mem_singleton.mp mem]
    rw [(dropInflight_fields).2.2.2.1]
    exact (coherent.flyingBelow tid xfer inFlight).2
  | failJobs _ _ => exact coherent.calm (settleRoundJobs_calm _ _ false)
  | report =>
    refine coherent.calm (calm_of_same (fun _ _ => rfl) rfl rfl rfl rfl rfl ?_)
    intro event mem
    obtain ⟨result, _, rfl⟩ := mem_map.mp mem
    trivial
  | _ =>
    exact coherent.calm
      (calm_of_same (fun _ _ => rfl) rfl rfl rfl rfl (nil_append _).symm (noEvents _))

/-- Any number of moves. -/
def Moves (permit : Permit) : Serving → Serving → Prop :=
  Relation.ReflTransGen (Move permit)

/-- Moves that leave the failing rounds and the results alone. -/
abbrev Server.Reaches (permit : Permit) (failing : List RoundRef) (collected : List StoreResult)
    (before after : Server) : Prop :=
  Moves permit ⟨before, failing, collected⟩ ⟨after, failing, collected⟩

theorem Moves.refl (serving : Serving) : Moves permit serving serving :=
  Relation.ReflTransGen.refl

theorem Moves.single (move : Move permit before after) : Moves permit before after :=
  Relation.ReflTransGen.single move

theorem Moves.trans (before : Moves permit first second)
    (later : Moves permit second third) : Moves permit first third :=
  Relation.ReflTransGen.trans before later

/-- What every move keeps, moves keep. -/
theorem Moves.keeps (Invariant : Serving → Prop) (moves : Moves permit before after)
    (each : ∀ first second, Invariant first → Move permit first second → Invariant second)
    (start : Invariant before) : Invariant after := by
  induction moves with
  | refl => exact start
  | tail _ move ih => exact each _ _ ih move

theorem Moves.coherent (moves : Moves permit before after) (coherent : before.server.Coherent) :
    after.server.Coherent :=
  moves.keeps (fun serving => serving.server.Coherent)
    (fun _ _ held move => move.coherent held) coherent

end VllmCore.P2P
