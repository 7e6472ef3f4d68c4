import VllmCore.Lib.Outcome
import VllmCore.P2P.Transport

namespace VllmCore.P2P

open Function Lib

/-!
# The server role of a peer session

The server matches the blocks that store jobs bring with the blocks the peer fetches,
one round at a time, and hands every match to the transport.  Rounds are objects that
transfers keep referring to after a round was taken out of its request, so they live in
a heap and are known by a reference.

A store job is reported when its blocks may be released.  Results that arise between
two polls are kept until the next one.
-/

/-- A round object. -/
abbrev RoundRef := Nat

def storeTimeout : Time := 30000
def cancelDrainTimeout : Time := 10000
def lookupPendingTimeout : Time := 5000

/-- Matched blocks and the store jobs they came from. -/
structure MatchResult where
  blocks : List MatchedBlock
  jobIds : List JobId

/-- One fetch round of a peer request. -/
structure OutboundRequestState where
  lookupSupplied : Bool
  demandReceived : Bool
  available : Dict OffloadKey (JobId × Nat)
  demanded : Dict OffloadKey Nat
  remaining : Int
  finishing : Bool
  inflight : Int
  pendingJobIds : List JobId

namespace OutboundRequestState

def new : OutboundRequestState where
  lookupSupplied := false
  demandReceived := false
  available := .empty
  demanded := .empty
  remaining := 0
  finishing := false
  inflight := 0
  pendingJobIds := []

/-- Stored blocks meet demand or wait for it. -/
def takeSupply (jobId : JobId) :
    List (OffloadKey × Nat) → OutboundRequestState → List MatchedBlock × OutboundRequestState
  | [], round => ([], round)
  | (key, localIdx) :: rest, round =>
    match round.demanded.get? key with
    | some remoteIdx =>
      let matched :=
        takeSupply jobId rest { round with demanded := round.demanded.erase key }
      (⟨key, localIdx, remoteIdx⟩ :: matched.1, matched.2)
    | none =>
      takeSupply jobId rest
        { round with available := round.available.set key (jobId, localIdx) }

def addStoredBlocks
    (round : OutboundRequestState) (blocks : List (OffloadKey × Nat)) (jobId : JobId) :
    MatchResult × OutboundRequestState :=
  let matched :=
    takeSupply jobId blocks
      { round with pendingJobIds := round.pendingJobIds.insert jobId }
  (⟨matched.1, if matched.1.isEmpty then [] else [jobId]⟩, matched.2)

/-- Demanded blocks meet supply or wait for it. -/
def takeDemand :
    List (OffloadKey × Nat) → OutboundRequestState → MatchResult × OutboundRequestState
  | [], round => (⟨[], []⟩, round)
  | (key, remoteIdx) :: rest, round =>
    match round.available.get? key with
    | some (jobId, localIdx) =>
      let matched := takeDemand rest { round with available := round.available.erase key }
      (⟨⟨key, localIdx, remoteIdx⟩ :: matched.1.blocks, matched.1.jobIds.insert jobId⟩, matched.2)
    | none => takeDemand rest { round with demanded := round.demanded.set key remoteIdx }

def addFetchDemand (round : OutboundRequestState) (wanted : List (OffloadKey × Nat)) :
    MatchResult × OutboundRequestState :=
  takeDemand wanted { round with demandReceived := true, remaining := wanted.length }

end OutboundRequestState

/-- A transfer in flight.  The source keeps the number of its blocks. -/
structure InflightXfer where
  kvRequestId : KvRequestId
  blocks : List MatchedBlock
  jobIds : List JobId
  round : RoundRef
  roundKey : RoundSeq

def InflightXfer.blockCount (xfer : InflightXfer) : Nat :=
  xfer.blocks.length

/-- An inbound lookup whose keys are being resolved. -/
structure ActiveLookup where
  ctx : LookupContext
  roundSeq : RoundSeq
  keys : List OffloadKey
  resolved : Dict OffloadKey Bool
  pending : List OffloadKey
  deadline : Time

/-- A raw inbound lookup. -/
structure PendingLookup where
  keys : List OffloadKey
  enqueuedAt : Time
  roundSeq : RoundSeq

structure ServerRequestState where
  outbound : Dict RoundSeq RoundRef
  pendingLookups : List PendingLookup
  lookups : Dict Nat ActiveLookup
  inflightTids : List TransferId

namespace ServerRequestState

def new : ServerRequestState where
  outbound := .empty
  pendingLookups := []
  lookups := .empty
  inflightTids := []

/-- No field holds anything. -/
def isIdle (request : ServerRequestState) : Bool :=
  request.outbound.entries.isEmpty && request.inflightTids.isEmpty &&
    request.lookups.entries.isEmpty && request.pendingLookups.isEmpty

end ServerRequestState

inductive LookupResult where
  | miss
  | hit
  | hitPending
  | retry
  deriving DecidableEq, Repr

/--
What the tiering manager answers while the server may call it.

Answers are given by the number of earlier questions, job ids and the blocks of a job by
the number of earlier jobs.
-/
structure Parent where
  answer : Nat → OffloadKey → LookupResult
  jobId : Nat → JobId
  blockId : Nat → OffloadKey → Nat
  asked : Nat
  created : Nat

def Parent.absent : Parent where
  answer := fun _ _ => .miss
  jobId := id
  blockId := fun _ _ => 0
  asked := 0
  created := 0

/-- The server role with what it talks to. -/
structure Server where
  requests : Dict KvRequestId ServerRequestState
  servePending : List KvRequestId
  inflight : Dict TransferId InflightXfer
  storeJobs : Dict JobId Time
  pendingStoreResults : List StoreResult
  finishedLookupCtxs : List LookupContext
  lookupIdCounter : Nat
  pendingAborts : Dict (KvRequestId × RoundSeq) Time
  rounds : RoundRef → OutboundRequestState
  nextRound : RoundRef
  transport : Transport
  parent : Parent
  /-- Messages to the peer, oldest first. -/
  sent : List Message
  /-- What was seen at the interfaces, newest first. -/
  events : List Event

namespace Server

def init : Server where
  requests := .empty
  servePending := []
  inflight := .empty
  storeJobs := .empty
  pendingStoreResults := []
  finishedLookupCtxs := []
  lookupIdCounter := 0
  pendingAborts := .empty
  rounds := fun _ => .new
  nextRound := 0
  transport := .init
  parent := .absent
  sent := []
  events := []

/-! ## Parts of the state -/

variable (server : Server) (env : Environment)

variable (kvRequestId : KvRequestId) (tid : TransferId)

/-- The state of a request; a request that is not listed has an empty one. -/
def request : ServerRequestState :=
  server.requests.getD kvRequestId .new

def setRequest (request : ServerRequestState) : Server :=
  { server with requests := server.requests.set kvRequestId request }

def getOrCreateRequest : Server :=
  server.setRequest kvRequestId (server.request kvRequestId)

section

variable (roundSeq : RoundSeq)

/-- The round registered under a number of a request. -/
def registered : Option RoundRef :=
  (server.request kvRequestId).outbound.get? roundSeq

def setRound (ref : RoundRef) (round : OutboundRequestState) : Server :=
  { server with rounds := update server.rounds ref round }

def send (message : Message) : Server :=
  { server with sent := server.sent ++ [message] }

def note (event : Event) : Server :=
  { server with events := event :: server.events }

/-- Drop the entry of a request once it holds no live state. -/
def maybePrune : Server :=
  if (server.request kvRequestId).isIdle &&
      !server.pendingAborts.keys.any (fun abort => abort.1 = kvRequestId) then
    { server with requests := server.requests.erase kvRequestId }
  else
    server

/-- Take a round out of its request. -/
def unregister : Server :=
  server.setRequest kvRequestId
    { server.request kvRequestId with
      outbound := (server.request kvRequestId).outbound.erase roundSeq }

/-- The round registered under a number, created when there is none. -/
def openRound : RoundRef × Server :=
  match server.registered kvRequestId roundSeq with
  | some ref => (ref, server.getOrCreateRequest kvRequestId)
  | none =>
    (server.nextRound, { server.setRequest kvRequestId
          { server.request kvRequestId with
            outbound :=
              (server.request kvRequestId).outbound.set roundSeq server.nextRound } with
        rounds := update server.rounds server.nextRound .new
        nextRound := server.nextRound + 1 })

end

/-! ## Transfers in flight and store results -/

def inflightAdd (xfer : InflightXfer) : Server :=
  { server.setRequest xfer.kvRequestId
      { server.request xfer.kvRequestId with
        inflightTids := (server.request xfer.kvRequestId).inflightTids.insert tid } with
    inflight := server.inflight.set tid xfer }

/-- Forget a transfer. -/
def dropInflight (xfer : InflightXfer) : Server :=
  let counted :=
    { server with
      inflight := server.inflight.erase tid
      rounds :=
        update server.rounds xfer.round
          { server.rounds xfer.round with
            inflight := (server.rounds xfer.round).inflight - 1 } }
  match server.requests.get? xfer.kvRequestId with
  | some request =>
    counted.setRequest xfer.kvRequestId
      { request with inflightTids := request.inflightTids.erase tid }
  | none => counted

def inflightPop : Option InflightXfer × Server :=
  match server.inflight.get? tid with
  | some xfer => (some xfer, server.dropInflight tid xfer)
  | none => (none, server)

/-- Report store jobs that were not reported before. -/
def settleJobs (success : Bool) :
    List JobId → Server → List StoreResult × Server
  | [], server => ([], server)
  | jobId :: rest, server =>
    if server.storeJobs.contains jobId then
      let settled :=
        settleJobs success rest { server with storeJobs := server.storeJobs.erase jobId }
      (⟨jobId, success⟩ :: settled.1, settled.2)
    else
      settleJobs success rest server

/-- Report the jobs of a finished transfer. -/
def settleXferJobs (xfer : InflightXfer) (success : Bool) : List StoreResult × Server :=
  let settled := settleJobs success xfer.jobIds server
  let round := settled.2.rounds xfer.round
  (settled.1, settled.2.setRound xfer.round
      { round with
        pendingJobIds :=
          round.pendingJobIds.filter fun jobId =>
            jobId ∉ settled.1.map StoreResult.jobId })

/-- Report the jobs of a round that are still to be reported. -/
def settleRoundJobs (ref : RoundRef) (success : Bool) : List StoreResult × Server :=
  let settled := settleJobs success (server.rounds ref).pendingJobIds server
  (settled.1, settled.2.setRound ref { settled.2.rounds ref with pendingJobIds := [] })

def failRoundJobs (ref : RoundRef) : List StoreResult × Server :=
  server.settleRoundJobs ref false

/-- Keep results for the next poll. -/
def deferResults (results : List StoreResult) : Server :=
  { server with pendingStoreResults := server.pendingStoreResults ++ results }

section

variable (roundKey : RoundSeq)

/-- Take a round out of its request and settle its jobs, with a message or without. -/
def endRound (ref : RoundRef) (success tell : Bool) : Server :=
  let settled := (server.unregister kvRequestId roundKey).settleRoundJobs ref success
  let deferred := settled.2.deferResults settled.1
  if tell then
    deferred.send (.transferDone kvRequestId success roundKey)
  else
    deferred

/-- End a registered round and emit its terminal results. -/
def closeRound (ref : RoundRef) (success : Option Bool) (sendDone : Bool) : Server :=
  let round := server.rounds ref
  (server.endRound kvRequestId roundKey ref
    (success.getD (round.demandReceived && round.remaining == 0))
    (sendDone && round.demandReceived)).maybePrune kvRequestId

/-- `_finalize_outbound`: there is a `KeyError` when no such round is registered. -/
def finalizeOutbound (success : Option Bool := none) (sendDone : Bool := true) : Outcome Server :=
  match server.registered kvRequestId roundKey with
  | some ref => .ok (server.closeRound kvRequestId roundKey ref success sendDone)
  | none => .error (.key "round")

/-- End a round if it is registered. -/
def finalizeRegistered (success : Option Bool := none) (sendDone : Bool := true) : Server :=
  match server.finalizeOutbound kvRequestId roundKey success sendDone with
  | .ok after => after
  | .error _ => server

end

/-- Hand matched blocks to the transport. -/
def writeMatched (server : Server) (kvRequestId : KvRequestId) (result : MatchResult)
    (ref : RoundRef) (roundKey : RoundSeq) : Option TransferId × Server :=
  let written := server.transport.writeBlocks env result.blocks
  let asked :=
    { server with transport := written.2 }.note
      (.wrote written.1 kvRequestId roundKey result.jobIds result.blocks)
  match written.1 with
  | some tid =>
    let counted :=
      asked.setRound ref
        { server.rounds ref with inflight := (server.rounds ref).inflight + 1 }
    (some tid, counted.inflightAdd tid
        { kvRequestId
          blocks := result.blocks
          jobIds := result.jobIds
          round := ref
          roundKey })
  | none => (none, asked.setRound ref { server.rounds ref with finishing := true })

def submitTransfer (server : Server) (kvRequestId : KvRequestId) (result : MatchResult)
    (ref : RoundRef) (roundKey : RoundSeq) : Server :=
  let written := server.writeMatched env kvRequestId result ref roundKey
  match written.1 with
  | some _ => written.2
  | none =>
    -- Nothing in flight will satisfy the matched blocks, so the round ends as soon as
    -- no other transfer of it is in flight.
    if written.2.registered kvRequestId roundKey = some ref &&
        (written.2.rounds ref).inflight == 0 then
      written.2.finalizeRegistered kvRequestId roundKey (some false)
    else
      written.2

/-- Register stored blocks with their round. -/
def supplyRound (ref : RoundRef) (blocks : List (OffloadKey × Nat)) (jobId : JobId) (now : Time)
    (fromLookup : Bool) : MatchResult × Server :=
  let round := server.rounds ref
  let matched :=
    { round with lookupSupplied := round.lookupSupplied || fromLookup }.addStoredBlocks
      blocks jobId
  (matched.1, { server.setRound ref matched.2 with
      storeJobs := server.storeJobs.set jobId now }.note
        (.stored kvRequestId jobId blocks))

def addStoredBlocks (server : Server) (kvRequestId : KvRequestId) (keys : List OffloadKey)
    (blockIds : List Nat) (jobId : JobId) (roundSeq : RoundSeq := 0) (fromLookup : Bool := false) :
    Server :=
  let opened := server.openRound kvRequestId roundSeq
  let supplied :=
    opened.2.supplyRound kvRequestId opened.1 (keys.zip blockIds) jobId env.now fromLookup
  if !supplied.1.blocks.isEmpty && (supplied.2.rounds opened.1).demandReceived then
    supplied.2.submitTransfer env kvRequestId supplied.1 opened.1 roundSeq
  else
    supplied.2

/-! ## Inbound lookups -/

/-- Close the lookup phase of a request. -/
def finishInboundLookups : Server :=
  match server.requests.get? kvRequestId with
  | none => server
  | some request =>
    let cleared :=
      { server.setRequest kvRequestId
          { request with pendingLookups := [], lookups := .empty } with
        finishedLookupCtxs :=
          server.finishedLookupCtxs ++ request.lookups.values.map ActiveLookup.ctx
        servePending := server.servePending.erase kvRequestId }
    cleared.maybePrune kvRequestId

def onLookup (server : Server) (kvRequestId : KvRequestId) (keys : List OffloadKey)
    (roundSeq : RoundSeq) : Server :=
  { server.setRequest kvRequestId
      { server.request kvRequestId with
        pendingLookups :=
          (server.request kvRequestId).pendingLookups ++ [⟨keys, env.now, roundSeq⟩] } with
    servePending := server.servePending.insert kvRequestId }

/-- Ask the tiering manager for keys that are not resolved. -/
def askParent :
    List OffloadKey → ActiveLookup → Parent → List OffloadKey × ActiveLookup × Parent
  | [], lookup, parent => ([], lookup, parent)
  | key :: rest, lookup, parent =>
    if lookup.resolved.contains key then
      askParent rest lookup parent
    else
      let later := { parent with asked := parent.asked + 1 }
      match parent.answer parent.asked key with
      | .hit =>
        let others :=
          askParent rest
            { lookup with
              resolved := lookup.resolved.set key true
              pending := lookup.pending.erase key }
            later
        (key :: others.1, others.2)
      | .miss =>
        askParent rest
          { lookup with
            resolved := lookup.resolved.set key false
            pending := lookup.pending.erase key }
          later
      | .hitPending | .retry =>
        askParent rest { lookup with pending := lookup.pending.insert key } later

/-- Pin the hits of a lookup and park them as supply of its round. -/
def pinAndRegisterHits (server : Server) (lookup : ActiveLookup) (keys : List OffloadKey) :
    Server :=
  let parent := server.parent
  { server with parent := { parent with created := parent.created + 1 } }.addStoredBlocks
    env lookup.ctx.kvRequestId keys (keys.map (parent.blockId parent.created))
    (parent.jobId parent.created) lookup.roundSeq true

def pollLookupKeys (server : Server) (lookup : ActiveLookup) (keys : List OffloadKey) :
    ActiveLookup × Server :=
  let asked := askParent keys lookup server.parent
  let answered := { server with parent := asked.2.2 }
  if asked.1.isEmpty then
    (asked.2.1, answered)
  else
    (asked.2.1, answered.pinAndRegisterHits env asked.2.1 asked.1)

/-- Send the aggregated answer and close the synthetic request. -/
def finalizeLookup (lookup : ActiveLookup) : Server :=
  let answered :=
    if lookup.keys.isEmpty then
      server
    else
      server.send
        (.lookupResp lookup.ctx.kvRequestId lookup.keys
          (lookup.keys.map fun key => lookup.resolved.getD key false))
  answered.note (.requestFinished lookup.ctx)

/-- Set the state of a parked lookup. -/
def parkLookup (lookup : ActiveLookup) : Server :=
  server.setRequest kvRequestId
    { server.request kvRequestId with
      lookups := (server.request kvRequestId).lookups.set lookup.ctx.lookupId lookup }

section

variable (server : Server)

def processInboundLookup (raw : PendingLookup) : Server :=
  let lookupId := server.lookupIdCounter + 1
  let fresh : ActiveLookup :=
    { ctx := ⟨kvRequestId, lookupId⟩
      roundSeq := raw.roundSeq
      keys := raw.keys
      resolved := .empty
      pending := []
      deadline := raw.enqueuedAt + lookupPendingTimeout }
  let opened :=
    { server with lookupIdCounter := lookupId }.note (.newRequest fresh.ctx)
  let polled := opened.pollLookupKeys env fresh raw.keys.eraseDups
  if polled.1.pending.isEmpty then
    polled.2.finalizeLookup polled.1
  else
    polled.2.parkLookup kvRequestId polled.1

/-- Poll the pending keys of a parked lookup again; past its deadline they are misses. -/
def repollLookup (lookupId : Nat) : Server :=
  match (server.request kvRequestId).lookups.get? lookupId with
  | none => server
  | some lookup =>
    let polled := server.pollLookupKeys env lookup lookup.pending
    let expired :=
      if lookup.deadline ≤ env.now then
        { polled.1 with
          resolved :=
            polled.1.pending.foldl (fun resolved key => resolved.set key false)
              polled.1.resolved
          pending := [] }
      else
        polled.1
    polled.2.parkLookup kvRequestId expired

/-- Close a parked lookup that has nothing pending. -/
def closeLookup (lookupId : Nat) : Server :=
  match (server.request kvRequestId).lookups.get? lookupId with
  | none => server
  | some lookup =>
    if lookup.pending.isEmpty then
      (server.setRequest kvRequestId
        { server.request kvRequestId with
          lookups :=
            (server.request kvRequestId).lookups.erase lookupId }).finalizeLookup lookup
    else
      server

def resolvePendingLookups (kvRequestId : KvRequestId) : Server :=
  let lookupIds := (server.request kvRequestId).lookups.keys
  let polled := lookupIds.foldl (repollLookup env kvRequestId) server
  lookupIds.foldl (closeLookup kvRequestId) polled

/-- Serve the lookups of one request. -/
def serveRequest (kvRequestId : KvRequestId) : Server :=
  match server.requests.get? kvRequestId with
  | none => { server with servePending := server.servePending.erase kvRequestId }
  | some request =>
    let taken := server.setRequest kvRequestId { request with pendingLookups := [] }
    let processed :=
      request.pendingLookups.foldl (processInboundLookup env kvRequestId) taken
    let resolved := processed.resolvePendingLookups env kvRequestId
    if (resolved.request kvRequestId).pendingLookups.isEmpty &&
        (resolved.request kvRequestId).lookups.entries.isEmpty then
      { resolved with
        servePending := resolved.servePending.erase kvRequestId }.maybePrune kvRequestId
    else
      resolved

def serveExternalRequests (parent : Parent) : Server :=
  let served :=
    server.servePending.foldl (serveRequest env) { server with parent }
  { served with
    finishedLookupCtxs := []
    events := (served.finishedLookupCtxs.map Event.requestFinished).reverse ++ served.events }

end

/-! ## Fetches and aborts -/

/-- Register the demand of a fetch with its round. -/
def demandRound (roundSeq : RoundSeq) (ref : RoundRef) (wanted : List (OffloadKey × Nat)) :
    MatchResult × Server :=
  let matched := (server.rounds ref).addFetchDemand wanted
  (matched.1, (server.setRound ref matched.2).note (.demanded kvRequestId roundSeq wanted))

/-- Whether the round has its demand. -/
def hasDemand (roundSeq : RoundSeq) : Bool :=
  match server.registered kvRequestId roundSeq with
  | some ref => (server.rounds ref).demandReceived
  | none => false

/-- A non-empty fetch after its demand was registered. -/
def serveFetch (server : Server) (kvRequestId : KvRequestId) (result : MatchResult)
    (ref : RoundRef) (roundSeq : RoundSeq) : Option Fault × Server :=
  let round := server.rounds ref
  if round.lookupSupplied && !round.demanded.entries.isEmpty then
    -- The supply of a lookup round precedes its fetch, so what is missing never comes.
    (none, server.finalizeRegistered kvRequestId roundSeq (some false))
  else
    let submitted :=
      if result.blocks.isEmpty then
        server
      else
        server.submitTransfer env kvRequestId result ref roundSeq
    if (submitted.rounds ref).finishing && (submitted.rounds ref).inflight == 0 then
      match submitted.finalizeOutbound kvRequestId roundSeq with
      | .ok after => (none, after)
      | .error fault => (some fault, submitted)
    else
      (none, submitted)

def onFetch (server : Server) (kvRequestId : KvRequestId) (keys : List OffloadKey)
    (blockIndexes : List Nat) (roundSeq : RoundSeq) : Option Fault × Server :=
  if server.hasDemand kvRequestId roundSeq then
    (some (.value "duplicate fetch"), server)
  else
    let opened := server.openRound kvRequestId roundSeq
    let demanded :=
      opened.2.demandRound kvRequestId roundSeq opened.1 (keys.zip blockIndexes)
    if keys.isEmpty then
      let closed := demanded.2.finishInboundLookups kvRequestId
      (none, (closed.request kvRequestId).outbound.keys.foldl
          (fun server roundKey =>
            server.finalizeRegistered kvRequestId roundKey none false)
          closed)
    else
      demanded.2.serveFetch env kvRequestId demanded.1 opened.1 roundSeq

section

variable (roundSeq : RoundSeq)

def finalizeAbort : Server :=
  ({ server with
      pendingAborts := server.pendingAborts.erase (kvRequestId, roundSeq) }.send
    (.abortAck kvRequestId roundSeq)).maybePrune kvRequestId

/-- Take an aborted round out of its request and fail its jobs. -/
def detachRound : Server :=
  match server.registered kvRequestId roundSeq with
  | some ref => server.endRound kvRequestId roundSeq ref false false
  | none => server

/-- The transfers of a round, by its number. -/
def roundTransfers : List TransferId :=
  (server.inflight.entries.filter fun entry =>
    entry.2.kvRequestId = kvRequestId && entry.2.roundKey = roundSeq).map Prod.fst

end

/-- Forget transfers the transport gave up. -/
def cancelTransfers (ids : List TransferId) : Server :=
  ids.foldl (fun server tid => ((server.inflightPop tid).2).note (.ended tid false)) server

/-- One attempt to drain an abort. -/
def drainAbort (server : Server) (kvRequestId : KvRequestId) (roundSeq : RoundSeq) : Server :=
  let detached := server.detachRound kvRequestId roundSeq
  let ids := detached.roundTransfers kvRequestId roundSeq
  if ids.isEmpty then
    detached.finalizeAbort kvRequestId roundSeq
  else if
      cancelDrainTimeout ≤
        env.now - detached.pendingAborts.getD (kvRequestId, roundSeq) env.now then
    { detached.cancelTransfers ids with
      transport := detached.transport.cancel ids }.finalizeAbort kvRequestId roundSeq
  else
    let cancelled := detached.transport.cancelWait env ids
    let gone := ids.filter fun tid => tid ∉ cancelled.1
    let released :=
      { detached.cancelTransfers gone with transport := cancelled.2 }
    if cancelled.1.isEmpty then
      released.finalizeAbort kvRequestId roundSeq
    else
      released

def onAbortFetch (server : Server) (kvRequestId : KvRequestId) (roundSeq : RoundSeq) : Server :=
  let known := server.getOrCreateRequest kvRequestId
  { known with
    pendingAborts :=
      if known.pendingAborts.contains (kvRequestId, roundSeq) then
        known.pendingAborts
      else
        known.pendingAborts.set (kvRequestId, roundSeq) env.now }.drainAbort env kvRequestId
    roundSeq

/-- Attempt every parked abort again. -/
def drainPendingAborts (server : Server) : Server :=
  server.pendingAborts.keys.foldl
    (fun server abort => server.drainAbort env abort.1 abort.2) server

/-! ## Local finish and polling -/

/-- End a round that finishes, unless its demand or a transfer is still to come. -/
def finishRound (server : Server) (entry : RoundSeq × RoundRef) : Server :=
  let marked := server.setRound entry.2 { server.rounds entry.2 with finishing := true }
  let round := marked.rounds entry.2
  if !round.demandReceived || round.inflight != 0 then
    marked
  else
    marked.finalizeRegistered kvRequestId entry.1

def finish : Server :=
  let closed := server.finishInboundLookups kvRequestId
  (closed.request kvRequestId).outbound.entries.foldl (finishRound kvRequestId) closed

/-- The store jobs whose time is over. -/
def timedOut (server : Server) : List JobId :=
  (server.storeJobs.entries.filter fun entry => entry.2 + storeTimeout ≤ env.now).map Prod.fst

def timeoutPendingStoreJobs (server : Server) : List StoreResult × Server :=
  settleJobs false (server.timedOut env) server

/-- A transfer is done: its jobs are settled and its round misses fewer blocks. -/
def completeXfer (xfer : InflightXfer) : List StoreResult × Server :=
  let settled := (server.dropInflight tid xfer).settleXferJobs xfer true
  let round := settled.2.rounds xfer.round
  (settled.1,
    if settled.2.registered xfer.kvRequestId xfer.roundKey = some xfer.round then
      settled.2.setRound xfer.round
        { round with remaining := round.remaining - xfer.blockCount }
    else
      settled.2)

def completeTransfer : List StoreResult × Server :=
  match server.inflight.get? tid with
  | none => ([], server)
  | some xfer =>
    let completed := server.completeXfer tid xfer
    let round := completed.2.rounds xfer.round
    let closed :=
      if completed.2.registered xfer.kvRequestId xfer.roundKey = some xfer.round then
        if round.remaining == 0 then
          completed.2.finalizeRegistered xfer.kvRequestId xfer.roundKey (some true)
        else if round.finishing && round.inflight == 0 then
          completed.2.finalizeRegistered xfer.kvRequestId xfer.roundKey (some false)
        else
          completed.2
      else
        completed.2
    (completed.1, closed.maybePrune xfer.kvRequestId)

/-- A transfer failed: its jobs are settled and its round ends with it. -/
def failXfer (xfer : InflightXfer) : List StoreResult × List (KvRequestId × RoundRef) × Server :=
  let settled := (server.dropInflight tid xfer).settleXferJobs xfer false
  if settled.2.registered xfer.kvRequestId xfer.roundKey = some xfer.round then
    (settled.1, [(xfer.kvRequestId, xfer.round)],
      (settled.2.unregister xfer.kvRequestId xfer.roundKey).send
        (.transferDone xfer.kvRequestId false xfer.roundKey))
  else
    (settled.1, [], settled.2)

def failTransfer : List StoreResult × List (KvRequestId × RoundRef) × Server :=
  match server.inflight.get? tid with
  | none => ([], [], server)
  | some xfer =>
    let failed := server.failXfer tid xfer
    (failed.1, failed.2.1, failed.2.2.maybePrune xfer.kvRequestId)

/-- Cancel the other transfers of a failed round and fail its jobs. -/
def cancelFailedRound (failed : KvRequestId × RoundRef) : List StoreResult × Server :=
  let ids :=
    (server.inflight.entries.filter fun entry => entry.2.round = failed.2).map Prod.fst
  let cancelled :=
    { server.cancelTransfers ids with transport := server.transport.cancel ids }
  let settled := cancelled.failRoundJobs failed.2
  (settled.1, settled.2.maybePrune failed.1)

/-- Run a step for every item and join what the steps report. -/
def collectEach {Item : Type} (step : Server → Item → List StoreResult × Server) :
    List Item → Server → List StoreResult × Server
  | [], server => ([], server)
  | item :: rest, server =>
    let first := step server item
    let others := collectEach step rest first.2
    (first.1 ++ others.1, others.2)

/-- The failed transfers of a poll, with the rounds that ended. -/
def failTransfers :
    List TransferId → Server → List StoreResult × List (KvRequestId × RoundRef) × Server
  | [], server => ([], [], server)
  | tid :: rest, server =>
    let first := server.failTransfer tid
    let others := failTransfers rest first.2.2
    (first.1 ++ others.1, first.2.1 ++ others.2.1, others.2.2)

/-- Ask the transport which transfers ended. -/
def pollTransport (server : Server) : List TransferId × List TransferId × Server :=
  let polled := server.transport.poll env
  (polled.1, polled.2.1, { server with
      transport := polled.2.2
      events :=
        polled.2.1.map (fun tid => Event.ended tid false) ++
          (polled.1.map (fun tid => Event.ended tid true) ++ server.events) })

def report (results : List StoreResult) : Server :=
  { server with events := results.map Event.storeReported ++ server.events }

def collectResults (server : Server) : List StoreResult × Server :=
  let timedOut := server.timeoutPendingStoreJobs env
  let deferred := timedOut.2.pendingStoreResults
  let polled := { timedOut.2 with pendingStoreResults := [] }.pollTransport env
  let completed := collectEach completeTransfer polled.1 polled.2.2
  let failed := failTransfers polled.2.1 completed.2
  let cancelled := collectEach cancelFailedRound failed.2.1 failed.2.2
  let results := timedOut.1 ++ deferred ++ completed.1 ++ failed.1 ++ cancelled.1
  (results, cancelled.2.report results)

/-- Only the timeouts of store jobs, for a session without a connection. -/
def collectIdleTimeouts (server : Server) : List StoreResult × Server :=
  let timedOut := server.timeoutPendingStoreJobs env
  (timedOut.1, timedOut.2.report timedOut.1)

/-- Tear down: the store jobs that fail and the lookups that are still to be closed. -/
def close : List JobId × List LookupContext × Server :=
  let failedStores := server.storeJobs.keys
  let parked :=
    server.requests.values.flatMap fun request => request.lookups.values.map ActiveLookup.ctx
  let ids := server.inflight.keys
  (failedStores, parked ++ server.finishedLookupCtxs, { server with
      storeJobs := .empty
      transport := server.transport.cancel ids
      inflight := .empty
      pendingStoreResults := []
      requests := .empty
      servePending := []
      pendingAborts := .empty
      finishedLookupCtxs := []
      events :=
        failedStores.map (fun jobId => Event.storeReported ⟨jobId, false⟩) ++
          (ids.map (fun tid => Event.ended tid false) ++ server.events) })

end Server

end VllmCore.P2P
