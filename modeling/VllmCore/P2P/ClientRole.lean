import VllmCore.Lib.Outcome
import VllmCore.P2P.Transport

namespace VllmCore.P2P

open Lib

/-!
# The client role of a peer session

The client asks the peer which blocks it has, fetches blocks and reports every load once
the peer answered its fetch or an abort of it.  The fetches of a request are numbered,
and the number restarts when nothing of the request is left.
-/

def loadTimeout : Time := 30000
def abortAckTimeout : Time := 10000

/-- A load whose fetch is not answered. -/
structure InboundLoadState where
  jobId : JobId
  submittedAt : Time
  abortedAt : Option Time

structure ClientRequestState where
  /-- The answers for probed keys; `none` is still to come. -/
  probes : Dict OffloadKey (Option Bool)
  unsent : List OffloadKey
  roundSeq : RoundSeq
  probed : Bool
  peerLookupOpen : Bool
  loads : Dict RoundSeq InboundLoadState

def ClientRequestState.new : ClientRequestState where
  probes := .empty
  unsent := []
  roundSeq := 0
  probed := false
  peerLookupOpen := false
  loads := .empty

/-- The client role with what it sends and shows. -/
structure Client where
  requests : Dict KvRequestId ClientRequestState
  flushPending : List KvRequestId
  activeLoads : List KvRequestId
  completedLoads : List LoadResult
  /-- Messages to the peer, oldest first. -/
  sent : List Message
  /-- What was seen at the interfaces, newest first. -/
  events : List Event

namespace Client

def init : Client where
  requests := .empty
  flushPending := []
  activeLoads := []
  completedLoads := []
  sent := []
  events := []

variable (client : Client)

variable (kvRequestId : KvRequestId) (now : Time)

/-- The state of a request; a request that is not listed has an empty one. -/
def request : ClientRequestState :=
  client.requests.getD kvRequestId .new

def setRequest (request : ClientRequestState) : Client :=
  { client with requests := client.requests.set kvRequestId request }

/-- The load of a round. -/
def load (roundSeq : RoundSeq) : Option InboundLoadState :=
  (client.request kvRequestId).loads.get? roundSeq

def send (message : Message) : Client :=
  { client with sent := client.sent ++ [message] }

def note (event : Event) : Client :=
  { client with events := event :: client.events }

/-- Drop the entry of a request without loads, probes and keys to send. -/
def maybePrune : Client :=
  let request := client.request kvRequestId
  if request.loads.entries.isEmpty && request.probes.entries.isEmpty &&
      request.unsent.isEmpty then
    { client with requests := client.requests.erase kvRequestId }
  else
    client

/-- Wind down a request once no load of it remains. -/
def onLoadTerminal : Client :=
  if (client.request kvRequestId).loads.entries.isEmpty then
    { client with activeLoads := client.activeLoads.erase kvRequestId }.maybePrune kvRequestId
  else
    client

/-! ## Loads -/

/-- Register a load and send its fetch under the current round. -/
def openLoad (jobId : JobId) (kvRequestId : KvRequestId) (keys : List OffloadKey)
    (blockIds : List Nat) : Client :=
  let request := client.request kvRequestId
  let opened :=
    client.setRequest kvRequestId
      { request with
        roundSeq := request.roundSeq + 1
        loads := request.loads.set request.roundSeq ⟨jobId, now, none⟩
        peerLookupOpen := false }
  ({ opened with activeLoads := opened.activeLoads.insert kvRequestId }.send
    (.fetch kvRequestId keys blockIds request.roundSeq)).note
      (.requested jobId kvRequestId request.roundSeq (keys.zip blockIds))

/-- A request that looked keys up fetches only confirmed keys. -/
def confirmed (request : ClientRequestState) (keys : List OffloadKey) : Bool :=
  !(request.probed && !keys.isEmpty) ||
    !request.probes.entries.isEmpty &&
      keys.all fun key => request.probes.get? key = some (some true)

/-- `request_blocks`: the assertions come after the fetch was sent. -/
def requestBlocks (jobId : JobId) (kvRequestId : KvRequestId) (keys : List OffloadKey)
    (blockIds : List Nat) : Option Fault × Client :=
  let opened := client.openLoad now jobId kvRequestId keys blockIds
  if confirmed (opened.request kvRequestId) keys then
    (none, opened.setRequest kvRequestId { opened.request kvRequestId with probes := .empty })
  else
    (some (.assertion "probes"), opened)

/-- The aborts that a finish owes. -/
def abortMessages (loads : Dict RoundSeq InboundLoadState) : List Message :=
  (loads.entries.filter fun entry => entry.2.abortedAt.isNone).map fun entry =>
    .abortFetch kvRequestId entry.1

def finish : Client :=
  match client.requests.get? kvRequestId with
  | none => client
  | some request =>
    let aborted :=
      if request.loads.entries.isEmpty then
        client
      else
        { client with
          sent := client.sent ++ abortMessages kvRequestId request.loads
          activeLoads := client.activeLoads.erase kvRequestId }
    let closed :=
      if request.peerLookupOpen then
        aborted.send (.fetch kvRequestId [] [] request.roundSeq)
      else
        aborted
    { closed.setRequest kvRequestId
        { request with
          loads := .empty
          peerLookupOpen := false
          probes := .empty
          unsent := [] } with
      flushPending := closed.flushPending.erase kvRequestId }.maybePrune kvRequestId

/-- Take a load out of its request and keep its result. -/
def completeLoad (roundSeq : RoundSeq) (success : Bool) : Client :=
  match client.load kvRequestId roundSeq with
  | none => client
  | some load =>
    { client.setRequest kvRequestId
        { client.request kvRequestId with
          loads := (client.request kvRequestId).loads.erase roundSeq } with
      completedLoads :=
        client.completedLoads ++
          [LoadResult.mk load.jobId kvRequestId success] }.onLoadTerminal kvRequestId

def onTransferDone (success : Bool) (roundSeq : RoundSeq) : Client :=
  client.completeLoad kvRequestId roundSeq success

def onAbortAck (roundSeq : RoundSeq) : Client :=
  client.completeLoad kvRequestId roundSeq false

/-! ## Lookups -/

def registerLookup (key : OffloadKey) : Option Bool × Client :=
  let request := client.request kvRequestId
  match request.probes.get? key with
  | some answer => (answer, client.setRequest kvRequestId { request with probed := true })
  | none =>
    (none, { client.setRequest kvRequestId
          { request with
            probed := true
            probes := request.probes.set key none
            unsent := request.unsent ++ [key] } with
        flushPending := client.flushPending.insert kvRequestId })

/-- Send the keys of a request that were not sent. -/
def flushLookups : Client :=
  match client.requests.get? kvRequestId with
  | none => client
  | some request =>
    if request.unsent.isEmpty then
      client
    else
      (client.setRequest kvRequestId { request with peerLookupOpen := true, unsent := [] }).send
          (.lookup kvRequestId request.unsent request.roundSeq)

def flushPendingLookups : Client :=
  { client.flushPending.foldl flushLookups client with flushPending := [] }

/-- The answer for one key. -/
def resolveProbe (probes : Dict OffloadKey (Option Bool)) (answer : OffloadKey × Bool) :
    Dict OffloadKey (Option Bool) :=
  if probes.contains answer.1 then probes.set answer.1 (some answer.2) else probes

def onLookupResp (keys : List OffloadKey) (hits : List Bool) : Client :=
  match client.requests.get? kvRequestId with
  | none => client
  | some request =>
    client.setRequest kvRequestId
      { request with probes := (keys.zip hits).foldl resolveProbe request.probes }

/-! ## Polling -/

/-- Abort a load that takes too long. -/
def abortLoad (kvRequestId : KvRequestId) (client : Client) (entry : RoundSeq × InboundLoadState) :
    Client :=
  if entry.2.abortedAt.isNone && loadTimeout ≤ now - entry.2.submittedAt then
    (client.setRequest kvRequestId
      { client.request kvRequestId with
        loads :=
          (client.request kvRequestId).loads.set entry.1
            { entry.2 with abortedAt := some now } }).send
      (.abortFetch kvRequestId entry.1)
  else
    client

/-- The aborted loads of a request whose acknowledgement takes too long. -/
def overdueLoads (request : ClientRequestState) : List RoundSeq :=
  (request.loads.entries.filter fun entry =>
    match entry.2.abortedAt with
    | some abortedAt => abortAckTimeout ≤ now - abortedAt
    | none => false).map Prod.fst

/-- Walk the loads of one request. -/
def walkLoads (client : Client) (kvRequestId : KvRequestId) : Outcome Client :=
  match client.requests.get? kvRequestId with
  | none => .error (.key "kv_request_id")
  | some request =>
    if request.loads.entries.isEmpty then
      .error (.assertion "loads")
    else
      .ok (request.loads.entries.foldl (abortLoad now kvRequestId) client)

/-- The loads to give up, by request and round, in the order of the walk. -/
def overdue : List (KvRequestId × RoundSeq) :=
  client.activeLoads.flatMap fun kvRequestId =>
    (overdueLoads now (client.request kvRequestId)).map fun roundSeq =>
      (kvRequestId, roundSeq)

/-- Show the results. -/
def report : List LoadResult × Client :=
  (client.completedLoads, { client with
      completedLoads := []
      events := client.completedLoads.map Event.loadReported ++ client.events })

/--
`collect_results`: loads past their time are aborted, aborts past their time are given up
as failed.  The source walks the requests with loads once and removes afterwards.
-/
def collectResults : Outcome (List LoadResult × Client) := do
  let overdue := client.overdue now
  let walked ← client.activeLoads.foldlM (walkLoads now) client
  let removed :=
    overdue.foldl (fun client entry => client.completeLoad entry.1 entry.2 false) walked
  return removed.report

/-- Tear down: the load jobs and the requests that fail. -/
def close : List JobId × List KvRequestId × Client :=
  (client.requests.values.flatMap fun request =>
      request.loads.values.map InboundLoadState.jobId,
    (client.requests.entries.filter fun entry =>
      !entry.2.loads.entries.isEmpty || entry.2.probes.values.any Option.isNone).map Prod.fst,
    { client with
      requests := .empty
      flushPending := []
      activeLoads := []
      completedLoads := [] })

end Client

end VllmCore.P2P
