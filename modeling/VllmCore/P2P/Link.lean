import VllmCore.P2P.ClientRole
import VllmCore.P2P.ServerCalls

namespace VllmCore.P2P

open Lib

/-!
# A client and the server of its peer

Each direction between the two has its channel, which keeps the order of messages.  The
sessions are open: a message that raises leaves the state as it was at the raise.

The log of the link is that of the server; what the client shows goes there.
-/

/-- The calls of a session to its client. -/
inductive ClientOp where
  | requestBlocks (now : Time) (jobId : JobId) (kvRequestId : KvRequestId) (keys : List OffloadKey)
    (blockIds : List Nat)
  | registerLookup (kvRequestId : KvRequestId) (key : OffloadKey)
  | flushPendingLookups
  | finish (kvRequestId : KvRequestId)
  | onTransferDone (kvRequestId : KvRequestId) (success : Bool) (roundSeq : RoundSeq)
  | onAbortAck (kvRequestId : KvRequestId) (roundSeq : RoundSeq)
  | onLookupResp (kvRequestId : KvRequestId) (keys : List OffloadKey) (hits : List Bool)
  | collectResults (now : Time)

/-- The call does not hand over a message. -/
def ClientOp.Local : ClientOp → Prop
  | .onTransferDone _ _ _ | .onAbortAck _ _ | .onLookupResp _ _ _ => False
  | _ => True

namespace Client

/-- The client after a call. -/
def call (client : Client) : ClientOp → Client
  | .requestBlocks now jobId kvRequestId keys blockIds =>
    (client.requestBlocks now jobId kvRequestId keys blockIds).2
  | .registerLookup kvRequestId key => (client.registerLookup kvRequestId key).2
  | .flushPendingLookups => client.flushPendingLookups
  | .finish kvRequestId => client.finish kvRequestId
  | .onTransferDone kvRequestId success roundSeq =>
    client.onTransferDone kvRequestId success roundSeq
  | .onAbortAck kvRequestId roundSeq => client.onAbortAck kvRequestId roundSeq
  | .onLookupResp kvRequestId keys hits => client.onLookupResp kvRequestId keys hits
  | .collectResults now =>
    match client.collectResults now with
    | .ok collected => collected.2
    | .error _ => client

end Client

/-- What the session of the client does with a message. -/
def ClientOp.ofMessage : Message → Option ClientOp
  | .transferDone kvRequestId success roundSeq =>
    some (.onTransferDone kvRequestId success roundSeq)
  | .abortAck kvRequestId roundSeq => some (.onAbortAck kvRequestId roundSeq)
  | .lookupResp kvRequestId keys hits => some (.onLookupResp kvRequestId keys hits)
  | _ => none

/-- What the session of the server does with a message. -/
def ServerOp.ofMessage (env : Environment) : Message → Option ServerOp
  | .fetch kvRequestId keys blockIndexes roundSeq =>
    some (.onFetch env kvRequestId keys blockIndexes roundSeq)
  | .abortFetch kvRequestId roundSeq => some (.onAbortFetch env kvRequestId roundSeq)
  | .lookup kvRequestId keys roundSeq => some (.onLookup env kvRequestId keys roundSeq)
  | _ => none

structure Link where
  client : Client
  server : Server
  /-- Messages on their way to the server, oldest first. -/
  toServer : List Message
  /-- Messages on their way to the client, oldest first. -/
  toClient : List Message

inductive LinkOp where
  | client (op : ClientOp)
  | server (op : ServerOp)
  | deliverToServer (env : Environment)
  | deliverToClient

namespace Link

def init : Link where
  client := .init
  server := .init
  toServer := []
  toClient := []

variable (link : Link)

/-- What was sent goes on its way and what the client showed goes into the log. -/
def settle : Link where
  client := { link.client with sent := [], events := [] }
  server :=
    { link.server with sent := [], events := link.client.events ++ link.server.events }
  toServer := link.toServer ++ link.client.sent
  toClient := link.toClient ++ link.server.sent

def callClient (op : ClientOp) : Link :=
  { link with client := link.client.call op }.settle

def callServer (op : ServerOp) : Link :=
  { link with server := link.server.call op }.settle

/-- One step of the link. -/
def step : LinkOp → Link
  | .client op => link.callClient op
  | .server op => link.callServer op
  | .deliverToServer env =>
    match link.toServer with
    | [] => link
    | message :: rest =>
      match ServerOp.ofMessage env message with
      | some op => { link with toServer := rest }.callServer op
      | none => { link with toServer := rest }
  | .deliverToClient =>
    match link.toClient with
    | [] => link
    | message :: rest =>
      match ClientOp.ofMessage message with
      | some op => { link with toClient := rest }.callClient op
      | none => { link with toClient := rest }

/-- Jobs have new ids, keys have their blocks and messages come through the channels. -/
def Promised : LinkOp → Prop
  | .client (.requestBlocks _ jobId _ keys blockIds) =>
    keys.length = blockIds.length ∧ ∀ kvRequestId roundSeq wanted,
        Event.requested jobId kvRequestId roundSeq wanted ∉ link.server.events
  | .client op => op.Local
  | .server op => op.Local ∧ link.server.NewJobs op
  | _ => True

/-- The links that steps of a kind lead to. -/
inductive Reached (Allowed : Link → LinkOp → Prop) : Link → Prop
  | init : Reached Allowed .init
  | step {link : Link} {op : LinkOp} (before : Reached Allowed link) (promised : link.Promised op)
    (allowed : Allowed link op) :
    Reached Allowed (link.step op)

end Link

end VllmCore.P2P
