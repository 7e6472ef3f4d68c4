import VllmCore.P2P.ServerPolls

namespace VllmCore.P2P

open Lib

/-!
# The calls of a session to its server

Some calls hand over a message of the peer, the others are local.
-/

/-- The calls of a session to its server. -/
inductive ServerOp where
  | addStoredBlocks (env : Environment) (kvRequestId : KvRequestId) (keys : List OffloadKey)
    (blockIds : List Nat) (jobId : JobId)
  | onLookup (env : Environment) (kvRequestId : KvRequestId) (keys : List OffloadKey)
    (roundSeq : RoundSeq)
  | onFetch (env : Environment) (kvRequestId : KvRequestId) (keys : List OffloadKey)
    (blockIndexes : List Nat) (roundSeq : RoundSeq)
  | onAbortFetch (env : Environment) (kvRequestId : KvRequestId) (roundSeq : RoundSeq)
  | serveExternalRequests (env : Environment) (parent : Parent)
  | finish (kvRequestId : KvRequestId)
  | collectResults (env : Environment)
  | collectIdleTimeouts (env : Environment)
  | drainPendingAborts (env : Environment)

namespace Server

/-- The server after a call. -/
def call (server : Server) : ServerOp → Server
  | .addStoredBlocks env kvRequestId keys blockIds jobId =>
    server.addStoredBlocks env kvRequestId keys blockIds jobId
  | .onLookup env kvRequestId keys roundSeq => server.onLookup env kvRequestId keys roundSeq
  | .onFetch env kvRequestId keys blockIndexes roundSeq =>
    (server.onFetch env kvRequestId keys blockIndexes roundSeq).2
  | .onAbortFetch env kvRequestId roundSeq => server.onAbortFetch env kvRequestId roundSeq
  | .serveExternalRequests env parent => server.serveExternalRequests env parent
  | .finish kvRequestId => server.finish kvRequestId
  | .collectResults env => (server.collectResults env).2
  | .collectIdleTimeouts env => (server.collectIdleTimeouts env).2
  | .drainPendingAborts env => server.drainPendingAborts env

/-- Every store job comes with a new id. -/
def NewJobs (server : Server) : ServerOp → Prop
  | .addStoredBlocks _ _ _ _ jobId => server.Unused jobId
  | .serveExternalRequests _ parent => FreshParent { server with parent }
  | _ => True

theorem init_filed : init.Filed :=
  nofun

end Server

/-- A transport that accepts every write and gives every transfer the same state. -/
def quietEnvironment (state : XferState) : Environment where
  now := 0
  accepts := fun _ => true
  state := fun _ => state
  releases := fun _ => false

/-- The call does not hand over a message. -/
def ServerOp.Local : ServerOp → Prop
  | .onLookup _ _ _ _ | .onFetch _ _ _ _ _ | .onAbortFetch _ _ _ => False
  | _ => True

/-- What local calls do. -/
def Permit.local : Permit where
  opens := fun _ _ => True
  demands := fun _ _ => False
  looks := fun _ _ => True
  parks := fun _ _ => False
  stores := True
  tells := True
  forces := True

namespace Server

theorem localCall_moves (coherent : server.Coherent)
    (filed : server.Filed) (newJobs : server.NewJobs op) (isLocal : op.Local) :
    Moves .local ⟨server, [], []⟩ ⟨server.call op, [], []⟩ := by
  cases op with
  | addStoredBlocks env kvId keys blockIds jobId =>
    exact addStoredBlocks_moves coherent trivial trivial trivial newJobs
  | serveExternalRequests env parent =>
    have set : Moves .local ⟨server, [], []⟩ ⟨{ server with parent }, [], []⟩ := setParent_moves
    have ready : Ready .local { server with parent } :=
      ⟨set.coherent coherent, set.filed filed, newJobs, fun _ _ _ => trivial⟩
    exact serveExternal_serves ⟨fun _ _ => id, trivial, trivial⟩ ready
  | finish kvId => exact finish_moves trivial coherent
  | collectResults env => exact collectResults_moves trivial coherent (.inl trivial)
  | collectIdleTimeouts env => exact idleTimeouts_moves (.inl trivial)
  | drainPendingAborts env => exact drainPendingAborts_moves coherent (.inl trivial)
  | _ => exact isLocal.elim

end Server

end VllmCore.P2P
