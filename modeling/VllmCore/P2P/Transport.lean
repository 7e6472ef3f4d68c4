import VllmCore.Lib.Dict

namespace VllmCore.P2P

open Lib

/-!
# Messages and the data plane of a peer session

Two sessions talk through control messages and move blocks with a data transport.
The transport keeps a table of the transfers in flight.  What it answers, and what the
clock shows, is up to the environment and given to every operation.

Everything an observer at the interfaces of a session sees is kept as a list of events,
the newest in front.
-/

abbrev KvRequestId := Nat
abbrev RoundSeq := Nat
abbrev OffloadKey := Nat
abbrev JobId := Nat
abbrev TransferId := Nat

/-- Milliseconds of the monotonic clock. -/
abbrev Time := Nat

/-- The control messages after the handshake. -/
inductive Message where
  | fetch (kvRequestId : KvRequestId) (keys : List OffloadKey) (blockIndexes : List Nat)
    (roundSeq : RoundSeq)
  | abortFetch (kvRequestId : KvRequestId) (roundSeq : RoundSeq)
  | transferDone (kvRequestId : KvRequestId) (success : Bool) (roundSeq : RoundSeq)
  | abortAck (kvRequestId : KvRequestId) (roundSeq : RoundSeq)
  | lookup (kvRequestId : KvRequestId) (keys : List OffloadKey) (roundSeq : RoundSeq)
  | lookupResp (kvRequestId : KvRequestId) (keys : List OffloadKey) (hits : List Bool)
  | disconnect
  deriving DecidableEq, Repr

/-- A stored block that a fetch asked for. -/
structure MatchedBlock where
  key : OffloadKey
  localIdx : Nat
  remoteIdx : Nat
  deriving DecidableEq, Repr

structure StoreResult where
  jobId : JobId
  success : Bool
  deriving DecidableEq, Repr

structure LoadResult where
  jobId : JobId
  kvRequestId : KvRequestId
  success : Bool
  deriving DecidableEq, Repr

/-- The context under which a peer's lookup runs at the tiering manager. -/
structure LookupContext where
  kvRequestId : KvRequestId
  lookupId : Nat
  deriving DecidableEq, Repr

/-- What happens at the interfaces of a session. -/
inductive Event where
  /-- A store job brought blocks. -/
  | stored (kvRequestId : KvRequestId) (jobId : JobId) (blocks : List (OffloadKey × Nat))
  /-- A fetch arrived. -/
  | demanded (kvRequestId : KvRequestId) (roundSeq : RoundSeq) (wanted : List (OffloadKey × Nat))
  /-- A transfer was handed to the transport, which may refuse it. -/
  | wrote (transferId : Option TransferId) (kvRequestId : KvRequestId) (roundSeq : RoundSeq)
    (jobIds : List JobId) (blocks : List MatchedBlock)
  /-- The transport no longer has the transfer in flight. -/
  | ended (transferId : TransferId) (done : Bool)
  | storeReported (result : StoreResult)
  /-- A load job asked for blocks. -/
  | requested (jobId : JobId) (kvRequestId : KvRequestId) (roundSeq : RoundSeq)
    (wanted : List (OffloadKey × Nat))
  | loadReported (result : LoadResult)
  | newRequest (ctx : LookupContext)
  | requestFinished (ctx : LookupContext)
  deriving DecidableEq, Repr

/-! ## The transport -/

/-- How a transfer in flight stands. -/
inductive XferState where
  | proc
  | done
  | failed
  deriving DecidableEq, Repr

/-- What the environment answers during one operation. -/
structure Environment where
  now : Time
  /-- Whether the transport accepts a write, by the number of writes asked before. -/
  accepts : Nat → Bool
  state : TransferId → XferState
  /-- Whether a transfer is gone at once when it is cancelled. -/
  releases : TransferId → Bool

structure Transport where
  inflight : Dict TransferId (List MatchedBlock)
  nextId : TransferId
  calls : Nat

namespace Transport

def init : Transport where
  inflight := .empty
  nextId := 0
  calls := 0

variable (env : Environment)

def writeBlocks (transport : Transport) (blocks : List MatchedBlock) :
    Option TransferId × Transport :=
  if env.accepts transport.calls then
    (some transport.nextId,
      { inflight := transport.inflight.set transport.nextId blocks
        nextId := transport.nextId + 1
        calls := transport.calls + 1 })
  else
    (none, { transport with calls := transport.calls + 1 })

/-- The transfers that are done and those that failed leave the table. -/
def poll (transport : Transport) : List TransferId × List TransferId × Transport :=
  let done := transport.inflight.keys.filter fun tid => env.state tid = .done
  let failed := transport.inflight.keys.filter fun tid => env.state tid = .failed
  (done, failed, { transport with inflight := (transport.inflight.eraseAll done).eraseAll failed })

/-- Cancel at once. -/
def cancel (transport : Transport) (ids : List TransferId) : Transport :=
  { transport with inflight := transport.inflight.eraseAll ids }

/-- Cancel and say which transfers are still in flight. -/
def cancelWait (transport : Transport) (ids : List TransferId) : List TransferId × Transport :=
  let known := ids.filter transport.inflight.contains
  (known.filter fun tid => !env.releases tid, transport.cancel (known.filter env.releases))

end Transport

end VllmCore.P2P
