import Mathlib.Data.List.Perm.Subperm
import VllmCore.P2P.ServerParts

namespace VllmCore.P2P

open Lib List

/-!
# Rounds and transfers agree

A coherent server counts the transfers of every round exactly and keeps, for each round
that has its demand, an account of the places the peer wants filled: each place is done,
in flight, waiting for supply or lost.  A round that misses nothing is therefore done
with all its places and has no transfer in flight.
-/

/-- What the fetch of a round asked for. -/
def Event.demandOf (kvRequestId : KvRequestId) (roundSeq : RoundSeq) :
    Event → Option (List (OffloadKey × Nat))
  | .demanded other otherSeq wanted =>
    if other = kvRequestId ∧ otherSeq = roundSeq then some wanted else none
  | _ => none

/-- The last demand for a round. -/
def latestDemand (events : List Event) (kvRequestId : KvRequestId) (roundSeq : RoundSeq) :
    Option (List (OffloadKey × Nat)) :=
  events.findSome? (Event.demandOf kvRequestId roundSeq)

/-- The events since the last demand for a round. -/
def sinceDemand (events : List Event) (kvRequestId : KvRequestId) (roundSeq : RoundSeq) :
    List Event :=
  events.takeWhile fun event => (event.demandOf kvRequestId roundSeq).isNone

section Demands

variable {events new : List Event} {kvId : KvRequestId} {seq : RoundSeq}

section

variable (other : ∀ event ∈ new, event.demandOf kvId seq = none)
include other

theorem latestDemand_append :
    latestDemand (new ++ events) kvId seq = latestDemand events kvId seq := by
  unfold latestDemand
  rw [findSome?_append, findSome?_eq_none_iff.mpr other, Option.none_or]

theorem sinceDemand_append :
    sinceDemand (new ++ events) kvId seq = new ++ sinceDemand events kvId seq := by
  unfold sinceDemand
  rw [takeWhile_append_of_pos]
  intro event mem
  rw [other event mem]
  rfl

end

theorem latestDemand_cons_self :
    latestDemand (.demanded kvId seq wanted :: events) kvId seq = some wanted := by
  simp [latestDemand, Event.demandOf]

end Demands

/-- Neither a demand nor an accepted transfer comes with the event. -/
def Event.Harmless (nextId : TransferId) : Event → Prop
  | .demanded _ _ _ | .wrote (some _) _ _ _ _ => False
  | .ended tid _ => tid < nextId
  | _ => True

theorem Event.Harmless.demandOf {event : Event}
    (harmless : event.Harmless nextId) (kvId : KvRequestId) (seq : RoundSeq) :
    event.demandOf kvId seq = none := by
  cases event with
  | demanded other seq' wanted => exact harmless.elim
  | _ => rfl

/-- Some transfer of the round among these events has filled a place of the peer. -/
def Served (events : List Event) (kvRequestId : KvRequestId) (roundSeq : RoundSeq)
    (place : OffloadKey × Nat) : Prop :=
  ∃ tid jobIds blocks, Event.wrote (some tid) kvRequestId roundSeq jobIds blocks ∈ events ∧
      Event.ended tid true ∈ events ∧
      place ∈ blocks.map MatchedBlock.want

theorem Served.mono
    (served : Served events kvId seq place)
    (kept : ∀ event ∈ events, event ∈ more) : Served more kvId seq place := by
  obtain ⟨tid, jobIds, blocks, wrote, ended, mem⟩ := served
  exact ⟨tid, jobIds, blocks, kept _ wrote, kept _ ended, mem⟩

namespace Server

/-- The places that transfers of a round are filling. -/
def flying (server : Server) (ref : RoundRef) : List (OffloadKey × Nat) :=
  (server.inflight.entries.filter fun entry => entry.2.round = ref).flatMap fun entry =>
    entry.2.blocks.map MatchedBlock.want

/-- No transfer of the round is in flight. -/
def Quiet (server : Server) (ref : RoundRef) : Prop :=
  ∀ tid xfer, server.inflight.get? tid = some xfer → xfer.round ≠ ref

/-- The account of a round: `limbo` is matched and not yet handed to the transport. -/
structure Accounts
    (server : Server) (kvRequestId : KvRequestId) (roundSeq : RoundSeq) (ref : RoundRef)
    (limbo wanted filled : List (OffloadKey × Nat)) : Prop where
  latest : latestDemand server.events kvRequestId roundSeq = some wanted
  served :
    ∀ place ∈ filled,
      Served (sinceDemand server.events kvRequestId roundSeq) kvRequestId roundSeq place
  places :
    ∀ place, filled.count place + (server.flying ref).count place +
        (server.rounds ref).demanded.entries.count place + limbo.count place ≤
      wanted.count place
  remaining : (server.rounds ref).remaining = wanted.length - filled.length
  written :
    ∀ tid xfer, server.inflight.get? tid = some xfer → xfer.round = ref →
      Event.wrote (some tid) xfer.kvRequestId xfer.roundKey xfer.jobIds xfer.blocks ∈
        sinceDemand server.events kvRequestId roundSeq

/-- A store job brought a block under a key. -/
def Stored (events : List Event) (jobId : JobId) (place : OffloadKey × Nat) : Prop :=
  ∃ kvRequestId blocks, Event.stored kvRequestId jobId blocks ∈ events ∧ place ∈ blocks

structure Coherent (server : Server) : Prop where
  counted :
    ∀ ref, (server.rounds ref).inflight =
      (server.inflight.entries.countP fun entry => entry.2.round = ref : Nat)
  roundsBelow :
    ∀ kvRequestId roundSeq ref,
      server.registered kvRequestId roundSeq = some ref → ref < server.nextRound
  flyingBelow :
    ∀ tid xfer, server.inflight.get? tid = some xfer →
      xfer.round < server.nextRound ∧ tid < server.transport.nextId
  distinct :
    ∀ kvRequestId roundSeq other otherSeq ref, server.registered kvRequestId roundSeq = some ref →
      server.registered other otherSeq = some ref → kvRequestId = other ∧ roundSeq = otherSeq
  keyed :
    ∀ tid xfer kvRequestId roundSeq, server.inflight.get? tid = some xfer →
      server.registered kvRequestId roundSeq = some xfer.round →
        xfer.kvRequestId = kvRequestId ∧ xfer.roundKey = roundSeq
  asked :
    ∀ tid xfer, server.inflight.get? tid = some xfer →
      (server.rounds xfer.round).demandReceived = true
  nonempty : ∀ tid xfer, server.inflight.get? tid = some xfer → xfer.blocks ≠ []
  unasked :
    ∀ kvRequestId roundSeq ref, server.registered kvRequestId roundSeq = some ref →
      (server.rounds ref).demandReceived = false → (server.rounds ref).demanded.entries = []
  accounts :
    ∀ kvRequestId roundSeq ref, server.registered kvRequestId roundSeq = some ref →
      (server.rounds ref).demandReceived = true →
        ∃ wanted filled, server.Accounts kvRequestId roundSeq ref [] wanted filled
  listedBelow : ∀ tid ∈ server.transport.inflight.keys, tid < server.transport.nextId
  endedBelow : ∀ tid done, Event.ended tid done ∈ server.events → tid < server.transport.nextId
  stocked :
    ∀ ref key jobId localIdx, (server.rounds ref).available.get? key = some (jobId, localIdx) →
      Stored server.events jobId (key, localIdx)
  sourced :
    ∀ tid kvRequestId roundSeq jobIds blocks,
      Event.wrote (some tid) kvRequestId roundSeq jobIds blocks ∈ server.events →
        ∀ block ∈ blocks, ∃ jobId ∈ jobIds, Stored server.events jobId block.source

theorem init_coherent : init.Coherent where
  counted := fun _ => rfl
  roundsBelow := nofun
  flyingBelow := nofun
  distinct := nofun
  keyed := nofun
  asked := nofun
  nonempty := nofun
  unasked := nofun
  accounts := nofun
  listedBelow := nofun
  endedBelow := nofun
  stocked := nofun
  sourced := nofun

theorem Stored.mono {events more : List Event}
    (stored : Stored events jobId place) (kept : ∀ event ∈ events, event ∈ more) :
    Stored more jobId place := by
  obtain ⟨kvId, blocks, mem, placed⟩ := stored
  exact ⟨kvId, blocks, kept _ mem, placed⟩

/-! ## What coherence says about a round -/

section Rounds

variable {server : Server} {kvId : KvRequestId} {seq : RoundSeq} {ref : RoundRef}

theorem quiet_iff_countP :
    server.Quiet ref ↔ (server.inflight.entries.countP fun entry => entry.2.round = ref) = 0 := by
  rw [countP_eq_zero]
  constructor
  · rintro quiet ⟨tid, xfer⟩ mem
    simpa using quiet tid xfer (Dict.get?_eq_some_iff.mpr mem)
  · intro none tid xfer found
    simpa using none (tid, xfer) (Dict.get?_eq_some_iff.mp found)

theorem Coherent.quiet_iff (coherent : server.Coherent) :
    server.Quiet ref ↔ (server.rounds ref).inflight = 0 := by
  rw [quiet_iff_countP, coherent.counted]
  exact Int.natCast_eq_zero.symm

theorem Coherent.quiet_of_unasked (coherent : server.Coherent)
    (unasked : (server.rounds ref).demandReceived = false) : server.Quiet ref := by
  rintro tid xfer found rfl
  rw [coherent.asked tid xfer found] at unasked
  cases unasked

theorem flying_eq_nil_iff (coherent : server.Coherent) :
    server.flying ref = [] ↔ server.Quiet ref := by
  unfold flying
  rw [flatMap_eq_nil_iff]
  constructor
  · intro none tid xfer found isRef
    refine coherent.nonempty tid xfer found ?_
    have mem : (tid, xfer) ∈ server.inflight.entries := Dict.get?_eq_some_iff.mp found
    exact map_eq_nil_iff.mp (none (tid, xfer) (by simp [mem, isRef]))
  · rintro quiet ⟨tid, xfer⟩ mem
    rw [mem_filter] at mem
    have found := Dict.get?_eq_some_iff.mpr mem.1
    exact absurd (by simpa using mem.2) (quiet tid xfer found)

/-- A round that misses nothing has filled every place. -/
theorem Accounts.filled_perm
    (accounts : server.Accounts kvId seq ref [] wanted filled)
    (complete : (server.rounds ref).remaining = 0) :
    filled.Perm wanted ∧ server.flying ref = [] := by
  have all : (filled ++ server.flying ref).Subperm wanted := by
    rw [subperm_ext_iff]
    intro place _
    have := accounts.places place
    rw [count_append]
    omega
  have lengths := all.length_le
  have remaining := accounts.remaining
  rw [length_append] at lengths
  have landed : server.flying ref = [] := by
    apply eq_nil_of_length_eq_zero
    omega
  rw [landed, append_nil] at all
  exact ⟨all.perm_of_length_le (by omega), landed⟩

theorem Coherent.quiet_of_complete (coherent : server.Coherent)
    (found : server.registered kvId seq = some ref)
    (asked : (server.rounds ref).demandReceived = true)
    (complete : (server.rounds ref).remaining = 0) : server.Quiet ref := by
  obtain ⟨wanted, filled, accounts⟩ := coherent.accounts kvId seq ref found asked
  exact (flying_eq_nil_iff coherent).mp (accounts.filled_perm complete).2

end Rounds

/-! ## Changes that keep rounds and transfers -/

/-- The same supply, demand and counters. -/
structure SameBlocks (before after : OutboundRequestState) : Prop where
  demandReceived : after.demandReceived = before.demandReceived
  remaining : after.remaining = before.remaining
  inflight : after.inflight = before.inflight
  demanded : after.demanded = before.demanded
  available : after.available = before.available

theorem SameBlocks.refl (round : OutboundRequestState) : SameBlocks round round :=
  ⟨rfl, rfl, rfl, rfl, rfl⟩

/-- Rounds may leave their requests; blocks and transfers stay as they are. -/
structure Calm (before after : Server) : Prop where
  registered :
    ∀ kvRequestId roundSeq ref, after.registered kvRequestId roundSeq = some ref →
      before.registered kvRequestId roundSeq = some ref
  rounds : ∀ ref, SameBlocks (before.rounds ref) (after.rounds ref)
  nextRound : after.nextRound = before.nextRound
  inflight : after.inflight = before.inflight
  nextId : after.transport.nextId = before.transport.nextId
  listed : ∀ tid ∈ after.transport.inflight.keys, tid ∈ before.transport.inflight.keys
  events :
    ∃ new, after.events = new ++ before.events ∧
      ∀ event ∈ new, event.Harmless before.transport.nextId

variable {before after : Server} {kvId : KvRequestId}

/-- An account stays when no demand for the round comes and no place is counted twice. -/
theorem Accounts.later {seq : RoundSeq} {ref : RoundRef}
    {limbo rest wanted filled : List (OffloadKey × Nat)} {new : List Event}
    (accounts : before.Accounts kvId seq ref limbo wanted filled)
    (events : after.events = new ++ before.events)
    (unrelated : ∀ event ∈ new, event.demandOf kvId seq = none)
    (places :
      ∀ place, (after.flying ref).count place + (after.rounds ref).demanded.entries.count place +
            rest.count place ≤
          (before.flying ref).count place +
            (before.rounds ref).demanded.entries.count place + limbo.count place)
    (remaining : (after.rounds ref).remaining = (before.rounds ref).remaining)
    (written :
      ∀ tid xfer, after.inflight.get? tid = some xfer → xfer.round = ref →
        before.inflight.get? tid = some xfer ∨
          Event.wrote (some tid) xfer.kvRequestId xfer.roundKey xfer.jobIds xfer.blocks ∈ new) :
    after.Accounts kvId seq ref rest wanted filled := by
  have since : sinceDemand after.events kvId seq = new ++ sinceDemand before.events kvId seq := by
    rw [events, sinceDemand_append unrelated]
  refine ⟨?_, ?_, ?_, remaining.trans accounts.remaining, ?_⟩
  · rw [events, latestDemand_append unrelated]
    exact accounts.latest
  · intro place mem
    refine (accounts.served place mem).mono fun event old => ?_
    rw [since]
    exact mem_append_right _ old
  · intro place
    have before := accounts.places place
    have traded := places place
    omega
  · intro tid xfer found isRef
    rw [since]
    rcases written tid xfer found isRef with old | isNew
    · exact mem_append_right _ (accounts.written tid xfer old isRef)
    · exact mem_append_left _ isNew

theorem Calm.accounts {ref : RoundRef}
    (calm : Calm before after)
    (accounts : before.Accounts kvId seq ref limbo wanted filled) :
    after.Accounts kvId seq ref limbo wanted filled := by
  obtain ⟨new, events, harmless⟩ := calm.events
  refine accounts.later events (fun event mem => (harmless event mem).demandOf kvId seq) ?_
    (calm.rounds ref).remaining ?_
  · intro place
    unfold flying
    exact le_of_eq (by rw [calm.inflight, (calm.rounds ref).demanded])
  · intro tid xfer found _
    exact .inl (calm.inflight ▸ found)

theorem Coherent.sourced_append {server : Server} {new : List Event} (coherent : server.Coherent)
    (sourced :
      ∀ tid kvId seq jobIds blocks, Event.wrote (some tid) kvId seq jobIds blocks ∈ new →
          ∀ block ∈ blocks, ∃ jobId ∈ jobIds, Stored server.events jobId block.source) :
    ∀ tid kvId seq jobIds blocks,
      Event.wrote (some tid) kvId seq jobIds blocks ∈ new ++ server.events →
        ∀ block ∈ blocks, ∃ jobId ∈ jobIds, Stored (new ++ server.events) jobId block.source := by
  intro tid kvId seq jobIds blocks mem block inBlocks
  obtain ⟨jobId, jobMember, stored⟩ : ∃ jobId ∈ jobIds,
      Stored server.events jobId block.source := by
    rcases mem_append.mp mem with isNew | old
    · exact sourced tid kvId seq jobIds blocks isNew block inBlocks
    · exact coherent.sourced tid kvId seq jobIds blocks old block inBlocks
  exact ⟨jobId, jobMember, stored.mono fun _ => mem_append_right _⟩

theorem Coherent.calm (coherent : before.Coherent) (calm : Calm before after) : after.Coherent := by
  have same := calm
  cases after
  obtain ⟨registered, rounds, rfl, rfl, nextId, listed, new, rfl, harmless⟩ := calm
  dsimp only at nextId
  refine
    { coherent with
      counted := fun ref => (rounds ref).inflight.trans (coherent.counted ref)
      roundsBelow := fun _ _ ref found => coherent.roundsBelow _ _ ref (registered _ _ ref found)
      flyingBelow := by simpa only [nextId] using coherent.flyingBelow
      distinct := fun _ _ _ _ ref found found' =>
        coherent.distinct _ _ _ _ ref (registered _ _ ref found) (registered _ _ ref found')
      keyed := fun tid xfer _ _ found isListed =>
        coherent.keyed tid xfer _ _ found (registered _ _ _ isListed)
      asked := fun tid xfer found =>
        (rounds xfer.round).demandReceived.trans (coherent.asked tid xfer found)
      unasked := ?_
      accounts := ?_
      listedBelow := fun tid mem => nextId ▸ coherent.listedBelow tid (listed tid mem)
      endedBelow := ?_
      stocked := ?_
      sourced := coherent.sourced_append fun _ _ _ _ _ isNew => (harmless _ isNew).elim }
  · intro kvId seq ref found unasked
    rw [(rounds ref).demandReceived] at unasked
    rw [(rounds ref).demanded]
    exact coherent.unasked _ _ ref (registered _ _ ref found) unasked
  · intro kvId seq ref found asked
    rw [(rounds ref).demandReceived] at asked
    obtain ⟨wanted, filled, account⟩ := coherent.accounts _ _ ref (registered _ _ ref found) asked
    exact ⟨wanted, filled, same.accounts account⟩
  · intro tid done mem
    rw [nextId]
    rcases mem_append.mp mem with isNew | old
    · exact harmless _ isNew
    · exact coherent.endedBelow tid done old
  · intro ref key jobId idx found
    rw [(rounds ref).available] at found
    exact (coherent.stocked ref key jobId idx found).mono fun _ => mem_append_right _

end Server

end VllmCore.P2P
