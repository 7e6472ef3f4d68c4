import VllmCore.P2P.ServerRole

namespace VllmCore.P2P

open Lib List

/-!
# The parts of a server step

What matching does to a round, what settling does to the store jobs, and which round is
registered after each change of a request.
-/

/-- The key of a matched block and where the peer wants it. -/
def MatchedBlock.want (block : MatchedBlock) : OffloadKey × Nat :=
  (block.key, block.remoteIdx)

/-- The key of a matched block and where it is stored. -/
def MatchedBlock.source (block : MatchedBlock) : OffloadKey × Nat :=
  (block.key, block.localIdx)

namespace OutboundRequestState

/-- Matching changes supply and demand only. -/
structure SameRound (before after : OutboundRequestState) : Prop where
  lookupSupplied : after.lookupSupplied = before.lookupSupplied
  demandReceived : after.demandReceived = before.demandReceived
  remaining : after.remaining = before.remaining
  finishing : after.finishing = before.finishing
  inflight : after.inflight = before.inflight
  pendingJobIds : after.pendingJobIds = before.pendingJobIds

namespace SameRound

theorem refl (round : OutboundRequestState) : SameRound round round :=
  ⟨rfl, rfl, rfl, rfl, rfl, rfl⟩

theorem trans (before : SameRound first second) (later : SameRound second third) :
    SameRound first third :=
  ⟨later.lookupSupplied.trans before.lookupSupplied,
    later.demandReceived.trans before.demandReceived,
    later.remaining.trans before.remaining, later.finishing.trans before.finishing,
    later.inflight.trans before.inflight, later.pendingJobIds.trans before.pendingJobIds⟩

end SameRound

variable (wanted : List (OffloadKey × Nat)) (round : OutboundRequestState) (jobId : JobId)
  (blocks : List (OffloadKey × Nat))

section

variable (round : OutboundRequestState)

theorem takeSupply_sameRound : SameRound round (takeSupply jobId blocks round).2 := by
  induction blocks generalizing round with
  | nil => exact SameRound.refl round
  | cons block rest ih =>
    unfold takeSupply
    split
    all_goals
      refine SameRound.trans ?_ (ih _)
      exact ⟨rfl, rfl, rfl, rfl, rfl, rfl⟩

/-- Demand that meets supply is no longer waiting. -/
theorem takeSupply_count (pair : OffloadKey × Nat) :
    ((takeSupply jobId blocks round).1.map MatchedBlock.want).count pair +
        (takeSupply jobId blocks round).2.demanded.entries.count pair =
      round.demanded.entries.count pair := by
  induction blocks generalizing round with
  | nil => simp [takeSupply]
  | cons block rest ih =>
    unfold takeSupply
    split
    · next remoteIdx found =>
      have later := ih { round with demanded := round.demanded.erase block.1 }
      have whole := (Dict.entries_perm_of_get? found).count_eq pair
      simp only [map_cons, count_cons, MatchedBlock.want] at later whole ⊢
      omega
    · exact ih _

theorem takeSupply_source : ∀ block ∈ (takeSupply jobId blocks round).1, block.source ∈ blocks := by
  induction blocks generalizing round with
  | nil => simp [takeSupply]
  | cons entry rest ih =>
    intro block mem
    unfold takeSupply at mem
    split at mem
    · rcases mem_cons.mp mem with rfl | later
      · exact mem_cons_self
      · exact mem_cons_of_mem _ (ih _ block later)
    · exact mem_cons_of_mem _ (ih _ block mem)

end

variable {key : OffloadKey}

theorem takeSupply_available (round : OutboundRequestState)
    (found : (takeSupply jobId blocks round).2.available.get? key = some supply) :
    round.available.get? key = some supply ∨ supply.1 = jobId ∧ (key, supply.2) ∈ blocks := by
  induction blocks generalizing round with
  | nil => exact .inl found
  | cons entry rest ih =>
    unfold takeSupply at found
    split at found
    · rcases ih _ found with old | ⟨isNew, mem⟩
      · exact .inl old
      · exact .inr ⟨isNew, mem_cons_of_mem _ mem⟩
    rcases ih _ found with old | ⟨isNew, mem⟩
    · rw [Dict.get?_set] at old
      split at old
      · next same =>
        cases old
        exact .inr ⟨rfl, same ▸ mem_cons_self⟩
      · exact .inl old
    · exact .inr ⟨isNew, mem_cons_of_mem _ mem⟩

theorem takeDemand_sameRound : SameRound round (takeDemand wanted round).2 := by
  induction wanted generalizing round with
  | nil => exact SameRound.refl round
  | cons pair rest ih =>
    unfold takeDemand
    split
    all_goals
      refine SameRound.trans ?_ (ih _)
      exact ⟨rfl, rfl, rfl, rfl, rfl, rfl⟩

/-- What a fetch wants is matched or waits, each place once. -/
theorem takeDemand_count_le :
    ((takeDemand wanted round).1.blocks.map MatchedBlock.want).count pair +
        (takeDemand wanted round).2.demanded.entries.count pair ≤
      wanted.count pair + round.demanded.entries.count pair := by
  induction wanted generalizing round with
  | nil => simp [takeDemand]
  | cons entry rest ih =>
    obtain ⟨key, remoteIdx⟩ := entry
    unfold takeDemand
    split
    · have later :=
        ih { round with available := round.available.erase key }
      simp only [map_cons, count_cons, MatchedBlock.want] at later ⊢
      omega
    have later :=
      ih
        { round with demanded := round.demanded.set key remoteIdx }
    have grown := (Dict.entries_set_perm round.demanded key remoteIdx).count_eq pair
    have fewer :
        (round.demanded.erase key).entries.count pair ≤ round.demanded.entries.count pair :=
      filter_sublist.count_le pair
    simp only [count_cons] at later grown ⊢
    omega

theorem takeDemand_available
    (found : (takeDemand wanted round).2.available.get? key = some supply) :
    round.available.get? key = some supply := by
  induction wanted generalizing round with
  | nil => exact found
  | cons entry rest ih =>
    unfold takeDemand at found
    split at found
    · have kept := ih _ found
      exact (Dict.get?_erase_eq_some.mp kept).2
    · have kept := ih _ found
      exact kept

/-- Every matched block was available from one of the jobs. -/
theorem takeDemand_blocks :
    ∀ block ∈ (takeDemand wanted round).1.blocks, ∃ jobId ∈ (takeDemand wanted round).1.jobIds,
      round.available.get? block.key = some (jobId, block.localIdx) := by
  induction wanted generalizing round with
  | nil => simp [takeDemand]
  | cons entry rest ih =>
    intro block mem
    unfold takeDemand at mem ⊢
    split at mem
    · next jobId idx found =>
      rcases mem_cons.mp mem with rfl | later
      · exact ⟨jobId, mem_insert_self, found⟩
      · obtain ⟨other, otherMember, kept⟩ := ih _ block later
        exact ⟨other, mem_insert_of_mem otherMember, (Dict.get?_erase_eq_some.mp kept).2⟩
    · obtain ⟨other, otherMember, kept⟩ := ih _ block mem
      exact ⟨other, otherMember, kept⟩

theorem takeDemand_jobIds :
    ∀ jobId ∈ (takeDemand wanted round).1.jobIds,
      ∃ key idx, round.available.get? key = some (jobId, idx) := by
  induction wanted generalizing round with
  | nil => simp [takeDemand]
  | cons entry rest ih =>
    intro jobId mem
    unfold takeDemand at mem
    split at mem
    · next first idx found =>
      rcases mem_insert_iff.mp mem with rfl | later
      · exact ⟨_, _, found⟩
      · obtain ⟨key, other, kept⟩ := ih _ jobId later
        exact ⟨key, other, (Dict.get?_erase_eq_some.mp kept).2⟩
    · obtain ⟨key, other, kept⟩ := ih _ jobId mem
      exact ⟨key, other, kept⟩

end OutboundRequestState

namespace Server

/-! ## Settling -/

/-- The results of settling jobs. -/
def settledResults (success : Bool) :
    List JobId → Dict JobId Time → List StoreResult
  | [], _ => []
  | jobId :: rest, storeJobs =>
    if storeJobs.contains jobId then
      ⟨jobId, success⟩ :: settledResults success rest (storeJobs.erase jobId)
    else
      settledResults success rest storeJobs

theorem settleJobs_eq (success : Bool) (jobIds : List JobId) (server : Server) :
    settleJobs success jobIds server = (settledResults success jobIds server.storeJobs,
      { server with storeJobs := server.storeJobs.eraseAll jobIds }) := by
  induction jobIds generalizing server with
  | nil => rfl
  | cons jobId rest ih =>
    unfold settleJobs settledResults
    by_cases listed : server.storeJobs.contains jobId = true
    · simp only [listed, if_true, ih]
      rfl
    have unlisted : server.storeJobs.get? jobId = none := by simpa [Dict.contains] using listed
    rw [if_neg listed, if_neg listed, ih]
    have same : server.storeJobs.erase jobId = server.storeJobs :=
      Dict.erase_eq_self_of_get? unlisted
    show _ = (_, { server with storeJobs := List.foldl Dict.erase _ rest })
    rw [same]
    rfl

/-- Settled jobs were listed before. -/
theorem mem_settledResults {storeJobs : Dict JobId Time}
    (mem : result ∈ settledResults success jobIds storeJobs) :
    result.success = success ∧ result.jobId ∈ jobIds ∧ storeJobs.contains result.jobId = true := by
  induction jobIds generalizing storeJobs with
  | nil => cases mem
  | cons jobId rest ih =>
    unfold settledResults at mem
    split at mem
    · next listed =>
      rcases mem_cons.mp mem with rfl | later
      · exact ⟨rfl, mem_cons_self, listed⟩
      obtain ⟨same, inRest, stillListed⟩ := ih later
      refine ⟨same, mem_cons_of_mem _ inRest, ?_⟩
      rw [Dict.contains_erase] at stillListed
      exact (Bool.and_eq_true_iff.mp stillListed).2
    · obtain ⟨same, inRest, listed⟩ := ih mem
      exact ⟨same, mem_cons_of_mem _ inRest, listed⟩

/-! ## Registered rounds -/

variable (server : Server) (kvId other : KvRequestId)

theorem request_setRequest (request : ServerRequestState) :
    (server.setRequest kvId request).request other =
      if other = kvId then request else server.request other :=
  Dict.getD_set _ _ _ _ _

variable {request : ServerRequestState} {seq : RoundSeq}

theorem registered_setRequest :
    (server.setRequest kvId request).registered other seq =
      if other = kvId then request.outbound.get? seq
      else server.registered other seq := by
  unfold registered
  rw [request_setRequest]
  split <;> rfl

/-- Setting a request with the same rounds registers nothing else. -/
theorem registered_of_outbound {kvId : KvRequestId}
    (same : request.outbound = (server.request kvId).outbound) {other : KvRequestId} :
    (server.setRequest kvId request).registered other seq = server.registered other seq := by
  rw [registered_setRequest]
  split
  · next isSame =>
    rw [same, isSame]
    rfl
  · rfl

@[simp]
theorem registered_getOrCreate :
    (server.getOrCreateRequest kvId).registered other seq = server.registered other seq :=
  registered_of_outbound server rfl

theorem ServerRequestState.eq_new_of_isIdle (idle : request.isIdle = true) : request = .new := by
  obtain ⟨outbound, pendingLookups, lookups, inflightTids⟩ := request
  simp only [ServerRequestState.isIdle, Bool.and_eq_true, List.isEmpty_iff] at idle
  obtain ⟨⟨⟨noRounds, rfl⟩, noLookups⟩, rfl⟩ := idle
  have outboundEmpty : outbound = .empty := Dict.ext noRounds
  have lookupsEmpty : lookups = .empty := Dict.ext noLookups
  rw [outboundEmpty, lookupsEmpty]
  rfl

/-- A pruned request reads as a new one, which it was. -/
@[simp]
theorem request_maybePrune : (server.maybePrune kvId).request other = server.request other := by
  unfold maybePrune
  split
  · next prunes =>
    have idle := ServerRequestState.eq_new_of_isIdle (Bool.and_eq_true_iff.mp prunes).1
    refine (Dict.getD_erase _ _ _ _).trans ?_
    split
    · next same => rw [same, idle]
    · rfl
  · rfl

@[simp]
theorem registered_maybePrune :
    (server.maybePrune kvId).registered other seq = server.registered other seq := by
  unfold registered
  rw [request_maybePrune]

theorem registered_unregister :
    (server.unregister kvId seq).registered other seq' =
      if other = kvId ∧ seq' = seq then none
      else server.registered other seq' := by
  unfold unregister
  rw [registered_setRequest]
  by_cases same : other = kvId
  · subst same
    rw [Dict.get?_erase]
    by_cases sameSeq : seq' = seq <;> simp [sameSeq, registered]
  · simp [same]

theorem registered_openRound {server : Server} {kvId : KvRequestId}
    (free : server.registered kvId seq = none)
    (other : KvRequestId) (seq' : RoundSeq) :
    (server.openRound kvId seq).2.registered other seq' =
      if other = kvId ∧ seq' = seq then some server.nextRound
      else server.registered other seq' := by
  unfold openRound
  rw [free]
  show (server.setRequest kvId _).registered other seq' = _
  rw [registered_setRequest]
  by_cases same : other = kvId
  · subst same
    rw [Dict.get?_set]
    by_cases sameSeq : seq' = seq <;> simp [sameSeq, registered]
  · simp [same]

@[simp]
theorem registered_dropInflight (tid : TransferId) (xfer : InflightXfer) (other : KvRequestId)
    (seq : RoundSeq) :
    (server.dropInflight tid xfer).registered other seq = server.registered other seq := by
  unfold dropInflight
  split
  · next request found =>
    refine registered_of_outbound _ ?_
    unfold Server.request Dict.getD
    rw [found]
    rfl
  · rfl

@[simp]
theorem registered_inflightAdd {tid : TransferId} {xfer : InflightXfer} {other : KvRequestId} :
    (server.inflightAdd tid xfer).registered other seq = server.registered other seq := by
  apply registered_of_outbound
  rfl

end Server

end VllmCore.P2P
