import VllmCore.P2P.ServerCoherence

namespace VllmCore.P2P

open Function Lib List MatchedBlock OutboundRequestState

/-!
# Changes that keep a server coherent

A round is opened, supplied or asked for, a transfer is handed over or ends, and jobs are
settled.  For each change it is shown what it does to the account of its round.
-/

namespace Server

variable {server : Server} {kvId : KvRequestId} {seq : RoundSeq} {ref : RoundRef}

/-! ## Opening a round -/

theorem openRound_registered (found : server.registered kvId seq = some ref) :
    server.openRound kvId seq = (ref, server.getOrCreateRequest kvId) := by
  unfold openRound
  rw [found]

theorem openRound_free (free : server.registered kvId seq = none) :
    (server.openRound kvId seq).1 = server.nextRound ∧ (server.openRound kvId seq).2.rounds =
        update server.rounds server.nextRound .new ∧
      (server.openRound kvId seq).2.nextRound = server.nextRound + 1 ∧
      (server.openRound kvId seq).2.inflight = server.inflight ∧
      (server.openRound kvId seq).2.transport = server.transport ∧
      (server.openRound kvId seq).2.events = server.events := by
  unfold openRound
  rw [free]
  exact ⟨rfl, rfl, rfl, rfl, rfl, rfl⟩

theorem Coherent.openRound (coherent : server.Coherent)
    (free : server.registered kvId seq = none) : (server.openRound kvId seq).2.Coherent := by
  have opened := openRound_free free
  have registered := registered_openRound free
  generalize (server.openRound kvId seq).2 = after at opened registered ⊢
  have cases (other : KvRequestId) (seq' : RoundSeq) (ref : RoundRef)
      (found : after.registered other seq' = some ref) :
      (other = kvId ∧ seq' = seq ∧ ref = server.nextRound) ∨
        (ref < server.nextRound ∧ server.registered other seq' = some ref) := by
    rw [registered] at found
    split at found
    · next here => exact .inl ⟨here.1, here.2, (Option.some.inj found).symm⟩
    · exact .inr ⟨coherent.roundsBelow _ _ ref found, found⟩
  cases after
  obtain ⟨_, rfl, rfl, rfl, rfl, rfl⟩ := opened
  have old (ref : RoundRef) (below : ref < server.nextRound) :
      update server.rounds server.nextRound .new ref = server.rounds ref :=
    update_of_ne (ne_of_lt below) _ _
  have unused : server.Quiet server.nextRound := fun tid xfer found =>
    ne_of_lt (coherent.flyingBelow tid xfer found).1
  refine
    { coherent with
      counted := ?_
      roundsBelow := ?_
      flyingBelow := fun tid xfer found =>
        (coherent.flyingBelow tid xfer found).imp_left Nat.lt_succ_of_lt
      distinct := ?_
      keyed := ?_
      asked := ?_
      unasked := ?_
      accounts := ?_
      stocked := ?_ }
  · intro ref
    dsimp only
    by_cases isNew : ref = server.nextRound
    · rw [isNew, update_self, quiet_iff_countP.mp unused]
      rfl
    · rw [update_of_ne isNew]
      exact coherent.counted ref
  · intro other seq' ref found
    rcases cases other seq' ref found with ⟨_, _, rfl⟩ | ⟨below, _⟩
    · exact Nat.lt_succ_self _
    · exact Nat.lt_succ_of_lt below
  · intro first firstSeq second secondSeq ref firstFound secondFound
    rcases cases first firstSeq ref firstFound with ⟨rfl, rfl, rfl⟩ | ⟨below, firstOld⟩
    · rcases cases second secondSeq _ secondFound with ⟨rfl, rfl, _⟩ | ⟨below, _⟩
      · exact ⟨rfl, rfl⟩
      · exact absurd below (lt_irrefl _)
    · rcases cases second secondSeq ref secondFound with ⟨_, _, rfl⟩ | ⟨_, secondOld⟩
      · exact absurd below (lt_irrefl _)
      · exact coherent.distinct _ _ _ _ ref firstOld secondOld
  · intro tid xfer other seq' found listed
    rcases cases other seq' _ listed with ⟨_, _, isNew⟩ | ⟨_, isOld⟩
    · exact absurd isNew (unused tid xfer found)
    · exact coherent.keyed tid xfer other seq' found isOld
  · intro tid xfer found
    dsimp only
    rw [old _ (coherent.flyingBelow tid xfer found).1]
    exact coherent.asked tid xfer found
  · intro other seq' ref found unasked
    dsimp only at unasked ⊢
    rcases cases other seq' ref found with ⟨_, _, rfl⟩ | ⟨below, isOld⟩
    · rw [update_self]
      rfl
    · rw [old ref below] at unasked ⊢
      exact coherent.unasked other seq' ref isOld unasked
  · intro other seq' ref found asked
    dsimp only at asked
    rcases cases other seq' ref found with ⟨_, _, rfl⟩ | ⟨below, isOld⟩
    · rw [update_self] at asked
      cases asked
    rw [old ref below] at asked
    obtain ⟨wanted, filled, accounts⟩ := coherent.accounts other seq' ref isOld asked
    refine ⟨wanted, filled, { accounts with places := ?_, remaining := ?_ }⟩
    · dsimp only
      rw [old ref below]
      exact accounts.places
    · dsimp only
      rw [old ref below]
      exact accounts.remaining
  · intro ref key jobId idx found
    dsimp only at found
    by_cases isNew : ref = server.nextRound
    · rw [isNew, update_self] at found
      cases found
    · rw [update_of_ne isNew] at found
      exact coherent.stocked ref key jobId idx found

/-! ## Changing one round -/

/-- One registered round changes; what it then owes is stated by its new account. -/
structure ChangesRound
    (before : Server) (kvRequestId : KvRequestId) (roundSeq : RoundSeq) (ref : RoundRef)
    (round : OutboundRequestState) (new : List Event) (after : Server) : Prop where
  found : before.registered kvRequestId roundSeq = some ref
  registered : ∀ other otherSeq, after.registered other otherSeq = before.registered other otherSeq
  rounds : after.rounds = update before.rounds ref round
  nextRound : after.nextRound = before.nextRound
  inflight : after.inflight = before.inflight
  transport : after.transport = before.transport
  events : after.events = new ++ before.events
  counter : round.inflight = (before.rounds ref).inflight
  harmless :
    ∀ event ∈ new, event.Harmless before.transport.nextId ∨
      ∃ wanted, event = .demanded kvRequestId roundSeq wanted

namespace ChangesRound

variable {after : Server} {round : OutboundRequestState} {new : List Event}

variable (changes : ChangesRound server kvId seq ref round new after)
include changes

theorem kept : ∀ event ∈ server.events, event ∈ after.events := by
  intro event mem
  rw [changes.events]
  exact mem_append_right _ mem

theorem rounds_self : after.rounds ref = round := by
  rw [changes.rounds, update_self]

theorem rounds_other (differs : other ≠ ref) : after.rounds other = server.rounds other := by
  rw [changes.rounds, update_of_ne differs]

theorem flying (other : RoundRef) : after.flying other = server.flying other := by
  unfold Server.flying
  rw [changes.inflight]

/-- The account of another round is not affected. -/
theorem accounts_other {other : KvRequestId} {seq' : RoundSeq} {ref' : RoundRef}
    {wanted filled : List (OffloadKey × Nat)} (differs : ref' ≠ ref)
    (found' : server.registered other seq' = some ref')
    (accounts : server.Accounts other seq' ref' [] wanted filled) :
    after.Accounts other seq' ref' [] wanted filled := by
  refine accounts.later changes.events ?_ ?_ ?_ ?_
  · intro event mem
    rcases changes.harmless event mem with harmless | ⟨demand, rfl⟩
    · exact harmless.demandOf other seq'
    refine if_neg ?_
    rintro ⟨rfl, rfl⟩
    rw [changes.found] at found'
    exact differs (Option.some.inj found').symm
  · intro place
    exact le_of_eq (by rw [changes.flying, changes.rounds_other differs])
  · rw [changes.rounds_other differs]
  · intro tid xfer found _
    exact .inl (changes.inflight ▸ found)

end ChangesRound

variable {blocks : List (OffloadKey × Nat)} {round : OutboundRequestState} {jobId : JobId}

theorem Coherent.changesRound {after : Server} {new : List Event} (coherent : server.Coherent)
    (changes : ChangesRound server kvId seq ref round new after)
    (asked : (server.rounds ref).demandReceived = true → round.demandReceived = true)
    (unasked : round.demandReceived = false → round.demanded.entries = [])
    (accounts :
      round.demandReceived = true → ∃ wanted filled, after.Accounts kvId seq ref [] wanted filled)
    (stocked :
      ∀ key jobId idx, round.available.get? key = some (jobId, idx) →
        Stored after.events jobId (key, idx)) :
    after.Coherent := by
  have same := changes
  cases after
  obtain ⟨found, registered, rfl, rfl, rfl, rfl, rfl, counter, harmless⟩ := changes
  refine
    { coherent with
      counted := ?_
      roundsBelow := by simpa only [registered] using coherent.roundsBelow
      distinct := by simpa only [registered] using coherent.distinct
      keyed := by simpa only [registered] using coherent.keyed
      asked := ?_
      unasked := ?_
      accounts := ?_
      endedBelow := ?_
      stocked := ?_
      sourced := coherent.sourced_append fun _ _ _ _ _ isNew => ?_ }
  · intro other
    by_cases isRef : other = ref
    · rw [isRef, same.rounds_self, counter]
      exact coherent.counted ref
    · rw [same.rounds_other isRef]
      exact coherent.counted other
  · intro tid xfer inFlight
    have before := coherent.asked tid xfer inFlight
    by_cases isRef : xfer.round = ref
    · rw [isRef, same.rounds_self]
      exact asked (isRef ▸ before)
    · rw [same.rounds_other isRef]
      exact before
  · intro other seq' ref' isListed isUnasked
    rw [registered] at isListed
    by_cases isRef : ref' = ref
    · rw [isRef, same.rounds_self] at isUnasked ⊢
      exact unasked isUnasked
    · rw [same.rounds_other isRef] at isUnasked ⊢
      exact coherent.unasked other seq' ref' isListed isUnasked
  · intro other seq' ref' isListed isAsked
    rw [registered] at isListed
    by_cases isRef : ref' = ref
    · subst isRef
      rw [same.rounds_self] at isAsked
      obtain ⟨rfl, rfl⟩ := coherent.distinct _ _ _ _ _ isListed found
      exact accounts isAsked
    · rw [same.rounds_other isRef] at isAsked
      obtain ⟨wanted, filled, account⟩ := coherent.accounts other seq' ref' isListed isAsked
      exact ⟨wanted, filled, same.accounts_other isRef isListed account⟩
  · intro tid done mem
    rcases mem_append.mp mem with isNew | old
    · rcases harmless _ isNew with isHarmless | ⟨wanted, isDemand⟩
      · exact isHarmless
      · cases isDemand
    · exact coherent.endedBelow tid done old
  · intro other key jobId idx available
    by_cases isRef : other = ref
    · rw [isRef, same.rounds_self] at available
      exact stocked key jobId idx available
    · rw [same.rounds_other isRef] at available
      exact (coherent.stocked other key jobId idx available).mono same.kept
  · rcases harmless _ isNew with isHarmless | ⟨wanted, isDemand⟩
    · exact isHarmless.elim
    · cases isDemand

/-- What is in limbo may be lost. -/
theorem Accounts.forget {limbo wanted filled : List (OffloadKey × Nat)}
    (accounts : server.Accounts kvId seq ref limbo wanted filled) :
    server.Accounts kvId seq ref [] wanted filled := by
  refine ⟨accounts.latest, accounts.served, fun place => ?_, accounts.remaining, accounts.written⟩
  have := accounts.places place
  rw [count_nil]
  omega

/-! ## Supply -/

theorem addStoredBlocks_round :
    (round.addStoredBlocks blocks jobId).2.demandReceived = round.demandReceived ∧
      (round.addStoredBlocks blocks jobId).2.remaining = round.remaining ∧
      (round.addStoredBlocks blocks jobId).2.finishing = round.finishing ∧
      (round.addStoredBlocks blocks jobId).2.inflight = round.inflight ∧
      (round.addStoredBlocks blocks jobId).2.pendingJobIds = round.pendingJobIds.insert jobId := by
  have same :=
    takeSupply_sameRound jobId blocks
      { round with pendingJobIds := round.pendingJobIds.insert jobId }
  exact ⟨same.demandReceived, same.remaining, same.finishing, same.inflight, same.pendingJobIds⟩

/-- The round after a store job brought blocks. -/
def suppliedRound (server : Server) (ref : RoundRef) (blocks : List (OffloadKey × Nat))
    (jobId : JobId) (fromLookup : Bool) : OutboundRequestState :=
  ({ server.rounds ref with
      lookupSupplied :=
        (server.rounds ref).lookupSupplied || fromLookup }.addStoredBlocks blocks jobId).2

theorem supplyRound_count (server : Server) (kvId : KvRequestId) (ref : RoundRef)
    (blocks : List (OffloadKey × Nat)) (jobId : JobId) (now : Time) (looked : Bool)
    (place : OffloadKey × Nat) :
    ((server.supplyRound kvId ref blocks jobId now looked).1.blocks.map want).count place +
        (server.suppliedRound ref blocks jobId looked).demanded.entries.count place =
      (server.rounds ref).demanded.entries.count place :=
  takeSupply_count jobId blocks _ place

theorem supplyRound_changes (found : server.registered kvId seq = some ref)
    (blocks : List (OffloadKey × Nat)) (jobId : JobId) (now : Time) (looked : Bool) :
    ChangesRound server kvId seq ref
      (server.suppliedRound ref blocks jobId looked)
      [.stored kvId jobId blocks]
      (server.supplyRound kvId ref blocks jobId now looked).2 := by
  refine ⟨found, fun _ _ => rfl, rfl, rfl, rfl, rfl, rfl, ?_, ?_⟩
  · exact addStoredBlocks_round.2.2.2.1
  · intro event mem
    rw [mem_singleton.mp mem]
    exact .inl trivial

/-- Matched supply leaves the waiting demand. -/
theorem supplyRound_accounts (coherent : server.Coherent)
    (found : server.registered kvId seq = some ref)
    (asked : (server.rounds ref).demandReceived = true) :
    ∃ wanted filled, (server.supplyRound kvId ref blocks jobId now looked).2.Accounts
      kvId seq ref
      ((server.supplyRound kvId ref blocks jobId now looked).1.blocks.map want)
      wanted filled := by
  have changes := supplyRound_changes found blocks jobId now looked
  obtain ⟨wanted, filled, accounts⟩ := coherent.accounts _ _ ref found asked
  refine ⟨wanted, filled, accounts.later changes.events ?_ ?_ ?_ fun _ _ inFlight _ =>
    .inl inFlight⟩
  · intro event mem
    rw [mem_singleton.mp mem]
    rfl
  · intro place
    rw [changes.flying, changes.rounds_self]
    have traded := supplyRound_count server kvId ref blocks jobId now looked place
    omega
  · rw [changes.rounds_self]
    exact addStoredBlocks_round.2.1

theorem Coherent.supplyRound (coherent : server.Coherent)
    (found : server.registered kvId seq = some ref)
    (blocks : List (OffloadKey × Nat)) (jobId : JobId) (now : Time) (looked : Bool) :
    (server.supplyRound kvId ref blocks jobId now looked).2.Coherent := by
  have changes := supplyRound_changes found blocks jobId now looked
  have same : (server.suppliedRound ref blocks jobId looked).demandReceived =
      (server.rounds ref).demandReceived := addStoredBlocks_round.1
  refine coherent.changesRound changes ?_ ?_ ?_ ?_
  · rw [same]
    exact id
  · intro unasked
    rw [same] at unasked
    have empty := coherent.unasked kvId seq ref found unasked
    apply eq_nil_iff_forall_not_mem.mpr
    intro place mem
    have traded := supplyRound_count server kvId ref blocks jobId now looked place
    have waiting := count_pos_iff.mpr mem
    rw [empty, count_nil] at traded
    omega
  · intro asked
    rw [same] at asked
    obtain ⟨wanted, filled, accounts⟩ := supplyRound_accounts coherent found asked
    exact ⟨wanted, filled, accounts.forget⟩
  · intro key job' idx available
    rcases takeSupply_available jobId blocks _ available with
      old | ⟨rfl, mem⟩
    · exact (coherent.stocked ref key job' idx old).mono changes.kept
    · exact ⟨kvId, blocks, mem_cons_self, mem⟩

/-! ## Demand -/

/-- The round after its fetch arrived. -/
def demandedRound (server : Server) (ref : RoundRef) (wanted : List (OffloadKey × Nat)) :
    OutboundRequestState :=
  ((server.rounds ref).addFetchDemand wanted).2

theorem demandedRound_round {server : Server} {ref : RoundRef} {wanted : List (OffloadKey × Nat)} :
    (server.demandedRound ref wanted).demandReceived = true ∧
      (server.demandedRound ref wanted).remaining = wanted.length ∧
      (server.demandedRound ref wanted).finishing = (server.rounds ref).finishing ∧
      (server.demandedRound ref wanted).inflight = (server.rounds ref).inflight ∧
      (server.demandedRound ref wanted).pendingJobIds = (server.rounds ref).pendingJobIds := by
  have same :=
    takeDemand_sameRound wanted
      { server.rounds ref with demandReceived := true, remaining := wanted.length }
  exact ⟨same.demandReceived, same.remaining, same.finishing, same.inflight, same.pendingJobIds⟩

theorem demandRound_changes (found : server.registered kvId seq = some ref)
    (wanted : List (OffloadKey × Nat)) :
    ChangesRound server kvId seq ref (server.demandedRound ref wanted)
      [.demanded kvId seq wanted]
      (server.demandRound kvId seq ref wanted).2 := by
  refine ⟨found, fun _ _ => rfl, rfl, rfl, rfl, rfl, rfl, ?_, ?_⟩
  · exact (demandedRound_round).2.2.2.1
  · intro event mem
    exact .inr ⟨wanted, mem_singleton.mp mem⟩

section

variable (coherent : server.Coherent)
    (found : server.registered kvId seq = some ref)
    (unasked : (server.rounds ref).demandReceived = false) (wanted : List (OffloadKey × Nat))
include coherent found unasked wanted

/-- A fetch opens the account of its round. -/
theorem demandRound_accounts :
    (server.demandRound kvId seq ref wanted).2.Accounts kvId seq ref
      ((server.demandRound kvId seq ref wanted).1.blocks.map want)
      wanted [] := by
  have changes := demandRound_changes found wanted
  have quiet := coherent.quiet_of_unasked unasked
  refine ⟨?_, ?_, ?_, ?_, ?_⟩
  · exact latestDemand_cons_self
  · intro place mem
    cases mem
  · intro place
    rw [changes.flying, (flying_eq_nil_iff coherent).mpr quiet, changes.rounds_self]
    have matched : ((server.demandRound kvId seq ref wanted).1.blocks.map want).count place +
          (server.demandedRound ref wanted).demanded.entries.count place ≤
        wanted.count place + (server.rounds ref).demanded.entries.count place :=
      takeDemand_count_le wanted _
    rw [coherent.unasked kvId seq ref found unasked, count_nil] at matched
    rw [count_nil]
    omega
  · rw [changes.rounds_self, (demandedRound_round).2.1]
    simp
  · intro tid xfer inFlight isRef
    exact absurd isRef (quiet tid xfer inFlight)

theorem Coherent.demandRound : (server.demandRound kvId seq ref wanted).2.Coherent := by
  have changes := demandRound_changes found wanted
  refine coherent.changesRound changes ?_ ?_ ?_ ?_
  · exact fun _ => (demandedRound_round).1
  · intro isUnasked
    rw [(demandedRound_round).1] at isUnasked
    cases isUnasked
  · exact fun _ => ⟨wanted, [], (demandRound_accounts coherent found unasked wanted).forget⟩
  · intro key jobId idx available
    have old := takeDemand_available wanted _ available
    exact (coherent.stocked ref key jobId idx old).mono changes.kept

end

/-! ## Transfers that end -/

section Drop

theorem dropInflight_fields {server : Server} {tid : TransferId} {xfer : InflightXfer} :
    (server.dropInflight tid xfer).inflight = server.inflight.erase tid ∧
      (server.dropInflight tid xfer).rounds = update server.rounds xfer.round
        { server.rounds xfer.round with
          inflight := (server.rounds xfer.round).inflight - 1 } ∧
      (server.dropInflight tid xfer).nextRound = server.nextRound ∧
      (server.dropInflight tid xfer).transport = server.transport ∧
      (server.dropInflight tid xfer).events = server.events ∧
      (server.dropInflight tid xfer).storeJobs = server.storeJobs ∧
      (server.dropInflight tid xfer).pendingStoreResults = server.pendingStoreResults ∧
      (server.dropInflight tid xfer).pendingAborts = server.pendingAborts ∧
      (server.dropInflight tid xfer).sent = server.sent := by
  unfold dropInflight
  split <;> exact ⟨rfl, rfl, rfl, rfl, rfl, rfl, rfl, rfl, rfl⟩

theorem dropInflight_rounds
    (server : Server) (tid : TransferId) (xfer : InflightXfer) (ref : RoundRef) :
    ((server.dropInflight tid xfer).rounds ref).demandReceived =
        (server.rounds ref).demandReceived ∧
      ((server.dropInflight tid xfer).rounds ref).remaining = (server.rounds ref).remaining ∧
      ((server.dropInflight tid xfer).rounds ref).demanded = (server.rounds ref).demanded ∧
      ((server.dropInflight tid xfer).rounds ref).available = (server.rounds ref).available ∧
      ((server.dropInflight tid xfer).rounds ref).pendingJobIds =
        (server.rounds ref).pendingJobIds := by
  rw [(dropInflight_fields).2.1]
  by_cases same : ref = xfer.round
  · subst same
    rw [update_self]
    exact ⟨rfl, rfl, rfl, rfl, rfl⟩
  · rw [update_of_ne same]
    exact ⟨rfl, rfl, rfl, rfl, rfl⟩

theorem flying_dropInflight (inFlight : server.inflight.get? tid = some xfer)
    (ref : RoundRef) (place : OffloadKey × Nat) :
    (if xfer.round = ref then (xfer.blocks.map want).count place else 0) +
        ((server.dropInflight tid xfer).flying ref).count place =
      (server.flying ref).count place := by
  have entries := Dict.entries_perm_of_get? inFlight
  unfold flying
  rw [((entries.filter _).flatMap_right _).count_eq, (dropInflight_fields).1]
  by_cases same : xfer.round = ref <;> simp [same]

/-- The places of a transfer that leaves the table are in limbo. -/
theorem dropInflight_accounts (inFlight : server.inflight.get? tid = some xfer)
    {wanted filled : List (OffloadKey × Nat)}
    (accounts : server.Accounts kvId seq ref [] wanted filled) :
    (server.dropInflight tid xfer).Accounts kvId seq ref
      (if xfer.round = ref then xfer.blocks.map want else []) wanted filled := by
  obtain ⟨inflight, _, _, _, events, _⟩ := dropInflight_fields
  obtain ⟨_, remaining, demanded, _⟩ := dropInflight_rounds server tid xfer ref
  refine @Accounts.later _ _ _ _ _ _ _ _ _ [] accounts events nofun ?_ remaining ?_
  · intro place
    have moved := flying_dropInflight inFlight ref place
    rw [demanded]
    by_cases same : xfer.round = ref
    · rw [if_pos same] at moved ⊢
      omega
    · rw [if_neg same] at moved ⊢
      omega
  · intro other xfer' otherInFlight _
    rw [inflight, Dict.get?_erase_eq_some] at otherInFlight
    exact .inl otherInFlight.2

theorem Coherent.dropInflight (coherent : server.Coherent)
    (inFlight : server.inflight.get? tid = some xfer) :
    (server.dropInflight tid xfer).Coherent := by
  obtain ⟨inflight, rounds, nextRound, transport, events, _⟩ := dropInflight_fields
  have same := dropInflight_rounds server tid xfer
  have registered (other : KvRequestId) (seq' : RoundSeq) :=
    registered_dropInflight server tid xfer other seq'
  have old (other : TransferId) (xfer' : InflightXfer)
      (found : (server.dropInflight tid xfer).inflight.get? other = some xfer') :
      server.inflight.get? other = some xfer' := by
    rw [inflight] at found
    exact (Dict.get?_erase_eq_some.mp found).2
  refine ⟨?_, ?_, ?_, ?_, ?_, ?_, ?_, ?_, ?_, ?_, ?_, ?_, ?_⟩
  · intro ref
    have counted := coherent.counted ref
    rw [(Dict.entries_perm_of_get? inFlight).countP_eq, countP_cons] at counted
    rw [inflight, rounds]
    by_cases isRound : ref = xfer.round
    · subst isRound
      rw [update_self]
      simp only [decide_true, if_true] at counted
      dsimp only
      omega
    · rw [update_of_ne isRound]
      simpa [Ne.symm isRound] using counted
  · intro other seq' ref found
    rw [registered] at found
    rw [nextRound]
    exact coherent.roundsBelow other seq' ref found
  · intro other xfer' found
    rw [nextRound, transport]
    exact coherent.flyingBelow other xfer' (old other xfer' found)
  · intro first firstSeq second secondSeq ref firstFound secondFound
    rw [registered] at firstFound secondFound
    exact coherent.distinct _ _ _ _ ref firstFound secondFound
  · intro other xfer' otherKv seq' found listed
    rw [registered] at listed
    exact coherent.keyed other xfer' _ _ (old other xfer' found) listed
  · intro other xfer' found
    rw [(same xfer'.round).1]
    exact coherent.asked other xfer' (old other xfer' found)
  · intro other xfer' found
    exact coherent.nonempty other xfer' (old other xfer' found)
  · intro other seq' ref found unasked
    rw [registered] at found
    rw [(same ref).1] at unasked
    rw [(same ref).2.2.1]
    exact coherent.unasked other seq' ref found unasked
  · intro other seq' ref found asked
    rw [registered] at found
    rw [(same ref).1] at asked
    obtain ⟨wanted, filled, accounts⟩ := coherent.accounts other seq' ref found asked
    exact ⟨wanted, filled, (dropInflight_accounts inFlight accounts).forget⟩
  · rw [transport]
    exact coherent.listedBelow
  · rw [transport, events]
    exact coherent.endedBelow
  · intro ref key jobId idx found
    rw [(same ref).2.2.2.1] at found
    rw [events]
    exact coherent.stocked ref key jobId idx found
  · rw [events]
    exact coherent.sourced

end Drop

/-! ## Settling -/

theorem settleJobs_calm (success : Bool) (jobIds : List JobId) (server : Server) :
    Calm server (settleJobs success jobIds server).2 := by
  rw [settleJobs_eq]
  exact ⟨fun _ _ _ => id, fun _ => SameBlocks.refl _, rfl, rfl, rfl, fun _ => id, [], rfl, nofun⟩

theorem SameBlocks.trans
    (before : SameBlocks first second) (later : SameBlocks second third) : SameBlocks first third :=
  ⟨later.demandReceived.trans before.demandReceived,
    later.remaining.trans before.remaining, later.inflight.trans before.inflight,
    later.demanded.trans before.demanded, later.available.trans before.available⟩

theorem Calm.trans (before : Calm first second)
    (later : Calm second third) : Calm first third := by
  obtain ⟨firstNew, firstEvents, firstHarmless⟩ := before.events
  obtain ⟨secondNew, secondEvents, secondHarmless⟩ := later.events
  refine ⟨?_, fun ref => (before.rounds ref).trans (later.rounds ref),
    later.nextRound.trans before.nextRound, later.inflight.trans before.inflight,
    later.nextId.trans before.nextId,
    fun tid mem => before.listed tid (later.listed tid mem),
    secondNew ++ firstNew, ?_, ?_⟩
  · exact fun _ _ ref found => before.registered _ _ ref (later.registered _ _ ref found)
  · rw [secondEvents, firstEvents, append_assoc]
  intro event mem
  rcases mem_append.mp mem with isSecond | isFirst
  · rw [← before.nextId]
    exact secondHarmless event isSecond
  · exact firstHarmless event isFirst

/-- A change of a round that leaves its blocks and counters alone. -/
theorem setRound_calm (same : SameBlocks (server.rounds ref) round) :
    Calm server (server.setRound ref round) := by
  refine ⟨fun _ _ _ => id, ?_, rfl, rfl, rfl, fun _ => id, [], rfl, nofun⟩
  intro other
  by_cases isRef : other = ref
  · subst isRef
    unfold setRound
    dsimp only
    rw [update_self]
    exact same
  · unfold setRound
    dsimp only
    rw [update_of_ne isRef]
    exact SameBlocks.refl _

section

variable (server : Server)

theorem settleRoundJobs_calm (ref : RoundRef) (success : Bool) :
    Calm server (server.settleRoundJobs ref success).2 :=
  (settleJobs_calm success _ server).trans (setRound_calm ⟨rfl, rfl, rfl, rfl, rfl⟩)

theorem settleXferJobs_calm (xfer : InflightXfer) (success : Bool) :
    Calm server (server.settleXferJobs xfer success).2 :=
  (settleJobs_calm success _ server).trans (setRound_calm ⟨rfl, rfl, rfl, rfl, rfl⟩)

theorem unregister_calm (kvId : KvRequestId) (seq : RoundSeq) :
    Calm server (server.unregister kvId seq) := by
  refine ⟨?_, fun _ => SameBlocks.refl _, rfl, rfl, rfl, fun _ => id, [], rfl, nofun⟩
  intro other seq' ref found
  rw [registered_unregister] at found
  split at found
  · cases found
  · exact found

theorem endRound_calm (kvId : KvRequestId) (seq : RoundSeq) (ref : RoundRef)
    (success tell : Bool) : Calm server (server.endRound kvId seq ref success tell) := by
  refine ((unregister_calm server kvId seq).trans (settleRoundJobs_calm _ ref success)).trans ?_
  unfold endRound
  split <;>
    exact ⟨fun _ _ _ => id, fun _ => SameBlocks.refl _, rfl, rfl, rfl, fun _ => id, [], rfl, nofun⟩

end

/-! ## A done transfer -/

theorem Coherent.completeXfer {tid : TransferId} (coherent : server.Coherent)
    (inFlight : server.inflight.get? tid = some xfer)
    (done : Event.ended tid true ∈ sinceDemand server.events xfer.kvRequestId xfer.roundKey) :
    (server.completeXfer tid xfer).2.Coherent := by
  have settledCalm := settleXferJobs_calm (server.dropInflight tid xfer) xfer true
  have settled := (coherent.dropInflight inFlight).calm settledCalm
  unfold Server.completeXfer
  dsimp only
  generalize afterIs : ((server.dropInflight tid xfer).settleXferJobs xfer true).2 = after
    at settledCalm settled ⊢
  split
  · next found =>
    have wasFound : server.registered xfer.kvRequestId xfer.roundKey = some xfer.round := by
      have before := settledCalm.registered _ _ _ found
      rwa [registered_dropInflight] at before
    obtain ⟨wanted, filled, accounts⟩ :=
      coherent.accounts _ _ _ wasFound (coherent.asked tid xfer inFlight)
    have wrote := accounts.written tid xfer inFlight rfl
    have dropped := settledCalm.accounts (dropInflight_accounts inFlight accounts)
    rw [if_pos rfl] at dropped
    have askedAfter : (after.rounds xfer.round).demandReceived = true := by
      rw [(settledCalm.rounds xfer.round).demandReceived,
        (dropInflight_rounds server tid xfer xfer.round).1]
      exact coherent.asked tid xfer inFlight
    have eventsSame : after.events = server.events := by
      rw [← afterIs]
      unfold settleXferJobs
      rw [settleJobs_eq]
      exact (dropInflight_fields).2.2.2.2.1
    have changes : ChangesRound after xfer.kvRequestId xfer.roundKey xfer.round
          { after.rounds xfer.round with
            remaining := (after.rounds xfer.round).remaining - xfer.blockCount }
          []
          (after.setRound xfer.round
            { after.rounds xfer.round with
              remaining := (after.rounds xfer.round).remaining - xfer.blockCount }) :=
      ⟨found, fun _ _ => rfl, rfl, rfl, rfl, rfl, rfl, rfl, nofun⟩
    refine settled.changesRound changes id ?_ ?_ ?_
    · intro unasked
      rw [askedAfter] at unasked
      cases unasked
    · intro _
      refine ⟨wanted, xfer.blocks.map want ++ filled, ?_, ?_, ?_, ?_, ?_⟩
      · exact dropped.latest
      · intro place mem
        rcases mem_append.mp mem with isNew | old
        · refine ⟨tid, xfer.jobIds, xfer.blocks, ?_, ?_, isNew⟩
          · rw [changes.events, eventsSame]
            exact wrote
          · rw [changes.events, eventsSame]
            exact done
        · exact dropped.served place old
      · intro place
        have before := dropped.places place
        rw [changes.flying, changes.rounds_self, count_append, count_nil]
        dsimp only
        omega
      · rw [changes.rounds_self]
        have before := dropped.remaining
        simp only [length_append, length_map, InflightXfer.blockCount]
        omega
      · exact dropped.written
    · intro key jobId idx available
      exact settled.stocked xfer.round key jobId idx available
  · exact settled

/-! ## Handing a transfer over -/

variable {result : MatchResult}

/-- A refused transfer only marks its round. -/
theorem refused_calm (refused : env.accepts server.transport.calls = false) :
    Calm server (server.writeMatched env kvId result ref seq).2 := by
  unfold writeMatched Transport.writeBlocks
  simp only [refused, Bool.false_eq_true, if_false]
  refine Calm.trans ?_ (setRound_calm ⟨rfl, rfl, rfl, rfl, rfl⟩)
  refine ⟨fun _ _ _ => id, fun _ => SameBlocks.refl _, rfl, rfl, rfl, fun _ => id,
    [.wrote none kvId seq result.jobIds result.blocks], rfl, ?_⟩
  intro event mem
  rw [mem_singleton.mp mem]
  trivial

variable {wanted filled : List (OffloadKey × Nat)}
    (coherent : server.Coherent)
    (found : server.registered kvId seq = some ref)
    (asked : (server.rounds ref).demandReceived = true)
    (nonempty : result.blocks ≠ [])
    (accounts : server.Accounts kvId seq ref (result.blocks.map want) wanted filled)
    (sourced :
      ∀ block ∈ result.blocks, ∃ jobId ∈ result.jobIds, Stored server.events jobId block.source)
include coherent found asked nonempty accounts sourced

/-- An accepted transfer is in flight under a new number. -/
theorem Coherent.writeAccepted {after : Server}
    (registered :
      ∀ other seq', after.registered other seq' = server.registered other seq')
    (rounds :
      after.rounds = update server.rounds ref
        { server.rounds ref with inflight := (server.rounds ref).inflight + 1 })
    (nextRound : after.nextRound = server.nextRound)
    (inflight :
      after.inflight = server.inflight.set server.transport.nextId
          ⟨kvId, result.blocks, result.jobIds, ref, seq⟩)
    (nextId : after.transport.nextId = server.transport.nextId + 1)
    (listed :
      ∀ tid ∈ after.transport.inflight.keys,
        tid = server.transport.nextId ∨ tid ∈ server.transport.inflight.keys)
    (events :
      after.events = .wrote (some server.transport.nextId) kvId seq result.jobIds
          result.blocks :: server.events) :
    after.Coherent := by
  generalize xferIs : (⟨kvId, result.blocks, result.jobIds, ref, seq⟩ : InflightXfer) = xfer
    at inflight
  have xferRound : xfer.round = ref := by rw [← xferIs]
  have xferBlocks : xfer.blocks = result.blocks := by rw [← xferIs]
  have free : server.inflight.get? server.transport.nextId = none := by
    cases listed : server.inflight.get? server.transport.nextId with
    | none => rfl
    | some old => exact absurd (coherent.flyingBelow _ old listed).2 (lt_irrefl _)
  have entries : after.inflight.entries.Perm
      ((server.transport.nextId, xfer) :: server.inflight.entries) := by
    have grown := Dict.entries_set_perm server.inflight server.transport.nextId xfer
    rw [Dict.erase_eq_self_of_get? free] at grown
    rw [inflight]
    exact grown
  have cases (tid : TransferId) (other : InflightXfer)
      (inFlight : after.inflight.get? tid = some other) :
      (tid = server.transport.nextId ∧ other = xfer) ∨ server.inflight.get? tid = some other := by
    rw [inflight, Dict.get?_set] at inFlight
    split at inFlight
    · next same => exact .inl ⟨same, (Option.some.inj inFlight).symm⟩
    · exact .inr inFlight
  have blocksSame (other : RoundRef) :
      (after.rounds other).demandReceived = (server.rounds other).demandReceived ∧
        (after.rounds other).remaining = (server.rounds other).remaining ∧
        (after.rounds other).demanded = (server.rounds other).demanded ∧
        (after.rounds other).available = (server.rounds other).available := by
    rw [rounds]
    by_cases same : other = ref
    · subst same
      rw [update_self]
      exact ⟨rfl, rfl, rfl, rfl⟩
    · rw [update_of_ne same]
      exact ⟨rfl, rfl, rfl, rfl⟩
  have unrelated (other : KvRequestId) (seq' : RoundSeq) :
      ∀ event ∈ [Event.wrote (some server.transport.nextId) kvId seq result.jobIds result.blocks],
        event.demandOf other seq' = none := by
    intro event mem
    rw [mem_singleton.mp mem]
    rfl
  have flyingCount (other : RoundRef) (place : OffloadKey × Nat) :
      (after.flying other).count place =
        (if ref = other then result.blocks.map want else []).count place +
          (server.flying other).count place := by
    unfold flying
    rw [((entries.filter _).flatMap_right _).count_eq]
    by_cases same : ref = other
    · simp [xferRound, xferBlocks, same]
    · simp [xferRound, same]
  cases after
  subst rounds nextRound inflight events
  refine
    { coherent with
      counted := ?_
      roundsBelow := by simpa only [registered] using coherent.roundsBelow
      flyingBelow := ?_
      distinct := by simpa only [registered] using coherent.distinct
      keyed := ?_
      asked := ?_
      nonempty := ?_
      unasked := ?_
      accounts := ?_
      listedBelow := ?_
      endedBelow := ?_
      stocked := ?_
      sourced := ?_ }
  · intro other
    rw [entries.countP_eq]
    dsimp only
    by_cases same : other = ref
    · subst same
      simp [xferRound, coherent.counted other]
    · rw [update_of_ne same, coherent.counted other]
      simp [xferRound, Ne.symm same]
  · intro tid other inFlight
    rw [nextId]
    rcases cases tid other inFlight with ⟨rfl, rfl⟩ | old
    · rw [xferRound]
      exact ⟨coherent.roundsBelow _ _ ref found, Nat.lt_succ_self _⟩
    · exact (coherent.flyingBelow tid other old).imp_right Nat.lt_succ_of_lt
  · intro tid other otherKv seq' inFlight isListed
    rw [registered] at isListed
    rcases cases tid other inFlight with ⟨rfl, rfl⟩ | old
    · rw [xferRound] at isListed
      rw [← xferIs]
      exact coherent.distinct _ _ _ _ ref found isListed
    · exact coherent.keyed tid other otherKv seq' old isListed
  · intro tid other inFlight
    rw [(blocksSame other.round).1]
    rcases cases tid other inFlight with ⟨rfl, rfl⟩ | old
    · rw [xferRound]
      exact asked
    · exact coherent.asked tid other old
  · intro tid other inFlight
    rcases cases tid other inFlight with ⟨rfl, rfl⟩ | old
    · rw [xferBlocks]
      exact nonempty
    · exact coherent.nonempty tid other old
  · intro other seq' ref' isListed isUnasked
    rw [registered] at isListed
    rw [(blocksSame ref').1] at isUnasked
    rw [(blocksSame ref').2.2.1]
    exact coherent.unasked other seq' ref' isListed isUnasked
  · intro other seq' ref' isListed isAsked
    rw [registered] at isListed
    rw [(blocksSame ref').1] at isAsked
    -- The matched places of the round leave limbo and are now in flight.
    obtain ⟨otherWanted, otherFilled, account⟩ :
        ∃ otherWanted otherFilled, server.Accounts other seq' ref'
          (if ref = ref' then result.blocks.map want else [])
          otherWanted otherFilled := by
      split
      · next same =>
        subst same
        obtain ⟨rfl, rfl⟩ := coherent.distinct _ _ _ _ ref found isListed
        exact ⟨wanted, filled, accounts⟩
      · exact coherent.accounts other seq' ref' isListed isAsked
    refine ⟨otherWanted, otherFilled,
      @Accounts.later _ _ _ _ _ _ _ _ _ [_] account rfl (unrelated other seq') ?_
        (blocksSame ref').2.1 ?_⟩
    · intro place
      rw [flyingCount, (blocksSame ref').2.2.1, count_nil]
      omega
    intro tid xfer' inFlight isRef
    rcases cases tid xfer' inFlight with ⟨rfl, rfl⟩ | old
    · rw [← xferIs]
      exact .inr mem_cons_self
    · exact .inl old
  · intro tid mem
    rw [nextId]
    rcases listed tid mem with rfl | old
    · exact Nat.lt_succ_self _
    · exact Nat.lt_succ_of_lt (coherent.listedBelow tid old)
  · intro tid done mem
    rw [nextId]
    rcases mem_cons.mp mem with isNew | old
    · cases isNew
    · exact Nat.lt_succ_of_lt (coherent.endedBelow tid done old)
  · intro other key jobId idx available
    rw [(blocksSame other).2.2.2] at available
    exact (coherent.stocked other key jobId idx available).mono fun _ => mem_cons_of_mem _
  · apply @sourced_append server [_] coherent
    intro tid other seq' jobIds blocks isNew
    cases mem_singleton.mp isNew
    exact sourced

/-- Either the transport takes the transfer or the round is marked. -/
theorem Coherent.writeMatched : (server.writeMatched env kvId result ref seq).2.Coherent := by
  cases accepted : env.accepts server.transport.calls with
  | true =>
    unfold Server.writeMatched Transport.writeBlocks
    simp only [accepted, if_true]
    refine coherent.writeAccepted found asked nonempty accounts sourced ?_ rfl rfl rfl rfl ?_ rfl
    · intro other seq'
      apply registered_inflightAdd
    · intro tid mem
      have inTable : tid ∈ (server.transport.inflight.set server.transport.nextId
          result.blocks).keys := mem
      rw [Dict.keys, ((Dict.entries_set_perm _ _ _).map Prod.fst).mem_iff] at inTable
      rcases mem_cons.mp inTable with isNew | old
      · exact .inl isNew
      · exact .inr ((filter_sublist.map Prod.fst).subset old)
  | false => exact coherent.calm (refused_calm accepted)

end Server

end VllmCore.P2P
