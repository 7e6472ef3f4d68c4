import VllmCore.P2P.ServerPolls

namespace VllmCore.P2P

open Function Lib List

/-!
# Transfers from submission to end

A transfer the transport accepted has ended or is in the table of the server as it was
submitted.
-/

namespace Server

variable {server : Server} {ref : RoundRef}

theorem pendingJobIds_update {rounds : RoundRef → OutboundRequestState}
    {round : OutboundRequestState}
    (fewer : ∀ jobId ∈ round.pendingJobIds, jobId ∈ (rounds ref).pendingJobIds) (other : RoundRef) :
    ∀ jobId ∈ (update rounds ref round other).pendingJobIds,
      jobId ∈ (rounds other).pendingJobIds := by
  by_cases same : other = ref
  · subst same
    rw [update_self]
    exact fewer
  · rw [update_of_ne same]
    exact fun _ => id

/-- The server after a transfer ended and its jobs were settled. -/
structure EndsXfer (success : Bool) (server : Server) (tid : TransferId) (xfer : InflightXfer)
    (results : List StoreResult) (after : Server) : Prop where
  inflight : after.inflight = server.inflight.erase tid
  storeJobs : after.storeJobs = server.storeJobs.eraseAll xfer.jobIds
  results : results = settledResults success xfer.jobIds server.storeJobs
  pendingStoreResults : after.pendingStoreResults = server.pendingStoreResults
  events : after.events = server.events
  nextRound : after.nextRound = server.nextRound
  transport : after.transport = server.transport
  registered :
    ∀ kvRequestId roundSeq ref, after.registered kvRequestId roundSeq = some ref →
      server.registered kvRequestId roundSeq = some ref
  pending :
    ∀ ref, ∀ jobId ∈ (after.rounds ref).pendingJobIds, jobId ∈ (server.rounds ref).pendingJobIds
  available : ∀ ref, (after.rounds ref).available = (server.rounds ref).available
  demandReceived : ∀ ref, (after.rounds ref).demandReceived = (server.rounds ref).demandReceived

theorem settleDropped_ends
    (success : Bool) (server : Server) (tid : TransferId) (xfer : InflightXfer) :
    EndsXfer success server tid xfer
      ((server.dropInflight tid xfer).settleXferJobs xfer success).1
      ((server.dropInflight tid xfer).settleXferJobs xfer success).2 := by
  obtain ⟨inflight, _, nextRound, transport, events, storeJobs, results, _⟩ :=
    dropInflight_fields
  have calm := settleXferJobs_calm (server.dropInflight tid xfer) xfer success
  have rounds := dropInflight_rounds server tid xfer
  refine ⟨calm.inflight.trans inflight, ?_, ?_, ?_, ?_, calm.nextRound.trans nextRound, ?_,
    ?_, ?_, ?_, ?_⟩
  · unfold settleXferJobs
    rw [settleJobs_eq, storeJobs]
    rfl
  · unfold settleXferJobs
    rw [settleJobs_eq, storeJobs]
  · unfold settleXferJobs
    rw [settleJobs_eq]
    exact results
  · unfold settleXferJobs
    rw [settleJobs_eq]
    exact events
  · unfold settleXferJobs
    rw [settleJobs_eq]
    exact transport
  · intro kvId seq ref found
    rw [← registered_dropInflight server tid xfer]
    exact calm.registered _ _ _ found
  · intro ref jobId mem
    rw [← (rounds ref).2.2.2.2]
    unfold settleXferJobs at mem
    rw [settleJobs_eq] at mem
    exact pendingJobIds_update (fun _ listed => (mem_filter.mp listed).1) ref jobId mem
  · exact fun ref => (calm.rounds ref).available.trans (rounds ref).2.2.2.1
  · exact fun ref => (calm.rounds ref).demandReceived.trans (rounds ref).1

variable {xfer : InflightXfer} {tid : TransferId} {success : Bool}

theorem completeXfer_ends :
    EndsXfer true server tid xfer (server.completeXfer tid xfer).1
      (server.completeXfer tid xfer).2 := by
  have ends := settleDropped_ends true server tid xfer
  unfold completeXfer
  dsimp only
  generalize (server.dropInflight tid xfer).settleXferJobs xfer true = settled at ends ⊢
  split
  · have same (ref : RoundRef) : (update settled.2.rounds xfer.round
            { settled.2.rounds xfer.round with
              remaining := (settled.2.rounds xfer.round).remaining - xfer.blockCount }
            ref).pendingJobIds = (settled.2.rounds ref).pendingJobIds ∧
          (update settled.2.rounds xfer.round
            { settled.2.rounds xfer.round with
              remaining := (settled.2.rounds xfer.round).remaining - xfer.blockCount }
            ref).available = (settled.2.rounds ref).available ∧
          (update settled.2.rounds xfer.round
            { settled.2.rounds xfer.round with
              remaining := (settled.2.rounds xfer.round).remaining - xfer.blockCount }
            ref).demandReceived = (settled.2.rounds ref).demandReceived := by
      by_cases isRound : ref = xfer.round
      · subst isRound
        rw [update_self]
        exact ⟨rfl, rfl, rfl⟩
      · rw [update_of_ne isRound]
        exact ⟨rfl, rfl, rfl⟩
    exact ⟨ends.inflight, ends.storeJobs, ends.results, ends.pendingStoreResults, ends.events,
      ends.nextRound, ends.transport, ends.registered,
      fun ref jobId mem => ends.pending ref jobId ((same ref).1 ▸ mem),
      fun ref => (same ref).2.1.trans (ends.available ref),
      fun ref => (same ref).2.2.trans (ends.demandReceived ref)⟩
  · exact ends

theorem failXfer_ends (server : Server) (tid : TransferId) (xfer : InflightXfer) :
    EndsXfer false server tid xfer (server.failXfer tid xfer).1
      (server.failXfer tid xfer).2.2 := by
  have ends := settleDropped_ends false server tid xfer
  unfold failXfer
  dsimp only
  generalize (server.dropInflight tid xfer).settleXferJobs xfer false = settled at ends ⊢
  split
  · refine ⟨ends.inflight, ends.storeJobs, ends.results, ends.pendingStoreResults, ends.events,
      ends.nextRound, ends.transport, ?_, ends.pending, ends.available, ends.demandReceived⟩
    intro kvId seq ref found
    exact ends.registered _ _ _
      ((unregister_calm settled.2 xfer.kvRequestId xfer.roundKey).registered _ _ _ found)
  · exact ends

theorem endRound_fields {tell : Bool} :
    (server.endRound kvId seq ref success tell).storeJobs =
        server.storeJobs.eraseAll (server.rounds ref).pendingJobIds ∧
      (server.endRound kvId seq ref success tell).pendingStoreResults =
        server.pendingStoreResults ++
          settledResults success (server.rounds ref).pendingJobIds server.storeJobs ∧
      (server.endRound kvId seq ref success tell).events = server.events ∧
      (server.endRound kvId seq ref success tell).rounds =
        update server.rounds ref { server.rounds ref with pendingJobIds := [] } := by
  unfold endRound settleRoundJobs
  rw [settleJobs_eq]
  split <;> exact ⟨rfl, rfl, rfl, rfl⟩

/-! ## Transfers that are handed over -/

theorem writeMatched_accepted
    (accepts : env.accepts server.transport.calls = true) :
    (server.writeMatched env kvId result ref seq).2.inflight =
        server.inflight.set server.transport.nextId
          ⟨kvId, result.blocks, result.jobIds, ref, seq⟩ ∧
      (server.writeMatched env kvId result ref seq).2.rounds = update server.rounds ref
          { server.rounds ref with inflight := (server.rounds ref).inflight + 1 } ∧
      (server.writeMatched env kvId result ref seq).2.storeJobs = server.storeJobs ∧
      (server.writeMatched env kvId result ref seq).2.pendingStoreResults =
        server.pendingStoreResults ∧
      (server.writeMatched env kvId result ref seq).2.events =
        .wrote (some server.transport.nextId) kvId seq result.jobIds
          result.blocks :: server.events ∧
      (server.writeMatched env kvId result ref seq).2.nextRound = server.nextRound ∧
      (server.writeMatched env kvId result ref seq).2.transport.nextId =
        server.transport.nextId + 1 := by
  unfold writeMatched Transport.writeBlocks
  simp only [accepts, if_true]
  exact ⟨rfl, rfl, rfl, rfl, rfl, rfl, rfl⟩

/-! ## The table of transfers -/

def Flown (server : Server) : Prop :=
  ∀ tid kvRequestId roundSeq jobIds blocks,
    Event.wrote (some tid) kvRequestId roundSeq jobIds blocks ∈ server.events →
      tid < server.transport.nextId ∧ ((∃ done, Event.ended tid done ∈ server.events) ∨
          ∃ xfer, server.inflight.get? tid = some xfer ∧ xfer.kvRequestId = kvRequestId ∧
            xfer.roundKey = roundSeq ∧ xfer.jobIds = jobIds)

theorem init_flown : init.Flown :=
  nofun

variable (flown : server.Flown)
include flown

variable {after : Server}

/-- Nothing is submitted and what leaves the table has ended. -/
theorem Flown.eases (kept : ∀ event ∈ server.events, event ∈ after.events)
    (writes :
      ∀ tid kvId seq jobIds blocks, Event.wrote (some tid) kvId seq jobIds blocks ∈ after.events →
          Event.wrote (some tid) kvId seq jobIds blocks ∈ server.events)
    (ended :
      ∀ tid xfer, server.inflight.get? tid = some xfer →
        after.inflight.get? tid = some xfer ∨ ∃ done, Event.ended tid done ∈ after.events)
    (nextId : after.transport.nextId = server.transport.nextId) : after.Flown := by
  intro tid kvId seq jobIds blocks wrote
  obtain ⟨below, fate⟩ := flown tid kvId seq jobIds blocks (writes _ _ _ _ _ wrote)
  refine ⟨nextId.symm ▸ below, ?_⟩
  rcases fate with ⟨done, isEnded⟩ | ⟨xfer, found, same⟩
  · exact .inl ⟨done, kept _ isEnded⟩
  · rcases ended tid xfer found with still | isEnded
    · exact .inr ⟨xfer, still, same⟩
    · exact .inl isEnded

theorem Flown.calm (calm : Calm server after) : after.Flown := by
  obtain ⟨new, events, harmless⟩ := calm.events
  refine flown.eases ?_ ?_ ?_ calm.nextId
  · rw [events]
    exact fun _ => mem_append_right _
  · intro tid kvId seq jobIds blocks mem
    rw [events] at mem
    rcases mem_append.mp mem with isNew | old
    · exact (harmless _ isNew).elim
    · exact old
  · rw [calm.inflight]
    exact fun _ _ => .inl

/-- One event that submits nothing. -/
theorem Flown.note (events : after.events = event :: server.events)
    (other : ∀ tid kvId seq jobIds blocks, event ≠ .wrote (some tid) kvId seq jobIds blocks)
    (inflight : after.inflight = server.inflight)
    (nextId : after.transport.nextId = server.transport.nextId) : after.Flown := by
  refine flown.eases ?_ ?_ ?_ nextId
  · rw [events]
    exact fun _ => mem_cons_of_mem _
  · intro tid kvId seq jobIds blocks mem
    rw [events] at mem
    rcases mem_cons.mp mem with isNew | old
    · exact absurd isNew.symm (other tid kvId seq jobIds blocks)
    · exact old
  · rw [inflight]
    exact fun _ _ => .inl

theorem Flown.endsXfer
    (ends : EndsXfer success server tid xfer results after)
    (ended : ∃ done, Event.ended tid done ∈ server.events) : after.Flown := by
  refine flown.eases ?_ ?_ ?_ (by rw [ends.transport])
  · rw [ends.events]
    exact fun _ => id
  · rw [ends.events]
    exact fun _ _ _ _ _ => id
  · intro other xfer' found
    rw [ends.inflight, ends.events, Dict.get?_erase]
    split
    · next same => exact .inr (same.symm ▸ ended)
    · exact .inl found

theorem Flown.write (env : Environment) (result : MatchResult) :
    (server.writeMatched env kvId result ref seq).2.Flown := by
  cases accepts : env.accepts server.transport.calls with
  | false => exact flown.calm (refused_calm accepts)
  | true =>
    obtain ⟨inflight, _, _, _, events, _, nextId⟩ := writeMatched_accepted accepts
    intro tid other seq' jobIds blocks mem
    rw [events] at mem ⊢
    rw [nextId, inflight, Dict.get?_set]
    rcases mem_cons.mp mem with isNew | old
    · cases isNew
      exact ⟨Nat.lt_succ_self _, .inr ⟨_, if_pos rfl, rfl, rfl, rfl⟩⟩
    obtain ⟨below, fate⟩ := flown tid other seq' jobIds blocks old
    rw [if_neg (ne_of_lt below)]
    exact ⟨Nat.lt_succ_of_lt below,
      fate.imp (fun ⟨done, ended⟩ => ⟨done, mem_cons_of_mem _ ended⟩) id⟩

end Server

variable {before after : Serving}

open Server in
theorem Move.flown (move : Move permit before after)
    (coherent : before.server.Coherent) (flown : before.server.Flown) : after.server.Flown := by
  cases move with
  | bookkeep same _ _ => exact flown.calm same.calm
  | @openRound server _ _ kvId seq free _ =>
    refine flown.eases ?_ ?_ ?_ ?_
    · rw [openRound_events]
      exact fun _ => id
    · rw [openRound_events]
      exact fun _ _ _ _ _ => id
    · rw [openRound_inflight]
      exact fun _ _ => .inl
    · unfold Server.openRound
      rw [free]
      rfl
  | @supplyWrite server _ _ kvId seq ref env blocks jobId now looked =>
    have supplied : (server.supplyRound kvId ref blocks jobId now looked).2.Flown :=
      flown.note rfl nofun rfl rfl
    exact supplied.write env _
  | @demandWrite server _ _ kvId seq ref env wanted =>
    have demanded : (server.demandRound kvId seq ref wanted).2.Flown := flown.note rfl nofun rfl rfl
    exact demanded.write env _
  | finishing ref => exact flown.calm (setRound_calm ⟨rfl, rfl, rfl, rfl, rfl⟩)
  | endRound _ _ _ => exact flown.calm (endRound_calm _ _ _ _ _ _)
  | timeout jobIds _ => exact flown.calm (settleJobs_calm false jobIds _)
  | takeDeferred => exact flown
  | poll env => exact flown.calm (poll_calm coherent)
  | complete _ done =>
    exact flown.endsXfer completeXfer_ends ⟨true, (takeWhile_sublist _).subset (done 0 0)⟩
  | fail _ ended _ => exact flown.endsXfer (failXfer_ends _ _ _) ended
  | @cancel server _ _ tid xfer inFlight =>
    obtain ⟨inflight, _, _, transport, events, _⟩ := dropInflight_fields
    have allEvents : ((server.dropInflight tid xfer).note (.ended tid false)).events =
        .ended tid false :: server.events :=
      congrArg (cons _) events
    refine flown.eases ?_ ?_ ?_ (congrArg Transport.nextId transport)
    · rw [allEvents]
      exact fun _ => mem_cons_of_mem _
    · intro other kvId seq jobIds blocks mem
      rw [allEvents] at mem
      rcases mem_cons.mp mem with impossible | old
      · cases impossible
      · exact old
    · intro other xfer' found
      show (server.dropInflight tid xfer).inflight.get? other = _ ∨ _
      rw [inflight, Dict.get?_erase]
      split
      · next same =>
        subst same
        exact .inr ⟨false, mem_cons_self⟩
      · exact .inl found
  | failJobs _ _ => exact flown.calm (settleRoundJobs_calm _ _ false)
  | parkAbort abort now _ => exact flown
  | ackAbort _ _ _ => exact flown
  | report =>
    refine flown.calm (calm_of_same (fun _ _ => rfl) rfl rfl rfl rfl rfl ?_)
    intro event mem
    obtain ⟨result, _, rfl⟩ := mem_map.mp mem
    trivial
  | _ => exact flown.note rfl nofun rfl rfl

theorem Moves.flown (moves : Moves permit before after)
    (coherent : before.server.Coherent) (flown : before.server.Flown) : after.server.Flown :=
  (moves.keeps (fun serving => serving.server.Coherent ∧ serving.server.Flown)
    (fun _ _ held move => ⟨move.coherent held.1, move.flown held.1 held.2⟩)
    ⟨coherent, flown⟩).2

end VllmCore.P2P
