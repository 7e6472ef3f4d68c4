import VllmCore.P2P.ServerSteps

namespace VllmCore.P2P

open Lib List Moves

/-!
# Fetches, aborts and polls as moves

A fetch that asks for nothing and an abort end rounds whatever their transfers do, and a
timeout settles jobs whatever uses them.  They are moves without force when no transfer
of the round is in flight and nothing reads the jobs.
-/

namespace Server

variable {permit : Permit} {server : Server} {failing : List RoundRef}
  {done : List StoreResult} {kvId : KvRequestId} {seq : RoundSeq}
  {ref : RoundRef}

/-- No transfer of a round, by its number, is in flight. -/
def Landed (server : Server) (kvRequestId : KvRequestId) (roundSeq : RoundSeq) : Prop :=
  ∀ tid xfer, server.inflight.get? tid = some xfer →
    ¬(xfer.kvRequestId = kvRequestId ∧ xfer.roundKey = roundSeq)

theorem Landed.of_inflight {after : Server} (landed : server.Landed kvId seq)
    (fewer :
      ∀ tid xfer, after.inflight.get? tid = some xfer → server.inflight.get? tid = some xfer) :
    after.Landed kvId seq :=
  fun tid xfer found => landed tid xfer (fewer tid xfer found)

theorem Coherent.quiet_of_landed (coherent : server.Coherent)
    (found : server.registered kvId seq = some ref)
    (landed : server.Landed kvId seq) : server.Quiet ref := by
  rintro tid xfer inFlight rfl
  exact landed tid xfer inFlight (coherent.keyed tid xfer kvId seq inFlight found)

/-! ## The end of lookups and of a request -/

theorem finishLookups_moves :
    Reaches permit failing done server (server.finishInboundLookups kvId) := by
  unfold finishInboundLookups
  split
  · exact refl _
  rename_i request found
  have isRequest : server.request kvId = request := by
    unfold Server.request Dict.getD
    rw [found]
    rfl
  refine trans (single (.bookkeep ?_ ?_ ?_)) maybePrune_moves
  · apply sameCore_of_requests
    · exact setRequest_sameHeld (by rw [isRequest]) (by rw [isRequest])
    all_goals rfl
  · intro other seq' isOpen
    change seq' ∈ List.map _ (Server.request (server.setRequest kvId _) other).pendingLookups ++
        List.map _ (Server.request (server.setRequest kvId _) other).lookups.values
      at isOpen
    rw [request_setRequest] at isOpen
    split at isOpen
    · cases isOpen
    · exact .inl isOpen
  · intro filed other lookupId lookup isActive
    change (Server.request (server.setRequest kvId _) other).lookups.get? lookupId = _ at isActive
    rw [request_setRequest] at isActive
    split at isActive
    · cases isActive
    · exact filed other lookupId lookup isActive

theorem finishLookups_inflight :
    (server.finishInboundLookups kvId).inflight = server.inflight := by
  unfold finishInboundLookups maybePrune
  split
  · rfl
  · dsimp only
    split <;> rfl

theorem registered_endRound {tell : Bool} :
    (server.endRound kvId seq ref success tell).registered other seq' =
      if other = kvId ∧ seq' = seq then none
      else server.registered other seq' := by
  rw [← registered_unregister]
  unfold endRound settleRoundJobs
  rw [settleJobs_eq]
  split <;> rfl

/-- Ending a round takes at most that round out. -/
theorem registered_finalize
    :
    (server.finalizeRegistered kvId seq success sendDone).registered other
        seq' =
      if other = kvId ∧ seq' = seq then none
      else server.registered other seq' := by
  rw [finalizeRegistered_eq]
  split
  · unfold closeRound
    rw [registered_maybePrune, registered_endRound]
  rename_i free
  split
  · next same => rw [same.1, same.2, free]
  · rfl

theorem finalizeAll_moves {keys : List RoundSeq} (coherent : server.Coherent)
    (quiet : permit.forces ∨ ∀ seq, server.Landed kvId seq) :
    Reaches permit failing done server (keys.foldl
      (fun server roundKey => server.finalizeRegistered kvId roundKey none false)
      server) := by
  induction keys generalizing server with
  | nil => exact refl _
  | cons roundKey rest ih =>
    have first : Reaches permit failing done server
        (server.finalizeRegistered kvId roundKey none false) := by
      refine finalize_moves nofun ?_ nofun
      intro ref found
      rcases quiet with forces | landed
      · exact .inr ⟨forces, rfl⟩
      · exact .inl (coherent.quiet_of_landed found (landed roundKey))
    refine first.trans (ih (first.coherent coherent) ?_)
    refine quiet.imp id fun landed seq => (landed seq).of_inflight ?_
    rw [(finalize_frame server kvId roundKey none false).2.2]
    exact fun _ _ => id

theorem finishRound_moves (tells : permit.tells) (coherent : server.Coherent)
    (found : server.registered kvId entry.1 = some entry.2) :
    Reaches permit failing done server (server.finishRound kvId entry) := by
  have marking : Reaches permit failing done server
      (server.setRound entry.2 { server.rounds entry.2 with finishing := true }) :=
    .single (.finishing entry.2)
  refine marking.trans ?_
  unfold finishRound
  dsimp only
  split
  · exact refl _
  rename_i ends
  refine finalize_moves (fun _ => tells) ?_ nofun
  intro ref isRef
  have same : some entry.2 = some ref := found.symm.trans isRef
  cases same
  simp only [Bool.or_eq_true, not_or, bne_iff_ne, ne_eq, not_not] at ends
  exact .inl ((marking.coherent coherent).quiet_iff.mpr ends.2)

theorem registered_finishRound (other : seq' ≠ entry.1) :
    (server.finishRound kvId entry).registered kvId seq' = server.registered kvId seq' := by
  unfold finishRound
  dsimp only
  split
  · rfl
  · rw [registered_finalize, if_neg fun same => other same.2]
    rfl

theorem finishRounds_moves (tells : permit.tells) {entries : List (RoundSeq × RoundRef)}
    (nodup : (entries.map Prod.fst).Nodup) (coherent : server.Coherent)
    (found : ∀ entry ∈ entries, server.registered kvId entry.1 = some entry.2) :
    Reaches permit failing done server (entries.foldl (finishRound kvId) server) := by
  induction entries generalizing server with
  | nil => exact refl _
  | cons entry rest ih =>
    obtain ⟨unlisted, restDistinct⟩ := nodup_cons.mp nodup
    have first : Reaches permit failing done server (server.finishRound kvId entry) :=
      finishRound_moves tells coherent (found entry mem_cons_self)
    refine first.trans (ih restDistinct (first.coherent coherent) ?_)
    intro other mem
    rw [registered_finishRound]
    · exact found other (mem_cons_of_mem _ mem)
    · intro same
      exact unlisted (same ▸ mem_map.mpr ⟨other, mem, rfl⟩)

theorem finish_moves (tells : permit.tells) (coherent : server.Coherent) :
    Reaches permit failing done server (server.finish kvId) := by
  have closing : Reaches permit failing done server (server.finishInboundLookups kvId) :=
    finishLookups_moves
  refine closing.trans (finishRounds_moves tells (Dict.distinct _) (closing.coherent coherent) ?_)
  rintro ⟨seq, ref⟩ mem
  exact Dict.get?_eq_some_iff.mpr mem

/-! ## Fetches -/

theorem registered_write (env : Environment) (server : Server) (kvId other : KvRequestId)
    (result : MatchResult) (ref : RoundRef) (seq seq' : RoundSeq) :
    (server.writeMatched env kvId result ref seq).2.registered other seq' =
      server.registered other seq' := by
  unfold writeMatched
  dsimp only
  split
  · rw [registered_inflightAdd]
    rfl
  · rfl

/-- A round that is registered after a transfer was handed over was so before. -/
theorem registered_of_submit
    (found :
      (server.submitTransfer env kvId result ref seq).registered other seq' = some ref') :
    server.registered other seq' = some ref' := by
  rw [← registered_write env server kvId other result ref seq seq']
  unfold submitTransfer at found
  dsimp only at found
  split at found
  · exact found
  split at found
  · rw [registered_finalize] at found
    split at found
    · cases found
    · exact found
  · exact found

/-- A fetch ends its round when the round finishes and has nothing in flight. -/
theorem endFetch_moves (tells : permit.tells)
    (env : Environment) (result : MatchResult)
    (isSubmitted : submitted = server ∨ submitted = server.submitTransfer env kvId result ref seq)
    (found : server.registered kvId seq = some ref) (coherent : submitted.Coherent) :
    Reaches permit failing done submitted
      (if (submitted.rounds ref).finishing && (submitted.rounds ref).inflight == 0 then
        match submitted.finalizeOutbound kvId seq with
          | .ok after => ((none : Option Fault), after)
          | .error fault => (some fault, submitted)
        else
          (none, submitted)).2 := by
  split
  · next ends =>
    have quiet := (Bool.and_eq_true_iff.mp ends).2
    unfold finalizeOutbound
    cases isFound : submitted.registered kvId seq with
    | none => exact refl _
    | some ref' =>
      have same : server.registered kvId seq = some ref' := by
        rcases isSubmitted with rfl | rfl
        · exact isFound
        · exact registered_of_submit isFound
      cases found.symm.trans same
      exact closeRound_moves isFound (fun _ => tells)
        (.inl (coherent.quiet_iff.mpr (by simpa using quiet)))
        nofun
  · exact refl _

/-- A fetch registers its demand and hands over what is there. -/
inductive Demands
    (server : Server) (kvRequestId : KvRequestId) (roundSeq : RoundSeq) (ref : RoundRef)
    (wanted : List (OffloadKey × Nat)) :
    Server → Prop
  | demand :
    Demands server kvRequestId roundSeq ref wanted
      (server.demandRound kvRequestId roundSeq ref wanted).2
  | write (env : Environment)
    (matched : (server.demandRound kvRequestId roundSeq ref wanted).1.blocks ≠ []) :
    Demands server kvRequestId roundSeq ref wanted
      ((server.demandRound kvRequestId roundSeq ref wanted).2.writeMatched env kvRequestId
        (server.demandRound kvRequestId roundSeq ref wanted).1 ref roundSeq).2

section

variable {wanted : List (OffloadKey × Nat)} {middle : Server}
    (demands : Demands server kvId seq ref wanted middle)
include demands

theorem Demands.move (found : server.registered kvId seq = some ref)
    (unasked : (server.rounds ref).demandReceived = false)
    (permitted : permit.demands kvId seq) :
    Move permit ⟨server, failing, done⟩ ⟨middle, failing, done⟩ := by
  cases demands with
  | demand => exact .demand wanted found unasked permitted
  | write env matched => exact .demandWrite env wanted found unasked permitted matched

theorem Demands.coherent (coherent : server.Coherent)
    (found : server.registered kvId seq = some ref)
    (unasked : (server.rounds ref).demandReceived = false) : middle.Coherent := by
  cases demands with
  | demand => exact coherent.demandRound found unasked wanted
  | write env matched => exact coherent.demandWrite found unasked matched

end

variable {env : Environment} {tid : TransferId}

/-- A fetch that asks for blocks: the demand, and at most the end of its round. -/
theorem serveFetch_path (coherent : server.Coherent)
    (found : server.registered kvId seq = some ref)
    (unasked : (server.rounds ref).demandReceived = false) :
    ∃ middle, Demands server kvId seq ref wanted middle ∧
      ∀ permit : Permit, permit.tells → Reaches permit failing done middle
        ((server.demandRound kvId seq ref wanted).2.serveFetch env kvId
          (server.demandRound kvId seq ref wanted).1 ref seq).2 := by
  have quiet := coherent.quiet_of_unasked unasked
  unfold serveFetch
  dsimp only
  split
  · refine ⟨_, .demand, fun permit tells => ?_⟩
    refine finalize_moves (fun _ => tells) ?_ nofun
    intro other found'
    cases found.symm.trans found'
    exact .inl quiet
  split
  · refine ⟨_, .demand, fun permit tells => ?_⟩
    exact endFetch_moves tells env (server.demandRound kvId seq ref wanted).1
      (.inl rfl) found (coherent.demandRound found unasked wanted)
  rename_i matched
  have written : Demands server kvId seq ref wanted _ := .write env (by simpa using matched)
  refine ⟨_, written, fun permit tells => ?_⟩
  have isWritten := written.coherent coherent found unasked
  have submitting : Moves permit ⟨((server.demandRound kvId seq ref wanted).2.writeMatched env
        kvId (server.demandRound kvId seq ref wanted).1 ref
        seq).2, failing, done⟩
      ⟨(server.demandRound kvId seq ref wanted).2.submitTransfer env
        kvId (server.demandRound kvId seq ref wanted).1 ref
        seq, failing, done⟩ :=
    submitTransfer_moves tells isWritten
  exact submitting.trans
    (endFetch_moves tells env _ (.inr rfl) found (submitting.coherent isWritten))

theorem openRound_unasked (unasked : server.hasDemand kvId seq = false) :
    ((server.openRound kvId seq).2.rounds
      (server.openRound kvId seq).1).demandReceived = false := by
  cases found : server.registered kvId seq with
  | none =>
    unfold openRound
    rw [found]
    dsimp only
    rw [Function.update_self]
    rfl
  | some ref =>
    unfold hasDemand at unasked
    rw [found] at unasked
    rw [openRound_registered found]
    exact unasked

theorem openRound_inflight : (server.openRound kvId seq).2.inflight = server.inflight := by
  unfold openRound
  split <;> rfl

variable {keys : List OffloadKey} {transport : Transport} {ids : List TransferId}
    {xfer : InflightXfer}

/-- A fetch that is not refused, cut where its demand is registered. -/
theorem onFetch_path (coherent : server.Coherent)
    (unasked : server.hasDemand kvId seq = false) :
    ∃ middle, Demands (server.openRound kvId seq).2 kvId seq
        (server.openRound kvId seq).1 (keys.zip indexes) middle ∧
      ∀ permit : Permit, (keys = [] → permit.forces ∨ ∀ seq, server.Landed kvId seq) →
          (keys ≠ [] → permit.tells) → Reaches permit failing done middle
            ((server.onFetch env kvId keys indexes seq).2) := by
  have found := registered_open_self server kvId seq
  have isUnasked := openRound_unasked unasked
  have opening : Reaches .all failing done server ((server.openRound kvId seq).2) :=
    openRound_moves trivial
  have opened := opening.coherent coherent
  unfold onFetch
  rw [unasked]
  rw [if_neg Bool.false_ne_true]
  split
  · next terminal =>
    have isTerminal : keys = [] := isEmpty_iff.mp terminal
    refine ⟨_, .demand, fun permit landed _ => ?_⟩
    have closing : Moves permit ⟨((server.openRound kvId seq).2.demandRound kvId seq
          (server.openRound kvId seq).1 (keys.zip indexes)).2, failing,
          done⟩
        ⟨((server.openRound kvId seq).2.demandRound kvId seq (server.openRound kvId seq).1
          (keys.zip indexes)).2.finishInboundLookups kvId, failing,
          done⟩ :=
      finishLookups_moves
    refine closing.trans (finalizeAll_moves
      (closing.coherent (opened.demandRound found isUnasked _)) ?_)
    refine (landed isTerminal).imp id fun allLanded seq => (allLanded seq).of_inflight ?_
    rw [finishLookups_inflight]
    intro tid xfer inFlight
    exact openRound_inflight ▸ inFlight
  · next asks =>
    obtain ⟨middle, demands, rest⟩ := serveFetch_path opened found isUnasked
    refine ⟨middle, demands, fun permit _ tells => rest permit (tells ?_)⟩
    rintro rfl
    exact asks rfl

/-- A fetch, also one that is refused. -/
theorem onFetch_moves (coherent : server.Coherent) (opens : permit.opens kvId seq)
    (permitted : permit.demands kvId seq) (tells : permit.tells)
    (landed : keys = [] → permit.forces ∨ ∀ seq, server.Landed kvId seq) :
    Reaches permit failing done server
      ((server.onFetch env kvId keys indexes seq).2) := by
  cases unasked : server.hasDemand kvId seq with
  | true =>
    unfold onFetch
    rw [unasked]
    exact refl _
  | false =>
    obtain ⟨middle, demands, rest⟩ := onFetch_path coherent unasked
    have found := registered_open_self server kvId seq
    exact (openRound_moves opens).trans
      ((single (demands.move found (openRound_unasked unasked) permitted)).trans
        (rest permit landed fun _ => tells))

/-! ## Aborts -/

/-- Cancelled transfers are gone; nothing else changes. -/
theorem cancelTransfers_frame (server : Server) (ids : List TransferId) :
    (server.cancelTransfers ids).transport = server.transport ∧
      (server.cancelTransfers ids).inflight = server.inflight.eraseAll ids ∧
      (server.cancelTransfers ids).pendingAborts = server.pendingAborts ∧
      ∀ other seq', (server.cancelTransfers ids).registered other seq' =
        server.registered other seq' := by
  induction ids generalizing server with
  | nil => exact ⟨rfl, rfl, rfl, fun _ _ => rfl⟩
  | cons tid rest ih =>
    obtain ⟨transport, inflight, pendingAborts, registered⟩ :=
      ih ((server.inflightPop tid).2.note (.ended tid false))
    have popped : (server.inflightPop tid).2.transport = server.transport ∧
        (server.inflightPop tid).2.inflight = server.inflight.erase tid ∧
        (server.inflightPop tid).2.pendingAborts = server.pendingAborts ∧
        ∀ other seq', (server.inflightPop tid).2.registered other seq' =
          server.registered other seq' := by
      unfold inflightPop
      split
      · obtain ⟨dropped, _, _, transport, _, _, _, aborts, _⟩ :=
          dropInflight_fields
        exact ⟨transport, dropped, aborts, registered_dropInflight _ _ _⟩
      · next absent => exact ⟨rfl, (Dict.erase_eq_self_of_get? absent).symm, rfl, fun _ _ => rfl⟩
    refine ⟨transport.trans popped.1, inflight.trans ?_, pendingAborts.trans popped.2.2.1,
      fun other seq' => (registered other seq').trans (popped.2.2.2 other seq')⟩
    show Dict.eraseAll (server.inflightPop tid).2.inflight rest = _
    rw [popped.2.1]
    rfl

theorem cancelTransfers_moves (ids : List TransferId) (nodup : ids.Nodup)
    (inFlight : ∀ tid ∈ ids, ∃ xfer, server.inflight.get? tid = some xfer) :
    Reaches permit failing done server (server.cancelTransfers ids) := by
  unfold cancelTransfers
  induction ids generalizing server with
  | nil => exact refl _
  | cons tid rest ih =>
    obtain ⟨unlisted, restDistinct⟩ := nodup_cons.mp nodup
    obtain ⟨xfer, found⟩ := inFlight tid mem_cons_self
    have popped : (server.inflightPop tid).2 = server.dropInflight tid xfer := by
      unfold inflightPop
      rw [found]
    rw [foldl_cons, popped]
    refine (single (.cancel found)).trans (ih restDistinct ?_)
    intro other mem
    obtain ⟨xfer', found'⟩ := inFlight other (mem_cons_of_mem _ mem)
    refine ⟨xfer', ?_⟩
    show (server.dropInflight tid xfer).inflight.get? other = _
    rw [(dropInflight_fields).1, Dict.get?_erase, if_neg]
    · exact found'
    · rintro rfl
      exact unlisted mem

/-- The transport forgets transfers. -/
theorem setTransport_moves (nextId : transport.nextId = server.transport.nextId)
    (listed : ∀ tid ∈ transport.inflight.keys, tid ∈ server.transport.inflight.keys) :
    Reaches permit failing done server { server with transport } :=
  moves_of_same ⟨SameHeld.refl server, rfl, rfl, rfl, rfl, rfl, rfl, nextId, listed,
      ⟨[], (append_nil _).symm, nofun⟩,
      ⟨[], rfl, nofun⟩⟩
    (SameLookups.refl server)

theorem keys_cancel (transport : Transport) (ids : List TransferId) :
    ∀ tid ∈ (transport.cancel ids).inflight.keys, tid ∈ transport.inflight.keys := by
  intro tid mem
  by_contra absent
  refine Dict.get?_eq_none_iff.mp ?_ mem
  show (Dict.eraseAll _ _).get? tid = none
  rw [Dict.get?_eraseAll, Dict.get?_eq_none_iff.mpr absent, ite_self]

theorem cancelled_moves (transport : Transport) (nodup : ids.Nodup)
    (inFlight : ∀ tid ∈ ids, ∃ xfer, server.inflight.get? tid = some xfer)
    (nextId : transport.nextId = server.transport.nextId)
    (listed : ∀ tid ∈ transport.inflight.keys, tid ∈ server.transport.inflight.keys) :
    Reaches permit failing done server { server.cancelTransfers ids with transport } := by
  have same := (cancelTransfers_frame server ids).1
  refine (cancelTransfers_moves ids nodup inFlight).trans (setTransport_moves ?_ ?_)
  · rw [same]
    exact nextId
  · rw [same]
    exact listed

theorem finalizeAbort_moves (parked : server.pendingAborts.contains (kvId, seq) = true)
    (detached : server.registered kvId seq = none)
    (landed : server.Landed kvId seq) :
    Reaches permit failing done server (server.finalizeAbort kvId seq) :=
  (single (.ackAbort parked detached landed)).trans maybePrune_moves

theorem registered_detachRound (server : Server) (kvId : KvRequestId) (seq : RoundSeq) :
    (server.detachRound kvId seq).registered kvId seq = none := by
  unfold detachRound
  split
  · rw [registered_endRound, if_pos ⟨rfl, rfl⟩]
  · next free => exact free

theorem detachRound_pending (server : Server) (kvId : KvRequestId) (seq : RoundSeq) :
    (server.detachRound kvId seq).pendingAborts = server.pendingAborts := by
  unfold detachRound endRound settleRoundJobs
  split
  · simp only [settleJobs_eq]
    rfl
  · rfl

theorem detachRound_moves (coherent : server.Coherent)
    (landed : permit.forces ∨ server.Landed kvId seq) :
    Reaches permit failing done server (server.detachRound kvId seq) := by
  unfold detachRound
  split
  · next ref found =>
    refine .single (.endRound found ?_ nofun)
    exact landed.imp id (coherent.quiet_of_landed found)
  · exact refl _

theorem mem_roundTransfers :
    tid ∈ server.roundTransfers kvId seq ↔ ∃ xfer, server.inflight.get? tid = some xfer ∧
      xfer.kvRequestId = kvId ∧ xfer.roundKey = seq := by
  unfold roundTransfers
  simp only [mem_map, mem_filter, Bool.and_eq_true, decide_eq_true_eq]
  constructor
  · rintro ⟨⟨_, xfer⟩, ⟨mem, keyed⟩, rfl⟩
    exact ⟨xfer, Dict.get?_eq_some_iff.mpr mem, keyed⟩
  · rintro ⟨xfer, found, keyed⟩
    exact ⟨(tid, xfer), ⟨Dict.get?_eq_some_iff.mp found, keyed⟩, rfl⟩

theorem nodup_filter_keys {Value : Type} {dict : Dict TransferId Value}
    {keep : TransferId × Value → Bool} : ((dict.entries.filter keep).map Prod.fst).Nodup :=
  dict.distinct.sublist (filter_sublist.map Prod.fst)

/-- Without the transfers of a round, it has landed. -/
theorem landed_of_cancelled (all : ∀ tid ∈ server.roundTransfers kvId seq, tid ∈ ids) :
    Landed { server.cancelTransfers ids with transport } kvId seq := by
  intro tid xfer found keyed
  rw [(cancelTransfers_frame server ids).2.1, Dict.get?_eraseAll] at found
  split at found
  · cases found
  · next kept => exact kept (all tid (mem_roundTransfers.mpr ⟨xfer, found, keyed⟩))

theorem drainAbort_moves (coherent : server.Coherent)
    (parked : server.pendingAborts.contains (kvId, seq) = true)
    (landed : permit.forces ∨ server.Landed kvId seq) :
    Reaches permit failing done server (server.drainAbort env kvId seq) := by
  refine (detachRound_moves coherent landed).trans ?_
  have detached := registered_detachRound server kvId seq
  rw [← detachRound_pending server kvId seq] at parked
  unfold drainAbort
  dsimp only
  generalize server.detachRound kvId seq = after at detached parked ⊢
  have nodup : (after.roundTransfers kvId seq).Nodup := nodup_filter_keys
  have inFlight : ∀ tid ∈ after.roundTransfers kvId seq,
      ∃ xfer, after.inflight.get? tid = some xfer :=
    fun tid mem => (mem_roundTransfers.mp mem).imp fun _ found => found.1
  have registered (ids : List TransferId) (transport : Transport) :
      ({ after.cancelTransfers ids with transport } : Server).registered kvId seq = none :=
    ((cancelTransfers_frame after ids).2.2.2 kvId seq).trans detached
  have stillParked (ids : List TransferId) (transport : Transport) :
      ({ after.cancelTransfers ids with transport } : Server).pendingAborts.contains
        (kvId, seq) = true := by
    rw [(cancelTransfers_frame after ids).2.2.1]
    exact parked
  split
  · next none =>
    refine finalizeAbort_moves parked detached ?_
    intro tid xfer found keyed
    have mem := mem_roundTransfers.mpr ⟨xfer, found, keyed⟩
    rw [isEmpty_iff.mp none] at mem
    cases mem
  · split
    · exact (cancelled_moves (after.transport.cancel _) nodup inFlight rfl
        (keys_cancel _ _)).trans (finalizeAbort_moves (stillParked _ _) (registered _ _)
            (landed_of_cancelled fun _ => id))
    generalize remains : after.transport.cancelWait env (after.roundTransfers kvId seq) = cancelled
    have releasing : Reaches permit failing done after
        { after.cancelTransfers ((after.roundTransfers kvId seq).filter
          fun tid => tid ∉ cancelled.1) with transport := cancelled.2 } := by
      refine cancelled_moves cancelled.2 (nodup.filter _)
        (fun tid mem => inFlight tid (mem_filter.mp mem).1) ?_ ?_
      · rw [← remains]
        rfl
      · rw [← remains]
        exact keys_cancel _ _
    split
    · next none =>
      refine releasing.trans (finalizeAbort_moves (stillParked _ _) (registered _ _)
          (landed_of_cancelled ?_))
      intro tid mem
      refine mem_filter.mpr ⟨mem, ?_⟩
      rw [isEmpty_iff.mp none]
      rfl
    · exact releasing

theorem onAbortFetch_moves (coherent : server.Coherent) (parks : permit.parks kvId seq)
    (landed : permit.forces ∨ server.Landed kvId seq) :
    Reaches permit failing done server (server.onAbortFetch env kvId seq) := by
  have known : Reaches permit failing done server (server.getOrCreateRequest kvId) :=
    getOrCreate_moves
  refine known.trans ?_
  unfold onAbortFetch
  dsimp only
  split
  · next parked => exact drainAbort_moves (known.coherent coherent) parked landed
  have parking : Reaches permit failing done (server.getOrCreateRequest kvId)
      { server.getOrCreateRequest kvId with
        pendingAborts :=
              (server.getOrCreateRequest kvId).pendingAborts.set (kvId, seq) env.now } :=
    .single (.parkAbort (kvId, seq) env.now parks)
  refine parking.trans (drainAbort_moves (parking.coherent (known.coherent coherent)) ?_ landed)
  simp

theorem detachRound_inflight (server : Server) (kvId : KvRequestId) (seq : RoundSeq) :
    (server.detachRound kvId seq).inflight = server.inflight := by
  unfold detachRound endRound settleRoundJobs
  split
  · simp only [settleJobs_eq]
    rfl
  · rfl

theorem finalizeAbort_inflight : (server.finalizeAbort kvId seq).inflight = server.inflight := by
  unfold finalizeAbort maybePrune
  split <;> rfl

theorem finalizeAbort_pending :
    (server.finalizeAbort kvId seq).pendingAborts = server.pendingAborts.erase (kvId, seq) := by
  unfold finalizeAbort maybePrune
  split <;> rfl

/-- Draining an abort leaves the other aborts parked. -/
theorem drainAbort_parked (other : abort ≠ (kvId, seq))
    (parked : server.pendingAborts.contains abort = true) :
    (server.drainAbort env kvId seq).pendingAborts.contains abort = true := by
  rw [← detachRound_pending server kvId seq] at parked
  unfold drainAbort
  dsimp only
  generalize server.detachRound kvId seq = after at parked ⊢
  have acked
      {ids : List TransferId}
      {transport : Transport} :
      (finalizeAbort { after.cancelTransfers ids with transport } kvId
        seq).pendingAborts.contains abort = true := by
    rw [finalizeAbort_pending, Dict.contains_erase]
    rw [(cancelTransfers_frame after ids).2.2.1, parked]
    simpa using other
  split
  · rw [finalizeAbort_pending, Dict.contains_erase, parked]
    simpa using other
  split
  · exact acked
  split
  · exact acked
  · rw [(cancelTransfers_frame after _).2.2.1]
    exact parked

/-- Draining an abort submits nothing. -/
theorem drainAbort_inflight
    (found : (server.drainAbort env kvId seq).inflight.get? tid = some xfer) :
    server.inflight.get? tid = some xfer := by
  rw [← detachRound_inflight server kvId seq]
  unfold drainAbort at found
  dsimp only at found
  generalize server.detachRound kvId seq = after at found ⊢
  have cancelled
      {ids : List TransferId}
      (kept : (after.cancelTransfers ids).inflight.get? tid = some xfer) :
      after.inflight.get? tid = some xfer := by
    rw [(cancelTransfers_frame after ids).2.1, Dict.get?_eraseAll] at kept
    split at kept
    · cases kept
    · exact kept
  split at found
  · rwa [finalizeAbort_inflight] at found
  split at found
  · rw [finalizeAbort_inflight] at found
    exact cancelled found
  split at found
  · rw [finalizeAbort_inflight] at found
    exact cancelled found
  · exact cancelled found

theorem drainAborts_moves {aborts : List (KvRequestId × RoundSeq)} (coherent : server.Coherent)
    (nodup : aborts.Nodup)
    (parked : ∀ abort ∈ aborts, server.pendingAborts.contains abort = true)
    (landed : permit.forces ∨ ∀ abort ∈ aborts, server.Landed abort.1 abort.2) :
    Reaches permit failing done server
      (aborts.foldl (fun server abort => server.drainAbort env abort.1 abort.2) server) := by
  induction aborts generalizing server with
  | nil => exact refl _
  | cons abort rest ih =>
    obtain ⟨unlisted, restDistinct⟩ := nodup_cons.mp nodup
    have first : Reaches permit failing done server (server.drainAbort env abort.1 abort.2) :=
      drainAbort_moves coherent (parked abort mem_cons_self)
        (landed.imp id fun all => all abort mem_cons_self)
    have stillParked : ∀ other ∈ rest,
        (server.drainAbort env abort.1 abort.2).pendingAborts.contains other = true := by
      intro other mem
      refine drainAbort_parked ?_ (parked other (mem_cons_of_mem _ mem))
      rintro rfl
      exact unlisted mem
    refine first.trans (ih (first.coherent coherent) restDistinct stillParked ?_)
    exact landed.imp id fun all other mem =>
      (all other (mem_cons_of_mem _ mem)).of_inflight fun _ _ => drainAbort_inflight

theorem drainPendingAborts_moves (coherent : server.Coherent)
    (landed : permit.forces ∨ ∀ abort ∈ server.pendingAborts.keys, server.Landed abort.1 abort.2) :
    Reaches permit failing done server (server.drainPendingAborts env) :=
  drainAborts_moves coherent (Dict.distinct _) (fun _ => Dict.contains_iff_mem_keys.mpr) landed

/-! ## Polls -/

theorem maybePrune_events : (server.maybePrune kvId).events = server.events := by
  unfold maybePrune
  split <;> rfl

theorem settleXferJobs_events : (server.settleXferJobs xfer success).2.events = server.events := by
  unfold settleXferJobs
  rw [settleJobs_eq]
  rfl

theorem completeTransfer_events (server : Server) (tid : TransferId) :
    (server.completeTransfer tid).2.events = server.events := by
  unfold completeTransfer
  split
  · rfl
  rename_i xfer found
  have ended : (server.completeXfer tid xfer).2.events = server.events := by
    unfold completeXfer
    dsimp only
    split <;> exact settleXferJobs_events.trans (dropInflight_fields).2.2.2.2.1
  rw [maybePrune_events]
  split
  · split
    · exact (finalize_frame _ _ _ _ _).2.1.trans ended
    · split
      · exact (finalize_frame _ _ _ _ _).2.1.trans ended
      · exact ended
  · exact ended

theorem completeTransfer_moves (tells : permit.tells) (coherent : server.Coherent)
    (done : ∀ kvId seq, Event.ended tid true ∈ sinceDemand server.events kvId seq) :
    Moves permit ⟨server, failing, collected⟩
      ⟨(server.completeTransfer tid).2, failing, collected ++ (server.completeTransfer tid).1⟩ := by
  unfold completeTransfer
  split
  · rw [append_nil]
    exact refl _
  rename_i xfer found
  have completing : Moves permit ⟨server, failing, collected⟩
      ⟨(server.completeXfer tid xfer).2, failing, collected ++ (server.completeXfer tid xfer).1⟩ :=
    .single (.complete found done)
  have ended := completing.coherent coherent
  refine completing.trans ?_
  dsimp only
  generalize (server.completeXfer tid xfer).2 = after at ended ⊢
  refine trans ?_ maybePrune_moves
  split
  · next isFound =>
    have noOther {ref : RoundRef}
        (other : after.registered xfer.kvRequestId xfer.roundKey = some ref) :
        xfer.round = ref :=
      Option.some.inj (isFound.symm.trans other)
    split
    · next misses =>
      have complete : (after.rounds xfer.round).remaining = 0 := by simpa using misses
      refine finalize_moves (fun _ => tells) ?_ ?_
      · intro ref other
        cases noOther other
        cases asked : (after.rounds xfer.round).demandReceived with
        | false => exact .inl (ended.quiet_of_unasked asked)
        | true => exact .inl (ended.quiet_of_complete isFound asked complete)
      · intro _ ref other
        cases noOther other
        exact complete
    · split
      · next ends =>
        refine finalize_moves (fun _ => tells) ?_ nofun
        intro ref other
        cases noOther other
        have none := (Bool.and_eq_true_iff.mp ends).2
        exact .inl (ended.quiet_iff.mpr (by simpa using none))
      · exact refl _
  · exact refl _

theorem completeTransfers_moves (tells : permit.tells)
    (collected : List StoreResult) (tids : List TransferId) (coherent : server.Coherent)
    (done : ∀ tid ∈ tids, ∀ kvId seq, Event.ended tid true ∈ sinceDemand server.events kvId seq) :
    Moves permit ⟨server, failing, collected⟩
        ⟨(collectEach completeTransfer tids server).2, failing,
          collected ++ (collectEach completeTransfer tids server).1⟩ ∧
      (collectEach completeTransfer tids server).2.events = server.events := by
  induction tids generalizing server collected with
  | nil =>
    unfold collectEach
    rw [append_nil]
    exact ⟨refl _, rfl⟩
  | cons tid rest ih =>
    have first : Moves permit ⟨server, failing, collected⟩
        ⟨(server.completeTransfer tid).2, failing, collected ++ (server.completeTransfer tid).1⟩ :=
      completeTransfer_moves tells coherent (done tid mem_cons_self)
    have events := completeTransfer_events server tid
    obtain ⟨others, otherEvents⟩ :=
      ih (collected ++ (server.completeTransfer tid).1) (first.coherent coherent) (by
          rw [events]
          exact fun other mem => done other (mem_cons_of_mem _ mem))
    unfold collectEach
    rw [← append_assoc]
    exact ⟨first.trans others, otherEvents.trans events⟩

theorem failTransfer_events : (server.failTransfer tid).2.2.events = server.events := by
  unfold failTransfer
  split
  · rfl
  rename_i xfer found
  rw [maybePrune_events]
  unfold failXfer
  dsimp only
  split <;> exact settleXferJobs_events.trans (dropInflight_fields).2.2.2.2.1

theorem failTransfer_moves (tells : permit.tells)
    (ended : ∃ done, Event.ended tid done ∈ server.events) :
    Moves permit ⟨server, failing, collected⟩
      ⟨(server.failTransfer tid).2.2, (server.failTransfer tid).2.1.map Prod.snd ++ failing,
        collected ++ (server.failTransfer tid).1⟩ := by
  unfold failTransfer
  split
  · rw [append_nil]
    exact refl _
  · next xfer found => exact (single (.fail found ended tells)).trans maybePrune_moves

theorem failTransfers_moves (tells : permit.tells)
    (failing : List RoundRef) (collected : List StoreResult) (tids : List TransferId)
    (ended : ∀ tid ∈ tids, ∃ done, Event.ended tid done ∈ server.events) :
    ∃ others, Moves permit ⟨server, failing, collected⟩
        ⟨(failTransfers tids server).2.2, others, collected ++ (failTransfers tids server).1⟩ ∧
      others.Perm ((failTransfers tids server).2.1.map Prod.snd ++ failing) := by
  induction tids generalizing server failing collected with
  | nil =>
    refine ⟨failing, ?_, .refl _⟩
    unfold failTransfers
    rw [append_nil]
    exact refl _
  | cons tid rest ih =>
    have first : Moves permit ⟨server, failing, collected⟩ ⟨(server.failTransfer tid).2.2,
        (server.failTransfer tid).2.1.map Prod.snd ++ failing,
        collected ++ (server.failTransfer tid).1⟩ :=
      failTransfer_moves tells (ended tid mem_cons_self)
    have stillEnded : ∀ other ∈ rest, ∃ done,
        Event.ended other done ∈ (server.failTransfer tid).2.2.events := by
      rw [failTransfer_events]
      exact fun other mem => ended other (mem_cons_of_mem _ mem)
    obtain ⟨others, later, perm⟩ :=
      ih ((server.failTransfer tid).2.1.map Prod.snd ++ failing)
        (collected ++ (server.failTransfer tid).1) stillEnded
    refine ⟨others, ?_, perm.trans ?_⟩
    · unfold failTransfers
      rw [← append_assoc]
      exact first.trans later
    · show Perm _ (((server.failTransfer tid).2.1 ++
          (failTransfers rest (server.failTransfer tid).2.2).2.1).map Prod.snd ++ failing)
      rw [map_append, ← append_assoc]
      exact perm_append_comm.append_right failing

theorem cancelFailedRound_moves
    (mem : failing.Perm (failed.2 :: others)) :
    Moves permit ⟨server, failing, done⟩
      ⟨(server.cancelFailedRound failed).2, others,
        done ++ (server.cancelFailedRound failed).1⟩ := by
  unfold cancelFailedRound
  generalize isIds :
    (server.inflight.entries.filter fun entry => entry.2.round = failed.2).map Prod.fst = ids
  have cancelling : Reaches permit failing done server
      { server.cancelTransfers ids with transport := server.transport.cancel ids } := by
    refine cancelled_moves (server.transport.cancel ids) ?_ ?_ rfl (keys_cancel _ _)
    · rw [← isIds]
      exact nodup_filter_keys
    · intro tid listed
      rw [← isIds] at listed
      obtain ⟨⟨_, xfer⟩, entry, rfl⟩ := mem_map.mp listed
      exact ⟨xfer, Dict.get?_eq_some_iff.mpr (mem_filter.mp entry).1⟩
  refine cancelling.trans ((single (.failJobs mem ?_)).trans maybePrune_moves)
  intro tid xfer found isRound
  rw [(cancelTransfers_frame server ids).2.1, Dict.get?_eraseAll] at found
  split at found
  · cases found
  rename_i kept
  refine kept ?_
  rw [← isIds]
  exact mem_map.mpr ⟨(tid, xfer), mem_filter.mpr
    ⟨Dict.get?_eq_some_iff.mp found, by simpa using isRound⟩, rfl⟩

theorem cancelFailedRounds_moves
    (all : failing.Perm (failed.map Prod.snd)) :
    Moves permit ⟨server, failing, done⟩
      ⟨(collectEach cancelFailedRound failed server).2, [],
        done ++ (collectEach cancelFailedRound failed server).1⟩ := by
  induction failed generalizing server failing done with
  | nil =>
    unfold collectEach
    rw [append_nil, Perm.eq_nil all]
    exact refl _
  | cons first rest ih =>
    have cancelling : Moves permit ⟨server, failing, done⟩
        ⟨(server.cancelFailedRound first).2, rest.map Prod.snd,
          done ++ (server.cancelFailedRound first).1⟩ :=
      cancelFailedRound_moves all
    refine cancelling.trans ?_
    unfold collectEach
    rw [← append_assoc]
    exact ih (.refl _)

/-- The transfers a poll finds done or failed have ended since every demand. -/
theorem pollTransport_ended :
    (∀ tid ∈ (server.pollTransport env).1, ∀ kvId seq, Event.ended tid true ∈
        sinceDemand (server.pollTransport env).2.2.events kvId seq) ∧
      ∀ tid ∈ (server.pollTransport env).2.1,
        Event.ended tid false ∈ (server.pollTransport env).2.2.events := by
  constructor
  · intro tid mem kvId seq
    show _ ∈ sinceDemand (_ ++ (_ ++ _)) kvId seq
    rw [sinceDemand_append, sinceDemand_append]
    · exact mem_append_right _ (mem_append_left _ (mem_map.mpr ⟨tid, mem, rfl⟩))
    all_goals
      intro event isEnd
      obtain ⟨other, _, rfl⟩ := mem_map.mp isEnd
      rfl
  · intro tid mem
    exact mem_append_left _ (mem_map.mpr ⟨tid, mem, rfl⟩)

theorem timeout_moves
    (unread : permit.forces ∨ ∀ jobId ∈ server.timedOut env, server.Unread jobId) :
    Moves permit ⟨server, failing, done⟩
      ⟨(server.timeoutPendingStoreJobs env).2, failing,
        done ++ (server.timeoutPendingStoreJobs env).1⟩ :=
  .single (.timeout (server.timedOut env) unread)

theorem collectResults_moves (tells : permit.tells) (coherent : server.Coherent)
    (unread : permit.forces ∨ ∀ jobId ∈ server.timedOut env, server.Unread jobId) :
    Reaches permit [] [] server (server.collectResults env).2 := by
  have polling : Moves permit ⟨server, [], []⟩ ⟨({ (server.timeoutPendingStoreJobs env).2 with
            pendingStoreResults := [] }.pollTransport env).2.2, [],
          [] ++ (server.timeoutPendingStoreJobs env).1 ++
            (server.timeoutPendingStoreJobs env).2.pendingStoreResults⟩ :=
    (timeout_moves unread).trans ((single .takeDeferred).trans (.single (.poll env)))
  have polled := polling.coherent coherent
  obtain ⟨done, failed⟩ := pollTransport_ended
  unfold collectResults
  dsimp only
  generalize { (server.timeoutPendingStoreJobs env).2 with
    pendingStoreResults := [] }.pollTransport env = answer at *
  obtain ⟨completing, events⟩ := completeTransfers_moves tells _ answer.1 polled done
  have ended : ∀ tid ∈ answer.2.1, ∃ done,
      Event.ended tid done ∈ (collectEach completeTransfer answer.1 answer.2.2).2.events := by
    rw [events]
    exact fun tid mem => ⟨false, failed tid mem⟩
  obtain ⟨others, ending, perm⟩ := failTransfers_moves tells [] _ answer.2.1 ended
  rw [append_nil] at perm
  exact polling.trans (completing.trans (ending.trans
    ((cancelFailedRounds_moves perm).trans (.single .report))))

theorem idleTimeouts_moves
    (unread : permit.forces ∨ ∀ jobId ∈ server.timedOut env, server.Unread jobId) :
    Reaches permit [] [] server (server.collectIdleTimeouts env).2 :=
  (timeout_moves unread).trans (.single .report)

end Server

end VllmCore.P2P
