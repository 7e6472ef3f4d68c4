import VllmCore.P2P.ServerMoves

namespace VllmCore.P2P

open Lib List

/-!
# The operations of the server as moves

Each operation of a coherent server is a sequence of moves.  The guards of the moves are
what the code checks: a counter that is zero, a round that misses nothing, a transfer the
transport reported.
-/

namespace Server

variable {permit : Permit} {server : Server} {kvId : KvRequestId} {seq : RoundSeq}

/-! ## Keeping the books -/

/-- The lookups of every request stay. -/
def SameLookups (before after : Server) : Prop :=
  ∀ kvRequestId, (after.request kvRequestId).pendingLookups =
        (before.request kvRequestId).pendingLookups ∧
      (after.request kvRequestId).lookups = (before.request kvRequestId).lookups

theorem SameLookups.refl (server : Server) : SameLookups server server :=
  fun _ => ⟨rfl, rfl⟩

theorem SameLookups.trans {first second third : Server} (before : SameLookups first second)
    (later : SameLookups second third) : SameLookups first third :=
  fun kvId => ⟨(later kvId).1.trans (before kvId).1, (later kvId).2.trans (before kvId).2⟩

variable {env : Environment} {request : ServerRequestState} {after : Server} {before : Server}

theorem SameLookups.openLookups (same : SameLookups before after) (kvId : KvRequestId) :
    after.openLookups kvId = before.openLookups kvId := by
  unfold Server.openLookups
  rw [(same kvId).1, (same kvId).2]

theorem SameLookups.filed (same : SameLookups before after) (filed : before.Filed) :
    after.Filed := by
  intro kvId lookupId lookup found
  rw [(same kvId).2] at found
  exact filed kvId lookupId lookup found

theorem setRequest_same {Part : Type} {part : ServerRequestState → Part}
    (kept : part request = part (server.request kvId)) :
    part ((server.setRequest kvId request).request other) = part (server.request other) := by
  rw [request_setRequest]
  split
  · next same => rw [same, kept]
  · rfl

/-- A request that changes its rounds or transfers only keeps its lookups. -/
theorem set_sameLookups
    (pending : request.pendingLookups = (server.request kvId).pendingLookups)
    (lookups : request.lookups = (server.request kvId).lookups) :
    SameLookups server (server.setRequest kvId request) :=
  fun _ => ⟨setRequest_same pending, setRequest_same lookups⟩

theorem maybePrune_sameLookups : SameLookups server (server.maybePrune kvId) := by
  intro other
  rw [request_maybePrune]
  exact ⟨rfl, rfl⟩

theorem openRound_sameLookups : SameLookups server (server.openRound kvId seq).2 := by
  unfold openRound
  split <;> exact set_sameLookups rfl rfl

theorem drop_sameLookups (server : Server) (tid : TransferId) (xfer : InflightXfer) :
    SameLookups server (server.dropInflight tid xfer) := by
  unfold dropInflight
  split
  · next request found =>
    have isRequest : server.request xfer.kvRequestId = request := by
      unfold Server.request Dict.getD
      rw [found]
      rfl
    have same : SameLookups server (server.setRequest xfer.kvRequestId
        { request with inflightTids := request.inflightTids.erase tid }) :=
      set_sameLookups (by rw [isRequest]) (by rw [isRequest])
    exact same
  · exact SameLookups.refl server

theorem write_sameLookups :
    SameLookups server (server.writeMatched env kvId result ref seq).2 := by
  unfold writeMatched
  dsimp only
  split
  · exact set_sameLookups rfl rfl
  · exact SameLookups.refl server

theorem endRound_sameLookups {success tell : Bool} :
    SameLookups server (server.endRound kvId seq ref success tell) := by
  have taken : SameLookups server (server.unregister kvId seq) := set_sameLookups rfl rfl
  unfold endRound settleRoundJobs
  rw [settleJobs_eq]
  split <;> exact taken

/-- A change of requests, of the tiering manager's answers and of lists of lookups. -/
theorem SameHeld.refl (server : Server) : SameHeld server server :=
  fun _ => ⟨rfl, rfl⟩

theorem setRequest_sameHeld (outbound : request.outbound = (server.request kvId).outbound)
    (inflightTids : request.inflightTids = (server.request kvId).inflightTids) :
    SameHeld server (server.setRequest kvId request) :=
  fun _ => ⟨setRequest_same outbound, setRequest_same inflightTids⟩

theorem maybePrune_sameHeld (server : Server) (kvId : KvRequestId) :
    SameHeld server (server.maybePrune kvId) := by
  intro other
  rw [request_maybePrune]
  exact ⟨rfl, rfl⟩

theorem sameCore_of_requests (held : SameHeld server after) (rounds : after.rounds = server.rounds)
    (nextRound : after.nextRound = server.nextRound) (inflight : after.inflight = server.inflight)
    (storeJobs : after.storeJobs = server.storeJobs)
    (pendingStoreResults : after.pendingStoreResults = server.pendingStoreResults)
    (pendingAborts : after.pendingAborts = server.pendingAborts)
    (transport : after.transport = server.transport) (sent : after.sent = server.sent)
    (events : after.events = server.events) : SameCore server after := by
  refine ⟨held, rounds, nextRound, inflight, storeJobs, pendingStoreResults,
    pendingAborts, by rw [transport], ?_, ⟨[], ?_, nofun⟩,
    ⟨[], ?_, nofun⟩⟩
  · rw [transport]
    exact fun _ => id
  · rw [sent, append_nil]
  · rw [events, nil_append]

theorem getOrCreate_sameCore : SameCore server (server.getOrCreateRequest kvId) :=
  sameCore_of_requests (setRequest_sameHeld rfl rfl) rfl rfl rfl rfl rfl rfl rfl rfl rfl

theorem maybePrune_sameCore : SameCore server (server.maybePrune kvId) := by
  have held := maybePrune_sameHeld server kvId
  unfold maybePrune at held ⊢
  split at held
  · next prunes =>
    rw [if_pos prunes]
    exact sameCore_of_requests held rfl rfl rfl rfl rfl rfl rfl rfl rfl
  · next kept =>
    rw [if_neg kept]
    exact sameCore_of_requests held rfl rfl rfl rfl rfl rfl rfl rfl rfl

/-- Books that leave the lookups alone. -/
theorem moves_of_same (same : SameCore server after) (lookups : SameLookups server after) :
    Reaches permit failing done server after := by
  refine .single (.bookkeep same ?_ lookups.filed)
  intro other seq' isOpen
  rw [lookups.openLookups] at isOpen
  exact Or.inl isOpen

theorem getOrCreate_moves :
    Reaches permit failing done server (server.getOrCreateRequest kvId) :=
  moves_of_same getOrCreate_sameCore (set_sameLookups rfl rfl)

theorem maybePrune_moves : Reaches permit failing done server (server.maybePrune kvId) :=
  moves_of_same maybePrune_sameCore maybePrune_sameLookups

/-! ## Ending a round -/

theorem closeRound_moves (found : server.registered kvId seq = some ref)
    (tells : sendDone = true → permit.tells)
    (quiet : server.Quiet ref ∨ permit.forces ∧ sendDone = false)
    (complete : success = some true → (server.rounds ref).remaining = 0) :
    Reaches permit failing done server
      (server.closeRound kvId seq ref success sendDone) := by
  refine (Moves.single (.endRound found ?_ ?_)).trans maybePrune_moves
  · rcases quiet with isQuiet | ⟨forces, _⟩
    · exact Or.inr isQuiet
    · exact Or.inl forces
  · intro told
    obtain ⟨sends, asked⟩ := Bool.and_eq_true_iff.mp told
    refine ⟨tells sends, ?_, asked, ?_⟩
    · rcases quiet with isQuiet | ⟨_, silent⟩
      · exact isQuiet
      · rw [silent] at sends
        cases sends
    · intro succeeds
      cases success with
      | none => simpa [asked] using succeeds
      | some value => exact complete (congrArg some succeeds)

theorem finalizeRegistered_eq :
    server.finalizeRegistered kvId seq success sendDone =
      match server.registered kvId seq with
      | some ref => server.closeRound kvId seq ref success sendDone
      | none => server := by
  unfold finalizeRegistered finalizeOutbound
  cases server.registered kvId seq <;> rfl

theorem finalize_moves (tells : sendDone = true → permit.tells)
    (quiet :
      ∀ ref, server.registered kvId seq = some ref →
        server.Quiet ref ∨ permit.forces ∧ sendDone = false)
    (complete :
      success = some true → ∀ ref, server.registered kvId seq = some ref →
          (server.rounds ref).remaining = 0) :
    Reaches permit failing done server
      (server.finalizeRegistered kvId seq success sendDone) := by
  rw [finalizeRegistered_eq]
  cases found : server.registered kvId seq with
  | none => exact Moves.refl _
  | some ref =>
    exact closeRound_moves found tells (quiet ref found) fun succeeds => complete succeeds ref found

/-! ## Stores -/

/-- After a refusal the round ends unless another transfer of it is in flight. -/
theorem submitTransfer_moves (tells : permit.tells)
    (coherent : (server.writeMatched env kvId result ref seq).2.Coherent) :
    Reaches permit failing done ((server.writeMatched env kvId result ref seq).2)
      (server.submitTransfer env kvId result ref seq) := by
  unfold submitTransfer
  dsimp only
  split
  · exact Moves.refl _
  split
  · next ends =>
    obtain ⟨found, none⟩ := Bool.and_eq_true_iff.mp ends
    have isFound := of_decide_eq_true found
    refine finalize_moves (fun _ => tells) ?_ nofun
    intro other found'
    rw [isFound] at found'
    cases found'
    exact Or.inl (coherent.quiet_iff.mpr (by simpa using none))
  · exact Moves.refl _

theorem openRound_moves (permitted : permit.opens kvId seq) :
    Reaches permit failing done server ((server.openRound kvId seq).2) := by
  cases found : server.registered kvId seq with
  | none => exact .single (.openRound found permitted)
  | some ref =>
    rw [openRound_registered found]
    exact getOrCreate_moves

theorem registered_open_self (server : Server) (kvId : KvRequestId) (seq : RoundSeq) :
    (server.openRound kvId seq).2.registered kvId seq = some (server.openRound kvId seq).1 := by
  cases found : server.registered kvId seq with
  | none => rw [registered_openRound found, if_pos ⟨rfl, rfl⟩, (openRound_free found).1]
  | some ref =>
    rw [openRound_registered found]
    exact (registered_getOrCreate _ _ _).trans found

theorem openRound_events (server : Server) (kvId : KvRequestId) (seq : RoundSeq) :
    (server.openRound kvId seq).2.events = server.events := by
  unfold openRound
  split <;> rfl

theorem addStoredBlocks_moves {keys : List OffloadKey} (coherent : server.Coherent)
    (permitted : permit.opens kvId seq) (stores : permit.stores) (tells : permit.tells)
    (unused : server.Unused jobId) :
    Reaches permit failing done server
      (server.addStoredBlocks env kvId keys blockIds jobId seq looked) := by
  have opening : Reaches permit failing done server ((server.openRound kvId seq).2) :=
    openRound_moves permitted
  have found := registered_open_self server kvId seq
  have stillUnused : (server.openRound kvId seq).2.Unused jobId := by
    intro other blocks
    rw [openRound_events]
    exact unused other blocks
  have opened := opening.coherent coherent
  refine opening.trans ?_
  unfold Server.addStoredBlocks
  dsimp only
  generalize (server.openRound kvId seq).2 = after at *
  generalize (server.openRound kvId seq).1 = ref at *
  split
  · next submits =>
    obtain ⟨matched, asked⟩ := Bool.and_eq_true_iff.mp submits
    have changes := supplyRound_changes found (keys.zip blockIds) jobId env.now looked
    have same : (after.suppliedRound ref (keys.zip blockIds) jobId looked).demandReceived =
        (after.rounds ref).demandReceived :=
      addStoredBlocks_round.1
    rw [changes.rounds_self, same] at asked
    have supplying : Moves permit ⟨after, failing, done⟩ _ :=
      Moves.single (.supplyWrite env (keys.zip blockIds) env.now looked found stillUnused stores
          asked (by simpa using matched))
    exact supplying.trans (submitTransfer_moves tells (supplying.coherent opened))
  · exact .single (.supply (keys.zip blockIds) env.now looked found stillUnused stores)

/-! ## Lookups -/

theorem completeXfer_sameLookups : SameLookups server (server.completeXfer tid xfer).2 := by
  have dropped := drop_sameLookups server tid xfer
  unfold completeXfer settleXferJobs
  rw [settleJobs_eq]
  dsimp only
  split <;> exact dropped

theorem failXfer_sameLookups : SameLookups server (server.failXfer tid xfer).2.2 := by
  have settled :
      SameLookups server ((server.dropInflight tid xfer).settleXferJobs xfer false).2 := by
    unfold settleXferJobs
    rw [settleJobs_eq]
    exact drop_sameLookups server tid xfer
  unfold failXfer
  dsimp only
  split
  · exact settled.trans (set_sameLookups rfl rfl)
  · exact settled

end Server

variable {before after : Serving} {permit : Permit}

open Server in
/-- Moves that keep no books leave the lookups alone. -/
theorem Move.lookups (move : Move permit before after) :
    (∀ kvId, ∀ seq ∈ after.server.openLookups kvId,
      seq ∈ before.server.openLookups kvId ∨ permit.looks kvId seq) ∧
      (before.server.Filed → after.server.Filed) := by
  have ofSame
      {first second : Server}
      (same : SameLookups first second) :
      (∀ kvId, ∀ seq ∈ second.openLookups kvId,
        seq ∈ first.openLookups kvId ∨ permit.looks kvId seq) ∧
        (first.Filed → second.Filed) :=
    ⟨fun kvId seq isOpen => Or.inl (same.openLookups kvId ▸ isOpen), same.filed⟩
  cases move with
  | bookkeep _ looks filed => exact ⟨looks, filed⟩
  | openRound _ _ => exact ofSame openRound_sameLookups
  | @supplyWrite server _ _ kvId seq ref env blocks jobId now looked =>
    exact ofSame write_sameLookups
  | @demandWrite server _ _ kvId seq ref env wanted => exact ofSame write_sameLookups
  | endRound _ _ _ => exact ofSame endRound_sameLookups
  | timeout jobIds _ =>
    refine ofSame ?_
    rw [settleJobs_eq]
    exact SameLookups.refl _
  | complete _ _ => exact ofSame completeXfer_sameLookups
  | fail _ _ _ => exact ofSame failXfer_sameLookups
  | cancel _ => exact ofSame (drop_sameLookups _ _ _)
  | failJobs _ _ =>
    refine ofSame ?_
    unfold failRoundJobs settleRoundJobs
    rw [settleJobs_eq]
    exact SameLookups.refl _
  | _ => exact ofSame (SameLookups.refl _)

/-- Hits of permitted lookups may be stored with their rounds. -/
structure Permit.Serves (permit : Permit) : Prop where
  opens :
    ∀ kvRequestId roundSeq, permit.looks kvRequestId roundSeq → permit.opens kvRequestId roundSeq
  stores : permit.stores
  tells : permit.tells

theorem Moves.filed (moves : Moves permit before after) (filed : before.server.Filed) :
    after.server.Filed :=
  moves.keeps (fun serving => serving.server.Filed) (fun _ _ held move => move.lookups.2 held) filed

theorem Moves.openLookups (moves : Moves permit before after)
    (isOpen : seq ∈ after.server.openLookups kvId) :
    seq ∈ before.server.openLookups kvId ∨ permit.looks kvId seq := by
  revert isOpen kvId seq
  refine moves.keeps (fun serving => ∀ {kvId seq}, seq ∈ serving.server.openLookups kvId →
        seq ∈ before.server.openLookups kvId ∨ permit.looks kvId seq) ?_ Or.inl
  intro first second held move kvId seq isOpen
  rcases move.lookups.1 kvId seq isOpen with wasOpen | looks
  · exact held wasOpen
  · exact Or.inr looks

namespace Server

variable {permit : Permit} {server : Server} {kvId : KvRequestId}
  {seq : RoundSeq}

/-- The tiering manager gives every job it creates a new id. -/
structure FreshParent (server : Server) : Prop where
  unused : ∀ number, server.parent.created ≤ number → server.Unused (server.parent.jobId number)
  injective :
    ∀ number other, server.parent.created ≤ number → server.parent.created ≤ other →
      server.parent.jobId number = server.parent.jobId other → number = other

/-- A server while it serves lookups. -/
structure Ready (permit : Permit) (server : Server) : Prop where
  coherent : server.Coherent
  filed : server.Filed
  fresh : server.FreshParent
  looking :
    ∀ kvRequestId, ∀ roundSeq ∈ server.openLookups kvRequestId, permit.looks kvRequestId roundSeq

structure Serves (permit : Permit) (before after : Server) : Prop where
  moves : Moves permit ⟨before, [], []⟩ ⟨after, [], []⟩
  fresh : after.FreshParent

theorem Serves.ready {before after : Server} (serves : Serves permit before after)
    (ready : Ready permit before) :
    Ready permit after where
  coherent := serves.moves.coherent ready.coherent
  filed := serves.moves.filed ready.filed
  fresh := serves.fresh
  looking := fun kvId seq isOpen =>
    (serves.moves.openLookups isOpen).elim (ready.looking kvId seq) id

theorem Serves.trans {first second third : Server} (before : Serves permit first second)
    (later : Serves permit second third) : Serves permit first third :=
  ⟨before.moves.trans later.moves, later.fresh⟩

/-- Serving item after item. -/
theorem foldl_serves {Item : Type} (step : Server → Item → Server) (items : List Item)
    (each : ∀ server, ∀ item ∈ items, Ready permit server → Serves permit server (step server item))
    (ready : Ready permit server) : Serves permit server (items.foldl step server) := by
  induction items generalizing server with
  | nil => exact ⟨Moves.refl _, ready.fresh⟩
  | cons item rest ih =>
    have first := each server item mem_cons_self ready
    exact first.trans (ih (fun server item mem =>
        each server item (mem_cons_of_mem _ mem)) (first.ready ready))

/-- Books kept without a new store job. -/
theorem FreshParent.of_same {after : Server} (fresh : server.FreshParent)
    (jobId : after.parent.jobId = server.parent.jobId)
    (created : after.parent.created = server.parent.created)
    (stored :
      ∀ kvId jobId blocks, Event.stored kvId jobId blocks ∈ after.events →
        Event.stored kvId jobId blocks ∈ server.events) :
    after.FreshParent where
  unused := by
    intro number later kvId blocks mem
    rw [created] at later
    rw [jobId] at mem
    exact fresh.unused number later kvId blocks (stored _ _ _ mem)
  injective := by
    rw [jobId, created]
    exact fresh.injective

theorem finalize_frame (server : Server) (kvId : KvRequestId) (seq : RoundSeq)
    (success : Option Bool) (sendDone : Bool) :
    (server.finalizeRegistered kvId seq success sendDone).parent = server.parent ∧
      (server.finalizeRegistered kvId seq success sendDone).events = server.events ∧
      (server.finalizeRegistered kvId seq success sendDone).inflight = server.inflight := by
  rw [finalizeRegistered_eq]
  split
  · unfold closeRound endRound settleRoundJobs maybePrune
    simp only [settleJobs_eq]
    split <;> split <;> exact ⟨rfl, rfl, rfl⟩
  · exact ⟨rfl, rfl, rfl⟩

variable {lookup : ActiveLookup} (env : Environment)

theorem writeMatched_frame (server : Server) (kvId : KvRequestId) (result : MatchResult)
    (ref : RoundRef) (seq : RoundSeq) :
    (server.writeMatched env kvId result ref seq).2.parent = server.parent ∧
      (server.writeMatched env kvId result ref seq).2.events =
        .wrote (server.transport.writeBlocks env result.blocks).1 kvId seq
          result.jobIds result.blocks :: server.events := by
  unfold writeMatched
  dsimp only
  split
  · next accepted => exact ⟨rfl, rfl⟩
  · next refused => exact ⟨rfl, rfl⟩

theorem submitTransfer_frame :
    (server.submitTransfer env kvId result ref seq).parent = server.parent ∧
      (server.submitTransfer env kvId result ref seq).events =
        .wrote (server.transport.writeBlocks env result.blocks).1 kvId seq
          result.jobIds result.blocks :: server.events := by
  have written := writeMatched_frame env server kvId result ref seq
  unfold submitTransfer
  dsimp only
  split
  · exact written
  split
  · have ended :=
      finalize_frame (server.writeMatched env kvId result ref seq).2 kvId seq (some false) true
    exact ⟨ended.1.trans written.1, ended.2.1.trans written.2⟩
  · exact written

variable {keys : List OffloadKey}

/-- The only store job a store adds is its own. -/
theorem addStoredBlocks_frame :
    (server.addStoredBlocks env kvId keys blockIds jobId seq looked).parent = server.parent ∧
      ∀ other job' blocks, Event.stored other job' blocks ∈
          (server.addStoredBlocks env kvId keys blockIds jobId seq looked).events →
        job' = jobId ∨ Event.stored other job' blocks ∈ server.events := by
  have opened := openRound_events server kvId seq
  have parent : (server.openRound kvId seq).2.parent = server.parent := by
    unfold openRound
    split <;> rfl
  unfold addStoredBlocks
  dsimp only
  split
  · obtain ⟨sameParent, events⟩ :=
      submitTransfer_frame env
    refine ⟨sameParent.trans parent, ?_⟩
    intro other job' blocks mem
    rw [events] at mem
    rcases mem_cons.mp mem with isWrite | mem
    · cases isWrite
    rcases mem_cons.mp mem with isStore | old
    · cases isStore
      exact Or.inl rfl
    · exact Or.inr (opened ▸ old)
  · refine ⟨parent, ?_⟩
    intro other job' blocks mem
    rcases mem_cons.mp mem with isStore | old
    · cases isStore
      exact Or.inl rfl
    · exact Or.inr (opened ▸ old)

theorem askParent_frame (keys : List OffloadKey) (lookup : ActiveLookup) (parent : Parent) :
    (askParent keys lookup parent).2.1.ctx = lookup.ctx ∧
      (askParent keys lookup parent).2.1.roundSeq = lookup.roundSeq ∧
      (askParent keys lookup parent).2.2.jobId = parent.jobId ∧
      (askParent keys lookup parent).2.2.created = parent.created := by
  induction keys generalizing lookup parent with
  | nil => exact ⟨rfl, rfl, rfl, rfl⟩
  | cons key rest ih =>
    unfold askParent
    split
    · exact ih lookup parent
    · split <;> exact ih _ _

/-- Only the answers of the tiering manager change. -/
theorem setParent_moves {parent : Parent} :
    Moves permit ⟨server, [], []⟩ ⟨{ server with parent }, [], []⟩ :=
  moves_of_same (sameCore_of_requests (SameHeld.refl server) rfl rfl rfl rfl rfl rfl rfl rfl rfl)
    (SameLookups.refl server)

theorem pinAndRegisterHits_serves (allowed : permit.Serves) (ready : Ready permit server)
    {env : Environment} (permitted : permit.looks lookup.ctx.kvRequestId lookup.roundSeq) :
    Serves permit server (server.pinAndRegisterHits env lookup keys) := by
  have created : Moves permit ⟨server, [], []⟩ ⟨{ server with
      parent := { server.parent with created := server.parent.created + 1 } }, [], []⟩ :=
    setParent_moves
  refine ⟨created.trans (addStoredBlocks_moves (created.coherent ready.coherent)
    (allowed.opens _ _ permitted) allowed.stores allowed.tells (ready.fresh.unused _ (le_refl _))), ?_⟩
  obtain ⟨parent, stored⟩ := addStoredBlocks_frame env
  constructor
  · intro number later kvId blocks mem
    unfold pinAndRegisterHits at later mem
    rw [parent] at later mem
    have below : server.parent.created < number := later
    rcases stored _ _ _ mem with same | old
    · have := ready.fresh.injective _ _ (le_of_lt below) (le_refl _) same
      omega
    · exact ready.fresh.unused number (le_of_lt below) _ _ old
  · intro number other later otherLater
    unfold pinAndRegisterHits at later otherLater ⊢
    rw [parent] at later otherLater ⊢
    have below : server.parent.created < number := later
    have otherBelow : server.parent.created < other := otherLater
    exact ready.fresh.injective number other (le_of_lt below) (le_of_lt otherBelow)

theorem pollLookupKeys_serves (allowed : permit.Serves) (ready : Ready permit server)
    (env : Environment) (lookup : ActiveLookup)
    (permitted : permit.looks lookup.ctx.kvRequestId lookup.roundSeq) (keys : List OffloadKey) :
    Serves permit server (server.pollLookupKeys env lookup keys).2 ∧
      (server.pollLookupKeys env lookup keys).1.ctx = lookup.ctx ∧
      (server.pollLookupKeys env lookup keys).1.roundSeq = lookup.roundSeq := by
  obtain ⟨ctx, seq, jobId, created⟩ := askParent_frame keys lookup server.parent
  have asked : Serves permit server
      { server with parent := (askParent keys lookup server.parent).2.2 } :=
    ⟨setParent_moves, ready.fresh.of_same jobId created fun _ _ _ => id⟩
  unfold pollLookupKeys
  dsimp only
  split
  · exact ⟨asked, ctx, seq⟩
  · refine ⟨asked.trans (pinAndRegisterHits_serves allowed (asked.ready ready) ?_), ctx, seq⟩
    rw [ctx, seq]
    exact permitted

section

variable (ready : Ready permit server)
include ready

/-- Lookups of one request change. -/
theorem setLookups_serves {request : ServerRequestState}
    (outbound : request.outbound = (server.request kvId).outbound)
    (inflightTids : request.inflightTids = (server.request kvId).inflightTids)
    (pending : ∀ raw ∈ request.pendingLookups, permit.looks kvId raw.roundSeq)
    (active :
      ∀ lookupId lookup, request.lookups.get? lookupId = some lookup →
        lookup.ctx.kvRequestId = kvId ∧ permit.looks kvId lookup.roundSeq) :
    Serves permit server (server.setRequest kvId request) := by
  refine ⟨.single (.bookkeep (sameCore_of_requests
    (setRequest_sameHeld outbound inflightTids) rfl rfl rfl rfl rfl rfl rfl rfl rfl)
    ?_ ?_), ready.fresh.of_same rfl rfl fun _ _ _ => id⟩
  · intro other seq' isOpen
    unfold openLookups at isOpen
    rw [request_setRequest] at isOpen
    split at isOpen
    · next same =>
      rw [same]
      refine Or.inr ?_
      rcases mem_append.mp isOpen with inPending | inActive
      · obtain ⟨raw, mem, rfl⟩ := mem_map.mp inPending
        exact pending raw mem
      · obtain ⟨lookup, mem, rfl⟩ := mem_map.mp inActive
        obtain ⟨⟨lookupId, listed⟩, entry, rfl⟩ := mem_map.mp mem
        exact (active lookupId listed (Dict.get?_eq_some_iff.mpr entry)).2
    · exact Or.inl isOpen
  · intro filed other lookupId lookup found
    rw [request_setRequest] at found
    split at found
    · next same =>
      rw [same]
      exact (active lookupId lookup found).1
    · exact filed other lookupId lookup found

/-- What the lookups of a ready server are permitted. -/
theorem Ready.active
    (found : (server.request kvId).lookups.get? lookupId = some lookup) :
    lookup.ctx.kvRequestId = kvId ∧ permit.looks kvId lookup.roundSeq := by
  refine ⟨ready.filed kvId lookupId lookup found, ?_⟩
  refine ready.looking kvId lookup.roundSeq (mem_append_right _ ?_)
  exact mem_map.mpr ⟨lookup,
    mem_map.mpr ⟨(lookupId, lookup), Dict.get?_eq_some_iff.mp found, rfl⟩, rfl⟩

theorem Ready.pending
    (mem : raw ∈ (server.request kvId).pendingLookups) : permit.looks kvId raw.roundSeq :=
  ready.looking kvId raw.roundSeq (mem_append_left _ (mem_map.mpr ⟨raw, mem, rfl⟩))

theorem parkLookup_serves (filed : lookup.ctx.kvRequestId = kvId)
    (permitted : permit.looks kvId lookup.roundSeq) :
    Serves permit server (server.parkLookup kvId lookup) := by
  apply setLookups_serves ready
  · rfl
  · rfl
  · exact fun raw mem => ready.pending mem
  · intro lookupId other found
    rw [Dict.get?_set] at found
    split at found
    · cases found
      exact ⟨filed, permitted⟩
    · exact ready.active found

/-- Answers, lists of lookups and their events leave the rest alone. -/
theorem notes_serves {after : Server}
    (requests : after.requests = server.requests) (rounds : after.rounds = server.rounds)
    (nextRound : after.nextRound = server.nextRound) (inflight : after.inflight = server.inflight)
    (storeJobs : after.storeJobs = server.storeJobs)
    (pendingStoreResults : after.pendingStoreResults = server.pendingStoreResults)
    (pendingAborts : after.pendingAborts = server.pendingAborts)
    (transport : after.transport = server.transport) (parent : after.parent = server.parent)
    (sent : after.sent = server.sent ++ answers)
    (areAnswers : ∀ message ∈ answers, ∃ kvId keys hits, message = .lookupResp kvId keys hits)
    (events : after.events = new ++ server.events)
    (areLookups : ∀ event ∈ new, ∃ ctx, event = .newRequest ctx ∨ event = .requestFinished ctx) :
    Serves permit server after := by
  have request (kvId : KvRequestId) : after.request kvId = server.request kvId := by
    unfold Server.request
    rw [requests]
  constructor
  · refine moves_of_same ⟨?_, rounds, nextRound, inflight, storeJobs, pendingStoreResults,
      pendingAborts, by rw [transport], by rw [transport]; exact fun _ => id,
      ⟨answers, sent, areAnswers⟩, ⟨new, events, areLookups⟩⟩ ?_
    all_goals
      intro kvId
      rw [request]
      exact ⟨rfl, rfl⟩
  · refine ready.fresh.of_same (by rw [parent]) (by rw [parent]) ?_
    intro kvId jobId blocks mem
    rw [events] at mem
    rcases mem_append.mp mem with isNew | old
    · obtain ⟨ctx, isLookup | isLookup⟩ := areLookups _ isNew <;> cases isLookup
    · exact old

theorem finalizeLookup_serves : Serves permit server (server.finalizeLookup lookup) := by
  have done : ∀ event ∈ [Event.requestFinished lookup.ctx],
      ∃ ctx, event = .newRequest ctx ∨ event = .requestFinished ctx := by
    intro event mem
    exact ⟨lookup.ctx, Or.inr (mem_singleton.mp mem)⟩
  unfold finalizeLookup
  split
  · exact notes_serves ready rfl rfl rfl rfl rfl rfl rfl rfl rfl (append_nil _).symm
      (forall_mem_nil _) (show _ = [Event.requestFinished lookup.ctx] ++ _ from rfl) done
  · exact notes_serves ready rfl rfl rfl rfl rfl rfl rfl rfl rfl rfl
      (fun message mem => ⟨_, _, _, mem_singleton.mp mem⟩)
      (show _ = [Event.requestFinished lookup.ctx] ++ _ from rfl) done

theorem maybePrune_serves : Serves permit server (server.maybePrune kvId) := by
  refine ⟨maybePrune_moves, ?_⟩
  unfold maybePrune
  split
  · exact ready.fresh.of_same rfl rfl fun _ _ _ => id
  · exact ready.fresh

/-- A request without lookups is no longer to be served. -/
theorem dropPending_serves :
    Serves permit server
      ({ server with
        servePending := server.servePending.erase kvId }.maybePrune kvId) := by
  have dropped : Serves permit server
      { server with servePending := server.servePending.erase kvId } :=
    notes_serves ready rfl rfl rfl rfl rfl rfl rfl rfl rfl (append_nil _).symm
      nofun (nil_append _).symm
      nofun
  exact dropped.trans (maybePrune_serves (dropped.ready ready))

end

section Serving

variable (allowed : permit.Serves)
include allowed

section

variable (ready : Ready permit server)
include ready

theorem inbound_serves
    (env : Environment) {raw : PendingLookup} (permitted : permit.looks kvId raw.roundSeq) :
    Serves permit server (server.processInboundLookup env kvId raw) := by
  have opened : Serves permit server
        ({ server with lookupIdCounter := server.lookupIdCounter + 1 }.note
          (.newRequest ⟨kvId, server.lookupIdCounter + 1⟩)) :=
    notes_serves ready rfl rfl rfl rfl rfl rfl rfl rfl rfl (append_nil _).symm
      nofun (show _ = [Event.newRequest _] ++ _ from rfl)
      (fun event mem => ⟨_, Or.inl (mem_singleton.mp mem)⟩)
  unfold processInboundLookup
  dsimp only
  obtain ⟨polled, ctx, seq⟩ :=
    pollLookupKeys_serves allowed (opened.ready ready) env
      { ctx := ⟨kvId, server.lookupIdCounter + 1⟩
        roundSeq := raw.roundSeq
        keys := raw.keys
        resolved := .empty
        pending := []
        deadline := raw.enqueuedAt + lookupPendingTimeout } permitted raw.keys.eraseDups
  have polledReady := polled.ready (opened.ready ready)
  split
  · exact opened.trans (polled.trans (finalizeLookup_serves polledReady))
  refine opened.trans (polled.trans (parkLookup_serves polledReady ?_ ?_))
  · rw [ctx]
  · rw [seq]
    exact permitted

theorem repollLookup_serves (env : Environment) (lookupId : Nat) :
    Serves permit server (server.repollLookup env kvId lookupId) := by
  unfold repollLookup
  split
  · exact ⟨Moves.refl _, ready.fresh⟩
  rename_i lookup found
  obtain ⟨filed, permitted⟩ := ready.active found
  obtain ⟨polled, ctx, seq⟩ :=
    pollLookupKeys_serves allowed ready env lookup (filed ▸ permitted) lookup.pending
  have polledReady := polled.ready ready
  refine polled.trans (parkLookup_serves polledReady ?_ ?_)
  · split <;> exact (congrArg LookupContext.kvRequestId ctx).trans filed
  · split <;> exact seq ▸ permitted

omit allowed in
theorem closeLookup_serves {lookupId : Nat} :
    Serves permit server (server.closeLookup kvId lookupId) := by
  unfold closeLookup
  split
  · exact ⟨Moves.refl _, ready.fresh⟩
  rename_i lookup found
  split
  · have erased : Serves permit server (server.setRequest kvId
        { server.request kvId with
          lookups := (server.request kvId).lookups.erase lookupId }) := by
      apply setLookups_serves ready
      · rfl
      · rfl
      · exact fun raw mem => ready.pending mem
      · intro otherId other found'
        exact ready.active (Dict.get?_erase_eq_some.mp found').2
    exact erased.trans (finalizeLookup_serves (erased.ready ready))
  · exact ⟨Moves.refl _, ready.fresh⟩

theorem resolvePending_serves
    (env : Environment) (kvId : KvRequestId) :
    Serves permit server (server.resolvePendingLookups env kvId) := by
  have polled :=
    foldl_serves (repollLookup env kvId) (server.request kvId).lookups.keys
      (fun _ lookupId _ held => repollLookup_serves allowed held env lookupId) ready
  exact polled.trans (foldl_serves _ _ (fun _ lookupId _ held => closeLookup_serves held)
      (polled.ready ready))

theorem serveRequest_serves
    (env : Environment) (kvId : KvRequestId) :
    Serves permit server (server.serveRequest env kvId) := by
  unfold serveRequest
  split
  · exact notes_serves ready rfl rfl rfl rfl rfl rfl rfl rfl rfl (append_nil _).symm
      nofun (nil_append _).symm
      nofun
  rename_i request found
  have isRequest : server.request kvId = request := by
    unfold Server.request Dict.getD
    rw [found]
    rfl
  have taken : Serves permit server
      (server.setRequest kvId { request with pendingLookups := [] }) := by
    apply setLookups_serves ready
    · rw [isRequest]
    · rw [isRequest]
    · exact nofun
    · intro lookupId lookup isActive
      exact ready.active (isRequest ▸ isActive)
  have processed :=
    foldl_serves (processInboundLookup env kvId) request.pendingLookups (fun _ raw mem held =>
        inbound_serves allowed held env (ready.pending (isRequest.symm ▸ mem)))
      (taken.ready ready)
  have resolved :=
    (taken.trans processed).trans
      (resolvePending_serves allowed (processed.ready (taken.ready ready)) env kvId)
  have resolvedReady := resolved.ready ready
  dsimp only
  split
  · exact resolved.trans (dropPending_serves resolvedReady)
  · exact resolved

end

/-- Serving the lookups of the peer. -/
theorem serveExternal_serves {parent : Parent} (ready : Ready permit { server with parent })
    {env : Environment} :
    Moves permit ⟨server, [], []⟩ ⟨server.serveExternalRequests env parent, [], []⟩ := by
  have served :=
    foldl_serves (serveRequest env) server.servePending
      (fun _ kvId _ held => serveRequest_serves allowed held env kvId) ready
  refine setParent_moves.trans (served.moves.trans ?_)
  unfold serveExternalRequests
  generalize List.foldl (serveRequest env) { server with parent } _ = after at served ⊢
  have noted : Serves permit after
        { after with
          finishedLookupCtxs := []
          events :=
            (after.finishedLookupCtxs.map Event.requestFinished).reverse ++ after.events } := by
    refine notes_serves (served.ready ready) rfl rfl rfl rfl rfl rfl rfl rfl rfl
      (append_nil _).symm nofun rfl ?_
    intro event mem
    obtain ⟨ctx, _, rfl⟩ := mem_map.mp (mem_reverse.mp mem)
    exact ⟨ctx, Or.inr rfl⟩
  exact noted.moves

end Serving

theorem onLookup_moves {env : Environment} {keys : List OffloadKey}
    (permitted : permit.looks kvId seq) :
    Moves permit ⟨server, [], []⟩
      ⟨server.onLookup env kvId keys seq, [], []⟩ := by
  refine .single (.bookkeep (sameCore_of_requests
    (setRequest_sameHeld rfl rfl) rfl rfl rfl rfl rfl rfl rfl rfl rfl)
    ?_ ?_)
  · intro other seq' isOpen
    unfold openLookups
    change seq' ∈ List.map _ (Server.request (server.setRequest _ _) other).pendingLookups
      ++ List.map _ (Server.request (server.setRequest _ _) other).lookups.values at isOpen
    rw [request_setRequest] at isOpen
    split at isOpen
    · next same =>
      rw [same]
      simp only [map_append, mem_append, map_cons, map_nil, mem_singleton] at isOpen ⊢
      rcases isOpen with (inPending | isNew) | inActive
      · exact Or.inl (Or.inl inPending)
      · rw [isNew]
        exact Or.inr permitted
      · exact Or.inl (Or.inr inActive)
    · exact Or.inl isOpen
  · intro filed other lookupId lookup found
    change (Server.request (server.setRequest _ _) other).lookups.get? lookupId = _ at found
    rw [request_setRequest] at found
    split at found
    · next same =>
      rw [same]
      exact filed kvId lookupId lookup found
    · exact filed other lookupId lookup found

end Server

end VllmCore.P2P
