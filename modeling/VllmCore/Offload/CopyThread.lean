import Mathlib.Data.List.Infix
import Mathlib.Data.List.Pairwise

namespace VllmCore.Offload.SimpleCPU

open Function List

/-!
# Transfers between a worker and its copy thread

`SimpleCPUOffloadWorker` hands transfers to the thread of `DmaCopyBackend` through a queue.
The thread records an event for each and appends it to the list of its stream; the worker
takes complete events off the list and keeps a high-water mark.  Operations on the queue and
the lists interleave in any order.
-/

/-- Where the main thread is; a flush counts the events of a stream it has gone through. -/
inductive Main where
  | idle
  | flushing (isStore : Bool) (position : Nat)
  | clearing (isStore : Bool) (position : Nat)

/-- One stream: the pending events, the list and the mark of the worker, and the events so far,
of which the device has completed the first `numComplete` that were recorded. -/
structure Lane where
  pending : List Nat := []
  events : List Nat := []
  hwm : Int := -1
  submitted : List Nat := []
  recorded : List Nat := []
  reported : List Nat := []
  numComplete : Nat := 0

structure Worker where
  lane : Bool → Lane := fun _ => {}
  queue : List (Bool × Nat) := []
  /-- The item the copy thread has taken. -/
  hand : Option (Bool × Nat) := none
  main : Main := .idle

def Lane.complete (lane : Lane) : List Nat :=
  lane.recorded.take lane.numComplete

def Worker.change (worker : Worker) (isStore : Bool) (next : Lane → Lane) : Worker :=
  { worker with lane := update worker.lane isStore (next (worker.lane isStore)) }

/-- One operation on a stream.  A poll comes after the launch of what was bound, so `submit`
binds and launches; its mark is read by nothing else, so each pop may set it. -/
inductive Step (worker : Worker) (isStore : Bool) : Worker → Prop
  | submit {event : Nat} (idle : worker.main = .idle)
      (later : ∀ other ∈ (worker.lane isStore).submitted, other < event) :
      Step worker isStore
        { worker.change isStore fun lane =>
            { lane with
              pending := event :: lane.pending, submitted := lane.submitted ++ [event] } with
          queue := worker.queue ++ [(isStore, event)] }
  | popEvent {event : Nat} {rest : List Nat} (idle : worker.main = .idle)
      (first : (worker.lane isStore).events = event :: rest)
      (done : event ∈ (worker.lane isStore).complete) :
      Step worker isStore
        (worker.change isStore fun lane => { lane with events := rest, hwm := event })
  | report (idle : worker.main = .idle) :
      Step worker isStore (worker.change isStore fun lane =>
        { lane with
          pending := lane.pending.filter fun event : Nat => lane.hwm < event
          reported := lane.reported ++ lane.pending.filter fun event : Nat => event ≤ lane.hwm })
  | flush (idle : worker.main = .idle) :
      Step worker isStore { worker with main := .flushing false 0 }
  | synchronize {position event : Nat} (flushing : worker.main = .flushing isStore position)
      (next : (worker.lane isStore).events[position]? = some event)
      (done : event ∈ (worker.lane isStore).complete) :
      Step worker isStore
        { worker.change isStore fun lane => { lane with hwm := event } with
          main := .flushing isStore (position + 1) }
  | endLoop {position : Nat} (flushing : worker.main = .flushing isStore position)
      (last : (worker.lane isStore).events.length ≤ position) :
      Step worker isStore { worker with main := .clearing isStore position }
  | clear {position : Nat} (clearing : worker.main = .clearing isStore position) :
      Step worker isStore
        { worker.change isStore fun lane => { lane with events := [] } with
          main := if isStore then .idle else .flushing true 0 }
  | takeItem {event : Nat} {rest : List (Bool × Nat)} (free : worker.hand = none)
      (first : worker.queue = (isStore, event) :: rest) :
      Step worker isStore { worker with hand := some (isStore, event), queue := rest }
  | recordEvent {event : Nat} (held : worker.hand = some (isStore, event)) :
      Step worker isStore
        { worker.change isStore fun lane =>
            { lane with
              events := lane.events ++ [event], recorded := lane.recorded ++ [event] } with
          hand := none }
  | completeCopy :
      Step worker isStore
        (worker.change isStore fun lane => { lane with numComplete := lane.numComplete + 1 })

/-- Submitted events that the copy thread has not recorded, in their order. -/
def Worker.waiting (worker : Worker) (isStore : Bool) : List Nat :=
  ((worker.hand.toList ++ worker.queue).filter (·.1 = isStore)).map Prod.snd

/-- A submitted event is reported, with the copy thread, in the list or covered by the mark. -/
def Worker.Remembers (worker : Worker) (isStore : Bool) : Prop :=
  ∀ event ∈ (worker.lane isStore).submitted, event ∈ (worker.lane isStore).reported ∨
    event ∈ worker.waiting isStore ∨ event ∈ (worker.lane isStore).events ∨
      (event : Int) ≤ (worker.lane isStore).hwm

/-- A flush clears a list that has grown behind its loop. -/
def Drops (before after : Worker) (isStore : Bool) : Prop :=
  ∃ position, before.main = .clearing isStore position ∧
    position < (before.lane isStore).events.length ∧ (after.lane isStore).events = []

/-- The workers reached by steps that meet a condition. -/
inductive Reached (Allowed : Worker → Worker → Bool → Prop) : Worker → Prop
  | start : Reached Allowed {}
  | step {worker after : Worker} {isStore : Bool} (reached : Reached Allowed worker)
    (steps : Step worker isStore after) (allowed : Allowed worker after isStore) :
    Reached Allowed after

/-- How far a flush has gone through the list of a stream. -/
def Main.position : Main → Bool → Nat
  | .idle, _ => 0
  | .flushing stream position, isStore | .clearing stream position, isStore =>
    if stream = isStore then position else 0

/-- Events go through the queue in the order of submission, and a mark is a complete event. -/
structure Lane.Ordered (lane : Lane) (waiting : List Nat) : Prop where
  sorted : lane.submitted.Pairwise (· < ·)
  order : lane.submitted = lane.recorded ++ waiting
  marked : lane.hwm = -1 ∨ ∃ event ∈ lane.complete, lane.hwm = (event : Nat)
  known : lane.pending ⊆ lane.submitted
  reported : lane.reported ⊆ lane.complete

/-- The mark separates what has left the list, or a flush has gone through, from the rest. -/
structure Lane.Covered (lane : Lane) (position : Nat) : Prop where
  gone : ∃ gone, lane.recorded = gone ++ lane.events ∧ ∀ event ∈ gone, (event : Int) ≤ lane.hwm
  flushed : ∀ event ∈ lane.events.take position, (event : Int) ≤ lane.hwm
  reported : ∀ event ∈ lane.reported, (event : Int) ≤ lane.hwm
  ahead : ∀ event ∈ lane.events.drop position, lane.hwm < (event : Nat)
  within : position ≤ lane.events.length

variable {worker after : Worker} {lane : Lane} {waiting : List Nat} {isStore : Bool}

/-- What a mark covers is complete, since a stream works in order. -/
theorem Lane.Ordered.complete_of_le (ordered : lane.Ordered waiting)
    (mem : event ∈ lane.submitted) (covered : (event : Int) ≤ lane.hwm) :
    event ∈ lane.complete := by
  obtain none | ⟨last, done, isMark⟩ := ordered.marked
  · omega
  have sorted := ordered.sorted
  rw [ordered.order, ← take_append_drop lane.numComplete lane.recorded, append_assoc] at sorted mem
  rcases mem_append.mp mem with first | later
  · exact first
  · have := (pairwise_append.mp sorted).2.2 last done event later
    omega

/-- More copies recorded or complete. -/
theorem Lane.Ordered.grow (ordered : lane.Ordered waiting) {events recorded rest : List Nat}
    {numComplete : Nat} (same : lane.recorded ++ waiting = recorded ++ rest)
    (grows : lane.complete ⊆ recorded.take numComplete) :
    Lane.Ordered { lane with events, recorded, numComplete } rest :=
  ⟨ordered.sorted, ordered.order.trans same,
    ordered.marked.imp_right fun ⟨last, done, isMark⟩ => ⟨last, grows done, isMark⟩,
    ordered.known, List.Subset.trans ordered.reported grows⟩

theorem ordered_step (ordered : ∀ stream, (worker.lane stream).Ordered (worker.waiting stream))
    (steps : Step worker isStore after) :
    ∀ stream, (after.lane stream).Ordered (after.waiting stream) := by
  have own := ordered isStore
  have changed {lane : Lane} {waiting : Bool → List Nat} (holds : lane.Ordered (waiting isStore))
      (same : ∀ stream ≠ isStore, waiting stream = worker.waiting stream) :
      ∀ stream, (update worker.lane isStore lane stream).Ordered (waiting stream) :=
    (forall_update_iff worker.lane fun stream lane => lane.Ordered (waiting stream)).mpr
      ⟨holds, fun stream apart => same stream apart ▸ ordered stream⟩
  cases steps with
  | submit idle later =>
    refine changed ⟨?_, ?_, own.marked, ?_, own.reported⟩ fun stream apart => ?_
    · exact pairwise_append.mpr ⟨own.sorted, pairwise_singleton _ _, by simpa using later⟩
    · simp [own.order, Worker.waiting, Worker.change]
    · exact cons_subset.mpr ⟨by simp, List.Subset.trans own.known (subset_append_left _ _)⟩
    · simp [Worker.waiting, Worker.change, apart.symm]
  | flush | endLoop => exact ordered
  | popEvent _ _ done | synchronize _ _ done =>
    exact changed ⟨own.sorted, own.order, .inr ⟨_, done, rfl⟩, own.known, own.reported⟩
      fun _ _ => rfl
  | report =>
    refine changed ⟨own.sorted, own.order, own.marked, ?_, append_subset.mpr ⟨own.reported, ?_⟩⟩
      fun _ _ => rfl
    · exact fun event mem => own.known (mem_of_mem_filter mem)
    intro event mem
    obtain ⟨pending, below⟩ := mem_filter.mp mem
    exact own.complete_of_le (own.known pending) (of_decide_eq_true below)
  | clear =>
    exact changed ⟨own.sorted, own.order, own.marked, own.known, own.reported⟩ fun _ _ => rfl
  | takeItem free first =>
    intro stream
    simpa [Worker.waiting, free, first] using ordered stream
  | @recordEvent event held =>
    refine changed (own.grow ?_ ((prefix_append _ _).take _).subset) fun stream apart => ?_
    · simp [Worker.waiting, Worker.change, held]
    · simp [Worker.waiting, Worker.change, held, apart.symm]
  | completeCopy =>
    exact changed (own.grow rfl (take_subset_take_left _ (Nat.le_succ _))) fun _ _ => rfl

theorem Lane.Covered.lt_of_drop (covered : lane.Covered pos)
    (ordered : lane.Ordered waiting)
    (next : lane.events.drop pos = event :: rest) :
    lane.hwm < event ∧ ∀ later ∈ rest, event < later := by
  obtain ⟨gone, isRecorded, _⟩ := covered.gone
  have sorted := ordered.sorted
  rw [ordered.order, isRecorded, append_assoc] at sorted
  have := ((pairwise_append.mp (pairwise_append.mp sorted).2.1).1).drop (i := pos)
  rw [next] at this
  exact ⟨covered.ahead event (next ▸ mem_cons_self), (pairwise_cons.mp this).1⟩

theorem covered_step (ordered : ∀ stream, (worker.lane stream).Ordered (worker.waiting stream))
    (covered : ∀ stream, (worker.lane stream).Covered (worker.main.position stream))
    (steps : Step worker isStore after) (keeps : ¬Drops worker after isStore) :
    ∀ stream, (after.lane stream).Covered (after.main.position stream) := by
  have own := covered isStore
  have changed {lane : Lane} (main : Main) (holds : lane.Covered (main.position isStore))
      (same : ∀ stream ≠ isStore, main.position stream = worker.main.position stream) :
      ∀ stream, (update worker.lane isStore lane stream).Covered (main.position stream) :=
    (forall_update_iff worker.lane fun stream lane => lane.Covered _).mpr
      ⟨holds, fun stream apart => same stream apart ▸ covered stream⟩
  obtain ⟨gone, isRecorded, below⟩ := own.gone
  have reported := own.reported
  have flushed := own.flushed
  have ahead := own.ahead
  cases steps with
  | submit | completeCopy =>
    exact changed _ ⟨own.gone, flushed, reported, ahead, own.within⟩ fun _ _ => rfl
  | flush idle => simpa [idle, Main.position] using covered
  | takeItem => exact covered
  | endLoop flushing last => simpa [flushing, Main.position] using covered
  | @popEvent event rest idle first done =>
    rw [idle] at own changed
    obtain ⟨above, later⟩ := own.lt_of_drop (ordered isStore) first
    refine idle ▸ changed .idle ⟨⟨gone ++ [event], by simp [isRecorded, first], ?_⟩, nofun, ?_, ?_,
      Nat.zero_le _⟩ fun _ _ => rfl
    all_goals grind
  | report idle => exact changed _ ⟨own.gone, flushed, by grind, ahead, own.within⟩ fun _ _ => rfl
  | @synchronize position event flushing next done =>
    have isPosition : worker.main.position isStore = position := by simp [flushing, Main.position]
    rw [isPosition] at own flushed
    obtain ⟨within, isEvent⟩ := List.getElem?_eq_some_iff.mp next
    obtain ⟨above, later⟩ := own.lt_of_drop (ordered isStore)
      ((drop_eq_getElem_cons within).trans (by rw [isEvent]))
    refine changed (.flushing isStore (position + 1)) ?_ fun stream apart => ?_
    · simp only [Main.position, if_true]
      refine ⟨⟨gone, isRecorded, ?_⟩, ?_, ?_, ?_, within⟩
      · grind
      · rw [take_add_one, next]
        grind
      · grind
      · grind
    · simp [flushing, Main.position, apart.symm]
  | @clear position clearing =>
    have isPosition : worker.main.position isStore = position := by simp [clearing, Main.position]
    have all : (worker.lane isStore).events.length ≤ position :=
      not_lt.mp fun grown => keeps ⟨position, clearing, grown, by simp [Worker.change]⟩
    rw [isPosition, take_of_length_le all] at flushed
    have start (stream : Bool) :
        Main.position (if isStore then .idle else .flushing true 0) stream = 0 := by
      cases isStore <;> simp [Main.position]
    refine changed (if isStore then .idle else .flushing true 0) ?_ fun stream apart => ?_
    · rw [start]
      refine ⟨⟨gone ++ (worker.lane isStore).events, by simp [isRecorded], ?_⟩, nofun, reported,
        nofun, Nat.zero_le _⟩
      grind
    · rw [start, clearing]
      simp [Main.position, apart.symm]
  | @recordEvent event held =>
    have above : (worker.lane isStore).hwm < event := by
      obtain none | ⟨last, done, isMark⟩ := (ordered isStore).marked
      · omega
      have sorted := (ordered isStore).order ▸ (ordered isStore).sorted
      have := (pairwise_append.mp sorted).2.2 last (mem_of_mem_take done) event
        (by simp [Worker.waiting, held])
      omega
    refine changed worker.main ⟨⟨gone, by simp [isRecorded], below⟩, ?_, reported, ?_,
      own.within.trans (by simp)⟩ fun _ _ => rfl
    · rwa [take_append_of_le_length own.within]
    · rw [drop_append_of_le_length own.within]
      grind

variable {Allowed : Worker → Worker → Bool → Prop}

theorem Reached.ordered (reached : Reached Allowed worker) (stream : Bool) :
    (worker.lane stream).Ordered (worker.waiting stream) := by
  induction reached generalizing stream with
  | start => exact ⟨.nil, rfl, .inl rfl, nofun, nofun⟩
  | step _ steps _ ih => exact ordered_step ih steps stream

/-- The reported and the pending events of a stream are those submitted. -/
def Lane.Counted (lane : Lane) : Prop :=
  (lane.reported ++ lane.pending).Perm lane.submitted

theorem counted_step (counted : ∀ stream, (worker.lane stream).Counted)
    (steps : Step worker isStore after) : ∀ stream, (after.lane stream).Counted := by
  have own := counted isStore
  have changed {lane : Lane} (holds : lane.Counted) :
      ∀ stream, (update worker.lane isStore lane stream).Counted :=
    (forall_update_iff _ fun _ => Lane.Counted).mpr ⟨holds, fun stream _ => counted stream⟩
  cases steps with
  | submit =>
    exact changed (perm_middle.trans ((own.cons _).trans (perm_append_singleton _ _).symm))
  | report =>
    refine changed (Perm.trans ?_ own)
    rw [append_assoc]
    refine Perm.append_left _ ?_
    simp only [← Int.not_le, decide_not]
    exact filter_append_perm _ _
  | flush | endLoop | takeItem => exact counted
  | _ => exact changed own

theorem Reached.covered (reached : Reached (¬Drops · · ·) worker) (stream : Bool) :
    (worker.lane stream).Covered (worker.main.position stream) := by
  induction reached generalizing stream with
  | start => exact ⟨⟨[], rfl, nofun⟩, nofun, nofun, nofun, Nat.zero_le _⟩
  | step before steps keeps ih => exact covered_step before.ordered ih steps keeps stream

theorem Reached.remembers (reached : Reached (¬Drops · · ·) worker) (stream : Bool) :
    worker.Remembers stream := by
  intro event mem
  obtain ⟨gone, isRecorded, below⟩ := (reached.covered stream).gone
  rw [(reached.ordered stream).order, isRecorded] at mem
  have := below event
  grind

/-- A clear that takes an event the loop has not seen forgets it. -/
theorem Reached.forgets (reached : Reached (¬Drops · · ·) worker)
    (steps : Step worker isStore after) (drops : Drops worker after isStore) :
    ¬after.Remembers isStore := by
  obtain ⟨pos, clearing, grown, emptied⟩ := drops
  have kept : (worker.lane isStore).events ≠ [] := ne_nil_of_length_pos (Nat.zero_lt_of_lt grown)
  cases steps with
  | clear =>
    intro remembers
    have covered := reached.covered isStore
    have ordered := reached.ordered isStore
    simp only [clearing, Main.position, if_true] at covered
    obtain ⟨gone, isRecorded, _⟩ := covered.gone
    have sorted := ordered.order ▸ ordered.sorted
    have ahead := covered.ahead _ (drop_eq_getElem_cons grown ▸ mem_cons_self)
    have recorded : (worker.lane isStore).events[pos] ∈ (worker.lane isStore).recorded := by
      simp [isRecorded]
    have lost := remembers (worker.lane isStore).events[pos]
      (by simp [Worker.change, ordered.order, recorded])
    simp only [Worker.change, update_self, not_mem_nil, false_or] at lost
    rcases lost with told | waits | below
    · exact absurd (covered.reported _ told) (Int.not_le.mpr ahead)
    · exact lt_irrefl _ ((pairwise_append.mp sorted).2.2 _ recorded _ waits)
    · exact absurd below (Int.not_le.mpr ahead)
  | takeItem | completeCopy | recordEvent => simp_all [Worker.change]
  | _ => simp_all

/-- Nothing is reported early; while no step drops an event nothing is forgotten, and the first
step that drops one forgets it. -/
theorem no_transfer_forgotten_iff :
    (Reached (fun _ _ _ => True) worker → ∀ stream, ∀ event ∈ (worker.lane stream).reported,
      event ∈ (worker.lane stream).complete) ∧
    (Reached (¬Drops · · ·) worker → (∀ stream, worker.Remembers stream) ∧
      ∀ stream after, Step worker stream after →
        (after.Remembers stream ↔ ¬Drops worker after stream)) := by
  refine ⟨fun reached stream _ member => (reached.ordered stream).reported member, fun reached =>
    ⟨reached.remembers, fun stream after steps => ⟨?_, ?_⟩⟩⟩
  · exact fun remembers drops => reached.forgets steps drops remembers
  · exact fun keeps => (reached.step steps keeps).remembers stream

/-- The copy thread appends the event between the loop of a flush and its `clear`. -/
theorem load_forgotten_by_flush :
    ∃ worker, Reached (fun _ _ _ => True) worker ∧ ¬worker.Remembers false := by
  have submitted : Reached (fun _ _ _ => True) _ :=
    .step .start (@Step.submit {} false 0 rfl nofun) trivial
  have flushing := submitted.step (@Step.flush _ false rfl) trivial
  have cleared := flushing.step (.endLoop rfl le_rfl) trivial
  have held := cleared.step (.takeItem rfl rfl) trivial
  have recorded := held.step (.recordEvent rfl) trivial
  have dropped := recorded.step (.clear rfl) trivial
  refine ⟨_, dropped, fun remembers => ?_⟩
  have := remembers 0 (by decide)
  revert this
  decide

/-- In every interleaving a submitted transfer is pending or reported, and that once. -/
theorem Reached.reported_once (reached : Reached Allowed worker) (stream : Bool) :
    ((worker.lane stream).reported ++ (worker.lane stream).pending).Perm
        (worker.lane stream).submitted ∧
      (worker.lane stream).submitted.Nodup ∧
      (worker.lane stream).recorded <+: (worker.lane stream).submitted := by
  have ordered := reached.ordered stream
  refine ⟨?_, ordered.sorted.imp Nat.ne_of_lt, _, ordered.order.symm⟩
  induction reached generalizing stream with
  | start => exact .nil
  | step before steps _ ih =>
    exact counted_step (fun stream => ih stream (before.ordered stream)) steps stream

/-- A load is submitted, copied and reported. -/
theorem reported_once_load :
    ∃ worker, Reached (fun _ _ _ => True) worker ∧ (worker.lane false).reported = [0] ∧
      ([0] ++ (worker.lane false).pending).Perm (worker.lane false).submitted := by
  have submitted : Reached (fun _ _ _ => True) _ :=
    .step .start (@Step.submit {} false 0 rfl nofun) trivial
  have held := submitted.step (.takeItem rfl rfl) trivial
  have complete := (held.step (.recordEvent rfl) trivial).step (@Step.completeCopy _ false) trivial
  have popped := complete.step (@Step.popEvent _ false 0 [] rfl rfl (by decide)) trivial
  have reported := popped.step (@Step.report _ false rfl) trivial
  exact ⟨_, reported, rfl, (reported.reported_once false).1⟩

end VllmCore.Offload.SimpleCPU
