import VllmCore.Offload.TieringRuns

namespace VllmCore.Offload

open Lib TieringOffloadingManager List

/-!
# Request states count the stores

The tiering manager counts the stores of each request that are prepared and not
completed, and forgets a finished request once it has none.
-/

/-- The request states count the stores held, and finished requests wait for some. -/
structure Counts {Key : Type} (reqState : Dict Nat RequestState) (stores : List (Nat × List Key)) :
    Prop where
  pending :
    ∀ id state, reqState.get? id = some state →
      state.pendingPrimaryStores = (stores.countP fun store => store.1 = id : Nat)
  registered : ∀ store ∈ stores, ∃ state, reqState.get? store.1 = some state
  finished :
    ∀ id state, reqState.get? id = some state → state.isFinished = true →
      state.pendingPrimaryStores ≠ 0

namespace Counts

variable {Key : Type} {reqState : Dict Nat RequestState} {stores rest : List (Nat × List Key)}
  {reqId : Nat} {state : RequestState}

section

variable (counts : Counts reqState stores)
include counts

theorem no_store (unknown : reqState.get? reqId = none) :
    (stores.countP fun store => store.1 = reqId) = 0 := by
  rw [countP_eq_zero]
  intro store mem same
  obtain ⟨state, known⟩ := counts.registered store mem
  rw [decide_eq_true_eq] at same
  rw [same, unknown] at known
  cases known

variable {store : Nat × List Key}

theorem pending_pos (known : reqState.get? store.1 = some state) (mem : store ∈ stores) :
    0 < state.pendingPrimaryStores := by
  have count := counts.pending store.1 state known
  have pos : 0 < stores.countP fun other => other.1 = store.1 :=
    countP_pos_iff.mpr ⟨store, mem, by simp⟩
  omega

/-- A finished request that is still known has a store. -/
theorem store_of_finished (known : reqState.get? reqId = some state)
    (done : state.isFinished = true) : ∃ store ∈ stores, store.1 = reqId := by
  have count := counts.pending reqId state known
  have waits := counts.finished reqId state known done
  have pos : 0 < stores.countP fun store => store.1 = reqId := by omega
  obtain ⟨store, mem, same⟩ := countP_pos_iff.mp pos
  exact ⟨store, mem, by simpa using same⟩

section

variable (others : ∀ id, id ≠ reqId →
  (rest.countP fun store => store.1 = id) = stores.countP fun store => store.1 = id)
include others

/-- The state of one request is replaced by one that counts some stores. -/
theorem set (known : ∀ store ∈ rest, store.1 = reqId ∨ store ∈ stores)
    (own : state.pendingPrimaryStores = (rest.countP fun store => store.1 = reqId : Nat))
    (waits : state.isFinished = true → state.pendingPrimaryStores ≠ 0) :
    Counts (reqState.set reqId state) rest where
  pending := by
    intro id other found
    rw [Dict.get?_set] at found
    split at found
    · rename_i same
      cases found
      rw [same]
      exact own
    · rename_i differs
      rw [others id differs]
      exact counts.pending id other found
  registered := by
    intro store mem
    rw [Dict.get?_set]
    split
    · exact ⟨_, rfl⟩
    · rename_i differs
      exact counts.registered store ((known store mem).resolve_left differs)
  finished := by
    intro id other found
    rw [Dict.get?_set] at found
    split at found
    · cases found
      exact waits
    · exact counts.finished id other found

/-- A request without stores is forgotten. -/
theorem erase (known : ∀ store ∈ rest, store ∈ stores)
    (none : (rest.countP fun store => store.1 = reqId) = 0) :
    Counts ((reqState.set reqId state).erase reqId) rest := by
  have unchanged : ∀ id, id ≠ reqId →
      ((reqState.set reqId state).erase reqId).get? id = reqState.get? id := by
    intro id differs
    rw [Dict.get?_erase, if_neg differs, Dict.get?_set, if_neg differs]
  have remaining : ∀ id other, ((reqState.set reqId state).erase reqId).get? id = some other →
      id ≠ reqId ∧ reqState.get? id = some other := by
    intro id other found
    have differs : id ≠ reqId := by
      intro same
      rw [Dict.get?_erase, if_pos same] at found
      cases found
    exact ⟨differs, (unchanged id differs).symm.trans found⟩
  refine ⟨?_, ?_, ?_⟩
  · intro id other found
    obtain ⟨differs, before⟩ := remaining id other found
    rw [others id differs]
    exact counts.pending id other before
  · intro store mem
    have differs : store.1 ≠ reqId := by
      intro same
      exact countP_eq_zero.mp none store mem (by simpa using same)
    rw [unchanged store.1 differs]
    exact counts.registered store (known store mem)
  · intro id other found
    exact counts.finished id other (remaining id other found).2

end

theorem onNewRequest (fresh : reqState.get? reqId = none)
    (context : ReqContext) (requestLevelTiers : List Nat) :
    Counts
      (reqState.set reqId { reqContext := context, requestLevelTiers := requestLevelTiers })
      stores := by
  refine counts.set (fun _ _ => rfl) (fun _ mem => .inr mem) ?_ ?_
  · rw [counts.no_store fresh]
    rfl
  · intro done
    cases done

theorem onRequestFinished (known : reqState.get? reqId = some state) :
    Counts
      (if state.pendingPrimaryStores = 0 then
        (reqState.set reqId { state with isFinished := true }).erase reqId
      else
        reqState.set reqId { state with isFinished := true })
      stores := by
  have count := counts.pending reqId state known
  split
  · refine counts.erase (fun _ _ => rfl) (fun _ mem => mem) ?_
    omega
  · rename_i waits
    exact counts.set (fun _ _ => rfl) (fun _ mem => .inr mem) count fun _ => waits

theorem prepareStore (known : reqState.get? reqId = some state) (keys : List Key) :
    Counts
      (reqState.set reqId { state with pendingPrimaryStores := state.pendingPrimaryStores + 1 })
      ((reqId, keys) :: stores) := by
  have count := counts.pending reqId state known
  refine counts.set ?_ ?_ ?_ ?_
  · intro id differs
    simp [Ne.symm differs]
  · intro store mem
    rcases mem_cons.mp mem with rfl | old
    · exact .inl rfl
    · exact .inr old
  · rw [count]
    simp
  · intro _ none
    have zero : state.pendingPrimaryStores + 1 = 0 := none
    omega

theorem completeStore (known : reqState.get? store.1 = some state)
    (reordered : stores.Perm (store :: rest)) : Counts (released reqState store.1 state) rest := by
  have split (id : Nat) : (stores.countP fun other => other.1 = id) =
      rest.countP (fun other => other.1 = id) + if store.1 = id then 1 else 0 := by
    rw [reordered.countP_eq, countP_cons]
    simp only [decide_eq_true_eq]
  have others : ∀ id, id ≠ store.1 →
      (rest.countP fun other => other.1 = id) = stores.countP fun other => other.1 = id := by
    intro id differs
    rw [split id, if_neg (Ne.symm differs), add_zero]
  have within : ∀ other ∈ rest, other ∈ stores :=
    fun other mem => reordered.mem_iff.mpr (mem_cons_of_mem _ mem)
  have count := counts.pending _ state known
  have own := split store.1
  rw [if_pos rfl] at own
  unfold released
  split
  · refine counts.erase others within ?_
    omega
  rename_i more
  refine counts.set others (fun other mem => .inr (within other mem)) ?_ ?_
  · show state.pendingPrimaryStores - 1 = _
    omega
  · intro done none
    exact more ⟨done, none⟩

end

theorem reset (reqState : Dict Nat RequestState) :
    Counts (reqState.entries.foldl resetState reqState) ([] : List (Nat × List Key)) := by
  have remaining : ∀ id state, (reqState.entries.foldl resetState reqState).get? id = some state →
      state.pendingPrimaryStores = 0 ∧ state.isFinished = false := by
    intro id state found
    rw [get?_reset_reqState] at found
    obtain ⟨before, _, reset⟩ := Option.bind_eq_some_iff.mp found
    unfold resetOne at reset
    split at reset
    · cases reset
    · rename_i active
      cases reset
      exact ⟨rfl, by simpa using active⟩
  refine ⟨?_, ?_, ?_⟩
  · intro id state found
    exact (remaining id state found).1
  · intro store mem
    cases mem
  · intro id state found done
    rw [(remaining id state found).2] at done
    cases done

theorem empty : Counts .empty ([] : List (Nat × List Key)) := by
  refine ⟨?_, ?_, ?_⟩
  · intro id state found
    cases found
  · intro store mem
    cases mem
  · intro id state found
    cases found

end Counts

end VllmCore.Offload
