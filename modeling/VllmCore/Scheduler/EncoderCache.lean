import Mathlib.Algebra.Order.BigOperators.Group.List
import Mathlib.Algebra.Order.Ring.Nat
import Mathlib.Data.Finset.Basic
import VllmCore.Lib.Dict
import VllmCore.Lib.Outcome

namespace VllmCore.Scheduler

open List Lib

/-!
# Encoder cache

`EncoderCacheManager` of `v1/core/encoder_cache_manager.py` under the calls of the scheduler.
A pass checks inputs before it allocates them; in between they are pending.
-/

/-- Requests that share an input share its hash, and the size with it. -/
class EncoderSizes where
  numEmbeds : String → Nat

open EncoderSizes

structure EncoderCacheManager where
  cacheSize : Nat
  numFreeSlots : Int
  numFreeableSlots : Int
  /-- The requests that reference an entry. -/
  cached : Dict String (Finset String)
  freeable : Dict String Nat
  freed : List String

/-- What a pass finds about an input that is not cached. -/
inductive EncoderVerdict where
  | rollBack
  | noEmbeds
  | compute
  | load

/-- A call of the scheduler. -/
inductive EncoderCacheCall where
  /-- A pass over a request; others may be preempted before it is admitted. -/
  | schedule
    (requestId : String) (budget : Int)
    (offered : List (String × EncoderVerdict))
    (preempted : List (String × String))
    (admitted : Bool)
  /-- References that requests give up. -/
  | free (inputs : List (String × String))
  | getFreedMmHashes
  | reset

namespace EncoderCacheManager

def init (cacheSize : Nat) : EncoderCacheManager :=
  ⟨cacheSize, cacheSize, cacheSize, .empty, .empty, []⟩

def checkAndUpdateCache (manager : EncoderCacheManager) (requestId mmHash : String) :
    Outcome (Bool × EncoderCacheManager) :=
  match manager.cached.get? mmHash with
  | none => .ok (false, manager)
  | some requests =>
    let cached := manager.cached.set mmHash (insert requestId requests)
    if requests = ∅ then
      match manager.freeable.get? mmHash with
      | none => .error (.key mmHash)
      | some numEncoderEmbeds =>
        .ok (true, { manager with
          cached
          freeable := manager.freeable.erase mmHash
          numFreeableSlots := manager.numFreeableSlots - numEncoderEmbeds })
    else
      .ok (true, { manager with cached })

/-- The loop of `can_allocate` that evicts the oldest entries. -/
def evict (wanted : Int) (manager : EncoderCacheManager) : Outcome EncoderCacheManager :=
  if wanted ≤ manager.numFreeSlots then .ok manager
  else
    match _oldest : manager.freeable.entries with
    | [] => .error (.key "dictionary is empty")
    | (mmHash, numFreeEmbeds) :: _ =>
      if manager.cached.contains mmHash then
        evict wanted { manager with
          freeable := manager.freeable.erase mmHash
          cached := manager.cached.erase mmHash
          freed := manager.freed ++ [mmHash]
          numFreeSlots := manager.numFreeSlots + numFreeEmbeds }
      else
        .error (.key mmHash)
termination_by manager.freeable.entries.length
decreasing_by
  simp only [Dict.erase, _oldest]
  rw [filter_cons_of_neg (by simp)]
  exact Nat.lt_succ_of_le (length_filter_le _ _)

variable [EncoderSizes]

section

variable (manager : EncoderCacheManager) (requestId mmHash : String)

def canAllocate (encoderComputeBudget : Int) (numEmbedsToSchedule : Nat) :
    Outcome (Bool × EncoderCacheManager) :=
  let wanted : Int := numEmbeds mmHash + numEmbedsToSchedule
  if encoderComputeBudget < numEmbeds mmHash then .ok (false, manager)
  else if wanted ≤ manager.numFreeSlots then .ok (true, manager)
  else if manager.numFreeableSlots < wanted then .ok (false, manager)
  else do
    let manager ← manager.evict wanted
    .ok (true, manager)

def allocate : Outcome EncoderCacheManager := do
  ensure (numEmbeds mmHash ≤ manager.numFreeSlots)
  ensure (numEmbeds mmHash ≤ manager.numFreeableSlots)
  .ok { manager with
    cached := manager.cached.set mmHash (insert requestId (manager.cached.getD mmHash ∅))
    numFreeSlots := manager.numFreeSlots - numEmbeds mmHash
    numFreeableSlots := manager.numFreeableSlots - numEmbeds mmHash }

def freeEncoderInput : EncoderCacheManager :=
  let requests := manager.cached.getD mmHash ∅
  let cached := manager.cached.set mmHash (requests.erase requestId)
  if requests = ∅ then manager
  else if requests.erase requestId = ∅ then
    { manager with
      cached
      freeable := manager.freeable.set mmHash (numEmbeds mmHash)
      numFreeableSlots := manager.numFreeableSlots + numEmbeds mmHash }
  else
    { manager with cached }

/-- The inputs a pass over a request schedules, and behind them those it loads. -/
def tryScheduleEncoderInputs :
    Int → List String → List String → List (String × EncoderVerdict) → EncoderCacheManager →
      Outcome (List String × EncoderCacheManager)
  | _, scheduled, loaded, [], manager => .ok (scheduled ++ loaded, manager)
  | budget, scheduled, loaded, (mmHash, verdict) :: rest, manager =>
    if mmHash ∈ scheduled ++ loaded then
      tryScheduleEncoderInputs budget scheduled loaded rest manager
    else do
      let (hit, manager) ← manager.checkAndUpdateCache requestId mmHash
      if hit then tryScheduleEncoderInputs budget scheduled loaded rest manager
      else if verdict matches .rollBack then .ok (scheduled ++ loaded, manager)
      else
        let (fits, manager) ← manager.canAllocate mmHash budget
          ((scheduled ++ loaded).map numEmbeds).sum
        match fits, verdict with
        | false, _ => .ok (scheduled ++ loaded, manager)
        | true, .compute =>
          tryScheduleEncoderInputs (budget - numEmbeds mmHash) (scheduled ++ [mmHash]) loaded
            rest manager
        | true, .load => tryScheduleEncoderInputs budget scheduled (loaded ++ [mmHash]) rest manager
        | true, _ => tryScheduleEncoderInputs budget scheduled loaded rest manager

def free (inputs : List (String × String)) : EncoderCacheManager :=
  inputs.foldl (fun manager input => manager.freeEncoderInput input.1 input.2) manager

def perform : EncoderCacheCall → Outcome EncoderCacheManager
  | .schedule requestId budget offered preempted admitted => do
    let (pending, manager) ← tryScheduleEncoderInputs requestId budget [] [] offered manager
    (if admitted then pending else []).foldlM (allocate · requestId) (manager.free preempted)
  | .free inputs => .ok (manager.free inputs)
  | .getFreedMmHashes => .ok { manager with freed := [] }
  | .reset => .ok (init manager.cacheSize)

/-- The manager after a run of the scheduler. -/
def run (cacheSize : Nat) (calls : List EncoderCacheCall) : Outcome EncoderCacheManager :=
  calls.foldlM perform (init cacheSize)

end

/-- The size of the inputs a dictionary lists. -/
def slots {Value : Type} (dict : Dict String Value) : Nat :=
  (dict.keys.map numEmbeds).sum

/-- The books are right; pending inputs are not cached and slots are kept for them. -/
structure Ready
    (cacheSize : Nat) (pending : List String) (reserved : Int) (manager : EncoderCacheManager) :
    Prop where
  size : manager.cacheSize = cacheSize
  filled : manager.numFreeSlots + slots manager.cached = cacheSize
  reclaimable : manager.numFreeableSlots = manager.numFreeSlots + slots manager.freeable
  unreferenced :
    ∀ mmHash number, manager.freeable.get? mmHash = some number ↔
      manager.cached.get? mmHash = some ∅ ∧ number = numEmbeds mmHash
  distinct : pending.Nodup
  absent : ∀ mmHash ∈ pending, manager.cached.get? mmHash = none
  fits : reserved ≤ manager.numFreeSlots

/-- An operation does not raise and its result meets the postcondition. -/
abbrev Returns {Value : Type} (post : Value → Prop) (outcome : Outcome Value) : Prop :=
  Meets (fun _ => False) post outcome

variable {manager : EncoderCacheManager} {requestId mmHash : String} {cacheSize : Nat}
  {pending : List String} {reserved : Int}

section

variable {Value : Type} {dict : Dict String Value}

theorem slots_set : slots (dict.set mmHash value) = numEmbeds mmHash + slots (dict.erase mmHash) :=
  (((dict.entries_set_perm mmHash value).map Prod.fst).map numEmbeds).sum_eq

theorem slots_of_get? (found : dict.get? mmHash = some value) :
    slots dict = numEmbeds mmHash + slots (dict.erase mmHash) :=
  (((Dict.entries_perm_of_get? found).map Prod.fst).map numEmbeds).sum_eq

end

theorem ready_init : Ready cacheSize [] 0 (init cacheSize) where
  size := rfl
  filled := Int.add_zero _
  reclaimable := (Int.add_zero _).symm
  unreferenced := by simp [init]
  distinct := nodup_nil
  absent := nofun
  fits := Int.natCast_nonneg _

section

variable (ready : Ready cacheSize pending reserved manager)
include ready

/-- Other requests reference an entry. -/
theorem Ready.setRequests
    {freeable : Dict String Nat}
    (found : manager.cached.get? mmHash = some requests)
    (reclaimable : number = manager.numFreeSlots + slots freeable)
    (unreferenced :
      ∀ other number, freeable.get? other = some number ↔
        (if other = mmHash then some others else manager.cached.get? other) = some ∅ ∧
          number = numEmbeds other) :
    Ready cacheSize pending reserved { manager with
      cached := manager.cached.set mmHash others
      freeable
      numFreeableSlots := number } := by
  refine { ready with filled := ?_, reclaimable, unreferenced := ?_, absent := ?_ }
  · rw [slots_set, ← slots_of_get? found]
    exact ready.filled
  · simpa only [Dict.get?_set] using unreferenced
  · intro other mem
    rw [Dict.get?_set, if_neg, ready.absent other mem]
    rintro rfl
    exact Option.some_ne_none _ (found.symm.trans (ready.absent other mem))

theorem Ready.checkAndUpdateCache (fresh : mmHash ∉ pending) :
    Returns (fun result =>
        Ready cacheSize (if result.1 then pending else mmHash :: pending) reserved result.2)
      (manager.checkAndUpdateCache reqId mmHash) := by
  unfold EncoderCacheManager.checkAndUpdateCache
  split
  · rename_i missing
    exact { ready with
      distinct := nodup_cons.mpr ⟨fresh, ready.distinct⟩
      absent := forall_mem_cons.mpr ⟨missing, ready.absent⟩ }
  rename_i requests found
  dsimp only
  split
  · rename_i unused
    subst unused
    have listed := (ready.unreferenced mmHash _).mpr ⟨found, rfl⟩
    rw [listed]
    refine ready.setRequests found ?_ ?_
    · rw [ready.reclaimable, slots_of_get? listed]
      omega
    · intro other number
      rw [Dict.get?_erase_eq_some, ready.unreferenced]
      split <;> simp_all
  · refine ready.setRequests found ready.reclaimable ?_
    intro other number
    rw [ready.unreferenced]
    split <;> simp_all

theorem Ready.freeEncoderInput :
    Ready cacheSize pending reserved (manager.freeEncoderInput reqId mmHash) := by
  unfold EncoderCacheManager.freeEncoderInput
  cases found : manager.cached.get? mmHash with
  | none => simpa [Dict.getD, found] using ready
  | some requests =>
    simp only [Dict.getD, found, Option.getD_some]
    split
    · exact ready
    rename_i used
    have missing : manager.freeable.get? mmHash = none := by
      rw [Option.eq_none_iff_forall_ne_some]
      intro number listed
      rw [ready.unreferenced, found] at listed
      exact used (Option.some.inj listed.1)
    split
    · refine ready.setRequests found ?_ ?_
      · rw [slots_set, Dict.erase_eq_self_of_get? missing, ready.reclaimable]
        omega
      · intro other number
        rw [Dict.get?_set]
        split
        · simp_all [eq_comm]
        · exact ready.unreferenced other number
    · refine ready.setRequests found ready.reclaimable ?_
      intro other number
      rw [ready.unreferenced]
      split <;> simp_all

theorem Ready.free (inputs : List (String × String)) :
    Ready cacheSize pending reserved (manager.free inputs) :=
  foldlRecOn (motive := Ready cacheSize pending reserved) inputs _ ready
    fun _ kept _ _ => kept.freeEncoderInput

theorem Ready.evict (enough : wanted ≤ manager.numFreeableSlots) :
    Returns (Ready cacheSize pending wanted) (manager.evict wanted) := by
  fun_induction EncoderCacheManager.evict wanted manager with
  | case1 manager fits => exact { ready with fits }
  | case2 manager short empty =>
    have reclaimable := ready.reclaimable
    rw [slots, Dict.keys, empty] at reclaimable
    exact short (by simpa [reclaimable] using enough)
  | case3 manager short mmHash numFreeEmbeds _ oldest known ih =>
    obtain ⟨size, filled, reclaimable, unreferenced, nodup, absent, fits⟩ := ready
    have found := Dict.get?_eq_some_iff.mpr (oldest ▸ mem_cons_self)
    obtain ⟨unused, sized⟩ := (unreferenced _ _).mp found
    rw [slots_of_get? found] at reclaimable
    rw [slots_of_get? unused] at filled
    refine ih ⟨size, ?_, ?_, ?_, nodup, ?_, ?_⟩ enough
    rotate_left 2
    · intro other number
      rw [Dict.get?_erase_eq_some, Dict.get?_erase_eq_some, unreferenced, and_assoc]
    · intro other mem
      rw [Dict.get?_erase, absent other mem, ite_self]
    all_goals
      dsimp only
      omega
  | case4 manager short mmHash numFreeEmbeds _ oldest unknown =>
    have found := Dict.get?_eq_some_iff.mpr (oldest ▸ mem_cons_self)
    rw [Dict.contains, ((ready.unreferenced _ _).mp found).1] at unknown
    exact unknown rfl

theorem Ready.canAllocate :
    Returns (fun result =>
        Ready cacheSize pending
          (if result.1 then numEmbeds mmHash + numEmbedsToSchedule else reserved) result.2)
      (manager.canAllocate mmHash budget numEmbedsToSchedule) := by
  unfold EncoderCacheManager.canAllocate
  dsimp only
  split
  · exact ready
  split
  · rename_i fits
    exact { ready with fits }
  split
  · exact ready
  · exact (ready.evict (by omega)).bind fun _ evicted => evicted

/-- Some of the pending inputs, in any order. -/
theorem Ready.weaken (within : part <+~ pending)
    (fewer : less ≤ reserved) : Ready cacheSize part less manager := by
  obtain ⟨sorted, reordered, sublist⟩ := within
  exact { ready with
    distinct := reordered.nodup_iff.mp (ready.distinct.sublist sublist)
    absent := fun mmHash mem =>
      ready.absent mmHash (sublist.subset (reordered.mem_iff.mpr mem))
    fits := fewer.trans ready.fits }

theorem Ready.slots_freeable_le : slots manager.freeable ≤ slots manager.cached := by
  have subset : manager.freeable.keys ⊆ manager.cached.keys := by
    intro mmHash mem
    rw [← Dict.contains_iff_mem_keys, Dict.contains, Option.isSome_iff_exists] at mem ⊢
    obtain ⟨number, found⟩ := mem
    exact ⟨∅, ((ready.unreferenced _ _).mp found).1⟩
  obtain ⟨keys, reordered, sublist⟩ := subperm_of_subset manager.freeable.distinct subset
  exact (reordered.map numEmbeds).sum_eq.symm.le.trans
    ((sublist.map numEmbeds).sum_le_sum fun _ _ => Nat.zero_le _)

end

theorem Ready.allocateAll (ready : Ready cacheSize pending (pending.map numEmbeds).sum manager) :
    Returns (Ready cacheSize [] 0) (pending.foldlM (allocate · reqId) manager) := by
  induction pending generalizing manager with
  | nil => exact ready
  | cons mmHash rest ih =>
    obtain ⟨size, filled, reclaimable, unreferenced, nodup, absent, fits⟩ := ready
    obtain ⟨missing, later⟩ := forall_mem_cons.mp absent
    obtain ⟨fresh, nodup⟩ := nodup_cons.mp nodup
    rw [map_cons, sum_cons] at fits
    rw [foldlM_cons, allocate, ensure_of (by omega), ok_bind, ensure_of (by omega)]
    refine ih ⟨size, ?_, ?_, ?_, nodup, ?_, ?_⟩
    · rw [slots_set, Dict.erase_eq_self_of_get? missing]
      dsimp only
      omega
    · dsimp only
      omega
    · intro other number
      rw [Dict.get?_set, unreferenced]
      split <;> simp_all
    · intro other mem
      rw [Dict.get?_set, later other mem, if_neg (ne_of_mem_of_not_mem mem fresh)]
    · dsimp only
      omega

theorem Ready.tryScheduleEncoderInputs
    (ready : Ready cacheSize (scheduled ++ loaded) ((scheduled ++ loaded).map numEmbeds).sum
      manager) :
    Returns (fun result => Ready cacheSize result.1 (result.1.map numEmbeds).sum result.2)
      (tryScheduleEncoderInputs reqId budget scheduled loaded offered manager) := by
  induction offered generalizing budget scheduled loaded manager with
  | nil => exact ready
  | cons offer rest ih =>
    unfold EncoderCacheManager.tryScheduleEncoderInputs
    split
    · exact ih ready
    rename_i fresh
    refine (ready.checkAndUpdateCache fresh).bind ?_
    rintro ⟨_ | _, manager⟩ ready
    · have behind := (sublist_cons_self offer.1 (scheduled ++ loaded)).subperm
      dsimp only
      rw [if_neg Bool.false_ne_true]
      split
      · exact ready.weaken behind le_rfl
      refine ready.canAllocate.bind ?_
      rintro ⟨_ | _, manager⟩ ready
      · exact ready.weaken behind le_rfl
      dsimp only
      split
      · contradiction
      · refine ih (ready.weaken ?_ (by simp [add_left_comm]))
        rw [append_assoc]
        exact perm_middle.subperm
      · refine ih (ready.weaken ?_ ?_)
        · rw [← append_assoc]
          exact (perm_append_singleton _ _).subperm
        · simp [add_assoc, add_comm]
      · exact ih (ready.weaken behind (by simp))
    · exact ih ready

theorem Ready.perform (ready : Ready cacheSize [] 0 manager) (call : EncoderCacheCall) :
    Returns (Ready cacheSize [] 0) (manager.perform call) := by
  cases call with
  | schedule reqId budget offered preempted admitted =>
    refine ready.tryScheduleEncoderInputs.bind ?_
    rintro ⟨pending, manager⟩ ready
    cases admitted with
    | true => exact (ready.free preempted).allocateAll
    | false => exact (ready.free preempted).weaken nil_subperm (Int.natCast_nonneg _)
  | free inputs => exact ready.free inputs
  | getFreedMmHashes => exact { ready with }
  | reset => exact ready.size ▸ ready_init

/-- No run raises, and after it the books are right. -/
theorem run_accounts (cacheSize : Nat) (calls : List EncoderCacheCall) :
    ∃ manager, run cacheSize calls = .ok manager ∧
      manager.numFreeSlots + slots manager.cached = cacheSize ∧
      manager.numFreeableSlots = manager.numFreeSlots + slots manager.freeable ∧
      (∀ mmHash, manager.freeable.contains mmHash ↔ manager.cached.get? mmHash = some ∅) ∧
      (0 ≤ manager.numFreeSlots ∧ manager.numFreeSlots ≤ cacheSize) ∧
      0 ≤ manager.numFreeableSlots ∧ manager.numFreeableSlots ≤ cacheSize := by
  have meets : Returns (Ready cacheSize [] 0) (run cacheSize calls) :=
    meets_foldlM _ (fun _ call _ ready => ready.perform call) ready_init
  cases finished : run cacheSize calls with
  | error fault => exact (meets.of_eq_error finished).elim
  | ok manager =>
    have fewer := (meets.of_eq_ok finished).slots_freeable_le
    obtain ⟨_, filled, reclaimable, unreferenced, _, _, fits⟩ := meets.of_eq_ok finished
    refine ⟨manager, rfl, filled, reclaimable, ?_, by omega⟩
    intro mmHash
    simp [Dict.contains, Option.isSome_iff_exists, unreferenced]

end EncoderCacheManager

end VllmCore.Scheduler
