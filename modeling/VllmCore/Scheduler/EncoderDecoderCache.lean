import Mathlib.Algebra.Order.BigOperators.Group.List
import Mathlib.Algebra.Order.Ring.Nat

namespace VllmCore.Scheduler

open List

/-!
# Encoder slots of encoder-decoder models

`EncoderDecoderCacheManager` of `v1/core/encoder_cache_manager.py` under the calls of the
scheduler.  Books beside it list the inputs that are allocated and not freed; the scheduler
also frees inputs that are not held, and these frees add up to a surplus.
-/

/-- An encoder input of a request. -/
structure EncoderInput where
  requestId : Nat
  inputId : Nat
  identifier : String
  numEmbeds : Nat
  offset : Nat
  length : Nat
  deriving DecidableEq

structure EncoderDecoderCacheManager where
  cacheSize : Nat
  numFreeSlots : Int
  allocated : List String
  toFree : List String
  deriving DecidableEq

namespace EncoderDecoderCacheManager

variable (manager : EncoderDecoderCacheManager) (input : EncoderInput)

def init (cacheSize : Nat) : EncoderDecoderCacheManager :=
  ⟨cacheSize, cacheSize, [], []⟩

def canAllocate (encoderComputeBudget : Int) (numEmbedsToSchedule : Nat) : Bool :=
  if encoderComputeBudget < input.numEmbeds then false
  else decide ((input.numEmbeds + numEmbedsToSchedule : Nat) ≤ manager.numFreeSlots)

def allocate : EncoderDecoderCacheManager :=
  { manager with
    numFreeSlots := manager.numFreeSlots - input.numEmbeds
    allocated := manager.allocated ++ [input.identifier] }

def freeEncoderInput : EncoderDecoderCacheManager :=
  { manager with numFreeSlots := manager.numFreeSlots + input.numEmbeds }

def getFreedMmHashes : List String × EncoderDecoderCacheManager :=
  (manager.toFree, { manager with toFree := manager.allocated, allocated := [] })

/--
The inputs a pass schedules and those it loads, each checked together with those before it.

Offered are the inputs before any roll-back, with whether the step needs embeddings of them
and then whether the connector has them; nothing is offered once tokens are computed.
-/
def tryScheduleEncoderInputs (manager : EncoderDecoderCacheManager) :
    Int → Nat → List (EncoderInput × Option Bool) → List EncoderInput × List EncoderInput
  | _, _, [] => ([], [])
  | budget, numEmbedsToSchedule, (input, verdict) :: rest =>
    if manager.canAllocate input budget numEmbedsToSchedule then
      match verdict with
      | none => tryScheduleEncoderInputs manager budget numEmbedsToSchedule rest
      | some true =>
        (tryScheduleEncoderInputs manager budget (numEmbedsToSchedule + input.numEmbeds)
          rest).map id (input :: ·)
      | some false =>
        (tryScheduleEncoderInputs manager (budget - input.numEmbeds)
          (numEmbedsToSchedule + input.numEmbeds) rest).map (input :: ·) id
    else
      ([], [])

/-- A pass never asks for more than the free slots. -/
theorem sum_trySchedule_le
    {manager : EncoderDecoderCacheManager} {budget : Int} {numEmbedsToSchedule : Nat}
    (offered : List (EncoderInput × Option Bool))
    (fits : numEmbedsToSchedule ≤ manager.numFreeSlots) :
    let pass := manager.tryScheduleEncoderInputs budget numEmbedsToSchedule offered
    numEmbedsToSchedule + ((pass.1 ++ pass.2).map EncoderInput.numEmbeds).sum ≤
      manager.numFreeSlots := by
  simp only [map_append, sum_append]
  induction offered generalizing budget numEmbedsToSchedule with
  | nil => simpa [tryScheduleEncoderInputs] using fits
  | cons first rest ih =>
    unfold tryScheduleEncoderInputs
    split
    · rename_i accepted
      simp only [canAllocate, Bool.if_false_left, Bool.and_eq_true, decide_eq_true_eq] at accepted
      have later := fun left => @ih left (numEmbedsToSchedule + first.1.numEmbeds) (by omega)
      split
      · exact ih fits
      · have := later budget
        simp only [Prod.map_fst, Prod.map_snd, id, map_cons, sum_cons]
        omega
      · have := later (budget - first.1.numEmbeds)
        simp only [Prod.map_fst, Prod.map_snd, id, map_cons, sum_cons]
        omega
    · simpa using fits

end EncoderDecoderCacheManager

open EncoderDecoderCacheManager

/-- The manager, the inputs it holds and what frees of other inputs have credited. -/
structure EncoderBooks where
  manager : EncoderDecoderCacheManager
  held : List EncoderInput := []
  surplus : Nat := 0
  deriving DecidableEq

/-- A call of the scheduler. -/
inductive EncoderCall where
  /-- A pass over one request; others may be preempted before it allocates. -/
  | schedule (budget : Int) (offered : List (EncoderInput × Option Bool))
    (preempted : List EncoderInput)
  /-- The end of a step. -/
  | update (inputs : List EncoderInput)
    (specLookahead numComputedTokens numOutputPlaceholders : Int)
  /-- A request is preempted, refused, finished or aborted. -/
  | free (inputs : List EncoderInput)
  | getFreedMmHashes
  | reset

namespace EncoderBooks

variable (books : EncoderBooks) (input : EncoderInput)

def allocate : EncoderBooks :=
  { books with manager := books.manager.allocate input, held := input :: books.held }

def freeEncoderInput : EncoderBooks where
  manager := books.manager.freeEncoderInput input
  held := books.held.erase input
  surplus := if input ∈ books.held then books.surplus else books.surplus + input.numEmbeds

def free (inputs : List EncoderInput) : EncoderBooks :=
  inputs.foldl freeEncoderInput books

def perform : EncoderCall → EncoderBooks
  | .schedule budget offered preempted =>
    let (scheduled, loaded) := books.manager.tryScheduleEncoderInputs budget 0 offered
    (scheduled ++ loaded).foldl allocate (books.free preempted)
  | .update inputs specLookahead numComputedTokens numOutputPlaceholders =>
    books.free (inputs.filter fun input =>
      decide (0 < numComputedTokens ∨ input.offset + input.length + specLookahead ≤
        numComputedTokens - numOutputPlaceholders))
  | .free inputs => books.free inputs
  | .getFreedMmHashes => { books with manager := books.manager.getFreedMmHashes.2 }
  | .reset => { manager := .init books.manager.cacheSize }

/-- The books after a run of the scheduler. -/
def run (cacheSize : Nat) (calls : List EncoderCall) : EncoderBooks :=
  calls.foldl perform { manager := .init cacheSize }

def heldSlots : Nat :=
  (books.held.map EncoderInput.numEmbeds).sum

/-- The free slots are what is not held, and the surplus. -/
structure Balanced (cacheSize : Nat) : Prop where
  size : books.manager.cacheSize = cacheSize
  nonneg : 0 ≤ books.manager.numFreeSlots
  balance : books.manager.numFreeSlots + books.heldSlots = cacheSize + books.surplus

variable {books input} {cacheSize : Nat}

theorem balanced_init : Balanced { manager := .init cacheSize } cacheSize :=
  ⟨rfl, Int.natCast_nonneg _, rfl⟩

section

variable (balanced : books.Balanced cacheSize)
include balanced

theorem Balanced.freeEncoderInput : (books.freeEncoderInput input).Balanced cacheSize := by
  obtain ⟨size, nonneg, balance⟩ := balanced
  refine ⟨size, add_nonneg nonneg (Int.natCast_nonneg _), ?_⟩
  simp only [EncoderBooks.freeEncoderInput, EncoderDecoderCacheManager.freeEncoderInput,
    heldSlots] at balance ⊢
  split
  · rename_i mem
    have split := ((perm_cons_erase mem).map EncoderInput.numEmbeds).sum_eq
    rw [map_cons, sum_cons] at split
    omega
  · rename_i absent
    rw [erase_of_not_mem absent]
    omega

/-- Freeing keeps the balance and never takes slots away. -/
theorem Balanced.free (inputs : List EncoderInput) :
    (books.free inputs).Balanced cacheSize ∧
      books.manager.numFreeSlots ≤ (books.free inputs).manager.numFreeSlots := by
  induction inputs generalizing books with
  | nil => exact ⟨balanced, le_rfl⟩
  | cons input rest ih =>
    obtain ⟨kept, grows⟩ := ih balanced.freeEncoderInput
    exact ⟨kept, (le_add_of_nonneg_right (Int.natCast_nonneg _)).trans grows⟩

theorem Balanced.allocateAll {inputs : List EncoderInput}
    (fits : (inputs.map EncoderInput.numEmbeds).sum ≤ books.manager.numFreeSlots) :
    (inputs.foldl allocate books).Balanced cacheSize := by
  induction inputs generalizing books with
  | nil => exact balanced
  | cons input rest ih =>
    obtain ⟨size, nonneg, balance⟩ := balanced
    rw [map_cons, sum_cons] at fits
    refine ih ⟨size, ?_, ?_⟩ ?_
    all_goals
      simp only [allocate, EncoderDecoderCacheManager.allocate, heldSlots, map_cons,
        sum_cons] at balance ⊢
      omega

theorem Balanced.perform (call : EncoderCall) : (books.perform call).Balanced cacheSize := by
  cases call with
  | schedule budget offered preempted =>
    obtain ⟨freed, grows⟩ := balanced.free preempted
    have fits := @sum_trySchedule_le books.manager budget 0 offered balanced.nonneg
    exact freed.allocateAll (by omega)
  | update inputs specLookahead numComputedTokens numOutputPlaceholders => exact (balanced.free _).1
  | free inputs => exact (balanced.free inputs).1
  | getFreedMmHashes => exact ⟨balanced.size, balanced.nonneg, balanced.balance⟩
  | reset => exact balanced.size ▸ balanced_init

end

/-- An input of three embeddings. -/
def audioInput : EncoderInput :=
  ⟨0, 0, "audio", 3, 0, 1⟩

end EncoderBooks

end VllmCore.Scheduler
