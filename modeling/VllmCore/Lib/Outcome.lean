import Mathlib.Algebra.Ring.Int.Defs
import Mathlib.Data.List.Forall2

namespace VllmCore.Lib

open List

/-!
# Outcomes of fallible operations

A modelled operation either returns or raises.  The rules here take a successful
computation apart, one bind at a time, and lift what a step preserves to loops.
-/

/-- What an operation may raise. -/
inductive Fault where
  | value (message : String)
  | runtime (message : String)
  | assertion (message : String)
  | index (message : String)
  | key (message : String)
  | type (message : String)
  | division (message : String)
  | notImplemented (message : String)
  deriving Repr, DecidableEq

/-- The result of an operation that may raise. -/
abbrev Outcome := Except Fault

/-- An assertion: raises when its condition fails. -/
def ensure (condition : Prop) [Decidable condition] (message : String := "") : Outcome Unit :=
  if condition then .ok () else .error (.assertion message)

variable {Value : Type}

/-- Index into a list as the source does, raising behind its end. -/
def indexed (values : List Value) (position : Nat) : Outcome Value :=
  match values[position]? with
  | some value => .ok value
  | none => .error (.index "list index out of range")

/-- An operation returns and its result passes a test. -/
def satisfies (outcome : Outcome Value) (test : Value → Bool) : Bool :=
  match outcome with
  | .ok value => test value
  | .error _ => false

/-- What an operation raises, if it does. -/
def raised (outcome : Outcome Value) : Option Fault :=
  match outcome with
  | .ok _ => none
  | .error fault => some fault

/-- Raised by something else than a refused value. -/
def Fault.NotValue (fault : Fault) : Prop :=
  ∀ message, fault ≠ .value message

/-- Every fault is an allowed one and every result meets the postcondition. -/
def Meets (allowed : Fault → Prop) (post : Value → Prop) :
    Outcome Value → Prop
  | .ok value => post value
  | .error fault => allowed fault

section Rules

variable {First Second State Item : Type}

@[simp]
theorem ok_bind (first : First) (next : First → Outcome Second) :
    (Except.ok first : Outcome First) >>= next = next first :=
  rfl

variable {next : First → Outcome Second} {items : List Item} {Value : Type}
  {outcome : Outcome Value} {first : Outcome First} {condition : Prop} {fault : Fault}
  {step : State → Item → Outcome State} {results : List First}

@[simp]
theorem error_bind : (Except.error fault : Outcome First) >>= next = .error fault :=
  rfl

/-- A sequence succeeds exactly when both of its parts do. -/
theorem bind_ok :
    first >>= next = .ok result ↔ ∃ value, first = .ok value ∧ next value = .ok result := by
  cases first with
  | _ => simp

/-- A sequence returns if its first part does and the second part does after it. -/
theorem exists_bind_ok (returns : ∃ value, first = .ok value)
    (continues : ∀ value, first = .ok value → ∃ result, next value = .ok result) :
    ∃ result, first >>= next = .ok result := by
  obtain ⟨value, ran⟩ := returns
  obtain ⟨result, done⟩ := continues value ran
  exact ⟨result, bind_ok.mpr ⟨value, ran, done⟩⟩

@[simp]
theorem ensure_eq_ok [Decidable condition] : ensure condition message = .ok result ↔ condition := by
  unfold ensure
  split <;> simp_all

theorem ensure_of [Decidable condition] (holds : condition) (message : String) :
    ensure condition message = .ok () :=
  if_pos holds

@[simp]
theorem indexed_eq_ok : indexed values pos = .ok value ↔ values[pos]? = some value := by
  unfold indexed
  cases values[pos]? <;> simp

theorem exists_of_satisfies (passes : satisfies outcome test = true) :
    ∃ value, outcome = .ok value ∧ test value = true := by
  cases outcome with
  | error fault => cases passes
  | ok value => exact ⟨value, rfl, passes⟩

/-- What evaluation shows of a result, and what follows from it. -/
theorem exists_ok_and {Passes Follows : Value → Prop} [DecidablePred Passes]
    (passes : satisfies outcome (fun value => decide (Passes value)) = true)
    (follows : ∀ value, outcome = .ok value → Passes value → Follows value) :
    ∃ value, outcome = .ok value ∧ Passes value ∧ Follows value := by
  obtain ⟨value, ran, passed⟩ := exists_of_satisfies passes
  have holds := of_decide_eq_true passed
  exact ⟨value, ran, holds, follows value ran holds⟩

theorem eq_error_of_raised (raises : raised outcome = some fault) : outcome = .error fault := by
  cases outcome with
  | error other =>
    cases raises
    rfl
  | ok value => cases raises

/-- What every round of a loop preserves holds after the loop. -/
theorem foldlM_preserves (Invariant : State → Prop)
    (preserves :
      ∀ state item after, item ∈ items → Invariant state →
        step state item = .ok after → Invariant after)
    {state after : State} (start : Invariant state)
    (done : items.foldlM step state = .ok after) : Invariant after := by
  induction items generalizing state with
  | nil =>
    cases done
    exact start
  | cons item rest ih =>
    obtain ⟨between, stepped, next⟩ := bind_ok.mp done
    refine ih ?_ (preserves state item between ?_ start stepped) next
    · intro state item after mem
      exact preserves state item after (mem_cons_of_mem _ mem)
    · exact mem_cons_self

/-- A loop that adds up what its rounds return. -/
theorem foldlM_add_eq_ok {count : Item → Outcome Int}
    (ran :
      items.foldlM
          (fun sum item => do
            let counted ← count item
            .ok (sum + counted))
          start =
        .ok total) :
    ∃ counts : List Int, Forall₂ (fun item counted => count item = .ok counted) items counts ∧
        total = start + counts.sum := by
  induction items generalizing start with
  | nil =>
    cases ran
    exact ⟨[], .nil, by simp⟩
  | cons item rest ih =>
    obtain ⟨between, stepped, next⟩ := bind_ok.mp ran
    obtain ⟨counted, counts, added⟩ := bind_ok.mp stepped
    cases added
    obtain ⟨later, matched, sums⟩ := ih next
    refine ⟨counted :: later, .cons counts matched, ?_⟩
    rw [sums, sum_cons, add_assoc]

/-- A loop over a list returns exactly when each round does. -/
theorem mapM_eq_ok_iff {step : Item → Outcome First} :
    items.mapM step = .ok results ↔
      Forall₂ (fun item result => step item = .ok result) items results := by
  induction items generalizing results with
  | nil =>
    rw [List.forall₂_nil_left_iff]
    constructor
    · intro ran
      cases ran
      rfl
    · rintro rfl
      rfl
  | cons item rest ih =>
    rw [mapM_cons, List.forall₂_cons_left_iff]
    constructor
    · intro ran
      obtain ⟨first, stepped, next⟩ := bind_ok.mp ran
      obtain ⟨others, mapped, same⟩ := bind_ok.mp next
      cases same
      exact ⟨first, others, stepped, ih.mp mapped, rfl⟩
    · rintro ⟨first, others, stepped, mapped, rfl⟩
      exact bind_ok.mpr ⟨first, stepped, bind_ok.mpr ⟨others, ih.mpr mapped, rfl⟩⟩

section

variable {related : Item → First → Prop} {items : List Item} {results : List First}
    (pairs : Forall₂ related items results)
include pairs

theorem exists_left_of_forall₂ (mem : result ∈ results) : ∃ item ∈ items, related item result := by
  induction pairs with
  | nil => cases mem
  | @cons item first items results relates rest ih =>
    rcases mem_cons.mp mem with rfl | later
    · exact ⟨item, mem_cons_self, relates⟩
    · obtain ⟨other, listed, relatesOther⟩ := ih later
      exact ⟨other, mem_cons_of_mem _ listed, relatesOther⟩

theorem exists_right_of_forall₂ (mem : item ∈ items) : ∃ result ∈ results, related item result := by
  have flipped : Forall₂ (flip related) results items := Forall₂.flip pairs
  exact exists_left_of_forall₂ flipped mem

end

variable {items : List Item}

theorem exists_of_mem_mapM {step : Item → Outcome First}
    (mapped : items.mapM step = .ok results) (mem : result ∈ results) :
    ∃ item ∈ items, step item = .ok result :=
  exists_left_of_forall₂ (mapM_eq_ok_iff.mp mapped) mem

theorem mapM_congr {step other : Item → Outcome First}
    (same : ∀ item ∈ items, step item = other item) : items.mapM step = items.mapM other := by
  induction items with
  | nil => rfl
  | cons item rest ih =>
    rw [mapM_cons, mapM_cons, same item mem_cons_self,
      ih fun later mem => same later (mem_cons_of_mem _ mem)]

/-- A loop that appends what its rounds return. -/
theorem foldlM_append_eq_ok {Symbol : Type} {step : Item → Outcome (List Symbol)}
    {start whole : List Symbol} :
    items.foldlM
          (fun text item => do
            let next ← step item
            .ok (text ++ next))
          start =
        .ok whole ↔
      ∃ parts, items.mapM step = .ok parts ∧ whole = start ++ parts.flatten := by
  induction items generalizing start with
  | nil =>
    constructor
    · intro ran
      cases ran
      exact ⟨[], rfl, by simp⟩
    · rintro ⟨parts, mapped, rfl⟩
      cases mapped
      simp [pure, Except.pure]
  | cons item rest ih =>
    rw [mapM_cons]
    constructor
    · intro ran
      obtain ⟨between, stepped, continued⟩ := bind_ok.mp ran
      obtain ⟨next, taken, added⟩ := bind_ok.mp stepped
      cases added
      obtain ⟨parts, mapped, same⟩ := ih.mp continued
      refine ⟨next :: parts, ?_, by simp [same]⟩
      exact bind_ok.mpr ⟨next, taken, bind_ok.mpr ⟨parts, mapped, rfl⟩⟩
    · rintro ⟨parts, mapped, rfl⟩
      obtain ⟨next, taken, continued⟩ := bind_ok.mp mapped
      obtain ⟨others, later, same⟩ := bind_ok.mp continued
      cases same
      refine bind_ok.mpr ⟨start ++ next, bind_ok.mpr ⟨next, taken, rfl⟩, ?_⟩
      exact ih.mpr ⟨others, later, by simp⟩

/-- A loop of checks succeeds exactly when each check does. -/
theorem forM_eq_ok_iff {check : Item → Outcome Unit} :
    items.forM check = .ok result ↔ ∀ item ∈ items, check item = .ok () := by
  induction items with
  | nil => simp [pure, Except.pure]
  | cons item rest ih =>
    have unrolled : (item :: rest).forM check = (check item >>= fun _ => rest.forM check) := rfl
    rw [unrolled, bind_ok, forall_mem_cons, ← ih]
    constructor
    · rintro ⟨⟨⟩, checked, later⟩
      exact ⟨checked, later⟩
    · rintro ⟨checked, later⟩
      exact ⟨(), checked, later⟩

/-! ## Postconditions -/

variable {allowed : Fault → Prop}

theorem Meets.bind
    (meets : Meets allowed between first)
    (continues : ∀ value, between value → Meets allowed post (next value)) :
    Meets allowed post (first >>= next) := by
  cases first with
  | error fault => exact meets
  | ok value => exact continues value meets

theorem Meets.mono
    (meets : Meets allowed strong outcome) (implied : ∀ value, strong value → weak value) :
    Meets allowed weak outcome := by
  cases outcome with
  | error fault => exact meets
  | ok value => exact implied value meets

section

variable {outcome : Outcome First} {post : First → Prop} (meets : Meets allowed post outcome)
include meets

theorem Meets.of_eq_ok (ran : outcome = .ok result) : post result := by
  subst ran
  exact meets

theorem Meets.of_eq_error (raised : outcome = .error fault) : allowed fault := by
  subst raised
  exact meets

end

theorem meets_ensure {condition : Prop} [Decidable condition] :
    Meets Fault.NotValue (fun _ => condition) (ensure condition message) := by
  unfold ensure
  split
  · assumption
  · intro _ equal
    cases equal

theorem meets_indexed :
    Meets Fault.NotValue (fun value => values[pos]? = some value)
      (indexed values pos) := by
  unfold indexed
  split
  · assumption
  · intro _ equal
    cases equal

/-- A loop meets what every round meets. -/
theorem meets_foldlM
    (Invariant : State → Prop)
    (preserves :
      ∀ state item, item ∈ items → Invariant state → Meets allowed Invariant (step state item))
    (start : Invariant state) : Meets allowed Invariant (items.foldlM step state) := by
  induction items generalizing state with
  | nil => exact start
  | cons item rest ih =>
    refine (preserves state item mem_cons_self start).bind ?_
    intro between holds
    refine ih ?_ holds
    intro state other mem
    exact preserves state other (mem_cons_of_mem _ mem)

/-- A returning operation meets what its result does. -/
theorem meets_of_ok
    (ran : outcome = .ok result) (holds : post result) : Meets allowed post outcome := by
  subst ran
  exact holds

end Rules

/-- Two operations return related results or both raise. -/
inductive Related {First Second : Type} (rel : First → Second → Prop) :
    Outcome First → Outcome Second → Prop
  | ok {first : First} {second : Second} (held : rel first second) :
      Related rel (.ok first) (.ok second)
  | error {fault other : Fault} : Related rel (.error fault) (.error other)

namespace Related

theorem same (outcome : Outcome Value) : Related Eq outcome outcome := by
  cases outcome with
  | error fault => exact .error
  | ok value => exact .ok rfl

theorem bind {next : First → Outcome Value} {later : Second → Outcome Result}
    (related : Related rel first second)
    (continues : ∀ value other, rel value other → Related post (next value) (later other)) :
    Related post (first >>= next) (second >>= later) := by
  cases related with
  | error => exact .error
  | ok held => exact continues _ _ held

theorem mapM {items : List Item} {step : Item → Outcome First} {other : Item → Outcome Second}
    (each : ∀ item, Related rel (step item) (other item)) :
    Related (Forall₂ rel) (items.mapM step) (items.mapM other) := by
  induction items with
  | nil => exact .ok .nil
  | cons item rest ih =>
    rw [mapM_cons, mapM_cons]
    exact (each item).bind fun _ _ held => ih.bind fun _ _ others => .ok (.cons held others)

theorem of_ok (related : Related rel first (.ok value)) :
    ∃ other, first = .ok other ∧ rel other value := by
  cases related with
  | ok held => exact ⟨_, rfl, held⟩

theorem to_ok (related : Related rel (.ok value) second) : ∃ other, second = .ok other := by
  cases related with
  | ok _ => exact ⟨_, rfl⟩

end Related

end VllmCore.Lib
