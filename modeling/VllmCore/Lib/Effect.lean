import VllmCore.Lib.Outcome

namespace VllmCore.Lib

/-!
# Operations on a state that may raise

An operation that raises leaves the state as it was at that point.  A triple says
where an operation ends from every state of its precondition; what each round of a
loop keeps, the loop keeps, also when a round raises.
-/

/-- An operation on a state: a result or a fault, and the state it leaves. -/
abbrev Effect (State Value : Type) :=
  EStateM Fault State Value

section Rules

variable {State Value Next Item : Type}

/-- Where an operation ended: returning or raising. -/
def Ends (returns : Value → State → Prop) (raises : State → Prop) :
    EStateM.Result Fault State Value → Prop
  | .ok value state => returns value state
  | .error _ state => raises state

/-- From every state of the precondition the operation ends as stated. -/
def Triple (before : State → Prop) (operation : Effect State Value) (returns : Value → State → Prop)
    (raises : State → Prop) : Prop :=
  ∀ state, before state → Ends returns raises (operation state)

/-- An operation keeps a property of the state, whether it returns or raises. -/
def Keeps (Invariant : State → Prop) (operation : Effect State Value) : Prop :=
  Triple Invariant operation (fun _ => Invariant) Invariant

/-- The state an operation leaves. -/
def left (result : EStateM.Result Fault State Value) : State :=
  match result with
  | .ok _ state => state
  | .error _ state => state

variable {next : Value → Effect State Next} {first : Effect State Value} {Invariant : State → Prop}

theorem Triple.bind
    (starts : Triple before first between raises)
    (continues : ∀ value, Triple (between value) (next value) after raises) :
    Triple before (first >>= next) after raises := by
  intro state holds
  have ended := starts state holds
  show Ends after raises (EStateM.bind first next state)
  unfold EStateM.bind
  cases result : first state with
  | ok value middle =>
    rw [result] at ended
    exact continues value middle ended
  | error fault middle =>
    rw [result] at ended
    exact ended

variable {round : Item → Effect State Value} {state : State} {operation : Effect State Value}
  {after : State} {value : Value}

theorem Keeps.left (keeps : Keeps Invariant operation) (holds : Invariant state) :
    Invariant (left (operation state)) := by
  have ended := keeps state holds
  revert ended
  cases operation state with
  | _ => exact id

theorem Keeps.of_ok (keeps : Keeps Invariant operation)
    (ran : operation state = .ok value after) (holds : Invariant state) : Invariant after := by
  have ended := keeps state holds
  rw [ran] at ended
  exact ended

theorem Keeps.pure (Invariant : State → Prop) (value : Value) : Keeps Invariant (Pure.pure value) :=
  fun _ holds => holds

theorem Keeps.bind (starts : Keeps Invariant first)
    (continues : ∀ value, Keeps Invariant (next value)) : Keeps Invariant (first >>= next) :=
  Triple.bind starts continues

/-- What every round of a loop keeps, the loop keeps. -/
theorem Keeps.mapM {items : List Item} (keeps : ∀ item ∈ items, Keeps Invariant (round item)) :
    Keeps Invariant (items.mapM round) := by
  induction items with
  | nil => exact Keeps.pure Invariant []
  | cons item rest ih =>
    rw [List.mapM_cons]
    refine (keeps item List.mem_cons_self).bind fun value => ?_
    refine (ih fun other mem => ?_).bind fun values => ?_
    · exact keeps other (List.mem_cons_of_mem _ mem)
    · exact Keeps.pure Invariant _

/-! ## Operations that return -/

theorem bind_of_ok (ran : first state = .ok value middle) :
    (first >>= next) state = next value middle := by
  show EStateM.bind first next state = _
  unfold EStateM.bind
  rw [ran]

/-- A sequence returned: so did both of its parts. -/
theorem ok_of_bind (ran : (first >>= next) state = .ok result after) :
    ∃ value middle, first state = .ok value middle ∧ next value middle = .ok result after := by
  have unfolded : EStateM.bind first next state = .ok result after := ran
  unfold EStateM.bind at unfolded
  cases started : first state with
  | ok value middle =>
    rw [started] at unfolded
    exact ⟨value, middle, rfl, unfolded⟩
  | error fault middle =>
    rw [started] at unfolded
    cases unfolded

/-- A loop returns when each round does, from the invariant the rounds keep. -/
theorem mapM_ok (Invariant : List Item → State → Prop)
    (keeps :
      ∀ item rest state, Invariant (item :: rest) state →
        ∃ value after, round item state = .ok value after ∧ Invariant rest after)
    (items : List Item) (start : Invariant items state) :
    ∃ values after, items.mapM round state = .ok values after ∧ Invariant [] after := by
  induction items generalizing state with
  | nil => exact ⟨[], state, rfl, start⟩
  | cons item rest ih =>
    obtain ⟨value, middle, ran, holds⟩ := keeps item rest state start
    obtain ⟨values, after, next, ended⟩ := ih holds
    refine ⟨value :: values, after, ?_, ended⟩
    rw [List.mapM_cons, bind_of_ok ran, bind_of_ok next]
    rfl

end Rules

end VllmCore.Lib
