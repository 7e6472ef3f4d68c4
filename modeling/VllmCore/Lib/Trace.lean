import Mathlib.Data.List.Basic

namespace VllmCore.Lib

/-!
# Logs whose events are allowed by the past

A log lists events, the newest in front.  A property of a log says for every event what
must have happened before it.
-/

variable {Event : Type}

/-- Every event of a log is allowed after the events before it. -/
def AllAllowed (allows : List Event → Event → Prop) : List Event → Prop
  | [] => True
  | event :: before => allows before event ∧ AllAllowed allows before

variable {allows : List Event → Event → Prop}

theorem AllAllowed.append (allowed : AllAllowed allows before)
    (always : ∀ event ∈ new, ∀ log, allows log event) : AllAllowed allows (new ++ before) := by
  induction new with
  | nil => exact allowed
  | cons event rest ih =>
    exact ⟨always event List.mem_cons_self _, ih fun other mem =>
        always other (List.mem_cons_of_mem _ mem)⟩

/-- Events of one kind that stay allowed after each other. -/
theorem AllAllowed.map {Item : Type} {event : Item → Event}
    {items : List Item} (allowed : AllAllowed allows before)
    (each :
      ∀ item ∈ items, ∀ others : List Item, allows (others.map event ++ before) (event item)) :
    AllAllowed allows (items.map event ++ before) := by
  induction items with
  | nil => exact allowed
  | cons item rest ih =>
    exact ⟨each item List.mem_cons_self rest, ih fun other mem =>
        each other (List.mem_cons_of_mem _ mem)⟩

end VllmCore.Lib
