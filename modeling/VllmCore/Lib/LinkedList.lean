import Mathlib.Data.List.Chain
import Mathlib.Data.List.Nodup

namespace VllmCore.Lib

open Function List

/-!
# Doubly linked lists with sentinel ends

An intrusive list keeps its links inside the items it connects.  Two sentinels
stand at its ends, so that every listed item has a predecessor and a successor.
Items outside the list have both links cleared.

`Represents` relates the link tables to the list they encode.  The edits a queue
performs on the links are given here together with the list operation each of
them implements.
-/

/-- A place in the list: one of the two sentinels or an item. -/
inductive Node (Item : Type) where
  | head
  | tail
  | item (value : Item)
  deriving Repr, DecidableEq

/-- The two link tables of an intrusive list. -/
structure Links (Item : Type) where
  next : Node Item → Option (Node Item)
  prev : Node Item → Option (Node Item)

section LinkedList

variable {Item : Type}

namespace Links

variable [DecidableEq Item] (links : Links Item)

/-- Redirect the forward link of a node. -/
def setNext (node : Node Item) (target : Option (Node Item)) : Links Item :=
  { links with next := update links.next node target }

/-- Redirect the backward link of a node. -/
def setPrev (node : Node Item) (target : Option (Node Item)) : Links Item :=
  { links with prev := update links.prev node target }

/-- Make two nodes neighbours. -/
def connect (left right : Node Item) : Links Item :=
  (links.setNext left (some right)).setPrev right (some left)

/-- Clear both links of a node. -/
def detach (node : Node Item) : Links Item :=
  (links.setNext node none).setPrev node none

/-- Chain items one by one behind a node; the last node reached is returned. -/
def connectRun (links : Links Item) (left : Node Item) :
    List Item → Links Item × Node Item
  | [] => (links, left)
  | value :: rest => connectRun (links.connect left (.item value)) (.item value) rest

end Links

/-- Clear the links of several items. -/
def Links.detachAll [DecidableEq Item] (links : Links Item) (values : List Item) : Links Item :=
  values.foldl (fun links value => links.detach (.item value)) links

/-- Two nodes point at each other. -/
def Adjacent (links : Links Item) (left right : Node Item) : Prop :=
  links.next left = some right ∧ links.prev right = some left

variable (values : List Item)

/-- The left sentinel and the items behind it. -/
def frontNodes : List (Node Item) :=
  .head :: values.map .item

/-- Items and the right sentinel behind them. -/
def backNodes : List (Node Item) :=
  values.map .item ++ [.tail]

/-- The last of the front nodes. -/
def lastFront : Node Item :=
  match values.getLast? with
  | none => .head
  | some value => .item value

/-- The first of the back nodes. -/
def firstBack : Node Item :=
  match values.head? with
  | none => .tail
  | some value => .item value

/-- The link tables encode the given list of items. -/
structure Represents (links : Links Item) (values : List Item) : Prop where
  chain : (frontNodes values ++ [Node.tail]).IsChain (Adjacent links)
  nodup : values.Nodup
  detached :
    ∀ value, value ∉ values → links.next (.item value) = none ∧ links.prev (.item value) = none
  head_prev : links.prev .head = none
  tail_next : links.next .tail = none

/-! ## Link edits -/

namespace Links

variable [DecidableEq Item] (links : Links Item)

@[simp]
theorem next_connect :
    (links.connect left right).next node =
      if node = left then some right else links.next node := by
  simp [connect, setNext, setPrev, update_apply]

@[simp]
theorem prev_connect :
    (links.connect left right).prev node =
      if node = right then some left else links.prev node := by
  simp [connect, setNext, setPrev, update_apply]

@[simp]
theorem next_detach :
    (links.detach target).next node =
      if node = target then none else links.next node := by
  simp [detach, setNext, setPrev, update_apply]

@[simp]
theorem prev_detach :
    (links.detach target).prev node =
      if node = target then none else links.prev node := by
  simp [detach, setNext, setPrev, update_apply]

end Links

/-! ## Chains of nodes -/

variable {values : List Item} {node : Node Item} {Value : Type}

@[simp]
theorem mem_frontNodes :
    node ∈ frontNodes values ↔ node = .head ∨ ∃ value ∈ values, .item value = node := by
  simp [frontNodes]

@[simp]
theorem mem_backNodes :
    node ∈ backNodes values ↔ (∃ value ∈ values, .item value = node) ∨ node = .tail := by
  simp [backNodes]

theorem getLast?_frontNodes (values : List Item) :
    (frontNodes values).getLast? = some (lastFront values) := by
  unfold frontNodes lastFront
  rw [getLast?_cons, getLast?_map]
  cases values.getLast? <;> rfl

theorem head?_backNodes (values : List Item) :
    (backNodes values).head? = some (firstBack values) := by
  cases values <;> rfl

theorem frontNodes_append :
    frontNodes (front ++ back) ++ [.tail] = frontNodes front ++ backNodes back := by
  simp [frontNodes, backNodes]

theorem nodup_frontNodes (nodup : values.Nodup) : (frontNodes values).Nodup := by
  refine nodup_cons.mpr ⟨by simp, nodup.map ?_⟩
  intro first second same
  injection same

theorem nodup_backNodes (nodup : values.Nodup) : (backNodes values).Nodup := by
  refine Nodup.append (nodup.map ?_) (nodup_singleton _) (by simp)
  intro first second same
  injection same

/-- A chain survives link edits away from the links it uses. -/
theorem isChain_congr {links edited : Links Item} {nodes : List (Node Item)}
    (chain : nodes.IsChain (Adjacent links))
    (sameNext : ∀ node ∈ nodes.dropLast, edited.next node = links.next node)
    (samePrev : ∀ node ∈ nodes.tail, edited.prev node = links.prev node) :
    nodes.IsChain (Adjacent edited) := by
  induction nodes with
  | nil => exact .nil
  | cons first rest ih =>
    cases rest with
    | nil => exact .singleton first
    | cons second later =>
      rw [isChain_cons_cons] at chain ⊢
      refine ⟨⟨?_, ?_⟩, ?_⟩
      · rw [sameNext first (by simp)]
        exact chain.1.1
      · rw [samePrev second (by simp)]
        exact chain.1.2
      · refine ih chain.2 ?_ ?_
        · intro node mem
          exact sameNext node (by simp [mem])
        · intro node mem
          exact samePrev node (mem_of_mem_tail mem)

/-- In a list without repetitions the last element is not among the others. -/
theorem ne_of_mem_dropLast {values : List Value} (nodup : values.Nodup) {last value : Value}
    (isLast : values.getLast? = some last) (mem : value ∈ values.dropLast) : value ≠ last := by
  obtain ⟨front, rfl⟩ := getLast?_eq_some_iff.mp isLast
  rw [dropLast_concat] at mem
  rintro rfl
  exact (nodup_append.mp nodup).2.2 value mem value (by simp) rfl

/-- In a list without repetitions the first element is not among the others. -/
theorem ne_of_mem_tail {values : List Value} (nodup : values.Nodup) {first value : Value}
    (isFirst : values.head? = some first) (mem : value ∈ values.tail) : value ≠ first := by
  obtain ⟨rest, rfl⟩ := head?_eq_some_iff.mp isFirst
  rintro rfl
  exact (nodup_cons.mp nodup).1 mem

/--
A list cut in two for editing.

Both halves are chains; the links across the cut are not constrained.
-/
structure Open (links : Links Item) (front back : List Item) : Prop where
  frontChain : (frontNodes front).IsChain (Adjacent links)
  backChain : (backNodes back).IsChain (Adjacent links)
  nodup : (front ++ back).Nodup
  detached :
    ∀ value, value ∉ front ++ back →
      links.next (.item value) = none ∧ links.prev (.item value) = none
  head_prev : links.prev .head = none
  tail_next : links.next .tail = none

section Cut

variable {links : Links Item} {front back : List Item}

/-- A represented list may be cut anywhere. -/
theorem Represents.cut (represents : Represents links (front ++ back)) : Open links front back := by
  have chain := represents.chain
  rw [frontNodes_append, isChain_append] at chain
  exact ⟨chain.1, chain.2.1, represents.nodup, represents.detached,
    represents.head_prev, represents.tail_next⟩

/-- The nodes next to a cut of a represented list are adjacent. -/
theorem Represents.adjacent (represents : Represents links (front ++ back)) :
    Adjacent links (lastFront front) (firstBack back) := by
  have chain := represents.chain
  rw [frontNodes_append, isChain_append] at chain
  exact chain.2.2 _ (getLast?_frontNodes front) _ (head?_backNodes back)

namespace Open

/-- Edits that keep the links inside the front keep its chain. -/
theorem frontChain_congr (cut : Open links front back)
    (sameNext :
      ∀ node ∈ frontNodes front, node ≠ lastFront front → edited.next node = links.next node)
    (samePrev : ∀ value ∈ front, edited.prev (.item value) = links.prev (.item value)) :
    (frontNodes front).IsChain (Adjacent edited) := by
  have nodup := nodup_frontNodes (nodup_append.mp cut.nodup).1
  refine isChain_congr cut.frontChain ?_ ?_
  · intro node mem
    exact sameNext node (dropLast_subset _ mem)
      (ne_of_mem_dropLast nodup (getLast?_frontNodes front) mem)
  · intro node mem
    obtain ⟨value, inFront, rfl⟩ := mem_map.mp (show node ∈ front.map Node.item from mem)
    exact samePrev value inFront

/-- Edits that keep the links inside the back keep its chain. -/
theorem backChain_congr (cut : Open links front back)
    (sameNext : ∀ value ∈ back, edited.next (.item value) = links.next (.item value))
    (samePrev :
      ∀ node ∈ backNodes back, node ≠ firstBack back → edited.prev node = links.prev node) :
    (backNodes back).IsChain (Adjacent edited) := by
  have nodup := nodup_backNodes (nodup_append.mp cut.nodup).2.1
  refine isChain_congr cut.backChain ?_ ?_
  · intro node mem
    rw [backNodes, dropLast_concat] at mem
    obtain ⟨value, inBack, rfl⟩ := mem_map.mp mem
    exact sameNext value inBack
  · intro node mem
    exact samePrev node (mem_of_mem_tail mem) (ne_of_mem_tail nodup (head?_backNodes back) mem)

theorem not_mem_back (cut : Open links front back) (inFront : value ∈ front) : value ∉ back :=
  fun inBack => (nodup_append.mp cut.nodup).2.2 value inFront value inBack rfl

end Open

variable {value : Item}

/-- An item outside a list is not the last of its front nodes. -/
theorem item_ne_lastFront (outside : value ∉ front) : Node.item value ≠ lastFront front := by
  intro same
  have mem := mem_of_getLast? (getLast?_frontNodes front)
  rw [← same] at mem
  simp [outside] at mem

/-- An item outside a list is not the first of its back nodes. -/
theorem item_ne_firstBack (outside : value ∉ back) : Node.item value ≠ firstBack back := by
  intro same
  have mem := mem_of_head? (head?_backNodes back)
  rw [← same] at mem
  simp [outside] at mem

theorem tail_ne_lastFront : .tail ≠ lastFront front := by
  unfold lastFront
  cases front.getLast? <;> simp

theorem head_ne_firstBack : .head ≠ firstBack back := by
  unfold firstBack
  cases back.head? <;> simp

theorem lastFront_concat (front : List Item) (value : Item) :
    lastFront (front ++ [value]) = .item value := by
  simp [lastFront]

variable [DecidableEq Item]

namespace Open

/-- Connecting the two halves restores a represented list. -/
theorem close (cut : Open links front back) :
    Represents (links.connect (lastFront front) (firstBack back))
      (front ++ back) := by
  refine ⟨?_, cut.nodup, ?_, ?_, ?_⟩
  · rw [frontNodes_append, isChain_append, getLast?_frontNodes, head?_backNodes]
    refine ⟨cut.frontChain_congr ?_ ?_, cut.backChain_congr ?_ ?_, ?_⟩
    · intro node _ notLast
      simp [notLast]
    · intro value inFront
      simp [item_ne_firstBack (cut.not_mem_back inFront)]
    · intro value inBack
      have notLast : Node.item value ≠ lastFront front :=
        item_ne_lastFront fun inFront => cut.not_mem_back inFront inBack
      simp [notLast]
    · intro node _ notFirst
      simp [notFirst]
    · rintro left isLeft right isRight
      cases isLeft
      cases isRight
      simp [Adjacent]
  · intro value outside
    have cleared := cut.detached value outside
    simp only [mem_append, not_or] at outside
    simp [item_ne_lastFront outside.1, item_ne_firstBack outside.2, cleared]
  · simp [head_ne_firstBack, cut.head_prev]
  · simp [tail_ne_lastFront, cut.tail_next]

variable {value : Item}

/-- Chaining a fresh item behind the front. -/
theorem extend (cut : Open links front back) (fresh : value ∉ front ++ back) :
    Open (links.connect (lastFront front) (.item value)) (front ++ [value]) back := by
  have notFront : value ∉ front := fun mem => fresh (by simp [mem])
  have notBack : value ∉ back := fun mem => fresh (by simp [mem])
  refine ⟨?_, cut.backChain_congr ?_ ?_, ?_, ?_, ?_, ?_⟩
  · rw [show frontNodes (front ++ [value]) = frontNodes front ++ [.item value] by
      simp [frontNodes], isChain_append, getLast?_frontNodes]
    refine ⟨cut.frontChain_congr ?_ ?_, .singleton _, ?_⟩
    · intro node _ notLast
      simp [notLast]
    · intro other inFront
      have nodup : other ≠ value := fun same => notFront (same ▸ inFront)
      simp [nodup]
    · rintro left isLeft right isRight
      cases isLeft
      cases isRight
      simp [Adjacent]
  · intro other inBack
    have notLast : Node.item other ≠ lastFront front :=
      item_ne_lastFront fun inFront => cut.not_mem_back inFront inBack
    simp [notLast]
  · intro node mem _
    have nodup : node ≠ .item value := by
      rintro rfl
      simp [notBack] at mem
    simp [nodup]
  · rw [append_assoc, singleton_append, nodup_middle]
    exact nodup_cons.mpr ⟨fresh, cut.nodup⟩
  · intro other outside
    simp only [mem_append, mem_singleton, not_or] at outside
    have cleared := cut.detached other (by simp [outside])
    simp [item_ne_lastFront outside.1.1, outside.1.2, cleared]
  · simp [cut.head_prev]
  · simp [tail_ne_lastFront, cut.tail_next]

/-- Clearing the links of the first item behind the cut takes it out. -/
theorem detach (cut : Open links front (value :: back)) :
    Open (links.detach (.item value)) front back := by
  have notFront : value ∉ front := fun inFront => cut.not_mem_back inFront (by simp)
  have parts := nodup_append.mp cut.nodup
  have notBack : value ∉ back := (nodup_cons.mp parts.2.1).1
  refine ⟨cut.frontChain_congr ?_ ?_, ?_, ?_, ?_, ?_, ?_⟩
  · intro node mem _
    have nodup : node ≠ .item value := by
      rintro rfl
      simp [notFront] at mem
    simp [nodup]
  · intro other inFront
    have nodup : other ≠ value := fun same => notFront (same ▸ inFront)
    simp [nodup]
  · have chain : (backNodes back).IsChain (Adjacent links) := cut.backChain.tail
    refine isChain_congr chain ?_ ?_
    · intro node mem
      have nodup : node ≠ .item value := by
        rintro rfl
        have := dropLast_subset _ mem
        simp [notBack] at this
      simp [nodup]
    · intro node mem
      have nodup : node ≠ .item value := by
        rintro rfl
        have := mem_of_mem_tail mem
        simp [notBack] at this
      simp [nodup]
  · exact cut.nodup.sublist (Sublist.append_left (sublist_cons_self value back) front)
  · intro other outside
    simp only [mem_append, not_or] at outside
    by_cases same : other = value
    · simp [same]
    · have cleared := cut.detached other (by simp [outside, same])
      simp [same, cleared]
  · simp [cut.head_prev]
  · simp [cut.tail_next]

/-- Clearing the links of several items behind the cut takes them out. -/
theorem detachAll {values : List Item} (cut : Open links front (values ++ back)) :
    Open (links.detachAll values) front back := by
  induction values generalizing links with
  | nil => exact cut
  | cons value rest ih => exact ih (Open.detach cut)

/-- Chaining several fresh items behind the front. -/
theorem connectRun {values : List Item} (cut : Open links front back) (nodup : values.Nodup)
    (fresh : ∀ value ∈ values, value ∉ front ++ back) :
    Open (links.connectRun (lastFront front) values).1 (front ++ values) back ∧
      (links.connectRun (lastFront front) values).2 = lastFront (front ++ values) := by
  induction values generalizing links front with
  | nil => simpa [Links.connectRun] using cut
  | cons value rest ih =>
    have parts := nodup_cons.mp nodup
    have longer := cut.extend (fresh value (by simp))
    have restFresh : ∀ other ∈ rest, other ∉ (front ++ [value]) ++ back := by
      intro other mem inside
      simp only [mem_append, mem_singleton] at inside
      rcases inside with (inFront | same) | inBack
      · exact fresh other (by simp [mem]) (by simp [inFront])
      · exact parts.1 (same ▸ mem)
      · exact fresh other (by simp [mem]) (by simp [inBack])
    have chained := ih longer parts.2 restFresh
    rw [lastFront_concat, append_assoc] at chained
    exact chained

end Open

/-- Linking an item's neighbours and clearing its links removes it. -/
theorem Represents.remove (represents : Represents links (front ++ value :: back)) :
    Represents
      ((links.connect (lastFront front) (firstBack back)).detach (.item value))
      (front ++ back) := by
  have cut := represents.cut
  have notFront : value ∉ front := fun inFront => cut.not_mem_back inFront (by simp)
  have notBack : value ∉ back := (nodup_cons.mp (nodup_append.mp cut.nodup).2.1).1
  have swap : (links.connect (lastFront front) (firstBack back)).detach (.item value) =
      (links.detach (.item value)).connect (lastFront front) (firstBack back) := by
    have notLast := item_ne_lastFront notFront
    have notFirst := item_ne_firstBack notBack
    simp only [Links.connect, Links.detach, Links.setNext, Links.setPrev, Links.mk.injEq]
    exact ⟨update_comm notLast.symm _ _ _, update_comm notFirst.symm _ _ _⟩
  rw [swap]
  exact cut.detach.close

/-- Inserting fresh items between two neighbours. -/
theorem Represents.insertRun {values : List Item} (represents : Represents links (front ++ back))
    (nodup : values.Nodup) (fresh : ∀ value ∈ values, value ∉ front ++ back) :
    Represents
      ((links.connectRun (lastFront front) values).1.connect
        (links.connectRun (lastFront front) values).2 (firstBack back))
      (front ++ values ++ back) := by
  have chained := represents.cut.connectRun nodup fresh
  rw [chained.2]
  exact chained.1.close

end Cut

end LinkedList

end VllmCore.Lib
