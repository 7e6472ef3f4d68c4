import Mathlib.Data.List.Basic
import Mathlib.Data.List.TakeDrop

namespace VllmCore.Lib

open List

/-!
# Scanning intervals window by window

A producer walks over consecutive token windows and, for each of them, lists
the intervals that reach into it.  The scan resumes at a cursor instead of
starting over: it skips intervals that ended before the window, stops at the
first one that runs past its right edge and stops at the first one that starts
behind it.

The module is generic in the interval type.  Its main results say what one
window lists when every interval left of the cursor has already ended, and that
scanning keeps exactly this property for the next window.
-/

section WindowScan

variable {Item : Type} (lower upper : Item → Nat)

/--
List the intervals reaching into `[start, stop)` among those from the cursor on.

The second component is the cursor for the next window.
-/
def scanWindow (start stop : Nat) :
    List Item → Nat → List Item × Nat
  | [], cursor => ([], cursor)
  | item :: rest, cursor =>
    if lower item < stop then
      if upper item ≤ start then
        scanWindow start stop rest (cursor + 1)
      else if upper item ≤ stop then
        let scanned := scanWindow start stop rest (cursor + 1)
        (item :: scanned.1, scanned.2)
      else
        ([item], cursor)
    else
      ([], cursor)

/-- Every interval left of the cursor ended at or before the given position. -/
def PassedBefore (items : List Item) (cursor position : Nat) : Prop :=
  ∀ item ∈ items.take cursor, upper item ≤ position

/-- An interval reaches into a window. -/
def Overlaps (start stop : Nat) (item : Item) : Prop :=
  lower item < stop ∧ start < upper item

/-- Overlap with a window is decided by comparing its endpoints. -/
instance decidableOverlaps (start stop : Nat) : DecidablePred (Overlaps lower upper start stop) :=
  fun _ => inferInstanceAs (Decidable (_ ∧ _))

variable {lower upper}

/-- A cursor at the front has nothing to its left. -/
theorem passedBefore_zero {items : List Item} {pos : Nat} :
    PassedBefore upper items 0 pos := by
  intro item mem
  simp at mem

variable {items : List Item} {start stop : Nat} {item : Item} {cursor pos : Nat}

/-- Passed intervals stay passed at later positions. -/
theorem PassedBefore.mono (passed : PassedBefore upper items cursor pos)
    (ordered : pos ≤ later) : PassedBefore upper items cursor later :=
  fun item mem => Nat.le_trans (passed item mem) ordered

/-- Moving the cursor over one more ended interval keeps the property. -/
theorem PassedBefore.succ
    (passed : PassedBefore upper items cursor pos) (suffix : items.drop cursor = item :: rest)
    (ended : upper item ≤ pos) : PassedBefore upper items (cursor + 1) pos := by
  intro other mem
  have shape : items.take (cursor + 1) = items.take cursor ++ [item] := by
    have inside : cursor < items.length := by
      by_contra outside
      rw [drop_eq_nil_of_le (Nat.le_of_not_lt outside)] at suffix
      cases suffix
    have head : items[cursor] = item := by
      have := drop_eq_getElem_cons inside
      rw [suffix] at this
      injection this with same
      exact same.symm
    rw [take_succ_eq_append_getElem inside, head]
  rw [shape, mem_append, mem_singleton] at mem
  rcases mem with earlier | same
  · exact passed other earlier
  · subst other
    exact ended

/-- Scanning a window leaves only ended intervals left of the cursor. -/
theorem passedBefore_scanWindow (ordered : start ≤ stop) (cursor : Nat)
    (passed : PassedBefore upper items cursor stop) :
    PassedBefore upper items
      (scanWindow lower upper start stop (items.drop cursor) cursor).2
      stop := by
  generalize suffix : items.drop cursor = remaining
  induction remaining generalizing cursor with
  | nil => exact passed
  | cons item rest ih =>
    have restSuffix : items.drop (cursor + 1) = rest := by rw [← tail_drop, suffix, tail_cons]
    unfold scanWindow
    split
    · split
      case isTrue.isTrue ended =>
        exact ih (cursor + 1) (passed.succ suffix (Nat.le_trans ended ordered)) restSuffix
      case isTrue.isFalse =>
        split
        case isTrue ended => exact ih (cursor + 1) (passed.succ suffix ended) restSuffix
        case isFalse => exact passed
    · exact passed

/--
In a window that no interval outlives, the scan lists exactly the remaining
intervals that have not ended yet.
-/
theorem scanWindow_of_all_end (cursor : Nat) (begins : ∀ item ∈ items, lower item < stop)
    (ends : ∀ item ∈ items, upper item ≤ stop) :
    (scanWindow lower upper start stop items cursor).1 =
      items.filter (fun item => start < upper item) := by
  induction items generalizing cursor with
  | nil => rfl
  | cons item rest ih =>
    have restScan :=
      ih (cursor + 1) (fun other mem => begins other (by simp [mem]))
        (fun other mem => ends other (by simp [mem]))
    have itemBegins := begins item (by simp)
    have itemEnds := ends item (by simp)
    unfold scanWindow
    by_cases ended : upper item ≤ start
    · simp [itemBegins, ended, restScan, Nat.not_lt.mpr ended]
    · simp [itemBegins, ended, itemEnds, restScan, Nat.lt_of_not_le ended]

/-- Intervals that ended before a window are not listed in it. -/
theorem filter_drop_of_take (none : ∀ item ∈ items.take cursor, ¬ keep item) :
    (items.drop cursor).filter keep = items.filter keep := by
  conv_rhs => rw [← take_append_drop cursor items, filter_append, filter_eq_nil_iff.mpr none]
  rw [nil_append]

theorem drop_of_passed (passed : PassedBefore upper items cursor start) :
    (items.drop cursor).filter (fun item => start < upper item) =
      items.filter (fun item => start < upper item) := by
  refine filter_drop_of_take fun item mem => ?_
  simpa using passed item mem

/-- Intervals come in order and no interval starts before an earlier one ended. -/
structure Disjoint (lower upper : Item → Nat) (items : List Item) : Prop where
  ordered : items.Pairwise (fun first second => upper first ≤ lower second)
  proper : ∀ item ∈ items, lower item ≤ upper item

section

variable (disjoint : Disjoint lower upper items)
include disjoint

/-- Dropping a prefix keeps a list of intervals disjoint. -/
theorem Disjoint.drop (count : Nat) : Disjoint lower upper (items.drop count) :=
  ⟨disjoint.ordered.sublist (drop_sublist count items),
    fun item mem => disjoint.proper item (mem_of_mem_drop mem)⟩

/-- The last of several disjoint intervals ends last. -/
theorem Disjoint.upper_le_last (isLast : items.getLast? = some last)
    (mem : item ∈ items) : upper item ≤ upper last := by
  obtain ⟨front, rfl⟩ := getLast?_eq_some_iff.mp isLast
  rw [mem_append, mem_singleton] at mem
  rcases mem with inFront | same
  · have beforeLast :=
      (pairwise_append.mp disjoint.ordered).2.2 item inFront last (by simp)
    exact Nat.le_trans beforeLast (disjoint.proper last (by simp))
  · exact Nat.le_of_eq (congrArg upper same)

/-- A window scan over disjoint intervals lists exactly the overlapping ones. -/
theorem scanWindow_of_disjoint (cursor : Nat) :
    (scanWindow lower upper start stop items cursor).1 =
      items.filter (fun item => Overlaps lower upper start stop item) := by
  induction items generalizing cursor with
  | nil => rfl
  | cons item rest ih =>
    have restScan :=
      ih ⟨disjoint.ordered.of_cons, fun other mem => disjoint.proper other (by simp [mem])⟩
        (cursor + 1)
    have later : ∀ other ∈ rest, upper item ≤ lower other :=
      fun other mem => (pairwise_cons.mp disjoint.ordered).1 other mem
    have itemProper := disjoint.proper item (by simp)
    have noneLater (reached : stop ≤ upper item) :
        rest.filter (fun other => Overlaps lower upper start stop other) = [] := by
      rw [filter_eq_nil_iff]
      intro other mem overlaps
      have := later other mem
      obtain ⟨begins, _⟩ := of_decide_eq_true overlaps
      omega
    unfold scanWindow
    by_cases begins : lower item < stop
    · by_cases ended : upper item ≤ start
      · have misses : ¬ Overlaps lower upper start stop item := by
          simp only [Overlaps]
          omega
        simp [begins, ended, restScan, misses]
      have hits : Overlaps lower upper start stop item := by
        simp only [Overlaps]
        omega
      by_cases fits : upper item ≤ stop
      · simp [begins, ended, fits, restScan, hits]
      · simp [begins, ended, fits, hits, noneLater (by omega)]
    · have misses : ¬ Overlaps lower upper start stop item := by
        simp only [Overlaps]
        omega
      simp [begins, misses, noneLater (by omega)]

end

/-- Intervals left of the cursor have ended, so only later ones can overlap. -/
theorem overlaps_drop_of_passed
    (passed : PassedBefore upper items cursor start) :
    (items.drop cursor).filter (fun item => Overlaps lower upper start stop item) =
      items.filter (fun item => Overlaps lower upper start stop item) := by
  refine filter_drop_of_take fun item mem overlaps => ?_
  have := passed item mem
  obtain ⟨_, reaches⟩ := of_decide_eq_true overlaps
  omega

/-- A scan does not depend on where its cursor starts counting. -/
theorem scanWindow_add (start stop : Nat) (items : List Item) (cursor shift : Nat) :
    scanWindow lower upper start stop items (cursor + shift) =
      ((scanWindow lower upper start stop items cursor).1,
        (scanWindow lower upper start stop items cursor).2 + shift) := by
  induction items generalizing cursor with
  | nil => rfl
  | cons item rest ih =>
    have next := ih (cursor + 1)
    rw [Nat.add_right_comm] at next
    unfold scanWindow
    simp only [next]
    split
    · split
      · rfl
      · split <;> rfl
    · rfl

end WindowScan

end VllmCore.Lib
