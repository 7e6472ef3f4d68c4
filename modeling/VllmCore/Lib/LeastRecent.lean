import Mathlib.Algebra.Order.BigOperators.Group.List
import Mathlib.Algebra.Order.Ring.Nat
import Mathlib.Data.List.Dedup

namespace VllmCore.Lib.LeastRecent

open List

/-!
# Keys in the order of their last use

The oldest key stands first.  Using a key moves it behind all others; using one
that is not there first drops the oldest keys until it fits.  Keys that fit together
and were touched last do not push each other out.
-/

variable {Key : Type} [DecidableEq Key]

/-- How many of the oldest sizes go before another one fits. -/
def numEvicted (capacity size : Nat) : List Nat → Nat
  | [] => 0
  | oldest :: rest =>
    if capacity < (oldest :: rest).sum + size then numEvicted capacity size rest + 1 else 0

def moved (order : List Key) (key : Key) : List Key :=
  order.filter (fun other => other ≠ key) ++ [key]

def touched (order : List Key) (key : Key) : List Key :=
  if key ∈ order then moved order key else order

def used (weight : Key → Nat) (capacity : Nat) (order : List Key) (key : Key) : List Key :=
  if key ∈ order then moved order key
  else order.drop (numEvicted capacity (weight key) (order.map weight)) ++ [key]

/-- The asked keys stand last. -/
def Recent (asked : Key → Prop) (order : List Key) : Prop :=
  ∃ others own, order = others ++ own ∧ (∀ key ∈ own, asked key) ∧ ∀ key ∈ others, ¬asked key

variable {asked : Key → Prop} {order : List Key} {key : Key}

theorem mem_moved : other ∈ moved order key ↔ other ∈ order ∧ other ≠ key ∨ other = key := by
  simp [moved]

omit [DecidableEq Key] in
theorem nodup_append_fresh (nodup : order.Nodup) (fresh : key ∉ order) : (order ++ [key]).Nodup :=
  nodup_append.mpr ⟨nodup, nodup_singleton key, fun _ mem _ isKey same =>
    fresh (mem_singleton.mp isKey ▸ same ▸ mem)⟩

theorem nodup_moved (nodup : order.Nodup) : (moved order key).Nodup :=
  nodup_append_fresh (nodup.filter _) (by simp)

theorem Recent.moved (recent : Recent asked order) (key : Key) :
    Recent (fun other => asked other ∨ other = key) (moved order key) := by
  obtain ⟨others, own, rfl, inside, outside⟩ := recent
  refine ⟨others.filter (fun other => other ≠ key), LeastRecent.moved own key, ?_, ?_, ?_⟩
  · simp [LeastRecent.moved]
  · exact fun other mem => (mem_moved.mp mem).imp (fun old => inside other old.1) id
  · intro other mem
    obtain ⟨old, different⟩ := mem_filter.mp mem
    exact not_or.mpr ⟨outside other old, of_decide_eq_true different⟩

theorem Recent.touched (recent : Recent asked order) (key : Key) :
    Recent (fun other => asked other ∨ other = key) (touched order key) := by
  unfold LeastRecent.touched
  split
  · exact recent.moved key
  rename_i absent
  obtain ⟨others, own, rfl, inside, outside⟩ := recent
  refine ⟨others, own, rfl, fun other mem => .inl (inside other mem), ?_⟩
  rintro other mem (isAsked | rfl)
  · exact outside other mem isAsked
  · exact absent (mem_append_left _ mem)

/-- Touching keys brings them to the end and keeps all. -/
theorem touchedAll {keys : List Key} (recent : Recent asked order) (nodup : order.Nodup) :
    Recent (fun other => asked other ∨ other ∈ keys) (keys.foldl touched order) ∧
      (keys.foldl touched order).Nodup ∧
      ∀ other, other ∈ keys.foldl touched order ↔ other ∈ order := by
  induction keys generalizing order asked with
  | nil => simpa using ⟨recent, nodup⟩
  | cons key rest ih =>
    have still : (touched order key).Nodup := by
      unfold touched
      split
      · exact nodup_moved nodup
      · exact nodup
    have same (other : Key) : other ∈ touched order key ↔ other ∈ order := by
      unfold touched
      split
      · next here =>
        rw [mem_moved]
        by_cases isKey : other = key <;> simp [isKey, here]
      · rfl
    obtain ⟨ends, final, kept⟩ := ih (recent.touched key) still
    refine ⟨?_, final, fun other => (kept other).trans (same other)⟩
    simpa only [foldl_cons, mem_cons, or_assoc] using ends

variable {capacity : Nat}

/-- What stands last and fits with the new size stays. -/
theorem numEvicted_le (others own : List Nat) (fits : own.sum + size ≤ capacity) :
    numEvicted capacity size (others ++ own) ≤ others.length := by
  induction others with
  | nil =>
    cases own with
    | nil => exact le_refl 0
    | cons first rest =>
      rw [nil_append, numEvicted, if_neg (Nat.not_lt.mpr fits)]
      exact le_refl 0
  | cons first rest ih =>
    rw [cons_append, numEvicted]
    split
    · exact Nat.succ_le_succ ih
    · exact Nat.zero_le _

/-- One use keeps the keys that are used together. -/
theorem used_keeps {keys : List Key} (nodup : order.Nodup)
    (recent : Recent (· ∈ keys) order) (fits : (keys.dedup.map weight).sum ≤ capacity)
    (isAsked : key ∈ keys) :
    (used weight capacity order key).Nodup ∧ Recent (· ∈ keys) (used weight capacity order key) ∧
      ∀ other ∈ keys, other ∈ order → other ∈ used weight capacity order key := by
  unfold used
  split
  · refine ⟨nodup_moved nodup, ?_, fun other _ here => ?_⟩
    · have same : (fun other => other ∈ keys ∨ other = key) = (· ∈ keys) :=
        funext fun _ => propext (or_iff_left_of_imp fun isKey => isKey ▸ isAsked)
      exact same ▸ recent.moved key
    · rw [mem_moved]
      exact (em (other = key)).symm.imp (fun different => ⟨here, different⟩) id
  · next absent =>
    obtain ⟨others, own, rfl, inside, outside⟩ := recent
    have asks : ∀ other ∈ own ++ [key], other ∈ keys := by
      intro other mem
      rcases mem_append.mp mem with old | new
      · exact inside other old
      · exact mem_singleton.mp new ▸ isAsked
    have together : (own.map weight).sum + weight key ≤ capacity := by
      have distinctOwn : (own ++ [key]).Nodup :=
        nodup_append_fresh (nodup_append.mp nodup).2.1 fun mem => absent (mem_append_right _ mem)
      obtain ⟨listed, perm, sublist⟩ :=
        subperm_of_subset distinctOwn fun other mem => mem_dedup.mpr (asks other mem)
      calc (own.map weight).sum + weight key = ((own ++ [key]).map weight).sum := by simp
        _ = (listed.map weight).sum := (perm.map weight).sum_eq.symm
        _ ≤ (keys.dedup.map weight).sum := (sublist.map weight).sum_le_sum (by simp)
        _ ≤ capacity := fits
    have few := numEvicted_le (others.map weight) (own.map weight) together
    rw [length_map, ← map_append] at few
    refine ⟨nodup_append_fresh (nodup.sublist (drop_sublist _ _)) fun mem =>
      absent (mem_of_mem_drop mem), ?_, ?_⟩ <;>
      rw [drop_append_of_le_length few]
    · exact ⟨_, own ++ [key], append_assoc _ _ _, asks,
        fun other mem => outside other (mem_of_mem_drop mem)⟩
    intro other wanted here
    have isOwn : other ∈ own :=
      (mem_append.mp here).resolve_left fun isOther => outside other isOther wanted
    exact mem_append_left _ (mem_append_right _ isOwn)

end VllmCore.Lib.LeastRecent
