import Mathlib.Data.List.Flatten
import Mathlib.Data.List.Nodup
import Mathlib.Data.List.Perm.Basic

namespace VllmCore.Lib

open List

/-!
# Dictionaries in insertion order

A dictionary lists its entries in the order their keys were first inserted;
setting a key again keeps its place.  Two rules carry most proofs: what a lookup
finds after an update, and the entries of an update as the entry of the key in
front of the entries of all other keys.
-/

/-- A dictionary: its entries, no key twice. -/
@[ext]
structure Dict (Key Value : Type) where
  entries : List (Key × Value)
  distinct : (entries.map Prod.fst).Nodup

namespace Dict

variable {Key Value : Type}

def empty : Dict Key Value where
  entries := []
  distinct := nodup_nil

instance : Inhabited (Dict Key Value) :=
  ⟨empty⟩

/-- The number of entries. -/
def size (dict : Dict Key Value) : Nat :=
  dict.entries.length

def keys (dict : Dict Key Value) : List Key :=
  dict.entries.map Prod.fst

def values (dict : Dict Key Value) : List Value :=
  dict.entries.map Prod.snd

/-- The dictionary without its oldest entries. -/
def dropFirst (dict : Dict Key Value) (number : Nat) : Dict Key Value where
  entries := dict.entries.drop number
  distinct := dict.distinct.sublist ((drop_sublist number _).map Prod.fst)

variable [DecidableEq Key]

def get? (dict : Dict Key Value) (key : Key) : Option Value :=
  (dict.entries.find? fun entry => entry.1 = key).map Prod.snd

def getD (dict : Dict Key Value) (key : Key) (default : Value) : Value :=
  (dict.get? key).getD default

def contains (dict : Dict Key Value) (key : Key) : Bool :=
  (dict.get? key).isSome

/-- Overwrite the entry of a key in place, or append one. -/
def setEntry (key : Key) (value : Value) : List (Key × Value) → List (Key × Value)
  | [] => [(key, value)]
  | entry :: rest =>
    if entry.1 = key then
      (key, value) :: rest
    else
      entry :: setEntry key value rest

theorem keys_setEntry {key : Key} {value : Value} {entries : List (Key × Value)} :
    (setEntry key value entries).map Prod.fst =
      if key ∈ entries.map Prod.fst then
        entries.map Prod.fst
      else
        entries.map Prod.fst ++ [key] := by
  induction entries with
  | nil => rfl
  | cons entry rest ih =>
    unfold setEntry
    by_cases same : entry.1 = key
    · simp [same]
    · rw [if_neg same, map_cons, ih]
      simp only [map_cons, mem_cons, Ne.symm same, false_or]
      split <;> rfl

def set (dict : Dict Key Value) (key : Key) (value : Value) : Dict Key Value where
  entries := setEntry key value dict.entries
  distinct := by
    rw [keys_setEntry]
    split
    · exact dict.distinct
    rename_i fresh
    rw [nodup_append]
    refine ⟨dict.distinct, nodup_singleton key, ?_⟩
    intro old member new isNew same
    rw [mem_singleton] at isNew
    subst same isNew
    exact fresh member

/-- The dictionary without a key. -/
def erase (dict : Dict Key Value) (key : Key) : Dict Key Value where
  entries := dict.entries.filter fun entry => entry.1 ≠ key
  distinct := dict.distinct.sublist (filter_sublist.map Prod.fst)

/-- The dictionary with a key moved behind all others. -/
def moveToEnd (dict : Dict Key Value) (key : Key) : Dict Key Value :=
  match dict.get? key with
  | some value => (dict.erase key).set key value
  | none => dict

/-- The dictionary without some keys. -/
def eraseAll (dict : Dict Key Value) (keys : List Key) : Dict Key Value :=
  keys.foldl erase dict

/-- Whether a lookup found something that passes a test. -/
instance decidableFound {Holds : Value → Prop} [DecidablePred Holds] :
    (found : Option Value) → Decidable (∃ value, found = some value ∧ Holds value)
  | none => .isFalse (by simp)
  | some value => decidable_of_iff (Holds value) (by simp)

instance decidableKnown : (found : Option Value) → Decidable (∃ value, found = some value)
  | none => .isFalse (by simp)
  | some value => .isTrue ⟨value, rfl⟩

@[simp]
theorem get?_empty {key : Key} : (empty : Dict Key Value).get? key = none :=
  rfl

theorem get?_eq_some_iff {dict : Dict Key Value} {key : Key} {value : Value} :
    dict.get? key = some value ↔ (key, value) ∈ dict.entries := by
  obtain ⟨entries, nodup⟩ := dict
  simp only [get?]
  induction entries with
  | nil => simp
  | cons entry rest ih =>
    rw [map_cons, nodup_cons] at nodup
    rw [find?_cons]
    by_cases same : entry.1 = key
    · subst same
      have fresh : (entry.1, value) ∉ rest :=
        fun mem => nodup.1 (mem_map.mpr ⟨_, mem, rfl⟩)
      simp [fresh, Prod.ext_iff, eq_comm]
    · have other : (key, value) ≠ entry := fun equal => same (equal ▸ rfl)
      simp only [decide_eq_false same, ih nodup.2]
      simp [other]

theorem get?_eq_none_iff {dict : Dict Key Value} {key : Key} :
    dict.get? key = none ↔ key ∉ dict.keys := by
  simp only [get?, keys, Option.map_eq_none_iff, find?_eq_none, mem_map, decide_eq_true_eq]
  constructor
  · rintro absent ⟨entry, mem, same⟩
    exact absent entry mem same
  · intro absent entry mem same
    exact absent ⟨entry, mem, same⟩

section

variable (dict : Dict Key Value)

theorem get?_set {key other : Key} {value : Value} :
    (dict.set key value).get? other =
      if other = key then some value else dict.get? other := by
  obtain ⟨entries, nodup⟩ := dict
  simp only [get?, set]
  clear nodup
  induction entries with
  | nil =>
    by_cases same : other = key
    · simp [setEntry, same]
    · simp [setEntry, same, Ne.symm same]
  | cons entry rest ih =>
    unfold setEntry
    by_cases here : entry.1 = key
    · subst here
      by_cases same : other = entry.1
      · simp [same]
      · simp [same, Ne.symm same]
    rw [if_neg here, find?_cons, find?_cons]
    by_cases found : entry.1 = other
    · have distinctKeys : ¬ other = key := fun equal => here (found.trans equal)
      simp [found, distinctKeys]
    · simp only [decide_eq_false found]
      exact ih

@[simp]
theorem get?_set_self {key : Key} {value : Value} : (dict.set key value).get? key = some value := by
  rw [get?_set, if_pos rfl]

theorem get?_erase {key other : Key} :
    (dict.erase key).get? other = if other = key then none else dict.get? other := by
  by_cases same : other = key
  · rw [if_pos same, get?_eq_none_iff]
    subst same
    simp [keys, erase]
  rw [if_neg same]
  apply Option.ext
  intro value
  rw [get?_eq_some_iff, get?_eq_some_iff, erase]
  simp [same]

end

theorem get?_erase_eq_some {dict : Dict Key Value} {key other : Key} {value : Value} :
    (dict.erase key).get? other = some value ↔ other ≠ key ∧ dict.get? other = some value := by
  rw [get?_erase]
  by_cases same : other = key <;> simp [same]

section

variable (dict : Dict Key Value)
include dict

theorem get?_eraseAll (keys : List Key) (other : Key) :
    (dict.eraseAll keys).get? other =
      if other ∈ keys then none else dict.get? other := by
  unfold eraseAll
  induction keys generalizing dict with
  | nil => simp
  | cons key rest ih =>
    rw [foldl_cons, ih, get?_erase]
    by_cases later : other ∈ rest
    · simp [later]
    · by_cases same : other = key <;> simp [later, same]

section

variable (key other : Key)

theorem getD_set (value default : Value) :
    (dict.set key value).getD other default =
      if other = key then value else dict.getD other default := by
  rw [getD, get?_set]
  split <;> rfl

theorem getD_erase (default : Value) :
    (dict.erase key).getD other default =
      if other = key then default else dict.getD other default := by
  rw [getD, get?_erase]
  split <;> rfl

@[simp]
theorem contains_set (value : Value) :
    (dict.set key value).contains other = (decide (other = key) || dict.contains other) := by
  rw [contains, get?_set]
  by_cases same : other = key <;> simp [same, contains]

@[simp]
theorem contains_erase :
    (dict.erase key).contains other = (!decide (other = key) && dict.contains other) := by
  rw [contains, get?_erase]
  by_cases same : other = key <;> simp [same, contains]

end

end

variable {dict : Dict Key Value} {key : Key} {value : Value}

theorem contains_iff_mem_keys : dict.contains key = true ↔ key ∈ dict.keys := by
  unfold contains
  rw [← not_iff_not, ← get?_eq_none_iff, Bool.not_eq_true, Option.isSome_eq_false_iff,
    Option.isNone_iff_eq_none]

theorem entries_eq_nil_iff : dict.entries = [] ↔ ∀ key, dict.get? key = none := by
  simp only [get?_eq_none_iff, keys]
  constructor
  · intro none key
    rw [none]
    exact not_mem_nil
  · intro absent
    rw [← map_eq_nil_iff (f := Prod.fst), eq_nil_iff_forall_not_mem]
    exact absent

theorem entries_set_of_fresh (value : Value)
    (fresh : key ∉ dict.keys) : (dict.set key value).entries = dict.entries ++ [(key, value)] := by
  obtain ⟨entries, nodup⟩ := dict
  simp only [set, keys] at fresh ⊢
  clear nodup
  induction entries with
  | nil => rfl
  | cons entry rest ih =>
    rw [map_cons, mem_cons, not_or] at fresh
    rw [setEntry, if_neg (Ne.symm fresh.1), ih fresh.2]
    rfl

/-- A set dictionary lists the new entry and those of the other keys. -/
theorem entries_set_perm (dict : Dict Key Value) (key : Key) (value : Value) :
    (dict.set key value).entries.Perm ((key, value) :: (dict.erase key).entries) := by
  obtain ⟨entries, nodup⟩ := dict
  simp only [set, erase]
  induction entries with
  | nil => exact .refl _
  | cons entry rest ih =>
    rw [map_cons, nodup_cons] at nodup
    unfold setEntry
    by_cases here : entry.1 = key
    · have others : rest.filter (fun other => other.1 ≠ key) = rest := by
        rw [filter_eq_self]
        intro other mem
        have differs : other.1 ≠ key :=
          fun equal => nodup.1 (here ▸ equal ▸ mem_map_of_mem mem)
        simpa using differs
      rw [if_pos here, filter_cons_of_neg (by simpa using here), others]
    · rw [if_neg here, filter_cons_of_pos (by simpa using here)]
      exact ((ih nodup.2).cons entry).trans (Perm.swap _ _ _)

/-- Without a key the other entries remain. -/
theorem entries_perm_of_get? (found : dict.get? key = some value) :
    dict.entries.Perm ((key, value) :: (dict.erase key).entries) := by
  have unchanged : dict.set key value = dict := by
    obtain ⟨entries, nodup⟩ := dict
    have mem := get?_eq_some_iff.mp found
    simp only [set, mk.injEq]
    clear found
    induction entries with
    | nil => cases mem
    | cons entry rest ih =>
      rw [map_cons, nodup_cons] at nodup
      unfold setEntry
      rcases mem_cons.mp mem with here | later
      · rw [← here, if_pos rfl]
      · have differs : entry.1 ≠ key :=
          fun equal => nodup.1 (equal ▸ mem_map_of_mem later)
        rw [if_neg differs, ih nodup.2 later]
  have listed := dict.entries_set_perm key value
  rwa [unchanged] at listed

/-- Moving a key changes only the order of the entries. -/
theorem entries_moveToEnd_perm (dict : Dict Key Value) (key : Key) :
    (dict.moveToEnd key).entries.Perm dict.entries := by
  unfold moveToEnd
  cases found : dict.get? key with
  | none => exact .refl _
  | some value =>
    have alone : (dict.erase key).erase key = dict.erase key := by simp [erase]
    have moved := (dict.erase key).entries_set_perm key value
    rw [alone] at moved
    exact moved.trans (entries_perm_of_get? found).symm

@[simp]
theorem get?_moveToEnd {key other : Key} : (dict.moveToEnd key).get? other = dict.get? other := by
  apply Option.ext
  intro value
  rw [get?_eq_some_iff, get?_eq_some_iff, (dict.entries_moveToEnd_perm key).mem_iff]

theorem erase_eq_self_of_get? (absent : dict.get? key = none) : dict.erase key = dict := by
  obtain ⟨entries, nodup⟩ := dict
  rw [get?_eq_none_iff] at absent
  simp only [erase, mk.injEq, filter_eq_self]
  intro entry mem
  have differs : entry.1 ≠ key := fun equal => absent (equal ▸ mem_map_of_mem mem)
  simpa using differs

/-- Entries taken out of a dictionary and those that remain. -/
theorem entries_perm_eraseAll
    (nodup : (taken.map Prod.fst).Nodup)
    (found : ∀ entry ∈ taken, dict.get? entry.1 = some entry.2) :
    dict.entries.Perm (taken ++ (dict.eraseAll (taken.map Prod.fst)).entries) := by
  induction taken generalizing dict with
  | nil => exact .refl _
  | cons entry rest ih =>
    rw [map_cons, nodup_cons] at nodup
    have later : ∀ other ∈ rest, (dict.erase entry.1).get? other.1 = some other.2 := by
      intro other mem
      have differs : other.1 ≠ entry.1 := fun equal => nodup.1 (equal ▸ mem_map_of_mem mem)
      rw [get?_erase, if_neg differs]
      exact found other (mem_cons_of_mem _ mem)
    refine (entries_perm_of_get? (found entry mem_cons_self)).trans ?_
    exact (ih nodup.2 later).cons entry

/-! ## Lists as values -/

variable {Item : Type}

/-- What a function lists for the values. -/
def flat (list : Value → List Item) (dict : Dict Key Value) : List Item :=
  dict.values.flatMap list

theorem flat_perm_erase (dict : Dict Key Value) (key : Key) (list : Value → List Item) :
    (dict.flat list).Perm
      ((dict.get? key).elim [] list ++ (dict.erase key).flat list) := by
  cases found : dict.get? key with
  | none =>
    rw [erase_eq_self_of_get? found]
    exact .refl _
  | some value => exact ((entries_perm_of_get? found).map Prod.snd).flatMap_right list

/-- A part of a dictionary lists a part. -/
theorem flat_subperm {part dict : Dict Key Value}
    (within : ∀ key value, part.get? key = some value → dict.get? key = some value)
    (list : Value → List Item) : (part.flat list).Subperm (dict.flat list) := by
  have subset : part.entries ⊆ dict.entries := by
    rintro ⟨key, value⟩ mem
    exact get?_eq_some_iff.mp (within key value (get?_eq_some_iff.mpr mem))
  obtain ⟨entries, reordered, sublist⟩ := subperm_of_subset (Nodup.of_map _ part.distinct) subset
  exact ⟨(entries.map Prod.snd).flatMap list, (reordered.map Prod.snd).flatMap_right list,
    (sublist.map Prod.snd).flatMap list⟩

/-- Setting a value that lists something more. -/
theorem flat_set_perm
    (grows : (list value).Perm (extra ++ (dict.get? key).elim [] list)) :
    ((dict.set key value).flat list).Perm (extra ++ dict.flat list) := by
  have listed := ((dict.entries_set_perm key value).map Prod.snd).flatMap_right list
  refine listed.trans ((grows.append_right _).trans ?_)
  rw [append_assoc]
  exact (dict.flat_perm_erase key list).symm.append_left extra

/-- The items listed under all keys. -/
def items (dict : Dict Key (List Item)) : List Item :=
  dict.values.flatten

theorem items_set_perm (dict : Dict Key (List Item)) (key : Key) (listed : List Item) :
    (dict.set key listed).items.Perm (listed ++ (dict.erase key).items) :=
  ((dict.entries_set_perm key listed).map Prod.snd).flatten

/-- The items under one key and those under the others. -/
theorem items_perm (dict : Dict Key (List Item)) (key : Key) :
    dict.items.Perm (dict.getD key [] ++ (dict.erase key).items) := by
  cases found : dict.get? key with
  | none =>
    rw [getD, found, erase_eq_self_of_get? found]
    exact .refl _
  | some listed =>
    rw [getD, found]
    exact ((entries_perm_of_get? found).map Prod.snd).flatten

end Dict

end VllmCore.Lib
