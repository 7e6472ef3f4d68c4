import Mathlib.Algebra.Order.BigOperators.Group.List
import Mathlib.Algebra.Order.Ring.Nat
import Mathlib.Data.List.Infix

namespace VllmCore.Lib

open List

/-!
# Where a pattern occurs in a text that is put together from pieces

A pattern is looked for in a text assembled from separators, texts of interest
and other texts.  When no occurrence can touch a separator, the occurrences of
the whole are those of the runs of texts between separators.
-/

variable {Symbol : Type} [DecidableEq Symbol]

/-- Positions at which the pattern starts, in increasing order. -/
def places (pattern : List Symbol) : List Symbol → List Nat
  | [] => []
  | symbol :: rest =>
    if pattern.isPrefixOf (symbol :: rest) then
      0 :: (places pattern rest).map (· + 1)
    else
      (places pattern rest).map (· + 1)

/-- How often the pattern occurs. -/
def occurrences (pattern text : List Symbol) : Nat :=
  (places pattern text).length

/-- Replace the occurrences from left to right, skipping what a match has used. -/
def replaceFrom (pattern replacement : List Symbol) : Nat → List Symbol → List Symbol
  | _, [] => []
  | skip + 1, _ :: rest => replaceFrom pattern replacement skip rest
  | 0, symbol :: rest =>
    if pattern.isPrefixOf (symbol :: rest) then
      replacement ++ replaceFrom pattern replacement (pattern.length - 1) rest
    else
      symbol :: replaceFrom pattern replacement 0 rest

/-- Replace every occurrence that does not overlap an earlier one. -/
def replaceAll (pattern replacement text : List Symbol) : List Symbol :=
  replaceFrom pattern replacement 0 text

section Places

variable {pattern : List Symbol} {text : List Symbol}

theorem places_eq_nil_iff (nonempty : pattern ≠ []) :
    places pattern text = [] ↔ ¬ pattern <:+: text := by
  induction text with
  | nil => simp [places, nonempty]
  | cons symbol rest ih =>
    rw [infix_cons_iff]
    by_cases starts : pattern <+: symbol :: rest
    · simp [places, starts]
    · simp [places, starts, ih]

theorem occurrences_eq_zero_iff (nonempty : pattern ≠ []) :
    occurrences pattern text = 0 ↔ ¬ pattern <:+: text := by
  rw [occurrences, length_eq_zero_iff, places_eq_nil_iff nonempty]

/-- No occurrence starts in the first text and ends in the second. -/
def Divided (pattern first second : List Symbol) : Prop :=
  ∀ start, start <:+ first → start ≠ [] → pattern <+: start ++ second → pattern <+: start

variable {first second : List Symbol}

omit [DecidableEq Symbol] in
theorem Divided.tail (divided : Divided pattern (symbol :: first) second) :
    Divided pattern first second := by
  intro start isSuffix
  exact divided start (isSuffix.trans (suffix_cons symbol first))

/-- The occurrences in two divided texts are those in each of them. -/
theorem places_append (divided : Divided pattern first second) :
    places pattern (first ++ second) =
      places pattern first ++ (places pattern second).map (· + first.length) := by
  induction first with
  | nil => simp [places]
  | cons symbol rest ih =>
    have same : pattern.isPrefixOf (symbol :: (rest ++ second)) =
        pattern.isPrefixOf (symbol :: rest) := by
      rw [Bool.eq_iff_iff, isPrefixOf_iff_prefix, isPrefixOf_iff_prefix]
      constructor
      · exact divided (symbol :: rest) suffix_rfl (by simp)
      · intro starts
        exact starts.trans (prefix_append (symbol :: rest) second)
    have later := ih divided.tail
    simp only [cons_append, places, same, later, map_append, map_map]
    split <;> rfl

theorem occurrences_append (divided : Divided pattern first second) :
    occurrences pattern (first ++ second) =
      occurrences pattern first + occurrences pattern second := by
  simp [occurrences, places_append divided]

/-- The occurrences inside two texts are among those of the whole. -/
theorem places_append_sublist :
    (places pattern first ++ (places pattern second).map (· + first.length)).Sublist
      (places pattern (first ++ second)) := by
  induction first with
  | nil => simp [places]
  | cons symbol rest ih =>
    have later := ih.map (· + 1)
    simp only [cons_append, places]
    by_cases starts : pattern <+: symbol :: rest
    · have whole : pattern <+: symbol :: (rest ++ second) :=
        starts.trans (prefix_append (symbol :: rest) second)
      simpa [starts, whole] using later
    · by_cases whole : pattern <+: symbol :: (rest ++ second)
      · simpa [starts, whole] using later.cons 0
      · simpa [starts, whole] using later

theorem occurrences_le_append :
    occurrences pattern first + occurrences pattern second ≤
      occurrences pattern (first ++ second) := by
  simpa [occurrences] using (places_append_sublist : Sublist _ (places pattern _)).length_le

end Places

/-! ## Separators -/

/-- A text no occurrence of the pattern can touch, whatever surrounds it. -/
structure Separates (pattern separator : List Symbol) : Prop where
  head : ∀ symbol, separator.head? = some symbol → symbol ∉ pattern.tail
  last : ∀ symbol, separator.getLast? = some symbol → symbol ∉ pattern.dropLast
  nonempty : separator ≠ []
  absent : ¬ pattern <:+: separator

/-- A check for separators that can be run. -/
def separatesBy (pattern separator : List Symbol) : Bool :=
  separator.head?.any (fun symbol => !pattern.tail.contains symbol) &&
    separator.getLast?.any (fun symbol => !pattern.dropLast.contains symbol) &&
    (places pattern separator).isEmpty

section Separators

variable {pattern : List Symbol}

variable {first second : List Symbol} {separator : List Symbol}

theorem separates_of_check (present : pattern ≠ [])
    (checked : separatesBy pattern separator = true) : Separates pattern separator := by
  simp only [separatesBy, Bool.and_eq_true, Option.any_eq_true, Bool.not_eq_true',
    List.contains_eq_mem, decide_eq_false_iff_not, List.isEmpty_iff] at checked
  obtain ⟨⟨⟨head, isHead, headForeign⟩, last, isLast, lastForeign⟩, absent⟩ := checked
  constructor
  · intro symbol found
    rw [isHead] at found
    cases found
    exact headForeign
  · intro symbol found
    rw [isLast] at found
    cases found
    exact lastForeign
  · rintro rfl
    cases isHead
  · exact (places_eq_nil_iff present).mp absent

omit [DecidableEq Symbol] in
/-- A prefix of two texts lies in the first one or uses it up. -/
theorem starts_append (starts : pattern <+: start ++ second) :
    pattern <+: start ∨ ∃ symbol rest after,
      pattern = start ++ symbol :: rest ∧ second = symbol :: after := by
  obtain ⟨after, split⟩ := starts
  rcases append_eq_append_iff.mp split with ⟨more, inside, _⟩ | ⟨more, cut, left⟩
  · exact .inl ⟨more, inside.symm⟩
  · cases more with
    | nil => exact .inl (by rw [cut, append_nil])
    | cons symbol rest => exact .inr ⟨symbol, rest, rest ++ after, cut, left⟩

omit [DecidableEq Symbol] in
/-- A cut pattern continues with a symbol of its tail. -/
theorem divided_of_head (foreign : ∀ symbol, second.head? = some symbol → symbol ∉ pattern.tail) :
    Divided pattern first second := by
  intro start _ nonempty starts
  rcases starts_append starts with inside | ⟨symbol, rest, after, cut, continues⟩
  · exact inside
  have mem : symbol ∈ pattern.tail := by
    obtain ⟨head, tail, isCons⟩ := exists_cons_of_ne_nil nonempty
    simp [cut, isCons]
  exact absurd mem (foreign symbol (by simp [continues]))

omit [DecidableEq Symbol] in
/-- A cut pattern is left behind a symbol before its end. -/
theorem divided_of_last
    (foreign : ∀ symbol, first.getLast? = some symbol → symbol ∉ pattern.dropLast) :
    Divided pattern first second := by
  intro start isSuffix nonempty starts
  rcases starts_append starts with inside | ⟨symbol, rest, after, cut, _⟩
  · exact inside
  obtain ⟨last, found⟩ := Option.isSome_iff_exists.mp (getLast?_isSome.mpr nonempty)
  have whole : first.getLast? = some last := by
    obtain ⟨before, split⟩ := isSuffix
    rw [← split, getLast?_append, found, Option.some_or]
  have mem : last ∈ pattern.dropLast := by
    rw [cut, dropLast_append_of_ne_nil (by simp)]
    exact mem_append_left _ (mem_of_getLast? found)
  exact absurd mem (foreign last whole)

/-- A separator contributes no occurrence and cuts none. -/
theorem Separates.occurrences_append (separates : Separates pattern separator)
    (present : pattern ≠ []) (after : List Symbol) :
    occurrences pattern (separator ++ after) = occurrences pattern after := by
  rw [Lib.occurrences_append (divided_of_last separates.last),
    (occurrences_eq_zero_iff present).mpr separates.absent, zero_add]

omit [DecidableEq Symbol] in
theorem Separates.divided (separates : Separates pattern separator) (before after : List Symbol) :
    Divided pattern before (separator ++ after) := by
  apply divided_of_head
  intro symbol isHead
  apply separates.head symbol
  rwa [head?_append_of_ne_nil _ separates.nonempty] at isHead

theorem Separates.append (present : pattern ≠ []) (before : Separates pattern first)
    (after : Separates pattern second) : Separates pattern (first ++ second) := by
  constructor
  · intro symbol isHead
    rw [head?_append_of_ne_nil _ before.nonempty] at isHead
    exact before.head symbol isHead
  · intro symbol isLast
    rw [getLast?_append_of_ne_nil _ after.nonempty] at isLast
    exact after.last symbol isLast
  · exact append_ne_nil_of_left_ne_nil before.nonempty second
  · rw [← occurrences_eq_zero_iff present, before.occurrences_append present,
      occurrences_eq_zero_iff present]
    exact after.absent

theorem Separates.flatten (present : pattern ≠ [])
    (before : Separates pattern first) (after : ∀ text ∈ others, Separates pattern text) :
    Separates pattern (first :: others).flatten := by
  induction others generalizing first with
  | nil => simpa using before
  | cons second rest ih =>
    refine before.append present (ih ?_ ?_)
    · exact after second mem_cons_self
    · intro text mem
      exact after text (mem_cons_of_mem _ mem)

end Separators

/-! ## Texts laid out between separators -/

/-- One piece of an assembled text. -/
inductive Piece (Symbol : Type) where
  | gap
  | own (text : List Symbol)
  | stray (text : List Symbol)
  deriving Repr, DecidableEq

/-- The symbols a piece puts into the text itself. -/
def Piece.text : Piece Symbol → List Symbol
  | .gap => []
  | .own text => text
  | .stray text => text

/-- The text of interest in a piece. -/
def Piece.owned? : Piece Symbol → Option (List Symbol)
  | .own text => some text
  | _ => none

/-- The texts of interest, in order. -/
def ownedTexts (pieces : List (Piece Symbol)) : List (List Symbol) :=
  pieces.filterMap Piece.owned?

/-- A text assembled from the pieces, with some separator for each gap. -/
inductive Lays (pattern : List Symbol) : List (Piece Symbol) → List Symbol → Prop
  | done : Lays pattern [] []
  | gap {separator text : List Symbol} {pieces : List (Piece Symbol)} :
    Separates pattern separator →
    Lays pattern pieces text →
    Lays pattern (.gap :: pieces) (separator ++ text)
  | own {text : List Symbol} {pieces : List (Piece Symbol)} (owned : List Symbol) :
    Lays pattern pieces text →
    Lays pattern (.own owned :: pieces) (owned ++ text)
  | stray {text : List Symbol} {pieces : List (Piece Symbol)} (other : List Symbol) :
    Lays pattern pieces text →
    Lays pattern (.stray other :: pieces) (other ++ text)

/-- The run of pieces before the first gap, and the runs after it. -/
def splitRuns : List (Piece Symbol) → List (Piece Symbol) × List (List (Piece Symbol))
  | [] => ([], [])
  | .gap :: pieces => ([], (splitRuns pieces).1 :: (splitRuns pieces).2)
  | piece :: pieces => (piece :: (splitRuns pieces).1, (splitRuns pieces).2)

/-- The maximal runs of pieces between gaps. -/
def runs (pieces : List (Piece Symbol)) : List (List (Piece Symbol)) :=
  (splitRuns pieces).1 :: (splitRuns pieces).2

/-- The text a run puts together. -/
def runText (run : List (Piece Symbol)) : List Symbol :=
  run.flatMap Piece.text

/-- How often the pattern occurs inside texts of interest. -/
def ownedOccurrences (pattern : List Symbol) (pieces : List (Piece Symbol)) : Nat :=
  ((ownedTexts pieces).map (occurrences pattern)).sum

/-- Every run holds the occurrences of its texts of interest and no others. -/
def Clean (pattern : List Symbol) (pieces : List (Piece Symbol)) : Prop :=
  ∀ run ∈ runs pieces, occurrences pattern (runText run) = ownedOccurrences pattern run

instance (pattern : List Symbol) (pieces : List (Piece Symbol)) :
    Decidable (Clean pattern pieces) :=
  inferInstanceAs (Decidable (∀ run ∈ runs pieces, _))

section Layout

variable {pattern : List Symbol}

section Assembly

omit [DecidableEq Symbol]

theorem Lays.append {before after : List Symbol}
    (laid : Lays pattern first before) (next : Lays pattern second after) :
    Lays pattern (first ++ second) (before ++ after) := by
  induction laid with
  | done => exact next
  | gap separates _ ih =>
    rw [append_assoc]
    exact .gap separates ih
  | own owned _ ih =>
    rw [append_assoc]
    exact .own owned ih
  | stray other _ ih =>
    rw [append_assoc]
    exact .stray other ih

variable {separator : List Symbol}

theorem Separates.lays (separates : Separates pattern separator) :
    Lays pattern [.gap] separator := by
  have laid := Lays.gap separates .done
  rwa [append_nil] at laid

variable (text : List Symbol) (pieces : List (Piece Symbol))

theorem lays_own : Lays pattern [.own text] text := by
  have laid : Lays pattern [.own text] (text ++ []) := .own text .done
  rwa [append_nil] at laid

theorem lays_stray : Lays pattern [.stray text] text := by
  have laid : Lays pattern [.stray text] (text ++ []) := .stray text .done
  rwa [append_nil] at laid

/-- Layouts set between separators. -/
def joinLayout (layouts : List (List (Piece Symbol))) : List (Piece Symbol) :=
  (layouts.intersperse [.gap]).flatten

theorem Lays.join
    (separates : Separates pattern separator) (laid : Forall₂ (Lays pattern) layouts texts) :
    Lays pattern (joinLayout layouts) (texts.intersperse separator).flatten := by
  induction laid with
  | nil => exact .done
  | cons first others ih =>
    cases others with
    | nil => simpa [joinLayout] using first
    | cons second others => exact first.append (separates.lays.append ih)

theorem ownedTexts_joinLayout (layouts : List (List (Piece Symbol))) :
    ownedTexts (joinLayout layouts) = layouts.flatMap ownedTexts := by
  induction layouts with
  | nil => rfl
  | cons first others ih =>
    cases others with
    | nil => simp [joinLayout]
    | cons second others =>
      simp only [joinLayout, intersperse_cons_cons, flatten_cons, flatMap_cons] at ih ⊢
      rw [ownedTexts, filterMap_append]
      exact congrArg (ownedTexts first ++ ·) ih

@[simp]
theorem ownedTexts_nil : ownedTexts ([] : List (Piece Symbol)) = [] :=
  rfl

@[simp]
theorem ownedTexts_gap : ownedTexts (.gap :: pieces) = ownedTexts pieces :=
  rfl

@[simp]
theorem ownedTexts_own : ownedTexts (.own text :: pieces) = text :: ownedTexts pieces :=
  rfl

@[simp]
theorem ownedTexts_stray : ownedTexts (.stray text :: pieces) = ownedTexts pieces :=
  rfl

@[simp]
theorem ownedTexts_append (first second : List (Piece Symbol)) :
    ownedTexts (first ++ second) = ownedTexts first ++ ownedTexts second :=
  filterMap_append

end Assembly

variable {pieces : List (Piece Symbol)} {text : List Symbol}

/-- An assembled text has the occurrences of its runs, whatever precedes the first. -/
theorem Lays.occurrences_runs (present : pattern ≠ []) (laid : Lays pattern pieces text)
    (before : List Symbol) :
    occurrences pattern (before ++ text) =
      occurrences pattern (before ++ runText (splitRuns pieces).1) +
        ((splitRuns pieces).2.map fun run => occurrences pattern (runText run)).sum := by
  induction laid generalizing before with
  | done => simp [splitRuns, runText]
  | gap separates _ ih =>
    have later := ih []
    simp only [nil_append] at later
    rw [Lib.occurrences_append (separates.divided before _),
      separates.occurrences_append present, later]
    simp [splitRuns, runText]
  | own owned _ ih =>
    have later := ih (before ++ owned)
    rw [← append_assoc, later]
    simp [splitRuns, runText, Piece.text]
  | stray other _ ih =>
    have later := ih (before ++ other)
    rw [← append_assoc, later]
    simp [splitRuns, runText, Piece.text]

theorem ownedOccurrences_cons (piece : Piece Symbol) (pieces : List (Piece Symbol)) :
    ownedOccurrences pattern (piece :: pieces) =
      ownedOccurrences pattern [piece] + ownedOccurrences pattern pieces := by
  cases piece <;> simp [ownedOccurrences]

/-- The texts of interest are shared out among the runs. -/
theorem owned_eq_sum_runs :
    ownedOccurrences pattern pieces = ((runs pieces).map (ownedOccurrences pattern)).sum := by
  induction pieces with
  | nil => simp [runs, splitRuns, ownedOccurrences]
  | cons piece rest ih =>
    rw [ownedOccurrences_cons, ih]
    cases piece with
    | gap => simp [runs, splitRuns, ownedOccurrences]
    | _ =>
      simp only [runs, splitRuns, map_cons, sum_cons]
      rw [ownedOccurrences_cons _ (splitRuns rest).1, add_assoc]

/-- A run holds at least the occurrences of its texts of interest. -/
theorem owned_le_runText :
    ownedOccurrences pattern run ≤ occurrences pattern (runText run) := by
  induction run with
  | nil => simp [ownedOccurrences]
  | cons piece rest ih =>
    rw [ownedOccurrences_cons]
    have whole : occurrences pattern piece.text + occurrences pattern (runText rest) ≤
        occurrences pattern (runText (piece :: rest)) :=
      occurrences_le_append
    have inside : ownedOccurrences pattern [piece] ≤ occurrences pattern piece.text := by
      cases piece <;> simp [ownedOccurrences, Piece.text]
    omega

theorem sum_map_eq_iff {Item : Type} {lower upper : Item → Nat} {items : List Item}
    (below : ∀ item ∈ items, lower item ≤ upper item) :
    (items.map upper).sum = (items.map lower).sum ↔ ∀ item ∈ items, upper item = lower item := by
  induction items with
  | nil => simp
  | cons item rest ih =>
    have later := ih fun other mem => below other (mem_cons_of_mem _ mem)
    have first := below item mem_cons_self
    have restBelow : (rest.map lower).sum ≤ (rest.map upper).sum := by
      apply sum_le_sum
      intro other mem
      exact below other (mem_cons_of_mem _ mem)
    rw [map_cons, map_cons, sum_cons, sum_cons, forall_mem_cons, ← later]
    omega

/-- The runs are clean exactly when the whole has no occurrence but those owned. -/
theorem Lays.clean_iff (present : pattern ≠ []) (laid : Lays pattern pieces text) :
    Clean pattern pieces ↔ occurrences pattern text = ownedOccurrences pattern pieces := by
  have whole : occurrences pattern text =
      ((runs pieces).map fun run => occurrences pattern (runText run)).sum := by
    simpa [runs] using laid.occurrences_runs present []
  rw [whole, owned_eq_sum_runs]
  exact (sum_map_eq_iff fun run _ => owned_le_runText).symm

end Layout

/-! ## Texts that stand in a larger one -/

/-- The texts stand in the whole in this order, at these positions, without overlap. -/
inductive StandAt : List (List Symbol) → List Nat → List Symbol → Prop
  | done (whole : List Symbol) : StandAt [] [] whole
  | next {texts : List (List Symbol)} {starts : List Nat} {rest : List Symbol}
    (before text : List Symbol) :
    StandAt texts starts rest →
    StandAt (text :: texts)
      (before.length :: starts.map (· + (before.length + text.length)))
      (before ++ (text ++ rest))

/-- Where the pattern occurs inside the texts that stand in a larger one. -/
def innerPlaces (pattern : List Symbol) (texts : List (List Symbol)) (starts : List Nat) :
    List Nat :=
  (List.zipWith (fun text start => (places pattern text).map (· + start)) texts starts).flatten

/-- The occurrences in the whole are, in order, those inside the given texts. -/
def OnlyInside (pattern : List Symbol) (texts : List (List Symbol)) (whole : List Symbol) : Prop :=
  ∃ starts, StandAt texts starts whole ∧ places pattern whole = innerPlaces pattern texts starts

section Standing

variable {pattern : List Symbol}

theorem innerPlaces_shift (texts : List (List Symbol)) (starts : List Nat) (distance : Nat) :
    innerPlaces pattern texts (starts.map (· + distance)) =
      (innerPlaces pattern texts starts).map (· + distance) := by
  induction texts generalizing starts with
  | nil => simp [innerPlaces]
  | cons text rest ih =>
    cases starts with
    | nil => simp [innerPlaces]
    | cons start others =>
      have later := ih others
      simp only [innerPlaces, map_cons, zipWith_cons_cons, flatten_cons,
        map_append, map_map] at later ⊢
      congr 1
      apply map_congr_left
      intro place _
      simp [add_assoc]

variable {texts : List (List Symbol)} {whole : List Symbol} {pieces : List (Piece Symbol)}
  {text : List Symbol} {starts : List Nat}

theorem StandAt.innerPlaces_sublist (stand : StandAt texts starts whole) :
    (innerPlaces pattern texts starts).Sublist (places pattern whole) := by
  induction stand with
  | done whole => simp [innerPlaces]
  | next before text _ ih =>
    rename_i texts starts rest _
    have shifted : innerPlaces pattern texts (starts.map (· + (before.length + text.length))) =
        ((innerPlaces pattern texts starts).map (· + text.length)).map (· + before.length) := by
      rw [innerPlaces_shift, map_map]
      apply map_congr_left
      intro place _
      simp only [Function.comp_apply]
      omega
    have first : innerPlaces pattern (text :: texts)
          (before.length :: starts.map (· + (before.length + text.length))) =
        (places pattern text ++ (innerPlaces pattern texts starts).map (· + text.length)).map
          (· + before.length) := by
      rw [map_append, ← shifted]
      rfl
    have later :=
      ((ih.map (· + text.length)).append_left (places pattern text)).trans places_append_sublist
    rw [first]
    exact ((later.map (· + before.length)).trans (sublist_append_right _ _)).trans
      places_append_sublist

theorem StandAt.length_innerPlaces (stand : StandAt texts starts whole) :
    (innerPlaces pattern texts starts).length = (texts.map (occurrences pattern)).sum := by
  induction stand with
  | done whole => simp [innerPlaces]
  | next before text _ ih =>
    rename_i texts starts rest _
    have later : (innerPlaces pattern texts
          (starts.map (· + (before.length + text.length)))).length =
        (texts.map (occurrences pattern)).sum := by
      rw [innerPlaces_shift, length_map, ih]
    rw [map_cons, sum_cons, ← later]
    simp [innerPlaces, occurrences]

omit [DecidableEq Symbol] in
theorem Lays.exists_standAt (laid : Lays pattern pieces text) (before : List Symbol) :
    ∃ starts, StandAt (ownedTexts pieces) starts (before ++ text) := by
  induction laid generalizing before with
  | done => exact ⟨[], .done _⟩
  | gap _ _ ih =>
    rw [← append_assoc]
    exact ih _
  | own owned _ ih =>
    obtain ⟨starts, stand⟩ := ih []
    exact ⟨_, .next before owned stand⟩
  | stray other _ ih =>
    rw [← append_assoc]
    exact ih _

theorem OnlyInside.occurrences_eq (inside : OnlyInside pattern texts whole) :
    occurrences pattern whole = (texts.map (occurrences pattern)).sum := by
  obtain ⟨starts, stand, same⟩ := inside
  rw [occurrences, same, stand.length_innerPlaces]

/-- Runs are clean exactly when all occurrences lie inside the texts of interest. -/
theorem Lays.onlyInside_iff (present : pattern ≠ []) (laid : Lays pattern pieces text) :
    OnlyInside pattern (ownedTexts pieces) text ↔ Clean pattern pieces := by
  rw [laid.clean_iff present]
  constructor
  · intro inside
    exact inside.occurrences_eq
  · intro counted
    obtain ⟨starts, stand⟩ := laid.exists_standAt []
    refine ⟨starts, stand, (stand.innerPlaces_sublist.eq_of_length ?_).symm⟩
    rw [stand.length_innerPlaces]
    exact counted.symm

end Standing

end VllmCore.Lib
