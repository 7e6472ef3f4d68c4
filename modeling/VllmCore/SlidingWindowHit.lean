import VllmCore.CacheHitReturns

namespace VllmCore

open Lib

/-!
# The longest hit of a sliding window

The scan from the right ends where the longest hit ends.  What is popped
afterwards keeps that hit, except on the path without a match: there the run is
aligned before the EAGLE pop, and a run that ends one block past an aligned
boundary is cut back to the boundary before.
-/

variable {BlockHash : Type}

namespace SlidingWindowManager

/-- The arguments of a search, the cache apart. -/
structure WindowSearch where
  maxLength : Nat
  slidingWindow : Nat
  blockSize : Nat
  dropEagleBlock : Bool
  alignmentTokens : Nat

namespace WindowSearch

variable (search : WindowSearch)

def eagleBlocks : Nat :=
  if search.dropEagleBlock then 1 else 0

def windowBlocks : Nat :=
  cdiv (search.slidingWindow - 1) search.blockSize

/-- An aligned length whose window, and EAGLE block, are cached. -/
@[mk_iff]
structure Usable (search : WindowSearch) (cached : Nat → Prop) (length : Nat) : Prop where
  aligned : length % search.alignmentTokens = 0
  bounded :
    length + search.eagleBlocks * search.blockSize ≤
      search.maxLength / search.blockSize * search.blockSize
  window :
    ∀ index, index < length / search.blockSize →
      length / search.blockSize ≤ index + search.windowBlocks → cached index
  eagle : search.dropEagleBlock = true → cached (length / search.blockSize)

instance
    {search : WindowSearch}
    {cached : Nat → Prop}
    [DecidablePred cached] : DecidablePred (search.Usable cached) :=
  fun _ => decidable_of_iff _ (usable_iff _ _ _).symm

/-- The longest usable length. -/
def Longest (cached : Nat → Prop) (length : Nat) : Prop :=
  search.Usable cached length ∧ ∀ other, search.Usable cached other → other ≤ length

/-- Every hit of one cache is reached by a hit of another. -/
def Reached (cached others : Nat → Prop) : Prop :=
  ∀ length, 0 < length → search.Usable cached length →
    ∃ other, length ≤ other ∧ search.Usable others other

/-- How many blocks of a run that ends before `stop` are left without the EAGLE pop. -/
def leadingCount (stop : Nat) : Nat :=
  if search.windowBlocks + search.eagleBlocks ≤ stop then
    stop
  else
    alignedCount search.blockSize search.alignmentTokens stop

/-- How many blocks are left of a run that ends before `stop`. -/
def settledCount (stop : Nat) : Nat :=
  if search.dropEagleBlock ∧ search.leadingCount stop ≠ 0 then
    alignedCount search.blockSize search.alignmentTokens (search.leadingCount stop - 1)
  else
    search.leadingCount stop

section Lengths

variable {search : WindowSearch} {cached : Nat → Prop} {length stop : Nat}

theorem Longest.eq (longest : search.Longest cached length)
    (another : search.Longest cached other) : length = other :=
  le_antisymm (another.2 length longest.1) (longest.2 other another.1)

variable {index : Nat}

theorem mayStart_eagle :
    mayStart index search.blockSize search.dropEagleBlock search.alignmentTokens = true ↔
      (index + 1 - search.eagleBlocks) * search.blockSize % search.alignmentTokens = 0 := by
  rw [mayStart_eq_true, eagleBlocks]
  cases search.dropEagleBlock <;> rfl

theorem eagleBlocks_cases (search : WindowSearch) :
    search.dropEagleBlock = false ∧ search.eagleBlocks = 0 ∨
      search.dropEagleBlock = true ∧ search.eagleBlocks = 1 := by
  unfold eagleBlocks
  cases search.dropEagleBlock <;> simp

/-- All blocks a usable length reads are cached. -/
theorem Usable.reads (usable : search.Usable cached length)
    (before : index < length / search.blockSize + search.eagleBlocks)
    (near : length / search.blockSize ≤ index + search.windowBlocks) : cached index := by
  rcases lt_or_ge index (length / search.blockSize) with inside | beyond
  · exact usable.window index inside near
  rcases search.eagleBlocks_cases with ⟨_, none⟩ | ⟨drops, one⟩
  · omega
  · have last : index = length / search.blockSize := by omega
    exact last ▸ usable.eagle drops

theorem Usable.of_reads (usable : search.Usable cached length)
    (reads :
      ∀ index, index < length / search.blockSize + search.eagleBlocks →
        length / search.blockSize ≤ index + search.windowBlocks → cached index → others index) :
    search.Usable others length where
  aligned := usable.aligned
  bounded := usable.bounded
  window index before near :=
    reads index (Nat.lt_add_right _ before) near (usable.window index before near)
  eagle drops := by
    have one : search.eagleBlocks = 1 := if_pos drops
    exact reads _ (one ▸ Nat.lt_succ_self _) (Nat.le_add_right _ _) (usable.eagle drops)

theorem Usable.whole (times : search.alignmentTokens % search.blockSize = 0)
    (usable : search.Usable cached length) :
    length / search.blockSize * search.blockSize = length :=
  Nat.div_mul_cancel ((Nat.dvd_of_mod_eq_zero times).trans (Nat.dvd_of_mod_eq_zero usable.aligned))

theorem Usable.ends (pos : 0 < search.blockSize) (usable : search.Usable cached length) :
    length / search.blockSize + search.eagleBlocks ≤ search.maxLength / search.blockSize := by
  apply Nat.le_of_mul_le_mul_right _ pos
  rw [add_mul]
  exact le_trans (Nat.add_le_add_right (Nat.div_mul_le_self _ _) _) usable.bounded

/-- A run that ends before `stop` is a hit without its EAGLE block. -/
theorem usable_of_run (pos : 0 < search.blockSize)
    (bounded : stop ≤ search.maxLength / search.blockSize) (enough : search.eagleBlocks ≤ stop)
    (aligned : (stop - search.eagleBlocks) * search.blockSize % search.alignmentTokens = 0)
    (run :
      ∀ index, index < stop →
        stop ≤ index + (search.windowBlocks + search.eagleBlocks) → cached index) :
    search.Usable cached ((stop - search.eagleBlocks) * search.blockSize) := by
  refine ⟨aligned, ?_, ?_, ?_⟩
  · rw [← add_mul, Nat.sub_add_cancel enough]
    exact Nat.mul_le_mul_right _ bounded
  · intro index before near
    rw [Nat.mul_div_cancel _ pos] at before near
    exact run index (by omega) (by omega)
  · intro drops
    rcases search.eagleBlocks_cases with ⟨keeps, _⟩ | ⟨_, one⟩
    · rw [keeps] at drops
      cases drops
    · rw [Nat.mul_div_cancel _ pos]
      exact run _ (by omega) (by omega)

section Last

variable {last : Nat}
  (isLast : search.maxLength / search.alignmentTokens * search.alignmentTokens = last)
include isLast

/-- All hits are reached by one of the last aligned length. -/
theorem reached_of_last (usable : 0 < last → search.Usable others last) :
    search.Reached cached others := by
  intro length long shorter
  have bounded : length ≤ search.maxLength :=
    le_trans (Nat.le_add_right _ _) (le_trans shorter.bounded (Nat.div_mul_le_self _ _))
  have below : length ≤ last := by
    rw [← isLast, ← Nat.div_mul_cancel (Nat.dvd_of_mod_eq_zero shorter.aligned)]
    exact Nat.mul_le_mul_right _ (Nat.div_le_div_right bounded)
  exact ⟨last, below, usable (lt_of_lt_of_le long below)⟩

/-- The last aligned length is usable if its tail is cached and looked up. -/
theorem usable_last (pos : 0 < search.blockSize)
    (times : search.alignmentTokens % search.blockSize = 0)
    (fits : search.dropEagleBlock = true → last = 0 ∨ last + search.blockSize ≤ search.maxLength)
    (long : 0 < last)
    (run :
      ∀ index, index < last / search.blockSize + search.eagleBlocks →
        last / search.blockSize + search.eagleBlocks ≤
          index + (search.windowBlocks + search.eagleBlocks) →
        index < search.maxLength / search.blockSize → cached index) :
    search.Usable cached last := by
  have aligned : last % search.alignmentTokens = 0 := isLast ▸ Nat.mul_mod_left _ _
  have whole : last / search.blockSize * search.blockSize = last :=
    Nat.div_mul_cancel ((Nat.dvd_of_mod_eq_zero times).trans (Nat.dvd_of_mod_eq_zero aligned))
  have bounded :
      last / search.blockSize + search.eagleBlocks ≤ search.maxLength / search.blockSize := by
    rcases search.eagleBlocks_cases with ⟨_, none⟩ | ⟨drops, one⟩
    · rw [none, ← isLast]
      exact Nat.div_le_div_right (Nat.div_mul_le_self _ _)
    · rw [one, ← Nat.add_div_right _ pos]
      exact Nat.div_le_div_right ((fits drops).resolve_left (ne_of_gt long))
  have usable := usable_of_run pos bounded (Nat.le_add_left _ _)
    (by rwa [Nat.add_sub_cancel, whole])
    (fun index before near => run index before near (lt_of_lt_of_le before bounded))
  rwa [Nat.add_sub_cancel, whole] at usable

end Last

theorem settledCount_le (search : WindowSearch) (stop : Nat) :
    search.settledCount stop ≤ stop - search.eagleBlocks := by
  have leading : search.leadingCount stop ≤ stop := by
    unfold leadingCount
    split
    · exact le_rfl
    · exact alignedCount_le _ _ _
  unfold settledCount
  rcases search.eagleBlocks_cases with ⟨keeps, none⟩ | ⟨drops, one⟩
  · rwa [keeps, none]
  rw [drops, one]
  split
  · exact le_trans (alignedCount_le _ _ _) (Nat.sub_le_sub_right leading 1)
  · rename_i popped
    simp only [true_and, Decidable.not_not] at popped
    exact popped ▸ Nat.zero_le _

end Lengths

end WindowSearch

/-! ## The scan -/

/-- The block at an index is cached for every group. -/
def Cached (pool : BlockPool BlockHash) (groupIds : List Nat) (viewed : List BlockHash)
    (index : Nat) : Prop :=
  (viewed[index]?.bind fun hash => pool.getCachedBlock hash groupIds).isSome

section Scanning

variable {pool : BlockPool BlockHash} {groupIds : List Nat} {viewed : List BlockHash}
    {search : WindowSearch} {index count found stop : Nat} {computed result : ComputedBlocks}

instance : DecidablePred (Cached pool groupIds viewed) :=
  fun _ => inferInstanceAs (Decidable (_ = true))

theorem cached_iff {hash : BlockHash} (read : viewed[index]? = some hash) :
    Cached pool ids viewed index ↔ pool.getCachedBlock hash ids ≠ none := by
  simp [Cached, read, Option.isSome_iff_ne_none]

theorem count_set (found : cached ≠ []) : (computed.set index cached).count = computed.count := by
  cases computed with
  | nil => rfl
  | cons blocks others =>
    cases cached with
    | nil => exact absurd rfl found
    | cons block rest => exact List.length_set

/-- The scan ended at `stop`, the end of the longest hit with its EAGLE block. -/
structure EndsAt (search : WindowSearch) (cached : Nat → Prop)
    (scanned : ComputedBlocks × Nat × Bool) (stop : Nat) : Prop where
  usable :
    search.eagleBlocks ≤ stop →
      search.Usable cached ((stop - search.eagleBlocks) * search.blockSize)
  latest :
    ∀ length, search.Usable cached length → length / search.blockSize + search.eagleBlocks ≤ stop
  counted :
    if scanned.2.2 then
      scanned.1.count = stop ∧ search.windowBlocks + search.eagleBlocks ≤ stop
    else
      (scanned.1.truncate scanned.2.1).count = stop ∧
        stop < search.windowBlocks + search.eagleBlocks

/--
The scan ends where the longest hit ends.

It carries the run behind the index and that no hit ends beyond that run.
-/
theorem scan_endsAt {scanned : ComputedBlocks × Nat × Bool} (pos : 0 < search.blockSize)
    (times : search.alignmentTokens % search.blockSize = 0) (present : ids ≠ [])
    (width : computed.count = search.maxLength / search.blockSize)
    (bounded : index + count ≤ search.maxLength / search.blockSize)
    (started :
      0 < count → mayStart (index + count - 1) search.blockSize search.dropEagleBlock
          search.alignmentTokens = true)
    (run :
      ∀ position, index ≤ position → position < index + count → Cached pool ids viewed position)
    (short : count < search.windowBlocks + search.eagleBlocks)
    (latest :
      ∀ length, search.Usable (Cached pool ids viewed) length →
        length / search.blockSize + search.eagleBlocks ≤ index + count)
    (done :
      scan pool ids viewed search.blockSize search.dropEagleBlock
        search.alignmentTokens (search.windowBlocks + search.eagleBlocks) index computed
        count = .ok scanned) :
    ∃ stop, EndsAt search (Cached pool ids viewed) scanned stop := by
  induction index generalizing computed count with
  | zero =>
    cases done
    rw [zero_add] at bounded started run latest
    refine ⟨count, fun enough => ?_, latest, ?_, short⟩
    · apply WindowSearch.usable_of_run pos bounded enough
      · rcases eq_zero_or_pos count with rfl | nonempty
        · simp
        · have starts := WindowSearch.mayStart_eagle.mp (started nonempty)
          rwa [Nat.sub_add_cancel nonempty] at starts
      · exact fun position before _ => run position (Nat.zero_le _) before
    · rw [ComputedBlocks.count_truncate, width]
      exact min_eq_left bounded
  | succ index ih =>
    obtain ⟨hash, read, next⟩ := bind_ok.mp done
    have known : Cached pool ids viewed index ↔ pool.getCachedBlock hash ids ≠ none :=
      cached_iff (indexed_eq_ok.mp read)
    have restart :=
      @ih 0 computed width (by omega) (fun absent => absurd absent (lt_irrefl 0))
        (fun _ behind before => absurd behind (Nat.not_le.mpr before)) (by omega)
    split at next
    · rename_i missing
      -- Every hit that ends inside the run needs this block.
      refine restart (fun length usable => ?_) next
      have before := latest length usable
      refine Nat.le_of_not_lt fun beyond => known.mp ?_ missing
      exact usable.reads beyond (by omega)
    · rename_i cached looked
      split at next
      · rename_i skipped
        rw [skipped.1] at next latest
        refine restart (fun length usable => ?_) next
        have before := latest length usable
        refine Nat.le_of_not_lt fun beyond => ?_
        have here : index + 1 - search.eagleBlocks = length / search.blockSize := by
          generalize length / search.blockSize = numBlocks at before beyond ⊢
          omega
        have starts := WindowSearch.mayStart_eagle.mpr
          (here ▸ (usable.whole times).symm ▸ usable.aligned)
        rw [skipped.2] at starts
        cases starts
      · rename_i kept
        have starts : mayStart (index + (count + 1) - 1) search.blockSize search.dropEagleBlock
            search.alignmentTokens = true := by
          rcases eq_zero_or_pos count with zero | running
          · subst zero
            rw [not_and, Bool.not_eq_false] at kept
            exact kept rfl
          · have before := started running
            rwa [show index + 1 + count - 1 = index + (count + 1) - 1 by omega] at before
        have extended : ∀ position, index ≤ position → position < index + (count + 1) →
            Cached pool ids viewed position := by
          intro position behind before
          rcases eq_or_lt_of_le behind with here | behind
          · rw [← here, known, looked]
            exact Option.some_ne_none _
          · exact run position behind (by omega)
        have still : (computed.set index cached).count = _ :=
          (count_set (getCachedBlock_ne_nil present looked)).trans width
        rw [add_right_comm] at latest
        split at next
        · cases next
          refine ⟨index + (count + 1), fun enough => ?_, latest, ?_, by omega⟩
          · exact WindowSearch.usable_of_run pos (by omega) enough
              (WindowSearch.mayStart_eagle.mp starts)
              fun position before near => extended position (by omega) before
          · rw [ComputedBlocks.count_truncate]
            exact min_eq_left (by omega)
        · exact ih still (by omega) (fun _ => starts) extended (by omega) latest next

/-! ## What is popped after the scan -/

variable {align size : Nat}

theorem count_dropped :
    (dropped size eagle align computed).count =
      if eagle ∧ computed.count ≠ 0 then
        alignedCount size align (computed.count - 1)
      else
        computed.count := by
  unfold dropped
  split
  · rw [ComputedBlocks.count_truncate]
    exact min_eq_left (le_trans (alignedCount_le _ _ _) (Nat.sub_le _ _))
  · rfl

theorem count_trimmed_unmatched :
    (trimmed size align (computed, found, false)).count =
      alignedCount size align (computed.truncate found).count := by
  simp only [trimmed, Bool.false_eq_true, if_false]
  rw [ComputedBlocks.count_truncate]
  exact min_eq_left (alignedCount_le _ _ _)

/-- One block past an aligned boundary is popped where blocks are finer. -/
theorem alignedCount_succ (times : align % size = 0)
    (aligned : numBlocks * size % align = 0) (finer : size ≠ align) :
    alignedCount size align (numBlocks + 1) = numBlocks := by
  have shifted : (numBlocks + 1) * size % align ≠ 0 := by
    intro zero
    rw [add_mul, one_mul, Nat.add_mod, aligned, zero_add, Nat.mod_mod] at zero
    exact finer (Nat.dvd_antisymm (Nat.dvd_of_mod_eq_zero times) (Nat.dvd_of_mod_eq_zero zero))
  unfold alignedCount
  rw [if_pos ⟨finer, shifted⟩]
  exact alignedCount_eq aligned

namespace EndsAt

variable {cached : Nat → Prop} {scanned : ComputedBlocks × Nat × Bool}

theorem count_dropped_trimmed (ended : EndsAt search cached scanned stop) :
    (dropped search.blockSize search.dropEagleBlock search.alignmentTokens
        (trimmed search.blockSize search.alignmentTokens scanned)).count =
      search.settledCount stop := by
  obtain ⟨result, found, matched⟩ := scanned
  have counted := ended.counted
  rw [count_dropped, WindowSearch.settledCount, WindowSearch.leadingCount]
  cases matched with
  | true =>
    have whole :
        (trimmed search.blockSize search.alignmentTokens (result, found, true)).count = stop :=
      counted.1
    rw [whole, if_pos counted.2]
  | false => rw [count_trimmed_unmatched, counted.1, if_neg (Nat.not_le.mpr counted.2)]

variable (times : search.alignmentTokens % search.blockSize = 0)
    (ended : EndsAt search cached scanned stop) (enough : search.eagleBlocks ≤ stop)
include times ended enough

theorem longest : search.Longest cached ((stop - search.eagleBlocks) * search.blockSize) := by
  refine ⟨ended.usable enough, fun length usable => ?_⟩
  rw [← usable.whole times]
  exact Nat.mul_le_mul_right _ (Nat.le_sub_of_add_le (ended.latest length usable))

/-- The pops keep the longest hit, unless they align before the EAGLE pop. -/
theorem settledCount_eq :
    search.settledCount stop = stop - search.eagleBlocks ↔
      search.dropEagleBlock = false ∨ search.blockSize = search.alignmentTokens ∨
        stop - search.eagleBlocks = 0 ∨
        search.windowBlocks ≤ stop - search.eagleBlocks := by
  have aligned := (ended.usable enough).aligned
  unfold WindowSearch.settledCount WindowSearch.leadingCount
  rcases search.eagleBlocks_cases with ⟨keeps, none⟩ | ⟨drops, one⟩
  · rw [none, Nat.sub_zero] at aligned
    rw [none, keeps, alignedCount_eq aligned, ite_self]
    exact iff_of_true rfl (.inl rfl)
  rw [one] at enough aligned ⊢
  obtain ⟨before, rfl⟩ := Nat.exists_eq_add_of_le' enough
  rw [Nat.add_sub_cancel] at aligned ⊢
  rw [drops]
  have popped := alignedCount_eq aligned
  split
  · rename_i covers
    exact iff_of_true popped (.inr (.inr (.inr (Nat.le_of_succ_le_succ covers))))
  by_cases same : search.blockSize = search.alignmentTokens
  · have kept : alignedCount search.blockSize search.alignmentTokens (before + 1) = before + 1 :=
      alignedCount_eq (by rw [same, Nat.mul_mod_left])
    rw [kept]
    exact iff_of_true popped (.inr (.inl same))
  rw [alignedCount_succ times aligned same]
  rcases eq_zero_or_pos before with rfl | some
  · exact iff_of_true rfl (.inr (.inr (.inl rfl)))
  have less := alignedCount_le search.blockSize search.alignmentTokens (before - 1)
  rw [if_pos ⟨rfl, ne_of_gt some⟩]
  refine iff_of_false (by omega) ?_
  rintro (absent | equal | empty | covers)
  · cases absent
  · exact same equal
  all_goals omega

end EndsAt

section Same

variable {cached others : Nat → Prop} {scanned scanned' : ComputedBlocks × Nat × Bool}

section

variable (pos : 0 < search.blockSize) (ended : EndsAt search cached scanned stop)
  (ended' : EndsAt search others scanned' stop')
include pos ended ended'

theorem EndsAt.stop_le (reached : search.Reached cached others)
    (long : search.eagleBlocks < stop) : stop ≤ stop' := by
  obtain ⟨other, longer, usable⟩ :=
    reached _ (Nat.mul_pos (Nat.sub_pos_of_lt long) pos) (ended.usable (le_of_lt long))
  have before := ended'.latest other usable
  have blocks := (Nat.le_div_iff_mul_le pos).mpr longer
  omega

/-- Two caches that reach each other's hits are left with the same blocks. -/
theorem EndsAt.settledCount_same
    (later : search.Reached cached others) (earlier : search.Reached others cached) :
    search.settledCount stop = search.settledCount stop' := by
  have forth := ended.stop_le pos ended' later
  have back := ended'.stop_le pos ended earlier
  have left := search.settledCount_le stop
  have left' := search.settledCount_le stop'
  rcases lt_or_ge search.eagleBlocks stop with long | short
  · rw [le_antisymm (forth long) (back (lt_of_lt_of_le long (forth long)))]
  · omega

end

end Same

end Scanning

/-- The search returns what is left where the scan ended. -/
theorem findLongestCacheHit_endsAt {pool : BlockPool BlockHash} {hashes viewed : List BlockHash}
    {ids : List Nat} {search : WindowSearch}
    (aligned : AlignedFor pool search.blockSize search.alignmentTokens)
    (times : search.alignmentTokens % search.blockSize = 0)
    (needs : 0 < search.windowBlocks + search.eagleBlocks) (present : ids ≠ [])
    (hashed : search.maxLength / pool.config.hasher.hashBlockSize ≤ hashes.length)
    (resolved :
      resolveBlockHashes hashes pool.config.hasher.hashBlockSize search.blockSize
        false (some search.alignmentTokens) = .ok viewed) :
    ∃ computed scanned stop, findLongestCacheHit pool hashes search.maxLength ids
          search.slidingWindow search.blockSize search.dropEagleBlock
          search.alignmentTokens =
          .ok (computed, search.settledCount stop * search.blockSize) ∧
        EndsAt search (Cached pool ids viewed) scanned stop := by
  have pos := aligned.blockSize_pos
  have readable := readable_resolve aligned (Bool.false_and _) hashed resolved
  obtain ⟨scanned, done⟩ : ∃ scanned, scan pool ids viewed search.blockSize search.dropEagleBlock
          search.alignmentTokens (search.windowBlocks + search.eagleBlocks)
          (search.maxLength / search.blockSize)
          (ids.map fun _ =>
            List.replicate (search.maxLength / search.blockSize) pool.nullBlock) 0 =
          .ok scanned :=
    scan_returns readable
  obtain ⟨stop, ended⟩ :=
    scan_endsAt pos times present (by cases ids <;> simp_all [ComputedBlocks.count])
      le_rfl (fun absent => absurd absent (lt_irrefl 0))
      (fun _ behind before => absurd behind (Nat.not_le.mpr before)) needs
      (fun _ usable => usable.ends pos) done
  refine ⟨dropped search.blockSize search.dropEagleBlock search.alignmentTokens
    (trimmed search.blockSize search.alignmentTokens scanned), scanned, stop, ?_, ended⟩
  rw [← ended.count_dropped_trimmed]
  unfold findLongestCacheHit
  rw [ensure_of times, ok_bind, resolved, ok_bind]
  exact bind_ok.mpr ⟨scanned, done, rfl⟩

/--
The hit is the longest usable one, without EAGLE.  With EAGLE it is if some length
is usable and the longest is empty, covers the window, or needs no aligning.
-/
theorem findLongestCacheHit_longest_iff
    {pool : BlockPool BlockHash} {blockHashes : List BlockHash} {groupIds : List Nat}
    {search : WindowSearch} (aligned : AlignedFor pool search.blockSize search.alignmentTokens)
    (multiple : search.alignmentTokens % search.blockSize = 0) (windowed : 2 ≤ search.slidingWindow)
    (present : groupIds ≠ [])
    (hashed : search.maxLength / pool.config.hasher.hashBlockSize ≤ blockHashes.length) :
    ∃ viewed computed hitLength,
      resolveBlockHashes blockHashes pool.config.hasher.hashBlockSize search.blockSize
          false (some search.alignmentTokens) = .ok viewed ∧
        findLongestCacheHit pool blockHashes search.maxLength groupIds
          search.slidingWindow search.blockSize search.dropEagleBlock
          search.alignmentTokens = .ok (computed, hitLength) ∧
        (search.Longest (Cached pool groupIds viewed) hitLength ↔
          search.dropEagleBlock = false ∨ ∃ longest,
            search.Longest (Cached pool groupIds viewed) longest ∧
              (search.blockSize = search.alignmentTokens ∨ longest = 0 ∨
                search.windowBlocks * search.blockSize ≤ longest)) := by
  have positive := aligned.blockSize_pos
  obtain ⟨viewed, resolved⟩ := resolveBlockHashes_returns aligned
  have windowBlocks : 0 < search.windowBlocks := (lt_cdiv_iff positive).mpr (by omega)
  obtain ⟨computed, scanned, stop, found, ended⟩ :=
    findLongestCacheHit_endsAt aligned multiple (Nat.add_pos_left windowBlocks _) present
      hashed resolved
  refine ⟨viewed, computed, _, resolved, found, ?_⟩
  rcases lt_or_ge stop search.eagleBlocks with none | enough
  · -- A usable length with its EAGLE block would end at the stop or before.
    have nothing : ∀ length, ¬ search.Usable (Cached pool groupIds viewed) length := by
      intro length usable
      have before := ended.latest length usable
      exact absurd (le_trans (Nat.le_add_left _ _) before) (Nat.not_le.mpr none)
    apply iff_of_false
    · exact fun longest => nothing _ longest.1
    · rintro (keeps | ⟨length, longest, _⟩)
      · simp [WindowSearch.eagleBlocks, keeps] at none
      · exact nothing _ longest.1
  · have longest := ended.longest multiple enough
    have kept := ended.settledCount_eq multiple enough
    constructor
    · intro returned
      have equal := Nat.eq_of_mul_eq_mul_right positive (returned.eq longest)
      rcases kept.mp equal with keeps | same | empty | covers
      · exact .inl keeps
      · exact .inr ⟨_, longest, .inl same⟩
      · exact .inr ⟨_, longest, .inr (.inl (by rw [empty, zero_mul]))⟩
      · exact .inr ⟨_, longest, .inr (.inr (Nat.mul_le_mul_right _ covers))⟩
    · intro condition
      rw [kept.mpr ?_]
      · exact longest
      · rcases condition with keeps | ⟨length, other, covered⟩
        · exact .inl keeps
        rw [other.eq longest] at covered
        rcases covered with same | zero | covers
        · exact .inr (.inl same)
        · have empty := (Nat.mul_eq_zero.mp zero).resolve_right (ne_of_gt positive)
          exact .inr (.inr (.inl empty))
        · exact .inr (.inr (.inr (Nat.le_of_mul_le_mul_right covers positive)))

/-- A pool of four blocks of one token. -/
def oneTokenPoolConfig : PoolConfig SymbolicHash :=
  { smallPoolConfig with
    numGpuBlocks := 4
    numGpuBlocks_pos := Nat.add_one_pos 3
    hasher := symbolicHasher 1 Nat.one_pos }

/-- A request with three blocks of one token. -/
def threeBlockRequest : HashedRequest SymbolicHash :=
  HashedRequest.create (symbolicHasher 1 Nat.one_pos) { allTokenIds := [7, 8, 9] }

/-- With the three blocks cached, two tokens are found where hits end at even lengths. -/
theorem threeBlocks_longest :
    ∃ pool viewed computed hitLength,
      BlockPool.Reachable (fun pool op => op.Balanced pool ∧ op.Sane pool)
          oneTokenPoolConfig pool ∧
        findLongestCacheHit pool threeBlockRequest.blockHashes 3 [0] 5 1 false 2 =
          .ok (computed, hitLength) ∧
        WindowSearch.Longest ⟨3, 5, 1, false, 2⟩ (Cached pool [0] viewed) hitLength := by
  obtain ⟨pool, ran, size⟩ := exists_of_satisfies (show satisfies
      (BlockPool.run (fun pool op => op.Balanced pool ∧ op.Sane pool) oneTokenPoolConfig
        [.getNewBlocks 3, .cacheFullBlocks threeBlockRequest [1, 2, 3] 0 3 1 0 none])
      (fun pool => pool.config.hasher.hashBlockSize == 1) = true by decide)
  rw [beq_iff_eq] at size
  have aligned : AlignedFor pool 1 2 := ⟨one_pos, two_pos, by rw [size], .inl rfl⟩
  have hashed : 3 / pool.config.hasher.hashBlockSize ≤ threeBlockRequest.blockHashes.length := by
    rw [size]
    decide
  obtain ⟨viewed, computed, hitLength, _, found, longest⟩ :=
    @findLongestCacheHit_longest_iff _ pool _ [0] ⟨3, 5, 1, false, 2⟩ aligned rfl
      (by decide) (List.cons_ne_nil _ _) hashed
  exact ⟨pool, viewed, computed, hitLength, BlockPool.reachable_of_run ran, found,
    longest.mpr (.inl rfl)⟩

/-- With EAGLE the same two tokens are usable, and the hit is empty. -/
theorem threeBlocks_eagle_lost :
    ∃ pool computed, BlockPool.Reachable (fun pool op => op.Balanced pool ∧ op.Sane pool)
        oneTokenPoolConfig pool ∧
      resolveBlockHashes threeBlockRequest.blockHashes
        pool.config.hasher.hashBlockSize 1 false (some 2) =
        .ok threeBlockRequest.blockHashes ∧
      findLongestCacheHit pool threeBlockRequest.blockHashes 3 [0] 5 1 true 2 = .ok (computed, 0) ∧
      WindowSearch.Usable ⟨3, 5, 1, true, 2⟩
        (Cached pool [0] threeBlockRequest.blockHashes) 2 := by
  obtain ⟨pool, ran, facts⟩ := exists_of_satisfies (show satisfies
      (BlockPool.run (fun pool op => op.Balanced pool ∧ op.Sane pool) oneTokenPoolConfig
        [.getNewBlocks 3, .cacheFullBlocks threeBlockRequest [1, 2, 3] 0 3 1 0 none])
      (fun pool =>
        pool.config.hasher.hashBlockSize == 1 && (satisfies
              (findLongestCacheHit pool threeBlockRequest.blockHashes 3 [0] 5 1 true 2)
              (fun hit => hit.2 == 0) &&
            decide (WindowSearch.Usable ⟨3, 5, 1, true, 2⟩
                (Cached pool [0] threeBlockRequest.blockHashes) 2))) = true by decide)
  rw [Bool.and_eq_true, Bool.and_eq_true, beq_iff_eq, decide_eq_true_eq] at facts
  obtain ⟨size, empty, usable⟩ := facts
  obtain ⟨⟨computed, hitLength⟩, found, zero⟩ := exists_of_satisfies empty
  cases beq_iff_eq.mp zero
  refine ⟨pool, computed, BlockPool.reachable_of_run ran, ?_, found, usable⟩
  unfold resolveBlockHashes
  rw [if_pos size.symm]

end SlidingWindowManager

end VllmCore
