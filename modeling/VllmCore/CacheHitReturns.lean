import VllmCore.CacheHitContract

namespace VllmCore

open Lib List SlidingWindowManager

/-!
# When the finders return

A finder raises only if an assertion about the configuration fails or if it is
asked to look beyond the request's hashes.  Where nothing is cached it returns an
empty hit; where everything is cached, full attention finds all but a bounded
tail.
-/

variable {BlockHash : Type}

section Searching

variable {pool : BlockPool BlockHash} {viewed : List BlockHash}
  {ids : List Nat} {computed : ComputedBlocks}

/-- The first hashes of a view can be read. -/
def Readable (viewed : List BlockHash) (count : Nat) : Prop :=
  ∀ index, index < count → ∃ hash, viewed[index]? = some hash

theorem readable_length : Readable viewed viewed.length :=
  fun index inside => ⟨viewed[index], getElem?_eq_getElem inside⟩

theorem Readable.mono {count smaller : Nat} (readable : Readable viewed count)
    (below : smaller ≤ count) : Readable viewed smaller :=
  fun index inside => readable index (lt_of_lt_of_le inside below)

theorem searchDown_returns
    (readable : Readable viewed upper) :
    ∃ found, searchDown pool ids viewed accepts lower upper = .ok found := by
  induction upper with
  | zero => exact ⟨none, rfl⟩
  | succ upper ih =>
    unfold searchDown
    split
    · exact ⟨none, rfl⟩
    obtain ⟨hash, read⟩ := readable upper (Nat.lt_succ_self _)
    rw [indexed_eq_ok.mpr read, ok_bind]
    have deeper := ih (readable.mono (Nat.le_succ _))
    split
    · exact deeper
    · split
      · exact ⟨_, rfl⟩
      · exact deeper

theorem SlidingWindowManager.scan_returns
    {size align needed index count : Nat}
    (readable : Readable viewed index) :
    ∃ scanned, scan pool ids viewed size eagle align needed index
      computed count = .ok scanned := by
  induction index generalizing computed count with
  | zero => exact ⟨_, rfl⟩
  | succ index ih =>
    have further := readable.mono (Nat.le_succ index)
    unfold scan
    obtain ⟨hash, read⟩ := readable index (Nat.lt_succ_self _)
    rw [indexed_eq_ok.mpr read, ok_bind]
    split
    · exact ih further
    split
    · exact ih further
    · split
      · exact ⟨_, rfl⟩
      · exact ih further

/-! ## Views that can be read -/

variable {hashes : List BlockHash} {size align limit : Nat}

theorem blockHashList_returns
    (divides : size % hashSize = 0) :
    ∃ viewed, blockHashListWithBlockSize hashes hashSize size = .ok viewed := by
  unfold blockHashListWithBlockSize
  rw [ensure_of divides]
  exact ⟨_, rfl⟩

theorem resolveBlockHashes_returns (aligned : AlignedFor pool size align) :
    ∃ viewed, resolveBlockHashes hashes pool.config.hasher.hashBlockSize size
      supportsFineGrainedHashLookup (some align) = .ok viewed := by
  unfold resolveBlockHashes
  split
  · exact ⟨_, rfl⟩
  · split
    · exact ⟨_, rfl⟩
    · exact blockHashList_returns aligned.hash_divides

/-- The blocks of a hashed prefix can be read block by block. -/
theorem readable_withBlockSize (pos : 0 < size)
    (hashed : limit / pool.config.hasher.hashBlockSize ≤ hashes.length)
    (made :
      blockHashListWithBlockSize hashes pool.config.hasher.hashBlockSize
        size = .ok viewed) :
    Readable viewed (limit / size) := by
  obtain ⟨divides, reads⟩ := blockHashList_eq_ok pos made
  have whole := Nat.div_mul_cancel (Nat.dvd_of_mod_eq_zero divides)
  generalize size / pool.config.hasher.hashBlockSize = scaleFactor at whole reads
  have factor : 0 < scaleFactor := Nat.pos_of_mul_pos_right (whole ▸ pos)
  intro index inside
  rw [reads]
  have within : (index + 1) * scaleFactor ≤ hashes.length := by
    apply le_trans _ hashed
    rw [Nat.le_div_iff_mul_le pool.config.hasher.hashBlockSize_pos, mul_assoc, whole]
    exact le_trans (Nat.mul_le_mul_right _ inside) (Nat.div_mul_le_self _ _)
  have start : 0 < (index + 1) * scaleFactor := Nat.mul_pos (Nat.succ_pos _) factor
  exact ⟨_, getElem?_eq_getElem (by omega)⟩

theorem readable_resolve (aligned : AlignedFor pool size align)
    (coarse : (supportsFineGrainedHashLookup && fineGrained align size) = false)
    (hashed : limit / pool.config.hasher.hashBlockSize ≤ hashes.length)
    (resolved :
      resolveBlockHashes hashes pool.config.hasher.hashBlockSize size
        supportsFineGrainedHashLookup (some align) = .ok viewed) :
    Readable viewed (limit / size) := by
  unfold resolveBlockHashes at resolved
  split at resolved
  · rename_i same
    cases resolved
    rw [same]
    exact readable_length.mono hashed
  · rw [if_neg (by simpa using coarse)] at resolved
    exact readable_withBlockSize aligned.blockSize_pos hashed resolved

end Searching

/-! ## The finders return -/

/-- A finder's assertions about the configuration hold. -/
def SpecKind.Supported (kind : SpecKind) (blockSize alignmentTokens : Nat) : Prop :=
  match kind with
  | .fullAttention => True
  | .slidingWindow _ => alignmentTokens % blockSize = 0
  | .mamba _ _ => True
  | .chunkedLocalAttention _ => False
  | .crossAttention => False

section Returning

variable {pool : BlockPool BlockHash} {hashes : List BlockHash}
    {size align limit hit : Nat} {ids : List Nat}
    {computed : ComputedBlocks} {kind : SpecKind}

theorem SpecKind.Supported.searchable (supported : kind.Supported size align) :
    kind.Searchable := by
  cases kind <;> first | exact trivial | exact supported.elim

variable {viewed : List BlockHash}

theorem FullAttentionManager.fullBlockHashes_returns :
    ∃ fullHashes, fullBlockHashes viewed size align = .ok fullHashes := by
  unfold fullBlockHashes
  split
  · rename_i fine
    rw [fineGrained, Bool.and_eq_true, beq_iff_eq] at fine
    exact blockHashList_returns fine.2
  · exact ⟨_, rfl⟩

theorem FullAttentionManager.extendPartial_returns :
    ∃ result, extendPartial pool viewed limit ids size align computed = .ok result := by
  unfold extendPartial
  simp only
  split
  · obtain ⟨found, searched⟩ :=
      searchDown_returns (readable_length.mono (le_trans (min_le_right _ _) (min_le_right _ _)))
    rw [searched]
    cases found <;> exact ⟨_, rfl⟩
  · exact ⟨_, rfl⟩

/-- A supported finder returns for every prefix the request has hashes for. -/
theorem SpecKind.findLongestCacheHit_returns (supported : kind.Supported size align)
    (aligned : AlignedFor pool size align)
    (hashed : limit / pool.config.hasher.hashBlockSize ≤ hashes.length) :
    ∃ result, kind.findLongestCacheHit pool hashes limit ids size
      eagle align = .ok result := by
  cases kind with
  | fullAttention =>
    refine exists_bind_ok (resolveBlockHashes_returns aligned) ?_
    intro viewed resolved
    refine exists_bind_ok FullAttentionManager.fullBlockHashes_returns ?_
    intro fullHashes full
    refine exists_bind_ok FullAttentionManager.extendPartial_returns ?_
    intro extended extension
    exact ⟨_, rfl⟩
  | slidingWindow window =>
    have asserted : align % size = 0 := supported
    refine exists_bind_ok ⟨(), ensure_of asserted _⟩ ?_
    intro _ _
    refine exists_bind_ok (resolveBlockHashes_returns aligned) ?_
    intro viewed resolved
    refine exists_bind_ok (scan_returns (readable_resolve aligned rfl hashed resolved)) ?_
    intro scanned done
    exact ⟨_, rfl⟩
  | mamba mode numSpeculativeBlocks =>
    refine exists_bind_ok (resolveBlockHashes_returns aligned) ?_
    intro viewed resolved
    split
    · refine exists_bind_ok (searchDown_returns (readable_length.mono (min_le_right _ _))) ?_
      intro found searched
      exact ⟨_, rfl⟩
    rename_i coarse
    refine exists_bind_ok (searchDown_returns
        (readable_resolve aligned (by simpa using coarse) hashed resolved)) ?_
    intro found searched
    exact ⟨_, rfl⟩
  | _ => exact supported.elim

/-! ## Nothing cached -/

/-- No hash is cached in all of the groups. -/
def Uncached (pool : BlockPool BlockHash) (groupIds : List Nat) : Prop :=
  ∀ hash, pool.getCachedBlock hash groupIds = none

section

variable (uncached : Uncached pool ids)
include uncached

theorem Uncached.collectBlocks (hashes : List BlockHash) :
    collectBlocks pool ids hashes computed = computed := by
  cases hashes with
  | nil => rfl
  | cons hash rest => rw [VllmCore.collectBlocks, uncached hash]

variable {viewed : List BlockHash}

theorem Uncached.searchDown
    (searched : searchDown pool ids viewed accepts lower upper = .ok found) :
    found = none := by
  cases found with
  | none => rfl
  | some pair =>
    obtain ⟨_, _, _, hash, _, cached⟩ := searchDown_eq_some searched
    rw [uncached hash] at cached
    cases cached

theorem Uncached.extendPartial (empty : run.count = 0)
    (extended :
      FullAttentionManager.extendPartial pool viewed limit ids size
        align run = .ok (computed, hit)) :
    hit = 0 := by
  unfold FullAttentionManager.extendPartial at extended
  simp only [empty, zero_mul] at extended
  split at extended
  · obtain ⟨found, searched, next⟩ := bind_ok.mp extended
    have nothing := uncached.searchDown searched
    subst nothing
    cases next
    rfl
  · cases extended
    rfl

theorem Uncached.scan
    (done :
      scan pool ids viewed size eagle
        align needed index computed 0 = .ok scanned) :
    scanned = (computed, 0, false) := by
  induction index with
  | zero =>
    cases done
    rfl
  | succ index ih =>
    obtain ⟨hash, _, next⟩ := bind_ok.mp done
    rw [uncached hash] at next
    exact ih next

end

theorem ComputedBlocks.count_truncate :
    (computed.truncate numBlocks).count = min numBlocks computed.count := by
  cases computed with
  | nil => exact (min_zero _).symm
  | cons blocks others => exact length_take

/-- Where nothing is cached the hit is empty. -/
theorem Uncached.findLongestCacheHit (uncached : Uncached pool ids)
    (searchable : kind.Searchable)
    (found :
      kind.findLongestCacheHit pool hashes limit ids size
        eagle align = .ok (computed, hit)) :
    hit = 0 := by
  cases kind with
  | fullAttention =>
    obtain ⟨viewed, _, afterView⟩ := bind_ok.mp found
    obtain ⟨fullHashes, _, afterFull⟩ := bind_ok.mp afterView
    obtain ⟨⟨extended, length⟩, extension, settled⟩ := bind_ok.mp afterFull
    cases settled
    rw [uncached.collectBlocks] at extension
    have zero : length = 0 := by
      apply uncached.extendPartial _ extension
      cases ids <;> rfl
    subst zero
    simp [FullAttentionManager.settledLength]
  | slidingWindow window =>
    obtain ⟨_, _, afterAssert⟩ := bind_ok.mp found
    obtain ⟨viewed, _, afterView⟩ := bind_ok.mp afterAssert
    obtain ⟨scanned, done, ran⟩ := bind_ok.mp afterView
    have nothing := uncached.scan done
    subst nothing
    cases ran
    simp [dropped, trimmed, ComputedBlocks.count_truncate, alignedCount]
  | mamba mode numSpeculativeBlocks =>
    obtain ⟨viewed, _, afterView⟩ := bind_ok.mp found
    split at afterView
    all_goals
      obtain ⟨search, searched, ran⟩ := bind_ok.mp afterView
      have nothing := uncached.searchDown searched
      subst nothing
      cases ran
      rfl
  | _ => exact searchable.elim

/-! ## Everything cached -/

/-- All hashes of the request are cached in all of the groups. -/
def AllCached (pool : BlockPool BlockHash) (blockHashes : List BlockHash)
    (groupIds : List Nat) : Prop :=
  ∀ hash ∈ blockHashes, ∃ cached, pool.getCachedBlock hash groupIds = some cached

variable {cached : List BlockId}

theorem ComputedBlocks.count_append (nonempty : computed ≠ []) (found : cached ≠ []) :
    (computed.append cached).count = computed.count + 1 ∧ computed.append cached ≠ [] := by
  cases computed with
  | nil => exact absurd rfl nonempty
  | cons blocks others =>
    cases cached with
    | nil => exact absurd rfl found
    | cons block rest => exact ⟨length_append, cons_ne_nil _ _⟩

theorem getCachedBlock_ne_nil {hash : BlockHash} (present : ids ≠ [])
    (found : pool.getCachedBlock hash ids = some cached) : cached ≠ [] := by
  have pairs := BlockPool.getCachedBlock_eq_some found
  intro empty
  rw [empty, List.forall₂_nil_right_iff] at pairs
  exact present pairs

theorem AllCached.count_collectBlocks (present : ids ≠ [])
    (nonempty : computed ≠ []) (cached : AllCached pool hashes ids) :
    (collectBlocks pool ids hashes computed).count = computed.count + hashes.length := by
  induction hashes generalizing computed with
  | nil => rfl
  | cons hash rest ih =>
    obtain ⟨blocks, found⟩ := cached hash mem_cons_self
    obtain ⟨longer, still⟩ :=
      ComputedBlocks.count_append nonempty (getCachedBlock_ne_nil present found)
    rw [collectBlocks, found]
    rw [ih still fun other mem => cached other (mem_cons_of_mem _ mem), length_cons]
    omega

theorem FullAttentionManager.lt_settledLength {length : Nat} (alignment_pos : 0 < align) :
    length < settledLength length size eagle align + size + align := by
  unfold settledLength
  simp only
  generalize dropped_eq : (if (eagle && decide (length > 0)) = true then
      length - min align size else length) = dropped
  have remains : length ≤ dropped + size := by
    rw [← dropped_eq]
    split <;> omega
  have rounded := Nat.mod_lt dropped alignment_pos
  omega

/-- If everything is cached, full attention misses less than two blocks and a unit. -/
theorem AllCached.lt_findLongestCacheHit (cached : AllCached pool hashes ids)
    (aligned : AlignedFor pool size align) (present : ids ≠ [])
    (hashed : limit / pool.config.hasher.hashBlockSize ≤ hashes.length)
    (found :
      FullAttentionManager.findLongestCacheHit pool hashes limit ids
        size eagle align = .ok (computed, hit)) :
    limit < hit + 2 * size + align := by
  obtain ⟨viewed, resolved, afterView⟩ := bind_ok.mp found
  obtain ⟨fullHashes, full, afterFull⟩ := bind_ok.mp afterView
  obtain ⟨⟨extended, length⟩, extension, settled⟩ := bind_ok.mp afterFull
  cases settled
  have pos := aligned.blockSize_pos
  have view := FullAttentionManager.viewOf_fullBlockHashes aligned resolved full
  have readable : Readable fullHashes (limit / size) := by
    unfold FullAttentionManager.fullBlockHashes at full
    split at full
    · rename_i fine
      rw [resolve_fine fine resolved, aligned.eq_hashBlockSize fine] at full
      exact readable_withBlockSize pos hashed full
    · rename_i coarse
      cases full
      exact readable_resolve aligned (by simpa using coarse) hashed resolved
  have reached : limit / size ≤ fullHashes.length := by
    rcases eq_zero_or_pos (limit / size) with zero | some
    · rw [zero]
      exact Nat.zero_le _
    · obtain ⟨hash, read⟩ := readable _ (Nat.sub_lt some one_pos)
      obtain ⟨inside, _⟩ := List.getElem?_eq_some_iff.mp read
      omega
  have all : AllCached pool (fullHashes.take (limit / size)) ids := by
    intro hash mem
    obtain ⟨position, read⟩ := mem_iff_getElem?.mp (mem_of_mem_take mem)
    obtain ⟨index, _, stored⟩ := view position hash read
    exact cached hash (mem_of_getElem? stored)
  obtain ⟨total, bounded, run⟩ := FullAttentionManager.tails_run pos view
  obtain ⟨_, longer, _⟩ :=
    FullAttentionManager.tails_extendPartial aligned present resolved run bounded extension
  have whole : total = limit / size := by
    have empty : ComputedBlocks.count (ids.map fun _ => []) = 0 := by cases ids <;> rfl
    have counted : (collectBlocks pool ids (fullHashes.take (limit / size))
          (ids.map fun _ => [])).count =
        ComputedBlocks.count (ids.map fun _ => []) + (fullHashes.take (limit / size)).length :=
      all.count_collectBlocks present (by simpa using present)
    rw [run.count_eq present, cdiv_mul pos, empty, zero_add, length_take] at counted
    rw [counted]
    exact min_eq_left reached
  have settled : length < FullAttentionManager.settledLength length size eagle
      align + size + align :=
    FullAttentionManager.lt_settledLength aligned.alignment_pos
  have remainder := Nat.div_add_mod' limit size
  have rest := Nat.mod_lt limit pos
  rw [whole] at longer
  omega

end Returning

end VllmCore
