import VllmCore.CacheHitFinder

namespace VllmCore

open Lib List

/-!
# What the finders return

A finder's result is described by `Tail`: null blocks up to some position and,
from there on, blocks cached under the request's own hashes.  `Serves` adds that
every position the attention needs lies in the cached part.  Each finder is shown
to serve its kind of attention, whatever the pool holds.
-/

variable {BlockHash : Type}

/-! ## Hashes at a boundary -/

namespace BlockPool

/-- A block is cached for a group under the request's hash of a prefix. -/
def CachedUnder (pool : BlockPool BlockHash) (blockHashes : List BlockHash)
    (groupId numTokens : Nat) (block : BlockId) : Prop :=
  ∃ index hash, (index + 1) * pool.config.hasher.hashBlockSize = numTokens ∧
      blockHashes[index]? = some hash ∧
      block ∈ pool.cachedBlockHashToBlock.listed ⟨hash, groupId⟩

/-- The hashes of `viewed` are the request's hashes at multiples of `unit`. -/
def ViewOf (pool : BlockPool BlockHash) (blockHashes viewed : List BlockHash) (unit : Nat) : Prop :=
  ∀ position hash, viewed[position]? = some hash → ∃ index,
      (index + 1) * pool.config.hasher.hashBlockSize = (position + 1) * unit ∧
        blockHashes[index]? = some hash

theorem getCachedBlock_eq_some {pool : BlockPool BlockHash} {hash : BlockHash}
    (found : pool.getCachedBlock hash ids = some cached) :
    Forall₂ (fun groupId block =>
      block ∈ pool.cachedBlockHashToBlock.listed ⟨hash, groupId⟩)
      ids cached := by
  unfold getCachedBlock at found
  induction ids generalizing cached with
  | nil =>
    cases found
    exact .nil
  | cons groupId rest ih =>
    rw [mapM_cons] at found
    obtain ⟨block, looked, next⟩ := Option.bind_eq_some_iff.mp found
    obtain ⟨blocks, others, done⟩ := Option.bind_eq_some_iff.mp next
    cases done
    rw [BlockHashToBlockMap.getOneBlock_eq] at looked
    exact .cons (mem_of_mem_head? looked) (ih others)

end BlockPool

/-- A filtered range whose every element survives is read by position. -/
theorem getElem?_filterMap_range {Value : Type} {read : Nat → Option Value}
    (present : ∀ index, index < total → (read index).isSome) :
    ((range total).filterMap read)[pos]? =
      if pos < total then read pos else none := by
  have mapped :
      ∃ value : Fin total → Value, ∀ index : Fin total, read index = some (value index) := by
    exact ⟨fun index => (read index).get (present index index.isLt), by simp⟩
  obtain ⟨value, value_eq⟩ := mapped
  have listed : (range total).filterMap read = (List.finRange total).map value := by
    rw [← map_coe_finRange_eq_range, filterMap_map]
    rw [← filterMap_eq_map]
    apply filterMap_congr
    intro index _
    exact value_eq index
  rw [listed, getElem?_map]
  split
  · rename_i inside
    rw [getElem?_eq_getElem (by simpa using inside)]
    simp [value_eq ⟨pos, inside⟩]
  · rename_i outside
    rw [getElem?_eq_none (by simpa using outside)]
    rfl

section Views

variable {pool : BlockPool BlockHash} {hashes viewed : List BlockHash}
    {size align : Nat}

theorem blockHashList_eq_ok (pos : 0 < size)
    (made : blockHashListWithBlockSize hashes hashSize size = .ok viewed) :
    size % hashSize = 0 ∧ ∀ position, viewed[position]? =
      hashes[(position + 1) * (size / hashSize) - 1]? := by
  obtain ⟨_, asserted, produced⟩ := bind_ok.mp made
  have divides := ensure_eq_ok.mp asserted
  cases produced
  refine ⟨divides, fun position => ?_⟩
  have factor : 0 < size / hashSize := by
    rcases eq_zero_or_pos (size / hashSize) with zero | positiveFactor
    · have := Nat.div_add_mod size hashSize
      rw [zero] at this
      omega
    · exact positiveFactor
  generalize size / hashSize = scaleFactor at factor
  rw [getElem?_filterMap_range]
  · split
    · rfl
    rename_i outside
    have := (Nat.div_lt_iff_lt_mul factor).mp (Nat.lt_succ_of_le (Nat.not_lt.mp outside))
    rw [getElem?_eq_none]
    rw [Nat.succ_eq_add_one] at this
    omega
  · intro index inside
    have := (Nat.le_div_iff_mul_le factor).mp (Nat.succ_le_of_lt inside)
    rw [Nat.succ_eq_add_one] at this
    rw [getElem?_eq_getElem]
    · rfl
    · have : 0 < (index + 1) * scaleFactor := Nat.mul_pos (Nat.succ_pos _) factor
      omega

theorem viewOf_withBlockSize (pos : 0 < size)
    (made :
      blockHashListWithBlockSize hashes pool.config.hasher.hashBlockSize
        size = .ok viewed) :
    pool.ViewOf hashes viewed size := by
  obtain ⟨divides, reads⟩ := blockHashList_eq_ok pos made
  intro position hash present
  refine ⟨(position + 1) * (size / pool.config.hasher.hashBlockSize) - 1, ?_, ?_⟩
  · have whole := Nat.div_mul_cancel (Nat.dvd_of_mod_eq_zero divides)
    have factor : 0 < size / pool.config.hasher.hashBlockSize :=
      Nat.pos_of_mul_pos_right (whole ▸ pos)
    rw [Nat.sub_add_cancel (Nat.mul_pos (Nat.succ_pos _) factor), mul_assoc, whole]
  · rw [← reads, present]

theorem viewOf_self : pool.ViewOf hashes hashes pool.config.hasher.hashBlockSize :=
  fun pos _ present => ⟨pos, rfl, present⟩

/-- Unless the lookup is fine-grained, hashes are read per block. -/
theorem viewOf_resolve (pos : 0 < size)
    (coarse : (supportsFineGrainedHashLookup && fineGrained align size) = false)
    (resolved :
      resolveBlockHashes hashes pool.config.hasher.hashBlockSize size
        supportsFineGrainedHashLookup (some align) = .ok viewed) :
    pool.ViewOf hashes viewed size := by
  unfold resolveBlockHashes at resolved
  split at resolved
  · rename_i same
    cases resolved
    rw [same]
    exact viewOf_self
  · rw [if_neg (by simpa using coarse)] at resolved
    exact viewOf_withBlockSize pos resolved

theorem resolve_fine (fine : fineGrained align size = true)
    (resolved :
      resolveBlockHashes hashes hashSize size true
        (some align) = .ok viewed) :
    viewed = hashes := by
  unfold resolveBlockHashes at resolved
  split at resolved
  · cases resolved
    rfl
  · rw [if_pos (by simpa using fine)] at resolved
    cases resolved
    rfl

theorem BlockPool.ViewOf.cachedUnder
    {hash : BlockHash}
    (view : pool.ViewOf hashes viewed unit) (present : viewed[pos]? = some hash)
    (listed : block ∈ pool.cachedBlockHashToBlock.listed ⟨hash, groupId⟩) :
    pool.CachedUnder hashes groupId ((pos + 1) * unit) block := by
  obtain ⟨index, boundary, stored⟩ := view pos hash present
  exact ⟨index, hash, boundary, stored, listed⟩

end Views

/-! ## The shape of a result -/

/--
A block is cached for a group under a hash that ends inside the block's position
and covers every token of it before `hitLength`.
-/
def CachedAt (pool : BlockPool BlockHash) (blockHashes : List BlockHash)
    (blockSize hitLength groupId position : Nat) (block : BlockId) : Prop :=
  ∃ numTokens, pool.CachedUnder blockHashes groupId numTokens block ∧
      position * blockSize < numTokens ∧
      numTokens ≤ (position + 1) * blockSize ∧
      min hitLength ((position + 1) * blockSize) ≤ numTokens

/-- Null blocks before `start`, blocks cached at their position from there on. -/
structure Tail (pool : BlockPool BlockHash) (blockHashes : List BlockHash)
    (blockSize start hitLength groupId : Nat) (blocks : List BlockId) : Prop where
  length_eq : blocks.length = cdiv hitLength blockSize
  null_before :
    ∀ position block, position < start → blocks[position]? = some block → block = pool.nullBlock
  cached :
    ∀ position block, start ≤ position → blocks[position]? = some block →
      CachedAt pool blockHashes blockSize hitLength groupId position block

theorem getElem?_of_take {Value : Type} {values : List Value} {count pos : Nat} {value : Value}
    (present : (values.take count)[pos]? = some value) : values[pos]? = some value := by
  rw [getElem?_take] at present
  split at present
  · exact present
  · cases present

section Tails

variable {pool : BlockPool BlockHash} {hashes : List BlockHash}
  {size start hit groupId : Nat} {blocks : List BlockId}

theorem Tail.replicate (pos : 0 < size) (count : Nat) :
    Tail pool hashes size count (count * size) groupId
      (replicate count pool.nullBlock) where
  length_eq := by
    rw [length_replicate, cdiv_mul pos]
  null_before := by
    intro position block _ present
    exact eq_of_mem_replicate (mem_of_getElem? present)
  cached := by
    intro position block behind present
    obtain ⟨inside, _⟩ := List.getElem?_eq_some_iff.mp present
    rw [length_replicate] at inside
    exact absurd inside (Nat.not_lt.mpr behind)

/-- A block cached at the next position extends a result of whole blocks. -/
theorem Tail.append {count numTokens : Nat} (pos : 0 < size)
    (tail : Tail pool hashes size start (count * size) groupId blocks)
    (started : start ≤ count) (listed : pool.CachedUnder hashes groupId numTokens block)
    (above : count * size < numTokens) (below : numTokens ≤ (count + 1) * size) :
    Tail pool hashes size start numTokens groupId (blocks ++ [block]) := by
  have length_blocks : blocks.length = count := by rw [tail.length_eq, cdiv_mul pos]
  refine ⟨?_, ?_, ?_⟩
  · apply le_antisymm
    · rw [length_append, length_blocks]
      exact (lt_cdiv_iff pos).mpr above
    · rw [length_append, length_blocks]
      exact (cdiv_le_iff pos).mpr below
  · intro position found before present
    rw [getElem?_append_left (by omega)] at present
    exact tail.null_before position found before present
  · intro position found behind present
    rcases lt_or_ge position count with inside | outside
    · rw [getElem?_append_left (by omega)] at present
      obtain ⟨tokens, under, lower, upper, covers⟩ := tail.cached position found behind present
      -- An earlier block is full, so the longer result asks no more of it.
      have full : (position + 1) * size ≤ count * size :=
        Nat.mul_le_mul_right size inside
      exact ⟨tokens, under, lower, upper, by omega⟩
    · rw [getElem?_append_right (by omega), length_blocks] at present
      obtain ⟨offset, _⟩ := List.getElem?_eq_some_iff.mp present
      have last : position = count := by
        rw [length_singleton] at offset
        omega
      subst last
      rw [Nat.sub_self] at present
      cases present
      exact ⟨numTokens, listed, above, below, min_le_left _ _⟩

/-- A shorter hit keeps the leading blocks. -/
theorem Tail.take {shorter : Nat}
    (tail : Tail pool hashes size start hit groupId blocks)
    (below : shorter ≤ hit) :
    Tail pool hashes size start shorter groupId
      (blocks.take (cdiv shorter size)) := by
  refine ⟨?_, ?_, ?_⟩
  · rw [length_take, tail.length_eq]
    exact min_eq_left (cdiv_mono below _)
  · intro pos block before present
    exact tail.null_before pos block before (getElem?_of_take present)
  · intro pos block behind present
    obtain ⟨tokens, under, lower, upper, covers⟩ :=
      tail.cached pos block behind (getElem?_of_take present)
    exact ⟨tokens, under, lower, upper, by omega⟩

end Tails

/-! ## Results of groups searched together -/

theorem forall₂_zipWith {Key First Second Third : Type} {FirstHolds : Key → First → Prop}
    {SecondHolds : Key → Second → Prop} {ThirdHolds : Key → Third → Prop}
    {combine : First → Second → Third}
    {keys : List Key} {firsts : List First} {seconds : List Second}
    (combines :
      ∀ key first second, FirstHolds key first → SecondHolds key second →
        ThirdHolds key (combine first second))
    (firstHolds : Forall₂ FirstHolds keys firsts)
    (secondHolds : Forall₂ SecondHolds keys seconds) :
    Forall₂ ThirdHolds keys (firsts.zipWith combine seconds) := by
  induction firstHolds generalizing seconds with
  | nil =>
    cases secondHolds
    exact .nil
  | cons holds rest ih =>
    cases secondHolds with
    | cons also others => exact .cons (combines _ _ _ holds also) (ih others)

/-- Every group's list has the same shape. -/
def Tails (pool : BlockPool BlockHash) (blockHashes : List BlockHash)
    (blockSize start hitLength : Nat) (groupIds : List Nat) (computed : ComputedBlocks) : Prop :=
  Forall₂ (Tail pool blockHashes blockSize start hitLength) groupIds computed

/--
A result serves a kind of attention.

Every position the token after the hit reads lies in the cached part.
-/
def Serves (pool : BlockPool BlockHash) (blockHashes : List BlockHash) (kind : SpecKind)
    (blockSize hitLength : Nat) (groupIds : List Nat) (computed : ComputedBlocks) : Prop :=
  ∃ start, Tails pool blockHashes blockSize start hitLength groupIds computed ∧
      ∀ position, kind.Needs hitLength position → start ≤ position / blockSize

section Groups

variable {pool : BlockPool BlockHash} {hashes viewed : List BlockHash}
  {size start hit count : Nat} {ids : List Nat} {computed : ComputedBlocks}

theorem tails_replicate (pos : 0 < size) :
    Tails pool hashes size count (count * size) ids
      (ids.map fun _ => replicate count pool.nullBlock) := by
  unfold Tails
  rw [forall₂_map_right_iff, forall₂_same]
  intro groupId _
  exact Tail.replicate pos count

theorem tails_nil (pos : 0 < size) :
    Tails pool hashes size 0 0 ids (ids.map fun _ => []) := by
  have empty : Tails pool hashes size 0 (0 * size) ids
      (ids.map fun _ => replicate 0 pool.nullBlock) :=
    tails_replicate pos
  rwa [zero_mul] at empty

theorem Tails.count_eq (tails : Tails pool hashes size start hit ids computed)
    (present : ids ≠ []) : computed.count = cdiv hit size := by
  cases tails with
  | nil => exact absurd rfl present
  | cons tail rest => exact tail.length_eq

variable {cached : List BlockId}

theorem Tails.append {tokens : Nat} (pos : 0 < size)
    (tails : Tails pool hashes size start (count * size) ids computed)
    (started : start ≤ count)
    (listed :
      Forall₂ (fun groupId block =>
        pool.CachedUnder hashes groupId tokens block)
        ids cached)
    (above : count * size < tokens) (below : tokens ≤ (count + 1) * size) :
    Tails pool hashes size start tokens ids
      (computed.append cached) :=
  forall₂_zipWith (fun _ _ _ tail under => tail.append pos started under above below) tails listed

theorem Tails.truncate
    (tails : Tails pool hashes size start hit ids computed)
    (below : shorter ≤ hit) :
    Tails pool hashes size start shorter ids
      (computed.truncate (cdiv shorter size)) := by
  unfold Tails ComputedBlocks.truncate
  rw [forall₂_map_right_iff]
  exact Forall₂.imp (fun _ _ tail => tail.take below) tails

theorem Tails.truncate_blocks (pos : 0 < size)
    (tails : Tails pool hashes size start (count * size) ids computed)
    (below : shorter ≤ count) :
    Tails pool hashes size start (shorter * size) ids
      (computed.truncate shorter) := by
  have truncated := tails.truncate (Nat.mul_le_mul_right size below)
  rwa [cdiv_mul pos] at truncated

theorem BlockPool.ViewOf.forall₂_cachedUnder {unit pos : Nat} {hash : BlockHash}
    (view : pool.ViewOf hashes viewed unit) (present : viewed[pos]? = some hash)
    (found : pool.getCachedBlock hash ids = some cached) :
    Forall₂ (fun groupId block =>
      pool.CachedUnder hashes groupId ((pos + 1) * unit) block)
      ids cached :=
  (getCachedBlock_eq_some found).imp fun _ _ listed => view.cachedUnder present listed

/-- Collecting blocks adds whole blocks, at most one for each hash. -/
theorem Tails.collectBlocks {hashes : List BlockHash} (pos : 0 < size)
    (view : pool.ViewOf blockHashes viewed size)
    (tails : Tails pool blockHashes size start (count * size) ids computed)
    (started : start ≤ count)
    (aligned : ∀ offset hash, hashes[offset]? = some hash → viewed[count + offset]? = some hash) :
    ∃ total, total ≤ count + hashes.length ∧ Tails pool blockHashes size start (total * size) ids
        (collectBlocks pool ids hashes computed) := by
  induction hashes generalizing count computed with
  | nil => exact ⟨count, le_rfl, tails⟩
  | cons hash rest ih =>
    unfold VllmCore.collectBlocks
    split
    · exact ⟨count, Nat.le_add_right _ _, tails⟩
    rename_i cached found
    have next := Nat.mul_lt_mul_of_pos_right (Nat.lt_succ_self count) pos
    have extended :=
      tails.append pos started (view.forall₂_cachedUnder (aligned 0 hash rfl) found) next le_rfl
    obtain ⟨total, bounded, done⟩ :=
      ih extended (Nat.le_succ_of_le started) (by
        intro offset other present
        rw [add_right_comm]
        exact aligned (offset + 1) other present)
    refine ⟨total, ?_, done⟩
    rw [length_cons]
    omega

/-- A search ends at an accepted index whose hash every group has cached. -/
theorem searchDown_eq_some
    (searched : searchDown pool ids viewed accepts lower upper = .ok (some (index, cached))) :
    lower ≤ index ∧ index < upper ∧ accepts index = true ∧ ∃ hash, viewed[index]? = some hash ∧
      pool.getCachedBlock hash ids = some cached := by
  induction upper with
  | zero => cases searched
  | succ upper ih =>
    unfold searchDown at searched
    split at searched
    · cases searched
    rename_i inside
    obtain ⟨hash, read, next⟩ := bind_ok.mp searched
    have deeper : searchDown pool ids viewed accepts lower upper = .ok (some (index, cached)) →
          lower ≤ index ∧ index < upper + 1 ∧ accepts index = true ∧
            ∃ hash, viewed[index]? = some hash ∧ pool.getCachedBlock hash ids = some cached := by
      intro found
      obtain ⟨above, below, rest⟩ := ih found
      exact ⟨above, Nat.lt_succ_of_lt below, rest⟩
    split at next
    · exact deeper next
    rename_i blocks found
    split at next
    · rename_i accepted
      cases next
      exact ⟨Nat.not_lt.mp inside, Nat.lt_succ_self _, accepted, hash, indexed_eq_ok.mp read, found⟩
    · exact deeper next

end Groups

/-! ## Full attention -/

/--
The alignment a coordinator asks for.

It is either a multiple of the group's block size or the hash granularity, which
divides the block size.
-/
structure AlignedFor (pool : BlockPool BlockHash) (blockSize alignmentTokens : Nat) : Prop where
  blockSize_pos : 0 < blockSize
  alignment_pos : 0 < alignmentTokens
  hash_divides : blockSize % pool.config.hasher.hashBlockSize = 0
  multiple_or_hash :
    alignmentTokens % blockSize = 0 ∨ alignmentTokens = pool.config.hasher.hashBlockSize

section Finders

variable {pool : BlockPool BlockHash} {hashes : List BlockHash}
    {size align limit hit : Nat} {ids : List Nat} {computed : ComputedBlocks}

/-- Only the hash granularity is finer than a block. -/
theorem AlignedFor.eq_hashBlockSize (aligned : AlignedFor pool size align)
    (fine : fineGrained align size = true) :
    align = pool.config.hasher.hashBlockSize := by
  rcases aligned.multiple_or_hash with times | hash
  · have below : align < size := by
      simp only [fineGrained, Bool.and_eq_true, decide_eq_true_eq] at fine
      exact fine.1
    rw [Nat.mod_eq_of_lt below] at times
    exact absurd times (ne_of_gt aligned.alignment_pos)
  · exact hash

namespace FullAttentionManager

variable {fullHashes viewed : List BlockHash}

theorem viewOf_fullBlockHashes (aligned : AlignedFor pool size align)
    (resolved :
      resolveBlockHashes hashes pool.config.hasher.hashBlockSize size true
        (some align) = .ok viewed)
    (full : fullBlockHashes viewed size align = .ok fullHashes) :
    pool.ViewOf hashes fullHashes size := by
  unfold fullBlockHashes at full
  split at full
  · rename_i fine
    rw [resolve_fine fine resolved, aligned.eq_hashBlockSize fine] at full
    exact viewOf_withBlockSize aligned.blockSize_pos full
  · rename_i coarse
    cases full
    exact viewOf_resolve aligned.blockSize_pos (by simpa using coarse) resolved

/-- The extension stays inside the first block that is not full. -/
theorem tails_extendPartial {count : Nat} {run : ComputedBlocks}
    (aligned : AlignedFor pool size align) (present : ids ≠ [])
    (resolved :
      resolveBlockHashes hashes pool.config.hasher.hashBlockSize size true
        (some align) = .ok viewed)
    (tails : Tails pool hashes size 0 (count * size) ids run)
    (bounded : count * size ≤ limit)
    (extended :
      extendPartial pool viewed limit ids size align run = .ok (computed, hit)) :
    Tails pool hashes size 0 hit ids computed ∧ count * size ≤ hit ∧ hit ≤ limit := by
  have count_run : run.count = count := by
    rw [tails.count_eq present, cdiv_mul aligned.blockSize_pos]
  unfold extendPartial at extended
  rw [count_run] at extended
  split at extended
  · rename_i fine
    obtain ⟨found, searched, continued⟩ := bind_ok.mp extended
    cases found with
    | none =>
      cases continued
      exact ⟨tails, le_rfl, bounded⟩
    | some pair =>
      obtain ⟨fineIdx, cachedTail⟩ := pair
      cases continued
      obtain ⟨lower, upper, _, hash, read, cached⟩ := searchDown_eq_some searched
      have raw := resolve_fine fine resolved
      have granularity := aligned.eq_hashBlockSize fine
      have view : pool.ViewOf hashes viewed align := by
        rw [raw, granularity]
        exact viewOf_self
      have scaled : size / align * align = size := by
        rw [granularity]
        exact Nat.div_mul_cancel (Nat.dvd_of_mod_eq_zero aligned.hash_divides)
      have start : count * size ≤ fineIdx * align := by
        rw [← scaled, ← mul_assoc]
        exact Nat.mul_le_mul_right _ lower
      have next : fineIdx * align < (fineIdx + 1) * align :=
        Nat.mul_lt_mul_of_pos_right (Nat.lt_succ_self _) aligned.alignment_pos
      have inside : (fineIdx + 1) * align ≤ (count + 1) * size := by
        rw [← scaled, ← mul_assoc]
        apply Nat.mul_le_mul_right
        rw [add_mul]
        omega
      have reached : (fineIdx + 1) * align ≤ limit := by
        apply le_trans _ (Nat.div_mul_le_self limit align)
        apply Nat.mul_le_mul_right
        omega
      refine ⟨?_, le_of_lt (lt_of_le_of_lt start next), reached⟩
      exact tails.append aligned.blockSize_pos (Nat.zero_le _)
        (view.forall₂_cachedUnder read cached) (lt_of_le_of_lt start next) inside
  · cases extended
    exact ⟨tails, le_rfl, bounded⟩

theorem settledLength_le (hit size : Nat) (eagle : Bool) (align : Nat) :
    settledLength hit size eagle align ≤ hit - if eagle then min align size else 0 := by
  unfold settledLength
  cases eagle with
  | false => simp
  | true =>
    rcases eq_zero_or_pos hit with zero | pos
    · simp [zero]
    · simp [pos]

theorem settledLength_mod (hit size : Nat) (eagle : Bool) (align : Nat) :
    settledLength hit size eagle align %
      align = 0 :=
  Nat.mod_eq_zero_of_dvd (Nat.dvd_sub_mod _)

/-- The run of full blocks fits into the maximum length. -/
theorem tails_run (pos : 0 < size) (view : pool.ViewOf hashes fullHashes size) :
    ∃ total, total * size ≤ limit ∧ Tails pool hashes size 0 (total * size) ids
        (collectBlocks pool ids (fullHashes.take (limit / size))
          (ids.map fun _ => [])) := by
  have start : Tails pool hashes size 0 (0 * size) ids (ids.map fun _ => []) := by
    rw [zero_mul]
    exact tails_nil pos
  have leading : ∀ offset hash, (fullHashes.take (limit / size))[offset]? = some hash →
      fullHashes[0 + offset]? = some hash := by
    intro offset hash read
    rw [zero_add]
    exact getElem?_of_take read
  obtain ⟨total, bounded, run⟩ := start.collectBlocks pos view (le_refl 0) leading
  refine ⟨total, ?_, run⟩
  apply le_trans _ (Nat.div_mul_le_self limit size)
  apply Nat.mul_le_mul_right
  rw [zero_add] at bounded
  exact le_trans bounded (length_take_le _ _)

/-- What the full-attention finder returns is cached from the first block on. -/
theorem findLongestCacheHit_eq_ok (aligned : AlignedFor pool size align)
    (present : ids ≠ [])
    (found :
      findLongestCacheHit pool hashes limit ids size
        eagle align = .ok (computed, hit)) :
    Tails pool hashes size 0 hit ids computed ∧ hit % align = 0 ∧
      hit ≤ limit - if eagle then min align size else 0 := by
  obtain ⟨viewed, resolved, afterView⟩ := bind_ok.mp found
  obtain ⟨fullHashes, full, afterFull⟩ := bind_ok.mp afterView
  obtain ⟨⟨extended, extendedLength⟩, extension, settled⟩ := bind_ok.mp afterFull
  cases settled
  obtain ⟨total, bounded, run⟩ :=
    tails_run aligned.blockSize_pos (viewOf_fullBlockHashes aligned resolved full)
  obtain ⟨tails, _, reached⟩ := tails_extendPartial aligned present resolved run bounded extension
  have shorter := settledLength_le extendedLength size eagle align
  refine ⟨?_, settledLength_mod _ _ _ _, le_trans shorter ?_⟩
  · exact tails.truncate (le_trans shorter (Nat.sub_le _ _))
  · exact Nat.sub_le_sub_right reached _

end FullAttentionManager

/-! ## Sliding window -/

/-- A list during the scan: only the run at `index` is known to be cached. -/
structure Scanned (pool : BlockPool BlockHash) (blockHashes : List BlockHash)
    (blockSize total index count groupId : Nat) (blocks : List BlockId) : Prop where
  length_eq : blocks.length = total
  null_before :
    ∀ position block, position < index → blocks[position]? = some block → block = pool.nullBlock
  cached :
    ∀ position block, index ≤ position → position < index + count → blocks[position]? = some block →
      pool.CachedUnder blockHashes groupId ((position + 1) * blockSize) block

section Scanned

variable {total index count groupId : Nat} {blocks : List BlockId}

section

variable (scanned : Scanned pool hashes size total (index + 1) count groupId blocks)
include scanned

/-- A missing or misaligned block ends the run. -/
theorem Scanned.restart :
    Scanned pool hashes size total index 0 groupId blocks where
  length_eq := scanned.length_eq
  null_before pos block before :=
    scanned.null_before pos block (Nat.lt_succ_of_lt before)
  cached _ _ behind before := absurd behind (Nat.not_le.mpr before)

/-- A cached block extends the run to the left. -/
theorem Scanned.extend {block : BlockId}
    (listed : pool.CachedUnder hashes groupId ((index + 1) * size) block) :
    Scanned pool hashes size total index (count + 1) groupId
      (blocks.set index block) where
  length_eq := by
    rw [length_set, scanned.length_eq]
  null_before := by
    intro pos found before present
    rw [getElem?_set_ne (ne_of_gt before)] at present
    exact scanned.null_before pos found (Nat.lt_succ_of_lt before) present
  cached := by
    intro pos found behind before present
    rcases eq_or_lt_of_le behind with same | further
    · subst same
      rw [getElem?_set_self' ] at present
      obtain ⟨_, _, replaced⟩ := Option.map_eq_some_iff.mp present
      rw [← replaced]
      exact listed
    · rw [getElem?_set_ne (ne_of_lt further)] at present
      exact scanned.cached pos found further (by omega) present

end

/-- Trimmed to its end, the run is the cached part of the list. -/
theorem Scanned.tail (pos : 0 < size)
    (scanned : Scanned pool hashes size total index count groupId blocks)
    (bounded : index + count ≤ total) :
    Tail pool hashes size index ((index + count) * size) groupId
      (blocks.take (index + count)) where
  length_eq := by
    rw [length_take, scanned.length_eq, cdiv_mul pos]
    exact min_eq_left bounded
  null_before position block before present :=
    scanned.null_before position block before (getElem?_of_take present)
  cached := by
    intro position block behind present
    obtain ⟨inside, _⟩ := List.getElem?_eq_some_iff.mp present
    have before : position < index + count := lt_of_lt_of_le inside (length_take_le _ _)
    refine ⟨(position + 1) * size, ?_, ?_, le_rfl, min_le_right _ _⟩
    · exact scanned.cached position block behind before (getElem?_of_take present)
    · exact Nat.mul_lt_mul_of_pos_right (Nat.lt_succ_self _) pos

end Scanned

namespace SlidingWindowManager

variable {total index count needed : Nat}

/-- The scan ends at a match of enough blocks or with the leading run. -/
theorem scan_eq_ok
    {viewed : List BlockHash} {result : ComputedBlocks} {found : Nat} {matched : Bool}
    (pos : 0 < size) (view : pool.ViewOf hashes viewed size)
    (scanned : Forall₂ (Scanned pool hashes size total index count) ids computed)
    (bounded : index + count ≤ total)
    (started : 0 < count → mayStart (index + count - 1) size eagle align = true)
    (done :
      scan pool ids viewed size eagle align needed index
        computed count = .ok (result, found, matched)) :
    (matched = true ∧ ∃ start, start + found ≤ total ∧ needed ≤ found ∧ 0 < found ∧
          mayStart (start + found - 1) size eagle align = true ∧
          Tails pool hashes size start ((start + found) * size)
            ids result) ∨
      (matched = false ∧ found ≤ total ∧ Forall₂ (Scanned pool hashes size total 0 found)
          ids result) := by
  induction index generalizing computed count with
  | zero =>
    cases done
    exact .inr ⟨rfl, by omega, scanned⟩
  | succ index ih =>
    obtain ⟨hash, read, next⟩ := bind_ok.mp done
    have restarted : Forall₂ (Scanned pool hashes size total index 0) ids computed :=
      scanned.imp fun _ _ one => one.restart
    split at next
    · exact ih restarted (by omega) (fun absent => absurd absent (lt_irrefl 0)) next
    rename_i cached looked
    split at next
    · rename_i skipped
      rw [skipped.1] at next
      exact ih restarted (by omega) (fun absent => absurd absent (lt_irrefl 0)) next
    rename_i kept
    have extended : Forall₂ (Scanned pool hashes size total index (count + 1))
        ids (computed.set index cached) :=
      forall₂_zipWith (fun _ _ _ one listed => one.extend listed) scanned
        (view.forall₂_cachedUnder (indexed_eq_ok.mp read) looked)
    have starts : mayStart (index + (count + 1) - 1) size eagle align = true := by
      rcases eq_zero_or_pos count with zero | running
      · subst zero
        rw [not_and, Bool.not_eq_false] at kept
        exact kept rfl
      · have before := started running
        rwa [show index + 1 + count - 1 = index + (count + 1) - 1 by omega] at before
    split at next
    · rename_i enough
      cases next
      refine .inl ⟨rfl, index, by omega, enough, Nat.succ_pos _, starts, ?_⟩
      unfold Tails ComputedBlocks.truncate
      rw [forall₂_map_right_iff]
      exact extended.imp fun _ _ one => one.tail pos (by omega)
    · exact ih extended (by omega) (fun _ => starts) next

theorem alignedCount_le (size align numBlocks : Nat) :
    alignedCount size align numBlocks ≤ numBlocks := by
  induction numBlocks with
  | zero => exact le_refl 0
  | succ numBlocks ih =>
    unfold alignedCount
    split
    · exact Nat.le_succ_of_le ih
    · exact le_rfl

theorem alignedCount_mul_mod :
    alignedCount size align numBlocks * size % align = 0 := by
  induction numBlocks with
  | zero => simp [alignedCount]
  | succ numBlocks ih =>
    unfold alignedCount
    split
    · exact ih
    rename_i kept
    rw [not_and_or, Decidable.not_not, Decidable.not_not] at kept
    rcases kept with same | times
    · rw [same]
      exact Nat.mul_mod_left _ _
    · exact times

/-- An aligned length pops nothing. -/
theorem alignedCount_eq (times : numBlocks * size % align = 0) :
    alignedCount size align numBlocks = numBlocks := by
  cases numBlocks with
  | zero => rfl
  | succ numBlocks =>
    unfold alignedCount
    rw [if_neg fun popped => popped.2 times]

theorem mayStart_eq_true :
    mayStart index size eagle align = true ↔
      (if eagle then index else index + 1) * size % align = 0 := by
  simp only [mayStart, Bool.or_eq_true, beq_iff_eq, or_iff_right_iff_imp]
  rintro rfl
  exact Nat.mul_mod_left _ _

variable (pos : 0 < size)
include pos

/-- What is left of a scan: an aligned leading run, or enough cached blocks. -/
theorem tails_trimmed {scanned : ComputedBlocks × Nat × Bool} (present : ids ≠ [])
    (ended :
      (scanned.2.2 = true ∧ ∃ start,
          start + scanned.2.1 ≤ total ∧ needed ≤ scanned.2.1 ∧ 0 < scanned.2.1 ∧
            mayStart (start + scanned.2.1 - 1) size eagle
              align = true ∧
            Tails pool hashes size start
              ((start + scanned.2.1) * size) ids scanned.1) ∨
        (scanned.2.2 = false ∧ scanned.2.1 ≤ total ∧
          Forall₂ (Scanned pool hashes size total 0 scanned.2.1)
            ids scanned.1)) :
    ∃ start numBlocks, numBlocks ≤ total ∧ Tails pool hashes size start (numBlocks * size) ids
          (trimmed size align scanned) ∧
        (start = 0 ∧ numBlocks * size % align = 0 ∨ start + needed ≤ numBlocks ∧ 0 < numBlocks ∧
            mayStart (numBlocks - 1) size eagle align = true) := by
  obtain ⟨result, found, matched⟩ := scanned
  rcases ended with ⟨stopped, start, bounded, enough, some, aligned, tails⟩ |
    ⟨exhausted, bounded, leading⟩
  · subst stopped
    exact ⟨start, start + found, bounded, tails,
      .inr ⟨Nat.add_le_add_left enough start, Nat.add_pos_right start some, aligned⟩⟩
  subst exhausted
  have run : Tails pool hashes size 0 (found * size) ids (result.truncate found) := by
    unfold Tails ComputedBlocks.truncate
    rw [forall₂_map_right_iff]
    refine leading.imp fun _ _ one => ?_
    have tail := one.tail pos (by rwa [zero_add])
    rwa [zero_add] at tail
  have length_run : (result.truncate found).count = found := by
    rw [run.count_eq present, cdiv_mul pos]
  refine ⟨0, alignedCount size align found, le_trans (alignedCount_le _ _ _) bounded, ?_,
    .inl ⟨rfl, alignedCount_mul_mod⟩⟩
  simp only [trimmed, Bool.false_eq_true, if_false, length_run]
  exact run.truncate_blocks pos (alignedCount_le _ _ _)

/-- After the EAGLE drop the length is aligned and the window still covered. -/
theorem tails_dropped (present : ids ≠ [])
    (bounded : numBlocks ≤ total)
    (tails : Tails pool hashes size start (numBlocks * size) ids computed)
    (covered :
      start = 0 ∧ numBlocks * size % align = 0 ∨
        start + (windowBlocks + if eagle then 1 else 0) ≤ numBlocks ∧ 0 < numBlocks ∧
          mayStart (numBlocks - 1) size eagle align = true) :
    ∃ remaining, remaining ≤ (total - if eagle then 1 else 0) ∧ remaining * size % align = 0 ∧
        Tails pool hashes size start (remaining * size) ids
          (dropped size eagle align computed) ∧
        (start = 0 ∨ start + windowBlocks ≤ remaining) := by
  have count_computed : computed.count = numBlocks := by
    rw [tails.count_eq present, cdiv_mul pos]
  cases eagle with
  | false =>
    refine ⟨numBlocks, bounded, ?_, tails, ?_⟩
    · rcases covered with ⟨_, times⟩ | ⟨_, some, aligned⟩
      · exact times
      · simpa [Nat.sub_add_cancel some] using mayStart_eq_true.mp aligned
    · rcases covered with ⟨zero, _⟩ | ⟨enough, _⟩
      · exact .inl zero
      · exact .inr enough
  | true =>
    unfold dropped
    rw [count_computed]
    rcases eq_zero_or_pos numBlocks with zero | some
    · refine ⟨0, Nat.zero_le _, by simp, ?_, ?_⟩
      · rw [if_neg (by simp [zero]), ← zero]
        exact tails
      · rcases covered with ⟨leading, _⟩ | ⟨_, nonempty, _⟩
        · exact .inl leading
        · exact absurd zero (ne_of_gt nonempty)
    · have popped : true = true ∧ numBlocks ≠ 0 := ⟨rfl, ne_of_gt some⟩
      rw [if_pos popped]
      refine ⟨alignedCount size align (numBlocks - 1),
        le_trans (alignedCount_le _ _ _) (Nat.sub_le_sub_right bounded 1),
        alignedCount_mul_mod,
        tails.truncate_blocks pos (le_trans (alignedCount_le _ _ _) (Nat.sub_le _ _)), ?_⟩
      rcases covered with ⟨leading, _⟩ | ⟨enough, _, aligned⟩
      · exact .inl leading
      · -- The run started where its end minus one block is aligned.
        have times := mayStart_eq_true.mp aligned
        simp only [if_true] at enough times
        rw [alignedCount_eq times]
        exact .inr (by omega)

/-- Enough cached blocks at the end cover the window. -/
theorem window_covered
    (covered : start = 0 ∨ start + cdiv (window - 1) size ≤ remaining)
    (needs : (SpecKind.slidingWindow window).Needs (remaining * size) position) :
    start ≤ position / size := by
  rcases covered with zero | enough
  · rw [zero]
    exact Nat.zero_le _
  rw [Nat.le_div_iff_mul_le pos]
  obtain ⟨inside, unskipped⟩ := needs
  simp only [SpecKind.getNumSkippedTokens] at unskipped
  have width : window - 1 ≤ (remaining - start) * size :=
    (cdiv_le_iff pos).mp (Nat.le_sub_of_add_le' enough)
  rw [Nat.sub_mul] at width
  omega

/-- What the sliding-window finder returns covers the window. -/
theorem findLongestCacheHit_eq_ok (present : ids ≠ [])
    (found :
      findLongestCacheHit pool hashes limit ids window size
        eagle align = .ok (computed, hit)) :
    Serves pool hashes (.slidingWindow window) size hit ids
        computed ∧
      hit % align = 0 ∧
      hit ≤ limit - if eagle then size else 0 := by
  obtain ⟨_, _, afterAssert⟩ := bind_ok.mp found
  obtain ⟨viewed, resolved, afterView⟩ := bind_ok.mp afterAssert
  obtain ⟨scanned, done, ran⟩ := bind_ok.mp afterView
  cases ran
  have view := viewOf_resolve pos rfl resolved
  have start : Forall₂ (Scanned pool hashes size (limit / size) (limit / size) 0) ids
        (ids.map fun _ =>
          replicate (limit / size) pool.nullBlock) := by
    rw [forall₂_map_right_iff, forall₂_same]
    intro groupId _
    refine ⟨length_replicate, ?_, ?_⟩
    · intro position block _ read
      exact eq_of_mem_replicate (mem_of_getElem? read)
    · intro position block behind before
      exact absurd behind (Nat.not_le.mpr before)
  have ended :=
    scan_eq_ok pos view start le_rfl (fun absent => absurd absent (lt_irrefl 0)) done
  obtain ⟨first, numBlocks, bounded, tails, covered⟩ := tails_trimmed pos present ended
  obtain ⟨remaining, below, times, final, covers⟩ :=
    tails_dropped pos present bounded tails covered
  have length_final : (dropped size eagle align
      (trimmed size align scanned)).count = remaining := by
    rw [final.count_eq present, cdiv_mul pos]
  rw [length_final]
  refine ⟨⟨first, final, fun position => window_covered pos covers⟩, times, ?_⟩
  have whole := Nat.div_mul_le_self limit size
  have scaled := Nat.mul_le_mul_right size below
  rw [Nat.sub_mul] at scaled
  cases eagle with
  | false =>
    simp only [Bool.false_eq_true, if_false, zero_mul] at scaled ⊢
    exact le_trans scaled whole
  | true =>
    simp only [if_true, one_mul] at scaled ⊢
    omega

end SlidingWindowManager

/-! ## Mamba -/

namespace MambaManager

theorem serves_none (pos : 0 < size) :
    Serves pool hashes (.mamba mode numSpeculativeBlocks) size 0 ids
      (ids.map fun _ => []) :=
  ⟨0, tails_nil pos, fun _ _ => Nat.zero_le _⟩

/-- One state at the end of the hit is what the next token reads. -/
theorem serves_state (pos : 0 < size)
    (listed :
      Forall₂ (fun groupId block =>
        pool.CachedUnder hashes groupId tokens block)
        ids cached)
    (above : blockIdx * size < tokens) (below : tokens ≤ (blockIdx + 1) * size) :
    Serves pool hashes (.mamba mode numSpeculativeBlocks) size tokens
      ids
      (ComputedBlocks.append (ids.map fun _ => replicate blockIdx pool.nullBlock) cached) := by
  refine ⟨blockIdx, ?_, ?_⟩
  · exact (tails_replicate pos).append pos le_rfl listed above below
  · intro position needs
    obtain ⟨inside, unskipped⟩ := needs
    simp only [SpecKind.getNumSkippedTokens] at unskipped
    rw [Nat.le_div_iff_mul_le pos]
    omega

/-- What the Mamba finder returns ends in the state of the hit. -/
theorem findLongestCacheHit_eq_ok (aligned : AlignedFor pool size align)
    (found :
      findLongestCacheHit pool hashes limit ids size
        align = .ok (computed, hit)) :
    Serves pool hashes (.mamba mode numSpeculativeBlocks) size hit
        ids computed ∧
      hit % align = 0 ∧ hit ≤ limit := by
  have pos := aligned.blockSize_pos
  obtain ⟨viewed, resolved, afterView⟩ := bind_ok.mp found
  split at afterView
  · rename_i fine
    obtain ⟨search, searched, ran⟩ := bind_ok.mp afterView
    cases search with
    | none =>
      cases ran
      exact ⟨serves_none pos, Nat.zero_mod _, Nat.zero_le _⟩
    | some pair =>
      cases ran
      obtain ⟨_, upper, _, hash, read, looked⟩ := searchDown_eq_some searched
      have granularity := aligned.eq_hashBlockSize fine
      have view : pool.ViewOf hashes viewed align := by
        rw [resolve_fine fine resolved, granularity]
        exact viewOf_self
      have scaled : size / align * align = size := by
        rw [granularity]
        exact Nat.div_mul_cancel (Nat.dvd_of_mod_eq_zero aligned.hash_divides)
      have factor : 0 < size / align := Nat.pos_of_mul_pos_right (scaled ▸ pos)
      refine ⟨?_, Nat.mul_mod_left _ _, ?_⟩
      · apply serves_state pos (view.forall₂_cachedUnder read looked)
        · generalize size / align = scaleFactor at *
          rw [← scaled, ← mul_assoc]
          apply Nat.mul_lt_mul_of_pos_right _ aligned.alignment_pos
          exact Nat.lt_succ_of_le (Nat.div_mul_le_self _ _)
        · generalize size / align = scaleFactor at *
          rw [← scaled, ← mul_assoc]
          apply Nat.mul_le_mul_right
          exact Nat.lt_mul_of_div_lt (Nat.lt_succ_self _) factor
      · apply le_trans _ (Nat.div_mul_le_self limit align)
        apply Nat.mul_le_mul_right
        exact le_trans upper (min_le_left _ _)
  · rename_i coarse
    obtain ⟨search, searched, ran⟩ := bind_ok.mp afterView
    cases search with
    | none =>
      cases ran
      exact ⟨serves_none pos, Nat.zero_mod _, Nat.zero_le _⟩
    | some pair =>
      cases ran
      obtain ⟨_, upper, accepted, hash, read, looked⟩ := searchDown_eq_some searched
      have view := viewOf_resolve pos (by simpa using coarse) resolved
      refine ⟨?_, ?_, ?_⟩
      · apply serves_state pos (view.forall₂_cachedUnder read looked)
        · exact Nat.mul_lt_mul_of_pos_right (Nat.lt_succ_self _) pos
        · exact le_rfl
      · rw [Bool.or_eq_true, beq_iff_eq, beq_iff_eq] at accepted
        rcases accepted with same | times
        · rw [same]
          exact Nat.mul_mod_left _ _
        · exact times
      · apply le_trans _ (Nat.div_mul_le_self limit size)
        exact Nat.mul_le_mul_right _ upper

end MambaManager

/-! ## One contract for all kinds -/

/-- The kinds of attention the hybrid search combines. -/
def SpecKind.Searchable : SpecKind → Prop
  | .fullAttention => True
  | .slidingWindow _ => True
  | .mamba _ _ => True
  | .chunkedLocalAttention _ => False
  | .crossAttention => False

/--
Whatever the pool holds, a result serves its kind, is aligned, and leaves room for
the block an EAGLE lookup drops.
-/
theorem SpecKind.findLongestCacheHit_eq_ok (searchable : kind.Searchable)
    (aligned : AlignedFor pool size align) (present : ids ≠ [])
    (found :
      kind.findLongestCacheHit pool hashes limit ids size
        eagle align = .ok (computed, hit)) :
    Serves pool hashes kind size hit ids computed ∧ hit % align = 0 ∧ hit ≤ limit -
          if eagle && !kind.isMamba then min align size
          else 0 := by
  cases kind with
  | fullAttention =>
    obtain ⟨tails, times, bounded⟩ :=
      FullAttentionManager.findLongestCacheHit_eq_ok aligned present found
    refine ⟨⟨0, tails, fun _ _ => Nat.zero_le _⟩, times, ?_⟩
    simpa [SpecKind.isMamba] using bounded
  | slidingWindow window =>
    have asserted : align % size = 0 := by
      obtain ⟨_, passed, _⟩ := bind_ok.mp found
      exact ensure_eq_ok.mp passed
    obtain ⟨serves, times, bounded⟩ :=
      SlidingWindowManager.findLongestCacheHit_eq_ok aligned.blockSize_pos present found
    have smaller : min align size = size :=
      min_eq_right (Nat.le_of_dvd aligned.alignment_pos (Nat.dvd_of_mod_eq_zero asserted))
    refine ⟨serves, times, ?_⟩
    simpa [SpecKind.isMamba, smaller] using bounded
  | mamba mode numSpeculativeBlocks =>
    obtain ⟨serves, times, bounded⟩ := MambaManager.findLongestCacheHit_eq_ok aligned found
    refine ⟨serves, times, ?_⟩
    simpa [SpecKind.isMamba] using bounded
  | _ => exact searchable.elim

end Finders

end VllmCore
