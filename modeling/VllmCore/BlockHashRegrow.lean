import VllmCore.BlockHashSharing

namespace VllmCore

open List MultiModalFeatureSpec

/-!
# Hash lists carried over to a changed request

A request may be hashed, then have its tokens and multimodal items replaced, and
then be hashed on.  Existing hashes are kept and the hasher resumes behind them,
from the last item.  This module says exactly when the result is the hash list of
a fresh request with the new content.
-/

/-- An item reaches into block `k`. -/
abbrev MultiModalFeatureSpec.Reaches (hashBlockSize k : Nat)
    (feature : MultiModalFeatureSpec) : Prop :=
  Lib.Overlaps MultiModalFeatureSpec.start MultiModalFeatureSpec.stop
    (k * hashBlockSize) (k * hashBlockSize + hashBlockSize) feature

namespace BlockHasher

variable {BlockHash : Type}

/-! ## Reading from the last item on -/

/-- A cursor that sees at most the last item, and the same cursor on that item alone. -/
def SeesLast (mmFeatures : List MultiModalFeatureSpec) (cursor alone : MmCursor) : Prop :=
  mmFeatures ≠ [] → ∃ position, alone = .index position ∧
      cursor.resolve mmFeatures.length = position + (mmFeatures.length - 1)

variable {mmFeatures : List MultiModalFeatureSpec} {cursor alone : MmCursor}

theorem drop_seesLast (isLast : mmFeatures.getLast? = some last)
    :
    mmFeatures.drop (pos + (mmFeatures.length - 1)) = [last].drop pos := by
  obtain ⟨front, rfl⟩ := getLast?_eq_some_iff.mp isLast
  rw [length_append, length_singleton, Nat.add_sub_cancel, Nat.add_comm, ← drop_drop, drop_left]

/-- One window reads the same from the last item on as from that item alone. -/
theorem mmKeys_seesLast (startIdx endTokenIdx : Nat)
    (sees : SeesLast mmFeatures cursor alone) :
    (genMmExtraHashKeys mmFeatures startIdx endTokenIdx cursor).1 =
        (genMmExtraHashKeys mmFeatures.getLast?.toList startIdx endTokenIdx alone).1 ∧
      SeesLast mmFeatures
        (genMmExtraHashKeys mmFeatures startIdx endTokenIdx cursor).2
        (genMmExtraHashKeys mmFeatures.getLast?.toList startIdx endTokenIdx alone).2 := by
  cases isLast : mmFeatures.getLast? with
  | none =>
    have empty := getLast?_eq_none_iff.mp isLast
    subst empty
    exact ⟨rfl, fun nonempty => absurd rfl nonempty⟩
  | some last =>
    have nonempty : mmFeatures ≠ [] := by
      rintro rfl
      cases isLast
    obtain ⟨pos, rfl, resolved⟩ := sees nonempty
    unfold genMmExtraHashKeys
    rw [isLast]
    simp only [Option.toList_some, getLast?_singleton]
    split
    · exact ⟨rfl, fun _ => ⟨pos, rfl, resolved⟩⟩
    have aloneResolved : (MmCursor.index pos).resolve [last].length = pos := rfl
    simp only [resolved, aloneResolved, drop_seesLast isLast, Lib.scanWindow_add]
    exact ⟨trivial, fun _ => ⟨_, rfl, rfl⟩⟩

variable (hasher : BlockHasher BlockHash) {old new : RequestContent}

/-- Reading from the last item on is reading a request with that item alone. -/
theorem blockContents_seesLast (request : RequestContent) (count startIdx : Nat)
    (sees : SeesLast request.mmFeatures cursor alone) :
    hasher.blockContents request count startIdx cursor = hasher.blockContents
      { request with mmFeatures := request.mmFeatures.getLast?.toList }
        count startIdx alone := by
  induction count generalizing startIdx cursor alone with
  | zero => rfl
  | succ count ih =>
    obtain ⟨keys, next⟩ :=
      mmKeys_seesLast startIdx (startIdx + hasher.hashBlockSize) sees
    simp only [blockContents, generateBlockHashExtraKeys, keys]
    congr 1
    exact ih (startIdx + hasher.hashBlockSize) next

/-- Block by block: a restarted reading lists the last item or nothing. -/
theorem getElem?_restart
    (disjoint : Separate request.mmFeatures) {count firstBlock k : Nat} (within : k < count) :
    (hasher.blockContents request count (firstBlock * hasher.hashBlockSize) .last)[k]? =
      some (hasher.blockContentAt request ((firstBlock + k) * hasher.hashBlockSize)
        (request.mmFeatures.getLast?.toList.filter fun feature =>
          feature.Reaches hasher.hashBlockSize (firstBlock + k))) := by
  have sees : SeesLast request.mmFeatures .last (.index 0) := by
    intro _
    exact ⟨0, rfl, (Nat.zero_add _).symm⟩
  have single : Separate request.mmFeatures.getLast?.toList := by
    refine ⟨?_, ?_⟩
    · cases request.mmFeatures.getLast? <;> simp
    · intro feature mem
      rw [Option.mem_toList] at mem
      exact disjoint.proper feature (mem_of_getLast? mem)
  have front : CursorPassed request.mmFeatures.getLast?.toList (.index 0)
      (firstBlock * hasher.hashBlockSize) :=
    Lib.passedBefore_zero
  let alone : RequestContent := { request with mmFeatures := request.mmFeatures.getLast?.toList }
  have singleAlone : Separate alone.mmFeatures := single
  rw [hasher.blockContents_seesLast request count _ sees]
  have read := hasher.getElem?_blockContents singleAlone front within
  rw [← Nat.add_mul] at read
  exact read

/-! ## Carried-over hashes -/

/-- Two contents hashed with the same adapter, salt and embeddings. -/
structure SameSetting (old new : RequestContent) : Prop where
  loraRequest : new.loraRequest = old.loraRequest
  cacheSalt : new.cacheSalt = old.cacheSalt
  promptEmbeds : new.promptEmbeds = old.promptEmbeds

/--
The hashes of `old` are the first hashes of `new`, and no earlier item reaches into
the blocks that are read from the last item on.
-/
structure Regrows (hashBlockSize : Nat) (old new : RequestContent) : Prop where
  tokens :
    new.allTokenIds.take (old.numTokens / hashBlockSize * hashBlockSize) =
      old.allTokenIds.take (old.numTokens / hashBlockSize * hashBlockSize)
  items :
    ∀ k < old.numTokens / hashBlockSize, (new.mmFeatures.filter fun feature =>
        feature.Reaches hashBlockSize k).map MultiModalFeatureSpec.key =
      (old.mmFeatures.filter fun feature =>
        feature.Reaches hashBlockSize k).map MultiModalFeatureSpec.key
  restart :
    0 < old.numTokens / hashBlockSize →
      ∀ k, old.numTokens / hashBlockSize ≤ k → k < new.numTokens / hashBlockSize →
        ∀ feature ∈ new.mmFeatures.dropLast, ¬ feature.Reaches hashBlockSize k

/-- The contents behind the hashes of `old` continued over `new`. -/
def regrownContents (old new : RequestContent) : List BlockContent :=
  let oldBlocks := old.numTokens / hasher.hashBlockSize
  hasher.blockContents old oldBlocks 0 (.index 0) ++
    hasher.blockContents new (new.numTokens / hasher.hashBlockSize - oldBlocks)
      (oldBlocks * hasher.hashBlockSize) (startCursor (oldBlocks * hasher.hashBlockSize))

/-- Hashing on keeps the old hashes and chains over the remaining blocks. -/
theorem update_eq_chain {hasher : BlockHasher BlockHash}
    {request : HashedRequest BlockHash}
    (hashed : request.blockHashes = (HashedRequest.create hasher old).blockHashes) :
    (request.updateBlockHashes hasher).blockHashes =
      hasher.chain none (hasher.regrownContents old request.toRequestContent) := by
  have length_hashed : request.blockHashes.length = old.numTokens / hasher.hashBlockSize := by
    rw [hashed, create_blockHashes, length_chain, length_blockContents]
  simp only [HashedRequest.updateBlockHashes, hasher_eq_chain]
  rw [regrownContents, chain_append, Option.or_none, ← create_blockHashes, ← hashed, length_hashed]

theorem contentAt_sameSetting (same : SameSetting old new)
    :
    hasher.blockContentAt old startIdx shown = hasher.blockContentAt new startIdx others ↔
      blockTokens old startIdx (startIdx + hasher.hashBlockSize) =
          blockTokens new startIdx (startIdx + hasher.hashBlockSize) ∧
        shown.map key = others.map key := by
  simp only [blockContentAt, blockKeys, same.loraRequest, same.cacheSalt,
    same.promptEmbeds, Prod.mk.injEq, extraKeyTuple_inj, append_assoc,
    append_cancel_left_eq]
  rw [← append_assoc, ← append_assoc, append_cancel_right_eq, append_cancel_right_eq, mmKeys_eq_iff]

/-- The last item stands for all exactly when no earlier one passes the test. -/
theorem map_key_filter_last_eq_iff {features : List MultiModalFeatureSpec}
    :
    (features.getLast?.toList.filter test).map key = (features.filter test).map key ↔
      ∀ feature ∈ features.dropLast, test feature = false := by
  cases isLast : features.getLast? with
  | none =>
    rw [getLast?_eq_none_iff.mp isLast]
    simp
  | some last =>
    obtain ⟨front, rfl⟩ := getLast?_eq_some_iff.mp isLast
    simp

section Reading

variable (hasher : BlockHasher BlockHash) {old new : RequestContent} {k : Nat}

theorem getElem?_fresh (disjoint : Separate new.mmFeatures) {count : Nat} (within : k < count) :
    (hasher.blockContents new count 0 (.index 0))[k]? =
      some (hasher.blockContentAt new (k * hasher.hashBlockSize)
        (new.mmFeatures.filter fun feature =>
          feature.Reaches hasher.hashBlockSize k)) := by
  have front : CursorPassed new.mmFeatures (.index 0) 0 := Lib.passedBefore_zero
  have read := hasher.getElem?_blockContents disjoint front within
  rwa [Nat.zero_add] at read

theorem getElem?_regrown_old (disjoint : Separate old.mmFeatures)
    (early : k < old.numTokens / hasher.hashBlockSize) :
    (hasher.regrownContents old new)[k]? =
      some (hasher.blockContentAt old (k * hasher.hashBlockSize)
        (old.mmFeatures.filter fun feature =>
          feature.Reaches hasher.hashBlockSize k)) := by
  rw [regrownContents, getElem?_append_left (by simpa using early)]
  exact hasher.getElem?_fresh disjoint early

theorem getElem?_regrown_new (disjoint : Separate new.mmFeatures)
    (late : old.numTokens / hasher.hashBlockSize ≤ k)
    (within : k < new.numTokens / hasher.hashBlockSize) :
    (hasher.regrownContents old new)[k]? =
      some (hasher.blockContentAt new (k * hasher.hashBlockSize)
        ((if 0 < old.numTokens / hasher.hashBlockSize then
            new.mmFeatures.getLast?.toList
          else
            new.mmFeatures).filter fun feature =>
          feature.Reaches hasher.hashBlockSize k)) := by
  rw [regrownContents, getElem?_append_right (by simpa using late), length_blockContents]
  generalize old.numTokens / hasher.hashBlockSize = oldBlocks at late ⊢
  have offset := Nat.sub_lt_sub_right late within
  rcases Nat.eq_zero_or_pos oldBlocks with zero | some
  · subst zero
    rw [Nat.zero_mul]
    exact hasher.getElem?_fresh disjoint offset
  have restart : startCursor (oldBlocks * hasher.hashBlockSize) = .last :=
    if_pos (Nat.mul_pos some hasher.hashBlockSize_pos)
  rw [if_pos some, restart, hasher.getElem?_restart disjoint offset, Nat.add_sub_cancel' late]

/-- The old blocks carry over exactly when tokens and items of each do. -/
theorem oldBlocks_eq_iff (same : SameSetting old new) :
    (∀ k < old.numTokens / hasher.hashBlockSize,
      hasher.blockContentAt old (k * hasher.hashBlockSize)
          (old.mmFeatures.filter fun feature =>
            feature.Reaches hasher.hashBlockSize k) =
        hasher.blockContentAt new (k * hasher.hashBlockSize)
          (new.mmFeatures.filter fun feature =>
            feature.Reaches hasher.hashBlockSize k)) ↔
      new.allTokenIds.take
            (old.numTokens / hasher.hashBlockSize * hasher.hashBlockSize) =
          old.allTokenIds.take
            (old.numTokens / hasher.hashBlockSize * hasher.hashBlockSize) ∧
        ∀ k < old.numTokens / hasher.hashBlockSize, (new.mmFeatures.filter fun feature =>
              feature.Reaches hasher.hashBlockSize k).map key =
            (old.mmFeatures.filter fun feature =>
              feature.Reaches hasher.hashBlockSize k).map
                key := by
  generalize old.numTokens / hasher.hashBlockSize = oldBlocks
  have tokens_iff : new.allTokenIds.take (oldBlocks * hasher.hashBlockSize) =
        old.allTokenIds.take (oldBlocks * hasher.hashBlockSize) ↔
      ∀ k < oldBlocks, blockTokens old (k * hasher.hashBlockSize)
            (k * hasher.hashBlockSize + hasher.hashBlockSize) =
          blockTokens new (k * hasher.hashBlockSize)
            (k * hasher.hashBlockSize + hasher.hashBlockSize) := by
    cases oldBlocks with
    | zero => simp
    | succ lastBlock =>
      rw [eq_comm, take_eq_iff_tokens_eq]
      simp only [Nat.lt_succ_iff]
  rw [tokens_iff, ← forall₂_and]
  apply forall₂_congr
  intro k early
  rw [hasher.contentAt_sameSetting same]
  exact and_congr_right fun _ => eq_comm

/-- Continued contents are the fresh ones exactly when the content regrows. -/
theorem regrownContents_eq_iff (same : SameSetting old new) (oldDisjoint : Separate old.mmFeatures)
    (newDisjoint : Separate new.mmFeatures) :
    hasher.regrownContents old new =
        hasher.blockContents new (new.numTokens / hasher.hashBlockSize) 0 (.index 0) ↔
      Regrows hasher.hashBlockSize old new := by
  have newBlock_iff (k : Nat) (some : 0 < old.numTokens / hasher.hashBlockSize) :
      hasher.blockContentAt new (k * hasher.hashBlockSize)
            (new.mmFeatures.getLast?.toList.filter fun feature =>
              feature.Reaches hasher.hashBlockSize k) =
          hasher.blockContentAt new (k * hasher.hashBlockSize) (new.mmFeatures.filter fun feature =>
              feature.Reaches hasher.hashBlockSize k) ↔
        ∀ feature ∈ new.mmFeatures.dropLast, ¬ feature.Reaches hasher.hashBlockSize k := by
    rw [hasher.contentAt_sameSetting ⟨rfl, rfl, rfl⟩, map_key_filter_last_eq_iff]
    simp
  constructor
  · intro equal
    have shorter : old.numTokens / hasher.hashBlockSize ≤ new.numTokens / hasher.hashBlockSize := by
      have lengths := congrArg List.length equal
      simp only [regrownContents, length_append, length_blockContents] at lengths
      omega
    obtain ⟨tokens, items⟩ := (hasher.oldBlocks_eq_iff same).mp (by
      intro k inOld
      have read := hasher.getElem?_fresh newDisjoint (Nat.lt_of_lt_of_le inOld shorter)
      rw [← equal, hasher.getElem?_regrown_old oldDisjoint inOld] at read
      exact Option.some.inj read)
    refine ⟨tokens, items, ?_⟩
    intro some k late within
    rw [← newBlock_iff k some]
    have read := hasher.getElem?_fresh newDisjoint within
    rw [← equal, hasher.getElem?_regrown_new newDisjoint late within, if_pos some] at read
    exact Option.some.inj read
  · intro regrows
    have shorter : old.numTokens / hasher.hashBlockSize ≤ new.numTokens / hasher.hashBlockSize := by
      have lengths := congrArg List.length regrows.tokens
      rw [length_take, length_take] at lengths
      rw [Nat.le_div_iff_mul_le hasher.hashBlockSize_pos]
      have below := Nat.div_mul_le_self old.numTokens hasher.hashBlockSize
      change _ = min _ old.numTokens at lengths
      change _ ≤ new.allTokenIds.length
      omega
    apply ext_getElem?
    intro k
    rcases Nat.lt_or_ge k (new.numTokens / hasher.hashBlockSize) with within | outside
    · rw [hasher.getElem?_fresh newDisjoint within]
      rcases Nat.lt_or_ge k (old.numTokens / hasher.hashBlockSize) with early | late
      · rw [hasher.getElem?_regrown_old oldDisjoint early]
        exact congrArg some
          ((hasher.oldBlocks_eq_iff same).mpr ⟨regrows.tokens, regrows.items⟩ k early)
      rw [hasher.getElem?_regrown_new newDisjoint late within]
      split
      · rename_i pos
        exact congrArg some ((newBlock_iff k pos).mpr (regrows.restart pos k late within))
      · rfl
    · rw [getElem?_eq_none]
      · simpa using outside
      · simp only [regrownContents, length_append, length_blockContents]
        omega

end Reading

/-- The hashes of `old`, continued over `new`, are those of a fresh `new`. -/
def CarriesOver (hasher : BlockHasher BlockHash) (old new : RequestContent) : Prop :=
  (HashedRequest.updateBlockHashes hasher
      { new with blockHashes := (HashedRequest.create hasher old).blockHashes }).blockHashes =
    (HashedRequest.create hasher new).blockHashes

/-- Under every hasher of a block size the hashes carry over exactly this way. -/
theorem forall_carriesOver_iff {hashSize : Nat}
    (pos : 0 < hashSize) (same : SameSetting old new)
    (oldDisjoint : Separate old.mmFeatures) (newDisjoint : Separate new.mmFeatures) :
    (∀ (Hash : Type) (hasher : BlockHasher Hash),
      hasher.hashBlockSize = hashSize → hasher.CarriesOver old new) ↔
      Regrows hashSize old new := by
  have rehash {Hash : Type} (hasher : BlockHasher Hash) :
      hasher.CarriesOver old new ↔ hasher.chain none (hasher.regrownContents old new) =
        (HashedRequest.create hasher new).blockHashes :=
    Eq.congr_left (update_eq_chain rfl)
  constructor
  · intro equal
    have symbolic := equal _ (symbolicHasher hashSize pos) rfl
    rw [rehash, create_blockHashes] at symbolic
    have contents := (symbolicHasher_collisionFree hashSize pos).chain_inj symbolic
    exact (regrownContents_eq_iff _ same oldDisjoint newDisjoint).mp contents
  · intro regrows Hash hasher size
    subst size
    rw [rehash, create_blockHashes,
      (hasher.regrownContents_eq_iff same oldDisjoint newDisjoint).mpr regrows]

end BlockHasher

end VllmCore
