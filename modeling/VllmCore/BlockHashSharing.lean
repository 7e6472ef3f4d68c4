import VllmCore.BlockHashMaintenance

namespace VllmCore

open Function List MultiModalFeatureSpec

/-!
# What a shared block hash says about two requests

Two requests share a cached block when they have the same hash at its index.
This module describes the contents behind a hash list block by block and uses it
to say which requests share a hash, and when sharing one means that the requests
agree on everything the attention of the block depends on.
-/

namespace RequestContent

variable (request : RequestContent)

/-- The name of the adapter the request runs with. -/
def adapterName : Option String :=
  request.loraRequest.map LoRARequest.loraName

/-- The cache salt as far as the hasher looks at it: an empty one counts as none. -/
def effectiveSalt : Option String :=
  request.cacheSalt.filter (fun salt => salt ≠ "")

/-- The embedding bytes of a block, if the request has prompt embeddings. -/
def blockEmbeds (startTokenIdx endTokenIdx : Nat) : Option (List UInt8) :=
  request.promptEmbeds.map fun rows =>
    embedsBytes rows startTokenIdx endTokenIdx

/-- Multimodal items come in order, do not overlap and lie inside the prompt. -/
structure WellPlaced (prompt : RequestContent) : Prop where
  inside : prompt.FeaturesInside
  disjoint :
    Lib.Disjoint MultiModalFeatureSpec.start MultiModalFeatureSpec.stop
      prompt.mmFeatures

/-- The request with generated tokens behind its prompt. -/
def withGenerated (prompt : RequestContent) (generated : List TokenId) : RequestContent :=
  { prompt with allTokenIds := prompt.allTokenIds ++ generated }

theorem numTokens_le_withGenerated (prompt : RequestContent) (generated : List TokenId) :
    prompt.numTokens ≤ (prompt.withGenerated generated).numTokens := by
  simp [numTokens, withGenerated]

end RequestContent

/-- Multimodal items that come in order and do not overlap. -/
abbrev Separate (mmFeatures : List MultiModalFeatureSpec) : Prop :=
  Lib.Disjoint MultiModalFeatureSpec.start MultiModalFeatureSpec.stop mmFeatures

/-- Identity of a multimodal item as an observer sees it. -/
def MultiModalFeatureSpec.key (feature : MultiModalFeatureSpec) : String × Nat :=
  (feature.identifier, feature.start)

/--
The items the hasher lists for block `k`.

A block completed by generated tokens right behind the prompt is read from the
last item on; every other block lists all items that reach into it.
-/
def shownFeatures (hashBlockSize promptLength : Nat) (mmFeatures : List MultiModalFeatureSpec)
    (k : Nat) : List MultiModalFeatureSpec :=
  if 0 < k ∧ k = promptLength / hashBlockSize then
    mmFeatures.getLast?.toList.filter fun feature =>
      k * hashBlockSize < feature.stop
  else
    mmFeatures.filter fun feature =>
      Lib.Overlaps MultiModalFeatureSpec.start MultiModalFeatureSpec.stop
        (k * hashBlockSize) (k * hashBlockSize + hashBlockSize) feature

namespace BlockHasher

variable {BlockHash : Type}

/-! ## Contents block by block -/

variable (hasher : BlockHasher BlockHash)

/-- The extra keys of the block at a position that lists the given items. -/
def blockKeys (request : RequestContent) (startTokenIdx : Nat)
    (shown : List MultiModalFeatureSpec) : List ExtraKey :=
  genLoraExtraHashKeys request.loraRequest ++ mmKeys startTokenIdx shown ++
    genCacheSaltKeys request.cacheSalt startTokenIdx ++
    hasher.genPromptEmbedsExtraHashKeys request.promptEmbeds startTokenIdx
      (startTokenIdx + hasher.hashBlockSize)

/-- The content of the block at a position that lists the given items. -/
def blockContentAt (request : RequestContent) (startTokenIdx : Nat)
    (shown : List MultiModalFeatureSpec) : BlockContent :=
  (blockTokens request startTokenIdx (startTokenIdx + hasher.hashBlockSize),
    extraKeyTuple (hasher.blockKeys request startTokenIdx shown))

variable {features : List MultiModalFeatureSpec} {request : RequestContent}
    {startIdx k : Nat} {endTokenIdx count : Nat}

/-- A scan over disjoint items lists the ones that reach into the window. -/
theorem mmKeys_of_disjoint (disjoint : Separate features)
    (passed : CursorPassed features cursor startIdx) :
    (genMmExtraHashKeys features startIdx endTokenIdx cursor).1 = mmKeys startIdx
      (features.filter fun feature =>
        Lib.Overlaps start stop
          startIdx endTokenIdx feature) := by
  unfold genMmExtraHashKeys
  cases isLast : features.getLast? with
  | none =>
    rw [getLast?_eq_none_iff.mp isLast]
    rfl
  | some last =>
    by_cases ended : last.stop ≤ startIdx
    · have none_overlaps : (features.filter fun feature =>
          Lib.Overlaps start stop
            startIdx endTokenIdx feature) = [] := by
        rw [filter_eq_nil_iff]
        intro feature mem overlaps
        have reaches := (of_decide_eq_true overlaps).2
        have := disjoint.upper_le_last isLast mem
        omega
      simp only [ended, if_true, none_overlaps]
      rfl
    · simp only [ended, if_false]
      rw [Lib.scanWindow_of_disjoint (disjoint.drop _),
        Lib.overlaps_drop_of_passed passed]
      rfl

/-- Blocks read with a passed cursor list the items that reach into them. -/
theorem getElem?_blockContents (disjoint : Separate request.mmFeatures)
    (passed : CursorPassed request.mmFeatures cursor startIdx) (within : k < count) :
    (hasher.blockContents request count startIdx cursor)[k]? =
      some (hasher.blockContentAt request
        (startIdx + k * hasher.hashBlockSize)
        (request.mmFeatures.filter fun feature =>
          Lib.Overlaps start stop
            (startIdx + k * hasher.hashBlockSize)
            (startIdx + k * hasher.hashBlockSize + hasher.hashBlockSize)
            feature)) := by
  induction count generalizing startIdx cursor k with
  | zero => omega
  | succ count ih =>
    cases k with
    | zero =>
      simp only [blockContents, getElem?_cons_zero, Nat.zero_mul,
        Nat.add_zero, generateBlockHashExtraKeys,
        mmKeys_of_disjoint disjoint passed]
      rfl
    | succ k =>
      have next := ih (cursorPassed_keys
          (Nat.le_add_right startIdx hasher.hashBlockSize) passed)
        (Nat.lt_of_succ_lt_succ within)
      have pos : startIdx + hasher.hashBlockSize + k * hasher.hashBlockSize =
          startIdx + (k + 1) * hasher.hashBlockSize := by
        rw [Nat.add_mul]
        omega
      rw [pos] at next
      exact next

/-- A block read from the last item on lists that item if it has not ended. -/
theorem genMmExtraHashKeys_last (ends : ∀ feature ∈ features, feature.stop < endTokenIdx) :
    (genMmExtraHashKeys features startIdx endTokenIdx .last).1 = mmKeys startIdx
      (features.getLast?.toList.filter fun feature =>
        startIdx < feature.stop) := by
  cases isLast : features.getLast? with
  | none => simp [genMmExtraHashKeys, isLast, mmKeys]
  | some last =>
    by_cases reaches : startIdx < last.stop
    · rw [mmKeys_last_of_all_end ends isLast reaches]
      simp [reaches]
    · have ended : last.stop ≤ startIdx := Nat.le_of_not_lt reaches
      simp [genMmExtraHashKeys, isLast, ended, reaches, mmKeys]

/-- Behind the prompt, only the first block read can list an item. -/
theorem getElem?_last_contents (disjoint : Separate request.mmFeatures)
    (ends : ∀ feature ∈ request.mmFeatures, feature.stop < startIdx + hasher.hashBlockSize)
    (within : k < count) :
    (hasher.blockContents request count startIdx .last)[k]? =
      some (hasher.blockContentAt request
        (startIdx + k * hasher.hashBlockSize)
        (if k = 0 then
          request.mmFeatures.getLast?.toList.filter fun feature =>
            startIdx < feature.stop
        else
          request.mmFeatures.filter fun feature =>
            Lib.Overlaps start stop
              (startIdx + k * hasher.hashBlockSize)
              (startIdx + k * hasher.hashBlockSize + hasher.hashBlockSize)
              feature)) := by
  obtain ⟨count, rfl⟩ := Nat.exists_eq_add_of_lt (Nat.zero_lt_of_lt within)
  rw [Nat.zero_add] at within ⊢
  cases k with
  | zero =>
    simp only [blockContents, getElem?_cons_zero, Nat.zero_mul,
      Nat.add_zero, generateBlockHashExtraKeys, genMmExtraHashKeys_last ends,
      if_true]
    rfl
  | succ k =>
    have front : CursorPassed request.mmFeatures (.index 0)
        (startIdx + hasher.hashBlockSize) :=
      Lib.passedBefore_zero
    have later := hasher.getElem?_blockContents disjoint front (Nat.lt_of_succ_lt_succ within)
    have pos : startIdx + hasher.hashBlockSize + k * hasher.hashBlockSize =
        startIdx + (k + 1) * hasher.hashBlockSize := by
      rw [Nat.add_mul]
      omega
    rw [pos] at later
    simp only [blockContents, getElem?_cons_succ, Nat.succ_ne_zero, if_false]
    rw [hasher.blockContents_of_ended request count _ _ (.index 0)
      (fun feature mem => Nat.le_of_lt (ends feature mem))]
    exact later

/-- The content behind the hash at index `k`, for a request grown from a prompt. -/
theorem getElem?_maintained {prompt : RequestContent} (placed : prompt.WellPlaced)
    (generated : List TokenId)
    (within : k < (prompt.withGenerated generated).numTokens / hasher.hashBlockSize) :
    (hasher.maintainedContents prompt.numTokens (prompt.withGenerated generated))[k]? =
      some (hasher.blockContentAt (prompt.withGenerated generated)
        (k * hasher.hashBlockSize)
        (shownFeatures hasher.hashBlockSize prompt.numTokens prompt.mmFeatures k)) := by
  let request := prompt.withGenerated generated
  let size := hasher.hashBlockSize
  let promptBlocks := prompt.numTokens / size
  have pos : 0 < size := hasher.hashBlockSize_pos
  have beyond : prompt.numTokens < promptBlocks * size + size :=
    hasher.lt_next_boundary prompt.numTokens
  have ends : ∀ feature ∈ request.mmFeatures, feature.stop < promptBlocks * size + size :=
    fun feature mem => Nat.lt_of_le_of_lt (placed.inside feature mem) beyond
  have front : CursorPassed request.mmFeatures (.index 0) 0 := Lib.passedBefore_zero
  have disjoint : Separate request.mmFeatures := placed.disjoint
  rcases Nat.lt_or_ge k promptBlocks with early | late
  · have inFront := hasher.getElem?_blockContents disjoint front early
    have notTail : ¬ (0 < k ∧ k = prompt.numTokens / hasher.hashBlockSize) :=
      fun tail => Nat.ne_of_lt early tail.2
    rw [maintainedContents, getElem?_append_left (by simpa using early)]
    rw [Nat.zero_add] at inFront
    rw [shownFeatures, if_neg notTail]
    exact inFront
  · rw [maintainedContents, getElem?_append_right (by simpa using late), length_blockContents]
    have within' : k - promptBlocks < request.numTokens / size - promptBlocks :=
      Nat.sub_lt_sub_right late within
    have position : promptBlocks * size + (k - promptBlocks) * size = k * size := by
      rw [← Nat.add_mul, Nat.add_sub_cancel' late]
    rcases Nat.eq_zero_or_pos promptBlocks with noPrompt | somePrompt
    · have notTail : ¬ (0 < k ∧ k = prompt.numTokens / hasher.hashBlockSize) := by
        intro tail
        have : k = promptBlocks := tail.2
        omega
      have inTail := hasher.getElem?_blockContents disjoint front within'
      rw [noPrompt, Nat.zero_add] at inTail
      rw [shownFeatures, if_neg notTail]
      show (hasher.blockContents request (request.numTokens / size - promptBlocks)
        (promptBlocks * size) (startCursor (promptBlocks * size)))[k - promptBlocks]? = _
      rw [noPrompt, Nat.zero_mul]
      exact inTail
    · have restart : startCursor (promptBlocks * size) = .last :=
        if_pos (Nat.mul_pos somePrompt pos)
      have inTail := hasher.getElem?_last_contents disjoint ends within'
      rw [← restart, position] at inTail
      refine inTail.trans ?_
      by_cases first : k = promptBlocks
      · have tail : 0 < k ∧ k = prompt.numTokens / hasher.hashBlockSize :=
          ⟨by omega, first⟩
        rw [shownFeatures, if_pos tail, if_pos (by omega), first]
        rfl
      · have notTail : ¬ (0 < k ∧ k = prompt.numTokens / hasher.hashBlockSize) :=
          fun tail => first tail.2
        rw [shownFeatures, if_neg notTail, if_neg (by omega)]
        rfl

/-! ## Reading a flat key tuple back -/

/-- An entry that comes from a multimodal item. -/
def isItemEntry : ExtraKey → Bool
  | .mmItem _ _ => true
  | _ => false

/-- An entry that comes from prompt embeddings. -/
def isDigestEntry : ExtraKey → Bool
  | .digest _ => true
  | _ => false

/-- An entry that is a plain text: an adapter name or a salt. -/
def isTextEntry : ExtraKey → Bool
  | .text _ => true
  | _ => false

theorem map_text_injective : Function.Injective (List.map ExtraKey.text) :=
  map_injective_iff.mpr fun _ _ same => by injection same

/-- The keys of listed items determine the items up to what an observer sees. -/
theorem mmKeys_eq_iff (startIdx : Nat) (shown others : List MultiModalFeatureSpec) :
    mmKeys startIdx shown = mmKeys startIdx others ↔
      shown.map key = others.map key := by
  induction shown generalizing others with
  | nil => cases others <;> simp [mmKeys]
  | cons feature rest ih =>
    cases others with
    | nil => simp [mmKeys]
    | cons other otherRest =>
      have restIff := ih otherRest
      simp only [mmKeys, map_cons, cons.injEq, ExtraKey.mmItem.injEq, key,
        Prod.mk.injEq] at restIff ⊢
      rw [restIff]
      constructor
      all_goals
        rintro ⟨⟨identifiers, offsets⟩, later⟩
        exact ⟨⟨identifiers, by omega⟩, later⟩

section KeyTuple

variable (name salt : List String) (shown : List MultiModalFeatureSpec)
  (digests : List (List UInt8)) (startTokenIdx : Nat)

/-- The flat key tuple built from its four parts. -/
def keyTuple : List ExtraKey :=
  name.map ExtraKey.text ++ mmKeys startTokenIdx shown ++
    salt.map ExtraKey.text ++ digests.map ExtraKey.digest

theorem items_keyTuple :
    (keyTuple name salt shown digests startTokenIdx).filter isItemEntry =
      mmKeys startTokenIdx shown := by
  simp [keyTuple, mmKeys, filter_map, Function.comp_def, isItemEntry]

theorem digests_keyTuple :
    (keyTuple name salt shown digests startTokenIdx).filter isDigestEntry =
      digests.map ExtraKey.digest := by
  simp [keyTuple, mmKeys, filter_map, Function.comp_def, isDigestEntry]

theorem texts_keyTuple (listed : shown ≠ []) :
    (keyTuple name salt shown digests startTokenIdx).takeWhile isTextEntry =
      name.map ExtraKey.text := by
  obtain ⟨feature, rest, rfl⟩ := exists_cons_of_ne_nil listed
  unfold keyTuple
  rw [append_assoc, append_assoc, takeWhile_append_of_pos]
  · simp [mmKeys, isTextEntry]
  · intro entry mem
    obtain ⟨text, _, rfl⟩ := mem_map.mp mem
    rfl

variable {name salt shown digests}

/--
A key tuple determines its items and its digests, but its two texts only if
items stand between them.
-/
theorem keyTuple_eq_iff :
    keyTuple name salt shown digests startTokenIdx =
        keyTuple otherName otherSalt others otherDigests startTokenIdx ↔
      shown.map key = others.map key ∧
        digests = otherDigests ∧
        (name = otherName ∧ salt = otherSalt ∨
          shown = [] ∧ name ++ salt = otherName ++ otherSalt) := by
  constructor
  · intro same
    have items := congrArg (List.filter isItemEntry) same
    rw [items_keyTuple, items_keyTuple] at items
    have sameDigests := congrArg (List.filter isDigestEntry) same
    rw [digests_keyTuple, digests_keyTuple] at sameDigests
    have keys := (mmKeys_eq_iff startTokenIdx shown others).mp items
    refine ⟨keys, map_injective_iff.mpr (fun _ _ equal => by injection equal) sameDigests, ?_⟩
    unfold keyTuple at same
    rw [sameDigests, append_cancel_right_eq] at same
    by_cases listed : shown = []
    · subst listed
      have noOthers : others = [] := by simpa using keys.symm
      subst noOthers
      refine .inr ⟨rfl, map_text_injective ?_⟩
      simpa [mmKeys] using same
    have othersListed : others ≠ [] := by
      intro empty
      subst empty
      exact listed (by simpa using keys)
    have names := congrArg (List.takeWhile isTextEntry)
      (show keyTuple name salt shown [] startTokenIdx =
          keyTuple otherName otherSalt others [] startTokenIdx by
        simpa [keyTuple] using same)
    rw [texts_keyTuple _ _ _ _ _ listed,
      texts_keyTuple _ _ _ _ _ othersListed] at names
    rw [names, items, append_cancel_left_eq] at same
    exact .inl ⟨map_text_injective names, map_text_injective same⟩
  · rintro ⟨keys, rfl, ⟨rfl, rfl⟩ | ⟨rfl, texts⟩⟩
    · simp only [keyTuple, (mmKeys_eq_iff startTokenIdx shown others).mpr keys]
    have noOthers : others = [] := by simpa using keys.symm
    subst noOthers
    simp only [keyTuple, mmKeys, map_nil, append_nil]
    rw [← map_append, texts, map_append]

end KeyTuple

/-- The key tuple of a block by its parts: two texts, items and a digest. -/
theorem blockKeys_eq_keyTuple
    {hasher : BlockHasher BlockHash} {request : RequestContent} {startIdx : Nat}
    {shown : List MultiModalFeatureSpec} :
    hasher.blockKeys request startIdx shown = keyTuple request.adapterName.toList
      (if startIdx = 0 then request.effectiveSalt.toList else [])
      shown
      ((request.blockEmbeds startIdx
        (startIdx + hasher.hashBlockSize)).toList.map hasher.sha256)
      startIdx := by
  have adapter : genLoraExtraHashKeys request.loraRequest =
      request.adapterName.toList.map ExtraKey.text := by
    unfold RequestContent.adapterName
    cases request.loraRequest <;> rfl
  have salt : genCacheSaltKeys request.cacheSalt startIdx = (if startIdx = 0 then
      request.effectiveSalt.toList else []).map ExtraKey.text := by
    unfold RequestContent.effectiveSalt
    cases request.cacheSalt with
    | none => simp [genCacheSaltKeys]
    | some salt =>
      by_cases first : startIdx = 0 <;> by_cases empty : salt = "" <;>
        simp [genCacheSaltKeys, first, empty, Option.filter]
  have embeds : hasher.genPromptEmbedsExtraHashKeys request.promptEmbeds startIdx
        (startIdx + hasher.hashBlockSize) =
      ((request.blockEmbeds startIdx (startIdx + hasher.hashBlockSize)).toList.map
          hasher.sha256).map ExtraKey.digest := by
    unfold RequestContent.blockEmbeds
    cases request.promptEmbeds <;> rfl
  rw [blockKeys, adapter, salt, embeds, keyTuple]

end BlockHasher

/-! ## Two requests with the same hash -/

variable (left right : RequestContent)

/--
The adapter of one request is the salt of the other.

Neither request has the other of the two texts.
-/
def TextsSwapped : Prop :=
  ∃ text, (left.adapterName = some text ∧ left.effectiveSalt = none ∧
      right.adapterName = none ∧ right.effectiveSalt = some text) ∨
    (left.adapterName = none ∧ left.effectiveSalt = some text ∧
      right.adapterName = some text ∧ right.effectiveSalt = none)

/-- What the hasher reads of the blocks up to `i` is the same for two requests. -/
structure LooksAlike (hashBlockSize : Nat) (left right : RequestContent)
    (leftGenerated rightGenerated : List TokenId) (i : Nat) : Prop where
  tokens :
    (left.withGenerated leftGenerated).allTokenIds.take ((i + 1) * hashBlockSize) =
      (right.withGenerated rightGenerated).allTokenIds.take
        ((i + 1) * hashBlockSize)
  embeds :
    ∀ k ≤ i, left.blockEmbeds (k * hashBlockSize) (k * hashBlockSize + hashBlockSize) =
      right.blockEmbeds (k * hashBlockSize) (k * hashBlockSize + hashBlockSize)
  items :
    ∀ k ≤ i, (shownFeatures hashBlockSize left.numTokens left.mmFeatures k).map
        MultiModalFeatureSpec.key =
      (shownFeatures hashBlockSize right.numTokens right.mmFeatures k).map
        MultiModalFeatureSpec.key
  texts :
    (left.adapterName = right.adapterName ∧ left.effectiveSalt = right.effectiveSalt) ∨
      (i = 0 ∧ shownFeatures hashBlockSize left.numTokens left.mmFeatures 0 = [] ∧
        TextsSwapped left right)

/-- Everything the attention of the blocks up to `i` depends on is the same. -/
structure Agree (hashBlockSize : Nat) (left right : RequestContent)
    (leftGenerated rightGenerated : List TokenId) (i : Nat) : Prop where
  tokens :
    (left.withGenerated leftGenerated).allTokenIds.take ((i + 1) * hashBlockSize) =
      (right.withGenerated rightGenerated).allTokenIds.take
        ((i + 1) * hashBlockSize)
  adapter : left.adapterName = right.adapterName
  salt : left.cacheSalt = right.cacheSalt
  items :
    (left.mmFeatures.filter fun feature =>
        feature.start < (i + 1) * hashBlockSize).map MultiModalFeatureSpec.key =
      (right.mmFeatures.filter fun feature =>
        feature.start < (i + 1) * hashBlockSize).map MultiModalFeatureSpec.key
  embeds :
    left.blockEmbeds 0 ((i + 1) * hashBlockSize) = right.blockEmbeds 0 ((i + 1) * hashBlockSize)

/--
Two requests that look alike to the hasher although they are not: an adapter
name reads as a salt, an empty salt reads as none, or an item is never listed.
-/
def Confusable (hashBlockSize : Nat) (left right : RequestContent)
    (leftGenerated rightGenerated : List TokenId) (i : Nat) : Prop :=
  LooksAlike hashBlockSize left right leftGenerated rightGenerated i ∧
    (TextsSwapped left right ∨ (left.cacheSalt = none ∧ right.cacheSalt = some "") ∨
      (left.cacheSalt = some "" ∧ right.cacheSalt = none) ∨
      (left.mmFeatures.filter fun feature =>
          feature.start < (i + 1) * hashBlockSize).map MultiModalFeatureSpec.key ≠
        (right.mmFeatures.filter fun feature =>
          feature.start < (i + 1) * hashBlockSize).map MultiModalFeatureSpec.key)

/-- Two texts in a row are the same texts, or one text in swapped roles. -/
theorem texts_append_eq_iff :
    left.adapterName.toList ++ left.effectiveSalt.toList =
        right.adapterName.toList ++ right.effectiveSalt.toList ↔
      (left.adapterName = right.adapterName ∧ left.effectiveSalt = right.effectiveSalt) ∨
        TextsSwapped left right := by
  unfold TextsSwapped
  cases left.adapterName <;> cases left.effectiveSalt <;>
    cases right.adapterName <;> cases right.effectiveSalt <;>
    simp <;>
    exact eq_comm

/-- Requests whose effective salts agree differ at most by an empty salt. -/
theorem cacheSalt_eq_iff {left right : RequestContent}
    (effective : left.effectiveSalt = right.effectiveSalt) :
    left.cacheSalt = right.cacheSalt ↔ ¬ (left.cacheSalt = none ∧ right.cacheSalt = some "") ∧
        ¬ (left.cacheSalt = some "" ∧ right.cacheSalt = none) := by
  unfold RequestContent.effectiveSalt at effective
  cases leftSalt : left.cacheSalt with
  | none =>
    cases rightSalt : right.cacheSalt with
    | none => simp
    | some salt =>
      rw [leftSalt, rightSalt] at effective
      simpa [Option.filter] using effective
  | some salt =>
    cases rightSalt : right.cacheSalt with
    | none =>
      rw [leftSalt, rightSalt] at effective
      simpa [Option.filter] using effective
    | some other =>
      by_cases empty : salt = "" <;> by_cases otherEmpty : other = "" <;>
        simp_all [Option.filter]

/-- A longer front of a list is a shorter one and the slice behind it. -/
theorem take_append_slice_eq {Item : Type} (items : List Item)
    (ordered : first ≤ last) :
    items.take last = items.take first ++ (items.take last).drop first := by
  conv_lhs => rw [← take_append_drop first (items.take last)]
  rw [take_take, Nat.min_eq_left ordered]

/-- Token prefixes agree exactly when all their blocks do. -/
theorem take_eq_iff_tokens_eq {hashSize i : Nat} :
    left.allTokenIds.take ((i + 1) * hashSize) = right.allTokenIds.take ((i + 1) * hashSize) ↔
      ∀ k ≤ i, BlockHasher.blockTokens left (k * hashSize)
          (k * hashSize + hashSize) =
        BlockHasher.blockTokens right (k * hashSize)
          (k * hashSize + hashSize) := by
  constructor
  · intro same k bounded
    have fits : k * hashSize + hashSize ≤ (i + 1) * hashSize := by
      rw [← Nat.succ_mul]
      exact Nat.mul_le_mul_right _ (Nat.succ_le_succ bounded)
    have shorter := congrArg (List.take (k * hashSize + hashSize)) same
    rw [take_take, take_take, Nat.min_eq_left fits] at shorter
    simp only [BlockHasher.blockTokens, shorter]
  · intro blocks
    induction i with
    | zero => simpa [BlockHasher.blockTokens] using blocks 0 (Nat.le_refl 0)
    | succ i ih =>
      have front := ih (fun k bounded => blocks k (Nat.le_succ_of_le bounded))
      have last := blocks (i + 1) (Nat.le_refl _)
      have ordered : (i + 1) * hashSize ≤ (i + 1) * hashSize + hashSize := Nat.le_add_right _ _
      rw [Nat.succ_mul (i + 1), take_append_slice_eq left.allTokenIds ordered,
        take_append_slice_eq right.allTokenIds ordered, front]
      exact congrArg _ last

/-- Embedding bytes of a prefix are the bytes of its blocks in order. -/
theorem embedsBytes_append (ordered : first ≤ last) :
    embedsBytes rows 0 last = embedsBytes rows 0 first ++ embedsBytes rows first last := by
  simp only [embedsBytes, drop_zero]
  conv_lhs => rw [take_append_slice_eq rows ordered, flatten_append]

/-- Requests with the same embedding bytes in every block have the same in all. -/
theorem blockEmbeds_prefix_eq {hashSize i : Nat}
    (blocks :
      ∀ k ≤ i, left.blockEmbeds (k * hashSize) (k * hashSize + hashSize) =
        right.blockEmbeds (k * hashSize)
          (k * hashSize + hashSize)) :
    left.blockEmbeds 0 ((i + 1) * hashSize) = right.blockEmbeds 0 ((i + 1) * hashSize) := by
  unfold RequestContent.blockEmbeds at blocks ⊢
  generalize left.promptEmbeds = leftEmbeds at blocks ⊢
  generalize right.promptEmbeds = rightEmbeds at blocks ⊢
  have first := blocks 0 (Nat.zero_le i)
  cases leftEmbeds with
  | none =>
    cases rightEmbeds with
    | none => rfl
    | some rows => cases first
  | some rows =>
    cases rightEmbeds with
    | none => cases first
    | some otherRows =>
      simp only [Option.map_some, Option.some.injEq] at blocks ⊢
      induction i with
      | zero => simpa using blocks 0 (Nat.le_refl 0)
      | succ i ih =>
        have front := ih (fun k bounded => blocks k (Nat.le_succ_of_le bounded))
        have ordered : (i + 1) * hashSize ≤ (i + 1) * hashSize + hashSize := Nat.le_add_right _ _
        rw [Nat.succ_mul (i + 1), embedsBytes_append ordered, embedsBytes_append ordered, front,
          blocks (i + 1) (Nat.le_refl _)]

namespace BlockHasher

variable {BlockHash : Type} {hasher : BlockHasher BlockHash}

/-- Two blocks at one position have the same content under this condition. -/
theorem blockContentAt_eq_iff (digestInjective : Function.Injective hasher.sha256)
    {left right : RequestContent} {startIdx : Nat}
    {shown others : List MultiModalFeatureSpec} :
    hasher.blockContentAt left startIdx shown =
        hasher.blockContentAt right startIdx others ↔
      blockTokens left startIdx (startIdx + hasher.hashBlockSize) =
          blockTokens right startIdx
            (startIdx + hasher.hashBlockSize) ∧
        shown.map key = others.map key ∧
        left.blockEmbeds startIdx (startIdx + hasher.hashBlockSize) =
          right.blockEmbeds startIdx
            (startIdx + hasher.hashBlockSize) ∧
        (left.adapterName = right.adapterName ∧
            (startIdx = 0 → left.effectiveSalt = right.effectiveSalt) ∨
          startIdx = 0 ∧ shown = [] ∧ TextsSwapped left right) := by
  have toListInjective : ∀ {Value : Type} {first second : Option Value},
      first.toList = second.toList ↔ first = second := by
    intro Value first second
    cases first <;> cases second <;> simp
  have digests : (left.blockEmbeds startIdx
          (startIdx + hasher.hashBlockSize)).toList.map hasher.sha256 =
        (right.blockEmbeds startIdx
          (startIdx + hasher.hashBlockSize)).toList.map hasher.sha256 ↔
      left.blockEmbeds startIdx (startIdx + hasher.hashBlockSize) =
        right.blockEmbeds startIdx (startIdx + hasher.hashBlockSize) := by
    rw [(map_injective_iff.mpr digestInjective).eq_iff, toListInjective]
  simp only [blockContentAt, Prod.mk.injEq, extraKeyTuple_inj,
    blockKeys_eq_keyTuple, keyTuple_eq_iff, digests]
  by_cases first : startIdx = 0
  · simp only [first, if_true, toListInjective, texts_append_eq_iff, true_and, forall_const]
    tauto
  · simp only [first, if_false, append_nil, toListInjective, and_true,
      false_and, or_false, false_implies]
    tauto

variable {i : Nat}

/-- Without collisions, hashes agree exactly when all contents up to them do. -/
theorem CollisionFree.getElem?_chain_eq_iff (collisionFree : hasher.CollisionFree)
    {contents others : List BlockContent} (inside : i < contents.length)
    (otherInside : i < others.length) :
    (hasher.chain none contents)[i]? = (hasher.chain none others)[i]? ↔
      ∀ k ≤ i, contents[k]? = others[k]? := by
  constructor
  · intro same k bounded
    have fronts := collisionFree.take_eq_of_getElem?_chain_eq i inside otherInside same
    have entries := congrArg (fun front => front[k]?) fronts
    simpa only [getElem?_take_of_lt (Nat.lt_succ_of_le bounded)] using entries
  · intro entries
    have fronts : contents.take (i + 1) = others.take (i + 1) := by
      apply ext_getElem?
      intro k
      rcases Nat.lt_or_ge k (i + 1) with before | behind
      · rw [getElem?_take_of_lt before, getElem?_take_of_lt before,
          entries k (Nat.le_of_lt_succ before)]
      · rw [getElem?_eq_none (by simp; omega), getElem?_eq_none (by simp; omega)]
    have chains := congrArg (fun front => (hasher.chain none front)[i]?) fronts
    simpa only [← take_chain, getElem?_take_of_lt (Nat.lt_succ_self i)] using chains

/-- Two grown requests share the hash at `i` exactly when they look alike. -/
theorem getElem?_chain_eq_iff_looksAlike (collisionFree : hasher.CollisionFree)
    (digestInjective : Function.Injective hasher.sha256) {left right : RequestContent}
    (leftPlaced : left.WellPlaced) (rightPlaced : right.WellPlaced)
    (leftInside : i < (left.withGenerated leftGenerated).numTokens / hasher.hashBlockSize)
    (rightInside : i < (right.withGenerated rightGenerated).numTokens / hasher.hashBlockSize) :
    (hasher.chain none
        (hasher.maintainedContents left.numTokens (left.withGenerated leftGenerated)))[i]? =
        (hasher.chain none
          (hasher.maintainedContents right.numTokens (right.withGenerated rightGenerated)))[i]? ↔
      LooksAlike hasher.hashBlockSize left right
        leftGenerated rightGenerated i := by
  have boundary (k : Nat) : k * hasher.hashBlockSize = 0 ↔ k = 0 := by
    rw [Nat.mul_eq_zero]
    exact or_iff_left (Nat.ne_of_gt hasher.hashBlockSize_pos)
  rw [collisionFree.getElem?_chain_eq_iff (by rwa [hasher.length_maintainedContents
      (left.numTokens_le_withGenerated _)])
    (by rwa [hasher.length_maintainedContents (right.numTokens_le_withGenerated _)])]
  have blockwise : (∀ k ≤ i, (hasher.maintainedContents left.numTokens
          (left.withGenerated leftGenerated))[k]? =
        (hasher.maintainedContents right.numTokens (right.withGenerated rightGenerated))[k]?) ↔
      ∀ k ≤ i, hasher.blockContentAt (left.withGenerated leftGenerated) (k * hasher.hashBlockSize)
            (shownFeatures hasher.hashBlockSize left.numTokens left.mmFeatures k) =
          hasher.blockContentAt (right.withGenerated rightGenerated) (k * hasher.hashBlockSize)
            (shownFeatures hasher.hashBlockSize right.numTokens right.mmFeatures k) := by
    refine forall₂_congr fun k bounded => ?_
    rw [hasher.getElem?_maintained leftPlaced leftGenerated
        (Nat.lt_of_le_of_lt bounded leftInside),
      hasher.getElem?_maintained rightPlaced rightGenerated
        (Nat.lt_of_le_of_lt bounded rightInside), Option.some.injEq]
  rw [blockwise]
  simp only [blockContentAt_eq_iff digestInjective, boundary]
  constructor
  · intro blocks
    refine
      { tokens := (take_eq_iff_tokens_eq _ _).mpr fun k bounded => (blocks k bounded).1
        items := fun k bounded => (blocks k bounded).2.1
        embeds := fun k bounded => (blocks k bounded).2.2.1
        texts := ?_ }
    rcases (blocks 0 (Nat.zero_le i)).2.2.2 with same | ⟨_, unlisted, swapped⟩
    · exact .inl ⟨same.1, same.2 rfl⟩
    rcases Nat.eq_zero_or_pos i with zero | pos
    · exact .inr ⟨zero, unlisted, swapped⟩
    rcases (blocks 1 pos).2.2.2 with same | ⟨impossible, _⟩
    · -- A second block repeats the adapter name, so the roles cannot differ.
      obtain ⟨text, ⟨leftName, _, rightName, _⟩ | ⟨leftName, _, rightName, _⟩⟩ := swapped
      all_goals
        rw [leftName, rightName] at same
        cases same.1
    · exact absurd impossible Nat.one_ne_zero
  · intro alike k bounded
    refine ⟨(take_eq_iff_tokens_eq _ _).mp alike.tokens k bounded,
      alike.items k bounded, alike.embeds k bounded, ?_⟩
    rcases alike.texts with ⟨names, salts⟩ | ⟨zero, unlisted, swapped⟩
    · exact .inl ⟨names, fun _ => salts⟩
    · have first : k = 0 := Nat.le_zero.mp (zero ▸ bounded)
      subst first
      exact .inr ⟨rfl, unlisted, swapped⟩

end BlockHasher

/-- Requests that look alike agree unless one of the three confusions applies. -/
theorem LooksAlike.agree_iff {hashSize : Nat} {left right : RequestContent}
    {leftGenerated rightGenerated : List TokenId} {i : Nat}
    (alike : LooksAlike hashSize left right leftGenerated rightGenerated i) :
    Agree hashSize left right leftGenerated rightGenerated i ↔
      ¬ Confusable hashSize left right leftGenerated rightGenerated i := by
  constructor
  · rintro agree ⟨_, swapped | emptyRight | emptyLeft | itemsDiffer⟩
    · obtain ⟨text, ⟨leftName, _, rightName, _⟩ | ⟨leftName, _, rightName, _⟩⟩ :=
        swapped
      all_goals
        have := agree.adapter
        rw [leftName, rightName] at this
        cases this
    · have := agree.salt
      rw [emptyRight.1, emptyRight.2] at this
      cases this
    · have := agree.salt
      rw [emptyLeft.1, emptyLeft.2] at this
      cases this
    · exact itemsDiffer agree.items
  · intro notConfusable
    have distinct := fun confusion => notConfusable ⟨alike, confusion⟩
    rcases alike.texts with ⟨names, salts⟩ | ⟨_, _, swapped⟩
    · exact
        { tokens := alike.tokens
          adapter := names
          salt := (cacheSalt_eq_iff salts).mpr ⟨fun emptyRight => distinct (.inr (.inl emptyRight)),
              fun emptyLeft => distinct (.inr (.inr (.inl emptyLeft)))⟩
          items := by
            by_contra itemsDiffer
            exact distinct (.inr (.inr (.inr itemsDiffer)))
          embeds := blockEmbeds_prefix_eq left right alike.embeds }
    · exact absurd (.inl swapped) distinct

/--
For two requests grown from well-placed prompts, sharing the block hash at `i`
means agreeing on everything up to that block exactly when the two requests are
not confusable there.
-/
theorem blockHash_eq_implies_agree_iff_not_confusable
    {BlockHash : Type} (hasher : BlockHasher BlockHash) (collisionFree : hasher.CollisionFree)
    (digestInjective : Function.Injective hasher.sha256) (left right : RequestContent)
    (leftPlaced : left.WellPlaced) (rightPlaced : right.WellPlaced)
    (leftAppends rightAppends : List (List TokenId)) (i : Nat)
    (leftInside : i < (HashedRequest.afterAppends hasher left leftAppends).blockHashes.length)
    (rightInside : i < (HashedRequest.afterAppends hasher right rightAppends).blockHashes.length) :
    ((HashedRequest.afterAppends hasher left leftAppends).blockHashes[i] =
          (HashedRequest.afterAppends hasher right rightAppends).blockHashes[i] →
        Agree hasher.hashBlockSize left right
          leftAppends.flatten rightAppends.flatten i) ↔
      ¬ Confusable hasher.hashBlockSize left right
        leftAppends.flatten rightAppends.flatten i := by
  have chained
      {prompt : RequestContent}
      (placed : prompt.WellPlaced)
      (appends : List (List TokenId)) :
      (HashedRequest.afterAppends hasher prompt appends).blockHashes = hasher.chain none
        (hasher.maintainedContents prompt.numTokens (prompt.withGenerated appends.flatten)) := by
    have maintained := hasher.maintained_afterAppends placed.inside appends
    rw [maintained.blockHashes, maintained.content]
    rfl
  have shared : (HashedRequest.afterAppends hasher left leftAppends).blockHashes[i] =
        (HashedRequest.afterAppends hasher right rightAppends).blockHashes[i] ↔
      LooksAlike hasher.hashBlockSize left right leftAppends.flatten rightAppends.flatten i := by
    have leftBlocks := leftInside
    have rightBlocks := rightInside
    rw [chained leftPlaced, BlockHasher.length_chain,
      hasher.length_maintainedContents (left.numTokens_le_withGenerated _)] at leftBlocks
    rw [chained rightPlaced, BlockHasher.length_chain,
      hasher.length_maintainedContents (right.numTokens_le_withGenerated _)] at rightBlocks
    rw [← BlockHasher.getElem?_chain_eq_iff_looksAlike collisionFree digestInjective
        leftPlaced rightPlaced leftBlocks rightBlocks,
      ← chained leftPlaced, ← chained rightPlaced,
      getElem?_eq_getElem leftInside, getElem?_eq_getElem rightInside,
      Option.some.injEq]
  rw [shared]
  constructor
  · intro sound confusable
    exact confusable.1.agree_iff.mp (sound confusable.1) confusable
  · intro notConfusable alike
    exact alike.agree_iff.mpr notConfusable

/-- A prompt of one adapter with an image in its second block. -/
def adapterPrompt : RequestContent where
  allTokenIds := [1, 2, 3, 4]
  mmFeatures := [⟨"image", ⟨2, 1, none⟩⟩]
  loraRequest := some ⟨"adapter", 1⟩

theorem adapterPrompt_wellPlaced : adapterPrompt.WellPlaced := by
  constructor
  · intro feature mem
    simp only [adapterPrompt, mem_singleton] at mem
    subst mem
    decide
  · constructor
    · exact pairwise_singleton _ _
    · intro feature mem
      exact Nat.le_add_right _ _

/-- Two continuations of one prompt share its blocks and agree on them. -/
theorem adapterPrompt_agree_of_blockHash_eq :
    (HashedRequest.afterAppends (symbolicHasher 2 (by decide))
        adapterPrompt [[5]]).blockHashes[1]? =
      (HashedRequest.afterAppends (symbolicHasher 2 (by decide))
        adapterPrompt [[6, 7]]).blockHashes[1]? ∧
      Agree 2 adapterPrompt adapterPrompt [5] [6, 7] 1 := by
  refine ⟨by decide, ?_⟩
  refine (blockHash_eq_implies_agree_iff_not_confusable (symbolicHasher 2 (by decide))
    (symbolicHasher_collisionFree 2 (by decide)) (fun _ _ same => same)
    adapterPrompt adapterPrompt adapterPrompt_wellPlaced adapterPrompt_wellPlaced
    [[5]] [[6, 7]] 1 (by decide) (by decide)).mpr ?_ (by decide)
  rintro ⟨_, swapped | emptyRight | emptyLeft | itemsDiffer⟩
  · obtain ⟨text, ⟨_, _, impossible, _⟩ | ⟨impossible, _⟩⟩ := swapped <;> cases impossible
  · cases emptyRight.2
  · cases emptyLeft.1
  · exact itemsDiffer rfl

/-- A plain prompt that runs with an adapter. -/
def tenantAdapterPrompt : RequestContent where
  allTokenIds := [1, 2]
  loraRequest := some ⟨"tenant", 1⟩

/-- The same tokens isolated by a cache salt. -/
def tenantSaltPrompt : RequestContent where
  allTokenIds := [1, 2]
  cacheSalt := some "tenant"

/-- An adapter name and an equal salt give the same hash to the first block. -/
theorem tenantAdapter_shares_block_with_tenantSalt :
    (symbolicHasher 2 (by decide)).CollisionFree ∧
      (HashedRequest.create (symbolicHasher 2 (by decide))
        tenantAdapterPrompt).blockHashes.length = 1 ∧
      (HashedRequest.create (symbolicHasher 2 (by decide)) tenantAdapterPrompt).blockHashes =
        (HashedRequest.create (symbolicHasher 2 (by decide)) tenantSaltPrompt).blockHashes ∧
      tenantAdapterPrompt.adapterName ≠ tenantSaltPrompt.adapterName ∧
      tenantAdapterPrompt.cacheSalt ≠ tenantSaltPrompt.cacheSalt := by
  exact ⟨symbolicHasher_collisionFree 2 (by decide), by decide⟩

end VllmCore
