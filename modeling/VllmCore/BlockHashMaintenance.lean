import VllmCore.BlockHasher

namespace VllmCore

open List
open HashedRequest (create)

/-!
# Incremental maintenance of block hashes

The hash list of a request is a chain over per-block contents.  This module
splits the hasher into the two, so that questions about hash lists become
questions about the contents the hasher reads, and settles when the list kept up
to date by `append_output_token_ids` is the one a fresh request would get.
-/

/-- What one block contributes to the hash chain: its tokens and extra keys. -/
abbrev BlockContent := List TokenId × Option (List ExtraKey)

namespace BlockHasher

variable {BlockHash : Type}

/-- Hash a list of block contents on top of a parent hash. -/
def chain (hasher : BlockHasher BlockHash) :
    Option BlockHash → List BlockContent → List BlockHash
  | _, [] => []
  | parent, content :: rest =>
    let blockHash := hasher.hashBlockTokens parent content.1 content.2
    blockHash :: chain hasher (some blockHash) rest

/-- The contents the hashing loop reads for `count` blocks from a position on. -/
def blockContents (hasher : BlockHasher BlockHash) (request : RequestContent) :
    Nat → Nat → MmCursor → List BlockContent
  | 0, _, _ => []
  | count + 1, startTokenIdx, cursor =>
    let endTokenIdx := startTokenIdx + hasher.hashBlockSize
    let extra :=
      hasher.generateBlockHashExtraKeys request startTokenIdx endTokenIdx cursor
    (blockTokens request startTokenIdx endTokenIdx, extra.1) ::
      blockContents hasher request count endTokenIdx extra.2

/-- The multimodal cursor after `count` blocks. -/
def cursorAfter (hasher : BlockHasher BlockHash) (request : RequestContent) :
    Nat → Nat → MmCursor → MmCursor
  | 0, _, cursor => cursor
  | count + 1, startTokenIdx, cursor =>
    let endTokenIdx := startTokenIdx + hasher.hashBlockSize
    cursorAfter hasher request count endTokenIdx
      (hasher.generateBlockHashExtraKeys request startTokenIdx endTokenIdx cursor).2

/-! ## Chains -/

variable (hasher : BlockHasher BlockHash) (request : RequestContent)
  {features : List MultiModalFeatureSpec} (parent : Option BlockHash)
  (contents : List BlockContent) {start endTokenIdx : Nat}

@[simp]
theorem length_chain : (hasher.chain parent contents).length = contents.length := by
  induction contents generalizing parent with
  | nil => rfl
  | cons content rest ih => simp [chain, ih]

theorem chain_append :
    hasher.chain parent (first ++ second) = hasher.chain parent first ++
      hasher.chain ((hasher.chain parent first).getLast?.or parent) second := by
  induction first generalizing parent with
  | nil => simp [chain]
  | cons content rest ih =>
    simp only [cons_append, chain, ih, getLast?_cons]
    cases (hasher.chain
      (some (hasher.hashBlockTokens parent content.1 content.2)) rest).getLast? <;>
      rfl

/-- The first hashes of a chain are the chain over the first contents. -/
theorem take_chain {count : Nat} :
    (hasher.chain parent contents).take count = hasher.chain parent (contents.take count) := by
  induction contents generalizing parent count with
  | nil => simp [chain]
  | cons content rest ih =>
    cases count with
    | zero => rfl
    | succ count => simp [chain, ih]

@[simp]
theorem length_blockContents {count start : Nat} :
    (hasher.blockContents request count start cursor).length = count := by
  induction count generalizing start cursor with
  | zero => rfl
  | succ count ih => simp [blockContents, ih]

theorem blockContents_add (first second start : Nat) (cursor : MmCursor) :
    hasher.blockContents request (first + second) start cursor =
      hasher.blockContents request first start cursor ++ hasher.blockContents request second
        (start + first * hasher.hashBlockSize)
        (hasher.cursorAfter request first start cursor) := by
  induction first generalizing start cursor with
  | zero => simp [blockContents, cursorAfter]
  | succ first ih =>
    have shifted : start + hasher.hashBlockSize + first * hasher.hashBlockSize =
        start + (first + 1) * hasher.hashBlockSize := by
      rw [Nat.add_mul]
      omega
    rw [show first + 1 + second = (first + second) + 1 by omega]
    simp only [blockContents, cursorAfter, ih, shifted, cons_append]

/-- With enough rounds the hashing loop chains over every remaining full block. -/
theorem hashLoop_eq_chain (fuel start : Nat) (parent : Option BlockHash) (cursor : MmCursor)
    (enough : (request.numTokens - start) / hasher.hashBlockSize ≤ fuel) :
    hasher.hashLoop request fuel start parent cursor = hasher.chain parent
      (hasher.blockContents request
        ((request.numTokens - start) / hasher.hashBlockSize)
        start cursor) := by
  induction fuel generalizing start parent cursor with
  | zero =>
    rw [Nat.le_zero.mp enough]
    rfl
  | succ fuel ih =>
    have pos := hasher.hashBlockSize_pos
    unfold hashLoop
    by_cases short : request.numTokens < start + hasher.hashBlockSize
    · have noBlock : (request.numTokens - start) / hasher.hashBlockSize = 0 :=
        Nat.div_eq_of_lt (by omega)
      simp [short, noBlock, blockContents, chain]
    have oneMore : (request.numTokens - start) / hasher.hashBlockSize =
        (request.numTokens - (start + hasher.hashBlockSize)) / hasher.hashBlockSize + 1 := by
      rw [Nat.div_eq_sub_div pos (by omega), Nat.sub_sub]
    rw [oneMore] at enough ⊢
    simp only [short, if_false, blockContents, chain]
    rw [ih _ _ _ (by omega)]

/-- The cursor a call of the request hasher starts from. -/
def startCursor (startTokenIdx : Nat) : MmCursor :=
  if 0 < startTokenIdx then .last else .index 0

/-- One hasher call chains over the full blocks that have no hash yet. -/
theorem hasher_eq_chain {request : HashedRequest BlockHash} :
    hasher.requestBlockHasher request = hasher.chain request.blockHashes.getLast?
      (hasher.blockContents request.toRequestContent
        (request.numTokens / hasher.hashBlockSize - request.blockHashes.length)
        (request.blockHashes.length * hasher.hashBlockSize)
        (startCursor (request.blockHashes.length * hasher.hashBlockSize))) := by
  have remaining : (request.numTokens - request.blockHashes.length * hasher.hashBlockSize) /
        hasher.hashBlockSize =
      request.numTokens / hasher.hashBlockSize - request.blockHashes.length := by
    rw [Nat.mul_comm, Nat.sub_mul_div]
  unfold requestBlockHasher
  by_cases short : request.numTokens <
        request.blockHashes.length * hasher.hashBlockSize + hasher.hashBlockSize
  · have noBlock : request.numTokens / hasher.hashBlockSize - request.blockHashes.length = 0 := by
      rw [← remaining]
      exact Nat.div_eq_of_lt (by have := hasher.hashBlockSize_pos; omega)
    simp [short, noBlock, blockContents, chain]
  · simp only [short, if_false]
    rw [hashLoop_eq_chain, remaining]
    · rfl
    · exact Nat.le_trans (Nat.div_le_self _ _) (Nat.sub_le _ _)

/-- A length lies before the boundary behind its last full block. -/
theorem lt_next_boundary (length : Nat) :
    length < length / hasher.hashBlockSize * hasher.hashBlockSize + hasher.hashBlockSize := by
  have next := Nat.lt_mul_div_succ length hasher.hashBlockSize_pos
  rwa [Nat.mul_comm, Nat.add_mul, Nat.one_mul] at next

/-! ## Contents of blocks that already exist stay the same -/

/-- Contents read from a request depend on its tokens only up to their end. -/
theorem blockContents_of_take_eq (tokens : List TokenId) (count start : Nat) (cursor : MmCursor)
    (agree :
      tokens.take (start + count * hasher.hashBlockSize) =
        request.allTokenIds.take (start + count * hasher.hashBlockSize)) :
    hasher.blockContents { request with allTokenIds := tokens }
        count start cursor =
      hasher.blockContents request count start cursor := by
  induction count generalizing start cursor with
  | zero => rfl
  | succ count ih =>
    have width : start + (count + 1) * hasher.hashBlockSize =
        start + hasher.hashBlockSize + count * hasher.hashBlockSize := by
      rw [Nat.add_mul]
      omega
    rw [width] at agree
    have block : blockTokens { request with allTokenIds := tokens } start
            (start + hasher.hashBlockSize) =
          blockTokens request start (start + hasher.hashBlockSize) := by
      have shorter := congrArg (List.take (start + hasher.hashBlockSize)) agree
      rw [take_take, take_take, Nat.min_eq_left (by omega)] at shorter
      simp only [blockTokens, shorter]
    simp only [blockContents, block]
    exact congrArg _ (ih _ _ agree)

/-! ## Multimodal cursors -/

/-- Every item left of the cursor ended at or before a position. -/
def CursorPassed (mmFeatures : List MultiModalFeatureSpec) (cursor : MmCursor)
    (position : Nat) : Prop :=
  Lib.PassedBefore MultiModalFeatureSpec.stop mmFeatures
    (cursor.resolve mmFeatures.length) position

variable {cursor : MmCursor}

/-- Reading the keys of a window moves the cursor over ended items only. -/
theorem cursorPassed_keys (ordered : start ≤ endTokenIdx)
    (passed : CursorPassed features cursor start) :
    CursorPassed features
      (genMmExtraHashKeys features start endTokenIdx cursor).2
      endTokenIdx := by
  have passedLater : CursorPassed features cursor endTokenIdx :=
    Lib.PassedBefore.mono passed ordered
  unfold genMmExtraHashKeys
  split
  · exact passedLater
  · split
    · exact passedLater
    · exact Lib.passedBefore_scanWindow ordered _ passedLater

/-- After `count` blocks only ended items are left of the cursor. -/
theorem cursorPassed_cursorAfter (count start : Nat) (cursor : MmCursor)
    (passed : CursorPassed request.mmFeatures cursor start) :
    CursorPassed request.mmFeatures
      (hasher.cursorAfter request count start cursor)
      (start + count * hasher.hashBlockSize) := by
  induction count generalizing start cursor with
  | zero => simpa [cursorAfter] using passed
  | succ count ih =>
    have next := ih (start + hasher.hashBlockSize) _
      (cursorPassed_keys (Nat.le_add_right _ _) passed)
    rw [Nat.add_mul, Nat.one_mul, Nat.add_comm (count * _), ← Nat.add_assoc]
    exact next

/-- Behind the last item a block has no multimodal keys. -/
theorem mmKeys_of_ended (ended : ∀ feature ∈ features, feature.stop ≤ start) :
    genMmExtraHashKeys features start endTokenIdx cursor = ([], cursor) := by
  unfold genMmExtraHashKeys
  split
  case h_1 => rfl
  case h_2 last isLast => rw [if_pos (ended last (mem_of_getLast? isLast))]

/-- Behind the last item the contents of blocks do not depend on the cursor. -/
theorem blockContents_of_ended (count start : Nat) (first second : MmCursor)
    (ended : ∀ feature ∈ request.mmFeatures, feature.stop ≤ start) :
    hasher.blockContents request count start first =
      hasher.blockContents request count start second := by
  induction count generalizing start first second with
  | zero => rfl
  | succ count ih =>
    simp only [blockContents, generateBlockHashExtraKeys, mmKeys_of_ended ended]
    rw [ih (start + hasher.hashBlockSize) first second (fun feature mem =>
        Nat.le_trans (ended feature mem) (Nat.le_add_right _ _))]

/-- The keys that a list of items contributes to a block. -/
def mmKeys (startTokenIdx : Nat) (features : List MultiModalFeatureSpec) : List ExtraKey :=
  features.map fun feature =>
    .mmItem feature.identifier ((feature.start : Int) - (startTokenIdx : Int))

variable {last : MultiModalFeatureSpec}

/--
In a block that no item outlives, a scan from the front lists every item that
has not ended, provided the last item has not.
-/
theorem mmKeys_of_all_end (passed : CursorPassed features cursor start)
    (ends : ∀ feature ∈ features, feature.stop < endTokenIdx)
    (isLast : features.getLast? = some last) (reaches : start < last.stop) :
    (genMmExtraHashKeys features start endTokenIdx cursor).1 = mmKeys start
      (features.filter fun feature => start < feature.stop) := by
  have begins : ∀ feature ∈ features, feature.start < endTokenIdx := by
    intro feature mem
    exact Nat.lt_of_le_of_lt (Nat.le_add_right _ _) (ends feature mem)
  unfold genMmExtraHashKeys
  rw [isLast]
  simp only [Nat.not_le.mpr reaches, if_false]
  rw [Lib.scanWindow_of_all_end _ (fun feature mem => begins feature (mem_of_mem_drop mem))
      (fun feature mem => Nat.le_of_lt (ends feature (mem_of_mem_drop mem))),
    Lib.drop_of_passed passed]
  rfl

/-- A scan from the last item on sees the last item only. -/
theorem mmKeys_last_of_all_end
    (ends : ∀ feature ∈ features, feature.stop < endTokenIdx)
    (isLast : features.getLast? = some last) (reaches : start < last.stop) :
    (genMmExtraHashKeys features start endTokenIdx .last).1 = mmKeys start [last] := by
  have lastEnds := ends last (mem_of_getLast? isLast)
  have lastBegins : last.start < endTokenIdx := Nat.lt_of_le_of_lt (Nat.le_add_right _ _) lastEnds
  obtain ⟨front, rfl⟩ := getLast?_eq_some_iff.mp isLast
  unfold genMmExtraHashKeys
  simp [Nat.not_le.mpr reaches, MmCursor.resolve, Lib.scanWindow, lastBegins,
    Nat.le_of_lt lastEnds, mmKeys]

/-- The tuple of extra keys handed to the hash function. -/
def extraKeyTuple (keys : List ExtraKey) : Option (List ExtraKey) :=
  if keys.isEmpty then none else some keys

theorem extraKeyTuple_inj {keys : List ExtraKey} :
    extraKeyTuple keys = extraKeyTuple others ↔ keys = others := by
  cases keys <;> cases others <;> simp [extraKeyTuple]

/-- Two readings of a block agree exactly when their multimodal keys do. -/
theorem extraKeys_eq_iff (start endTokenIdx : Nat) (first second : MmCursor) :
    (hasher.generateBlockHashExtraKeys request start endTokenIdx first).1 =
        (hasher.generateBlockHashExtraKeys request start endTokenIdx second).1 ↔
      (genMmExtraHashKeys request.mmFeatures start endTokenIdx first).1 =
        (genMmExtraHashKeys request.mmFeatures start endTokenIdx second).1 := by
  refine extraKeyTuple_inj.trans ?_
  rw [append_assoc, append_assoc, append_assoc,
    append_assoc, append_cancel_left_eq, append_cancel_right_eq]

/-! ## Collision-free hashing -/

/-- The assumptions under which a block hash identifies its block. -/
structure CollisionFree (hasher : BlockHasher BlockHash) : Prop where
  injective : Function.Injective hasher.hashFunction
  seed_fresh : ∀ input, hasher.hashFunction input ≠ hasher.noneHash

theorem getElem?_chain_zero :
    (hasher.chain parent contents)[0]? = contents[0]?.map fun content =>
      hasher.hashBlockTokens parent content.1 content.2 := by
  cases contents <;> rfl

theorem getElem?_chain_succ :
    (hasher.chain parent contents)[pos + 1]? = contents[pos + 1]?.map fun content =>
      hasher.hashBlockTokens (hasher.chain parent contents)[pos]?
        content.1 content.2 := by
  induction contents generalizing parent pos with
  | nil => rfl
  | cons content rest ih =>
    simp only [chain, getElem?_cons_succ]
    cases pos with
    | zero => exact getElem?_chain_zero hasher _ rest
    | succ pos => rw [ih, getElem?_cons_succ]

/-- Every hash of a chain is an output of the hash function. -/
theorem hash_of_mem_chain
    {parent : Option BlockHash} {contents : List BlockContent}
    (mem : blockHash ∈ hasher.chain parent contents) :
    ∃ input, blockHash = hasher.hashFunction input := by
  induction contents generalizing parent with
  | nil => cases mem
  | cons content rest ih =>
    rcases mem_cons.mp mem with head | later
    · exact ⟨_, head⟩
    · exact ih later

namespace CollisionFree

variable {hasher : BlockHasher BlockHash}

section

variable (collisionFree : hasher.CollisionFree)
include collisionFree

/-- Equal block hashes on top of two chain hashes have equal parents and contents. -/
theorem hashBlockTokens_inj
    (firstOutput : ∃ input, first = hasher.hashFunction input)
    (secondOutput : ∃ input, second = hasher.hashFunction input) {content other : BlockContent}
    (same :
      hasher.hashBlockTokens (some first) content.1 content.2 =
        hasher.hashBlockTokens (some second) other.1 other.2) :
    first = second ∧ content = other := by
  obtain ⟨firstInput, rfl⟩ := firstOutput
  obtain ⟨secondInput, rfl⟩ := secondOutput
  have inputs := collisionFree.injective same
  simp only [Prod.mk.injEq] at inputs
  obtain ⟨parents, tokens, extraKeys⟩ := inputs
  refine ⟨?_, Prod.ext tokens extraKeys⟩
  by_cases firstFalsy : hasher.falsy (hasher.hashFunction firstInput)
  · by_cases secondFalsy : hasher.falsy (hasher.hashFunction secondInput)
    · exact hasher.falsy_unique _ _ firstFalsy secondFalsy
    · rw [if_pos firstFalsy, if_neg secondFalsy] at parents
      exact absurd parents.symm (collisionFree.seed_fresh secondInput)
  · by_cases secondFalsy : hasher.falsy (hasher.hashFunction secondInput)
    · rw [if_neg firstFalsy, if_pos secondFalsy] at parents
      exact absurd parents (collisionFree.seed_fresh firstInput)
    · rwa [if_neg firstFalsy, if_neg secondFalsy] at parents

/-- Without collisions a block hash determines all contents up to its block. -/
theorem take_eq_of_getElem?_chain_eq {contents others : List BlockContent} (pos : Nat)
    (inside : pos < contents.length) (otherInside : pos < others.length)
    (same : (hasher.chain none contents)[pos]? = (hasher.chain none others)[pos]?) :
    contents.take (pos + 1) = others.take (pos + 1) := by
  induction pos with
  | zero =>
    obtain ⟨content, rest, rfl⟩ := exists_cons_of_length_pos inside
    obtain ⟨other, otherRest, rfl⟩ := exists_cons_of_length_pos otherInside
    have inputs := collisionFree.injective (Option.some.inj same)
    simp only [Prod.mk.injEq] at inputs
    simpa using Prod.ext inputs.2.1 inputs.2.2
  | succ pos ih =>
    have chainInside : pos < (hasher.chain none contents).length := by
      simp
      omega
    have otherChainInside : pos < (hasher.chain none others).length := by
      simp
      omega
    rw [getElem?_chain_succ, getElem?_chain_succ,
      getElem?_eq_getElem inside, getElem?_eq_getElem otherInside,
      getElem?_eq_getElem chainInside,
      getElem?_eq_getElem otherChainInside] at same
    obtain ⟨parents, last⟩ :=
      collisionFree.hashBlockTokens_inj (hash_of_mem_chain hasher (getElem_mem chainInside))
        (hash_of_mem_chain hasher (getElem_mem otherChainInside))
        (Option.some.inj same)
    have front := ih (by omega) (by omega) (by
      rw [getElem?_eq_getElem chainInside, getElem?_eq_getElem otherChainInside, parents])
    rw [take_succ_eq_append_getElem inside, take_succ_eq_append_getElem otherInside, front, last]

/-- Without collisions equal hash lists come from equal contents. -/
theorem chain_inj {contents others : List BlockContent}
    (same : hasher.chain none contents = hasher.chain none others) : contents = others := by
  have sameLength : contents.length = others.length := by simpa using congrArg List.length same
  rcases Nat.eq_zero_or_pos contents.length with empty | pos
  · have otherEmpty := sameLength ▸ empty
    rw [length_eq_zero_iff] at empty otherEmpty
    rw [empty, otherEmpty]
  have whole : contents.take (contents.length - 1 + 1) = others.take (contents.length - 1 + 1) :=
    collisionFree.take_eq_of_getElem?_chain_eq _ (by omega) (by omega) (by rw [same])
  rw [Nat.sub_add_cancel pos, take_length, sameLength, take_length] at whole
  exact whole

end

end CollisionFree

end BlockHasher

/-! ## Appending generated tokens -/

/-- Every multimodal item of a request lies inside its tokens. -/
def RequestContent.FeaturesInside (prompt : RequestContent) : Prop :=
  ∀ feature ∈ prompt.mmFeatures, feature.stop ≤ prompt.numTokens

namespace BlockHasher

variable {BlockHash : Type}

/--
The contents behind a maintained hash list: the blocks of the prompt read in one
pass, then the remaining blocks read from the restarted cursor.
-/
def maintainedContents
    (hasher : BlockHasher BlockHash) (promptLength : Nat) (request : RequestContent) :
    List BlockContent :=
  let promptBlocks := promptLength / hasher.hashBlockSize
  hasher.blockContents request promptBlocks 0 (.index 0) ++ hasher.blockContents request
      (request.numTokens / hasher.hashBlockSize - promptBlocks)
      (promptBlocks * hasher.hashBlockSize)
      (startCursor (promptBlocks * hasher.hashBlockSize))

/-- The state of a request after some tokens have been appended to its prompt. -/
structure Maintained (hasher : BlockHasher BlockHash) (prompt : RequestContent)
    (generated : List TokenId) (request : HashedRequest BlockHash) : Prop where
  content :
    request.toRequestContent = { prompt with allTokenIds := prompt.allTokenIds ++ generated }
  blockHashes :
    request.blockHashes = hasher.chain none
      (hasher.maintainedContents prompt.numTokens request.toRequestContent)

variable {hasher : BlockHasher BlockHash} {prompt : RequestContent}

variable {promptLength : Nat}

variable {request : RequestContent}

theorem length_maintainedContents (hasher : BlockHasher BlockHash)
    (longer : promptLength ≤ request.numTokens) :
    (hasher.maintainedContents promptLength request).length =
      request.numTokens / hasher.hashBlockSize := by
  have := Nat.div_le_div_right (c := hasher.hashBlockSize) longer
  simp [maintainedContents]
  omega

/-- Later tokens extend the maintained contents by the newly completed blocks. -/
theorem maintainedContents_append (hasher : BlockHasher BlockHash)
    (longer : promptLength ≤ request.numTokens)
    (inside : ∀ feature ∈ request.mmFeatures, feature.stop ≤ promptLength)
    (tokenIds : List TokenId) :
    hasher.maintainedContents promptLength
      { request with allTokenIds := request.allTokenIds ++ tokenIds } =
      hasher.maintainedContents promptLength request ++ hasher.blockContents
          { request with allTokenIds := request.allTokenIds ++ tokenIds }
          ((request.allTokenIds ++ tokenIds).length / hasher.hashBlockSize -
            request.numTokens / hasher.hashBlockSize)
          (request.numTokens / hasher.hashBlockSize * hasher.hashBlockSize)
          (startCursor (request.numTokens / hasher.hashBlockSize * hasher.hashBlockSize)) := by
  let appended : RequestContent := { request with allTokenIds := request.allTokenIds ++ tokenIds }
  let size := hasher.hashBlockSize
  let promptBlocks := promptLength / size
  let oldBlocks := request.numTokens / size
  let newBlocks := appended.numTokens / size
  have grown : request.numTokens ≤ appended.numTokens := by
    simp [appended, RequestContent.numTokens]
  have promptFirst : promptBlocks ≤ oldBlocks := Nat.div_le_div_right longer
  have oldFirst : oldBlocks ≤ newBlocks := Nat.div_le_div_right grown
  have oldFits : oldBlocks * size ≤ request.allTokenIds.length := Nat.div_mul_le_self _ _
  have sameBlocks (count start : Nat) (cursor : MmCursor)
      (fits : start + count * size ≤ request.allTokenIds.length) :
      hasher.blockContents appended count start cursor =
        hasher.blockContents request count start cursor :=
    hasher.blockContents_of_take_eq request _ count start cursor (take_append_of_le_length fits)
  have split : newBlocks - promptBlocks = (oldBlocks - promptBlocks) + (newBlocks - oldBlocks) := by
    omega
  have reached : promptBlocks * size + (oldBlocks - promptBlocks) * size = oldBlocks * size := by
    rw [← Nat.add_mul, Nat.add_sub_cancel' promptFirst]
  -- The restarted cursor only matters while no generated block is complete.
  have restarted : hasher.blockContents appended (newBlocks - oldBlocks) (oldBlocks * size)
        (hasher.cursorAfter appended (oldBlocks - promptBlocks)
          (promptBlocks * size) (startCursor (promptBlocks * size))) =
      hasher.blockContents appended (newBlocks - oldBlocks) (oldBlocks * size)
        (startCursor (oldBlocks * size)) := by
    rcases Nat.eq_or_lt_of_le promptFirst with same | behind
    · rw [← same, Nat.sub_self]
      rfl
    apply hasher.blockContents_of_ended
    intro feature mem
    have ends := inside feature mem
    have next : promptLength < promptBlocks * size + size := hasher.lt_next_boundary promptLength
    have := Nat.mul_le_mul_right size (Nat.succ_le_of_lt behind)
    rw [Nat.succ_mul] at this
    omega
  have sameFront : hasher.blockContents appended promptBlocks 0 (.index 0) =
      hasher.blockContents request promptBlocks 0 (.index 0) := by
    apply sameBlocks
    omega
  have sameTail := sameBlocks (oldBlocks - promptBlocks) (promptBlocks * size)
    (startCursor (promptBlocks * size)) (by omega)
  calc
    hasher.maintainedContents promptLength appended
      = hasher.blockContents appended promptBlocks 0 (.index 0) ++
          hasher.blockContents appended (newBlocks - promptBlocks)
            (promptBlocks * size) (startCursor (promptBlocks * size)) := rfl
    _ = hasher.blockContents request promptBlocks 0 (.index 0) ++
          (hasher.blockContents request (oldBlocks - promptBlocks)
              (promptBlocks * size) (startCursor (promptBlocks * size)) ++
            hasher.blockContents appended (newBlocks - oldBlocks)
              (oldBlocks * size) (startCursor (oldBlocks * size))) := by
        rw [split, hasher.blockContents_add, reached, restarted, sameFront, sameTail]
    _ = _ := by
        rw [← append_assoc]
        rfl

/-- A fresh request is hashed over all its full blocks in one pass. -/
theorem create_blockHashes :
    (create hasher request).blockHashes = hasher.chain none
      (hasher.blockContents request (request.numTokens / hasher.hashBlockSize) 0 (.index 0)) := by
  simp [create, HashedRequest.updateBlockHashes, hasher_eq_chain, startCursor]

theorem maintained_create (hasher : BlockHasher BlockHash) (prompt : RequestContent) :
    hasher.Maintained prompt [] (create hasher prompt) := by
  have content : (create hasher prompt).toRequestContent = prompt := rfl
  refine ⟨by simp [content], ?_⟩
  rw [create_blockHashes, maintainedContents, content]
  simp [blockContents]

/-- Appending tokens keeps the hash list a chain over the maintained contents. -/
theorem Maintained.appendOutputTokenIds
    {request : HashedRequest BlockHash}
    (maintained : hasher.Maintained prompt generated request) (inside : prompt.FeaturesInside)
    (tokenIds : List TokenId) :
    hasher.Maintained prompt (generated ++ tokenIds)
      (request.appendOutputTokenIds hasher tokenIds) := by
  have longer : prompt.numTokens ≤ request.numTokens := by
    rw [maintained.content]
    simp [RequestContent.numTokens]
  have features : request.mmFeatures = prompt.mmFeatures := by rw [maintained.content]
  constructor
  · simp [HashedRequest.appendOutputTokenIds, HashedRequest.updateBlockHashes, maintained.content]
  · have hashed : request.blockHashes.length = request.numTokens / hasher.hashBlockSize := by
      rw [maintained.blockHashes, length_chain, hasher.length_maintainedContents longer]
    simp only [HashedRequest.appendOutputTokenIds, HashedRequest.updateBlockHashes, hasher_eq_chain]
    rw [hasher.maintainedContents_append longer (by rwa [features]), chain_append,
      Option.or_none, ← maintained.blockHashes, hashed]
    rfl

/-- The hash list of a request stays a chain over the maintained contents. -/
theorem maintained_afterAppends (hasher : BlockHasher BlockHash) (inside : prompt.FeaturesInside)
    (appends : List (List TokenId)) :
    hasher.Maintained prompt appends.flatten
      (HashedRequest.afterAppends hasher prompt appends) := by
  have run (generated : List TokenId) (request : HashedRequest BlockHash)
      (maintained : hasher.Maintained prompt generated request) :
      hasher.Maintained prompt (generated ++ appends.flatten)
        (appends.foldl (HashedRequest.appendOutputTokenIds hasher) request) := by
    induction appends generalizing generated request with
    | nil => simpa using maintained
    | cons tokenIds rest ih =>
      rw [flatten_cons, ← append_assoc]
      exact ih _ _ (maintained.appendOutputTokenIds inside tokenIds)
  exact run [] _ (hasher.maintained_create prompt)

/-- The contents a fresh request is hashed from, split at the prompt's last boundary. -/
theorem create_blockHashes_eq_chain (longer : promptLength ≤ request.numTokens) :
    (create hasher request).blockHashes = hasher.chain none
      (hasher.blockContents request
          (promptLength / hasher.hashBlockSize) 0 (.index 0) ++
        hasher.blockContents request
          (request.numTokens / hasher.hashBlockSize - promptLength / hasher.hashBlockSize)
          (promptLength / hasher.hashBlockSize * hasher.hashBlockSize)
          (hasher.cursorAfter request (promptLength / hasher.hashBlockSize) 0 (.index 0))) := by
  have blocks : request.numTokens / hasher.hashBlockSize = promptLength / hasher.hashBlockSize +
      (request.numTokens / hasher.hashBlockSize - promptLength / hasher.hashBlockSize) :=
    (Nat.add_sub_cancel' (Nat.div_le_div_right longer)).symm
  rw [create_blockHashes]
  conv_lhs => rw [blocks, blockContents_add, Nat.zero_add]

end BlockHasher

/-! ## When incremental and fresh hashes agree -/

variable (hashBlockSize : Nat)

/--
Generated tokens never complete a block in which an earlier multimodal item is
still visible next to the last one.

The block concerned is the one that holds the end of the prompt: the hasher
re-enters it with the cursor at the last item.
-/
def TailSafe (prompt : RequestContent) (finalLength : Nat) : Prop :=
  let tailStart := prompt.numTokens / hashBlockSize * hashBlockSize
  0 < tailStart → tailStart + hashBlockSize ≤ finalLength →
    ∀ last, prompt.mmFeatures.getLast? = some last → tailStart < last.stop →
      ∀ feature ∈ prompt.mmFeatures.dropLast, feature.stop ≤ tailStart

/-- Hashes as terms: two of them are equal only if everything hashed is. -/
inductive SymbolicHash where
  | seed
  | block (parent : SymbolicHash) (tokenIds : List TokenId) (extraKeys : Option (List ExtraKey))
  deriving Repr, DecidableEq

/-- The hasher that records everything it is given. -/
def symbolicHasher (positive : 0 < hashBlockSize) :
    BlockHasher SymbolicHash where
  hashBlockSize := hashBlockSize
  hashBlockSize_pos := positive
  noneHash := .seed
  falsy := fun _ => false
  falsy_unique := by simp
  hashFunction := fun input => .block input.1 input.2.1 input.2.2
  sha256 := id

theorem symbolicHasher_collisionFree (pos : 0 < hashBlockSize) :
    (symbolicHasher hashBlockSize pos).CollisionFree := by
  constructor
  · intro first second same
    injection same with parents tokens extraKeys
    exact Prod.ext parents (Prod.ext tokens extraKeys)
  · intro input same
    cases same

/-- Restarting at the last item loses exactly the earlier items still visible. -/
theorem mmKeys_last_eq_iff
    (passed : BlockHasher.CursorPassed features cursor start)
    (ends : ∀ feature ∈ features, feature.stop < endTokenIdx) :
    (genMmExtraHashKeys features start endTokenIdx .last).1 =
        (genMmExtraHashKeys features start endTokenIdx cursor).1 ↔
      ∀ last, features.getLast? = some last → start < last.stop →
        ∀ feature ∈ features.dropLast, feature.stop ≤ start := by
  cases isLast : features.getLast? with
  | none => simp [genMmExtraHashKeys, isLast]
  | some last =>
    by_cases reaches : start < last.stop
    · rw [BlockHasher.mmKeys_last_of_all_end ends isLast reaches,
        BlockHasher.mmKeys_of_all_end passed ends isLast reaches]
      obtain ⟨front, rfl⟩ := getLast?_eq_some_iff.mp isLast
      have keep : (front ++ [last]).filter (fun feature => start < feature.stop) =
          front.filter (fun feature => start < feature.stop) ++ [last] := by
        simp [reaches]
      rw [keep, BlockHasher.mmKeys, BlockHasher.mmKeys, map_append,
        self_eq_append_left, map_eq_nil_iff]
      simp [reaches]
    · have ended : last.stop ≤ start := Nat.le_of_not_lt reaches
      simp [genMmExtraHashKeys, isLast, ended, reaches]

namespace BlockHasher

variable {BlockHash : Type}

/-- Only the first of several blocks can tell a restarted cursor from a passed one. -/
theorem blockContents_last_eq_iff
    (hasher : BlockHasher BlockHash) {request : RequestContent} {start : Nat}
    {cursor : MmCursor} (count : Nat) (passed : CursorPassed request.mmFeatures cursor start)
    (ends : ∀ feature ∈ request.mmFeatures, feature.stop < start + hasher.hashBlockSize) :
    hasher.blockContents request (count + 1) start .last =
        hasher.blockContents request (count + 1) start cursor ↔
      ∀ last, request.mmFeatures.getLast? = some last → start < last.stop →
        ∀ feature ∈ request.mmFeatures.dropLast, feature.stop ≤ start := by
  rw [← mmKeys_last_eq_iff passed ends, ← hasher.extraKeys_eq_iff]
  have rest := fun first second =>
    hasher.blockContents_of_ended request count (start + hasher.hashBlockSize) first second
      (fun feature mem => Nat.le_of_lt (ends feature mem))
  constructor
  · intro same
    simp only [blockContents, cons.injEq, Prod.mk.injEq] at same
    exact same.1.2
  · intro same
    simp only [blockContents, cons.injEq, Prod.mk.injEq]
    exact ⟨⟨trivial, same⟩, rest _ _⟩

/-- The blocks behind the prompt are read alike exactly when the tail is safe. -/
theorem blockContents_startCursor_eq_iff (hasher : BlockHasher BlockHash)
    (inside : prompt.FeaturesInside) (tokens : List TokenId) :
    hasher.blockContents { prompt with allTokenIds := tokens }
          (tokens.length / hasher.hashBlockSize - prompt.numTokens / hasher.hashBlockSize)
          (prompt.numTokens / hasher.hashBlockSize * hasher.hashBlockSize)
          (startCursor (prompt.numTokens / hasher.hashBlockSize * hasher.hashBlockSize)) =
        hasher.blockContents { prompt with allTokenIds := tokens }
          (tokens.length / hasher.hashBlockSize - prompt.numTokens / hasher.hashBlockSize)
          (prompt.numTokens / hasher.hashBlockSize * hasher.hashBlockSize)
          (hasher.cursorAfter { prompt with allTokenIds := tokens }
            (prompt.numTokens / hasher.hashBlockSize) 0 (.index 0)) ↔
      TailSafe hasher.hashBlockSize prompt tokens.length := by
  let request : RequestContent := { prompt with allTokenIds := tokens }
  let size := hasher.hashBlockSize
  let promptBlocks := prompt.numTokens / size
  have pos : 0 < size := hasher.hashBlockSize_pos
  have beyond : prompt.numTokens < promptBlocks * size + size :=
    hasher.lt_next_boundary prompt.numTokens
  have ends : ∀ feature ∈ request.mmFeatures, feature.stop < promptBlocks * size + size :=
    fun feature mem => Nat.lt_of_le_of_lt (inside feature mem) beyond
  rcases Nat.eq_zero_or_pos (promptBlocks * size) with zero | tailPositive
  · have noPrompt : promptBlocks = 0 := by
      rcases Nat.mul_eq_zero.mp zero with none | none
      · exact none
      · omega
    constructor
    · intro _ contradiction
      exact absurd zero (Nat.ne_of_gt contradiction)
    · intro _
      show hasher.blockContents request _ (promptBlocks * size)
          (startCursor (promptBlocks * size)) =
        hasher.blockContents request _ (promptBlocks * size)
          (hasher.cursorAfter request promptBlocks 0 (.index 0))
      rw [noPrompt, Nat.zero_mul]
      rfl
  · have restart : startCursor (promptBlocks * size) = .last := if_pos tailPositive
    have passed : CursorPassed request.mmFeatures
        (hasher.cursorAfter request promptBlocks 0 (.index 0))
        (promptBlocks * size) := by
      have := hasher.cursorPassed_cursorAfter request promptBlocks 0 (.index 0)
        (Lib.passedBefore_zero)
      rwa [Nat.zero_add] at this
    cases completed : tokens.length / size - promptBlocks with
    | zero =>
      constructor
      · intro _ _ complete
        have := (Nat.le_div_iff_mul_le pos).mpr (show (promptBlocks + 1) * size ≤ tokens.length by
            rw [Nat.add_mul, Nat.one_mul]
            exact complete)
        omega
      · intro _
        rfl
    | succ count =>
      have complete : promptBlocks * size + size ≤ tokens.length := by
        have := (Nat.le_div_iff_mul_le pos).mp
          (show promptBlocks + 1 ≤ tokens.length / size by omega)
        rwa [Nat.add_mul, Nat.one_mul] at this
      have tail_iff := hasher.blockContents_last_eq_iff count passed ends
      rw [← restart] at tail_iff
      refine tail_iff.trans ⟨fun safe _ _ => safe, fun safe => ?_⟩
      exact safe tailPositive complete

end BlockHasher

/--
For every prompt whose multimodal items lie inside it and every sequence of
appends, the maintained hash list is the fresh one under every hasher of the
given block size exactly when the prompt's tail block is safe.
-/
theorem afterAppends_blockHashes_eq_create_iff_tailSafe (hashBlockSize : Nat)
    (positive : 0 < hashBlockSize) (prompt : RequestContent) (inside : prompt.FeaturesInside)
    (appends : List (List TokenId)) :
    (∀ (BlockHash : Type) (hasher : BlockHasher BlockHash), hasher.hashBlockSize = hashBlockSize →
      (HashedRequest.afterAppends hasher prompt appends).blockHashes = (HashedRequest.create hasher
          { prompt with
            allTokenIds := prompt.allTokenIds ++ appends.flatten }).blockHashes) ↔
      TailSafe hashBlockSize prompt
        (prompt.allTokenIds ++ appends.flatten).length := by
  have longer : prompt.numTokens ≤ (prompt.allTokenIds ++ appends.flatten).length := by
    simp [RequestContent.numTokens]
  have asContents
      {BlockHash : Type}
      (hasher : BlockHasher BlockHash) :=
    hasher.maintained_afterAppends inside appends
  constructor
  · intro agree
    have same := agree SymbolicHash (symbolicHasher hashBlockSize positive) rfl
    have maintained := asContents (symbolicHasher hashBlockSize positive)
    rw [maintained.blockHashes, maintained.content,
      BlockHasher.create_blockHashes_eq_chain longer] at same
    have contents := (symbolicHasher_collisionFree hashBlockSize positive).chain_inj same
    exact ((symbolicHasher hashBlockSize positive).blockContents_startCursor_eq_iff
      inside _).mp (append_cancel_left contents)
  · intro safe BlockHash hasher size
    subst size
    have maintained := asContents hasher
    rw [maintained.blockHashes, maintained.content, BlockHasher.create_blockHashes_eq_chain longer]
    have tail := (hasher.blockContents_startCursor_eq_iff inside _).mpr safe
    exact congrArg (fun rest => hasher.chain none (_ ++ rest)) tail

/-- A prompt of six tokens with one item in its tail block. -/
def oneTailItemPrompt : RequestContent where
  allTokenIds := [1, 2, 3, 4, 5, 6]
  mmFeatures := [⟨"image", ⟨4, 2, none⟩⟩]

/-- With one item in the tail block the maintained list is the fresh one. -/
theorem oneTailItem_blockHashes_eq_create :
    oneTailItemPrompt.FeaturesInside ∧ ∀ (BlockHash : Type) (hasher : BlockHasher BlockHash),
      hasher.hashBlockSize = 4 →
      (HashedRequest.afterAppends hasher oneTailItemPrompt [[7], [8]]).blockHashes =
        (HashedRequest.create hasher
          { oneTailItemPrompt with
            allTokenIds :=
                oneTailItemPrompt.allTokenIds ++ [[7], [8]].flatten }).blockHashes := by
  have inside : oneTailItemPrompt.FeaturesInside := by
    intro feature member
    simp only [oneTailItemPrompt, mem_singleton] at member
    subst member
    decide
  refine ⟨inside, ?_⟩
  refine (afterAppends_blockHashes_eq_create_iff_tailSafe 4 (by decide)
    oneTailItemPrompt inside [[7], [8]]).mpr ?_
  intro _ _ last _ _ feature member
  simp [oneTailItemPrompt] at member

/-- A prompt of six tokens with two items in its tail block. -/
def twoTailItemsPrompt : RequestContent where
  allTokenIds := [1, 2, 3, 4, 5, 6]
  mmFeatures := [⟨"first", ⟨4, 1, none⟩⟩, ⟨"second", ⟨5, 1, none⟩⟩]

/-- With two items in the tail block, completing it loses the first item. -/
theorem twoTailItems_blockHashes_ne_create :
    twoTailItemsPrompt.FeaturesInside ∧ twoTailItemsPrompt.mmFeatures.Pairwise
        (fun first second => first.start ≤ second.start) ∧
      (HashedRequest.afterAppends (symbolicHasher 4 (by decide))
          twoTailItemsPrompt [[7, 8]]).blockHashes ≠
        (HashedRequest.create (symbolicHasher 4 (by decide))
          { twoTailItemsPrompt with
            allTokenIds :=
              twoTailItemsPrompt.allTokenIds ++ [[7, 8]].flatten }).blockHashes := by
  refine ⟨?_, by decide, by decide⟩
  intro feature member
  simp only [twoTailItemsPrompt, mem_cons, not_mem_nil, or_false] at member
  rcases member with rfl | rfl <;> decide

namespace HashedRequest

open BlockHasher

variable {BlockHash : Type} (hasher : BlockHasher BlockHash)

theorem length_updateBlockHashes {request : HashedRequest BlockHash}
    (fewer : request.blockHashes.length ≤ request.numTokens / hasher.hashBlockSize) :
    (request.updateBlockHashes hasher).blockHashes.length =
      request.numTokens / hasher.hashBlockSize := by
  simp only [updateBlockHashes, hasher_eq_chain, length_append, length_chain, length_blockContents]
  omega

/-- Over all appends hashes stay as they are, and there is one for each full block. -/
theorem afterAppends_extends (prompt : RequestContent) (appends more : List (List TokenId)) :
    (afterAppends hasher prompt appends).blockHashes <+:
        (afterAppends hasher prompt (appends ++ more)).blockHashes ∧
      (afterAppends hasher prompt appends).blockHashes.length =
        (afterAppends hasher prompt appends).numTokens / hasher.hashBlockSize := by
  unfold afterAppends
  constructor
  · rw [foldl_append]
    generalize foldl _ _ appends = request
    induction more generalizing request with
    | nil => exact prefix_rfl
    | cons tokenIds rest ih =>
      exact IsPrefix.trans ⟨_, rfl⟩ (ih (request.appendOutputTokenIds hasher tokenIds))
  · have started : (create hasher prompt).blockHashes.length =
        (create hasher prompt).numTokens / hasher.hashBlockSize :=
      length_updateBlockHashes hasher (Nat.zero_le _)
    generalize create hasher prompt = request at started ⊢
    induction appends generalizing request with
    | nil => exact started
    | cons tokenIds rest ih =>
      refine ih _ (length_updateBlockHashes hasher ?_)
      simp only [started]
      exact Nat.div_le_div_right (by simp [RequestContent.numTokens])

end HashedRequest

end VllmCore
