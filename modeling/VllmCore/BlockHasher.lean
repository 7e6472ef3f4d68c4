import VllmCore.Lib.WindowScan

namespace VllmCore

/-!
# Block hashes of a request

A request carries one hash for every full group of `hash_block_size` tokens.
Each hash chains over the previous one and mixes in extra keys: the LoRA name,
the multimodal items that reach into the block, the cache salt (first block
only) and a digest of the prompt embeddings of the block.

The caching hash function, the seed of the chain and the digest of the prompt
embeddings live outside the repository and are fields of `BlockHasher`.
-/

/-- A token id as the engine stores it. -/
abbrev TokenId := Int

/-- Placeholder location of one multimodal item in the prompt. -/
structure PlaceholderRange where
  offset : Nat
  length : Nat
  isEmbed : Option (List Bool) := none
  deriving Repr, DecidableEq

/-- One multimodal item of a request. -/
structure MultiModalFeatureSpec where
  identifier : String
  mmPosition : PlaceholderRange
  deriving Repr, DecidableEq

namespace MultiModalFeatureSpec

/-- First token position of the item. -/
def start (feature : MultiModalFeatureSpec) : Nat :=
  feature.mmPosition.offset

/-- First token position after the item. -/
def stop (feature : MultiModalFeatureSpec) : Nat :=
  feature.mmPosition.offset + feature.mmPosition.length

end MultiModalFeatureSpec

/-- The adapter a request runs with. -/
structure LoRARequest where
  loraName : String
  loraIntId : Nat
  deriving Repr, DecidableEq

/--
The part of a request that its block hashes depend on.

`promptEmbeds` holds the bytes of one embedding row for each prompt position.
-/
structure RequestContent where
  allTokenIds : List TokenId
  mmFeatures : List MultiModalFeatureSpec := []
  loraRequest : Option LoRARequest := none
  cacheSalt : Option String := none
  promptEmbeds : Option (List (List UInt8)) := none

/-- Number of tokens of the request, generated ones included. -/
def RequestContent.numTokens (content : RequestContent) : Nat :=
  content.allTokenIds.length

/-- A request together with the block hashes computed for it so far. -/
structure HashedRequest (BlockHash : Type) extends RequestContent where
  blockHashes : List BlockHash := []

/-- One entry of the extra-key tuple of a block. -/
inductive ExtraKey where
  | text (value : String)
  | mmItem (identifier : String) (relativeOffset : Int)
  | digest (value : List UInt8)
  deriving Repr, DecidableEq

/--
Where the multimodal scan of the next block starts.

The source passes an index, or `-1` for the last item.
-/
inductive MmCursor where
  | last
  | index (position : Nat)
  deriving Repr, DecidableEq

/-- The index a cursor stands for in a non-empty list of `count` items. -/
def MmCursor.resolve (count : Nat) : MmCursor → Nat
  | .last => count - 1
  | .index position => position

/-- Multimodal extra keys of `[startTokenIdx, endTokenIdx)` and the next cursor. -/
def genMmExtraHashKeys (mmFeatures : List MultiModalFeatureSpec) (startTokenIdx endTokenIdx : Nat)
    (startMmIdx : MmCursor) : List ExtraKey × MmCursor :=
  match mmFeatures.getLast? with
  | none => ([], startMmIdx)
  | some lastFeature =>
    if lastFeature.stop ≤ startTokenIdx then
      ([], startMmIdx)
    else
      let currMmIdx := startMmIdx.resolve mmFeatures.length
      let scanned :=
        Lib.scanWindow MultiModalFeatureSpec.start MultiModalFeatureSpec.stop
          startTokenIdx endTokenIdx (mmFeatures.drop currMmIdx) currMmIdx
      (scanned.1.map fun feature =>
          .mmItem feature.identifier
            ((feature.start : Int) - (startTokenIdx : Int)),
        .index scanned.2)

/-- The LoRA name as an extra key, if the request runs with an adapter. -/
def genLoraExtraHashKeys (loraRequest : Option LoRARequest) : List ExtraKey :=
  match loraRequest with
  | none => []
  | some lora => [.text lora.loraName]

/-- The cache salt as an extra key of the first block; an empty salt counts as none. -/
def genCacheSaltKeys (cacheSalt : Option String) (startTokenIdx : Nat) : List ExtraKey :=
  match cacheSalt with
  | none => []
  | some salt => if startTokenIdx = 0 ∧ salt ≠ "" then [.text salt] else []

/-- Bytes of the embedding rows `[startTokenIdx, endTokenIdx)`. -/
def embedsBytes (promptEmbeds : List (List UInt8)) (startTokenIdx endTokenIdx : Nat) : List UInt8 :=
  ((promptEmbeds.take endTokenIdx).drop startTokenIdx).flatten

/--
How block hashes are computed.

`hashFunction` is the configured caching hash function, `noneHash` the seed of
every chain and `sha256` the digest of embedding bytes.  `falsy` is the truth
test that `hash_block_tokens` applies to a parent hash; of all byte strings only
the empty one fails it.
-/
structure BlockHasher (BlockHash : Type) where
  hashBlockSize : Nat
  hashBlockSize_pos : 0 < hashBlockSize
  noneHash : BlockHash
  falsy : BlockHash → Bool
  falsy_unique : ∀ first second, falsy first → falsy second → first = second
  hashFunction : BlockHash × List TokenId × Option (List ExtraKey) → BlockHash
  sha256 : List UInt8 → List UInt8

namespace BlockHasher

variable {BlockHash : Type}

variable (hasher : BlockHasher BlockHash)

/-- Digest of the prompt embeddings of a block, if the request has any. -/
def genPromptEmbedsExtraHashKeys
    (promptEmbeds : Option (List (List UInt8))) (startTokenIdx endTokenIdx : Nat) : List ExtraKey :=
  match promptEmbeds with
  | none => []
  | some rows => [.digest (hasher.sha256 (embedsBytes rows startTokenIdx endTokenIdx))]

/-- The extra-key tuple of a block, `none` when it is empty, and the next cursor. -/
def generateBlockHashExtraKeys (request : RequestContent) (startTokenIdx endTokenIdx : Nat)
    (startMmIdx : MmCursor) : Option (List ExtraKey) × MmCursor :=
  let mm :=
    genMmExtraHashKeys request.mmFeatures startTokenIdx endTokenIdx startMmIdx
  let extraKeys :=
    genLoraExtraHashKeys request.loraRequest ++ mm.1 ++
      genCacheSaltKeys request.cacheSalt startTokenIdx ++
      hasher.genPromptEmbedsExtraHashKeys request.promptEmbeds
        startTokenIdx endTokenIdx
  (if extraKeys.isEmpty then none else some extraKeys, mm.2)

/-- Hash of one block on top of its parent; a missing or falsy parent is the seed. -/
def hashBlockTokens (parentBlockHash : Option BlockHash) (currBlockTokenIds : List TokenId)
    (extraKeys : Option (List ExtraKey)) : BlockHash :=
  let parent :=
    match parentBlockHash with
    | none => hasher.noneHash
    | some hash => if hasher.falsy hash then hasher.noneHash else hash
  hasher.hashFunction (parent, currBlockTokenIds, extraKeys)

/-- Token ids `[startTokenIdx, endTokenIdx)` of a request. -/
def blockTokens (request : RequestContent) (startTokenIdx endTokenIdx : Nat) : List TokenId :=
  (request.allTokenIds.take endTokenIdx).drop startTokenIdx

/--
The hashing loop of the request hasher.

Every round consumes `hashBlockSize` tokens, so `numTokens` rounds are enough.
-/
def hashLoop (hasher : BlockHasher BlockHash) (request : RequestContent) :
    Nat → Nat → Option BlockHash → MmCursor → List BlockHash
  | 0, _, _, _ => []
  | fuel + 1, startTokenIdx, prevBlockHashValue, currMmIdx =>
    let endTokenIdx := startTokenIdx + hasher.hashBlockSize
    if request.numTokens < endTokenIdx then
      []
    else
      let extra :=
        hasher.generateBlockHashExtraKeys request
          startTokenIdx endTokenIdx currMmIdx
      let blockHash :=
        hasher.hashBlockTokens prevBlockHashValue
          (blockTokens request startTokenIdx endTokenIdx) extra.1
      blockHash :: hashLoop hasher request fuel endTokenIdx (some blockHash) extra.2

/-- The hashes of the full blocks a request has no hash for yet. -/
def requestBlockHasher (request : HashedRequest BlockHash) : List BlockHash :=
  let startTokenIdx := request.blockHashes.length * hasher.hashBlockSize
  if request.numTokens < startTokenIdx + hasher.hashBlockSize then
    []
  else
    let currMmIdx : MmCursor :=
      if 0 < startTokenIdx then .last else .index 0
    hasher.hashLoop request.toRequestContent request.numTokens startTokenIdx
      request.blockHashes.getLast? currMmIdx

end BlockHasher

namespace HashedRequest

variable {BlockHash : Type}

variable (hasher : BlockHasher BlockHash)

/-- Append the hashes of any new full blocks. -/
def updateBlockHashes (request : HashedRequest BlockHash) : HashedRequest BlockHash :=
  { request with
    blockHashes := request.blockHashes ++ hasher.requestBlockHasher request }

/-- Append generated tokens and the hashes they complete. -/
def appendOutputTokenIds (request : HashedRequest BlockHash) (tokenIds : List TokenId) :
    HashedRequest BlockHash :=
  updateBlockHashes hasher
    { request with allTokenIds := request.allTokenIds ++ tokenIds }

/-- The request as its constructor leaves it: hashes over the prompt only. -/
def create (prompt : RequestContent) : HashedRequest BlockHash :=
  updateBlockHashes hasher { prompt with blockHashes := [] }

/-- A request after a sequence of `append_output_token_ids` calls. -/
def afterAppends (prompt : RequestContent) (appends : List (List TokenId)) :
    HashedRequest BlockHash :=
  appends.foldl (appendOutputTokenIds hasher) (create hasher prompt)

end HashedRequest

end VllmCore
