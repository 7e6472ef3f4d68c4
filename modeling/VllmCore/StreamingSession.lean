import VllmCore.BlockHashRegrow

namespace VllmCore

/-!
# Token bookkeeping of streaming sessions

A streaming session is a request whose prompt grows: each update drops the
sampled tokens that were not computed yet, turns the computed ones into prompt
tokens and appends the tokens and multimodal items of the next chunk.  The
block hashes are carried over and only continued.

The bookkeeping is kept apart from the hashes, since what a step may do to a
session depends on its tokens only.  `Session.step` adds the hashes.
-/

/-- Input of the next chunk of a session. -/
structure StreamingUpdate where
  mmFeatures : List MultiModalFeatureSpec := []
  promptTokenIds : Option (List TokenId)
  deriving Repr, DecidableEq

namespace StreamingUpdate

/-- Tokens of the chunk, none when the update carries no prompt. -/
def tokenIds (update : StreamingUpdate) : List TokenId :=
  update.promptTokenIds.getD []

/-- The items of the chunk come in order and lie inside its tokens. -/
structure WellPlaced (update : StreamingUpdate) : Prop where
  inside : ∀ feature ∈ update.mmFeatures, feature.stop ≤ update.tokenIds.length
  disjoint :
    Lib.Disjoint MultiModalFeatureSpec.start MultiModalFeatureSpec.stop
      update.mmFeatures

end StreamingUpdate

/-- The item moved behind `base` tokens. -/
def MultiModalFeatureSpec.shifted (base : Nat) (feature : MultiModalFeatureSpec) :
    MultiModalFeatureSpec :=
  { feature with
    mmPosition :=
      { feature.mmPosition with offset := feature.mmPosition.offset + base } }

variable {feature : MultiModalFeatureSpec} {base : Nat}

@[simp]
theorem MultiModalFeatureSpec.start_shifted : (feature.shifted base).start = feature.start + base :=
  rfl

@[simp]
theorem MultiModalFeatureSpec.stop_shifted : (feature.shifted base).stop = feature.stop + base := by
  simp only [shifted, stop]
  omega

/-- The token lists and counters of a session request. -/
structure SessionTokens extends RequestContent where
  promptTokenIds : List TokenId
  numPromptTokens : Nat
  outputTokenIds : List TokenId := []
  numComputedTokens : Nat := 0

/-- What the scheduler does to the tokens of a session. -/
inductive SessionStep where
  | appendOutputTokenIds (tokenIds : List TokenId)
  | setNumComputedTokens (numComputedTokens : Nat)
  | updateRequestAsSession (update : StreamingUpdate)
  deriving Repr, DecidableEq

namespace SessionTokens

/-- A request as its constructor leaves it. -/
def create (prompt : RequestContent) : SessionTokens :=
  { prompt with
    promptTokenIds := prompt.allTokenIds
    numPromptTokens := prompt.allTokenIds.length }

variable (session : SessionTokens)

/-- Append sampled tokens. -/
def appendOutputTokenIds (tokenIds : List TokenId) : SessionTokens :=
  { session with
    outputTokenIds := session.outputTokenIds ++ tokenIds
    allTokenIds := session.allTokenIds ++ tokenIds }

/-- The tokens that survive an update. -/
def keptTokens : List TokenId :=
  session.allTokenIds.take session.numComputedTokens

/-- Keep the computed tokens as prompt and append the next chunk. -/
def updateRequestAsSession (update : StreamingUpdate) : SessionTokens :=
  let keptOutputTokens := session.keptTokens.drop session.numPromptTokens
  let base := session.keptTokens.length
  let promptTokenIds := session.promptTokenIds ++ keptOutputTokens ++ update.tokenIds
  { session with
    allTokenIds := session.keptTokens ++ update.tokenIds
    outputTokenIds := []
    promptTokenIds := promptTokenIds
    mmFeatures :=
      session.mmFeatures ++ update.mmFeatures.map (MultiModalFeatureSpec.shifted base)
    numPromptTokens := promptTokenIds.length }

/-- The token side of one step. -/
def step : SessionStep → SessionTokens
  | .appendOutputTokenIds tokenIds => session.appendOutputTokenIds tokenIds
  | .setNumComputedTokens count => { session with numComputedTokens := count }
  | .updateRequestAsSession update => session.updateRequestAsSession update

end SessionTokens

/-- A session request with its block hashes. -/
structure Session (BlockHash : Type) extends
    HashedRequest BlockHash, SessionTokens

namespace Session

variable {BlockHash : Type}

variable (hasher : BlockHasher BlockHash)

variable (session : Session BlockHash)

/-- The session over `tokens` with hashes carried over and continued. -/
def rehash (tokens : SessionTokens) : Session BlockHash :=
  let hashed : HashedRequest BlockHash :=
    HashedRequest.updateBlockHashes hasher
      { tokens with blockHashes := session.blockHashes }
  { tokens with blockHashes := hashed.blockHashes }

/-- A session as its constructor leaves it. -/
def create (prompt : RequestContent) : Session BlockHash :=
  { SessionTokens.create prompt with
    blockHashes := (HashedRequest.create hasher prompt).blockHashes }

/-- Append sampled tokens and the hashes they complete. -/
def appendOutputTokenIds (tokenIds : List TokenId) : Session BlockHash :=
  session.rehash hasher (session.toSessionTokens.appendOutputTokenIds tokenIds)

/-- Take the next chunk of the session and hash on. -/
def updateRequestAsSession (update : StreamingUpdate) : Session BlockHash :=
  session.rehash hasher (session.toSessionTokens.updateRequestAsSession update)

/-- One step of a session. -/
def step :
    SessionStep → Session BlockHash
  | .appendOutputTokenIds tokenIds => session.appendOutputTokenIds hasher tokenIds
  | .setNumComputedTokens count => { session with numComputedTokens := count }
  | .updateRequestAsSession update => session.updateRequestAsSession hasher update

/-- The session after a sequence of steps. -/
def after (prompt : RequestContent) (steps : List SessionStep) : Session BlockHash :=
  steps.foldl (step hasher) (create hasher prompt)

/-- The block hashes are the ones a fresh request with this content gets. -/
def FreshlyHashed : Prop :=
  session.blockHashes = (HashedRequest.create hasher session.toRequestContent).blockHashes

/-- Consistent bookkeeping of a session that grew out of `oldPrompt`. -/
structure Consistent (hasher : BlockHasher BlockHash) (oldPrompt : List TokenId)
    (session : Session BlockHash) :
    Prop where
  allTokenIds : session.allTokenIds = session.promptTokenIds
  keepsPrompt : oldPrompt <+: session.allTokenIds
  numPromptTokens : session.numPromptTokens = session.numTokens
  blockHashes : session.FreshlyHashed hasher

@[simp]
theorem toSessionTokens_step (change : SessionStep) :
    (session.step hasher change).toSessionTokens = session.toSessionTokens.step change := by
  cases change <;> rfl

end Session

namespace SessionTokens

/-- The token side of a sequence of steps. -/
def after (prompt : RequestContent) (steps : List SessionStep) : SessionTokens :=
  steps.foldl step (create prompt)

/-- What the token side of a session keeps. -/
structure WellFormed (session : SessionTokens) : Prop where
  allTokenIds : session.allTokenIds = session.promptTokenIds ++ session.outputTokenIds
  numPromptTokens : session.numPromptTokens = session.promptTokenIds.length
  inside : ∀ feature ∈ session.mmFeatures, feature.stop ≤ session.promptTokenIds.length
  disjoint :
    Lib.Disjoint MultiModalFeatureSpec.start MultiModalFeatureSpec.stop
      session.mmFeatures

/-! ## Safe steps -/

/-- Blocks completed beyond the hashed ones hold no item but the last. -/
def RestartSafe (hashBlockSize oldLength newLength : Nat) (features : List MultiModalFeatureSpec) :
    Prop :=
  0 < oldLength / hashBlockSize →
    ∀ k, oldLength / hashBlockSize ≤ k → k < newLength / hashBlockSize →
      ∀ feature ∈ features.dropLast, ¬ feature.Reaches hashBlockSize k

/--
An update that leaves the prompt whole and the hashed blocks as they are.

Every condition is about the session before the update and the update itself.
-/
structure SafeUpdate (hashBlockSize : Nat) (session : SessionTokens) (update : StreamingUpdate) :
    Prop where
  prompt : session.numPromptTokens ≤ session.numComputedTokens
  tokens :
    (session.keptTokens ++ update.tokenIds).take
        (session.numTokens / hashBlockSize * hashBlockSize) =
      session.allTokenIds.take (session.numTokens / hashBlockSize * hashBlockSize)
  items :
    ∀ feature ∈ update.mmFeatures, ∀ k < session.numTokens / hashBlockSize,
      ¬ (feature.shifted session.keptTokens.length).Reaches hashBlockSize k
  restart :
    RestartSafe hashBlockSize session.numTokens
      (session.keptTokens.length + update.tokenIds.length)
      (session.mmFeatures ++
        update.mmFeatures.map (MultiModalFeatureSpec.shifted session.keptTokens.length))

/-- Steps that keep the hashes of a session those of its content. -/
def SafeStep (hashBlockSize : Nat) (session : SessionTokens) :
    SessionStep → Prop
  | .appendOutputTokenIds tokenIds =>
    RestartSafe hashBlockSize session.numTokens
      (session.numTokens + tokenIds.length) session.mmFeatures
  | .setNumComputedTokens _ => True
  | .updateRequestAsSession update => update.WellPlaced ∧ session.SafeUpdate hashBlockSize update

/-- A sequence of steps each of which is safe where it is taken. -/
def SafeRun (hashBlockSize : Nat) :
    SessionTokens → List SessionStep → Prop
  | _, [] => True
  | session, change :: rest =>
    session.SafeStep hashBlockSize change ∧ SafeRun hashBlockSize (session.step change) rest

section Update

variable {session : SessionTokens}

theorem WellFormed.numTokens_eq (formed : session.WellFormed) :
    session.numTokens = session.promptTokenIds.length + session.outputTokenIds.length := by
  rw [RequestContent.numTokens, formed.allTokenIds, List.length_append]

theorem WellFormed.promptLength_le_kept (formed : session.WellFormed)
    (whole : session.numPromptTokens ≤ session.numComputedTokens) :
    session.promptTokenIds.length ≤ session.keptTokens.length := by
  have longer := formed.numTokens_eq
  rw [RequestContent.numTokens] at longer
  rw [keptTokens, List.length_take]
  have := formed.numPromptTokens
  omega

/-- The update keeps the prompt exactly when every prompt token was computed. -/
theorem WellFormed.updated_tokens_eq_iff (formed : session.WellFormed)
    (update : StreamingUpdate) :
    (session.updateRequestAsSession update).allTokenIds =
        (session.updateRequestAsSession update).promptTokenIds ↔
      session.numPromptTokens ≤ session.numComputedTokens := by
  simp only [updateRequestAsSession, List.append_cancel_right_eq]
  constructor
  · intro equal
    have lengths := congrArg List.length equal
    rw [List.length_append, keptTokens, List.length_take] at lengths
    have := formed.numPromptTokens
    omega
  · intro whole
    have kept : session.keptTokens.take session.numPromptTokens = session.promptTokenIds := by
      rw [keptTokens, List.take_take, Nat.min_eq_left whole, formed.allTokenIds,
        formed.numPromptTokens, List.take_left]
    rw [← kept, List.take_append_drop]

variable {update : StreamingUpdate}

section

variable (formed : session.WellFormed) (placed : update.WellPlaced)
    (whole : session.numPromptTokens ≤ session.numComputedTokens)
include formed placed whole

theorem WellFormed.shifted_features :
    Separate (session.updateRequestAsSession update).mmFeatures := by
  have prompt := formed.promptLength_le_kept whole
  constructor
  · refine List.pairwise_append.mpr ⟨formed.disjoint.ordered, ?_, ?_⟩
    · refine List.pairwise_map.mpr (placed.disjoint.ordered.imp ?_)
      intro first second before
      simpa using before
    · intro earlier mem shifted isShifted
      obtain ⟨later, _, rfl⟩ := List.mem_map.mp isShifted
      have := formed.inside earlier mem
      rw [MultiModalFeatureSpec.start_shifted]
      omega
  · intro feature mem
    rcases List.mem_append.mp mem with earlier | isShifted
    · exact formed.disjoint.proper feature earlier
    · obtain ⟨later, inUpdate, rfl⟩ := List.mem_map.mp isShifted
      simpa using placed.disjoint.proper later inUpdate

theorem WellFormed.updated : (session.updateRequestAsSession update).WellFormed := by
  have all := (formed.updated_tokens_eq_iff update).mpr whole
  refine ⟨?_, rfl, ?_, formed.shifted_features placed whole⟩
  · rw [all]
    exact (List.append_nil _).symm
  · intro feature mem
    have prompt := formed.promptLength_le_kept whole
    rw [← all]
    simp only [updateRequestAsSession, List.length_append]
    rcases List.mem_append.mp mem with earlier | isShifted
    · have := formed.inside feature earlier
      omega
    obtain ⟨later, inUpdate, rfl⟩ := List.mem_map.mp isShifted
    have := placed.inside later inUpdate
    rw [MultiModalFeatureSpec.stop_shifted]
    omega

end

/-- Appended tokens regrow the hashes when no item but the last needs reading. -/
theorem regrows_append
    (safe :
      RestartSafe hashSize session.numTokens
        (session.numTokens + tokenIds.length) session.mmFeatures) :
    BlockHasher.Regrows hashSize session.toRequestContent
      (session.appendOutputTokenIds tokenIds).toRequestContent where
  tokens := List.take_append_of_le_length (Nat.div_mul_le_self _ _)
  items := fun _ _ => rfl
  restart := by
    intro some k late within
    refine safe some k late ?_
    simpa [RequestContent.numTokens, appendOutputTokenIds] using within

/-- An update that keeps the prompt regrows the hashes exactly when it is safe. -/
theorem regrows_update_iff (whole : session.numPromptTokens ≤ session.numComputedTokens) :
    BlockHasher.Regrows hashSize session.toRequestContent
        (session.updateRequestAsSession update).toRequestContent ↔
      session.SafeUpdate hashSize update := by
  have newLength : (session.updateRequestAsSession update).numTokens =
      session.keptTokens.length + update.tokenIds.length :=
    List.length_append
  have items_iff (k : Nat) :
      ((session.updateRequestAsSession update).mmFeatures.filter fun feature =>
            feature.Reaches hashSize k).map MultiModalFeatureSpec.key =
          (session.mmFeatures.filter fun feature =>
            feature.Reaches hashSize k).map MultiModalFeatureSpec.key ↔
        ∀ feature ∈ update.mmFeatures,
          ¬ (feature.shifted session.keptTokens.length).Reaches hashSize k := by
    simp [updateRequestAsSession, List.filter_append, List.filter_map]
  constructor
  · intro regrows
    refine ⟨whole, regrows.tokens, ?_, ?_⟩
    · intro feature mem k early
      exact (items_iff k).mp (regrows.items k early) feature mem
    · intro some k late within
      exact regrows.restart some k late (by rwa [newLength])
  · intro safe
    refine ⟨safe.tokens, ?_, ?_⟩
    · intro k early
      exact (items_iff k).mpr fun feature mem => safe.items feature mem k early
    · intro some k late within
      exact safe.restart some k late (by rwa [newLength] at within)

end Update

theorem wellFormed_create (placed : prompt.WellPlaced) : (create prompt).WellFormed :=
  ⟨(List.append_nil _).symm, rfl, placed.inside, placed.disjoint⟩

theorem WellFormed.step {session : SessionTokens} (formed : session.WellFormed)
    {hashSize : Nat} {change : SessionStep} (safe : session.SafeStep hashSize change) :
    (session.step change).WellFormed := by
  cases change with
  | appendOutputTokenIds tokenIds =>
    refine ⟨?_, formed.numPromptTokens, formed.inside, formed.disjoint⟩
    show session.allTokenIds ++ tokenIds =
      session.promptTokenIds ++ (session.outputTokenIds ++ tokenIds)
    rw [formed.allTokenIds, List.append_assoc]
  | setNumComputedTokens count =>
    exact ⟨formed.allTokenIds, formed.numPromptTokens, formed.inside, formed.disjoint⟩
  | updateRequestAsSession update => exact formed.updated safe.1 safe.2.prompt

/-- A safe step carries the hashes over to those of the new content. -/
theorem regrows_step {session : SessionTokens}
    (safe : session.SafeStep hashSize change) :
    BlockHasher.Regrows hashSize session.toRequestContent
      (session.step change).toRequestContent := by
  cases change with
  | appendOutputTokenIds tokenIds => exact regrows_append safe
  | setNumComputedTokens count =>
    refine ⟨rfl, fun _ _ => rfl, ?_⟩
    intro _ k late within
    exact absurd within (Nat.not_lt.mpr late)
  | updateRequestAsSession update => exact (regrows_update_iff safe.2.prompt).mpr safe.2

theorem sameSetting_step (session : SessionTokens) (change : SessionStep) :
    BlockHasher.SameSetting session.toRequestContent
      (session.step change).toRequestContent := by
  cases change <;> exact ⟨rfl, rfl, rfl⟩

end SessionTokens

namespace Session

open SessionTokens

variable {BlockHash : Type}

/-! ## Hashes along a run -/

variable {hasher : BlockHasher BlockHash} {session : Session BlockHash}

/-- Rehashing a hashed session succeeds exactly when its hashes carry over. -/
theorem FreshlyHashed.rehash_iff (hashed : session.FreshlyHashed hasher) (tokens : SessionTokens) :
    (session.rehash hasher tokens).FreshlyHashed hasher ↔
      hasher.CarriesOver session.toRequestContent tokens.toRequestContent := by
  rw [BlockHasher.CarriesOver, ← hashed]
  rfl

theorem FreshlyHashed.step (hashed : session.FreshlyHashed hasher)
    (formed : session.toSessionTokens.WellFormed) {change : SessionStep}
    (safe : session.toSessionTokens.SafeStep hasher.hashBlockSize change) :
    (session.step hasher change).FreshlyHashed hasher := by
  have carriesOver :=
    (BlockHasher.forall_carriesOver_iff hasher.hashBlockSize_pos
      (session.toSessionTokens.sameSetting_step change) formed.disjoint
      (formed.step safe).disjoint).mpr (regrows_step safe) BlockHash hasher rfl
  cases change with
  | setNumComputedTokens count => exact hashed
  | _ => exact (hashed.rehash_iff _).mpr carriesOver

variable {steps : List SessionStep}

/-- Safe runs keep the tokens well formed and the hashes those of the content. -/
theorem foldl_step_safe (formed : session.toSessionTokens.WellFormed)
    (hashed : session.FreshlyHashed hasher)
    (safe : SafeRun hasher.hashBlockSize session.toSessionTokens steps) :
    (steps.foldl (step hasher) session).toSessionTokens =
        steps.foldl SessionTokens.step session.toSessionTokens ∧
      (steps.foldl SessionTokens.step session.toSessionTokens).WellFormed ∧
      (steps.foldl (step hasher) session).FreshlyHashed hasher := by
  induction steps generalizing session with
  | nil => exact ⟨rfl, formed, hashed⟩
  | cons change rest ih =>
    have tokens := session.toSessionTokens_step hasher change
    have next := ih (tokens ▸ formed.step safe.1) (hashed.step formed safe.1) (tokens ▸ safe.2)
    rwa [tokens] at next

theorem after_safe (hasher : BlockHasher BlockHash)
    (placed : prompt.WellPlaced)
    (safe : SafeRun hasher.hashBlockSize (SessionTokens.create prompt) steps) :
    (after hasher prompt steps).toSessionTokens = SessionTokens.after prompt steps ∧
      (SessionTokens.after prompt steps).WellFormed ∧
      (after hasher prompt steps).FreshlyHashed hasher :=
  foldl_step_safe (wellFormed_create placed) rfl safe

/-- An update is consistent when it keeps the prompt and the hashes carry over. -/
theorem FreshlyHashed.consistent_update_iff
    (hashed : session.FreshlyHashed hasher) (sameTokens : session.toSessionTokens = tokens)
    (formed : tokens.WellFormed) (update : StreamingUpdate) :
    (session.updateRequestAsSession hasher update).Consistent hasher
        session.promptTokenIds ↔
      tokens.numPromptTokens ≤ tokens.numComputedTokens ∧ hasher.CarriesOver tokens.toRequestContent
          (tokens.updateRequestAsSession update).toRequestContent := by
  subst sameTokens
  have whole_iff := formed.updated_tokens_eq_iff update
  have hashed_iff := hashed.rehash_iff (session.toSessionTokens.updateRequestAsSession update)
  constructor
  · intro consistent
    exact ⟨whole_iff.mp consistent.allTokenIds, hashed_iff.mp consistent.blockHashes⟩
  · rintro ⟨whole, carriesOver⟩
    have all := whole_iff.mpr whole
    have grown : (session.toSessionTokens.updateRequestAsSession update).allTokenIds =
        session.promptTokenIds ++ _ :=
      all.trans (List.append_assoc _ _ _)
    exact ⟨all, ⟨_, grown.symm⟩, congrArg List.length all.symm, hashed_iff.mpr carriesOver⟩

/--
After every safe run of a session and for every update whose items are placed
inside its tokens, the bookkeeping is consistent under every hasher of the block
size exactly when the update is safe.
-/
theorem updateRequestAsSession_consistent_iff (hashBlockSize : Nat) (positive : 0 < hashBlockSize)
    (prompt : RequestContent) (placed : prompt.WellPlaced) (steps : List SessionStep)
    (safe : SafeRun hashBlockSize (SessionTokens.create prompt) steps) (update : StreamingUpdate)
    (updatePlaced : update.WellPlaced) :
    (∀ (BlockHash : Type) (hasher : BlockHasher BlockHash), hasher.hashBlockSize = hashBlockSize →
        ((after hasher prompt steps).updateRequestAsSession hasher update).Consistent
          hasher (after hasher prompt steps).promptTokenIds) ↔
      (SessionTokens.after prompt steps).SafeUpdate hashBlockSize update := by
  let tokens := SessionTokens.after prompt steps
  have asCarried
      {BlockHash : Type}
      (hasher : BlockHasher BlockHash)
      (size : hasher.hashBlockSize = hashBlockSize) :
      ((after hasher prompt steps).updateRequestAsSession hasher update).Consistent
          hasher (after hasher prompt steps).promptTokenIds ↔
        tokens.numPromptTokens ≤ tokens.numComputedTokens ∧
          hasher.CarriesOver tokens.toRequestContent
            (tokens.updateRequestAsSession update).toRequestContent := by
    subst size
    obtain ⟨sameTokens, formed, hashed⟩ := after_safe hasher placed safe
    exact hashed.consistent_update_iff sameTokens formed update
  have formed : tokens.WellFormed :=
    (after_safe (symbolicHasher hashBlockSize positive) placed safe).2.1
  have carries_iff (whole : tokens.numPromptTokens ≤ tokens.numComputedTokens) :=
    BlockHasher.forall_carriesOver_iff positive
      (tokens.sameSetting_step (.updateRequestAsSession update))
      formed.disjoint (formed.shifted_features updatePlaced whole)
  constructor
  · intro consistent
    have whole :=
      ((asCarried (symbolicHasher hashBlockSize positive) rfl).mp (consistent _ _ rfl)).1
    refine (regrows_update_iff whole).mp ((carries_iff whole).mp ?_)
    intro BlockHash hasher size
    exact ((asCarried hasher size).mp (consistent _ hasher size)).2
  · intro safeUpdate BlockHash hasher size
    refine (asCarried hasher size).mpr ⟨safeUpdate.prompt, ?_⟩
    exact (carries_iff safeUpdate.prompt).mpr
      ((regrows_update_iff safeUpdate.prompt).mpr safeUpdate) BlockHash hasher size

/-- A chunk of two tokens whose first one is a multimodal item. -/
def imageChunk : StreamingUpdate where
  mmFeatures := [⟨"image", ⟨0, 1, none⟩⟩]
  promptTokenIds := some [6, 7]

theorem imageChunk_wellPlaced : imageChunk.WellPlaced := by
  refine ⟨by decide, ⟨?_, by decide⟩⟩
  exact List.pairwise_singleton _ _

/-- Two prompt tokens, both computed, and the token sampled after them. -/
def sampledOnce : List SessionStep :=
  [.setNumComputedTokens 2, .appendOutputTokenIds [5]]

/-- The sampled token lies in no hashed block: the update is consistent. -/
theorem sampledOnce_update_consistent :
    imageChunk.WellPlaced ∧ SafeRun 2 (SessionTokens.create { allTokenIds := [1, 2] }) sampledOnce ∧
      ∀ (BlockHash : Type) (hasher : BlockHasher BlockHash), hasher.hashBlockSize = 2 →
        ((after hasher { allTokenIds := [1, 2] } sampledOnce).updateRequestAsSession
            hasher imageChunk).Consistent hasher
          (after hasher { allTokenIds := [1, 2] } sampledOnce).promptTokenIds := by
  have placed : RequestContent.WellPlaced { allTokenIds := [1, 2] } := by
    refine ⟨?_, List.Pairwise.nil, ?_⟩ <;> intro feature member <;> cases member
  have safe : SafeRun 2 (SessionTokens.create { allTokenIds := [1, 2] }) sampledOnce := by
    refine ⟨trivial, ?_, trivial⟩
    intro _ k _ _ feature member
    cases member
  refine ⟨imageChunk_wellPlaced, safe, ?_⟩
  refine (updateRequestAsSession_consistent_iff 2 (by decide) _ placed sampledOnce safe
    imageChunk imageChunk_wellPlaced).mpr ?_
  refine ⟨by decide, by decide, by decide, ?_⟩
  intro _ k _ _ feature member
  cases member

/-- One prompt token is computed and the sampled token completes its block. -/
def staleSession : Session SymbolicHash :=
  (after (symbolicHasher 2 Nat.two_pos) { allTokenIds := [1] }
      [.setNumComputedTokens 1, .appendOutputTokenIds [5]]).updateRequestAsSession
    (symbolicHasher 2 Nat.two_pos) { promptTokenIds := some [6] }

/-- The hash of the block over the discarded token stays. -/
theorem staleSession_blockHashes :
    staleSession.allTokenIds = [1, 6] ∧ staleSession.blockHashes =
      (HashedRequest.create (symbolicHasher 2 (by decide)) { allTokenIds := [1, 5] }).blockHashes ∧
      ¬ staleSession.FreshlyHashed (symbolicHasher 2 (by decide)) := by
  unfold FreshlyHashed
  decide

end Session

end VllmCore
