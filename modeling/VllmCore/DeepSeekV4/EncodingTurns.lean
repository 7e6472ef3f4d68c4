import VllmCore.DeepSeekV4.Encoding

namespace VllmCore.DeepSeekV4

/-!
# The turns of a conversation

Merging and sorting turn the messages into turns.  Both go through the messages
from left to right, and an assistant message closes the turn before it, so the
turns of a longer conversation extend those of the shorter one.
-/

open Lib List

/-- The turns the messages form. -/
def turnsOf (python : Python) (messages : List Message) : Outcome (List Message) := do
  let merged ← mergeToolMessages python messages
  .ok (sortToolResultsByCallOrder merged)

/-- The turns that are rendered. -/
def keptTurns (thinkingMode : ThinkingMode) (dropThinking : Bool) (turns : List Message) :
    List Message :=
  if thinkingMode = .thinking && dropThinking then dropThinkingMessages turns else turns

/-- The renderings of all turns. -/
def renderTurns (python : Python) (turns : List Message) (thinkingMode : ThinkingMode)
    (dropThinking : Bool) (reasoningEffort : Text) : Outcome (List Text) :=
  (range turns.length).mapM fun index =>
    renderMessage python index turns thinkingMode dropThinking reasoningEffort

variable {dropThinking : Bool} {messages : List Message}

theorem fullMessages_noContext :
    fullMessages mode dropThinking [] turns = (keptTurns mode dropThinking turns, 0) := by
  unfold fullMessages keptTurns
  split <;> rfl

variable {python : Python} {message : Message} {before merged : List Message}

/-- Without context, the prompt is the renderings of the kept turns in order. -/
theorem encodeMessages_eq_ok :
    encodeMessages python messages mode [] dropThinking addDefaultBosToken
        effort =
        .ok prompt ↔
      (∀ message ∈ messages, validateImageMessageRole message = .ok ()) ∧ ∃ turns parts,
          turnsOf python messages = .ok turns ∧ renderTurns python
                (keptTurns mode (effectiveDropThinking dropThinking turns) turns)
                mode (effectiveDropThinking dropThinking turns) effort =
              .ok parts ∧
            prompt = (if addDefaultBosToken then bosToken else []) ++ parts.flatten := by
  have starting :
      (if addDefaultBosToken && (sortToolResultsByCallOrder []).isEmpty then bosToken else []) =
        if addDefaultBosToken then bosToken else [] := by
    cases addDefaultBosToken <;> rfl
  constructor
  · intro ran
    obtain ⟨_, validated, afterChecks⟩ := bind_ok.mp ran
    obtain ⟨merged, isMerged, afterMerge⟩ := bind_ok.mp afterChecks
    obtain ⟨_, noContext, done⟩ := bind_ok.mp afterMerge
    cases noContext
    have loop := done
    simp only [nil_append, length_nil, drop_zero] at loop
    rw [show sortToolResultsByCallOrder [] = [] from rfl, fullMessages_noContext] at loop
    obtain ⟨parts, rendered, same⟩ := foldlM_append_eq_ok.mp loop
    refine ⟨forM_eq_ok_iff.mp validated, sortToolResultsByCallOrder merged, parts, ?_, rendered, ?_⟩
    · exact bind_ok.mpr ⟨merged, isMerged, rfl⟩
    · rw [same]
      exact congrArg (· ++ parts.flatten) starting
  · rintro ⟨validated, turns, parts, formed, rendered, rfl⟩
    obtain ⟨merged, isMerged, same⟩ := bind_ok.mp formed
    cases same
    refine bind_ok.mpr ⟨(), forM_eq_ok_iff.mpr validated, ?_⟩
    refine bind_ok.mpr ⟨merged, isMerged, ?_⟩
    refine bind_ok.mpr ⟨[], rfl, ?_⟩
    simp only [nil_append, length_nil, drop_zero]
    rw [show sortToolResultsByCallOrder [] = [] from rfl, fullMessages_noContext]
    refine foldlM_append_eq_ok.mpr ⟨parts, rendered, ?_⟩
    exact congrArg (· ++ parts.flatten) starting.symm

/-! ## Merging -/

/-- No further block can be added to the last of these turns. -/
def Closed (merged : List Message) : Prop :=
  ∀ last, merged.getLast? = some last → last.role ≠ .user

theorem openTurn_append (closed : Closed before) :
    openTurn (before ++ merged) takes =
      (openTurn merged takes).map fun found => (before ++ found.1, found.2) := by
  cases merged using reverseRecOn with
  | nil =>
    unfold openTurn
    rw [append_nil]
    split
    · rename_i last isLast
      split
      · simp [closed last isLast]
      · rfl
    · rfl
  | append_singleton earlier last =>
    unfold openTurn
    rw [← append_assoc]
    simp only [getLast?_append, getLast?_singleton, Option.some_or, dropLast_concat]
    split
    · split <;> rfl
    · rfl

theorem addBlock_append (closed : Closed before) :
    addBlock (before ++ merged) takes block fresh =
      before ++ addBlock merged takes block fresh := by
  unfold addBlock
  rw [openTurn_append closed]
  cases openTurn merged takes <;> simp

/-- Behind a closed turn the merge goes on as from the start. -/
theorem mergeMessage_append (closed : Closed before) :
    mergeMessage python (before ++ merged) message =
      (mergeMessage python merged message).map (before ++ ·) := by
  unfold mergeMessage
  split
  · dsimp only
    rw [addBlock_append closed]
    rfl
  · cases flattenContentBlocks python (message.content.getD (.str [])) with
    | error fault => rfl
    | ok textContent =>
      simp only [ok_bind]
      rw [addBlock_append closed]
      rfl
  · rw [append_assoc]
    rfl

theorem foldlM_mergeMessage_append (closed : Closed before) :
    messages.foldlM (mergeMessage python) (before ++ merged) =
      (messages.foldlM (mergeMessage python) merged).map (before ++ ·) := by
  induction messages generalizing merged with
  | nil => rfl
  | cons message rest ih =>
    rw [foldlM_cons, foldlM_cons, mergeMessage_append closed]
    cases mergeMessage python merged message with
    | error fault => rfl
    | ok next => exact ih

theorem mergeMessage_other (notUser : message.role ≠ .user) (notTool : message.role ≠ .tool) :
    mergeMessage python merged message = .ok (merged ++ [message]) := by
  unfold mergeMessage
  split <;> simp_all

/-- A message that is no part of a user turn splits the merge in two. -/
theorem mergeToolMessages_split (notUser : message.role ≠ .user)
    (notTool : message.role ≠ .tool) :
    mergeToolMessages python (earlier ++ message :: later) = (do
      let before ← mergeToolMessages python earlier
      let after ← mergeToolMessages python later
      .ok (before ++ message :: after)) := by
  unfold mergeToolMessages
  rw [foldlM_append]
  cases earlier.foldlM (mergeMessage python) [] with
  | error fault => rfl
  | ok before =>
    have closed : Closed (before ++ [message]) := by
      intro last isLast
      rw [getLast?_concat, Option.some.injEq] at isLast
      exact isLast ▸ notUser
    simp only [ok_bind]
    rw [foldlM_cons, mergeMessage_other notUser notTool, ok_bind]
    have rest : later.foldlM (mergeMessage python) (before ++ [message] ++ []) =
        (later.foldlM (mergeMessage python) []).map (before ++ [message] ++ ·) :=
      foldlM_mergeMessage_append closed
    rw [append_nil] at rest
    rw [rest]
    cases later.foldlM (mergeMessage python) [] with
    | error fault => rfl
    | ok after => simp [Except.map]

/-! ## Sorting -/

/-- The call order in force behind some turns. -/
def orderAfter (order : List (Text × Nat)) : List Message → List (Text × Nat)
  | [] => order
  | message :: rest =>
    if message.role = .assistant && !message.toolCalls.isEmpty then
      orderAfter (toolCallOrder message.toolCalls) rest
    else
      orderAfter order rest

theorem sortFrom_append :
    sortFrom order (first ++ second) =
      sortFrom order first ++ sortFrom (orderAfter order first) second := by
  induction first generalizing order with
  | nil => rfl
  | cons message rest ih =>
    simp only [cons_append, sortFrom, orderAfter]
    split
    · rw [ih]
      rfl
    · split <;> rw [ih] <;> rfl

section

variable (notUser : message.role ≠ .user)
include notUser

theorem sortFrom_singleton : sortFrom order [message] = [message] := by
  simp only [sortFrom, notUser, ↓reduceIte]
  split <;> rfl

section

variable (notTool : message.role ≠ .tool)
include notTool

/-- A message that is no part of a user turn is a turn, and the turns before and
behind it are formed without regard to each other. -/
theorem turnsOf_split
    (formed : turnsOf python (earlier ++ message :: later) = .ok turns) :
    ∃ before after, turnsOf python earlier = .ok before ∧ turns = before ++ message :: after := by
  obtain ⟨merged, isMerged, same⟩ := bind_ok.mp formed
  cases same
  rw [mergeToolMessages_split notUser notTool] at isMerged
  obtain ⟨before, isBefore, next⟩ := bind_ok.mp isMerged
  obtain ⟨after, isAfter, same⟩ := bind_ok.mp next
  cases same
  refine ⟨sortToolResultsByCallOrder before,
    sortFrom (orderAfter (orderAfter [] before) [message]) after,
    bind_ok.mpr ⟨before, isBefore, rfl⟩, ?_⟩
  unfold sortToolResultsByCallOrder
  rw [sortFrom_append, ← singleton_append, sortFrom_append, sortFrom_singleton notUser]
  rfl

/-- Turns that end in a message outside user turns. -/
theorem turnsOf_concat
    (formed : turnsOf python earlier = .ok before) :
    turnsOf python (earlier ++ [message]) = .ok (before ++ [message]) := by
  obtain ⟨merged, isMerged, same⟩ := bind_ok.mp formed
  cases same
  unfold turnsOf
  rw [mergeToolMessages_split notUser notTool, isMerged]
  show Except.ok (sortFrom [] (merged ++ [message])) = _
  rw [sortFrom_append, sortFrom_singleton notUser]
  rfl

/-- The tools of a message outside user turns are found among the turns. -/
theorem mem_turnsOf (mem : message ∈ messages)
    (formed : turnsOf python messages = .ok turns) : message ∈ turns := by
  obtain ⟨earlier, later, rfl⟩ := append_of_mem mem
  obtain ⟨before, after, _, rfl⟩ := turnsOf_split notUser notTool formed
  simp

end

end

theorem getLast?_addBlock (freshUser : fresh.role = .user)
    (isLast : (addBlock merged takes block fresh).getLast? = some last) : last.role = .user := by
  unfold addBlock openTurn at isLast
  split at isLast
  · rename_i before open_ blocks found
    rw [getLast?_concat, Option.some.injEq] at isLast
    subst isLast
    split at found
    · split at found
      · split at found
        · rename_i isUser
          cases found
          simp only [Bool.and_eq_true, decide_eq_true_eq] at isUser
          exact isUser.1
        · cases found
      · cases found
    · cases found
  · rw [getLast?_concat, Option.some.injEq] at isLast
    exact isLast ▸ freshUser

/-- A user or tool message at the end makes the last turn one of the user. -/
theorem last_role_turnsOf
    (inUserTurn : message.role = .user ∨ message.role = .tool)
    (formed : turnsOf python (earlier ++ [message]) = .ok turns)
    (isLast : turns.getLast? = some last) : last.role = .user := by
  obtain ⟨merged, isMerged, same⟩ := bind_ok.mp formed
  cases same
  unfold mergeToolMessages at isMerged
  rw [foldlM_append] at isMerged
  obtain ⟨before, _, next⟩ := bind_ok.mp isMerged
  obtain ⟨after, added, same⟩ := bind_ok.mp next
  cases same
  have userLast : ∀ final, merged.getLast? = some final → final.role = .user := by
    intro final isFinal
    unfold mergeMessage at added
    rcases inUserTurn with isUser | isTool
    · simp only [isUser] at added
      obtain ⟨textContent, _, same⟩ := bind_ok.mp added
      cases same
      exact getLast?_addBlock rfl isFinal
    · simp only [isTool] at added
      cases added
      exact getLast?_addBlock rfl isFinal
  cases merged using reverseRecOn with
  | nil => cases isLast
  | append_singleton front final =>
    have isUser := userLast final getLast?_concat
    unfold sortToolResultsByCallOrder at isLast
    rw [sortFrom_append] at isLast
    simp [sortFrom, isUser] at isLast
    rw [← isLast]

end VllmCore.DeepSeekV4
