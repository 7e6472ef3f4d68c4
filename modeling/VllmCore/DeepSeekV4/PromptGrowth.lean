import VllmCore.DeepSeekV4.EncodingTurns

namespace VllmCore.DeepSeekV4

/-!
# Prompts grow by appending

When no reasoning is dropped, the rendering of a turn depends on the turns after
it only through the role of the next one.  The prompt of a conversation is then a
prefix of the prompt of every continuation by an assistant message, unless the
conversation ends in a plain system message: that one closes the prompt with an
assistant token which it does not write once an answer follows.
-/

open Lib List
open Surroundings (endsTurn)

/-- A message whose tools the encoder reads: user and tool messages carry none. -/
def Message.DeclaresTools (message : Message) : Prop :=
  message.tools ≠ [] ∧ message.role ≠ .user ∧ message.role ≠ .tool

/-- No reasoning of the conversation is dropped. -/
def KeepsThinking (dropThinking : Bool) (conversation : List Message) : Prop :=
  dropThinking = false ∨ ∃ message ∈ conversation, message.DeclaresTools

/-- The conversation ends in a system message that carries no task. -/
def EndsInPlainSystem (conversation : List Message) : Prop :=
  ∃ last, conversation.getLast? = some last ∧ last.role = .system ∧ last.task = none

variable {python : Python} {mode : ThinkingMode} {reasoningEffort : Text} {dropThinking : Bool}
    {message : Message} {conversation : List Message}

theorem KeepsThinking.effectiveDropThinking
    (keeps : KeepsThinking dropThinking conversation)
    (formed : turnsOf python conversation = .ok turns) :
    effectiveDropThinking dropThinking turns = false := by
  rcases keeps with rfl | ⟨message, mem, declares, notUser, notTool⟩
  · rfl
  have found := mem_turnsOf notUser notTool mem formed
  have some : turns.any (fun message => !message.tools.isEmpty) = true :=
    any_eq_true.mpr ⟨message, found, by simpa using declares⟩
  simp [DeepSeekV4.effectiveDropThinking, some]

theorem KeepsThinking.append (keeps : KeepsThinking dropThinking conversation)
    (continuation : List Message) : KeepsThinking dropThinking (conversation ++ continuation) := by
  rcases keeps with isFalse | ⟨message, mem, declares⟩
  · exact .inl isFalse
  · exact .inr ⟨message, mem_append_left _ mem, declares⟩

/-! ## What a rendering depends on -/

/-- Without dropping, the place of the last user message does not matter. -/
theorem renderAt_eq_of_not_drop (previous : first.previousHasTask = second.previousHasTask)
    (next : first.nextRole = second.nextRole) (index : first.index = second.index) :
    renderAt python first message mode false reasoningEffort =
      renderAt python second message mode false reasoningEffort := by
  have effort : renderEffort first mode reasoningEffort =
      renderEffort second mode reasoningEffort := by
    simp [renderEffort, index]
  have thinking : showsThinking first mode false = showsThinking second mode false := by
    simp [showsThinking, previous]
  have assistant : renderAssistant python first message mode false =
      renderAssistant python second message mode false := by
    simp [renderAssistant, thinking]
  have transition : renderTransition first message mode false =
      renderTransition second message mode false := by
    simp [renderTransition, endsTurn, next]
  simp [renderAt, renderRole, effort, assistant, transition]

/-- An assistant message next is like the end, except behind a plain system message. -/
theorem renderAt_assistant_next
    (previous : first.previousHasTask = second.previousHasTask) (index : first.index = second.index)
    (ends : first.nextRole = none) (answered : second.nextRole = some .assistant)
    (notPlain : ¬ (message.role = .system ∧ message.task = none)) :
    renderAt python first message mode false reasoningEffort =
      renderAt python second message mode false reasoningEffort := by
  have transition : renderTransition first message mode false =
      renderTransition { first with nextRole := some .assistant } message mode
        false := by
    cases hasTask : message.task with
    | some task => simp [renderTransition, endsTurn, ends, hasTask]
    | none =>
      have notSystem : message.role ≠ .system := fun isSystem => notPlain ⟨isSystem, hasTask⟩
      simp [renderTransition, endsTurn, ends, hasTask, notSystem]
  have same : renderAt python first message mode false reasoningEffort =
      renderAt python { first with nextRole := some .assistant } message mode false
        reasoningEffort := by
    unfold renderAt
    rw [transition]
    rfl
  rw [same]
  exact renderAt_eq_of_not_drop previous answered.symm index

/-! ## Renderings of a longer conversation -/

section Longer

variable {python : Python} {answer : Message} {mode : ThinkingMode} {reasoningEffort : Text}

theorem previousHasTask_append (inside : index < turns.length) :
    (surroundings index (turns ++ rest)).previousHasTask =
      (surroundings index turns).previousHasTask := by
  have earlier : index - 1 < turns.length := by omega
  simp [surroundings, getElem?_append_left earlier]

/-- A message with a next one is rendered as before. -/
theorem renderMessage_append (inside : index + 1 < turns.length) :
    renderMessage python index (turns ++ rest) mode false reasoningEffort =
      renderMessage python index turns mode false reasoningEffort := by
  have before : index < turns.length := by omega
  unfold renderMessage
  rw [getElem?_append_left before]
  split
  · rfl
  · refine renderAt_eq_of_not_drop (previousHasTask_append before) ?_ rfl
    simp [surroundings, getElem?_append_left inside]

/-- The last message is rendered as before, unless it is a plain system message. -/
theorem renderMessage_answered (isLast : index + 1 = turns.length)
    (found : turns[index]? = some message) (isAssistant : answer.role = .assistant)
    (notPlain : ¬ (message.role = .system ∧ message.task = none)) :
    renderMessage python index (turns ++ answer :: rest) mode false reasoningEffort =
      renderMessage python index turns mode false reasoningEffort := by
  have before : index < turns.length := by omega
  unfold renderMessage
  rw [getElem?_append_left before, found]
  refine (renderAt_assistant_next (previousHasTask_append before).symm rfl ?_ ?_ notPlain).symm
  · simp [surroundings, isLast]
  · simp [surroundings, isLast, isAssistant]

/-- Where every turn is rendered as before, the renderings extend the earlier ones. -/
theorem renderTurns_extends
    (longEnough : turns.length ≤ longer.length)
    (asBefore :
      ∀ index < turns.length, renderMessage python index longer mode false reasoningEffort =
          renderMessage python index turns mode false reasoningEffort)
    (rendered : renderTurns python longer mode false reasoningEffort = .ok parts) :
    ∃ earlier more, renderTurns python turns mode false reasoningEffort = .ok earlier ∧
        parts = earlier ++ more := by
  obtain ⟨extra, longerLength⟩ := Nat.exists_eq_add_of_le longEnough
  unfold renderTurns at rendered ⊢
  rw [longerLength, range_add, mapM_append] at rendered
  obtain ⟨earlier, mapped, next⟩ := bind_ok.mp rendered
  obtain ⟨more, _, same⟩ := bind_ok.mp next
  cases same
  refine ⟨earlier, more, ?_, rfl⟩
  rw [← mapped]
  apply mapM_congr
  intro index mem
  exact (asBefore index (mem_range.mp mem)).symm

/-- The renderings of turns with one more at the end. -/
theorem renderTurns_concat :
    renderTurns python (turns ++ [answer]) mode dropThinking reasoningEffort = (do
      let earlier ← (range turns.length).mapM fun index =>
        renderMessage python index (turns ++ [answer]) mode dropThinking
          reasoningEffort
      let last ← renderAt python (surroundings turns.length (turns ++ [answer])) answer
        mode dropThinking reasoningEffort
      .ok (earlier ++ [last])) := by
  unfold renderTurns
  rw [length_append, length_singleton, range_succ, mapM_append]
  have last : renderMessage python turns.length (turns ++ [answer]) mode dropThinking
        reasoningEffort =
      renderAt python (surroundings turns.length (turns ++ [answer])) answer
        mode dropThinking reasoningEffort := by
    simp [renderMessage]
  rw [mapM_cons, last]
  cases (range turns.length).mapM fun index =>
      renderMessage python index (turns ++ [answer]) mode dropThinking reasoningEffort with
  | error fault => rfl
  | ok earlier =>
    cases renderAt python (surroundings turns.length (turns ++ [answer])) answer
        mode dropThinking reasoningEffort <;> rfl

end Longer

/-! ## The plain system message at the end -/

/-- An assistant message without any text. -/
def emptyAnswer : Message := { role := .assistant }

theorem validate_emptyAnswer : validateImageMessageRole emptyAnswer = .ok () := by
  rfl

/-- What an empty answer renders to, behind a message without a task. -/
def emptyAnswerText (thinkingMode : ThinkingMode) : Text :=
  match thinkingMode with
  | .thinking => thinkingEndToken ++ eosToken
  | .chat => eosToken

theorem not_starts_emptyAnswer {mode : ThinkingMode} {after : Text} :
    ¬ assistantSpToken ++ after <+: emptyAnswerText mode := by
  intro starts
  have short := (prefix_append assistantSpToken after).trans starts
  revert short
  cases mode <;> decide

variable {mode : ThinkingMode} {python : Python} {reasoningEffort : Text} {message : Message}
    {text : Text}

theorem renderEffort_later (later : second.index ≠ 0)
    (ran : renderEffort first mode reasoningEffort = .ok effort) :
    renderEffort second mode reasoningEffort = .ok [] := by
  unfold renderEffort at ran ⊢
  dsimp only at ran ⊢
  split at ran
  · cases ran
  · simp [later]

theorem renderEffort_of_renderAt
    (rendered : renderAt python around message mode dropThinking reasoningEffort = .ok text) :
    ∃ effort, renderEffort around mode reasoningEffort = .ok effort := by
  obtain ⟨_, _, afterTools⟩ := bind_ok.mp rendered
  obtain ⟨effort, isEffort, _⟩ := bind_ok.mp afterTools
  exact ⟨effort, isEffort⟩

/-- A plain system message writes an assistant token only at the very end. -/
theorem renderAt_plainSystem (isSystem : message.role = .system)
    (noTask : message.task = none) (index : first.index = second.index)
    (ends : first.nextRole = none) (answered : second.nextRole = some .assistant)
    (rendered : renderAt python first message mode false reasoningEffort = .ok text) :
    ∃ body after, text = body ++ (assistantSpToken ++ after) ∧
      renderAt python second message mode false reasoningEffort = .ok body := by
  obtain ⟨tools, converted, afterTools⟩ := bind_ok.mp rendered
  obtain ⟨effort, isEffort, afterEffort⟩ := bind_ok.mp afterTools
  obtain ⟨body, isBody, afterBody⟩ := bind_ok.mp afterEffort
  obtain ⟨transition, isTransition, same⟩ := bind_ok.mp afterBody
  cases same
  have bodySecond : renderRole python second message tools mode false = .ok body := by
    rw [← isBody]
    simp [renderRole, isSystem]
  have effortSecond : renderEffort second mode reasoningEffort = .ok effort := by
    rw [← isEffort]
    simp [renderEffort, index]
  have none : renderTransition second message mode false = .ok [] := by
    simp [renderTransition, endsTurn, answered, noTask, isSystem, Role.isUserLike]
  simp only [renderTransition, endsTurn, ends, noTask, isSystem, Role.isUserLike] at isTransition
  cases isTransition
  refine ⟨effort ++ body, _, rfl, ?_⟩
  refine bind_ok.mpr ⟨tools, converted, ?_⟩
  refine bind_ok.mpr ⟨effort, effortSecond, ?_⟩
  refine bind_ok.mpr ⟨body, bodySecond, ?_⟩
  refine bind_ok.mpr ⟨[], none, ?_⟩
  rw [append_nil]

theorem renderAt_emptyAnswer (noTask : around.previousHasTask = false)
    (ends : around.nextRole = none)
    (effort : renderEffort around mode reasoningEffort = .ok []) :
    renderAt python around emptyAnswer mode false reasoningEffort = .ok (emptyAnswerText mode) := by
  unfold renderAt
  rw [effort]
  have transition : renderTransition around emptyAnswer mode false = .ok [] := by
    simp [renderTransition, endsTurn, ends, emptyAnswer, Role.isUserLike]
  have body (tools : List Value) : renderRole python around emptyAnswer tools mode false =
      .ok (emptyAnswerText mode) := by
    cases mode <;>
      simp [renderRole, emptyAnswer, renderAssistant, renderToolCalls,
        toolCallsFromOpenaiFormat, showsThinking, noTask, shownContent, Message.getContent,
        Value.truthy, emptyAnswerText]
  have tools : toolsFromOpenaiFormat emptyAnswer.tools = .ok [] := rfl
  rw [tools]
  simp only [ok_bind, body, transition, nil_append, append_nil]

/-! ## The prefix law -/

section Law

variable {python : Python} {conversation : List Message} {mode : ThinkingMode}
  {dropThinking addDefaultBosToken : Bool} {reasoningEffort prompt : Text}

/-- Without dropping, all turns are kept. -/
theorem keptTurns_of_not_drop {turns : List Message} : keptTurns mode false turns = turns := by
  simp [keptTurns]

/-- The last turn of a conversation that does not end in a plain system message. -/
theorem turnsOf_not_plain
    (formed : turnsOf python conversation = .ok turns) (isLast : turns.getLast? = some last)
    (notPlain : ¬ EndsInPlainSystem conversation) : ¬ (last.role = .system ∧ last.task = none) := by
  rintro ⟨isSystem, noTask⟩
  cases conversation using reverseRecOn with
  | nil =>
    cases formed
    cases isLast
  | append_singleton earlier message =>
    by_cases inUserTurn : message.role = .user ∨ message.role = .tool
    · have role := last_role_turnsOf inUserTurn formed isLast
      rw [isSystem] at role
      cases role
    obtain ⟨notUser, notTool⟩ := not_or.mp inUserTurn
    obtain ⟨before, after, formedBefore, _⟩ := turnsOf_split notUser notTool formed
    have same := turnsOf_concat notUser notTool formedBefore
    rw [formed] at same
    cases same
    rw [getLast?_concat, Option.some.injEq] at isLast
    subst isLast
    exact notPlain ⟨message, getLast?_concat, isSystem, noTask⟩

/-- The prompt is kept by every answer that follows a turn of another kind. -/
theorem encodeMessages_extends
    (keeps : KeepsThinking dropThinking conversation) (notPlain : ¬ EndsInPlainSystem conversation)
    (isAssistant : answer.role = .assistant)
    (encoded :
      encodeMessages python conversation mode [] dropThinking addDefaultBosToken
        reasoningEffort = .ok prompt)
    (longer :
      encodeMessages python (conversation ++ answer :: continuation) mode []
        dropThinking addDefaultBosToken reasoningEffort = .ok later) :
    prompt <+: later := by
  obtain ⟨_, turns, parts, formed, rendered, rfl⟩ := encodeMessages_eq_ok.mp encoded
  obtain ⟨_, all, allParts, allFormed, allRendered, rfl⟩ := encodeMessages_eq_ok.mp longer
  obtain ⟨before, after, formedBefore, rfl⟩ :=
    turnsOf_split (by simp [isAssistant]) (by simp [isAssistant]) allFormed
  obtain rfl : before = turns := by
    rw [formed] at formedBefore
    cases formedBefore
    rfl
  rw [keeps.effectiveDropThinking formed, keptTurns_of_not_drop] at rendered
  rw [(keeps.append _).effectiveDropThinking allFormed, keptTurns_of_not_drop] at allRendered
  have asBefore : ∀ index < before.length,
      renderMessage python index (before ++ answer :: after) mode false reasoningEffort =
        renderMessage python index before mode false reasoningEffort := by
    intro index inside
    rcases lt_or_eq_of_le (Nat.succ_le_of_lt inside) with more | isLast
    · exact renderMessage_append more
    have found : before[index]? = some before[index] := getElem?_eq_getElem inside
    refine renderMessage_answered isLast found isAssistant ?_
    refine turnsOf_not_plain formed ?_ notPlain
    rw [getLast?_eq_getElem?, ← found, ← isLast]
    rfl
  obtain ⟨earlier, more, renderedBefore, rfl⟩ := renderTurns_extends (by simp) asBefore allRendered
  rw [rendered] at renderedBefore
  cases renderedBefore
  rw [flatten_append, ← append_assoc]
  exact prefix_append _ _

/-- Behind a plain system message an empty answer does not extend the prompt. -/
theorem exists_answer_not_extending (keeps : KeepsThinking dropThinking conversation)
    (plain : EndsInPlainSystem conversation)
    (encoded :
      encodeMessages python conversation mode [] dropThinking addDefaultBosToken
        reasoningEffort = .ok prompt) :
    ∃ later, encodeMessages python (conversation ++ [emptyAnswer]) mode [] dropThinking
          addDefaultBosToken reasoningEffort = .ok later ∧
        ¬ prompt <+: later := by
  obtain ⟨last, isLast, isSystem, noTask⟩ := plain
  obtain ⟨earlier, rfl⟩ : ∃ earlier, conversation = earlier ++ [last] :=
    getLast?_eq_some_iff.mp isLast
  obtain ⟨validated, turns, parts, formed, rendered, rfl⟩ := encodeMessages_eq_ok.mp encoded
  obtain ⟨before, after, formedBefore, rfl⟩ :=
    turnsOf_split (by simp [isSystem]) (by simp [isSystem]) formed
  have formedConcat : turnsOf python (earlier ++ [last]) = .ok (before ++ [last]) :=
    turnsOf_concat (by simp [isSystem]) (by simp [isSystem]) formedBefore
  rw [formed] at formedConcat
  obtain rfl : after = [] := by
    simpa using formedConcat
  have formedAnswer : turnsOf python (earlier ++ [last] ++ [emptyAnswer]) =
      .ok (before ++ [last] ++ [emptyAnswer]) :=
    turnsOf_concat (by simp [emptyAnswer]) (by simp [emptyAnswer]) formed
  rw [keeps.effectiveDropThinking formed, keptTurns_of_not_drop, renderTurns_concat] at rendered
  obtain ⟨shared, isShared, afterShared⟩ := bind_ok.mp rendered
  obtain ⟨text, isText, same⟩ := bind_ok.mp afterShared
  cases same
  have index : (surroundings before.length (before ++ [last])).index =
      (surroundings before.length (before ++ [last] ++ [emptyAnswer])).index :=
    rfl
  obtain ⟨body, ending, rfl, isBody⟩ :=
    renderAt_plainSystem isSystem noTask index (by simp [surroundings])
      (by simp [surroundings, emptyAnswer]) isText
  obtain ⟨effort, isEffort⟩ := renderEffort_of_renderAt isBody
  have answerText : renderAt python
        (surroundings (before ++ [last]).length (before ++ [last] ++ [emptyAnswer]))
        emptyAnswer mode false reasoningEffort =
      .ok (emptyAnswerText mode) := by
    apply renderAt_emptyAnswer
    · simp [surroundings, noTask]
    · simp [surroundings]
    · exact renderEffort_later (by simp [surroundings]) isEffort
  have sharedAnswer : ((range (before ++ [last]).length).mapM fun index =>
        renderMessage python index (before ++ [last] ++ [emptyAnswer]) mode false reasoningEffort) =
      .ok (shared ++ [body]) := by
    rw [length_append, length_singleton, range_succ, mapM_append]
    have earlierSame : ((range before.length).mapM fun index =>
          renderMessage python index (before ++ [last] ++ [emptyAnswer]) mode
            false reasoningEffort) =
        .ok shared := by
      rw [← isShared]
      apply mapM_congr
      intro index mem
      apply renderMessage_append
      simpa using mem_range.mp mem
    have lastText : renderMessage python before.length (before ++ [last] ++ [emptyAnswer]) mode
          false reasoningEffort =
        .ok body := by
      rw [← isBody]
      simp [renderMessage]
    rw [earlierSame, mapM_cons, lastText]
    rfl
  have renderedAnswer : renderTurns python (before ++ [last] ++ [emptyAnswer]) mode false
        reasoningEffort =
      .ok (shared ++ [body] ++ [emptyAnswerText mode]) := by
    rw [renderTurns_concat, sharedAnswer, answerText]
    rfl
  refine ⟨_, encodeMessages_eq_ok.mpr ⟨?_, _,
    shared ++ [body] ++ [emptyAnswerText mode], formedAnswer, ?_, rfl⟩, ?_⟩
  · intro message mem
    rcases mem_append.mp mem with among | isAnswer
    · exact validated message among
    · rw [mem_singleton.mp isAnswer]
      exact validate_emptyAnswer
  · rw [(keeps.append _).effectiveDropThinking formedAnswer, keptTurns_of_not_drop]
    exact renderedAnswer
  · simp only [flatten_append, flatten_singleton, append_assoc, prefix_append_right_inj]
    exact not_starts_emptyAnswer

end Law

/-! ## Two conversations -/

/-- A Python library that shows texts as they are and everything else as nothing. -/
def plainPython : Python where
  str := fun value =>
    match value with
    | .str text => text
    | _ => []
  str_text := fun _ => rfl
  dumps := fun _ => []
  loads := fun _ => none

/-- One question of the user. -/
def question : List Message :=
  [{ role := .user, content := some (.str "hi") }]

/-- The question with a context message of the system behind it. -/
def questionInContext : List Message :=
  question ++ [{ role := .system, content := some (.str "ctx") }]

/-- The prompt of the question. -/
def questionPrompt : Text :=
  bosToken ++ (userSpToken ++ ("hi" : Text) ++ assistantSpToken ++ thinkingStartToken)

end VllmCore.DeepSeekV4
