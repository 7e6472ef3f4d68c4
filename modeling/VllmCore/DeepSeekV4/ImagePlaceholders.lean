import VllmCore.DeepSeekV4.PromptLayout

namespace VllmCore.DeepSeekV4

/-!
# Which messages put image placeholders into the prompt

The texts of interest are the flattened texts of the user messages and of the
developer messages that are kept.  Merging, sorting and dropping keep their order,
so they stand in the prompt one after the other, and the placeholders of the
prompt are theirs exactly when no other text contributes one.
-/

open Lib List

/-! ## The texts of the user -/

/-- The text of a value that is one. -/
def Value.text? : Value → Option Text
  | .str text => some text
  | _ => none

/-- The flattened content of a user message. -/
def userText (python : Python) (message : Message) : Option Text :=
  (outcomeOr .null (flattenContentBlocks python (message.content.getD (.str [])))).text?

/-- Messages that become turns of the user. -/
def Role.startsUserTurn (role : Role) : Bool :=
  role = .user || role = .developer || role = .tool

/-- The flattened texts of the user messages and the kept developer messages. -/
def keptUserTexts (python : Python) (drops : Bool) : List Message → List Text
  | [] => []
  | message :: rest =>
    (if message.role = .user then
        (userText python message).toList
      else if message.role = .developer then
        if drops && rest.any (fun later => later.role.startsUserTurn) then
          []
        else
          message.getContent.text?.toList
      else
        []) ++
      keptUserTexts python drops rest

/-- Reasoning is dropped: in thinking mode, unless a message declares tools. -/
def dropsEarlierTurns
    (thinkingMode : ThinkingMode) (dropThinking : Bool) (messages : List Message) : Bool :=
  thinkingMode = .thinking && dropThinking &&
    !messages.any fun message =>
      !message.tools.isEmpty && message.role ≠ .user && message.role ≠ .tool

/-- The layout of the whole prompt. -/
def promptLayout (python : Python) (messages : List Message) (thinkingMode : ThinkingMode)
    (dropThinking addDefaultBosToken : Bool) (reasoningEffort : Text) : List (Piece Char) :=
  let turns := outcomeOr [] (turnsOf python messages)
  let drop := effectiveDropThinking dropThinking turns
  (if addDefaultBosToken then [.gap] else []) ++
    turnsLayout python (keptTurns thinkingMode drop turns) thinkingMode drop reasoningEffort

/-! ## Events

A conversation seen as the blocks its user turns are made of.
-/

/-- One block of a user turn, or a developer turn, with its text if it has one. -/
inductive UserEvent where
  | block (text : Option Text)
  | developer (text : Option Text)
  deriving Repr, DecidableEq

/-- The texts kept of a sequence of events. -/
def keptTexts (drops : Bool) : List UserEvent → List Text
  | [] => []
  | .block text :: rest => text.toList ++ keptTexts drops rest
  | .developer text :: rest =>
    (if drops && !rest.isEmpty then [] else text.toList) ++ keptTexts drops rest

def messageEvents (python : Python) (message : Message) : List UserEvent :=
  match message.role with
  | .user => [.block (userText python message)]
  | .tool => [.block none]
  | .developer => [.developer message.getContent.text?]
  | _ => []

def Block.event : Block → UserEvent
  | .text shown => .block shown.text?
  | .image => .block (some imagePlaceholder)
  | .toolResult _ _ => .block none
  | .other _ => .block none

def turnEvents (turn : Message) : List UserEvent :=
  match turn.role with
  | .user => (turn.blocks.getD []).map Block.event
  | .developer => [.developer turn.getContent.text?]
  | _ => []

theorem any_startsUserTurn (python : Python) (messages : List Message) :
    messages.any (fun message => message.role.startsUserTurn) =
      !(messages.flatMap (messageEvents python)).isEmpty := by
  induction messages with
  | nil => rfl
  | cons message rest ih =>
    rw [any_cons, ih]
    cases isRole : message.role <;>
      simp [messageEvents, isRole, Role.startsUserTurn]

variable {python : Python} {turns : List Message} {blocks : List Block}
    {messages merged : List Message} {turn message : Message} {drops : Bool}

theorem keptUserTexts_eq :
    keptUserTexts python drops messages =
      keptTexts drops (messages.flatMap (messageEvents python)) := by
  induction messages with
  | nil => rfl
  | cons message rest ih =>
    rw [keptUserTexts, ih, any_startsUserTurn python rest]
    cases isRole : message.role <;> simp [messageEvents, isRole, keptTexts]

/-! ## Merging keeps the events -/

/-- Turns of the user have blocks. -/
def HasBlocks (turns : List Message) : Prop :=
  ∀ turn ∈ turns, turn.role = .user → ∃ block rest, turn.blocks = some (block :: rest)

/-- What a merge keeps: the events of the messages, their tools, and blocks. -/
structure Mirrors (python : Python) (messages turns : List Message) : Prop where
  events : turns.flatMap turnEvents = messages.flatMap (messageEvents python)
  tools :
    (turns.any fun turn => !turn.tools.isEmpty) =
      messages.any fun message =>
        !message.tools.isEmpty && message.role ≠ .user && message.role ≠ .tool
  blocks : HasBlocks turns

theorem Mirrors.concat (mirrors : Mirrors python messages turns)
    (events : turnEvents turn = messageEvents python message)
    (tools :
      (!turn.tools.isEmpty) =
        (!message.tools.isEmpty && message.role ≠ .user && message.role ≠ .tool))
    (blocks : turn.role = .user → ∃ block rest, turn.blocks = some (block :: rest)) :
    Mirrors python (messages ++ [message]) (turns ++ [turn]) where
  events := by
    simp [mirrors.events, events]
  tools := by
    rw [any_append, mirrors.tools]
    simpa using congrArg (Bool.or _) tools
  blocks := by
    intro other mem isUser
    rcases mem_append.mp mem with among | isTurn
    · exact mirrors.blocks other among isUser
    · rw [mem_singleton.mp isTurn] at isUser ⊢
      exact blocks isUser

theorem openTurn_eq_some
    (found : openTurn merged takes = some (before, last, blocks)) :
    merged = before ++ [last] ∧ last.role = .user ∧ last.blocks = some blocks := by
  unfold openTurn at found
  split at found
  · rename_i final isFinal
    split at found
    · rename_i held isHeld
      split at found
      · rename_i taken
        cases found
        simp only [Bool.and_eq_true, decide_eq_true_eq] at taken
        obtain ⟨front, rfl⟩ := getLast?_eq_some_iff.mp isFinal
        exact ⟨by simp, taken.1, isHeld⟩
      · cases found
    · cases found
  · cases found

/-- Adding a block mirrors the message it was made from. -/
theorem Mirrors.addBlock
    (mirrors : Mirrors python messages merged)
    (event : messageEvents python message = [block.event])
    (inUserTurn : message.role = .user ∨ message.role = .tool) (freshUser : fresh.role = .user)
    (freshBlocks : fresh.blocks = some [block]) (freshTools : fresh.tools = []) :
    Mirrors python (messages ++ [message]) (addBlock merged takes block fresh) := by
  have noTools :
      (!message.tools.isEmpty && message.role ≠ .user && message.role ≠ .tool) = false := by
    rcases inUserTurn with isUser | isTool
    · simp [isUser]
    · simp [isTool]
  unfold DeepSeekV4.addBlock
  split
  · rename_i before last blocks found
    obtain ⟨rfl, isUser, isBlocks⟩ := openTurn_eq_some found
    constructor
    · have whole := mirrors.events
      simp only [flatMap_append, flatMap_singleton] at whole ⊢
      rw [← whole, event, append_assoc]
      simp [turnEvents, isUser, isBlocks]
    · have whole := mirrors.tools
      rw [any_append] at whole ⊢
      have single : ([message].any fun message =>
          !message.tools.isEmpty && message.role ≠ .user && message.role ≠ .tool) =
          false := by
        rw [any_cons, noTools]
        rfl
      rw [any_append, ← whole, single, Bool.or_false]
      rfl
    · intro turn mem isUserTurn
      rcases mem_append.mp mem with among | isTurn
      · exact mirrors.blocks turn (mem_append_left _ among) isUserTurn
      rw [mem_singleton.mp isTurn]
      cases blocks with
      | nil => exact ⟨block, [], rfl⟩
      | cons first others => exact ⟨first, others ++ [block], rfl⟩
  · refine mirrors.concat ?_ ?_ fun _ => ⟨block, [], freshBlocks⟩
    · rw [event]
      simp [turnEvents, freshUser, freshBlocks]
    · rw [noTools, freshTools]
      rfl

theorem Mirrors.mergeMessage {after : List Message} (mirrors : Mirrors python messages merged)
    (ran : mergeMessage python merged message = .ok after) :
    Mirrors python (messages ++ [message]) after := by
  unfold DeepSeekV4.mergeMessage at ran
  split at ran
  · rename_i isTool
    cases ran
    exact mirrors.addBlock (by simp [messageEvents, isTool, Block.event]) (.inr isTool) rfl
      rfl rfl
  · rename_i isUser
    obtain ⟨textContent, isContent, same⟩ := bind_ok.mp ran
    cases same
    refine mirrors.addBlock ?_ (.inl isUser) rfl rfl rfl
    simp [messageEvents, isUser, Block.event, userText, isContent, outcomeOr]
  rename_i notTool notUser
  cases ran
  have noUser : message.role ≠ .user := notUser
  have noTool : message.role ≠ .tool := notTool
  refine mirrors.concat ?_ ?_ fun isUser => absurd isUser notUser
  · unfold turnEvents messageEvents
    split <;> simp_all
  · simp [noUser, noTool]

theorem mergeToolMessages_mirrors (ran : mergeToolMessages python messages = .ok merged) :
    Mirrors python messages merged := by
  unfold mergeToolMessages at ran
  induction messages using reverseRecOn generalizing merged with
  | nil =>
    cases ran
    exact ⟨rfl, rfl, fun _ mem => absurd mem not_mem_nil⟩
  | append_singleton earlier message ih =>
    rw [foldlM_append] at ran
    obtain ⟨before, isBefore, next⟩ := bind_ok.mp ran
    obtain ⟨after, added, same⟩ := bind_ok.mp next
    cases same
    exact (ih isBefore).mergeMessage added

/-! ## Sorting keeps the events -/

theorem refill_events : (refill blocks sorted).map Block.event = blocks.map Block.event := by
  induction blocks generalizing sorted with
  | nil => rfl
  | cons block rest ih =>
    cases block with
    | toolResult toolUseId content =>
      cases sorted with
      | nil => simp [refill, ih]
      | cons first others => simp [refill, ih, Block.event]
    | _ => simp [refill, ih]

theorem sortBlocks_events (order : List (Text × Nat)) (blocks : List Block) :
    (sortBlocks order blocks).map Block.event = blocks.map Block.event := by
  unfold sortBlocks
  dsimp only
  split
  · exact refill_events
  · rfl

/-- Sorting changes the order of tool results and nothing else. -/
theorem sortFrom_same (order : List (Text × Nat)) (turns : List Message) :
    Forall₂
      (fun turn sorted =>
        ∃ blocks, sorted = { turn with blocks } ∧
          blocks.map (List.map Block.event) = turn.blocks.map (List.map Block.event))
      turns (sortFrom order turns) := by
  induction turns generalizing order with
  | nil => exact .nil
  | cons turn rest ih =>
    unfold sortFrom
    split
    · exact .cons ⟨turn.blocks, rfl, rfl⟩ (ih _)
    split
    · refine .cons ⟨_, rfl, ?_⟩ (ih _)
      cases turn.blocks with
      | none => rfl
      | some blocks => simp [sortBlocks_events]
    · exact .cons ⟨turn.blocks, rfl, rfl⟩ (ih _)

theorem turnEvents_blocks {blocks : Option (List Block)}
    (same : blocks.map (List.map Block.event) = turn.blocks.map (List.map Block.event)) :
    turnEvents { turn with blocks } = turnEvents turn := by
  have shown : (blocks.getD []).map Block.event = (turn.blocks.getD []).map Block.event := by
    cases blocks <;> cases isBlocks : turn.blocks <;> simp_all
  cases isRole : turn.role <;> simp [turnEvents, isRole, shown, Message.getContent]

/-- Turns that differ in the order of tool results only. -/
theorem Mirrors.of_same (mirrors : Mirrors python messages turns)
    (same :
      Forall₂
        (fun turn sorted =>
          ∃ blocks, sorted = { turn with blocks } ∧
            blocks.map (List.map Block.event) = turn.blocks.map (List.map Block.event))
        turns sorted) :
    Mirrors python messages sorted := by
  have events : sorted.flatMap turnEvents = turns.flatMap turnEvents := by
    clear mirrors
    induction same with
    | nil => rfl
    | cons first _ ih =>
      obtain ⟨blocks, rfl, sameEvents⟩ := first
      rw [flatMap_cons, flatMap_cons, turnEvents_blocks sameEvents, ih]
  have tools : (sorted.any fun turn => !turn.tools.isEmpty) =
      turns.any fun turn => !turn.tools.isEmpty := by
    clear mirrors events
    induction same with
    | nil => rfl
    | cons first _ ih =>
      obtain ⟨blocks, rfl, _⟩ := first
      rw [any_cons, any_cons, ih]
  have blocks : HasBlocks sorted := by
    have held := mirrors.blocks
    clear mirrors events tools
    induction same with
    | nil => exact held
    | cons first _ ih =>
      obtain ⟨blocks, rfl, sameEvents⟩ := first
      obtain ⟨firstHeld, othersHeld⟩ := forall_mem_cons.mp held
      refine forall_mem_cons.mpr ⟨?_, ih othersHeld⟩
      intro isUser
      obtain ⟨block, rest, isBlocks⟩ := firstHeld isUser
      rw [isBlocks] at sameEvents
      obtain ⟨shown, isShown, sameList⟩ := Option.map_eq_some_iff.mp sameEvents
      obtain ⟨head, tail, rfl, _⟩ := map_eq_cons_iff.mp sameList
      exact ⟨head, tail, isShown⟩
  exact ⟨events.trans mirrors.events, tools.trans mirrors.tools, blocks⟩

theorem turnsOf_mirrors (formed : turnsOf python messages = .ok turns) :
    Mirrors python messages turns := by
  obtain ⟨merged, isMerged, same⟩ := bind_ok.mp formed
  cases same
  exact (mergeToolMessages_mirrors isMerged).of_same (sortFrom_same [] merged)

/-! ## Dropping -/

/-- The turns left when a turn is dropped by what comes after it. -/
def dropEarlier : List Message → List Message
  | [] => []
  | turn :: rest =>
    (if turn.role.isKept || !rest.any (fun later => later.role.isUserLike) then
        [turn]
      else if turn.role = .assistant then
        [{ turn with reasoning := [] }]
      else
        []) ++
      dropEarlier rest

theorem lastUserIndex_concat (turns : List Message) (turn : Message) :
    findLastUserIndex (turns ++ [turn]) =
      if turn.role.isUserLike then (turns.length : Int) else findLastUserIndex turns := by
  unfold findLastUserIndex
  rw [zipIdx_append]
  by_cases isUserLike : turn.role.isUserLike = true <;> simp [isUserLike]

theorem findLastUserIndex_lt (turns : List Message) : findLastUserIndex turns < turns.length := by
  induction turns using reverseRecOn with
  | nil => decide
  | append_singleton earlier turn ih =>
    rw [lastUserIndex_concat, length_append, length_singleton]
    split <;> omega

/-- The last user message is not after an index exactly if none follows it. -/
theorem findLastUserIndex_le_iff (earlier : List Message) (turn : Message) (later : List Message) :
    findLastUserIndex (earlier ++ turn :: later) ≤ earlier.length ↔
      later.any (fun message => message.role.isUserLike) = false := by
  induction later using reverseRecOn with
  | nil =>
    have before := findLastUserIndex_lt earlier
    rw [lastUserIndex_concat]
    simp only [any_nil, iff_true]
    split <;> omega
  | append_singleton front last ih =>
    rw [← cons_append, ← append_assoc, lastUserIndex_concat]
    rw [any_append, Bool.or_eq_false_iff, ← ih]
    by_cases isUserLike : last.role.isUserLike = true <;> simp [isUserLike]

theorem filterMap_keepMessage (earlier turns : List Message) :
    (turns.zipIdx earlier.length).filterMap
        (fun entry =>
          keepMessage (findLastUserIndex (earlier ++ turns)) entry.1 entry.2) =
      dropEarlier turns := by
  induction turns generalizing earlier with
  | nil => rfl
  | cons turn rest ih =>
    have later := ih (earlier ++ [turn])
    rw [length_append, length_singleton, append_assoc, singleton_append] at later
    have place := findLastUserIndex_le_iff earlier turn rest
    rw [zipIdx_cons, filterMap_cons, dropEarlier, later]
    cases following : rest.any (fun later => later.role.isUserLike) with
    | false =>
      have last := place.mpr following
      simp [keepMessage, last]
    | true =>
      have notLast : ¬ findLastUserIndex (earlier ++ turn :: rest) ≤ earlier.length := by
        rw [place, following]
        exact Bool.noConfusion
      cases kept : turn.role.isKept with
      | true => simp [keepMessage, kept]
      | false =>
        by_cases isAssistant : turn.role = .assistant
        · simp [keepMessage, Role.isKept, notLast, isAssistant]
        · simp [keepMessage, kept, notLast, isAssistant]

theorem dropThinkingMessages_eq : dropThinkingMessages turns = dropEarlier turns :=
  filterMap_keepMessage [] turns

/-- User turns have events. -/
theorem any_isUserLike (blocks : HasBlocks turns) :
    (turns.any fun turn => turn.role.isUserLike) = !(turns.flatMap turnEvents).isEmpty := by
  induction turns with
  | nil => rfl
  | cons turn rest ih =>
    obtain ⟨first, others⟩ := forall_mem_cons.mp blocks
    rw [any_cons, ih others]
    cases isRole : turn.role
    case user =>
        obtain ⟨block, more, isBlocks⟩ := first isRole
        simp [turnEvents, isRole, isBlocks, Role.isUserLike]
    all_goals simp [turnEvents, isRole, Role.isUserLike]

theorem keptTexts_append (first second : List UserEvent) :
    keptTexts false (first ++ second) = keptTexts false first ++ keptTexts false second := by
  induction first with
  | nil => rfl
  | cons event rest ih => cases event <;> simp [keptTexts, ih]

theorem keptTexts_blocks_append :
    keptTexts drops (blocks.map Block.event ++ events) =
      keptTexts false (blocks.map Block.event) ++ keptTexts drops events := by
  induction blocks with
  | nil => rfl
  | cons block rest ih => cases block <;> simp [Block.event, keptTexts, ih]

theorem turnEvents_user (isUser : turn.role = .user) :
    turnEvents turn = (turn.blocks.getD []).map Block.event := by
  simp [turnEvents, isUser]

/-- What is kept of the turns are the texts kept of their events. -/
theorem keptTexts_dropEarlier (blocks : HasBlocks turns) :
    keptTexts false ((dropEarlier turns).flatMap turnEvents) =
      keptTexts true (turns.flatMap turnEvents) := by
  induction turns with
  | nil => rfl
  | cons turn rest ih =>
    obtain ⟨_, others⟩ := forall_mem_cons.mp blocks
    have later := ih others
    rw [dropEarlier, flatMap_append, flatMap_cons, keptTexts_append, later, any_isUserLike others]
    cases isRole : turn.role
    case user =>
        rw [turnEvents_user isRole, keptTexts_blocks_append]
        simp [Role.isKept, turnEvents_user isRole]
    case developer =>
        cases isEmpty : (rest.flatMap turnEvents).isEmpty <;>
          simp [Role.isKept, turnEvents, isRole, keptTexts, isEmpty]
    all_goals
      cases isEmpty : (rest.flatMap turnEvents).isEmpty <;>
        simp [Role.isKept, turnEvents, isRole, keptTexts]

theorem HasBlocks.dropEarlier (blocks : HasBlocks turns) : HasBlocks (dropEarlier turns) := by
  induction turns with
  | nil => exact blocks
  | cons turn rest ih =>
    obtain ⟨first, others⟩ := forall_mem_cons.mp blocks
    refine forall_mem_append.mpr ⟨?_, ih others⟩
    intro kept mem isUser
    split at mem
    · rw [mem_singleton.mp mem] at isUser ⊢
      exact first isUser
    split at mem
    · rename_i isAssistant
      rw [mem_singleton.mp mem] at isUser
      rw [isAssistant] at isUser
      cases isUser
    · cases mem

/-! ## The texts of interest in the layout -/

section Owned

variable {python : Python}

theorem ownedTexts_ownText : ownedTexts (ownText value) = value.text?.toList := by
  cases value <;> rfl

theorem ownedTexts_join_strays {Item : Type} {items : List Item} {layout : Item → List (Piece Char)}
    (strays : ∀ item, ownedTexts (layout item) = []) :
    ownedTexts (joinLayout (items.map layout)) = [] := by
  rw [ownedTexts_joinLayout]
  simp [strays]

theorem ownedTexts_schemas {message : Message} {tools : List Value} :
    ownedTexts (schemasLayout python message tools) = [] := by
  have schemas : ownedTexts (toolsLayout python tools) = [] := by
    have each :
        ownedTexts (joinLayout (tools.map fun tool => [.stray (toJson python tool)])) = [] :=
      ownedTexts_join_strays fun _ => rfl
    simp [toolsLayout, each]
  unfold schemasLayout
  split <;> split <;> simp [schemas]

theorem ownedTexts_toolCalls {calls : List FunctionCall} :
    ownedTexts (toolCallsLayout python calls) = [] := by
  have each (call : FunctionCall) : ownedTexts (callLayout python call) = [] := by
    have arguments : ownedTexts (joinLayout
              ((outcomeOr [] (loadArguments python call.arguments)).map fun entry =>
                [.gap, .stray entry.1, .gap, .stray (argumentText python entry.2), .gap])) = [] :=
      ownedTexts_join_strays fun _ => rfl
    simp [callLayout, arguments]
  unfold toolCallsLayout
  split
  · rfl
  · simp [ownedTexts_join_strays each]

theorem ownedTexts_template : ownedTexts (templateLayout rendered) = [] := by
  unfold templateLayout
  split <;> rfl

theorem ownedTexts_blockLayout :
    ownedTexts (blockLayout python block) = keptTexts false [block.event] := by
  cases block with
  | text shown => simp [blockLayout, Block.event, keptTexts, ownedTexts_ownText]
  | _ => rfl

variable {dropThinking : Bool} {turn : Message}

theorem ownedTexts_userLayout (isUser : turn.role = .user)
    (blocks : ∃ block rest, turn.blocks = some (block :: rest)) :
    ownedTexts (userLayout python turn) = keptTexts false (turnEvents turn) := by
  obtain ⟨block, rest, isBlocks⟩ := blocks
  simp only [userLayout, isBlocks, turnEvents, isUser, Option.getD_some, ownedTexts_gap,
    ownedTexts_joinLayout, flatMap_map, ownedTexts_blockLayout]
  generalize block :: rest = all
  induction all with
  | nil => rfl
  | cons first others ih =>
    rw [flatMap_cons, ih]
    exact (keptTexts_append [first.event] (others.map Block.event)).symm

theorem ownedTexts_turnLayout
    (blocks : turn.role = .user → ∃ block rest, turn.blocks = some (block :: rest)) :
    ownedTexts (turnLayout python around turn mode dropThinking effort) =
      keptTexts false (turnEvents turn) := by
  unfold turnLayout
  rw [ownedTexts_append, ownedTexts_append, ownedTexts_template,
    ownedTexts_template, append_nil]
  unfold roleLayout
  cases isRole : turn.role
  case user => exact ownedTexts_userLayout isRole (blocks isRole)
  case developer =>
      simp [developerLayout, turnEvents, isRole, keptTexts, ownedTexts_ownText,
        ownedTexts_schemas]
  case system => simp [systemLayout, turnEvents, isRole, keptTexts, ownedTexts_schemas]
  case latestReminder => simp [reminderLayout, turnEvents, isRole, keptTexts]
  case assistant =>
      have thinking : ownedTexts (if showsThinking around mode dropThinking then
            [.stray turn.reasoning, .gap]
          else
            ([] : List (Piece Char))) = [] := by
        split <;> rfl
      have ending :
          ownedTexts (if turn.woEos then ([] : List (Piece Char)) else [.gap]) = [] := by
        split <;> rfl
      simp [assistantLayout, turnEvents, isRole, keptTexts, thinking, ending,
        ownedTexts_toolCalls]
  all_goals simp [turnEvents, isRole, keptTexts]

theorem flatMap_range_getElem? {Item Result : Type} (items : List Item)
    (results : Item → List Result) :
    ((range items.length).flatMap fun index => items[index]?.elim [] results) =
      items.flatMap results := by
  induction items using reverseRecOn with
  | nil => rfl
  | append_singleton front last ih =>
    rw [length_append, length_singleton, range_succ, flatMap_append, flatMap_append, ← ih]
    congr 1
    · apply flatMap_congr
      intro index mem
      rw [getElem?_append_left (mem_range.mp mem)]
    · simp

theorem keptTexts_flatMap :
    keptTexts false (turns.flatMap turnEvents) =
      turns.flatMap fun turn => keptTexts false (turnEvents turn) := by
  induction turns with
  | nil => rfl
  | cons turn rest ih => rw [flatMap_cons, keptTexts_append, ih, flatMap_cons]

theorem ownedTexts_turnsLayout (blocks : HasBlocks turns) :
    ownedTexts (turnsLayout python turns mode dropThinking effort) =
      keptTexts false (turns.flatMap turnEvents) := by
  unfold turnsLayout
  have each (index : Nat) : ownedTexts (turns[index]?.elim [] fun turn =>
        turnLayout python (surroundings index turns) turn mode dropThinking
          effort) =
      turns[index]?.elim [] fun turn => keptTexts false (turnEvents turn) := by
    cases found : turns[index]? with
    | none => rfl
    | some turn => exact ownedTexts_turnLayout (blocks turn (mem_of_getElem? found))
  rw [keptTexts_flatMap, ownedTexts, filterMap_flatMap]
  exact (congrArg (range turns.length).flatMap (funext each)).trans
    (flatMap_range_getElem? turns fun turn => keptTexts false (turnEvents turn))

end Owned

/-- The texts of interest of a prompt are those of the user messages that are kept. -/
theorem ownedTexts_promptLayout
    (formed : turnsOf python messages = .ok turns) :
    ownedTexts
        (promptLayout python messages mode dropThinking addDefaultBosToken effort) =
      keptUserTexts python (dropsEarlierTurns mode dropThinking messages)
        messages := by
  have mirrors := turnsOf_mirrors formed
  unfold promptLayout
  rw [formed]
  dsimp only [outcomeOr]
  rw [ownedTexts_append]
  have bos :
      ownedTexts (if addDefaultBosToken then [.gap] else ([] : List (Piece Char))) = [] := by
    split <;> rfl
  rw [bos, nil_append, keptUserTexts_eq, ← mirrors.events]
  have drops : (mode = .thinking && effectiveDropThinking dropThinking turns) =
      dropsEarlierTurns mode dropThinking messages := by
    unfold effectiveDropThinking dropsEarlierTurns
    rw [mirrors.tools, Bool.and_assoc]
  unfold keptTurns
  rw [drops]
  split
  · rename_i isDropped
    rw [dropThinkingMessages_eq, ownedTexts_turnsLayout mirrors.blocks.dropEarlier,
      keptTexts_dropEarlier mirrors.blocks, isDropped]
  · rename_i notDropped
    rw [ownedTexts_turnsLayout mirrors.blocks, Bool.eq_false_of_not_eq_true notDropped]

/-- An image part of a user message. -/
def imagePart : Value := .dict [("type", .str "image_url")]

/-- The user shows an image; a tool quotes the placeholder. -/
def quotedByTool : List Message :=
  [ { role := .user, content := some (.list [imagePart]) },
    { role := .assistant, content := some (.str "ok") },
    { role := .tool, content := some (.str imagePlaceholder) } ]

/-- The user shows an image; a tool call of the assistant quotes the placeholder. -/
def quotedByCall : List Message :=
  [ { role := .user, content := some (.list [imagePart]) },
    { role := .assistant
      toolCalls :=
        [{ function := { name := "f", arguments := .object [("x", .str imagePlaceholder)] } }] } ]

/-- A Python library that shows texts as they are and everything else as nothing. -/
def quietPython : Python where
  str := fun value => value.text?.getD []
  str_text := fun _ => rfl
  dumps := fun _ => []
  loads := fun _ => none

end VllmCore.DeepSeekV4
