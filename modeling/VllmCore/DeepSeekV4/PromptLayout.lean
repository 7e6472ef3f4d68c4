import VllmCore.DeepSeekV4.EncodingTurns

namespace VllmCore.DeepSeekV4

/-!
# How the prompt is laid out

The layout of a turn lists the texts its rendering takes from the message, in
order, with a gap for each stretch of template between them.  The texts of the
user and of the developer are the ones of interest; all others are stray.  No
occurrence of the image placeholder can touch the template.
-/

open Lib List

/-- The value of an outcome, or a default. -/
def outcomeOr {Value : Type} (default : Value) : Outcome Value → Value
  | .ok value => value
  | .error _ => default

/-! ## Layouts -/

variable (python : Python)

def toolsLayout (tools : List Value) : List (Piece Char) :=
  .gap :: joinLayout (tools.map fun tool => [.stray (toJson python tool)]) ++ [.gap]

def schemasLayout (message : Message) (tools : List Value) : List (Piece Char) :=
  (if tools.isEmpty then [] else toolsLayout python tools) ++
    if message.responseFormat.truthy then
      [.gap, .stray (toJson python message.responseFormat)]
    else
      []

def systemLayout (message : Message) (tools : List Value) : List (Piece Char) :=
  .stray (shownContent python message) :: schemasLayout python message tools

/-- The text of a value that is one. -/
def ownText : Value → List (Piece Char)
  | .str text => [.own text]
  | _ => []

def developerLayout (message : Message) (tools : List Value) : List (Piece Char) :=
  .gap :: ownText message.getContent ++ schemasLayout python message tools

def blockLayout : Block → List (Piece Char)
  | .text text => ownText text
  | .image => [.own imagePlaceholder]
  | .toolResult _ content => [.gap, .stray (outcomeOr [] (toolResultText python content)), .gap]
  | .other kind => [.gap, .stray (python.str kind), .gap]

def userLayout (message : Message) : List (Piece Char) :=
  match message.blocks with
  | some (block :: rest) => .gap :: joinLayout ((block :: rest).map (blockLayout python))
  | _ => .gap :: ownText (outcomeOr .null (flattenContentBlocks python message.getContent))

def reminderLayout (message : Message) : List (Piece Char) :=
  [.gap, .stray (python.str message.getContent)]

/-- The text of an argument: strings as they are, other values as JSON. -/
def argumentText : Value → Text
  | .str text => text
  | value => toJson python value

def callLayout (call : FunctionCall) : List (Piece Char) :=
  [.gap, .stray call.name, .gap] ++
    joinLayout ((outcomeOr [] (loadArguments python call.arguments)).map fun entry =>
      [.gap, .stray entry.1, .gap, .stray (argumentText python entry.2), .gap]) ++
    [.gap]

def toolCallsLayout (calls : List FunctionCall) : List (Piece Char) :=
  if calls.isEmpty then [] else .gap :: joinLayout (calls.map (callLayout python)) ++ [.gap]

section

variable (around : Surroundings)

def assistantLayout (message : Message) (thinkingMode : ThinkingMode) (dropThinking : Bool) :
    List (Piece Char) :=
  (if showsThinking around thinkingMode dropThinking then
      [.stray message.reasoning, .gap]
    else
      []) ++
    [.stray (shownContent python message)] ++
    toolCallsLayout python (toolCallsFromOpenaiFormat message.toolCalls) ++
    if message.woEos then [] else [.gap]

def roleLayout (message : Message) (thinkingMode : ThinkingMode) (dropThinking : Bool) :
    List (Piece Char) :=
  let tools := outcomeOr [] (toolsFromOpenaiFormat message.tools)
  match message.role with
  | .system => systemLayout python message tools
  | .developer => developerLayout python message tools
  | .user => userLayout python message
  | .latestReminder => reminderLayout python message
  | .assistant => assistantLayout python around message thinkingMode dropThinking
  | _ => []

/-- The template a successful rendering adds, if any. -/
def templateLayout (rendered : Outcome Text) : List (Piece Char) :=
  if outcomeOr [] rendered = [] then [] else [.gap]

/-- The layout of a turn between given surroundings. -/
def turnLayout (message : Message) (thinkingMode : ThinkingMode) (dropThinking : Bool)
    (reasoningEffort : Text) : List (Piece Char) :=
  templateLayout (renderEffort around thinkingMode reasoningEffort) ++
    roleLayout python around message thinkingMode dropThinking ++
    templateLayout (renderTransition around message thinkingMode dropThinking)

end

/-- The layout of the turns in order. -/
def turnsLayout (turns : List Message) (thinkingMode : ThinkingMode) (dropThinking : Bool)
    (reasoningEffort : Text) : List (Piece Char) :=
  (range turns.length).flatMap fun index =>
    turns[index]?.elim [] fun message =>
      turnLayout python (surroundings index turns) message thinkingMode dropThinking
        reasoningEffort

/-! ## Separators of the template -/

/-- No placeholder can touch this piece of template. -/
abbrev Apart (template : Text) : Prop :=
  Separates imagePlaceholder template

theorem imagePlaceholder_ne_nil : imagePlaceholder ≠ [] := by
  decide

/-- A literal of the template, checked symbol by symbol. -/
theorem apart_literal
    (checked : separatesBy imagePlaceholder symbols = true) :
    Apart (String.ofList symbols).toList := by
  rw [String.toList_ofList]
  exact separates_of_check imagePlaceholder_ne_nil checked

theorem Apart.append (before : Apart first) (after : Apart second) : Apart (first ++ second) :=
  Separates.append imagePlaceholder_ne_nil before after

/-- A short piece of the template put together from several literals. -/
theorem apart_check (checked : separatesBy imagePlaceholder template = true) : Apart template :=
  separates_of_check imagePlaceholder_ne_nil checked

/-- Renderings that write the texts of a layout. -/
abbrev Shows (layout : List (Piece Char)) (text : Text) : Prop :=
  Lays imagePlaceholder layout text

theorem apart_newline : Apart ("\n" : Text) :=
  apart_literal (by decide)

theorem apart_paragraph : Apart ("\n\n" : Text) :=
  apart_literal (by decide)

set_option maxRecDepth 2000 in
theorem apart_toolsTemplateHead : Apart toolsTemplateHead := by
  refine Separates.flatten imagePlaceholder_ne_nil (apart_literal (by decide)) ?_
  repeat'
    refine forall_mem_cons.mpr ⟨apart_literal (by decide), ?_⟩
  exact forall_mem_nil _

theorem apart_toolsTemplateTail : Apart toolsTemplateTail :=
  apart_literal (by decide)

/-! ## Renderings show their layouts -/

section Rendering

variable {python : Python} {effort separator : Text} {Item : Type}
  {layout : Item → List (Piece Char)}

theorem shows_join (items : List Item) (apart : Apart separator)
    (shows : ∀ item ∈ items, Shows (layout item) (text item)) :
    Shows (joinLayout (items.map layout)) (join separator (items.map text)) := by
  refine Lays.join apart ?_
  rw [forall₂_map_left_iff, forall₂_map_right_iff, forall₂_same]
  exact shows

theorem renderTools_shows {tools : List Value} :
    Shows (toolsLayout python tools) (("\n\n" : Text) ++ renderTools python tools) := by
  have schemas : Shows (joinLayout (tools.map fun tool => [.stray (toJson python tool)]))
      (join "\n" (tools.map (toJson python))) :=
    shows_join tools apart_newline fun tool _ => lays_stray (toJson python tool)
  have laid := ((apart_paragraph.append apart_toolsTemplateHead).lays.append schemas).append
    apart_toolsTemplateTail.lays
  simpa [toolsLayout, renderTools] using laid

theorem renderSchemas_shows {message : Message} {tools : List Value} :
    Shows (schemasLayout python message tools) (renderSchemas python message tools) := by
  refine Lays.append ?_ ?_
  · split
    · exact .done
    · exact renderTools_shows
  · split
    · exact (apart_paragraph.append (apart_literal (by decide))).lays.append (lays_stray _)
    · exact .done

variable {text : Text} {message : Message} {around : Surroundings} {dropThinking : Bool}
    {tools : List Value}

theorem renderSystem_shows (rendered : renderSystem python message tools = .ok text) :
    Shows (systemLayout python message tools) text := by
  cases rendered
  exact (lays_stray _).append (renderSchemas_shows)

theorem apart_userSpToken : Apart userSpToken :=
  apart_literal (by decide)

theorem renderDeveloper_shows (rendered : renderDeveloper python message tools = .ok text) :
    Shows (developerLayout python message tools) text := by
  obtain ⟨_, _, next⟩ := bind_ok.mp rendered
  unfold developerLayout
  split at next
  · rename_i content isText
    cases next
    rw [isText]
    exact (apart_userSpToken.lays.append (lays_own content)).append (renderSchemas_shows)
  · cases next

theorem toolOutput_shows {text : Text} :
    Shows [.gap, .stray text, .gap] (toolOutputTemplate text) :=
  ((apart_literal (by decide)).lays.append (lays_stray text)).append
    (apart_literal (by decide)).lays

theorem renderBlock_shows (rendered : renderBlock python block = .ok text) :
    Shows (blockLayout python block) text := by
  unfold renderBlock at rendered
  split at rendered
  · cases rendered
    exact lays_own _
  · cases rendered
  · cases rendered
    exact lays_own _
  · obtain ⟨content, isContent, same⟩ := bind_ok.mp rendered
    cases same
    simp only [blockLayout, isContent, outcomeOr]
    exact toolOutput_shows
  · cases rendered
    exact ((apart_literal (by decide)).lays.append (lays_stray _)).append
      (apart_literal (by decide)).lays

theorem mapM_shows {render : Item → Outcome Text} {items : List Item}
    (apart : Apart separator)
    (shows : ∀ item text, render item = .ok text → Shows (layout item) text)
    (rendered : items.mapM render = .ok texts) :
    Shows (joinLayout (items.map layout)) (join separator texts) := by
  refine Lays.join apart ?_
  rw [forall₂_map_left_iff]
  exact (mapM_eq_ok_iff.mp rendered).imp shows

theorem renderUser_shows (rendered : renderUser python message = .ok text) :
    Shows (userLayout python message) text := by
  unfold renderUser at rendered
  split at rendered
  · rename_i block rest isBlocks
    simp only [userLayout, isBlocks]
    obtain ⟨parts, isParts, same⟩ := bind_ok.mp rendered
    cases same
    exact apart_userSpToken.lays.append
      (mapM_shows apart_paragraph (fun _ _ => renderBlock_shows) isParts)
  · rename_i noBlocks
    obtain ⟨flat, isFlat, next⟩ := bind_ok.mp rendered
    have layout : userLayout python message = .gap :: ownText flat := by
      unfold userLayout
      split
      · rename_i isBlocks
        exact absurd isBlocks (noBlocks _ _)
      · rw [isFlat]
        rfl
    rw [layout]
    split at next
    · cases next
      exact apart_userSpToken.lays.append (lays_own _)
    rename_i notText
    split at next
    · cases next
    · cases next
      have noText : ownText flat = [] := by
        unfold ownText
        split
        · exact absurd rfl (notText _)
        · rfl
      rw [noText]
      exact apart_userSpToken.lays

theorem encodeParameter_shows (key : Text) (value : Value) :
    Shows [.gap, .stray key, .gap, .stray (argumentText python value), .gap]
      (encodeParameter python key value) := by
  have opening : Apart (("<" : Text) ++ dsmlToken ++ ("parameter name=\"" : Text)) :=
    apart_check (by decide)
  have closing : Apart (("</" : Text) ++ dsmlToken ++ ("parameter>" : Text)) :=
    apart_check (by decide)
  have laid (kind shown : Text)
      (middle : Apart (("\" string=\"" : Text) ++ kind ++ ("\">" : Text))) :
      Shows [.gap, .stray key, .gap, .stray shown, .gap]
        (("<" : Text) ++ dsmlToken ++ ("parameter name=\"" : Text) ++ key ++
          ("\" string=\"" : Text) ++ kind ++ ("\">" : Text) ++ shown ++
          ("</" : Text) ++ dsmlToken ++ ("parameter>" : Text)) := by
    have whole := opening.lays.append ((lays_stray key).append
      (middle.lays.append ((lays_stray shown).append closing.lays)))
    simpa using whole
  cases value with
  | str text => exact laid "true" text (apart_check (by decide))
  | _ => exact laid "false" _ (apart_check (by decide))

theorem renderCall_shows
    (rendered :
      (do
        let arguments ← encodeArgumentsToDsml python call
        Except.ok (toolCallTemplate call.name arguments)) = Except.ok text) :
    Shows (callLayout python call) text := by
  obtain ⟨shown, isShown, same⟩ := bind_ok.mp rendered
  cases same
  obtain ⟨arguments, loaded, same⟩ := bind_ok.mp isShown
  cases same
  have opening : Apart (("<" : Text) ++ dsmlToken ++ ("invoke name=\"" : Text)) :=
    apart_check (by decide)
  have closing : Apart (("\n</" : Text) ++ dsmlToken ++ ("invoke>" : Text)) :=
    apart_check (by decide)
  have middle : Apart ("\">\n" : Text) := apart_literal (by decide)
  have parameters := shows_join arguments apart_newline fun entry _ =>
    (encodeParameter_shows entry.1 entry.2 : Shows _ (encodeParameter python entry.1 entry.2))
  have whole := opening.lays.append ((lays_stray call.name).append
    (middle.lays.append (parameters.append closing.lays)))
  simpa [callLayout, loaded, outcomeOr, toolCallTemplate] using whole

theorem renderToolCalls_shows {calls : List FunctionCall}
    (rendered : renderToolCalls python calls = .ok text) :
    Shows (toolCallsLayout python calls) text := by
  unfold renderToolCalls at rendered
  unfold toolCallsLayout
  split at rendered
  · cases rendered
    rename_i noCalls
    rw [if_pos noCalls]
    exact .done
  rename_i someCalls
  obtain ⟨shown, isShown, same⟩ := bind_ok.mp rendered
  cases same
  have opening :
      Apart (("\n\n" : Text) ++ (("<" : Text) ++ dsmlToken ++ ("tool_calls>\n" : Text))) :=
    apart_check (by decide)
  have closing : Apart (("\n</" : Text) ++ dsmlToken ++ ("tool_calls>" : Text)) :=
    apart_check (by decide)
  have callsShown := mapM_shows apart_newline (fun _ _ => renderCall_shows) isShown
  have whole := opening.lays.append (callsShown.append closing.lays)
  rw [if_neg someCalls]
  simpa [toolCallsTemplate] using whole

theorem renderAssistant_shows
    (rendered : renderAssistant python around message mode dropThinking = .ok text) :
    Shows (assistantLayout python around message mode dropThinking) text := by
  obtain ⟨toolCalls, isToolCalls, same⟩ := bind_ok.mp rendered
  cases same
  refine Lays.append (Lays.append (Lays.append ?_ (lays_stray _))
    (renderToolCalls_shows isToolCalls)) ?_
  · split
    · exact (lays_stray _).append (apart_literal (by decide)).lays
    · exact .done
  · split
    · exact .done
    · exact (apart_literal (by decide)).lays

theorem renderRole_shows (converted : toolsFromOpenaiFormat message.tools = .ok tools)
    (rendered : renderRole python around message tools mode dropThinking = .ok text) :
    Shows (roleLayout python around message mode dropThinking) text := by
  unfold roleLayout
  rw [converted]
  unfold renderRole at rendered
  cases isRole : message.role <;> simp only [isRole, outcomeOr] at rendered ⊢
  case system => exact renderSystem_shows rendered
  case developer => exact renderDeveloper_shows rendered
  case user => exact renderUser_shows rendered
  case latestReminder =>
      cases rendered
      exact (apart_literal (by decide)).lays.append (lays_stray _)
  case assistant => exact renderAssistant_shows rendered
  all_goals cases rendered

/-- A rendering that is empty or template. -/
theorem template_shows (ran : rendered = .ok text)
    (apart : text ≠ [] → Apart text) : Shows (templateLayout rendered) text := by
  subst ran
  unfold templateLayout
  by_cases isEmpty : text = []
  · rw [show outcomeOr [] (.ok text) = text from rfl, isEmpty]
    exact .done
  · rw [show outcomeOr [] (.ok text) = text from rfl, if_neg isEmpty]
    exact (apart isEmpty).lays

theorem mem_of_lookup {Result : Type} {table : List (Text × Result)} {result : Result}
    (found : table.lookup key = some result) : result ∈ table.map Prod.snd := by
  induction table with
  | nil => cases found
  | cons entry rest ih =>
    rw [lookup_cons] at found
    split at found
    · cases found
      exact mem_cons_self
    · exact mem_cons_of_mem _ (ih found)

set_option maxRecDepth 2000 in
theorem renderEffort_apart {text : Text}
    (rendered : renderEffort around mode effort = .ok text)
    (nonempty : text ≠ []) : Apart text := by
  have high : Apart reasoningEffortHigh :=
    ((apart_literal (by decide)).append (apart_literal (by decide))).append
      (apart_literal (by decide))
  have max : Apart reasoningEffortMax :=
    ((apart_literal (by decide)).append (apart_literal (by decide))).append
      (apart_literal (by decide))
  unfold renderEffort at rendered
  dsimp only at rendered
  split at rendered
  · cases rendered
  rename_i prompt found
  cases rendered
  split at nonempty
  · rename_i isFirst
    rw [if_pos isFirst]
    have among := mem_of_lookup found
    simp only [reasoningEffortPrompts, map_cons, map_nil, mem_cons, not_mem_nil, or_false] at among
    rcases among with rfl | rfl | rfl
    · exact absurd (by decide) nonempty
    · exact high
    · exact max
  · exact absurd rfl nonempty

theorem apart_taskToken {task token : Text} (found : dsTaskSpTokens.lookup task = some token) :
    Apart token := by
  have among := mem_of_lookup found
  simp only [dsTaskSpTokens, map_cons, map_nil, mem_cons, not_mem_nil, or_false] at among
  rcases among with rfl | rfl | rfl | rfl | rfl | rfl <;> exact apart_literal (by decide)

theorem apart_thinkingToken {condition : Prop} [Decidable condition] :
    Apart (if condition then thinkingStartToken else thinkingEndToken) := by
  split <;> exact apart_literal (by decide)

theorem renderTransition_apart
    (rendered : renderTransition around message mode dropThinking = .ok text)
    (nonempty : text ≠ []) : Apart text := by
  have assistant : Apart assistantSpToken := apart_literal (by decide)
  unfold renderTransition at rendered
  split at rendered
  · cases rendered
    exact absurd rfl nonempty
  split at rendered
  · split at rendered
    · cases rendered
    rename_i found
    split at rendered
    · cases rendered
      exact apart_taskToken found
    · cases rendered
      refine (assistant.append ?_).append (apart_taskToken found)
      split <;> exact apart_literal (by decide)
  · split at rendered
    · cases rendered
      exact assistant.append (apart_thinkingToken)
    · cases rendered
      exact absurd rfl nonempty

theorem renderAt_shows
    (rendered : renderAt python around message mode dropThinking reasoningEffort = .ok text) :
    Shows (turnLayout python around message mode dropThinking reasoningEffort)
      text := by
  obtain ⟨tools, converted, afterTools⟩ := bind_ok.mp rendered
  obtain ⟨effort, isEffort, afterEffort⟩ := bind_ok.mp afterTools
  obtain ⟨body, isBody, afterBody⟩ := bind_ok.mp afterEffort
  obtain ⟨transition, isTransition, same⟩ := bind_ok.mp afterBody
  cases same
  refine Lays.append (Lays.append ?_ (renderRole_shows converted isBody)) ?_
  · exact template_shows isEffort (renderEffort_apart isEffort)
  · exact template_shows isTransition (renderTransition_apart isTransition)

/-- The rendered turns show their layouts one after another. -/
theorem renderTurns_shows
    (rendered : renderTurns python turns mode dropThinking effort = .ok parts) :
    Shows (turnsLayout python turns mode dropThinking effort)
      parts.flatten := by
  unfold turnsLayout
  have each := mapM_eq_ok_iff.mp rendered
  clear rendered
  generalize range turns.length = indices at each ⊢
  induction each with
  | nil => exact .done
  | cons first _ ih =>
    rw [flatMap_cons]
    refine Lays.append ?_ ih
    unfold renderMessage at first
    split at first
    · cases first
    · rename_i message found
      rw [found]
      exact renderAt_shows first

end Rendering

end VllmCore.DeepSeekV4
