import Mathlib.Data.List.Sort
import VllmCore.Lib.Outcome
import VllmCore.Lib.TextSearch

namespace VllmCore.DeepSeekV4

/-!
# The DeepSeek V4 chat encoding

Messages in the OpenAI format become one prompt: tool results are merged into
user turns, earlier reasoning is dropped, and every turn is rendered between the
special tokens of the model.  Texts are lists of characters; the functions of the
Python library that the encoder calls are the fields of `Python`.
-/

open Lib

/-- A Python string. -/
abbrev Text := List Char

instance : Coe String Text := ⟨String.toList⟩

/-- A value as JSON and the callers deliver it; numbers are decimal. -/
inductive Value where
  | null
  | bool (truth : Bool)
  | number (mantissa exponent : Int)
  | str (text : Text)
  | list (items : List Value)
  | dict (entries : List (Text × Value))

namespace Value

/-- How Python reads a value as a condition. -/
def truthy : Value → Bool
  | null => false
  | bool truth => truth
  | number mantissa _ => mantissa ≠ 0
  | str text => text ≠ []
  | list items => !items.isEmpty
  | dict entries => !entries.isEmpty

/-- A value that is one of the given strings. -/
def isOneOf (names : List Text) : Value → Bool
  | str text => names.contains text
  | _ => false

end Value

/-- `entries.get(key)`, with `None` for a missing key. -/
def getKey (entries : List (Text × Value)) (key : Text) : Value :=
  (entries.lookup key).getD .null

/-- What the encoder uses of the Python library. -/
structure Python where
  /-- `str(value)`, as `str.format` and `+` on formatted values use it. -/
  str : Value → Text
  str_text : ∀ text, str (.str text) = text
  /-- `json.dumps(value, ensure_ascii=False)` -/
  dumps : Value → Text
  /-- `json.loads(text)`, if the text is JSON. -/
  loads : Text → Option Value

/-- Python's `separator.join(parts)`. -/
def join (separator : Text) (parts : List Text) : Text :=
  (parts.intersperse separator).flatten

/-! ## Special tokens -/

def bosToken : Text := "<｜begin▁of▁sentence｜>"
def eosToken : Text := "<｜end▁of▁sentence｜>"
def thinkingStartToken : Text := "<think>"
def thinkingEndToken : Text := "</think>"
def dsmlToken : Text := "｜DSML｜"
def userSpToken : Text := "<｜User｜>"
def assistantSpToken : Text := "<｜Assistant｜>"
def latestReminderSpToken : Text := "<｜latest_reminder｜>"

/-- The text put at the place of each image. -/
def imagePlaceholder : Text := "<｜deepseek_image｜>"

/-- The placeholder as tool output may quote it, with a zero-width space. -/
def toolLiteralImagePlaceholder : Text := "<｜deepseek\u200b_image｜>"

/-- Special tokens of the internal classification tasks. -/
def dsTaskSpTokens : List (Text × Text) :=
  [ ("action", "<｜action｜>"), ("query", "<｜query｜>"), ("authority", "<｜authority｜>"),
    ("domain", "<｜domain｜>"),
    ("title", "<｜title｜>"),
    ("read_url", "<｜read_url｜>") ]

/-! ## Templates -/

def responseFormatTemplate (schema : Text) : Text :=
  ("## Response Format:\n\nYou MUST strictly adhere to the following schema to reply:\n" : Text)
    ++ schema

def toolCallTemplate (name arguments : Text) : Text :=
  ("<" : Text) ++ dsmlToken ++ ("invoke name=\"" : Text) ++ name ++ ("\">\n" : Text) ++
    arguments ++ ("\n</" : Text) ++ dsmlToken ++ ("invoke>" : Text)

def toolCallsTemplate (toolCalls : Text) : Text :=
  ("<" : Text) ++ dsmlToken ++ ("tool_calls>\n" : Text) ++ toolCalls ++ ("\n</" : Text) ++
    dsmlToken ++ ("tool_calls>" : Text)

def toolOutputTemplate (content : Text) : Text :=
  ("<tool_result>" : Text) ++ content ++ ("</tool_result>" : Text)

def reasoningEffortHigh : Text :=
  ("Reasoning Effort: Absolute maximum with no shortcuts permitted.\n" : Text) ++
  ("You MUST be very thorough in your thinking and comprehensively decompose the problem to resolve the root cause, rigorously stress-testing your logic against all potential paths, edge cases, and adversarial scenarios.\n" : Text) ++
  ("Explicitly write out your entire deliberation process, documenting every intermediate step, considered alternative, and rejected hypothesis to ensure absolutely no assumption is left unchecked.\n\n" : Text)

def reasoningEffortMax : Text :=
  ("Reasoning Effort: Beyond maximum — exhaustive, relentless, and uncompromising.\n" : Text) ++
  ("You MUST reason with the utmost depth and rigor, leaving absolutely nothing to chance: exhaustively decompose the problem into its most fundamental components, trace every causal chain to its root, and resolve the underlying cause rather than any surface symptom.\n" : Text) ++
  ("Do not stop reasoning until you have independently verified the solution from multiple angles and are certain that no assumption remains unchecked and no error remains undiscovered.\n\n" : Text)

def reasoningEffortPrompts : List (Text × Text) :=
  [("low", ""), ("high", reasoningEffortHigh), ("max", reasoningEffortMax)]

def defaultReasoningEffort : Text := "low"

/-- `TOOLS_TEMPLATE` up to the schemas, line by line, with the special tokens filled in. -/
def toolsTemplateLines : List Text :=
  [ "## Tools\n\n",
    "You have access to a set of tools to help answer the user's question. You can invoke tools by writing a \"<｜DSML｜tool_calls>\" block like the following:\n\n",
    "<｜DSML｜tool_calls>\n",
    "<｜DSML｜invoke name=\"$TOOL_NAME\">\n",
    "<｜DSML｜parameter name=\"$PARAMETER_NAME\" string=\"true|false\">$PARAMETER_VALUE</｜DSML｜parameter>\n",
    "...\n",
    "</｜DSML｜invoke>\n",
    "<｜DSML｜invoke name=\"$TOOL_NAME2\">\n",
    "...\n",
    "</｜DSML｜invoke>\n",
    "</｜DSML｜tool_calls>\n\n",
    "String parameters should be specified as is and set `string=\"true\"`. For all other types (numbers, booleans, arrays, objects), pass the value in JSON format and set `string=\"false\"`.\n\n",
    "If thinking_mode is enabled (triggered by <think>), you MUST output your complete reasoning inside <think>...</think> BEFORE any tool calls or final response.\n\n",
    "Otherwise, output directly after </think> with tool calls or final response.\n\n",
    "### Available Tool Schemas\n\n" ]

def toolsTemplateHead : Text :=
  toolsTemplateLines.flatten

/-- `TOOLS_TEMPLATE` after the schemas. -/
def toolsTemplateTail : Text :=
  "\n\nYou MUST strictly follow the above defined tool name and parameter schemas to invoke tool calls.\n"

/-! ## Messages -/

/-- The role of a message; other roles keep their name. -/
inductive Role where
  | system
  | developer
  | user
  | latestReminder
  | tool
  | assistant
  | function
  | directSearchResults
  | other (name : String)
  deriving Repr, DecidableEq

/-- The role as messages spell it. -/
def Role.name : Role → String
  | system => "system"
  | developer => "developer"
  | user => "user"
  | latestReminder => "latest_reminder"
  | tool => "tool"
  | assistant => "assistant"
  | function => "function"
  | directSearchResults => "direct_search_results"
  | other name => name

/-- Roles that start a turn of the user. -/
def Role.isUserLike (role : Role) : Bool :=
  role = .user || role = .developer

/-- The arguments of a tool call: JSON text, or an object already parsed. -/
inductive Arguments where
  | text (json : Text)
  | object (entries : List (Text × Value))

/-- The part of a tool call that is rendered. -/
structure FunctionCall where
  name : Text
  arguments : Arguments

/-- A tool call in the OpenAI format; an absent id is the empty text. -/
structure ToolCall where
  id : Text := []
  functionId : Text := []
  function : FunctionCall

/-- One content block of a merged user turn. -/
inductive Block where
  | text (text : Value)
  | image
  | toolResult (toolUseId : Text) (content : Value)
  | other (kind : Value)

/--
One message.  `contentBlocks` are the blocks a caller sent along, which are only
searched for images; `blocks` are those of a user turn built by
`mergeToolMessages`.
-/
structure Message where
  role : Role
  content : Option Value := none
  contentBlocks : Value := .null
  blocks : Option (List Block) := none
  tools : List Value := []
  responseFormat : Value := .null
  toolCalls : List ToolCall := []
  reasoning : Text := []
  woEos : Bool := false
  task : Option Text := none
  toolCallId : Text := []

/-- `msg.get("content")` -/
def Message.getContent (message : Message) : Value :=
  message.content.getD .null

/-- Whether the prompt opens a thinking block for the answer. -/
inductive ThinkingMode where
  | chat
  | thinking
  deriving Repr, DecidableEq

/-! ## Utility functions -/

variable (python : Python)

def toJson (value : Value) : Text :=
  python.dumps value

/-- `tool["function"]` -/
def toolFunction : Value → Outcome Value
  | .dict entries =>
    match entries.lookup ("function" : Text) with
    | some function => .ok function
    | none => .error (.key "function")
  | _ => .error (.type "tool is not a mapping")

def toolsFromOpenaiFormat (tools : List Value) : Outcome (List Value) :=
  tools.mapM toolFunction

def toolCallsFromOpenaiFormat (toolCalls : List ToolCall) : List FunctionCall :=
  toolCalls.map ToolCall.function

/-- The arguments as a mapping. -/
def loadArguments : Arguments → Outcome (List (Text × Value))
  | .object entries => .ok entries
  | .text json =>
    match python.loads json with
    | some (.dict entries) => .ok entries
    | some _ => .error (.type "arguments have no items")
    | none => .error (.value "Expecting value")

/-- One argument in the DSML parameter format. -/
def encodeParameter (key : Text) (value : Value) : Text :=
  let isStr : Text × Text :=
    match value with
    | .str text => ("true", text)
    | other => ("false", toJson python other)
  ("<" : Text) ++ dsmlToken ++ ("parameter name=\"" : Text) ++ key ++
    ("\" string=\"" : Text) ++ isStr.1 ++ ("\">" : Text) ++ isStr.2 ++
    ("</" : Text) ++ dsmlToken ++ ("parameter>" : Text)

def encodeArgumentsToDsml (call : FunctionCall) : Outcome Text := do
  let arguments ← loadArguments python call.arguments
  .ok (join "\n" (arguments.map fun entry => encodeParameter python entry.1 entry.2))

def renderTools (tools : List Value) : Text :=
  toolsTemplateHead ++ join "\n" (tools.map (toJson python)) ++ toolsTemplateTail

/-- Index of the last user or developer message, -1 without one. -/
def findLastUserIndex (messages : List Message) : Int :=
  match messages.zipIdx.reverse.find? fun entry => entry.1.role.isUserLike with
  | some (_, index) => index
  | none => -1

/-! ## Images -/

/-- The text one content block is flattened to. -/
def flattenBlock : Value → Outcome Text
  | .dict entries =>
    if (getKey entries "type").isOneOf ["image", "image_url"] then
      .ok imagePlaceholder
    else if (getKey entries "type").isOneOf ["text"] then
      match (entries.lookup ("text" : Text)).getD (.str []) with
      | .str text => .ok text
      | _ => .error (.type "sequence item: expected str instance")
    else
      .error (.value "Unsupported content block type")
  | block => .ok (python.str block)

def flattenContentBlocks : Value → Outcome Value
  | .list blocks => do
      let parts ← blocks.mapM (flattenBlock python)
      .ok (.str parts.flatten)
  | content => .ok content

/-- Some `<image>` is followed by a `</image>`; a found tag is skipped whole. -/
def imageTagsFrom : Nat → Text → Bool
  | _, [] => false
  | skip + 1, _ :: rest => imageTagsFrom skip rest
  | 0, symbol :: rest =>
    if ("<image>" : Text).isPrefixOf (symbol :: rest) then
      decide (("</image>" : Text) <:+: rest.drop 6) || imageTagsFrom 6 rest
    else
      imageTagsFrom 0 rest

def imageMarkerInText (text : Text) : Bool :=
  decide (imagePlaceholder <:+: text) || imageTagsFrom 0 text

mutual

/-- Some block of a content list shows an image. -/
def blocksHaveImage (scanText : Bool) : List Value → Bool
  | [] => false
  | .dict entries :: rest =>
    (getKey entries "type").isOneOf ["image", "image_url"] ||
      (scanText &&
        match getKey entries "text" with
        | .str text => imageMarkerInText text
        | _ => false) ||
      nestedHaveImage scanText entries || blocksHaveImage scanText rest
  | _ :: rest => blocksHaveImage scanText rest

/-- The blocks nested under the key `content` show an image. -/
def nestedHaveImage (scanText : Bool) : List (Text × Value) → Bool
  | [] => false
  | (key, value) :: rest =>
    if key = ("content" : Text) then
      match value with
      | .list items => blocksHaveImage scanText items
      | _ => false
    else
      nestedHaveImage scanText rest

end

def messageValueHasImage (scanText : Bool) : Value → Bool
  | .str text => scanText && imageMarkerInText text
  | .list blocks => blocksHaveImage scanText blocks
  | _ => false

def validateImageMessageRole (message : Message) : Outcome Unit :=
  if message.role.isUserLike then
    .ok ()
  else
    let scanText := message.role ≠ .tool && message.role ≠ .function
    if messageValueHasImage scanText message.getContent ||
        messageValueHasImage scanText message.contentBlocks then
      let name := message.role.name
      .error (.value
        s!"Images are supported in user messages only: images in '{name}' messages are invalid.")
    else
      .ok ()

mutual

def escapeToolImagePlaceholders : Value → Value
  | .str text => .str (replaceAll imagePlaceholder toolLiteralImagePlaceholder text)
  | .list items => .list (escapeItems items)
  | .dict entries => .dict (escapeEntries entries)
  | .null => .null
  | .bool truth => .bool truth
  | .number mantissa exponent => .number mantissa exponent

def escapeItems : List Value → List Value
  | [] => []
  | item :: rest => escapeToolImagePlaceholders item :: escapeItems rest

def escapeEntries : List (Text × Value) → List (Text × Value)
  | [] => []
  | (key, value) :: rest => (key, escapeToolImagePlaceholders value) :: escapeEntries rest

end

/-! ## Rendering -/

/-- What the rendering of a message reads about the messages around it. -/
structure Surroundings where
  previousHasTask : Bool
  nextRole : Option Role
  index : Nat
  lastUserIdx : Int

/-- The surroundings of the message at an index. -/
def surroundings (index : Nat) (messages : List Message) : Surroundings where
  previousHasTask :=
    1 ≤ index &&
      match messages[index - 1]? with
      | some previous => previous.task.isSome
      | none => false
  nextRole := messages[index + 1]?.map Message.role
  index := index
  lastUserIdx := findLastUserIndex messages

variable (python : Python) (around : Surroundings)

variable (message : Message) (messages : List Message) (thinkingMode : ThinkingMode)
  (merged : List Message)

/-- Tools and response format behind a system or developer text. -/
def renderSchemas (tools : List Value) : Text :=
  let toolsPart : Text :=
    if tools.isEmpty then [] else ("\n\n" : Text) ++ renderTools python tools
  let formatPart : Text :=
    if message.responseFormat.truthy then
      ("\n\n" : Text) ++ responseFormatTemplate (toJson python message.responseFormat)
    else
      []
  toolsPart ++ formatPart

/-- `content or ""` as `str.format` shows it. -/
def shownContent : Text :=
  if message.getContent.truthy then python.str message.getContent else []

def renderSystem (tools : List Value) : Outcome Text :=
  .ok (shownContent python message ++ renderSchemas python message tools)

def renderDeveloper (tools : List Value) : Outcome Text := do
  ensure message.getContent.truthy "Invalid message for role `developer`"
  match message.getContent with
  | .str text => .ok (userSpToken ++ text ++ renderSchemas python message tools)
  | _ => .error (.type "can only concatenate str")

/-- One part of a tool result that is a list. -/
def renderToolPart : Value → Outcome Text
  | .dict entries =>
    if (getKey entries "type").isOneOf ["text"] then
      match (entries.lookup ("text" : Text)).getD (.str []) with
      | .str text => .ok text
      | _ => .error (.type "sequence item: expected str instance")
    else
      .ok (("[Unsupported " : Text) ++ python.str (getKey entries "type") ++ ("]" : Text))
  | _ => .error (.type "object has no attribute 'get'")

/-- The text of a tool result. -/
def toolResultText : Value → Outcome Text
  | .list items => do
      let parts ← items.mapM (renderToolPart python)
      .ok (join "\n\n" parts)
  | content => .ok (python.str content)

def renderBlock : Block → Outcome Text
  | .text (.str text) => .ok text
  | .text _ => .error (.type "sequence item: expected str instance")
  | .image => .ok imagePlaceholder
  | .toolResult _ content => do
      let text ← toolResultText python content
      .ok (toolOutputTemplate text)
  | .other kind => .ok (("[Unsupported " : Text) ++ python.str kind ++ ("]" : Text))

def renderUser : Outcome Text :=
  match message.blocks with
  | some (block :: rest) => do
      let parts ← (block :: rest).mapM (renderBlock python)
      .ok (userSpToken ++ join "\n\n" parts)
  | _ => do
      match ← flattenContentBlocks python message.getContent with
      | .str text => .ok (userSpToken ++ text)
      | content =>
        if content.truthy then .error (.type "can only concatenate str")
        else .ok userSpToken

def renderLatestReminder : Outcome Text :=
  .ok (latestReminderSpToken ++ python.str message.getContent)

/-- The tool calls behind an assistant text. -/
def renderToolCalls (calls : List FunctionCall) : Outcome Text :=
  if calls.isEmpty then
    .ok []
  else do
    let rendered ← calls.mapM fun call => do
      let arguments ← encodeArgumentsToDsml python call
      .ok (toolCallTemplate call.name arguments)
    .ok (("\n\n" : Text) ++ toolCallsTemplate (join "\n" rendered))

/-- Whether the reasoning of an assistant message is shown. -/
def showsThinking (dropThinking : Bool) : Bool :=
  thinkingMode = .thinking && !around.previousHasTask &&
    (!dropThinking || around.lastUserIdx < around.index)

def renderAssistant (around : Surroundings) (message : Message) (thinkingMode : ThinkingMode)
    (dropThinking : Bool) : Outcome Text := do
  let toolCalls ←
    renderToolCalls python (toolCallsFromOpenaiFormat message.toolCalls)
  let thinkingPart : Text :=
    if showsThinking around thinkingMode dropThinking then
      message.reasoning ++ thinkingEndToken
    else
      []
  let ending : Text := if message.woEos then [] else eosToken
  .ok (thinkingPart ++ shownContent python message ++ toolCalls ++ ending)

/-- The message is the last, or an assistant or reminder message follows it. -/
def Surroundings.endsTurn : Bool :=
  match around.nextRole with
  | some role => role = .assistant || role = .latestReminder
  | none => true

/-- The tokens behind a message, by what follows it. -/
def renderTransition (thinkingMode : ThinkingMode) (dropThinking : Bool) : Outcome Text :=
  if !around.endsTurn then
    .ok []
  else
    match message.task with
    | some task =>
      match dsTaskSpTokens.lookup task with
      | none => .error (.assertion "Invalid task")
      | some taskSpToken =>
        if task ≠ ("action" : Text) then
          .ok taskSpToken
        else
          .ok (assistantSpToken ++ (if thinkingMode ≠ .thinking then thinkingEndToken
              else thinkingStartToken) ++
            taskSpToken)
    | none =>
      if message.role.isUserLike ||
          (message.role = .system && around.nextRole = none) then
        .ok (assistantSpToken ++ (if thinkingMode = .thinking &&
              (!dropThinking || around.lastUserIdx ≤ around.index) then
            thinkingStartToken
          else
            thinkingEndToken))
      else
        .ok []

/-- The effort prompt in front of the first message. -/
def renderEffort (reasoningEffort : Text) : Outcome Text :=
  let effort := if reasoningEffort = [] then defaultReasoningEffort else reasoningEffort
  match reasoningEffortPrompts.lookup effort with
  | none => .error (.value "Invalid reasoning effort")
  | some prompt => .ok (if around.index = 0 && thinkingMode = .thinking then prompt else [])

/-- The part of a message's rendering that depends on its role. -/
def renderRole (around : Surroundings) (message : Message) (tools : List Value)
    (thinkingMode : ThinkingMode) (dropThinking : Bool) : Outcome Text :=
  match message.role with
  | .system => renderSystem python message tools
  | .developer => renderDeveloper python message tools
  | .user => renderUser python message
  | .latestReminder => renderLatestReminder python message
  | .tool =>
    .error (.runtime
      "deepseek_v4 merges tool messages into user; please preprocess with merge_tool_messages()")
  | .assistant => renderAssistant python around message thinkingMode dropThinking
  | role =>
    let name := role.name
    .error (.runtime s!"Unknown role: {name}")

/-- Render a message between given surroundings. -/
def renderAt (around : Surroundings) (message : Message) (thinkingMode : ThinkingMode)
    (dropThinking : Bool) (reasoningEffort : Text) : Outcome Text := do
  let tools ← toolsFromOpenaiFormat message.tools
  let effort ← renderEffort around thinkingMode reasoningEffort
  let body ← renderRole python around message tools thinkingMode dropThinking
  let transition ← renderTransition around message thinkingMode dropThinking
  .ok (effort ++ body ++ transition)

def renderMessage (index : Nat) (messages : List Message) (thinkingMode : ThinkingMode)
    (dropThinking : Bool) (reasoningEffort : Text) : Outcome Text :=
  match messages[index]? with
  | none => .error (.assertion "0 <= index < len(messages)")
  | some message =>
    renderAt python (surroundings index messages) message thinkingMode dropThinking
      reasoningEffort

/-! ## Preprocessing -/

/-- The turn that takes further blocks, with the turns before it. -/
def openTurn (takes : Message → Bool) : Option (List Message × Message × List Block) :=
  match merged.getLast? with
  | some last =>
    match last.blocks with
    | some blocks =>
      if last.role = .user && takes last then some (merged.dropLast, last, blocks)
      else none
    | none => none
  | none => none

/-- Add a block to the turn that takes it, or open a new one. -/
def addBlock (takes : Message → Bool) (block : Block) (fresh : Message) : List Message :=
  match openTurn merged takes with
  | some (before, last, blocks) => before ++ [{ last with blocks := some (blocks ++ [block]) }]
  | none => merged ++ [fresh]

/-- Merge one message into the turns so far. -/
def mergeMessage (message : Message) : Outcome (List Message) :=
  match message.role with
  | .tool =>
    let block :=
      Block.toolResult message.toolCallId
        (escapeToolImagePlaceholders (message.content.getD (.str [])))
    .ok (addBlock merged (fun _ => true) block { role := .user, blocks := some [block] })
  | .user => do
      let textContent ← flattenContentBlocks python (message.content.getD (.str []))
      let block := Block.text textContent
      .ok (addBlock merged (fun last => last.task.isNone) block
        { role := .user
          content := some textContent
          blocks := some [block]
          task := message.task
          woEos := message.woEos })
  | _ => .ok (merged ++ [message])

def mergeToolMessages : Outcome (List Message) :=
  messages.foldlM (mergeMessage python) []

/-- `tc.get("id") or tc.get("function", {}).get("id", "")` -/
def ToolCall.callId (call : ToolCall) : Text :=
  if call.id = [] then call.functionId else call.id

/-- The place of each call id among the calls; a later call replaces an earlier one. -/
def toolCallOrder (calls : List ToolCall) : List (Text × Nat) :=
  (calls.zipIdx.filterMap fun entry =>
    if entry.1.callId = [] then none else some (entry.1.callId, entry.2)).reverse

/-- A tool result of a turn, with the id it answers. -/
def Block.toolResult? : Block → Option (Text × Value)
  | .toolResult toolUseId content => some (toolUseId, content)
  | _ => none

/-- Put the sorted tool results into the places of the tool results. -/
def refill : List Block → List (Text × Value) → List Block
  | [], _ => []
  | .toolResult _ _ :: blocks, (toolUseId, content) :: sorted =>
    .toolResult toolUseId content :: refill blocks sorted
  | block :: blocks, sorted => block :: refill blocks sorted

/-- Sort the tool results among the blocks of a turn. -/
def sortBlocks (order : List (Text × Nat)) (blocks : List Block) : List Block :=
  let toolBlocks := blocks.filterMap Block.toolResult?
  if 1 < toolBlocks.length && !order.isEmpty then
    refill blocks
      (toolBlocks.insertionSort fun first second =>
        (order.lookup first.1).getD 0 ≤ (order.lookup second.1).getD 0)
  else
    blocks

/-- Sort the tool results of each turn by the calls of the last assistant. -/
def sortFrom (order : List (Text × Nat)) : List Message → List Message
  | [] => []
  | message :: rest =>
    if message.role = .assistant && !message.toolCalls.isEmpty then
      message :: sortFrom (toolCallOrder message.toolCalls) rest
    else if message.role = .user then
      { message with blocks := message.blocks.map (sortBlocks order) } :: sortFrom order rest
    else
      message :: sortFrom order rest

def sortToolResultsByCallOrder : List Message :=
  sortFrom [] messages

/-- Roles that stay in the conversation wherever they stand. -/
def Role.isKept (role : Role) : Bool :=
  role = .user || role = .system || role = .tool || role = .latestReminder ||
    role = .directSearchResults

/-- What is left of one message when earlier thinking is dropped. -/
def keepMessage (lastUserIdx : Int) (message : Message) (index : Nat) : Option Message :=
  if message.role.isKept || lastUserIdx ≤ index then
    some message
  else if message.role = .assistant then
    some { message with reasoning := [] }
  else
    none

def dropThinkingMessages : List Message :=
  messages.zipIdx.filterMap fun entry =>
    keepMessage (findLastUserIndex messages) entry.1 entry.2

/-! ## Main encoding function -/

/-- The messages that are rendered, and how many of them are context. -/
def fullMessages (dropThinking : Bool) (context messages : List Message) : List Message × Nat :=
  if thinkingMode = .thinking && dropThinking then
    (dropThinkingMessages (context ++ messages), (dropThinkingMessages context).length)
  else
    (context ++ messages, context.length)

/-- Whether earlier reasoning is dropped: never once tools are declared. -/
def effectiveDropThinking (dropThinking : Bool) (messages : List Message) : Bool :=
  dropThinking && !messages.any fun message => !message.tools.isEmpty

def encodeMessages (thinkingMode : ThinkingMode) (context : List Message := [])
    (dropThinking : Bool := true) (addDefaultBosToken : Bool := true)
    (reasoningEffort : Text := []) : Outcome Text := do
  (context ++ messages).forM validateImageMessageRole
  let merged ← mergeToolMessages python messages
  let turns := (sortToolResultsByCallOrder (context ++ merged)).drop context.length
  let mergedContext ← mergeToolMessages python context
  let contextTurns := sortToolResultsByCallOrder mergedContext
  let prompt : Text := if addDefaultBosToken && contextTurns.isEmpty then bosToken else []
  let drop := effectiveDropThinking dropThinking (contextTurns ++ turns)
  let full := fullMessages thinkingMode drop contextTurns turns
  (List.range (full.1.length - full.2)).foldlM
    (fun prompt index => do
      let rendered ←
        renderMessage python (index + full.2) full.1 thinkingMode drop reasoningEffort
      .ok (prompt ++ rendered))
    prompt

end VllmCore.DeepSeekV4
