import Oyster.OrderedMap
import Mathlib.Algebra.Order.Ring.Rat

/-! The projection of a native Claude transcript on session entries. Costs come with the responses and as snapshots of the whole session;
the cost of a response is one object that all its parts share, and is known here by the key under which it is booked. -/
namespace ClaudeTranscript

/-- A block of native content; `toolResult` has a string or blocks of its own. The input of a tool is given as JSON text, if it is an
object. -/
inductive Block where
  | text (text : Option String)
  | thinking (thinking signature : Option String)
  | toolUse (id name input : Option String)
  /-- An image in base64. -/
  | image (data mediaType : Option String)
  | toolResult (toolUseId : Option String) (content : String ⊕ List Block) (isError : Bool)
  | other

abbrev Content := String ⊕ List Block

/-- The `id` of a message: a string, or any other value that a condition takes for true. -/
inductive ResponseId where
  | text (id : String)
  | other (value : Nat)
deriving DecidableEq

structure NativeUsage where
  inputTokens : Option ℚ
  outputTokens : Option ℚ
  cacheReadInputTokens : Option ℚ
  cacheCreationInputTokens : Option ℚ

structure NativeMessage where
  id : Option ResponseId
  model : Option String
  content : Content
  usage : NativeUsage
  stopReason : Option String

/-- A record of the transcript. A number stands for what `Number` makes of a property, or for the property of a snapshot if that is a finite
number. -/
structure Record where
  type : String
  uuid : Option String
  parentUuid : Option String
  isSidechain : Bool
  timestamp : Option String
  totalCostUSD : Option ℚ
  total_cost_usd : Option ℚ
  model : Option String
  error : Option String
  message : NativeMessage

/-- `Date.parse` and `Date.now()`. -/
structure Dates where
  parse : String → Option Int
  now : Int

inductive ContentBlock where
  | text (text : String)
  | thinking (thinking : String) (thinkingSignature : Option String)
  | toolCall (id name arguments : String)
  | image (data mimeType : String)
deriving DecidableEq

def ContentBlock.plain : ContentBlock → Bool
  | .text _ | .image _ _ => true
  | .thinking _ _ | .toolCall _ _ _ => false

structure Cost where
  input : ℚ
  output : ℚ
  cacheRead : ℚ
  cacheWrite : ℚ
  total : ℚ
deriving DecidableEq

structure Usage (κ : Type) where
  input : ℚ
  output : ℚ
  cacheRead : ℚ
  cacheWrite : ℚ
  totalTokens : ℚ
  cost : κ
deriving DecidableEq

structure AssistantMessage (κ : Type) where
  content : List ContentBlock
  model : String
  responseId : Option ResponseId
  usage : Usage κ
  stopReason : String
  errorMessage : Option String
  timestamp : Int
deriving DecidableEq

inductive Message (κ : Type) where
  | assistant (message : AssistantMessage κ)
  | toolResult (toolCallId toolName : String) (content : List ContentBlock) (isError : Bool) (timestamp : Int)
  | user (content : List ContentBlock) (timestamp : Int)
deriving DecidableEq

def Message.role {κ : Type} : Message κ → String
  | .assistant _ => "assistant"
  | .toolResult .. => "toolResult"
  | .user .. => "user"

structure Entry (κ : Type) where
  id : String
  parentId : Option String
  timestamp : Int
  message : Message κ

/-- `nonNegativeUsageNumber`. -/
def finite (value : Option ℚ) : ℚ := if 0 ≤ value.getD 0 then value.getD 0 else 0

def recordTimestamp (dates : Dates) (value : Option String) (fallback : Int) : Int :=
  (dates.parse (value.getD "")).getD fallback

def contentBlock : Block → Option ContentBlock
  | .text text => some (.text (text.getD ""))
  | .thinking thinking signature => some (.thinking (thinking.getD "") (signature.filter (· ≠ "")))
  | .toolUse id name input => some (.toolCall (id.getD "tool") (name.getD "tool") (input.getD "\x7b\x7d"))
  | .image data mediaType => some (.image (data.getD "") (mediaType.getD "application/octet-stream"))
  | .toolResult .. | .other => none

def contentBlocks : Content → List ContentBlock
  | .inl text => [.text text]
  | .inr blocks => blocks.filterMap contentBlock

def messageUsage (usage : NativeUsage) (totalCost : Option ℚ) : Usage Cost :=
  let input := finite usage.inputTokens
  let output := finite usage.outputTokens
  let cacheRead := finite usage.cacheReadInputTokens
  let cacheWrite := finite usage.cacheCreationInputTokens
  { input, output, cacheRead, cacheWrite
    totalTokens := input + output + cacheRead + cacheWrite
    cost := ⟨0, 0, 0, 0, finite totalCost⟩ }

def stopReason : Option String → String
  | some "max_tokens" => "length"
  | some "tool_use" => "toolUse"
  | _ => "stop"

def firstText : Content → Option String
  | .inr (.text text :: _) => text
  | _ => none

def ResponseId.truthy : ResponseId → Bool
  | .text id => id ≠ ""
  | .other _ => true

def assistantMessage (dates : Dates) (record : Record) : AssistantMessage Cost where
  content := contentBlocks record.message.content
  model := (record.message.model.or record.model).getD "claude"
  responseId := record.message.id.filter (·.truthy)
  usage := messageUsage record.message.usage record.total_cost_usd
  stopReason := if record.error.any (· ≠ "") then "error" else stopReason record.message.stopReason
  errorMessage := (record.error.filter (· ≠ "")).map fun error => (firstText record.message.content).getD error
  timestamp := recordTimestamp dates record.timestamp dates.now

abbrev ToolNames := OrderedMap String String

def nameTool (toolNames : ToolNames) : ContentBlock → ToolNames
  | .toolCall id name _ => toolNames.set id name
  | _ => toolNames

def toolResult (dates : Dates) (record : Record) (toolNames : ToolNames) : Block → Option (Message Cost)
  | .toolResult toolUseId content isError =>
    let toolCallId := toolUseId.getD ""
    if toolCallId = "" then none
    else
      let content := (contentBlocks content).filter (·.plain)
      some (.toolResult toolCallId ((toolNames.get toolCallId).getD "tool")
        (if content = [] then [.text ""] else content) isError
        (recordTimestamp dates record.timestamp dates.now))
  | _ => none

def blocks : Content → List Block
  | .inl _ => []
  | .inr blocks => blocks

def claudeRecordMessages (dates : Dates) (record : Record) (toolNames : ToolNames) : List (Message Cost) × ToolNames :=
  if record.isSidechain then ([], toolNames)
  else if record.type = "assistant" then
    let message := assistantMessage dates record
    ([.assistant message], message.content.foldl nameTool toolNames)
  else if record.type ≠ "user" then ([], toolNames)
  else
    let results := (blocks record.message.content).filterMap (toolResult dates record toolNames)
    if results ≠ [] then (results, toolNames)
    else
      let content := (contentBlocks record.message.content).filter (·.plain)
      if content = [] then ([], toolNames)
      else ([.user content (recordTimestamp dates record.timestamp dates.now)], toolNames)

structure Ledger where
  /-- The cost objects, in the order of the responses. -/
  costMessages : OrderedMap ResponseId Cost
  latestCostMessage : Option ResponseId
  accountedCost : ℚ

namespace Ledger
variable (l : Ledger)

def snapshot (record : Record) : Ledger :=
  if record.type = "cost-state" ∧ record.isSidechain = false then
    match l.latestCostMessage, record.totalCostUSD with
    | some key, some total =>
      if l.accountedCost < total then
        { l with
          costMessages := l.costMessages.modify key fun cost =>
            { cost with total := cost.total + (total - l.accountedCost) }
          accountedCost := total }
      else l
    | _, _ => l
  else l

/-- A part of a response: the first one brings the cost object. -/
def book (key : ResponseId) (cost : Cost) : Ledger :=
  if l.costMessages.has key then { l with latestCostMessage := some key }
  else
    { costMessages := l.costMessages.set key cost
      accountedCost := l.accountedCost + cost.total
      latestCostMessage := some key }

def cost (key : ResponseId) : Cost := (l.costMessages.get key).getD ⟨0, 0, 0, 0, 0⟩

end Ledger

structure State where
  entries : List (Entry ResponseId)
  toolNames : ToolNames
  leafByRecord : OrderedMap String (Option String)
  latestLeaf : Option String
  ledger : Ledger

def initial : State := ⟨[], .empty, .empty, none, ⟨.empty, none, 0⟩⟩

namespace State
variable (s : State)

def push (id : String) (parentId : Option String) (timestamp : Int) (message : Message ResponseId) : State :=
  { s with entries := s.entries ++ [⟨id, parentId, timestamp, message⟩], latestLeaf := some id }

def addMessage (id : String) (parentId : Option String) (timestamp : Int) : Message Cost → State
  | .assistant message =>
    let key := message.responseId.getD (.text id)
    { s with ledger := s.ledger.book key message.usage.cost }.push id parentId timestamp
      (.assistant { message with usage := { message.usage with cost := key } })
  | .toolResult toolCallId toolName content isError time =>
    s.push id parentId timestamp (.toolResult toolCallId toolName content isError time)
  | .user content time => s.push id parentId timestamp (.user content time)

/-- The messages of a record from `index` on become entries, each below the one before; the last one's id is returned. -/
def addMessages (sourceId : String) (single : Bool) (timestamp : Int) : State → Option String → Nat → List (Message Cost) →
    State × Option String
  | s, parentId, _, [] => (s, parentId)
  | s, parentId, index, message :: messages =>
    let id := if single then sourceId else sourceId ++ ":" ++ message.role ++ ":" ++ toString index
    addMessages sourceId single timestamp (s.addMessage id parentId timestamp message) (some id) (index + 1) messages

end State

def step (dates : Dates) (s : State) (record : Record) : State :=
  let s := { s with ledger := s.ledger.snapshot record }
  match record.uuid.filter (· ≠ "") with
  | none => s
  | some sourceId =>
    let parentId :=
      match record.parentUuid with
      | some parentUuid => (s.leafByRecord.get parentUuid).getD none
      | none => s.latestLeaf
    let (messages, toolNames) := claudeRecordMessages dates record s.toolNames
    let (s, leaf) := State.addMessages sourceId (messages.length = 1) (recordTimestamp dates record.timestamp 0)
      { s with toolNames } parentId 0 messages
    { s with leafByRecord := s.leafByRecord.set sourceId leaf }

def project (dates : Dates) (records : List Record) : State := records.foldl (step dates) initial

def Message.resolve {κ μ : Type} (cost : κ → μ) : Message κ → Message μ
  | .assistant message => .assistant { message with usage := { message.usage with cost := cost message.usage.cost } }
  | .toolResult toolCallId toolName content isError timestamp => .toolResult toolCallId toolName content isError timestamp
  | .user content timestamp => .user content timestamp

def Entry.resolve {κ μ : Type} (cost : κ → μ) (entry : Entry κ) : Entry μ :=
  ⟨entry.id, entry.parentId, entry.timestamp, entry.message.resolve cost⟩

def claudeRecordsToSessionEntries (dates : Dates) (records : List Record) : List (Entry Cost) :=
  let s := project dates records
  s.entries.map (Entry.resolve s.ledger.cost)

end ClaudeTranscript
