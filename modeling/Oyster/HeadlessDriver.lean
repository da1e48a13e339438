import Oyster.HeadlessBridge
import Oyster.OrderedMap
import Oyster.Text
import Oyster.Unicode

/-! The driver of a runner whose harness runs behind the headless bridge: the runtime that it
keeps of the session, the decoding of the records of the four harnesses, and the commands that it
sends. Records are taken as parsed, and messages are known by their place in the runtime's list. -/
namespace HeadlessDriver
open HeadlessBridge (Kind RunMessage)

inductive StopReason where
  | stop
  | error
  | aborted
  | toolUse
  | length

inductive Content where
  | text (text : String)
  | thinking (thinking : String)
  | toolCall (id name : String)
  deriving DecidableEq

inductive Message where
  | user (content : String)
  | assistant (content : List Content) (stopReason : StopReason)
  | toolResult (toolCallId toolName text : String) (isError : Bool)

inductive DriverEvent where
  | agentStart
  | agentEnd
  | agentSettled
  | messageStart (message : Nat)
  | messageUpdate (message : Nat) (delta : String)
  | messageEnd (message : Nat)
  | toolExecutionStart (id name : String)
  | toolExecutionUpdate (id name text : String)
  | toolExecutionEnd (id name : String) (message : Nat) (isError : Bool)
  | piError (error : String)
  | state
  | response (command : String)
  deriving DecidableEq

/-- `currentMessage` is the place of the message that is being streamed. -/
structure Runtime where
  sessionId : Option String := none
  sessionName : Option String := none
  model : Option String := none
  selectedModel : Option String := none
  messages : List Message := []
  streaming : Bool := false
  initialized : Bool := false
  currentMessage : Option Nat := none
  toolNames : OrderedMap String String := OrderedMap.empty
  bridgeTurnCompleted : Bool := false
  agyText : String := ""
  agySteps : List String := []

abbrev Decoded := Runtime × List DriverEvent

def Runtime.push (r : Runtime) (message : Message) : Runtime := { r with messages := r.messages ++ [message] }

def Message.setStopReason (stopReason : StopReason) : Message → Message
  | .assistant content _ => .assistant content stopReason
  | message => message

def finishStreamingMessage (r : Runtime) (stopReason : StopReason) : Decoded :=
  match r.currentMessage with
  | none => (r, [])
  | some m => ({ r with
      messages := r.messages.modify m (Message.setStopReason stopReason)
      currentMessage := none }, [.messageEnd m])

def Runtime.complete (r : Runtime) (message : Message) : Decoded :=
  (r.push message, [.messageStart r.messages.length, .messageEnd r.messages.length])

def startTool (r : Runtime) (id name : String) : Decoded :=
  let (r, finished) := finishStreamingMessage r .stop
  if r.toolNames.has id then (r, finished ++ [.toolExecutionStart id name])
  else
    let (r, events) := { r with toolNames := r.toolNames.set id name }.complete (.assistant [.toolCall id name] .toolUse)
    (r, finished ++ events ++ [.toolExecutionStart id name])

def endTool (r : Runtime) (id : String) (name : Option String) (text : String) (isError : Bool) : Decoded :=
  let resolvedName := (name <|> r.toolNames.get id).getD "tool"
  (r.push (.toolResult id resolvedName text isError),
    [.toolExecutionEnd id resolvedName r.messages.length isError, .messageEnd r.messages.length])

def settledEvents : List DriverEvent := [.agentEnd, .agentSettled]

/-- `updates` are the items that report their progress each time. -/
inductive CodexItem where
  | agentMessage (text : String)
  | reasoning (text : String)
  | error (message : String)
  | tool (id name text : String) (isError updates : Bool)
  | other
  deriving DecidableEq

inductive CodexRecord where
  | sessionModel (model : String)
  | threadStarted (threadId : String)
  | itemStarted (item : CodexItem)
  | itemUpdated (item : CodexItem)
  | itemCompleted (item : CodexItem)
  | turnCompleted
  | turnFailed (error : String)
  | error (message : String)
  | other
  deriving DecidableEq

def decodeCodexToolProgress (r : Runtime) (updated : Bool) : CodexItem → Decoded
  | .tool id name text _ updates =>
    let (r, events) := if r.toolNames.has id then (r, []) else startTool r id name
    (r, events ++ if updated || updates then [.toolExecutionUpdate id name text] else [])
  | _ => (r, [])

def decodeCodexCompletedItem (r : Runtime) : CodexItem → Decoded
  | .agentMessage text => r.complete (.assistant [.text text] .stop)
  | .reasoning text => r.complete (.assistant [.thinking text] .stop)
  | .error message => (r, [.piError message])
  | .tool id name text isError _ =>
    let (r, started) := if r.toolNames.has id then (r, []) else startTool r id name
    let (r, ended) := endTool r id (some name) text isError
    (r, started ++ ended)
  | .other => (r, [])

def settleCodex (r : Runtime) (extraEvents : List DriverEvent) : Decoded :=
  ({ r with streaming := false }, extraEvents ++ settledEvents)

def decodeCodex (r : Runtime) : CodexRecord → Decoded
  | .sessionModel model => ({ r with model := some model, selectedModel := none }, [])
  | .threadStarted threadId => ({ r with sessionId := some threadId, initialized := true }, [])
  | .itemStarted item => decodeCodexToolProgress r false item
  | .itemUpdated item => decodeCodexToolProgress r true item
  | .itemCompleted item => decodeCodexCompletedItem r item
  | .turnCompleted => settleCodex r []
  | .turnFailed error => settleCodex r [.piError error]
  | .error message => (r, [.piError message])
  | .other => (r, [])

inductive GeminiRecord where
  | init (sessionId model : Option String)
  | message (content : String)
  | toolUse (id name : String)
  | toolResult (id text : String) (isError : Bool)
  | error (message : String)
  | result (error : Option String)
  | other
  deriving DecidableEq

def Message.append (delta : String) : Message → Message
  | .assistant (.text text :: rest) stopReason => .assistant (.text (text ++ delta) :: rest) stopReason
  | message => message

def geminiAssistantDelta (r : Runtime) (delta : String) : Decoded :=
  match r.currentMessage with
  | some m => ({ r with messages := r.messages.modify m (Message.append delta) }, [.messageUpdate m delta])
  | none =>
    let m := r.messages.length
    ({ r.push (.assistant [.text delta] .stop) with currentMessage := some m }, [.messageStart m, .messageUpdate m delta])

def geminiResult (r : Runtime) (error : Option String) : Decoded :=
  let (r, finished) := finishStreamingMessage r (if error.isSome then .error else .stop)
  ({ r with streaming := false }, finished ++ (error.map DriverEvent.piError).toList ++ settledEvents)

def decodeGemini (r : Runtime) : GeminiRecord → Decoded
  | .init sessionId model => ({ r with
      sessionId := sessionId <|> r.sessionId
      model := model <|> r.model
      initialized := true }, [])
  | .message content => geminiAssistantDelta r content
  | .toolUse id name => startTool r id name
  | .toolResult id text isError => endTool r id none text isError
  | .error message => (r, [.piError message])
  | .result error => geminiResult r error
  | .other => (r, [])

inductive AntigravityRecord where
  | init (conversationId model : Option String)
  | text (delta : String)
  | tool (conversationId : Option String) (index : Nat) (name : String) (done : Bool) (output : String) (isError : Bool)
  | result (error : Option String) (response : Option String)
  | other
  deriving DecidableEq

def antigravityEvents (r : Runtime) : AntigravityRecord → Runtime × List GeminiRecord
  | .init conversationId model => ({ r with agySteps := [], agyText := "" }, [.init conversationId (model <|> r.model)])
  | .text delta => ({ r with agyText := r.agyText ++ delta }, if delta = "" then [] else [.message delta])
  | .tool conversationId index name done output isError =>
    let conversation := (conversationId <|> r.sessionId).getD "null"
    let id := s!"{conversation}:{index}"
    let started := if id ∈ r.agySteps then [] else [GeminiRecord.toolUse id name]
    let steps := if id ∈ r.agySteps then r.agySteps else r.agySteps ++ [id]
    if done = true ∧ s!"{id}:done" ∉ steps then
      ({ r with agySteps := steps ++ [s!"{id}:done"] }, started ++ [.toolResult id output isError])
    else ({ r with agySteps := steps }, started)
  | .result error response =>
    (r, (if r.agyText = "" then ((response.filter (· ≠ "")).map GeminiRecord.message).toList else []) ++ [.result error])
  | .other => (r, [])

def decodeAll (r : Runtime) : List GeminiRecord → Decoded
  | [] => (r, [])
  | record :: rest =>
    let (r, events) := decodeGemini r record
    let (r, more) := decodeAll r rest
    (r, events ++ more)

def decodeAntigravity (r : Runtime) (record : AntigravityRecord) : Decoded :=
  let (r, records) := antigravityEvents r record
  decodeAll r records

structure ToolOutput where
  id : String
  text : String
  isError : Bool
  deriving DecidableEq

inductive AmpRecord where
  | init (sessionId : Option String)
  | assistant (content : List Content) (stopReason : Option String)
  | user (results : List ToolOutput)
  | systemError (error : String)
  | result (error : Option String)
  | other
  deriving DecidableEq

def ampStopReason : Option String → StopReason
  | some "tool_use" => .toolUse
  | some "max_tokens" => .length
  | _ => .stop

def ampStopSettles (stopReason : Option String) : Bool :=
  stopReason.any fun reason => decide (reason ≠ "") && decide (reason ≠ "tool_use") && decide (reason ≠ "pause_turn")

def rememberTools (toolNames : OrderedMap String String) : List Content → OrderedMap String String
  | [] => toolNames
  | .toolCall id name :: rest => rememberTools (toolNames.set id name) rest
  | _ :: rest => rememberTools toolNames rest

def toolStarts (content : List Content) : List DriverEvent :=
  content.filterMap fun
    | .toolCall id name => some (.toolExecutionStart id name)
    | _ => none

def decodeAmpAssistant (r : Runtime) (content : List Content) (stopReason : Option String) : Decoded :=
  let (r, events) := r.complete (.assistant content (ampStopReason stopReason))
  let r := { r with toolNames := rememberTools r.toolNames content }
  let events := events ++ toolStarts content
  if ampStopSettles stopReason then ({ r with streaming := false }, events ++ settledEvents) else (r, events)

def decodeAmpUser (r : Runtime) : List ToolOutput → Decoded
  | [] => (r, [])
  | result :: rest =>
    let (r, ended) := endTool r result.id none result.text result.isError
    let (r, more) := decodeAmpUser r rest
    (r, ended ++ more)

def decodeAmpResult (r : Runtime) (error : Option String) : Decoded :=
  let events := (error.map DriverEvent.piError).toList
  if r.streaming then ({ r with streaming := false }, events ++ settledEvents) else (r, events)

def decodeAmp (r : Runtime) : AmpRecord → Decoded
  | .init sessionId => ({ r with sessionId := sessionId <|> r.sessionId, initialized := true }, [])
  | .assistant content stopReason => decodeAmpAssistant r content stopReason
  | .user results => decodeAmpUser r results
  | .systemError error => (r, [.piError error])
  | .result error => decodeAmpResult r error
  | .other => (r, [])

inductive HarnessRecord where
  | codex (record : CodexRecord)
  | gemini (record : GeminiRecord)
  | antigravity (record : AntigravityRecord)
  | amp (record : AmpRecord)
  deriving DecidableEq

def HarnessRecord.kind : HarnessRecord → Kind
  | .codex _ => .codex
  | .gemini _ => .gemini
  | .antigravity _ => .antigravity
  | .amp _ => .amp

def decodeHeadlessRecord (r : Runtime) : HarnessRecord → Decoded
  | .codex record => decodeCodex r record
  | .gemini record => decodeGemini r record
  | .antigravity record => decodeAntigravity r record
  | .amp record => decodeAmp r record

def stateChanged (previous r : Runtime) : Bool :=
  (!previous.initialized && r.initialized) || decide (previous.sessionId ≠ r.sessionId) || decide (previous.model ≠ r.model)

def decodeRecord (previous : Runtime) (record : HarnessRecord) : Decoded :=
  let (r, events) := decodeHeadlessRecord previous record
  ({ r with bridgeTurnCompleted := r.bridgeTurnCompleted || decide (.agentSettled ∈ events) },
    events ++ if stateChanged previous r then [.state] else [])

def turnStartEvents (r : Runtime) : Decoded :=
  ({ r with bridgeTurnCompleted := false, streaming := true }, [.agentStart])

/-- The end of a turn; `error` is what its record says has gone wrong. -/
def turnExitEvents (r : Runtime) (error : Option String) : Decoded :=
  if r.bridgeTurnCompleted then ({ r with bridgeTurnCompleted := false }, [])
  else if !r.streaming then (r, [])
  else
    let (r, finished) := finishStreamingMessage { r with streaming := false } (if error.isSome then .error else .stop)
    (r, finished ++ (error.map DriverEvent.piError).toList ++ settledEvents)

def sessionNameMaxChars : Nat := 80

def titleOf (label text : String) : String :=
  let line := (Text.trim text.toList).takeWhile (· ≠ '\n')
  let title := String.ofList (Utf16.decode ((Utf16.encode line).take sessionNameMaxChars))
  if title = "" then s!"{label} session" else title

def promptPayload (kind : Kind) (generateSessionId : Bool) (r : Runtime) (text : String) : RunMessage where
  prompt := some text
  sessionId := if generateSessionId || r.initialized then r.sessionId else none
  resume := r.initialized
  steer := r.streaming
  model := if kind = .amp then r.selectedModel else r.selectedModel <|> r.model

def Runtime.prompted (r : Runtime) (label text : String) : Runtime :=
  { r.push (.user text) with
    sessionName := if Text.falsy r.sessionName then some (titleOf label text) else r.sessionName }

/-- A prompt, while the bridge takes input. -/
def sendHeadlessPrompt (kind : Kind) (generateSessionId : Bool) (label : String) (r : Runtime) (text : String) :
    Decoded × RunMessage :=
  let prompted := r.prompted label text
  (({ prompted with streaming := true }, [.messageStart r.messages.length, .response "prompt"]),
    promptPayload kind generateSessionId prompted text)

def sendHeadlessAbort (r : Runtime) : Decoded :=
  if r.streaming then
    let (r, finished) := finishStreamingMessage r .aborted
    ({ r with streaming := false, bridgeTurnCompleted := true }, finished ++ settledEvents ++ [.response "abort"])
  else (r, [.response "abort"])

end HeadlessDriver
