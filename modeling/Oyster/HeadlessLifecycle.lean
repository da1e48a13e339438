import Oyster.HeadlessDriver

/-! The lifecycle events of a headless runner: whether each `agent_settled` answers an `agent_start`,
whatever the order of prompts, aborts and the records of the bridge. -/
namespace HeadlessDriver
open Interleaving
open HeadlessBridge (Kind RunMessage)

/-- Whether an agent has started and not settled after some events; `none` once one has settled
that had not started. -/
def lifecycle : Bool → List DriverEvent → Option Bool
  | opened, [] => some opened
  | _, .agentStart :: rest => lifecycle true rest
  | opened, .agentSettled :: rest => if opened then lifecycle false rest else none
  | opened, _ :: rest => lifecycle opened rest

theorem lifecycle_append (opened : Bool) (events more : List DriverEvent) :
    lifecycle opened (events ++ more) = (lifecycle opened events).bind fun o => lifecycle o more := by
  induction events generalizing opened with
  | nil => rfl
  | cons event events ih =>
    cases event with
    | agentSettled =>
      cases opened with
      | true => exact ih false
      | false => rfl
    | agentStart => exact ih true
    | _ => exact ih opened

def DriverEvent.quiet : DriverEvent → Bool
  | .agentStart | .agentSettled => false
  | _ => true

def Quiet (events : List DriverEvent) : Prop := events.all DriverEvent.quiet = true

variable {events : List DriverEvent} {more : List DriverEvent}

theorem Quiet.append (h : Quiet events) (h' : Quiet more) : Quiet (events ++ more) := by
  unfold Quiet at *
  rw [List.all_append, h, h']
  rfl

theorem lifecycle_quiet (h : Quiet events) (opened : Bool) : lifecycle opened events = some opened := by
  induction events with
  | nil => rfl
  | cons event events ih =>
    obtain ⟨first, rest⟩ := (Bool.and_eq_true _ _).mp h
    cases event with
    | agentSettled => cases first
    | agentStart => cases first
    | _ => exact ih rest

theorem not_settled_of_quiet (h : Quiet events) : .agentSettled ∉ events := by
  intro inside
  have absurd := List.all_eq_true.mp h _ inside
  cases absurd

def settles (r : Runtime) : HarnessRecord → Bool
  | .codex .turnCompleted => true
  | .codex (.turnFailed _) => true
  | .gemini (.result _) => true
  | .antigravity (.result _ _) => true
  | .amp (.assistant _ stopReason) => ampStopSettles stopReason
  | .amp (.result _) => r.streaming
  | _ => false

/-- What a decoding may do to the lifecycle: it settles the agent at its end, or not at all. -/
structure Settling (previous : Runtime) (settled : Bool) (decoded : Decoded) : Prop where
  events : ∃ quiet, Quiet quiet ∧ decoded.2 = quiet ++ if settled then settledEvents else []
  streaming : decoded.1.streaming = (previous.streaming && !settled)
  completed : decoded.1.bridgeTurnCompleted = previous.bridgeTurnCompleted

variable {previous : Runtime}

theorem Settling.quiet {decoded : Decoded} (events : Quiet decoded.2)
    (streaming : decoded.1.streaming = previous.streaming)
    (completed : decoded.1.bridgeTurnCompleted = previous.bridgeTurnCompleted) : Settling previous false decoded :=
  ⟨⟨decoded.2, events, by simp⟩, by simp [streaming], completed⟩

theorem settling_finish (r : Runtime) (stopReason : StopReason) : Settling r false (finishStreamingMessage r stopReason) := by
  unfold finishStreamingMessage
  split
  · exact .quiet rfl rfl rfl
  · exact .quiet rfl rfl rfl

theorem settling_complete (r : Runtime) (message : Message) : Settling r false (r.complete message) :=
  .quiet rfl rfl rfl

theorem Settling.trans {first second : Runtime} {settled : Bool} (h : Settling previous false (first, events))
    (h' : Settling first settled (second, more)) : Settling previous settled (second, events ++ more) := by
  obtain ⟨before, quietBefore, same⟩ := h.events
  obtain ⟨after, quietAfter, same'⟩ := h'.events
  refine ⟨⟨before ++ after, quietBefore.append quietAfter, ?_⟩, ?_, h'.completed.trans h.completed⟩
  · have same : events = before ++ [] := same
    have same' : more = after ++ if settled then settledEvents else [] := same'
    rw [same, same', List.append_nil, List.append_assoc]
  · rw [h'.streaming, h.streaming]
    simp

theorem settling_startTool (r : Runtime) (id name : String) : Settling r false (startTool r id name) := by
  have finished := settling_finish r .stop
  unfold startTool
  dsimp only
  split
  · exact finished.trans (.quiet rfl rfl rfl)
  · rw [List.append_assoc]
    exact finished.trans (.quiet rfl rfl rfl)

theorem settling_endTool (r : Runtime) (id : String) (name : Option String) (text : String) (isError : Bool) :
    Settling r false (endTool r id name text isError) :=
  .quiet rfl rfl rfl

theorem Settling.refl (r : Runtime) : Settling r false (r, []) := .quiet rfl rfl rfl

theorem settling_codex (r : Runtime) (record : CodexRecord) : Settling r (settles r (.codex record)) (decodeCodex r record) := by
  have progress (updated : Bool) (item : CodexItem) : Settling r false (decodeCodexToolProgress r updated item) := by
    cases item with
    | tool id name text isError updates =>
      have started : Settling r false (if r.toolNames.has id then (r, []) else startTool r id name) := by
        split
        · exact .refl r
        · exact settling_startTool r id name
      have reported : Quiet (if updated || updates then [.toolExecutionUpdate id name text] else []) := by
        split <;> rfl
      exact started.trans (.quiet reported rfl rfl)
    | _ => exact .refl r
  cases record with
  | itemStarted item => exact progress false item
  | itemUpdated item => exact progress true item
  | itemCompleted item =>
    cases item with
    | agentMessage text => exact settling_complete r _
    | reasoning text => exact settling_complete r _
    | error message => exact .quiet rfl rfl rfl
    | tool id name text isError updates =>
      have started : Settling r false (if r.toolNames.has id then (r, []) else startTool r id name) := by
        split
        · exact .refl r
        · exact settling_startTool r id name
      exact started.trans (settling_endTool _ id (some name) text isError)
    | other => exact .refl r
  | turnCompleted => exact ⟨⟨[], rfl, rfl⟩, by simp [decodeCodex, settleCodex, settles], rfl⟩
  | turnFailed error => exact ⟨⟨[.piError error], rfl, rfl⟩, by simp [decodeCodex, settleCodex, settles], rfl⟩
  | other => exact .refl r
  | _ => exact .quiet rfl rfl rfl

def GeminiRecord.isResult : GeminiRecord → Bool
  | .result _ => true
  | _ => false

theorem settling_gemini (r : Runtime) (record : GeminiRecord) : Settling r record.isResult (decodeGemini r record) := by
  cases record with
  | init sessionId model => exact .quiet rfl rfl rfl
  | message content =>
    change Settling r false (geminiAssistantDelta r content)
    unfold geminiAssistantDelta
    split
    · exact .quiet rfl rfl rfl
    · exact .quiet rfl rfl rfl
  | toolUse id name => exact settling_startTool r id name
  | toolResult id text isError => exact settling_endTool r id none text isError
  | error message => exact .quiet rfl rfl rfl
  | result error =>
    have finished := settling_finish r (if error.isSome then .error else .stop)
    unfold decodeGemini geminiResult
    dsimp only
    rw [List.append_assoc]
    refine finished.trans ⟨⟨(error.map DriverEvent.piError).toList, ?_, rfl⟩, by simp [GeminiRecord.isResult], rfl⟩
    cases error <;> rfl
  | other => exact .refl r

theorem settling_all (records : List GeminiRecord) (r : Runtime) (running : ∀ record ∈ records, record.isResult = false) :
    Settling r false (decodeAll r records) := by
  induction records generalizing r with
  | nil => exact .refl r
  | cons record records ih =>
    have first := settling_gemini r record
    rw [running record List.mem_cons_self] at first
    exact first.trans (ih _ fun next inside => running next (List.mem_cons_of_mem record inside))

theorem settling_result (records : List GeminiRecord) (error : Option String) (r : Runtime)
    (running : ∀ record ∈ records, record.isResult = false) : Settling r true (decodeAll r (records ++ [.result error])) := by
  induction records generalizing r with
  | nil =>
    have last := settling_gemini r (.result error)
    unfold decodeAll decodeAll
    dsimp only [List.nil_append]
    rw [List.append_nil]
    exact last
  | cons record records ih =>
    have first := settling_gemini r record
    rw [running record List.mem_cons_self] at first
    exact first.trans (ih _ fun next inside => running next (List.mem_cons_of_mem record inside))

theorem started_isResult (known : Prop) [Decidable known] (record : GeminiRecord) (running : record.isResult = false) :
    ∀ event ∈ if known then [] else [record], event.isResult = false := by
  intro event inside
  split at inside
  · cases inside
  · rw [List.mem_singleton.mp inside, running]

theorem antigravityEvents_spec (r : Runtime) (record : AntigravityRecord) :
    (antigravityEvents r record).1.streaming = r.streaming ∧
    (antigravityEvents r record).1.bridgeTurnCompleted = r.bridgeTurnCompleted ∧
    ∃ before, (∀ event ∈ before, event.isResult = false) ∧
      ((settles r (.antigravity record) = false ∧ (antigravityEvents r record).2 = before) ∨
        (settles r (.antigravity record) = true ∧ ∃ error, (antigravityEvents r record).2 = before ++ [.result error])) := by
  cases record with
  | init conversationId model =>
    refine ⟨rfl, rfl, _, fun event inside => ?_, .inl ⟨rfl, rfl⟩⟩
    rw [List.mem_singleton.mp inside]
    rfl
  | text delta =>
    exact ⟨rfl, rfl, _, started_isResult (delta = "") (.message delta) rfl, .inl ⟨rfl, rfl⟩⟩
  | tool conversationId index name done output isError =>
    obtain ⟨conversation, same⟩ : ∃ conversation, conversation = (conversationId <|> r.sessionId).getD "null" := ⟨_, rfl⟩
    obtain ⟨id, named⟩ : ∃ id, id = s!"{conversation}:{index}" := ⟨_, rfl⟩
    have started := started_isResult (id ∈ r.agySteps) (.toolUse id name) rfl
    unfold antigravityEvents
    dsimp only
    rw [← same, ← named]
    refine if ended : done = true ∧ s!"{id}:done" ∉ (if id ∈ r.agySteps then r.agySteps else r.agySteps ++ [id]) then ?_ else ?_
    · rw [if_pos ended]
      refine ⟨rfl, rfl, _, fun event inside => ?_, .inl ⟨rfl, rfl⟩⟩
      rcases List.mem_append.mp inside with first | last
      · exact started event first
      · rw [List.mem_singleton.mp last]
        rfl
    · rw [if_neg ended]
      exact ⟨rfl, rfl, _, started, .inl ⟨rfl, rfl⟩⟩
  | result error response =>
    refine ⟨rfl, rfl, _, fun event inside => ?_, .inr ⟨rfl, error, rfl⟩⟩
    split at inside
    · obtain ⟨text, _, rfl⟩ := Option.map_eq_some_iff.mp (Option.mem_toList.mp inside)
      rfl
    · cases inside
  | other => exact ⟨rfl, rfl, [], fun _ absurd => (nomatch absurd), .inl ⟨rfl, rfl⟩⟩

theorem settling_antigravity (r : Runtime) (record : AntigravityRecord) :
    Settling r (settles r (.antigravity record)) (decodeAntigravity r record) := by
  obtain ⟨streaming, completed, before, running, ends⟩ := antigravityEvents_spec r record
  have decoded : Settling (antigravityEvents r record).1 (settles r (.antigravity record))
      (decodeAll (antigravityEvents r record).1 (antigravityEvents r record).2) := by
    rcases ends with ⟨open', same⟩ | ⟨settled, error, same⟩
    · rw [open', same]
      exact settling_all before _ running
    · rw [settled, same]
      exact settling_result before error _ running
  exact ⟨decoded.events, decoded.streaming.trans (by rw [streaming]), decoded.completed.trans completed⟩

theorem settling_ampUser (results : List ToolOutput) (r : Runtime) : Settling r false (decodeAmpUser r results) := by
  induction results generalizing r with
  | nil => exact .refl r
  | cons result results ih => exact (settling_endTool r result.id none result.text result.isError).trans (ih _)

theorem quiet_toolStarts (content : List Content) : Quiet (toolStarts content) := by
  unfold Quiet toolStarts
  rw [List.all_eq_true]
  intro event inside
  obtain ⟨block, _, same⟩ := List.mem_filterMap.mp inside
  cases block with
  | toolCall id name =>
    cases same
    rfl
  | text text => cases same
  | thinking thinking => cases same

theorem settling_amp (r : Runtime) (record : AmpRecord) : Settling r (settles r (.amp record)) (decodeAmp r record) := by
  cases record with
  | init sessionId => exact .quiet rfl rfl rfl
  | assistant content stopReason =>
    have quiet : Quiet ([.messageStart r.messages.length, .messageEnd r.messages.length] ++ toolStarts content) :=
      Quiet.append rfl (quiet_toolStarts content)
    unfold decodeAmp decodeAmpAssistant settles
    dsimp only [Runtime.complete]
    split
    · next settled =>
        rw [settled]
        exact ⟨⟨_, quiet, rfl⟩, by simp, rfl⟩
    · next open' =>
        rw [Bool.not_eq_true _ |>.mp open']
        exact .quiet quiet rfl rfl
  | user results => exact settling_ampUser results r
  | systemError error => exact .quiet rfl rfl rfl
  | result error =>
    have quiet : Quiet (error.map DriverEvent.piError).toList := by cases error <;> rfl
    unfold decodeAmp decodeAmpResult settles
    dsimp only
    split
    · next streaming =>
        rw [streaming]
        exact ⟨⟨_, quiet, rfl⟩, by simp, rfl⟩
    · next idle =>
        rw [Bool.not_eq_true _ |>.mp idle]
        exact .quiet quiet rfl rfl
  | other => exact .refl r

theorem settling_decode (r : Runtime) (record : HarnessRecord) :
    Settling r (settles r record) (decodeHeadlessRecord r record) := by
  cases record with
  | codex record => exact settling_codex r record
  | gemini record =>
    have decoded := settling_gemini r record
    cases record <;> exact decoded
  | antigravity record => exact settling_antigravity r record
  | amp record => exact settling_amp r record

/-- A record whose line has been decoded completes the turn of the bridge, if it settles the agent. -/
theorem decodeRecord_spec (r : Runtime) (record : HarnessRecord) : (∃ quiet more, Quiet quiet ∧ Quiet more ∧
      (decodeRecord r record).2 = quiet ++ (if settles r record then settledEvents else []) ++ more) ∧
    (decodeRecord r record).1.streaming = (r.streaming && !settles r record) ∧
    (decodeRecord r record).1.bridgeTurnCompleted = (r.bridgeTurnCompleted || settles r record) := by
  have decoded := settling_decode r record
  obtain ⟨quiet, isQuiet, events⟩ := decoded.events
  unfold decodeRecord
  dsimp only
  refine ⟨⟨quiet, if stateChanged r (decodeHeadlessRecord r record).1 then [.state] else [], isQuiet, ?_, ?_⟩, decoded.streaming, ?_⟩
  · split <;> rfl
  · rw [events]
  · rw [decoded.completed, events]
    congr 1
    cases settles r record with
    | true => simp [settledEvents]
    | false => simp [not_settled_of_quiet isQuiet]

end HeadlessDriver
