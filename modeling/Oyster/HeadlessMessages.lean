import Oyster.HeadlessLifecycle

/-! What the driver of a headless runner may do to the messages of its runtime: the list only grows,
and a message that is being streamed is one that was or a new one. -/
namespace HeadlessDriver

structure Follows (previous r : Runtime) : Prop where
  longer : previous.messages.length ≤ r.messages.length
  current : ∀ m, r.currentMessage = some m → previous.currentMessage = some m ∨ previous.messages.length ≤ m

namespace Follows
variable {previous middle r : Runtime}

theorem trans (h : Follows previous middle) (h' : Follows middle r) : Follows previous r := by
  refine ⟨h.longer.trans h'.longer, fun m streams => ?_⟩
  rcases h'.current m streams with before | fresh
  · exact h.current m before
  · exact .inr (h.longer.trans fresh)

theorem keep (messages : r.messages.length = previous.messages.length)
    (current : r.currentMessage = previous.currentMessage ∨ r.currentMessage = none) : Follows previous r := by
  refine ⟨messages.ge, fun m streams => .inl ?_⟩
  rcases current with same | ended
  · rw [← same, streams]
  · rw [ended] at streams
    cases streams

theorem refl (r : Runtime) : Follows r r := keep rfl (.inl rfl)

theorem add {messages : List Message} (same : r.messages = previous.messages ++ messages)
    (current : r.currentMessage = previous.currentMessage) : Follows previous r := by
  refine ⟨?_, fun m streams => .inl (current ▸ streams)⟩
  rw [same, List.length_append]
  exact Nat.le_add_right ..

end Follows

section
variable (r : Runtime)

theorem follows_finish (stopReason : StopReason) : Follows r (finishStreamingMessage r stopReason).1 := by
  unfold finishStreamingMessage
  split
  · exact .refl r
  · exact .keep (List.length_modify ..) (.inr rfl)

theorem follows_startTool (id name : String) : Follows r (startTool r id name).1 := by
  have finished := follows_finish r .stop
  unfold startTool
  dsimp only
  split
  · exact finished
  · exact finished.trans (.add rfl rfl)

theorem follows_endTool (id : String) (name : Option String) (text : String) (isError : Bool) :
    Follows r (endTool r id name text isError).1 := .add rfl rfl

theorem follows_knownTool (id name : String) :
    Follows r (if r.toolNames.has id then (r, []) else startTool r id name).1 := by
  split
  · exact .refl r
  · exact follows_startTool r id name

theorem follows_codexProgress (updated : Bool) (item : CodexItem) : Follows r (decodeCodexToolProgress r updated item).1 := by
  cases item with
  | tool id name text isError updates => exact follows_knownTool r id name
  | _ => exact .refl r

theorem follows_codex (record : CodexRecord) : Follows r (decodeCodex r record).1 := by
  cases record with
  | itemStarted item => exact follows_codexProgress r false item
  | itemUpdated item => exact follows_codexProgress r true item
  | itemCompleted item =>
    cases item with
    | agentMessage text => exact .add rfl rfl
    | reasoning text => exact .add rfl rfl
    | error message => exact .refl r
    | tool id name text isError updates =>
      exact (follows_knownTool r id name).trans (follows_endTool _ id (some name) text isError)
    | other => exact .refl r
  | error message => exact .refl r
  | other => exact .refl r
  | _ => exact .keep rfl (.inl rfl)

theorem follows_gemini (record : GeminiRecord) : Follows r (decodeGemini r record).1 := by
  cases record with
  | init sessionId model => exact .keep rfl (.inl rfl)
  | message content =>
    change Follows r (geminiAssistantDelta r content).1
    unfold geminiAssistantDelta
    split
    · exact .keep (List.length_modify ..) (.inl rfl)
    · refine ⟨?_, fun m streams => .inr (Option.some.inj streams).le⟩
      change r.messages.length ≤ (r.messages ++ [_]).length
      rw [List.length_append]
      exact Nat.le_add_right ..
  | toolUse id name => exact follows_startTool r id name
  | toolResult id text isError => exact follows_endTool r id none text isError
  | error message => exact .refl r
  | result error => exact (follows_finish r _).trans (.keep rfl (.inl rfl))
  | other => exact .refl r

theorem follows_all (records : List GeminiRecord) (r : Runtime) : Follows r (decodeAll r records).1 := by
  induction records generalizing r with
  | nil => exact .refl r
  | cons record records ih => exact (follows_gemini r record).trans (ih _)

theorem follows_antigravity (record : AntigravityRecord) : Follows r (decodeAntigravity r record).1 := by
  have same : Follows r (antigravityEvents r record).1 := by
    cases record with
    | init conversationId model => exact .keep rfl (.inl rfl)
    | text delta => exact .keep rfl (.inl rfl)
    | tool conversationId index name done output isError =>
      unfold antigravityEvents
      dsimp only
      refine if ended : _ then (if_pos ended ▸ ?_) else (if_neg ended ▸ ?_)
      · exact .keep rfl (.inl rfl)
      · exact .keep rfl (.inl rfl)
    | result error response => exact .refl r
    | other => exact .refl r
  exact same.trans (follows_all _ _)

theorem follows_ampUser (results : List ToolOutput) (r : Runtime) : Follows r (decodeAmpUser r results).1 := by
  induction results generalizing r with
  | nil => exact .refl r
  | cons result results ih => exact (follows_endTool r result.id none result.text result.isError).trans (ih _)

theorem follows_amp (record : AmpRecord) : Follows r (decodeAmp r record).1 := by
  cases record with
  | init sessionId => exact .keep rfl (.inl rfl)
  | assistant content stopReason =>
    unfold decodeAmp decodeAmpAssistant
    dsimp only
    split
    · exact .add rfl rfl
    · exact .add rfl rfl
  | user results => exact follows_ampUser results r
  | systemError error => exact .refl r
  | result error =>
    unfold decodeAmp decodeAmpResult
    dsimp only
    split
    · exact .keep rfl (.inl rfl)
    · exact .refl r
  | other => exact .refl r

theorem follows_record (record : HarnessRecord) : Follows r (decodeRecord r record).1 := by
  have decoded : Follows r (decodeHeadlessRecord r record).1 := by
    cases record with
    | codex record => exact follows_codex r record
    | gemini record => exact follows_gemini r record
    | antigravity record => exact follows_antigravity r record
    | amp record => exact follows_amp r record
  exact decoded.trans (.keep rfl (.inl rfl))

theorem follows_prompt (kind : HeadlessBridge.Kind) (generateSessionId : Bool) (label text : String) :
    Follows r (sendHeadlessPrompt kind generateSessionId label r text).1.1 := .add rfl rfl

theorem follows_abort : Follows r (sendHeadlessAbort r).1 := by
  unfold sendHeadlessAbort
  split
  · exact (follows_finish r .aborted).trans (.keep rfl (.inl rfl))
  · exact .refl r

theorem follows_turnExit (error : Option String) : Follows r (turnExitEvents r error).1 := by
  unfold turnExitEvents
  split
  · exact .keep rfl (.inl rfl)
  · split
    · exact .refl r
    · have idle : Follows r { r with streaming := false } := .keep rfl (.inl rfl)
      exact idle.trans (follows_finish _ _)

end

end HeadlessDriver
