import Oyster.TranscriptGate

/-! The filter of the replay buffer against what it is for: the events of messages that are
rendered already, and of the tools that these have called. -/
namespace ReplayFilter
open TranscriptGate (EventType)

/-- A buffered event. `message` is the message that it is an event of, as it is when it ends, and
`toolCallId` the call of a tool event. -/
structure Event (μ : Type) where
  type : EventType
  role : String
  message : Option μ
  toolCallId : String

section Filter
variable {μ : Type}

def Event.ofAssistant (event : Event μ) : Bool := event.type.isMessage && event.role = "assistant"

def Event.finished (assistantAlreadyRendered : μ → Bool) (event : Event μ) : Bool :=
  event.type = .messageEnd && event.role = "assistant" && event.message.any assistantAlreadyRendered

def filterReplayEvents (events : List (Event μ)) (assistantAlreadyRendered : μ → Bool) : List (Event μ) :=
  if events.any (Event.finished assistantAlreadyRendered) then
    events.filter fun event => !(event.ofAssistant || event.type.isTool)
  else events

def ofGate (event : TranscriptGate.Event) : Event ℕ :=
  ⟨event.type, if event.assistant then "assistant" else "user", some event.number, ""⟩

theorem ofGate_ofAssistant (event : TranscriptGate.Event) :
    (ofGate event).ofAssistant = (event.type.isMessage && event.assistant) := by
  cases assistant : event.assistant <;> simp [ofGate, Event.ofAssistant, assistant]

theorem ofGate_finished (rendered : List ℕ) (event : TranscriptGate.Event) : (ofGate event).finished (· ∈ rendered) =
      (event.type = .messageEnd && event.assistant && event.number ∈ rendered) := by
  cases assistant : event.assistant <;> simp [ofGate, Event.finished, assistant]

theorem filterReplayEvents_gate (events : List TranscriptGate.Event) (rendered : List ℕ) :
    filterReplayEvents (events.map ofGate) (· ∈ rendered) =
      (TranscriptGate.filterReplayEvents events rendered).map ofGate := by
  have any : (events.map ofGate).any (Event.finished (· ∈ rendered)) =
      events.any fun event => event.type = .messageEnd && event.assistant && event.number ∈ rendered := by
    rw [List.any_map]
    exact congrArg events.any (funext fun event => ofGate_finished rendered event)
  unfold filterReplayEvents TranscriptGate.filterReplayEvents
  rw [any]
  split_ifs
  · rw [List.filter_map]
    congr 1
    apply List.filter_congr
    intro event _
    rw [Function.comp_apply, ofGate_ofAssistant]
    rfl
  · rfl

variable (requests : μ → List String) (assistantAlreadyRendered : μ → Bool)

def Event.BelongsTo (event : Event μ) (message : μ) : Prop :=
  (event.ofAssistant = true ∧ event.message = some message) ∨
    (event.type.isTool = true ∧ event.toolCallId ∈ requests message)

def Event.OfRendered (event : Event μ) : Prop :=
  ∃ message, assistantAlreadyRendered message = true ∧ event.BelongsTo requests message

open Classical in
/-- Only events of rendered messages are removed: all the others are there, in their order. -/
def DropsOnlyRendered (events kept : List (Event μ)) : Prop :=
  kept.Sublist events ∧ (events.filter fun event => ¬event.OfRendered requests assistantAlreadyRendered).Sublist kept

/-- The filter drops only what is rendered exactly where it sees no end of a rendered message, or
every event of an assistant and every tool event is one of a rendered message. -/
theorem drops_only_rendered_iff (events : List (Event μ)) :
    DropsOnlyRendered requests assistantAlreadyRendered events (filterReplayEvents events assistantAlreadyRendered) ↔
      (∀ event ∈ events, event.finished assistantAlreadyRendered = false) ∨
        ∀ event ∈ events, (event.ofAssistant || event.type.isTool) = true →
          event.OfRendered requests assistantAlreadyRendered := by
  by_cases any : events.any (Event.finished assistantAlreadyRendered) = true
  · have kept : filterReplayEvents events assistantAlreadyRendered =
        events.filter fun event => !(event.ofAssistant || event.type.isTool) := if_pos any
    rw [kept]
    constructor
    · rintro ⟨-, others⟩
      refine .inr fun event inside gone => ?_
      by_contra other
      have there := others.subset (List.mem_filter.mpr ⟨inside, by simpa using other⟩)
      have stays := (List.mem_filter.mp there).2
      rw [gone] at stays
      cases stays
    · rintro (unfinished | rendered)
      · obtain ⟨event, inside, finished⟩ := List.any_eq_true.mp any
        rw [unfinished event inside] at finished
        cases finished
      · refine ⟨List.filter_sublist, ?_⟩
        rw [← List.filter_eq_self.mpr fun event (there : event ∈ events.filter _) => ?_]
        · exact List.filter_sublist.filter _
        · obtain ⟨inside, other⟩ := List.mem_filter.mp there
          rw [Bool.not_eq_true', ← Bool.not_eq_true]
          exact fun gone => absurd (rendered event inside gone) (by simpa using other)
  · have kept : filterReplayEvents events assistantAlreadyRendered = events := if_neg any
    rw [kept]
    have unfinished : ∀ event ∈ events, event.finished assistantAlreadyRendered = false := by
      intro event inside
      by_contra finished
      exact any (List.any_eq_true.mpr ⟨event, inside, by simpa using finished⟩)
    exact ⟨fun _ => .inl unfinished, fun _ => ⟨List.Sublist.refl _, List.filter_sublist⟩⟩

end Filter

/-- A reply `"A"` that is rendered, and the beginning of the next one. -/
def buffer : List (Event String) :=
  [⟨.messageEnd, "assistant", some "A", ""⟩, ⟨.messageStart, "assistant", some "B", ""⟩]

/-- The start of the next reply is dropped with the end of the rendered one. -/
theorem next_reply_dropped : filterReplayEvents buffer (· = "A") = [] ∧
      ¬DropsOnlyRendered (fun _ => []) (· = "A") buffer (filterReplayEvents buffer (· = "A")) := by
  have dropped : filterReplayEvents buffer (· = "A") = [] := by decide
  refine ⟨dropped, ?_⟩
  rintro ⟨-, others⟩
  have unrendered : ¬(⟨.messageStart, "assistant", some "B", ""⟩ : Event String).OfRendered (fun _ => []) (· = "A") := by
    rintro ⟨message, rendered, ⟨-, same⟩ | ⟨tool, -⟩⟩
    · cases same
      exact absurd rendered (by decide)
    · exact absurd tool (by decide)
  have inside : (⟨.messageStart, "assistant", some "B", ""⟩ : Event String) ∈ buffer := by simp [buffer]
  have there := others.subset (List.mem_filter.mpr ⟨inside, by simpa using unrendered⟩)
  cases there

end ReplayFilter
