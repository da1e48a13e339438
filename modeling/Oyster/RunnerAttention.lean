import Oyster.History
import Oyster.Interleaving

/-! The attention status of a runner whose process is alive, beside the extension UI requests
that wait for an answer: those of the process itself and those brokered by `requestRunnerUi`. -/
namespace RunnerAttention
open History Interleaving

inductive Method where
  | select
  | confirm
  | input
  | editor
  | other
deriving DecidableEq

/-- `CLARIFICATION_METHODS`. -/
def Method.asks (method : Method) : Bool := method ∈ [.select, .confirm, .input, .editor]

/-- `BROKERED_UI_METHODS`. -/
def Method.brokered (method : Method) : Bool := method ∈ [.input, .confirm]

/-- `ui` numbers the random ids of `requestRunnerUi`. -/
inductive RequestId where
  | ui (number : Nat)
  | own (id : String)
deriving DecidableEq

inductive Attention where
  | clarification
  | completed
deriving DecidableEq

inductive Reason where
  | aborted
  | timeout
deriving DecidableEq

/-- What the promise of `requestRunnerUi` is resolved with. -/
inductive Result where
  | cancelled (reason : Option Reason)
  | confirmed (answer : Bool)
  | value (value : String)
deriving DecidableEq

/-- The fields of an `extension_ui_response`. -/
structure Response where
  cancelled : Bool
  confirmed : Option Bool
  value : Option String

def brokeredUiResult (response : Response) : Result :=
  if response.cancelled then .cancelled none
  else
    match response.confirmed, response.value with
    | some answer, _ => .confirmed answer
    | none, some value => .value value
    | none, none => .cancelled none

/-- What a client sends to the runner. -/
inductive Command where
  | prompt
  | extensionUiResponse (id : Option RequestId) (response : Response)
  | other

/-- What the process reports. -/
inductive Message where
  | extensionUiRequest (id : Option String) (method : Method)
  | agentStart
  | agentEnd (willRetry : Bool)
  | agentSettled
  | compactionStart
  | compactionEnd (manual : Bool)
  | other
deriving DecidableEq

inductive Event where
  | requested (number : Nat)
  | settled (number : Nat) (result : Result)
deriving DecidableEq

def Event.number : Event → Nat
  | .requested number => number
  | .settled number _ => number

structure State where
  attentionStatus : Option Attention
  attentionUnread : Bool
  busy : Bool
  pendingExtensionUiRequestIds : List RequestId
  brokeredUiRequests : List Nat
  timers : List Nat
  /-- The requests that listen to their abort signal. -/
  listeners : List Nat
  /-- `resumeId` is set. -/
  resuming : Bool
  resumeQueue : List Command
  next : Nat
  /-- The asking requests without an answer. -/
  unanswered : List RequestId
  log : List Event

inductive Action where
  | requestRunnerUi (method : Method) (signal : Option Bool)
  | abort (number : Nat)
  | timeout (number : Nat)
  | message (message : Message)
  | sendToRunner (command : Command) (delivered : Bool)
  | finishResume
  | acknowledge

namespace State
variable (s : State)

def setRunnerAttention (status : Option Attention) (unread : Bool) : State :=
  { s with attentionStatus := status, attentionUnread := unread }

def handleExtensionUiRequest (id : Option RequestId) (method : Method) : State :=
  let tracked := match id with
    | none => s
    | some id =>
      { s with
        pendingExtensionUiRequestIds := s.pendingExtensionUiRequestIds.insert id
        unanswered := if method.asks then s.unanswered.insert id else s.unanswered }
  if method.asks then tracked.setRunnerAttention (some .clarification) true else tracked

/-- `finish`, called for an answer, an abort or the timer. -/
def finish (number : Nat) (result : Result) : State :=
  if number ∈ s.brokeredUiRequests then
    let pending := s.brokeredUiRequests.filter (· ≠ number)
    let finished := { s with
      brokeredUiRequests := pending
      timers := s.timers.filter (· ≠ number)
      listeners := s.listeners.filter (· ≠ number)
      pendingExtensionUiRequestIds := s.pendingExtensionUiRequestIds.filter (· ≠ .ui number)
      unanswered := s.unanswered.filter (· ≠ .ui number)
      log := .settled number result :: s.log }
    if pending.isEmpty && s.attentionStatus = some .clarification then finished.setRunnerAttention none false else finished
  else s

def brokers : State :=
  { s with
    brokeredUiRequests := s.next :: s.brokeredUiRequests
    timers := s.next :: s.timers
    next := s.next + 1
    log := .requested s.next :: s.log }

/-- `signal` tells whether the signal that was passed has been aborted. Another method is a `TypeError`. -/
def requestRunnerUi (method : Method) (signal : Option Bool) : State :=
  if !method.brokered then s
  else
    match signal with
    | some true => s.brokers.finish s.next (.cancelled (some .aborted))
    | some false => { s.brokers with listeners := s.next :: s.listeners }.handleExtensionUiRequest (some (.ui s.next)) method
    | none => s.brokers.handleExtensionUiRequest (some (.ui s.next)) method

def applyRunnerLifecycleEvent : Message → State
  | .extensionUiRequest id method => s.handleExtensionUiRequest ((id.filter (· ≠ "")).map .own) method
  | .agentStart => { s.setRunnerAttention none false with busy := true }
  | .agentEnd willRetry => { s with busy := willRetry }
  | .agentSettled =>
    let settled := { s with busy := false }
    if s.attentionStatus ≠ some .clarification then settled.setRunnerAttention (some .completed) true else settled
  | .compactionStart => { s with busy := true }
  | .compactionEnd manual => if manual then { s with busy := false } else s
  | .other => s

/-- The command is queued or has been written to the process. -/
def accepted : Command → State
  | .prompt => s.setRunnerAttention none false
  | .extensionUiResponse id _ =>
    { s.setRunnerAttention none false with
      pendingExtensionUiRequestIds := s.pendingExtensionUiRequestIds.filter (some · ≠ id)
      unanswered := s.unanswered.filter (some · ≠ id) }
  | .other => s

def answers : Command → Option Nat
  | .extensionUiResponse (some (.ui number)) _ => if number ∈ s.brokeredUiRequests then some number else none
  | _ => none

/-- `delivered` is what the driver's `sendCommand` returns. -/
def sendToRunner (command : Command) (delivered : Bool) : State :=
  match s.answers command, command with
  | some number, .extensionUiResponse _ response => s.finish number (brokeredUiResult response)
  | _, _ =>
    if s.resuming then accepted { s with resumeQueue := s.resumeQueue ++ [command] } command
    else if delivered then s.accepted command
    else s

end State

def step (s : State) : Action → Option State
  | .requestRunnerUi method signal => some (s.requestRunnerUi method signal)
  | .abort number => if number ∈ s.listeners then some (s.finish number (.cancelled (some .aborted))) else none
  | .timeout number => if number ∈ s.timers then some (s.finish number (.cancelled (some .timeout))) else none
  | .message message => some (s.applyRunnerLifecycleEvent message)
  | .sendToRunner command delivered => some (s.sendToRunner command delivered)
  | .finishResume => some { s with resuming := false, resumeQueue := [] }
  | .acknowledge => some { s with attentionUnread := false }

/-- A runner whose process has started, with the attention it was left with and a resume of its session in flight or not. -/
def started (attentionStatus : Option Attention) (attentionUnread resuming : Bool) : State where
  attentionStatus := attentionStatus
  attentionUnread := attentionUnread
  busy := false
  pendingExtensionUiRequestIds := []
  brokeredUiRequests := []
  timers := []
  listeners := []
  resuming := resuming
  resumeQueue := []
  next := 0
  unanswered := []
  log := []

/-- While an asking request is unanswered, the runner asks for clarification. -/
def Clarified (s : State) : Prop := s.unanswered ≠ [] → s.attentionStatus = some .clarification

def Permitted : Event → List Event → Prop
  | .requested number, before => ∀ event ∈ before, event.number ≠ number
  | .settled number _, before => .requested number ∈ before ∧ ∀ other, .settled number other ∉ before

def Settled (s : State) : Prop :=
  Fits Permitted s.log ∧ ∀ number, .requested number ∈ s.log → (∀ result, .settled number result ∉ s.log) →
    ∃ t, step s (.timeout number) = some t ∧ .settled number (.cancelled (some .timeout)) ∈ t.log

/-- The end of a brokered request leaves the process with no asking request if it leaves no other brokered one. -/
def EndsAll (s : State) (number : Nat) : Prop :=
  (∀ other ∈ s.brokeredUiRequests, other = number) → ∀ other ∈ s.unanswered, other = .ui number

/-- A command that reaches the process leaves no asking request but the one it answers. -/
def MayAccept (s : State) : Command → Prop
  | .prompt => s.unanswered = []
  | .extensionUiResponse id _ => ∀ other ∈ s.unanswered, some other = id
  | .other => True

def MaySend (s : State) (command : Command) (delivered : Bool) : Prop :=
  match s.answers command with
  | some number => EndsAll s number
  | none => (s.resuming || delivered) = true → MayAccept s command

/-- What clears the status happens only while it takes no request's attention away. -/
def Attentive (s : State) : Action → Prop
  | .requestRunnerUi method signal => method.brokered = true → signal = some true → EndsAll s.brokers s.next
  | .abort number => EndsAll s number
  | .timeout number => EndsAll s number
  | .message message => message = .agentStart → s.unanswered = []
  | .sendToRunner command delivered => MaySend s command delivered
  | _ => True

structure Inv (s : State) : Prop where
  fits : Fits Permitted s.log
  numbered : ∀ event ∈ s.log, event.number < s.next
  pending : ∀ number, number ∈ s.brokeredUiRequests ↔ .requested number ∈ s.log ∧ ∀ result, .settled number result ∉ s.log
  armed : ∀ number, number ∈ s.timers ↔ number ∈ s.brokeredUiRequests
  listening : ∀ number ∈ s.listeners, number ∈ s.brokeredUiRequests

theorem inv_started (attentionStatus : Option Attention) (attentionUnread resuming : Bool) :
    Inv (started attentionStatus attentionUnread resuming) where
  fits := trivial
  numbered := fun _ absent => absurd absent List.not_mem_nil
  pending := fun _ => ⟨fun absent => absurd absent List.not_mem_nil, fun both => absurd both.1 List.not_mem_nil⟩
  armed := fun _ => Iff.rfl
  listening := fun _ absent => absurd absent List.not_mem_nil

variable {s t : State}

theorem Inv.same (inv : Inv s) (log : t.log = s.log) (next : t.next = s.next) (brokered : t.brokeredUiRequests = s.brokeredUiRequests)
    (timers : t.timers = s.timers) (listeners : t.listeners = s.listeners) : Inv t where
  fits := log ▸ inv.fits
  numbered := by
    rw [log, next]
    exact inv.numbered
  pending := by
    rw [log, brokered]
    exact inv.pending
  armed := by
    rw [timers, brokered]
    exact inv.armed
  listening := by
    rw [listeners, brokered]
    exact inv.listening

theorem Inv.brokers (inv : Inv s) : Inv s.brokers := by
  have fresh : ∀ event ∈ s.log, event.number ≠ s.next := fun event mem => Nat.ne_of_lt (inv.numbered event mem)
  refine ⟨inv.fits.cons fresh, ?_, fun number => ?_, fun number => ?_, fun number mem => List.mem_cons_of_mem _ (inv.listening number mem)⟩
  · refine List.forall_mem_cons.mpr ⟨Nat.lt_succ_self _, fun event mem => ?_⟩
    exact Nat.lt_succ_of_lt (inv.numbered event mem)
  · simp only [State.brokers, List.mem_cons, Event.requested.injEq, reduceCtorEq, false_or, inv.pending]
    constructor
    · rintro (rfl | ⟨requested, open'⟩)
      · exact ⟨.inl rfl, fun result settled => fresh _ settled rfl⟩
      · exact ⟨.inr requested, open'⟩
    · rintro ⟨rfl | requested, open'⟩
      · exact .inl rfl
      · exact .inr ⟨requested, open'⟩
  · simp only [State.brokers, List.mem_cons, inv.armed]

variable {number : Nat}

theorem finish_log (s : State) (result : Result) (mem : number ∈ s.brokeredUiRequests) :
    (s.finish number result).log = .settled number result :: s.log := by
  unfold State.finish
  simp only [mem, if_true]
  split_ifs <;> rfl

theorem Inv.finish (inv : Inv s) (number : Nat) (result : Result) : Inv (s.finish number result) := by
  unfold State.finish
  split_ifs with mem
  · obtain ⟨requested, unsettled⟩ := (inv.pending number).mp mem
    have finished : Inv { s with
        brokeredUiRequests := s.brokeredUiRequests.filter (· ≠ number)
        timers := s.timers.filter (· ≠ number)
        listeners := s.listeners.filter (· ≠ number)
        log := .settled number result :: s.log } := by
      refine ⟨inv.fits.cons ⟨requested, unsettled⟩, ?_, fun other => ?_, fun other => ?_, fun other here => ?_⟩
      · exact List.forall_mem_cons.mpr ⟨inv.numbered (.requested number) requested, inv.numbered⟩
      · simp only [List.mem_filter, decide_eq_true_eq, List.mem_cons, reduceCtorEq, false_or, Event.settled.injEq, inv.pending]
        constructor
        · rintro ⟨⟨requested, open'⟩, ne⟩
          exact ⟨requested, fun given settled => settled.elim (fun same => ne same.1) (open' given)⟩
        · rintro ⟨requested, open'⟩
          refine ⟨⟨requested, fun given settled => open' given (.inr settled)⟩, ?_⟩
          rintro rfl
          exact open' result (.inl ⟨rfl, rfl⟩)
      · simp only [List.mem_filter, inv.armed]
      · obtain ⟨listens, ne⟩ := List.mem_filter.mp here
        exact List.mem_filter.mpr ⟨inv.listening other listens, ne⟩
    dsimp only
    split_ifs <;> exact finished.same rfl rfl rfl rfl rfl
  · exact inv

theorem Inv.handle (inv : Inv s) (id : Option RequestId) (method : Method) : Inv (s.handleExtensionUiRequest id method) := by
  unfold State.handleExtensionUiRequest
  cases id <;> dsimp only <;> split_ifs <;> exact inv.same rfl rfl rfl rfl rfl

theorem Inv.accepted (inv : Inv s) (command : Command) : Inv (s.accepted command) := by
  cases command <;> exact inv.same rfl rfl rfl rfl rfl

variable {command : Command}

theorem sendToRunner_brokered (answers : s.answers command = some number) (delivered : Bool) :
    number ∈ s.brokeredUiRequests ∧ ∃ response, s.sendToRunner command delivered = s.finish number (brokeredUiResult response) := by
  cases command with
  | prompt | other => cases answers
  | extensionUiResponse id response =>
    refine ⟨?_, response, by simp only [State.sendToRunner, answers]⟩
    cases id with
    | none => cases answers
    | some id =>
      cases id with
      | own => cases answers
      | ui other =>
        obtain ⟨mem, same⟩ := Option.ite_none_right_eq_some.mp answers
        exact Option.some.inj same ▸ mem

theorem sendToRunner_process (answers : s.answers command = none) (delivered : Bool) :
    s.sendToRunner command delivered =
      if s.resuming then State.accepted { s with resumeQueue := s.resumeQueue ++ [command] } command
      else if delivered then s.accepted command
      else s := by
  simp only [State.sendToRunner, answers]

theorem Inv.sendToRunner (inv : Inv s) (command : Command) (delivered : Bool) : Inv (s.sendToRunner command delivered) := by
  cases answers : s.answers command with
  | some number =>
    obtain ⟨_, response, same⟩ := sendToRunner_brokered answers delivered
    rw [same]
    exact inv.finish number _
  | none =>
    have queued : Inv { s with resumeQueue := s.resumeQueue ++ [command] } := inv.same rfl rfl rfl rfl rfl
    rw [sendToRunner_process answers]
    split_ifs
    · exact queued.accepted command
    · exact inv.accepted command
    · exact inv

theorem Inv.requestRunnerUi (inv : Inv s) (method : Method) (signal : Option Bool) : Inv (s.requestRunnerUi method signal) := by
  unfold State.requestRunnerUi
  split_ifs
  · exact inv
  · split
    · exact inv.brokers.finish _ _
    · have brokers := inv.brokers
      have listening : Inv { s.brokers with listeners := s.next :: s.listeners } :=
        ⟨brokers.fits, brokers.numbered, brokers.pending, brokers.armed, List.forall_mem_cons.mpr ⟨List.mem_cons_self, brokers.listening⟩⟩
      exact listening.handle _ method
    · exact inv.brokers.handle _ method

theorem Inv.message (inv : Inv s) (message : Message) : Inv (s.applyRunnerLifecycleEvent message) := by
  cases message with
  | extensionUiRequest id method => exact inv.handle _ method
  | agentStart | agentEnd | compactionStart | other => exact inv.same rfl rfl rfl rfl rfl
  | agentSettled | compactionEnd =>
    simp only [State.applyRunnerLifecycleEvent]
    split_ifs <;> exact inv.same rfl rfl rfl rfl rfl

variable {a : Action}

theorem inv_step (h : step s a = some t) (inv : Inv s) : Inv t := by
  cases a with
  | requestRunnerUi method signal =>
    cases h
    exact inv.requestRunnerUi method signal
  | abort number | timeout number =>
    obtain ⟨_, same⟩ := Option.ite_none_right_eq_some.mp h
    cases same
    exact inv.finish number _
  | message message =>
    cases h
    exact inv.message message
  | sendToRunner command delivered =>
    cases h
    exact inv.sendToRunner command delivered
  | finishResume | acknowledge =>
    cases h
    exact inv.same rfl rfl rfl rfl rfl

theorem Inv.settled (inv : Inv s) : Settled s := by
  refine ⟨inv.fits, fun number requested unsettled => ?_⟩
  have mem := (inv.pending number).mpr ⟨requested, unsettled⟩
  refine ⟨s.finish number (.cancelled (some .timeout)), if_pos ((inv.armed number).mpr mem), ?_⟩
  rw [finish_log s _ mem]
  exact List.mem_cons_self

theorem Clarified.handle (clarified : Clarified s) (id : Option RequestId) (method : Method) :
    Clarified (s.handleExtensionUiRequest id method) := by
  unfold State.handleExtensionUiRequest
  split_ifs with asks
  · exact fun _ => rfl
  · cases id with
    | none => exact clarified
    | some id => exact clarified

theorem clarified_of_none (none : s.unanswered = []) : Clarified s := fun some => absurd none some

theorem clarified_finish (result : Result) (mem : number ∈ s.brokeredUiRequests) (clarified : Clarified s) :
    Clarified (s.finish number result) ↔ EndsAll s number := by
  have left : s.brokeredUiRequests.filter (· ≠ number) = [] ↔ ∀ other ∈ s.brokeredUiRequests, other = number := by
    simp [List.filter_eq_nil_iff]
  have rest : s.unanswered.filter (· ≠ .ui number) = [] ↔ ∀ other ∈ s.unanswered, other = .ui number := by
    simp [List.filter_eq_nil_iff]
  unfold State.finish EndsAll
  simp only [mem, if_true, Bool.and_eq_true, List.isEmpty_iff, decide_eq_true_eq, left]
  split_ifs with both
  · rw [← rest]
    constructor
    · intro kept _
      by_contra some
      cases kept some
    · exact fun ends => clarified_of_none (ends both.1)
  · constructor
    · intro _ alone other here
      exact absurd ⟨alone, clarified (List.ne_nil_of_mem here)⟩ both
    · intro _ some
      exact clarified fun none => some (by
        rw [none]
        rfl)

theorem clarified_accepted (command : Command) (clarified : Clarified s) : Clarified (s.accepted command) ↔ MayAccept s command := by
  cases command with
  | prompt =>
    refine ⟨fun kept => ?_, fun none some => absurd none some⟩
    by_contra some
    cases kept some
  | extensionUiResponse id response =>
    have rest : s.unanswered.filter (some · ≠ id) = [] ↔ MayAccept s (.extensionUiResponse id response) := by
      simp [MayAccept, List.filter_eq_nil_iff]
    rw [← rest]
    refine ⟨fun kept => ?_, fun none some => absurd none some⟩
    by_contra some
    cases kept some
  | other => exact iff_of_true clarified trivial

theorem clarified_sendToRunner (command : Command) (delivered : Bool) (clarified : Clarified s) :
    Clarified (s.sendToRunner command delivered) ↔ MaySend s command delivered := by
  cases answers : s.answers command with
  | some number =>
    obtain ⟨mem, response, same⟩ := sendToRunner_brokered answers delivered
    rw [same, clarified_finish _ mem clarified]
    simp only [MaySend, answers]
  | none =>
    have queued : Clarified { s with resumeQueue := s.resumeQueue ++ [command] } := clarified
    rw [sendToRunner_process answers]
    simp only [MaySend, answers, Bool.or_eq_true]
    split_ifs with resuming sent
    · rw [clarified_accepted command queued]
      exact ⟨fun may _ => may, fun may => may (.inl resuming)⟩
    · rw [clarified_accepted command clarified]
      exact ⟨fun may _ => may, fun may => may (.inr sent)⟩
    · exact iff_of_true clarified fun either => (either.elim resuming sent).elim

theorem clarified_requestRunnerUi (method : Method) (signal : Option Bool) (clarified : Clarified s) :
    Clarified (s.requestRunnerUi method signal) ↔
      (method.brokered = true → signal = some true → EndsAll s.brokers s.next) := by
  have brokers : Clarified s.brokers := clarified
  unfold State.requestRunnerUi
  split_ifs with refused
  · have refused : method.brokered = false := by simpa using refused
    exact iff_of_true clarified fun brokered => by
      rw [refused] at brokered
      cases brokered
  · have brokered : method.brokered = true := by simpa using refused
    split
    · rw [clarified_finish _ List.mem_cons_self brokers]
      exact ⟨fun ends _ _ => ends, fun ends => ends brokered rfl⟩
    · have listening : Clarified { s.brokers with listeners := s.next :: s.listeners } := brokers
      exact iff_of_true (listening.handle _ method) fun _ same => by cases same
    · exact iff_of_true (brokers.handle _ method) fun _ same => by cases same

theorem clarified_message (message : Message) (clarified : Clarified s) :
    Clarified (s.applyRunnerLifecycleEvent message) ↔ (message = .agentStart → s.unanswered = []) := by
  cases message with
  | extensionUiRequest id method => exact iff_of_true (clarified.handle _ method) fun same => by cases same
  | agentStart =>
    refine ⟨fun kept _ => ?_, fun none => clarified_of_none (none rfl)⟩
    by_contra some
    cases kept some
  | agentEnd | compactionStart | other => exact iff_of_true clarified fun same => by cases same
  | agentSettled =>
    refine iff_of_true ?_ fun same => by cases same
    simp only [State.applyRunnerLifecycleEvent]
    split_ifs with settled
    · exact fun some => absurd (clarified some) settled
    · exact clarified
  | compactionEnd manual =>
    refine iff_of_true ?_ fun same => by cases same
    simp only [State.applyRunnerLifecycleEvent]
    split_ifs <;> exact clarified

theorem clarified_step (h : step s a = some t) (inv : Inv s) (clarified : Clarified s) :
    Clarified t ↔ Attentive s a := by
  cases a with
  | requestRunnerUi method signal =>
    cases h
    exact clarified_requestRunnerUi method signal clarified
  | abort number =>
    obtain ⟨listens, same⟩ := Option.ite_none_right_eq_some.mp h
    cases same
    exact clarified_finish _ (inv.listening number listens) clarified
  | timeout number =>
    obtain ⟨armed, same⟩ := Option.ite_none_right_eq_some.mp h
    cases same
    exact clarified_finish _ ((inv.armed number).mp armed) clarified
  | message message =>
    cases h
    exact clarified_message message clarified
  | sendToRunner command delivered =>
    cases h
    exact clarified_sendToRunner command delivered clarified
  | finishResume | acknowledge =>
    cases h
    exact iff_of_true clarified trivial

/-- While what clears the status takes no request's attention away, a runner with an unanswered request asks for
clarification, and every brokered request is settled once. -/
theorem clarification_kept {attentionStatus : Option Attention} {attentionUnread resuming : Bool} {actions : List Action}
    (run : Run step Attentive (started attentionStatus attentionUnread resuming) actions s) : Clarified s ∧ Settled s := by
  have preserved : ∀ s a t, Inv s ∧ Clarified s → Attentive s a → step s a = some t → Inv t ∧ Clarified t :=
    fun _ _ _ both attentive h => ⟨inv_step h both.1, (clarified_step h both.1 both.2).mpr attentive⟩
  have both : Inv s ∧ Clarified s := run.invariant preserved ⟨inv_started _ _ _, clarified_of_none rfl⟩
  exact ⟨both.2, both.1.settled⟩

def endsAll (s : State) (number : Nat) : Bool :=
  !(s.brokeredUiRequests.all (· = number)) || s.unanswered.all (· = .ui number)

/-- Whether a step meets `Attentive`. -/
def attentive (s : State) : Action → Bool
  | .requestRunnerUi method signal => !method.brokered || signal ≠ some true || endsAll s.brokers s.next
  | .abort number => endsAll s number
  | .timeout number => endsAll s number
  | .message message => message ≠ .agentStart || s.unanswered.isEmpty
  | .sendToRunner command delivered =>
    match s.answers command with
    | some number => endsAll s number
    | none =>
      !(s.resuming || delivered) ||
        match command with
        | .prompt => s.unanswered.isEmpty
        | .extensionUiResponse id _ => s.unanswered.all (some · = id)
        | .other => true
  | _ => true

theorem endsAll_sound (h : endsAll s number = true) : EndsAll s number := by
  intro alone
  simpa [endsAll, show s.brokeredUiRequests.all (· = number) = true by simpa using alone] using h

theorem attentive_sound (s : State) (a : Action) (h : attentive s a = true) : Attentive s a := by
  cases a with
  | requestRunnerUi method signal =>
    intro brokered aborted
    simp only [attentive, brokered, aborted] at h
    exact endsAll_sound (by simpa using h)
  | abort | timeout => exact endsAll_sound h
  | message message =>
    rintro rfl
    simpa [attentive] using h
  | sendToRunner command delivered =>
    simp only [attentive] at h
    simp only [Attentive, MaySend]
    cases answers : s.answers command with
    | some number =>
      rw [answers] at h
      exact endsAll_sound h
    | none =>
      intro reaches
      simp only [answers, reaches, Bool.not_true, Bool.false_or] at h
      cases command with
      | prompt => simpa [MayAccept] using h
      | extensionUiResponse id response => simpa [MayAccept] using h
      | other => trivial
  | finishResume | acknowledge => trivial

/-- The process has one request answered; of two brokered ones the first is aborted, and the turn ends before the second is answered. -/
def oneKindAtATime : List Action :=
  [.message .agentStart, .message (.extensionUiRequest (some "a") .select),
    .sendToRunner (.extensionUiResponse (some (.own "a")) ⟨false, none, some "main"⟩) true,
    .requestRunnerUi .input (some false), .requestRunnerUi .confirm none, .abort 0, .message .agentSettled, .acknowledge,
    .sendToRunner (.extensionUiResponse (some (.ui 1)) ⟨false, some true, none⟩) false,
    .sendToRunner .prompt true, .message .agentStart]

theorem clarification_kept_oneKindAtATime :
    ∃ s, Run step Attentive (started (some .completed) true false) oneKindAtATime s ∧
      s.log = [.settled 1 (.confirmed true), .settled 0 (.cancelled (some .aborted)), .requested 1, .requested 0] ∧
      Clarified s ∧ Settled s := by
  have checked : ((execIf step attentive (started (some .completed) true false) oneKindAtATime).any fun s =>
      decide (s.log = [.settled 1 (.confirmed true), .settled 0 (.cancelled (some .aborted)), .requested 1, .requested 0])) = true := by
    decide +kernel
  obtain ⟨s, ran, ended⟩ := (Option.any_eq_true _ _).mp checked
  have run := run_of_execIf attentive_sound ran
  exact ⟨s, run, of_decide_eq_true ended, clarification_kept run⟩

def firstOfTwoAnswered : List Action :=
  [.message .agentStart, .message (.extensionUiRequest (some "a") .select), .message (.extensionUiRequest (some "b") .confirm),
    .sendToRunner (.extensionUiResponse (some (.own "a")) ⟨false, none, some "main"⟩) true]

theorem first_answer_clears_attention :
    ∃ s, Run step Free (started none false false) firstOfTwoAnswered s ∧ s.unanswered = [.own "b"] ∧ s.attentionStatus = none ∧
      ¬Clarified s := by
  have checked : ((exec step (started none false false) firstOfTwoAnswered).any fun s =>
      decide (s.unanswered = [.own "b"] ∧ s.attentionStatus = none)) = true := by decide +kernel
  obtain ⟨s, ran, ended⟩ := (Option.any_eq_true _ _).mp checked
  obtain ⟨waiting, cleared⟩ := of_decide_eq_true ended
  refine ⟨s, run_of_exec ran, waiting, cleared, fun clarified => ?_⟩
  have status := clarified (by
    rw [waiting]
    exact List.cons_ne_nil _ _)
  rw [cleared] at status
  cases status

end RunnerAttention
