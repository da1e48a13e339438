import Oyster.HeadlessLifecycle

/-! The driver of a headless runner beside its bridge. Commands are on their way to the bridge for any
time; a record is emitted and decoded in one step, so that the driver may see it before or after any
command that it sends. A turn is its start, records of which one at most is terminal, and its exit. -/
namespace HeadlessDriver
open Interleaving
open HeadlessBridge (Kind RunMessage)

inductive BridgeCommand where
  | run (message : RunMessage)
  | abort

/-- `queue` counts the prompts that the bridge has read and not begun; `turn` and `terminal` tell that it
is in a turn, and that the turn has had its terminal record. History: the events emitted. -/
structure State where
  runtime : Runtime := {}
  inbox : List BridgeCommand := []
  queue : Nat := 0
  turn : Bool := false
  terminal : Bool := false
  emitted : List DriverEvent := []

/-- The prompts that are neither begun nor given up by an abort. -/
def outstanding (queue : Nat) : List BridgeCommand → Nat
  | [] => queue
  | .run _ :: rest => outstanding (queue + 1) rest
  | .abort :: rest => outstanding 0 rest

def State.decoded (s : State) (decoded : Decoded) : State :=
  { s with runtime := decoded.1, emitted := s.emitted ++ decoded.2 }

def HarnessRecord.isTerminal : HarnessRecord → Bool
  | .codex .turnCompleted => true
  | .codex (.turnFailed _) => true
  | .gemini (.result _) => true
  | .antigravity (.result _ _) => true
  | .amp (.result _) => true
  | _ => false

inductive Event where
  | prompt (text : String)
  | abort
  | bridgeReads
  | turnStart
  | record (record : HarnessRecord)
  | turnExit (error : Option String)

def step (kind : Kind) (generateSessionId : Bool) (label : String) (s : State) : Event → Option State
  | .prompt text =>
    let (decoded, payload) := sendHeadlessPrompt kind generateSessionId label s.runtime text
    some { s.decoded decoded with inbox := s.inbox ++ [.run payload] }
  | .abort => some { s.decoded (sendHeadlessAbort s.runtime) with inbox := s.inbox ++ [.abort] }
  | .bridgeReads =>
    match s.inbox with
    | [] => none
    | .run _ :: rest => some { s with inbox := rest, queue := s.queue + 1 }
    | .abort :: rest => some { s with inbox := rest, queue := 0 }
  | .turnStart =>
    if s.turn = false ∧ 0 < s.queue then
      some { s.decoded (turnStartEvents s.runtime) with queue := s.queue - 1, turn := true, terminal := false }
    else none
  | .record record =>
    if s.turn = true ∧ record.kind = kind ∧ (s.terminal && record.isTerminal) = false then
      some { s.decoded (decodeRecord s.runtime record) with terminal := s.terminal || record.isTerminal }
    else none
  | .turnExit error =>
    if s.turn = true then some { s.decoded (turnExitEvents s.runtime error) with turn := false } else none

/-- No agent settles that has not started since the last one settled; and between the turns, with
no prompt outstanding, every agent has settled and the runtime is not streaming. -/
structure Paired (s : State) : Prop where
  answered : lifecycle false s.emitted ≠ none
  finished : s.turn = false → outstanding s.queue s.inbox = 0 →
    lifecycle false s.emitted = some false ∧ s.runtime.streaming = false

/-- An abort that finds the runtime streaming comes within a turn of the bridge, and it and the records
at which the driver lets the agent settle come while the turn has not completed. -/
def Timely (s : State) : Event → Prop
  | .abort => s.runtime.streaming = true → s.turn = true ∧ s.runtime.bridgeTurnCompleted = false
  | .record record => settles s.runtime record = true → s.runtime.bridgeTurnCompleted = false
  | _ => True

/-- An agent is started and has not settled just while the bridge is in a turn that has not completed. -/
structure Inv (s : State) : Prop where
  opened : lifecycle false s.emitted = some (s.turn && !s.runtime.bridgeTurnCompleted)
  running : s.turn = true → s.runtime.bridgeTurnCompleted = false → s.runtime.streaming = true
  between : s.turn = false → s.runtime.bridgeTurnCompleted = false
  awaited : s.runtime.streaming = true → (s.turn && !s.runtime.bridgeTurnCompleted) = false →
    0 < outstanding s.queue s.inbox

variable {s : State}

theorem Inv.paired (h : Inv s) : Paired s := by
  refine ⟨fun absurd => ?_, fun idle none => ?_⟩
  · rw [h.opened] at absurd
    cases absurd
  · have closed : (s.turn && !s.runtime.bridgeTurnCompleted) = false := by rw [idle, Bool.false_and]
    refine ⟨h.opened.trans (congrArg some closed), ?_⟩
    cases streaming : s.runtime.streaming with
    | false => rfl
    | true => exact absurd (h.awaited streaming closed) (by rw [none]; exact Nat.lt_irrefl 0)

theorem Inv.init : Inv {} :=
  ⟨rfl, fun absurd => (nomatch absurd), fun _ => rfl, fun absurd => (nomatch absurd)⟩

theorem outstanding_run (queue : Nat) (inbox : List BridgeCommand) (message : RunMessage) :
    outstanding queue (inbox ++ [.run message]) = outstanding queue inbox + 1 := by
  induction inbox generalizing queue with
  | nil => rfl
  | cons command inbox ih =>
    cases command with
    | run other => exact ih (queue + 1)
    | abort => exact ih 0

theorem quiet_nil : Quiet [] := rfl

theorem quiet_response (command : String) : Quiet [.response command] := rfl

theorem lifecycle_settled {quiet more : List DriverEvent} (h : Quiet quiet) (h' : Quiet more) (opened : Bool) :
    lifecycle opened (quiet ++ settledEvents ++ more) = if opened then some false else none := by
  rw [lifecycle_append, lifecycle_append, lifecycle_quiet h, Option.bind_some]
  cases opened with
  | true => exact lifecycle_quiet h' false
  | false => rfl

section
variable {kind : Kind} {generateSessionId : Bool} {label : String} {s : State}

theorem Inv.emit (h : Inv s) (events : List DriverEvent) :
    lifecycle false (s.emitted ++ events) = lifecycle (s.turn && !s.runtime.bridgeTurnCompleted) events := by
  rw [lifecycle_append, h.opened, Option.bind_some]

variable {t : State}

theorem Inv.prompt (h : Inv s) (text : String) (taken : step kind generateSessionId label s (.prompt text) = some t) :
    Inv t := by
  cases taken
  refine ⟨?_, fun _ _ => rfl, h.between, fun _ _ => ?_⟩
  · have quiet : Quiet [.messageStart s.runtime.messages.length, .response "prompt"] := rfl
    exact (h.emit _).trans (lifecycle_quiet quiet _)
  · change 0 < outstanding s.queue (s.inbox ++ [.run _])
    rw [outstanding_run]
    exact Nat.succ_pos _

theorem sendHeadlessAbort_spec (r : Runtime) :
    (∃ quiet, Quiet quiet ∧ (sendHeadlessAbort r).2 = quiet ++ (if r.streaming then settledEvents else []) ++ [.response "abort"]) ∧
    (sendHeadlessAbort r).1.streaming = false ∧
    (sendHeadlessAbort r).1.bridgeTurnCompleted = (r.bridgeTurnCompleted || r.streaming) := by
  obtain ⟨quiet, isQuiet, events⟩ := (settling_finish r .aborted).events
  cases streaming : r.streaming with
  | true =>
    unfold sendHeadlessAbort
    rw [if_pos streaming]
    refine ⟨⟨quiet, isQuiet, ?_⟩, rfl, by simp⟩
    dsimp only
    rw [events]
    simp
  | false =>
    unfold sendHeadlessAbort
    rw [if_neg (by simp [streaming])]
    exact ⟨⟨[], rfl, rfl⟩, streaming, by simp⟩

theorem Inv.abort (h : Inv s) (timely : Timely s .abort) (taken : step kind generateSessionId label s .abort = some t) :
    Inv t := by
  cases taken
  obtain ⟨⟨quiet, isQuiet, events⟩, idle, completed⟩ := sendHeadlessAbort_spec s.runtime
  have opened : lifecycle false (s.emitted ++ (sendHeadlessAbort s.runtime).2) =
      some (s.turn && !(s.runtime.bridgeTurnCompleted || s.runtime.streaming)) := by
    rw [h.emit, events]
    cases streaming : s.runtime.streaming with
    | true =>
      obtain ⟨turn, unfinished⟩ := timely streaming
      refine (lifecycle_settled isQuiet (quiet_response "abort") _).trans ?_
      rw [turn, unfinished]
      rfl
    | false =>
      rw [Bool.or_false]
      exact lifecycle_quiet ((isQuiet.append quiet_nil).append (quiet_response "abort")) _
  refine ⟨?_, fun turn unfinished => ?_, fun turn => ?_, fun streaming => ?_⟩
  · exact opened.trans (by rw [← completed]; rfl)
  · have unfinished : (sendHeadlessAbort s.runtime).1.bridgeTurnCompleted = false := unfinished
    rw [completed, Bool.or_eq_false_iff] at unfinished
    exact absurd (h.running turn unfinished.1) (by simp [unfinished.2])
  · change (sendHeadlessAbort s.runtime).1.bridgeTurnCompleted = false
    have turn : s.turn = false := turn
    rw [completed, h.between turn, Bool.false_or]
    cases streaming : s.runtime.streaming with
    | false => rfl
    | true => rw [(timely streaming).1] at turn; cases turn
  · have streaming : (sendHeadlessAbort s.runtime).1.streaming = true := streaming
    rw [idle] at streaming
    cases streaming

theorem Inv.bridgeReads (h : Inv s) (taken : step kind generateSessionId label s .bridgeReads = some t) : Inv t := by
  simp only [step] at taken
  split at taken
  · cases taken
  · next message rest first =>
      cases taken
      refine ⟨h.opened, h.running, h.between, fun streaming closed => ?_⟩
      have awaited := h.awaited streaming closed
      rw [first] at awaited
      exact awaited
  · next rest first =>
      cases taken
      refine ⟨h.opened, h.running, h.between, fun streaming closed => ?_⟩
      have awaited := h.awaited streaming closed
      rw [first] at awaited
      exact awaited

theorem Inv.turnStart (h : Inv s) (taken : step kind generateSessionId label s .turnStart = some t) : Inv t := by
  obtain ⟨_, taken⟩ := Option.ite_none_right_eq_some.mp taken
  cases taken
  exact ⟨h.emit [.agentStart], fun _ _ => rfl, fun absurd => (nomatch absurd), fun _ absurd => (nomatch absurd)⟩

theorem Inv.record (h : Inv s) (record : HarnessRecord) (timely : Timely s (.record record))
    (taken : step kind generateSessionId label s (.record record) = some t) : Inv t := by
  obtain ⟨⟨turn, _, _⟩, taken⟩ := Option.ite_none_right_eq_some.mp taken
  cases taken
  obtain ⟨⟨quiet, more, isQuiet, isQuiet', events⟩, streams, completed⟩ := decodeRecord_spec s.runtime record
  have opened : lifecycle false (s.emitted ++ (decodeRecord s.runtime record).2) =
      some (s.turn && !(s.runtime.bridgeTurnCompleted || settles s.runtime record)) := by
    rw [h.emit, events]
    cases settled : settles s.runtime record with
    | true =>
      refine (lifecycle_settled isQuiet isQuiet' _).trans ?_
      rw [turn, timely settled]
      rfl
    | false =>
      rw [Bool.or_false]
      exact lifecycle_quiet ((isQuiet.append quiet_nil).append isQuiet') _
  refine ⟨?_, fun _ unfinished => ?_, fun idle => ?_, fun streaming closed => ?_⟩
  · exact opened.trans (by rw [← completed]; rfl)
  · have unfinished : (decodeRecord s.runtime record).1.bridgeTurnCompleted = false := unfinished
    rw [completed, Bool.or_eq_false_iff] at unfinished
    refine streams.trans ?_
    rw [h.running turn unfinished.1, unfinished.2]
    rfl
  · have idle : s.turn = false := idle
    rw [turn] at idle
    cases idle
  · have streaming : (decodeRecord s.runtime record).1.streaming = true := streaming
    have closed : (s.turn && !(decodeRecord s.runtime record).1.bridgeTurnCompleted) = false := closed
    rw [streams, Bool.and_eq_true, Bool.not_eq_true'] at streaming
    refine h.awaited streaming.1 ?_
    rw [completed, streaming.2, Bool.or_false] at closed
    exact closed

theorem turnExitEvents_spec (r : Runtime) (error : Option String) (running : r.bridgeTurnCompleted = false → r.streaming = true) :
    (∃ quiet, Quiet quiet ∧
      (turnExitEvents r error).2 = quiet ++ if r.bridgeTurnCompleted then [] else settledEvents) ∧
    (turnExitEvents r error).1.streaming = (r.streaming && r.bridgeTurnCompleted) ∧
    (turnExitEvents r error).1.bridgeTurnCompleted = false := by
  cases completed : r.bridgeTurnCompleted with
  | true =>
    unfold turnExitEvents
    rw [if_pos completed]
    exact ⟨⟨[], rfl, rfl⟩, by simp, rfl⟩
  | false =>
    have streaming := running completed
    have finished := settling_finish { r with streaming := false } (if error.isSome then .error else .stop)
    obtain ⟨quiet, isQuiet, events⟩ := finished.events
    have reported : Quiet (error.map DriverEvent.piError).toList := by cases error <;> rfl
    unfold turnExitEvents
    rw [if_neg (by simp [completed]), if_neg (by simp [streaming])]
    refine ⟨⟨quiet ++ (error.map DriverEvent.piError).toList, isQuiet.append reported, ?_⟩, ?_, ?_⟩
    · dsimp only
      rw [events]
      simp
    · exact finished.streaming.trans (by simp)
    · exact finished.completed.trans completed

theorem Inv.turnExit (h : Inv s) (error : Option String)
    (taken : step kind generateSessionId label s (.turnExit error) = some t) : Inv t := by
  obtain ⟨turn, taken⟩ := Option.ite_none_right_eq_some.mp taken
  cases taken
  obtain ⟨⟨quiet, isQuiet, events⟩, streams, completed⟩ := turnExitEvents_spec s.runtime error (h.running turn)
  have opened : lifecycle false (s.emitted ++ (turnExitEvents s.runtime error).2) = some false := by
    rw [h.emit, events, turn, Bool.true_and]
    cases s.runtime.bridgeTurnCompleted with
    | true => exact lifecycle_quiet (isQuiet.append quiet_nil) false
    | false =>
      have settled := lifecycle_settled isQuiet quiet_nil true
      rw [List.append_nil] at settled
      exact settled
  refine ⟨opened, fun absurd => (nomatch absurd), fun _ => completed, fun streaming _ => ?_⟩
  have streaming : (turnExitEvents s.runtime error).1.streaming = true := streaming
  rw [streams, Bool.and_eq_true] at streaming
  refine h.awaited streaming.1 ?_
  rw [streaming.2, Bool.not_true, Bool.and_false]

theorem inv_step (s : State) (e : Event) (t : State) (h : Inv s) (timely : Timely s e)
    (taken : step kind generateSessionId label s e = some t) : Inv t := by
  cases e with
  | prompt text => exact h.prompt text taken
  | abort => exact h.abort timely taken
  | bridgeReads => exact h.bridgeReads taken
  | turnStart => exact h.turnStart taken
  | record record => exact h.record record timely taken
  | turnExit error => exact h.turnExit error taken

/-- The condition on a step is exact: a step that does not meet it settles an agent that has not started. -/
theorem paired_step_iff {e : Event} (h : Inv s) (taken : step kind generateSessionId label s e = some t) :
    Paired t ↔ Timely s e := by
  refine ⟨fun paired => ?_, fun timely => (inv_step s e t h timely taken).paired⟩
  cases e with
  | abort =>
    cases taken
    intro streaming
    by_contra late
    obtain ⟨⟨quiet, isQuiet, events⟩, _, _⟩ := sendHeadlessAbort_spec s.runtime
    apply paired.answered
    have closed : (s.turn && !s.runtime.bridgeTurnCompleted) = false := by
      cases turn : s.turn <;> cases completed : s.runtime.bridgeTurnCompleted <;> simp_all
    refine (h.emit _).trans ?_
    rw [closed, events, streaming]
    exact lifecycle_settled isQuiet (quiet_response "abort") false
  | record record =>
    obtain ⟨⟨turn, _, _⟩, taken⟩ := Option.ite_none_right_eq_some.mp taken
    cases taken
    intro settled
    by_contra late
    obtain ⟨⟨quiet, more, isQuiet, isQuiet', events⟩, _, _⟩ := decodeRecord_spec s.runtime record
    apply paired.answered
    refine (h.emit _).trans ?_
    rw [(Bool.not_eq_false _).mp late, events, settled, Bool.not_true, Bool.and_false]
    exact lifecycle_settled isQuiet isQuiet' false
  | _ => trivial

end

/-- In every run whose aborts and settling records are timely, each `agent_settled` answers an
`agent_start`, and between the turns nothing is left open but for a prompt that is outstanding. -/
theorem settlements_paired (kind : Kind) (generateSessionId : Bool) (label : String) (events : List Event) (s : State)
    (run : Run (step kind generateSessionId label) Timely {} events s) : Paired s := by
  have preserved : ∀ s e t, Inv s → Timely s e → step kind generateSessionId label s e = some t → Inv t := inv_step
  exact (run.invariant preserved .init).paired

/-- `Timely`, as a test. -/
def timely (s : State) : Event → Bool
  | .abort => !s.runtime.streaming || (s.turn && !s.runtime.bridgeTurnCompleted)
  | .record record => !settles s.runtime record || !s.runtime.bridgeTurnCompleted
  | _ => true

theorem timely_sound (s : State) (e : Event) (passed : timely s e = true) : Timely s e := by
  cases e with
  | abort =>
    intro streaming
    simpa [timely, streaming] using passed
  | record record =>
    intro settled
    simpa [timely, settled] using passed
  | _ => trivial

def twoTurns : List Event :=
  [.prompt "first", .bridgeReads, .turnStart, .record (.gemini (.message "text")), .prompt "second", .bridgeReads,
    .record (.gemini (.result none)), .turnExit none, .turnStart, .abort, .bridgeReads, .turnExit none]

theorem settlements_paired_queued : ∃ s, Run (step .gemini false "Gemini") Timely {} twoTurns s ∧
      (s.turn, outstanding s.queue s.inbox, s.emitted.count .agentStart) = (false, 0, 2) ∧ Paired s := by
  have checked : ((execIf (step .gemini false "Gemini") timely {} twoTurns).any fun s =>
      decide ((s.turn, outstanding s.queue s.inbox, s.emitted.count .agentStart) = (false, 0, 2))) = true := by decide +kernel
  obtain ⟨s, ran, ended⟩ := (Option.any_eq_true _ _).mp checked
  have run := run_of_execIf timely_sound ran
  exact ⟨s, run, of_decide_eq_true ended, settlements_paired .gemini false "Gemini" _ s run⟩

theorem not_paired (unanswered : (lifecycle false s.emitted).isNone = true) : ¬Paired s :=
  fun paired => paired.answered (Option.isNone_iff_eq_none.mp unanswered)

/-- The terminal record of a turn comes after its abort: the agent settles twice. -/
theorem aborted_turn_settles_twice : ∃ s, Run (step .gemini false "Gemini") Free {}
        [.prompt "first", .bridgeReads, .turnStart, .abort, .record (.gemini (.result none))] s ∧ ¬Paired s := by
  have checked : ((exec (step .gemini false "Gemini") {}
      [.prompt "first", .bridgeReads, .turnStart, .abort, .record (.gemini (.result none))]).any
        fun s => (lifecycle false s.emitted).isNone) = true := by decide +kernel
  obtain ⟨s, ran, unanswered⟩ := (Option.any_eq_true _ _).mp checked
  exact ⟨s, run_of_exec ran, not_paired unanswered⟩

end HeadlessDriver
