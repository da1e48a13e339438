import Mathlib.Data.List.Nodup
import Oyster.Interleaving

/-! The prompt queue of the headless bridge: the variables of the process, its
handlers for the messages of the driver, and the life of the harness child. A
handler runs to completion, so it is one step. The answers to `models` and
`health` go to the driver and are left out; only that a discovery is pending
matters to a shutdown. -/
namespace HeadlessBridge
open Interleaving

inductive Kind where
  | codex | gemini | amp | antigravity
  deriving DecidableEq

structure Config where
  kind : Kind
  systemPrompt : Option String

/-- A `run` message as decoded from a line; an absent field is `none`. -/
structure RunMessage where
  prompt : Option String := none
  sessionId : Option String := none
  resume : Bool := false
  steer : Bool := false
  model : Option String := none

/-- The record that `runPrompt` builds. `ticket` numbers the accepted messages,
so that two prompts with one text stay two prompts. -/
structure PromptRun where
  ticket : Nat
  prompt : String
  sessionId : Option String
  resume : Bool
  steer : Bool
  model : Option String

/-- The empty string is falsy in the source. -/
def truthy (s : Option String) : Option String := s.filter (· ≠ "")

def promptRun (ticket : Nat) (message : RunMessage) : PromptRun where
  ticket
  prompt := message.prompt.getD ""
  sessionId := truthy message.sessionId
  resume := message.resume
  steer := message.steer
  model := truthy message.model

/-- The user text of a turn. Codex takes the system prompt from its own flag. -/
def harnessPrompt (config : Config) (run : PromptRun) : String :=
  match config.kind, truthy config.systemPrompt, run.resume with
  | .codex, _, _ => run.prompt
  | _, some system, false => system ++ "\n\n" ++ run.prompt
  | _, _, _ => run.prompt

/-- The live child: `ended` once the bridge has closed its stdin and asked it to
terminate, `exited` once it is gone and only its `close` event is to come. -/
structure Child where
  kind : Kind
  mode : Option String
  ended : Bool := false
  exited : Bool := false

/-- Only amp is spawned with a pipe for its standard input. -/
def Child.writable (child : Child) : Bool :=
  child.kind == .amp && !child.ended && !child.exited

inductive Output where
  | turnStart
  | turnExit

/-- The last two fields are the history of the run: what was accepted, and what
was handed to a child with its text, each oldest first. -/
structure State where
  child : Option Child := none
  changingMode : Bool := false
  stopping : Bool := false
  discovering : Bool := false
  exited : Bool := false
  queue : List PromptRun := []
  output : List Output := []
  accepted : List PromptRun := []
  handed : List (PromptRun × String) := []

def hand (config : Config) (s : State) (run : PromptRun) : State :=
  { s with
    output := s.output ++ [.turnStart]
    handed := s.handed ++ [(run, harnessPrompt config run)] }

def spawnChild (config : Config) (s : State) (run : PromptRun) : State :=
  { hand config s run with child := some { kind := config.kind, mode := run.model } }

def runNext (config : Config) (s : State) : State :=
  match s.child, s.stopping, s.queue with
  | none, false, run :: rest => spawnChild config { s with queue := rest } run
  | _, _, _ => s

def pushRun (s : State) (run : PromptRun) : State := { s with queue := s.queue ++ [run] }

def runPrompt (config : Config) (s : State) (message : RunMessage) : State :=
  let run := promptRun s.accepted.length message
  let s := { s with accepted := s.accepted ++ [run] }
  match s.child with
  | some child =>
    if config.kind = .amp ∧ child.writable ∧ child.mode ≠ run.model then
      { pushRun s run with changingMode := true, child := some { child with ended := true } }
    else if config.kind = .amp ∧ child.writable then hand config s run
    else runNext config (pushRun s run)
  | none => runNext config (pushRun s run)

/-- The interrupt that goes to a live child changes no variable of the bridge. -/
def abortTurn (s : State) : State := { s with queue := [] }

def shutdown (s : State) : State :=
  if s.stopping then s
  else { s with stopping := true, queue := [], exited := s.child.isNone && !s.discovering }

/-- The `close` handler of the child. -/
def onClose (config : Config) (s : State) (child : Child) : State :=
  let wasAmp := child.kind = .amp
  let s := { s with
    child := none
    changingMode := false
    output := if s.changingMode then s.output else s.output ++ [.turnExit] }
  if s.stopping = false ∧ (¬wasAmp ∨ s.queue ≠ []) then runNext config s else s

inductive Action where
  | run (message : RunMessage)
  | abort
  | models
  | discovered
  | shutdown
  | childExit
  | childClose
  | processExit

/-- What one event does to a process that has not exited. After a shutdown the
process may exit at any time: by the grace timer, or once discovery has ended. -/
def handle (config : Config) (s : State) : Action → Option State
  | .run message => some (runPrompt config s message)
  | .abort => some (abortTurn s)
  | .models => some { s with discovering := true }
  | .discovered => some { s with discovering := false }
  | .shutdown => some (shutdown s)
  | .childExit => s.child.map fun child => { s with child := some { child with exited := true } }
  | .childClose => s.child.map (onClose config s)
  | .processExit => if s.stopping then some { s with exited := true } else none

def step (config : Config) (s : State) (a : Action) : Option State :=
  if s.exited then none else handle config s a

/-- The close of the child will hand over the queue: it is a one-shot turn, the
bridge has asked for its end, or it is gone already. -/
def Child.Drains (child : Child) : Prop :=
  child.kind ≠ .amp ∨ child.ended ∨ child.exited

theorem drains_of_not_writable {child : Child} (h : child.writable = false) : child.Drains := by
  unfold Child.writable at h
  simp only [Bool.and_eq_false_iff, beq_eq_false_iff_ne, Bool.not_eq_false'] at h
  tauto

/-- No prompt waits behind a child that itself waits for input. A shutdown drops
what is queued, then and later. -/
def Attended (s : State) : Prop :=
  s.queue = [] ∨ s.stopping ∨ ∃ child, s.child = some child ∧ child.Drains

def Kept (s t : State) : Prop :=
  ∀ run, run ∈ s.queue ∨ (run ∈ t.accepted ∧ run ∉ s.accepted) → run ∈ t.handed.map Prod.fst ∨ run ∈ t.queue

def lineUp (s : State) : List PromptRun := s.handed.map Prod.fst ++ s.queue

structure Inv (config : Config) (s : State) : Prop where
  tickets : s.accepted.map PromptRun.ticket = List.range s.accepted.length
  order : (lineUp s).Sublist s.accepted
  waiting : ∀ child, s.child = some child → child.writable → s.queue = []
  busy : s.stopping = false → s.child = none → s.queue = []
  kind : ∀ child, s.child = some child → child.kind = config.kind

theorem Inv.initial (config : Config) : Inv config {} where
  tickets := rfl
  order := List.nil_sublist _
  waiting := by simp
  busy := by simp
  kind := by simp

theorem Inv.nodup {config : Config} {s : State} (h : Inv config s) : s.accepted.Nodup := by
  have distinct : (s.accepted.map PromptRun.ticket).Nodup := h.tickets ▸ List.nodup_range
  exact List.Nodup.of_map _ distinct

theorem Inv.attended {config : Config} {s : State} (h : Inv config s) : Attended s := by
  unfold Attended
  by_cases stopping : s.stopping
  · exact .inr (.inl stopping)
  · cases hchild : s.child with
    | none => exact .inl (h.busy (by simpa using stopping) hchild)
    | some child =>
      by_cases writable : child.writable
      · exact .inl (h.waiting child hchild writable)
      · exact .inr (.inr ⟨child, rfl, drains_of_not_writable (by simpa using writable)⟩)

theorem tickets_snoc {accepted : List PromptRun} (message : RunMessage)
    (h : accepted.map PromptRun.ticket = List.range accepted.length) :
    (accepted ++ [promptRun accepted.length message]).map PromptRun.ticket =
      List.range (accepted ++ [promptRun accepted.length message]).length := by
  simp [h, List.range_succ, promptRun]

theorem runNext_some (config : Config) {s : State} {child : Child} (h : s.child = some child) :
    runNext config s = s := by
  unfold runNext
  simp only [h]

theorem runNext_stopping (config : Config) {s : State} (h : s.stopping = true) :
    runNext config s = s := by
  unfold runNext
  cases s.child <;> simp only [h]

theorem runNext_nil (config : Config) {s : State} (h : s.queue = []) : runNext config s = s := by
  unfold runNext
  cases s.child <;> cases s.stopping <;> simp only [h]

theorem runNext_cons (config : Config) {s : State} {run : PromptRun} {rest : List PromptRun}
    (child : s.child = none) (running : s.stopping = false) (queue : s.queue = run :: rest) :
    runNext config s = spawnChild config { s with queue := rest } run := by
  unfold runNext
  simp only [child, running, queue]

theorem spawnChild_lineUp (config : Config) (s : State) (run : PromptRun) (rest : List PromptRun) :
    lineUp (spawnChild config { s with queue := rest } run) = lineUp { s with queue := run :: rest } := by
  simp [lineUp, spawnChild, hand]

@[simp] theorem mode_child_writable (child : Child) : { child with ended := true }.writable = false := by
  simp [Child.writable]

@[simp] theorem exited_child_writable (child : Child) : { child with exited := true }.writable = false := by
  simp [Child.writable]

theorem Inv.runPrompt {config : Config} {s : State} (h : Inv config s) (message : RunMessage) :
    Inv config (runPrompt config s message) := by
  obtain ⟨child, changingMode, stopping, discovering, exited, queue, output, accepted, handed⟩ := s
  have tickets := tickets_snoc message h.tickets
  unfold HeadlessBridge.runPrompt
  generalize promptRun _ message = run at tickets ⊢
  have queued : (handed.map Prod.fst ++ (queue ++ [run])).Sublist (accepted ++ [run]) := by
    rw [← List.append_assoc]
    exact h.order.append (List.Sublist.refl _)
  cases child with
  | some child =>
    simp only
    split_ifs with change direct
    · refine ⟨tickets, queued, ?_, fun _ absent => (nomatch absent), ?_⟩
      · intro c hc writable
        cases hc
        simp at writable
      · intro c hc
        cases hc
        exact h.kind child rfl
    · have empty : queue = [] := h.waiting child rfl direct.2
      subst empty
      exact ⟨tickets, by simpa [lineUp, hand] using queued, fun c hc => h.waiting c hc, h.busy, h.kind⟩
    · rw [@runNext_some config _ child rfl]
      refine ⟨tickets, queued, ?_, fun _ absent => (nomatch absent), h.kind⟩
      intro c hc writable
      cases hc
      have amp : child.kind = .amp := by
        simp only [Child.writable, Bool.and_eq_true, beq_iff_eq] at writable
        exact writable.1.1
      exact absurd ⟨(h.kind child rfl).symm.trans amp, writable⟩ direct
  | none =>
    simp only
    cases stopping with
    | true =>
      exact ⟨tickets, queued, fun _ hc => (nomatch hc), fun running => (nomatch running), h.kind⟩
    | false =>
      have empty : queue = [] := h.busy rfl rfl
      subst empty
      rw [@runNext_cons config _ run [] rfl rfl rfl]
      refine ⟨tickets, ?_, fun _ _ _ => rfl, fun _ _ => rfl, ?_⟩
      · rw [spawnChild_lineUp]
        exact queued
      · intro c hc
        cases hc
        rfl

theorem Inv.abortTurn {config : Config} {s : State} (h : Inv config s) :
    Inv config (abortTurn s) := by
  refine ⟨h.tickets, ?_, fun _ _ _ => rfl, fun _ _ => rfl, h.kind⟩
  simpa [lineUp, HeadlessBridge.abortTurn] using (List.sublist_append_left _ s.queue).trans h.order

theorem Inv.shutdown {config : Config} {s : State} (h : Inv config s) :
    Inv config (shutdown s) := by
  unfold HeadlessBridge.shutdown
  split_ifs
  · exact h
  · refine ⟨h.tickets, ?_, fun _ _ _ => rfl, fun _ _ => rfl, h.kind⟩
    simpa [lineUp] using (List.sublist_append_left _ s.queue).trans h.order

/-- The queue outlives the close of an amp child by at most the one prompt that
the close hands over. -/
def CloseDrains (child : Child) (s : State) : Prop :=
  child.kind = .amp → s.stopping = false → s.queue.length ≤ 1

theorem Inv.onClose {config : Config} {s : State} (h : Inv config s) {child : Child}
    (hchild : s.child = some child) (drains : CloseDrains child s) :
    Inv config (onClose config s child) := by
  obtain ⟨_, changingMode, stopping, discovering, exited, queue, output, accepted, handed⟩ := s
  subst hchild
  unfold HeadlessBridge.onClose
  simp only
  generalize (if changingMode = true then output else output ++ [Output.turnExit]) = output
  split_ifs with proceed
  · obtain ⟨running, _⟩ := proceed
    subst running
    cases queue with
    | nil =>
      rw [runNext_nil config rfl]
      exact ⟨h.tickets, h.order, by simp, fun _ _ => rfl, by simp⟩
    | cons run rest =>
      rw [@runNext_cons config _ run rest rfl rfl rfl]
      refine ⟨h.tickets, ?_, ?_, fun _ absent => (nomatch absent), ?_⟩
      · rw [spawnChild_lineUp]
        exact h.order
      · intro c hc writable
        cases hc
        have amp : child.kind = .amp := by
          rw [h.kind child rfl]
          simpa [Child.writable] using writable
        have short := drains amp rfl
        simpa [spawnChild, hand] using short
      · intro c hc
        cases hc
        rfl
  · refine ⟨h.tickets, h.order, by simp, ?_, by simp⟩
    intro running _
    by_contra nonempty
    exact proceed ⟨running, .inr nonempty⟩

/-- The condition under which the queue works: no amp child closes with two or
more prompts waiting behind it. -/
def Permitted (s : State) : Action → Prop
  | .childClose => ∀ child, s.child = some child → CloseDrains child s
  | _ => True

theorem step_inv (config : Config) (s : State) (a : Action) (t : State) (h : Inv config s)
    (permitted : Permitted s a) (hstep : step config s a = some t) : Inv config t := by
  unfold step at hstep
  split_ifs at hstep
  cases a with
  | run message =>
    cases hstep
    exact h.runPrompt message
  | abort =>
    cases hstep
    exact h.abortTurn
  | models =>
    cases hstep
    exact ⟨h.tickets, h.order, h.waiting, h.busy, h.kind⟩
  | discovered =>
    cases hstep
    exact ⟨h.tickets, h.order, h.waiting, h.busy, h.kind⟩
  | shutdown =>
    cases hstep
    exact h.shutdown
  | childExit =>
    obtain ⟨child, hchild, rfl⟩ := Option.map_eq_some_iff.mp hstep
    refine ⟨h.tickets, h.order, by simp, by simp, ?_⟩
    intro c hc
    cases hc
    exact h.kind child hchild
  | childClose =>
    obtain ⟨child, hchild, rfl⟩ := Option.map_eq_some_iff.mp hstep
    exact h.onClose hchild (permitted child hchild)
  | processExit =>
    simp only [handle] at hstep
    split_ifs at hstep
    cases hstep
    exact ⟨h.tickets, h.order, h.waiting, h.busy, h.kind⟩

theorem not_permitted_strands (config : Config) (s t : State) (inv : Inv config s) (a : Action)
    (hstep : step config s a = some t) (broken : ¬Permitted s a) : ¬Attended t := by
  unfold step at hstep
  split_ifs at hstep
  cases a <;> try exact absurd trivial broken
  obtain ⟨child, hchild, rfl⟩ := Option.map_eq_some_iff.mp hstep
  obtain ⟨_, changingMode, stopping, discovering, exited, queue, output, accepted, handed⟩ := s
  subst hchild
  simp only [Permitted, CloseDrains, Option.some.injEq, forall_eq', Classical.not_imp, Nat.not_le] at broken
  obtain ⟨amp, running, long⟩ := broken
  subst running
  have same : config.kind = .amp := (inv.kind child rfl).symm.trans amp
  rcases queue with _ | ⟨first, _ | ⟨second, rest⟩⟩
  · simp at long
  · simp at long
  · simp [onClose, runNext, spawnChild, hand, Attended, Child.Drains, same]

end HeadlessBridge
