import Oyster.Interleaving

/-! The replay gate of the browser's connection beside the canonical reloads of the transcript,
with the transcript gate required. Events that are never gated are left out. -/
namespace TranscriptGate
open Interleaving

/-- `REPLAY_GATED_EVENT_TYPES`. -/
inductive EventType where
  | messageStart
  | messageUpdate
  | messageEnd
  | toolExecutionStart
  | toolExecutionUpdate
  | toolExecutionEnd
  | agentStart
  | agentEnd
  | agentSettled
  | compactionStart
  | compactionEnd
deriving DecidableEq

def EventType.isMessage (type : EventType) : Bool := type ∈ [.messageStart, .messageUpdate, .messageEnd]

def EventType.isTool (type : EventType) : Bool := type ∈ [.toolExecutionStart, .toolExecutionUpdate, .toolExecutionEnd]

/-- A gated event; `live` tells whether it came after `replay_done`. -/
structure Event where
  number : Nat
  type : EventType
  assistant : Bool
  live : Bool
deriving DecidableEq

/-- `filterReplayEvents`; `rendered` lists the events whose message is rendered already. -/
def filterReplayEvents (events : List Event) (rendered : List Nat) : List Event :=
  if events.any fun event => event.type = .messageEnd && event.assistant && event.number ∈ rendered then
    events.filter fun event => !(event.type.isMessage && event.assistant || event.type.isTool)
  else events

inductive Phase where
  | replay
  | canonical

inductive Trigger where
  | opened
  | replayDone
  | poller
  | settings
  | piStarted
  | sync
  | search

/-- Whether the trigger's `catch` calls `setReplaying(false)`. -/
def Trigger.releases : Trigger → Bool
  | .opened => true
  | .replayDone => true
  | .poller => false
  | .settings => false
  | .piStarted => false
  | .sync => false
  | .search => false

def Trigger.defers : Trigger → Bool
  | .piStarted => true
  | .sync => true
  | .opened => false
  | .replayDone => false
  | .poller => false
  | .settings => false
  | .search => false

structure Job where
  trigger : Trigger
  generation : Nat

structure State where
  replaying : Bool
  replayPhase : Option Phase
  replayDoneSeen : Bool
  replayBufferedEvents : List Event
  latestJob : Nat
  /-- The reloads in flight. -/
  jobs : Calls Job
  generation : Nat
  /-- The gated events of all connections. -/
  stream : List Event
  handled : List Event
  filtered : List Event
  discarded : List Event

inductive Action where
  | connect (switched : Bool)
  | opened (replay : Bool)
  | replayDone (adopts : Bool)
  | event (type : EventType) (assistant : Bool)
  | reload (trigger : Trigger)
  | succeeds (job : Nat) (rendered : List Nat)
  | fails (job : Nat)

namespace State
variable (s : State)

def setReplaying (value : Bool) (phase : Option Phase) : State :=
  { s with replaying := value, replayPhase := if value then phase else none }

def startReload (trigger : Trigger) : State :=
  { s with latestJob := s.latestJob + 1, jobs := s.jobs.put (s.latestJob + 1) ⟨trigger, s.generation⟩ }

def isCurrent (number : Nat) (job : Job) : Bool := number = s.latestJob && job.generation = s.generation

/-- `createEventConnectionController`; a switch of the runner changes the generation before. -/
def connect (switched : Bool) : State :=
  { s.setReplaying true (some .replay) with
    generation := if switched then s.generation + 1 else s.generation
    replayDoneSeen := false
    discarded := s.discarded ++ s.replayBufferedEvents
    replayBufferedEvents := [] }

/-- `runCanonicalReload`. -/
def opened (replay : Bool) : State :=
  if replay then s
  else (if s.replaying then s.setReplaying true (some .canonical) else s).startReload .opened

/-- `handleReplayDone`; the runner it names may be another one. -/
def replayDone (adopts : Bool) : State :=
  let seen := { s with replayDoneSeen := true }
  let canonical := if s.replaying then seen.setReplaying true (some .canonical) else seen
  { canonical with generation := if adopts then s.generation + 1 else s.generation }.startReload .replayDone

/-- `dispatch` of an event that the gate may hold back. -/
def event (type : EventType) (assistant : Bool) : State :=
  let event : Event := ⟨s.stream.length, type, assistant, s.replayDoneSeen⟩
  let received := { s with stream := s.stream ++ [event] }
  if s.replaying then
    if s.replayDoneSeen then { received with replayBufferedEvents := s.replayBufferedEvents ++ [event] } else received
  else { received with handled := s.handled ++ [event] }

def reload (trigger : Trigger) : State := if trigger.defers && s.replaying then s else s.startReload trigger

/-- `reconcileTranscriptReload`: the gate is opened and the buffer flushed. -/
def reconcile (rendered : List Nat) : State :=
  let kept := filterReplayEvents s.replayBufferedEvents rendered
  { s.setReplaying false none with
    handled := s.handled ++ kept
    filtered := s.filtered ++ s.replayBufferedEvents.filter fun event => event ∉ kept
    replayBufferedEvents := [] }

def succeeds (number : Nat) (job : Job) (rendered : List Nat) : State :=
  let ended := { s with jobs := s.jobs.drop number }
  if s.isCurrent number job then ended.reconcile rendered else ended

def fails (number : Nat) (job : Job) : State :=
  let ended := { s with jobs := s.jobs.drop number }
  if s.isCurrent number job && job.trigger.releases then ended.setReplaying false none else ended

end State

def step (s : State) : Action → Option State
  | .connect switched => some (s.connect switched)
  | .opened replay => some (s.opened replay)
  | .replayDone adopts => some (s.replayDone adopts)
  | .event type assistant => some (s.event type assistant)
  | .reload trigger => some (s.reload trigger)
  | .succeeds number rendered => (s.jobs number).map fun job => s.succeeds number job rendered
  | .fails number => (s.jobs number).map (s.fails number)

/-- The page before its first connection. -/
def loaded : State := ⟨true, some .replay, false, [], 0, fun _ => none, 0, [], [], [], []⟩

/-- Nothing is stranded after the replay, and live events are handled in stream order and once, unless the filter
removed or a reconnect discarded them. -/
structure Faithful (s : State) : Prop where
  settled : s.replayDoneSeen = true → (∀ number, s.jobs number = none) → s.replaying = false ∧ s.replayBufferedEvents = []
  ordered : s.handled.Sublist s.stream
  once : s.handled.Nodup
  kept : ∀ event ∈ s.stream, event.live = true →
    event ∈ s.handled ∨ event ∈ s.filtered ∨ event ∈ s.discarded ∨ event ∈ s.replayBufferedEvents

/-- After `replay_done` the current reload fails only with an empty buffer, and during the replay only for a trigger that then
opens the gate. -/
def Attended (s : State) : Action → Prop
  | .fails number =>
    ∀ job, s.jobs number = some job → s.isCurrent number job = true → s.replayDoneSeen = true →
      s.replayBufferedEvents = [] ∧ (s.replaying = true → job.trigger.releases = true)
  | _ => True

/-- What the buffer and the reloads in flight are like. -/
structure Buffered (s : State) : Prop where
  ordered : (s.handled ++ s.replayBufferedEvents).Sublist s.stream
  numbered : ∀ event ∈ s.stream, event.number < s.stream.length
  distinct : s.stream.Nodup
  kept : ∀ event ∈ s.stream, event.live = true →
    event ∈ s.handled ∨ event ∈ s.filtered ∨ event ∈ s.discarded ∨ event ∈ s.replayBufferedEvents
  opened : s.replaying = false → s.replayBufferedEvents = []
  early : s.replayDoneSeen = false → s.replayBufferedEvents = []
  latest : ∀ number job, s.jobs number = some job → number ≤ s.latestJob

/-- Whoever waits behind the gate after the replay waits for the current reload. -/
structure Inv (s : State) : Prop extends Buffered s where
  awaited : s.replayDoneSeen = true → s.replaying = true → ∃ job, s.jobs s.latestJob = some job ∧ job.generation = s.generation

variable {s : State}

theorem Inv.faithful (inv : Inv s) : Faithful s where
  settled := by
    intro seen idle
    have released : s.replaying = false := by
      by_contra replaying
      obtain ⟨job, there, _⟩ := inv.awaited seen (by simpa using replaying)
      rw [idle] at there
      cases there
    exact ⟨released, inv.opened released⟩
  ordered := (List.sublist_append_left _ _).trans inv.ordered
  once := inv.distinct.sublist ((List.sublist_append_left _ _).trans inv.ordered)
  kept := inv.kept

theorem inv_loaded : Inv loaded where
  ordered := List.Sublist.refl _
  numbered := fun _ absent => absurd absent List.not_mem_nil
  distinct := List.nodup_nil
  kept := fun _ absent => absurd absent List.not_mem_nil
  opened := fun _ => rfl
  early := fun _ => rfl
  latest := fun _ _ absent => by cases absent
  awaited := fun seen => by cases seen

theorem Buffered.startReload (base : Buffered s) (trigger : Trigger) : Inv (s.startReload trigger) where
  ordered := base.ordered
  numbered := base.numbered
  distinct := base.distinct
  kept := base.kept
  opened := base.opened
  early := base.early
  latest := by
    intro number job there
    rcases Calls.put_eq_some there with ⟨rfl, _⟩ | ⟨_, before⟩
    · exact Nat.le_refl _
    · exact Nat.le_succ_of_le (base.latest number job before)
  awaited := fun _ _ => ⟨⟨trigger, s.generation⟩, Calls.put_self _ _ _, rfl⟩

theorem Buffered.closed (base : Buffered s) (phase : Option Phase) : Buffered (s.setReplaying true phase) :=
  ⟨base.ordered, base.numbered, base.distinct, base.kept, fun open' => (by cases open'), base.early, base.latest⟩

theorem Inv.connect (inv : Inv s) (switched : Bool) : Inv (s.connect switched) where
  ordered := by
    rw [State.connect, List.append_nil]
    exact (List.sublist_append_left _ _).trans inv.ordered
  numbered := inv.numbered
  distinct := inv.distinct
  kept := by
    intro event mem live
    rcases inv.kept event mem live with handled | filtered | discarded | waits
    · exact .inl handled
    · exact .inr (.inl filtered)
    · exact .inr (.inr (.inl (List.mem_append_left _ discarded)))
    · exact .inr (.inr (.inl (List.mem_append_right _ waits)))
  opened := fun _ => rfl
  early := fun _ => rfl
  latest := inv.latest
  awaited := fun seen => by cases seen

theorem Inv.opens (inv : Inv s) (replay : Bool) : Inv (s.opened replay) := by
  unfold State.opened
  split_ifs
  · exact inv
  · exact (inv.toBuffered.closed _).startReload _
  · exact inv.toBuffered.startReload _

theorem Inv.replayDone (inv : Inv s) (adopts : Bool) : Inv (s.replayDone adopts) := by
  have seen : ∀ generation, Buffered { s with replayDoneSeen := true, generation := generation } := fun _ =>
    ⟨inv.ordered, inv.numbered, inv.distinct, inv.kept, inv.opened, fun early => (by cases early), inv.latest⟩
  unfold State.replayDone
  dsimp only
  by_cases replaying : s.replaying = true
  · rw [if_pos replaying]
    exact ((seen _).closed (some .canonical)).startReload _
  · rw [if_neg replaying]
    exact (seen _).startReload _

theorem Inv.reload (inv : Inv s) (trigger : Trigger) : Inv (s.reload trigger) := by
  unfold State.reload
  split_ifs
  · exact inv
  · exact inv.toBuffered.startReload trigger

theorem stream_grows (base : Buffered s) (event : Event) (number : event.number = s.stream.length) :
    (∀ other ∈ s.stream ++ [event], other.number < (s.stream ++ [event]).length) ∧ (s.stream ++ [event]).Nodup := by
  rw [List.length_append, List.length_singleton]
  refine ⟨fun other mem => ?_, ?_⟩
  · rcases List.mem_append.mp mem with before | last
    · exact Nat.lt_succ_of_lt (base.numbered other before)
    · rw [List.mem_singleton.mp last, number]
      exact Nat.lt_succ_self _
  · refine List.nodup_append.mpr ⟨base.distinct, List.pairwise_singleton _ _, fun other before last mem => ?_⟩
    rintro rfl
    have less := base.numbered other before
    rw [List.mem_singleton.mp mem, number] at less
    exact Nat.lt_irrefl _ less

theorem Inv.event (inv : Inv s) (type : EventType) (assistant : Bool) : Inv (s.event type assistant) := by
  obtain ⟨numbered, distinct⟩ := stream_grows inv.toBuffered ⟨s.stream.length, type, assistant, s.replayDoneSeen⟩ rfl
  have elsewhere : ∀ {event : Event} {rest : List Event}, event ∈ s.stream ++ rest → event ∈ rest ∨ event ∈ s.stream :=
    fun mem => (List.mem_append.mp mem).symm
  unfold State.event
  split_ifs with replaying seen
  · refine ⟨⟨?_, numbered, distinct, fun event mem live => ?_, fun open' => ?_, fun early => ?_, inv.latest⟩, inv.awaited⟩
    · rw [← List.append_assoc]
      exact inv.ordered.append (List.Sublist.refl _)
    · rcases elsewhere mem with last | before
      · exact .inr (.inr (.inr (List.mem_append_right _ last)))
      · rcases inv.kept event before live with handled | filtered | discarded | waits
        · exact .inl handled
        · exact .inr (.inl filtered)
        · exact .inr (.inr (.inl discarded))
        · exact .inr (.inr (.inr (List.mem_append_left _ waits)))
    · cases replaying.symm.trans open'
    · cases seen.symm.trans early
  · refine ⟨⟨inv.ordered.trans (List.sublist_append_left _ _), numbered, distinct, fun event mem live => ?_, inv.opened, inv.early,
      inv.latest⟩, inv.awaited⟩
    rcases elsewhere mem with last | before
    · rw [List.mem_singleton.mp last] at live
      exact absurd live seen
    · exact inv.kept event before live
  · have empty := inv.opened (by simpa using replaying)
    refine ⟨⟨?_, numbered, distinct, fun event mem live => ?_, inv.opened, inv.early, inv.latest⟩, inv.awaited⟩
    · have ordered := inv.ordered
      rw [empty, List.append_nil] at ordered ⊢
      exact ordered.append (List.Sublist.refl _)
    · rcases elsewhere mem with last | before
      · exact .inl (List.mem_append_right _ last)
      · rcases inv.kept event before live with handled | rest
        · exact .inl (List.mem_append_left _ handled)
        · exact .inr rest

theorem filter_sublist (events : List Event) (rendered : List Nat) : (filterReplayEvents events rendered).Sublist events := by
  unfold filterReplayEvents
  split_ifs
  · exact List.filter_sublist
  · exact List.Sublist.refl _

theorem drop_latest (base : Buffered s) (ended : Nat) : ∀ number job, s.jobs.drop ended number = some job → number ≤ s.latestJob :=
  fun number job there => base.latest number job (Calls.drop_eq_some there).2

variable {number : Nat} {job : Job}

theorem Inv.superseded (inv : Inv s) (there : s.jobs number = some job) (old : s.isCurrent number job = false) :
    Inv { s with jobs := s.jobs.drop number } where
  ordered := inv.ordered
  numbered := inv.numbered
  distinct := inv.distinct
  kept := inv.kept
  opened := inv.opened
  early := inv.early
  latest := drop_latest inv.toBuffered number
  awaited := by
    intro seen replaying
    obtain ⟨current, here, generation⟩ := inv.awaited seen replaying
    have other : s.latestJob ≠ number := by
      intro same
      subst same
      cases there.symm.trans here
      simp [State.isCurrent, generation] at old
    exact ⟨current, (Calls.drop_of_ne _ other).trans here, generation⟩

theorem Inv.succeeds (inv : Inv s) (there : s.jobs number = some job) (rendered : List Nat) :
    Inv (s.succeeds number job rendered) := by
  unfold State.succeeds
  split_ifs with current
  · have kept := filter_sublist s.replayBufferedEvents rendered
    refine ⟨⟨?_, inv.numbered, inv.distinct, fun event mem live => ?_, fun _ => rfl, fun _ => rfl,
      drop_latest inv.toBuffered number⟩,
      fun _ replaying => by cases replaying⟩
    · simp only [State.reconcile, List.append_nil]
      exact ((List.Sublist.refl s.handled).append kept).trans inv.ordered
    · rcases inv.kept event mem live with handled | filtered | discarded | waits
      · exact .inl (List.mem_append_left _ handled)
      · exact .inr (.inl (List.mem_append_left _ filtered))
      · exact .inr (.inr (.inl discarded))
      · by_cases through : event ∈ filterReplayEvents s.replayBufferedEvents rendered
        · exact .inl (List.mem_append_right _ through)
        · exact .inr (.inl (List.mem_append_right _ (List.mem_filter.mpr ⟨waits, decide_eq_true through⟩)))
  · exact inv.superseded there (by simpa using current)

theorem Inv.fails (inv : Inv s) (there : s.jobs number = some job)
    (attended : s.isCurrent number job = true → s.replayDoneSeen = true →
      s.replayBufferedEvents = [] ∧ (s.replaying = true → job.trigger.releases = true)) :
    Inv (s.fails number job) := by
  unfold State.fails
  by_cases current : s.isCurrent number job = true
  · rw [current]
    have dropped := drop_latest inv.toBuffered number
    -- before the end of the replay nothing is buffered yet
    have empty : s.replayBufferedEvents = [] := by
      cases seen : s.replayDoneSeen with
      | true => exact (attended current seen).1
      | false => exact inv.early seen
    split_ifs with releases
    · exact ⟨⟨inv.ordered, inv.numbered, inv.distinct, inv.kept, fun _ => empty, fun _ => empty, dropped⟩, fun _ replaying => by cases replaying⟩
    · refine ⟨⟨inv.ordered, inv.numbered, inv.distinct, inv.kept, inv.opened, inv.early, dropped⟩, fun seen replaying => ?_⟩
      exact absurd ((attended current seen).2 replaying) (by simpa using releases)
  · have current : s.isCurrent number job = false := by simpa using current
    rw [current]
    exact inv.superseded there current

theorem inv_step {t : State} {a : Action} (h : step s a = some t) (inv : Inv s) (attended : Attended s a) : Inv t := by
  cases a with
  | connect switched =>
    cases h
    exact inv.connect switched
  | opened replay =>
    cases h
    exact inv.opens replay
  | replayDone adopts =>
    cases h
    exact inv.replayDone adopts
  | event type assistant =>
    cases h
    exact inv.event type assistant
  | reload trigger =>
    cases h
    exact inv.reload trigger
  | succeeds number rendered =>
    obtain ⟨job, there, rfl⟩ := Option.map_eq_some_iff.mp h
    exact inv.succeeds there rendered
  | fails number =>
    obtain ⟨job, there, rfl⟩ := Option.map_eq_some_iff.mp h
    exact inv.fails there (attended job there)

/-- While the current reload fails after a replay only as attended, nothing is stranded behind the gate and no live event is lost. -/
theorem gate_faithful {actions : List Action} (run : Run step Attended loaded actions s) : Faithful s :=
  (run.invariant (fun _ _ _ inv attended h => inv_step h inv attended) inv_loaded).faithful

/-- Whether a step meets `Attended`. -/
def attended (s : State) : Action → Bool
  | .fails number =>
    (s.jobs number).all fun job =>
      !(s.isCurrent number job && s.replayDoneSeen) || s.replayBufferedEvents.isEmpty && (!s.replaying || job.trigger.releases)
  | _ => true

theorem attended_sound (s : State) (a : Action) (h : attended s a = true) : Attended s a := by
  cases a with
  | fails number =>
    intro job there current seen
    simp only [attended, there, Option.all_some, current, seen, Bool.and_self, Bool.not_true, Bool.false_or, Bool.and_eq_true,
      List.isEmpty_iff, Bool.or_eq_true, Bool.not_eq_true'] at h
    exact ⟨h.1, fun replaying => h.2.resolve_left (by simp [replaying])⟩
  | connect | opened | replayDone | event | reload | succeeds => trivial

/-- The reload after the replay fails, and one for changed settings is superseded by the poller's, which flushes the buffer;
then the connection is made anew. -/
def overlapping : List Action :=
  [.connect false, .opened true, .event .messageStart true, .replayDone false, .fails 1, .event .agentStart false,
    .connect true, .opened false, .replayDone false, .reload .settings, .event .messageStart true, .reload .poller, .fails 4,
    .event .messageEnd true, .event .agentEnd false, .succeeds 5 [3], .event .agentSettled false, .succeeds 3 []]

theorem gate_faithful_overlapping :
    ∃ s, Run step Attended loaded overlapping s ∧ s.handled.map Event.number = [1, 4, 5] ∧ s.filtered.map Event.number = [2, 3] ∧
      Faithful s := by
  have checked : ((execIf step attended loaded overlapping).any fun s =>
      decide (s.handled.map Event.number = [1, 4, 5] ∧ s.filtered.map Event.number = [2, 3])) = true := by decide +kernel
  obtain ⟨s, ran, ended⟩ := (Option.any_eq_true _ _).mp checked
  obtain ⟨handled, filtered⟩ := of_decide_eq_true ended
  have run := run_of_execIf attended_sound ran
  exact ⟨s, run, handled, filtered, gate_faithful run⟩

def failsBeforeFlush : List Action := [.connect false, .opened true, .replayDone false, .event .messageStart true, .fails 1]

theorem event_stranded :
    ∃ s, Run step Free loaded failsBeforeFlush s ∧ s.replaying = false ∧ s.replayBufferedEvents.length = 1 ∧ s.handled = [] ∧
      ¬Faithful s := by
  refine ⟨_, run_of_exec rfl, rfl, rfl, rfl, fun faithful => ?_⟩
  obtain ⟨_, empty⟩ := faithful.settled rfl fun number => by
    rcases eq_or_ne number 1 with rfl | other
    · rfl
    · exact (Calls.drop_of_ne _ other).trans (Calls.put_of_ne _ _ other)
  cases empty

end TranscriptGate
