import Oyster.HeadlessMessages
import Oyster.RetriedAppend

/-! How the driver of a headless runner persists the transcript: the batches of completed messages, the
attempts at appending them to the sink, and the flushes. A message has one entry id for its life, so an
entry is its place in the runtime's list. An attempt stores one entry a step, and may fail before or
after each; the name of the session is left out. -/
namespace HeadlessTranscript
open HeadlessDriver (Runtime HarnessRecord Follows)
open HeadlessBridge (Kind)
open Interleaving
open RetriedAppend (Outbox Conserved)

/-- A row of the sink: its session and its message. -/
abbrev Row := String × Nat

structure Batch where
  sessionId : String
  entries : List Nat

def Batch.rows (batch : Batch) : List Row := batch.entries.map fun m => (batch.sessionId, m)

/-- A flush that awaits the attempt it has found. History: the messages completed before the call. -/
structure Flush where
  completed : List Nat
  awaited : Option Nat

/-- `pending` numbers the attempts, from the first append to the end of the promise. History: whether the
native identity has been known. -/
structure State where
  runtime : Runtime := {}
  queued : List Nat := []
  transcriptName : Option (Option String) := none
  outbox : Outbox Row Batch := {}
  pending : Option Nat := none
  nextPending : Nat := 0
  flushes : Calls Flush := fun _ => none
  nextFlush : Nat := 0
  identified : Bool := false

/-- The native identity, once it is known. -/
def nativeId (r : Runtime) : Option String := if r.initialized then r.sessionId.filter (· ≠ "") else none

def completed (r : Runtime) : List Nat := (List.range r.messages.length).filter fun m => decide (r.currentMessage ≠ some m)

def State.queue (s : State) (sessionId : String) : State :=
  let fresh := (completed s.runtime).filter fun m => decide (m ∉ s.queued)
  if fresh ≠ [] ∨ s.transcriptName ≠ some s.runtime.sessionName then { s with
    queued := s.queued ++ fresh
    transcriptName := some s.runtime.sessionName
    outbox := RetriedAppend.push s.outbox ⟨sessionId, fresh⟩ }
  else s

def State.attempt (s : State) : State :=
  if s.pending = none ∧ s.outbox.batches ≠ [] then { s with
    outbox := RetriedAppend.attempt Batch.rows s.outbox
    pending := some s.nextPending
    nextPending := s.nextPending + 1 }
  else s

def State.persistTranscript (s : State) : State :=
  match nativeId s.runtime with
  | none => s
  | some sessionId => (s.queue sessionId).attempt

/-- What the driver is given to do; `record` is a line of the harness. -/
inductive Input where
  | prompt (text : String)
  | abort
  | setSessionName (name : Option String)
  | turnStart
  | record (record : HarnessRecord)
  | turnExit (error : Option String)
  | flushTranscript
  deriving DecidableEq

def handle (kind : Kind) (generateSessionId : Bool) (label : String) (r : Runtime) : Input → Runtime × Bool
  | .prompt text => ((HeadlessDriver.sendHeadlessPrompt kind generateSessionId label r text).1.1, true)
  | .abort => ((HeadlessDriver.sendHeadlessAbort r).1, r.streaming)
  | .setSessionName name => ({ r with sessionName := name <|> r.sessionName }, true)
  | .turnStart => ((HeadlessDriver.turnStartEvents r).1, false)
  | .record record => ((HeadlessDriver.decodeRecord r record).1, true)
  | .turnExit error => ((HeadlessDriver.turnExitEvents r error).1, !r.bridgeTurnCompleted && r.streaming)
  | .flushTranscript => ({ (HeadlessDriver.finishStreamingMessage r .aborted).1 with streaming := false }, true)

def State.become (s : State) (r : Runtime) (persists : Bool) : State :=
  let s := { s with runtime := r, identified := s.identified || (nativeId r).isSome }
  if persists then s.persistTranscript else s

def Flush.settled (flush : Flush) (s : State) : Bool := flush.awaited.all fun g => decide (s.pending ≠ some g)

inductive Event where
  | input (input : Input)
  | stored
  | appended
  | appendFails
  | ended
  | flushed (f : Nat)

def step (kind : Kind) (generateSessionId : Bool) (label : String) (s : State) : Event → Option State
  | .input input =>
    let (r, persists) := handle kind generateSessionId label s.runtime input
    let t := s.become r persists
    some (if input = .flushTranscript then { t with
        flushes := t.flushes.put t.nextFlush ⟨completed s.runtime, t.pending⟩
        nextFlush := t.nextFlush + 1 }
      else t)
  | .stored => (RetriedAppend.store s.outbox).map fun outbox => { s with outbox }
  | .appended => (RetriedAppend.shift Batch.rows s.outbox).map fun shifted => { s with outbox := shifted.2 }
  | .appendFails => (RetriedAppend.fail s.outbox).map fun outbox => { s with outbox }
  | .ended => if s.pending.isSome ∧ s.outbox.remaining = none then some { s with pending := none } else none
  | .flushed f =>
    match s.flushes f with
    | some flush => if flush.settled s then some { s with flushes := s.flushes.drop f } else none
    | none => none

/-- What the sink holds of some messages, in its order. -/
def State.held (s : State) (messages : List Nat) : List Nat :=
  (s.outbox.log.map Prod.snd).filter fun m => decide (m ∈ messages)

/-- Where a flush resolves with the native identity known, the sink holds each message that was
complete before the call, once and in order; and it holds none before the identity is known. -/
structure Persisted (s : State) : Prop where
  flushed : ∀ f flush, s.flushes f = some flush → flush.settled s = true → s.outbox.batches = [] →
    (nativeId s.runtime).isSome = true → s.held flush.completed = flush.completed
  unidentified : s.identified = false → s.outbox.log = []

/-- A message that is being streamed is the last. -/
def Aligned (r : Runtime) : Prop := ∀ m, r.currentMessage = some m → m + 1 = r.messages.length

/-- Whenever the transcript of a runtime with a native identity is persisted, the runtime is aligned. -/
def InPosition (kind : Kind) (generateSessionId : Bool) (label : String) (s : State) : Event → Prop
  | .input input =>
    let handled := handle kind generateSessionId label s.runtime input
    handled.2 = true → (nativeId handled.1).isSome = true → Aligned handled.1
  | _ => True

variable {r : Runtime}

theorem mem_completed {m : Nat} : m ∈ completed r ↔ m < r.messages.length ∧ r.currentMessage ≠ some m := by
  unfold completed
  rw [List.mem_filter, List.mem_range, decide_eq_true_eq]

theorem completed_of_follows {previous : Runtime} (h : Follows previous r) {m : Nat}
    (complete : m ∈ completed previous) : m ∈ completed r := by
  obtain ⟨inside, still⟩ := mem_completed.mp complete
  refine mem_completed.mpr ⟨inside.trans_le h.longer, fun streams => ?_⟩
  rcases h.current m streams with before | fresh
  · exact still before
  · exact Nat.not_le.mpr inside fresh

theorem completed_sorted (r : Runtime) : (completed r).Pairwise (· < ·) := List.pairwise_lt_range.filter _

theorem completed_aligned (aligned : Aligned r) :
    ∃ n, completed r = List.range n ∧ n ≤ r.messages.length ∧ (∀ m, r.currentMessage = some m → n ≤ m) ∧
      ∀ q ≤ r.messages.length, (∀ m, r.currentMessage = some m → q ≤ m) → q ≤ n := by
  cases current : r.currentMessage with
  | none =>
    refine ⟨r.messages.length, ?_, Nat.le_refl _, fun _ absurd => (nomatch absurd), fun q le _ => le⟩
    unfold completed
    rw [current]
    exact List.filter_eq_self.mpr fun _ _ => rfl
  | some last =>
    have place := aligned last current
    refine ⟨last, ?_, by omega, fun m same => (Option.some.inj same).le, fun q _ before => before last rfl⟩
    unfold completed
    rw [current, ← place, List.range_succ, List.filter_append]
    have before : (List.range last).filter (fun m => decide (some last ≠ some m)) = List.range last := by
      refine List.filter_eq_self.mpr fun m inside => decide_eq_true fun same => ?_
      rw [Option.some.inj same] at inside
      exact absurd (List.mem_range.mp inside) (Nat.lt_irrefl m)
    rw [before]
    simp

theorem range_append_rest {q n : Nat} (le : q ≤ n) :
    List.range q ++ (List.range n).filter (fun m => decide (m ∉ List.range q)) = List.range n := by
  obtain ⟨k, rfl⟩ := Nat.exists_eq_add_of_le le
  have first : (List.range q).filter (fun m => decide (m ∉ List.range q)) = [] := by
    refine List.filter_eq_nil_iff.mpr fun m inside => ?_
    simp [List.mem_range.mp inside]
  have rest : ((List.range k).map (q + ·)).filter (fun m => decide (m ∉ List.range q)) = (List.range k).map (q + ·) := by
    refine List.filter_eq_self.mpr fun m inside => ?_
    obtain ⟨i, _, rfl⟩ := List.mem_map.mp inside
    simp
  rw [List.range_add, List.filter_append, first, rest]
  rfl

theorem filter_range_sorted {messages : List Nat} {q : Nat} (sorted : messages.Pairwise (· < ·)) (covered : ∀ m ∈ messages, m < q) :
    (List.range q).filter (fun m => decide (m ∈ messages)) = messages := by
  have same : ((List.range q).filter fun m => decide (m ∈ messages)).Perm messages := by
    refine (List.perm_ext_iff_of_nodup (List.nodup_range.filter _) (sorted.imp fun less => Nat.ne_of_lt less)).mpr fun m => ?_
    rw [List.mem_filter, List.mem_range, decide_eq_true_eq]
    exact ⟨fun both => both.2, fun inside => ⟨covered m inside, inside⟩⟩
  exact same.eq_of_pairwise (fun a b _ _ less more => absurd less (Nat.lt_asymm more)) (List.pairwise_lt_range.filter _) sorted

structure Queued (s : State) : Prop where
  queued : s.queued = List.range s.queued.length
  bound : s.queued.length ≤ s.runtime.messages.length
  current : ∀ m, s.runtime.currentMessage = some m → s.queued.length ≤ m
  conserved : ∃ pushed, Conserved Batch.rows s.outbox pushed ∧ pushed.map Prod.snd = s.queued
  flushes : ∀ f flush, s.flushes f = some flush →
    flush.completed.Pairwise (· < ·) ∧ ∀ m ∈ flush.completed, m ∈ completed s.runtime
  unidentified : s.identified = false → nativeId s.runtime = none ∧ s.outbox = {}

/-- All that are complete have been queued, once the identity is known. -/
structure Inv (s : State) : Prop extends Queued s where
  complete : (nativeId s.runtime).isSome = true → ∀ m ∈ completed s.runtime, m < s.queued.length

theorem Inv.persisted {s : State} (h : Inv s) : Persisted s := by
  refine ⟨fun f flush there _ empty known => ?_, fun unknown => ?_⟩
  · obtain ⟨sorted, complete⟩ := h.flushes f flush there
    obtain ⟨pushed, conserved, same⟩ := h.conserved
    unfold State.held
    rw [conserved.log_eq empty, same, h.queued]
    exact filter_range_sorted sorted fun m inside => h.complete known m (complete m inside)
  · rw [(h.unidentified unknown).2]

section
variable {s : State} {sessionId : String}

theorem Queued.follow (h : Queued s) {r : Runtime} (follows : Follows s.runtime r) :
    Queued { s with runtime := r, identified := s.identified || (nativeId r).isSome } := by
  refine ⟨h.queued, h.bound.trans follows.longer, fun m streams => ?_, h.conserved, fun f flush there => ?_, fun unknown => ?_⟩
  · rcases follows.current m streams with before | fresh
    · exact h.current m before
    · exact h.bound.trans fresh
  · obtain ⟨sorted, complete⟩ := h.flushes f flush there
    exact ⟨sorted, fun m inside => completed_of_follows follows (complete m inside)⟩
  · obtain ⟨before, now⟩ := (Bool.or_eq_false_iff).mp unknown
    exact ⟨Option.not_isSome_iff_eq_none.mp (by simp [now]), (h.unidentified before).2⟩

theorem Queued.queue (h : Queued s) (aligned : Aligned s.runtime) (known : nativeId s.runtime = some sessionId) :
    Queued (s.queue sessionId) ∧ ∀ m ∈ completed s.runtime, m < (s.queue sessionId).queued.length := by
  obtain ⟨n, complete, le, before, most⟩ := completed_aligned aligned
  have bound : s.queued.length ≤ n := most _ h.bound h.current
  have whole : s.queued ++ (completed s.runtime).filter (fun m => decide (m ∉ s.queued)) = List.range n := by
    rw [complete, h.queued]
    exact range_append_rest bound
  have covered : ∀ queued : List Nat, queued = List.range n → ∀ m ∈ completed s.runtime, m < queued.length := by
    rintro queued rfl m inside
    rw [complete] at inside
    rw [List.length_range]
    exact List.mem_range.mp inside
  unfold State.queue
  dsimp only
  split
  · obtain ⟨pushed, conserved, same⟩ := h.conserved
    have rows : (pushed ++ Batch.rows ⟨sessionId, (completed s.runtime).filter fun m => decide (m ∉ s.queued)⟩).map Prod.snd =
        List.range n := by
      rw [← whole, List.map_append, same]
      simp [Batch.rows]
    have nodup := List.Nodup.of_map Prod.snd (rows ▸ List.nodup_range)
    refine ⟨⟨?_, ?_, fun m streams => ?_, ⟨_, conserved.push _ nodup, rows.trans whole.symm⟩, h.flushes, fun unknown => ?_⟩,
      covered _ whole⟩
    · rw [whole, List.length_range]
    · rw [whole, List.length_range]
      exact le
    · rw [whole, List.length_range]
      exact before m streams
    · rw [(h.unidentified unknown).1] at known
      cases known
  · next unchanged =>
      have none : (completed s.runtime).filter (fun m => decide (m ∉ s.queued)) = [] :=
        Classical.not_not.mp fun some => unchanged (.inl some)
      rw [none, List.append_nil] at whole
      exact ⟨h, covered _ whole⟩

theorem Queued.attempt (h : Queued s) : Queued s.attempt := by
  unfold State.attempt
  split
  · next start =>
      obtain ⟨pushed, conserved, same⟩ := h.conserved
      refine ⟨h.queued, h.bound, h.current, ⟨pushed, conserved.attempt start.2, same⟩, h.flushes, fun unknown => ?_⟩
      rw [(h.unidentified unknown).2] at start
      exact absurd rfl start.2
  · exact h

theorem attempt_frame (s : State) : s.attempt.runtime = s.runtime ∧ s.attempt.queued = s.queued := by
  unfold State.attempt
  split <;> exact ⟨rfl, rfl⟩

theorem queue_runtime (s : State) (sessionId : String) : (s.queue sessionId).runtime = s.runtime := by
  unfold State.queue
  dsimp only
  split <;> rfl

theorem Queued.persist (h : Queued s) (aligned : (nativeId s.runtime).isSome = true → Aligned s.runtime) :
    Inv s.persistTranscript := by
  unfold State.persistTranscript
  split
  · next unknown => exact ⟨h, fun known => by rw [unknown] at known; cases known⟩
  · next sessionId known =>
      obtain ⟨queued, covered⟩ := h.queue (aligned (by rw [known]; rfl)) known
      refine ⟨queued.attempt, fun _ m inside => ?_⟩
      rw [(attempt_frame _).1, queue_runtime] at inside
      rw [(attempt_frame _).2]
      exact covered m inside

end

section
variable {kind : Kind} {generateSessionId : Bool} {label : String}

theorem follows_handle (r : Runtime) (input : Input) : Follows r (handle kind generateSessionId label r input).1 := by
  cases input with
  | prompt text => exact HeadlessDriver.follows_prompt r kind generateSessionId label text
  | abort => exact HeadlessDriver.follows_abort r
  | setSessionName name => exact .keep rfl (.inl rfl)
  | turnStart => exact .keep rfl (.inl rfl)
  | record record => exact HeadlessDriver.follows_record r record
  | turnExit error => exact HeadlessDriver.follows_turnExit r error
  | flushTranscript => exact (HeadlessDriver.follows_finish r .aborted).trans (.keep rfl (.inl rfl))

theorem handle_unpersisted {r : Runtime} {input : Input} (skips : (handle kind generateSessionId label r input).2 = false) :
    completed (handle kind generateSessionId label r input).1 = completed r ∧
    nativeId (handle kind generateSessionId label r input).1 = nativeId r := by
  cases input with
  | abort =>
    have idle : r.streaming = false := skips
    unfold handle HeadlessDriver.sendHeadlessAbort
    rw [if_neg (by simp [idle])]
    exact ⟨rfl, rfl⟩
  | turnStart => exact ⟨rfl, rfl⟩
  | turnExit error =>
    have skips : (!r.bridgeTurnCompleted && r.streaming) = false := skips
    unfold handle HeadlessDriver.turnExitEvents
    dsimp only
    split
    · exact ⟨rfl, rfl⟩
    · next running =>
        rw [Bool.not_eq_true] at running
        rw [running, Bool.not_false, Bool.true_and] at skips
        rw [if_pos (by simp [skips])]
        exact ⟨rfl, rfl⟩
  | _ => cases skips

theorem Inv.become {s : State} (h : Inv s) (input : Input)
    (position : InPosition kind generateSessionId label s (.input input)) :
    Inv (s.become (handle kind generateSessionId label s.runtime input).1 (handle kind generateSessionId label s.runtime input).2) := by
  have follows : Follows s.runtime (handle kind generateSessionId label s.runtime input).1 := follows_handle s.runtime input
  have followed := h.toQueued.follow follows
  unfold State.become
  split
  · next persists => exact followed.persist (position persists)
  · next skips =>
      obtain ⟨complete, native⟩ := handle_unpersisted (Bool.not_eq_true _ |>.mp skips)
      refine ⟨followed, fun known m inside => h.complete (native ▸ known) m ?_⟩
      exact complete ▸ inside

theorem become_frame (s : State) (r : Runtime) (persists : Bool) :
    (s.become r persists).runtime = r ∧ (s.become r persists).flushes = s.flushes := by
  unfold State.become
  dsimp only
  split
  · unfold State.persistTranscript
    split
    · exact ⟨rfl, rfl⟩
    · unfold State.attempt State.queue
      dsimp only
      split <;> split <;> exact ⟨rfl, rfl⟩
  · exact ⟨rfl, rfl⟩

theorem Inv.outbox {s : State} (h : Inv s) {outbox : Outbox Row Batch} (busy : s.outbox ≠ {})
    (conserved : ∀ pushed, Conserved Batch.rows s.outbox pushed → Conserved Batch.rows outbox pushed) :
    Inv { s with outbox := outbox } := by
  obtain ⟨pushed, before, same⟩ := h.conserved
  exact ⟨⟨h.queued, h.bound, h.current, ⟨pushed, conserved pushed before, same⟩, h.flushes,
    fun unknown => absurd (h.unidentified unknown).2 busy⟩, h.complete⟩

theorem inv_step (s : State) (e : Event) (t : State) (h : Inv s) (position : InPosition kind generateSessionId label s e)
    (taken : step kind generateSessionId label s e = some t) : Inv t := by
  cases e with
  | input input =>
    have became := h.become input position
    cases taken
    split
    · next flush =>
        refine ⟨⟨became.queued, became.bound, became.current, became.conserved, fun f flush there => ?_, became.unidentified⟩,
          became.complete⟩
        rcases Calls.put_eq_some there with ⟨_, rfl⟩ | ⟨_, old⟩
        · refine ⟨completed_sorted _, fun m inside => ?_⟩
          rw [(become_frame s _ _).1]
          exact completed_of_follows (follows_handle s.runtime input) inside
        · exact became.flushes f flush old
    · exact became
  | stored =>
    obtain ⟨outbox, stored, rfl⟩ := Option.map_eq_some_iff.mp taken
    refine h.outbox (fun empty => ?_) fun _ conserved => conserved.store stored
    rw [empty] at stored
    cases stored
  | appended =>
    obtain ⟨shifted, done, rfl⟩ := Option.map_eq_some_iff.mp taken
    refine h.outbox (fun empty => ?_) fun _ conserved => conserved.shift done
    rw [empty] at done
    cases done
  | appendFails =>
    obtain ⟨outbox, failed, rfl⟩ := Option.map_eq_some_iff.mp taken
    refine h.outbox (fun empty => ?_) fun _ conserved => conserved.fail failed
    rw [empty] at failed
    cases failed
  | ended =>
    obtain ⟨_, taken⟩ := Option.ite_none_right_eq_some.mp taken
    cases taken
    exact ⟨⟨h.queued, h.bound, h.current, h.conserved, h.flushes, h.unidentified⟩, h.complete⟩
  | flushed f =>
    simp only [step] at taken
    split at taken
    · obtain ⟨_, taken⟩ := Option.ite_none_right_eq_some.mp taken
      cases taken
      exact ⟨⟨h.queued, h.bound, h.current, h.conserved, fun g flush there => h.flushes g flush (Calls.drop_eq_some there).2,
        h.unidentified⟩, h.complete⟩
    · cases taken

end

/-- A runtime that has just been made for a runner. -/
def launched (sessionId sessionName model : Option String) (initialized : Bool) : State :=
  let runtime : Runtime := { sessionId, sessionName, model, initialized }
  { runtime, identified := (nativeId runtime).isSome }

theorem Inv.launched (sessionId sessionName model : Option String) (initialized : Bool) :
    Inv (launched sessionId sessionName model initialized) :=
  ⟨⟨rfl, Nat.le_refl 0, fun _ absurd => (nomatch absurd), ⟨[], .init, rfl⟩, fun _ _ absurd => (nomatch absurd),
    fun unknown => ⟨Option.not_isSome_iff_eq_none.mp (Bool.not_eq_true _ |>.mpr unknown), rfl⟩⟩,
    fun _ _ absurd => nomatch absurd⟩

/-- In every run that persists the transcript in position, whatever fails, a flush that resolves leaves
each message in the sink that was complete before it, once and in order. -/
theorem transcript_persisted (kind : Kind) (generateSessionId : Bool) (label : String)
    (sessionId sessionName model : Option String) (initialized : Bool) (events : List Event) (s : State)
    (run : Run (step kind generateSessionId label) (InPosition kind generateSessionId label)
      (launched sessionId sessionName model initialized) events s) : Persisted s := by
  have preserved : ∀ s e t, Inv s → InPosition kind generateSessionId label s e → step kind generateSessionId label s e = some t →
      Inv t := inv_step
  exact (run.invariant preserved (.launched sessionId sessionName model initialized)).persisted

/-- `InPosition`, as a test. -/
def inPosition (kind : Kind) (generateSessionId : Bool) (label : String) (s : State) : Event → Bool
  | .input input =>
    let handled := handle kind generateSessionId label s.runtime input
    !(handled.2 && (nativeId handled.1).isSome) || handled.1.currentMessage.all fun m => decide (m + 1 = handled.1.messages.length)
  | _ => true

theorem inPosition_sound {kind : Kind} {generateSessionId : Bool} {label : String} (s : State) (e : Event)
    (passed : inPosition kind generateSessionId label s e = true) : InPosition kind generateSessionId label s e := by
  cases e with
  | input input =>
    intro persists known m streams
    have handled : (handle kind generateSessionId label s.runtime input).1.currentMessage = some m := streams
    simpa [inPosition, persists, known, handled] using passed
  | _ => trivial

def answered : List Event :=
  [.input (.prompt "first"), .input (.record (.gemini (.init (some "native") none))), .stored, .appendFails, .ended,
    .input (.record (.gemini (.message "text"))), .stored, .appended, .ended, .input (.record (.gemini (.result none))),
    .stored, .appended, .ended, .input .flushTranscript]

theorem transcript_persisted_answered :
    ∃ s, Run (step .gemini false "Gemini") (InPosition .gemini false "Gemini") (launched none none none false) answered s ∧
      s.outbox.log = [("native", 0), ("native", 1)] ∧ Persisted s := by
  have checked : ((execIf (step .gemini false "Gemini") (inPosition .gemini false "Gemini") (launched none none none false)
      answered).any fun s => decide (s.outbox.log = [("native", 0), ("native", 1)])) = true := by decide +kernel
  obtain ⟨s, ran, log⟩ := (Option.any_eq_true _ _).mp checked
  have run := run_of_execIf inPosition_sound ran
  exact ⟨s, run, of_decide_eq_true log, transcript_persisted .gemini false "Gemini" none none none false _ s run⟩

/-- A flush that resolves with the rows of the sink out of order. -/
def misplaced (s : State) (f : Nat) : Bool :=
  (s.flushes f).any fun flush => flush.settled s && decide (s.outbox.batches = []) && (nativeId s.runtime).isSome &&
    decide (s.held flush.completed ≠ flush.completed)

theorem not_persisted {s : State} {f : Nat} (found : misplaced s f = true) : ¬Persisted s := by
  intro persisted
  obtain ⟨flush, there, found⟩ := (Option.any_eq_true _ _).mp found
  simp only [Bool.and_eq_true, decide_eq_true_eq] at found
  obtain ⟨⟨⟨settled, empty⟩, known⟩, wrong⟩ := found
  exact wrong (persisted.flushed f flush there settled empty known)

/-- A prompt is sent while a message is streamed: it comes before the message in the sink. -/
theorem steering_prompt_misplaced : ∃ s, Run (step .gemini false "Gemini") Free (launched none none none false)
        [.input (.prompt "first"), .input (.record (.gemini (.init (some "native") none))), .stored, .appended, .ended,
          .input (.record (.gemini (.message "text"))), .input (.prompt "steering"), .stored, .appended, .ended,
          .input (.record (.gemini (.result none))), .stored, .appended, .ended, .input .flushTranscript] s ∧
      ¬Persisted s := by
  have checked : ((exec (step .gemini false "Gemini") (launched none none none false)
      [.input (.prompt "first"), .input (.record (.gemini (.init (some "native") none))), .stored, .appended, .ended,
        .input (.record (.gemini (.message "text"))), .input (.prompt "steering"), .stored, .appended, .ended,
        .input (.record (.gemini (.result none))), .stored, .appended, .ended, .input .flushTranscript]).any
          fun s => misplaced s 0) = true := by decide +kernel
  obtain ⟨s, ran, found⟩ := (Option.any_eq_true _ _).mp checked
  exact ⟨s, run_of_exec ran, not_persisted found⟩

end HeadlessTranscript
