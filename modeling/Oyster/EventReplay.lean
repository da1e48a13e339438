import Oyster.Interleaving
import Oyster.Text

/-! The durable events of one runner and one browser client that follows them over
server-sent events. The store runs its operations one at a time, in the order in
which they were asked for; a connection gets live frames from the moment it is
registered, and its replay when the store has answered. -/
namespace EventReplay
open Interleaving Text

def runnerBufferMax : Nat := 400
def runnerEventMaxBytes : Nat := 1024 * 1024
def safeEventIdMaxLength : Nat := 200

inductive EventType where
  | extensionUiRequest (id : Option String)
  | response | messageUpdate | toolExecutionUpdate | agentEnd | turnEnd
  | other
  deriving DecidableEq

def EventType.nonReplayable : EventType → Bool
  | .response | .messageUpdate | .toolExecutionUpdate | .agentEnd | .turnEnd => true
  | .extensionUiRequest _ | .other => false

/-- A line handed to `runnerWrite`: its type and its own `_sseId` if it is JSON,
and its length with the id in it. -/
structure Line where
  event : Option (EventType × Option String)
  bytes : Nat

/-- An event as it is delivered and stored. `number` is history: the events of
the runner are numbered in the order in which they were written. -/
structure Event where
  number : Nat
  sseId : Option String
  type : Option EventType
  bytes : Nat
  deriving DecidableEq

structure Row where
  sequence : Nat
  event : Event

inductive StoreOp where
  | append (event : Event)
  | list (connection : Nat)

inductive Frame where
  | event (number : Nat) (id : Option String)
  | replayDone

/-- Where `GET /events` is: it awaits the stored events, has them, has written
them and `replay_done`, or has failed. -/
inductive Phase where
  | listing
  | listed (stored : List Event)
  | live
  | failed
  deriving DecidableEq

structure Connection where
  id : Nat
  cursor : Option String
  phase : Phase

/-- `inbox` holds the frames written to the open connection that the client has
not processed. History: `sent`, the events written to an open connection; `used`,
the ids that events have carried; `received`, the events that were retained when
the client last processed a `replay_done`. -/
structure State where
  written : Nat := 0
  stored : List Row := []
  queue : List StoreOp := []
  pendingExtensionUiRequestIds : List String := []
  connection : Option Connection := none
  nextConnection : Nat := 0
  inbox : List Frame := []
  lastEventId : Option String := none
  sent : List Nat := []
  used : List String := []
  received : List Nat := []

def safeEventId (id : String) : Bool :=
  let cs := id.toList
  !cs.isEmpty && decide (utf16Length cs ≤ safeEventIdMaxLength) &&
    cs.all fun c => c != '\x00' && c != '\r' && c != '\n'

/-- Only ids of this form become the browser's cursor. -/
def sseEventId (event : Event) : Option String := event.sseId.filter safeEventId

def normalizeLastEventId (value : Option String) : Option String := value.filter safeEventId

def withSseId (line : Line) (fresh : String) : Option String :=
  line.event.map fun event => if falsy event.2 then fresh else event.2.getD fresh

def replayable (line : Line) : Bool :=
  !line.event.any (·.1.nonReplayable) && decide (line.bytes ≤ runnerEventMaxBytes)

def maxSequence (stored : List Row) : Nat := stored.foldr (fun row m => max row.sequence m) 0

/-- `runnerEvents.append`: nothing for an id that is there, else a row behind the
others, of which the last `maxEntries` stay. -/
def append (stored : List Row) (event : Event) (maxEntries : Nat) : List Row :=
  if event.sseId.isSome && stored.any (·.event.sseId == event.sseId) then stored
  else
    let sequence := maxSequence stored + 1
    (stored ++ [(⟨sequence, event⟩ : Row)]).filter fun row => decide (sequence - maxEntries < row.sequence)

def list (stored : List Row) (maxPayloadBytes : Nat) : List Event :=
  (stored.map Row.event).filter (·.bytes ≤ maxPayloadBytes)

def afterCursor (cursor : Option String) (stored : List Event) : List Event :=
  match cursor with
  | none => stored
  | some id =>
    match stored.findIdx? (·.sseId == some id) with
    | some cursorIndex => stored.drop (cursorIndex + 1)
    | none => stored

/-- A resolved extension prompt is not replayed. -/
def stillWanted (pending : List String) (event : Event) : Bool :=
  match event.type with
  | some (.extensionUiRequest id) => id.any (pending.contains ·)
  | _ => true

def replayRunnerEvents (stored : List Event) (afterSseId : Option String) (pending : List String) : List Event :=
  (afterCursor (normalizeLastEventId afterSseId) stored).filter (stillWanted pending)

/-- The event that `runnerWrite` makes of a line. -/
def writtenEvent (s : State) (line : Line) (fresh : String) : Event :=
  ⟨s.written, withSseId line fresh, line.event.map Prod.fst, line.bytes⟩

def liveFrame (s : State) (line : Line) (fresh : String) : Frame :=
  .event s.written (if replayable line then sseEventId (writtenEvent s line fresh) else none)

def runnerWrite (s : State) (line : Line) (fresh : String) : State :=
  { s with
    written := s.written + 1
    queue := if replayable line then s.queue ++ [.append (writtenEvent s line fresh)] else s.queue
    inbox := if s.connection.isSome then s.inbox ++ [liveFrame s line fresh] else s.inbox
    sent := if s.connection.isSome then s.written :: s.sent else s.sent
    used := (withSseId line fresh).toList ++ s.used }

def runStoreOp (s : State) (rest : List StoreOp) (ok : Bool) : StoreOp → State
  | .append event =>
    { s with
      queue := rest
      stored := if ok then append s.stored event runnerBufferMax else s.stored }
  | .list k =>
    { s with
      queue := rest
      connection := s.connection.map fun connection =>
        if connection.id = k ∧ connection.phase = .listing then
          { connection with
            phase := if ok then .listed (list s.stored runnerEventMaxBytes) else .failed }
        else connection }

/-- `GET /events` with a replay: the response is registered, the list asked for. -/
def openConnection (s : State) : State :=
  { s with
    connection := some ⟨s.nextConnection, normalizeLastEventId s.lastEventId, .listing⟩
    nextConnection := s.nextConnection + 1
    queue := s.queue ++ [.list s.nextConnection]
    inbox := [] }

/-- The rest of `GET /events`: the replay and `replay_done`. -/
def writeReplay (s : State) (connection : Connection) (stored : List Event) : State :=
  let lines := replayRunnerEvents stored connection.cursor s.pendingExtensionUiRequestIds
  { s with
    connection := some { connection with phase := .live }
    inbox := s.inbox ++ lines.map (fun event => .event event.number (sseEventId event)) ++ [.replayDone]
    sent := lines.map Event.number ++ s.sent }

def processFrame (s : State) (rest : List Frame) : Frame → State
  | .event _ id => { s with inbox := rest, lastEventId := id <|> s.lastEventId }
  | .replayDone => { s with inbox := rest, received := s.stored.map (·.event.number) }

inductive Action where
  | write (line : Line) (fresh : String)
  | store (ok : Bool)
  | replay
  | connect
  | drop
  | process
  | setPending (pending : List String)

def step (s : State) : Action → Option State
  | .write line fresh => if s.used.contains fresh then none else some (runnerWrite s line fresh)
  | .store ok =>
    match s.queue with
    | [] => none
    | op :: rest => some (runStoreOp s rest ok op)
  | .replay =>
    match s.connection with
    | some ⟨id, cursor, .listed stored⟩ => some (writeReplay s ⟨id, cursor, .listed stored⟩ stored)
    | _ => none
  | .connect => if s.connection.isSome then none else some (openConnection s)
  | .drop => if s.connection.isSome then some { s with connection := none, inbox := [] } else none
  | .process =>
    match s.inbox with
    | [] => none
    | frame :: rest => some (processFrame s rest frame)
  | .setPending pending => some { s with pendingExtensionUiRequestIds := pending }

def StoreOp.appended : StoreOp → Option Event
  | .append event => some event
  | .list _ => none

/-- The events that are retained or about to be, in the order of writing. -/
def State.durable (s : State) : List Event :=
  s.stored.map Row.event ++ s.queue.filterMap StoreOp.appended

def CursorSafe (s : State) (cursor : Option String) : Prop :=
  ∀ id, cursor = some id → ∀ event ∈ s.durable, event.sseId = some id →
    ∀ earlier ∈ s.durable, earlier.number ≤ event.number → earlier.number ∈ s.sent

/-- The condition under which the replay loses nothing: a line brings no id that
has been used; a connection whose replay has not been written is dropped only
while the cursor is safe; and the replay leaves out no resolved prompt that is
retained and was never sent. -/
def Permitted (s : State) : Action → Prop
  | .write line fresh => ∀ id, withSseId line fresh = some id → id ∉ s.used
  | .drop => (∀ connection, s.connection = some connection → connection.phase ≠ .live) → CursorSafe s s.lastEventId
  | .replay => ∀ id cursor stored, s.connection = some ⟨id, cursor, .listed stored⟩ →
      ∀ event ∈ afterCursor (normalizeLastEventId cursor) stored, event ∈ s.durable →
        stillWanted s.pendingExtensionUiRequestIds event = false → event.number ∈ s.sent
  | _ => True

/-- When the client has processed `replay_done`, every event that was retained
then has been sent to it. -/
def Lossless (s : State) : Prop := ∀ n ∈ s.received, n ∈ s.sent

def Owes (s : State) (connection : Connection) : Phase → Prop
  | .listing => CursorSafe s connection.cursor ∧ ∀ before after, s.queue = before ++ .list connection.id :: after →
        ∀ event, .append event ∈ after → event.number ∈ s.sent
  | .listed stored => (∀ event ∈ s.durable, event.number ∈ s.sent ∨
        event ∈ afterCursor (normalizeLastEventId connection.cursor) stored) ∧
      ∀ event ∈ stored, ∀ id, event.sseId = some id → id ∈ s.used
  | .live => ∀ event ∈ s.durable, event.number ∈ s.sent
  | .failed => True

structure Inv (s : State) : Prop where
  sorted : s.durable.Pairwise fun a b => a.number < b.number
  written : ∀ event ∈ s.durable, event.number < s.written
  bytes : ∀ event ∈ s.durable, event.bytes ≤ runnerEventMaxBytes
  ids : ∀ event ∈ s.durable, ∀ id, event.sseId = some id → id ∈ s.used
  cursor : ∀ id, s.lastEventId = some id → id ∈ s.used
  frames : ∀ n id, .event n (some id) ∈ s.inbox → id ∈ s.used
  lists : ∀ k, .list k ∈ s.queue → k < s.nextConnection
  offline : s.connection = none → CursorSafe s s.lastEventId ∧ s.inbox = []
  online : ∀ connection, s.connection = some connection →
    connection.id < s.nextConnection ∧ (∀ id, connection.cursor = some id → id ∈ s.used) ∧
      Owes s connection connection.phase
  done : .replayDone ∈ s.inbox → ∃ connection, s.connection = some connection ∧ connection.phase = .live
  lossless : Lossless s

theorem append_sublist (stored : List Row) (event : Event) (maxEntries : Nat) :
    ((append stored event maxEntries).map Row.event).Sublist (stored.map Row.event ++ [event]) := by
  unfold append
  split_ifs
  · exact List.sublist_append_left _ _
  · have kept := (List.filter_sublist (l := stored ++ [(⟨maxSequence stored + 1, event⟩ : Row)])
      (p := fun row => decide (maxSequence stored + 1 - maxEntries < row.sequence))).map Row.event
    simpa using kept

variable {cursor : Option String} {stored : List Event} {event : Event}

theorem mem_afterCursor (sorted : stored.Pairwise fun a b => a.number < b.number) (mem : event ∈ stored) :
    event ∈ afterCursor cursor stored ∨ ∃ id, cursor = some id ∧
      ∃ last ∈ stored, last.sseId = some id ∧ event.number ≤ last.number := by
  cases cursor with
  | none => exact .inl mem
  | some id =>
    cases found : stored.findIdx? (·.sseId == some id) with
    | none =>
      refine .inl ?_
      unfold afterCursor
      simp only [found]
      exact mem
    | some i =>
      obtain ⟨inside, same, _⟩ := List.findIdx?_eq_some_iff_getElem.mp found
      obtain ⟨j, hj, rfl⟩ := List.getElem_of_mem mem
      by_cases before : j ≤ i
      · refine .inr ⟨id, rfl, stored[i], List.getElem_mem inside, by simpa using same, ?_⟩
        rcases Nat.lt_or_eq_of_le before with less | rfl
        · exact Nat.le_of_lt (List.pairwise_iff_getElem.mp sorted j i hj inside less)
        · exact Nat.le_refl _
      · refine .inl ?_
        unfold afterCursor
        simp only [found]
        rw [List.mem_drop_iff_getElem]
        refine ⟨j - (i + 1), by omega, ?_⟩
        congr 1
        omega

theorem afterCursor_subset (mem : event ∈ afterCursor cursor stored) : event ∈ stored := by
  unfold afterCursor at mem
  split at mem
  · exact mem
  · split at mem
    · exact List.mem_of_mem_drop mem
    · exact mem

theorem normalizeLastEventId_eq {value : Option String} {id : String}
    (h : normalizeLastEventId value = some id) : value = some id :=
  Option.eq_some_of_filter_eq_some h

variable {s : State} {t : State}

theorem CursorSafe.mono (h : CursorSafe s cursor) (durable : ∀ event ∈ t.durable, event ∈ s.durable)
    (sent : ∀ n ∈ s.sent, n ∈ t.sent) : CursorSafe t cursor := by
  intro id same event mem own earlier before less
  exact sent _ (h id same event (durable event mem) own earlier (durable earlier before) less)

theorem Owes.mono {connection : Connection} {phase : Phase} (h : Owes s connection phase)
    (durable : ∀ event ∈ t.durable, event ∈ s.durable) (sent : ∀ n ∈ s.sent, n ∈ t.sent)
    (used : ∀ id ∈ s.used, id ∈ t.used) (queue : ∃ front, s.queue = front ++ t.queue) : Owes t connection phase := by
  cases phase with
  | listing =>
    refine ⟨h.1.mono durable sent, ?_⟩
    intro before after split event mem
    obtain ⟨front, same⟩ := queue
    refine sent _ (h.2 (front ++ before) after ?_ event mem)
    rw [same, split, List.append_assoc]
  | listed stored =>
    exact ⟨fun event mem => (h.1 event (durable event mem)).imp_left (sent _),
      fun event mem id same => used id (h.2 event mem id same)⟩
  | live => exact fun event mem => sent _ (h event (durable event mem))
  | failed => trivial

theorem snoc_eq_split {α : Type*} {xs before after : List α} {x y : α}
    (h : xs ++ [x] = before ++ y :: after) (other : x ≠ y) :
    ∃ rest, after = rest ++ [x] ∧ xs = before ++ y :: rest := by
  rcases List.eq_nil_or_concat after with rfl | ⟨rest, z, rfl⟩
  · exact absurd (List.append_inj' h rfl).2 (by simpa using other)
  · have split := List.append_inj' (show xs ++ [x] = (before ++ y :: rest) ++ [z] by simpa using h) rfl
    refine ⟨rest, ?_, split.1⟩
    rw [List.cons.inj split.2 |>.1]
    exact List.concat_eq_append

theorem queue_write (s : State) (line : Line) (fresh : String) : (runnerWrite s line fresh).queue =
      if replayable line then s.queue ++ [.append (writtenEvent s line fresh)] else s.queue := rfl

theorem inbox_write (s : State) (line : Line) (fresh : String) : (runnerWrite s line fresh).inbox =
      if s.connection.isSome then s.inbox ++ [liveFrame s line fresh] else s.inbox := rfl

theorem sent_write {n : Nat} (h : n ∈ s.sent) (line : Line) (fresh : String) :
    n ∈ (runnerWrite s line fresh).sent := by
  have split : (runnerWrite s line fresh).sent =
      if s.connection.isSome then s.written :: s.sent else s.sent := rfl
  rw [split]
  split_ifs
  · exact List.mem_cons_of_mem _ h
  · exact h

theorem durable_write (s : State) (line : Line) (fresh : String) : (runnerWrite s line fresh).durable =
      s.durable ++ if replayable line then [writtenEvent s line fresh] else [] := by
  unfold State.durable
  rw [queue_write]
  split_ifs
  · rw [List.filterMap_append, ← List.append_assoc]
    rfl
  · rw [List.append_nil]
    rfl

variable {line : Line} {fresh : String}

theorem mem_durable_write (mem : event ∈ (runnerWrite s line fresh).durable) :
    event ∈ s.durable ∨ event = writtenEvent s line fresh ∧ replayable line = true := by
  rw [durable_write] at mem
  rcases List.mem_append.mp mem with old | new
  · exact .inl old
  · split_ifs at new with durable
    · exact .inr ⟨List.mem_singleton.mp new, durable⟩
    · cases new

theorem CursorSafe.write (h : Inv s) (safe : CursorSafe s cursor) (known : ∀ id, cursor = some id → id ∈ s.used)
    (permitted : ∀ id, withSseId line fresh = some id → id ∉ s.used) :
    CursorSafe (runnerWrite s line fresh) cursor := by
  have sent : ∀ n ∈ s.sent, n ∈ (runnerWrite s line fresh).sent := fun n hn =>
    sent_write hn line fresh
  intro id same event mem own earlier before less
  rcases mem_durable_write mem with old | ⟨rfl, _⟩
  · rcases mem_durable_write before with older | ⟨rfl, _⟩
    · exact sent _ (safe id same event old own earlier older less)
    · exact absurd (h.written event old) (Nat.not_lt_of_le less)
  · exact absurd (known id same) (permitted id own)

theorem Inv.write (h : Inv s) (permitted : ∀ id, withSseId line fresh = some id → id ∉ s.used) :
    Inv (runnerWrite s line fresh) := by
  have used : ∀ id ∈ s.used, id ∈ (runnerWrite s line fresh).used :=
    fun id hid => List.mem_append_right _ hid
  have own : ∀ id, withSseId line fresh = some id → id ∈ (runnerWrite s line fresh).used := by
    intro id same
    refine List.mem_append_left _ ?_
    rw [same]
    exact List.mem_singleton_self id
  have sent : ∀ n ∈ s.sent, n ∈ (runnerWrite s line fresh).sent := fun n hn =>
    sent_write hn line fresh
  refine ⟨?_, ?_, ?_, ?_, ?_, ?_, ?_, ?_, ?_, ?_, fun n hn => sent n (h.lossless n hn)⟩
  · rw [durable_write, List.pairwise_append]
    refine ⟨h.sorted, ?_, ?_⟩
    · split_ifs
      · exact List.pairwise_singleton _ _
      · exact List.Pairwise.nil
    · intro a ha b hb
      split_ifs at hb
      · rw [List.mem_singleton.mp hb]
        exact h.written a ha
      · cases hb
  · intro event mem
    rcases mem_durable_write mem with old | ⟨rfl, _⟩
    · exact Nat.lt_succ_of_lt (h.written event old)
    · exact Nat.lt_succ_self _
  · intro event mem
    rcases mem_durable_write mem with old | ⟨rfl, durable⟩
    · exact h.bytes event old
    · unfold replayable at durable
      simp only [Bool.and_eq_true, decide_eq_true_eq] at durable
      exact durable.2
  · intro event mem id same
    rcases mem_durable_write mem with old | ⟨rfl, _⟩
    · exact used id (h.ids event old id same)
    · exact own id same
  · exact fun id same => used id (h.cursor id same)
  · intro n id mem
    have shape : (.event n (some id) ∈ s.inbox) ∨ sseEventId (writtenEvent s line fresh) = some id := by
      rw [inbox_write] at mem
      split_ifs at mem
      · rcases List.mem_append.mp mem with old | new
        · exact .inl old
        · have same := (Frame.event.inj (List.mem_singleton.mp new)).2
          split_ifs at same
          exact .inr same.symm
      · exact .inl mem
    rcases shape with old | new
    · exact used id (h.frames n id old)
    · exact own id (Option.eq_some_of_filter_eq_some new)
  · intro k mem
    refine h.lists k ?_
    rw [queue_write] at mem
    split_ifs at mem
    · rcases List.mem_append.mp mem with old | new
      · exact old
      · cases List.mem_singleton.mp new
    · exact mem
  · intro offline
    obtain ⟨safe, empty⟩ := h.offline offline
    refine ⟨safe.write h h.cursor permitted, ?_⟩
    rw [inbox_write, show s.connection = none from offline]
    exact empty
  · intro connection online
    obtain ⟨known, cursor, owes⟩ := h.online connection online
    refine ⟨known, fun id same => used id (cursor id same), ?_⟩
    have live : s.connection.isSome = true := by
      rw [show s.connection = some connection from online]
      rfl
    have now : s.written ∈ (runnerWrite s line fresh).sent := by
      have split : (runnerWrite s line fresh).sent = s.written :: s.sent := if_pos live
      rw [split]
      exact List.mem_cons_self
    have delivered : ∀ event ∈ (runnerWrite s line fresh).durable, event ∈ s.durable ∨
        event.number ∈ (runnerWrite s line fresh).sent := by
      intro event mem
      rcases mem_durable_write mem with old | ⟨rfl, _⟩
      · exact .inl old
      · exact .inr now
    cases phase : connection.phase with
    | listing =>
      rw [phase] at owes
      refine ⟨owes.1.write h cursor permitted, ?_⟩
      intro before after split event mem
      rw [queue_write] at split
      split_ifs at split
      · obtain ⟨rest, rfl, queue⟩ := snoc_eq_split split (fun absurd => nomatch absurd)
        rcases List.mem_append.mp mem with old | new
        · exact sent _ (owes.2 before rest queue event old)
        · rw [StoreOp.append.inj (List.mem_singleton.mp new)]
          exact now
      · exact sent _ (owes.2 before after split event mem)
    | listed stored =>
      rw [phase] at owes
      refine ⟨?_, fun event mem id same => used id (owes.2 event mem id same)⟩
      intro event mem
      rcases delivered event mem with old | done
      · exact (owes.1 event old).imp_left (sent _)
      · exact .inl done
    | live =>
      rw [phase] at owes
      intro event mem
      rcases delivered event mem with old | done
      · exact sent _ (owes event old)
      · exact done
    | failed => trivial
  · intro mem
    refine h.done ?_
    rw [inbox_write] at mem
    split_ifs at mem
    · rcases List.mem_append.mp mem with old | new
      · exact old
      · cases List.mem_singleton.mp new
    · exact mem

variable {rest : List StoreOp}

theorem durable_pop {op : StoreOp} (queue : s.queue = op :: rest) :
    s.durable = s.stored.map Row.event ++ (op.appended.toList ++ rest.filterMap StoreOp.appended) := by
  unfold State.durable
  rw [queue, List.filterMap_cons]
  cases op.appended <;> rfl

theorem Inv.append (h : Inv s) (queue : s.queue = .append event :: rest) (ok : Bool) :
    Inv (runStoreOp s rest ok (.append event)) := by
  have shrinks : (runStoreOp s rest ok (.append event)).durable.Sublist s.durable := by
    rw [durable_pop queue, ← List.append_assoc]
    refine List.Sublist.append ?_ (List.Sublist.refl _)
    cases ok with
    | true => exact append_sublist s.stored event runnerBufferMax
    | false => exact List.sublist_append_left _ _
  have durable : ∀ e ∈ (runStoreOp s rest ok (.append event)).durable, e ∈ s.durable :=
    fun e mem => shrinks.subset mem
  refine ⟨h.sorted.sublist shrinks, fun e mem => h.written e (durable e mem),
    fun e mem => h.bytes e (durable e mem), fun e mem => h.ids e (durable e mem), h.cursor, h.frames,
    ?_, ?_, ?_, h.done, h.lossless⟩
  · intro k mem
    refine h.lists k ?_
    rw [queue]
    exact List.mem_cons_of_mem _ mem
  · exact fun offline => ⟨(h.offline offline).1.mono durable fun _ hn => hn, (h.offline offline).2⟩
  · intro connection online
    obtain ⟨known, cursor, owes⟩ := h.online connection online
    exact ⟨known, cursor, owes.mono durable (fun _ hn => hn) (fun _ hid => hid) ⟨[_], queue⟩⟩

theorem Inv.list (h : Inv s) {k : Nat} (queue : s.queue = .list k :: rest) (ok : Bool) :
    Inv (runStoreOp s rest ok (.list k)) := by
  have same : (runStoreOp s rest ok (.list k)).durable = s.durable := by
    rw [durable_pop queue]
    rfl
  have popped : ∀ op ∈ rest, op ∈ s.queue := by
    intro op mem
    rw [queue]
    exact List.mem_cons_of_mem _ mem
  refine ⟨same ▸ h.sorted, same ▸ h.written, same ▸ h.bytes, same ▸ h.ids, h.cursor, h.frames,
    fun k mem => h.lists k (popped _ mem), ?_, ?_, ?_, h.lossless⟩
  · intro offline
    have before : s.connection = none := Option.map_eq_none_iff.mp offline
    obtain ⟨safe, empty⟩ := h.offline before
    exact ⟨safe.mono (fun e mem => same ▸ mem) fun _ hn => hn, empty⟩
  · intro connection online
    obtain ⟨before, hbefore, rfl⟩ := Option.map_eq_some_iff.mp online
    obtain ⟨known, cursor, owes⟩ := h.online before hbefore
    by_cases answered : before.id = k ∧ before.phase = .listing
    · rw [if_pos answered]
      obtain ⟨rfl, listing⟩ := answered
      refine ⟨known, cursor, ?_⟩
      cases ok with
      | false => trivial
      | true =>
        rw [listing] at owes
        have whole : EventReplay.list s.stored runnerEventMaxBytes = s.stored.map Row.event := by
          refine List.filter_eq_self.mpr fun e mem => ?_
          exact decide_eq_true (h.bytes e (List.mem_append_left _ mem))
        have stored : ∀ e ∈ s.stored.map Row.event, e ∈ s.durable :=
          fun e mem => List.mem_append_left _ mem
        have sorted : (s.stored.map Row.event).Pairwise fun a b => a.number < b.number :=
          h.sorted.sublist (List.sublist_append_left _ _)
        refine ⟨fun e mem => ?_, fun e mem => ?_⟩
        · rw [same, durable_pop queue] at mem
          rw [whole]
          rcases List.mem_append.mp mem with inside | waiting
          · rcases @mem_afterCursor (normalizeLastEventId before.cursor) _ _ sorted inside with
              after | ⟨id, own, last, mem', named, less⟩
            · exact .inr after
            · exact .inl (owes.1 id (normalizeLastEventId_eq own) last (stored last mem') named e
                (stored e inside) less)
          · obtain ⟨op, hop, appended⟩ := List.mem_filterMap.mp waiting
            cases op with
            | list _ => cases appended
            | append event =>
              obtain rfl := Option.some.inj appended
              exact .inl (owes.2 [] rest queue event hop)
        · rw [whole] at mem
          exact h.ids e (stored e mem)
    · rw [if_neg answered]
      exact ⟨known, cursor, owes.mono (fun e mem => same ▸ mem) (fun _ hn => hn) (fun _ hid => hid) ⟨[_], queue⟩⟩
  · intro mem
    obtain ⟨connection, online, live⟩ := h.done mem
    refine ⟨connection, ?_, live⟩
    simp only [runStoreOp, online, Option.map_some]
    rw [if_neg]
    rintro ⟨_, listing⟩
    rw [live] at listing
    cases listing

theorem Inv.connect (h : Inv s) (offline : s.connection = none) : Inv (openConnection s) := by
  obtain ⟨safe, _⟩ := h.offline offline
  have same : (openConnection s).durable = s.durable := by
    unfold State.durable openConnection
    simp [StoreOp.appended]
  have fresh : .list s.nextConnection ∉ s.queue := fun mem => Nat.lt_irrefl _ (h.lists _ mem)
  refine ⟨same ▸ h.sorted, same ▸ h.written, same ▸ h.bytes, same ▸ h.ids, h.cursor,
    (fun _ _ absurd => nomatch absurd), ?_, (fun absurd => nomatch absurd), ?_,
    (fun absurd => nomatch absurd), h.lossless⟩
  · intro k mem
    rcases List.mem_append.mp mem with old | new
    · exact Nat.lt_succ_of_lt (h.lists k old)
    · rw [StoreOp.list.inj (List.mem_singleton.mp new)]
      exact Nat.lt_succ_self _
  · intro connection online
    cases online
    refine ⟨Nat.lt_succ_self _, fun id own => h.cursor id (normalizeLastEventId_eq own), ?_, ?_⟩
    · intro id own e mem named earlier before less
      rw [same] at mem before
      exact safe id (normalizeLastEventId_eq own) e mem named earlier before less
    · intro before after split event mem
      rcases List.eq_nil_or_concat after with rfl | ⟨front, last, rfl⟩
      · cases mem
      · have split : s.queue ++ [.list s.nextConnection] = before ++ .list s.nextConnection :: (front ++ [last]) := by
          rw [List.concat_eq_append] at split
          exact split
        rw [← List.cons_append, ← List.append_assoc] at split
        have inside := (List.append_inj' split rfl).1
        refine absurd ?_ fresh
        rw [inside]
        exact List.mem_append_right _ List.mem_cons_self

theorem Inv.drop (h : Inv s) (permitted : (∀ connection, s.connection = some connection → connection.phase ≠ .live) →
      CursorSafe s s.lastEventId) : Inv { s with connection := none, inbox := [] } := by
  refine ⟨h.sorted, h.written, h.bytes, h.ids, h.cursor, (fun _ _ absurd => nomatch absurd), h.lists,
    fun _ => ⟨?_, rfl⟩, (fun _ absurd => nomatch absurd), (fun absurd => nomatch absurd), h.lossless⟩
  by_cases live : ∃ connection, s.connection = some connection ∧ connection.phase = .live
  · obtain ⟨connection, online, live⟩ := live
    have owes := (h.online connection online).2.2
    rw [live] at owes
    exact fun _ _ _ _ _ earlier before _ => owes earlier before
  · exact permitted fun connection online isLive => live ⟨connection, online, isLive⟩

theorem Inv.process (h : Inv s) {frame : Frame} {rest : List Frame} (inbox : s.inbox = frame :: rest) :
    Inv (processFrame s rest frame) := by
  have later : ∀ f ∈ rest, f ∈ s.inbox := by
    intro f mem
    rw [inbox]
    exact List.mem_cons_of_mem _ mem
  have busy : s.connection ≠ none := by
    intro offline
    rw [(h.offline offline).2] at inbox
    cases inbox
  cases frame with
  | event n id =>
    refine ⟨h.sorted, h.written, h.bytes, h.ids, ?_, fun n id mem => h.frames n id (later _ mem),
      h.lists, fun offline => absurd offline busy, h.online, fun mem => h.done (later _ mem), h.lossless⟩
    intro id' same
    cases id with
    | none => exact h.cursor id' same
    | some own =>
      obtain rfl := Option.some.inj same
      refine h.frames n own ?_
      rw [inbox]
      exact List.mem_cons_self
  | replayDone =>
    refine ⟨h.sorted, h.written, h.bytes, h.ids, h.cursor, fun n id mem => h.frames n id (later _ mem),
      h.lists, fun offline => absurd offline busy, h.online, fun mem => h.done (later _ mem), ?_⟩
    obtain ⟨connection, online, live⟩ := h.done (by rw [inbox]; exact List.mem_cons_self)
    have owes := (h.online connection online).2.2
    rw [live] at owes
    intro n mem
    obtain ⟨row, stored, rfl⟩ := List.mem_map.mp mem
    exact owes row.event (List.mem_append_left _ (List.mem_map_of_mem stored))

theorem Inv.replay (h : Inv s) {id : Nat} (online : s.connection = some ⟨id, cursor, .listed stored⟩)
    (permitted : ∀ event ∈ afterCursor (normalizeLastEventId cursor) stored, event ∈ s.durable →
      stillWanted s.pendingExtensionUiRequestIds event = false → event.number ∈ s.sent) :
    Inv (writeReplay s ⟨id, cursor, .listed stored⟩ stored) := by
  obtain ⟨known, used, owes, ids⟩ := h.online _ online
  refine ⟨h.sorted, h.written, h.bytes, h.ids, h.cursor, ?_, h.lists, (fun absurd => nomatch absurd),
    ?_, fun _ => ⟨_, rfl, rfl⟩, fun n hn => List.mem_append_right _ (h.lossless n hn)⟩
  · intro n own mem
    rcases List.mem_append.mp mem with front | done
    · rcases List.mem_append.mp front with old | new
      · exact h.frames n own old
      · obtain ⟨event, replayed, same⟩ := List.mem_map.mp new
        have named := Option.eq_some_of_filter_eq_some (Frame.event.inj same).2
        exact ids event (afterCursor_subset (List.mem_filter.mp replayed).1) own named
    · cases List.mem_singleton.mp done
  · intro connection same
    cases same
    refine ⟨known, used, fun event mem => ?_⟩
    rcases owes event mem with sent | after
    · exact List.mem_append_right _ sent
    · cases wanted : stillWanted s.pendingExtensionUiRequestIds event with
      | true =>
        refine List.mem_append_left _ (List.mem_map_of_mem ?_)
        exact List.mem_filter.mpr ⟨after, wanted⟩
      | false => exact List.mem_append_right _ (permitted event after mem wanted)

theorem step_inv (s : State) (a : Action) (t : State) (h : Inv s) (permitted : Permitted s a)
    (hstep : step s a = some t) : Inv t := by
  cases a with
  | write line fresh =>
    simp only [step] at hstep
    split_ifs at hstep
    cases hstep
    exact h.write permitted
  | store ok =>
    simp only [step] at hstep
    split at hstep
    · cases hstep
    · rename_i op rest queue
      cases hstep
      cases op with
      | append event => exact h.append queue ok
      | list k => exact h.list queue ok
  | replay =>
    simp only [step] at hstep
    split at hstep
    · rename_i id cursor stored online
      cases hstep
      exact h.replay online (permitted id cursor stored online)
    · cases hstep
  | connect =>
    simp only [step] at hstep
    split_ifs at hstep with online
    cases hstep
    exact h.connect (by simpa using online)
  | drop =>
    simp only [step] at hstep
    split_ifs at hstep
    cases hstep
    exact h.drop permitted
  | process =>
    simp only [step] at hstep
    split at hstep
    · cases hstep
    · rename_i frame rest inbox
      cases hstep
      exact h.process inbox
  | setPending pending =>
    cases hstep
    refine ⟨h.sorted, h.written, h.bytes, h.ids, h.cursor, h.frames, h.lists, h.offline, ?_, h.done, h.lossless⟩
    intro connection online
    obtain ⟨known, used, owes⟩ := h.online connection online
    exact ⟨known, used, owes.mono (fun _ mem => mem) (fun _ hn => hn) (fun _ hid => hid) ⟨[], rfl⟩⟩

theorem replay_lossless (actions : List Action) (s : State) (run : Run step Permitted {} actions s) :
    Lossless s := by
  refine (run.invariant step_inv ⟨List.Pairwise.nil, ?_, ?_, ?_, ?_, ?_, ?_, ?_, ?_, ?_, ?_⟩).lossless
  · exact fun _ absurd => nomatch absurd
  · exact fun _ absurd => nomatch absurd
  · exact fun _ absurd => nomatch absurd
  · exact fun _ absurd => nomatch absurd
  · exact fun _ _ absurd => nomatch absurd
  · exact fun _ absurd => nomatch absurd
  · exact fun _ => ⟨fun _ absurd => (nomatch absurd), rfl⟩
  · exact fun _ absurd => nomatch absurd
  · exact fun absurd => nomatch absurd
  · exact fun _ absurd => nomatch absurd

/-- An event that is written before the client connects is replayed to it. -/
theorem replay_lossless_earlier :
    ∃ s, Run step Permitted {} [.write ⟨some (.other, none), 10⟩ "a", .connect, .store true,
        .store true, .replay, .process, .process] s ∧ s.received = [0] ∧ Lossless s := by
  have run : ∃ s, Run step Permitted {} [.write ⟨some (.other, none), 10⟩ "a", .connect, .store true,
      .store true, .replay, .process, .process] s ∧ s.received = [0] := by
    refine ⟨_, .cons (fun _ _ absurd => nomatch absurd) rfl (.cons trivial rfl (.cons trivial rfl
      (.cons trivial rfl (.cons ?_ rfl (.cons trivial rfl (.cons trivial rfl (.nil _))))))), rfl⟩
    intro id cursor stored online event after _ wanted
    obtain ⟨_, _, same⟩ := Connection.mk.inj (Option.some.inj online)
    cases same
    obtain rfl := List.mem_singleton.mp (afterCursor_subset after)
    cases wanted
  obtain ⟨s, run, received⟩ := run
  exact ⟨s, run, received, replay_lossless _ s run⟩

/-- A live event reaches the client before the replay, and the connection is lost:
the reconnect starts after an event that the client was never sent. -/
theorem live_event_before_replay_loses :
    ∃ s, exec step {} [.write ⟨some (.other, none), 10⟩ "a", .store true, .connect,
        .write ⟨some (.other, none), 10⟩ "b", .process, .drop, .store true, .store true, .connect,
        .store true, .replay, .process] = some s ∧ ¬Lossless s := by
  refine ⟨_, rfl, ?_⟩
  intro lossless
  exact absurd (lossless 0 (by decide)) (by decide)

end EventReplay
