import Mathlib.Data.List.Sort
import Oyster.HublotTunnels
import Oyster.OrderedMap
import Oyster.TransactionPrograms

/-! The rows of the hublots beside the log of their transitions. Every writer of a row is a
transaction of its own; what the code reads before it decides whether the transaction is run and
with what arguments, so that here each may be run at any time with any. -/
namespace HublotEvents
open HublotTunnels (Status Desired)
open TransactionPrograms

structure Row where
  owner_id : Option Nat
  port : Nat
  label : Option String
  workdir : String
  public_url : Option String := none
  status : Status
  desired_state : Desired
  created_at : String
  opened_at : Option String := none
  closed_at : Option String := none
  last_error : Option String := none

structure Event where
  hublot_id : String
  sequence : Nat
  status : Status
  desired_state : Desired
  public_url : Option String
  error : Option String
  created_at : String

structure Store where
  hublots : OrderedMap String Row := OrderedMap.empty
  events : List Event := []

/-- The port is one, and `hublots_active_port_idx` has it for no other hublot that is not closed. -/
def admits (hublots : OrderedMap String Row) (id : String) (row : Row) : Bool :=
  (1 ≤ row.port && row.port ≤ 65535) &&
    hublots.entries.all fun e => e.1 = id || row.status = .closed || e.2.status = .closed || e.2.port ≠ row.port

def find (id : String) : Program Store (Option Row) := read fun s => s.hublots.get id

def create (id : String) (row : Row) : Program Store (Option Row) := do
  write fun s =>
    if !s.hublots.has id && admits s.hublots id row then some { s with hublots := s.hublots.set id row } else none
  find id

/-- The columns that an update names. -/
structure Changes where
  owner_id : Option (Option Nat) := none
  status : Option Status := none
  desired_state : Option Desired := none
  public_url : Option (Option String) := none
  last_error : Option (Option String) := none
  opened_at : Option (Option String) := none
  closed_at : Option (Option String) := none

def Changes.apply (changes : Changes) (row : Row) : Row :=
  { row with
    owner_id := changes.owner_id.getD row.owner_id
    status := changes.status.getD row.status
    desired_state := changes.desired_state.getD row.desired_state
    public_url := changes.public_url.getD row.public_url
    last_error := changes.last_error.getD row.last_error
    opened_at := changes.opened_at.getD row.opened_at
    closed_at := changes.closed_at.getD row.closed_at }

def update (id : String) (changes : Changes) : Program Store Unit := write fun s =>
  match s.hublots.get id with
  | none => some s
  | some row =>
    if admits s.hublots id (changes.apply row) then
      some { s with hublots := s.hublots.set id (changes.apply row) }
    else none

def Store.eventsOf (s : Store) (id : String) : List Event := s.events.filter fun e => e.hublot_id = id

/-- `COALESCE(MAX(sequence), 0) + 1` -/
def Store.nextSequence (s : Store) (id : String) : Nat := ((s.eventsOf id).map Event.sequence).foldl max 0 + 1

def appendLifecycleEvent (hublotId : String) (status : Status) (desiredState : Desired) (publicUrl error : Option String)
    (createdAt : String) : Program Store Nat := statement fun s =>
  if s.hublots.has hublotId then
    some (s.nextSequence hublotId, { s with
      events := s.events ++ [⟨hublotId, s.nextSequence hublotId, status, desiredState, publicUrl, error, createdAt⟩] })
  else none

def Store.listLifecycleEvents (s : Store) (id : String) : List Event :=
  (s.eventsOf id).insertionSort fun a b => a.sequence ≤ b.sequence

def deleteSession (ownerId : Nat) : Program Store Unit := write fun s =>
  some
    { hublots := s.hublots.filter fun e => e.2.owner_id ≠ some ownerId
      events := s.events.filter fun e => (s.hublots.get e.hublot_id).any fun row => row.owner_id ≠ some ownerId }

/-- `UPDATE hublots SET owner_id = ? WHERE owner_id = ?` -/
def moveOwner (source target : Nat) : Program Store Unit := write fun s =>
  some { s with hublots := s.hublots.mapValues fun row =>
    if row.owner_id = some source then { row with owner_id := some target } else row }

/-- What a transition says beside the status; what it leaves out stays. -/
structure Transition where
  desiredState : Option Desired := none
  publicUrl : Option (Option String) := none
  lastError : Option (Option String) := none
  openedAt : Option (Option String) := none
  closedAt : Option (Option String) := none
  recordedAt : String

def recordHublotTransition (id : String) (status : Status) (t : Transition) : Program Store (Option Row) := do
  match ← find id with
  | none => failure
  | some current =>
    let desired := t.desiredState.getD current.desired_state
    update id
      { status := some status, desired_state := some desired, public_url := t.publicUrl, last_error := t.lastError
        opened_at := t.openedAt, closed_at := t.closedAt }
    let _ ← appendLifecycleEvent id status desired (t.publicUrl.getD current.public_url)
      (t.lastError.getD current.last_error) t.recordedAt
    find id

def rebindHublot (id : String) (ownerId : Option Nat) : Program Store (Option Row) := do
  match ← find id with
  | none => failure
  | some _ =>
    update id { owner_id := some ownerId }
    find id

def reserveHublot (id : String) (port : Nat) (label : Option String) (ownerId : Option Nat)
    (currentDir createdAt : String) : Program Store (Option Row) := do
  let _ ← create id
    { owner_id := ownerId, port, label, workdir := currentDir, status := .opening, desired_state := .opened
      created_at := createdAt }
  let _ ← appendLifecycleEvent id .opening .opened none none createdAt
  find id

/-- The calls that change a hublot, with what each says of its transition. -/
inductive Operation where
  | reserve (id : String) (port : Nat) (label : Option String) (ownerId : Option Nat) (currentDir createdAt : String)
  /-- The public url of the tunnel answers. -/
  | opened (id url openedAt : String)
  /-- `failOpeningHublot`, and the `catch` of the route. -/
  | failed (id message recordedAt : String)
  /-- The exit handler of the tunnel, which has read `current`. -/
  | exited (id : String) (current : Desired) (code signal closedAt : String)
  | reopen (id recordedAt : String)
  /-- The first transition of `closeTunnel` and of `closeSessionHublots`. -/
  | closing (id recordedAt : String)
  /-- `closeTunnel` where no tunnel process has a handle. -/
  | closed (id closedAt : String)
  | rebind (id : String) (ownerId : Option Nat)
  /-- The supervisor has found no tunnel process alive. -/
  | lost (id observedAt : String)
  /-- The two transitions of `shutdownHublots`; the second has read `lastError`. -/
  | stopping (id recordedAt : String)
  | stopped (id : String) (remaining : Bool) (lastError : Option String) (stoppedAt : String)
  | sessionClosed (id stoppedAt : String)
  | deleteSession (ownerId : Nat)
  /-- The records of one session become another's. -/
  | moveOwner (source target : Nat)

def identityLost : String := "hublot process identity was lost; it is not automatically restarted"

def serverStopped : String := "server stopped; ephemeral cloudflared tunnels are not recreated automatically"

def Operation.program : Operation → Program Store (Option Row)
  | .reserve id port label ownerId currentDir createdAt => reserveHublot id port label ownerId currentDir createdAt
  | .opened id url openedAt => recordHublotTransition id .opened
      { desiredState := some .opened, publicUrl := some (some url), lastError := some none
        openedAt := some (some openedAt), recordedAt := openedAt }
  | .failed id message recordedAt => recordHublotTransition id .failed
      { publicUrl := some none, lastError := some (some message), recordedAt }
  | .exited id current code signal closedAt =>
    let manuallyClosed := current = .closed
    recordHublotTransition id (if manuallyClosed then .closed else .interrupted)
      { desiredState := some current, publicUrl := some none, closedAt := some (some closedAt)
        lastError := some (if manuallyClosed then none else some ("tunnel exited (code=" ++ code ++ ", signal=" ++ signal ++ ")"))
        recordedAt := closedAt }
  | .reopen id recordedAt => recordHublotTransition id .opening
      { desiredState := some .opened, publicUrl := some none, lastError := some none, closedAt := some none, recordedAt }
  | .closing id recordedAt => recordHublotTransition id .closing
      { desiredState := some .closed, publicUrl := some none, lastError := some none, recordedAt }
  | .closed id closedAt => recordHublotTransition id .closed
      { desiredState := some .closed, publicUrl := some none, closedAt := some (some closedAt), recordedAt := closedAt }
  | .rebind id ownerId => rebindHublot id ownerId
  | .lost id observedAt => recordHublotTransition id .closed
      { desiredState := some .closed, publicUrl := some none, lastError := some (some identityLost)
        closedAt := some (some observedAt), recordedAt := observedAt }
  | .stopping id recordedAt => recordHublotTransition id .closing
      { desiredState := some .closed, publicUrl := some none, lastError := some (some serverStopped), recordedAt }
  | .stopped id remaining lastError stoppedAt => recordHublotTransition id (if remaining then .interrupted else .closed)
      { desiredState := some .closed, publicUrl := some none, lastError := some lastError
        closedAt := some (some stoppedAt), recordedAt := stoppedAt }
  | .sessionClosed id stoppedAt => recordHublotTransition id .closed
      { desiredState := some .closed, publicUrl := some none, lastError := some none
        closedAt := some (some stoppedAt), recordedAt := stoppedAt }
  | .deleteSession ownerId => do
      HublotEvents.deleteSession ownerId
      return none
  | .moveOwner source target => do
      HublotEvents.moveOwner source target
      return none

def run (calls : List (Operation × Nat)) : Store := calls.foldl (fun s call => after call.1.program call.2 s) {}

/-- The events of the row's hublot are numbered from 1, and the last of them says what the row does. -/
structure Mirrored (events : List Event) (row : Row) : Prop where
  numbered : events.map Event.sequence = List.range' 1 events.length
  latest : ∃ event, events.getLast? = some event ∧ event.status = row.status ∧
    event.desired_state = row.desired_state ∧ event.public_url = row.public_url ∧ event.error = row.last_error

structure Mirrors (s : Store) : Prop where
  owned : ∀ e ∈ s.events, s.hublots.has e.hublot_id = true
  rows : ∀ id row, (id, row) ∈ s.hublots → Mirrored (s.eventsOf id) row

/-- What holds between the two statements of a transition: the row is as the event will say. -/
structure Pending (id : String) (status : Status) (desired : Desired) (publicUrl error : Option String) (s : Store) :
    Prop where
  owned : ∀ e ∈ s.events, s.hublots.has e.hublot_id = true
  others : ∀ other row, other ≠ id → (other, row) ∈ s.hublots → Mirrored (s.eventsOf other) row
  numbered : (s.eventsOf id).map Event.sequence = List.range' 1 (s.eventsOf id).length
  row : ∀ row, (id, row) ∈ s.hublots → row.status = status ∧ row.desired_state = desired ∧
    row.public_url = publicUrl ∧ row.last_error = error

theorem foldl_max_range' (n : Nat) : (List.range' 1 n).foldl max 0 = n := by
  induction n with
  | zero => rfl
  | succ n ih =>
    rw [List.range'_concat, List.foldl_append, ih]
    simp only [List.foldl_cons, List.foldl_nil]
    omega

variable {s : Store} {id : String}

theorem nextSequence_of_numbered
    (numbered : (s.eventsOf id).map Event.sequence = List.range' 1 (s.eventsOf id).length) :
    s.nextSequence id = (s.eventsOf id).length + 1 := by
  rw [Store.nextSequence, numbered, foldl_max_range']

theorem eventsOf_append (s : Store) (e : Event) (id : String) :
    ({ s with events := s.events ++ [e] } : Store).eventsOf id =
      s.eventsOf id ++ if e.hublot_id = id then [e] else [] := by
  unfold Store.eventsOf
  by_cases same : e.hublot_id = id <;> simp [same]

theorem appendLifecycleEvent_mirrors {status : Status} {desired : Desired} {publicUrl error : Option String}
    {createdAt : String} : Ensures (Pending id status desired publicUrl error)
      (appendLifecycleEvent id status desired publicUrl error createdAt) fun _ => Mirrors := by
  refine Ensures.statement ?_
  intro s sequence s' pending step
  obtain ⟨present, same⟩ := Option.ite_none_right_eq_some.mp step
  cases same
  refine ⟨?_, ?_⟩
  · intro e mem
    cases List.mem_append.mp mem with
    | inl old => exact pending.owned e old
    | inr new =>
      obtain rfl := List.mem_singleton.mp new
      exact present
  · intro other row mem
    rw [eventsOf_append]
    by_cases own : id = other
    · subst own
      obtain ⟨status, desired, url, error⟩ := pending.row row mem
      rw [if_pos rfl]
      refine ⟨?_, _, List.getLast?_concat, status.symm, desired.symm, url.symm, error.symm⟩
      rw [List.map_append, pending.numbered, List.length_append, List.length_singleton, List.range'_concat,
        List.map_singleton, nextSequence_of_numbered pending.numbered, Nat.one_mul, Nat.add_comm 1]
    · rw [if_neg own, List.append_nil]
      exact pending.others other row (Ne.symm own) mem

variable {row : Row}

theorem has_set {other : String} (h : s.hublots.has other = true) : (s.hublots.set id row).has other = true := by
  obtain ⟨old, mem⟩ := OrderedMap.has_iff.mp h
  by_cases same : other = id
  · exact OrderedMap.has_iff.mpr ⟨row, OrderedMap.mem_set.mpr (.inl ⟨same, rfl⟩)⟩
  · exact OrderedMap.has_iff.mpr ⟨old, OrderedMap.mem_set.mpr (.inr ⟨same, mem⟩)⟩

theorem Mirrors.set_pending (h : Mirrors s) (row : Row)
    (numbered : (s.eventsOf id).map Event.sequence = List.range' 1 (s.eventsOf id).length) :
    Pending id row.status row.desired_state row.public_url row.last_error
      { s with hublots := s.hublots.set id row } := by
  refine ⟨fun e mem => has_set (h.owned e mem), ?_, numbered, ?_⟩
  · intro other row' ne mem
    cases OrderedMap.mem_set.mp mem with
    | inl same => exact absurd same.1 ne
    | inr old => exact h.rows other row' old.2
  · intro row' mem
    cases OrderedMap.mem_set.mp mem with
    | inl same =>
      obtain ⟨_, rfl⟩ := same
      exact ⟨rfl, rfl, rfl, rfl⟩
    | inr old => exact absurd rfl old.1

theorem Mirrors.set (h : Mirrors s) (mirrored : Mirrored (s.eventsOf id) row) :
    Mirrors { s with hublots := s.hublots.set id row } := by
  refine ⟨fun e mem => has_set (h.owned e mem), ?_⟩
  intro other row' mem
  cases OrderedMap.mem_set.mp mem with
  | inl same =>
    obtain ⟨rfl, rfl⟩ := same
    exact mirrored
  | inr old => exact h.rows other row' old.2

theorem Mirrors.eventsOf_absent (h : Mirrors s) (absent : s.hublots.has id = false) : s.eventsOf id = [] := by
  refine List.filter_eq_nil_iff.mpr fun e mem same => ?_
  have present := h.owned e mem
  rw [of_decide_eq_true same, absent] at present
  cases present

theorem find_spec {P : Store → Prop} (id : String) :
    Ensures P (find id) fun found s => P s ∧ s.hublots.get id = found :=
  Ensures.read fun _ holds => ⟨holds, rfl⟩

theorem update_spec {changes : Changes} {current : Row} {Q : Store → Prop}
    (written : ∀ s, Mirrors s → Mirrored (s.eventsOf id) current →
      Q { s with hublots := s.hublots.set id (changes.apply current) }) :
    Ensures (fun s => Mirrors s ∧ s.hublots.get id = some current) (update id changes) fun _ => Q := by
  refine Ensures.write ?_
  intro s s' ⟨mirrors, known⟩ step
  rw [known] at step
  obtain ⟨_, same⟩ := Option.ite_none_right_eq_some.mp step
  cases same
  exact written s mirrors (mirrors.rows id current (OrderedMap.mem_of_get known))

theorem find_keeps (id : String) : Ensures Mirrors (find id) fun _ => Mirrors := Ensures.read fun _ holds => holds

theorem recordHublotTransition_keeps (id : String) (status : Status) (t : Transition) :
    Ensures Mirrors (recordHublotTransition id status t) fun _ => Mirrors := by
  refine (find_spec id).bind fun found => ?_
  cases found with
  | none => exact Ensures.failure
  | some current =>
    refine Ensures.bind (update_spec fun s mirrors mirrored => mirrors.set_pending _ mirrored.numbered) fun _ => ?_
    exact appendLifecycleEvent_mirrors.bind fun _ => find_keeps id

theorem rebindHublot_keeps (id : String) (ownerId : Option Nat) :
    Ensures Mirrors (rebindHublot id ownerId) fun _ => Mirrors := by
  refine (find_spec id).bind fun found => ?_
  cases found with
  | none => exact Ensures.failure
  | some current =>
    refine Ensures.bind (update_spec fun s mirrors mirrored => ?_) fun _ => find_keeps id
    exact mirrors.set ⟨mirrored.numbered, mirrored.latest⟩

theorem reserveHublot_keeps (id : String) (port : Nat) (label : Option String) (ownerId : Option Nat)
    (currentDir createdAt : String) :
    Ensures Mirrors (reserveHublot id port label ownerId currentDir createdAt) fun _ => Mirrors := by
  have created : ∀ row : Row, Ensures Mirrors (create id row) fun _ =>
      Pending id row.status row.desired_state row.public_url row.last_error := by
    intro row
    refine Ensures.bind (Ensures.write fun s s' mirrors step => ?_) fun _ => Ensures.read fun _ holds => holds
    obtain ⟨ok, same⟩ := Option.ite_none_right_eq_some.mp step
    cases same
    obtain ⟨absent, _⟩ := (Bool.and_eq_true _ _).mp ok
    refine mirrors.set_pending row ?_
    rw [mirrors.eventsOf_absent (Bool.not_eq_true' _ ▸ absent)]
    rfl
  refine (created _).bind fun _ => ?_
  exact appendLifecycleEvent_mirrors.bind fun _ => find_keeps id

theorem moveOwner_keeps (source target : Nat) : Ensures Mirrors (moveOwner source target) fun _ => Mirrors := by
  refine Ensures.write fun s s' mirrors step => ?_
  cases step
  refine ⟨fun e mem => ?_, ?_⟩
  · obtain ⟨row, inside⟩ := OrderedMap.has_iff.mp (mirrors.owned e mem)
    exact OrderedMap.has_iff.mpr ⟨_, OrderedMap.mem_mapValues.mpr ⟨row, inside, rfl⟩⟩
  · intro id row' mem
    obtain ⟨row, inside, rfl⟩ := OrderedMap.mem_mapValues.mp mem
    have mirrored := mirrors.rows id row inside
    split
    · exact ⟨mirrored.numbered, mirrored.latest⟩
    · exact mirrored

theorem deleteSession_keeps (ownerId : Nat) : Ensures Mirrors (deleteSession ownerId) fun _ => Mirrors := by
  refine Ensures.write fun s s' mirrors step => ?_
  cases step
  refine ⟨?_, ?_⟩
  · intro e mem
    obtain ⟨_, keeps⟩ := List.mem_filter.mp mem
    obtain ⟨row, found, other⟩ := (Option.any_eq_true _ _).mp keeps
    exact OrderedMap.has_iff.mpr ⟨row, OrderedMap.mem_filter.mpr ⟨OrderedMap.mem_of_get found, other⟩⟩
  · intro id row mem
    obtain ⟨inside, other⟩ := OrderedMap.mem_filter.mp mem
    have same : ({ hublots := s.hublots.filter fun e => e.2.owner_id ≠ some ownerId
                   events := s.events.filter fun e => (s.hublots.get e.hublot_id).any fun row =>
                     row.owner_id ≠ some ownerId } : Store).eventsOf id = s.eventsOf id := by
      unfold Store.eventsOf
      rw [List.filter_filter]
      refine List.filter_congr fun e _ => ?_
      by_cases own : e.hublot_id = id
      · rw [own, OrderedMap.get_eq_some_iff.mpr inside]
        simpa using other
      · simp [own]
    rw [same]
    exact mirrors.rows id row inside

theorem Operation.keeps (operation : Operation) : Ensures Mirrors operation.program fun _ => Mirrors := by
  cases operation with
  | reserve id port label ownerId currentDir createdAt => exact reserveHublot_keeps _ _ _ _ _ _
  | rebind id ownerId => exact rebindHublot_keeps id ownerId
  | deleteSession ownerId => exact (deleteSession_keeps ownerId).bind fun _ => Ensures.pure fun _ holds => holds
  | moveOwner source target => exact (moveOwner_keeps source target).bind fun _ => Ensures.pure fun _ holds => holds
  | opened | failed | exited | reopen | closing | closed | lost | stopping | stopped | sessionClosed =>
    exact recordHublotTransition_keeps _ _ _

def Logged (s : Store) : Prop := ∀ id row, (id, row) ∈ s.hublots → Mirrored (s.listLifecycleEvents id) row

theorem Mirrors.logged (h : Mirrors s) : Logged s := by
  intro id row present
  have mirrored := h.rows id row present
  have rising : ((s.eventsOf id).map Event.sequence).Pairwise (· ≤ ·) :=
    mirrored.numbered ▸ List.pairwise_le_range' ..
  rw [Store.listLifecycleEvents, List.Pairwise.insertionSort_eq (List.pairwise_map.mp rising)]
  exact mirrored

/-- After any calls, wherever they have failed, the latest event of every hublot says what its
row does, and its events are numbered from 1 without gaps. -/
theorem run_logged (calls : List (Operation × Nat)) : Logged (run calls) := by
  have empty : Mirrors {} := ⟨fun _ absurd => (nomatch absurd), fun _ _ absurd => (nomatch absurd)⟩
  exact (foldl_after Operation.keeps calls empty).logged

/-- The second call fails at the event, so that its update is rolled back. -/
example : (((run [(.reserve "h" 80 none none "/" "t0", 9), (.opened "h" "u" "t1", 3), (.failed "h" "e" "t2", 9)]).hublots.get
      "h").map fun row => (row.status, row.last_error)) = some (.failed, some "e") ∧
    ((run [(.reserve "h" 80 none none "/" "t0", 9), (.opened "h" "u" "t1", 3),
      (.failed "h" "e" "t2", 9)]).listLifecycleEvents "h").map Event.sequence = [1, 2] := by
  decide +kernel

end HublotEvents
