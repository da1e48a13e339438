import Oyster.BoxRegistry

/-! Which sockets the table of connections holds. The entry of a socket is taken out by its close
handler, which knows it only when `authenticate` has returned. -/
namespace BoxRegistry
open Interleaving

section
variable {η : Type}

def State.isOpen (s : State η) (k : Nat) : Prop := ∃ socket, s.sockets k = some socket ∧ socket.closed = false

/-- No entry is left of a socket whose close handler has run. -/
def Tracks (s : State η) : Prop := ∀ key c, s.connections key = some c → s.isOpen c.socket

def Action.handles : Action η → Option Nat
  | .firstMessage k _ | .afterLoad k | .attested k _ _ | .persisted k _ | .message k _ _ => some k
  | _ => none

def State.recorded (s : State η) (key : Key) : Option (Status × Option Observed × Option Nat) :=
  (s.record key).map fun record => (record.status, record.observed, record.lastSeenAt)

def State.registered (s : State η) (key : Key) (k : Nat) : Prop :=
  ∃ c, s.connections key = some c ∧ c.socket = k

variable [DecidableEq η] (hashCredential : Nat → η)

/-- What is connected and dialled is open; a frame changes what is recorded of a generation only
if its connection is then registered for it, as it was before unless the frame was the hello; a
close handler only if its connection was. -/
structure LivenessLaw (s : State η) : Prop where
  tracks : Tracks s
  dialled : ∀ key port room c, dial s key port room = .ok c → s.isOpen c.socket
  frames : ∀ a k t, a.handles = some k → step hashCredential s a = some t →
    ∀ key, t.recorded key ≠ s.recorded key → t.registered key k
  messages : ∀ k frame now t, step hashCredential s (.message k frame now) = some t →
    ∀ key, t.recorded key ≠ s.recorded key → s.registered key k
  closes : ∀ k t, step hashCredential s (.closed k) = some t →
    ∀ key, t.recorded key ≠ s.recorded key → s.registered key k

def Installs (s : State η) (hello : Hello) (o now : Nat) : Prop :=
  ∃ record accepted, s.objects o = some record ∧
    presentCredential hashCredential record hello.auth now s.nextSecret = .ok accepted

/-- The condition: a socket is not closed before its connection is installed, nor between that
and the return of `authenticate`; nor is it after a failure of its persistence, unless the
connection has been replaced or revoked before. -/
def Tracked (s : State η) : Action η → Prop
  | .attested k verified now => ∀ hello o, s.sockets k = some ⟨.attesting hello o, true⟩ →
      verified = true → ¬Installs hashCredential s hello o now
  | .closed k => ∀ socket, s.sockets k = some socket →
      (∃ key o epoch, socket.phase = .authenticated key o epoch) ∨ ∀ key, ¬s.registered key k
  | _ => True

end

/-! ### Which phase an entry belongs to -/

def Phase.installed : Phase → Option (Key × Nat)
  | .persisting key _ epoch _ => some (key, epoch)
  | .authenticated key _ epoch => some (key, epoch)
  | _ => none

def Phase.Owns (phase : Phase) (key : Key) (epoch : Nat) : Prop :=
  phase.installed = some (key, epoch) ∨ ∃ error, phase = .rejected error

def Phase.holds : Phase → Option (Key × Nat)
  | .attesting hello o => some (hello.key, o)
  | .persisting key o _ _ => some (key, o)
  | .authenticated key o _ => some (key, o)
  | _ => none

structure Owned {η : Type} (s : State η) : Prop where
  socket : ∀ key c, s.connections key = some c →
    ∃ socket, s.sockets c.socket = some socket ∧ socket.phase.Owns key c.connectionEpoch
  identified : ∀ k socket key epoch, s.sockets k = some socket → socket.phase.installed = some (key, epoch) →
    epoch < s.nextEpoch ∧ ∀ c, s.connections key = some c → c.connectionEpoch = epoch → c.socket = k
  epochs : ∀ key c, s.connections key = some c → c.connectionEpoch < s.nextEpoch
  bounded : ∀ k socket, s.sockets k = some socket → k < s.nextSocket

structure Keyed {η : Type} (s : State η) : Prop where
  records : ∀ key o, s.records.get key = some o → ∃ record, s.objects o = some record ∧ record.key = key
  held : ∀ k socket key o, s.sockets k = some socket → socket.phase.holds = some (key, o) →
    ∃ record, s.objects o = some record ∧ record.key = key
  bounded : ∀ o record, s.objects o = some record → o < s.nextObject

section
variable {η : Type} {s t : State η}

theorem Owned.init : Owned ({} : State η) :=
  ⟨(fun _ _ absurd => nomatch absurd), (fun _ _ _ _ absurd => nomatch absurd),
    (fun _ _ absurd => nomatch absurd), fun _ _ absurd => nomatch absurd⟩

theorem Keyed.init : Keyed ({} : State η) :=
  ⟨(fun _ _ absurd => nomatch absurd), (fun _ _ _ _ absurd => nomatch absurd), fun _ _ absurd => nomatch absurd⟩

theorem Owned.frame (h : Owned s) (sockets : t.sockets = s.sockets) (connections : t.connections = s.connections)
    (nextEpoch : t.nextEpoch = s.nextEpoch) (nextSocket : t.nextSocket = s.nextSocket) : Owned t := by
  constructor
  · rw [sockets, connections]
    exact h.socket
  · rw [sockets, connections, nextEpoch]
    exact h.identified
  · rw [connections, nextEpoch]
    exact h.epochs
  · rw [sockets, nextSocket]
    exact h.bounded

theorem Owned.shrink (h : Owned s) (sockets : t.sockets = s.sockets)
    (connections : ∀ key c, t.connections key = some c → s.connections key = some c)
    (nextEpoch : t.nextEpoch = s.nextEpoch) (nextSocket : t.nextSocket = s.nextSocket) : Owned t := by
  constructor
  · rw [sockets]
    exact fun key c found => h.socket key c (connections key c found)
  · rw [sockets, nextEpoch]
    intro k socket key epoch found installed
    obtain ⟨less, same⟩ := h.identified k socket key epoch found installed
    exact ⟨less, fun c entry => same c (connections key c entry)⟩
  · rw [nextEpoch]
    exact fun key c entry => h.epochs key c (connections key c entry)
  · rw [sockets, nextSocket]
    exact h.bounded

variable {k : Nat}

theorem Owned.modify (h : Owned s) {f : Socket → Socket} (sockets : t.sockets = s.sockets.modify k f)
    (connections : t.connections = s.connections) (nextEpoch : t.nextEpoch = s.nextEpoch)
    (nextSocket : t.nextSocket = s.nextSocket)
    (keeps : ∀ socket key epoch, s.sockets k = some socket → socket.phase.Owns key epoch →
      (f socket).phase.Owns key epoch)
    (installs : ∀ socket key epoch, s.sockets k = some socket → (f socket).phase.installed = some (key, epoch) →
      socket.phase.installed = some (key, epoch)) : Owned t := by
  constructor
  · intro key c entry
    rw [connections] at entry
    rw [sockets]
    obtain ⟨socket, found, owns⟩ := h.socket key c entry
    by_cases same : c.socket = k
    · refine ⟨f socket, ?_, keeps socket key _ (same ▸ found) owns⟩
      rw [same, Calls.modify_self, ← same, found, Option.map_some]
    · refine ⟨socket, ?_, owns⟩
      rw [Calls.modify, Function.update_of_ne same, found]
  · intro j socket key epoch found installed
    rw [sockets] at found
    rw [nextEpoch, connections]
    obtain ⟨rfl, before, was, rfl⟩ | ⟨_, was⟩ := Calls.modify_eq_some found
    · exact h.identified j before key epoch was (installs before key epoch was installed)
    · exact h.identified j socket key epoch was installed
  · rw [connections, nextEpoch]
    exact h.epochs
  · intro j socket found
    rw [sockets] at found
    rw [nextSocket]
    obtain ⟨rfl, before, was, _⟩ | ⟨_, was⟩ := Calls.modify_eq_some found
    · exact h.bounded j before was
    · exact h.bounded j socket was

variable {socket : Socket} {phase : Phase}

theorem Owned.setPhase (h : Owned s) (found : s.sockets k = some socket)
    (keeps : ∀ key epoch, socket.phase.Owns key epoch → phase.Owns key epoch)
    (installs : ∀ key epoch, phase.installed = some (key, epoch) → socket.phase.installed = some (key, epoch)) :
    Owned (s.setPhase k phase) := by
  refine h.modify rfl rfl rfl rfl (fun other key epoch was owns => ?_) fun other key epoch was installed => ?_
  · cases found.symm.trans was
    exact keeps key epoch owns
  · cases found.symm.trans was
    exact installs key epoch installed

theorem Owned.reject (h : Owned s) (found : s.sockets k = some socket) (error : BoxError) :
    Owned (s.setPhase k (.rejected error)) :=
  h.setPhase found (fun _ _ _ => .inr ⟨error, rfl⟩) fun _ _ absurd => nomatch absurd

theorem Owned.advance (h : Owned s) (found : s.sockets k = some socket) (before : socket.phase.installed = none)
    (alive : ∀ error, socket.phase ≠ .rejected error) (after : phase.installed = none) :
    Owned (s.setPhase k phase) := by
  refine h.setPhase found (fun key epoch owns => ?_) fun key epoch installed => ?_
  · rcases owns with installed | ⟨error, rejected⟩
    · cases before.symm.trans installed
    · exact absurd rejected (alive error)
  · cases after.symm.trans installed

theorem Owned.unregistered (h : Owned s) (found : s.sockets k = some socket) (before : socket.phase.installed = none)
    (alive : ∀ error, socket.phase ≠ .rejected error) (key : Key) : ¬s.registered key k := by
  rintro ⟨c, entry, rfl⟩
  obtain ⟨other, was, owns⟩ := h.socket key c entry
  cases found.symm.trans was
  rcases owns with installed | ⟨error, rejected⟩
  · cases before.symm.trans installed
  · exact alive error rejected

variable {α β : Type} {a b : α} {w : β}

theorem update_eq_some [DecidableEq α] {f : α → Option β} {v : β} (found : Function.update f a (some v) b = some w) :
    (b = a ∧ w = v) ∨ f b = some w := by
  by_cases same : b = a
  · subst same
    rw [Function.update_self] at found
    exact .inl ⟨rfl, (Option.some.inj found).symm⟩
  · rw [Function.update_of_ne same] at found
    exact .inr found

theorem update_none_eq_some [DecidableEq α] {f : α → Option β} (found : Function.update f a none b = some w) :
    b ≠ a ∧ f b = some w := by
  by_cases same : b = a
  · subst same
    rw [Function.update_self] at found
    cases found
  · exact ⟨same, by rwa [Function.update_of_ne same] at found⟩

variable {o now : Nat} {hello : Hello} {closed : Bool}

theorem Owned.install (h : Owned s) (record : Record η) (credential : Option Nat)
    (found : s.sockets k = some ⟨.attesting hello o, closed⟩) :
    Owned (install s k hello o record credential now) := by
  have absent := h.unregistered found rfl (fun _ absurd => nomatch absurd)
  have bound : ∀ key c, (BoxRegistry.install s k hello o record credential now).connections key = some c →
      (key = hello.key ∧ c = ⟨k, s.nextEpoch, hello.instanceId⟩) ∨ s.connections key = some c :=
    fun key c entry => update_eq_some entry
  constructor
  · intro key c entry
    show ∃ socket, s.sockets.modify k _ c.socket = some socket ∧ _
    rcases bound key c entry with ⟨rfl, rfl⟩ | entry
    · refine ⟨⟨.persisting hello.key o s.nextEpoch credential, closed⟩, ?_, .inl rfl⟩
      rw [Calls.modify_self, found]
      rfl
    · obtain ⟨socket, was, owns⟩ := h.socket key c entry
      have other : c.socket ≠ k := fun same => absent key ⟨c, entry, same⟩
      refine ⟨socket, ?_, owns⟩
      rw [Calls.modify, Function.update_of_ne other, was]
  · intro j socket key epoch was installed
    obtain ⟨rfl, before, _, rfl⟩ | ⟨_, was⟩ := Calls.modify_eq_some was
    · cases installed
      refine ⟨Nat.lt_succ_self _, fun c entry same => ?_⟩
      rcases bound _ c entry with ⟨_, rfl⟩ | old
      · rfl
      · exact absurd same (Nat.ne_of_lt (h.epochs _ c old))
    · obtain ⟨less, same⟩ := h.identified j socket key epoch was installed
      refine ⟨Nat.lt_succ_of_lt less, fun c entry equal => ?_⟩
      rcases bound _ c entry with ⟨_, rfl⟩ | old
      · exact absurd equal (Nat.ne_of_gt less)
      · exact same c old equal
  · intro key c entry
    rcases bound key c entry with ⟨_, rfl⟩ | old
    · exact Nat.lt_succ_self _
    · exact Nat.lt_succ_of_lt (h.epochs key c old)
  · intro j socket was
    obtain ⟨rfl, before, was, _⟩ | ⟨_, was⟩ := Calls.modify_eq_some was
    · exact h.bounded j before was
    · exact h.bounded j socket was

variable {key : Key} {epoch : Nat}

theorem State.current_iff :
    s.current key epoch = true ↔ ∃ c, s.connections key = some c ∧ c.connectionEpoch = epoch := by
  unfold State.current
  cases s.connections key with
  | none => simp only [Option.any_none, Bool.false_eq_true, reduceCtorEq, false_and, exists_false]
  | some c => simp only [Option.any_some, beq_iff_eq, Option.some.injEq, exists_eq_left']

theorem onClose_sockets (s : State η) (k : Nat) (phase : Phase) :
    (onClose s k phase).sockets = s.sockets.modify k fun socket => { socket with closed := true } := by
  unfold onClose
  cases phase with
  | authenticated key o epoch =>
    dsimp only
    split_ifs <;> rfl
  | _ => rfl

variable {c : Connection}

theorem onClose_connections (entry : (onClose s k phase).connections key = some c) : s.connections key = some c ∧
      ∀ o, phase ≠ .authenticated key o c.connectionEpoch := by
  unfold onClose at entry
  cases phase with
  | authenticated own o epoch =>
    dsimp only at entry
    split_ifs at entry with current
    · obtain ⟨other, entry⟩ := update_none_eq_some entry
      exact ⟨entry, fun _ equal => other (Phase.authenticated.inj equal).1.symm⟩
    · refine ⟨entry, fun _ equal => current ?_⟩
      cases equal
      exact State.current_iff.mpr ⟨c, entry, rfl⟩
  | _ => exact ⟨entry, fun _ absurd => nomatch absurd⟩

theorem onClose_counters (s : State η) (k : Nat) (phase : Phase) :
    (onClose s k phase).nextEpoch = s.nextEpoch ∧ (onClose s k phase).nextSocket = s.nextSocket := by
  unfold onClose
  cases phase with
  | authenticated key o epoch =>
    dsimp only
    split_ifs <;> exact ⟨rfl, rfl⟩
  | _ => exact ⟨rfl, rfl⟩

theorem Owned.onClose (h : Owned s) (k : Nat) (phase : Phase) : Owned (onClose s k phase) := by
  have flagged : Owned { s with sockets := s.sockets.modify k fun socket => { socket with closed := true } } :=
    h.modify rfl rfl rfl rfl (fun _ _ _ _ => id) fun _ _ _ _ => id
  obtain ⟨nextEpoch, nextSocket⟩ := onClose_counters s k phase
  exact flagged.shrink (onClose_sockets s k phase) (fun _ _ entry => (onClose_connections entry).1)
    nextEpoch nextSocket

/-! ### Registrations -/

theorem Keyed.frame (h : Keyed s) (objects : t.objects = s.objects) (records : t.records = s.records)
    (sockets : t.sockets = s.sockets) (nextObject : t.nextObject = s.nextObject) : Keyed t := by
  constructor
  · rw [objects, records]
    exact h.records
  · rw [objects, sockets]
    exact h.held
  · rw [objects, nextObject]
    exact h.bounded

theorem Keyed.setPhase (h : Keyed s)
    (holds : ∀ key o, phase.holds = some (key, o) → ∃ record, s.objects o = some record ∧ record.key = key) :
    Keyed (s.setPhase k phase) := by
  constructor
  · exact h.records
  · intro j socket key o found held
    obtain ⟨_, _, _, rfl⟩ | ⟨_, was⟩ := Calls.modify_eq_some found
    · exact holds key o held
    · exact h.held j socket key o was held
  · exact h.bounded

variable {f : Record η → Record η}

theorem Keyed.modifyObject (h : Keyed s) (objects : t.objects = s.objects.modify o f)
    (records : t.records = s.records) (sockets : t.sockets = s.sockets) (nextObject : t.nextObject = s.nextObject)
    (keeps : ∀ record, (f record).key = record.key) : Keyed t := by
  have kept : ∀ p key, (∃ record, s.objects p = some record ∧ record.key = key) →
      ∃ record, t.objects p = some record ∧ record.key = key := by
    rintro p key ⟨record, found, rfl⟩
    rw [objects]
    by_cases same : p = o
    · subst same
      exact ⟨f record, by rw [Calls.modify_self, found, Option.map_some], keeps record⟩
    · exact ⟨record, by rw [Calls.modify, Function.update_of_ne same, found], rfl⟩
  constructor
  · rw [records]
    exact fun key p found => kept p key (h.records key p found)
  · rw [sockets]
    exact fun k socket key p found held => kept p key (h.held k socket key p found held)
  · intro p record found
    rw [objects] at found
    rw [nextObject]
    obtain ⟨rfl, before, was, _⟩ | ⟨_, was⟩ := Calls.modify_eq_some found
    · exact h.bounded p before was
    · exact h.bounded p record was

theorem Keyed.allocate (h : Keyed s) (record : Record η) : Keyed (s.allocate record) := by
  have kept : ∀ p key, (∃ record, s.objects p = some record ∧ record.key = key) →
      ∃ found, s.objects.put s.nextObject record p = some found ∧ found.key = key := by
    rintro p key ⟨old, found, rfl⟩
    exact ⟨old, by rw [Calls.put_of_ne _ _ (Nat.ne_of_lt (h.bounded p old found)), found], rfl⟩
  constructor
  · intro key p found
    rcases OrderedMap.get_set_eq_some found with ⟨rfl, rfl⟩ | ⟨_, was⟩
    · exact ⟨record, Calls.put_self .., rfl⟩
    · exact kept p key (h.records key p was)
  · exact fun k socket key p found held => kept p key (h.held k socket key p found held)
  · intro p old found
    rcases Calls.put_eq_some found with ⟨rfl, _⟩ | ⟨_, was⟩
    · exact Nat.lt_succ_self _
    · exact Nat.lt_succ_of_lt (h.bounded p old was)

theorem Record.settle_key (record : Record η) : record.settle.key = record.key := by
  unfold Record.settle
  split_ifs <;> rfl

theorem Keyed.replaced (h : Keyed s) : Keyed { s with records := OrderedMap.empty } :=
  ⟨fun _ _ absurd => (nomatch absurd), h.held, h.bounded⟩

theorem Keyed.allocateAll (h : Keyed s) (registrations : List (Record η)) :
    Keyed (registrations.foldl (fun s record => s.allocate record.settle) s) := by
  induction registrations generalizing s with
  | nil => exact h
  | cons record rest ih => exact ih (h.allocate record.settle)

theorem Keyed.finishLoad (h : Keyed s) (i : Nat) (registrations : Option (List (Record η))) :
    Keyed (finishLoad s i registrations) := by
  cases registrations with
  | none => exact h.frame rfl rfl rfl rfl
  | some registrations => exact (h.replaced.allocateAll registrations).frame rfl rfl rfl rfl

theorem allocateAll_keeps (registrations : List (Record η)) (s : State η) :
    let t := registrations.foldl (fun s record => s.allocate record.settle) s
    t.sockets = s.sockets ∧ t.connections = s.connections ∧ t.nextEpoch = s.nextEpoch ∧
      t.nextSocket = s.nextSocket := by
  induction registrations generalizing s with
  | nil => exact ⟨rfl, rfl, rfl, rfl⟩
  | cons record rest ih => exact ih (s.allocate record.settle)

theorem finishLoad_keeps (s : State η) (i : Nat) (registrations : Option (List (Record η))) :
    (finishLoad s i registrations).sockets = s.sockets ∧ (finishLoad s i registrations).connections = s.connections ∧
      (finishLoad s i registrations).nextEpoch = s.nextEpoch ∧
      (finishLoad s i registrations).nextSocket = s.nextSocket := by
  cases registrations with
  | none => exact ⟨rfl, rfl, rfl, rfl⟩
  | some registrations => exact allocateAll_keeps registrations { s with records := OrderedMap.empty }

variable {record : Record η}

theorem Keyed.install (h : Keyed s) (key : record.key = hello.key)
    (was : ∃ before, s.objects o = some before ∧ before.key = hello.key) (credential : Option Nat) :
    Keyed (install s k hello o record credential now) := by
  obtain ⟨before, there, same⟩ := was
  have kept : ∀ p key', (∃ record, s.objects p = some record ∧ record.key = key') →
      ∃ other, (BoxRegistry.install s k hello o record credential now).objects p = some other ∧ other.key = key' := by
    rintro p key' ⟨old, found, rfl⟩
    by_cases equal : p = o
    · subst equal
      cases found.symm.trans there
      exact ⟨record.connect hello now, Calls.put_self .., key.trans same.symm⟩
    · exact ⟨old, (Calls.put_of_ne _ _ equal).trans found, rfl⟩
  constructor
  · intro key' p found
    rcases OrderedMap.get_set_eq_some found with ⟨rfl, rfl⟩ | ⟨_, old⟩
    · exact kept p _ ⟨before, there, same⟩
    · exact kept p key' (h.records key' p old)
  · intro j socket key' p found held
    obtain ⟨_, _, _, rfl⟩ | ⟨_, old⟩ := Calls.modify_eq_some found
    · cases held
      exact kept o _ ⟨before, there, same⟩
    · exact kept p key' (h.held j socket key' p old held)
  · intro p old found
    rcases Calls.put_eq_some found with ⟨rfl, _⟩ | ⟨_, old'⟩
    · exact h.bounded _ before there
    · exact h.bounded p old old'

/-! ### Every step -/

structure Sound (s : State η) : Prop where
  owned : Owned s
  keyed : Keyed s

theorem Sound.init : Sound ({} : State η) := ⟨Owned.init, Keyed.init⟩

theorem Sound.frame (h : Sound s) (sockets : t.sockets = s.sockets) (connections : t.connections = s.connections)
    (nextEpoch : t.nextEpoch = s.nextEpoch) (nextSocket : t.nextSocket = s.nextSocket)
    (objects : t.objects = s.objects) (records : t.records = s.records) (nextObject : t.nextObject = s.nextObject) :
    Sound t :=
  ⟨h.owned.frame sockets connections nextEpoch nextSocket, h.keyed.frame objects records sockets nextObject⟩

theorem beginLoad_eq (s : State η) : ∃ loads nextLoad, (beginLoad s).1 = { s with loads, nextLoad } := by
  unfold beginLoad
  split_ifs
  · exact ⟨s.loads, s.nextLoad, rfl⟩
  · exact ⟨_, _, rfl⟩

theorem Sound.beginLoad (h : Sound s) : Sound (beginLoad s).1 := by
  obtain ⟨loads, nextLoad, same⟩ := beginLoad_eq s
  rw [same]
  exact h.frame rfl rfl rfl rfl rfl rfl rfl

theorem Sound.reject (h : Sound s) (found : s.sockets k = some socket) (error : BoxError) :
    Sound (s.setPhase k (.rejected error)) :=
  ⟨h.owned.reject found error, h.keyed.setPhase fun _ _ absurd => nomatch absurd⟩

theorem Sound.onFirstMessage (h : Sound s) (found : s.sockets k = some ⟨.fresh, closed⟩) (frame : Frame) :
    Sound (onFirstMessage s k frame) := by
  unfold BoxRegistry.onFirstMessage
  cases frame with
  | hello hello =>
    dsimp only
    split_ifs
    · have begun := h.beginLoad
      obtain ⟨loads, nextLoad, same⟩ := beginLoad_eq s
      have there : (BoxRegistry.beginLoad s).1.sockets k = some ⟨.fresh, closed⟩ := by
        rw [same]
        exact found
      exact ⟨begun.owned.advance there rfl (fun _ absurd => nomatch absurd) rfl,
        begun.keyed.setPhase fun _ _ absurd => nomatch absurd⟩
    · exact h.reject found _
  | _ => exact h.reject found _

/-- The registration that `authenticate` goes on with is the one of the hello's key. -/
theorem identify_ok (identified : identify s hello = .ok o) : s.records.get hello.key = some o := by
  unfold identify at identified
  cases found : s.records.get hello.key with
  | none =>
    simp only [found] at identified
    cases identified
  | some p =>
    simp only [found] at identified
    split at identified
    · cases identified
    · split_ifs at identified
      split at identified
      · cases identified
      · split_ifs at identified
        cases identified
        rfl

theorem Sound.afterLoad (h : Sound s) {load : Option Nat} (found : s.sockets k = some ⟨.loading hello load, closed⟩)
    (ended : Except Unit Unit) : Sound (afterLoad s k hello ended) := by
  unfold BoxRegistry.afterLoad
  cases ended with
  | error error => exact h.reject found _
  | ok ok =>
    cases identified : identify s hello with
    | error error => exact h.reject found _
    | ok o =>
      refine ⟨h.owned.advance found rfl (fun _ absurd => nomatch absurd) rfl, h.keyed.setPhase fun key p held => ?_⟩
      cases held
      exact h.keyed.records _ _ (identify_ok identified)

variable {credential : Option Nat}

theorem Sound.persisted (h : Sound s) (found : s.sockets k = some ⟨.persisting key o epoch credential, closed⟩)
    (written : Bool) :
    Sound (s.setPhase k (if written then .authenticated key o epoch else .rejected .registrationFailed)) := by
  cases written with
  | false => exact h.reject found _
  | true =>
    refine ⟨h.owned.setPhase found (fun key epoch owns => ?_) fun key epoch installed => installed,
      h.keyed.setPhase fun key p held => h.keyed.held k _ key p found held⟩
    rcases owns with installed | ⟨error, absurd⟩
    · exact .inl installed
    · cases absurd

theorem Sound.modifyObject (h : Sound s) (keeps : ∀ record, (f record).key = record.key) :
    Sound (s.modifyObject o f) :=
  ⟨h.owned.frame rfl rfl rfl rfl, h.keyed.modifyObject rfl rfl rfl rfl keeps⟩

theorem Sound.onMessage (h : Sound s) (key : Key) (o epoch : Nat) (frame : Frame) (now : Nat) :
    Sound (onMessage s key o epoch frame now) := by
  unfold BoxRegistry.onMessage
  split_ifs
  · cases frame with
    | heartbeat => exact h.modifyObject fun _ => rfl
    | status observed => exact h.modifyObject fun _ => rfl
    | _ => exact h
  · exact h

theorem Sound.onClose (h : Sound s) (k : Nat) (found : s.sockets k = some socket) :
    Sound (onClose s k socket.phase) := by
  refine ⟨h.owned.onClose k socket.phase, ?_⟩
  have flagged : Keyed { s with sockets := s.sockets.modify k fun socket => { socket with closed := true } } := by
    refine ⟨h.keyed.records, fun j other key p present held => ?_, h.keyed.bounded⟩
    obtain ⟨rfl, before, was, rfl⟩ | ⟨_, was⟩ := Calls.modify_eq_some present
    · exact h.keyed.held j before key p was held
    · exact h.keyed.held j other key p was held
  unfold BoxRegistry.onClose
  cases socket.phase with
  | authenticated key o epoch =>
    dsimp only
    split_ifs
    · exact flagged.modifyObject rfl rfl rfl rfl fun _ => rfl
    · exact flagged
  | _ => exact flagged

theorem Sound.operate (h : Sound s) (hashCredential : Nat → η) (now : Nat) (operation : Operation) :
    Sound (operate hashCredential s now operation) := by
  cases operation with
  | prepareRegistration key provider ttlMs =>
    unfold BoxRegistry.operate
    dsimp only
    split_ifs
    · exact ⟨h.owned.frame rfl rfl rfl rfl, (h.keyed.allocate _).frame rfl rfl rfl rfl⟩
    · exact h
  | bindProviderInstance key instanceId =>
    unfold BoxRegistry.operate
    dsimp only
    split_ifs
    · unfold BoxRegistry.bindProviderInstance
      split
      · split_ifs
        · exact h
        · exact h.modifyObject fun _ => rfl
        · exact h.modifyObject fun _ => rfl
      · exact h
    · exact h
  | revoke key =>
    show Sound (BoxRegistry.revoke s key now)
    unfold BoxRegistry.revoke
    cases s.records.get key with
    | none => exact h
    | some o =>
      exact ⟨h.owned.shrink rfl (fun _ _ entry => (update_none_eq_some entry).2) rfl rfl,
        h.keyed.modifyObject rfl rfl rfl rfl fun _ => rfl⟩
  | read => exact h

section
variable [DecidableEq η] (hashCredential : Nat → η)

theorem presentCredential_key {record : Record η} {auth : Auth} {now fresh : Nat} {presented : Record η × Option Nat}
    (accepted : presentCredential hashCredential record auth now fresh = .ok presented) :
    presented.1.key = record.key := by
  unfold presentCredential at accepted
  cases auth with
  | bootstrap secret =>
    dsimp only at accepted
    split_ifs at accepted
    cases accepted
    rfl
  | reconnect credential =>
    dsimp only at accepted
    split_ifs at accepted
    cases accepted
    rfl
  | other => cases accepted

theorem authenticate_cases (s : State η) (k : Nat) (hello : Hello) (o now : Nat) :
    (¬Installs hashCredential s hello o now ∧
      ∃ error, authenticate hashCredential s k hello o now = s.setPhase k (.rejected error)) ∨
    ∃ record presented, s.objects o = some record ∧
      presentCredential hashCredential record hello.auth now s.nextSecret = .ok presented ∧
      authenticate hashCredential s k hello o now = install s k hello o presented.1 presented.2 now := by
  unfold authenticate
  cases found : s.objects o with
  | none =>
    refine .inl ⟨?_, _, rfl⟩
    rintro ⟨record, _, there, _⟩
    cases found.symm.trans there
  | some record =>
    dsimp only
    cases presented : presentCredential hashCredential record hello.auth now s.nextSecret with
    | error error =>
      refine .inl ⟨?_, _, rfl⟩
      rintro ⟨other, accepted, there, ok⟩
      cases found.symm.trans there
      cases presented.symm.trans ok
    | ok accepted => exact .inr ⟨record, accepted, rfl, presented, rfl⟩

theorem Sound.authenticate (h : Sound s) {k : Nat} {hello : Hello} {o : Nat} {closed : Bool}
    (found : s.sockets k = some ⟨.attesting hello o, closed⟩) (now : Nat) :
    Sound (authenticate hashCredential s k hello o now) := by
  rcases authenticate_cases hashCredential s k hello o now with ⟨_, error, same⟩ | ⟨record, presented, there, ok, same⟩
  · rw [same]
    exact h.reject found error
  · rw [same]
    obtain ⟨before, was, key⟩ := h.keyed.held k _ hello.key o found rfl
    cases there.symm.trans was
    exact ⟨h.owned.install presented.1 presented.2 found,
      h.keyed.install ((presentCredential_key hashCredential ok).trans key) ⟨record, there, key⟩ presented.2⟩

theorem sound_step (s : State η) (a : Action η) (t : State η) (h : Sound s)
    (taken : step hashCredential s a = some t) : Sound t := by
  cases a with
  | opened =>
    cases taken
    have absent : ∀ k socket, s.sockets k = some socket → k ≠ s.nextSocket :=
      fun k socket found => Nat.ne_of_lt (h.owned.bounded k socket found)
    refine ⟨⟨?_, ?_, h.owned.epochs, ?_⟩, ⟨h.keyed.records, ?_, h.keyed.bounded⟩⟩
    · intro key c entry
      obtain ⟨socket, found, owns⟩ := h.owned.socket key c entry
      exact ⟨socket, (Calls.put_of_ne _ _ (absent _ _ found)).trans found, owns⟩
    · intro k socket key epoch found installed
      rcases Calls.put_eq_some found with ⟨_, rfl⟩ | ⟨_, was⟩
      · cases installed
      · exact h.owned.identified k socket key epoch was installed
    · intro k socket found
      rcases Calls.put_eq_some found with ⟨rfl, _⟩ | ⟨_, was⟩
      · exact Nat.lt_succ_self _
      · exact Nat.lt_succ_of_lt (h.owned.bounded k socket was)
    · intro k socket key o found held
      rcases Calls.put_eq_some found with ⟨_, rfl⟩ | ⟨_, was⟩
      · cases held
      · exact h.keyed.held k socket key o was held
  | firstMessage k frame =>
    simp only [step] at taken
    split at taken
    · rename_i found
      cases taken
      exact h.onFirstMessage found frame
    · cases taken
  | read i registrations =>
    simp only [step] at taken
    split at taken
    · cases taken
      exact h.frame rfl rfl rfl rfl rfl rfl rfl
    · cases taken
  | readFails i =>
    simp only [step] at taken
    split at taken
    · cases taken
      exact h.frame rfl rfl rfl rfl rfl rfl rfl
    · cases taken
  | loaded i =>
    simp only [step] at taken
    split at taken
    · rename_i registrations found
      cases taken
      obtain ⟨sockets, connections, nextEpoch, nextSocket⟩ := finishLoad_keeps s i registrations
      exact ⟨h.owned.frame sockets connections nextEpoch nextSocket, h.keyed.finishLoad i registrations⟩
    · cases taken
  | afterLoad k =>
    simp only [step] at taken
    split at taken
    · rename_i found
      obtain ⟨ended, _, rfl⟩ := Option.map_eq_some_iff.mp taken
      exact h.afterLoad found ended
    · cases taken
  | attested k verified now =>
    simp only [step] at taken
    split at taken
    · rename_i found
      cases taken
      split_ifs
      · exact h.authenticate hashCredential found now
      · exact h.reject found _
    · cases taken
  | persisted k written =>
    simp only [step] at taken
    split at taken
    · rename_i found
      cases taken
      exact h.persisted found written
    · cases taken
  | message k frame now =>
    simp only [step] at taken
    split at taken
    · cases taken
      exact h.onMessage _ _ _ frame now
    · cases taken
  | closed k =>
    simp only [step] at taken
    split at taken
    · rename_i phase found
      cases taken
      exact h.onClose k found
    · cases taken
  | call operation =>
    cases taken
    exact h.beginLoad.frame rfl rfl rfl rfl rfl rfl rfl
  | operate i now =>
    simp only [step] at taken
    split at taken
    · rename_i operation load found
      obtain ⟨ended, _, rfl⟩ := Option.map_eq_some_iff.mp taken
      have dropped : Sound { s with operations := s.operations.drop i } := h.frame rfl rfl rfl rfl rfl rfl rfl
      cases ended with
      | ok ok => exact dropped.operate hashCredential now operation
      | error error => exact dropped
    · cases taken
  | close =>
    cases taken
    exact ⟨h.owned.shrink rfl (fun _ _ absurd => nomatch absurd) rfl rfl, h.keyed.frame rfl rfl rfl rfl⟩

end

/-! ### Entries of closed sockets -/

theorem isOpen_setPhase (s : State η) (k : Nat) (phase : Phase) (j : Nat) :
    (s.setPhase k phase).isOpen j ↔ s.isOpen j := by
  unfold State.isOpen State.setPhase
  by_cases same : j = k
  · subst same
    dsimp only
    rw [Calls.modify_self]
    cases s.sockets j with
    | none => simp only [Option.map_none, reduceCtorEq, false_and, exists_false]
    | some socket => simp only [Option.map_some, Option.some.injEq, exists_eq_left']
  · dsimp only
    rw [Calls.modify, Function.update_of_ne same]

theorem Tracks.frame (h : Tracks s) (connections : ∀ key c, t.connections key = some c → s.connections key = some c)
    (opened : ∀ k, s.isOpen k → t.isOpen k) : Tracks t :=
  fun key c entry => opened _ (h key c (connections key c entry))

theorem isOpen_of_sockets (sockets : t.sockets = s.sockets) (k : Nat) (opened : s.isOpen k) : t.isOpen k := by
  rw [State.isOpen, sockets]
  exact opened

theorem Tracks.same (h : Tracks s) (sockets : t.sockets = s.sockets) (connections : t.connections = s.connections) :
    Tracks t :=
  h.frame (fun _ _ entry => connections ▸ entry) (isOpen_of_sockets sockets)

theorem Tracks.setPhase (h : Tracks s) (k : Nat) (phase : Phase) : Tracks (s.setPhase k phase) :=
  h.frame (fun _ _ => id) fun j => (isOpen_setPhase s k phase j).mpr

theorem tracks_install (h : Tracks s) (found : s.sockets k = some ⟨.attesting hello o, closed⟩) :
    Tracks (install s k hello o record credential now) ↔ closed = false := by
  have kept : ∀ j, (install s k hello o record credential now).isOpen j ↔ s.isOpen j :=
    isOpen_setPhase s k (.persisting hello.key o s.nextEpoch credential)
  constructor
  · intro tracks
    obtain ⟨socket, was, opened⟩ := (kept k).mp (tracks hello.key ⟨k, s.nextEpoch, hello.instanceId⟩
      (Function.update_self ..))
    cases found.symm.trans was
    exact opened
  · rintro rfl key c entry
    rcases update_eq_some entry with ⟨rfl, rfl⟩ | old
    · exact (kept k).mpr ⟨_, found, rfl⟩
    · exact (kept c.socket).mpr (h key c old)

theorem isOpen_onClose (j : Nat) : (onClose s k phase).isOpen j ↔ j ≠ k ∧ s.isOpen j := by
  unfold State.isOpen
  rw [onClose_sockets]
  constructor
  · rintro ⟨socket, found, opened⟩
    obtain ⟨_, _, _, rfl⟩ | ⟨other, was⟩ := Calls.modify_eq_some found
    · cases opened
    · exact ⟨other, socket, was, opened⟩
  · rintro ⟨other, socket, was, opened⟩
    exact ⟨socket, by rw [Calls.modify, Function.update_of_ne other, was], opened⟩

theorem tracks_onClose (h : Tracks s) (owned : Owned s) (found : s.sockets k = some socket) :
    Tracks (onClose s k socket.phase) ↔
      (∃ key o epoch, socket.phase = .authenticated key o epoch) ∨ ∀ key, ¬s.registered key k := by
  constructor
  · intro tracks
    by_cases known : ∃ key o epoch, socket.phase = .authenticated key o epoch
    · exact .inl known
    · refine .inr fun key ⟨c, entry, same⟩ => ?_
      have kept : (onClose s k socket.phase).connections = s.connections := by
        cases phase : socket.phase with
        | authenticated key o epoch => exact absurd ⟨key, o, epoch, phase⟩ known
        | _ => rfl
      exact ((isOpen_onClose c.socket).mp (tracks key c (kept ▸ entry))).1 same
  · intro known key c entry
    obtain ⟨old, other⟩ := onClose_connections entry
    refine (isOpen_onClose c.socket).mpr ⟨fun same => ?_, h key c old⟩
    rcases known with ⟨own, o, epoch, phase⟩ | absent
    · obtain ⟨there, was, owns⟩ := owned.socket key c old
      rw [same] at was
      cases found.symm.trans was
      rcases owns with installed | ⟨error, rejected⟩
      · rw [phase] at installed
        cases installed
        exact other o phase
      · cases phase.symm.trans rejected
    · exact absent key ⟨c, old, same⟩

theorem operate_keeps (hashCredential : Nat → η) (s : State η) (now : Nat) (operation : Operation) :
    (operate hashCredential s now operation).sockets = s.sockets ∧
      ∀ key c, (operate hashCredential s now operation).connections key = some c → s.connections key = some c := by
  cases operation with
  | prepareRegistration key provider ttlMs =>
    unfold operate
    dsimp only
    split_ifs <;> exact ⟨rfl, fun _ _ => id⟩
  | bindProviderInstance key instanceId =>
    unfold operate
    dsimp only
    split_ifs
    · unfold bindProviderInstance
      split
      · split_ifs <;> exact ⟨rfl, fun _ _ => id⟩
      · exact ⟨rfl, fun _ _ => id⟩
    · exact ⟨rfl, fun _ _ => id⟩
  | revoke key =>
    unfold operate revoke
    dsimp only
    cases s.records.get key with
    | none => exact ⟨rfl, fun _ _ => id⟩
    | some o => exact ⟨rfl, fun _ _ entry => (update_none_eq_some entry).2⟩
  | read => exact ⟨rfl, fun _ _ => id⟩

/-! ### What a frame changes -/

theorem recorded_same (objects : t.objects = s.objects) (records : t.records = s.records) (key : Key) :
    t.recorded key = s.recorded key := by
  rw [State.recorded, State.recorded, State.record, State.record, objects, records]

variable {other : Key}

theorem recorded_change (h : Keyed s) (own : ∃ record, s.objects o = some record ∧ record.key = key)
    (objects : ∀ p, p ≠ o → t.objects p = s.objects p)
    (records : ∀ other, other ≠ key → t.records.get other = s.records.get other)
    (changed : t.recorded other ≠ s.recorded other) : other = key := by
  by_contra different
  refine changed ?_
  rw [State.recorded, State.recorded, State.record, State.record, records other different]
  cases found : s.records.get other with
  | none => rfl
  | some p =>
    obtain ⟨record, there, same⟩ := own
    obtain ⟨held, was, key⟩ := h.records other p found
    have apart : p ≠ o := by
      rintro rfl
      cases there.symm.trans was
      exact different (key.symm.trans same)
    rw [Option.bind_some, Option.bind_some, objects p apart]

theorem modify_of_ne (p : Nat) (other : p ≠ o) : s.objects.modify o f p = s.objects p := by
  rw [Calls.modify, Function.update_of_ne other]

theorem onMessage_change (h : Sound s) {frame : Frame}
    (found : s.sockets k = some ⟨.authenticated key o epoch, closed⟩)
    (changed : (onMessage s key o epoch frame now).recorded other ≠ s.recorded other) : s.registered other k := by
  have own := h.keyed.held k _ key o found rfl
  have same : ∀ f : Record η → Record η, (s.modifyObject o f).recorded other ≠ s.recorded other → other = key :=
    fun f => recorded_change (t := s.modifyObject o f) h.keyed own modify_of_ne fun _ _ => rfl
  unfold onMessage at changed
  split_ifs at changed with current
  · have equal : other = key := by
      cases frame with
      | heartbeat => exact same _ changed
      | status observed => exact same _ changed
      | _ => exact absurd rfl changed
    subst equal
    obtain ⟨c, entry, equal⟩ := State.current_iff.mp current
    exact ⟨c, entry, (h.owned.identified k _ other epoch found rfl).2 c entry equal⟩
  · exact absurd rfl changed

theorem onMessage_connections (s : State η) (key : Key) (o epoch : Nat) (frame : Frame) (now : Nat) :
    (onMessage s key o epoch frame now).connections = s.connections := by
  unfold onMessage
  split_ifs
  · cases frame <;> rfl
  · rfl

theorem onClose_change (h : Sound s) (found : s.sockets k = some ⟨phase, false⟩)
    (changed : (onClose s k phase).recorded other ≠ s.recorded other) : s.registered other k := by
  unfold onClose at changed
  cases phase with
  | authenticated key o epoch =>
    dsimp only at changed
    split_ifs at changed with current
    · have own := h.keyed.held k _ key o found rfl
      have equal : other = key := by
        refine recorded_change h.keyed own (fun p apart => ?_) (fun _ _ => ?_) changed
        · exact modify_of_ne p apart
        · rfl
      subst equal
      obtain ⟨c, entry, equal⟩ := State.current_iff.mp current
      exact ⟨c, entry, (h.owned.identified k _ other epoch found rfl).2 c entry equal⟩
    · exact absurd rfl changed
  | _ => exact absurd rfl changed

theorem dial_entry {port : Nat} {room : Bool} (dialled : dial s key port room = .ok c) :
    s.connections key = some c := by
  unfold dial at dialled
  split at dialled
  · cases dialled
  · split at dialled
    · cases dialled
    · split at dialled
      · rename_i connection record entry _
        split_ifs at dialled
        cases dialled
        exact entry
      · cases dialled

section
variable [DecidableEq η] (hashCredential : Nat → η)

/-- The condition is exact: a step leaves no entry of a closed socket if and only if it meets it. -/
theorem tracks_step_iff (s : State η) (a : Action η) (t : State η) (h : Sound s) (tracks : Tracks s)
    (taken : step hashCredential s a = some t) : Tracks t ↔ Tracked hashCredential s a := by
  cases a with
  | opened =>
    cases taken
    refine iff_of_true (tracks.frame (fun _ _ => id) ?_) trivial
    rintro k ⟨socket, found, opened⟩
    exact ⟨socket, (Calls.put_of_ne _ _ (Nat.ne_of_lt (h.owned.bounded k socket found))).trans found, opened⟩
  | firstMessage k frame =>
    simp only [step] at taken
    split at taken
    · cases taken
      refine iff_of_true ?_ trivial
      have begun : ∀ phase, Tracks ((beginLoad s).1.setPhase k phase) := by
        intro phase
        obtain ⟨loads, nextLoad, same⟩ := beginLoad_eq s
        rw [same]
        exact Tracks.setPhase (tracks.same rfl rfl) k phase
      unfold onFirstMessage
      cases frame with
      | hello hello =>
        dsimp only
        split_ifs
        · exact begun _
        · exact tracks.setPhase k _
      | _ => exact tracks.setPhase k _
    · cases taken
  | read i registrations =>
    simp only [step] at taken
    split at taken
    · cases taken
      exact iff_of_true (tracks.same rfl rfl) trivial
    · cases taken
  | readFails i =>
    simp only [step] at taken
    split at taken
    · cases taken
      exact iff_of_true (tracks.same rfl rfl) trivial
    · cases taken
  | loaded i =>
    simp only [step] at taken
    split at taken
    · rename_i registrations found
      cases taken
      obtain ⟨sockets, connections, _, _⟩ := finishLoad_keeps s i registrations
      exact iff_of_true (tracks.same sockets connections) trivial
    · cases taken
  | afterLoad k =>
    simp only [step] at taken
    split at taken
    · rename_i hello load closed found
      obtain ⟨ended, _, rfl⟩ := Option.map_eq_some_iff.mp taken
      refine iff_of_true ?_ trivial
      unfold afterLoad
      cases ended with
      | error error => exact tracks.setPhase k _
      | ok ok =>
        cases identify s hello with
        | error error => exact tracks.setPhase k _
        | ok o => exact tracks.setPhase k _
    · cases taken
  | attested k verified now =>
    simp only [step] at taken
    split at taken
    · rename_i hello o closed found
      cases taken
      cases verified with
      | false =>
        exact iff_of_true (tracks.setPhase k _) fun _ _ _ absurd => nomatch absurd
      | true =>
        rcases authenticate_cases hashCredential s k hello o now with ⟨refused, error, same⟩ |
          ⟨record, presented, there, ok, same⟩
        · rw [if_pos rfl, same]
          refine iff_of_true (tracks.setPhase k _) fun other p was _ => ?_
          cases (Socket.mk.inj (Option.some.inj (found.symm.trans was))).1
          exact refused
        · rw [if_pos rfl, same, tracks_install tracks found]
          constructor
          · rintro rfl other p was
            cases found.symm.trans was
          · intro ok'
            by_contra shut
            rw [Bool.not_eq_false] at shut
            subst shut
            exact ok' hello o found rfl ⟨record, presented, there, ok⟩
    · cases taken
  | persisted k written =>
    simp only [step] at taken
    split at taken
    · cases taken
      exact iff_of_true (tracks.setPhase k _) trivial
    · cases taken
  | message k frame now =>
    simp only [step] at taken
    split at taken
    · cases taken
      refine iff_of_true ?_ trivial
      unfold onMessage
      split_ifs
      · cases frame with
        | heartbeat => exact tracks.same rfl rfl
        | status observed => exact tracks.same rfl rfl
        | _ => exact tracks
      · exact tracks
    · cases taken
  | closed k =>
    simp only [step] at taken
    split at taken
    · rename_i phase found
      cases taken
      rw [tracks_onClose tracks h.owned found]
      constructor
      · intro known socket was
        cases found.symm.trans was
        exact known
      · exact fun known => known _ found
    · cases taken
  | call operation =>
    cases taken
    obtain ⟨loads, nextLoad, same⟩ := beginLoad_eq s
    refine iff_of_true (tracks.same ?_ ?_) trivial
    · show (beginLoad s).1.sockets = s.sockets
      rw [same]
    · show (beginLoad s).1.connections = s.connections
      rw [same]
  | operate i now =>
    simp only [step] at taken
    split at taken
    · rename_i operation load found
      obtain ⟨ended, _, rfl⟩ := Option.map_eq_some_iff.mp taken
      refine iff_of_true ?_ trivial
      cases ended with
      | ok ok =>
        obtain ⟨sockets, connections⟩ :=
          operate_keeps hashCredential { s with operations := s.operations.drop i } now operation
        exact tracks.frame connections (isOpen_of_sockets sockets)
      | error error => exact tracks.same rfl rfl
    · cases taken
  | close =>
    cases taken
    exact iff_of_true (fun _ _ absurd => nomatch absurd) trivial

theorem handles_change (s : State η) (a : Action η) (t : State η) (h : Sound s)
    (taken : step hashCredential s a = some t) {k : Nat} (handles : a.handles = some k) {other : Key}
    (changed : t.recorded other ≠ s.recorded other) : t.registered other k := by
  cases a with
  | firstMessage j frame =>
    refine absurd ?_ changed
    simp only [step] at taken
    split at taken
    · obtain rfl := Option.some.inj taken
      obtain ⟨loads, nextLoad, same⟩ := beginLoad_eq s
      unfold onFirstMessage
      cases frame with
      | hello hello =>
        dsimp only
        split_ifs
        · rw [same]
          exact recorded_same rfl rfl other
        · exact recorded_same rfl rfl other
      | binary => exact recorded_same rfl rfl other
      | malformed => exact recorded_same rfl rfl other
      | heartbeat => exact recorded_same rfl rfl other
      | status observed => exact recorded_same rfl rfl other
      | dial => exact recorded_same rfl rfl other
      | other => exact recorded_same rfl rfl other
    · cases taken
  | afterLoad j =>
    refine absurd ?_ changed
    simp only [step] at taken
    split at taken
    · rename_i hello load closed found
      obtain ⟨ended, _, rfl⟩ := Option.map_eq_some_iff.mp taken
      unfold afterLoad
      cases ended with
      | error error => exact recorded_same rfl rfl other
      | ok ok =>
        cases identify s hello with
        | error error => exact recorded_same rfl rfl other
        | ok o => exact recorded_same rfl rfl other
    · cases taken
  | attested j verified now =>
    obtain rfl := Option.some.inj handles
    simp only [step] at taken
    split at taken
    · rename_i hello o closed found
      obtain rfl := Option.some.inj taken
      cases verified with
      | false => exact absurd (recorded_same rfl rfl other) changed
      | true =>
        rcases authenticate_cases hashCredential s j hello o now with ⟨_, error, same⟩ |
          ⟨record, presented, there, ok, same⟩
        · rw [same] at changed
          exact absurd (recorded_same rfl rfl other) changed
        · rw [same] at changed ⊢
          have own := h.keyed.held j _ hello.key o found rfl
          have equal : other = hello.key := by
            refine recorded_change h.keyed own (fun p apart => ?_) (fun key apart => ?_) changed
            · exact Calls.put_of_ne _ _ apart
            · exact OrderedMap.get_set_of_ne _ _ apart
          subst equal
          exact ⟨⟨j, s.nextEpoch, hello.instanceId⟩, Function.update_self .., rfl⟩
    · cases taken
  | persisted j written =>
    refine absurd ?_ changed
    simp only [step] at taken
    split at taken
    · obtain rfl := Option.some.inj taken
      exact recorded_same rfl rfl other
    · cases taken
  | message j frame now =>
    obtain rfl := Option.some.inj handles
    simp only [step] at taken
    split at taken
    · rename_i key o epoch found
      obtain rfl := Option.some.inj taken
      obtain ⟨c, entry, same⟩ := onMessage_change h found changed
      refine ⟨c, ?_, same⟩
      rw [onMessage_connections]
      exact entry
    · cases taken
  | _ => cases handles

theorem Sound.law (h : Sound s) (tracks : Tracks s) : LivenessLaw hashCredential s where
  tracks := tracks
  dialled key _ _ c dialled := tracks key c (dial_entry dialled)
  frames a _ t handles taken _ changed := handles_change hashCredential s a t h taken handles changed
  messages k frame now t taken other changed := by
    simp only [step] at taken
    split at taken
    · rename_i found
      cases taken
      exact onMessage_change h found changed
    · cases taken
  closes k t taken other changed := by
    simp only [step] at taken
    split at taken
    · rename_i found
      cases taken
      exact onClose_change h found changed
    · cases taken

/-- In a run whose steps all meet the condition the connections are those of open sockets, and a
generation is changed by the frames of its registered connection only. -/
theorem connections_live (actions : List (Action η)) (s : State η)
    (run : Run (step hashCredential) (Tracked hashCredential) {} actions s) : LivenessLaw hashCredential s := by
  have preserved : ∀ s a t, Sound s ∧ Tracks s → Tracked hashCredential s a →
      step hashCredential s a = some t → Sound t ∧ Tracks t := fun s a t inv ok taken =>
    ⟨sound_step hashCredential s a t inv.1 taken, (tracks_step_iff hashCredential s a t inv.1 inv.2 taken).mpr ok⟩
  obtain ⟨sound, tracks⟩ := run.invariant preserved ⟨Sound.init, fun _ _ absurd => nomatch absurd⟩
  exact sound.law hashCredential tracks

end

end

/-! ### Runs -/

def boxHello (auth : Auth) : Hello :=
  { key := ⟨"box", "g"⟩
    auth
    providerKind := some "aws"
    instanceId := some "i-1"
    agent := some ⟨["register_v1", "dial_v1"]⟩
    observed := some ⟨"starting"⟩ }

/-- A box is prepared and bound, and its agent comes to the attestation on socket `0`. -/
def boxRegistered : List (Action Nat) :=
  [.call (.prepareRegistration ⟨"box", "g"⟩ "aws" 1000), .read 0 none, .loaded 0, .operate 0 100,
    .call (.bindProviderInstance ⟨"box", "g"⟩ "i-1"), .operate 1 101, .opened,
    .firstMessage 0 (.hello (boxHello (.bootstrap (some 0)))), .afterLoad 0]

def trackedTest (s : State Nat) : Action Nat → Bool
  | .attested k _ _ => (s.sockets k).all fun socket => !socket.closed
  | .closed k =>
    match s.sockets k with
    | some ⟨.authenticated _ _ _, _⟩ => true
    | _ => false
  | _ => true

theorem trackedTest_sound (s : State Nat) (a : Action Nat) (passed : trackedTest s a = true) :
    Tracked (fun secret => secret) s a := by
  cases a with
  | attested k verified now =>
    intro hello o found
    simp only [trackedTest, found, Option.all_some, Bool.not_true, Bool.false_eq_true] at passed
  | closed k =>
    intro socket found
    simp only [trackedTest, found] at passed
    split at passed
    · rename_i same
      cases same
      exact .inl ⟨_, _, _, rfl⟩
    · cases passed
  | _ => trivial

/-- The agent reconnects, and its first socket is closed. -/
theorem connections_live_reconnect : ∃ s, Run (step (fun secret : Nat => secret)) (Tracked fun secret => secret) {}
        (boxRegistered ++ [.attested 0 true 102, .persisted 0 true, .message 0 (.status (some ⟨"ready"⟩)) 103,
          .opened, .firstMessage 1 (.hello (boxHello (.reconnect (some 1)))), .afterLoad 1, .attested 1 true 104,
          .closed 0, .persisted 1 true]) s ∧
      s.connections ⟨"box", "g"⟩ = some ⟨1, 1, some "i-1"⟩ ∧ LivenessLaw (fun secret => secret) s := by
  have checked : ((execIf (step (fun secret : Nat => secret)) trackedTest {}
        (boxRegistered ++ [.attested 0 true 102, .persisted 0 true, .message 0 (.status (some ⟨"ready"⟩)) 103,
          .opened, .firstMessage 1 (.hello (boxHello (.reconnect (some 1)))), .afterLoad 1, .attested 1 true 104,
          .closed 0, .persisted 1 true])).any fun s =>
      s.connections ⟨"box", "g"⟩ == some ⟨1, 1, some "i-1"⟩) = true := by decide +kernel
  obtain ⟨s, ran, connection⟩ := (Option.any_eq_true _ _).mp checked
  have run := run_of_execIf trackedTest_sound ran
  exact ⟨s, run, eq_of_beq connection, connections_live _ _ s run⟩

/-- A socket that closes while its registration is persisted, and one whose persistence fails,
leave their entry behind. -/
theorem closed_socket_registered : (∃ s, exec (step (fun secret : Nat => secret)) {}
        (boxRegistered ++ [.attested 0 true 102, .closed 0, .persisted 0 true]) = some s ∧
      s.connections ⟨"box", "g"⟩ = some ⟨0, 0, some "i-1"⟩ ∧
      s.sockets 0 = some ⟨.authenticated ⟨"box", "g"⟩ 0 0, true⟩ ∧ ¬LivenessLaw (fun secret => secret) s) ∧
    ∃ s, exec (step (fun secret : Nat => secret)) {}
        (boxRegistered ++ [.attested 0 true 102, .persisted 0 false, .closed 0]) = some s ∧
      s.connections ⟨"box", "g"⟩ = some ⟨0, 0, some "i-1"⟩ ∧
      s.sockets 0 = some ⟨.rejected .registrationFailed, true⟩ ∧ ¬LivenessLaw (fun secret => secret) s := by
  have refuted : ∀ (s : State Nat) (phase : Phase), s.connections ⟨"box", "g"⟩ = some ⟨0, 0, some "i-1"⟩ →
      s.sockets 0 = some ⟨phase, true⟩ → ¬LivenessLaw (fun secret => secret) s := by
    intro s phase entry found law
    obtain ⟨socket, was, opened⟩ := law.tracks _ _ entry
    cases found.symm.trans was
    cases opened
  have persisting : ((exec (step (fun secret : Nat => secret)) {}
        (boxRegistered ++ [.attested 0 true 102, .closed 0, .persisted 0 true])).any fun s =>
      s.connections ⟨"box", "g"⟩ == some ⟨0, 0, some "i-1"⟩ &&
        s.sockets 0 == some ⟨.authenticated ⟨"box", "g"⟩ 0 0, true⟩) = true := by decide +kernel
  have failing : ((exec (step (fun secret : Nat => secret)) {}
        (boxRegistered ++ [.attested 0 true 102, .persisted 0 false, .closed 0])).any fun s =>
      s.connections ⟨"box", "g"⟩ == some ⟨0, 0, some "i-1"⟩ &&
        s.sockets 0 == some ⟨.rejected .registrationFailed, true⟩) = true := by decide +kernel
  obtain ⟨s, ran, found⟩ := (Option.any_eq_true _ _).mp persisting
  obtain ⟨u, ran', found'⟩ := (Option.any_eq_true _ _).mp failing
  obtain ⟨entry, socket⟩ := (Bool.and_eq_true _ _).mp found
  obtain ⟨entry', socket'⟩ := (Bool.and_eq_true _ _).mp found'
  exact ⟨⟨s, ran, eq_of_beq entry, eq_of_beq socket, refuted s _ (eq_of_beq entry) (eq_of_beq socket)⟩,
    u, ran', eq_of_beq entry', eq_of_beq socket', refuted u _ (eq_of_beq entry') (eq_of_beq socket')⟩

end BoxRegistry
