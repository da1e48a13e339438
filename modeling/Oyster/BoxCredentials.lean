import Oyster.BoxLiveness

/-! What the registry keeps of the credentials of a registration: every property that its own
changes keep holds of the registration in memory, in a snapshot, and after a load. -/
namespace BoxRegistry
open Interleaving

structure Closed {η : Type} [DecidableEq η] (hashCredential : Nat → η) (Q : Record η → Prop) : Prop where
  touched : ∀ r r' : Record η, r'.bootstrapHash = r.bootstrapHash → r'.reconnectHash = r.reconnectHash →
    r'.bootstrapUsedAt = r.bootstrapUsedAt → r'.revokedAt = r.revokedAt → Q r → Q r'
  mismatched : ∀ r r' : Record η, r'.bootstrapHash = r.bootstrapHash →
    r'.bootstrapUsedAt = r.bootstrapUsedAt → r'.revokedAt.isSome = true → Q r → Q r'
  revoked : ∀ r r' : Record η, r'.bootstrapHash = none → r'.revokedAt.isSome = true → Q r → Q r'
  presented : ∀ (r : Record η) auth now fresh p, presentCredential hashCredential r auth now fresh = .ok p →
    Q r → Q p.1

/-- The registration of `key` is there and has the property. -/
def Memory {η : Type} (s : State η) (key : Key) (Q : Record η → Prop) : Prop :=
  ∃ record, s.record key = some record ∧ Q record

def Holds {η : Type} (key : Key) (Q : Record η → Prop) (registrations : List (Record η)) : Prop :=
  (∃ record ∈ registrations, record.key = key) ∧ ∀ record ∈ registrations, record.key = key → Q record

/-- What has awaited a load finds the registry loaded, and `authenticate` goes on with the
registration that the map refers to. -/
structure Settled {η : Type} (s : State η) : Prop where
  attached : ∀ k hello o closed, s.sockets k = some ⟨.attesting hello o, closed⟩ →
    s.loaded = true ∧ s.records.get hello.key = some o
  persisting : ∀ k key o epoch credential closed,
    s.sockets k = some ⟨.persisting key o epoch credential, closed⟩ → s.loaded = true
  ready : ∀ k hello closed, s.sockets k = some ⟨.loading hello none, closed⟩ → s.loaded = true
  finished : ∀ i, s.loads i = some .finished → s.loaded = true
  operations : ∀ i operation, s.operations i = some (operation, none) → s.loaded = true

section
variable {η : Type} {s t : State η} {key : Key} {Q : Record η → Prop} {record : Record η}

theorem record_eq_some :
    s.record key = some record ↔ ∃ o, s.records.get key = some o ∧ s.objects o = some record := by
  exact Option.bind_eq_some_iff

theorem Memory.frame (h : Memory s key Q) (objects : t.objects = s.objects) (records : t.records = s.records) :
    Memory t key Q := by
  obtain ⟨record, found, holds⟩ := h
  refine ⟨record, ?_, holds⟩
  rw [State.record, objects, records]
  exact found

variable {o : Nat}

theorem Memory.modifyObject (h : Memory s key Q) {f : Record η → Record η}
    (objects : t.objects = s.objects.modify o f) (records : t.records = s.records)
    (keeps : ∀ record, Q record → Q (f record)) : Memory t key Q := by
  obtain ⟨record, found, holds⟩ := h
  obtain ⟨p, there, was⟩ := record_eq_some.mp found
  by_cases same : p = o
  · subst same
    refine ⟨f record, record_eq_some.mpr ⟨p, records ▸ there, ?_⟩, keeps record holds⟩
    rw [objects, Calls.modify_self, was, Option.map_some]
  · refine ⟨record, record_eq_some.mpr ⟨p, records ▸ there, ?_⟩, holds⟩
    rw [objects, modify_of_ne p same, was]

theorem Memory.beginLoad (h : Memory s key Q) : Memory (BoxRegistry.beginLoad s).1 key Q := by
  obtain ⟨loads, nextLoad, same⟩ := beginLoad_eq s
  rw [same]
  exact h.frame rfl rfl

theorem Memory.allocate (h : Memory s key Q) (keyed : Keyed s) (other : record.key ≠ key) :
    Memory (s.allocate record) key Q := by
  obtain ⟨old, found, holds⟩ := h
  obtain ⟨p, there, was⟩ := record_eq_some.mp found
  refine ⟨old, record_eq_some.mpr ⟨p, ?_, ?_⟩, holds⟩
  · exact (OrderedMap.get_set_of_ne _ _ (Ne.symm other)).trans there
  · exact (Calls.put_of_ne _ _ (Nat.ne_of_lt (keyed.bounded p old was))).trans was

theorem Memory.registered (h : Memory s key Q) : s.records.get key ≠ none := by
  obtain ⟨record, found, _⟩ := h
  obtain ⟨o, there, _⟩ := record_eq_some.mp found
  rw [there]
  exact Option.some_ne_none o

theorem Memory.snapshot (h : Memory s key Q) (keyed : Keyed s) :
    Holds key Q (s.records.entries.filterMap fun e => s.objects e.2) := by
  obtain ⟨record, found, holds⟩ := h
  obtain ⟨o, there, was⟩ := record_eq_some.mp found
  constructor
  · obtain ⟨same, objects, equal⟩ := keyed.records key o there
    cases was.symm.trans objects
    exact ⟨record, List.mem_filterMap.mpr ⟨(key, o), OrderedMap.mem_of_get there, was⟩, equal⟩
  · intro other mem equal
    obtain ⟨⟨key', p⟩, entry, objects⟩ := List.mem_filterMap.mp mem
    have got : s.records.get key' = some p := OrderedMap.get_eq_some_iff.mpr entry
    obtain ⟨again, objects', named⟩ := keyed.records key' p got
    cases objects.symm.trans objects'
    obtain rfl := named.symm.trans equal
    cases got.symm.trans there
    cases was.symm.trans objects
    exact holds

/-! ### Load -/

/-- What `load` makes of the registrations is the last of each key, settled. -/
theorem allocateAll_record (registrations : List (Record η)) (s : State η) (keyed : Keyed s)
    (found : (registrations.foldl (fun s record => s.allocate record.settle) s).record key = some record) :
    (∃ read ∈ registrations, read.key = key ∧ record = read.settle) ∨ s.record key = some record := by
  induction registrations generalizing s with
  | nil => exact .inr found
  | cons first rest ih =>
    rcases ih (s.allocate first.settle) (keyed.allocate first.settle) found with ⟨read, mem, same⟩ | old
    · exact .inl ⟨read, List.mem_cons_of_mem _ mem, same⟩
    · obtain ⟨o, there, was⟩ := record_eq_some.mp old
      rcases OrderedMap.get_set_eq_some there with ⟨rfl, rfl⟩ | ⟨_, before⟩
      · cases (Calls.put_self ..).symm.trans was
        exact .inl ⟨first, List.mem_cons_self, first.settle_key.symm, rfl⟩
      · obtain ⟨present, objects, _⟩ := keyed.records key o before
        have apart : o ≠ s.nextObject := Nat.ne_of_lt (keyed.bounded o present objects)
        exact .inr (record_eq_some.mpr ⟨o, before, (Calls.put_of_ne _ _ apart).symm.trans was⟩)

theorem allocate_isSome (keyed : Keyed s) (record : Record η)
    (there : record.key = key ∨ (s.record key).isSome = true) : ((s.allocate record).record key).isSome = true := by
  by_cases same : record.key = key
  · have found : (s.allocate record).record key = some record :=
      record_eq_some.mpr ⟨s.nextObject, same ▸ OrderedMap.get_set_self .., Calls.put_self ..⟩
    rw [found]
    rfl
  · obtain ⟨old, found⟩ := Option.isSome_iff_exists.mp (there.resolve_left same)
    obtain ⟨kept, found, _⟩ := Memory.allocate (Q := fun _ => True) ⟨old, found, trivial⟩ keyed same
    rw [found]
    rfl

theorem allocateAll_isSome (registrations : List (Record η)) (s : State η) (keyed : Keyed s)
    (there : (∃ record ∈ registrations, record.key = key) ∨ (s.record key).isSome = true) :
    ((registrations.foldl (fun s record => s.allocate record.settle) s).record key).isSome = true := by
  induction registrations generalizing s with
  | nil =>
    rcases there with ⟨_, absurd, _⟩ | there
    · cases absurd
    · exact there
  | cons first rest ih =>
    refine ih (s.allocate first.settle) (keyed.allocate first.settle) ?_
    rcases there with ⟨record, mem, same⟩ | there
    · rcases List.mem_cons.mp mem with rfl | mem
      · exact .inr (allocate_isSome keyed _ (.inl (record.settle_key.trans same)))
      · exact .inl ⟨record, mem, same⟩
    · exact .inr (allocate_isSome keyed _ (.inr there))

theorem Record.settle_credentials (record : Record η) :
    record.settle.bootstrapHash = record.bootstrapHash ∧ record.settle.reconnectHash = record.reconnectHash ∧
      record.settle.bootstrapUsedAt = record.bootstrapUsedAt ∧ record.settle.revokedAt = record.revokedAt := by
  unfold Record.settle
  split_ifs <;> exact ⟨rfl, rfl, rfl, rfl⟩

section
variable [DecidableEq η] {hashCredential : Nat → η}

theorem Closed.settle (closed : Closed hashCredential Q) {record : Record η} (holds : Q record) :
    Q record.settle := by
  obtain ⟨bootstrap, reconnect, used, revoked⟩ := record.settle_credentials
  exact closed.touched record record.settle bootstrap reconnect used revoked holds

theorem Closed.finishLoad (closed : Closed hashCredential Q) (keyed : Keyed s) (i : Nat)
    {registrations : List (Record η)} (holds : Holds key Q registrations) :
    Memory (finishLoad s i (some registrations)) key Q := by
  have empty : ∀ other, ({ s with records := OrderedMap.empty } : State η).record other = none := fun _ => rfl
  have present := allocateAll_isSome registrations _ keyed.replaced (.inl holds.1)
  obtain ⟨record, found⟩ := Option.isSome_iff_exists.mp present
  refine ⟨record, found, ?_⟩
  rcases allocateAll_record registrations _ keyed.replaced found with ⟨read, mem, same, rfl⟩ | old
  · exact closed.settle (holds.2 read mem same)
  · rw [empty] at old
    cases old

/-! ### Steps -/

theorem Closed.onMessage (closed : Closed hashCredential Q) (h : Memory s key Q) (own : Key) (o epoch : Nat)
    (frame : Frame) (now : Nat) : Memory (onMessage s own o epoch frame now) key Q := by
  unfold BoxRegistry.onMessage
  split_ifs
  · cases frame with
    | heartbeat => exact h.modifyObject rfl rfl fun record => closed.touched record _ rfl rfl rfl rfl
    | status observed => exact h.modifyObject rfl rfl fun record => closed.touched record _ rfl rfl rfl rfl
    | _ => exact h
  · exact h

theorem Closed.onClose (closed : Closed hashCredential Q) (h : Memory s key Q) (k : Nat) (phase : Phase) :
    Memory (onClose s k phase) key Q := by
  have flagged : Memory { s with sockets := s.sockets.modify k fun socket => { socket with closed := true } }
      key Q := h.frame rfl rfl
  unfold BoxRegistry.onClose
  cases phase with
  | authenticated own o epoch =>
    dsimp only
    split_ifs
    · exact flagged.modifyObject rfl rfl fun record => closed.touched record _ rfl rfl rfl rfl
    · exact flagged
  | _ => exact flagged

theorem Closed.operate (closed : Closed hashCredential Q) (h : Memory s key Q) (keyed : Keyed s) (now : Nat)
    (operation : Operation) : Memory (operate hashCredential s now operation) key Q := by
  cases operation with
  | prepareRegistration own provider ttlMs =>
    unfold BoxRegistry.operate
    dsimp only
    split_ifs with absent
    · refine (h.allocate keyed ?_).frame rfl rfl
      rintro rfl
      exact h.registered absent.1
    · exact h
  | bindProviderInstance own instanceId =>
    unfold BoxRegistry.operate
    dsimp only
    split_ifs
    · unfold BoxRegistry.bindProviderInstance
      split
      · split_ifs
        · exact h
        · exact h.modifyObject rfl rfl fun record => closed.mismatched record _ rfl rfl rfl
        · exact h.modifyObject rfl rfl fun record => closed.touched record _ rfl rfl rfl rfl
      · exact h
    · exact h
  | revoke own =>
    show Memory (BoxRegistry.revoke s own now) key Q
    unfold BoxRegistry.revoke
    cases s.records.get own with
    | none => exact h
    | some o =>
      refine h.modifyObject (f := fun record => { record with
        revokedAt := some now, bootstrapHash := none, reconnectHash := none, status := .failed }) rfl rfl ?_
      exact fun record => closed.revoked record _ rfl rfl
  | read => exact h

theorem Closed.install (closed : Closed hashCredential Q) (h : Memory s key Q) (keyed : Keyed s) {k o now : Nat}
    {hello : Hello} {record : Record η} {presented : Record η × Option Nat}
    (attached : s.records.get hello.key = some o) (there : s.objects o = some record) {fresh : Nat}
    (accepted : presentCredential hashCredential record hello.auth now fresh = .ok presented) :
    Memory (install s k hello o presented.1 presented.2 now) key Q := by
  obtain ⟨own, found, holds⟩ := h
  obtain ⟨p, refers, was⟩ := record_eq_some.mp found
  by_cases same : hello.key = key
  · subst same
    cases attached.symm.trans refers
    cases there.symm.trans was
    refine ⟨presented.1.connect hello now, record_eq_some.mpr ⟨o, OrderedMap.get_set_self .., Calls.put_self ..⟩, ?_⟩
    exact closed.touched presented.1 _ rfl rfl rfl rfl (closed.presented record hello.auth now fresh presented accepted holds)
  · obtain ⟨mine, objects, named⟩ := keyed.records hello.key o attached
    obtain ⟨yours, objects', named'⟩ := keyed.records key p refers
    have apart : p ≠ o := by
      rintro rfl
      cases objects.symm.trans objects'
      exact same (named.symm.trans named')
    refine ⟨own, record_eq_some.mpr ⟨p, ?_, ?_⟩, holds⟩
    · exact (OrderedMap.get_set_of_ne _ _ (Ne.symm same)).trans refers
    · exact (Calls.put_of_ne _ _ apart).trans was

theorem Closed.step (closed : Closed hashCredential Q) (h : Memory s key Q) (sound : Sound s) (settled : Settled s)
    {a : Action η} (taken : step hashCredential s a = some t) (other : ∀ i, a ≠ .loaded i) : Memory t key Q := by
  cases a with
  | opened =>
    cases taken
    exact h.frame rfl rfl
  | firstMessage k frame =>
    simp only [BoxRegistry.step] at taken
    split at taken
    · cases taken
      unfold onFirstMessage
      cases frame with
      | hello hello =>
        dsimp only
        split_ifs
        · exact h.beginLoad.frame rfl rfl
        · exact h.frame rfl rfl
      | _ => exact h.frame rfl rfl
    · cases taken
  | read i registrations =>
    simp only [BoxRegistry.step] at taken
    split at taken
    · cases taken
      exact h.frame rfl rfl
    · cases taken
  | readFails i =>
    simp only [BoxRegistry.step] at taken
    split at taken
    · cases taken
      exact h.frame rfl rfl
    · cases taken
  | loaded i => exact absurd rfl (other i)
  | afterLoad k =>
    simp only [BoxRegistry.step] at taken
    split at taken
    · rename_i hello load shut found
      obtain ⟨ended, _, rfl⟩ := Option.map_eq_some_iff.mp taken
      unfold afterLoad
      cases ended with
      | error error => exact h.frame rfl rfl
      | ok ok =>
        cases identify s hello with
        | error error => exact h.frame rfl rfl
        | ok o => exact h.frame rfl rfl
    · cases taken
  | attested k verified now =>
    simp only [BoxRegistry.step] at taken
    split at taken
    · rename_i hello o shut found
      cases taken
      cases verified with
      | false => exact h.frame rfl rfl
      | true =>
        rcases authenticate_cases hashCredential s k hello o now with ⟨_, error, same⟩ |
          ⟨record, presented, there, accepted, same⟩
        · rw [if_pos rfl, same]
          exact h.frame rfl rfl
        · rw [if_pos rfl, same]
          exact closed.install h sound.keyed (settled.attached k hello o shut found).2 there accepted
    · cases taken
  | persisted k written =>
    simp only [BoxRegistry.step] at taken
    split at taken
    · cases taken
      exact h.frame rfl rfl
    · cases taken
  | message k frame now =>
    simp only [BoxRegistry.step] at taken
    split at taken
    · cases taken
      exact closed.onMessage h _ _ _ frame now
    · cases taken
  | closed k =>
    simp only [BoxRegistry.step] at taken
    split at taken
    · cases taken
      exact closed.onClose h k _
    · cases taken
  | call operation =>
    cases taken
    exact h.beginLoad.frame rfl rfl
  | operate i now =>
    simp only [BoxRegistry.step] at taken
    split at taken
    · rename_i operation load found
      obtain ⟨ended, _, rfl⟩ := Option.map_eq_some_iff.mp taken
      have dropped : Memory { s with operations := s.operations.drop i } key Q := h.frame rfl rfl
      cases ended with
      | ok ok => exact closed.operate dropped (sound.keyed.frame rfl rfl rfl rfl) now operation
      | error error => exact dropped
    · cases taken
  | close =>
    cases taken
    exact h.frame rfl rfl

end

/-! ### What has been awaited -/

def Phase.Justified (phase : Phase) (s : State η) : Prop :=
  match phase with
  | .attesting hello o => s.loaded = true ∧ s.records.get hello.key = some o
  | .persisting _ _ _ _ | .loading _ none => s.loaded = true
  | _ => True

variable {k : Nat} {socket : Socket}

theorem Settled.justified (h : Settled s) (found : s.sockets k = some socket) : socket.phase.Justified s := by
  obtain ⟨phase, closed⟩ := socket
  cases phase with
  | attesting hello o => exact h.attached k hello o closed found
  | persisting own o epoch credential => exact h.persisting k own o epoch credential closed found
  | loading hello load =>
    cases load with
    | none => exact h.ready k hello closed found
    | some i => trivial
  | _ => trivial

theorem Settled.intro (sockets : ∀ k socket, s.sockets k = some socket → socket.phase.Justified s)
    (finished : ∀ i, s.loads i = some .finished → s.loaded = true)
    (operations : ∀ i operation, s.operations i = some (operation, none) → s.loaded = true) : Settled s := by
  constructor
  · exact fun k hello o closed found => sockets k _ found
  · exact fun k own o epoch credential closed found => sockets k _ found
  · exact fun k hello closed found => sockets k _ found
  · exact finished
  · exact operations

theorem Settled.init (nextSecret nextSocket : Nat) : Settled ({ nextSecret, nextSocket } : State η) :=
  Settled.intro (fun _ _ absurd => nomatch absurd) (fun _ absurd => nomatch absurd) fun _ _ absurd => nomatch absurd

variable {phase : Phase}

theorem Phase.Justified.mono (h : phase.Justified s) (loaded : s.loaded = true → t.loaded = true)
    (records : s.loaded = true → ∀ key o, s.records.get key = some o → t.records.get key = some o) :
    phase.Justified t := by
  cases phase with
  | attesting hello o => exact ⟨loaded h.1, records h.1 _ _ h.2⟩
  | persisting own o epoch credential => exact loaded h
  | loading hello load =>
    cases load with
    | none => exact loaded h
    | some i => trivial
  | _ => trivial

theorem Settled.extend (h : Settled s) (loaded : s.loaded = true → t.loaded = true)
    (records : s.loaded = true → ∀ key o, s.records.get key = some o → t.records.get key = some o)
    (sockets : ∀ k socket, t.sockets k = some socket →
      (∃ before, s.sockets k = some before ∧ before.phase = socket.phase) ∨ socket.phase.Justified t)
    (loads : ∀ i, t.loads i = some .finished → s.loads i = some .finished ∨ t.loaded = true)
    (operations : ∀ i operation, t.operations i = some (operation, none) →
      s.operations i = some (operation, none) ∨ t.loaded = true) : Settled t := by
  refine Settled.intro (fun k socket found => ?_) (fun i ended => ?_) fun i operation found => ?_
  · rcases sockets k socket found with ⟨before, was, same⟩ | known
    · rw [← same]
      exact (h.justified was).mono loaded records
    · exact known
  · exact (loads i ended).elim (fun was => loaded (h.finished i was)) id
  · exact (operations i operation found).elim (fun was => loaded (h.operations i operation was)) id

theorem Settled.frame (h : Settled s) (loaded : t.loaded = s.loaded) (records : t.records = s.records)
    (sockets : t.sockets = s.sockets) (loads : t.loads = s.loads) (operations : t.operations = s.operations) :
    Settled t := by
  refine h.extend (fun was => loaded.trans was) (fun _ key o was => records ▸ was) (fun k socket found => ?_)
    (fun i was => .inl (loads ▸ was)) fun i operation was => .inl (operations ▸ was)
  exact .inl ⟨socket, sockets ▸ found, rfl⟩

theorem Settled.setPhase (h : Settled s) (k : Nat) (known : phase.Justified s) : Settled (s.setPhase k phase) := by
  refine h.extend id (fun _ _ _ => id) (fun j socket found => ?_) (fun _ => .inl) fun _ _ => .inl
  obtain ⟨_, _, _, rfl⟩ | ⟨_, was⟩ := Calls.modify_eq_some found
  · exact .inr known
  · exact .inl ⟨socket, was, rfl⟩

theorem loadEnded_loaded (h : Settled s) {load : Option Nat} (ready : load = none → s.loaded = true)
    (ended : s.loadEnded load = some (.ok ())) : s.loaded = true := by
  unfold State.loadEnded at ended
  cases load with
  | none => exact ready rfl
  | some i =>
    dsimp only at ended
    split at ended
    · rename_i found
      exact h.finished i found
    · cases ended
    · cases ended

theorem Settled.beginLoad (h : Settled s) : Settled (beginLoad s).1 ∧ (beginLoad s).1.loaded = s.loaded ∧
    ((beginLoad s).2 = none → s.loaded = true) := by
  unfold BoxRegistry.beginLoad
  split_ifs with loaded
  · exact ⟨h, rfl, fun _ => loaded⟩
  · refine ⟨h.extend id (fun _ _ _ => id) (fun _ socket found => .inl ⟨socket, found, rfl⟩) (fun i ended => ?_)
      fun _ _ => .inl, rfl, fun absurd => nomatch absurd⟩
    rcases Calls.put_eq_some ended with ⟨_, absurd⟩ | ⟨_, was⟩
    · cases absurd
    · exact .inl was

theorem operate_settled (hashCredential : Nat → η) (s : State η) (now : Nat) (operation : Operation) :
    (operate hashCredential s now operation).loaded = s.loaded ∧
      (operate hashCredential s now operation).loads = s.loads ∧
      (operate hashCredential s now operation).operations = s.operations ∧
      ∀ key o, s.records.get key = some o → (operate hashCredential s now operation).records.get key = some o := by
  cases operation with
  | prepareRegistration own provider ttlMs =>
    unfold operate
    dsimp only
    split_ifs with absent
    · refine ⟨rfl, rfl, rfl, fun key o found => ?_⟩
      have other : key ≠ own := by
        rintro rfl
        cases absent.1.symm.trans found
      exact (OrderedMap.get_set_of_ne _ _ other).trans found
    · exact ⟨rfl, rfl, rfl, fun _ _ => id⟩
  | bindProviderInstance own instanceId =>
    unfold operate
    dsimp only
    split_ifs
    · unfold bindProviderInstance
      split
      · split_ifs <;> exact ⟨rfl, rfl, rfl, fun _ _ => id⟩
      · exact ⟨rfl, rfl, rfl, fun _ _ => id⟩
    · exact ⟨rfl, rfl, rfl, fun _ _ => id⟩
  | revoke own =>
    show (revoke s own now).loaded = s.loaded ∧ (revoke s own now).loads = s.loads ∧
      (revoke s own now).operations = s.operations ∧
      ∀ key o, s.records.get key = some o → (revoke s own now).records.get key = some o
    unfold revoke
    cases s.records.get own with
    | none => exact ⟨rfl, rfl, rfl, fun _ _ => id⟩
    | some o => exact ⟨rfl, rfl, rfl, fun _ _ => id⟩
  | read => exact ⟨rfl, rfl, rfl, fun _ _ => id⟩

theorem finishLoad_operations (s : State η) (i : Nat) (registrations : Option (List (Record η))) :
    (finishLoad s i registrations).operations = s.operations ∧
      ∀ j, j ≠ i → (finishLoad s i registrations).loads j = s.loads j := by
  have kept : ∀ (records : List (Record η)) (u : State η),
      (records.foldl (fun s record => s.allocate record.settle) u).operations = u.operations ∧
        (records.foldl (fun s record => s.allocate record.settle) u).loads = u.loads := by
    intro records
    induction records with
    | nil => exact fun u => ⟨rfl, rfl⟩
    | cons record rest ih => exact fun u => ih (u.allocate record.settle)
  cases registrations with
  | none => exact ⟨rfl, fun j other => Calls.put_of_ne _ _ other⟩
  | some records =>
    obtain ⟨operations, loads⟩ := kept records { s with records := OrderedMap.empty }
    exact ⟨operations, fun j other => (Calls.put_of_ne _ _ other).trans (congrFun loads j)⟩

section
variable [DecidableEq η] {hashCredential : Nat → η}

theorem Settled.step (h : Settled s) {a : Action η} (taken : step hashCredential s a = some t)
    (single : ∀ i, a = .loaded i → s.loaded = false) : Settled t := by
  cases a with
  | opened =>
    cases taken
    refine h.extend id (fun _ _ _ => id) (fun k socket found => ?_) (fun _ => .inl) fun _ _ => .inl
    rcases Calls.put_eq_some found with ⟨_, rfl⟩ | ⟨_, was⟩
    · exact .inr trivial
    · exact .inl ⟨socket, was, rfl⟩
  | firstMessage k frame =>
    simp only [BoxRegistry.step] at taken
    split at taken
    · cases taken
      obtain ⟨begun, loaded, ready⟩ := h.beginLoad
      unfold onFirstMessage
      cases frame with
      | hello hello =>
        dsimp only
        split_ifs
        · refine begun.setPhase k ?_
          cases load : (BoxRegistry.beginLoad s).2 with
          | none => exact loaded.trans (ready load)
          | some i => trivial
        · exact h.setPhase k trivial
      | _ => exact h.setPhase k trivial
    · cases taken
  | read i registrations =>
    simp only [BoxRegistry.step] at taken
    split at taken
    · cases taken
      refine h.extend id (fun _ _ _ => id) (fun _ socket found => .inl ⟨socket, found, rfl⟩) (fun j ended => ?_)
        fun _ _ => .inl
      rcases Calls.put_eq_some ended with ⟨_, absurd⟩ | ⟨_, was⟩
      · cases absurd
      · exact .inl was
    · cases taken
  | readFails i =>
    simp only [BoxRegistry.step] at taken
    split at taken
    · cases taken
      refine h.extend id (fun _ _ _ => id) (fun _ socket found => .inl ⟨socket, found, rfl⟩) (fun j ended => ?_)
        fun _ _ => .inl
      rcases Calls.put_eq_some ended with ⟨_, absurd⟩ | ⟨_, was⟩
      · cases absurd
      · exact .inl was
    · cases taken
  | loaded i =>
    have before := single i rfl
    simp only [BoxRegistry.step] at taken
    split at taken
    · rename_i registrations found
      cases taken
      obtain ⟨sockets, _, _, _⟩ := finishLoad_keeps s i registrations
      refine h.extend (fun _ => rfl) (fun absurd => ?_) (fun k socket there => ?_) (fun _ _ => .inr rfl)
        fun _ _ _ => .inr rfl
      · rw [before] at absurd
        cases absurd
      · exact .inl ⟨socket, sockets ▸ there, rfl⟩
    · cases taken
  | afterLoad k =>
    simp only [BoxRegistry.step] at taken
    split at taken
    · rename_i hello load shut found
      obtain ⟨ended, done, rfl⟩ := Option.map_eq_some_iff.mp taken
      unfold afterLoad
      cases ended with
      | error error => exact h.setPhase k trivial
      | ok ok =>
        cases identified : identify s hello with
        | error error => exact h.setPhase k trivial
        | ok o =>
          have loaded := loadEnded_loaded h (fun none => h.ready k hello shut (none ▸ found)) done
          exact h.setPhase k ⟨loaded, identify_ok identified⟩
    · cases taken
  | attested k verified now =>
    simp only [BoxRegistry.step] at taken
    split at taken
    · rename_i hello o shut found
      cases taken
      obtain ⟨loaded, attached⟩ := h.attached k hello o shut found
      cases verified with
      | false => exact h.setPhase k trivial
      | true =>
        rcases authenticate_cases hashCredential s k hello o now with ⟨_, error, same⟩ |
          ⟨record, presented, there, accepted, same⟩
        · rw [if_pos rfl, same]
          exact h.setPhase k trivial
        · rw [if_pos rfl, same]
          refine h.extend id (fun _ key p was => ?_) (fun j socket there => ?_) (fun _ => .inl) fun _ _ => .inl
          · by_cases equal : key = hello.key
            · subst equal
              cases attached.symm.trans was
              exact OrderedMap.get_set_self ..
            · exact (OrderedMap.get_set_of_ne _ _ equal).trans was
          · obtain ⟨_, _, _, rfl⟩ | ⟨_, was⟩ := Calls.modify_eq_some there
            · exact .inr loaded
            · exact .inl ⟨socket, was, rfl⟩
    · cases taken
  | persisted k written =>
    simp only [BoxRegistry.step] at taken
    split at taken
    · cases taken
      refine h.setPhase k ?_
      cases written <;> trivial
    · cases taken
  | message k frame now =>
    simp only [BoxRegistry.step] at taken
    split at taken
    · cases taken
      unfold onMessage
      split_ifs
      · cases frame with
        | heartbeat => exact h.frame rfl rfl rfl rfl rfl
        | status observed => exact h.frame rfl rfl rfl rfl rfl
        | _ => exact h
      · exact h
    · cases taken
  | closed k =>
    simp only [BoxRegistry.step] at taken
    split at taken
    · rename_i phase found
      cases taken
      have flagged : Settled { s with sockets := s.sockets.modify k fun socket => { socket with closed := true } } := by
        refine h.extend id (fun _ _ _ => id) (fun j socket there => ?_) (fun _ => .inl) fun _ _ => .inl
        obtain ⟨rfl, before, was, rfl⟩ | ⟨_, was⟩ := Calls.modify_eq_some there
        · exact .inl ⟨before, was, rfl⟩
        · exact .inl ⟨socket, was, rfl⟩
      unfold onClose
      cases phase with
      | authenticated own o epoch =>
        dsimp only
        split_ifs
        · exact flagged.frame rfl rfl rfl rfl rfl
        · exact flagged
      | _ => exact flagged
    · cases taken
  | call operation =>
    cases taken
    obtain ⟨begun, loaded, ready⟩ := h.beginLoad
    refine begun.extend id (fun _ _ _ => id) (fun _ socket found => .inl ⟨socket, found, rfl⟩) (fun _ => .inl)
      fun i other found => ?_
    rcases Calls.put_eq_some found with ⟨_, same⟩ | ⟨_, was⟩
    · exact .inr (loaded.trans (ready (Prod.mk.inj same).2.symm))
    · exact .inl was
  | operate i now =>
    simp only [BoxRegistry.step] at taken
    split at taken
    · rename_i operation load found
      obtain ⟨ended, _, rfl⟩ := Option.map_eq_some_iff.mp taken
      have dropped : Settled { s with operations := s.operations.drop i } :=
        h.extend id (fun _ _ _ => id) (fun _ socket found => .inl ⟨socket, found, rfl⟩) (fun _ => .inl)
          fun j other was => .inl (Calls.drop_eq_some was).2
      cases ended with
      | ok ok =>
        obtain ⟨loaded, loads, operations, records⟩ :=
          operate_settled hashCredential { s with operations := s.operations.drop i } now operation
        obtain ⟨sockets, _⟩ :=
          operate_keeps hashCredential { s with operations := s.operations.drop i } now operation
        refine dropped.extend (fun was => loaded.trans was) (fun _ => records) (fun k socket there => ?_)
          (fun j was => .inl (loads ▸ was)) fun j other was => .inl (operations ▸ was)
        exact .inl ⟨socket, sockets ▸ there, rfl⟩
      | error error => exact dropped
    · cases taken
  | close =>
    cases taken
    exact h.frame rfl rfl rfl rfl rfl

end

/-! ### How a registry evolves -/

/-- A phase that a socket comes to, unless it installs a connection or gets its hello. -/
def Phase.Follows (before after : Phase) : Prop :=
  after = before ∨ (∃ error, after = .rejected error) ∨
    (∃ hello load o, before = .loading hello load ∧ after = .attesting hello o) ∨
    ∃ own o epoch credential, before = .persisting own o epoch credential ∧ after = .authenticated own o epoch

def Phase.named : Phase → Option Key
  | .fresh | .rejected _ => none
  | .loading hello _ | .attesting hello _ => some hello.key
  | .persisting own _ _ _ | .authenticated own _ _ => some own

variable {before after : Phase} {own : Key}

theorem Phase.Follows.named (h : before.Follows after) (same : after.named = some own) : before.named = some own := by
  rcases h with rfl | ⟨error, rfl⟩ | ⟨hello, load, o, rfl, rfl⟩ | ⟨key, o, epoch, credential, rfl, rfl⟩
  · exact same
  · cases same
  · exact same
  · exact same

theorem Phase.Follows.persisting (h : before.Follows after) {epoch : Nat} {credential : Option Nat}
    (same : after = .persisting own o epoch credential) : before = after := by
  subst same
  rcases h with same | ⟨error, absurd⟩ | ⟨hello, load, o, _, absurd⟩ | ⟨key, o, epoch, credential, _, absurd⟩
  · exact same.symm
  · cases absurd
  · cases absurd
  · cases absurd

theorem operate_nextSocket (hashCredential : Nat → η) (s : State η) (now : Nat) (operation : Operation) :
    (operate hashCredential s now operation).nextSocket = s.nextSocket := by
  cases operation with
  | prepareRegistration own provider ttlMs =>
    unfold operate
    dsimp only
    split_ifs <;> rfl
  | bindProviderInstance own instanceId =>
    unfold operate
    dsimp only
    split_ifs
    · unfold bindProviderInstance
      split
      · split_ifs <;> rfl
      · rfl
    · rfl
  | revoke own =>
    show (revoke s own now).nextSocket = s.nextSocket
    unfold revoke
    cases s.records.get own <;> rfl
  | read => rfl

/-- The steps but `attested`, as far as the hub's file and its sockets are concerned. -/
structure Evolves (a : Action η) (s t : State η) : Prop where
  nextSocket : s.nextSocket ≤ t.nextSocket
  loaded : (∀ i, a ≠ .loaded i) → t.loaded = s.loaded
  parsed : ∀ i registrations, t.loads i = some (.parsed registrations) →
    s.loads i = some (.parsed registrations) ∨ a = .read i registrations
  sockets : ∀ k socket, t.sockets k = some socket →
    (∃ before, s.sockets k = some before ∧ before.phase.Follows socket.phase) ∨
      (k = s.nextSocket ∧ socket.phase = .fresh) ∨
      ∃ closed hello load, s.sockets k = some ⟨.fresh, closed⟩ ∧ a = .firstMessage k (.hello hello) ∧
        socket.phase = .loading hello load

variable {a : Action η}

theorem Evolves.same (nextSocket : t.nextSocket = s.nextSocket) (loaded : t.loaded = s.loaded)
    (loads : t.loads = s.loads) (sockets : t.sockets = s.sockets) : Evolves a s t :=
  ⟨Nat.le_of_eq nextSocket.symm, fun _ => loaded, fun _ _ found => .inl (loads ▸ found),
    fun _ socket found => .inl ⟨socket, sockets ▸ found, .inl rfl⟩⟩

theorem Evolves.setPhase (found : s.sockets k = some socket) (follows : socket.phase.Follows phase) :
    Evolves a s (s.setPhase k phase) := by
  refine ⟨Nat.le_refl _, fun _ => rfl, fun _ _ => .inl, fun j other there => .inl ?_⟩
  obtain ⟨rfl, before, was, rfl⟩ | ⟨_, was⟩ := Calls.modify_eq_some there
  · cases found.symm.trans was
    exact ⟨socket, was, follows⟩
  · exact ⟨other, was, .inl rfl⟩

theorem beginLoad_evolves (s : State η) : (beginLoad s).1.nextSocket = s.nextSocket ∧
    (beginLoad s).1.loaded = s.loaded ∧ (beginLoad s).1.sockets = s.sockets ∧
    ∀ i registrations, (beginLoad s).1.loads i = some (.parsed registrations) →
      s.loads i = some (.parsed registrations) := by
  unfold beginLoad
  split_ifs
  · exact ⟨rfl, rfl, rfl, fun _ _ => id⟩
  · refine ⟨rfl, rfl, rfl, fun i registrations found => ?_⟩
    rcases Calls.put_eq_some found with ⟨_, absurd⟩ | ⟨_, was⟩
    · cases absurd
    · exact was

theorem onFirstMessage_evolves {closed : Bool} (found : s.sockets k = some ⟨.fresh, closed⟩) (frame : Frame) :
    Evolves (.firstMessage k frame) s (onFirstMessage s k frame) := by
  have rejects : ∀ error, Evolves (.firstMessage k frame) s (s.setPhase k (.rejected error)) :=
    fun error => Evolves.setPhase found (.inr (.inl ⟨error, rfl⟩))
  unfold onFirstMessage
  cases frame with
  | hello hello =>
    dsimp only
    split_ifs
    · obtain ⟨nextSocket, loaded, sockets, loads⟩ := beginLoad_evolves s
      refine ⟨Nat.le_of_eq nextSocket.symm, fun _ => loaded, fun i registrations parsed => .inl (loads i registrations parsed),
        fun j socket there => ?_⟩
      obtain ⟨rfl, _, _, rfl⟩ | ⟨_, was⟩ := Calls.modify_eq_some there
      · exact .inr (.inr ⟨closed, hello, (beginLoad s).2, found, rfl, rfl⟩)
      · exact .inl ⟨socket, sockets ▸ was, .inl rfl⟩
    · exact rejects _
  | _ => exact rejects _

section
variable [DecidableEq η] {hashCredential : Nat → η}

theorem evolves {a : Action η} (taken : step hashCredential s a = some t)
    (other : ∀ k verified now, a ≠ .attested k verified now) : Evolves a s t := by
  cases a with
  | opened =>
    cases taken
    refine ⟨Nat.le_succ _, fun _ => rfl, fun _ _ => .inl, fun k socket found => ?_⟩
    rcases Calls.put_eq_some found with ⟨same, rfl⟩ | ⟨_, was⟩
    · exact .inr (.inl ⟨same, rfl⟩)
    · exact .inl ⟨socket, was, .inl rfl⟩
  | firstMessage k frame =>
    simp only [step] at taken
    split at taken
    · rename_i found
      cases taken
      exact onFirstMessage_evolves found frame
    · cases taken
  | read i registrations =>
    simp only [step] at taken
    split at taken
    · cases taken
      refine ⟨Nat.le_refl _, fun _ => rfl, fun j read found => ?_, fun _ socket there => .inl ⟨socket, there, .inl rfl⟩⟩
      rcases Calls.put_eq_some found with ⟨rfl, same⟩ | ⟨_, was⟩
      · cases same
        exact .inr rfl
      · exact .inl was
    · cases taken
  | readFails i =>
    simp only [step] at taken
    split at taken
    · cases taken
      refine ⟨Nat.le_refl _, fun _ => rfl, fun j read found => ?_, fun _ socket there => .inl ⟨socket, there, .inl rfl⟩⟩
      rcases Calls.put_eq_some found with ⟨_, absurd⟩ | ⟨_, was⟩
      · cases absurd
      · exact .inl was
    · cases taken
  | loaded i =>
    simp only [step] at taken
    split at taken
    · rename_i registrations found
      cases taken
      obtain ⟨sockets, _, _, nextSocket⟩ := finishLoad_keeps s i registrations
      obtain ⟨_, loads⟩ := finishLoad_operations s i registrations
      refine ⟨Nat.le_of_eq nextSocket.symm, fun absurd => absurd i rfl |>.elim, fun j read there => .inl ?_,
        fun _ socket there => .inl ⟨socket, sockets ▸ there, .inl rfl⟩⟩
      by_cases same : j = i
      · subst same
        cases (Calls.put_self ..).symm.trans there
      · rw [loads j same] at there
        exact there
    · cases taken
  | afterLoad k =>
    simp only [step] at taken
    split at taken
    · rename_i hello load shut found
      obtain ⟨ended, done, rfl⟩ := Option.map_eq_some_iff.mp taken
      unfold afterLoad
      cases ended with
      | error error => exact Evolves.setPhase found (.inr (.inl ⟨_, rfl⟩))
      | ok ok =>
        cases identified : identify s hello with
        | error error => exact Evolves.setPhase found (.inr (.inl ⟨_, rfl⟩))
        | ok o => exact Evolves.setPhase found (.inr (.inr (.inl ⟨hello, load, o, rfl, rfl⟩)))
    · cases taken
  | attested k verified now => exact absurd rfl (other k verified now)
  | persisted k written =>
    simp only [step] at taken
    split at taken
    · rename_i own o epoch credential shut found
      cases taken
      cases written with
      | false => exact Evolves.setPhase found (.inr (.inl ⟨_, rfl⟩))
      | true => exact Evolves.setPhase found (.inr (.inr (.inr ⟨own, o, epoch, credential, rfl, rfl⟩)))
    · cases taken
  | message k frame now =>
    simp only [step] at taken
    split at taken
    · cases taken
      unfold onMessage
      split_ifs
      · cases frame with
        | _ => exact Evolves.same rfl rfl rfl rfl
      · exact Evolves.same rfl rfl rfl rfl
    · cases taken
  | closed k =>
    simp only [step] at taken
    split at taken
    · rename_i phase found
      cases taken
      have sockets := onClose_sockets s k phase
      have kept : (onClose s k phase).loaded = s.loaded ∧ (onClose s k phase).loads = s.loads := by
        unfold onClose
        cases phase with
        | authenticated own o epoch =>
          dsimp only
          split_ifs <;> exact ⟨rfl, rfl⟩
        | _ => exact ⟨rfl, rfl⟩
      refine ⟨Nat.le_of_eq (onClose_counters s k phase).2.symm, fun _ => kept.1, fun _ _ there => .inl (kept.2 ▸ there), fun j socket there => .inl ?_⟩
      rw [sockets] at there
      obtain ⟨rfl, before, was, rfl⟩ | ⟨_, was⟩ := Calls.modify_eq_some there
      · exact ⟨before, was, .inl rfl⟩
      · exact ⟨socket, was, .inl rfl⟩
    · cases taken
  | call operation =>
    cases taken
    obtain ⟨nextSocket, loaded, sockets, loads⟩ := beginLoad_evolves s
    exact ⟨Nat.le_of_eq nextSocket.symm, fun _ => loaded, fun i registrations parsed => .inl (loads i registrations parsed),
      fun _ socket there => .inl ⟨socket, sockets ▸ there, .inl rfl⟩⟩
  | operate i now =>
    simp only [step] at taken
    split at taken
    · rename_i operation load found
      obtain ⟨ended, _, rfl⟩ := Option.map_eq_some_iff.mp taken
      cases ended with
      | ok ok =>
        obtain ⟨loaded, loads, _, _⟩ :=
          operate_settled hashCredential { s with operations := s.operations.drop i } now operation
        obtain ⟨sockets, _⟩ :=
          operate_keeps hashCredential { s with operations := s.operations.drop i } now operation
        have nextSocket := operate_nextSocket hashCredential { s with operations := s.operations.drop i } now operation
        exact Evolves.same nextSocket loaded loads sockets
      | error error => exact Evolves.same rfl rfl rfl rfl
    · cases taken
  | close =>
    cases taken
    exact Evolves.same rfl rfl rfl rfl

end

end

end BoxRegistry
