import Oyster.BoxCredentials
import Oyster.BoxHandshake

/-! The registration of a box in memory, in the file and in the writes under way is never behind
what the agent has been told: what holds of the snapshot that has told it goes on to hold. -/
namespace BoxHandshake
open Interleaving BoxRegistry

section
variable {η : Type} (hashCredential : Nat → η)

def Valid (secret : Nat) (record : Record η) : Prop :=
  (record.bootstrapUsedAt = none ∧ record.bootstrapHash = some (hashCredential secret)) ∨
    record.bootstrapHash = none ∧ (record.revokedAt = none → record.bootstrapUsedAt.isSome = true)

/-- The bootstrap secret has been exchanged for `credential`. -/
def Spent (credential : Nat) (record : Record η) : Prop :=
  record.bootstrapHash = none ∧ (record.revokedAt = none →
    record.bootstrapUsedAt.isSome = true ∧ record.reconnectHash = some (hashCredential credential))

variable [DecidableEq η]

theorem valid_closed (secret : Nat) : Closed hashCredential (Valid hashCredential secret) := by
  constructor
  · intro r r' bootstrap _ used revoked valid
    unfold Valid
    rw [bootstrap, used, revoked]
    exact valid
  · intro r r' bootstrap used revoked valid
    rcases valid with ⟨unused, present⟩ | ⟨absent, _⟩
    · exact .inl ⟨used.trans unused, bootstrap.trans present⟩
    · refine .inr ⟨bootstrap.trans absent, fun alive => ?_⟩
      rw [alive] at revoked
      cases revoked
  · intro r r' bootstrap revoked _
    refine .inr ⟨bootstrap, fun alive => ?_⟩
    rw [alive] at revoked
    cases revoked
  · intro r auth now fresh p accepted valid
    unfold presentCredential at accepted
    cases auth with
    | bootstrap secret =>
      dsimp only at accepted
      split_ifs at accepted
      cases accepted
      exact .inr ⟨rfl, fun _ => rfl⟩
    | reconnect credential =>
      dsimp only at accepted
      split_ifs at accepted
      cases accepted
      exact valid
    | other => cases accepted

theorem spent_closed (credential : Nat) : Closed hashCredential (Spent hashCredential credential) := by
  constructor
  · intro r r' bootstrap reconnect used revoked spent
    unfold Spent
    rw [bootstrap, reconnect, used, revoked]
    exact spent
  · intro r r' bootstrap _ revoked spent
    refine ⟨bootstrap.trans spent.1, fun alive => ?_⟩
    rw [alive] at revoked
    cases revoked
  · intro r r' bootstrap revoked _
    refine ⟨bootstrap, fun alive => ?_⟩
    rw [alive] at revoked
    cases revoked
  · intro r auth now fresh p accepted spent
    unfold presentCredential at accepted
    cases auth with
    | bootstrap secret =>
      dsimp only at accepted
      rw [spent.1] at accepted
      split_ifs at accepted with _ matching
      cases matching
    | reconnect credential =>
      dsimp only at accepted
      split_ifs at accepted
      cases accepted
      exact spent
    | other => cases accepted

end

/-! ### What lasts -/

structure Durable {η : Type} (s : System η) (key : Key) (Q : Record η → Prop) : Prop where
  file : ∃ registrations, s.file = some registrations ∧ Holds key Q registrations
  writes : ∀ w ∈ s.writes, Holds key Q w.registrations
  memory : s.hub.loaded = true → Memory s.hub key Q

structure Promised {η : Type} (s : System η) (writes : List (Write η)) (key : Key) (Q : Record η → Prop) : Prop where
  writes : ∀ w ∈ writes, Holds key Q w.registrations
  memory : Memory s.hub key Q

/-- `authenticate` has exchanged the bootstrap secret and awaits its write. -/
def Exchanging {η : Type} (hub : State η) (k : Nat) (key : Key) (credential : Nat) : Prop :=
  ∃ o epoch closed, hub.sockets k = some ⟨.persisting key o epoch (some credential), closed⟩

def Own {η : Type} (s : System η) (key : Key) : Prop := ∃ agent, s.agent = some agent ∧ agent.key = key

/-- `authenticate` has come to its write. -/
def Phase.past : BoxRegistry.Phase → Bool
  | .persisting _ _ _ _ | .authenticated _ _ _ | .rejected _ => true
  | _ => false

section
variable {η : Type} (hashCredential : Nat → η)

structure AgentSound (s : System η) (agent : BoxAgent) : Prop where
  known : (agent.key, agent.environment) ∈ s.prepared
  secret : agent.reconnectFile = none → agent.bootstrapSecret = some agent.environment
  stored : ∀ credential, agent.reconnectFile = some credential → Durable s agent.key (Spent hashCredential credential)
  storing : ∀ k credential, agent.phase = .storing k credential →
    Durable s agent.key (Spent hashCredential credential)

structure Consistent (s : System η) : Prop where
  sound : Sound s.hub
  settled : Settled s.hub
  parsed : s.hub.loaded = false → ∀ i registrations, s.hub.loads i = some (.parsed registrations) →
    registrations = s.file
  quiet : s.hub.loaded = false → s.writes = []
  prepared : ∀ key secret, (key, secret) ∈ s.prepared → Durable s key (Valid hashCredential secret)
  preparing : ∀ w later key secret, (w :: later) <:+ s.writes → w.caller = .prepareRegistration key secret →
    Promised s (w :: later) key (Valid hashCredential secret)
  exchanging : ∀ w later k key credential, (w :: later) <:+ s.writes → w.caller = .authenticate k →
    Exchanging s.hub k key credential → Promised s (w :: later) key (Spent hashCredential credential)
  callers : ∀ w ∈ s.writes, ∀ k, w.caller = .authenticate k → k < s.hub.nextSocket ∧
    ∀ socket, s.hub.sockets k = some socket → Phase.past socket.phase = true
  exchanged : ∀ k key credential, Exchanging s.hub k key credential →
    Memory s.hub key (Spent hashCredential credential)
  alone : ∀ k k' key credential credential', Exchanging s.hub k key credential →
    Exchanging s.hub k' key credential' → k = k'
  welcomed : ∀ k key credential, s.welcomes k = some (key, some credential) →
    Durable s key (Spent hashCredential credential)
  once : s.registered.Nodup
  registered : ∀ key ∈ s.registered, (∃ credential, Durable s key (Spent hashCredential credential)) ∧
    ∀ k credential, ¬Exchanging s.hub k key credential
  agent : ∀ agent, s.agent = some agent → AgentSound hashCredential s agent
  hellos : ∀ k hello, s.hellos k = some hello → Own s hello.key
  named : ∀ k socket key, s.hub.sockets k = some socket → socket.phase.named = some key → Own s key
  welcomes : ∀ k key credential, s.welcomes k = some (key, credential) → Own s key

end

section
variable {η : Type} {s t : System η} {key : Key} {Q : Record η → Prop}

theorem Durable.carry (h : Durable s key Q) (file : t.file = s.file) (writes : ∀ w ∈ t.writes, w ∈ s.writes)
    (memory : t.hub.loaded = true → Memory t.hub key Q) : Durable t key Q := by
  refine ⟨?_, fun w mem => h.writes w (writes w mem), memory⟩
  rw [file]
  exact h.file

theorem Durable.same (h : Durable s key Q) (hub : t.hub = s.hub) (file : t.file = s.file)
    (writes : t.writes = s.writes) : Durable t key Q := by
  refine h.carry file (fun w mem => writes ▸ mem) ?_
  rw [hub]
  exact h.memory

theorem Promised.same {writes : List (Write η)} (h : Promised s writes key Q) (hub : t.hub = s.hub) :
    Promised t writes key Q :=
  ⟨h.writes, hub ▸ h.memory⟩

variable {w : Write η} {rest : List (Write η)}

theorem Promised.durable (h : Promised s (w :: rest) key Q) (file : t.file = some w.registrations)
    (writes : t.writes = rest) (memory : Memory t.hub key Q) : Durable t key Q := by
  refine ⟨⟨w.registrations, file, h.writes w List.mem_cons_self⟩, fun v mem => ?_, fun _ => memory⟩
  rw [writes] at mem
  exact h.writes v (List.mem_cons_of_mem _ mem)

theorem Durable.push (h : Durable s key Q) (keyed : Keyed s.hub) (loaded : s.hub.loaded = true) (caller : Caller) :
    Durable (s.persist caller) key Q := by
  refine ⟨h.file, fun w mem => ?_, h.memory⟩
  rcases List.mem_append.mp mem with old | new
  · exact h.writes w old
  · obtain rfl := List.mem_singleton.mp new
    exact (h.memory loaded).snapshot keyed

variable {α : Type} {a : α} {as : List α}

theorem absurd_suffix {P : Prop} (h : (a :: as) <:+ []) : P :=
  absurd (List.suffix_nil.mp h) (List.cons_ne_nil a as)

theorem suffix_concat {bs : List α} {b : α} (h : (a :: as) <:+ bs ++ [b]) :
    (a = b ∧ as = []) ∨ ∃ as', as = as' ++ [b] ∧ (a :: as') <:+ bs := by
  obtain ⟨front, split⟩ := h
  rcases List.eq_nil_or_concat as with rfl | ⟨as', c, rfl⟩
  · have last := List.append_inj_right' split (by rfl)
    exact .inl ⟨(List.cons.inj last).1, rfl⟩
  · have regrouped : (front ++ a :: as') ++ [c] = bs ++ [b] := by
      rw [← split, List.append_assoc, List.cons_append]
      simp only [List.concat_eq_append]
    obtain ⟨whole, last⟩ := List.append_inj' regrouped rfl
    obtain rfl := (List.cons.inj last).1
    exact .inr ⟨as', List.concat_eq_append, front, whole⟩

variable {hub : State η}

theorem exchanging_before {after : State η} {a : Action η} (evolved : Evolves a hub after) {k : Nat} {key : Key}
    {credential : Nat} (exchanging : Exchanging after k key credential) : Exchanging hub k key credential := by
  obtain ⟨o, epoch, closed, found⟩ := exchanging
  rcases evolved.sockets k _ found with ⟨⟨phase, shut⟩, was, follows⟩ | ⟨_, absurd⟩ | ⟨_, _, _, _, _, absurd⟩
  · obtain rfl : phase = _ := follows.persisting rfl
    exact ⟨o, epoch, shut, was⟩
  · cases absurd
  · cases absurd

variable {hashCredential : Nat → η}

theorem Consistent.push (h : Consistent hashCredential s) (loaded : s.hub.loaded = true) {caller : Caller}
    (authenticates : ∀ k, caller = .authenticate k → k < s.hub.nextSocket ∧
      ∀ socket, s.hub.sockets k = some socket → Phase.past socket.phase = true)
    (prepares : ∀ key secret, caller = .prepareRegistration key secret →
      Memory s.hub key (Valid hashCredential secret)) : Consistent hashCredential (s.persist caller) := by
  have keyed := h.sound.keyed
  have later : ∀ (w : Write η) (later : List (Write η)) (key : Key) (Q : Record η → Prop),
      Promised s (w :: later) key Q →
        Promised (s.persist caller) ((w :: later) ++ [⟨snapshot s.hub, caller⟩]) key Q := by
    intro w later key Q promised
    refine ⟨fun v mem => ?_, promised.memory⟩
    rcases List.mem_append.mp mem with old | new
    · exact promised.writes v old
    · obtain rfl := List.mem_singleton.mp new
      exact promised.memory.snapshot keyed
  have alone : ∀ (key : Key) (Q : Record η → Prop), Memory s.hub key Q →
      Promised (s.persist caller) [⟨snapshot s.hub, caller⟩] key Q := by
    intro key Q memory
    refine ⟨fun v mem => ?_, memory⟩
    obtain rfl := List.mem_singleton.mp mem
    exact memory.snapshot keyed
  constructor
  · exact h.sound
  · exact h.settled
  · exact h.parsed
  · exact fun unloaded => nomatch loaded.symm.trans unloaded
  · exact fun key secret mem => (h.prepared key secret mem).push keyed loaded caller
  · intro w rest key secret mem same
    rcases suffix_concat mem with ⟨rfl, rfl⟩ | ⟨old, rfl, before⟩
    · exact alone key _ (prepares key secret same)
    · exact later w old key _ (h.preparing w old key secret before same)
  · intro w rest k key credential mem same exchanging
    rcases suffix_concat mem with ⟨rfl, rfl⟩ | ⟨old, rfl, before⟩
    · exact alone key _ (h.exchanged k key credential exchanging)
    · exact later w old key _ (h.exchanging w old k key credential before same exchanging)
  · intro w mem k same
    rcases List.mem_append.mp mem with old | new
    · exact h.callers w old k same
    · obtain rfl := List.mem_singleton.mp new
      exact authenticates k same
  · exact h.exchanged
  · exact h.alone
  · exact fun k key credential welcome => (h.welcomed k key credential welcome).push keyed loaded caller
  · exact h.once
  · intro key mem
    obtain ⟨⟨credential, durable⟩, none⟩ := h.registered key mem
    exact ⟨⟨credential, durable.push keyed loaded caller⟩, none⟩
  · intro agent found
    have sound := h.agent agent found
    exact ⟨sound.known, sound.secret, fun credential same => (sound.stored credential same).push keyed loaded caller,
      fun k credential same => (sound.storing k credential same).push keyed loaded caller⟩
  · exact h.hellos
  · exact h.named
  · exact h.welcomes

theorem prepared_valid (hashCredential : Nat → η) {key : Key} {provider : String} {ttlMs now : Nat}
    (absent : hub.records.get key = none)
    (there : ((operate hashCredential hub now (.prepareRegistration key provider ttlMs)).records.get key).isSome = true)
    : Memory (operate hashCredential hub now (.prepareRegistration key provider ttlMs)) key
      (Valid hashCredential hub.nextSecret) := by
  unfold operate at there ⊢
  dsimp only at there ⊢
  split_ifs at there ⊢
  · refine ⟨_, record_eq_some.mpr ⟨hub.nextObject, OrderedMap.get_set_self .., Calls.put_self ..⟩, ?_⟩
    exact .inl ⟨rfl, rfl⟩
  · rw [absent] at there
    cases there

theorem Consistent.pop (h : Consistent hashCredential s) (writes : s.writes = w :: rest)
    {file : Option (List (Record η))} (replaced : file = s.file ∨ file = some w.registrations) :
    Consistent hashCredential { s with file, writes := rest } := by
  have loaded : s.hub.loaded = true := by
    by_contra unloaded
    rw [Bool.not_eq_true] at unloaded
    cases writes.symm.trans (h.quiet unloaded)
  have durable : ∀ (key : Key) (Q : Record η → Prop), Durable s key Q →
      Durable { s with file, writes := rest } key Q := by
    intro key Q durable
    refine ⟨?_, fun v mem => durable.writes v (writes ▸ List.mem_cons_of_mem _ mem), durable.memory⟩
    rcases replaced with rfl | rfl
    · exact durable.file
    · exact ⟨w.registrations, rfl, durable.writes w (writes ▸ List.mem_cons_self)⟩
  have suffix : ∀ vs : List (Write η), vs <:+ rest → vs <:+ s.writes :=
    fun vs mem => writes ▸ mem.trans (List.suffix_cons w rest)
  constructor
  · exact h.sound
  · exact h.settled
  · exact fun unloaded => nomatch loaded.symm.trans unloaded
  · exact fun unloaded => nomatch loaded.symm.trans unloaded
  · exact fun key secret mem => durable _ _ (h.prepared key secret mem)
  · exact fun v later key secret mem caller =>
      (h.preparing v later key secret (suffix _ mem) caller).same rfl
  · exact fun v later k key credential mem caller exchanging =>
      (h.exchanging v later k key credential (suffix _ mem) caller exchanging).same rfl
  · exact fun v mem k caller => h.callers v (writes ▸ List.mem_cons_of_mem _ mem) k caller
  · exact h.exchanged
  · exact h.alone
  · exact fun k key credential welcome => durable _ _ (h.welcomed k key credential welcome)
  · exact h.once
  · intro key mem
    obtain ⟨⟨credential, lasts⟩, none⟩ := h.registered key mem
    exact ⟨⟨credential, durable _ _ lasts⟩, none⟩
  · intro agent found
    have sound := h.agent agent found
    exact ⟨sound.known, sound.secret, fun credential same => durable _ _ (sound.stored credential same),
      fun k credential same => durable _ _ (sound.storing k credential same)⟩
  · exact h.hellos
  · exact h.named
  · exact h.welcomes

theorem AgentSound.same {agent : BoxAgent} (h : AgentSound hashCredential s agent) (hub : t.hub = s.hub)
    (file : t.file = s.file) (writes : t.writes = s.writes) (prepared : ∀ p ∈ s.prepared, p ∈ t.prepared) :
    AgentSound hashCredential t agent :=
  ⟨prepared _ h.known, h.secret, fun credential same => (h.stored credential same).same hub file writes,
    fun k credential same => (h.storing k credential same).same hub file writes⟩

theorem Consistent.side (h : Consistent hashCredential s) (hub : t.hub = s.hub) (file : t.file = s.file)
    (writes : t.writes = s.writes)
    (prepared : ∀ key secret, (key, secret) ∈ t.prepared → Durable s key (Valid hashCredential secret))
    (welcomed : ∀ k key credential, t.welcomes k = some (key, some credential) →
      Durable s key (Spent hashCredential credential)) (once : t.registered.Nodup)
    (registered : ∀ key ∈ t.registered, (∃ credential, Durable s key (Spent hashCredential credential)) ∧
      ∀ k credential, ¬Exchanging s.hub k key credential)
    (agent : ∀ agent, t.agent = some agent → AgentSound hashCredential t agent)
    (hellos : ∀ k hello, t.hellos k = some hello → Own t hello.key) (named : ∀ key, Own s key → Own t key)
    (welcomes : ∀ k key credential, t.welcomes k = some (key, credential) → Own t key) :
    Consistent hashCredential t := by
  constructor
  · rw [hub]
    exact h.sound
  · rw [hub]
    exact h.settled
  · rw [hub, file]
    exact h.parsed
  · rw [hub, writes]
    exact h.quiet
  · exact fun key secret mem => (prepared key secret mem).same hub file writes
  · rw [writes]
    exact fun w later key secret mem caller => (h.preparing w later key secret mem caller).same hub
  · rw [writes, hub]
    exact fun w later k key credential mem caller exchanging =>
      (h.exchanging w later k key credential mem caller exchanging).same hub
  · rw [writes, hub]
    exact h.callers
  · rw [hub]
    exact h.exchanged
  · rw [hub]
    exact h.alone
  · exact fun k key credential found => (welcomed k key credential found).same hub file writes
  · exact once
  · intro key mem
    obtain ⟨⟨credential, lasts⟩, none⟩ := registered key mem
    rw [hub]
    exact ⟨⟨credential, lasts.same hub file writes⟩, none⟩
  · exact agent
  · exact hellos
  · rw [hub]
    exact fun k socket key found same => named key (h.named k socket key found same)
  · exact welcomes

theorem Consistent.welcome (h : Consistent hashCredential s) (k : Nat) {key : Key} {credential : Option Nat}
    (own : Own s key) (exchanged : ∀ c, credential = some c → Durable s key (Spent hashCredential c) ∧
      key ∉ s.registered ∧ ∀ j c', ¬Exchanging s.hub j key c') : Consistent hashCredential { s with
      welcomes := s.welcomes.put k (key, credential)
      registered := s.registered ++ (if credential.isSome then [key] else []) } := by
  refine h.side rfl rfl rfl h.prepared ?_ ?_ ?_ ?_ h.hellos (fun _ => id) ?_
  · intro j other c found
    rcases Calls.put_eq_some found with ⟨_, same⟩ | ⟨_, was⟩
    · cases same
      exact (exchanged c rfl).1
    · exact h.welcomed j other c was
  · cases credential with
    | none => exact (List.append_nil s.registered).symm ▸ h.once
    | some c =>
      refine List.nodup_append.mpr ⟨h.once, List.nodup_singleton key, fun old mem new here same => ?_⟩
      obtain rfl := List.mem_singleton.mp here
      exact (exchanged c rfl).2.1 (same ▸ mem)
  · intro other mem
    rcases List.mem_append.mp mem with old | new
    · exact h.registered other old
    · cases credential with
      | none => cases new
      | some c =>
        obtain rfl := List.mem_singleton.mp new
        obtain ⟨lasts, _, none⟩ := exchanged c rfl
        exact ⟨⟨c, lasts⟩, none⟩
  · exact fun agent found => (h.agent agent found).same rfl rfl rfl fun _ => id
  · intro j other c found
    rcases Calls.put_eq_some found with ⟨_, same⟩ | ⟨_, was⟩
    · cases same
      exact own
    · exact h.welcomes j other c was

end

/-! ### Steps of the hub -/

section
variable {η : Type} [DecidableEq η] {hashCredential : Nat → η} {s t : System η} {hub : State η} {a : Action η}

variable {k now : Nat}

variable {verified : Bool}

theorem attested_loaded (settled : Settled s.hub)
    (taken : BoxRegistry.step hashCredential s.hub (.attested k verified now) = some hub) :
    s.hub.loaded = true ∧ hub.loaded = true := by
  simp only [BoxRegistry.step] at taken
  split at taken
  · rename_i hello o shut found
    cases taken
    have loaded := (settled.attached k hello o shut found).1
    refine ⟨loaded, ?_⟩
    split_ifs
    · rcases authenticate_cases hashCredential s.hub k hello o now with ⟨_, error, same⟩ |
        ⟨record, presented, _, _, same⟩
      · rw [same]
        exact loaded
      · rw [same]
        exact loaded
    · exact loaded
  · cases taken

variable {key : Key} {Q : Record η → Prop}

theorem Consistent.memory (h : Consistent hashCredential s)
    (taken : BoxRegistry.step hashCredential s.hub a = some hub) (single : ∀ i, a = .loaded i → s.hub.loaded = false)
    (closed : Closed hashCredential Q) (durable : Durable s key Q) (loaded : hub.loaded = true) :
    Memory hub key Q := by
  by_cases late : ∃ i, a = .loaded i
  · obtain ⟨i, rfl⟩ := late
    simp only [BoxRegistry.step] at taken
    split at taken
    · rename_i registrations found
      cases taken
      obtain ⟨written, file, holds⟩ := durable.file
      obtain rfl := (h.parsed (single i rfl) i registrations found).trans file
      exact closed.finishLoad h.sound.keyed i holds
    · cases taken
  · have other : ∀ i, a ≠ .loaded i := fun i same => late ⟨i, same⟩
    have before : s.hub.loaded = true := by
      by_cases attests : ∃ k verified now, a = .attested k verified now
      · obtain ⟨k, verified, now, rfl⟩ := attests
        exact (attested_loaded h.settled taken).1
      · have evolved := evolves taken fun k verified now same => attests ⟨k, verified, now, same⟩
        exact (evolved.loaded other).symm.trans loaded
    exact closed.step (durable.memory before) h.sound h.settled taken other

theorem Consistent.durable (h : Consistent hashCredential s)
    (taken : BoxRegistry.step hashCredential s.hub a = some hub) (single : ∀ i, a = .loaded i → s.hub.loaded = false)
    (closed : Closed hashCredential Q) (durable : Durable s key Q) : Durable { s with hub } key Q :=
  durable.carry rfl (fun _ => id) (h.memory taken single closed durable)

variable {w : Write η}

theorem Consistent.promised (h : Consistent hashCredential s)
    (taken : BoxRegistry.step hashCredential s.hub a = some hub) (single : ∀ i, a = .loaded i → s.hub.loaded = false)
    (closed : Closed hashCredential Q) {later : List (Write η)} (mem : (w :: later) <:+ s.writes)
    (promised : Promised s (w :: later) key Q) : Promised { s with hub } (w :: later) key Q := by
  refine ⟨promised.writes, closed.step promised.memory h.sound h.settled taken ?_⟩
  rintro i rfl
  have writes := h.quiet (single i rfl)
  rw [writes] at mem
  exact absurd (List.suffix_nil.mp mem) (List.cons_ne_nil w later)

theorem Consistent.evolve (h : Consistent hashCredential s)
    (taken : BoxRegistry.step hashCredential s.hub a = some hub)
    (evolved : Evolves a s.hub hub) (single : ∀ i, a = .loaded i → s.hub.loaded = false)
    (reads : ∀ i registrations, a = .read i registrations → registrations = s.file)
    (greets : ∀ k hello, a = .firstMessage k (.hello hello) → Own s hello.key) :
    Consistent hashCredential { s with hub } := by
  have valid := fun secret => valid_closed hashCredential (η := η) secret
  have spent := fun credential => spent_closed hashCredential (η := η) credential
  constructor
  · exact sound_step hashCredential s.hub a hub h.sound taken
  · exact h.settled.step taken single
  · intro unloaded i registrations found
    have before : s.hub.loaded = false := by
      by_contra loaded
      rw [Bool.not_eq_false] at loaded
      have kept := evolved.loaded fun i same => by
        rw [single i same] at loaded
        cases loaded
      rw [show hub.loaded = false from unloaded, loaded] at kept
      cases kept
    rcases evolved.parsed i registrations found with was | read
    · exact h.parsed before i registrations was
    · exact reads i registrations read
  · intro unloaded
    refine h.quiet ?_
    by_contra loaded
    rw [Bool.not_eq_false] at loaded
    have kept := evolved.loaded fun i same => by
      rw [single i same] at loaded
      cases loaded
    rw [show hub.loaded = false from unloaded, loaded] at kept
    cases kept
  · exact fun key secret mem => h.durable taken single (valid secret) (h.prepared key secret mem)
  · exact fun w later key secret mem caller =>
      h.promised taken single (valid secret) mem (h.preparing w later key secret mem caller)
  · exact fun w later k key credential mem caller exchanging =>
      h.promised taken single (spent credential) mem
        (h.exchanging w later k key credential mem caller (exchanging_before evolved exchanging))
  · intro w mem k caller
    obtain ⟨bound, past⟩ := h.callers w mem k caller
    refine ⟨Nat.lt_of_lt_of_le bound evolved.nextSocket, fun socket found => ?_⟩
    rcases evolved.sockets k socket found with ⟨before, was, follows⟩ | ⟨rfl, _⟩ | ⟨shut, _, _, was, _, _⟩
    · have old := past before was
      rcases follows with same | ⟨error, same⟩ | ⟨_, _, _, same, _⟩ | ⟨_, _, _, _, _, same⟩
      · rw [same]
        exact old
      · rw [same]
        rfl
      · rw [same] at old
        cases old
      · rw [same]
        rfl
    · exact absurd bound (Nat.lt_irrefl _)
    · cases past _ was
  · intro k key credential exchanging
    have before := exchanging_before evolved exchanging
    refine (spent credential).step (h.exchanged k key credential before) h.sound h.settled taken ?_
    rintro i rfl
    obtain ⟨o, epoch, shut, found⟩ := before
    have loaded := h.settled.persisting k key o epoch (some credential) shut found
    rw [single i rfl] at loaded
    cases loaded
  · exact fun k k' key credential credential' first second =>
      h.alone k k' key credential credential' (exchanging_before evolved first) (exchanging_before evolved second)
  · exact fun k key credential welcome => h.durable taken single (spent credential) (h.welcomed k key credential welcome)
  · exact h.once
  · intro key mem
    obtain ⟨⟨credential, durable⟩, none⟩ := h.registered key mem
    exact ⟨⟨credential, h.durable taken single (spent credential) durable⟩,
      fun k credential exchanging => none k credential (exchanging_before evolved exchanging)⟩
  · intro agent found
    have sound := h.agent agent found
    exact ⟨sound.known, sound.secret,
      fun credential same => h.durable taken single (spent credential) (sound.stored credential same),
      fun k credential same => h.durable taken single (spent credential) (sound.storing k credential same)⟩
  · exact h.hellos
  · intro k socket key found named
    rcases evolved.sockets k socket found with ⟨before, was, follows⟩ | ⟨_, fresh⟩ | ⟨_, hello, load, _, same, loading⟩
    · exact h.named k before key was (follows.named named)
    · rw [fresh] at named
      cases named
    · rw [loading] at named
      cases named
      exact greets k hello same
  · exact h.welcomes

variable {record : Record η}

theorem exchange_spec {auth : Auth} {fresh credential : Nat} {presented : Record η}
    (accepted : presentCredential hashCredential record auth now fresh = .ok (presented, some credential)) :
    Spent hashCredential credential presented ∧ record.bootstrapHash ≠ none := by
  unfold presentCredential at accepted
  cases auth with
  | bootstrap secret =>
    dsimp only at accepted
    split_ifs at accepted with _ matching
    obtain ⟨rfl, same⟩ := Prod.mk.inj (Except.ok.inj accepted)
    cases same
    refine ⟨⟨rfl, fun _ => ⟨rfl, rfl⟩⟩, fun absent => ?_⟩
    rw [absent] at matching
    cases matching
  | reconnect credential =>
    dsimp only at accepted
    split_ifs at accepted
    cases (Prod.mk.inj (Except.ok.inj accepted)).2
  | other => cases accepted

theorem Consistent.install (h : Consistent hashCredential s) {o : Nat} {hello : Hello} {closed : Bool}
    (found : s.hub.sockets k = some ⟨.attesting hello o, closed⟩) {presented : Record η × Option Nat}
    (there : s.hub.objects o = some record)
    (accepted : presentCredential hashCredential record hello.auth now s.hub.nextSecret = .ok presented)
    (taken : BoxRegistry.step hashCredential s.hub (.attested k true now) =
      some (install s.hub k hello o presented.1 presented.2 now)) :
    Consistent hashCredential { s with hub := install s.hub k hello o presented.1 presented.2 now } := by
  obtain ⟨loaded, attached⟩ := h.settled.attached k hello o closed found
  have single : ∀ i, (Action.attested k true now : Action η) = .loaded i → s.hub.loaded = false :=
    fun _ absurd => nomatch absurd
  have valid := fun secret => valid_closed hashCredential (η := η) secret
  have spent := fun credential => spent_closed hashCredential (η := η) credential
  have memory : ∀ credential, Memory s.hub hello.key (Spent hashCredential credential) →
      record.bootstrapHash = none := by
    rintro credential ⟨held, refers, used⟩
    obtain ⟨p, same, was⟩ := record_eq_some.mp refers
    cases attached.symm.trans same
    cases there.symm.trans was
    exact used.1
  -- the socket itself, or one that has been exchanging before
  have cases' : ∀ j key credential, Exchanging (BoxRegistry.install s.hub k hello o presented.1 presented.2 now)
      j key credential → (j = k ∧ key = hello.key ∧ presented.2 = some credential) ∨
        j ≠ k ∧ Exchanging s.hub j key credential := by
    rintro j key credential ⟨p, epoch, shut, was⟩
    obtain ⟨rfl, before, _, same⟩ | ⟨apart, old⟩ := Calls.modify_eq_some was
    · obtain ⟨rfl, _, _, exchanged⟩ := Phase.persisting.inj (Socket.mk.inj same).1
      exact .inl ⟨rfl, rfl, exchanged.symm⟩
    · exact .inr ⟨apart, p, epoch, shut, old⟩
  have fresh : ∀ credential, presented.2 = some credential → record.bootstrapHash ≠ none := by
    intro credential same
    obtain ⟨after, mine⟩ := presented
    obtain rfl : mine = some credential := same
    exact (exchange_spec accepted).2
  constructor
  · exact sound_step hashCredential s.hub _ _ h.sound taken
  · exact h.settled.step taken single
  · exact fun unloaded => nomatch loaded.symm.trans unloaded
  · exact fun unloaded => nomatch loaded.symm.trans unloaded
  · exact fun key secret mem => h.durable taken single (valid secret) (h.prepared key secret mem)
  · exact fun w later key secret mem caller =>
      h.promised taken single (valid secret) mem (h.preparing w later key secret mem caller)
  · intro w later j key credential mem caller exchanging
    rcases cases' j key credential exchanging with ⟨rfl, _, _⟩ | ⟨_, before⟩
    · cases (h.callers w (mem.subset List.mem_cons_self) j caller).2 _ found
    · exact h.promised taken single (spent credential) mem (h.exchanging w later j key credential mem caller before)
  · intro w mem j caller
    obtain ⟨bound, past⟩ := h.callers w mem j caller
    refine ⟨bound, fun socket was => ?_⟩
    obtain ⟨rfl, before, old, rfl⟩ | ⟨_, old⟩ := Calls.modify_eq_some was
    · rfl
    · exact past socket old
  · intro j key credential exchanging
    rcases cases' j key credential exchanging with ⟨rfl, rfl, same⟩ | ⟨_, before⟩
    · obtain ⟨after, mine⟩ := presented
      obtain rfl : mine = some credential := same
      refine ⟨after.connect hello now, record_eq_some.mpr ⟨o, OrderedMap.get_set_self .., Calls.put_self ..⟩, ?_⟩
      exact (spent credential).touched after _ rfl rfl rfl rfl (exchange_spec accepted).1
    · exact (spent credential).step (h.exchanged j key credential before) h.sound h.settled taken
        fun _ absurd => nomatch absurd
  · intro j j' key credential credential' first second
    rcases cases' j key credential first with ⟨rfl, rfl, same⟩ | ⟨_, before⟩
    · rcases cases' j' _ credential' second with ⟨rfl, _, _⟩ | ⟨_, before'⟩
      · rfl
      · exact absurd (memory credential' (h.exchanged j' _ credential' before')) (fresh credential same)
    · rcases cases' j' key credential' second with ⟨rfl, rfl, same⟩ | ⟨_, before'⟩
      · exact absurd (memory credential (h.exchanged j _ credential before)) (fresh credential' same)
      · exact h.alone j j' key credential credential' before before'
  · exact fun j key credential welcome => h.durable taken single (spent credential) (h.welcomed j key credential welcome)
  · exact h.once
  · intro key mem
    obtain ⟨⟨credential, durable⟩, none⟩ := h.registered key mem
    refine ⟨⟨credential, h.durable taken single (spent credential) durable⟩, fun j credential' exchanging => ?_⟩
    rcases cases' j key credential' exchanging with ⟨_, rfl, same⟩ | ⟨_, before⟩
    · exact fresh credential' same (memory credential (durable.memory loaded))
    · exact none j credential' before
  · intro agent same
    have sound := h.agent agent same
    exact ⟨sound.known, sound.secret,
      fun credential same => h.durable taken single (spent credential) (sound.stored credential same),
      fun j credential same => h.durable taken single (spent credential) (sound.storing j credential same)⟩
  · exact h.hellos
  · intro j socket key was named
    obtain ⟨rfl, before, _, rfl⟩ | ⟨_, old⟩ := Calls.modify_eq_some was
    · exact h.named j _ key found named
    · exact h.named j socket key old named
  · exact h.welcomes

theorem Consistent.attested (h : Consistent hashCredential s)
    (taken : attested hashCredential s k verified now = some t) : Consistent hashCredential t := by
  obtain ⟨hub, stepped, rfl⟩ := Option.map_eq_some_iff.mp taken
  have enabled := stepped
  simp only [BoxRegistry.step] at stepped
  split at stepped
  · rename_i hello o closed found
    cases stepped
    have rejects : ∀ error, BoxRegistry.step hashCredential s.hub (.attested k verified now) =
        some (s.hub.setPhase k (.rejected error)) →
        Consistent hashCredential { s with hub := s.hub.setPhase k (.rejected error) } ∧
          ((s.hub.setPhase k (.rejected error)).sockets k).any
            (fun socket => socket.phase.installed.isSome) = false := by
      intro error rejected
      refine ⟨h.evolve rejected (Evolves.setPhase found (.inr (.inl ⟨error, rfl⟩)))
        (fun _ absurd => by cases absurd) (fun _ _ absurd => by cases absurd) (fun _ _ absurd => by cases absurd), ?_⟩
      show Option.any _ (s.hub.sockets.modify k _ k) = false
      rw [Calls.modify_self, found]
      rfl
    cases verified with
    | false =>
      obtain ⟨consistent, none⟩ := rejects _ enabled
      rw [if_neg Bool.false_ne_true, none]
      exact consistent
    | true =>
      rw [if_pos rfl] at enabled ⊢
      rcases authenticate_cases hashCredential s.hub k hello o now with ⟨_, error, same⟩ |
        ⟨record, presented, there, accepted, same⟩
      · rw [same] at enabled ⊢
        obtain ⟨consistent, none⟩ := rejects _ enabled
        rw [none]
        exact consistent
      · rw [same] at enabled ⊢
        have installed := h.install found there accepted enabled
        have phase : (BoxRegistry.install s.hub k hello o presented.1 presented.2 now).sockets k =
            some ⟨.persisting hello.key o s.hub.nextEpoch presented.2, closed⟩ := by
          show s.hub.sockets.modify k _ k = _
          rw [Calls.modify_self, found]
          rfl
        rw [phase]
        refine installed.push (h.settled.attached k hello o closed found).1 ?_ fun _ _ absurd => by cases absurd
        intro j same
        cases same
        refine ⟨h.sound.owned.bounded k _ found, fun socket there => ?_⟩
        cases phase.symm.trans there
        rfl
  · cases stepped

theorem Consistent.operated (h : Consistent hashCredential s) {i : Nat}
    (taken : operated hashCredential s i now = some t) : Consistent hashCredential t := by
  obtain ⟨hub, stepped, rfl⟩ := Option.map_eq_some_iff.mp taken
  have consistent : Consistent hashCredential { s with hub } :=
    h.evolve stepped (evolves stepped fun _ _ _ absurd => by cases absurd) (fun _ absurd => by cases absurd)
      (fun _ _ absurd => by cases absurd) fun _ _ absurd => by cases absurd
  split
  · rename_i key provider ttlMs load found
    split_ifs with created
    · obtain ⟨absent, there⟩ := created
      simp only [BoxRegistry.step, found] at stepped
      obtain ⟨ended, done, same⟩ := Option.map_eq_some_iff.mp stepped
      have loaded : s.hub.loaded = true ∧ ended = .ok () := by
        cases ended with
        | ok ok => exact ⟨loadEnded_loaded h.settled (fun none => h.settled.operations i _ (none ▸ found)) done, rfl⟩
        | error error =>
          obtain rfl := same
          rw [show s.hub.records.get key = none from absent] at there
          cases there
      obtain ⟨loaded, rfl⟩ := loaded
      obtain rfl := same
      have kept := (operate_settled hashCredential { s.hub with operations := s.hub.operations.drop i } now
        (.prepareRegistration key provider ttlMs)).1
      refine consistent.push (kept.trans loaded) (fun _ absurd => by cases absurd) fun key' secret same => ?_
      cases same
      exact prepared_valid hashCredential absent there
    · exact consistent
  · exact consistent

theorem Consistent.resolve (h : Consistent hashCredential s) (caller : Caller) (written : Bool)
    (prepares : ∀ key secret, caller = .prepareRegistration key secret → written = true →
      Durable s key (Valid hashCredential secret))
    (exchanges : ∀ k key credential, caller = .authenticate k → written = true →
      Exchanging s.hub k key credential → Durable s key (Spent hashCredential credential)) :
    Consistent hashCredential (resolve s caller written) := by
  unfold BoxHandshake.resolve
  cases caller with
  | other => exact h
  | prepareRegistration key secret =>
    cases written with
    | false => exact h
    | true =>
      refine h.side rfl rfl rfl (fun other secret' mem => ?_) h.welcomed h.once h.registered
        (fun agent found => (h.agent agent found).same rfl rfl rfl fun p => List.mem_append_left _) h.hellos
        (fun _ => id) h.welcomes
      rcases List.mem_append.mp mem with old | new
      · exact h.prepared other secret' old
      · cases List.mem_singleton.mp new
        exact prepares _ _ rfl rfl
  | authenticate k =>
    dsimp only
    split
    · rename_i key o epoch credential closed found
      have follows : Phase.Follows (.persisting key o epoch credential)
          (if written then .authenticated key o epoch else .rejected .registrationFailed) := by
        cases written with
        | false => exact .inr (.inl ⟨_, rfl⟩)
        | true => exact .inr (.inr (.inr ⟨key, o, epoch, credential, rfl, rfl⟩))
      have evolved : Evolves (.persisted k written) s.hub (s.hub.setPhase k
          (if written then .authenticated key o epoch else .rejected .registrationFailed)) :=
        Evolves.setPhase found follows
      have enabled : BoxRegistry.step hashCredential s.hub (.persisted k written) = some (s.hub.setPhase k
          (if written then .authenticated key o epoch else .rejected .registrationFailed)) := by
        simp only [BoxRegistry.step, found]
      have single : ∀ i, (Action.persisted k written : Action η) = .loaded i → s.hub.loaded = false :=
        fun _ absurd => by cases absurd
      have consistent := h.evolve enabled evolved single (fun _ _ absurd => by cases absurd)
        fun _ _ absurd => by cases absurd
      cases written with
      | false => exact consistent
      | true =>
        refine consistent.welcome k (h.named k _ key found rfl) fun c same => ?_
        subst same
        have exchanging : Exchanging s.hub k key c := ⟨o, epoch, closed, found⟩
        refine ⟨h.durable enabled single (spent_closed hashCredential c) (exchanges k key c rfl rfl exchanging),
          fun mem => (h.registered key mem).2 k c exchanging, fun j c' after => ?_⟩
        obtain rfl := h.alone j k key c' c (exchanging_before evolved after) exchanging
        obtain ⟨_, _, _, there⟩ := after
        have now' : (s.hub.setPhase j (.authenticated key o epoch)).sockets j =
            some ⟨.authenticated key o epoch, closed⟩ := by
          show s.hub.sockets.modify j _ j = _
          rw [Calls.modify_self, found]
          rfl
        cases now'.symm.trans there
    · exact h

theorem Consistent.write (h : Consistent hashCredential s) {rest : List (Write η)} (writes : s.writes = w :: rest)
    (outcome : Outcome) : Consistent hashCredential (BoxHandshake.resolve
      { s with file := if outcome = .failed then s.file else some w.registrations, writes := rest }
      w.caller (outcome = .written)) := by
  have head : (w :: rest) <:+ s.writes := writes ▸ List.suffix_refl _
  cases outcome with
  | failed =>
    exact (h.pop writes (.inl rfl)).resolve w.caller false (fun _ _ _ absurd => nomatch absurd)
      fun _ _ _ _ absurd => nomatch absurd
  | replaced =>
    exact (h.pop writes (.inr rfl)).resolve w.caller false (fun _ _ _ absurd => nomatch absurd)
      fun _ _ _ _ absurd => nomatch absurd
  | written =>
    refine (h.pop writes (.inr rfl)).resolve w.caller true (fun key secret caller _ => ?_)
      fun k key credential caller _ exchanging => ?_
    · have promised := h.preparing w rest key secret head caller
      exact promised.durable rfl rfl promised.memory
    · have promised := h.exchanging w rest k key credential head caller exchanging
      exact promised.durable rfl rfl promised.memory

end

/-! ### Crashes and the agent -/

section
variable {η : Type} {hashCredential : Nat → η} {s : System η}

theorem Consistent.crashHub (h : Consistent hashCredential s) : Consistent hashCredential { s with
    hub := { nextSecret := s.hub.nextSecret, nextSocket := s.hub.nextSocket }
    writes := [] } := by
  have durable : ∀ (key : Key) (Q : Record η → Prop), Durable s key Q → Durable { s with
      hub := { nextSecret := s.hub.nextSecret, nextSocket := s.hub.nextSocket }
      writes := [] } key Q :=
    fun _ _ lasts => ⟨lasts.file, fun _ absurd => (nomatch absurd), fun absurd => nomatch absurd⟩
  have idle : ∀ k key credential, ¬Exchanging
      ({ nextSecret := s.hub.nextSecret, nextSocket := s.hub.nextSocket } : State η) k key credential := by
    rintro k key credential ⟨_, _, _, absurd⟩
    cases absurd
  constructor
  · exact ⟨⟨(fun _ _ absurd => nomatch absurd), (fun _ _ _ _ absurd => nomatch absurd),
      (fun _ _ absurd => nomatch absurd), fun _ _ absurd => nomatch absurd⟩,
      (fun _ _ absurd => nomatch absurd), (fun _ _ _ _ absurd => nomatch absurd), fun _ _ absurd => nomatch absurd⟩
  · exact Settled.init s.hub.nextSecret s.hub.nextSocket
  · exact fun _ _ _ absurd => nomatch absurd
  · exact fun _ => rfl
  · exact fun key secret mem => durable _ _ (h.prepared key secret mem)
  · exact fun w later key secret absurd => absurd_suffix absurd
  · exact fun w later k key credential absurd => absurd_suffix absurd
  · exact fun _ absurd => nomatch absurd
  · exact fun k key credential exchanging => absurd exchanging (idle k key credential)
  · exact fun k k' key credential credential' exchanging => absurd exchanging (idle k key credential)
  · exact fun k key credential welcome => durable _ _ (h.welcomed k key credential welcome)
  · exact h.once
  · intro key mem
    obtain ⟨⟨credential, lasts⟩, _⟩ := h.registered key mem
    exact ⟨⟨credential, durable _ _ lasts⟩, fun k credential => idle k key credential⟩
  · intro agent found
    have sound := h.agent agent found
    exact ⟨sound.known, sound.secret, fun credential same => durable _ _ (sound.stored credential same),
      fun k credential same => durable _ _ (sound.storing k credential same)⟩
  · exact h.hellos
  · exact fun _ _ _ absurd => nomatch absurd
  · exact h.welcomes

variable {agent : BoxAgent}

theorem Consistent.agentStep (h : Consistent hashCredential s) {after : BoxAgent} (found : s.agent = some agent)
    (key : after.key = agent.key) (sound : AgentSound hashCredential s after) :
    Consistent hashCredential { s with agent := some after } := by
  have own : ∀ other, Own s other → Own { s with agent := some after } other := by
    rintro other ⟨before, was, rfl⟩
    cases found.symm.trans was
    exact ⟨after, rfl, key⟩
  refine h.side rfl rfl rfl h.prepared h.welcomed h.once h.registered (fun other same => ?_)
    (fun k hello sent => own _ (h.hellos k hello sent)) own fun k other credential sent => own _ (h.welcomes k other credential sent)
  cases same
  exact sound.same rfl rfl rfl fun _ => id

theorem Consistent.setPhase (h : Consistent hashCredential s) (found : s.agent = some agent) {phase : AgentPhase}
    (storing : ∀ k credential, phase = .storing k credential →
      Durable s agent.key (Spent hashCredential credential)) : Consistent hashCredential (s.setPhase phase) := by
  have sound := h.agent agent found
  have same : s.setPhase phase = { s with agent := some { agent with phase } } := by
    unfold System.setPhase
    rw [found, Option.map_some]
  rw [same]
  exact h.agentStep found rfl ⟨sound.known, sound.secret, sound.stored, storing⟩

theorem Consistent.init (hashCredential : Nat → η) : Consistent hashCredential ({} : System η) := by
  constructor
  · exact Sound.init
  · exact Settled.init 0 0
  · exact fun _ _ _ absurd => nomatch absurd
  · exact fun _ => rfl
  · exact fun _ _ absurd => nomatch absurd
  · exact fun _ _ _ _ absurd => absurd_suffix absurd
  · exact fun _ _ _ _ _ absurd => absurd_suffix absurd
  · exact fun _ absurd => nomatch absurd
  · rintro k key credential ⟨_, _, _, absurd⟩
    cases absurd
  · rintro k k' key credential credential' ⟨_, _, _, absurd⟩
    cases absurd
  · exact fun _ _ _ absurd => nomatch absurd
  · exact List.nodup_nil
  · exact fun _ absurd => nomatch absurd
  · exact fun _ absurd => nomatch absurd
  · exact fun _ _ absurd => nomatch absurd
  · exact fun _ _ _ absurd => nomatch absurd
  · exact fun _ _ _ absurd => nomatch absurd

end

/-! ### Every step -/

section
variable {η : Type} [DecidableEq η] {hashCredential : Nat → η}

variable {s : System η}

theorem Durable.registration {key : Key} {Q : Record η → Prop} (durable : Durable s key Q)
    (closed : Closed hashCredential Q) : ∃ record, registration s key = some record ∧ Q record := by
  unfold BoxHandshake.registration
  split_ifs with loaded
  · exact durable.memory loaded
  · obtain ⟨registrations, file, ⟨first, mem, same⟩, holds⟩ := durable.file
    rw [file, Option.getD_some]
    cases found : registrations.reverse.find? fun record => record.key = key with
    | none =>
      have absent := List.find?_eq_none.mp found first (List.mem_reverse.mpr mem)
      exact absurd (decide_eq_true same) absent
    | some record =>
      have inside := List.mem_reverse.mp (List.mem_of_find?_eq_some found)
      have named : record.key = key := by simpa using List.find?_some found
      exact ⟨record.settle, rfl, closed.settle (holds record inside named)⟩

variable {record : Record η}

theorem accepts_bootstrap {secret now : Nat} (unused : record.bootstrapUsedAt = none)
    (present : record.bootstrapHash = some (hashCredential secret)) (inTime : now ≤ record.expiresAt) :
    Accepts hashCredential record (.bootstrap (some secret)) now := by
  refine ⟨({ record with
    bootstrapUsedAt := some now
    bootstrapHash := none
    reconnectHash := some (hashCredential 0) }, some 0), ?_⟩
  have timely : ¬(record.bootstrapUsedAt.isSome = true ∨ record.expiresAt < now) := by
    rw [unused]
    rintro (absurd | late)
    · cases absurd
    · exact absurd inTime (Nat.not_le_of_lt late)
  have matching : safeEqualHash hashCredential record.bootstrapHash (some secret) = true := by
    rw [present]
    exact beq_self_eq_true _
  unfold presentCredential
  dsimp only
  rw [if_neg timely, if_pos matching]

theorem accepts_reconnect {credential : Nat} (now : Nat)
    (present : record.reconnectHash = some (hashCredential credential)) :
    Accepts hashCredential record (.reconnect (some credential)) now := by
  refine ⟨(record, none), ?_⟩
  have matching : safeEqualHash hashCredential record.reconnectHash (some credential) = true := by
    rw [present]
    exact beq_self_eq_true _
  unfold presentCredential
  dsimp only
  rw [if_pos matching]

theorem Consistent.law (h : Consistent hashCredential s) : HandshakeLaw hashCredential s := by
  have stored : ∀ agent, s.agent = some agent → ∀ record, registration s agent.key = some record →
      record.revokedAt = none → ∀ credential, agent.reconnectFile = some credential →
        ∀ now, Accepts hashCredential record (.reconnect (some credential)) now := by
    intro agent found record registered alive credential kept now
    obtain ⟨other, same, spent⟩ :=
      ((h.agent agent found).stored credential kept).registration (spent_closed hashCredential credential)
    cases registered.symm.trans same
    exact accepts_reconnect now (spent.2 alive).2
  refine ⟨fun agent found => ?_, fun agent found record registered alive now inTime => ?_, stored, h.once⟩
  · have sound := h.agent agent found
    obtain ⟨record, registered, _⟩ := (h.prepared _ _ sound.known).registration
      (valid_closed hashCredential agent.environment)
    exact ⟨record, registered⟩
  · have sound := h.agent agent found
    cases kept : agent.reconnectFile with
    | some credential =>
      refine .inl ⟨.reconnect (some credential), ?_, stored agent found record registered alive credential kept now⟩
      rw [BoxAgent.auth, kept]
    | none =>
      obtain ⟨other, same, valid⟩ := (h.prepared _ _ sound.known).registration
        (valid_closed hashCredential agent.environment)
      cases registered.symm.trans same
      rcases valid with ⟨unused, present⟩ | ⟨_, used⟩
      · refine .inl ⟨.bootstrap (some agent.environment), ?_, accepts_bootstrap unused present inTime⟩
        rw [BoxAgent.auth, kept, sound.secret kept]
      · exact .inr ⟨used alive, rfl⟩

end

/-! ### Runs -/

end BoxHandshake
