import Oyster.BoxLiveness

/-! The exchange of the bootstrap secret of a box for a reconnect credential: the hub with its
registry and the file that this writes, the agent with the file of its credential, and the
messages between them. Both may crash, connections may drop and writes may fail. -/
namespace BoxHandshake
open Interleaving BoxRegistry

inductive Caller where
  | authenticate (k : Nat)
  | prepareRegistration (key : Key) (bootstrapSecret : Nat)
  | other

structure Write (η : Type) where
  registrations : List (Record η)
  caller : Caller

/-- A write may replace the file and still be rejected, for the mode of the file is set after. -/
inductive Outcome where
  | written
  | replaced
  | failed
  deriving DecidableEq

inductive AgentPhase where
  | idle
  | connecting (k : Nat) (auth : Auth)
  | waiting (k : Nat)
  | storing (k : Nat) (credential : Nat)
  | connected (k : Nat)
  deriving DecidableEq

/-- `environment` is the secret that the unit of the agent is started with, `bootstrapSecret`
what its configuration holds of it, `reconnectFile` the credential that it has stored. -/
structure BoxAgent where
  key : Key
  environment : Nat
  bootstrapSecret : Option Nat
  reconnectFile : Option Nat := none
  phase : AgentPhase := .idle

/-- `writes` is the chain of writes that are under way, `prepared` are the registrations whose
secret has been returned. `welcomes` bear the key of their registration; `registered` is
history: the generations whose bootstrap secret has authenticated a registration. -/
structure System (η : Type) where
  hub : State η := {}
  file : Option (List (Record η)) := none
  writes : List (Write η) := []
  prepared : List (Key × Nat) := []
  agent : Option BoxAgent := none
  hellos : Calls Hello := fun _ => none
  welcomes : Calls (Key × Option Nat) := fun _ => none
  registered : List Key := []

section
variable {η : Type}

def snapshot (hub : State η) : List (Record η) := hub.records.entries.filterMap fun e => hub.objects e.2

/-- `persist` takes its snapshot when it is called. -/
def System.persist (s : System η) (caller : Caller) : System η :=
  { s with writes := s.writes ++ [⟨snapshot s.hub, caller⟩] }

/-- The credential that `connectOnce` reads. -/
def BoxAgent.auth (agent : BoxAgent) : Option Auth :=
  match agent.reconnectFile, agent.bootstrapSecret with
  | some credential, _ => some (.reconnect (some credential))
  | none, some secret => some (.bootstrap (some secret))
  | none, none => none

def System.setPhase (s : System η) (phase : AgentPhase) : System η :=
  { s with agent := s.agent.map fun agent => { agent with phase } }

variable [DecidableEq η] (hashCredential : Nat → η)

def attested (s : System η) (k : Nat) (verified : Bool) (now : Nat) : Option (System η) :=
  (BoxRegistry.step hashCredential s.hub (.attested k verified now)).map fun hub =>
    let t : System η := { s with hub }
    if (hub.sockets k).any fun socket => socket.phase.installed.isSome then t.persist (.authenticate k) else t

def operated (s : System η) (i now : Nat) : Option (System η) :=
  (BoxRegistry.step hashCredential s.hub (.operate i now)).map fun hub =>
    let t : System η := { s with hub }
    match s.hub.operations i with
    | some (.prepareRegistration key _ _, _) =>
      if s.hub.records.get key = none ∧ (hub.records.get key).isSome then
        t.persist (.prepareRegistration key s.hub.nextSecret)
      else t
    | _ => t

/-- What the call does whose write has ended. The welcome of a registration bears the
credential that the bootstrap secret has been exchanged for. -/
def resolve (s : System η) (caller : Caller) (written : Bool) : System η :=
  match caller with
  | .other => s
  | .prepareRegistration key secret =>
    if written then { s with prepared := s.prepared ++ [(key, secret)] } else s
  | .authenticate k =>
    match s.hub.sockets k with
    | some ⟨.persisting key o epoch credential, _⟩ =>
      let hub := s.hub.setPhase k (if written then .authenticated key o epoch else .rejected .registrationFailed)
      if written then
        { s with
          hub
          welcomes := s.welcomes.put k (key, credential)
          registered := s.registered ++ (if credential.isSome then [key] else []) }
      else { s with hub }
    | _ => s

/-- The steps of the registry that the network and the file have no part in. -/
def internal : Action η → Bool
  | .readFails _ | .loaded _ | .afterLoad _ | .message _ _ _ | .closed _ | .call _ | .close => true
  | _ => false

inductive Event (η : Type) where
  | hub (a : Action η)
  | readFile (i : Nat)
  | attested (k : Nat) (verified : Bool) (now : Nat)
  | operate (i now : Nat)
  | persist
  | write (outcome : Outcome)
  | deliverHello (k : Nat)
  | crashHub
  | provision (key : Key) (bootstrapSecret : Nat)
  | connect
  | sendHello (hello : Hello)
  | receiveWelcome
  | store (stored : Bool)
  | drop
  | crashAgent

/-- `persist` stands for the other calls of `persist`, all of which come after a load. A hub that
has crashed is started again; names of sockets and secrets are not used twice. The agent does
not close a socket that it has given up, and stores a credential even when its connection has
dropped. -/
def step (s : System η) : Event η → Option (System η)
  | .hub a =>
    if internal a then (BoxRegistry.step hashCredential s.hub a).map fun hub => { s with hub } else none
  | .readFile i =>
    (BoxRegistry.step hashCredential s.hub (.read i s.file)).map fun hub => { s with hub }
  | .attested k verified now => attested hashCredential s k verified now
  | .operate i now => operated hashCredential s i now
  | .persist => if s.hub.loaded then some (s.persist .other) else none
  | .write outcome =>
    match s.writes with
    | [] => none
    | w :: rest =>
      let file := if outcome = .failed then s.file else some w.registrations
      some (resolve { s with file, writes := rest } w.caller (outcome = .written))
  | .deliverHello k =>
    match s.hellos k with
    | some hello =>
      (BoxRegistry.step hashCredential s.hub (.firstMessage k (.hello hello))).map fun hub =>
        { s with hub, hellos := s.hellos.drop k }
    | none => none
  | .crashHub =>
    some { s with
      hub := { nextSecret := s.hub.nextSecret, nextSocket := s.hub.nextSocket }
      writes := [] }
  | .provision key secret =>
    if s.agent = none ∧ (key, secret) ∈ s.prepared then
      some { s with agent := some ⟨key, secret, some secret, none, .idle⟩ }
    else none
  | .connect =>
    match s.agent with
    | some agent =>
      if agent.phase = .idle then
        agent.auth.map fun auth =>
          { s.setPhase (.connecting s.hub.nextSocket auth) with
            hub := { s.hub with
              sockets := s.hub.sockets.put s.hub.nextSocket {}
              nextSocket := s.hub.nextSocket + 1 } }
      else none
    | none => none
  | .sendHello hello =>
    match s.agent with
    | some ⟨key, _, _, _, .connecting k auth⟩ =>
      if hello.key = key ∧ hello.auth = auth then
        some { s.setPhase (.waiting k) with hellos := s.hellos.put k hello }
      else none
    | _ => none
  | .receiveWelcome =>
    match s.agent with
    | some ⟨_, _, _, _, .waiting k⟩ =>
      (s.welcomes k).map fun (_, credential) =>
        match credential with
        | some credential => s.setPhase (.storing k credential)
        | none => s.setPhase (.connected k)
    | _ => none
  | .store stored =>
    match s.agent with
    | some ⟨key, environment, _, _, .storing k credential⟩ =>
      some (if stored then
        { s with agent := some ⟨key, environment, none, some credential, .connected k⟩ }
      else s.setPhase .idle)
    | _ => none
  | .drop =>
    match s.agent with
    | some ⟨_, _, _, _, .connecting _ _⟩ | some ⟨_, _, _, _, .waiting _⟩ | some ⟨_, _, _, _, .connected _⟩ =>
      some (s.setPhase .idle)
    | _ => none
  | .crashAgent =>
    s.agent.map fun agent =>
      { s with agent := some { agent with bootstrapSecret := some agent.environment, phase := .idle } }

def registration (s : System η) (key : Key) : Option (Record η) :=
  if s.hub.loaded then s.hub.record key
  else ((s.file.getD []).reverse.find? fun record => record.key = key).map Record.settle

def Accepts (record : Record η) (auth : Auth) (now : Nat) : Prop :=
  ∃ presented, presentCredential hashCredential record auth now 0 = .ok presented

/-- The hub knows the registration of the agent. While its generation has not been revoked, the
hub accepts the bootstrap secret that the agent reads, until this expires, or the secret has been used and the
agent has not stored the credential it was exchanged for; one that the agent has stored is
always accepted. A bootstrap secret authenticates at most one registration. -/
structure HandshakeLaw (s : System η) : Prop where
  known : ∀ agent, s.agent = some agent → ∃ record, registration s agent.key = some record
  accepted : ∀ agent, s.agent = some agent → ∀ record, registration s agent.key = some record →
    record.revokedAt = none → ∀ now ≤ record.expiresAt,
      (∃ auth, agent.auth = some auth ∧ Accepts hashCredential record auth now) ∨
        record.bootstrapUsedAt.isSome ∧ agent.reconnectFile = none
  stored : ∀ agent, s.agent = some agent → ∀ record, registration s agent.key = some record →
    record.revokedAt = none → ∀ credential, agent.reconnectFile = some credential →
      ∀ now, Accepts hashCredential record (.reconnect (some credential)) now
  once : s.registered.Nodup

end

end BoxHandshake
