import Oyster.Interleaving
import Oyster.OrderedMap

/-! The hub's registry of cloud boxes: the registrations, which are kept in a file and held as
objects that several calls share, the table of connections, and the handlers of the sockets,
cut at their awaits. A registration is of one generation of one box. -/
namespace BoxRegistry
open Interleaving

def validIdentity (value : String) : Bool :=
  match value.toList with
  | [] => false
  | first :: rest =>
    first.isAlphanum && decide (rest.length ≤ 127) && rest.all fun c => c.isAlphanum || "._:-".toList.contains c

def toLowerCase (identity : String) : String := String.ofList (identity.toList.map Char.toLower)

structure Key where
  boxId : String
  generation : String
  deriving DecidableEq

inductive Status where
  | awaitingAgent
  | initializing
  | online
  | offline
  | failed
  deriving DecidableEq

structure Agent where
  capabilities : List String
  deriving DecidableEq

structure Observed where
  serviceState : String
  deriving DecidableEq

/-- A registration; credentials are kept as hashes only. -/
structure Record (η : Type) where
  key : Key
  provider : String
  providerInstanceId : Option String := none
  bootstrapHash : Option η
  reconnectHash : Option η := none
  bootstrapUsedAt : Option Nat := none
  createdAt : Nat
  expiresAt : Nat
  revokedAt : Option Nat := none
  status : Status := .awaitingAgent
  connectedAt : Option Nat := none
  lastSeenAt : Option Nat := none
  agent : Option Agent := none
  observed : Option Observed := none

/-- Secrets are named by numbers; `none` is a value that is not a string. -/
inductive Auth where
  | bootstrap (secret : Option Nat)
  | reconnect (credential : Option Nat)
  | other
  deriving DecidableEq

structure Hello where
  key : Key
  auth : Auth
  providerKind : Option String
  instanceId : Option String
  agent : Option Agent
  observed : Option Observed
  deriving DecidableEq

inductive Frame where
  | binary
  | malformed
  | hello (hello : Hello)
  | heartbeat
  | status (observed : Option Observed)
  | dial
  | other

structure BoxError where
  code : String
  message : String
  deriving DecidableEq

inductive Phase where
  | fresh
  | loading (hello : Hello) (load : Option Nat)
  | attesting (hello : Hello) (record : Nat)
  | persisting (key : Key) (record epoch : Nat) (credential : Option Nat)
  | authenticated (key : Key) (record epoch : Nat)
  | rejected (error : BoxError)
  deriving DecidableEq

/-- `closed` tells that the close handler has run. -/
structure Socket where
  phase : Phase := .fresh
  closed : Bool := false
  deriving DecidableEq

structure Connection where
  socket : Nat
  connectionEpoch : Nat
  instanceId : Option String
  deriving DecidableEq

/-- A call of `load`; `none` stands for a state file that does not exist. -/
inductive Load (η : Type) where
  | reading
  | parsed (registrations : Option (List (Record η)))
  | finished
  | failed

/-- The other calls of the registry; all of them await `load` first. -/
inductive Operation where
  | prepareRegistration (key : Key) (provider : String) (ttlMs : Nat)
  | bindProviderInstance (key : Key) (instanceId : String)
  | revoke (key : Key)
  | read

/-- `records` refers to objects: a socket that has been authenticated holds on to its own. -/
structure State (η : Type) where
  objects : Calls (Record η) := fun _ => none
  nextObject : Nat := 0
  records : OrderedMap Key Nat := OrderedMap.empty
  loaded : Bool := false
  loads : Calls (Load η) := fun _ => none
  nextLoad : Nat := 0
  connections : Key → Option Connection := fun _ => none
  nextEpoch : Nat := 0
  nextSecret : Nat := 0
  sockets : Calls Socket := fun _ => none
  nextSocket : Nat := 0
  operations : Calls (Operation × Option Nat) := fun _ => none
  nextOperation : Nat := 0

section
variable {η : Type}

def State.record (s : State η) (key : Key) : Option (Record η) := (s.records.get key).bind s.objects

def State.modifyObject (s : State η) (o : Nat) (f : Record η → Record η) : State η :=
  { s with objects := s.objects.modify o f }

def State.setPhase (s : State η) (k : Nat) (phase : Phase) : State η :=
  { s with sockets := s.sockets.modify k fun socket => { socket with phase } }

def State.allocate (s : State η) (record : Record η) : State η :=
  { s with
    objects := s.objects.put s.nextObject record
    records := s.records.set record.key s.nextObject
    nextObject := s.nextObject + 1 }

/-- The call of `load`, up to the read of the file. -/
def beginLoad (s : State η) : State η × Option Nat :=
  if s.loaded then (s, none)
  else ({ s with loads := s.loads.put s.nextLoad .reading, nextLoad := s.nextLoad + 1 }, some s.nextLoad)

/-- No box is connected to a registry that has just started. -/
def Record.settle (record : Record η) : Record η :=
  if record.revokedAt.isNone ∧ (record.status = .online ∨ record.status = .initializing) then
    { record with status := if record.reconnectHash.isSome then .offline else .awaitingAgent }
  else record

/-- `load` after its read: the map is replaced, whatever has been done since. -/
def finishLoad (s : State η) (i : Nat) (registrations : Option (List (Record η))) : State η :=
  let read : State η := match registrations with
    | none => s
    | some records => records.foldl (fun s record => s.allocate record.settle) { s with records := OrderedMap.empty }
  { read with loaded := true, loads := read.loads.put i .finished }

/-- Whether a call that awaits `load` goes on. -/
def State.loadEnded (s : State η) (load : Option Nat) : Option (Except Unit Unit) :=
  match load with
  | none => some (.ok ())
  | some i =>
    match s.loads i with
    | some .finished => some (.ok ())
    | some .failed => some (.error ())
    | _ => none

def BoxError.invalidHello : BoxError := ⟨"invalid_hello", "invalid box hello"⟩
def BoxError.binaryHello : BoxError := ⟨"invalid_hello", "binary hello is not supported"⟩
/-- For an error of the file system, of the parser or of the attestation, which is sent under
its own code where it has one. -/
def BoxError.registrationFailed : BoxError := ⟨"registration_failed", "registration failed"⟩
def BoxError.unknownGeneration : BoxError := ⟨"unknown_generation", "box generation is not pending or active"⟩
def BoxError.identityMismatch : BoxError := ⟨"identity_mismatch", "provider identity mismatch"⟩
def BoxError.providerPending : BoxError :=
  ⟨"provider_pending", "provider is still binding the created instance"⟩
def BoxError.instanceMismatch : BoxError := ⟨"identity_mismatch", "provider instance identity mismatch"⟩
def BoxError.bootstrapExpired : BoxError :=
  ⟨"bootstrap_expired", "bootstrap credential expired or already used"⟩
def BoxError.bootstrapRejected : BoxError := ⟨"authentication_failed", "bootstrap credential rejected"⟩
def BoxError.reconnectRejected : BoxError := ⟨"authentication_failed", "reconnect credential rejected"⟩
def BoxError.unsupportedMode : BoxError := ⟨"authentication_failed", "unsupported box authentication mode"⟩

def validHello (hello : Hello) : Bool := validIdentity hello.key.boxId && validIdentity hello.key.generation

/-- The checks of `authenticate` before the attestation. -/
def identify (s : State η) (hello : Hello) : Except BoxError Nat :=
  match s.records.get hello.key with
  | none => .error .unknownGeneration
  | some o =>
    match s.objects o with
    | none => .error .unknownGeneration
    | some record =>
      if record.revokedAt.isSome then .error .unknownGeneration
      else if hello.providerKind ≠ some record.provider ∨ ¬hello.instanceId.any validIdentity then
        .error .identityMismatch
      else match record.providerInstanceId with
        | none => .error .providerPending
        | some instanceId => if hello.instanceId = some instanceId then .ok o else .error .instanceMismatch

variable [DecidableEq η] (hashCredential : Nat → η)

def safeEqualHash (expected : Option η) (value : Option Nat) : Bool :=
  match expected, value with
  | some expected, some value => expected == hashCredential value
  | _, _ => false

/-- The credential is checked, and a bootstrap secret is used up; `fresh` is the reconnect
credential that it is exchanged for. -/
def presentCredential (record : Record η) (auth : Auth) (now fresh : Nat) : Except BoxError (Record η × Option Nat) :=
  match auth with
  | .bootstrap secret =>
    if record.bootstrapUsedAt.isSome ∨ record.expiresAt < now then .error .bootstrapExpired
    else if safeEqualHash hashCredential record.bootstrapHash secret then
      .ok ({ record with
        bootstrapUsedAt := some now
        bootstrapHash := none
        reconnectHash := some (hashCredential fresh) }, some fresh)
    else .error .bootstrapRejected
  | .reconnect credential =>
    if safeEqualHash hashCredential record.reconnectHash credential then .ok (record, none)
    else .error .reconnectRejected
  | .other => .error .unsupportedMode

def Record.connect (record : Record η) (hello : Hello) (now : Nat) : Record η :=
  { record with
    providerInstanceId := record.providerInstanceId <|> hello.instanceId
    connectedAt := some now
    lastSeenAt := some now
    status := .online
    agent := hello.agent
    observed := hello.observed }

/-- The connection is installed in place of the previous one of the generation, and the
registration is about to be persisted. -/
def install (s : State η) (k : Nat) (hello : Hello) (o : Nat) (record : Record η) (credential : Option Nat)
    (now : Nat) : State η :=
  { s.setPhase k (.persisting hello.key o s.nextEpoch credential) with
    connections := Function.update s.connections hello.key (some ⟨k, s.nextEpoch, hello.instanceId⟩)
    nextEpoch := s.nextEpoch + 1
    nextSecret := s.nextSecret + 1
    objects := s.objects.put o (record.connect hello now)
    records := s.records.set hello.key o }

/-- `authenticate` after the attestation, up to its `persist`. -/
def authenticate (s : State η) (k : Nat) (hello : Hello) (o now : Nat) : State η :=
  match s.objects o with
  | none => s.setPhase k (.rejected .registrationFailed)
  | some record =>
    match presentCredential hashCredential record hello.auth now s.nextSecret with
    | .error error => s.setPhase k (.rejected error)
    | .ok (record, credential) => install s k hello o record credential now

/-- The first message of a socket; the others are handled once it is authenticated. -/
def onFirstMessage (s : State η) (k : Nat) (frame : Frame) : State η :=
  match frame with
  | .hello hello =>
    if validHello hello then
      let (s, load) := beginLoad s
      s.setPhase k (.loading hello load)
    else s.setPhase k (.rejected .invalidHello)
  | .binary => s.setPhase k (.rejected .binaryHello)
  | .malformed => s.setPhase k (.rejected .registrationFailed)
  | _ => s.setPhase k (.rejected .invalidHello)

/-- `authenticate` between its first two awaits. -/
def afterLoad (s : State η) (k : Nat) (hello : Hello) (ended : Except Unit Unit) : State η :=
  match ended with
  | .error _ => s.setPhase k (.rejected .registrationFailed)
  | .ok _ =>
    match identify s hello with
    | .error error => s.setPhase k (.rejected error)
    | .ok o => s.setPhase k (.attesting hello o)

def State.current (s : State η) (key : Key) (epoch : Nat) : Bool :=
  (s.connections key).any fun connection => connection.connectionEpoch == epoch

def onMessage (s : State η) (key : Key) (o epoch : Nat) (frame : Frame) (now : Nat) : State η :=
  if s.current key epoch then
    match frame with
    | .heartbeat => s.modifyObject o fun record => { record with lastSeenAt := some now }
    | .status observed =>
      s.modifyObject o fun record =>
        { record with lastSeenAt := some now, observed := observed <|> record.observed }
    | _ => s
  else s

/-- The close handler, which knows the connection once `authenticate` has returned. -/
def onClose (s : State η) (k : Nat) (phase : Phase) : State η :=
  let closed : State η := { s with sockets := s.sockets.modify k fun socket => { socket with closed := true } }
  match phase with
  | .authenticated key o epoch =>
    if s.current key epoch then
      { closed with
        connections := Function.update s.connections key none
        objects := s.objects.modify o fun record => { record with status := .offline } }
    else closed
  | _ => closed

def bindProviderInstance (s : State η) (key : Key) (instanceId : String) (now : Nat) : State η :=
  match s.records.get key, s.record key with
  | some o, some record =>
    if record.providerInstanceId.any fun bound => bound != instanceId then s
    else if (s.connections key).any fun active => active.instanceId != some instanceId then
      s.modifyObject o fun record =>
        { record with providerInstanceId := some instanceId, revokedAt := some now, status := .failed }
    else s.modifyObject o fun record => { record with providerInstanceId := some instanceId }
  | _, _ => s

def revoke (s : State η) (key : Key) (now : Nat) : State η :=
  match s.records.get key with
  | none => s
  | some o =>
    { s.modifyObject o fun record =>
        { record with revokedAt := some now, bootstrapHash := none, reconnectHash := none, status := .failed } with
      connections := Function.update s.connections key none }

/-- The generation is a new identifier. -/
def prepareRegistration (s : State η) (key : Key) (provider : String) (ttlMs now : Nat) : State η :=
  { s.allocate
      { key
        provider := toLowerCase provider
        bootstrapHash := some (hashCredential s.nextSecret)
        createdAt := now
        expiresAt := now + ttlMs } with
    nextSecret := s.nextSecret + 1 }

def operate (s : State η) (now : Nat) : Operation → State η
  | .prepareRegistration key provider ttlMs =>
    if s.records.get key = none ∧ validIdentity key.boxId ∧ validIdentity provider then
      prepareRegistration hashCredential s key provider ttlMs now
    else s
  | .bindProviderInstance key instanceId =>
    if validIdentity instanceId then bindProviderInstance s key instanceId now else s
  | .revoke key => revoke s key now
  | .read => s

/-- The connection that a stream would be opened on; `room` tells that it has less streams
than are allowed. -/
def dial (s : State η) (key : Key) (port : Nat) (room : Bool) : Except String Connection :=
  if ¬(validIdentity key.boxId ∧ validIdentity key.generation) then .error "invalid box dial identity"
  else if port ≠ 8080 then .error "box agent only permits localhost port 8080"
  else match s.connections key, s.record key with
    | some connection, some record =>
      if record.revokedAt.isSome then .error "box is not connected"
      else if ¬record.agent.any fun agent => agent.capabilities.contains "dial_v1" then
        .error "box agent does not support localhost Dial"
      else if room then .ok connection
      else .error "box dial stream limit reached"
    | _, _ => .error "box is not connected"

def publicStatus (record : Record η) (connected : Bool) (timestamp : Nat) : Status :=
  if connected then
    if record.observed.any (fun observed => observed.serviceState == "ready") ∧
        record.agent.any (fun agent => agent.capabilities.contains "dial_v1") then .online
    else .initializing
  else if record.status = .awaitingAgent ∧ record.reconnectHash.isNone ∧ record.expiresAt < timestamp then .failed
  else record.status

def get (s : State η) (key : Key) (timestamp : Nat) : Option Status :=
  (s.record key).map fun record => publicStatus record (s.connections key).isSome timestamp

inductive Action (η : Type) where
  | opened
  | firstMessage (k : Nat) (frame : Frame)
  | read (i : Nat) (registrations : Option (List (Record η)))
  | readFails (i : Nat)
  | loaded (i : Nat)
  | afterLoad (k : Nat)
  | attested (k : Nat) (verified : Bool) (now : Nat)
  | persisted (k : Nat) (written : Bool)
  | message (k : Nat) (frame : Frame) (now : Nat)
  | closed (k : Nat)
  | call (operation : Operation)
  | operate (i : Nat) (now : Nat)
  | close

/-- A socket that has not been closed receives messages; what a call of `authenticate` does
goes on after its socket has been closed. -/
def step (s : State η) : Action η → Option (State η)
  | .opened => some { s with sockets := s.sockets.put s.nextSocket {}, nextSocket := s.nextSocket + 1 }
  | .firstMessage k frame =>
    match s.sockets k with
    | some ⟨.fresh, false⟩ => some (onFirstMessage s k frame)
    | _ => none
  | .read i registrations =>
    match s.loads i with
    | some .reading => some { s with loads := s.loads.put i (.parsed registrations) }
    | _ => none
  | .readFails i =>
    match s.loads i with
    | some .reading => some { s with loads := s.loads.put i .failed }
    | _ => none
  | .loaded i =>
    match s.loads i with
    | some (.parsed registrations) => some (finishLoad s i registrations)
    | _ => none
  | .afterLoad k =>
    match s.sockets k with
    | some ⟨.loading hello load, _⟩ => (s.loadEnded load).map (afterLoad s k hello)
    | _ => none
  | .attested k verified now =>
    match s.sockets k with
    | some ⟨.attesting hello o, _⟩ =>
      some (if verified then authenticate hashCredential s k hello o now
        else s.setPhase k (.rejected .registrationFailed))
    | _ => none
  | .persisted k written =>
    match s.sockets k with
    | some ⟨.persisting key o epoch _, _⟩ =>
      some (s.setPhase k (if written then .authenticated key o epoch else .rejected .registrationFailed))
    | _ => none
  | .message k frame now =>
    match s.sockets k with
    | some ⟨.authenticated key o epoch, false⟩ => some (onMessage s key o epoch frame now)
    | _ => none
  | .closed k =>
    match s.sockets k with
    | some ⟨phase, false⟩ => some (onClose s k phase)
    | _ => none
  | .call operation =>
    let (s, load) := beginLoad s
    some { s with
      operations := s.operations.put s.nextOperation (operation, load)
      nextOperation := s.nextOperation + 1 }
  | .operate i now =>
    match s.operations i with
    | some (operation, load) =>
      (s.loadEnded load).map fun ended =>
        let s : State η := { s with operations := s.operations.drop i }
        match ended with
        | .ok _ => operate hashCredential s now operation
        | .error _ => s
    | none => none
  | .close => some { s with connections := fun _ => none }

end

end BoxRegistry
