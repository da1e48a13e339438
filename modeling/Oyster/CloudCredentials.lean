import Oyster.Interleaving
import Oyster.Text

/-! The credentials that the hub keeps for the cloud providers: the calls that configure, remove
and use them, cut at their awaits, the refreshes of access tokens that the calls share, and the
chain of writes of the state file. -/
namespace CloudCredentials
open Interleaving

inductive Provider where
  | digitalocean
  | hetzner
  | aws
  | gcp
  deriving DecidableEq

inductive Kind where
  | apiToken
  | accessKey
  | serviceAccount
  | assumeRole
  | oauth
  deriving DecidableEq

/-- `origin` is history: the configuration that a credential descends from. -/
structure Credential where
  kind : Kind
  accessToken : String := ""
  refreshToken : String := ""
  expiresAt : Option Nat := none
  projectId : Option String := none
  origin : Nat := 0

abbrev Credentials := Provider → Option Credential

/-- A call; credentials are as they are stored. -/
inductive Request where
  | configure (provider : Provider) (value : Credential)
  | configureOAuth (provider : Provider) (value : Credential)
  | removeCredentials (provider : Provider)
  | selectProject (projectId : String)
  | verifyAwsRole (value : Credential)
  | credential (provider : Provider)

/-- What a call awaits; `loading none` is a `load` that found the state loaded. -/
inductive Phase where
  | assuming
  | loading (load : Option Nat)
  | revoking
  | refreshing (refresh : Nat)
  | validating (current : Credential)

structure Call where
  request : Request
  phase : Phase

/-- A call of `load`; `none` stands for a state file that does not exist. -/
inductive Load where
  | reading
  | parsed (content : Option Credentials)
  | finished

inductive RefreshPhase where
  | fetching
  | persisting (next : Credential)
  | done (next : Credential)
  | failed

structure Refresh where
  provider : Provider
  value : Credential
  phase : RefreshPhase := .fetching

structure Write where
  credentials : Credentials
  refresh : Option Nat := none

/-- `oauthRefreshes` holds the refresh under way for a provider, `writes` is the chain of writes.
History: the configuration that is the last of a provider, unless its credentials have been removed
since, and whether the last write has been lost. -/
structure State where
  loaded : Bool := false
  loads : Calls Load := fun _ => none
  nextLoad : Nat := 0
  credentials : Credentials := fun _ => none
  file : Option Credentials := none
  writes : List Write := []
  lost : Bool := false
  calls : Calls Call := fun _ => none
  nextCall : Nat := 0
  refreshes : Calls Refresh := fun _ => none
  nextRefresh : Nat := 0
  oauthRefreshes : Provider → Option Nat := fun _ => none
  configured : Provider → Option Nat := fun _ => none
  nextOrigin : Nat := 0

def stored (file : Option Credentials) (provider : Provider) : Option Credential := file.bind fun content => content provider

def State.start (file : Option Credentials) : State :=
  { file, configured := fun provider => (stored file provider).map Credential.origin }

/-- `persist` takes its snapshot when it is called. -/
def State.persist (s : State) (refresh : Option Nat) : State :=
  { s with writes := s.writes ++ [⟨s.credentials, refresh⟩] }

/-- `state.credentials = { ...state.credentials, [provider]: value }` -/
def State.put (s : State) (provider : Provider) (value : Option Credential) : State :=
  { s with credentials := Function.update s.credentials provider value }

/-- A configuration that comes to its assignment. -/
def State.install (s : State) (k : Nat) (provider : Provider) (value : Credential) : State :=
  { s.put provider (some { value with origin := s.nextOrigin }) with
    configured := Function.update s.configured provider (some s.nextOrigin)
    nextOrigin := s.nextOrigin + 1
    calls := s.calls.drop k }.persist none

/-- The end of `removeCredentials`. -/
def State.remove (s : State) (k : Nat) (provider : Provider) : State :=
  { s.put provider none with
    configured := Function.update s.configured provider none
    calls := s.calls.drop k }.persist none

def Credential.stale (value : Credential) (now : Nat) : Bool :=
  decide (value.kind = .oauth) && !value.refreshToken.isEmpty &&
    value.expiresAt.any fun expiresAt => expiresAt ≠ 0 && decide (expiresAt ≤ now + 60000)

/-- The refresh that a caller awaits: the one under way, or a new one of its own value. -/
def State.refreshOAuthCredential (s : State) (provider : Provider) (value : Credential) : State × Nat :=
  match s.oauthRefreshes provider with
  | some r => (s, r)
  | none => ({ s with
      refreshes := s.refreshes.put s.nextRefresh { provider, value }
      nextRefresh := s.nextRefresh + 1
      oauthRefreshes := Function.update s.oauthRefreshes provider (some s.nextRefresh) }, s.nextRefresh)

/-- `selectProject` and `credential` with the credential that they have found. -/
def State.refreshed (s : State) (k : Nat) (call : Call) (provider : Provider) (value : Credential) (now : Nat)
    (selects : Bool) : State :=
  if value.stale now then
    let (s, r) := s.refreshOAuthCredential provider value
    { s with calls := if selects then s.calls.put k { call with phase := .refreshing r } else s.calls.drop k }
  else { s with calls := if selects then s.calls.put k { call with phase := .validating value } else s.calls.drop k }

def revocable (provider : Provider) (value : Option Credential) : Bool :=
  decide (provider = .gcp) && value.any fun value =>
    decide (value.kind = .oauth) && !(value.refreshToken.isEmpty && value.accessToken.isEmpty)

def State.resume (s : State) (k : Nat) (call : Call) (now : Nat) : State :=
  match call.request with
  | .configure provider value | .configureOAuth provider value => s.install k provider value
  | .verifyAwsRole value => s.install k .aws value
  | .removeCredentials provider =>
    if revocable provider (s.credentials provider) then { s with calls := s.calls.put k { call with phase := .revoking } }
    else s.remove k provider
  | .selectProject _ =>
    match s.credentials .gcp with
    | some value =>
      if value.kind = .oauth then s.refreshed k call .gcp value now true
      else { s with calls := s.calls.drop k }
    | none => { s with calls := s.calls.drop k }
  | .credential provider =>
    match s.credentials provider with
    | some value => s.refreshed k call provider value now false
    | none => { s with calls := s.calls.drop k }

structure TokenAnswer where
  accessToken : String
  refreshToken : Option String := none
  expiresIn : Nat := 3600

def Credential.renew (value : Credential) (answer : TokenAnswer) (now : Nat) : Credential :=
  { value with
    accessToken := answer.accessToken
    refreshToken := if Text.falsy answer.refreshToken then value.refreshToken else answer.refreshToken.getD ""
    expiresAt := some (now + answer.expiresIn * 1000) }

def State.fetched (s : State) (r : Nat) (refresh : Refresh) (now : Nat) (answer : TokenAnswer) : State :=
  let next := refresh.value.renew answer now
  { s.put refresh.provider (some next) with
    refreshes := s.refreshes.put r { refresh with phase := .persisting next } }.persist (some r)

/-- A refresh comes to its end, and the next caller starts another. -/
def State.endRefresh (s : State) (r : Nat) (refresh : Refresh) (phase : RefreshPhase) : State :=
  { s with
    refreshes := s.refreshes.put r { refresh with phase }
    oauthRefreshes := Function.update s.oauthRefreshes refresh.provider none }

/-- The write at the head of the chain ends; a refresh that awaits it ends as well. -/
def State.written (s : State) (w : Write) (rest : List Write) (ok : Bool) : State :=
  let s := { s with writes := rest, file := if ok then some w.credentials else s.file, lost := !ok }
  match w.refresh.bind fun r => (s.refreshes r).map fun refresh => (r, refresh) with
  | some (r, refresh) =>
    match refresh.phase with
    | .persisting next => s.endRefresh r refresh (if ok then .done next else .failed)
    | _ => s
  | none => s

/-- A call that comes in, up to its first await. -/
def State.submit (s : State) (request : Request) : State :=
  { s with calls := s.calls.put s.nextCall ⟨request, .assuming⟩, nextCall := s.nextCall + 1 }

/-- A call that comes to `load`. -/
def State.load (s : State) (k : Nat) (request : Request) : State :=
  if s.loaded then { s with calls := s.calls.put k ⟨request, .loading none⟩ }
  else { s with
    calls := s.calls.put k ⟨request, .loading (some s.nextLoad)⟩
    loads := s.loads.put s.nextLoad .reading
    nextLoad := s.nextLoad + 1 }

inductive Event where
  | call (request : Request)
  | assumed (k : Nat) (ok : Bool)
  | readFile (l : Nat)
  | loaded (l : Nat)
  | resume (k now : Nat)
  | revoked (k : Nat)
  | fetched (r now : Nat) (answer : TokenAnswer)
  | refreshFails (r : Nat)
  | settled (k : Nat)
  | validated (k : Nat) (ok : Bool)
  | persist
  | write (ok : Bool)

/-- Whether the load that a call awaits has ended. -/
def State.ready (s : State) (load : Option Nat) : Bool :=
  load.all fun l => match s.loads l with
    | some .finished => true
    | _ => false

/-- Only `verifyAwsRole` awaits something before its load: the role is assumed first. `persist` stands
for the writes of the other calls of the service, all of which come after a load. -/
def step (s : State) : Event → Option State
  | .call request =>
    match request with
    | .verifyAwsRole _ => some (s.submit request)
    | _ => some ({ s with nextCall := s.nextCall + 1 }.load s.nextCall request)
  | .assumed k ok =>
    match s.calls k with
    | some ⟨request, .assuming⟩ => some (if ok then s.load k request else { s with calls := s.calls.drop k })
    | _ => none
  | .readFile l =>
    match s.loads l with
    | some .reading => some { s with loads := s.loads.put l (.parsed s.file) }
    | _ => none
  | .loaded l =>
    match s.loads l with
    | some (.parsed content) => some { s with
        loads := s.loads.put l .finished
        loaded := true
        credentials := content.getD s.credentials }
    | _ => none
  | .resume k now =>
    match s.calls k with
    | some ⟨request, .loading load⟩ =>
      if s.ready load then some (s.resume k ⟨request, .loading load⟩ now) else none
    | _ => none
  | .revoked k =>
    match s.calls k with
    | some ⟨.removeCredentials provider, .revoking⟩ => some (s.remove k provider)
    | _ => none
  | .fetched r now answer =>
    match s.refreshes r with
    | some ⟨provider, value, .fetching⟩ => some (s.fetched r ⟨provider, value, .fetching⟩ now answer)
    | _ => none
  | .refreshFails r =>
    match s.refreshes r with
    | some ⟨provider, value, .fetching⟩ => some (s.endRefresh r ⟨provider, value, .fetching⟩ .failed)
    | _ => none
  | .settled k =>
    match s.calls k with
    | some ⟨request, .refreshing r⟩ =>
      match (s.refreshes r).map Refresh.phase with
      | some (.done next) => some { s with calls := s.calls.put k ⟨request, .validating next⟩ }
      | some .failed => some { s with calls := s.calls.drop k }
      | _ => none
    | _ => none
  | .validated k ok =>
    match s.calls k with
    | some ⟨.selectProject projectId, .validating current⟩ =>
      if ok then
        some ({ s.put .gcp (some { current with projectId := some projectId }) with calls := s.calls.drop k }.persist none)
      else some { s with calls := s.calls.drop k }
    | _ => none
  | .persist => if s.loaded then some (s.persist none) else none
  | .write ok =>
    match s.writes with
    | w :: rest => some (s.written w rest ok)
    | [] => none

/-- The credential of a provider descends from its last configuration, and there is none after a
removal; so does the file, once every write is done and the last has not been lost. -/
structure CredentialLaw (s : State) : Prop where
  memory : s.loaded = true → ∀ provider, (s.credentials provider).map Credential.origin = s.configured provider
  durable : s.loaded = true → s.writes = [] → s.lost = false →
    ∀ provider, (stored s.file provider).map Credential.origin = s.configured provider

/-- The state file is taken over once, and a refresh or a selection writes only where the
credential that it has started from has been neither replaced nor removed since. -/
def Unreplaced (s : State) : Event → Prop
  | .loaded _ => s.loaded = false
  | .fetched r _ _ => ∀ refresh, s.refreshes r = some refresh → s.configured refresh.provider = some refresh.value.origin
  | .validated k ok => ok = true → ∀ request current, s.calls k = some ⟨request, .validating current⟩ →
      s.configured .gcp = some current.origin
  | _ => True

end CloudCredentials
