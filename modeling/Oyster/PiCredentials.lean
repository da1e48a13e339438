import Oyster.Interleaving

/-! The credential operations of pi for one provider: its API key and its OAuth grant in pi's own store, and
the store of Claude Code that shares the grant of Anthropic. An operation holds its reservations from its start to its
end. An operation of pi's store takes effect at once, some time before its promise is resumed. -/
namespace PiCredentials
open Interleaving

def ANTHROPIC : String := "anthropic"

inductive Harness where
  | pi
  | claudeCode
  | gemini
  | amp
  deriving DecidableEq

/-- Tokens are named by numbers. -/
structure Grant where
  access : Nat
  refresh : Nat
  expires : Nat
  deriving DecidableEq

inductive Credential where
  | apiKey (key : String)
  | oauth (grant : Grant)
  | unsupported (type : String)
  deriving DecidableEq

/-- What is configured: the provider, the kind of the SDK and of its store, and the sinks. -/
structure Service where
  provider : String
  runtime : Bool
  modifies : Bool
  claudeSink : Bool
  registered : Bool
  oauthCapable : Bool

inductive Operation where
  | setApiKey (key : String)
  | removeApiKey
  | loginOAuth (harness : Harness) (replace : Bool)
  | logoutOAuth (harness : Harness)
  | rotateAnthropicOAuth (force : Bool) (marginMs : Nat)
  | rotateProviderOAuth (force : Bool) (marginMs : Nat)
  | syncClaudeOAuth
  | syncCodexOAuth

def Operation.reservations : Operation → List Harness
  | .loginOAuth harness _ | .logoutOAuth harness => [harness]
  | .rotateAnthropicOAuth _ _ | .syncClaudeOAuth => [.pi, .claudeCode]
  | .setApiKey _ | .removeApiKey | .rotateProviderOAuth _ _ | .syncCodexOAuth => [.pi]

/-- What an operation awaits. -/
inductive Stage where
  | loading
  | external
  | storing (key : String)
  | removing
  | loggingIn
  | standalone
  | loggingOut
  | syncing (grant : Grant)
  | synced
  | rotating (grant : Grant)
  | exchanging (grant : Grant)
  | renewing (grant : Grant)
  | stored

structure Call where
  operation : Operation
  stage : Stage := .loading

/-- What has replaced an API key by an OAuth grant. -/
inductive Replacer where
  | login (harness : Harness) (replace : Bool)
  | sync
  | rotation
  deriving DecidableEq

/-- `stored` is the provider's entry of pi's store and `claude` the grant of Claude Code. History: what has replaced an API
key by an OAuth grant. -/
structure State where
  now : Nat := 0
  stored : Option Credential := none
  claude : Option Grant := none
  deadRefreshToken : Option Nat := none
  deadProviderRefreshToken : Option Nat := none
  reservations : List Harness := []
  calls : Calls Call := fun _ => none
  nextCall : Nat := 0
  replaced : List Replacer := []

inductive Event where
  | call (operation : Operation)
  | loaded (k : Nat)
  | effect (k : Nat) (grant : Grant)
  | resumes (k : Nat)
  | fails (k : Nat) (invalidGrant : Bool)
  | claudeWrites (grant : Option Grant)
  | passes (ms : Nat)

def Credential.isApiKey : Credential → Bool
  | .apiKey _ => true
  | _ => false

def State.write (s : State) (by' : Replacer) (grant : Grant) : State :=
  { s with
    stored := some (.oauth grant)
    replaced := if s.stored.any Credential.isApiKey then s.replaced ++ [by'] else s.replaced }

def State.setKey (s : State) (key : String) : State := { s with stored := some (.apiKey key) }

def State.remove (s : State) : State := { s with stored := none }

def State.goto (s : State) (k : Nat) (operation : Operation) (stage : Stage) : State :=
  { s with calls := s.calls.put k { operation, stage } }

def State.close (s : State) (k : Nat) (operation : Operation) : State :=
  { s with
    calls := s.calls.drop k
    reservations := s.reservations.filter fun harness => decide (harness ∉ operation.reservations) }

def State.projectToClaude (s : State) : State :=
  match s.stored with
  | some (.oauth grant) => { s with claude := some grant }
  | _ => s

def State.due (s : State) (grant : Grant) (force : Bool) (marginMs : Nat) : Bool := force || decide (grant.expires ≤ s.now + marginMs)

/-- Whether an operation may be called at all: `normalizedHarness`, and the sinks that are needed. -/
def Service.offers (service : Service) : Operation → Bool
  | .loginOAuth .claudeCode _ | .logoutOAuth .claudeCode | .rotateAnthropicOAuth _ _ | .syncClaudeOAuth => service.claudeSink
  | _ => true

def State.begin (service : Service) (s : State) (operation : Operation) : Option State :=
  if service.offers operation ∧ ∀ harness ∈ operation.reservations, harness ∉ s.reservations then
    some { s with
      reservations := s.reservations ++ operation.reservations
      calls := s.calls.put s.nextCall { operation }
      nextCall := s.nextCall + 1 }
  else none

/-- Whether `setApiKey` takes a key in this state. -/
def State.acceptsKey (service : Service) (s : State) : Bool :=
  match s.stored with
  | some (.oauth _) | some (.unsupported _) => false
  | some (.apiKey _) => true
  | none => service.registered

def State.setApiKey (service : Service) (s : State) (k : Nat) (key : String) : State :=
  if s.acceptsKey service then
    if service.runtime then s.goto k (.setApiKey key) (.storing key) else (s.setKey key).close k (.setApiKey key)
  else s.close k (.setApiKey key)

def State.removeApiKey (service : Service) (s : State) (k : Nat) : State :=
  if s.stored.any Credential.isApiKey then
    if service.runtime then s.goto k .removeApiKey .removing else s.remove.close k .removeApiKey
  else s.close k .removeApiKey

/-- A login for Claude Code runs pi's login where pi has no credential, and leaves an API key of pi alone. -/
def State.claudeCodeOAuthLogin (s : State) (k : Nat) (replace : Bool) : State :=
  let operation := Operation.loginOAuth .claudeCode replace
  if s.claude.isSome ∧ replace = false then s.close k operation
  else
    match s.stored with
    | some (.apiKey _) => s.goto k operation .standalone
    | some (.oauth _) => s.projectToClaude.close k operation
    | _ => s.goto k operation .loggingIn

def State.piOAuthLoginResult (s : State) (k : Nat) (replace : Bool) : State :=
  let operation := Operation.loginOAuth .pi replace
  match s.stored with
  | some (.unsupported _) => s.close k operation
  | some _ => if replace then s.goto k operation .loggingIn else s.close k operation
  | none => s.goto k operation .loggingIn

def State.loginOAuth (service : Service) (s : State) (k : Nat) (harness : Harness) (replace : Bool) : State :=
  match harness with
  | .gemini | .amp => s.goto k (.loginOAuth harness replace) .external
  | .claudeCode =>
    if service.oauthCapable ∧ service.provider = ANTHROPIC then s.claudeCodeOAuthLogin k replace
    else s.close k (.loginOAuth .claudeCode replace)
  | .pi => if service.oauthCapable then s.piOAuthLoginResult k replace else s.close k (.loginOAuth .pi replace)

def State.clearMirroredOauth (service : Service) (s : State) : State :=
  if service.claudeSink ∧ service.provider = ANTHROPIC then { s with claude := none } else s

def State.logoutOAuth (service : Service) (s : State) (k : Nat) (harness : Harness) : State :=
  match harness with
  | .gemini | .amp => s.goto k (.logoutOAuth harness) .external
  | .claudeCode =>
    if service.provider = ANTHROPIC then { s with claude := none }.close k (.logoutOAuth .claudeCode)
    else s.close k (.logoutOAuth .claudeCode)
  | .pi =>
    match s.stored with
    | some (.oauth _) =>
      if service.runtime then s.goto k (.logoutOAuth .pi) .loggingOut
      else (s.remove.clearMirroredOauth service).close k (.logoutOAuth .pi)
    | _ => s.close k (.logoutOAuth .pi)

/-- `writeStoredOAuth` of `syncAnthropicOAuth`. -/
def State.writeStoredOAuth (service : Service) (s : State) (k : Nat) (operation : Operation) (grant : Grant) : State :=
  if service.modifies then s.goto k operation (.syncing grant) else (s.write .sync grant).goto k operation .synced

def State.syncAnthropicOAuth (service : Service) (s : State) (k : Nat) (operation : Operation) : State :=
  match s.stored, s.claude with
  | some (.apiKey _), _ | some (.unsupported _), _ | none, none => s.goto k operation .synced
  | none, some claude => s.writeStoredOAuth service k operation claude
  | some (.oauth _), none => s.projectToClaude.goto k operation .synced
  | some (.oauth pi), some claude =>
    if pi.refresh = claude.refresh ∧ pi.expires = claude.expires then s.goto k operation .synced
    else if pi.expires < claude.expires then s.writeStoredOAuth service k operation claude
    else s.projectToClaude.goto k operation .synced

def State.exchange (service : Service) (s : State) (k : Nat) (operation : Operation) (grant : Grant) : State :=
  s.goto k operation (if service.modifies then .rotating grant else .exchanging grant)

def State.rotateProviderOAuth (service : Service) (s : State) (k : Nat) (force : Bool) (marginMs : Nat) : State :=
  let operation := Operation.rotateProviderOAuth force marginMs
  match s.stored with
  | some (.oauth grant) =>
    if s.due grant force marginMs ∧ s.deadProviderRefreshToken ≠ some grant.refresh then s.exchange service k operation grant
    else s.close k operation
  | _ => s.close k operation

/-- `load` and `prepare` have returned. -/
def State.loaded (service : Service) (s : State) (k : Nat) : Operation → State
  | .setApiKey key => s.setApiKey service k key
  | .removeApiKey => s.removeApiKey service k
  | .loginOAuth harness replace => s.loginOAuth service k harness replace
  | .logoutOAuth harness => s.logoutOAuth service k harness
  | .rotateAnthropicOAuth force marginMs => s.syncAnthropicOAuth service k (.rotateAnthropicOAuth force marginMs)
  | .rotateProviderOAuth force marginMs => s.rotateProviderOAuth service k force marginMs
  | .syncClaudeOAuth => s.syncAnthropicOAuth service k .syncClaudeOAuth
  | .syncCodexOAuth => s.close k .syncCodexOAuth

/-- The callback of `modify` looks at what the store holds as it runs. -/
def State.rotate (s : State) (operation : Operation) (grant : Grant) : State :=
  match s.stored, operation with
  | some (.oauth stored), .rotateAnthropicOAuth force marginMs | some (.oauth stored), .rotateProviderOAuth force marginMs =>
    if s.due stored force marginMs then s.write .rotation grant else s
  | _, _ => s

def State.effect (s : State) (k : Nat) (call : Call) (grant : Grant) : Option State :=
  match call.stage with
  | .storing key => some ((s.setKey key).goto k call.operation .stored)
  | .removing | .loggingOut => some (s.remove.goto k call.operation .stored)
  | .loggingIn =>
    match call.operation with
    | .loginOAuth harness replace => some ((s.write (.login harness replace) grant).goto k call.operation .stored)
    | _ => none
  | .syncing grant => some ((s.write .sync grant).goto k call.operation .synced)
  | .rotating _ => some ((s.rotate call.operation grant).goto k call.operation .stored)
  | .exchanging _ => some ((s.write .rotation grant).goto k call.operation .stored)
  | .standalone => some ({ s with claude := some grant }.close k call.operation)
  | .renewing read =>
    let s := { s with deadRefreshToken := none }
    if s.claude.any fun current => decide (current.refresh ≠ read.refresh) then some (s.close k call.operation)
    else some ({ s with claude := some grant }.close k call.operation)
  | .loading | .external | .synced | .stored => none

/-- `rotateAnthropicOAuth` after the stores have been synced. -/
def State.rotateAnthropicOAuth (service : Service) (s : State) (k : Nat) (force : Bool) (marginMs : Nat) : State :=
  let operation := Operation.rotateAnthropicOAuth force marginMs
  match s.stored with
  | some (.apiKey _) =>
    match s.claude with
    | some claude =>
      if s.due claude force marginMs ∧ s.deadRefreshToken ≠ some claude.refresh then s.goto k operation (.renewing claude)
      else s.close k operation
    | none => s.close k operation
  | some (.oauth grant) =>
    if s.due grant force marginMs ∧ s.deadRefreshToken ≠ some grant.refresh then s.exchange service k operation grant
    else s.close k operation
  | _ => s.close k operation

def State.resume (service : Service) (s : State) (k : Nat) (call : Call) : Option State :=
  match call.stage, call.operation with
  | .external, operation => some (s.close k operation)
  | .synced, .rotateAnthropicOAuth force marginMs => some (s.rotateAnthropicOAuth service k force marginMs)
  | .synced, operation => some (s.close k operation)
  | .stored, .loginOAuth .claudeCode replace => some (s.projectToClaude.close k (.loginOAuth .claudeCode replace))
  | .stored, .loginOAuth harness replace =>
    some ((if service.claudeSink ∧ service.provider = ANTHROPIC then s.projectToClaude else s).close k (.loginOAuth harness replace))
  | .stored, .logoutOAuth harness => some ((s.clearMirroredOauth service).close k (.logoutOAuth harness))
  | .stored, .rotateAnthropicOAuth force marginMs =>
    some ({ s with deadRefreshToken := none }.projectToClaude.close k (.rotateAnthropicOAuth force marginMs))
  | .stored, .rotateProviderOAuth force marginMs =>
    some ({ s with deadProviderRefreshToken := none }.close k (.rotateProviderOAuth force marginMs))
  | .stored, operation => some (s.close k operation)
  | _, _ => none

def State.fail (s : State) (k : Nat) (call : Call) (invalidGrant : Bool) : Option State :=
  match call.stage, call.operation with
  | .synced, _ | .stored, _ => none
  | .rotating read, .rotateProviderOAuth force marginMs | .exchanging read, .rotateProviderOAuth force marginMs =>
    let s := if invalidGrant then { s with deadProviderRefreshToken := some read.refresh } else s
    some (s.close k (.rotateProviderOAuth force marginMs))
  | .rotating read, operation | .exchanging read, operation | .renewing read, operation =>
    let s := if invalidGrant then { s with deadRefreshToken := some read.refresh } else s
    some (s.close k operation)
  | _, operation => some (s.close k operation)

def step (service : Service) (s : State) : Event → Option State
  | .call operation => s.begin service operation
  | .loaded k =>
    match s.calls k with
    | some ⟨operation, .loading⟩ => some (s.loaded service k operation)
    | _ => none
  | .effect k grant => (s.calls k).bind fun call => s.effect k call grant
  | .resumes k => (s.calls k).bind fun call => s.resume service k call
  | .fails k invalidGrant => (s.calls k).bind fun call => s.fail k call invalidGrant
  | .claudeWrites grant => some { s with claude := grant }
  | .passes ms => some { s with now := s.now + ms }

end PiCredentials
