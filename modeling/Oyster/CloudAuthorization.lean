import Oyster.Interleaving
import Oyster.OrderedMap
import Oyster.Text

/-! The service that connects a cloud account through the browser. A flow is an object that the
table of flows and the callbacks in flight share; a callback awaits the exchange of its code and
then the store of the credential. -/
namespace CloudAuthorization
open Interleaving

def flowTtlMs : Nat := 20 * 60 * 1000

def maxFlows : Nat := 8

def providerIds : List String := ["digitalocean", "gcp"]

structure AuthorizationError where
  message : String
  status : Nat := 400
  code : String := "authorization_failed"

inductive Status where
  | authorizing
  | succeeded
  | failed
  | cancelled
  | expired
  deriving DecidableEq

structure Flow where
  id : String
  provider : String
  state : String
  verifier : String
  authorizationUrl : String
  status : Status := .authorizing
  createdAt : Nat
  expiresAt : Nat
  account : Option String := none
  projectId : Option String := none
  error : Option String := none

structure Snapshot where
  id : String
  provider : String
  status : Status
  createdAt : Nat
  expiresAt : Nat
  authorizationUrl : Option String
  account : Option (Option String)
  requiresProject : Option Bool
  error : Option String

/-- What the exchange yields, as far as the flow keeps it. -/
structure Credential where
  account : Option String := none
  projectId : Option String := none

structure Parameters where
  state : Option String
  error : Option String := none
  code : Option String := none

/-- `late` is history: the flow had been cancelled or its time was over when the exchange ended. -/
inductive Callback where
  | exchanging (flow : Nat)
  | saving (flow : Nat) (credential : Credential) (late : Bool)

/-- `flows` and `stateIndex` are the maps of the service, `objects` all flows that there have been.
History: the states that a callback has consumed, the flows whose credential has been handed to
the store, and the answers of the callbacks. -/
structure State where
  now : Nat := 0
  objects : List Flow := []
  flows : OrderedMap String Nat := OrderedMap.empty
  stateIndex : OrderedMap String String := OrderedMap.empty
  callbacks : Calls Callback := fun _ => none
  nextCallback : Nat := 0
  consumed : List String := []
  saves : List (Nat × Bool) := []
  reports : List (Snapshot × Bool) := []

def providerName (provider : String) : String :=
  if provider = "digitalocean" then "DigitalOcean" else "Google Cloud"

/-- `value || null` -/
def orNull (value : Option String) : Option String := if Text.falsy value then none else value

def flowSnapshot (flow : Flow) : Snapshot where
  id := flow.id
  provider := flow.provider
  status := flow.status
  createdAt := flow.createdAt
  expiresAt := flow.expiresAt
  authorizationUrl := if flow.status = .authorizing then some flow.authorizationUrl else none
  account := if flow.status = .succeeded then some (orNull flow.account) else none
  requiresProject :=
    if flow.status = .succeeded then some (decide (flow.provider = "gcp") && Text.falsy flow.projectId) else none
  error :=
    if flow.status = .failed then
      some ((orNull flow.error).getD s!"{providerName flow.provider} authorization failed")
    else none

def requiredString (value : Option String) (label : String) : Except AuthorizationError String :=
  match value with
  | none => .error { message := s!"{label} is required" }
  | some text =>
    if Text.trim text.toList = [] then .error { message := s!"{label} is required" }
    else .ok (String.ofList (Text.trim text.toList))

section Sweep

def Flow.due (flow : Flow) (now : Nat) : Bool := decide (flow.expiresAt ≤ now)

/-- What `sweep` and `cancel` take from a flow. -/
def Flow.erase (flow : Flow) : Flow := { flow with verifier := "", authorizationUrl := "" }

def Flow.expire (flow : Flow) : Flow := { flow.erase with status := .expired }

/-- The body of the loop of `sweep`. -/
def expire (s : State) (entry : String × Nat) : State :=
  match s.objects[entry.2]? with
  | none => s
  | some flow =>
    if flow.due s.now then
      let swept := { s with
        objects := s.objects.modify entry.2 Flow.expire
        stateIndex := s.stateIndex.delete flow.state }
      if flowTtlMs < s.now - flow.expiresAt then { swept with flows := swept.flows.delete entry.1 } else swept
    else s

def sweep (s : State) : State := s.flows.entries.foldl expire s

end Sweep

/-- The flow of an identity; `sweep` has run before. -/
def State.find (s : State) (flowId : String) : Except AuthorizationError (Nat × Flow) :=
  match (s.flows.get flowId).bind fun o => (s.objects[o]?).map fun flow => (o, flow) with
  | none => .error { message := "authorization flow not found", status := 404, code := "flow_not_found" }
  | some found => .ok found

section Operations
variable (configured : String → Bool) (authorizationUrl : String → String → String → String)

def oauthNotConfigured (provider : String) : AuthorizationError where
  message := s!"{provider} OAuth is not configured"
  status := 409
  code := "oauth_not_configured"

def State.authorizing (s : State) : List Flow :=
  (s.flows.entries.filterMap fun e => s.objects[e.2]?).filter fun flow => flow.status = .authorizing

def startRefused (s : State) (provider : String) : Option AuthorizationError :=
  if provider ∉ providerIds then
    some { message := "provider does not support browser authorization", status := 404, code := "provider_not_supported" }
  else if configured provider = false then some (oauthNotConfigured provider)
  else if s.authorizing.any fun flow => flow.provider = provider then
    some { message := s!"{providerName provider} authorization is already active", status := 409, code := "flow_busy" }
  else if maxFlows ≤ s.authorizing.length then
    some { message := "too many active authorization flows", status := 409, code := "flow_limit" }
  else none

/-- `id`, `state` and `verifier` are the random values that a start draws. -/
def start (s : State) (provider id state verifier : String) : Except AuthorizationError Snapshot × State :=
  let s := sweep s
  match startRefused configured s provider with
  | some error => (.error error, s)
  | none =>
    let flow : Flow := {
      id, provider, state, verifier
      authorizationUrl := authorizationUrl provider state verifier
      createdAt := s.now
      expiresAt := s.now + flowTtlMs }
    (.ok (flowSnapshot flow), { s with
      objects := s.objects ++ [flow]
      flows := s.flows.set id s.objects.length
      stateIndex := s.stateIndex.set state id })

def status (s : State) (flowId : String) : Except AuthorizationError Snapshot × State :=
  let s := sweep s
  (do let (_, flow) ← s.find flowId; pure (flowSnapshot flow), s)

def Flow.cancel (flow : Flow) : Flow :=
  { flow.erase with status := if flow.status = .authorizing then .cancelled else flow.status }

def cancel (s : State) (flowId : String) : Except AuthorizationError Snapshot × State :=
  let s := sweep s
  match s.find flowId with
  | .error error => (.error error, s)
  | .ok (o, flow) =>
    (.ok (flowSnapshot flow.cancel), { s with
      objects := s.objects.modify o Flow.cancel
      stateIndex := s.stateIndex.delete flow.state })

def invalidCallback : AuthorizationError where
  message := "authorization callback is invalid or expired"
  status := 400
  code := "invalid_callback"

/-- A flow that has come to its end answers its callback. -/
def State.report (s : State) (o : Nat) (late : Bool) (f : Flow → Flow) : State :=
  { s with
    objects := s.objects.modify o f
    reports := s.reports ++ ((s.objects[o]?).map fun flow => (flowSnapshot (f flow), late)).toList }

def Flow.decline (flow : Flow) (error : String) : Flow :=
  { flow with
    status := .failed
    error := some (if error = "access_denied" then "Authorization was declined."
      else s!"{providerName flow.provider} authorization failed.")
    verifier := "" }

/-- The `catch` and the `finally` of a callback. -/
def Flow.fail (flow : Flow) : Flow :=
  { flow with
    status := .failed
    error := some s!"{providerName flow.provider} could not be connected. Please try again."
    verifier := "" }

def Flow.succeed (flow : Flow) (credential : Credential) : Flow :=
  { flow with
    status := .succeeded
    account := orNull credential.account
    projectId := orNull credential.projectId
    verifier := "" }

def State.consumes (s : State) (provider : String) (parameters : Parameters) : Except AuthorizationError (Nat × Flow) := do
  let state ← requiredString parameters.state "OAuth state"
  let found := (s.stateIndex.get state).bind fun flowId => (s.flows.get flowId).bind fun o =>
    (s.objects[o]?).map fun flow => (o, flow)
  match found with
  | none => .error invalidCallback
  | some (o, flow) =>
    if flow.state = state ∧ flow.provider = provider ∧ flow.status = .authorizing then .ok (o, flow)
    else .error invalidCallback

def Flow.consume (flow : Flow) : Flow := { flow with authorizationUrl := "" }

/-- A callback until it awaits the exchange, or to its end. -/
def callback (s : State) (provider : String) (parameters : Parameters) : Except AuthorizationError Nat × State :=
  let s := sweep s
  match s.consumes provider parameters with
  | .error error => (.error error, s)
  | .ok (o, flow) =>
    let s := { s with
      stateIndex := s.stateIndex.delete flow.state
      objects := s.objects.modify o Flow.consume
      consumed := s.consumed ++ [flow.state] }
    (.ok o,
      if Text.falsy parameters.error = false then s.report o false fun flow => flow.decline (parameters.error.getD "")
      else
        match requiredString parameters.code "OAuth code", configured provider with
        | .ok _, true => { s with
            callbacks := s.callbacks.put s.nextCallback (.exchanging o)
            nextCallback := s.nextCallback + 1 }
        | _, _ => s.report o false Flow.fail)

def Flow.over (flow : Flow) (now : Nat) : Bool := decide (flow.status ≠ .authorizing) || flow.due now

def exchanged (s : State) (k o : Nat) (result : Option Credential) : State :=
  let late := (s.objects[o]?).any fun flow => flow.over s.now
  match result with
  | none => { s with callbacks := s.callbacks.drop k }.report o late Flow.fail
  | some credential => { s with
      callbacks := s.callbacks.put k (.saving o credential late)
      saves := s.saves ++ [(o, late)] }

def saved (s : State) (k o : Nat) (credential : Credential) (late stored : Bool) : State :=
  { s with callbacks := s.callbacks.drop k }.report o late fun flow =>
    if stored then flow.succeed credential else flow.fail

def close (s : State) : State :=
  { s with
    objects := s.flows.entries.foldl (fun objects e => objects.modify e.2 Flow.erase) s.objects
    flows := OrderedMap.empty
    stateIndex := OrderedMap.empty }

inductive Event where
  | tick (ms : Nat)
  | start (provider id state verifier : String)
  | status (flowId : String)
  | cancel (flowId : String)
  | callback (provider : String) (parameters : Parameters)
  | exchanged (k : Nat) (result : Option Credential)
  | saved (k : Nat) (stored : Bool)
  | close

/-- Random values do not occur twice. -/
def State.fresh (s : State) (id state : String) : Bool :=
  s.objects.all fun flow => decide (flow.id ≠ id) && decide (flow.state ≠ state)

def step (s : State) : Event → Option State
  | .tick ms => some { s with now := s.now + ms }
  | .start provider id state verifier =>
    if s.fresh id state then some (start configured authorizationUrl s provider id state verifier).2 else none
  | .status flowId => some (status s flowId).2
  | .cancel flowId => some (cancel s flowId).2
  | .callback provider parameters => some (callback configured s provider parameters).2
  | .exchanged k result =>
    match s.callbacks k with
    | some (.exchanging o) => some (exchanged s k o result)
    | _ => none
  | .saved k stored =>
    match s.callbacks k with
    | some (.saving o credential late) => some (saved s k o credential late stored)
    | _ => none
  | .close => some (close s)

end Operations
end CloudAuthorization
