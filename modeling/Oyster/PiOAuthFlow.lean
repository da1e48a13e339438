import Oyster.Interleaving
import Oyster.Text

/-! The service that coordinates OAuth logins. A flow is one object for its life, numbered as it starts, and
the registry holds some; the login that runs for it and the restart of the runners are steps of its
promise. An abort runs the callbacks of the provider that listen to it before anything else goes on. -/
namespace PiOAuthFlow
open Interleaving

def MAX_PROVIDER_LENGTH : Nat := 256
def MAX_URL_LENGTH : Nat := 16 * 1024
def MAX_TEXT_LENGTH : Nat := 4 * 1024
def MAX_SHORT_LENGTH : Nat := 1024
def MAX_RESPONSE_LENGTH : Nat := 32 * 1024
def MAX_OPTIONS : Nat := 32

def SUPPORTED_HARNESSES : List String := ["pi", "claude-code", "codex", "gemini", "amp"]

def SAFE_FAILURE_CODES : List String :=
  ["credential_busy", "invalid_harness", "credential_replace_required", "credential_type_conflict",
    "oauth_provider_not_found", "credential_service_unavailable", "claude_credential_sync_failed"]

inductive Status where
  | pending
  | succeeded
  | failed
  | cancelled
  deriving DecidableEq

inductive Kind where
  | prompt
  | select
  | manualCode
  deriving DecidableEq

inductive Phase where
  | starting
  | authorization
  | deviceCode
  | request (kind : Kind)
  | progress
  | input
  | waiting
  | restarting
  | complete

/-- A prompt whose promise is outstanding, under the number of the promise. -/
structure Request where
  requestId : Nat
  kind : Kind
  message : String
  placeholder : Option String := none
  options : Option (List (String × String)) := none

structure Authorization where
  url : String
  instructions : Option String

structure DeviceCode where
  userCode : String
  verificationUri : String
  intervalSeconds : Option Nat
  expiresInSeconds : Option Nat

inductive Restart where
  | restarted
  | partially
  | failed

/-- Where the promise of a flow stands: the login before and while it runs, how it has ended, and the restart
of the runners. -/
inductive Login where
  | queued
  | running
  | resolved (harnesses : List String)
  | rejected (code : Option String)
  | restarting
  | done
  deriving DecidableEq

/-- History: whether the login has stored its credential, the prompts whose promises it has been given, and the
statuses that have been set since the start. -/
structure Flow where
  provider : String
  harness : String
  status : Status := .pending
  phase : Phase := .starting
  requests : List Request := []
  authorization : Option Authorization := none
  deviceCode : Option DeviceCode := none
  progress : Option String := none
  harnesses : Option (List String) := none
  restart : Option Restart := none
  failureCode : Option String := none
  credentialPersisted : Bool := false
  aborted : Bool := false
  activeTimer : Bool := false
  terminalTimer : Bool := false
  login : Login := .queued
  stored : Bool := false
  prompts : List Nat := []
  ends : List Status := []

/-- `registry` are the flows that the host's map holds. History: the promises of prompts that have been resolved or
rejected, each time that they have. -/
structure State where
  flows : Calls Flow := fun _ => none
  nextFlow : Nat := 0
  registry : List Nat := []
  nextPromise : Nat := 0
  settled : List Nat := []

/-- A value that is a string within its limit; `none` is thrown. -/
def boundedText (limit : Nat) (value : Option String) : Option String :=
  value.filter fun text => decide (Text.utf16Length text.toList ≤ limit)

def optionalText (limit : Nat) : Option (Option String) → Option (Option String)
  | none => some none
  | some value => (boundedText limit value).map some

def providerId (value : Option String) : Option String :=
  (value.map fun text => String.ofList (Text.trim text.toList)).filter fun id =>
    decide (id ≠ "") && decide (Text.utf16Length id.toList ≤ MAX_PROVIDER_LENGTH)

def harnessId (value : Option String) : Option String :=
  some (value.getD "pi") |>.filter fun harness => decide (harness ∈ SUPPORTED_HARNESSES)

def safeFailureCode (code : Option String) : String :=
  match code with
  | some code => if code ∈ SAFE_FAILURE_CODES then code else "oauth_failed"
  | none => "oauth_failed"

inductive Callback where
  | onAuth (url : Option String) (instructions : Option (Option String))
  | onDeviceCode (userCode verificationUri : Option String) (intervalSeconds expiresInSeconds : Option Nat)
  | onPrompt (message : Option String) (placeholder : Option (Option String))
  | onSelect (message : Option String) (options : List (Option String × Option String))
  | onProgress (message : Option String)
  | onManualCodeInput

def Flow.update (flow : Flow) (phase : Phase) : Flow := { flow with phase, activeTimer := true }

def State.setFlow (s : State) (f : Nat) (flow : Flow) : State := { s with flows := s.flows.put f flow }

/-- A promise for the answer to a prompt, rejected at once where the prompt is not well formed. -/
def State.pendingRequest (s : State) (f : Nat) (flow : Flow) (kind : Kind) (message : String)
    (placeholder : Option (Option String)) (options : Option (List (String × String))) : State :=
  let id := s.nextPromise
  let flow := { flow.update (.request kind) with prompts := flow.prompts ++ [id] }
  match optionalText MAX_TEXT_LENGTH placeholder with
  | some placeholder =>
    { s.setFlow f { flow with requests := flow.requests ++ [⟨id, kind, message, placeholder, options⟩] } with
      nextPromise := id + 1 }
  | none => { s.setFlow f flow with nextPromise := id + 1, settled := s.settled ++ [id] }

def selectOptions : List (Option String × Option String) → Option (List (String × String))
  | [] => some []
  | (id, label) :: rest =>
    match boundedText MAX_SHORT_LENGTH id, boundedText MAX_SHORT_LENGTH label, selectOptions rest with
    | some id, some label, some rest => some ((id, label) :: rest)
    | _, _, _ => none

/-- A callback of the provider. Whatever it throws, what it has set before stays. -/
def State.callback (validUrl : String → Bool) (s : State) (f : Nat) (flow : Flow) : Callback → State
  | .onAuth url instructions =>
    if flow.status = .pending then
      let flow := flow.update .authorization
      match (boundedText MAX_URL_LENGTH url).filter validUrl, optionalText MAX_TEXT_LENGTH instructions with
      | some url, some instructions => s.setFlow f { flow with authorization := some ⟨url, instructions⟩ }
      | _, _ => s.setFlow f flow
    else s
  | .onDeviceCode userCode verificationUri intervalSeconds expiresInSeconds =>
    if flow.status = .pending then
      let flow := flow.update .deviceCode
      match boundedText MAX_SHORT_LENGTH userCode, (boundedText MAX_URL_LENGTH verificationUri).filter validUrl with
      | some userCode, some verificationUri =>
        s.setFlow f { flow with deviceCode := some ⟨userCode, verificationUri, intervalSeconds, expiresInSeconds⟩ }
      | _, _ => s.setFlow f flow
    else s
  | .onPrompt message placeholder =>
    match boundedText MAX_TEXT_LENGTH message with
    | some message => if flow.status = .pending then s.pendingRequest f flow .prompt message placeholder none else s
    | none => s
  | .onSelect message options =>
    match (selectOptions options).filter fun options => decide (0 < options.length) && decide (options.length ≤ MAX_OPTIONS),
        boundedText MAX_TEXT_LENGTH message with
    | some options, some message =>
      if flow.status = .pending then s.pendingRequest f flow .select message none (some options) else s
    | _, _ => s
  | .onProgress message =>
    if flow.status = .pending then
      let flow := flow.update .progress
      match boundedText MAX_TEXT_LENGTH message with
      | some message => s.setFlow f { flow with progress := some message }
      | none => s.setFlow f flow
    else s
  | .onManualCodeInput =>
    if flow.status = .pending then
      s.pendingRequest f flow .manualCode "Paste the authorization code or redirect URL" none none
    else s

def State.runCallback (validUrl : String → Bool) (s : State) (f : Nat) (callback : Callback) : State :=
  match s.flows f with
  | some flow => s.callback validUrl f flow callback
  | none => s

/-- `rejectPending`, and the status that the flow ends with. -/
def State.conclude (s : State) (f : Nat) (status : Status) (failureCode : Option String) : State :=
  match s.flows f with
  | none => s
  | some flow =>
    { s.setFlow f { flow with
        requests := []
        authorization := none
        deviceCode := none
        progress := none
        status
        phase := .complete
        failureCode := failureCode <|> flow.failureCode
        terminalTimer := true
        ends := flow.ends ++ [status] } with
      settled := s.settled ++ flow.requests.map Request.requestId }

/-- `listeners` are the callbacks that the provider makes as the signal is aborted. -/
def State.finish (validUrl : String → Bool) (s : State) (f : Nat) (status : Status) (failureCode : Option String)
    (abort : Bool) (listeners : List Callback) : State :=
  match s.flows f with
  | none => s
  | some flow =>
    if flow.status = .pending then
      let s := s.setFlow f { flow with activeTimer := false, aborted := flow.aborted || abort }
      let s := if abort then listeners.foldl (fun s callback => s.runCallback validUrl f callback) s else s
      s.conclude f status failureCode
    else s

def State.isActive (s : State) (f : Nat) : Bool := (s.flows f).any fun flow => decide (flow.status = .pending)

def State.activeFlows (s : State) : List Nat := s.registry.filter s.isActive

def State.start (maxActiveFlows : Nat) (s : State) (provider harness : Option String) : Option State :=
  match providerId provider, harnessId harness with
  | some provider, some harness =>
    if s.activeFlows.any fun f => (s.flows f).any fun flow =>
        decide (flow.provider = provider) && decide (flow.harness = harness) then none
    else if maxActiveFlows ≤ s.activeFlows.length then none
    else some { s with
      flows := s.flows.put s.nextFlow { provider, harness, activeTimer := true }
      nextFlow := s.nextFlow + 1
      registry := s.registry ++ [s.nextFlow] }
  | _, _ => none

def State.respond (s : State) (f : Nat) (requestId : Nat) (value : Option String) : Option State :=
  match s.flows f with
  | none => none
  | some flow =>
    if f ∈ s.registry ∧ flow.status = .pending then
      match flow.requests.find? fun request => decide (request.requestId = requestId), boundedText MAX_RESPONSE_LENGTH value with
      | some request, some response =>
        if request.kind = .select ∧ (request.options.getD []).all fun option => decide (option.1 ≠ response) then none
        else
          let requests := flow.requests.filter fun request => decide (request.requestId ≠ requestId)
          let flow := { flow with requests }
          some { s.setFlow f (flow.update (if requests = [] then .waiting else .input)) with
            settled := s.settled ++ [requestId] }
      | _, _ => none
    else none

def State.cancel (validUrl : String → Bool) (s : State) (f : Nat) (listeners : List Callback) : Option State :=
  match s.flows f with
  | none => none
  | some flow =>
    if f ∈ s.registry ∧ flow.credentialPersisted = false then
      some (s.finish validUrl f .cancelled (some "oauth_cancelled") true listeners)
    else none

def State.expire (validUrl : String → Bool) (s : State) (f : Nat) (flow : Flow) (listeners : List Callback) : State :=
  let s := s.setFlow f { flow with activeTimer := false }
  if flow.status = .pending then
    if flow.credentialPersisted then
      (s.setFlow f { flow with activeTimer := false, restart := some .failed }).finish validUrl f .succeeded none false []
    else s.finish validUrl f .cancelled (some "oauth_flow_expired") true listeners
  else s

def State.clearTimers (s : State) (f : Nat) : State :=
  match s.flows f with
  | some flow => s.setFlow f { flow with activeTimer := false, terminalTimer := false }
  | none => s

def State.shutdown (validUrl : String → Bool) (s : State) (listeners : Nat → List Callback) : State :=
  let t := s.registry.foldl (fun t f => t.finish validUrl f .cancelled (some "oauth_cancelled") true (listeners f)) s
  { s.registry.foldl State.clearTimers t with registry := [] }

def Flow.persisted (flow : Flow) (harnesses : List String) : Flow :=
  if flow.status = .pending then
    let supported := harnesses.filter fun harness => decide (harness ∈ SUPPORTED_HARNESSES)
    { flow with
      credentialPersisted := true
      harnesses := some (if supported = [] then [flow.harness] else supported.eraseDups)
      login := .restarting }.update .restarting
  else { flow with login := .done }

def State.restarted (validUrl : String → Bool) (s : State) (f : Nat) (flow : Flow) (restart : Restart) : State :=
  if flow.status = .pending then
    (s.setFlow f { flow with restart := some restart, login := .done }).finish validUrl f .succeeded none false []
  else s.setFlow f { flow with login := .done }

inductive Event where
  | start (provider harness : Option String)
  | respond (f requestId : Nat) (value : Option String)
  | cancel (f : Nat) (listeners : List Callback)
  | shutdown (listeners : List (List Callback))
  | callback (f : Nat) (callback : Callback)
  | expires (f : Nat) (listeners : List Callback)
  | forgets (f : Nat)
  | loginStarts (f : Nat)
  | stores (f : Nat)
  | resolves (f : Nat) (harnesses : List String)
  | rejects (f : Nat) (code : Option String)
  | persisted (f : Nat)
  | restarted (f : Nat) (restart : Restart)
  | caught (f : Nat)

/-- A login stores its credential at some time before it resolves, and stores none after its abort. -/
def flowStep (validUrl : String → Bool) (s : State) (f : Nat) (flow : Flow) : Event → Option State
  | .callback _ callback => if flow.login = .queued then none else some (s.callback validUrl f flow callback)
  | .expires _ listeners => if flow.activeTimer then some (s.expire validUrl f flow listeners) else none
  | .forgets _ =>
    if flow.terminalTimer then
      some { s.setFlow f { flow with terminalTimer := false } with registry := s.registry.filter fun g => decide (g ≠ f) }
    else none
  | .loginStarts _ => if flow.login = .queued then some (s.setFlow f { flow with login := .running }) else none
  | .stores _ =>
    if flow.login = .running ∧ flow.aborted = false then some (s.setFlow f { flow with stored := true }) else none
  | .resolves _ harnesses =>
    if flow.login = .running ∧ flow.stored then some (s.setFlow f { flow with login := .resolved harnesses }) else none
  | .rejects _ code => if flow.login = .running then some (s.setFlow f { flow with login := .rejected code }) else none
  | .persisted _ =>
    match flow.login with
    | .resolved harnesses => some (s.setFlow f (flow.persisted harnesses))
    | _ => none
  | .restarted _ restart => if flow.login = .restarting then some (s.restarted validUrl f flow restart) else none
  | .caught _ =>
    match flow.login with
    | .rejected code =>
      some ((s.setFlow f { flow with login := .done }).finish validUrl f .failed (some (safeFailureCode code)) false [])
    | _ => none
  | _ => none

def Event.flow : Event → Nat
  | .start _ _ | .shutdown _ => 0
  | .respond f _ _ | .cancel f _ | .callback f _ | .expires f _ | .forgets f | .loginStarts f | .stores f | .resolves f _
  | .rejects f _ | .persisted f | .restarted f _ | .caught f => f

def step (validUrl : String → Bool) (maxActiveFlows : Nat) (s : State) (e : Event) : Option State :=
  match e with
  | .start provider harness => s.start maxActiveFlows provider harness
  | .respond f requestId value => s.respond f requestId value
  | .cancel f listeners => s.cancel validUrl f listeners
  | .shutdown listeners => some (s.shutdown validUrl fun f => listeners.getD f [])
  | e =>
    match s.flows e.flow with
    | some flow => flowStep validUrl s e.flow flow e
    | none => none

theorem flowStep_of_eq_some {validUrl : String → Bool} {s t : State} {e : Event}
    (taken : (match s.flows e.flow with | some flow => flowStep validUrl s e.flow flow e | none => none) = some t) :
    ∃ flow, s.flows e.flow = some flow ∧ flowStep validUrl s e.flow flow e = some t := by
  split at taken
  · next flow there => exact ⟨flow, there, taken⟩
  · cases taken

end PiOAuthFlow
