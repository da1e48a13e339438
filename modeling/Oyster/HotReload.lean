import Oyster.Interleaving

/-! Hot reload of the application in the stable server: the debounced reloads, the loads of
candidates with their commit and the retirement of the application before, and shutdown.
Everything between two turns of the event loop is one step. -/
namespace HotReload

def RETIREMENT_MAX_ATTEMPTS : Nat := 3

/-- What has happened, for the statements about runs. -/
inductive Event where
  | observed
  | started (generation : Nat)
  | committed (generation : Nat)
  | failed (generation : Nat)
  | disposed (generation : Nat)
  | shutdown

/-- What an imported `app.mjs` exports. -/
structure Exports where
  buildCandidate : Bool
  init : Bool

/-- Which methods a candidate has; `pi` are `startPi` and `stopPi` once it is active. -/
structure Candidate where
  handleRequest : Bool
  activate : Bool
  dispose : Bool
  pi : Bool

/-- The application that serves requests. -/
structure Application where
  generation : Nat
  dispose : Bool

inductive Place where
  | importing
  | building (transactional : Bool)
  | activating (transactional : Bool) (candidate : Candidate)
  | cleaning
  | retiring (previous : Application) (attempt : Nat)
  | delaying (previous : Application) (attempt : Nat)

/-- A call of `loadApp`; `boot` is the one at the start of the server. -/
structure Load where
  generation : Nat
  boot : Bool
  place : Place

structure State where
  app : Option Application := none
  reloadCount : Nat := 0
  nextApplicationGeneration : Nat := 0
  reloadTimer : Option Nat := none
  reloadInProgress : Bool := false
  activeReload : Option Nat := none
  pendingReload : Option String := none
  shuttingDown : Bool := false
  timers : List Nat := []
  nextTimer : Nat := 0
  booted : Bool := false
  loads : List Load := []
  log : List Event := []

/-- How a promise of a candidate settles; `rejectedBare` with a reason that has no message. -/
inductive Settled where
  | fulfilled
  | rejected
  | rejectedBare

inductive Action where
  | change (changed : String)
  | timer (id : Nat)
  | imported (generation : Nat) (module : Option Exports)
  | built (generation : Nat) (candidate : Option Candidate)
  | activated (generation : Nat) (ok : Bool)
  | cleaned (generation : Nat)
  | retired (generation : Nat) (result : Settled)
  | delayed (generation : Nat)
  | shutdown

def truthy (value : Option String) : Bool := value.any fun text => decide (text ≠ "")

namespace State
variable (s : State)

def note (e : Event) : State := { s with log := e :: s.log }

/-- `reloadTimer = setTimeout(…)`. -/
def armTimer : State :=
  { s with reloadTimer := some s.nextTimer, timers := s.timers ++ [s.nextTimer], nextTimer := s.nextTimer + 1 }

/-- `clearTimeout(reloadTimer)`. -/
def clearTimer : State := { s with timers := s.timers.filter fun id => decide (some id ≠ s.reloadTimer) }

def loadApp (boot : Bool) : State :=
  { s with
    nextApplicationGeneration := s.nextApplicationGeneration + 1
    loads := s.loads ++ [⟨s.nextApplicationGeneration + 1, boot, .importing⟩]
    log := .started (s.nextApplicationGeneration + 1) :: s.log }

def drainReloads : State :=
  if s.reloadInProgress || s.shuttingDown || !truthy s.pendingReload then s
  else loadApp { s with
    reloadInProgress := true
    pendingReload := none
    activeReload := some (s.nextApplicationGeneration + 1) } false

def scheduleReload (changed : String) : State :=
  if s.shuttingDown then s
  else { s with pendingReload := some changed }.clearTimer.armTimer.note .observed

def timerFires (id : Nat) : State :=
  drainReloads { s with timers := s.timers.filter fun other => decide (other ≠ id), reloadTimer := none }

def drop (load : Load) : State :=
  { s with loads := s.loads.filter fun other => decide (other.generation ≠ load.generation) }

def goto (load : Load) (place : Place) : State :=
  { s with loads := s.loads.map fun other =>
      if other.generation = load.generation then { load with place := place } else other }

def reloadEnds : State :=
  let s := { s with reloadInProgress := false, activeReload := none }
  if truthy s.pendingReload && s.reloadTimer.isNone && !s.shuttingDown then s.armTimer else s

/-- `loadApp` throws. At the start of the server that is its end. -/
def loadFails (load : Load) : State :=
  let s := (s.drop load).note (.failed load.generation)
  if load.boot then s else s.reloadEnds

/-- `loadApp` is through; at the start of the server the watchers and the signals are installed now. -/
def loadReturns (load : Load) : State :=
  if load.boot then { s.drop load with booted := true } else (s.drop load).reloadEnds

/-- `disposeFailedCandidate`, for a candidate with these methods. -/
def candidateFails (load : Load) (candidate : Option Candidate) : State :=
  if candidate.any Candidate.dispose then (s.goto load .cleaning).note (.disposed load.generation) else s.loadFails load

/-- The retirement of the application before calls its `dispose`. -/
def retire (load : Load) (previous : Application) (attempt : Nat) : State :=
  (s.goto load (.retiring previous attempt)).note (.disposed previous.generation)

/-- The handler swap and what follows it at once. -/
def commit (load : Load) (candidate : Candidate) : State :=
  let next := { s with app := some ⟨load.generation, candidate.dispose⟩, reloadCount := s.reloadCount + 1 }.note
    (.committed load.generation)
  match s.app with
  | some previous => if previous.dispose then next.retire load previous 1 else next.loadReturns load
  | none => next.loadReturns load

/-- After the activation: the second check for a shutdown, `assertCandidate` and the commit. -/
def candidateReady (load : Load) (transactional : Bool) (candidate : Candidate) : State :=
  if s.shuttingDown then s.candidateFails load (some candidate)
  else if !candidate.handleRequest || (transactional && !candidate.dispose) || !candidate.pi then
    s.candidateFails load (some candidate)
  else s.commit load candidate

def imported (load : Load) : (module : Option Exports) → State
  | none => s.loadFails load
  | some module =>
    if !module.buildCandidate && !module.init then s.loadFails load
    else s.goto load (.building module.buildCandidate)

def built (load : Load) (transactional : Bool) : (candidate : Option Candidate) → State
  | none => s.candidateFails load none
  | some candidate =>
    if !candidate.handleRequest || (transactional && !candidate.dispose) || s.shuttingDown then
      s.candidateFails load (some candidate)
    else if candidate.activate then s.goto load (.activating transactional candidate)
    else s.candidateReady load transactional candidate

def activated (load : Load) (transactional : Bool) (candidate : Candidate) (ok : Bool) : State :=
  if ok then s.candidateReady load transactional candidate else s.candidateFails load (some candidate)

/-- An attempt to dispose of the application before has settled. A reason without a message makes the report itself throw. -/
def retired (load : Load) (previous : Application) (attempt : Nat) : Settled → State
  | .fulfilled => s.loadReturns load
  | .rejected =>
    if attempt < RETIREMENT_MAX_ATTEMPTS then s.goto load (.delaying previous attempt) else s.loadReturns load
  | .rejectedBare => s.loadReturns load

/-- What `shutdown` does before it waits: reload timers and watchers are gone. -/
def shutdown : State :=
  if s.shuttingDown then s
  else { { s with shuttingDown := true }.clearTimer with reloadTimer := none, pendingReload := none }.note .shutdown

def load (generation : Nat) : Option Load := s.loads.find? fun load => decide (load.generation = generation)

end State

/-- The start of the server. -/
def init : State := State.loadApp {} true

/-- `reloadable` are the modules of the reload manifest. -/
def step (reloadable : List String) (s : State) : Action → Option State
  | .change changed => if s.booted ∧ changed ∈ reloadable ∧ changed ≠ "" then some (s.scheduleReload changed) else none
  | .timer id => if id ∈ s.timers then some (s.timerFires id) else none
  | .imported generation module =>
    (s.load generation).bind fun load =>
      match load.place with
      | .importing => some (s.imported load module)
      | _ => none
  | .built generation candidate =>
    (s.load generation).bind fun load =>
      match load.place with
      | .building transactional => some (s.built load transactional candidate)
      | _ => none
  | .activated generation ok =>
    (s.load generation).bind fun load =>
      match load.place with
      | .activating transactional candidate => some (s.activated load transactional candidate ok)
      | _ => none
  | .cleaned generation =>
    (s.load generation).bind fun load =>
      match load.place with
      | .cleaning => some (s.loadFails load)
      | _ => none
  | .retired generation result =>
    (s.load generation).bind fun load =>
      match load.place with
      | .retiring previous attempt => some (s.retired load previous attempt result)
      | _ => none
  | .delayed generation =>
    (s.load generation).bind fun load =>
      match load.place with
      | .delaying previous attempt => some (s.retire load previous (attempt + 1))
      | _ => none
  | .shutdown => if s.booted then some s.shutdown else none

end HotReload
