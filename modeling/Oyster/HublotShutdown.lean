import Oyster.HublotTunnels

/-! The shutdown of all hublots beside the exit handlers of their tunnels. Each operation of the
store is one step, together with the code that runs when it has completed; processes end by
themselves or by the signals that the shutdown sends, and are noticed later. -/
namespace HublotShutdown
open Interleaving
open HublotTunnels (Status Desired Identity ProcessStatus)

structure Hublot where
  id : Nat
  status : Status
  desired : Desired
  publicUrl : Option String
  lastError : Option String
  closedAt : Option Nat
deriving DecidableEq

inductive Role where
  | tunnel
  | service
deriving DecidableEq

structure Exit where
  code : Option Int
  signal : Option String
deriving DecidableEq

/-- How a process ended, as it is recorded. -/
structure End where
  endedAt : Nat
  exit : Exit
deriving DecidableEq

structure Process where
  id : Nat
  hublotId : Nat
  role : Role
  pid : Nat
  identity : Option Identity
  status : ProcessStatus
  observedAt : Option Nat
  ended : Option End
deriving DecidableEq

def Process.active (row : Process) : Bool :=
  row.ended.isNone && (row.status = .running || row.status = .starting)

/-- A process of the system. -/
structure Child where
  pid : Nat
  identity : Identity
  alive : Bool

/-- The exit handler that `openTunnel` attached to a child, until it runs. -/
structure Handler where
  child : Nat
  processId : Nat
  hublotId : Nat
  settled : Bool
  /-- The last line of `errTail`. -/
  errLine : String

inductive Task where
  | find (handler : Handler) (exit : Exit)
  | finish (handler : Handler) (exit : Exit)
  | failFind (handler : Handler) (exit : Exit)
  | failRecord (handler : Handler) (exit : Exit)
  | current (handler : Handler) (exit : Exit)
  | list (handler : Handler) (exit : Exit) (current : Option Hublot)
  | record (handler : Handler) (exit : Exit) (current : Hublot)

/-- Where `shutdownHublots` is, by the operation it waits for. -/
inductive Stage where
  | idle
  | list
  | retire (rows : List Hublot) (targets : List Process)
  | processes (row : Hublot) (rows : List Hublot) (targets : List Process)
  | stop (targets : List Process)
  | finish (pending : List Process) (remaining : List Process) (stoppedAt : Nat)
  | sweep (remaining : List Process) (stoppedAt : Nat)
  | mark (rows : List Hublot) (remaining : List Process) (stoppedAt : Nat)
  | completed
  | failed
deriving DecidableEq

structure State where
  hublots : List Hublot
  processes : List Process
  children : List Child
  handlers : List Handler
  /-- `hublotProcessHandles`: the ids of the records with a handle. -/
  handles : List Nat
  hublotReopens : List Nat
  tasks : Calls Task
  nextTask : Nat
  stage : Stage
  now : Nat
  /-- The ends that exit handlers have stored, by the id of the record. -/
  stored : Nat → Option End
  /-- Whether a tunnel of the hublot was alive, for each that the shutdown marked closed. -/
  marked : List Bool

inductive Action where
  | shutdown
  | op
  | dies (child : Nat)
  | exit (handler : Nat) (exit : Exit)
  | handler (task : Nat)
  | tick

def serverStopped : String := "server stopped; ephemeral cloudflared tunnels are not recreated automatically"

def orNull (text : Option String) : String := text.getD "null"

/-- The error of a tunnel that ends before it is open. -/
def exitedEarly (exit : Exit) (errLine : String) : String :=
  "tunnel exited before reporting a URL (code=" ++ orNull (exit.code.map toString) ++ "): " ++ errLine

/-- The error of a tunnel that ends by itself. -/
def exited (exit : Exit) : String :=
  "tunnel exited (code=" ++ orNull (exit.code.map toString) ++ ", signal=" ++ orNull exit.signal ++ ")"

namespace State
variable (s : State)

/-- `verifyPersistedProcessIdentity`. -/
def verifies (row : Process) : Bool :=
  s.children.any fun child => child.alive && child.pid = row.pid && row.identity = some child.identity

def live (hublotId : Nat) : Bool :=
  s.processes.any fun row => row.hublotId = hublotId && row.role = .tunnel && s.verifies row

def updateHublot (id : Nat) (change : Hublot → Hublot) : State :=
  { s with hublots := s.hublots.map fun row => if row.id = id then change row else row }

def updateProcess (id : Nat) (change : Process → Process) : State :=
  { s with processes := s.processes.map fun row => if row.id = id then change row else row }

def start (task : Task) : State := { s with tasks := s.tasks.put s.nextTask task, nextTask := s.nextTask + 1 }

def goto (i : Nat) (task : Task) : State := { s with tasks := s.tasks.put i task }

def done (i : Nat) : State := { s with tasks := s.tasks.drop i }

def find (id : Nat) : Option Hublot := s.hublots.find? (·.id = id)

def findProcess (id : Nat) : Option Process := s.processes.find? (·.id = id)

def listProcesses (hublotId : Nat) : List Process := s.processes.filter (·.hublotId = hublotId)

/-- `recordHublotTransition` with a null public url. -/
def recordTransition (id : Nat) (status : Status) (desired : Option Desired) (lastError : Option (Option String))
    (closedAt : Option Nat) : State :=
  s.updateHublot id fun row =>
    { row with
      status
      desired := desired.getD row.desired
      publicUrl := none
      lastError := lastError.getD row.lastError
      closedAt := closedAt.or row.closedAt }

/-- `finishPersistedProcess` has returned. -/
def finished (i : Nat) (handler : Handler) (exit : Exit) : State :=
  if handler.settled then s.goto i (.current handler exit) else s.goto i (.failFind handler exit)

/-- `finishPersistedProcess` of the exit handler stores how its process ended. -/
def storeEnd (processId : Nat) (exit : Exit) : State :=
  { s.updateProcess processId fun row =>
      { row with status := .ended, observedAt := some s.now, ended := some ⟨s.now, exit⟩ } with
    stored := Function.update s.stored processId (some ⟨s.now, exit⟩) }

/-- An operation of an exit handler has completed. A handler whose operation throws ends. -/
def handlerOp (i : Nat) : Task → State
  | .find handler exit =>
    match s.findProcess handler.processId with
    | none => s.finished i handler exit
    | some _ => s.goto i (.finish handler exit)
  | .finish handler exit =>
    match s.findProcess handler.processId with
    | none => s.done i
    | some _ => (s.storeEnd handler.processId exit).finished i handler exit
  | .failFind handler exit =>
    match s.find handler.hublotId with
    | none => s.done i
    | some row =>
      if row.status = .opening ∨ row.status = .recovering then s.goto i (.failRecord handler exit) else s.done i
  | .failRecord handler exit =>
    (s.recordTransition handler.hublotId .failed none (some (some (exitedEarly exit handler.errLine))) none).done i
  | .current handler exit => s.goto i (.list handler exit (s.find handler.hublotId))
  | .list handler exit current =>
    let latest := ((s.listProcesses handler.hublotId).filter (·.role = .tunnel)).getLast?
    match current with
    | none => s.done i
    | some row =>
      if handler.hublotId ∉ s.hublotReopens ∧ latest.map (·.id) = some handler.processId ∧
          row.status ≠ .failed ∧ row.status ≠ .closed then s.goto i (.record handler exit row)
      else s.done i
  | .record handler exit current =>
    if current.desired = .closed then
      (s.recordTransition handler.hublotId .closed (some current.desired) (some none) (some s.now)).done i
    else
      (s.recordTransition handler.hublotId .interrupted (some current.desired) (some (some (exited exit)))
        (some s.now)).done i

/-- The loop over the open hublots goes on. -/
def retireNext (targets : List Process) : List Hublot → State
  | [] => { s with stage := .stop targets }
  | row :: rows =>
    if row.status = .closing ∧ row.publicUrl = none ∧ row.lastError = some serverStopped then
      { s with stage := .processes row rows targets }
    else { s with stage := .retire (row :: rows) targets }

def storeShutdown (processId stoppedAt : Nat) : State :=
  { s.updateProcess processId fun row =>
      { row with
        status := .ended
        observedAt := some stoppedAt
        ended := some ⟨stoppedAt, none, some "shutdown"⟩ } with
    handles := s.handles.filter (· ≠ processId) }

def finishNext (remaining : List Process) (stoppedAt : Nat) (pending : List Process) : State :=
  match pending.filter fun row => !remaining.any (·.id = row.id) with
  | [] => { s with stage := .sweep remaining stoppedAt }
  | row :: rows => { s with stage := .finish (row :: rows) remaining stoppedAt }

def mark (row : Hublot) (survives : Bool) (stoppedAt : Nat) : State :=
  { s.recordTransition row.id (if survives then .interrupted else .closed) (some .closed) (some row.lastError)
      (some stoppedAt) with
    marked := if survives then s.marked else s.live row.id :: s.marked }

def markNext (remaining : List Process) (stoppedAt : Nat) : List Hublot → State
  | [] => { s with stage := .completed }
  | row :: rows => { s with stage := .mark (row :: rows) remaining stoppedAt }

def shutdownOp : Stage → Option State
  | .idle | .completed | .failed => none
  | .list => some (s.retireNext [] (s.hublots.filter (·.desired = .opened)))
  | .retire [] _ => none
  | .retire (row :: rows) targets =>
    some <| match s.find row.id with
    | none => { s with stage := .failed }
    | some _ =>
      { s.recordTransition row.id .closing (some .closed) (some (some serverStopped)) none with
        stage := .processes row rows targets }
  | .processes row rows targets =>
    let found := (s.listProcesses row.id).filter fun process =>
      process.active && process.role = .tunnel && s.verifies process
    some (s.retireNext (targets ++ found) rows)
  | .stop targets => some (s.finishNext (targets.filter s.verifies) s.now targets)
  | .finish [] _ _ => none
  | .finish (row :: rows) remaining stoppedAt =>
    -- `ended_at` is read off the promise, and never holds the update back
    some <| match s.findProcess row.id with
    | none => { s with stage := .failed }
    | some _ => (s.storeShutdown row.id stoppedAt).finishNext remaining stoppedAt rows
  | .sweep remaining stoppedAt =>
    some (s.markNext remaining stoppedAt (s.hublots.filter fun row => row.status = .closing && row.desired = .closed))
  | .mark [] _ _ => none
  | .mark (row :: rows) remaining stoppedAt =>
    some <| match s.find row.id with
    | none => { s with stage := .failed }
    | some _ => (s.mark row (remaining.any (·.hublotId = row.id)) stoppedAt).markNext remaining stoppedAt rows

end State

def step (s : State) : Action → Option State
  | .shutdown => if s.stage = .idle then some { s with stage := .list } else none
  | .op => s.shutdownOp s.stage
  | .dies child => some { s with children := s.children.modify child fun process => { process with alive := false } }
  | .exit number exit => do
      let handler ← s.handlers[number]?
      let child ← s.children[handler.child]?
      if child.alive then none
      else some ({ s with
        handlers := s.handlers.eraseIdx number
        handles := s.handles.filter (· ≠ handler.processId) }.start (.find handler exit))
  | .handler i => do
      let task ← s.tasks i
      some (s.handlerOp i task)
  | .tick => some { s with now := s.now + 1 }

end HublotShutdown
