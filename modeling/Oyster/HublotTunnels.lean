import Oyster.Interleaving

/-! The tunnel of one hublot: its row and process records in the store, the child processes with
their handlers, and the calls that open, close and reopen it. Each operation of the store is one
step, together with the code that runs when it has completed. -/
namespace HublotTunnels
open Interleaving

inductive Status where
  | opening
  | opened
  | recovering
  | closing
  | closed
  | failed
  | interrupted
deriving DecidableEq

inductive Desired where
  | opened
  | closed
deriving DecidableEq

structure Row where
  status : Status
  desired : Desired
deriving DecidableEq

/-- What identifies a process: `birth` stands for boot and start ticks, `image` for executable and command. -/
structure Identity where
  birth : Nat
  image : Nat
deriving DecidableEq

inductive ProcessStatus where
  | starting
  | running
  | ended
  | failed
  | lost
deriving DecidableEq

/-- A record of a tunnel process; `ended` tells whether `ended_at` is set. -/
structure ProcessRow where
  id : Nat
  pid : Nat
  identity : Option Identity
  status : ProcessStatus
  ended : Bool
deriving DecidableEq

def ProcessRow.active (row : ProcessRow) : Bool :=
  !row.ended && (row.status = .running || row.status = .starting)

/-- A process of the system and its handle. -/
structure Child where
  pid : Nat
  identity : Identity
  alive : Bool
  /-- `exitCode` is set; a signal leaves it null. -/
  exitCode : Bool
  killed : Bool

/-- The handlers that `openTunnel` attaches to a child, with their shared variables. -/
structure Opener where
  child : Nat
  processRow : ProcessRow
  reopen : Bool
  settled : Bool
  checkingPublicUrl : Bool
  timer : Bool

/-- On whose behalf `failOpeningHublot` runs: of an `openTunnel`, called by `reopenHublot` or not, or of the `catch` of `reopenHublot`. -/
inductive Owner where
  | opener (reopen : Bool)
  | reopen
deriving DecidableEq

/-- Calls in progress, by the operation they wait for. -/
inductive Task where
  | closeFind
  | closeClosing
  | closeList
  | closeClosed
  | failFind (owner : Owner)
  | failFailed (owner : Owner)
  | openFind (reopen : Bool)
  | openList (reopen : Bool) (child : Nat)
  | openUpsert (reopen : Bool) (child : Nat) (identity : Option Identity)
  | outputConfirm (opener : Nat) (identity : Identity)
  | ready (opener : Nat)
  | readyOpen (opener : Nat)
  | finishFind (opener : Nat) (exit : Bool)
  | finishUpdate (opener : Nat) (exit : Bool)
  | exitFind (opener : Nat)
  | exitList (opener : Nat) (current : Row)
  | exitRecord (opener : Nat) (desired : Desired)
  | reopenFind
  | reopenHealth
  | reopenConflict
  | reopenList
  | reopenRetireFind (row : ProcessRow) (rest : List ProcessRow)
  | reopenRetireUpdate (row : ProcessRow) (rest : List ProcessRow)
  | reopenOpening
  | reopenCheck
deriving DecidableEq

structure State where
  row : Row
  processes : List ProcessRow
  nextRow : Nat
  children : List Child
  nextBirth : Nat
  /-- `hublotProcessHandles`: record id and child. -/
  handles : List (Nat × Nat)
  openers : List Opener
  hublotReopens : Bool
  tasks : Calls Task
  nextTask : Nat

/-- What spawning the tunnel comes to. -/
inductive Spawn where
  | throws
  | noPid
  | child (pid image : Nat)

inductive Action where
  | close
  | openTunnel
  | reopen
  | op (task : Nat)
  | spawn (task : Nat) (spawned : Spawn)
  | conflict (task : Nat) (found : Bool)
  | answers (task : Nat) (ok : Bool)
  | output (opener : Nat)
  | urlTimeout (opener : Nat)
  | exits (child : Nat) (code : Bool)
  | errors (opener : Nat)
  | execs (child image : Nat)

namespace State
variable (s : State)

/-- `verifyPersistedProcessIdentity`. -/
def verifies (row : ProcessRow) : Bool :=
  s.children.any fun child => child.alive && child.pid = row.pid && row.identity = some child.identity

def start (task : Task) : State := { s with tasks := s.tasks.put s.nextTask task, nextTask := s.nextTask + 1 }

def goto (i : Nat) (task : Task) : State := { s with tasks := s.tasks.put i task }

def done (i : Nat) : State := { s with tasks := s.tasks.drop i }

/-- `recordHublotTransition`. -/
def recordTransition (status : Status) (desired : Option Desired) : State :=
  { s with row := ⟨status, desired.getD s.row.desired⟩ }

def updateProcess (id : Nat) (change : ProcessRow → ProcessRow) : State :=
  { s with processes := s.processes.map fun row => if row.id = id then change row else row }

def updateChild (child : Nat) (change : Child → Child) : State :=
  { s with children := s.children.modify child change }

def updateOpener (opener : Nat) (change : Opener → Opener) : State :=
  { s with openers := s.openers.modify opener change }

def kill (child : Nat) : State := s.updateChild child fun child => { child with killed := true }

/-- `if (proc.exitCode === null && !proc.killed) proc.kill("SIGTERM")`: as killing twice leaves the handle as it is. -/
def killRunning (child : Nat) : State :=
  s.updateChild child fun child => if child.exitCode then child else { child with killed := true }

/-- The `finally` of `reopenHublot`. -/
def reopenEnds : State := { s with hublotReopens := false }

/-- `failOpeningHublot` has returned: the promise of `openTunnel` is rejected, which the `catch` of `reopenHublot` takes up. -/
def failed (i : Nat) : Owner → State
  | .opener false => s.done i
  | .opener true => s.goto i (.failFind .reopen)
  | .reopen => (s.done i).reopenEnds

def settleFailed (number : Nat) (opener : Opener) : State :=
  (s.updateOpener number fun opener => { opener with settled := true, timer := false }).start (.failFind (.opener opener.reopen))

/-- The next process of `reopenHublot` to retire. -/
def retireNext (i : Nat) : List ProcessRow → State
  | [] => s.goto i .reopenOpening
  | row :: rest => s.goto i (.reopenRetireFind row rest)

/-- `persistHublotProcessIdentity` has returned: `openTunnel` registers the handle and attaches its handlers. -/
def attach (i : Nat) (reopen : Bool) (child : Nat) (row : ProcessRow) : State :=
  { s.done i with
    handles := (row.id, child) :: s.handles.filter fun handle => decide (handle.1 ≠ row.id)
    openers := s.openers ++ [⟨child, row, reopen, false, false, true⟩] }

/-- The spawn of the tunnel, and what is done at once. -/
def spawn (i : Nat) (reopen : Bool) : Spawn → State
  | .throws => s.goto i (.failFind (.opener reopen))
  | .noPid => s.goto i (.failFind (.opener reopen))
  | .child pid image =>
    { s.goto i (.openList reopen s.children.length) with
      children := s.children ++ [⟨pid, ⟨s.nextBirth, image⟩, true, false, false⟩]
      nextBirth := s.nextBirth + 1 }

/-- `openTunnel` goes on where the reservation was found. -/
def openFound (i : Nat) (reopen : Bool) (spawned : Spawn) : State :=
  if s.row.status = .opening ∨ s.row.status = .recovering then s.spawn i reopen spawned else s.failed i (.opener reopen)

def openListed (i : Nat) (reopen : Bool) (number : Nat) (child : Child) : State :=
  match s.processes.find? fun row => decide (row.pid = child.pid ∧ row.status = .running ∧ row.ended = false) with
  | some row => s.attach i reopen number row
  | none => s.goto i (.openUpsert reopen number (if child.alive then some child.identity else none))

def openUpserted (i : Nat) (reopen : Bool) (number : Nat) (child : Child) (identity : Option Identity) : State :=
  let row : ProcessRow := ⟨s.nextRow, child.pid, identity, .running, false⟩
  attach { s with processes := s.processes ++ [row], nextRow := s.nextRow + 1 } i reopen number row

/-- The child has reported its URL. `confirmSpawnedTunnelProcess` reads the identity at once. -/
def output (number : Nat) (opener : Opener) (child : Child) : State :=
  if opener.settled || opener.checkingPublicUrl then s
  else
    let checking := s.updateOpener number fun opener => { opener with checkingPublicUrl := true, timer := false }
    if !child.exitCode && !child.killed && child.alive &&
        opener.processRow.identity.any (fun identity => identity.birth = child.identity.birth) then
      checking.start (.outputConfirm number child.identity)
    else (checking.killRunning opener.child).settleFailed number opener

def confirmed (i : Nat) (number : Nat) (opener : Opener) (identity : Identity) : State :=
  match s.processes.find? fun row => decide (row.id = opener.processRow.id) with
  | none => s.done i
  | some row =>
    let refreshed := s.updateProcess row.id fun row => { row with identity := some identity }
    if s.verifies { row with identity := some identity } then refreshed.goto i (.ready number)
    else ((refreshed.done i).killRunning opener.child).settleFailed number opener

def answered (i : Nat) (number : Nat) (opener : Opener) (ok : Bool) : State :=
  if opener.settled then s.done i
  else if ok then (s.updateOpener number fun opener => { opener with settled := true }).goto i (.readyOpen number)
  else ((s.done i).killRunning opener.child).settleFailed number opener

/-- The tunnel is open: `openTunnel` resolves, and with it `reopenHublot`. -/
def readyOpened (i : Nat) (opener : Opener) : State :=
  let next := (s.done i).recordTransition .opened (some .opened)
  if opener.reopen then next.reopenEnds else next

def urlTimeout (number : Nat) (opener : Opener) : State :=
  if opener.settled then s else (s.kill opener.child).settleFailed number opener

/-- The `exit` and the `error` handler begin by giving up the handle. -/
def handleGone (number : Nat) (opener : Opener) (exit : Bool) : State :=
  start { s with handles := s.handles.filter fun handle => decide (handle ≠ (opener.processRow.id, opener.child)) }
    (.finishFind number exit)

/-- The process record is finished: what the handler does next. -/
def finished (i : Nat) (number : Nat) (opener : Opener) (exit : Bool) : State :=
  if opener.settled then if exit then s.goto i (.exitFind number) else s.done i
  else (s.updateOpener number fun opener => { opener with settled := true, timer := false }).goto i
    (.failFind (.opener opener.reopen))

def exits (number : Nat) (code : Bool) : State :=
  let gone := s.updateChild number fun child => { child with alive := false, exitCode := code }
  match gone.openers.findIdx? fun opener => decide (opener.child = number) with
  | none => gone
  | some opener =>
    match gone.openers[opener]? with
    | none => gone
    | some there => gone.handleGone opener there true

def exitListed (i : Nat) (number : Nat) (opener : Opener) (current : Row) : State :=
  if !s.hublotReopens && s.processes.getLast?.map ProcessRow.id = some opener.processRow.id &&
      current.status ≠ .failed && current.status ≠ .closed then
    s.goto i (.exitRecord number current.desired)
  else s.done i

def exitRecorded (i : Nat) (desired : Desired) : State :=
  (s.done i).recordTransition (if desired = .closed then .closed else .interrupted) (some desired)

/-- `closeTunnel` kills the processes it has handles of. -/
def closeListed (i : Nat) : State :=
  let live := s.handles.filter fun handle =>
    s.processes.any (fun row => row.id = handle.1) && s.children[handle.2]?.any fun child => !child.exitCode
  if live.isEmpty then s.goto i .closeClosed
  else live.foldl (fun s handle => s.kill handle.2) (s.done i)

def reopenFound (i : Nat) : State :=
  match s.row.status with
  | .opening | .recovering | .closing => (s.done i).reopenEnds
  | .opened => s.goto i .reopenHealth
  | .closed | .failed | .interrupted => s.goto i .reopenConflict

/-- `currentHublotTunnelProcessIsHealthy`. -/
def currentIsHealthy : Bool := ((s.processes.filter ProcessRow.active).getLast?).any s.verifies

def opened (i : Nat) : State := (s.recordTransition .opening (some .opened)).goto i .reopenCheck

def reopenChecked (i : Nat) : State :=
  if s.row = ⟨.opening, .opened⟩ then s.goto i (.openFind true) else s.goto i (.failFind .reopen)

/-- A store operation that needs nothing from outside completes, and its call goes on. -/
def op (i : Nat) : Task → Option State
  | .closeFind => some (if s.row.status = .closed then s.done i else s.goto i .closeClosing)
  | .closeClosing => some ((s.recordTransition .closing (some .closed)).goto i .closeList)
  | .closeList => some (s.closeListed i)
  | .closeClosed => some ((s.done i).recordTransition .closed (some .closed))
  | .failFind owner =>
    some (if s.row.status = .opening ∨ s.row.status = .recovering then s.goto i (.failFailed owner) else s.failed i owner)
  | .failFailed owner => some ((s.recordTransition .failed none).failed i owner)
  | .openList reopen number => (s.children[number]?).map (s.openListed i reopen number)
  | .openUpsert reopen number identity => (s.children[number]?).map fun child => s.openUpserted i reopen number child identity
  | .outputConfirm number identity => (s.openers[number]?).map fun opener => s.confirmed i number opener identity
  | .readyOpen number => (s.openers[number]?).map (s.readyOpened i)
  | .finishFind number exit =>
    (s.openers[number]?).map fun opener =>
      if s.processes.any fun row => row.id = opener.processRow.id then s.goto i (.finishUpdate number exit)
      else s.finished i number opener exit
  | .finishUpdate number exit =>
    (s.openers[number]?).map fun opener =>
      (s.updateProcess opener.processRow.id fun row => { row with status := if exit then .ended else .failed, ended := true }).finished
        i number opener exit
  | .exitFind number => some (s.goto i (.exitList number s.row))
  | .exitList number current => (s.openers[number]?).map fun opener => s.exitListed i number opener current
  | .exitRecord _ desired => some (s.exitRecorded i desired)
  | .reopenFind => some (s.reopenFound i)
  | .reopenHealth => some (if s.currentIsHealthy then (s.done i).reopenEnds else s.goto i .reopenConflict)
  | .reopenList => some (s.retireNext i (s.processes.filter fun row => !row.ended))
  | .reopenRetireFind row rest =>
    some (if s.processes.any fun other => other.id = row.id then s.goto i (.reopenRetireUpdate row rest) else s.retireNext i rest)
  | .reopenRetireUpdate row rest =>
    some ((s.updateProcess row.id fun row => { row with status := .ended, ended := true }).retireNext i rest)
  | .reopenOpening => some (s.opened i)
  | .reopenCheck => some (s.reopenChecked i)
  | .openFind _ | .ready _ | .reopenConflict => none

end State

def step (s : State) : Action → Option State
  | .close => some (s.start .closeFind)
  | .openTunnel => some (s.start (.openFind false))
  | .reopen => some (if s.hublotReopens then s else { s.start .reopenFind with hublotReopens := true })
  | .op i => (s.tasks i).bind (s.op i)
  | .spawn i spawned =>
    match s.tasks i with
    | some (.openFind reopen) => some (s.openFound i reopen spawned)
    | _ => none
  | .conflict i found =>
    match s.tasks i with
    | some .reopenConflict => some (if found then (s.done i).reopenEnds else s.goto i .reopenList)
    | _ => none
  | .answers i ok =>
    match s.tasks i with
    | some (.ready number) => (s.openers[number]?).map fun opener => s.answered i number opener ok
    | _ => none
  | .output number =>
    (s.openers[number]?).bind fun opener => (s.children[opener.child]?).map (s.output number opener)
  | .urlTimeout number =>
    (s.openers[number]?).bind fun opener => if opener.timer then some (s.urlTimeout number opener) else none
  | .exits number code =>
    (s.children[number]?).bind fun child => if child.alive then some (s.exits number code) else none
  | .errors number => (s.openers[number]?).map fun opener => s.handleGone number opener false
  | .execs number image =>
    (s.children[number]?).bind fun child =>
      if child.alive then some (s.updateChild number fun child => { child with identity := ⟨child.identity.birth, image⟩ }) else none

end HublotTunnels
