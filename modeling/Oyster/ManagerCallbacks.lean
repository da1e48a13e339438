import Oyster.Promises
import Oyster.RoutineManager
import Oyster.SessionReference

/-! What the runner, routine and tunnel managers do as a child process or a timer calls them back, up to the
operations that they await. The store may answer anything, and the server's other parts may do anything to
the runners in between; what a driver makes of a state and the codec of references are parameters. -/
namespace ManagerCallbacks
open Promises RoutineManager SessionReference

def RUNNER_RESPAWN_DEBOUNCE_MS : Nat := 2000
def WATCHDOG_MAX_MISSES : Nat := 2
def MAX_ORPHAN_AGE_MS : Nat := 60 * 60 * 1000
def RUNNER_EVENT_MAX_BYTES : Nat := 1024 * 1024
def DEFAULT_LONG_RUN_MS : Nat := 60000

def NON_REPLAYABLE_RUNNER_EVENTS : List String :=
  ["response", "message_update", "tool_execution_update", "agent_end", "turn_end"]

def CLARIFICATION_METHODS : List String := ["select", "confirm", "input", "editor"]

/-- A runner; a field that the source leaves undefined at first is `none`. -/
structure Runner where
  proc : Option Nat := none
  startTimer : Option Nat := none
  resumeId : Option String := none
  sessionRef : Option Reference := none
  sessionId : Option String := none
  sessionName : Option String := none
  sessionInitialized : Option Bool := none
  attentionStatus : Option String := none
  attentionUnread : Bool := false
  busy : Bool := false
  titleSessionId : Option String := none
  titleLoadingSessionId : Option String := none
  startCount : Nat := 0
  lastSpawnAt : Nat := 0
  lastLineAt : Nat := 0
  probeSentAt : Option Nat := none
  probeMisses : Nat := 0
  watchdogOk : Bool := false
  brokeredUiRequests : Nat := 0
  webPushAgentStartedAt : Option Nat := none
  deriving DecidableEq

/-- A child of the routine manager. `tasks` are the line tasks that have not settled, and `rejected` those that were
rejected. -/
structure Script where
  mode : Mode := .run
  registered : Bool := true
  ready : Bool := false
  pendingClose : Option Exit := none
  pendingLines : List Line := []
  nextLine : Nat := 0
  tasks : List Nat := []
  rejected : List Nat := []
  spawnError : Option String := none
  completed : Bool := false

/-- A call of `openTunnel` whose child runs. -/
structure Tunnel where
  id : Nat
  process : Nat
  settled : Bool := false
  checkingPublicUrl : Bool := false

/-- What a callback reads outside of the managers, without awaiting it. -/
structure World where
  now : Nat := 0
  runners : List Nat := []
  subscribed : List Nat := []
  catalog : Option Backend := none
  launches : Bool := true
  resumeResponseId : Option String := none
  eventBytes : Nat := 0
  spawns : Bool := true
  pid : Nat := 2
  exited : List Nat := []
  identified : List Nat := []
  reopening : List Nat := []
  deriving DecidableEq

structure State where
  world : World := {}
  runners : Nat → Runner := fun _ => {}
  nextTimer : Nat := 0
  nextProc : Nat := 0
  launchFailed : List Nat := []
  scripts : Nat → Script := fun _ => {}
  tunnels : Nat → Option Tunnel := fun _ => none

def State.setRunner (s : State) (r : Nat) (f : Runner → Runner) : State :=
  { s with runners := fun i => if i = r then f (s.runners i) else s.runners i }

def State.setScript (s : State) (c : Nat) (f : Script → Script) : State :=
  { s with scripts := fun i => if i = c then f (s.scripts i) else s.scripts i }

def State.setTunnel (s : State) (t : Nat) (f : Tunnel → Tunnel) : State :=
  { s with tunnels := fun i => if i = t then (s.tunnels i).map f else s.tunnels i }

inductive HublotStatus where
  | opening
  | open'
  | recovering
  | closing
  | closed
  | failed
  | interrupted
  deriving DecidableEq

structure Hublot where
  id : Nat
  port : Nat
  status : HublotStatus
  desiredClosed : Bool

structure Process where
  id : Nat
  tunnel : Bool
  ended : Bool
  pid : Nat

inductive Delivery where
  | delivered
  | gone
  | failed

/-- The operations that a callback awaits. A transaction is one operation. -/
inductive Op where
  | updateRunner
  | appendRunnerEvent
  | ensureSessionOwner
  | reidentify
  | messages
  | summarizeTitle
  | onHarnessAuthFailure
  | flushTranscript
  | listSubscriptions
  | sendNotification
  | markDelivered
  | deleteSubscription
  | createRun
  | findRun
  | findLatestRun
  | listLogs
  | updateProgress (progress : Option Nat) (message : Option String)
  | appendLog (text : String)
  | finishRun (outcome : Outcome)
  | lineQueue
  | lineTasks
  | findHublot
  | listProcesses
  | findProcess
  | updateProcess
  | upsertProcess
  | recordTransition (status : HublotStatus)
  | waitForPublic

def Answer : Op → Type
  | .messages => Nat
  | .summarizeTitle => Option String
  | .listSubscriptions => List Nat
  | .sendNotification => Delivery
  | .findRun | .findLatestRun => Option Row
  | .findHublot => Option Hublot
  | .listProcesses => List Process
  | .findProcess => Bool
  | .upsertProcess => Process
  | .recordTransition _ => Hublot
  | _ => Unit

/-- What a driver makes of a state that a child has told; a field that is left out is `none`. -/
structure SessionState where
  sessionId : Option (Option String) := none
  sessionFile : Option String := none
  sessionName : Option (Option String) := none
  sessionInitialized : Option Bool := none
  isStreaming : Bool := false
  isCompacting : Bool := false
  messageCount : Nat := 0
  deriving DecidableEq

inductive DriverEvent where
  | extensionUiRequest (method : String)
  | agentStart
  | agentEnd (willRetry : Bool)
  | agentSettled
  | compactionStart
  | compactionEnd (reason : String)
  | harnessAuthFailed
  | response (id : Option (Option String)) (success : Bool) (command : String) (data : Option SessionState)
  | other (type : String)
  deriving DecidableEq

def DriverEvent.type : DriverEvent → String
  | .extensionUiRequest _ => "extension_ui_request"
  | .agentStart => "agent_start"
  | .agentEnd _ => "agent_end"
  | .agentSettled => "agent_settled"
  | .compactionStart => "compaction_start"
  | .compactionEnd _ => "compaction_end"
  | .harnessAuthFailed => "harness_auth_failed"
  | .response .. => "response"
  | .other type => type

/-- The callbacks, the promises that they detach, and the requests that start the children. -/
inductive Task where
  | world (world : World)
  | request (r : Nat) (runner : Runner)
  | startRequested (r : Nat)
  | stopRequested (r : Nat)
  | startTimer (r timer : Nat)
  | startRunner (r : Nat)
  | stopRunner (r : Nat)
  | procError (r proc : Nat)
  | procFailed (r : Nat)
  | procExit (r proc : Nat)
  | stoppedExit (r : Nat)
  | driverEvent (r proc : Nat) (event : DriverEvent) (bytes : Nat)
  | trackRunner (r : Nat) (event : DriverEvent)
  | runnerWrite (r : Nat)
  | attention (r : Nat)
  | sendToRunner (r : Nat)
  | maybeTitleSession (r : Nat)
  | title (r : Nat)
  | webPush
  | watchdogTick
  | reaperTick
  | uiTimeout (r : Nat)
  | runScript (c : Nat) (mode : Mode)
  | scriptLine (c : Nat) (line : Line)
  | line (c n : Nat)
  | scriptError (c : Nat) (message : String)
  | scriptClose (c : Nat) (exit : Exit)
  | finalizeClose (c : Nat)
  | openTunnel (t id port : Nat)
  | urlTimeout (t : Nat)
  | output (t : Nat) (url : Option String)
  | publicReady (t : Nat)
  | tunnelError (t : Nat)
  | tunnelExit (t : Nat)
  deriving DecidableEq

abbrev M := Async State Op Answer Task

def readRunner (r : Nat) : M Runner := do
  let s ← Async.read
  return s.runners r

def readWorld : M World := do
  let s ← Async.read
  return s.world

def setRunner (r : Nat) (f : Runner → Runner) : M Unit := Async.update fun s => s.setRunner r f

def call (op : Op) : M (Answer op) := Async.call op

/-- What is awaited there never rejects. -/
def join (op : Op) (answer : Answer op) : M (Answer op) := (call op).tryCatch (pure answer)

/-- `catch` with a handler that only logs. -/
def logged (p : M Unit) : M Unit := p.tryCatch (pure ())

def runnerWrite (type : String) (bytes : Nat) : M Unit :=
  if type ∉ NON_REPLAYABLE_RUNNER_EVENTS ∧ bytes ≤ RUNNER_EVENT_MAX_BYTES then logged (call Op.appendRunnerEvent) else pure ()

def runnerEvent (r : Nat) (type : String) : M Unit := do
  let world ← readWorld
  Async.start (.runnerWrite r) (runnerWrite type world.eventBytes)

def setRunnerAttention (r : Nat) (status : Option String) (unread : Bool) : M Unit := do
  let runner ← readRunner r
  if runner.attentionStatus = status ∧ runner.attentionUnread = unread then return
  setRunner r fun runner => { runner with attentionStatus := status, attentionUnread := unread }
  Async.start (.attention r) (logged (call Op.updateRunner))

/-- A command of the server itself, which does not start the runner. It is written to the child, and awaits nothing. -/
def sendToRunner (r : Nat) : M Unit := do
  let runner ← readRunner r
  if runner.proc.isNone then return

def requestState (r : Nat) : M Unit := Async.start (.sendToRunner r) (sendToRunner r)

def finishResume (r : Nat) : M Unit := setRunner r fun runner => { runner with resumeId := none }

def deliver (_ : Nat) : M Unit :=
  logged do
    match ← call Op.sendNotification with
    | Delivery.delivered => logged (call Op.markDelivered)
    | Delivery.gone => call Op.deleteSubscription
    | Delivery.failed => pure ()

def webPush : M Unit := do
  let subscriptions : List Nat ← call Op.listSubscriptions
  Async.forEach deliver subscriptions

/-- `handleRunnerEvent` of the push service, which the runner manager notifies. -/
def notifyRunnerEvent (r : Nat) : DriverEvent → M Unit
  | .agentStart => do
      let world ← readWorld
      setRunner r fun runner => { runner with webPushAgentStartedAt := some world.now }
  | .agentSettled => do
      let world ← readWorld
      let runner ← readRunner r
      setRunner r fun runner => { runner with webPushAgentStartedAt := none }
      if runner.webPushAgentStartedAt.any fun startedAt => startedAt + DEFAULT_LONG_RUN_MS ≤ world.now then
        Async.start .webPush webPush
  | .extensionUiRequest method => if method ∈ CLARIFICATION_METHODS then Async.start .webPush webPush else pure ()
  | _ => pure ()

def nonempty (text : Option String) : Bool := text.any fun text => text ≠ ""

/-- `titleEligible`: no name, or one that the rewind of a session gives. -/
def titleEligible (name : Option String) : Bool :=
  match name with
  | none => true
  | some name =>
    match name.toList with
    | [] => true
    | '\u23EA' :: ' ' :: digits =>
      decide (4 ≤ digits.length) && decide (digits.length ≤ 12) &&
        digits.all fun c => c.isDigit || ('a' ≤ c && c ≤ 'f')
    | _ => false

def titleRequest (world : World) (runner : Runner) (d : SessionState) : Option String :=
  match runner.sessionRef, runner.sessionId with
  | some reference, some sessionId =>
    if sessionId = "" ∨ world.catalog.any (· ≠ reference.backend) ∨ !titleEligible runner.sessionName then none
    else if d.messageCount < 1 ∨ runner.titleSessionId = some sessionId ∨ runner.titleLoadingSessionId = some sessionId then none
    else world.catalog.map fun _ => sessionId
  | _, _ => none

def titleSession (r : Nat) (sessionId : String) (originalName : Option String) : M Unit :=
  logged do
    let title : Option String ← call Op.summarizeTitle
    let runner ← readRunner r
    match title with
    | some title =>
      if title = "" ∨ runner.sessionId ≠ some sessionId ∨ runner.sessionName ≠ originalName then return
      requestState r
      setRunner r fun runner => { runner with sessionName := some (if nonempty originalName then "\u23EA " ++ title else title) }
      call Op.updateRunner
    | none => return

def maybeTitleSession (r : Nat) (d : SessionState) : M Unit := do
  let world ← readWorld
  let runner ← readRunner r
  match titleRequest world runner d with
  | none => return
  | some sessionId =>
    setRunner r fun runner => { runner with titleLoadingSessionId := some sessionId }
    let messages : Option Nat ← (some <$> call Op.messages).tryCatch (pure none)
    setRunner r fun runner =>
      if runner.titleLoadingSessionId = some sessionId then { runner with titleLoadingSessionId := none } else runner
    let runner ← readRunner r
    if messages.getD 0 = 0 ∨ runner.sessionId ≠ some sessionId then return
    setRunner r fun runner => { runner with titleSessionId := some sessionId }
    Async.start (.title r) (titleSession r sessionId runner.sessionName)

def persistRunnerState (nextReference : Option Reference) : M Unit := do
  if nextReference.isSome then call Op.ensureSessionOwner
  call Op.updateRunner

section
variable (codec : Codec) (sessionReference : SessionState → Option Reference → Option Reference)

def nextReference (runner : Runner) (d : SessionState) : Except String (Option Reference) :=
  match sessionReference d runner.sessionRef with
  | some reference => some <$> codec.validate reference
  | none => .ok none

def Runner.changed (runner : Runner) (d : SessionState) (reference : Option Reference) : Bool :=
  (reference.isSome && runner.sessionRef ≠ reference) || d.sessionId ≠ some runner.sessionId || d.sessionName ≠ some runner.sessionName ||
    runner.sessionInitialized ≠ some (decide (d.sessionInitialized ≠ some false))

def Runner.sessionChanged (runner : Runner) (d : SessionState) : Bool :=
  nonempty runner.sessionId && nonempty d.sessionId.join && some runner.sessionId ≠ d.sessionId

def handleGetStateResponse (r : Nat) (d : SessionState) : M Unit := do
  let runner ← readRunner r
  match nextReference codec sessionReference runner d with
  | .error _ => Async.throw
  | .ok reference =>
    let provisional := runner.sessionChanged d ∧ runner.sessionInitialized = some false ∧ runner.sessionRef.isSome
    setRunner r fun runner =>
      { runner with
        titleSessionId := if runner.sessionChanged d then none else runner.titleSessionId
        sessionRef := reference
        sessionId := d.sessionId.join <|> runner.sessionId
        sessionName := d.sessionName.join
        sessionInitialized := some (decide (d.sessionInitialized ≠ some false)) }
    if runner.changed d reference then
      if provisional ∧ reference.isSome then call Op.reidentify
      persistRunnerState reference
    setRunner r fun runner => { runner with busy := d.isStreaming || d.isCompacting }
    Async.start (.maybeTitleSession r) (maybeTitleSession r d)

def handleResponseEvent (r : Nat) (id : Option (Option String)) (success : Bool) (command : String) (data : Option SessionState) :
    M Unit := do
  let runner ← readRunner r
  if id = some runner.resumeId then
    finishResume r
    if success then requestState r
  else if success then
    match data with
    | some d =>
      if command = "get_state" then handleGetStateResponse codec sessionReference r d
      else if command ∈ ["switch_session", "new_session", "set_session_name"] then requestState r
    | none => if command ∈ ["switch_session", "new_session", "set_session_name"] then requestState r

def setBusy (r : Nat) (busy : Bool) : M Unit := setRunner r fun runner => { runner with busy }

def applyRunnerLifecycleEvent (r : Nat) : DriverEvent → M Unit
  | .extensionUiRequest method =>
    if method ∈ CLARIFICATION_METHODS then setRunnerAttention r (some "clarification") true else pure ()
  | .agentStart => do
      setRunnerAttention r none false
      setBusy r true
  | .agentEnd willRetry => do
      setBusy r willRetry
      requestState r
  | .agentSettled => do
      setBusy r false
      let runner ← readRunner r
      if runner.attentionStatus ≠ some "clarification" then setRunnerAttention r (some "completed") true
      requestState r
  | .compactionStart => setBusy r true
  | .compactionEnd reason => do
      if reason = "manual" then
        setBusy r false
        requestState r
  | .harnessAuthFailed => logged (call Op.onHarnessAuthFailure)
  | .response id success command data => handleResponseEvent codec sessionReference r id success command data
  | .other _ => pure ()

def trackRunner (r : Nat) (event : DriverEvent) : M Unit := do
  notifyRunnerEvent r event
  applyRunnerLifecycleEvent codec sessionReference r event

/-- `emitDriverEvent` of a child: an event of a line, or one that the driver emits itself. -/
def emitDriverEvent (r proc : Nat) (event : DriverEvent) (bytes : Nat) : M Unit := do
  let world ← readWorld
  let runner ← readRunner r
  if runner.proc = some proc then
    setRunner r fun runner => { runner with lastLineAt := world.now }
    Async.start (.trackRunner r event) (trackRunner codec sessionReference r event)
    Async.start (.runnerWrite r) (runnerWrite event.type bytes)

end

def deferRunnerStart (r : Nat) : M Unit :=
  Async.update fun s =>
    if (s.runners r).startTimer.isSome then s
    else { s.setRunner r fun runner => { runner with startTimer := some s.nextTimer } with nextTimer := s.nextTimer + 1 }

def launch (r : Nat) : M Nat := do
  let s ← Async.read
  Async.update fun s =>
    { s.setRunner r fun runner => { runner with proc := some s.nextProc } with nextProc := s.nextProc + 1 }
  return s.nextProc

def startRunner (r : Nat) : M Unit := do
  let world ← readWorld
  let runner ← readRunner r
  if runner.proc.isSome then return
  if world.now - runner.lastSpawnAt < RUNNER_RESPAWN_DEBOUNCE_MS ∧ 0 < runner.startCount then
    deferRunnerStart r
  else
    setRunner r fun runner => { runner with lastSpawnAt := world.now, startCount := runner.startCount + 1 }
    call Op.updateRunner
    let world ← readWorld
    if !world.launches then
      call Op.updateRunner
      runnerEvent r "pi_error"
    else
      let proc ← launch r
      call Op.updateRunner
      let s ← Async.read
      if proc ∈ s.launchFailed ∨ (s.runners r).proc ≠ some proc then return
      setRunner r fun runner =>
        { runner with
          watchdogOk := true
          lastLineAt := s.world.now
          probeSentAt := none
          probeMisses := 0
          resumeId := s.world.resumeResponseId }
      runnerEvent r "pi_started"

def stopRunner (r : Nat) : M Unit := do
  let runner ← readRunner r
  call Op.updateRunner
  setRunner r fun runner => { runner with startTimer := none }
  if runner.proc.isNone then
    call Op.flushTranscript
  else
    setRunner r fun runner => { runner with proc := none, busy := false, resumeId := none }
    call Op.flushTranscript

def onStartTimer (r timer : Nat) : M Unit := do
  let s ← Async.read
  if (s.runners r).startTimer = some timer then
    setRunner r fun runner => { runner with startTimer := none }
    if (s.runners r).proc.isNone ∧ r ∈ s.world.runners then Async.start (.startRunner r) (startRunner r)

def onProcError (r proc : Nat) : M Unit := do
  Async.update fun s => { s with launchFailed := proc :: s.launchFailed }
  runnerEvent r "pi_error"
  setRunner r fun runner => if runner.proc = some proc then { runner with proc := none } else runner
  Async.start (.procFailed r) (logged (call Op.updateRunner))

def onProcExit (r proc : Nat) : M Unit := do
  let runner ← readRunner r
  if runner.proc = some proc then
    setRunner r fun runner => { runner with proc := none, busy := false }
    call Op.updateRunner
    runnerEvent r "pi_exit"

/-- The exit of a child that `stopRunner` has given up. -/
def onStoppedExit (r : Nat) : M Unit := do
  let runner ← readRunner r
  if runner.proc.isNone then runnerEvent r "pi_exit"

def watch (r : Nat) : M Unit := do
  let world ← readWorld
  let runner ← readRunner r
  if runner.proc.isNone ∨ !runner.watchdogOk ∨ runner.resumeId.isSome then return
  if r ∉ world.subscribed then
    setRunner r fun runner => { runner with probeSentAt := none, probeMisses := 0 }
  else
    let missed := runner.probeSentAt.any fun sent => runner.lastLineAt < sent
    if missed ∧ WATCHDOG_MAX_MISSES ≤ runner.probeMisses + 1 then
      setRunner r fun runner => { runner with probeSentAt := none, probeMisses := 0 }
      runnerEvent r "runner_unhealthy"
      Async.start (.stopRunner r) (stopRunner r)
      Async.start (.startRunner r) (startRunner r)
    else
      setRunner r fun runner =>
        { runner with probeMisses := if missed then runner.probeMisses + 1 else 0, probeSentAt := some world.now }
      Async.start (.sendToRunner r) (sendToRunner r)

def watchdogTick : M Unit := do
  let world ← readWorld
  Async.forEach watch world.runners

def reap (now : Nat) (r : Nat) : M Unit := do
  let runner ← readRunner r
  if runner.proc.isNone ∨ nonempty runner.sessionName ∨ runner.busy ∨ now - runner.lastSpawnAt ≤ MAX_ORPHAN_AGE_MS then return
  Async.start (.stopRunner r) (stopRunner r)

def reaperTick : M Unit := do
  let world ← readWorld
  Async.forEach (reap world.now) world.runners

def onUiTimeout (r : Nat) : M Unit := do
  let runner ← readRunner r
  if runner.brokeredUiRequests = 0 then return
  setRunner r fun runner => { runner with brokeredUiRequests := runner.brokeredUiRequests - 1 }
  if runner.brokeredUiRequests = 1 ∧ runner.attentionStatus = some "clarification" then setRunnerAttention r none false

def readScript (c : Nat) : M Script := do
  let s ← Async.read
  return s.scripts c

def setScript (c : Nat) (f : Script → Script) : M Unit := Async.update fun s => s.setScript c f

/-- `emit`, which reads the view of a routine. -/
def emit : M Unit := do
  let run : Option Row ← call Op.findLatestRun
  if run.isSome then call Op.listLogs

def onLine : Line → M Unit
  | .progress percent message => do
      let current : Option Row ← call Op.findRun
      let (progress, message) := progressOf current percent message
      call (Op.updateProgress progress message)
      emit
  | .output text => do
      call (Op.appendLog text)
      emit

/-- A line task. Its promise is that of `finally`, and rejects as the task does, which `finalizeClose` sees as well. -/
def lineTask (c n : Nat) (line : Line) : M Unit := do
  (do
    join .lineQueue ()
    onLine line : M Unit).tryCatch (.modify (fun s => s.setScript c fun script =>
        { script with tasks := script.tasks.erase n, rejected := n :: script.rejected }) .throw)
  setScript c fun script => { script with tasks := script.tasks.erase n }

def dispatchLine (c : Nat) (line : Line) : M Unit := do
  let script ← readScript c
  setScript c fun script => { script with nextLine := script.nextLine + 1, tasks := script.tasks ++ [script.nextLine] }
  Async.start (.line c script.nextLine) (lineTask c script.nextLine line)

def finishRoutineProcess (script : Script) (exit : Exit) : M Unit := do
  match script.spawnError with
  | some error =>
    call (Op.finishRun { status := .failed, error := some error })
    emit
  | none =>
    let current : Option Row ← call Op.findRun
    match RoutineManager.finishRoutineProcess script.mode current exit with
    | .completing message outcome =>
      call (Op.updateProgress (some PROGRESS_COMPLETE_PERCENT) message)
      call (Op.finishRun outcome)
      emit
    | .writing outcome =>
      call (Op.finishRun outcome)
      emit
    | _ => pure ()

def finalizeClose (c : Nat) (exit : Exit) : M Unit :=
  (do
    let before ← readScript c
    join .lineTasks ()
    let script ← readScript c
    if before.tasks.any (· ∈ script.rejected) then Async.throw
    else if script.registered then
      setScript c fun script => { script with registered := false }
      finishRoutineProcess script exit : M Unit).finally' fun s => s.setScript c fun script => { script with completed := true }

def onScriptClose (c : Nat) (exit : Exit) : M Unit := do
  let script ← readScript c
  if script.ready then Async.start (.finalizeClose c) (finalizeClose c exit)
  else setScript c fun script => { script with pendingClose := some exit }

def onScriptLine (c : Nat) (line : Line) : M Unit := do
  let script ← readScript c
  if script.ready then dispatchLine c line
  else setScript c fun script => { script with pendingLines := script.pendingLines ++ [line] }

/-- `runScript` once the child is spawned. -/
def runScript (c : Nat) (mode : Mode) : M Unit := do
  setScript c fun _ => { mode }
  call Op.createRun
  if mode = .run then call (Op.updateProgress (some 0) none)
  let script ← readScript c
  setScript c fun script => { script with ready := true, pendingLines := [] }
  Async.forEach (dispatchLine c) script.pendingLines
  match script.pendingClose with
  | some exit => Async.start (.finalizeClose c) (finalizeClose c exit)
  | none => pure ()
  emit

def readTunnel (t : Nat) : M (Option Tunnel) := do
  let s ← Async.read
  return s.tunnels t

def settle (t : Nat) : M Unit := Async.update fun s => s.setTunnel t fun tunnel => { tunnel with settled := true }

def recordHublotTransition (status : HublotStatus) : M Unit := do
  let _row : Hublot ← call (Op.recordTransition status)

def failOpeningHublot : M Unit := do
  let row : Option Hublot ← call Op.findHublot
  if row.any fun row => row.status = .opening || row.status = .recovering then recordHublotTransition .failed

def finishPersistedProcess : M Unit := do
  let found : Bool ← call Op.findProcess
  if found then call Op.updateProcess

def confirmSpawnedTunnelProcess (tunnel : Tunnel) : M Bool := do
  let world ← readWorld
  if tunnel.process ∈ world.exited ∨ tunnel.process ∉ world.identified then return false
  call Op.updateProcess
  let world ← readWorld
  return tunnel.process ∈ world.identified

def persistedTunnelInfo (row : Hublot) : M Unit := do
  if row.status = .open' then
    let _processes : List Process ← call Op.listProcesses

/-- A row of the process, found or written, which `openTunnel` may not do without. -/
def persistHublotProcessIdentity (world : World) : M Process := do
  if world.pid < 2 then Async.throw
  else
    let processes : List Process ← call Op.listProcesses
    match processes.find? fun process => process.tunnel && process.pid = world.pid && !process.ended with
    | some process => return process
    | none =>
      let process : Process ← call Op.upsertProcess
      return process

def openTunnel (t id port : Nat) : M Unit := do
  let reservation : Option Hublot ← call Op.findHublot
  if reservation.any fun row => (row.status = .opening || row.status = .recovering) && row.port = port then
    let world ← readWorld
    if !world.spawns then
      failOpeningHublot
    else
      let process ← (some <$> persistHublotProcessIdentity world).tryCatch (pure none)
      match process with
      | some process => Async.update fun s =>
        { s with tunnels := fun i => if i = t then some { id, process := process.id } else s.tunnels i }
      | none => failOpeningHublot

/-- The promise of `confirmPublicReadiness` with what follows it: the tunnel is told open, or its failure is. -/
def confirmPublicReadiness (t : Nat) : M Unit :=
  (do
    call Op.waitForPublic
    let tunnel ← readTunnel t
    if tunnel.all Tunnel.settled then return
    settle t
    let row : Hublot ← call (Op.recordTransition .open')
    persistedTunnelInfo row : M Unit).tryCatch do
      let tunnel ← readTunnel t
      if tunnel.all Tunnel.settled then return
      settle t
      failOpeningHublot

/-- The timer of the URL, and the errors of a child, once for a tunnel that has not settled. -/
def failTunnel (t : Nat) : M Unit := do
  let tunnel ← readTunnel t
  if tunnel.all Tunnel.settled then return
  settle t
  failOpeningHublot

def onUrlTimeout (t : Nat) : M Unit := failTunnel t

def onOutput (t : Nat) (url : Option String) : M Unit := do
  let tunnel ← readTunnel t
  match tunnel, url with
  | some tunnel, some _ =>
    if tunnel.settled ∨ tunnel.checkingPublicUrl then return
    Async.update fun s => s.setTunnel t fun tunnel => { tunnel with checkingPublicUrl := true }
    if ← confirmSpawnedTunnelProcess tunnel then
      Async.start (.publicReady t) (confirmPublicReadiness t)
    else
      settle t
      failOpeningHublot
  | _, _ => return

def onTunnelError (t : Nat) : M Unit := do
  let tunnel ← readTunnel t
  if tunnel.isSome then
    finishPersistedProcess
    failTunnel t

def onTunnelExit (t : Nat) : M Unit := do
  let tunnel ← readTunnel t
  match tunnel with
  | none => return
  | some tunnel =>
    finishPersistedProcess
    let now ← readTunnel t
    if now.any fun tunnel => !tunnel.settled then
      settle t
      failOpeningHublot
    else
      let current : Option Hublot ← call Op.findHublot
      let processes : List Process ← call Op.listProcesses
      let world ← readWorld
      let latestTunnel := (processes.filter Process.tunnel).getLast?
      match current with
      | none => return
      | some current =>
        if tunnel.id ∉ world.reopening ∧ latestTunnel.map Process.id = some tunnel.process ∧ current.status ≠ .failed ∧
            current.status ≠ .closed then
          recordHublotTransition (if current.desiredClosed then .closed else .interrupted)
          let latest : Option Hublot ← call Op.findHublot
          match latest with
          | some latest => persistedTunnelInfo latest
          | none => return

/-- What the event loop calls. The promises that these detach are none of its calls. -/
def body (codec : Codec) (sessionReference : SessionState → Option Reference → Option Reference) : Task → M Unit
  | .world world => Async.update fun s => { s with world }
  | .request r runner => setRunner r fun _ => runner
  | .startRequested r => startRunner r
  | .stopRequested r => stopRunner r
  | .startTimer r timer => onStartTimer r timer
  | .procError r proc => onProcError r proc
  | .procExit r proc => onProcExit r proc
  | .stoppedExit r => onStoppedExit r
  | .driverEvent r proc event bytes => emitDriverEvent codec sessionReference r proc event bytes
  | .watchdogTick => watchdogTick
  | .reaperTick => reaperTick
  | .uiTimeout r => onUiTimeout r
  | .runScript c mode => runScript c mode
  | .scriptLine c line => onScriptLine c line
  | .scriptError c message => setScript c fun script => { script with spawnError := some message }
  | .scriptClose c exit => onScriptClose c exit
  | .openTunnel t id port => openTunnel t id port
  | .urlTimeout t => onUrlTimeout t
  | .output t url => onOutput t url
  | .tunnelError t => onTunnelError t
  | .tunnelExit t => onTunnelExit t
  | _ => pure ()

def awaited : Task → Bool
  | .startRequested _ | .stopRequested _ | .runScript .. | .openTunnel .. => true
  | _ => false

/-- A run of the managers in one event loop. -/
def step (codec : Codec) (sessionReference : SessionState → Option Reference → Option Reference) :=
  Promises.step awaited (body codec sessionReference)

end ManagerCallbacks
