import Oyster.Interleaving

/-! The routine manager, for one routine: the runs of its script with their children and rows, the entry
of the runtime registry, and the calls that start, stop and delete. A handler runs up to its next
await in one step; a step of its own tells how each awaited operation of the store ends. Lines are
taken as parsed, and the views and events that are sent to the clients are left out. -/
namespace RoutineManager
open Interleaving

inductive Mode where
  | run
  | teardown
  deriving DecidableEq

inductive Status where
  | running
  | teardown
  | stopping
  | stopped
  | idle
  | done
  | failed
  deriving DecidableEq

/-- A row of `routine_runs`; `finished` tells that it has its time of finishing. -/
structure Row where
  status : Status
  progress : Option Nat := none
  message : Option String := none
  result : Option String := none
  error : Option String := none
  exitCode : Option Int := none
  finished : Bool := false
  deriving DecidableEq

/-- What a finishing write sets. -/
structure Outcome where
  status : Status
  result : Option String := none
  error : Option String := none
  exitCode : Option Int := none
  deriving DecidableEq

def Row.finish (row : Row) (outcome : Outcome) : Row :=
  { row with
    status := outcome.status
    result := outcome.result
    error := outcome.error
    exitCode := outcome.exitCode
    finished := true }

inductive Line where
  | progress (percent : Option Nat) (message : Option String)
  | output (text : String)
  deriving DecidableEq

/-- Where the handler of a line stands: the operation that it awaits, or will first. -/
inductive Task where
  | reading (percent : Option Nat) (message : Option String)
  | writing (progress : Option Nat) (message : Option String)
  | appending (text : String)
  | emitting

def onLine : Line → Task
  | .progress percent message => .reading percent message
  | .output text => .appending text

structure Exit where
  code : Option Int
  signal : Option String
  deriving DecidableEq

/-- Where `runScript` stands; it is `ready` once it has attached the error listener. -/
inductive Setup where
  | creating
  | progressing
  | ready
  | rejected
  deriving DecidableEq

/-- Where `finalizeClose` stands; `tasks` counts the tasks that it still awaits. -/
inductive Closing where
  | idle
  | awaiting (tasks : Nat) (exit : Exit)
  | reading (exit : Exit)
  | completing (message : Option String) (outcome : Outcome)
  | writing (outcome : Outcome)
  | emitting
  | settled
  deriving DecidableEq

/-- One call of `runScript`, from the spawn. `tasks` are the line tasks that have not settled, the first of
which runs. History: the first error event, whether one has found no listener, and whether the
finishing write has failed. -/
structure Run where
  mode : Mode
  setup : Setup := .creating
  errorListener : Bool := false
  spawnError : Option String := none
  pendingClose : Option Exit := none
  closed : Bool := false
  readersClosed : Bool := false
  pendingLines : List Line := []
  tasks : List Task := []
  closing : Closing := .idle
  row : Option Row := none
  log : List String := []
  errored : Option String := none
  unheard : Bool := false
  writeFailed : Bool := false

def LOG_MAX : Nat := 80
def PROGRESS_COMPLETE_PERCENT : Nat := 100

def progressOf (current : Option Row) (percent : Option Nat) (message : Option String) : Option Nat × Option String :=
  let before := current.bind Row.progress
  let requested := (percent.map fun p => min PROGRESS_COMPLETE_PERCENT p) <|> before
  let progress :=
    match requested, before with
    | some requested, some before => some (max before requested)
    | requested, _ => requested
  (progress, message <|> current.bind Row.message)

def Closing.settleTask (ok : Bool) : Closing → Closing
  | .awaiting (n + 1) exit => if ok then .awaiting n exit else .settled
  | closing => closing

theorem settleTask_cases (closing : Closing) (ok : Bool) : closing.settleTask ok = closing ∨
      ∃ n exit, closing = .awaiting (n + 1) exit ∧ closing.settleTask ok = if ok then .awaiting n exit else .settled := by
  unfold Closing.settleTask
  split
  · next n exit => exact .inr ⟨n, exit, rfl, rfl⟩
  · exact .inl rfl

def Run.settleTask (run : Run) (ok : Bool) : Run :=
  { run with tasks := run.tasks.tail, closing := run.closing.settleTask ok }

/-- The operation that the first task awaits has ended. -/
def Run.lineEnds (run : Run) (ok : Bool) : Option Run :=
  match run.tasks with
  | [] => none
  | task :: rest =>
    if ok then
      match task with
      | .reading percent message =>
        let (progress, message) := progressOf run.row percent message
        some { run with tasks := .writing progress message :: rest }
      | .writing progress message => some { run with
          row := run.row.map fun row => { row with progress, message }
          tasks := .emitting :: rest }
      | .appending text => some { run with
          log := (run.log ++ [text]).drop (run.log.length + 1 - LOG_MAX)
          tasks := .emitting :: rest }
      | .emitting => some (run.settleTask true)
    else some (run.settleTask false)

/-- `finalizeClose` is called. -/
def Run.finalize (run : Run) (exit : Exit) : Run := { run with closing := .awaiting run.tasks.length exit }

/-- The rest of `runScript`, once it has awaited the store. -/
def Run.prepare (run : Run) : Run :=
  let run := { run with
    setup := .ready
    tasks := run.pendingLines.map onLine
    pendingLines := []
    errorListener := true }
  match run.pendingClose with
  | some exit => run.finalize exit
  | none => run

def exitReason (exit : Exit) : String :=
  match exit.signal with
  | some signal => s!"signal {signal}"
  | none =>
    let code := (exit.code.map toString).getD "null"
    s!"exit {code}"

/-- What `finishRoutineProcess` does for a child that has exited, once it has read the row. -/
def finishRoutineProcess (mode : Mode) (current : Option Row) (exit : Exit) : Closing :=
  let message := current.bind Row.message
  let reason := exitReason exit
  if current.map Row.status = some .stopping then .writing { status := .stopped, exitCode := exit.code }
  else if mode = .teardown then
    if exit.code = some 0 then .writing { status := .idle, result := some "byproducts removed", exitCode := exit.code }
    else .writing { status := .failed, error := some (message.getD s!"teardown failed ({reason})"), exitCode := exit.code }
  else if exit.code = some 0 then
    let outcome : Outcome := { status := .done, exitCode := exit.code }
    if current.map Row.progress = some none then .writing outcome else .completing message outcome
  else .writing { status := .failed, error := some (message.getD s!"run failed ({reason})"), exitCode := exit.code }

/-- The tasks that `finalizeClose` awaits have settled, and the runtime is cleared if it is `registered`. -/
def Run.drained (run : Run) (registered : Bool) : Option Run :=
  match run.closing with
  | .awaiting 0 exit => some { run with
      readersClosed := true
      closing :=
        if registered then
          match run.spawnError with
          | some error => .writing { status := .failed, error := some error }
          | none => .reading exit
        else .settled }
  | _ => none

/-- The operation that `finishRoutineProcess` awaits has ended. -/
def Run.finishEnds (run : Run) (ok : Bool) : Option Run :=
  match run.closing with
  | .reading exit => some { run with closing := if ok then finishRoutineProcess run.mode run.row exit else .settled }
  | .completing message outcome =>
    if ok then some { run with
      row := run.row.map fun row => { row with progress := some PROGRESS_COMPLETE_PERCENT, message }
      closing := .writing outcome }
    else some { run with closing := .settled }
  | .writing outcome =>
    if ok then some { run with row := run.row.map fun row => row.finish outcome, closing := .emitting }
    else some { run with closing := .settled, writeFailed := true }
  | .emitting => some { run with closing := .settled }
  | _ => none

inductive RunEvent where
  | created (ok : Bool)
  | progressed (ok : Bool)
  | line (line : Line)
  | error (message : String)
  | close (exit : Exit)
  | lineEnds (ok : Bool)
  | finishEnds (ok : Bool)

def firstStatus : Mode → Status
  | .run => .running
  | .teardown => .teardown

def Run.step (deleted : Bool) (run : Run) : RunEvent → Option Run
  | .created ok =>
    if run.setup = .creating ∧ (ok && deleted) = false then
      if ok then
        let run := { run with row := some { status := firstStatus run.mode } }
        some (if run.mode = .run then { run with setup := .progressing } else run.prepare)
      else some { run with setup := .rejected }
    else none
  | .progressed ok =>
    if run.setup = .progressing then
      if ok then some (Run.prepare { run with row := run.row.map fun row => { row with progress := some 0, message := none } })
      else some { run with setup := .rejected }
    else none
  | .line line =>
    if run.readersClosed then none
    else if run.setup = .ready then some { run with tasks := run.tasks ++ [onLine line] }
    else some { run with pendingLines := run.pendingLines ++ [line] }
  | .error message =>
    let run := { run with errored := run.errored <|> some message }
    if run.errorListener then some { run with spawnError := some message, errorListener := false }
    else some { run with unheard := true }
  | .close exit =>
    if run.closed then none
    else
      let run := { run with closed := true }
      if run.setup = .ready then some (run.finalize exit) else some { run with pendingClose := some exit }
  | .lineEnds ok => run.lineEnds ok
  | .finishEnds ok => run.finishEnds ok

/-- Where a call stands: the operations that it awaits. `rebinds` tells that a start binds the routine or
sets its working directory first. -/
inductive Call where
  | starting (mode : Mode) (rebinds : Bool)
  | rebinding (mode : Mode)
  | stopping
  | choosing
  | marking (run : Nat)
  | deleting
  | erasing

/-- `registry` is the routine's entry in the runtime registry. -/
structure State where
  runs : Calls Run := fun _ => none
  nextRun : Nat := 0
  registry : Option Nat := none
  calls : Calls Call := fun _ => none
  nextCall : Nat := 0
  deleted : Bool := false

def latestRun (runs : Calls Run) : Nat → Option Nat
  | 0 => none
  | n + 1 => if ((runs n).bind Run.row).isSome then some n else latestRun runs n

/-- The start of `runScript`: the child is spawned and registered. -/
def State.spawn (s : State) (mode : Mode) : State :=
  { s with
    runs := s.runs.put s.nextRun { mode }
    nextRun := s.nextRun + 1
    registry := some s.nextRun }

def State.mark (s : State) (i : Nat) : State :=
  { s with runs := s.runs.modify i fun run => { run with row := run.row.map fun row => { row with status := .stopping } } }

def State.erase (s : State) : State :=
  { s with deleted := true, runs := s.runs.mapAll fun run => { run with row := none } }

def State.answer (s : State) (k : Nat) : Call → State
  | .starting mode rebinds =>
    let t := { s with calls := s.calls.drop k }
    if s.deleted ∨ s.registry.isSome then t
    else if rebinds then { s with calls := s.calls.put k (.rebinding mode) }
    else t.spawn mode
  | .rebinding mode =>
    let t := { s with calls := s.calls.drop k }
    if s.deleted then t else t.spawn mode
  | .stopping =>
    if s.deleted ∨ s.registry.isNone then { s with calls := s.calls.drop k } else { s with calls := s.calls.put k .choosing }
  | .choosing =>
    match latestRun s.runs s.nextRun with
    | some i => { s with calls := s.calls.put k (.marking i) }
    | none => { s with calls := s.calls.drop k }
  | .marking i => { s with calls := s.calls.drop k }.mark i
  | .deleting =>
    if s.deleted ∨ s.registry.isSome then { s with calls := s.calls.drop k } else { s with calls := s.calls.put k .erasing }
  | .erasing => { s with calls := s.calls.drop k }.erase

inductive Request where
  | startRoutine (rebinds : Bool)
  | teardownRoutine
  | stopRoutine
  | deleteRoutine

def Request.call : Request → Call
  | .startRoutine rebinds => .starting .run rebinds
  | .teardownRoutine => .starting .teardown false
  | .stopRoutine => .stopping
  | .deleteRoutine => .deleting

inductive Event where
  | call (request : Request)
  | answered (k : Nat) (ok : Bool)
  | run (i : Nat) (event : RunEvent)
  | drained (i : Nat)

def step (s : State) : Event → Option State
  | .call request => some { s with calls := s.calls.put s.nextCall request.call, nextCall := s.nextCall + 1 }
  | .answered k ok => (s.calls k).map fun call => if ok then s.answer k call else { s with calls := s.calls.drop k }
  | .run i event =>
    match s.runs i with
    | some run => (run.step s.deleted event).map fun run => { s with runs := s.runs.put i run }
    | none => none
  | .drained i =>
    match s.runs i with
    | some run => (run.drained (decide (s.registry = some i))).map fun run => { s with
        runs := s.runs.put i run
        registry := if s.registry = some i then none else s.registry }
    | none => none

end RoutineManager
