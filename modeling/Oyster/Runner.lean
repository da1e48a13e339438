import Oyster.Interleaving

/-! One runner of the session manager: its child processes, the commands held
back while a session is resumed, and the calls of `startRunner`, `stopRunner` and
`sendToRunner` in flight, cut at their awaits. The fields that `Child` and `State`
carry as history are read by no function of the code. -/
namespace Runner
open Interleaving

def runnerRespawnDebounceMs : Nat := 2000

/-- Whether the startup commands of the driver wait for a resume response. -/
structure Driver where
  resumes : Bool

/-- Commands are named by the order in which they were accepted. `startup` is the
id of the startup request once the startup commands have been sent; `ready`,
`held` and `written` are history: the resume is finished, the commands accepted
for this child before that, and the commands written to it. -/
structure Child where
  alive : Bool := true
  toldToStop : Bool := false
  launchFailed : Bool := false
  startup : Option Nat := none
  ready : Bool := false
  held : List Nat := []
  written : List Nat := []

/-- A call in flight. `sends` tells that `sendToRunner` awaits the start;
`startedSince` is history: `startRunner` has been called since the stop began. -/
inductive Call where
  | starting (sends : Bool)
  | launchFailing (sends : Bool)
  | launched (child : Nat) (sends : Bool)
  | delivering
  | stopping (proc : Option Nat) (startedSince : Bool)
  | flushing (startedSince : Bool)

/-- `stopped` and `lateSpawn` are history: a stop has completed and `startRunner`
has not been called since it began; a child has been spawned in such a state. -/
structure State where
  proc : Option Nat := none
  lastSpawnAt : Nat := 0
  startCount : Nat := 0
  resumeId : Option Nat := none
  resumeQueue : List Nat := []
  resumeTimer : Bool := false
  startTimer : Bool := false
  registered : Bool := true
  srvSeq : Nat := 0
  accepted : Nat := 0
  children : Calls Child := fun _ => none
  nextChild : Nat := 0
  calls : Calls Call := fun _ => none
  nextCall : Nat := 0
  stopped : Bool := false
  lateSpawn : Bool := false

def State.alive (s : State) (c : Nat) : Bool := (s.children c).any Child.alive

def State.modifyChild (s : State) (c : Nat) (f : Child → Child) : State :=
  { s with children := s.children.modify c f }

def State.beginCall (s : State) (call : Call) : State :=
  { s with calls := s.calls.put s.nextCall call, nextCall := s.nextCall + 1 }

def State.putCall (s : State) (i : Nat) (call : Call) : State :=
  { s with calls := s.calls.put i call }

def State.dropCall (s : State) (i : Nat) : State := { s with calls := s.calls.drop i }

def Call.noteStart : Call → Call
  | .stopping proc _ => .stopping proc true
  | .flushing _ => .flushing true
  | call => call

/-- History: somebody calls `startRunner`. -/
def startCalled (s : State) : State :=
  { s with calls := s.calls.mapAll Call.noteStart, stopped := false }

/-- A command is accepted while `c` is the process of the runner. -/
def Child.accept (k : Nat) (child : Child) : Child :=
  if child.ready then child else { child with held := child.held ++ [k] }

def Child.write (ks : List Nat) (child : Child) : Child :=
  { child with written := child.written ++ ks }

@[simp] theorem Child.accept_alive (k : Nat) (child : Child) : (child.accept k).alive = child.alive := by
  unfold Child.accept
  split_ifs <;> rfl

@[simp] theorem Child.accept_toldToStop (k : Nat) (child : Child) :
    (child.accept k).toldToStop = child.toldToStop := by
  unfold Child.accept
  split_ifs <;> rfl

/-- `sendToRunner` once the runner has had its chance to start. -/
def deliver (s : State) : State :=
  match s.proc with
  | none => s
  | some c =>
    if s.resumeId.isSome then
      { s.modifyChild c (Child.accept s.accepted) with
        resumeQueue := s.resumeQueue ++ [s.accepted], accepted := s.accepted + 1 }
    else if s.alive c then
      { s.modifyChild c fun child => (child.accept s.accepted).write [s.accepted] with
        accepted := s.accepted + 1 }
    else s

/-- The child reads the commands `ks`; the resume that is finished is its own if
it bears its startup request. -/
def Child.flush (ks : List Nat) (resumeId : Option Nat) (child : Child) : Child :=
  if child.alive then
    { child.write ks with ready := child.ready || child.startup == resumeId }
  else child

/-- Commands held back are written to the present child, if it still reads. -/
def finishResume (s : State) : State :=
  if s.resumeId.isNone then s
  else
    let cleared : State := { s with resumeId := none, resumeTimer := false, resumeQueue := [] }
    match s.proc with
    | none => cleared
    | some c => cleared.modifyChild c (Child.flush s.resumeQueue s.resumeId)

variable {s : State}

theorem finishResume_none (resumeId : s.resumeId = none) : finishResume s = s :=
  if_pos (by rw [resumeId]; rfl)

theorem finishResume_idle {request : Nat} (resumeId : s.resumeId = some request) (proc : s.proc = none) :
    finishResume s = { s with resumeId := none, resumeTimer := false, resumeQueue := [] } := by
  simp [finishResume, resumeId, proc]

theorem finishResume_present {request c : Nat} (resumeId : s.resumeId = some request) (proc : s.proc = some c) :
    finishResume s = { s with
        resumeId := none, resumeTimer := false, resumeQueue := []
        children := s.children.modify c (Child.flush s.resumeQueue (some request)) } := by
  simp [finishResume, resumeId, proc, State.modifyChild]

/-- The end of `startRunner`: `sendToRunner` goes on to deliver its command. -/
def returnStart (s : State) (i : Nat) (sends : Bool) : State :=
  if sends then s.putCall i .delivering else s.dropCall i

/-- The return of a start is a change of the calls in flight, which loses call `i`. -/
theorem returnStart_eq (s : State) (i : Nat) (sends : Bool) :
    ∃ calls : Calls Call, returnStart s i sends = { s with calls } ∧
      ∀ j call, calls j = some call → call ≠ .delivering → j ≠ i ∧ s.calls j = some call := by
  unfold returnStart
  split_ifs
  · refine ⟨_, rfl, fun j call found other => ?_⟩
    rcases Calls.put_eq_some found with ⟨_, same⟩ | old
    · exact absurd same other
    · exact old
  · exact ⟨_, rfl, fun j call found _ => Calls.drop_eq_some found⟩

def deferRunnerStart (s : State) : State := { s with startTimer := true }

/-- `startRunner` up to its first await. -/
def startRunner (s : State) (now : Nat) (sends : Bool) : State :=
  let returned := if sends then s.beginCall .delivering else s
  if s.proc.isSome then returned
  else if now - s.lastSpawnAt < runnerRespawnDebounceMs ∧ 0 < s.startCount then
    deferRunnerStart returned
  else
    { s.beginCall (.starting sends) with lastSpawnAt := now, startCount := s.startCount + 1 }

/-- The launch; `launches` tells whether the driver returns a process. -/
def launch (s : State) (i : Nat) (sends launches : Bool) : State :=
  if launches then
    { s.putCall i (.launched s.nextChild sends) with
      proc := some s.nextChild
      children := s.children.put s.nextChild {}
      nextChild := s.nextChild + 1
      lateSpawn := s.lateSpawn || s.stopped }
  else s.putCall i (.launchFailing sends)

def sendStartup (driver : Driver) (s : State) (c : Nat) : State :=
  { s with
    children := s.children.modify c fun child =>
      { child with startup := some s.srvSeq, ready := !driver.resumes }
    srvSeq := s.srvSeq + 1
    resumeId := if driver.resumes then some s.srvSeq else none
    resumeTimer := driver.resumes || s.resumeTimer }

/-- The part of `startRunner` after its second await. -/
def startup (driver : Driver) (s : State) (i c : Nat) (sends : Bool) : State :=
  if (s.children c).any Child.launchFailed ∨ s.proc ≠ some c then returnStart s i sends
  else returnStart (sendStartup driver s c) i sends

def sendToRunner (s : State) (now : Nat) (autostart : Bool) : State :=
  if s.proc.isNone && autostart then startRunner (startCalled s) now true else deliver s

/-- The part of `stopRunner` after its update; `proc` was read before it. -/
def stopProcess (s : State) (i : Nat) (proc : Option Nat) (startedSince : Bool) : State :=
  match proc with
  | none => { s.putCall i (.flushing startedSince) with startTimer := false }
  | some c =>
    { (s.modifyChild c fun child => { child with toldToStop := true }).putCall i
        (.flushing startedSince) with
      startTimer := false
      proc := none
      resumeTimer := false
      resumeId := none
      resumeQueue := [] }

/-- `stopRunner` returns. -/
def stopReturned (s : State) (i : Nat) (startedSince : Bool) : State :=
  { s.dropCall i with stopped := s.stopped || !startedSince }

/-- The `exit` listener that `startRunner` attaches and `stopRunner` replaces. -/
def onExit (s : State) (c : Nat) (child : Child) : State :=
  if ¬child.toldToStop ∧ s.proc = some c then { s with proc := none } else s

def onError (s : State) (c : Nat) : State :=
  { s.modifyChild c fun child => { child with launchFailed := true } with
    proc := if s.proc = some c then none else s.proc }

/-- The child answers its startup request; output of other children is dropped. -/
def onAnswer (s : State) (c request : Nat) : State :=
  if s.proc = some c ∧ s.resumeId = some request then finishResume s else s

def onStartTimer (s : State) (now : Nat) : State :=
  let fired : State := { s with startTimer := false }
  if s.proc.isNone ∧ s.registered then startRunner fired now false else fired

inductive Action where
  | start (now : Nat)
  | send (now : Nat) (autostart : Bool)
  | stop
  | resolve (i : Nat) (launches : Bool)
  | reject (i : Nat)
  | die (c : Nat)
  | exit (c : Nat)
  | error (c : Nat)
  | answer (c : Nat)
  | resumeTimeout
  | startTimeout (now : Nat)
  | unregister

/-- What a call does when the promise that it awaits is resolved. -/
def resume (driver : Driver) (s : State) (i : Nat) (launches : Bool) : Call → State
  | .starting sends => launch s i sends launches
  | .launchFailing sends => returnStart s i sends
  | .launched c sends => startup driver s i c sends
  | .delivering => deliver (s.dropCall i)
  | .stopping proc startedSince => stopProcess s i proc startedSince
  | .flushing startedSince => stopReturned s i startedSince

/-- `exit` and `error` come from a child that has died or was never there. -/
def step (driver : Driver) (s : State) : Action → Option State
  | .start now => some (startRunner (startCalled s) now false)
  | .send now autostart => some (sendToRunner s now autostart)
  | .stop => some (s.beginCall (.stopping s.proc false))
  | .resolve i launches => (s.calls i).map (resume driver s i launches)
  | .reject i =>
    match s.calls i with
    | none | some .delivering => none
    | some _ => some (s.dropCall i)
  | .die c => if s.alive c then some (s.modifyChild c fun child => { child with alive := false }) else none
  | .exit c =>
    match s.children c with
    | some child => if child.alive then none else some (onExit s c child)
    | none => none
  | .error c =>
    match s.children c with
    | some child => if child.alive then none else some (onError s c)
    | none => none
  | .answer c =>
    match (s.children c).bind Child.startup with
    | some request => some (onAnswer s c request)
    | none => none
  | .resumeTimeout =>
    if s.resumeTimer then some (finishResume { s with resumeTimer := false }) else none
  | .startTimeout now => if s.startTimer then some (onStartTimer s now) else none
  | .unregister => some { s with registered := false }

end Runner
