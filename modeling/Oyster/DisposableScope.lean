import Oyster.Interleaving

/-! The cleanup stack of an application candidate, and its disposals. A cleanup is known by
the number of its registration. -/
namespace DisposableScope

/-- What has happened to a scope. -/
inductive Event where
  | registered (id : Nat)
  | ran
  | began (run : Nat)
  | called (run id : Nat)
  | succeeded (id : Nat)
  | failed (run id : Nat)
  | ended (run : Nat) (ok : Bool)
  | rejected (run : Nat)
  | disposed (run : Nat)
deriving DecidableEq

inductive Phase where
  | calling
  | awaiting
  | settled
  | reported
deriving DecidableEq

/-- One execution of the loop over the cleanups: `cleanup` is what `cleanups[index]` was when it was called. -/
structure Disposal where
  index : Nat
  cleanup : Nat
  errors : Nat
  phase : Phase

/-- A cleanup on the call stack; `initial` while the `dispose` call that began its run has not returned. -/
structure Frame where
  run : Nat
  initial : Bool

structure State where
  cleanups : List Nat := []
  disposal : Option Nat := none
  started : Bool := false
  runs : List Disposal := []
  frames : List Frame := []
  registered : Nat := 0
  log : List Event := []

inductive Target where
  | addEventListener
  | on
  | unsupported
deriving DecidableEq

inductive Action where
  | defer (isFunction : Bool)
  | listen (target : Target) (isFunction : Bool)
  | guarded
  | dispose
  | throws
  | returns
  | settles (run : Nat) (ok : Bool)
  | caught (run : Nat)
deriving DecidableEq

namespace State
variable (s : State)

def push : State :=
  { s with
    cleanups := s.cleanups ++ [s.registered]
    registered := s.registered + 1
    log := .registered s.registered :: s.log }

/-- A scope whose disposal has started takes nothing on; what is no cleanup throws. -/
def defer (isFunction : Bool) : State := if s.started || !isFunction then s else s.push

def listen (target : Target) (isFunction : Bool) : State :=
  if s.started || !isFunction then s
  else match target with
    | .addEventListener | .on => s.push
    | .unsupported => s

def guarded : State := if s.started then s else { s with log := .ran :: s.log }

/-- The loop from below index `n` until a cleanup is called or none is left. A missing one throws when it is called. -/
def loop (run errors : Nat) : Nat → State
  | 0 => { s with
      runs := s.runs.set run ⟨0, 0, errors, .settled⟩
      log := .ended run (decide (errors = 0)) :: s.log }
  | index + 1 =>
    match s.cleanups[index]? with
    | some cleanup => { s with
        runs := s.runs.set run ⟨index, cleanup, errors, .calling⟩
        log := .called run cleanup :: s.log }
    | none => loop run (errors + 1) index

/-- `dispose` returns the promise of a run. -/
def disposed (run : Nat) : State := { s with log := .disposed run :: s.log }

/-- The synchronous stretch of a run is over; its first one ends as `dispose` assigns the promise and returns it. -/
def leave (frame : Frame) : State :=
  if frame.initial then disposed { s with disposal := some frame.run } frame.run else s

/-- A run goes on until it waits for a cleanup to return, or ends. -/
def proceed (frame : Frame) (errors n : Nat) : State :=
  let next := s.loop frame.run errors n
  match next.runs[frame.run]? with
  | some ⟨_, _, _, .calling⟩ => { next with frames := frame :: next.frames }
  | _ => next.leave frame

def dispose : State :=
  let s := { s with started := true }
  match s.disposal with
  | some run => s.disposed run
  | none =>
    let run := s.runs.length
    let begun : State := { s with runs := s.runs ++ [⟨0, 0, 0, .settled⟩], log := .began run :: s.log }
    begun.proceed ⟨run, true⟩ 0 s.cleanups.length

/-- The cleanup on top of the call stack throws, and the loop goes on in the same stretch. -/
def throws (frame : Frame) (frames : List Frame) (run : Disposal) : State :=
  let failed : State := { s with frames := frames, log := .failed frame.run run.cleanup :: s.log }
  failed.proceed frame (run.errors + 1) run.index

def returns (frame : Frame) (frames : List Frame) (run : Disposal) : State :=
  let awaiting : State := { s with frames := frames, runs := s.runs.set frame.run { run with phase := .awaiting } }
  awaiting.leave frame

def settles (number : Nat) (run : Disposal) : (ok : Bool) → State
  | true =>
    let spliced : State := { s with cleanups := s.cleanups.eraseIdx run.index, log := .succeeded run.cleanup :: s.log }
    spliced.proceed ⟨number, false⟩ run.errors run.index
  | false =>
    let failed : State := { s with log := .failed number run.cleanup :: s.log }
    failed.proceed ⟨number, false⟩ (run.errors + 1) run.index

def caught (number : Nat) (run : Disposal) : State :=
  { s with
    disposal := none
    runs := s.runs.set number { run with phase := .reported }
    log := .rejected number :: s.log }

end State

/-- Any code may call the scope at any time, the cleanups included. A run is resumed only when the call stack is empty. -/
def step (s : State) : Action → Option State
  | .defer isFunction => some (s.defer isFunction)
  | .listen target isFunction => some (s.listen target isFunction)
  | .guarded => some s.guarded
  | .dispose => some s.dispose
  | .throws =>
    match s.frames with
    | [] => none
    | frame :: frames => (s.runs[frame.run]?).map (s.throws frame frames)
  | .returns =>
    match s.frames with
    | [] => none
    | frame :: frames => (s.runs[frame.run]?).map (s.returns frame frames)
  | .settles number ok =>
    match s.frames, s.runs[number]? with
    | [], some run => if run.phase = .awaiting then some (s.settles number run ok) else none
    | _, _ => none
  | .caught number =>
    match s.frames, s.runs[number]? with
    | [], some run => if run.phase = .settled ∧ run.errors ≠ 0 then some (s.caught number run) else none
    | _, _ => none

end DisposableScope
