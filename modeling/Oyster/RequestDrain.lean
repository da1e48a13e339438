import Oyster.DisposableScope
import Oyster.History

/-! The requests of one application: their admission and the drain in front of the
disposal of the resources, whoever disposes of the application and whenever. -/
namespace RequestDrain
open Interleaving History

/-- Where an admitted request is: its handler has yet to be called, is running, or has settled. -/
inductive Stage where
  | admitted
  | handling
  | settled
deriving DecidableEq

/-- What `dispose` waits for: the resolved promise or the drain; then `scope.dispose` runs. -/
inductive Chain where
  | drained
  | draining
  | disposing
  | settled
deriving DecidableEq

inductive Activation where
  | none
  | running
  | cleaning
  | active
  | failed
deriving DecidableEq

inductive Event where
  | admitted
  | retired

structure State where
  accepting : Bool := true
  entered : Nat := 0
  /-- `drained`, with whether it is resolved. -/
  drained : Option Bool := none
  application : Bool := false
  activation : Activation := .none
  disposal : Option Nat := none
  disposed : Bool := false
  scope : DisposableScope.State := {}
  chains : List Chain := []
  requests : List Stage := []
  log : List Event := []

inductive Action where
  | activate
  | activationEnds
  | activationThrows
  | cleaned
  | handleRequest
  | called (place : Nat) (throws : Bool)
  | settles (place : Nat)
  | leaves (place : Nat)
  | retire
  | dispose
  | retires (chain : Nat)
  | chainSettles (chain : Nat) (ok : Bool)
  | scope (action : DisposableScope.Action)

namespace State
variable (s : State)

def activate : State :=
  if s.disposed || s.application then s
  else match s.activation with
    | .none => { s with activation := .running }
    | _ => s

def activationThrows : State :=
  { s with disposed := true, activation := .cleaning, scope := s.scope.dispose }

def handleRequest : State :=
  if !s.application then s
  else if !s.accepting then s
  else { s with entered := s.entered + 1, requests := s.requests ++ [.admitted], log := .admitted :: s.log }

/-- The `finally` of a request. -/
def leaves (place : Nat) : State :=
  { s with
    entered := s.entered - 1
    requests := s.requests.eraseIdx place
    drained := if s.entered - 1 = 0 then s.drained.map fun _ => true else s.drained }

/-- `waitForDrain` creates the promise where there is none; whether there is something to wait for is `entered`. -/
def retire : State :=
  { s with
    accepting := false
    drained := if s.entered = 0 then s.drained else s.drained <|> some false
    log := .retired :: s.log }

def dispose : State :=
  match s.disposal with
  | some _ => { s with disposed := true }
  | none =>
    let chain := if s.entered = 0 then .drained else .draining
    { s.retire with disposed := true, disposal := some s.chains.length, chains := s.chains ++ [chain] }

/-- What the chain of a `dispose` waits for has come. -/
def ready : Chain → Bool
  | .drained => true
  | .draining => s.drained = some true
  | .disposing | .settled => false

def retires (chain : Nat) : State := { s with scope := s.scope.dispose, chains := s.chains.set chain .disposing }

def chainSettles (chain : Nat) (ok : Bool) : State :=
  { s with chains := s.chains.set chain .settled, disposal := if ok then s.disposal else none }

end State

/-- The scope is disposed of by the application only; all else may be done to it at any time. -/
def step (s : State) : Action → Option State
  | .activate => some s.activate
  | .activationEnds => if s.activation = .running then some { s with application := true, activation := .active } else none
  | .activationThrows => if s.activation = .running then some s.activationThrows else none
  | .cleaned => if s.activation = .cleaning then some { s with activation := .failed } else none
  | .handleRequest => some s.handleRequest
  | .called place throws =>
    if s.requests[place]? = some .admitted then
      some { s with requests := s.requests.set place (if throws then .settled else .handling) }
    else none
  | .settles place =>
    if s.requests[place]? = some .handling then some { s with requests := s.requests.set place .settled } else none
  | .leaves place => if s.requests[place]? = some .settled then some (s.leaves place) else none
  | .retire => some s.retire
  | .dispose => some s.dispose
  | .retires chain => if (s.chains[chain]?).any s.ready then some (s.retires chain) else none
  | .chainSettles chain ok => if s.chains[chain]? = some .disposing then some (s.chainSettles chain ok) else none
  | .scope action =>
    if action = .dispose then none else (DisposableScope.step s.scope action).map fun scope => { s with scope := scope }

/-- None is admitted once the application is retired. -/
def Permitted : Event → List Event → Prop
  | .admitted, before => .retired ∉ before
  | .retired, _ => True

structure Kept (s : State) : Prop where
  closed : Fits Permitted s.log
  /-- As long as a request is inside, no cleanup has been called. -/
  undisposed : s.requests ≠ [] → ∀ run id, .called run id ∉ s.scope.log

structure Untouched (scope : DisposableScope.State) : Prop where
  runs : scope.runs = []
  frames : scope.frames = []
  quiet : ∀ run id, .called run id ∉ scope.log

variable {scope : DisposableScope.State}

theorem Untouched.push (untouched : Untouched scope) : Untouched scope.push :=
  ⟨untouched.runs, untouched.frames, fun run id mem => by
    rcases List.mem_cons.mp mem with same | old
    · cases same
    · exact untouched.quiet run id old⟩

theorem Untouched.idle (untouched : Untouched scope) (e : DisposableScope.Event)
    (other : ∀ run id, e ≠ .called run id) : Untouched { scope with log := e :: scope.log } where
  runs := untouched.runs
  frames := untouched.frames
  quiet := by
    intro run id mem
    rcases List.mem_cons.mp mem with same | old
    · exact other run id same.symm
    · exact untouched.quiet run id old

theorem proceed_started (scope : DisposableScope.State) (frame : DisposableScope.Frame) (errors n : Nat) :
    (scope.proceed frame errors n).started = scope.started := by
  have looped : ∀ errors, (scope.loop frame.run errors n).started = scope.started := by
    induction n with
    | zero => exact fun _ => rfl
    | succ index ih =>
      intro errors
      unfold DisposableScope.State.loop
      cases scope.cleanups[index]? with
      | none => exact ih (errors + 1)
      | some cleanup => rfl
  unfold DisposableScope.State.proceed DisposableScope.State.leave
  dsimp only
  split
  · exact looped errors
  · split_ifs <;> exact looped errors

theorem dispose_started (scope : DisposableScope.State) : scope.dispose.started = true := by
  unfold DisposableScope.State.dispose
  dsimp only
  split
  · rfl
  · exact proceed_started _ _ _ _

theorem defer_untouched (isFunction : Bool) (untouched : scope.started = false → Untouched scope) :
    (scope.defer isFunction).started = scope.started ∧
      ((scope.defer isFunction).started = false → Untouched (scope.defer isFunction)) := by
  unfold DisposableScope.State.defer
  split_ifs with skipped
  · exact ⟨rfl, untouched⟩
  · exact ⟨rfl, fun idle => (untouched idle).push⟩

/-- Nothing but `dispose` starts a disposal. -/
theorem untouched_step {next : DisposableScope.State} {action : DisposableScope.Action}
    (untouched : scope.started = false → Untouched scope) (other : action ≠ .dispose)
    (h : DisposableScope.step scope action = some next) :
    next.started = scope.started ∧ (next.started = false → Untouched next) := by
  -- a disposal that has started cannot be undone, and before it there is no run to go on
  have going : next.started = scope.started → (scope.started = false → False) →
      next.started = scope.started ∧ (next.started = false → Untouched next) :=
    fun same begun => ⟨same, fun idle => absurd (same.symm.trans idle) begun⟩
  cases action with
  | dispose => exact absurd rfl other
  | defer isFunction =>
    cases h
    exact defer_untouched isFunction untouched
  | listen target isFunction =>
    cases h
    unfold DisposableScope.State.listen
    split_ifs with skipped
    · exact ⟨rfl, untouched⟩
    · cases target with
      | addEventListener | on => exact ⟨rfl, fun idle => (untouched idle).push⟩
      | unsupported => exact ⟨rfl, untouched⟩
  | guarded =>
    cases h
    unfold DisposableScope.State.guarded
    split_ifs with started
    · exact ⟨rfl, untouched⟩
    · exact ⟨rfl, fun idle => (untouched idle).idle .ran (fun _ _ => nofun)⟩
  | throws =>
    cases top : scope.frames with
    | nil => simp [DisposableScope.step, top] at h
    | cons frame frames =>
      simp only [DisposableScope.step, top] at h
      obtain ⟨run, _, rfl⟩ := Option.map_eq_some_iff.mp h
      refine going (proceed_started _ _ _ _) fun idle => ?_
      exact nomatch (untouched idle).frames.symm.trans top
  | returns =>
    cases top : scope.frames with
    | nil => simp [DisposableScope.step, top] at h
    | cons frame frames =>
      simp only [DisposableScope.step, top] at h
      obtain ⟨run, _, rfl⟩ := Option.map_eq_some_iff.mp h
      refine going ?_ fun idle => nomatch (untouched idle).frames.symm.trans top
      unfold DisposableScope.State.returns DisposableScope.State.leave
      split_ifs <;> rfl
  | settles number ok =>
    simp only [DisposableScope.step] at h
    split at h
    · next run _ found =>
        obtain ⟨_, rest⟩ := Option.ite_none_right_eq_some.mp h
        cases rest
        refine going ?_ fun idle => by simp [(untouched idle).runs] at found
        cases ok with
        | true => exact proceed_started _ _ _ _
        | false => exact proceed_started _ _ _ _
    · cases h
  | caught number =>
    simp only [DisposableScope.step] at h
    split at h
    · next run _ found =>
        obtain ⟨_, rest⟩ := Option.ite_none_right_eq_some.mp h
        cases rest
        exact going rfl fun idle => by simp [(untouched idle).runs] at found
    · cases h

structure Inv (s : State) : Prop where
  fits : Fits Permitted s.log
  retired : .retired ∈ s.log ↔ s.accepting = false
  counted : s.entered = s.requests.length
  waiting : s.drained ≠ none → s.accepting = false
  drained : s.drained = some true → s.entered = 0
  chains : ∀ chain ∈ s.chains, s.accepting = false ∧ (chain = .drained ∨ chain = .disposing → s.entered = 0)
  active : s.application = true ↔ s.activation = .active
  inactive : s.application = false → s.requests = []
  started : s.scope.started = true →
    s.requests = [] ∧ (s.accepting = false ∨ s.activation = .cleaning ∨ s.activation = .failed)
  untouched : s.scope.started = false → Untouched s.scope

variable {s : State}

theorem Inv.kept (inv : Inv s) : Kept s where
  closed := inv.fits
  undisposed := by
    intro inside
    cases started : s.scope.started with
    | true => exact absurd (inv.started started).1 inside
    | false => exact (inv.untouched started).quiet

theorem Inv.init : Inv {} where
  fits := trivial
  retired := ⟨fun mem => absurd mem List.not_mem_nil, fun closed => nomatch closed⟩
  counted := rfl
  waiting := fun waits => absurd rfl waits
  drained := fun resolved => nomatch resolved
  chains := fun _ mem => absurd mem List.not_mem_nil
  active := ⟨fun active => (nomatch active), fun active => nomatch active⟩
  inactive := fun _ => rfl
  started := fun started => nomatch started
  untouched := fun _ => ⟨rfl, rfl, fun _ _ mem => absurd mem List.not_mem_nil⟩

theorem Inv.activate (inv : Inv s) : Inv s.activate := by
  unfold State.activate
  split_ifs with skipped
  · exact inv
  · cases phase : s.activation with
    | none =>
      have inactive : s.application = false := by
        cases active : s.application with
        | false => rfl
        | true => exact nomatch phase.symm.trans (inv.active.mp active)
      refine ⟨inv.fits, inv.retired, inv.counted, inv.waiting, inv.drained, inv.chains, ?_, inv.inactive, ?_, inv.untouched⟩
      · exact ⟨fun active => (nomatch inactive.symm.trans active), fun active => nomatch active⟩
      · intro started
        obtain ⟨empty, closed | cleaning | failed⟩ := inv.started started
        · exact ⟨empty, .inl closed⟩
        · exact nomatch phase.symm.trans cleaning
        · exact nomatch phase.symm.trans failed
    | _ => exact inv

theorem Inv.activationEnds (inv : Inv s) (running : s.activation = .running) :
    Inv { s with application := true, activation := .active } := by
  refine ⟨inv.fits, inv.retired, inv.counted, inv.waiting, inv.drained, inv.chains, ⟨fun _ => rfl, fun _ => rfl⟩,
    (fun inactive => nomatch inactive), ?_, inv.untouched⟩
  intro started
  obtain ⟨empty, closed | cleaning | failed⟩ := inv.started started
  · exact ⟨empty, .inl closed⟩
  · exact nomatch running.symm.trans cleaning
  · exact nomatch running.symm.trans failed

theorem Inv.not_active (inv : Inv s) (other : s.activation ≠ .active) : s.application = false := by
  cases active : s.application with
  | false => rfl
  | true => exact absurd (inv.active.mp active) other

theorem Inv.activationThrows (inv : Inv s) (running : s.activation = .running) : Inv s.activationThrows := by
  have inactive : s.application = false := inv.not_active (by rw [running]; decide)
  refine ⟨inv.fits, inv.retired, inv.counted, inv.waiting, inv.drained, inv.chains, ?_, inv.inactive, ?_, ?_⟩
  · exact ⟨fun active => (nomatch inactive.symm.trans active), fun active => nomatch active⟩
  · exact fun _ => ⟨inv.inactive inactive, .inr (.inl rfl)⟩
  · exact fun idle => nomatch (dispose_started s.scope).symm.trans idle

theorem Inv.cleaned (inv : Inv s) (cleaning : s.activation = .cleaning) : Inv { s with activation := .failed } := by
  have inactive : s.application = false := inv.not_active (by rw [cleaning]; decide)
  refine ⟨inv.fits, inv.retired, inv.counted, inv.waiting, inv.drained, inv.chains, ?_, inv.inactive, ?_, inv.untouched⟩
  · exact ⟨fun active => (nomatch inactive.symm.trans active), fun active => nomatch active⟩
  · exact fun started => ⟨(inv.started started).1, .inr (.inr rfl)⟩

theorem Inv.handleRequest (inv : Inv s) : Inv s.handleRequest := by
  unfold State.handleRequest
  split_ifs with unactive closed
  · exact inv
  · exact inv
  · have accepting : s.accepting = true := by simpa using closed
    have active : s.application = true := by simpa using unactive
    have opened : s.accepting ≠ false := fun closed => nomatch accepting.symm.trans closed
    refine ⟨?_, ?_, ?_, inv.waiting, ?_, ?_, inv.active, ?_, ?_, inv.untouched⟩
    · exact inv.fits.cons fun retired => opened (inv.retired.mp retired)
    · simpa using inv.retired
    · simp [inv.counted]
    · exact fun resolved => absurd (inv.waiting (by rw [resolved]; simp)) opened
    · exact fun chain mem => absurd (inv.chains chain mem).1 opened
    · exact fun inactive => nomatch active.symm.trans inactive
    · intro started
      obtain ⟨_, closed | cleaning | failed⟩ := inv.started started
      · exact absurd closed opened
      · exact nomatch (inv.active.mp active).symm.trans cleaning
      · exact nomatch (inv.active.mp active).symm.trans failed

variable {place : Nat} {stage : Stage}

theorem Inv.inside (inv : Inv s) (there : s.requests[place]? = some stage) :
    s.application = true ∧ s.scope.started = false := by
  have some : s.requests ≠ [] := fun empty => by simp [empty] at there
  constructor
  · cases active : s.application with
    | true => rfl
    | false => exact absurd (inv.inactive active) some
  · cases started : s.scope.started with
    | false => rfl
    | true => exact absurd (inv.started started).1 some

theorem Inv.moves (inv : Inv s) (there : s.requests[place]? = some stage) (next : Stage) :
    Inv { s with requests := s.requests.set place next } := by
  obtain ⟨active, idle⟩ := inv.inside there
  refine ⟨inv.fits, inv.retired, ?_, inv.waiting, inv.drained, inv.chains, inv.active, ?_, ?_, inv.untouched⟩
  · simpa using inv.counted
  · exact fun inactive => nomatch active.symm.trans inactive
  · exact fun started => nomatch idle.symm.trans started

theorem Inv.leaves (inv : Inv s) (there : s.requests[place]? = some stage) : Inv (s.leaves place) := by
  obtain ⟨active, idle⟩ := inv.inside there
  have inside := (List.getElem?_eq_some_iff.mp there).1
  have counted := inv.counted
  refine ⟨inv.fits, inv.retired, ?_, ?_, ?_, ?_, inv.active, ?_, ?_, inv.untouched⟩
  · simp only [State.leaves, List.length_eraseIdx_of_lt inside]
    omega
  · intro waits
    refine inv.waiting fun none => waits ?_
    simp only [State.leaves, none]
    split_ifs <;> rfl
  · intro resolved
    by_cases last : s.entered - 1 = 0
    · exact last
    · simp only [State.leaves, if_neg last] at resolved ⊢
      have := inv.drained resolved
      omega
  · intro chain mem
    obtain ⟨closed, empty⟩ := inv.chains chain mem
    refine ⟨closed, fun passed => ?_⟩
    have := empty passed
    omega
  · exact fun inactive => nomatch active.symm.trans inactive
  · exact fun started => nomatch idle.symm.trans started

theorem Inv.retire (inv : Inv s) : Inv s.retire := by
  refine ⟨inv.fits.cons trivial, ?_, inv.counted, fun _ => rfl, ?_, ?_, inv.active, inv.inactive, ?_, inv.untouched⟩
  · exact ⟨fun _ => rfl, fun _ => List.mem_cons_self ..⟩
  · intro resolved
    by_cases empty : s.entered = 0
    · exact empty
    · simp only [State.retire, if_neg empty] at resolved
      cases before : s.drained with
      | none => simp [before] at resolved
      | some done =>
        refine inv.drained ?_
        simpa [before] using resolved
  · exact fun chain mem => ⟨rfl, (inv.chains chain mem).2⟩
  · exact fun started => ⟨(inv.started started).1, .inl rfl⟩

theorem Inv.withChains (inv : Inv s) (closed : s.accepting = false) {chains : List Chain} {disposed : Bool}
    {disposal : Option Nat} (fits : ∀ chain ∈ chains, chain = .drained ∨ chain = .disposing → s.entered = 0) :
    Inv { s with chains := chains, disposed := disposed, disposal := disposal } :=
  ⟨inv.fits, inv.retired, inv.counted, inv.waiting, inv.drained, fun chain mem => ⟨closed, fits chain mem⟩, inv.active, inv.inactive,
    inv.started, inv.untouched⟩

theorem Inv.dispose (inv : Inv s) : Inv s.dispose := by
  unfold State.dispose
  cases s.disposal with
  | some chain =>
    exact ⟨inv.fits, inv.retired, inv.counted, inv.waiting, inv.drained, inv.chains, inv.active, inv.inactive, inv.started,
      inv.untouched⟩
  | none =>
    refine inv.retire.withChains rfl ?_
    intro chain mem passed
    rcases List.mem_append.mp mem with old | new
    · exact (inv.chains chain old).2 passed
    · rw [List.mem_singleton.mp new] at passed
      by_contra inside
      have inside : ¬s.entered = 0 := inside
      rw [if_neg inside] at passed
      rcases passed with waits | waits <;> cases waits

variable {chain : Nat}

theorem Inv.retires (inv : Inv s) (ready : (s.chains[chain]?).any s.ready = true) : Inv (s.retires chain) := by
  obtain ⟨waits, there, passed⟩ := (Option.any_eq_true _ _).mp ready
  have mem := List.mem_of_getElem? there
  obtain ⟨closed, through⟩ := inv.chains waits mem
  have empty : s.entered = 0 := by
    cases waits with
    | drained => exact through (.inl rfl)
    | draining => exact inv.drained (of_decide_eq_true passed)
    | disposing | settled => cases passed
  refine ⟨inv.fits, inv.retired, inv.counted, inv.waiting, inv.drained, ?_, inv.active, inv.inactive, ?_, ?_⟩
  · exact fun _ _ => ⟨closed, fun _ => empty⟩
  · exact fun _ => ⟨List.length_eq_zero_iff.mp (inv.counted ▸ empty), .inl closed⟩
  · exact fun idle => nomatch (dispose_started s.scope).symm.trans idle

theorem Inv.chainSettles (inv : Inv s) (ok : Bool) (there : s.chains[chain]? = some .disposing) :
    Inv (s.chainSettles chain ok) := by
  have closed := (inv.chains .disposing (List.mem_of_getElem? there)).1
  refine inv.withChains closed ?_
  intro other mem passed
  rcases List.mem_or_eq_of_mem_set mem with old | rfl
  · exact (inv.chains other old).2 passed
  · rcases passed with waits | waits <;> cases waits

theorem inv_step (s : State) (a : Action) (t : State) (inv : Inv s) (_ : Free s a) (h : step s a = some t) : Inv t := by
  cases a with
  | activate =>
    cases h
    exact inv.activate
  | activationEnds =>
    obtain ⟨running, rest⟩ := Option.ite_none_right_eq_some.mp h
    cases rest
    exact inv.activationEnds running
  | activationThrows =>
    obtain ⟨running, rest⟩ := Option.ite_none_right_eq_some.mp h
    cases rest
    exact inv.activationThrows running
  | cleaned =>
    obtain ⟨cleaning, rest⟩ := Option.ite_none_right_eq_some.mp h
    cases rest
    exact inv.cleaned cleaning
  | handleRequest =>
    cases h
    exact inv.handleRequest
  | called place throws =>
    obtain ⟨there, rest⟩ := Option.ite_none_right_eq_some.mp h
    cases rest
    exact inv.moves there _
  | settles place =>
    obtain ⟨there, rest⟩ := Option.ite_none_right_eq_some.mp h
    cases rest
    exact inv.moves there _
  | leaves place =>
    obtain ⟨there, rest⟩ := Option.ite_none_right_eq_some.mp h
    cases rest
    exact inv.leaves there
  | retire =>
    cases h
    exact inv.retire
  | dispose =>
    cases h
    exact inv.dispose
  | retires chain =>
    obtain ⟨ready, rest⟩ := Option.ite_none_right_eq_some.mp h
    cases rest
    exact inv.retires ready
  | chainSettles chain ok =>
    obtain ⟨there, rest⟩ := Option.ite_none_right_eq_some.mp h
    cases rest
    exact inv.chainSettles ok there
  | scope action =>
    simp only [step] at h
    split_ifs at h with own
    obtain ⟨scope, moved, rfl⟩ := Option.map_eq_some_iff.mp h
    obtain ⟨same, untouched⟩ := untouched_step inv.untouched own moved
    exact ⟨inv.fits, inv.retired, inv.counted, inv.waiting, inv.drained, inv.chains, inv.active, inv.inactive,
      fun started => inv.started (same ▸ started), untouched⟩

/-- Whatever the order of admissions, completions, retirements and disposals: no request is admitted after a
retirement, and as long as one is inside no resource has been disposed of. -/
theorem drained_before_disposal (actions : List Action) (s : State) (run : Interleaving.Run step Free {} actions s) : Kept s :=
  (run.invariant inv_step Inv.init).kept

/-- A request is inside as its application is retired; the next one is refused; the resources go when it has left. -/
def retiredWithin : List Action :=
  [.activate, .scope (.defer true), .activationEnds, .handleRequest, .called 0 false, .dispose, .handleRequest, .retire, .dispose,
    .settles 0, .leaves 0, .retires 0, .scope .returns, .scope (.settles 0 true), .chainSettles 0 true]

theorem drained_before_disposal_within :
    ∃ s, Interleaving.Run step Free {} retiredWithin s ∧ (s.requests, s.scope.cleanups) = ([], []) ∧ Kept s := by
  have checked : ((exec step {} retiredWithin).any fun s => decide ((s.requests, s.scope.cleanups) = ([], []))) = true := by
    decide +kernel
  obtain ⟨s, ran, ended⟩ := (Option.any_eq_true _ _).mp checked
  have run := run_of_exec ran
  exact ⟨s, run, of_decide_eq_true ended, drained_before_disposal _ s run⟩

end RequestDrain
