import Oyster.RunnerStop

/-! The watchdog of a runner. When a child does not answer the health probes, the
watchdog calls `stopRunner` and then `startRunner`, and awaits neither of the two. -/
namespace Watchdog
open Interleaving Runner

def watchdogMaxMisses : Nat := 2

/-- What the watchdog keeps of a runner. -/
structure Health where
  watchdogOk : Bool := false
  lastLineAt : Nat := 0
  probeSentAt : Option Nat := none
  probeMisses : Nat := 0

structure System where
  runner : Runner.State := {}
  health : Health := {}

def Health.silent (h : Health) : Bool := h.probeSentAt.any fun sent => sent ≠ 0 && h.lastLineAt < sent

/-- The runner has left the map, or there is nothing to probe. -/
def skips (s : System) : Bool :=
  !s.runner.registered || s.runner.proc.isNone || !s.health.watchdogOk || s.runner.resumeId.isSome

def misses (h : Health) : Nat := if h.silent then h.probeMisses + 1 else 0

def requestHealth (s : Runner.State) (now : Nat) : Runner.State :=
  sendToRunner { s with srvSeq := s.srvSeq + 1 } now false

/-- Both calls begin: the stop reads the process and awaits its update, and the start runs
up to its first await. -/
def restart (s : Runner.State) (now : Nat) : Runner.State :=
  startRunner (startCalled (s.beginCall (.stopping s.proc false))) now false

/-- The tick declares the runner unresponsive. -/
def Unresponsive (s : System) (subscribed : Bool) : Prop :=
  skips s = false ∧ subscribed = true ∧ s.health.silent = true ∧ watchdogMaxMisses ≤ misses s.health

instance (s : System) (subscribed : Bool) : Decidable (Unresponsive s subscribed) := by
  unfold Unresponsive
  infer_instance

def watchdogTick (s : System) (subscribed : Bool) (now : Nat) : System :=
  if skips s then s
  else if !subscribed then { s with health := { s.health with probeSentAt := none, probeMisses := 0 } }
  else if s.health.silent && watchdogMaxMisses ≤ misses s.health then
    { runner := restart s.runner now, health := { s.health with probeSentAt := none, probeMisses := 0 } }
  else
    { runner := requestHealth s.runner now
      health := { s.health with probeSentAt := some now, probeMisses := misses s.health } }

/-- The fields that other parts of the runner manager set: the end of `startRunner`, and each
line of the present child. -/
def Health.note (h : Health) (s : Runner.State) (now : Nat) : Runner.Action → Health
  | .resolve i _ =>
    match s.calls i with
    | some (.launched c _) =>
      if (s.children c).any Child.launchFailed ∨ s.proc ≠ some c then h
      else { watchdogOk := true, lastLineAt := now, probeSentAt := none, probeMisses := 0 }
    | _ => h
  | .answer c => if s.proc = some c then { h with lastLineAt := now } else h
  | _ => h

inductive Action where
  | runner (a : Runner.Action) (now : Nat)
  | output (c now : Nat)
  | tick (subscribed : Bool) (now : Nat)

def step (driver : Driver) (s : System) : Action → Option System
  | .runner a now =>
    (Runner.step driver s.runner a).map fun t => { runner := t, health := s.health.note s.runner now a }
  | .output c now =>
    if s.runner.alive c then
      some { s with health := if s.runner.proc = some c then { s.health with lastLineAt := now } else s.health }
    else none
  | .tick subscribed now => some (watchdogTick s subscribed now)

/-- A child has been spawned since `s`, or a start that will spawn one is armed. -/
def Recovered (s u : Runner.State) : Prop := s.nextChild < u.nextChild ∨ u.startTimer = true

/-- A stop has begun and awaits its update. -/
def StopPending (s : Runner.State) (i : Nat) : Prop :=
  ∃ proc startedSince, s.calls i = some (.stopping proc startedSince)

/-- No other stop is called, the updates of starts and stops succeed, the driver launches, and
the runner is not removed. -/
def Undisturbed (s : System) : Action → Prop
  | .runner .stop _ | .runner .unregister _ => False
  | .runner (.reject i) _ => ¬StopPending s.runner i ∧ ∀ sends, s.runner.calls i ≠ some (.starting sends)
  | .runner (.resolve i launches) _ => ∀ sends, s.runner.calls i = some (.starting sends) → launches = true
  | .tick subscribed _ => ¬Unresponsive s subscribed
  | _ => True

/-- `startRunner` finds no child, and either goes on to its update or arms the timer when the
stop `i` can no longer clear it. -/
def Starts (i : Nat) (s : Runner.State) (now : Nat) : Prop :=
  s.proc = none ∧ (Passes s now ∨ ¬StopPending s i)

def Helps (i : Nat) (s : System) : Action → Prop
  | .runner (.start now) _ | .runner (.send now true) _ | .runner (.startTimeout now) _ => Starts i s.runner now
  | _ => False

/-- What a call still does to the process of the runner. -/
inductive Role where
  | starts
  | stops (proc : Option Nat)

def role : Call → Option Role
  | .starting _ => some .starts
  | .stopping proc _ => some (.stops proc)
  | .launchFailing _ | .launched _ _ | .delivering | .flushing _ => none

def roles (calls : Calls Call) : Nat → Option Role := fun i => (calls i).bind role

theorem roles_put (calls : Calls Call) (i : Nat) (call : Call) :
    roles (calls.put i call) = Function.update (roles calls) i (role call) := by
  funext j
  by_cases same : j = i
  · subst same
    simp [roles]
  · simp [roles, Calls.put_of_ne calls call same, Function.update_of_ne same]

theorem roles_drop (calls : Calls Call) (i : Nat) : roles (calls.drop i) = Function.update (roles calls) i none := by
  funext j
  by_cases same : j = i
  · subst same
    simp [roles]
  · simp [roles, Calls.drop_of_ne calls same, Function.update_of_ne same]

theorem roles_noteStart (calls : Calls Call) : roles (calls.mapAll Call.noteStart) = roles calls := by
  funext i
  cases found : calls i with
  | none => simp [roles, Calls.mapAll, found]
  | some call => cases call <;> simp [roles, Calls.mapAll, found, Call.noteStart, role]

variable {calls : Calls Call} {i : Nat} {call : Call}

theorem roles_eq (found : calls i = some call) : roles calls i = role call := by
  rw [roles, found, Option.bind_some]

theorem starts_iff : roles calls i = some .starts ↔ ∃ sends, calls i = some (.starting sends) := by
  cases found : calls i with
  | none => simp [roles, found]
  | some call => cases call <;> simp [roles, found, role]

theorem stops_iff {proc : Option Nat} :
    roles calls i = some (.stops proc) ↔ ∃ startedSince, calls i = some (.stopping proc startedSince) := by
  cases found : calls i with
  | none => simp [roles, found]
  | some call => cases call <;> simp [roles, found, role]

theorem roles_put_idle (idle : role call = none) (was : roles calls i = none) :
    roles (calls.put i call) = roles calls := by
  rw [roles_put, idle, ← was, Function.update_eq_self]

theorem roles_drop_idle (was : roles calls i = none) : roles (calls.drop i) = roles calls := by
  rw [roles_drop, ← was, Function.update_eq_self]

def Numbered (s : Runner.State) : Prop := ∀ i, s.nextCall ≤ i → s.calls i = none

section
variable {driver : Driver} {s t : Runner.State} {i : Nat} {call : Call}

theorem Numbered.lt (h : Numbered s) (found : s.calls i = some call) : i < s.nextCall := by
  by_contra beyond
  rw [h i (Nat.le_of_not_lt beyond)] at found
  cases found

theorem Numbered.frame (h : Numbered s) (calls : t.calls = s.calls) (next : t.nextCall = s.nextCall) : Numbered t := by
  unfold Numbered
  rwa [calls, next]

theorem Numbered.begin (h : Numbered s) (call : Call) : Numbered (s.beginCall call) := by
  intro i beyond
  have other : i ≠ s.nextCall := Nat.ne_of_gt beyond
  exact (Calls.put_of_ne s.calls call other).trans (h i (Nat.le_of_succ_le beyond))

theorem Numbered.put (h : Numbered s) (known : i < s.nextCall) (call : Call) : Numbered (s.putCall i call) := by
  intro j beyond
  have other : j ≠ i := Nat.ne_of_gt (Nat.lt_of_lt_of_le known beyond)
  exact (Calls.put_of_ne s.calls call other).trans (h j beyond)

theorem Numbered.drop (h : Numbered s) (i : Nat) : Numbered (s.dropCall i) := by
  intro j beyond
  by_cases same : j = i
  · subst same
    exact Calls.drop_self ..
  · exact (Calls.drop_of_ne s.calls same).trans (h j beyond)

theorem Numbered.startCalled (h : Numbered s) : Numbered (Runner.startCalled s) := by
  intro i beyond
  change (s.calls i).map Call.noteStart = none
  rw [h i beyond, Option.map_none]

/-- `startRunner` returns at once, at the behest of a command or not. -/
def returned (s : Runner.State) (sends : Bool) : Runner.State := if sends then s.beginCall .delivering else s

/-- The three ways of `startRunner` up to its first await. -/
theorem startRunner_cases (s : Runner.State) (now : Nat) (sends : Bool) :
    (s.proc ≠ none ∧ startRunner s now sends = returned s sends) ∨
    (s.proc = none ∧ ¬Passes s now ∧ startRunner s now sends = deferRunnerStart (returned s sends)) ∨
    (Passes s now ∧ startRunner s now sends =
      { s.beginCall (.starting sends) with lastSpawnAt := now, startCount := s.startCount + 1 }) := by
  unfold startRunner Passes
  by_cases present : s.proc = none
  · have absent : ¬s.proc.isSome = true := by simp [present]
    by_cases early : now - s.lastSpawnAt < runnerRespawnDebounceMs ∧ 0 < s.startCount
    · refine .inr (.inl ⟨present, fun passes => passes.2 early, ?_⟩)
      rw [if_neg absent, if_pos early]
      rfl
    · refine .inr (.inr ⟨⟨present, early⟩, ?_⟩)
      rw [if_neg absent, if_neg early]
  · refine .inl ⟨present, ?_⟩
    rw [if_pos (Option.isSome_iff_ne_none.mpr present)]
    rfl

theorem Numbered.returned (h : Numbered s) (sends : Bool) : Numbered (Watchdog.returned s sends) := by
  unfold Watchdog.returned
  split_ifs
  · exact h.begin _
  · exact h

theorem Numbered.startRunner (h : Numbered s) (now : Nat) (sends : Bool) :
    Numbered (Runner.startRunner s now sends) := by
  obtain ⟨_, same⟩ | ⟨_, _, same⟩ | ⟨_, same⟩ := startRunner_cases s now sends
  · rw [same]
    exact h.returned sends
  · rw [same]
    exact (h.returned sends).frame rfl rfl
  · rw [same]
    exact (h.begin (.starting sends)).frame rfl rfl

/-- What `deliver`, `finishResume` and the events of a child leave alone. -/
structure Alike (s t : Runner.State) : Prop where
  calls : t.calls = s.calls
  nextCall : t.nextCall = s.nextCall
  proc : t.proc = s.proc ∨ t.proc = none
  startTimer : t.startTimer = s.startTimer
  nextChild : t.nextChild = s.nextChild
  registered : t.registered = s.registered

theorem Alike.refl (s : Runner.State) : Alike s s := ⟨rfl, rfl, .inl rfl, rfl, rfl, rfl⟩

theorem alike_deliver (s : Runner.State) : Alike s (deliver s) := by
  unfold deliver
  cases s.proc with
  | none => exact .refl s
  | some c =>
    dsimp only
    split_ifs
    · exact ⟨rfl, rfl, .inl rfl, rfl, rfl, rfl⟩
    · exact ⟨rfl, rfl, .inl rfl, rfl, rfl, rfl⟩
    · exact .refl s

theorem alike_finishResume (s : Runner.State) : Alike s (finishResume s) := by
  cases resumeId : s.resumeId with
  | none =>
    rw [finishResume_none resumeId]
    exact .refl s
  | some request =>
    cases proc : s.proc with
    | none =>
      rw [finishResume_idle resumeId proc]
      exact ⟨rfl, rfl, .inl rfl, rfl, rfl, rfl⟩
    | some c =>
      rw [finishResume_present resumeId proc]
      exact ⟨rfl, rfl, .inl rfl, rfl, rfl, rfl⟩

theorem alike_onExit (s : Runner.State) (c : Nat) (child : Child) : Alike s (onExit s c child) := by
  unfold onExit
  split_ifs
  · exact ⟨rfl, rfl, .inr rfl, rfl, rfl, rfl⟩
  · exact .refl s

theorem alike_onError (s : Runner.State) (c : Nat) : Alike s (onError s c) := by
  refine ⟨rfl, rfl, ?_, rfl, rfl, rfl⟩
  unfold onError
  split_ifs
  · exact .inr rfl
  · exact .inl rfl

theorem alike_onAnswer (s : Runner.State) (c request : Nat) : Alike s (onAnswer s c request) := by
  unfold onAnswer
  split_ifs
  · exact alike_finishResume s
  · exact .refl s

theorem alike_resumeTimeout (s : Runner.State) : Alike s (finishResume { s with resumeTimer := false }) :=
  have same := alike_finishResume { s with resumeTimer := false }
  ⟨same.calls, same.nextCall, same.proc, same.startTimer, same.nextChild, same.registered⟩

theorem alike_requestHealth (s : Runner.State) (now : Nat) : Alike s (requestHealth s now) := by
  have same := alike_deliver { s with srvSeq := s.srvSeq + 1 }
  unfold requestHealth sendToRunner
  rw [Bool.and_false, if_neg Bool.false_ne_true]
  exact ⟨same.calls, same.nextCall, same.proc, same.startTimer, same.nextChild, same.registered⟩

def ofChild : Runner.Action → Bool
  | .die _ | .exit _ | .error _ | .answer _ | .resumeTimeout => true
  | .start _ | .send _ _ | .stop | .resolve _ _ | .reject _ | .startTimeout _ | .unregister => false

variable {a : Runner.Action}

theorem alike_ofChild (own : ofChild a = true) (taken : Runner.step driver s a = some t) : Alike s t := by
  cases a with
  | die c =>
    obtain ⟨_, same⟩ := Option.ite_none_right_eq_some.mp taken
    cases same
    exact ⟨rfl, rfl, .inl rfl, rfl, rfl, rfl⟩
  | exit c =>
    unfold Runner.step at taken
    cases found : s.children c with
    | none => simp [found] at taken
    | some child =>
      obtain ⟨_, rfl⟩ : child.alive = false ∧ onExit s c child = t := by simpa [found] using taken
      exact alike_onExit s c child
  | error c =>
    unfold Runner.step at taken
    cases found : s.children c with
    | none => simp [found] at taken
    | some child =>
      obtain ⟨_, rfl⟩ : child.alive = false ∧ onError s c = t := by simpa [found] using taken
      exact alike_onError s c
  | answer c =>
    unfold Runner.step at taken
    cases found : (s.children c).bind Child.startup with
    | none => simp [found] at taken
    | some request =>
      obtain rfl : onAnswer s c request = t := by simpa [found] using taken
      exact alike_onAnswer s c request
  | resumeTimeout =>
    obtain ⟨_, same⟩ := Option.ite_none_right_eq_some.mp taken
    cases same
    exact alike_resumeTimeout s
  | start | send | stop | resolve | reject | startTimeout | unregister => cases own

theorem Numbered.alike (h : Numbered s) (same : Alike s t) : Numbered t := h.frame same.calls same.nextCall

theorem Numbered.returnStart (h : Numbered s) (known : i < s.nextCall) (sends : Bool) :
    Numbered (Runner.returnStart s i sends) := by
  unfold Runner.returnStart
  split_ifs
  · exact h.put known _
  · exact h.drop i

theorem Numbered.resume (h : Numbered s) (found : s.calls i = some call) (launches : Bool) :
    Numbered (Runner.resume driver s i launches call) := by
  have known := h.lt found
  cases call with
  | starting sends =>
    change Numbered (launch s i sends launches)
    unfold launch
    split_ifs
    · exact (h.put known (.launched s.nextChild sends)).frame rfl rfl
    · exact h.put known _
  | launchFailing sends => exact h.returnStart known sends
  | launched c sends =>
    change Numbered (startup driver s i c sends)
    unfold startup
    split_ifs
    · exact h.returnStart known sends
    · have sent : Numbered (sendStartup driver s c) := h.frame rfl rfl
      exact sent.returnStart known sends
  | delivering => exact (h.drop i).alike (alike_deliver _)
  | stopping proc startedSince =>
    cases proc with
    | none => exact (h.put known (.flushing startedSince)).frame rfl rfl
    | some c => exact (h.put known (.flushing startedSince)).frame rfl rfl
  | flushing startedSince => exact (h.drop i).frame rfl rfl

theorem Numbered.onStartTimer (h : Numbered s) (now : Nat) : Numbered (Runner.onStartTimer s now) := by
  have fired : Numbered { s with startTimer := false } := h.frame rfl rfl
  unfold Runner.onStartTimer
  split_ifs
  · exact fired.startRunner now false
  · exact fired

theorem Numbered.sendToRunner (h : Numbered s) (now : Nat) (autostart : Bool) :
    Numbered (Runner.sendToRunner s now autostart) := by
  unfold Runner.sendToRunner
  split_ifs
  · exact h.startCalled.startRunner now true
  · exact h.alike (alike_deliver s)

theorem numbered_step (h : Numbered s) (taken : Runner.step driver s a = some t) : Numbered t := by
  cases a with
  | start now =>
    cases taken
    exact h.startCalled.startRunner now false
  | send now autostart =>
    cases taken
    exact h.sendToRunner now autostart
  | stop =>
    cases taken
    exact h.begin _
  | resolve i launches =>
    obtain ⟨call, found, rfl⟩ := Option.map_eq_some_iff.mp taken
    exact h.resume found launches
  | reject i =>
    unfold Runner.step at taken
    dsimp only at taken
    split at taken
    · cases taken
    · cases taken
    · cases taken
      exact h.drop i
  | startTimeout now =>
    obtain ⟨_, same⟩ := Option.ite_none_right_eq_some.mp taken
    cases same
    exact h.onStartTimer now
  | unregister =>
    cases taken
    exact h.frame rfl rfl
  | die | exit | error | answer | resumeTimeout => exact h.alike (alike_ofChild rfl taken)

end
end Watchdog
