import Oyster.Runner

/-! One process for each runner, and stop wins: at most one child is alive that
has not been told to stop, and after a stop nothing runs until somebody starts the
runner again. The deferred start is part of the start that asked for it. -/
namespace Runner
open Interleaving

/-- A stop that has completed is final until `startRunner` is called again, and
no two children of the runner run at the same time. -/
structure StopWins (s : State) : Prop where
  one : ∀ c d child other, s.children c = some child → s.children d = some other →
    child.alive = true → child.toldToStop = false → other.alive = true →
    other.toldToStop = false → c = d
  stopped : s.stopped = true → s.proc = none
  late : s.lateSpawn = false

/-- No start waits for its first update. -/
def Clear (s : State) : Prop := ∀ i sends, s.calls i ≠ some (.starting sends)

/-- `startRunner` would go on to its first update. -/
def Passes (s : State) (now : Nat) : Prop :=
  s.proc = none ∧ ¬(now - s.lastSpawnAt < runnerRespawnDebounceMs ∧ 0 < s.startCount)

/-- The condition under which stop wins: while a start waits for its first update
no other start passes the check and no stop is called; the deferred start does not
pass while a stop waits for its update; and a stop that comes back from its update
finds the process that it read before, or none. -/
def Stopping (s : State) : Action → Prop
  | .start now => Passes s now → Clear s
  | .send now autostart => autostart = true → Passes s now → Clear s
  | .startTimeout now => s.registered = true → Passes s now →
      Clear s ∧ ∀ i proc, s.calls i ≠ some (.stopping proc false)
  | .stop => Clear s
  | .resolve i _ => ∀ c startedSince, s.calls i = some (.stopping (some c) startedSince) →
      s.proc = none ∨ s.proc = some c
  | _ => True

/-- Nothing runs and nothing is about to start. -/
structure Quiet (s : State) : Prop where
  clear : Clear s
  proc : s.proc = none
  timer : s.startTimer = false

structure StopInv (s : State) : Prop where
  one : ∀ i j sends sends', s.calls i = some (.starting sends) → s.calls j = some (.starting sends') → i = j
  idle : ∀ i sends, s.calls i = some (.starting sends) → s.proc = none
  alone : ∀ c child, s.children c = some child → child.alive = true → child.toldToStop = false → s.proc = some c
  stopping : ∀ i proc, s.calls i = some (.stopping proc false) → Clear s ∧ (s.proc = none ∨ s.proc = proc)
  flushing : ∀ i, s.calls i = some (.flushing false) → Quiet s
  stopped : s.stopped = true → Quiet s
  late : s.lateSpawn = false

def Call.matters : Call → Bool
  | .starting _ | .stopping _ _ | .flushing _ => true
  | .launchFailing _ | .launched _ _ | .delivering => false

section Frames
variable {s t : State}

/-- No stop has spoken for the present. -/
def Calm (s : State) : Prop := s.stopped = false ∧ ∀ i, s.calls i ≠ some (.flushing false)

/-- The live children of `t` were live children of `s`. -/
def Survivors (s t : State) : Prop :=
  ∀ c child, t.children c = some child → child.alive = true → child.toldToStop = false →
    ∃ before, s.children c = some before ∧ before.alive = true ∧ before.toldToStop = false

theorem Survivors.same (h : t.children = s.children) : Survivors s t := by
  intro c child found alive untold
  exact ⟨child, h ▸ found, alive, untold⟩

theorem Survivors.modify {c : Nat} {f : Child → Child} (h : t.children = s.children.modify c f)
    (alive : ∀ child, (f child).alive = true → child.alive = true)
    (untold : ∀ child, (f child).toldToStop = child.toldToStop) : Survivors s t := by
  intro d child found isAlive isUntold
  rw [h] at found
  rcases Calls.modify_eq_some found with ⟨rfl, before, old, rfl⟩ | ⟨_, old⟩
  · exact ⟨before, old, alive before isAlive, (untold before).symm.trans isUntold⟩
  · exact ⟨child, old, isAlive, isUntold⟩

theorem StopInv.frame (h : StopInv s) (survivors : Survivors s t)
    (proc : t.proc = s.proc ∨ t.proc = none ∧ ∀ c child, s.proc = some c →
      s.children c = some child → child.alive = true → child.toldToStop = true)
    (timer : Calm s ∨ t.startTimer = s.startTimer ∨ t.startTimer = false)
    (stopped : t.stopped = s.stopped) (late : t.lateSpawn = s.lateSpawn)
    (kept : ∀ i call, t.calls i = some call → call.matters = true → s.calls i = some call) :
    StopInv t := by
  have gone : s.proc = none → t.proc = none := by
    intro none
    rcases proc with same | ⟨gone, _⟩
    · exact same.trans none
    · exact gone
  have clear : Clear s → Clear t := fun clear i sends call => clear i sends (kept i _ call rfl)
  have quiet : ¬Calm s → Quiet s → Quiet t := by
    intro busy quiet
    refine ⟨clear quiet.clear, gone quiet.proc, ?_⟩
    rcases timer with calm | same | off
    · exact absurd calm busy
    · exact same.trans quiet.timer
    · exact off
  refine ⟨?_, ?_, ?_, ?_, ?_, ?_, late.trans h.late⟩
  · exact fun i j sends sends' hi hj => h.one i j sends sends' (kept i _ hi rfl) (kept j _ hj rfl)
  · exact fun i sends hi => gone (h.idle i sends (kept i _ hi rfl))
  · intro c child found alive untold
    obtain ⟨before, old, wasAlive, wasUntold⟩ := survivors c child found alive untold
    have present := h.alone c before old wasAlive wasUntold
    rcases proc with same | ⟨_, dead⟩
    · exact same.trans present
    · have told := dead c before present old wasAlive
      rw [wasUntold] at told
      cases told
  · intro i captured call
    obtain ⟨isClear, captures⟩ := h.stopping i captured (kept i _ call rfl)
    refine ⟨clear isClear, ?_⟩
    rcases proc with same | ⟨none, _⟩
    · rwa [same]
    · exact .inl none
  · intro i call
    have old := kept i _ call rfl
    exact quiet (fun calm => calm.2 i old) (h.flushing i old)
  · intro isStopped
    rw [stopped] at isStopped
    refine quiet (fun calm => ?_) (h.stopped isStopped)
    exact absurd (calm.1.symm.trans isStopped) (by decide)

variable {calls : Calls Call}

theorem kept_put {i : Nat} {call : Call} (idle : call.matters = false) :
    ∀ j other, calls.put i call j = some other → other.matters = true → calls j = some other := by
  intro j other found matters
  rcases Calls.put_eq_some found with ⟨_, rfl⟩ | ⟨_, old⟩
  · rw [idle] at matters
    cases matters
  · exact old

theorem kept_drop {i : Nat} : ∀ j other, calls.drop i j = some other → other.matters = true → calls j = some other :=
  fun _ _ found _ => (Calls.drop_eq_some found).2

end Frames

variable {s : State} {i : Nat} {call : Call}

/-- After somebody calls `startRunner` no stop speaks for the present any more. -/
theorem startCalled_calls (h : (startCalled s).calls i = some call) :
    s.calls i = some call ∨ (∃ proc, call = .stopping proc true) ∨ call = .flushing true := by
  obtain ⟨old, found, rfl⟩ := Calls.mapAll_eq_some h
  cases old with
  | stopping proc _ => exact .inr (.inl ⟨proc, rfl⟩)
  | flushing _ => exact .inr (.inr rfl)
  | starting _ | launchFailing _ | launched _ _ | delivering => exact .inl found

theorem startCalled_not_stopping (s : State) (i : Nat) (proc : Option Nat) :
    (startCalled s).calls i ≠ some (.stopping proc false) := by
  intro found
  obtain ⟨old, _, same⟩ := Calls.mapAll_eq_some found
  cases old <;> cases same

theorem startCalled_calm (s : State) : Calm (startCalled s) := by
  refine ⟨rfl, fun i found => ?_⟩
  obtain ⟨old, _, same⟩ := Calls.mapAll_eq_some found
  cases old <;> cases same

theorem startCalled_clear (h : Clear s) : Clear (startCalled s) := by
  intro i sends found
  rcases startCalled_calls found with old | ⟨_, absurd⟩ | absurd
  · exact h i sends old
  · cases absurd
  · cases absurd

theorem StopInv.startCalled (h : StopInv s) : StopInv (startCalled s) := by
  have starting : ∀ i sends, (Runner.startCalled s).calls i = some (.starting sends) →
      s.calls i = some (.starting sends) := by
    intro i sends found
    rcases startCalled_calls found with old | ⟨_, absurd⟩ | absurd
    · exact old
    · cases absurd
    · cases absurd
  refine ⟨?_, ?_, h.alone, ?_, ?_, (fun absurd => nomatch absurd), h.late⟩
  · exact fun i j sends sends' hi hj =>
      h.one i j sends sends' (starting i sends hi) (starting j sends' hj)
  · exact fun i sends hi => h.idle i sends (starting i sends hi)
  · exact fun i proc found => absurd found (startCalled_not_stopping s i proc)
  · exact fun i found => absurd found ((startCalled_calm s).2 i)

theorem StopInv.startRunner (h : StopInv s) (now : Nat) (sends : Bool) (calm : Calm s)
    (passes : Passes s now → Clear s ∧ ∀ i proc, s.calls i ≠ some (.stopping proc false)) :
    StopInv (startRunner s now sends) := by
  have kept : ∀ i call, (if sends then s.beginCall .delivering else s).calls i = some call →
      call.matters = true → s.calls i = some call := by
    split_ifs
    · exact kept_put rfl
    · exact fun _ _ found _ => found
  have same : (if sends then s.beginCall .delivering else s) = { s with
        calls := (if sends then s.beginCall .delivering else s).calls
        nextCall := (if sends then s.beginCall .delivering else s).nextCall } := by
    split_ifs <;> rfl
  unfold Runner.startRunner
  generalize (if sends = true then s.beginCall .delivering else s) = other at kept same ⊢
  rw [same]
  split_ifs with present deferred
  · exact h.frame (.same rfl) (.inl rfl) (.inl calm) rfl rfl kept
  · exact h.frame (.same rfl) (.inl rfl) (.inl calm) rfl rfl kept
  · have none : s.proc = none := by simpa using present
    obtain ⟨clear, unstopped⟩ := passes ⟨none, deferred⟩
    have starting : ∀ i sends', s.calls.put s.nextCall (.starting sends) i = some (.starting sends') →
        i = s.nextCall := by
      intro i sends' found
      rcases Calls.put_eq_some found with ⟨same, _⟩ | ⟨_, old⟩
      · exact same
      · exact absurd old (clear i sends')
    refine ⟨?_, fun _ _ _ => none, h.alone, ?_, ?_, ?_, h.late⟩
    · exact fun i j sends₁ sends₂ hi hj => (starting i sends₁ hi).trans (starting j sends₂ hj).symm
    · intro i proc found
      rcases Calls.put_eq_some found with ⟨_, absurd⟩ | ⟨_, old⟩
      · cases absurd
      · exact absurd old (unstopped i proc)
    · intro i found
      rcases Calls.put_eq_some found with ⟨_, absurd⟩ | ⟨_, old⟩
      · cases absurd
      · exact absurd old (calm.2 i)
    · intro stopped
      exact absurd (calm.1.symm.trans stopped) (by decide)

theorem StopInv.launch (h : StopInv s) {sends : Bool} (launches : Bool) (calling : s.calls i = some (.starting sends)) :
    StopInv (launch s i sends launches) := by
  unfold Runner.launch
  split_ifs
  · have none := h.idle i sends calling
    have unstopped : s.stopped = false := by
      by_contra stopped
      exact (h.stopped (by simpa using stopped)).clear i sends calling
    have kept := @kept_put s.calls i (.launched s.nextChild sends) rfl
    have clear : ∀ j sends', s.calls.put i (.launched s.nextChild sends) j ≠ some (.starting sends') := by
      intro j sends' found
      rcases Calls.put_eq_some found with ⟨_, absurd⟩ | ⟨other, old⟩
      · cases absurd
      · exact other (h.one j i sends' sends old calling)
    refine ⟨?_, ?_, ?_, ?_, ?_, ?_, ?_⟩
    · exact fun j k sends₁ sends₂ hj _ => absurd hj (clear j sends₁)
    · exact fun j sends' hj => absurd hj (clear j sends')
    · intro c child found alive untold
      rcases Calls.put_eq_some found with ⟨rfl, _⟩ | ⟨_, old⟩
      · rfl
      · rw [h.alone c child old alive untold] at none
        cases none
    · intro j proc found
      exact absurd calling ((h.stopping j proc (kept j _ found rfl)).1 i sends)
    · intro j found
      exact absurd calling ((h.flushing j (kept j _ found rfl)).clear i sends)
    · intro stopped
      exact absurd (unstopped.symm.trans stopped) (by decide)
    · simp only [h.late, unstopped, Bool.or_self]
  · exact h.frame (.same rfl) (.inl rfl) (.inr (.inl rfl)) rfl rfl (kept_put rfl)

variable {startedSince : Bool}

theorem StopInv.toFlushing {t : State} (h : StopInv s) (calls : t.calls = s.calls.put i (.flushing startedSince))
    (timer : t.startTimer = false) (proc : t.proc = s.proc ∨ t.proc = none)
    (alone : ∀ c child, t.children c = some child → child.alive = true →
      child.toldToStop = false → t.proc = some c) (stopped : t.stopped = s.stopped) (late : t.lateSpawn = s.lateSpawn)
    (ended : startedSince = false → Clear s ∧ t.proc = none) : StopInv t := by
  have old : ∀ j call, t.calls j = some call → call = .flushing startedSince ∨ s.calls j = some call := by
    intro j call found
    rw [calls] at found
    rcases Calls.put_eq_some found with ⟨_, same⟩ | ⟨_, old⟩
    · exact .inl same
    · exact .inr old
  have starting : ∀ j sends, t.calls j = some (.starting sends) → s.calls j = some (.starting sends) :=
    fun j sends found => (old j _ found).resolve_left fun absurd => nomatch absurd
  have clear : Clear s → Clear t := fun clear j sends found => clear j sends (starting j sends found)
  have gone : s.proc = none → t.proc = none := by
    intro none
    rcases proc with same | gone
    · exact same.trans none
    · exact gone
  have quiet : Quiet s → Quiet t := fun quiet => ⟨clear quiet.clear, gone quiet.proc, timer⟩
  refine ⟨?_, ?_, alone, ?_, ?_, fun isStopped => quiet (h.stopped (stopped ▸ isStopped)), late.trans h.late⟩
  · exact fun j k sends sends' hj hk =>
      h.one j k sends sends' (starting j sends hj) (starting k sends' hk)
  · exact fun j sends hj => gone (h.idle j sends (starting j sends hj))
  · intro j captured found
    obtain ⟨isClear, captures⟩ := h.stopping j captured ((old j _ found).resolve_left fun absurd => nomatch absurd)
    refine ⟨clear isClear, ?_⟩
    rcases proc with same | none
    · rwa [same]
    · exact .inl none
  · intro j found
    rcases old j _ found with same | earlier
    · obtain ⟨isClear, none⟩ := ended (Call.flushing.inj same).symm
      exact ⟨clear isClear, none, timer⟩
    · exact quiet (h.flushing j earlier)

theorem StopInv.stopProcess (h : StopInv s) {proc : Option Nat}
    (calling : s.calls i = some (.stopping proc startedSince))
    (permitted : ∀ c, proc = some c → s.proc = none ∨ s.proc = some c) :
    StopInv (stopProcess s i proc startedSince) := by
  cases proc with
  | none =>
    refine h.toFlushing rfl rfl (.inl rfl) h.alone rfl rfl ?_
    rintro rfl
    obtain ⟨clear, read⟩ := h.stopping i none calling
    exact ⟨clear, read.elim id id⟩
  | some c =>
    refine h.toFlushing rfl rfl (.inr rfl) ?_ rfl rfl ?_
    · intro d child found alive untold
      rcases Calls.modify_eq_some found with ⟨rfl, before, _, rfl⟩ | ⟨other, old⟩
      · cases untold
      · have present := h.alone d child old alive untold
        rcases permitted c rfl with none | same
        · rw [none] at present
          cases present
        · exact absurd (Option.some.inj (present.symm.trans same)) other
    · rintro rfl
      exact ⟨(h.stopping i (some c) calling).1, rfl⟩

theorem StopInv.stopReturned (h : StopInv s) (calling : s.calls i = some (.flushing startedSince)) :
    StopInv (stopReturned s i startedSince) := by
  have dropped : StopInv (s.dropCall i) :=
    h.frame (.same rfl) (.inl rfl) (.inr (.inl rfl)) rfl rfl kept_drop
  have quiet : Quiet s → Quiet (Runner.stopReturned s i startedSince) := fun quiet =>
    ⟨fun j sends found => quiet.clear j sends (Calls.drop_eq_some found).2, quiet.proc, quiet.timer⟩
  refine ⟨dropped.one, dropped.idle, dropped.alone, dropped.stopping, ?_, ?_, h.late⟩
  · exact fun j found => quiet (h.flushing j (Calls.drop_eq_some found).2)
  · intro stopped
    cases startedSince with
    | true =>
      have before : s.stopped = true := by simpa [Runner.stopReturned] using stopped
      exact quiet (h.stopped before)
    | false => exact quiet (h.flushing i calling)

theorem StopInv.stop (h : StopInv s) (clear : Clear s) : StopInv (s.beginCall (.stopping s.proc false)) := by
  have old : ∀ j call, s.calls.put s.nextCall (.stopping s.proc false) j = some call →
      call = .stopping s.proc false ∨ s.calls j = some call := by
    intro j call found
    rcases Calls.put_eq_some found with ⟨_, same⟩ | ⟨_, old⟩
    · exact .inl same
    · exact .inr old
  have still : Clear (s.beginCall (.stopping s.proc false)) := fun j sends found =>
    clear j sends ((old j _ found).resolve_left fun absurd => nomatch absurd)
  refine ⟨?_, ?_, h.alone, ?_, ?_, ?_, h.late⟩
  · exact fun j _ sends _ hj _ => absurd hj (still j sends)
  · exact fun j sends hj => absurd hj (still j sends)
  · intro j captured found
    refine ⟨still, ?_⟩
    rcases old j _ found with same | earlier
    · exact .inr (Call.stopping.inj same).1.symm
    · exact (h.stopping j captured earlier).2
  · intro j found
    have quiet := h.flushing j ((old j _ found).resolve_left fun absurd => nomatch absurd)
    exact ⟨still, quiet.proc, quiet.timer⟩
  · intro stopped
    have quiet := h.stopped stopped
    exact ⟨still, quiet.proc, quiet.timer⟩

theorem StopInv.deliver (h : StopInv s) : StopInv (deliver s) := by
  unfold Runner.deliver
  split
  · exact h
  · split_ifs
    · exact h.frame (.modify rfl (fun child alive => by simpa using alive) (fun child => by simp))
        (.inl rfl) (.inr (.inl rfl)) rfl rfl fun _ _ found _ => found
    · exact h.frame (.modify rfl (fun child alive => by simpa [Child.write] using alive)
        (fun child => by simp [Child.write])) (.inl rfl) (.inr (.inl rfl)) rfl rfl
        fun _ _ found _ => found
    · exact h

theorem Child.flush_lives (ks : List Nat) (resumeId : Option Nat) (child : Child) :
    (child.flush ks resumeId).alive = child.alive ∧ (child.flush ks resumeId).toldToStop = child.toldToStop := by
  unfold Child.flush
  split_ifs
  · exact ⟨rfl, rfl⟩
  · exact ⟨rfl, rfl⟩

theorem StopInv.finishResume (h : StopInv s) : StopInv (finishResume s) := by
  obtain hresume | ⟨request, hresume⟩ := Option.eq_none_or_eq_some s.resumeId
  · rw [finishResume_none hresume]
    exact h
  · obtain hproc | ⟨c, hproc⟩ := Option.eq_none_or_eq_some s.proc
    · rw [finishResume_idle hresume hproc]
      exact h.frame (.same rfl) (.inl rfl) (.inr (.inl rfl)) rfl rfl fun _ _ found _ => found
    · rw [finishResume_present hresume hproc]
      refine h.frame (.modify rfl ?_ ?_) (.inl rfl) (.inr (.inl rfl)) rfl rfl fun _ _ found _ => found
      · intro child alive
        rwa [(Child.flush_lives _ _ child).1] at alive
      · exact fun child => (Child.flush_lives _ _ child).2

theorem StopInv.returnStart (h : StopInv s) (i : Nat) (sends : Bool) : StopInv (returnStart s i sends) := by
  obtain ⟨calls, same, kept⟩ := returnStart_eq s i sends
  rw [same]
  refine h.frame (.same rfl) (.inl rfl) (.inr (.inl rfl)) rfl rfl fun j call found matters => ?_
  refine (kept j call found ?_).2
  rintro rfl
  cases matters

variable {driver : Driver}

theorem StopInv.startup (h : StopInv s) (i c : Nat) (sends : Bool) : StopInv (startup driver s i c sends) := by
  unfold Runner.startup
  split_ifs
  · exact h.returnStart i sends
  · have sent : StopInv (sendStartup driver s c) :=
      h.frame (.modify rfl (fun _ => id) fun _ => rfl) (.inl rfl) (.inr (.inl rfl)) rfl rfl fun _ _ found _ => found
    exact sent.returnStart i sends

theorem StopInv.resume (h : StopInv s) (launches : Bool) (calling : s.calls i = some call)
    (permitted : ∀ c startedSince, call = .stopping (some c) startedSince →
      s.proc = none ∨ s.proc = some c) : StopInv (resume driver s i launches call) := by
  cases call with
  | starting sends => exact h.launch launches calling
  | launchFailing sends => exact h.returnStart i sends
  | launched c sends => exact h.startup i c sends
  | delivering =>
    have dropped : StopInv (s.dropCall i) :=
      h.frame (.same rfl) (.inl rfl) (.inr (.inl rfl)) rfl rfl kept_drop
    exact dropped.deliver
  | stopping proc startedSince =>
    refine h.stopProcess calling fun c same => permitted c startedSince ?_
    rw [same]
  | flushing startedSince => exact h.stopReturned calling

theorem Passes.of_startCalled {now : Nat} (h : Passes (startCalled s) now) : Passes s now := h

/-- A call of `startRunner` from outside. -/
theorem StopInv.startCalledRunner (h : StopInv s) (now : Nat) (sends : Bool) (permitted : Passes s now → Clear s) :
    StopInv (Runner.startRunner (Runner.startCalled s) now sends) :=
  h.startCalled.startRunner now sends (startCalled_calm s) fun passes =>
    ⟨startCalled_clear (permitted passes.of_startCalled), startCalled_not_stopping s⟩

theorem stop_step (driver : Driver) (s : State) (a : Action) (t : State) (h : StopInv s)
    (permitted : Stopping s a) (hstep : step driver s a = some t) : StopInv t := by
  cases a with
  | start now =>
    cases hstep
    exact h.startCalledRunner now false permitted
  | send now autostart =>
    cases hstep
    unfold sendToRunner
    split_ifs with starts
    · refine h.startCalledRunner now true (permitted ?_)
      simp only [Bool.and_eq_true] at starts
      exact starts.2
    · exact h.deliver
  | stop =>
    cases hstep
    exact h.stop permitted
  | resolve i launches =>
    obtain ⟨call, calling, rfl⟩ := Option.map_eq_some_iff.mp hstep
    refine h.resume launches calling ?_
    rintro c startedSince rfl
    exact permitted c startedSince calling
  | reject i =>
    simp only [step] at hstep
    split at hstep
    · cases hstep
    · cases hstep
    · cases hstep
      exact h.frame (.same rfl) (.inl rfl) (.inr (.inl rfl)) rfl rfl kept_drop
  | die c =>
    simp only [step] at hstep
    split_ifs at hstep
    cases hstep
    exact h.frame (.modify rfl (fun _ absurd => nomatch absurd) fun _ => rfl) (.inl rfl)
      (.inr (.inl rfl)) rfl rfl fun _ _ found _ => found
  | exit c =>
    simp only [step] at hstep
    split at hstep
    · rename_i child found
      split_ifs at hstep with alive
      cases hstep
      unfold onExit
      split_ifs with own
      · refine h.frame (.same rfl) (.inr ⟨rfl, ?_⟩) (.inr (.inl rfl)) rfl rfl fun _ _ found _ => found
        intro d other proc hother live
        cases own.2.symm.trans proc
        cases found.symm.trans hother
        exact absurd live alive
      · exact h
    · cases hstep
  | error c =>
    simp only [step] at hstep
    split at hstep
    · rename_i child found
      split_ifs at hstep with alive
      cases hstep
      refine h.frame (.modify rfl (fun _ => id) fun _ => rfl) ?_ (.inr (.inl rfl)) rfl rfl fun _ _ found _ => found
      by_cases own : s.proc = some c
      · refine .inr ⟨if_pos own, ?_⟩
        intro d other proc hother live
        cases own.symm.trans proc
        cases found.symm.trans hother
        exact absurd live alive
      · exact .inl (if_neg own)
    · cases hstep
  | answer c =>
    simp only [step] at hstep
    split at hstep
    · cases hstep
      unfold onAnswer
      split_ifs
      · exact h.finishResume
      · exact h
    · cases hstep
  | resumeTimeout =>
    simp only [step] at hstep
    split_ifs at hstep
    cases hstep
    have fired : StopInv { s with resumeTimer := false } :=
      h.frame (.same rfl) (.inl rfl) (.inr (.inl rfl)) rfl rfl fun _ _ found _ => found
    exact fired.finishResume
  | startTimeout now =>
    simp only [step] at hstep
    split_ifs at hstep with armed
    cases hstep
    have calm : Calm s := by
      constructor
      · by_contra stopped
        have off := (h.stopped (by simpa using stopped)).timer
        rw [armed] at off
        cases off
      · intro i found
        have off := (h.flushing i found).timer
        rw [armed] at off
        cases off
    have fired : StopInv { s with startTimer := false } :=
      h.frame (.same rfl) (.inl rfl) (.inr (.inr rfl)) rfl rfl fun _ _ found _ => found
    unfold onStartTimer
    split_ifs with due
    · exact fired.startRunner now false calm fun passes => permitted due.2 passes
    · exact fired
  | unregister =>
    cases hstep
    exact h.frame (.same rfl) (.inl rfl) (.inr (.inl rfl)) rfl rfl fun _ _ found _ => found

theorem stop_wins (driver : Driver) (actions : List Action) (s : State)
    (run : Run (step driver) Stopping {} actions s) : StopWins s := by
  have inv : StopInv s := run.invariant (stop_step driver)
    ⟨(fun _ _ _ _ absurd => nomatch absurd), (fun _ _ absurd => nomatch absurd),
      (fun _ _ absurd => nomatch absurd), (fun _ _ absurd => nomatch absurd),
      (fun _ absurd => nomatch absurd), (fun absurd => nomatch absurd), rfl⟩
  refine ⟨?_, fun stopped => (inv.stopped stopped).proc, inv.late⟩
  intro c d child other hc hd aliveC untoldC aliveD untoldD
  have first := inv.alone c child hc aliveC untoldC
  have second := inv.alone d other hd aliveD untoldD
  exact Option.some.inj (first.symm.trans second)

/-- A start, its stop, and a start again. -/
theorem stop_wins_restart : ∃ s, Run (step ⟨false⟩) Stopping {} [.start 5000, .resolve 0 true, .resolve 0 true, .stop,
        .resolve 1 true, .resolve 1 true, .start 9000, .resolve 2 true] s ∧
      s.proc = some 1 ∧ StopWins s := by
  have run : ∃ s, Run (step ⟨false⟩) Stopping {} [.start 5000, .resolve 0 true, .resolve 0 true,
      .stop, .resolve 1 true, .resolve 1 true, .start 9000, .resolve 2 true] s ∧
      s.proc = some 1 := by
    refine ⟨_, .cons (fun _ _ _ absurd => nomatch absurd) rfl (.cons ?_ rfl (.cons ?_ rfl
      (.cons ?_ rfl (.cons ?_ rfl (.cons ?_ rfl (.cons ?_ rfl (.cons ?_ rfl (.nil _)))))))), rfl⟩
    · exact fun _ _ absurd => nomatch absurd
    · exact fun _ _ absurd => nomatch absurd
    · intro i _ found
      rcases i with _ | i <;> cases found
    · intro c _ found
      obtain ⟨same, _⟩ := Call.stopping.inj (Option.some.inj found)
      exact .inr same
    · exact fun _ _ absurd => nomatch absurd
    · intro _ i _ found
      rcases i with _ | _ | i <;> cases found
    · exact fun _ _ absurd => nomatch absurd
  obtain ⟨s, run, proc⟩ := run
  exact ⟨s, run, proc, stop_wins ⟨false⟩ _ s run⟩

/-- A stop that comes while a start waits for its first update, with the updates
done in the order in which they were asked for. -/
theorem start_outlives_stop : ∃ s, exec (step ⟨false⟩) {} [.start 5000, .stop, .resolve 0 true, .resolve 1 true,
      .resolve 1 true] = some s ∧ ¬StopWins s := by
  refine ⟨_, rfl, fun wins => ?_⟩
  exact absurd (wins.stopped rfl) (by decide)

end Runner
