import Oyster.Watchdog

/-! Whether the watchdog's restart brings the runner back. The start that it calls finds the
child that its stop has not cleared yet, so only a start by somebody else can. -/
namespace Watchdog
open Interleaving Runner

/-- The stop `i` has read a child and awaits its update, or it has cleared the process and the
timer, and what is there now was spawned since; `n` children had been spawned at the restart. -/
structure Inv (i n : Nat) (s : Runner.State) : Prop where
  numbered : Numbered s
  known : i < s.nextCall
  grown : n ≤ s.nextChild
  registered : s.registered = true
  only : ∀ j proc, roles s.calls j = some (.stops proc) → j = i
  own : (∃ c, roles s.calls i = some (.stops (some c))) ∨ roles s.calls i = none ∧ (s.proc = none ∨ n < s.nextChild)

/-- A child has been spawned, a start awaits its update, or one is armed that the stop `i` no
longer clears. -/
def Coming (i n : Nat) (s : Runner.State) : Prop :=
  n < s.nextChild ∨ (∃ j, roles s.calls j = some .starts) ∨ s.startTimer = true ∧ roles s.calls i = none

section
variable {driver : Driver} {s t : Runner.State} {i n : Nat}

theorem Inv.pending_iff (h : Inv i n s) : StopPending s i ↔ roles s.calls i ≠ none := by
  constructor
  · rintro ⟨proc, startedSince, found⟩
    rw [roles_eq found]
    exact Option.some_ne_none _
  · intro busy
    obtain ⟨c, stops⟩ | ⟨idle, _⟩ := h.own
    · obtain ⟨startedSince, found⟩ := stops_iff.mp stops
      exact ⟨some c, startedSince, found⟩
    · exact absurd idle busy

theorem Inv.unstarted (h : Inv i n s) : roles s.calls i ≠ some .starts := by
  intro starts
  obtain ⟨c, stops⟩ | ⟨idle, _⟩ := h.own
  · rw [starts] at stops
    cases stops
  · rw [starts] at idle
    cases idle

/-- What begins, ends or moves no start and no stop. -/
structure Still (s t : Runner.State) : Prop where
  roles : Watchdog.roles t.calls = Watchdog.roles s.calls
  proc : t.proc = s.proc ∨ t.proc = none
  startTimer : t.startTimer = s.startTimer
  nextChild : t.nextChild = s.nextChild
  registered : t.registered = s.registered
  nextCall : s.nextCall ≤ t.nextCall

theorem Alike.still (same : Alike s t) : Still s t :=
  ⟨congrArg Watchdog.roles same.calls, same.proc, same.startTimer, same.nextChild, same.registered,
    Nat.le_of_eq same.nextCall.symm⟩

theorem Still.coming (same : Still s t) : Coming i n t ↔ Coming i n s := by
  unfold Coming
  rw [same.nextChild, same.roles, same.startTimer]

theorem Still.unhelped (same : Still s t) {helps : Prop} (unhelpful : ¬helps) :
    Coming i n t ↔ Coming i n s ∨ helps := by
  rw [same.coming]
  exact ⟨.inl, fun either => either.resolve_right unhelpful⟩

theorem Inv.still (h : Inv i n s) (same : Still s t) (numbered : Numbered t) : Inv i n t where
  numbered := numbered
  known := Nat.lt_of_lt_of_le h.known same.nextCall
  grown := same.nextChild ▸ h.grown
  registered := same.registered ▸ h.registered
  only := same.roles ▸ h.only
  own := by
    rw [same.roles, same.nextChild]
    obtain stops | ⟨idle, absent | spawned⟩ := h.own
    · exact .inl stops
    · refine .inr ⟨idle, .inl ?_⟩
      obtain kept | gone := same.proc
      · exact kept.trans absent
      · exact gone
    · exact .inr ⟨idle, .inr spawned⟩

theorem still_startCalled (s : Runner.State) : Still s (startCalled s) :=
  ⟨roles_noteStart s.calls, .inl rfl, rfl, rfl, rfl, Nat.le_refl _⟩

theorem Numbered.still_returned (numbered : Numbered s) (sends : Bool) : Still s (Watchdog.returned s sends) := by
  have free : roles s.calls s.nextCall = none := by
    rw [roles, numbered s.nextCall (Nat.le_refl _), Option.bind_none]
  unfold Watchdog.returned
  split_ifs
  · exact ⟨roles_put_idle rfl free, .inl rfl, rfl, rfl, rfl, Nat.le_succ _⟩
  · exact ⟨rfl, .inl rfl, rfl, rfl, rfl, Nat.le_refl _⟩

variable {j : Nat}

theorem still_returnStart (idle : roles s.calls j = none) (sends : Bool) :
    Still s (Runner.returnStart s j sends) := by
  unfold Runner.returnStart
  split_ifs
  · exact ⟨roles_put_idle rfl idle, .inl rfl, rfl, rfl, rfl, Nat.le_refl _⟩
  · exact ⟨roles_drop_idle idle, .inl rfl, rfl, rfl, rfl, Nat.le_refl _⟩

theorem Still.trans {r : Runner.State} (first : Still s t) (second : Still t r) : Still s r where
  roles := second.roles.trans first.roles
  proc := second.proc.elim (fun kept => first.proc.imp kept.trans kept.trans) .inr
  startTimer := second.startTimer.trans first.startTimer
  nextChild := second.nextChild.trans first.nextChild
  registered := second.registered.trans first.registered
  nextCall := Nat.le_trans first.nextCall second.nextCall

theorem Inv.startRunner (h : Inv i n s) (now : Nat) (sends : Bool) : Inv i n (Runner.startRunner s now sends) ∧
      (Coming i n (Runner.startRunner s now sends) ↔ Coming i n s ∨ Starts i s now) := by
  have numbered := h.numbered.startRunner now sends
  obtain ⟨present, same⟩ | ⟨absent, early, same⟩ | ⟨passes, same⟩ := startRunner_cases s now sends
  · rw [same] at numbered ⊢
    have still := h.numbered.still_returned sends
    refine ⟨h.still still numbered, ?_⟩
    rw [still.coming]
    exact ⟨.inl, fun coming => coming.resolve_right fun starts => present starts.1⟩
  · have still := h.numbered.still_returned sends
    rw [same] at numbered ⊢
    have inv := h.still still (h.numbered.returned sends)
    refine ⟨⟨numbered, inv.known, inv.grown, inv.registered, inv.only, inv.own⟩, ?_⟩
    unfold Coming Starts
    rw [h.pending_iff]
    change n < (returned s sends).nextChild ∨ (∃ j, roles (returned s sends).calls j = some .starts) ∨
      true = true ∧ roles (returned s sends).calls i = none ↔ _
    rw [still.nextChild, still.roles]
    tauto
  · rw [same] at numbered ⊢
    have fresh : i ≠ s.nextCall := Nat.ne_of_lt h.known
    have starts : roles (s.calls.put s.nextCall (.starting sends)) =
        Function.update (roles s.calls) s.nextCall (some .starts) := roles_put ..
    refine ⟨⟨numbered, Nat.lt_succ_of_lt h.known, h.grown, h.registered, ?_, ?_⟩, ?_⟩
    · intro j proc stops
      change roles (s.calls.put s.nextCall (.starting sends)) j = _ at stops
      rw [starts] at stops
      by_cases new : j = s.nextCall
      · subst new
        rw [Function.update_self] at stops
        cases stops
      · rw [Function.update_of_ne new] at stops
        exact h.only j proc stops
    · change (∃ c, roles (s.calls.put s.nextCall (.starting sends)) i = some (.stops (some c))) ∨
        roles (s.calls.put s.nextCall (.starting sends)) i = none ∧ _
      rw [starts, Function.update_of_ne fresh]
      exact h.own
    · refine ⟨fun _ => .inr ⟨passes.1, .inl passes⟩, fun _ => .inr (.inl ⟨s.nextCall, ?_⟩)⟩
      change roles (s.calls.put s.nextCall (.starting sends)) s.nextCall = _
      rw [starts, Function.update_self]

theorem Inv.onStartTimer (h : Inv i n s) (armed : s.startTimer = true) (now : Nat) :
    Inv i n (Runner.onStartTimer s now) ∧
      (Coming i n (Runner.onStartTimer s now) ↔ Coming i n s ∨ Starts i s now) := by
  have fired : Inv i n { s with startTimer := false } :=
    ⟨h.numbered, h.known, h.grown, h.registered, h.only, h.own⟩
  unfold Runner.onStartTimer
  by_cases absent : s.proc = none
  · rw [if_pos ⟨by rw [absent]; rfl, h.registered⟩]
    obtain ⟨inv, coming⟩ := fired.startRunner now false
    refine ⟨inv, coming.trans ?_⟩
    -- the timer that has fired counted only behind the stop, where the start that it makes counts
    have same : Starts i { s with startTimer := false } now ↔ Starts i s now := Iff.rfl
    rw [same]
    unfold Coming Starts
    rw [h.pending_iff]
    tauto
  · rw [if_neg fun found => absent (Option.isNone_iff_eq_none.mp found.1)]
    refine ⟨fired, ?_⟩
    have helpless : ¬Starts i s now := fun starts => absent starts.1
    constructor
    · rintro (spawned | starts | ⟨off, _⟩)
      · exact .inl (.inl spawned)
      · exact .inl (.inr (.inl starts))
      · cases off
    · rintro ((spawned | starts | ⟨_, idle⟩) | starts)
      · exact .inl spawned
      · exact .inr (.inl starts)
      · obtain ⟨c, stops⟩ | ⟨_, gone | spawned⟩ := h.own
        · rw [idle] at stops
          cases stops
        · exact absurd gone absent
        · exact .inl spawned
      · exact absurd starts helpless

theorem Inv.launch (h : Inv i n s) {sends : Bool} (found : s.calls j = some (.starting sends)) :
    Inv i n (Runner.launch s j sends true) ∧ (Coming i n (Runner.launch s j sends true) ↔ Coming i n s) := by
  have starts : roles s.calls j = some .starts := roles_eq found
  have other : i ≠ j := by
    rintro rfl
    exact h.unstarted starts
  have spawned : n < (Runner.launch s j sends true).nextChild := Nat.lt_succ_of_le h.grown
  have after : roles (Runner.launch s j sends true).calls = Function.update (roles s.calls) j none := roles_put ..
  refine ⟨⟨(h.numbered.put (h.numbered.lt found) (.launched s.nextChild sends)).frame rfl rfl, h.known,
    Nat.le_of_lt spawned, h.registered, ?_, ?_⟩, ?_⟩
  · intro k proc stops
    rw [after] at stops
    by_cases same : k = j
    · subst same
      rw [Function.update_self] at stops
      cases stops
    · rw [Function.update_of_ne same] at stops
      exact h.only k proc stops
  · rw [after, Function.update_of_ne other]
    exact h.own.imp_right fun ⟨idle, _⟩ => ⟨idle, .inr spawned⟩
  · exact ⟨fun _ => .inr (.inl ⟨j, starts⟩), fun _ => .inl spawned⟩

theorem Inv.stopProcess (h : Inv i n s) {proc : Option Nat} {startedSince : Bool}
    (found : s.calls j = some (.stopping proc startedSince)) : Inv i n (Runner.stopProcess s j proc startedSince) ∧
      (Coming i n (Runner.stopProcess s j proc startedSince) ↔ Coming i n s) := by
  have stops : roles s.calls j = some (.stops proc) := roles_eq found
  obtain rfl := h.only j proc stops
  obtain ⟨c, reads⟩ | ⟨idle, _⟩ := h.own
  · rw [stops] at reads
    cases reads
    have after : roles (Runner.stopProcess s j (some c) startedSince).calls =
        Function.update (roles s.calls) j none := roles_put ..
    have done : roles (Runner.stopProcess s j (some c) startedSince).calls j = none := by
      rw [after, Function.update_self]
    refine ⟨⟨(h.numbered.put (h.numbered.lt found) (.flushing startedSince)).frame rfl rfl, h.known, h.grown,
      h.registered, ?_, .inr ⟨done, .inl rfl⟩⟩, ?_⟩
    · intro k proc stops
      by_contra other
      rw [after, Function.update_of_ne other] at stops
      exact other (h.only k proc stops)
    · have starts : (∃ k, roles (Runner.stopProcess s j (some c) startedSince).calls k = some .starts) ↔
          ∃ k, roles s.calls k = some .starts := by
        refine exists_congr fun k => ?_
        rw [after]
        by_cases same : k = j
        · subst same
          rw [Function.update_self, stops]
          exact ⟨nofun, nofun⟩
        · rw [Function.update_of_ne same]
      unfold Coming
      rw [starts, stops]
      exact ⟨fun coming => coming.imp_right fun later => later.imp_right fun off => (Bool.false_ne_true off.1).elim,
        fun coming => coming.imp_right fun later => later.imp_right fun busy => nomatch busy.2⟩
  · rw [stops] at idle
    cases idle

end
section
variable {driver : Driver} {i n : Nat} {s t : System}

theorem Inv.resolve (h : Inv i n s.runner) {j : Nat} {launches : Bool} {u : Runner.State}
    (launched : ∀ sends, s.runner.calls j = some (.starting sends) → launches = true)
    (taken : Runner.step driver s.runner (.resolve j launches) = some u) :
    Inv i n u ∧ (Coming i n u ↔ Coming i n s.runner) := by
  have numbered := numbered_step h.numbered taken
  obtain ⟨call, found, rfl⟩ := Option.map_eq_some_iff.mp taken
  cases call with
  | starting sends =>
    obtain rfl := launched sends found
    exact h.launch found
  | launchFailing sends =>
    have still := still_returnStart (roles_eq found) sends
    exact ⟨h.still still numbered, still.coming⟩
  | launched c sends =>
    have still : Still s.runner (startup driver s.runner j c sends) := by
      unfold startup
      split_ifs
      · exact still_returnStart (roles_eq found) sends
      · have sent : Still s.runner (sendStartup driver s.runner c) :=
          ⟨rfl, .inl rfl, rfl, rfl, rfl, Nat.le_refl _⟩
        have idle : roles (sendStartup driver s.runner c).calls j = none := roles_eq found
        exact sent.trans (still_returnStart idle sends)
    exact ⟨h.still still numbered, still.coming⟩
  | delivering =>
    have dropped : Still s.runner (s.runner.dropCall j) :=
      ⟨roles_drop_idle (roles_eq found), .inl rfl, rfl, rfl, rfl, Nat.le_refl _⟩
    have still := dropped.trans (alike_deliver _).still
    exact ⟨h.still still numbered, still.coming⟩
  | stopping proc startedSince => exact h.stopProcess found
  | flushing startedSince =>
    have still : Still s.runner (stopReturned s.runner j startedSince) :=
      ⟨roles_drop_idle (roles_eq found), .inl rfl, rfl, rfl, rfl, Nat.le_refl _⟩
    exact ⟨h.still still numbered, still.coming⟩

theorem Inv.sendToRunner (h : Inv i n s.runner) (now : Nat) (autostart : Bool) :
    Inv i n (Runner.sendToRunner s.runner now autostart) ∧ (Coming i n (Runner.sendToRunner s.runner now autostart) ↔
        Coming i n s.runner ∨ autostart = true ∧ Starts i s.runner now) := by
  have called := still_startCalled s.runner
  have inv := h.still called h.numbered.startCalled
  have same : Starts i (startCalled s.runner) now ↔ Starts i s.runner now := by
    unfold Starts
    rw [inv.pending_iff, h.pending_iff, called.roles]
    rfl
  have delivered := (alike_deliver s.runner).still
  unfold Runner.sendToRunner
  cases autostart with
  | false =>
    rw [Bool.and_false, if_neg Bool.false_ne_true, delivered.coming]
    exact ⟨h.still delivered (h.numbered.alike (alike_deliver _)), by simp⟩
  | true =>
    rw [Bool.and_true]
    by_cases absent : s.runner.proc = none
    · rw [if_pos (Option.isNone_iff_eq_none.mpr absent)]
      obtain ⟨begun, coming⟩ := inv.startRunner now true
      refine ⟨begun, ?_⟩
      rw [coming, called.coming, same]
      simp
    · rw [if_neg fun found => absent (Option.isNone_iff_eq_none.mp found), delivered.coming]
      refine ⟨h.still delivered (h.numbered.alike (alike_deliver _)), .inl, fun coming => ?_⟩
      exact coming.resolve_right fun starts => absent starts.2.1

variable {subscribed : Bool}

theorem still_tick (calm : ¬Unresponsive s subscribed) (now : Nat) :
    Still s.runner (watchdogTick s subscribed now).runner ∧
      (Numbered s.runner → Numbered (watchdogTick s subscribed now).runner) := by
  have none : Still s.runner s.runner := (Alike.refl _).still
  unfold watchdogTick
  split_ifs with skipped unseen silent
  · exact ⟨none, id⟩
  · exact ⟨none, id⟩
  · obtain ⟨quiet, enough⟩ := (Bool.and_eq_true _ _).mp silent
    have seen : subscribed = true := by simpa using unseen
    exact absurd ⟨Bool.eq_false_iff.mpr skipped, seen, quiet, of_decide_eq_true enough⟩ calm
  · have alike := alike_requestHealth s.runner now
    exact ⟨alike.still, fun numbered => numbered.alike alike⟩

theorem inv_step {a : Action} (h : Inv i n s.runner) (calm : Undisturbed s a) (taken : step driver s a = some t) :
    Inv i n t.runner ∧ (Coming i n t.runner ↔ Coming i n s.runner ∨ Helps i s a) := by
  cases a with
  | output c now =>
    obtain ⟨_, same⟩ := Option.ite_none_right_eq_some.mp taken
    cases same
    exact ⟨h, (Alike.refl s.runner).still.unhelped id⟩
  | tick subscribed now =>
    cases taken
    obtain ⟨still, numbered⟩ := still_tick calm now
    exact ⟨h.still still (numbered h.numbered), still.unhelped id⟩
  | runner a now =>
    obtain ⟨u, moved, rfl⟩ := Option.map_eq_some_iff.mp taken
    cases a with
    | start at' =>
      cases moved
      have called := still_startCalled s.runner
      have inv := h.still called h.numbered.startCalled
      obtain ⟨begun, coming⟩ := inv.startRunner at' false
      refine ⟨begun, ?_⟩
      have same : Starts i (startCalled s.runner) at' ↔ Starts i s.runner at' := by
        unfold Starts
        rw [inv.pending_iff, h.pending_iff, called.roles]
        rfl
      rw [Helps, coming, called.coming, same]
    | send at' autostart =>
      cases moved
      obtain ⟨inv, coming⟩ := h.sendToRunner at' autostart
      refine ⟨inv, coming.trans ?_⟩
      cases autostart with
      | false => simp [Helps]
      | true => simp [Helps]
    | stop => exact calm.elim
    | resolve j launches =>
      obtain ⟨inv, coming⟩ := h.resolve calm moved
      exact ⟨inv, coming.trans ⟨.inl, fun either => either.resolve_right id⟩⟩
    | reject j =>
      have numbered := numbered_step h.numbered moved
      obtain ⟨unstopped, unstarted⟩ := calm
      have idle : roles s.runner.calls j = none := by
        cases found : roles s.runner.calls j with
        | none => rfl
        | some role =>
          cases role with
          | starts =>
            obtain ⟨sends, starting⟩ := starts_iff.mp found
            exact absurd starting (unstarted sends)
          | stops proc =>
            obtain ⟨startedSince, stopping⟩ := stops_iff.mp found
            exact absurd ⟨proc, startedSince, stopping⟩ unstopped
      have dropped : Still s.runner u := by
        unfold Runner.step at moved
        dsimp only at moved
        split at moved
        · cases moved
        · cases moved
        · cases moved
          exact ⟨roles_drop_idle idle, .inl rfl, rfl, rfl, rfl, Nat.le_refl _⟩
      exact ⟨h.still dropped numbered, dropped.unhelped id⟩
    | startTimeout at' =>
      obtain ⟨armed, same⟩ := Option.ite_none_right_eq_some.mp moved
      cases same
      exact h.onStartTimer armed at'
    | unregister => exact calm.elim
    | die | exit | error | answer | resumeTimeout =>
      have alike := alike_ofChild rfl moved
      exact ⟨h.still alike.still (h.numbered.alike alike), alike.still.unhelped id⟩

theorem restart_eq {s : Runner.State} {c : Nat} (present : s.proc = some c) (now : Nat) :
    restart s now = startCalled (s.beginCall (.stopping (some c) false)) := by
  have there : (startCalled (s.beginCall (.stopping (some c) false))).proc = some c := present
  unfold restart
  rw [present]
  obtain ⟨_, same⟩ | ⟨absent, _⟩ | ⟨passes, _⟩ := startRunner_cases
    (startCalled (s.beginCall (.stopping (some c) false))) now false
  · exact same
  · rw [there] at absent
    cases absent
  · rw [Passes, there] at passes
    cases passes.1

theorem inv_restart {s : System} (numbered : Numbered s.runner) (alone : ∀ i, ¬StopPending s.runner i)
    (declared : Unresponsive s subscribed) (now : Nat) :
    Inv s.runner.nextCall s.runner.nextChild (watchdogTick s subscribed now).runner ∧
      (Coming s.runner.nextCall s.runner.nextChild (watchdogTick s subscribed now).runner ↔ ¬Clear s.runner) := by
  obtain ⟨probed, rfl, silent, enough⟩ := declared
  obtain ⟨⟨⟨registered, present⟩, _⟩, _⟩ : ((s.runner.registered = true ∧ s.runner.proc.isSome = true) ∧
      s.health.watchdogOk = true) ∧ s.runner.resumeId = none := by
    simpa [skips] using probed
  obtain ⟨c, present⟩ := Option.isSome_iff_exists.mp present
  have ticked : (watchdogTick s true now).runner = startCalled (s.runner.beginCall (.stopping (some c) false)) := by
    unfold watchdogTick
    rw [probed, silent, decide_eq_true enough]
    exact restart_eq present now
  have after : roles (startCalled (s.runner.beginCall (.stopping (some c) false))).calls =
      Function.update (roles s.runner.calls) s.runner.nextCall (some (.stops (some c))) := by
    refine (roles_noteStart _).trans ?_
    exact roles_put ..
  have here : roles (startCalled (s.runner.beginCall (.stopping (some c) false))).calls s.runner.nextCall =
      some (.stops (some c)) := by
    rw [after, Function.update_self]
  have fresh : roles s.runner.calls s.runner.nextCall = none := by
    rw [roles, numbered _ (Nat.le_refl _), Option.bind_none]
  rw [ticked]
  refine ⟨⟨(numbered.begin _).startCalled, Nat.lt_succ_self _, Nat.le_refl _, registered, ?_, .inl ⟨c, here⟩⟩, ?_⟩
  · intro j proc stops
    by_contra other
    rw [after, Function.update_of_ne other] at stops
    obtain ⟨startedSince, found⟩ := stops_iff.mp stops
    exact alone j ⟨proc, startedSince, found⟩
  · unfold Coming
    rw [here]
    constructor
    · rintro (spawned | ⟨j, starts⟩ | ⟨_, idle⟩) clear
      · exact absurd spawned (Nat.lt_irrefl _)
      · rw [after] at starts
        by_cases same : j = s.runner.nextCall
        · subst same
          rw [Function.update_self] at starts
          cases starts
        · rw [Function.update_of_ne same] at starts
          obtain ⟨sends, found⟩ := starts_iff.mp starts
          exact clear j sends found
      · cases idle
    · intro busy
      unfold Clear at busy
      push Not at busy
      obtain ⟨j, sends, found⟩ := busy
      have starts : roles s.runner.calls j = some .starts := roles_eq found
      refine .inr (.inl ⟨j, ?_⟩)
      rw [after, Function.update_of_ne, starts]
      rintro rfl
      rw [fresh] at starts
      cases starts

theorem numbered_run {as : List Action} (h : Run (step driver) Free {} as s) : Numbered s.runner := by
  have preserved : ∀ s a t, Numbered (System.runner s) → Free s a → step driver s a = some t →
      Numbered t.runner := by
    intro s a t numbered _ taken
    cases a with
    | runner a now =>
      obtain ⟨u, moved, rfl⟩ := Option.map_eq_some_iff.mp taken
      exact numbered_step numbered moved
    | output c now =>
      obtain ⟨_, same⟩ := Option.ite_none_right_eq_some.mp taken
      cases same
      exact numbered
    | tick subscribed now =>
      cases taken
      by_cases declared : Unresponsive s subscribed
      · obtain ⟨probed, rfl, silent, enough⟩ := declared
        have ticked : (watchdogTick s true now).runner = restart s.runner now := by
          unfold watchdogTick
          rw [probed, silent, decide_eq_true enough]
          rfl
        rw [ticked]
        exact (numbered.begin _).startCalled.startRunner now false
      · exact (still_tick declared now).2 numbered
  exact h.invariant preserved fun _ _ => rfl

/-- Once no call is in flight after a restart by the watchdog, and nobody else has called a
stop, a child has been spawned or a start is armed exactly when somebody else's start was in
flight or came in time; otherwise the runner is merely stopped. -/
theorem watchdog_restart {as bs : List Action} {subscribed : Bool} {now : Nat}
    (before : Run (step driver) Free {} as s) (alone : ∀ i, ¬StopPending s.runner i)
    (declared : Unresponsive s subscribed)
    (after : Run (step driver) Undisturbed (watchdogTick s subscribed now) bs t)
    (ended : ∀ i, t.runner.calls i = none) :
    (Recovered s.runner t.runner ↔ ¬Clear s.runner ∨
      Meets (step driver) (Helps s.runner.nextCall) (watchdogTick s subscribed now) bs) ∧
    (¬Recovered s.runner t.runner → t.runner.proc = none) := by
  obtain ⟨base, begun⟩ := inv_restart (numbered_run before) alone declared now
  have each : ∀ s' a t', Inv s.runner.nextCall s.runner.nextChild (System.runner s') → Undisturbed s' a →
      step driver s' a = some t' → Inv s.runner.nextCall s.runner.nextChild t'.runner ∧
        (Coming s.runner.nextCall s.runner.nextChild t'.runner ↔
          Coming s.runner.nextCall s.runner.nextChild s'.runner ∨ Helps s.runner.nextCall s' a) :=
    fun _ _ _ inv calm taken => inv_step inv calm taken
  obtain ⟨inv, coming⟩ := after.reaches_iff each base
  have idle : ∀ j, roles t.runner.calls j = none := fun j => by rw [roles, ended j, Option.bind_none]
  have recovered : Coming s.runner.nextCall s.runner.nextChild t.runner ↔ Recovered s.runner t.runner := by
    unfold Coming Recovered
    simp [idle]
  rw [recovered, begun] at coming
  refine ⟨coming, fun lost => ?_⟩
  obtain ⟨c, stops⟩ | ⟨_, absent | spawned⟩ := inv.own
  · rw [idle] at stops
    cases stops
  · exact absent
  · exact absurd (.inl spawned) lost

end

/-- A test of `Undisturbed` for runs without a failing update. -/
def calm : Action → Bool
  | .runner .stop _ | .runner .unregister _ | .runner (.reject _) _ | .tick _ _ => false
  | .runner (.resolve _ launches) _ => launches
  | _ => true

theorem calm_sound (s : System) (a : Action) (passed : calm a = true) : Undisturbed s a := by
  cases a with
  | output => trivial
  | tick => cases passed
  | runner a =>
    cases a with
    | resolve i launches => exact fun _ _ => passed
    | stop | reject | unregister => cases passed
    | start | send | die | exit | error | answer | resumeTimeout | startTimeout => trivial

def plainDriver : Driver := { resumes := false }

def silentChild : List Action :=
  [.runner (.start 5000) 5000, .runner (.resolve 0 true) 5000, .runner (.resolve 0 true) 5000,
    .tick true 35000, .tick true 65000]

def stopResolves : List Action := [.runner (.resolve 1 true) 95000, .runner (.resolve 1 true) 95000]

/-- The restart is declared in the state after `silentChild`, and ends as `test` tells. -/
def restarts (bs : List Action) (test : System → System → Bool) : Bool :=
  (exec (step plainDriver) {} silentChild).any fun s =>
    (List.range s.runner.nextCall).all (fun i => (s.runner.calls i).isNone) &&
    decide (Unresponsive s true) &&
    (execIf (step plainDriver) (fun _ => calm) (watchdogTick s true 95000) bs).any fun t =>
      (List.range t.runner.nextCall).all (fun i => (t.runner.calls i).isNone) && test s t

theorem restarts_sound {bs : List Action} {test : System → System → Bool} (passed : restarts bs test = true) :
    ∃ s t, Run (step plainDriver) Free {} silentChild s ∧ (∀ i, s.runner.calls i = none) ∧
      Unresponsive s true ∧ Run (step plainDriver) Undisturbed (watchdogTick s true 95000) bs t ∧
      (∀ i, t.runner.calls i = none) ∧ test s t = true := by
  obtain ⟨s, ran, passed⟩ := (Option.any_eq_true _ _).mp passed
  obtain ⟨⟨settled, declared⟩, passed⟩ : ((List.range s.runner.nextCall).all (fun i => (s.runner.calls i).isNone) =
      true ∧ Unresponsive s true) ∧ _ = true := by simpa only [Bool.and_eq_true, decide_eq_true_eq] using passed
  obtain ⟨t, after, passed⟩ := (Option.any_eq_true _ _).mp passed
  obtain ⟨ended, tested⟩ := (Bool.and_eq_true _ _).mp passed
  have before := run_of_exec ran
  have run : Run (step plainDriver) Undisturbed (watchdogTick s true 95000) bs t := run_of_execIf calm_sound after
  have idle : ∀ u : System, Numbered u.runner →
      (List.range u.runner.nextCall).all (fun i => (u.runner.calls i).isNone) = true → ∀ i, u.runner.calls i = none := by
    intro u numbered all i
    by_cases known : i < u.runner.nextCall
    · exact Option.isNone_iff_eq_none.mp (List.all_eq_true.mp all i (List.mem_range.mpr known))
    · exact numbered i (Nat.le_of_not_lt known)
  have whole : Run (step plainDriver) Free {} (silentChild ++ .tick true 95000 :: bs) t :=
    before.append (.cons trivial rfl (run.mono fun _ _ _ => trivial))
  exact ⟨s, t, before, idle s (numbered_run before) settled, declared, run, idle t (numbered_run whole) ended, tested⟩

/-- Nothing but the stop is under way: its update resolves, and the runner stays without a
child. -/
theorem watchdog_restart_lost : ∃ s t, Run (step plainDriver) Free {} silentChild s ∧ (∀ i, s.runner.calls i = none) ∧
      Unresponsive s true ∧ Run (step plainDriver) Undisturbed (watchdogTick s true 95000) stopResolves t ∧
      (∀ i, t.runner.calls i = none) ∧ ¬Recovered s.runner t.runner ∧ t.runner.proc = none := by
  have ran : restarts stopResolves (fun s t => t.runner.nextChild ≤ s.runner.nextChild &&
      !t.runner.startTimer && t.runner.proc.isNone) = true := by decide +kernel
  obtain ⟨s, t, before, settled, declared, after, ended, tested⟩ := restarts_sound ran
  obtain ⟨⟨spawned, armed⟩, absent⟩ : (t.runner.nextChild ≤ s.runner.nextChild ∧ t.runner.startTimer = false) ∧
      t.runner.proc = none := by simpa using tested
  refine ⟨s, t, before, settled, declared, after, ended, ?_, absent⟩
  rintro (more | timer)
  · exact absurd more (Nat.not_lt_of_le spawned)
  · rw [armed] at timer
    cases timer

/-- A command starts the runner after the stop. -/
theorem watchdog_restart_helped :
    ∃ (s t : System) (bs : List Action), (Recovered s.runner t.runner ↔ ¬Clear s.runner ∨
      Meets (step plainDriver) (Helps s.runner.nextCall) (watchdogTick s true 95000) bs) ∧
      Recovered s.runner t.runner := by
  have ran : restarts (stopResolves ++ [.runner (.send 96000 true) 96000, .runner (.resolve 2 true) 96000,
      .runner (.resolve 2 true) 96000, .runner (.resolve 2 true) 96000])
      (fun s t => s.runner.nextChild < t.runner.nextChild) = true := by decide +kernel
  obtain ⟨s, t, before, settled, declared, after, ended, spawned⟩ := restarts_sound ran
  have alone : ∀ i, ¬StopPending s.runner i := by
    rintro i ⟨proc, startedSince, found⟩
    rw [settled i] at found
    cases found
  exact ⟨s, t, _, (watchdog_restart before alone declared after ended).1, .inl (of_decide_eq_true spawned)⟩

end Watchdog
