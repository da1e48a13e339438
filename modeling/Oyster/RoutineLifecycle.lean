import Oyster.RoutineManager

/-! The life of a routine's runs: that one child at most is live, that the registration is given up and
the row finished once a child has closed, and that a finished row stays so. -/
namespace RoutineManager
open Interleaving

/-- `runScript` or `finalizeClose` has come to its end. -/
def Run.ended (run : Run) : Bool := decide (run.setup = .rejected) || decide (run.closing = .settled)

def Run.finished (run : Run) : Bool := run.row.any Row.finished

def Status.final : Status → Bool
  | .running | .stopping => false
  | _ => true

structure Lifecycle (s : State) : Prop where
  single : ∀ i j run other, s.runs i = some run → s.runs j = some other → run.closed = false → other.closed = false → i = j
  released : s.runs.Forall fun i run => run.closed = true → run.ended = true →
    s.registry ≠ some i ∧ (run.finished = true ∨ run.writeFailed = true ∨ s.deleted = true)
  final : s.runs.Forall fun _ run => ∀ row, run.row = some row → row.finished = true → row.status.final = true

/-- The writes that create a run do not fail, nor does a task that a close awaits, nor what it does before
the finishing write; a start that has bound the routine finds it unregistered still; and a stop
marks no finished run. -/
def Orderly (s : State) : Event → Prop
  | .run _ (.created ok) => ok = true
  | .run _ (.progressed ok) => ok = true
  | .run i (.lineEnds false) => ∀ run, s.runs i = some run → ∀ n exit, run.closing ≠ .awaiting (n + 1) exit
  | .run i (.finishEnds false) => ∀ run, s.runs i = some run →
      (∀ exit, run.closing ≠ .reading exit) ∧ ∀ message outcome, run.closing ≠ .completing message outcome
  | .answered k true =>
    (∀ mode, s.calls k = some (.rebinding mode) → s.deleted = false → s.registry = none) ∧
    ∀ i, s.calls k = some (.marking i) → ∀ run, s.runs i = some run → run.finished = false
  | _ => True

def Stage (deleted registered : Bool) (run : Run) : Closing → Prop
  | .idle => registered = true ∧ (run.closed = true → run.setup ≠ .ready ∧ run.pendingClose.isSome = true)
  | .awaiting _ _ => registered = true ∧ run.setup = .ready
  | .reading _ => registered = false ∧ run.setup = .ready
  | .completing _ outcome => registered = false ∧ run.setup = .ready ∧ outcome.status.final = true
  | .writing outcome => registered = false ∧ run.setup = .ready ∧ outcome.status.final = true
  | .emitting => registered = false ∧ run.setup = .ready ∧ (run.finished = true ∨ deleted = true)
  | .settled => registered = false ∧ run.setup = .ready ∧ (run.finished = true ∨ run.writeFailed = true ∨ deleted = true)

structure Tracked (deleted registered : Bool) (run : Run) : Prop where
  opened : run.closed = false → run.closing = .idle ∧ run.pendingClose = none
  accepted : run.setup ≠ .rejected
  created : run.setup = .progressing ∨ run.setup = .ready → run.row.isSome = true ∨ deleted = true
  final : ∀ row, run.row = some row → row.finished = true → row.status.final = true
  stage : Stage deleted registered run run.closing

section
variable {deleted registered : Bool} {run next : Run}

theorem Tracked.spawned (mode : Mode) : Tracked deleted true { mode } :=
  ⟨fun _ => ⟨rfl, rfl⟩, nofun, fun absurd => absurd.elim (nomatch ·) (nomatch ·), fun _ absurd => (nomatch absurd), rfl,
    fun absurd => (nomatch absurd)⟩

/-- Before `runScript` is ready, nothing but its registration is there to be closed. -/
theorem Tracked.early (h : Tracked deleted registered run) (early : run.setup ≠ .ready) :
    run.closing = .idle ∧ registered = true ∧ (run.closed = true → run.pendingClose.isSome = true) := by
  have stage := h.stage
  cases closing : run.closing with
  | idle =>
    rw [closing] at stage
    exact ⟨rfl, stage.1, fun closed => (stage.2 closed).2⟩
  | awaiting tasks exit => rw [closing] at stage; exact absurd stage.2 early
  | reading exit => rw [closing] at stage; exact absurd stage.2 early
  | _ => rw [closing] at stage; exact absurd stage.2.1 early

theorem Tracked.prepare (h : Tracked deleted registered run) (early : run.setup ≠ .ready)
    (row : run.row.isSome = true ∨ deleted = true) : Tracked deleted registered run.prepare := by
  obtain ⟨idle, owns, pending⟩ := h.early early
  unfold Run.prepare
  dsimp only
  split
  · next exit found =>
      refine ⟨fun open' => ?_, nofun, fun _ => row, h.final, owns, rfl⟩
      rw [(h.opened open').2] at found
      cases found
  · next none =>
      refine ⟨h.opened, nofun, fun _ => row, h.final, ?_⟩
      rw [idle]
      refine ⟨owns, fun closed => ?_⟩
      have found := pending closed
      rw [none] at found
      cases found

theorem Tracked.created_step (h : Tracked deleted registered run) (taken : run.step deleted (.created true) = some next) :
    Tracked deleted registered next := by
  obtain ⟨⟨creating, _⟩, taken⟩ := Option.ite_none_right_eq_some.mp taken
  have early : run.setup ≠ .ready := by rw [creating]; exact nofun
  obtain ⟨idle, owns, pending⟩ := h.early early
  have fresh : ∀ row, some { status := firstStatus run.mode : Row } = some row → row.finished = true → row.status.final = true := by
    intro row same finished
    cases same
    cases finished
  cases taken
  split
  · refine ⟨h.opened, nofun, fun _ => .inl rfl, fresh, ?_⟩
    rw [idle]
    exact ⟨owns, fun closed => ⟨nofun, pending closed⟩⟩
  · refine Tracked.prepare ⟨h.opened, h.accepted, fun _ => .inl rfl, fresh, ?_⟩ early (.inl rfl)
    rw [idle]
    exact ⟨owns, fun closed => ⟨early, pending closed⟩⟩

variable {f : Row → Row} {row : Option Row}

theorem final_map (h : ∀ r, row = some r → r.finished = true → r.status.final = true)
    (keeps : ∀ r, (f r).status = r.status ∧ (f r).finished = r.finished) :
    ∀ r, row.map f = some r → r.finished = true → r.status.final = true := by
  intro r same finished
  obtain ⟨before, found, rfl⟩ := Option.map_eq_some_iff.mp same
  rw [(keeps before).1]
  exact h before found ((keeps before).2.symm.trans finished)

theorem finished_map (keeps : ∀ r, (f r).finished = r.finished) :
    (row.map f).any Row.finished = row.any Row.finished := by
  cases row with
  | none => rfl
  | some r => exact keeps r

theorem Stage.keep {closing : Closing} (h : Stage deleted registered run closing) (setup : next.setup = run.setup)
    (closed : next.closed = run.closed) (pending : next.pendingClose = run.pendingClose)
    (finished : next.finished = run.finished) (writeFailed : next.writeFailed = run.writeFailed) :
    Stage deleted registered next closing := by
  cases closing with
  | idle =>
    unfold Stage
    rw [setup, closed, pending]
    exact h
  | awaiting tasks exit => exact ⟨h.1, setup.trans h.2⟩
  | reading exit => exact ⟨h.1, setup.trans h.2⟩
  | completing message outcome => exact ⟨h.1, setup.trans h.2.1, h.2.2⟩
  | writing outcome => exact ⟨h.1, setup.trans h.2.1, h.2.2⟩
  | emitting =>
    unfold Stage
    rw [setup, finished]
    exact h
  | settled =>
    unfold Stage
    rw [setup, finished, writeFailed]
    exact h

theorem Tracked.remap (h : Tracked deleted registered run) {tasks : List Task}
    (keeps : ∀ r, (f r).status = r.status ∧ (f r).finished = r.finished) :
    Tracked deleted registered { run with row := run.row.map f, tasks } :=
  ⟨h.opened, h.accepted, fun setup => by rw [Option.isSome_map]; exact h.created setup, final_map h.final keeps,
    h.stage.keep rfl rfl rfl (finished_map fun r => (keeps r).2) rfl⟩

theorem Tracked.progressed (h : Tracked deleted registered run) (taken : run.step deleted (.progressed true) = some next) :
    Tracked deleted registered next := by
  obtain ⟨progressing, taken⟩ := Option.ite_none_right_eq_some.mp taken
  have early : run.setup ≠ .ready := by rw [progressing]; exact nofun
  cases taken
  have written : Tracked deleted registered
      { run with row := run.row.map fun row => { row with progress := some 0, message := none } } := h.remap fun _ => ⟨rfl, rfl⟩
  refine written.prepare early ?_
  rw [Option.isSome_map]
  exact h.created (.inl progressing)

theorem Tracked.line (h : Tracked deleted registered run) (line : Line) (taken : run.step deleted (.line line) = some next) :
    Tracked deleted registered next := by
  obtain ⟨_, taken⟩ := Option.ite_none_left_eq_some.mp taken
  split at taken
  · cases taken
    exact ⟨h.opened, h.accepted, h.created, h.final, h.stage.keep rfl rfl rfl rfl rfl⟩
  · cases taken
    exact ⟨h.opened, h.accepted, h.created, h.final, h.stage.keep rfl rfl rfl rfl rfl⟩

theorem Tracked.error (h : Tracked deleted registered run) (message : String)
    (taken : run.step deleted (.error message) = some next) : Tracked deleted registered next := by
  unfold Run.step at taken
  dsimp only at taken
  split at taken
  · cases taken
    exact ⟨h.opened, h.accepted, h.created, h.final, h.stage.keep rfl rfl rfl rfl rfl⟩
  · cases taken
    exact ⟨h.opened, h.accepted, h.created, h.final, h.stage.keep rfl rfl rfl rfl rfl⟩

theorem Tracked.close (h : Tracked deleted registered run) (exit : Exit) (taken : run.step deleted (.close exit) = some next) :
    Tracked deleted registered next := by
  obtain ⟨open', taken⟩ := Option.ite_none_left_eq_some.mp taken
  have idle := (h.opened ((Bool.not_eq_true _).mp open')).1
  have stage := h.stage
  rw [idle] at stage
  split at taken
  · next ready =>
      cases taken
      exact ⟨fun absurd => (nomatch absurd), h.accepted, h.created, h.final, stage.1, ready⟩
  · next early =>
      cases taken
      refine ⟨fun absurd => (nomatch absurd), h.accepted, h.created, h.final, ?_⟩
      rw [idle]
      exact ⟨stage.1, fun _ => ⟨early, rfl⟩⟩

theorem Tracked.settleTask (h : Tracked deleted registered run) (ok : Bool)
    (orderly : ok = false → ∀ n exit, run.closing ≠ .awaiting (n + 1) exit) : Tracked deleted registered (run.settleTask ok) := by
  unfold Run.settleTask
  rcases settleTask_cases run.closing ok with same | ⟨n, exit, closing, same⟩
  · rw [same]
    exact ⟨h.opened, h.accepted, h.created, h.final, h.stage.keep rfl rfl rfl rfl rfl⟩
  · rw [same]
    cases ok with
    | true =>
      have stage := h.stage
      rw [closing] at stage
      refine ⟨fun open' => ?_, h.accepted, h.created, h.final, stage⟩
      have idle := (h.opened open').1
      rw [closing] at idle
      cases idle
    | false => exact absurd closing (orderly rfl n exit)

theorem Tracked.lineEnds (h : Tracked deleted registered run) (ok : Bool)
    (orderly : ok = false → ∀ n exit, run.closing ≠ .awaiting (n + 1) exit) (taken : run.lineEnds ok = some next) :
    Tracked deleted registered next := by
  unfold Run.lineEnds at taken
  split at taken
  · cases taken
  · next task rest _ =>
      cases ok with
      | false =>
        cases taken
        exact h.settleTask false orderly
      | true =>
        cases task with
        | reading percent message =>
          cases taken
          exact ⟨h.opened, h.accepted, h.created, h.final, h.stage.keep rfl rfl rfl rfl rfl⟩
        | writing progress message =>
          cases taken
          exact h.remap fun _ => ⟨rfl, rfl⟩
        | appending text =>
          cases taken
          exact ⟨h.opened, h.accepted, h.created, h.final, h.stage.keep rfl rfl rfl rfl rfl⟩
        | emitting =>
          cases taken
          exact h.settleTask true nofun

theorem finishRoutineProcess_final (mode : Mode) (current : Option Row) (exit : Exit) :
    (∃ outcome, finishRoutineProcess mode current exit = .writing outcome ∧ outcome.status.final = true) ∨
    ∃ message outcome, finishRoutineProcess mode current exit = .completing message outcome ∧ outcome.status.final = true := by
  unfold finishRoutineProcess
  split
  · exact .inl ⟨_, rfl, rfl⟩
  · split
    · split
      · exact .inl ⟨_, rfl, rfl⟩
      · exact .inl ⟨_, rfl, rfl⟩
    · split
      · split
        · exact .inl ⟨_, rfl, rfl⟩
        · exact .inr ⟨_, _, rfl, rfl⟩
      · exact .inl ⟨_, rfl, rfl⟩

theorem Tracked.finishEnds (h : Tracked deleted registered run) (ok : Bool)
    (orderly : ok = false → (∀ exit, run.closing ≠ .reading exit) ∧ ∀ message outcome, run.closing ≠ .completing message outcome)
    (taken : run.finishEnds ok = some next) : Tracked deleted registered next := by
  have stage := h.stage
  have closed (busy : run.closing ≠ .idle) {P : Prop} (open' : run.closed = false) : P := absurd (h.opened open').1 busy
  unfold Run.finishEnds at taken
  split at taken
  · next exit closing =>
      have busy : run.closing ≠ .idle := by rw [closing]; exact nofun
      cases taken
      rw [closing] at stage
      cases ok with
      | false => exact absurd closing ((orderly rfl).1 exit)
      | true =>
        refine ⟨closed busy, h.accepted, h.created, h.final, ?_⟩
        rcases finishRoutineProcess_final run.mode run.row exit with ⟨outcome, same, final⟩ | ⟨message, outcome, same, final⟩
        · rw [same]
          exact ⟨stage.1, stage.2, final⟩
        · rw [same]
          exact ⟨stage.1, stage.2, final⟩
  · next message outcome closing =>
      have busy : run.closing ≠ .idle := by rw [closing]; exact nofun
      rw [closing] at stage
      cases ok with
      | false => exact absurd closing ((orderly rfl).2 message outcome)
      | true =>
        cases taken
        refine ⟨closed busy, h.accepted, fun setup => by rw [Option.isSome_map]; exact h.created setup,
          final_map h.final fun _ => ⟨rfl, rfl⟩, stage⟩
  · next outcome closing =>
      have busy : run.closing ≠ .idle := by rw [closing]; exact nofun
      rw [closing] at stage
      cases ok with
      | false =>
        cases taken
        exact ⟨closed busy, h.accepted, h.created, h.final, stage.1, stage.2.1, .inr (.inl rfl)⟩
      | true =>
        cases taken
        refine ⟨closed busy, h.accepted, fun setup => by rw [Option.isSome_map]; exact h.created setup, fun r same _ => ?_,
          stage.1, stage.2.1, ?_⟩
        · obtain ⟨before, _, rfl⟩ := Option.map_eq_some_iff.mp same
          exact stage.2.2
        · refine (h.created (.inr stage.2.1)).imp_left fun there => ?_
          obtain ⟨before, found⟩ := Option.isSome_iff_exists.mp there
          rw [found]
          rfl
  · next closing =>
      have busy : run.closing ≠ .idle := by rw [closing]; exact nofun
      rw [closing] at stage
      cases taken
      exact ⟨closed busy, h.accepted, h.created, h.final, stage.1, stage.2.1, stage.2.2.imp_right .inr⟩
  · cases taken

theorem Tracked.drained (h : Tracked deleted registered run) (taken : run.drained registered = some next) :
    registered = true ∧ Tracked deleted false next := by
  unfold Run.drained at taken
  split at taken
  · next exit closing =>
      cases taken
      have stage := h.stage
      rw [closing] at stage
      refine ⟨stage.1, fun open' => ?_, h.accepted, h.created, h.final, ?_⟩
      · have idle := (h.opened open').1
        rw [closing] at idle
        cases idle
      · simp only [stage.1, if_true]
        split
        · exact ⟨rfl, stage.2, rfl⟩
        · exact ⟨rfl, stage.2⟩
  · cases taken

theorem Tracked.erase (h : Tracked deleted registered run) : Tracked true registered { run with row := none } := by
  refine ⟨h.opened, h.accepted, fun _ => .inr rfl, fun _ absurd => (nomatch absurd), ?_⟩
  have stage := h.stage
  cases closing : run.closing with
  | emitting => rw [closing] at stage; exact ⟨stage.1, stage.2.1, .inr rfl⟩
  | settled => rw [closing] at stage; exact ⟨stage.1, stage.2.1, .inr (.inr rfl)⟩
  | _ => rwa [closing] at stage

theorem Tracked.mark (h : Tracked deleted registered run) (unfinished : run.finished = false) :
    Tracked deleted registered { run with row := run.row.map fun row => { row with status := .stopping } } := by
  refine ⟨h.opened, h.accepted, fun setup => by rw [Option.isSome_map]; exact h.created setup, fun r same finished => ?_,
    h.stage.keep rfl rfl rfl (finished_map fun _ => rfl) rfl⟩
  obtain ⟨row, found, rfl⟩ := Option.map_eq_some_iff.mp same
  unfold Run.finished at unfinished
  rw [found] at unfinished
  exact absurd finished (by rw [show row.finished = false from unfinished]; exact nofun)

theorem Tracked.step {e : RunEvent} (h : Tracked deleted registered run) (created : ∀ ok, e = .created ok → ok = true)
    (progressed : ∀ ok, e = .progressed ok → ok = true)
    (line : e = .lineEnds false → ∀ n exit, run.closing ≠ .awaiting (n + 1) exit)
    (finish : e = .finishEnds false →
      (∀ exit, run.closing ≠ .reading exit) ∧ ∀ message outcome, run.closing ≠ .completing message outcome)
    (taken : run.step deleted e = some next) : Tracked deleted registered next := by
  cases e with
  | created ok =>
    obtain rfl := created ok rfl
    exact h.created_step taken
  | progressed ok =>
    obtain rfl := progressed ok rfl
    exact h.progressed taken
  | line output => exact h.line output taken
  | error message => exact h.error message taken
  | close exit => exact h.close exit taken
  | lineEnds ok => exact h.lineEnds ok (fun failed => line (failed ▸ rfl)) taken
  | finishEnds ok => exact h.finishEnds ok (fun failed => finish (failed ▸ rfl)) taken

end

structure Tracking (s : State) : Prop where
  runs : s.runs.Forall fun i run => Tracked s.deleted (decide (s.registry = some i)) run
  numbered : s.runs.Forall fun i _ => i < s.nextRun

theorem Tracked.registered_of_live {deleted registered : Bool} {run : Run} (h : Tracked deleted registered run)
    (live : run.closed = false) : registered = true := by
  have stage := h.stage
  rw [(h.opened live).1] at stage
  exact stage.1

variable {s : State}

theorem Tracking.lifecycle (h : Tracking s) : Lifecycle s := by
  refine ⟨fun i j run other there there' live live' => ?_, fun i run there closed ended => ?_, fun i run there => (h.runs i run there).final⟩
  · have owns : s.registry = some i := of_decide_eq_true ((h.runs i run there).registered_of_live live)
    have owns' : s.registry = some j := of_decide_eq_true ((h.runs j other there').registered_of_live live')
    exact Option.some.inj (owns.symm.trans owns')
  · have tracked := h.runs i run there
    rcases (Bool.or_eq_true _ _).mp ended with rejected | settled
    · exact absurd (of_decide_eq_true rejected) tracked.accepted
    · have stage := tracked.stage
      rw [of_decide_eq_true settled] at stage
      exact ⟨of_decide_eq_false stage.1, stage.2.2⟩

theorem Tracking.spawn (h : Tracking s) (mode : Mode) (free : s.registry = none) : Tracking (s.spawn mode) := by
  refine ⟨fun i run there => ?_, fun i run there => ?_⟩
  · rcases Calls.put_eq_some there with ⟨rfl, rfl⟩ | ⟨other, old⟩
    · exact (decide_eq_true (rfl : (s.spawn mode).registry = some s.nextRun)) ▸ Tracked.spawned mode
    · have before : Tracked s.deleted (decide (s.registry = some i)) run := h.runs i run old
      have unregistered : decide (s.registry = some i) = false := by rw [free]; rfl
      have still : decide ((s.spawn mode).registry = some i) = false :=
        decide_eq_false fun same => other (Option.some.inj same).symm
      rw [unregistered] at before
      rw [still]
      exact before
  · rcases Calls.put_eq_some there with ⟨rfl, _⟩ | ⟨_, old⟩
    · exact Nat.lt_succ_self _
    · exact Nat.lt_succ_of_lt (h.numbered i run old)

theorem Tracking.answer (h : Tracking s) (k : Nat) (call : Call)
    (rebinding : ∀ mode, call = .rebinding mode → s.deleted = false → s.registry = none)
    (marking : ∀ i, call = .marking i → ∀ run, s.runs i = some run → run.finished = false) :
    Tracking (s.answer k call) := by
  have same (calls : Calls Call) : Tracking { s with calls := calls } := ⟨h.runs, h.numbered⟩
  cases call with
  | starting mode rebinds =>
    unfold State.answer
    dsimp only
    split
    · exact same _
    · next free =>
        split
        · exact same _
        · refine (same (s.calls.drop k)).spawn mode ?_
          cases owner : s.registry with
          | none => rfl
          | some i => exact absurd (.inr (by rw [owner]; rfl)) free
  | rebinding mode =>
    unfold State.answer
    dsimp only
    split
    · exact same _
    · next there => exact (same (s.calls.drop k)).spawn mode (rebinding mode rfl ((Bool.not_eq_true _).mp there))
  | stopping =>
    unfold State.answer
    dsimp only
    split <;> exact same _
  | choosing =>
    unfold State.answer
    dsimp only
    split <;> exact same _
  | marking i =>
    refine ⟨fun j run there => ?_, fun j run there => ?_⟩
    · rcases Calls.modify_eq_some there with ⟨rfl, before, found, rfl⟩ | ⟨_, old⟩
      · exact (h.runs j before found).mark (marking j rfl before found)
      · exact h.runs j run old
    · rcases Calls.modify_eq_some there with ⟨rfl, before, found, _⟩ | ⟨_, old⟩
      · exact h.numbered j before found
      · exact h.numbered j run old
  | deleting =>
    unfold State.answer
    dsimp only
    split <;> exact same _
  | erasing =>
    refine ⟨fun i run there => ?_, fun i run there => ?_⟩
    · obtain ⟨before, found, rfl⟩ := Calls.mapAll_eq_some there
      exact (h.runs i before found).erase
    · obtain ⟨before, found, _⟩ := Calls.mapAll_eq_some there
      exact h.numbered i before found

theorem Tracking.init : Tracking {} := ⟨fun _ _ absurd => (nomatch absurd), fun _ _ absurd => nomatch absurd⟩

/-- A test for `Orderly`, which lets a line fail only before the close. -/
def orderly (s : State) : Event → Bool
  | .run _ (.created ok) => ok
  | .run _ (.progressed ok) => ok
  | .run i (.lineEnds false) => (s.runs i).all fun run => decide (run.closing = .idle)
  | .run i (.finishEnds false) => (s.runs i).all fun run => decide (run.closing = .emitting)
  | .answered k true =>
    match s.calls k with
    | some (.rebinding _) => s.registry.isNone
    | some (.marking i) => (s.runs i).all fun run => !run.finished
    | _ => true
  | _ => true

theorem orderly_sound (s : State) (e : Event) (passed : orderly s e = true) : Orderly s e := by
  cases e with
  | call request => trivial
  | drained i => trivial
  | answered k ok =>
    cases ok with
    | false => trivial
    | true =>
      unfold orderly at passed
      refine ⟨fun mode there _ => ?_, fun i there run found => ?_⟩
      · simp only [there] at passed
        exact Option.isNone_iff_eq_none.mp passed
      · simp only [there, found, Option.all_some, Bool.not_eq_true'] at passed
        exact passed
  | run i event =>
    cases event with
    | created ok => exact passed
    | progressed ok => exact passed
    | lineEnds ok =>
      cases ok with
      | true => trivial
      | false =>
        intro run there n exit
        simp only [orderly, there, Option.all_some, decide_eq_true_eq] at passed
        rw [passed]
        exact nofun
    | finishEnds ok =>
      cases ok with
      | true => trivial
      | false =>
        intro run there
        simp only [orderly, there, Option.all_some, decide_eq_true_eq] at passed
        rw [passed]
        exact ⟨nofun, nofun⟩
    | _ => trivial

end RoutineManager
