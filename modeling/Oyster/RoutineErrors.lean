import Oyster.RoutineManager

/-! The errors of a routine's child: whether each finds its listener, and whether the run is then recorded
as failed, whatever the order of the child's events and of the ends of the store's operations. -/
namespace RoutineManager
open Interleaving

/-- `finalizeClose` has not looked at the error yet. -/
def Closing.early : Closing → Bool
  | .idle | .awaiting _ _ => true
  | _ => false

/-- Each error event has found a listener, and a run that has had one is recorded as failed by the time
it is over, unless its routine has been deleted. -/
structure ErrorsHandled (s : State) : Prop where
  heard : s.runs.Forall fun _ run => run.unheard = false
  recorded : s.runs.Forall fun _ run => run.errored.isSome = true → run.closing = .settled →
    run.row.map Row.status = some .failed ∨ s.deleted = true

/-- An error comes while its listener is attached and unused, before the close has been finalized, and while
the runtime of its run is registered. After it, neither a task that the close awaits nor the finishing
write fails, no other start takes the registration over, and no stop marks the run once it is finished. -/
def Attended (s : State) : Event → Prop
  | .run i (.error _) => ∀ run, s.runs i = some run →
      run.errorListener = true ∧ run.closing.early = true ∧ s.registry = some i
  | .run i (.lineEnds false) => ∀ run, s.runs i = some run → run.errored.isSome = true →
      ∀ n exit, run.closing ≠ .awaiting (n + 1) exit
  | .run i (.finishEnds false) => ∀ run, s.runs i = some run → run.errored.isSome = true →
      ∀ outcome, run.closing ≠ .writing outcome
  | .answered k true =>
    (∀ mode, s.calls k = some (.rebinding mode) → ∀ i run, s.registry = some i → s.runs i = some run → run.errored = none) ∧
    ∀ i, s.calls k = some (.marking i) → ∀ run, s.runs i = some run → run.errored.isSome = true →
      ∀ row, run.row = some row → row.finished = false
  | _ => True

structure Recorded (deleted : Bool) (row : Option Row) : Prop where
  there : row.isSome = true ∨ deleted = true
  failed : ∀ r, row = some r → r.status = .failed ∧ r.finished = true

/-- What holds of the close of a run whose error has been heard. -/
def Failing (deleted registered : Bool) (row : Option Row) : Closing → Prop
  | .idle => registered = true
  | .awaiting _ _ => registered = true
  | .reading _ => False
  | .completing _ _ => False
  | .writing outcome => outcome.status = .failed ∧ (row.isSome = true ∨ deleted = true)
  | .emitting => Recorded deleted row
  | .settled => Recorded deleted row

structure Sound (deleted registered : Bool) (run : Run) : Prop where
  heard : run.unheard = false
  caught : run.errored = run.spawnError
  listening : run.errorListener = true → run.spawnError = none
  prepared : run.setup ≠ .ready → run.spawnError = none ∧ run.errorListener = false
  created : run.setup = .progressing ∨ run.setup = .ready → run.row.isSome = true ∨ deleted = true
  opened : run.closed = false → run.closing = .idle ∧ run.pendingClose = none
  failing : run.spawnError.isSome = true → Failing deleted registered run.row run.closing

section
variable {deleted registered : Bool} {run next : Run}

theorem Sound.spawned (mode : Mode) : Sound deleted registered { mode } :=
  ⟨rfl, rfl, fun _ => rfl, fun _ => ⟨rfl, rfl⟩, fun absurd => absurd.elim (nomatch ·) (nomatch ·), fun _ => ⟨rfl, rfl⟩,
    fun absurd => (nomatch absurd)⟩

variable {row : Option Row} {f : Row → Row}

theorem Recorded.map (h : Recorded deleted row) (keeps : ∀ r, (f r).status = r.status ∧ (f r).finished = r.finished) :
    Recorded deleted (row.map f) := by
  refine ⟨h.there.imp_left fun some => by rw [Option.isSome_map, some], fun r same => ?_⟩
  obtain ⟨before, found, rfl⟩ := Option.map_eq_some_iff.mp same
  rw [(keeps before).1, (keeps before).2]
  exact h.failed before found

variable {closing : Closing}

theorem Failing.map (h : Failing deleted registered row closing)
    (keeps : ∀ r, (f r).status = r.status ∧ (f r).finished = r.finished) :
    Failing deleted registered (row.map f) closing := by
  cases closing with
  | writing outcome => exact ⟨h.1, by rw [Option.isSome_map]; exact h.2⟩
  | emitting => exact Recorded.map h keeps
  | settled => exact Recorded.map h keeps
  | _ => exact h

theorem Sound.prepare (h : Sound deleted registered run) (early : run.setup ≠ .ready)
    (row : run.row.isSome = true ∨ deleted = true) : Sound deleted registered run.prepare := by
  have none := (h.prepared early).1
  have unfailed : run.spawnError.isSome = true → ∀ closing, Failing deleted registered run.row closing := by
    rw [none]
    exact fun absurd => (nomatch absurd)
  unfold Run.prepare
  dsimp only
  split
  · next exit pending =>
      refine ⟨h.heard, h.caught, fun _ => none, fun absurd' => absurd rfl absurd', fun _ => row, fun open' => ?_,
        fun some => unfailed some _⟩
      rw [(h.opened open').2] at pending
      cases pending
  · exact ⟨h.heard, h.caught, fun _ => none, fun absurd' => absurd rfl absurd', fun _ => row, h.opened, fun some => unfailed some _⟩

theorem Sound.created_step (h : Sound deleted registered run) (ok : Bool) (taken : run.step deleted (.created ok) = some next) :
    Sound deleted registered next := by
  obtain ⟨⟨creating, _⟩, taken⟩ := Option.ite_none_right_eq_some.mp taken
  have early : run.setup ≠ .ready := by rw [creating]; exact nofun
  obtain ⟨none, detached⟩ := h.prepared early
  have unfailed : run.spawnError.isSome = true → ∀ row closing, Failing deleted registered row closing := by
    rw [none]
    exact fun absurd => (nomatch absurd)
  have rowed : Sound deleted registered { run with row := some { status := firstStatus run.mode } } :=
    ⟨h.heard, h.caught, h.listening, h.prepared, fun _ => .inl rfl, h.opened, fun some => unfailed some _ _⟩
  cases ok with
  | true =>
    cases taken
    split
    · exact ⟨h.heard, h.caught, h.listening, fun _ => ⟨none, detached⟩, fun _ => .inl rfl, h.opened, fun some => unfailed some _ _⟩
    · exact rowed.prepare early (.inl rfl)
  | false =>
    cases taken
    exact ⟨h.heard, h.caught, h.listening, fun _ => ⟨none, detached⟩, fun absurd => absurd.elim (nomatch ·) (nomatch ·), h.opened,
      h.failing⟩

theorem Sound.progressed (h : Sound deleted registered run) (ok : Bool) (taken : run.step deleted (.progressed ok) = some next) :
    Sound deleted registered next := by
  obtain ⟨progressing, taken⟩ := Option.ite_none_right_eq_some.mp taken
  have early : run.setup ≠ .ready := by rw [progressing]; exact nofun
  obtain ⟨none, detached⟩ := h.prepared early
  have unfailed : run.spawnError.isSome = true → ∀ row closing, Failing deleted registered row closing := by
    rw [none]
    exact fun absurd => (nomatch absurd)
  have row : (run.row.map fun row => { row with progress := some 0, message := Option.none }).isSome = true ∨ deleted = true := by
    rw [Option.isSome_map]
    exact h.created (.inl progressing)
  cases ok with
  | true =>
    cases taken
    refine Sound.prepare ⟨h.heard, h.caught, h.listening, h.prepared, fun _ => row, h.opened, fun some => unfailed some _ _⟩ early row
  | false =>
    cases taken
    exact ⟨h.heard, h.caught, h.listening, fun _ => ⟨none, detached⟩, fun absurd => absurd.elim (nomatch ·) (nomatch ·), h.opened,
      h.failing⟩

theorem Sound.line (h : Sound deleted registered run) (line : Line) (taken : run.step deleted (.line line) = some next) :
    Sound deleted registered next := by
  obtain ⟨_, taken⟩ := Option.ite_none_left_eq_some.mp taken
  split at taken
  · cases taken
    exact ⟨h.heard, h.caught, h.listening, h.prepared, h.created, h.opened, h.failing⟩
  · cases taken
    exact ⟨h.heard, h.caught, h.listening, h.prepared, h.created, h.opened, h.failing⟩

theorem Sound.error (h : Sound deleted registered run) (message : String) (listening : run.errorListener = true)
    (early : run.closing.early = true) (owns : registered = true) (taken : run.step deleted (.error message) = some next) :
    Sound deleted registered next := by
  have none := h.listening listening
  have ready : run.setup = .ready := by
    by_contra early
    rw [(h.prepared early).2] at listening
    cases listening
  unfold Run.step at taken
  dsimp only at taken
  rw [if_pos listening] at taken
  cases taken
  refine ⟨h.heard, ?_, fun absurd => (nomatch absurd), fun absurd' => absurd ready absurd', h.created, h.opened, fun _ => ?_⟩
  · change (run.errored <|> some message) = some message
    rw [h.caught, none]
    rfl
  · change Failing deleted registered run.row run.closing
    cases closing : run.closing with
    | idle => exact owns
    | awaiting tasks exit => exact owns
    | _ => rw [closing] at early; cases early

theorem Sound.close (h : Sound deleted registered run) (exit : Exit) (taken : run.step deleted (.close exit) = some next) :
    Sound deleted registered next := by
  obtain ⟨open', taken⟩ := Option.ite_none_left_eq_some.mp taken
  obtain ⟨idle, _⟩ := h.opened ((Bool.not_eq_true _).mp open')
  split at taken
  · cases taken
    refine ⟨h.heard, h.caught, h.listening, h.prepared, h.created, fun absurd => (nomatch absurd), fun some => ?_⟩
    have failing := h.failing some
    rw [idle] at failing
    exact failing
  · cases taken
    exact ⟨h.heard, h.caught, h.listening, h.prepared, h.created, fun absurd => (nomatch absurd), h.failing⟩

theorem Sound.remap (h : Sound deleted registered run) {tasks : List Task}
    (keeps : ∀ r, (f r).status = r.status ∧ (f r).finished = r.finished) :
    Sound deleted registered { run with row := run.row.map f, tasks } :=
  ⟨h.heard, h.caught, h.listening, h.prepared, fun setup => by rw [Option.isSome_map]; exact h.created setup, h.opened,
    fun some => (h.failing some).map keeps⟩

theorem Sound.settleTask (h : Sound deleted registered run) (ok : Bool)
    (attended : ok = false → run.errored.isSome = true → ∀ n exit, run.closing ≠ .awaiting (n + 1) exit) :
    Sound deleted registered (run.settleTask ok) := by
  unfold Run.settleTask
  rcases settleTask_cases run.closing ok with same | ⟨n, exit, closing, same⟩
  · rw [same]
    exact ⟨h.heard, h.caught, h.listening, h.prepared, h.created, h.opened, h.failing⟩
  · rw [same]
    refine ⟨h.heard, h.caught, h.listening, h.prepared, h.created, fun open' => ?_, fun some => ?_⟩
    · have idle := (h.opened open').1
      rw [closing] at idle
      cases idle
    · have some : run.spawnError.isSome = true := some
      cases ok with
      | true =>
        have failing := h.failing some
        rw [closing] at failing
        exact failing
      | false => exact absurd closing (attended rfl (by rw [h.caught, some]) n exit)

theorem Sound.lineEnds (h : Sound deleted registered run) (ok : Bool)
    (attended : ok = false → run.errored.isSome = true → ∀ n exit, run.closing ≠ .awaiting (n + 1) exit)
    (taken : run.lineEnds ok = some next) : Sound deleted registered next := by
  unfold Run.lineEnds at taken
  split at taken
  · cases taken
  · next task rest _ =>
      cases ok with
      | false =>
        cases taken
        exact h.settleTask false attended
      | true =>
        cases task with
        | reading percent message =>
          cases taken
          exact ⟨h.heard, h.caught, h.listening, h.prepared, h.created, h.opened, h.failing⟩
        | writing progress message =>
          cases taken
          exact h.remap fun _ => ⟨rfl, rfl⟩
        | appending text =>
          cases taken
          exact ⟨h.heard, h.caught, h.listening, h.prepared, h.created, h.opened, h.failing⟩
        | emitting =>
          cases taken
          exact h.settleTask true nofun

theorem Sound.proceed (h : Sound deleted registered run) {writeFailed : Bool} (busy : run.closing ≠ .idle)
    (there : row.isSome = run.row.isSome)
    (failing : run.spawnError.isSome = true → Failing deleted registered row closing) :
    Sound deleted registered { run with row, closing, writeFailed } := by
  refine ⟨h.heard, h.caught, h.listening, h.prepared, fun setup => ?_, fun open' => absurd (h.opened open').1 busy, failing⟩
  rw [there]
  exact h.created setup

theorem Sound.finishEnds (h : Sound deleted registered run) (ok : Bool)
    (attended : ok = false → run.errored.isSome = true → ∀ outcome, run.closing ≠ .writing outcome)
    (taken : run.finishEnds ok = some next) : Sound deleted registered next := by
  unfold Run.finishEnds at taken
  split at taken
  · next exit closing =>
      cases taken
      exact h.proceed (by rw [closing]; exact nofun) rfl fun some => absurd (h.failing some) (by rw [closing]; exact id)
  · next message outcome closing =>
      have busy : run.closing ≠ .idle := by rw [closing]; exact nofun
      split at taken
      · cases taken
        exact h.proceed busy (Option.isSome_map ..) fun some => absurd (h.failing some) (by rw [closing]; exact id)
      · cases taken
        exact h.proceed busy rfl fun some => absurd (h.failing some) (by rw [closing]; exact id)
  · next outcome closing =>
      have busy : run.closing ≠ .idle := by rw [closing]; exact nofun
      cases ok with
      | true =>
        cases taken
        refine h.proceed busy (Option.isSome_map ..) fun some => ?_
        have failing := h.failing some
        rw [closing] at failing
        refine ⟨by rw [Option.isSome_map]; exact failing.2, fun r same => ?_⟩
        obtain ⟨before, _, rfl⟩ := Option.map_eq_some_iff.mp same
        exact ⟨failing.1, rfl⟩
      | false =>
        cases taken
        refine h.proceed busy rfl fun some => ?_
        exact absurd closing (attended rfl (by rw [h.caught, some]) outcome)
  · next closing =>
      cases taken
      refine h.proceed (by rw [closing]; exact nofun) rfl fun some => ?_
      have failing := h.failing some
      rw [closing] at failing
      exact failing
  · cases taken

theorem Sound.drained (h : Sound deleted registered run) (taken : run.drained registered = some next) (after : Bool) :
    Sound deleted after next := by
  unfold Run.drained at taken
  split at taken
  · next exit closing =>
      cases taken
      refine ⟨h.heard, h.caught, h.listening, h.prepared, h.created, fun open' => ?_, fun some => ?_⟩
      · have idle := (h.opened open').1
        rw [closing] at idle
        cases idle
      · have owns := h.failing some
        rw [closing] at owns
        have owns : registered = true := owns
        have some : run.spawnError.isSome = true := some
        obtain ⟨error, found⟩ := Option.isSome_iff_exists.mp some
        have ready : run.setup = .ready := by
          by_contra early
          rw [(h.prepared early).1] at found
          cases found
        simp only [owns, if_true, found]
        exact ⟨rfl, h.created (.inr ready)⟩
  · cases taken

theorem Sound.erase (h : Sound deleted registered run) : Sound true registered { run with row := none } := by
  refine ⟨h.heard, h.caught, h.listening, h.prepared, fun _ => .inr rfl, h.opened, fun some => ?_⟩
  have failing := h.failing some
  have recorded : Recorded true none := ⟨.inr rfl, fun _ absurd => (nomatch absurd)⟩
  cases closing : run.closing with
  | writing outcome => rw [closing] at failing; exact ⟨failing.1, .inr rfl⟩
  | emitting => exact recorded
  | settled => exact recorded
  | _ => rwa [closing] at failing

theorem Sound.mark (h : Sound deleted registered run)
    (unfinished : run.errored.isSome = true → ∀ row, run.row = some row → row.finished = false) :
    Sound deleted registered { run with row := run.row.map fun row => { row with status := .stopping } } := by
  refine ⟨h.heard, h.caught, h.listening, h.prepared, fun setup => by rw [Option.isSome_map]; exact h.created setup, h.opened,
    fun some => ?_⟩
  have failing := h.failing some
  have recorded (before : Recorded deleted run.row) :
      Recorded deleted (run.row.map fun row => { row with status := .stopping }) := by
    refine ⟨by rw [Option.isSome_map]; exact before.there, fun r same => ?_⟩
    obtain ⟨row, found, _⟩ := Option.map_eq_some_iff.mp same
    have finished := (before.failed row found).2
    rw [unfinished (by rw [h.caught, some]) row found] at finished
    cases finished
  cases closing : run.closing with
  | writing outcome => rw [closing] at failing; exact ⟨failing.1, by rw [Option.isSome_map]; exact failing.2⟩
  | emitting => rw [closing] at failing; exact recorded failing
  | settled => rw [closing] at failing; exact recorded failing
  | _ => rwa [closing] at failing

theorem Sound.reregister (h : Sound deleted registered run) {after : Bool}
    (kept : run.errored.isSome = true → registered = true → after = true) : Sound deleted after run := by
  refine ⟨h.heard, h.caught, h.listening, h.prepared, h.created, h.opened, fun some => ?_⟩
  have failing := h.failing some
  have kept := kept (by rw [h.caught, some])
  cases closing : run.closing with
  | idle => rw [closing] at failing; exact kept failing
  | awaiting tasks exit => rw [closing] at failing; exact kept failing
  | _ => rwa [closing] at failing

end

def Inv (s : State) : Prop :=
  s.runs.Forall fun i run => Sound s.deleted (decide (s.registry = some i)) run

variable {s : State}

theorem Inv.handled (h : Inv s) : ErrorsHandled s := by
  refine ⟨fun i run there => (h i run there).heard, fun i run there errored settled => ?_⟩
  have sound := h i run there
  have failing := sound.failing (by rw [← sound.caught, errored])
  rw [settled] at failing
  cases row : run.row with
  | none =>
    have there := Recorded.there failing
    rw [row] at there
    exact .inr (there.resolve_left nofun)
  | some r => exact .inl (congrArg some (Recorded.failed failing r row).1)

variable {run : Run}

theorem Run.step_sound {deleted registered : Bool} {next : Run} {e : RunEvent} (h : Sound deleted registered run)
    (error : ∀ message, e = .error message → run.errorListener = true ∧ run.closing.early = true ∧ registered = true)
    (line : e = .lineEnds false → run.errored.isSome = true → ∀ n exit, run.closing ≠ .awaiting (n + 1) exit)
    (finish : e = .finishEnds false → run.errored.isSome = true → ∀ outcome, run.closing ≠ .writing outcome)
    (taken : run.step deleted e = some next) : Sound deleted registered next := by
  cases e with
  | created ok => exact h.created_step ok taken
  | progressed ok => exact h.progressed ok taken
  | line output => exact h.line output taken
  | error message =>
    obtain ⟨listening, early, owns⟩ := error message rfl
    exact h.error message listening early owns taken
  | close exit => exact h.close exit taken
  | lineEnds ok => exact h.lineEnds ok (fun failed => line (failed ▸ rfl)) taken
  | finishEnds ok => exact h.finishEnds ok (fun failed => finish (failed ▸ rfl)) taken

theorem Inv.spawn (h : Inv s) (mode : Mode)
    (quiet : ∀ i run, s.registry = some i → s.runs i = some run → run.errored = none) : Inv (s.spawn mode) := by
  intro i run there
  rcases Calls.put_eq_some there with ⟨_, rfl⟩ | ⟨_, old⟩
  · exact Sound.spawned mode
  · refine (h i run old).reregister fun errored owns => ?_
    rw [quiet i run (of_decide_eq_true owns) old] at errored
    cases errored

theorem Inv.answer (h : Inv s) (k : Nat) (call : Call)
    (rebinding : ∀ mode, call = .rebinding mode → ∀ i run, s.registry = some i → s.runs i = some run → run.errored = none)
    (marking : ∀ i, call = .marking i → ∀ run, s.runs i = some run → run.errored.isSome = true →
      ∀ row, run.row = some row → row.finished = false) : Inv (s.answer k call) := by
  cases call with
  | starting mode rebinds =>
    unfold State.answer
    dsimp only
    split
    · exact h
    · next free =>
        split
        · exact h
        · refine Inv.spawn (s := { s with calls := s.calls.drop k }) h mode fun i run owns => ?_
          exact absurd (.inr (by rw [owns]; rfl)) free
  | rebinding mode =>
    unfold State.answer
    dsimp only
    split
    · exact h
    · exact Inv.spawn (s := { s with calls := s.calls.drop k }) h mode (rebinding mode rfl)
  | stopping =>
    unfold State.answer
    dsimp only
    split <;> exact h
  | choosing =>
    unfold State.answer
    dsimp only
    split <;> exact h
  | marking i =>
    intro j run there
    rcases Calls.modify_eq_some there with ⟨rfl, before, found, rfl⟩ | ⟨_, old⟩
    · exact (h j before found).mark (marking j rfl before found)
    · exact h j run old
  | deleting =>
    unfold State.answer
    dsimp only
    split <;> exact h
  | erasing =>
    intro i run there
    obtain ⟨before, found, rfl⟩ := Calls.mapAll_eq_some there
    exact (h i before found).erase

theorem inv_step (s : State) (e : Event) (t : State) (h : Inv s) (attended : Attended s e) (taken : step s e = some t) :
    Inv t := by
  cases e with
  | call request =>
    cases taken
    exact h
  | answered k ok =>
    obtain ⟨call, there, rfl⟩ := Option.map_eq_some_iff.mp taken
    cases ok with
    | true =>
      obtain ⟨rebinding, marking⟩ := attended
      exact h.answer k call (fun mode same => rebinding mode (same ▸ there)) (fun i same => marking i (same ▸ there))
    | false => exact h
  | run i event =>
    simp only [step] at taken
    split at taken
    · next run there =>
        obtain ⟨next, stepped, rfl⟩ := Option.map_eq_some_iff.mp taken
        refine Calls.Forall.put h (Run.step_sound (h i run there) (fun message same => ?_) (fun same => ?_) (fun same => ?_) stepped)
        · subst same
          obtain ⟨listening, early, owns⟩ := attended run there
          exact ⟨listening, early, decide_eq_true owns⟩
        · subst same
          exact attended run there
        · subst same
          exact attended run there
    · cases taken
  | drained i =>
    simp only [step] at taken
    split at taken
    · next run there =>
        obtain ⟨next, done, rfl⟩ := Option.map_eq_some_iff.mp taken
        intro j other found
        rcases Calls.put_eq_some found with ⟨rfl, rfl⟩ | ⟨other', old⟩
        · exact (h j run there).drained done _
        · refine (h j other old).reregister fun _ owns => ?_
          have owns : s.registry = some j := of_decide_eq_true owns
          have kept : s.registry ≠ some i := by
            rw [owns]
            exact fun same => other' (Option.some.inj same)
          rw [if_neg kept, owns]
          exact decide_eq_true rfl
    · cases taken

theorem Inv.init : Inv {} := fun _ _ absurd => nomatch absurd

/-- A test for `Attended`, which lets nothing fail once there has been an error. -/
def attended (s : State) : Event → Bool
  | .run i (.error _) => (s.runs i).all fun run => run.errorListener && run.closing.early && decide (s.registry = some i)
  | .run i (.lineEnds false) => (s.runs i).all fun run => run.errored.isNone
  | .run i (.finishEnds false) => (s.runs i).all fun run => run.errored.isNone
  | .answered k true =>
    match s.calls k with
    | some (.rebinding _) => s.registry.all fun i => (s.runs i).all fun run => run.errored.isNone
    | some (.marking i) => (s.runs i).all fun run => run.errored.isNone
    | _ => true
  | _ => true

theorem errored_none {runs : Option Run} (passed : (runs.all fun run => run.errored.isNone) = true)
    (there : runs = some run) : run.errored = none := by
  rw [there] at passed
  exact Option.isNone_iff_eq_none.mp passed

theorem attended_sound (s : State) (e : Event) (passed : attended s e = true) : Attended s e := by
  have unfailed {run : Run} (quiet : run.errored = none) (P : Prop) : run.errored.isSome = true → P := by
    rw [quiet]
    exact fun absurd => (nomatch absurd)
  cases e with
  | call request => trivial
  | drained i => trivial
  | answered k ok =>
    cases ok with
    | false => trivial
    | true =>
      unfold attended at passed
      refine ⟨fun mode there i run owns found => ?_, fun i there run found => ?_⟩
      · simp only [there, owns, Option.all_some] at passed
        exact errored_none passed found
      · simp only [there] at passed
        exact unfailed (errored_none passed found) _
  | run i event =>
    cases event with
    | error message =>
      intro run there
      simp only [attended, there, Option.all_some, Bool.and_eq_true, decide_eq_true_eq] at passed
      exact ⟨passed.1.1, passed.1.2, passed.2⟩
    | lineEnds ok =>
      cases ok with
      | true => trivial
      | false => exact fun run there => unfailed (errored_none passed there) _
    | finishEnds ok =>
      cases ok with
      | true => trivial
      | false => exact fun run there => unfailed (errored_none passed there) _
    | _ => trivial

end RoutineManager
