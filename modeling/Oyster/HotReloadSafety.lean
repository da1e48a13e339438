import Oyster.History
import Oyster.HotReload

/-! No change is lost by the hot reload, loads do not overlap, an application serves until
the next one is committed, and none is committed once the server shuts down. -/
namespace HotReload
open Interleaving History

def unseen : List Event → Bool
  | .observed :: _ => true
  | .started _ :: _ => false
  | _ :: log => unseen log
  | [] => false

def lastCommitted : List Event → Option Nat
  | .committed generation :: _ => some generation
  | _ :: log => lastCommitted log
  | [] => none

/-- When an event may come after those before it (newest first). -/
def Permitted : Event → List Event → Prop
  | .committed generation, before => .shutdown ∉ before ∧ .disposed generation ∉ before
  | .failed generation, before => .committed generation ∉ before
  | _, _ => True

structure Kept (s : State) : Prop where
  /-- Before a shutdown an unseen change has a reload timer or a running reload. -/
  covered : s.shuttingDown = false → unseen s.log = true → s.timers ≠ [] ∨ s.loads ≠ []
  single : s.loads.length ≤ 1
  /-- The application committed last serves, whatever has failed since, and is not disposed of. -/
  serving : s.app.map Application.generation = lastCommitted s.log ∧ ∀ app, s.app = some app → .disposed app.generation ∉ s.log
  fits : Fits Permitted s.log

def Event.generation? : Event → Option Nat
  | .started generation | .committed generation | .failed generation | .disposed generation => some generation
  | .observed | .shutdown => none

structure Base (s : State) : Prop where
  fits : Fits Permitted s.log
  timers : s.timers = s.reloadTimer.toList
  pending : s.shuttingDown = false → truthy s.pendingReload = true → s.reloadTimer.isSome = true ∨ s.reloadInProgress = true
  unseen : s.shuttingDown = false → unseen s.log = true → truthy s.pendingReload = true
  app : s.app.map Application.generation = lastCommitted s.log
  undisposed : ∀ app, s.app = some app → .disposed app.generation ∉ s.log
  shutdown : .shutdown ∈ s.log ↔ s.shuttingDown = true
  unbooted : s.booted = false → s.reloadTimer = none
  bounded : ∀ e ∈ s.log, ∀ generation, e.generation? = some generation → generation ≤ s.nextApplicationGeneration

def AtPlace (s : State) (load : Load) : Prop :=
  match load.place with
  | .importing | .building _ | .activating _ _ => .committed load.generation ∉ s.log ∧ .disposed load.generation ∉ s.log
  | .cleaning => .committed load.generation ∉ s.log
  | .retiring previous _ | .delaying previous _ =>
    s.app.map Application.generation = some load.generation ∧ previous.generation < load.generation

inductive Loads (s : State) : Prop
  | idle (loads : s.loads = []) (rest : s.reloadInProgress = false)
  | busy (load : Load) (loads : s.loads = [load]) (newest : load.generation = s.nextApplicationGeneration)
      (boot : load.boot = !s.booted) (running : s.reloadInProgress = s.booted) (place : AtPlace s load)

structure Inv (s : State) : Prop where
  base : Base s
  loads : Loads s

variable {s : State}

theorem Inv.kept (inv : Inv s) : Kept s where
  covered := by
    intro awake changed
    rcases inv.base.pending awake (inv.base.unseen awake changed) with armed | running
    · left
      rw [inv.base.timers]
      obtain ⟨id, same⟩ := Option.isSome_iff_exists.mp armed
      simp [same]
    · right
      cases inv.loads with
      | idle loads rest => exact nomatch rest.symm.trans running
      | busy load loads => simp [loads]
  single := by
    cases inv.loads with
    | idle loads => simp [loads]
    | busy load loads => simp [loads]
  serving := ⟨inv.base.app, inv.base.undisposed⟩
  fits := inv.base.fits

variable {generation : Nat}

theorem lastCommitted_mem {log : List Event} (last : lastCommitted log = some generation) :
    .committed generation ∈ log := by
  induction log with
  | nil => cases last
  | cons e log ih =>
    cases e with
    | committed other =>
      cases last
      exact List.mem_cons_self ..
    | observed | started | failed | disposed | shutdown => exact List.mem_cons_of_mem _ (ih last)

theorem Base.app_committed (base : Base s) {app : Application} (serves : s.app = some app) :
    .committed app.generation ∈ s.log :=
  lastCommitted_mem (by rw [← base.app, serves]; rfl)

/-- Events that say nothing about changes, commits or the shutdown. -/
def Event.plain : Event → Prop
  | .failed _ | .disposed _ => True
  | _ => False

variable {e : Event}

theorem Base.note (base : Base s) (plain : e.plain) (permitted : Permitted e s.log)
    (known : ∀ generation, e.generation? = some generation → generation ≤ s.nextApplicationGeneration)
    (other : ∀ app, s.app = some app → e ≠ .disposed app.generation) : Base (s.note e) where
  fits := base.fits.cons permitted
  timers := base.timers
  pending := base.pending
  unseen := by
    cases e with
    | failed | disposed => exact base.unseen
    | observed | started | committed | shutdown => cases plain
  app := by
    cases e with
    | failed | disposed => exact base.app
    | observed | started | committed | shutdown => cases plain
  undisposed := by
    intro app serves mem
    rcases List.mem_cons.mp mem with same | old
    · exact other app serves same.symm
    · exact base.undisposed app serves old
  shutdown := by
    rw [State.note, List.mem_cons, base.shutdown]
    exact or_iff_right fun same => by cases e <;> first | exact plain | cases same
  unbooted := base.unbooted
  bounded := by
    intro e' mem
    rcases List.mem_cons.mp mem with rfl | old
    · exact known
    · exact base.bounded e' old

theorem Base.withLoads (base : Base s) (loads : List Load) {booted : Bool} (kept : booted = false → s.booted = false) :
    Base { s with loads := loads, booted := booted } :=
  ⟨base.fits, base.timers, base.pending, base.unseen, base.app, base.undisposed, base.shutdown,
    fun unbooted => base.unbooted (kept unbooted), base.bounded⟩

theorem Base.reloadEnds (base : Base s) (booted : s.booted = true) : Base s.reloadEnds := by
  unfold State.reloadEnds
  dsimp only
  split_ifs with rearm
  · obtain ⟨⟨changed, none⟩, awake⟩ := Bool.and_eq_true_iff.mp rearm |>.imp Bool.and_eq_true_iff.mp id
    refine ⟨base.fits, ?_, fun _ _ => .inl rfl, base.unseen, base.app, base.undisposed, base.shutdown,
      fun unbooted => (nomatch unbooted.symm.trans booted), base.bounded⟩
    rw [State.armTimer, base.timers, Option.isNone_iff_eq_none.mp none]
    rfl
  · refine ⟨base.fits, base.timers, ?_, base.unseen, base.app, base.undisposed, base.shutdown, base.unbooted, base.bounded⟩
    intro awake changed
    left
    cases timer : s.reloadTimer with
    | none => exact absurd (by simp [changed, timer, show s.shuttingDown = false from awake]) rearm
    | some id => rfl

theorem reloadEnds_loads (s : State) : s.reloadEnds.loads = s.loads := by
  unfold State.reloadEnds
  dsimp only
  split_ifs <;> rfl

theorem reloadEnds_rest (s : State) : s.reloadEnds.reloadInProgress = false := by
  unfold State.reloadEnds
  dsimp only
  split_ifs <;> rfl

/-- `load` is the one load. -/
structure Busy (s : State) (load : Load) : Prop where
  loads : s.loads = [load]
  newest : load.generation = s.nextApplicationGeneration
  boot : load.boot = !s.booted
  running : s.reloadInProgress = s.booted

variable {load : Load}

theorem Busy.inv (busy : Busy s load) (base : Base s) (place : AtPlace s load) : Inv s :=
  ⟨base, .busy load busy.loads busy.newest busy.boot busy.running place⟩

theorem Busy.drop (busy : Busy s load) : (s.drop load).loads = [] := by
  simp [State.drop, busy.loads]

theorem Busy.goto (busy : Busy s load) (place : Place) : Busy (s.goto load place) { load with place := place } where
  loads := by simp [State.goto, busy.loads]
  newest := busy.newest
  boot := busy.boot
  running := busy.running

theorem Base.goto (base : Base s) (load : Load) (place : Place) : Base (s.goto load place) :=
  base.withLoads _ id

theorem loadReturns_inv (base : Base s) (busy : Busy s load) : Inv (s.loadReturns load) := by
  unfold State.loadReturns
  split_ifs with boot
  · refine ⟨base.withLoads _ nofun, .idle busy.drop ?_⟩
    have booting : s.booted = false := by simpa [boot] using busy.boot
    exact busy.running.trans booting
  · have booted : s.booted = true := by simpa [boot] using busy.boot
    exact ⟨(base.withLoads _ id).reloadEnds booted, .idle ((reloadEnds_loads _).trans busy.drop) (reloadEnds_rest _)⟩

theorem loadFails_inv (base : Base s) (busy : Busy s load) (uncommitted : .committed load.generation ∉ s.log) :
    Inv (s.loadFails load) := by
  have noted : Base ((s.drop load).note (.failed load.generation)) := by
    refine (base.withLoads _ id).note trivial uncommitted ?_ (fun _ _ => nofun)
    intro generation same
    exact Option.some.inj same ▸ Nat.le_of_eq busy.newest
  unfold State.loadFails
  split_ifs with boot
  · refine ⟨noted, .idle busy.drop ?_⟩
    have booting : s.booted = false := by simpa [boot] using busy.boot
    exact busy.running.trans booting
  · have booted : s.booted = true := by simpa [boot] using busy.boot
    exact ⟨noted.reloadEnds booted, .idle ((reloadEnds_loads _).trans busy.drop) (reloadEnds_rest _)⟩

theorem candidateFails_inv (candidate : Option Candidate) (base : Base s) (busy : Busy s load)
    (uncommitted : .committed load.generation ∉ s.log) : Inv (s.candidateFails load candidate) := by
  unfold State.candidateFails
  split_ifs with disposes
  · have noted : Base ((s.goto load .cleaning).note (.disposed load.generation)) := by
      refine (base.goto load .cleaning).note trivial trivial ?_ ?_
      · intro generation same
        exact Option.some.inj same ▸ Nat.le_of_eq busy.newest
      · rintro app serves same
        rw [Event.disposed.inj same] at uncommitted
        exact uncommitted (base.app_committed serves)
    have there : Busy ((s.goto load .cleaning).note (.disposed load.generation)) { load with place := .cleaning } :=
      ⟨(busy.goto .cleaning).loads, busy.newest, busy.boot, busy.running⟩
    refine there.inv noted fun mem => ?_
    rcases List.mem_cons.mp mem with same | old
    · cases same
    · exact uncommitted old
  · exact loadFails_inv base busy uncommitted

variable {previous : Application}

theorem retire_inv (attempt : Nat) (base : Base s) (busy : Busy s load)
    (serves : s.app.map Application.generation = some load.generation) (older : previous.generation < load.generation) :
    Inv (s.retire load previous attempt) := by
  have noted : Base (s.retire load previous attempt) := by
    refine (base.goto load _).note trivial trivial ?_ ?_
    · intro generation same
      exact Option.some.inj same ▸ Nat.le_trans (Nat.le_of_lt older) (Nat.le_of_eq busy.newest)
    · rintro app found same
      rw [show s.app = some app from found] at serves
      have current : app.generation = load.generation := Option.some.inj serves
      rw [Event.disposed.inj same, current] at older
      exact Nat.lt_irrefl _ older
  have there : Busy (s.retire load previous attempt) { load with place := .retiring previous attempt } :=
    ⟨(busy.goto _).loads, busy.newest, busy.boot, busy.running⟩
  exact there.inv noted ⟨serves, older⟩

theorem Base.commit (base : Base s) (candidate : Candidate) (newest : load.generation = s.nextApplicationGeneration)
    (awake : s.shuttingDown = false) (undisposed : .disposed load.generation ∉ s.log) :
    Base (State.note { s with app := some ⟨load.generation, candidate.dispose⟩, reloadCount := s.reloadCount + 1 }
      (.committed load.generation)) where
  fits := by
    refine base.fits.cons ⟨fun mem => ?_, undisposed⟩
    exact nomatch awake.symm.trans (base.shutdown.mp mem)
  timers := base.timers
  pending := base.pending
  unseen := base.unseen
  app := rfl
  undisposed := by
    intro app serves mem
    cases serves
    rcases List.mem_cons.mp mem with same | old
    · cases same
    · exact undisposed old
  shutdown := by
    rw [State.note, List.mem_cons, base.shutdown]
    exact or_iff_right fun same => nomatch same
  unbooted := base.unbooted
  bounded := by
    intro e mem generation same
    rcases List.mem_cons.mp mem with rfl | old
    · exact Option.some.inj same ▸ Nat.le_of_eq newest
    · exact base.bounded e old generation same

theorem commit_inv (candidate : Candidate) (base : Base s) (busy : Busy s load) (awake : s.shuttingDown = false)
    (uncommitted : .committed load.generation ∉ s.log) (undisposed : .disposed load.generation ∉ s.log) :
    Inv (s.commit load candidate) := by
  have noted := base.commit candidate busy.newest awake undisposed
  have there : Busy (State.note { s with app := some ⟨load.generation, candidate.dispose⟩, reloadCount := s.reloadCount + 1 }
      (.committed load.generation)) load := ⟨busy.loads, busy.newest, busy.boot, busy.running⟩
  unfold State.commit
  split
  · next previous before =>
      split_ifs with disposes
      · have older : previous.generation < load.generation := by
          have known := base.bounded _ (base.app_committed before) _ rfl
          rw [← busy.newest] at known
          refine Nat.lt_of_le_of_ne known fun same => ?_
          exact uncommitted (same ▸ base.app_committed before)
        exact retire_inv 1 noted there rfl older
      · exact loadReturns_inv noted there
  · exact loadReturns_inv noted there

theorem candidateReady_inv (transactional : Bool) (candidate : Candidate) (base : Base s) (busy : Busy s load)
    (uncommitted : .committed load.generation ∉ s.log) (undisposed : .disposed load.generation ∉ s.log) :
    Inv (s.candidateReady load transactional candidate) := by
  unfold State.candidateReady
  split_ifs with ending lacking
  · exact candidateFails_inv _ base busy uncommitted
  · exact candidateFails_inv _ base busy uncommitted
  · exact commit_inv candidate base busy (Bool.eq_false_iff.mpr ending) uncommitted undisposed

theorem imported_inv (module : Option Exports) (base : Base s) (busy : Busy s load)
    (uncommitted : .committed load.generation ∉ s.log) (undisposed : .disposed load.generation ∉ s.log) :
    Inv (s.imported load module) := by
  unfold State.imported
  cases module with
  | none => exact loadFails_inv base busy uncommitted
  | some module =>
    dsimp only
    split_ifs with lacking
    · exact loadFails_inv base busy uncommitted
    · exact (busy.goto _).inv (base.goto load _) ⟨uncommitted, undisposed⟩

theorem built_inv (transactional : Bool) (candidate : Option Candidate) (base : Base s) (busy : Busy s load)
    (uncommitted : .committed load.generation ∉ s.log) (undisposed : .disposed load.generation ∉ s.log) :
    Inv (s.built load transactional candidate) := by
  unfold State.built
  cases candidate with
  | none => exact candidateFails_inv none base busy uncommitted
  | some candidate =>
    dsimp only
    split_ifs with lacking activates
    · exact candidateFails_inv _ base busy uncommitted
    · exact (busy.goto _).inv (base.goto load _) ⟨uncommitted, undisposed⟩
    · exact candidateReady_inv transactional candidate base busy uncommitted undisposed

theorem activated_inv (transactional : Bool) (candidate : Candidate) (ok : Bool) (base : Base s) (busy : Busy s load)
    (uncommitted : .committed load.generation ∉ s.log) (undisposed : .disposed load.generation ∉ s.log) :
    Inv (s.activated load transactional candidate ok) := by
  unfold State.activated
  split_ifs with active
  · exact candidateReady_inv transactional candidate base busy uncommitted undisposed
  · exact candidateFails_inv _ base busy uncommitted

theorem retired_inv (attempt : Nat) (result : Settled) (base : Base s) (busy : Busy s load)
    (serves : s.app.map Application.generation = some load.generation) (older : previous.generation < load.generation) :
    Inv (s.retired load previous attempt result) := by
  unfold State.retired
  cases result with
  | fulfilled => exact loadReturns_inv base busy
  | rejectedBare => exact loadReturns_inv base busy
  | rejected =>
    split_ifs with again
    · exact (busy.goto _).inv (base.goto load _) ⟨serves, older⟩
    · exact loadReturns_inv base busy

variable {t : State}

theorem AtPlace.note (place : AtPlace s load) (app : t.app = s.app) (log : t.log = e :: s.log)
    (notCommitted : ∀ generation, e ≠ .committed generation) (notDisposed : ∀ generation, e ≠ .disposed generation) :
    AtPlace t load := by
  have committed : ∀ generation, .committed generation ∉ s.log → .committed generation ∉ t.log := by
    intro generation absent mem
    rcases List.mem_cons.mp (log ▸ mem) with same | old
    · exact notCommitted generation same.symm
    · exact absent old
  have disposed : ∀ generation, .disposed generation ∉ s.log → .disposed generation ∉ t.log := by
    intro generation absent mem
    rcases List.mem_cons.mp (log ▸ mem) with same | old
    · exact notDisposed generation same.symm
    · exact absent old
  unfold AtPlace at place ⊢
  cases at_place : load.place <;> rw [at_place] at place <;> dsimp only at place ⊢
  case importing | building | activating => exact ⟨committed _ place.1, disposed _ place.2⟩
  case cleaning => exact committed _ place
  case retiring | delaying => exact ⟨app ▸ place.1, place.2⟩

theorem Loads.note (loads : Loads s) (same : t.loads = s.loads) (app : t.app = s.app) (log : t.log = e :: s.log)
    (next : t.nextApplicationGeneration = s.nextApplicationGeneration) (booted : t.booted = s.booted)
    (running : t.reloadInProgress = s.reloadInProgress) (notCommitted : ∀ generation, e ≠ .committed generation)
    (notDisposed : ∀ generation, e ≠ .disposed generation) : Loads t := by
  cases loads with
  | idle loads rest => exact .idle (same.trans loads) (running.trans rest)
  | busy load loads newest boot run place =>
    exact .busy load (same.trans loads) (newest.trans next.symm) (by rw [boot, booted]) (by rw [running, booted, run])
      (place.note app log notCommitted notDisposed)

theorem scheduleReload_inv {changed : String} (named : changed ≠ "") (booted : s.booted = true) (inv : Inv s) :
    Inv (s.scheduleReload changed) := by
  unfold State.scheduleReload
  split_ifs with ending
  · exact inv
  · have base := inv.base
    refine ⟨?_, inv.loads.note rfl rfl rfl rfl rfl rfl (fun _ => nofun) (fun _ => nofun)⟩
    constructor
    · exact base.fits.cons trivial
    · simp only [State.note, State.armTimer, State.clearTimer, base.timers]
      cases s.reloadTimer <;> simp
    · exact fun _ _ => .inl rfl
    · intro _ _
      simpa [truthy, State.note, State.armTimer, State.clearTimer] using named
    · exact base.app
    · intro app serves mem
      rcases List.mem_cons.mp mem with same | old
      · cases same
      · exact base.undisposed app serves old
    · simpa [State.note, State.armTimer, State.clearTimer] using base.shutdown
    · exact fun unbooted => nomatch unbooted.symm.trans booted
    · intro e mem generation same
      rcases List.mem_cons.mp mem with rfl | old
      · cases same
      · exact base.bounded e old generation same

theorem Base.loadApp (base : Base s) (boot : Bool) (log : t.log = s.log) (app : t.app = s.app)
    (next : t.nextApplicationGeneration = s.nextApplicationGeneration) (ending : t.shuttingDown = s.shuttingDown)
    (timers : t.timers = t.reloadTimer.toList) (unbooted : t.booted = false → t.reloadTimer = none)
    (settled : t.pendingReload = none) : Base (t.loadApp boot) where
  fits := by
    rw [State.loadApp, log]
    exact base.fits.cons trivial
  timers := timers
  pending := by
    intro _ changed
    simp [State.loadApp, settled, truthy] at changed
  unseen := fun _ changed => nomatch changed
  app := by
    rw [State.loadApp, log, app]
    exact base.app
  undisposed := by
    intro app' serves mem
    rcases List.mem_cons.mp mem with same | old
    · cases same
    · exact base.undisposed app' (app ▸ serves) (log ▸ old)
  shutdown := by
    rw [State.loadApp, log, ending, List.mem_cons, base.shutdown]
    exact or_iff_right fun same => nomatch same
  unbooted := unbooted
  bounded := by
    intro e mem generation same
    rw [State.loadApp, next]
    rcases List.mem_cons.mp mem with rfl | old
    · exact next ▸ Nat.le_of_eq (Option.some.inj same).symm
    · exact Nat.le_succ_of_le (base.bounded e (log ▸ old) generation same)

theorem AtPlace.start (boot : Bool)
    (bounded : ∀ e ∈ s.log, ∀ generation, e.generation? = some generation → generation ≤ s.nextApplicationGeneration) :
    AtPlace (s.loadApp boot) ⟨s.nextApplicationGeneration + 1, boot, .importing⟩ := by
  have new : ∀ e, e.generation? = some (s.nextApplicationGeneration + 1) → e ∉ s.log := by
    intro e named mem
    exact absurd (bounded e mem _ named) (Nat.not_succ_le_self _)
  constructor
  · intro mem
    rcases List.mem_cons.mp mem with same | old
    · cases same
    · exact new _ rfl old
  · intro mem
    rcases List.mem_cons.mp mem with same | old
    · cases same
    · exact new _ rfl old

theorem timerFires_inv {id : Nat} (armed : id ∈ s.timers) (inv : Inv s) : Inv (s.timerFires id) := by
  have base := inv.base
  have timer : s.reloadTimer = some id := by
    rw [base.timers] at armed
    exact Option.mem_toList.mp armed
  have booted : s.booted = true := by
    cases booting : s.booted with
    | true => rfl
    | false => exact nomatch timer.symm.trans (base.unbooted booting)
  have none : (s.timers.filter fun other => decide (other ≠ id)) = [] := by
    rw [base.timers, timer]
    simp
  unfold State.timerFires State.drainReloads
  rw [none]
  split_ifs with skip
  · refine ⟨⟨base.fits, rfl, ?_, base.unseen, base.app, base.undisposed, base.shutdown, fun _ => rfl, base.bounded⟩, ?_⟩
    · intro awake changed
      right
      have awake : s.shuttingDown = false := awake
      simpa [awake, changed] using skip
    · cases inv.loads with
      | idle loads rest => exact .idle loads rest
      | busy load loads newest boot running place => exact .busy load loads newest boot running place
  · obtain ⟨⟨rest, awake⟩, changed⟩ : (s.reloadInProgress = false ∧ s.shuttingDown = false) ∧ truthy s.pendingReload = true := by
      simpa [and_assoc] using skip
    have idle : s.loads = [] := by
      cases inv.loads with
      | idle loads => exact loads
      | busy load loads newest boot running => exact nomatch (rest.symm.trans running).trans booted
    refine ⟨base.loadApp false rfl rfl rfl rfl rfl (fun _ => rfl) rfl, ?_⟩
    refine .busy ⟨s.nextApplicationGeneration + 1, false, .importing⟩ ?_ rfl (by rw [State.loadApp, booted]; rfl) booted.symm
      (AtPlace.start false base.bounded)
    rw [State.loadApp, idle]
    rfl

theorem shutdown_inv (inv : Inv s) : Inv s.shutdown := by
  have base := inv.base
  unfold State.shutdown
  split_ifs with ending
  · exact inv
  · refine ⟨?_, inv.loads.note rfl rfl rfl rfl rfl rfl (fun _ => nofun) (fun _ => nofun)⟩
    constructor
    · exact base.fits.cons trivial
    · simp only [State.note, State.clearTimer, base.timers]
      cases s.reloadTimer <;> simp
    · exact fun awake => nomatch awake
    · exact fun awake => nomatch awake
    · exact base.app
    · intro app serves mem
      rcases List.mem_cons.mp mem with same | old
      · cases same
      · exact base.undisposed app serves old
    · simp [State.note, State.clearTimer]
    · exact fun _ => rfl
    · intro e mem generation same
      rcases List.mem_cons.mp mem with rfl | old
      · cases same
      · exact base.bounded e old generation same

theorem Inv.init : Inv init := by
  have empty : Base {} := by
    constructor
    · trivial
    · rfl
    · exact fun _ changed => nomatch changed
    · exact fun _ changed => nomatch changed
    · rfl
    · exact fun app none => nomatch none
    · exact ⟨fun mem => absurd mem List.not_mem_nil, fun ending => nomatch ending⟩
    · exact fun _ => rfl
    · exact fun e mem => absurd mem List.not_mem_nil
  refine ⟨empty.loadApp true rfl rfl rfl rfl rfl (fun _ => rfl) rfl, ?_⟩
  exact .busy ⟨1, true, .importing⟩ rfl rfl rfl rfl (AtPlace.start true empty.bounded)

theorem Inv.busy (inv : Inv s) (found : s.load generation = some load) : Busy s load ∧ AtPlace s load := by
  have mem : load ∈ s.loads := List.mem_of_find?_eq_some found
  cases inv.loads with
  | idle loads => simp [loads] at mem
  | busy only loads newest boot running place =>
    obtain rfl : load = only := by simpa [loads] using mem
    exact ⟨⟨loads, newest, boot, running⟩, place⟩

theorem inv_step (reloadable : List String) (s : State) (a : Action) (t : State) (inv : Inv s) (_ : Free s a)
    (h : step reloadable s a = some t) : Inv t := by
  cases a with
  | change changed =>
    obtain ⟨⟨booted, _, named⟩, rest⟩ := Option.ite_none_right_eq_some.mp h
    cases rest
    exact scheduleReload_inv named booted inv
  | timer id =>
    obtain ⟨armed, rest⟩ := Option.ite_none_right_eq_some.mp h
    cases rest
    exact timerFires_inv armed inv
  | shutdown =>
    obtain ⟨_, rest⟩ := Option.ite_none_right_eq_some.mp h
    cases rest
    exact shutdown_inv inv
  | imported generation module =>
    obtain ⟨load, found, rest⟩ := Option.bind_eq_some_iff.mp h
    obtain ⟨busy, place⟩ := inv.busy found
    split at rest <;> cases rest
    next there =>
      rw [AtPlace, there] at place
      exact imported_inv module inv.base busy place.1 place.2
  | built generation candidate =>
    obtain ⟨load, found, rest⟩ := Option.bind_eq_some_iff.mp h
    obtain ⟨busy, place⟩ := inv.busy found
    split at rest <;> cases rest
    next transactional there =>
      rw [AtPlace, there] at place
      exact built_inv transactional candidate inv.base busy place.1 place.2
  | activated generation ok =>
    obtain ⟨load, found, rest⟩ := Option.bind_eq_some_iff.mp h
    obtain ⟨busy, place⟩ := inv.busy found
    split at rest <;> cases rest
    next transactional candidate there =>
      rw [AtPlace, there] at place
      exact activated_inv transactional candidate ok inv.base busy place.1 place.2
  | cleaned generation =>
    obtain ⟨load, found, rest⟩ := Option.bind_eq_some_iff.mp h
    obtain ⟨busy, place⟩ := inv.busy found
    split at rest <;> cases rest
    next there =>
      rw [AtPlace, there] at place
      exact loadFails_inv inv.base busy place
  | retired generation result =>
    obtain ⟨load, found, rest⟩ := Option.bind_eq_some_iff.mp h
    obtain ⟨busy, place⟩ := inv.busy found
    split at rest <;> cases rest
    next previous attempt there =>
      rw [AtPlace, there] at place
      exact retired_inv attempt result inv.base busy place.1 place.2
  | delayed generation =>
    obtain ⟨load, found, rest⟩ := Option.bind_eq_some_iff.mp h
    obtain ⟨busy, place⟩ := inv.busy found
    split at rest <;> cases rest
    next previous attempt there =>
      rw [AtPlace, there] at place
      exact retire_inv (attempt + 1) inv.base busy place.1 place.2

/-- In every run of the server no change is lost, one load runs at a time, the application committed last
serves, and none is committed after a shutdown. -/
theorem reload_kept (reloadable : List String) (actions : List Action) (s : State)
    (run : Run (step reloadable) Free init actions s) : Kept s :=
  (run.invariant (inv_step reloadable) Inv.init).kept

/-- A change comes as the reload of another one is retiring the old application, whose timer runs out too early;
the second reload fails, and the server shuts down. -/
def twoChanges : List Action :=
  [.imported 1 (some ⟨true, true⟩), .built 1 (some ⟨true, true, true, true⟩), .activated 1 true,
    .change "runners.mjs", .timer 0, .imported 2 (some ⟨true, true⟩), .built 2 (some ⟨true, true, true, true⟩), .activated 2 true,
    .retired 2 .rejected, .change "app.mjs", .timer 1, .delayed 2, .retired 2 .fulfilled,
    .timer 2, .imported 3 none, .change "app.mjs", .shutdown]

theorem reload_kept_twoChanges :
    ∃ s, Run (step ["app.mjs", "runners.mjs"]) Free init twoChanges s ∧ (s.app.map Application.generation, s.timers) = (some 2, []) ∧
      Kept s := by
  have checked : ((exec (step ["app.mjs", "runners.mjs"]) init twoChanges).any fun s =>
      decide ((s.app.map Application.generation, s.timers) = (some 2, []))) = true := by decide +kernel
  obtain ⟨s, ran, ended⟩ := (Option.any_eq_true _ _).mp checked
  have run := run_of_exec ran
  exact ⟨s, run, of_decide_eq_true ended, reload_kept _ _ s run⟩

end HotReload
