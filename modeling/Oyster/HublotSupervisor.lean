import Oyster.HublotTunnels

/-! The sweep of the hublot supervisor beside all that happens to a hublot, and the processes
that are recorded when it records the hublot closed. -/
namespace HublotSupervisor
open Interleaving HublotTunnels

/-- Where the sweep is with the hublot. `since` counts the process records there had been when it read them. -/
inductive Sweep where
  | listing (includeOpening : Bool)
  | reading (status : Status)
  | verifying (status : Status) (rows : List ProcessRow) (since : Nat)
  | noting (status : Status) (observations : List (ProcessRow × Bool)) (since : Nat)
  | finding (status : Status) (tunnelHealthy : Bool) (since : Nat)
  | recording (since : Nat)

/-- The hublot and the sweep; `log` keeps, for each time the sweep recorded it closed, whether a process was live then. -/
structure System where
  hublot : HublotTunnels.State
  sweep : Option Sweep
  log : List Bool

inductive Action where
  | hublot (action : HublotTunnels.Action)
  | reconcile (includeOpening : Bool)
  | sweep

def live (hublot : HublotTunnels.State) : Bool := hublot.processes.any fun row => row.active && hublot.verifies row

/-- The listed row qualifies for the sweep. -/
def selected (row : Row) (includeOpening : Bool) : Bool :=
  row.desired = .opened && row.status ≠ .closing && row.status ≠ .closed && (includeOpening || row.status ≠ .opening)

def noteLost (hublot : HublotTunnels.State) (observations : List (ProcessRow × Bool)) : HublotTunnels.State :=
  observations.foldl (fun hublot observation =>
    if observation.2 then hublot
    else hublot.updateProcess observation.1.id fun row => { row with status := .lost, ended := true }) hublot

namespace System
variable (s : System)

/-- One operation of the sweep with the code up to the next. The rows have no `updated_at`, so the
comparison of the two rows' is one of `undefined` with `undefined`. -/
def sweepStep : Sweep → System
  | .listing includeOpening =>
    { s with sweep := if selected s.hublot.row includeOpening then some (.reading s.hublot.row.status) else none }
  | .reading status => { s with sweep := some (.verifying status s.hublot.processes s.hublot.nextRow) }
  | .verifying status rows since =>
    let active := rows.filter ProcessRow.active
    { s with sweep := some (.noting status (active.map fun row => (row, s.hublot.verifies row)) since) }
  | .noting status observations since =>
    { s with
      hublot := noteLost s.hublot observations
      sweep := some (.finding status (observations.any Prod.snd) since) }
  | .finding status tunnelHealthy since =>
    let current := s.hublot.row
    { s with
      sweep :=
        if current.status ≠ status || current.desired ≠ .opened || current.status = .closing || current.status = .closed then none
        else if tunnelHealthy then none
        else some (.recording since) }
  | .recording _ =>
    { hublot := s.hublot.recordTransition .closed (some .closed)
      sweep := none
      log := live s.hublot :: s.log }

end System

def step (s : System) : Action → Option System
  | .hublot action => (HublotTunnels.step s.hublot action).map fun hublot => { s with hublot := hublot }
  | .reconcile includeOpening => some (if s.sweep.isSome then s else { s with sweep := some (.listing includeOpening) })
  | .sweep => s.sweep.map s.sweepStep

/-- The sweep records the hublot closed only if no tunnel process has been recorded since it read the processes. -/
def Unchanged (s : System) : Action → Prop
  | .sweep => ∀ since, s.sweep = some (.recording since) → s.hublot.nextRow = since
  | _ => True

structure Grows (s t : HublotTunnels.State) : Prop where
  next : s.nextRow ≤ t.nextRow
  old : ∀ row ∈ t.processes, row.active = true → row.id < s.nextRow → ∃ before ∈ s.processes, before.id = row.id ∧ before.active = true
  numbered : (∀ row ∈ s.processes, row.id < s.nextRow) → ∀ row ∈ t.processes, row.id < t.nextRow

variable {t : HublotTunnels.State}

theorem Grows.same {s : HublotTunnels.State} (processes : t.processes = s.processes) (next : t.nextRow = s.nextRow) :
    Grows s t where
  next := Nat.le_of_eq next.symm
  old := fun row mem active _ => ⟨row, processes ▸ mem, rfl, active⟩
  numbered := fun numbered row mem => next ▸ numbered row (processes ▸ mem)

theorem Grows.trans {s u : HublotTunnels.State} (first : Grows s t) (second : Grows t u) : Grows s u where
  next := Nat.le_trans first.next second.next
  old := by
    intro row mem active less
    obtain ⟨between, memT, same, activeT⟩ := second.old row mem active (Nat.lt_of_lt_of_le less first.next)
    obtain ⟨before, memS, same', activeS⟩ := first.old between memT activeT (same ▸ less)
    exact ⟨before, memS, same'.trans same, activeS⟩
  numbered := fun numbered => second.numbered (first.numbered numbered)

theorem grows_updateProcess (s : HublotTunnels.State) (id : Nat) (change : ProcessRow → ProcessRow)
    (fixed : ∀ row, (change row).id = row.id) (quiet : ∀ row, (change row).active = true → row.active = true) :
    Grows s (s.updateProcess id change) where
  next := Nat.le_refl _
  old := by
    intro row mem active _
    obtain ⟨before, memS, rfl⟩ := List.mem_map.mp mem
    split_ifs at active ⊢ with here
    · exact ⟨before, memS, (fixed before).symm, quiet before active⟩
    · exact ⟨before, memS, rfl, active⟩
  numbered := by
    intro numbered row mem
    obtain ⟨before, memS, rfl⟩ := List.mem_map.mp mem
    split_ifs with here
    · exact fixed before ▸ numbered before memS
    · exact numbered before memS

theorem grows_record (s : HublotTunnels.State) (row : ProcessRow) (new : row.id = s.nextRow) :
    Grows s { s with processes := s.processes ++ [row], nextRow := s.nextRow + 1 } where
  next := Nat.le_succ _
  old := by
    intro other mem active less
    rcases List.mem_append.mp mem with old | last
    · exact ⟨other, old, rfl, active⟩
    · rw [List.mem_singleton.mp last, new] at less
      exact absurd less (Nat.lt_irrefl _)
  numbered := by
    intro numbered other mem
    rcases List.mem_append.mp mem with old | last
    · exact Nat.lt_succ_of_lt (numbered other old)
    · rw [List.mem_singleton.mp last, new]
      exact Nat.lt_succ_self _

section Hublot
variable (s : HublotTunnels.State)

theorem grows_failed (i : Nat) (owner : Owner) : Grows s (s.failed i owner) := by
  cases owner with
  | opener reopen => cases reopen <;> exact Grows.same rfl rfl
  | reopen => exact Grows.same rfl rfl

theorem grows_retireNext (i : Nat) (rows : List ProcessRow) : Grows s (s.retireNext i rows) := by
  cases rows <;> exact Grows.same rfl rfl

theorem grows_openFound (i : Nat) (reopen : Bool) (spawned : Spawn) : Grows s (s.openFound i reopen spawned) := by
  unfold State.openFound
  split_ifs
  · cases spawned <;> exact Grows.same rfl rfl
  · exact grows_failed s i _

theorem grows_openListed (i : Nat) (reopen : Bool) (number : Nat) (child : Child) : Grows s (s.openListed i reopen number child) := by
  unfold State.openListed
  split <;> exact Grows.same rfl rfl

theorem grows_openUpserted (i : Nat) (reopen : Bool) (number : Nat) (child : Child) (identity : Option Identity) :
    Grows s (s.openUpserted i reopen number child identity) :=
  (grows_record s ⟨s.nextRow, child.pid, identity, .running, false⟩ rfl).trans (Grows.same rfl rfl)

theorem grows_output (number : Nat) (opener : Opener) (child : Child) : Grows s (s.output number opener child) := by
  unfold State.output
  split_ifs <;> exact Grows.same rfl rfl

theorem grows_confirmed (i number : Nat) (opener : Opener) (identity : Identity) : Grows s (s.confirmed i number opener identity) := by
  unfold State.confirmed
  split
  · exact Grows.same rfl rfl
  · next row _ =>
      have refreshed := grows_updateProcess s row.id (fun row => { row with identity := some identity }) (fun _ => rfl)
        fun _ active => active
      split_ifs <;> exact refreshed.trans (Grows.same rfl rfl)

theorem grows_answered (i number : Nat) (opener : Opener) (ok : Bool) : Grows s (s.answered i number opener ok) := by
  unfold State.answered
  split_ifs <;> exact Grows.same rfl rfl

theorem grows_readyOpened (i : Nat) (opener : Opener) : Grows s (s.readyOpened i opener) := by
  unfold State.readyOpened
  split_ifs <;> exact Grows.same rfl rfl

theorem grows_urlTimeout (number : Nat) (opener : Opener) : Grows s (s.urlTimeout number opener) := by
  unfold State.urlTimeout
  split_ifs <;> exact Grows.same rfl rfl

theorem grows_finished (i number : Nat) (opener : Opener) (exit : Bool) : Grows s (s.finished i number opener exit) := by
  unfold State.finished
  split_ifs <;> exact Grows.same rfl rfl

theorem grows_exits (number : Nat) (code : Bool) : Grows s (s.exits number code) := by
  unfold State.exits
  dsimp only
  split
  · exact Grows.same rfl rfl
  · split <;> exact Grows.same rfl rfl

theorem grows_exitListed (i number : Nat) (opener : Opener) (current : Row) : Grows s (s.exitListed i number opener current) := by
  unfold State.exitListed
  split_ifs <;> exact Grows.same rfl rfl

theorem grows_closeListed (i : Nat) : Grows s (s.closeListed i) := by
  have killed : ∀ (handles : List (Nat × Nat)) (t : HublotTunnels.State), Grows t (handles.foldl (fun s handle => s.kill handle.2) t) := by
    intro handles
    induction handles with
    | nil => exact fun t => Grows.same rfl rfl
    | cons handle handles ih =>
      intro t
      have first : Grows t (t.kill handle.2) := Grows.same rfl rfl
      exact first.trans (ih (t.kill handle.2))
  unfold State.closeListed
  dsimp only
  split_ifs
  · exact Grows.same rfl rfl
  · have first : Grows s (s.done i) := Grows.same rfl rfl
    exact first.trans (killed _ (s.done i))

theorem grows_reopenFound (i : Nat) : Grows s (s.reopenFound i) := by
  unfold State.reopenFound
  split <;> exact Grows.same rfl rfl

theorem grows_finish (id : Nat) (status : ProcessStatus) :
    Grows s (s.updateProcess id fun row => { row with status := status, ended := true }) :=
  grows_updateProcess s id _ (fun _ => rfl) fun _ active => by simp [ProcessRow.active] at active

variable {t : HublotTunnels.State}

theorem grows_op (i : Nat) (task : Task) (h : s.op i task = some t) : Grows s t := by
  cases task with
  | closeFind =>
    cases h
    split_ifs <;> exact Grows.same rfl rfl
  | failFind owner =>
    cases h
    split_ifs
    · exact Grows.same rfl rfl
    · exact grows_failed s i owner
  | closeClosing | closeClosed | exitFind | exitRecord | reopenOpening =>
    cases h
    exact Grows.same rfl rfl
  | closeList =>
    cases h
    exact grows_closeListed s i
  | failFailed owner =>
    cases h
    have first : Grows s (s.recordTransition .failed none) := Grows.same rfl rfl
    exact first.trans (grows_failed _ i owner)
  | openList reopen number =>
    obtain ⟨child, _, rfl⟩ := Option.map_eq_some_iff.mp h
    exact grows_openListed s i reopen number child
  | openUpsert reopen number identity =>
    obtain ⟨child, _, rfl⟩ := Option.map_eq_some_iff.mp h
    exact grows_openUpserted s i reopen number child identity
  | outputConfirm number identity =>
    obtain ⟨opener, _, rfl⟩ := Option.map_eq_some_iff.mp h
    exact grows_confirmed s i number opener identity
  | readyOpen number =>
    obtain ⟨opener, _, rfl⟩ := Option.map_eq_some_iff.mp h
    exact grows_readyOpened s i opener
  | finishFind number exit =>
    obtain ⟨opener, _, rfl⟩ := Option.map_eq_some_iff.mp h
    split_ifs
    · exact Grows.same rfl rfl
    · exact grows_finished s i number opener exit
  | finishUpdate number exit =>
    obtain ⟨opener, _, rfl⟩ := Option.map_eq_some_iff.mp h
    exact (grows_finish s _ _).trans (grows_finished _ i number opener exit)
  | exitList number current =>
    obtain ⟨opener, _, rfl⟩ := Option.map_eq_some_iff.mp h
    exact grows_exitListed s i number opener current
  | reopenFind =>
    cases h
    exact grows_reopenFound s i
  | reopenHealth =>
    cases h
    split_ifs <;> exact Grows.same rfl rfl
  | reopenCheck =>
    cases h
    unfold State.reopenChecked
    split_ifs <;> exact Grows.same rfl rfl
  | reopenList =>
    cases h
    exact grows_retireNext s i _
  | reopenRetireFind row rest =>
    cases h
    split_ifs
    · exact Grows.same rfl rfl
    · exact grows_retireNext s i rest
  | reopenRetireUpdate row rest =>
    cases h
    exact (grows_finish s _ _).trans (grows_retireNext _ i rest)
  | openFind | ready | reopenConflict => cases h

theorem grows_step (a : HublotTunnels.Action) (h : HublotTunnels.step s a = some t) : Grows s t := by
  cases a with
  | close | openTunnel =>
    cases h
    exact Grows.same rfl rfl
  | reopen =>
    cases h
    split_ifs <;> exact Grows.same rfl rfl
  | op i =>
    obtain ⟨task, _, ran⟩ := Option.bind_eq_some_iff.mp h
    exact grows_op s i task ran
  | spawn i spawned =>
    simp only [HublotTunnels.step] at h
    split at h <;> cases h
    exact grows_openFound s i _ spawned
  | conflict i found =>
    simp only [HublotTunnels.step] at h
    split at h <;> cases h
    split_ifs <;> exact Grows.same rfl rfl
  | answers i ok =>
    simp only [HublotTunnels.step] at h
    split at h
    · obtain ⟨opener, _, rfl⟩ := Option.map_eq_some_iff.mp h
      exact grows_answered s i _ opener ok
    · cases h
  | output number =>
    obtain ⟨opener, _, rest⟩ := Option.bind_eq_some_iff.mp h
    obtain ⟨child, _, rfl⟩ := Option.map_eq_some_iff.mp rest
    exact grows_output s number opener child
  | urlTimeout number =>
    obtain ⟨opener, _, rest⟩ := Option.bind_eq_some_iff.mp h
    obtain ⟨_, same⟩ := Option.ite_none_right_eq_some.mp rest
    cases same
    exact grows_urlTimeout s number opener
  | exits number code =>
    obtain ⟨child, _, rest⟩ := Option.bind_eq_some_iff.mp h
    obtain ⟨_, same⟩ := Option.ite_none_right_eq_some.mp rest
    cases same
    exact grows_exits s number code
  | errors number =>
    obtain ⟨opener, _, rfl⟩ := Option.map_eq_some_iff.mp h
    exact Grows.same rfl rfl
  | execs number image =>
    obtain ⟨child, _, rest⟩ := Option.bind_eq_some_iff.mp h
    obtain ⟨_, same⟩ := Option.ite_none_right_eq_some.mp rest
    cases same
    exact Grows.same rfl rfl

end Hublot

def Knows (s : System) : Sweep → Prop
  | .listing _ | .reading _ => True
  | .verifying _ rows since =>
    since ≤ s.hublot.nextRow ∧ ∀ row ∈ s.hublot.processes, row.active = true → row.id < since →
      ∃ seen ∈ rows, seen.id = row.id ∧ seen.active = true
  | .noting _ observations since =>
    since ≤ s.hublot.nextRow ∧ ∀ row ∈ s.hublot.processes, row.active = true → row.id < since →
      ∃ seen ∈ observations, seen.1.id = row.id
  | .finding _ tunnelHealthy since =>
    since ≤ s.hublot.nextRow ∧ ∀ row ∈ s.hublot.processes, row.active = true → row.id < since → tunnelHealthy = true
  | .recording since =>
    since ≤ s.hublot.nextRow ∧ ∀ row ∈ s.hublot.processes, row.active = true → ¬row.id < since

structure Inv (s : System) : Prop where
  spares : true ∉ s.log
  numbered : ∀ row ∈ s.hublot.processes, row.id < s.hublot.nextRow
  knows : ∀ sweep, s.sweep = some sweep → Knows s sweep

variable {s : System} {hublot : HublotTunnels.State} {sweep : Sweep}

theorem Knows.grows (grows : Grows s.hublot hublot) (knows : Knows s sweep) :
    Knows { s with hublot := hublot } sweep := by
  -- an old record that is active now was active before, and stood in the same relation to the sweep
  have carry : ∀ (P : Nat → Prop) {since : Nat}, since ≤ s.hublot.nextRow →
      (∀ row ∈ s.hublot.processes, row.active = true → row.id < since → P row.id) →
      since ≤ hublot.nextRow ∧ ∀ row ∈ hublot.processes, row.active = true → row.id < since → P row.id := by
    intro P since le known
    refine ⟨Nat.le_trans le grows.next, fun row mem active less => ?_⟩
    obtain ⟨before, memS, same, activeS⟩ := grows.old row mem active (Nat.lt_of_lt_of_le less le)
    exact same ▸ known before memS activeS (same ▸ less)
  cases sweep with
  | listing | reading => trivial
  | verifying status rows since => exact carry (fun id => ∃ seen ∈ rows, seen.id = id ∧ seen.active = true) knows.1 knows.2
  | noting status observations since => exact carry (fun id => ∃ seen ∈ observations, seen.1.id = id) knows.1 knows.2
  | finding status tunnelHealthy since => exact carry (fun _ => tunnelHealthy = true) knows.1 knows.2
  | recording since =>
    refine ⟨Nat.le_trans knows.1 grows.next, fun row mem active less => ?_⟩
    obtain ⟨before, memS, same, activeS⟩ := grows.old row mem active (Nat.lt_of_lt_of_le less knows.1)
    exact knows.2 before memS activeS (same ▸ less)

theorem grows_noteLost (observations : List (ProcessRow × Bool)) (hublot : HublotTunnels.State) :
    Grows hublot (noteLost hublot observations) := by
  induction observations generalizing hublot with
  | nil => exact Grows.same rfl rfl
  | cons observation observations ih =>
    rw [noteLost, List.foldl_cons]
    split_ifs
    · exact ih hublot
    · exact (grows_finish hublot _ _).trans (ih _)

theorem noteLost_inactive (id : Nat) (observations : List (ProcessRow × Bool)) (hublot : HublotTunnels.State)
    (quiet : ∀ row ∈ hublot.processes, row.id = id → row.active = false) :
    ∀ row ∈ (noteLost hublot observations).processes, row.id = id → row.active = false := by
  induction observations generalizing hublot with
  | nil => exact quiet
  | cons observation observations ih =>
    rw [noteLost, List.foldl_cons]
    refine ih _ ?_
    split_ifs
    · exact quiet
    · intro row mem same
      obtain ⟨before, memS, rfl⟩ := List.mem_map.mp mem
      split_ifs at same ⊢ with here
      · simp [ProcessRow.active]
      · exact quiet before memS same

theorem noteLost_lost {observations : List (ProcessRow × Bool)} {row : ProcessRow}
    (mem : row ∈ (noteLost hublot observations).processes) (active : row.active = true) :
    ∀ observation ∈ observations, observation.1.id = row.id → observation.2 = true := by
  induction observations generalizing hublot with
  | nil => exact fun observation absent => absurd absent List.not_mem_nil
  | cons first observations ih =>
    rw [noteLost, List.foldl_cons] at mem
    intro observation listed same
    rcases List.mem_cons.mp listed with rfl | later
    · by_contra mismatch
      have lost : observation.2 = false := by simpa using mismatch
      simp only [lost, Bool.false_eq_true, if_false] at mem
      have quiet := noteLost_inactive observation.1.id observations _ (by
        intro other memO sameO
        obtain ⟨before, _, rfl⟩ := List.mem_map.mp memO
        split_ifs at sameO ⊢ with here
        · simp [ProcessRow.active]
        · exact absurd sameO here) row mem same.symm
      exact absurd (active.symm.trans quiet) Bool.noConfusion
    · exact ih mem observation later same

theorem inv_sweep (at' : s.sweep = some sweep) (inv : Inv s) (unchanged : Unchanged s .sweep) :
    Inv (s.sweepStep sweep) := by
  have known := inv.knows sweep at'
  cases sweep with
  | listing includeOpening =>
    refine ⟨inv.spares, inv.numbered, fun next going => ?_⟩
    simp only [System.sweepStep] at going
    split_ifs at going
    cases going
    trivial
  | reading status =>
    refine ⟨inv.spares, inv.numbered, fun next going => ?_⟩
    cases going
    exact ⟨Nat.le_refl _, fun row mem active _ => ⟨row, mem, rfl, active⟩⟩
  | verifying status rows since =>
    refine ⟨inv.spares, inv.numbered, fun next going => ?_⟩
    cases going
    refine ⟨known.1, fun row mem active less => ?_⟩
    obtain ⟨seen, listed, same, activeSeen⟩ := known.2 row mem active less
    exact ⟨_, List.mem_map.mpr ⟨seen, List.mem_filter.mpr ⟨listed, activeSeen⟩, rfl⟩, same⟩
  | noting status observations since =>
    have grows := grows_noteLost observations s.hublot
    refine ⟨inv.spares, grows.numbered inv.numbered, fun next going => ?_⟩
    cases going
    refine ⟨Nat.le_trans known.1 grows.next, fun row mem active less => ?_⟩
    obtain ⟨before, memS, same, activeS⟩ := grows.old row mem active (Nat.lt_of_lt_of_le less known.1)
    obtain ⟨seen, listed, sameSeen⟩ := known.2 before memS activeS (same ▸ less)
    exact List.any_eq_true.mpr ⟨seen, listed, noteLost_lost mem active seen listed (sameSeen.trans same)⟩
  | finding status tunnelHealthy since =>
    refine ⟨inv.spares, inv.numbered, fun next going => ?_⟩
    simp only [System.sweepStep] at going
    split_ifs at going with moved healthy
    cases going
    exact ⟨known.1, fun row mem active less => healthy (known.2 row mem active less)⟩
  | recording since =>
    -- all records are older than the reading, and none of those is active
    have none : live s.hublot = false := by
      refine List.any_eq_false.mpr fun row mem passes => ?_
      have active := (Bool.and_eq_true_iff.mp passes).1
      exact known.2 row mem active (unchanged since at' ▸ inv.numbered row mem)
    refine ⟨?_, inv.numbered, fun next going => by cases going⟩
    simp only [System.sweepStep, none, List.mem_cons, Bool.true_eq_false, false_or]
    exact inv.spares

theorem inv_step {t : System} {a : Action} (h : step s a = some t) (inv : Inv s) (unchanged : Unchanged s a) :
    Inv t := by
  cases a with
  | hublot action =>
    obtain ⟨hublot, ran, rfl⟩ := Option.map_eq_some_iff.mp h
    have grows := grows_step s.hublot action ran
    exact ⟨inv.spares, grows.numbered inv.numbered, fun sweep going => (inv.knows sweep going).grows grows⟩
  | reconcile includeOpening =>
    cases h
    split_ifs
    · exact inv
    · refine ⟨inv.spares, inv.numbered, fun sweep going => ?_⟩
      cases going
      trivial
  | sweep =>
    obtain ⟨sweep, at', rfl⟩ := Option.map_eq_some_iff.mp h
    exact inv_sweep at' inv unchanged

structure Begins (s : System) : Prop where
  idle : s.sweep = none
  fresh : s.log = []
  numbered : ∀ row ∈ s.hublot.processes, row.id < s.hublot.nextRow

theorem Begins.inv (begins : Begins s) : Inv s where
  spares := by
    rw [begins.fresh]
    exact List.not_mem_nil
  numbered := begins.numbered
  knows := by
    intro sweep going
    rw [begins.idle] at going
    cases going

/-- Whether a step meets `Unchanged`. -/
def unchanged (s : System) (a : Action) : Bool :=
  match a, s.sweep with
  | .sweep, some (.recording since) => s.hublot.nextRow = since
  | _, _ => true

end HublotSupervisor
