import Oyster.HublotTunnels

/-! Whether a hublot that is closed gets to be closed and stays so, beside all that its tunnels, their handlers and the other
calls do. -/
namespace HublotClosing
open Interleaving HublotTunnels

/-- The hublot; `closed` while a closing is recorded that no call of `reopenHublot` has followed. -/
structure System where
  hublot : HublotTunnels.State
  closed : Bool

def step (s : System) (a : Action) : Option System :=
  (HublotTunnels.step s.hublot a).map fun hublot =>
    { hublot
      closed :=
        match a with
        | .reopen => false
        | .op i => s.closed || s.hublot.tasks i = some .closeClosing
        | _ => s.closed }

def Quiescent (s : HublotTunnels.State) : Prop :=
  (∀ i, s.tasks i = none) ∧ (∀ child ∈ s.children, child.alive = false) ∧ ∀ opener ∈ s.openers, opener.timer = false

structure Closes (s : System) : Prop where
  completes : Quiescent s.hublot → s.hublot.row.desired = .closed →
    s.hublot.row.status = .closed ∨ s.hublot.row.status = .failed
  final : s.closed = true → s.hublot.row.status ≠ .opened ∧ s.hublot.row.desired ≠ .opened

section Charge
variable (s : HublotTunnels.State)

def Latest (number : Nat) : Prop :=
  ∃ opener, s.openers[number]? = some opener ∧ s.processes.getLast?.map ProcessRow.id = some opener.processRow.id

/-- The tunnel recorded last is alive, and its handlers are attached. -/
def Heard : Prop :=
  ∃ child number, s.openers.findIdx? (fun opener => decide (opener.child = child)) = some number ∧ Latest s number ∧
    (s.children[child]?.map Child.alive) = some true

/-- The task is of the exit handler of the tunnel recorded last, and it is going to record the exit unless it finds a reason not to. -/
def ExitTask : Task → Prop
  | .finishFind number true => Latest s number
  | .finishUpdate number true => Latest s number
  | .exitFind number => Latest s number
  | .exitList number current => Latest s number ∧ current.status ≠ .failed ∧ current.status ≠ .closed
  | .exitRecord .. => True
  | _ => False

def Exiting : Prop := ∃ i task, s.tasks i = some task ∧ ExitTask s task

/-- A call of `closeTunnel` that has recorded the closing is yet to find the handles or to record the end. -/
def Closing : Prop := ∃ i, s.tasks i = some .closeList ∨ s.tasks i = some .closeClosed

/-- `closeTunnel` finds handles of processes that it has to kill. -/
def live : List (Nat × Nat) :=
  s.handles.filter fun handle =>
    s.processes.any (fun row => row.id = handle.1) && s.children[handle.2]?.any fun child => !child.exitCode

end Charge

/-- While a close stands, no readiness result, exit or earlier call of `reopenHublot` gets to record the hublot open or to be opened. And
while it is closing, `closeTunnel` leaves it to the exit handler only of the tunnel recorded last, which lives or exits; that handler finds
the opening settled, and no call of `reopenHublot` pending; and no other tunnel is recorded. -/
def Timely (s : System) : Action → Prop
  | .op i => ∀ task, s.hublot.tasks i = some task →
      match task with
      | .readyOpen _ => s.closed = false
      | .reopenOpening => s.closed = false
      | .exitRecord _ desired => s.closed = true → desired = .closed
      | .closeList => live s.hublot ≠ [] → Heard s.hublot ∨ Exiting s.hublot
      | .finishUpdate number true =>
        s.hublot.row.status = .closing →
          Closing s.hublot ∨ ∀ opener, s.hublot.openers[number]? = some opener → opener.settled = true
      | .exitList number current =>
        s.hublot.row.status = .closing → Latest s.hublot number → current.status ≠ .failed → current.status ≠ .closed →
          s.hublot.hublotReopens = false
      | .openUpsert .. => s.hublot.row.status = .closing → Closing s.hublot
      | _ => True
  | _ => True

/-! ### What is kept -/

variable {acting : Option Nat} {s t u : HublotTunnels.State} {i : Nat} {task : Task}

structure Numbered (acting : Option Nat) (s : HublotTunnels.State) : Prop where
  acts : ∀ i, acting = some i → i < s.nextTask
  tasks : ∀ i task, s.tasks i = some task → i < s.nextTask

def Recorded (s : HublotTunnels.State) : Prop := ∀ opener ∈ s.openers, ∃ row ∈ s.processes, row.id = opener.processRow.id

/-- What all keep that do not record a process, hear of an exit or change the row: the acting task may change, new ones may start. -/
structure Keeps (acting : Option Nat) (s t : HublotTunnels.State) : Prop where
  row : t.row = s.row
  records : t.processes.map ProcessRow.id = s.processes.map ProcessRow.id
  alive : ∀ child : Nat, s.children[child]?.map Child.alive = some true → t.children[child]?.map Child.alive = some true
  openers : (s.openers.map fun opener => (opener.child, opener.processRow)) <+:
    t.openers.map fun opener => (opener.child, opener.processRow)
  recorded : Recorded s → Recorded t
  numbered : Numbered acting s → Numbered acting t
  tasks : Numbered acting s → ∀ i task, acting ≠ some i → s.tasks i = some task → t.tasks i = some task

theorem Keeps.trans (first : Keeps acting s t) (second : Keeps acting t u) : Keeps acting s u where
  row := second.row.trans first.row
  records := second.records.trans first.records
  alive child alive := second.alive child (first.alive child alive)
  openers := first.openers.trans second.openers
  recorded recorded := second.recorded (first.recorded recorded)
  numbered numbered := second.numbered (first.numbered numbered)
  tasks numbered i task other there := second.tasks (first.numbered numbered) i task other (first.tasks numbered i task other there)

theorem keeps_of_eq (row : t.row = s.row) (processes : t.processes = s.processes) (children : t.children = s.children)
    (openers : t.openers = s.openers) (tasks : t.tasks = s.tasks) (nextTask : t.nextTask = s.nextTask) :
    Keeps acting s t where
  row := row
  records := by rw [processes]
  alive _ alive := by rwa [children]
  openers := by
    exact openers ▸ List.prefix_rfl
  recorded recorded := by
    unfold Recorded
    rwa [openers, processes]
  numbered numbered := ⟨nextTask ▸ numbered.acts, nextTask ▸ tasks ▸ numbered.tasks⟩
  tasks _ i task _ there := tasks ▸ there

theorem keeps_start (s : HublotTunnels.State) (task : Task) : Keeps acting s (s.start task) where
  row := rfl
  records := rfl
  alive _ alive := alive
  openers := List.prefix_rfl
  recorded recorded := recorded
  numbered numbered := by
    refine ⟨fun i acts => Nat.lt_succ_of_lt (numbered.acts i acts), fun i other there => ?_⟩
    rcases Calls.put_eq_some there with ⟨rfl, _⟩ | ⟨_, old⟩
    · exact Nat.lt_succ_self _
    · exact Nat.lt_succ_of_lt (numbered.tasks i other old)
  tasks numbered i other _ there := (Calls.put_of_ne _ _ (Nat.ne_of_lt (numbered.tasks i other there))).trans there

theorem keeps_goto (s : HublotTunnels.State) (i : Nat) (task : Task) : Keeps (some i) s (s.goto i task) where
  row := rfl
  records := rfl
  alive _ alive := alive
  openers := List.prefix_rfl
  recorded recorded := recorded
  numbered numbered := by
    refine ⟨numbered.acts, fun j other there => ?_⟩
    rcases Calls.put_eq_some there with ⟨rfl, _⟩ | ⟨_, old⟩
    · exact numbered.acts j rfl
    · exact numbered.tasks j other old
  tasks _ j _ other there := (Calls.put_of_ne _ _ fun same => other (congrArg some same.symm)).trans there

theorem keeps_done (s : HublotTunnels.State) (i : Nat) : Keeps (some i) s (s.done i) where
  row := rfl
  records := rfl
  alive _ alive := alive
  openers := List.prefix_rfl
  recorded recorded := recorded
  numbered numbered := ⟨numbered.acts, fun j other there => numbered.tasks j other (Calls.drop_eq_some there).2⟩
  tasks _ _ _ other there := (Calls.drop_of_ne _ fun same => other (congrArg some same.symm)).trans there

theorem keeps_updateProcess (s : HublotTunnels.State) (id : Nat) (change : ProcessRow → ProcessRow)
    (fixed : ∀ row, (change row).id = row.id) : Keeps acting s (s.updateProcess id change) where
  row := rfl
  records := by
    change (s.processes.map _).map _ = _
    rw [List.map_map]
    refine List.map_congr_left fun row _ => ?_
    simp only [Function.comp_apply]
    split_ifs
    · exact fixed row
    · rfl
  alive _ alive := alive
  openers := List.prefix_rfl
  recorded recorded opener mem := by
    obtain ⟨row, listed, same⟩ := recorded opener mem
    refine ⟨_, List.mem_map.mpr ⟨row, listed, rfl⟩, ?_⟩
    split_ifs
    · exact (fixed row).trans same
    · exact same
  numbered numbered := ⟨numbered.acts, numbered.tasks⟩
  tasks _ _ _ _ there := there

theorem keeps_updateChild (s : HublotTunnels.State) (number : Nat) (change : Child → Child)
    (lives : ∀ child, child.alive = true → (change child).alive = true) : Keeps acting s (s.updateChild number change) where
  row := rfl
  records := rfl
  alive child alive := by
    change ((s.children.modify number change)[child]?.map Child.alive) = some true
    obtain ⟨there, found, lively⟩ := Option.map_eq_some_iff.mp alive
    rw [List.getElem?_modify, found]
    by_cases here : number = child
    · simp [here, lives there lively]
    · simp [here, lively]
  openers := List.prefix_rfl
  recorded recorded := recorded
  numbered numbered := ⟨numbered.acts, numbered.tasks⟩
  tasks _ _ _ _ there := there

theorem keeps_updateOpener (s : HublotTunnels.State) (number : Nat) (change : Opener → Opener)
    (fixed : ∀ opener, (change opener).child = opener.child ∧ (change opener).processRow = opener.processRow) :
    Keeps acting s (s.updateOpener number change) where
  row := rfl
  records := rfl
  alive _ alive := alive
  openers := by
    have same : (s.openers.modify number change).map (fun opener => (opener.child, opener.processRow)) =
        s.openers.map fun opener => (opener.child, opener.processRow) := by
      apply List.ext_getElem?
      intro place
      rw [List.getElem?_map, List.getElem?_map, List.getElem?_modify]
      cases s.openers[place]? with
      | none => rfl
      | some opener =>
        by_cases here : number = place
        · simp [here, fixed opener]
        · simp [here]
    exact same ▸ List.prefix_rfl
  recorded recorded opener mem := by
    obtain ⟨place, inside, same⟩ := List.getElem_of_mem mem
    have there := List.getElem?_eq_some_iff.mpr ⟨inside, same⟩
    change (s.openers.modify number change)[place]? = _ at there
    rw [List.getElem?_modify] at there
    obtain ⟨before, found, changed⟩ := Option.map_eq_some_iff.mp there
    obtain ⟨row, listed, id⟩ := recorded before (List.mem_of_getElem? found)
    refine ⟨row, listed, id.trans ?_⟩
    rw [← changed]
    split_ifs
    · rw [(fixed before).2]
    · rfl
  numbered numbered := ⟨numbered.acts, numbered.tasks⟩
  tasks _ _ _ _ there := there

/-! ### Who is in charge -/

theorem getLast_ids (s : HublotTunnels.State) :
    s.processes.getLast?.map ProcessRow.id = (s.processes.map ProcessRow.id).getLast? :=
  List.getLast?_map.symm

variable {number : Nat}

theorem Keeps.latest (keeps : Keeps acting s t) (latest : Latest s number) : Latest t number := by
  obtain ⟨opener, there, last⟩ := latest
  obtain ⟨more, grown⟩ := keeps.openers
  have here : (s.openers.map fun opener => (opener.child, opener.processRow))[number]? =
      some (opener.child, opener.processRow) := by
    rw [List.getElem?_map, there, Option.map_some]
  have kept : (t.openers.map fun opener => (opener.child, opener.processRow))[number]? =
      some (opener.child, opener.processRow) := by
    rw [← grown, List.getElem?_append_left (List.getElem?_eq_some_iff.mp here).1, here]
  rw [List.getElem?_map] at kept
  obtain ⟨later, found, same⟩ := Option.map_eq_some_iff.mp kept
  refine ⟨later, found, ?_⟩
  rw [getLast_ids, keeps.records, ← getLast_ids, last, (Prod.mk.inj same).2]

theorem Keeps.findIdx (keeps : Keeps acting s t) {child : Nat}
    (found : s.openers.findIdx? (fun opener => decide (opener.child = child)) = some number) :
    t.openers.findIdx? (fun opener => decide (opener.child = child)) = some number := by
  obtain ⟨more, grown⟩ := keeps.openers
  have mapped (openers : List Opener) : openers.findIdx? (fun opener => decide (opener.child = child)) =
      (openers.map fun opener => (opener.child, opener.processRow)).findIdx? fun pair => decide (pair.1 = child) := by
    rw [List.findIdx?_map]
    rfl
  rw [mapped, ← grown, List.findIdx?_append, ← mapped, found, Option.some_or]

theorem Keeps.heard (keeps : Keeps acting s t) (heard : Heard s) : Heard t := by
  obtain ⟨child, number, found, latest, alive⟩ := heard
  exact ⟨child, number, keeps.findIdx found, keeps.latest latest, keeps.alive child alive⟩

theorem Keeps.exitTask (keeps : Keeps acting s t) {task : Task} (exits : ExitTask s task) : ExitTask t task := by
  match task, exits with
  | .finishFind _ true, latest => exact keeps.latest latest
  | .finishUpdate _ true, latest => exact keeps.latest latest
  | .exitFind _, latest => exact keeps.latest latest
  | .exitList .., ⟨latest, current⟩ => exact ⟨keeps.latest latest, current⟩
  | .exitRecord .., _ => trivial

def Charged (s : HublotTunnels.State) : Prop := Closing s ∨ Heard s ∨ Exiting s

theorem Keeps.charged (keeps : Keeps acting s t) (numbered : Numbered acting s) (charged : Charged s)
    (closes : ∀ i, acting = some i → s.tasks i ≠ some .closeList ∧ s.tasks i ≠ some .closeClosed)
    (moves : ∀ i task, acting = some i → s.tasks i = some task → ExitTask s task → Charged t) : Charged t := by
  rcases charged with ⟨i, there⟩ | heard | ⟨i, task, there, exits⟩
  · have other : acting ≠ some i := fun acts => there.elim (closes i acts).1 (closes i acts).2
    exact .inl ⟨i, there.imp (keeps.tasks numbered i _ other) (keeps.tasks numbered i _ other)⟩
  · exact .inr (.inl (keeps.heard heard))
  · by_cases acts : acting = some i
    · exact moves i task acts there exits
    · exact .inr (.inr ⟨i, task, keeps.tasks numbered i task acts there, keeps.exitTask exits⟩)

theorem Keeps.closing (keeps : Keeps (some i) s t) (numbered : Numbered (some i) s) (there : s.tasks i = some task)
    (closes : task ≠ .closeList ∧ task ≠ .closeClosed) (closing : Closing s) : Closing t := by
  obtain ⟨j, here⟩ := closing
  have other : some i ≠ some j := by
    intro same
    cases same
    exact here.elim (fun list => closes.1 (Option.some.inj (there.symm.trans list)))
      fun ends => closes.2 (Option.some.inj (there.symm.trans ends))
  exact ⟨j, here.imp (keeps.tasks numbered j _ other) (keeps.tasks numbered j _ other)⟩

section Operations
variable (s : HublotTunnels.State)

theorem keeps_reopenEnds : Keeps acting s s.reopenEnds := keeps_of_eq rfl rfl rfl rfl rfl rfl

theorem keeps_kill (child : Nat) : Keeps acting s (s.kill child) := keeps_updateChild s child _ fun _ alive => alive

theorem keeps_killRunning (child : Nat) : Keeps acting s (s.killRunning child) :=
  keeps_updateChild s child _ fun child alive => by
    split_ifs <;> exact alive

theorem keeps_settleFailed (number : Nat) (opener : Opener) : Keeps acting s (s.settleFailed number opener) := by
  refine Keeps.trans (keeps_updateOpener s number _ ?_) (keeps_start _ _)
  exact fun _ => ⟨rfl, rfl⟩

theorem keeps_failed (i : Nat) (owner : Owner) : Keeps (some i) s (s.failed i owner) := by
  cases owner with
  | opener reopen =>
    cases reopen with
    | false => exact keeps_done s i
    | true => exact keeps_goto s i _
  | reopen => exact (keeps_done s i).trans (keeps_reopenEnds _)

theorem keeps_retireNext (i : Nat) (rows : List ProcessRow) : Keeps (some i) s (s.retireNext i rows) := by
  cases rows <;> exact keeps_goto s i _

theorem keeps_attach (i : Nat) (reopen : Bool) (child : Nat) {row : ProcessRow} (listed : row ∈ s.processes) :
    Keeps (some i) s (s.attach i reopen child row) := by
  refine (keeps_done s i).trans ⟨rfl, rfl, fun _ alive => alive, ?_, fun recorded opener mem => ?_,
    fun numbered => ⟨numbered.acts, numbered.tasks⟩, fun _ _ _ _ there => there⟩
  · change _ <+: (s.openers ++ [_]).map _
    rw [List.map_append]
    exact List.prefix_append _ _
  · rcases List.mem_append.mp mem with old | new
    · exact recorded opener old
    · rw [List.mem_singleton.mp new]
      exact ⟨row, listed, rfl⟩

theorem keeps_openFound (i : Nat) (reopen : Bool) (spawned : Spawn) : Keeps (some i) s (s.openFound i reopen spawned) := by
  unfold State.openFound
  split_ifs
  · cases spawned with
    | throws | noPid => exact keeps_goto s i _
    | child pid image =>
      refine (keeps_goto s i (.openList reopen s.children.length)).trans ⟨rfl, rfl, fun child alive => ?_,
        List.prefix_rfl,
        fun recorded => recorded, fun numbered => ⟨numbered.acts, numbered.tasks⟩, fun _ _ _ _ there => there⟩
      obtain ⟨there, found, lively⟩ := Option.map_eq_some_iff.mp alive
      have inside : child < s.children.length := (List.getElem?_eq_some_iff.mp found).1
      change ((s.children ++ [_])[child]?.map Child.alive) = some true
      rw [List.getElem?_append_left inside]
      exact alive
  · exact keeps_failed s i _

theorem keeps_openListed (i : Nat) (reopen : Bool) (number : Nat) (child : Child) :
    Keeps (some i) s (s.openListed i reopen number child) := by
  unfold State.openListed
  split
  · next row found => exact keeps_attach s i reopen number (List.mem_of_find?_eq_some found)
  · exact keeps_goto s i _

theorem keeps_output (number : Nat) (opener : Opener) (child : Child) : Keeps acting s (s.output number opener child) := by
  unfold State.output
  have checking : Keeps acting s
      (s.updateOpener number fun opener => { opener with checkingPublicUrl := true, timer := false }) :=
    keeps_updateOpener s number _ fun _ => ⟨rfl, rfl⟩
  split_ifs
  · exact keeps_of_eq rfl rfl rfl rfl rfl rfl
  · exact checking.trans (keeps_start _ _)
  · exact checking.trans ((keeps_killRunning _ _).trans (keeps_settleFailed _ number opener))

theorem keeps_confirmed (i number : Nat) (opener : Opener) (identity : Identity) :
    Keeps (some i) s (s.confirmed i number opener identity) := by
  unfold State.confirmed
  split
  · exact keeps_done s i
  · next row _ =>
      have refreshed : Keeps (some i) s (s.updateProcess row.id fun row => { row with identity := some identity }) :=
        keeps_updateProcess s row.id _ fun _ => rfl
      split_ifs
      · exact refreshed.trans (keeps_goto _ i _)
      · exact refreshed.trans ((keeps_done _ i).trans ((keeps_killRunning _ _).trans (keeps_settleFailed _ number opener)))

theorem keeps_answered (i number : Nat) (opener : Opener) (ok : Bool) :
    Keeps (some i) s (s.answered i number opener ok) := by
  unfold State.answered
  split_ifs
  · exact keeps_done s i
  · refine Keeps.trans (keeps_updateOpener s number _ ?_) (keeps_goto _ i _)
    exact fun _ => ⟨rfl, rfl⟩
  · exact (keeps_done s i).trans ((keeps_killRunning _ _).trans (keeps_settleFailed _ number opener))

theorem keeps_urlTimeout (number : Nat) (opener : Opener) : Keeps acting s (s.urlTimeout number opener) := by
  unfold State.urlTimeout
  split_ifs
  · exact keeps_of_eq rfl rfl rfl rfl rfl rfl
  · exact (keeps_kill s _).trans (keeps_settleFailed _ number opener)

theorem keeps_handleGone (number : Nat) (opener : Opener) (exit : Bool) :
    Keeps acting s (s.handleGone number opener exit) := by
  refine Keeps.trans ?_ (keeps_start _ _)
  exact keeps_of_eq rfl rfl rfl rfl rfl rfl

theorem keeps_finished (i number : Nat) (opener : Opener) (exit : Bool) :
    Keeps (some i) s (s.finished i number opener exit) := by
  unfold State.finished
  split_ifs
  · exact keeps_goto s i _
  · exact keeps_done s i
  · refine Keeps.trans (keeps_updateOpener s number _ ?_) (keeps_goto _ i _)
    exact fun _ => ⟨rfl, rfl⟩

theorem keeps_exitListed (i number : Nat) (opener : Opener) (current : Row) :
    Keeps (some i) s (s.exitListed i number opener current) := by
  unfold State.exitListed
  split_ifs
  · exact keeps_goto s i _
  · exact keeps_done s i

theorem keeps_closeListed (i : Nat) : Keeps (some i) s (s.closeListed i) := by
  have killed : ∀ (handles : List (Nat × Nat)) (t : HublotTunnels.State),
      Keeps (some i) t (handles.foldl (fun s handle => s.kill handle.2) t) := by
    intro handles
    induction handles with
    | nil => exact fun t => keeps_of_eq rfl rfl rfl rfl rfl rfl
    | cons handle handles ih => exact fun t => (keeps_kill t handle.2).trans (ih (t.kill handle.2))
  unfold State.closeListed
  dsimp only
  split_ifs
  · exact keeps_goto s i _
  · exact (keeps_done s i).trans (killed _ _)

theorem keeps_reopenFound (i : Nat) : Keeps (some i) s (s.reopenFound i) := by
  unfold State.reopenFound
  split
  · exact (keeps_done s i).trans (keeps_reopenEnds _)
  · exact (keeps_done s i).trans (keeps_reopenEnds _)
  · exact (keeps_done s i).trans (keeps_reopenEnds _)
  · exact keeps_goto s i _
  · exact keeps_goto s i _
  · exact keeps_goto s i _
  · exact keeps_goto s i _

theorem keeps_reopenChecked (i : Nat) : Keeps (some i) s (s.reopenChecked i) := by
  unfold State.reopenChecked
  split_ifs <;> exact keeps_goto s i _

theorem keeps_finish (id : Nat) (status : ProcessStatus) :
    Keeps acting s (s.updateProcess id fun row => { row with status := status, ended := true }) :=
  keeps_updateProcess s id _ fun _ => rfl

end Operations

/-! ### Every step -/

structure Inv (s : System) : Prop where
  final : s.closed = true → s.hublot.row.status ≠ .opened ∧ s.hublot.row.desired = .closed
  wanted : s.hublot.row.desired = .closed →
    s.hublot.row.status = .closing ∨ s.hublot.row.status = .closed ∨ s.hublot.row.status = .failed
  numbered : Numbered none s.hublot
  recorded : Recorded s.hublot
  charged : s.hublot.row.status = .closing → Charged s.hublot

theorem Inv.closes {s : System} (inv : Inv s) : Closes s where
  completes quiescent wanted := by
    obtain ⟨done, dead, _⟩ := quiescent
    rcases inv.wanted wanted with closing | settled
    · rcases inv.charged closing with ⟨i, there | there⟩ | ⟨child, _, _, _, alive⟩ | ⟨i, task, there, _⟩
      · cases (done i).symm.trans there
      · cases (done i).symm.trans there
      · obtain ⟨process, found, lively⟩ := Option.map_eq_some_iff.mp alive
        cases lively.symm.trans (dead process (List.mem_of_getElem? found))
      · cases (done i).symm.trans there
    · exact settled
  final closed := by
    obtain ⟨notOpen, desired⟩ := inv.final closed
    exact ⟨notOpen, by rw [desired]; exact Desired.noConfusion⟩

theorem Numbered.act (numbered : Numbered none s) (there : s.tasks i = some task) : Numbered (some i) s :=
  ⟨fun _ same => Option.some.inj same ▸ numbered.tasks i task there, numbered.tasks⟩

theorem Numbered.rest (numbered : Numbered acting s) : Numbered none s := ⟨nofun, numbered.tasks⟩

variable {closed closed' : Bool}

theorem Inv.keeps (inv : Inv ⟨s, closed⟩) (keeps : Keeps acting s t) (numbered : Numbered acting s)
    (later : closed' = true → closed = true)
    (closes : ∀ i, acting = some i → s.tasks i ≠ some .closeList ∧ s.tasks i ≠ some .closeClosed)
    (moves : s.row.status = .closing → ∀ i task, acting = some i → s.tasks i = some task → ExitTask s task → Charged t) :
    Inv ⟨t, closed'⟩ where
  final now := by
    rw [keeps.row]
    exact inv.final (later now)
  wanted := by
    rw [keeps.row]
    exact inv.wanted
  numbered := (keeps.numbered numbered).rest
  recorded := keeps.recorded inv.recorded
  charged closing := by
    have before : s.row.status = .closing := keeps.row ▸ closing
    exact keeps.charged numbered (inv.charged before) closes (moves before)

theorem Inv.acts (inv : Inv ⟨s, closed⟩) (there : s.tasks i = some task) (keeps : Keeps (some i) s t)
    (closes : task ≠ .closeList ∧ task ≠ .closeClosed) (moves : s.row.status = .closing → ExitTask s task → Charged t) :
    Inv ⟨t, closed⟩ := by
  refine inv.keeps keeps (inv.numbered.act there) id (fun j same => ?_) fun closing j other same here exits => ?_
  · cases same
    rw [there]
    exact ⟨fun close => closes.1 (Option.some.inj close), fun close => closes.2 (Option.some.inj close)⟩
  · cases same
    cases there.symm.trans here
    exact moves closing exits

theorem Inv.starts (inv : Inv ⟨s, closed⟩) (keeps : Keeps none s t) (later : closed' = true → closed = true) :
    Inv ⟨t, closed'⟩ :=
  inv.keeps keeps inv.numbered later (fun _ none => by cases none) fun _ _ _ none => by cases none

theorem Inv.records (inv : Inv ⟨s, closed⟩) (there : s.tasks i = some task) {status : Status} {desired : Option Desired}
    (keeps : Keeps (some i) (s.recordTransition status desired) t)
    (final : closed' = true → status ≠ .opened ∧ desired.getD s.row.desired = .closed)
    (wanted : desired.getD s.row.desired = .closed → status = .closing ∨ status = .closed ∨ status = .failed)
    (charged : status = .closing → Charged t) : Inv ⟨t, closed'⟩ where
  final now := by
    rw [keeps.row]
    exact final now
  wanted := by
    rw [keeps.row]
    exact wanted
  numbered := by
    have numbered := inv.numbered.act there
    exact (keeps.numbered ⟨numbered.acts, numbered.tasks⟩).rest
  recorded := keeps.recorded inv.recorded
  charged closing := charged ((congrArg Row.status keeps.row).symm.trans closing)

/-- `closeTunnel` finds the handles. -/
theorem Inv.closeListed (inv : Inv ⟨s, closed⟩) (there : s.tasks i = some .closeList)
    (timely : live s ≠ [] → Heard s ∨ Exiting s) : Inv ⟨s.closeListed i, closed⟩ := by
  have keeps := keeps_closeListed s i
  have numbered := inv.numbered.act there
  refine ⟨?_, ?_, (keeps.numbered numbered).rest, keeps.recorded inv.recorded, fun closing => ?_⟩
  · change closed = true → (s.closeListed i).row.status ≠ _ ∧ (s.closeListed i).row.desired = _
    rw [keeps.row]
    exact inv.final
  · change (s.closeListed i).row.desired = _ → (s.closeListed i).row.status = _ ∨ (s.closeListed i).row.status = _ ∨ _ = _
    rw [keeps.row]
    exact inv.wanted
  · by_cases idle : live s = []
    · have goes : s.closeListed i = s.goto i .closeClosed := if_pos (List.isEmpty_iff.mpr idle)
      refine .inl ⟨i, .inr ?_⟩
      rw [goes]
      exact Calls.put_self _ _ _
    · rcases timely idle with heard | ⟨j, task, here, exits⟩
      · exact .inr (.inl (keeps.heard heard))
      · have other : some i ≠ some j := by
          intro same
          cases same
          cases there.symm.trans here
          exact exits
        exact .inr (.inr ⟨j, task, keeps.tasks numbered j task other here, keeps.exitTask exits⟩)

theorem Inv.openUpserted (inv : Inv ⟨s, closed⟩) {reopen : Bool} {identity : Option Identity}
    (there : s.tasks i = some (.openUpsert reopen number identity)) (child : Child)
    (timely : s.row.status = .closing → Closing s) : Inv ⟨s.openUpserted i reopen number child identity, closed⟩ := by
  let row : ProcessRow := ⟨s.nextRow, child.pid, identity, .running, false⟩
  let upserted : HublotTunnels.State := { s with processes := s.processes ++ [row], nextRow := s.nextRow + 1 }
  have keeps : Keeps (some i) upserted (s.openUpserted i reopen number child identity) :=
    keeps_attach upserted i reopen number (List.mem_append_right _ (List.mem_singleton.mpr rfl))
  have numbered : Numbered (some i) upserted := ⟨(inv.numbered.act there).acts, inv.numbered.tasks⟩
  have recorded : Recorded upserted := by
    intro opener mem
    obtain ⟨before, listed, same⟩ := inv.recorded opener mem
    exact ⟨before, List.mem_append_left _ listed, same⟩
  refine ⟨?_, ?_, (keeps.numbered numbered).rest, keeps.recorded recorded, fun closing => ?_⟩
  · change closed = true → (s.openUpserted i reopen number child identity).row.status ≠ _ ∧ _ = _
    exact inv.final
  · change (s.openUpserted i reopen number child identity).row.desired = _ → _
    exact inv.wanted
  · exact .inl (keeps.closing numbered there ⟨nofun, nofun⟩ (timely (keeps.row ▸ closing)))

theorem Inv.exits (inv : Inv ⟨s, closed⟩) (number : Nat) (code : Bool) : Inv ⟨s.exits number code, closed⟩ := by
  let gone : HublotTunnels.State := s.updateChild number fun child => { child with alive := false, exitCode := code }
  have exiting {task : Task} (exits : ExitTask s task) : ExitTask gone task := by
    match task, exits with
    | .finishFind _ true, latest => exact latest
    | .finishUpdate _ true, latest => exact latest
    | .exitFind _, latest => exact latest
    | .exitList .., current => exact current
    | .exitRecord .., _ => trivial
  have charged (closing : s.row.status = .closing) :
      Charged gone ∨ ∃ place, s.openers.findIdx? (fun opener => decide (opener.child = number)) = some place ∧
        Latest s place := by
    rcases inv.charged closing with closes | ⟨child, place, found, latest, alive⟩ | ⟨i, task, there, exits⟩
    · exact .inl (.inl closes)
    · by_cases same : child = number
      · exact .inr ⟨place, same ▸ found, latest⟩
      · refine .inl (.inr (.inl ⟨child, place, found, latest, ?_⟩))
        change ((s.children.modify number _)[child]?.map Child.alive) = some true
        simpa [Ne.symm same] using alive
    · exact .inl (.inr (.inr ⟨i, task, there, exiting exits⟩))
  have numbered : Numbered none gone := ⟨inv.numbered.acts, inv.numbered.tasks⟩
  unfold State.exits
  dsimp only
  cases found : s.openers.findIdx? (fun opener => decide (opener.child = number)) with
  | none =>
    have unheard : gone.openers.findIdx? (fun opener => decide (opener.child = number)) = none := found
    rw [unheard]
    refine ⟨inv.final, inv.wanted, numbered, inv.recorded, fun closing => ?_⟩
    rcases charged closing with charged | ⟨place, there, _⟩
    · exact charged
    · cases found.symm.trans there
  | some place =>
    have heard : gone.openers.findIdx? (fun opener => decide (opener.child = number)) = some place := found
    rw [heard]
    dsimp only
    split
    · next absent =>
        have inside := (List.findIdx?_eq_some_iff_getElem.mp found).1
        exact absurd (List.getElem?_eq_none_iff.mp absent) (Nat.not_le.mpr inside)
    · next opener _ =>
        have keeps : Keeps none gone (gone.handleGone place opener true) := keeps_handleGone gone place opener true
        have started : (gone.handleGone place opener true).tasks s.nextTask = some (.finishFind place true) :=
          Calls.put_self _ _ _
        refine ⟨inv.final, inv.wanted, keeps.numbered numbered, keeps.recorded inv.recorded, fun closing => ?_⟩
        rcases charged closing with charged | ⟨other, there, latest⟩
        · exact keeps.charged numbered charged (fun _ none => by cases none) fun _ _ none => by cases none
        · cases found.symm.trans there
          exact .inr (.inr ⟨s.nextTask, _, started, latest⟩)

theorem inv_op (inv : Inv ⟨s, closed⟩) (there : s.tasks i = some task) (timely : Timely ⟨s, closed⟩ (.op i))
    (h : s.op i task = some t) :
    Inv ⟨t, closed || decide (s.tasks i = some .closeClosing)⟩ := by
  by_cases closes : task = .closeClosing
  · obtain rfl := closes
    cases h
    exact inv.records there (keeps_goto _ i _) (fun _ => ⟨Status.noConfusion, rfl⟩) (fun _ => .inl rfl)
      fun _ => .inl ⟨i, .inl (Calls.put_self _ _ _)⟩
  · have same : (closed || decide (s.tasks i = some .closeClosing)) = closed := by
      have other : s.tasks i ≠ some .closeClosing := fun here => closes (Option.some.inj (there.symm.trans here))
      simp [other]
    rw [same]
    have timely := timely task there
    cases task with
    | closeFind =>
      cases h
      refine inv.acts there ?_ ⟨nofun, nofun⟩ fun _ exits => exits.elim
      split_ifs
      · exact keeps_done s i
      · exact keeps_goto s i _
    | closeClosing => exact absurd rfl closes
    | closeList =>
      cases h
      exact inv.closeListed there timely
    | closeClosed =>
      cases h
      exact inv.records there (keeps_done _ i) (fun _ => ⟨Status.noConfusion, rfl⟩)
        (fun _ => .inr (.inl rfl)) fun closing => by cases closing
    | failFind owner =>
      cases h
      refine inv.acts there ?_ ⟨nofun, nofun⟩ fun _ exits => exits.elim
      split_ifs
      · exact keeps_goto s i _
      · exact keeps_failed s i owner
    | failFailed owner =>
      cases h
      exact inv.records there (keeps_failed _ i owner) (fun now => ⟨Status.noConfusion, (inv.final now).2⟩)
        (fun _ => .inr (.inr rfl)) fun closing => by cases closing
    | openList reopen number =>
      obtain ⟨child, _, rfl⟩ := Option.map_eq_some_iff.mp h
      exact inv.acts there (keeps_openListed s i reopen number child) ⟨nofun, nofun⟩ fun _ exits => exits.elim
    | openUpsert reopen number identity =>
      obtain ⟨child, _, rfl⟩ := Option.map_eq_some_iff.mp h
      exact inv.openUpserted there child timely
    | outputConfirm number identity =>
      obtain ⟨opener, _, rfl⟩ := Option.map_eq_some_iff.mp h
      exact inv.acts there (keeps_confirmed s i number opener identity) ⟨nofun, nofun⟩ fun _ exits => exits.elim
    | readyOpen number =>
      obtain ⟨opener, _, rfl⟩ := Option.map_eq_some_iff.mp h
      have keeps : Keeps (some i) (s.recordTransition .opened (some .opened)) (s.readyOpened i opener) := by
        unfold State.readyOpened
        split_ifs
        · exact (keeps_done _ i).trans (keeps_reopenEnds _)
        · exact keeps_done _ i
      exact inv.records there keeps (fun now => absurd now (by simp [show closed = false from timely]))
        (fun wanted => by cases wanted) fun closing => by cases closing
    | finishFind number exit =>
      obtain ⟨opener, found, rfl⟩ := Option.map_eq_some_iff.mp h
      have recorded : (s.processes.any fun row => row.id = opener.processRow.id) = true := by
        obtain ⟨row, listed, same⟩ := inv.recorded opener (List.mem_of_getElem? found)
        exact List.any_eq_true.mpr ⟨row, listed, decide_eq_true same⟩
      rw [if_pos recorded]
      refine inv.acts there (keeps_goto s i _) ⟨nofun, nofun⟩ fun _ exits => ?_
      cases exit with
      | false => exact exits.elim
      | true => exact .inr (.inr ⟨i, _, Calls.put_self _ _ _, exits⟩)
    | finishUpdate number exit =>
      obtain ⟨opener, found, rfl⟩ := Option.map_eq_some_iff.mp h
      have keeps := (keeps_finish s opener.processRow.id (if exit then .ended else .failed)).trans
        (keeps_finished _ i number opener exit)
      refine inv.acts there keeps ⟨nofun, nofun⟩ fun closing exits => ?_
      cases exit with
      | false => exact exits.elim
      | true =>
        rcases timely closing with closes | settled
        · exact .inl (keeps.closing (inv.numbered.act there) there ⟨nofun, nofun⟩ closes)
        · refine .inr (.inr ⟨i, .exitFind number, ?_, keeps.latest exits⟩)
          rw [State.finished, if_pos (settled opener found), if_pos rfl]
          exact Calls.put_self _ _ _
    | exitFind number =>
      cases h
      refine inv.acts there (keeps_goto s i _) ⟨nofun, nofun⟩ fun closing exits => ?_
      refine .inr (.inr ⟨i, _, Calls.put_self _ _ _, exits, ?_⟩)
      rw [closing]
      exact ⟨Status.noConfusion, Status.noConfusion⟩
    | exitList number current =>
      obtain ⟨opener, found, rfl⟩ := Option.map_eq_some_iff.mp h
      refine inv.acts there (keeps_exitListed s i number opener current) ⟨nofun, nofun⟩ fun closing exits => ?_
      obtain ⟨latest, notFailed, notClosed⟩ := exits
      have pending := timely closing latest notFailed notClosed
      obtain ⟨same, here, last⟩ := latest
      cases found.symm.trans here
      have records : s.exitListed i number opener current = s.goto i (.exitRecord number current.desired) := by
        refine if_pos ?_
        simp [show s.hublotReopens = false from pending, last, notFailed, notClosed]
      rw [records]
      exact .inr (.inr ⟨i, _, Calls.put_self _ _ _, trivial⟩)
    | exitRecord number desired =>
      cases h
      refine inv.records there (keeps_done _ i) (fun now => ?_) (fun wanted => ?_) fun closing => ?_
      · obtain rfl := timely now
        exact ⟨Status.noConfusion, rfl⟩
      · obtain rfl := wanted
        exact .inr (.inl rfl)
      · split_ifs at closing
    | reopenFind =>
      cases h
      exact inv.acts there (keeps_reopenFound s i) ⟨nofun, nofun⟩ fun _ exits => exits.elim
    | reopenHealth =>
      cases h
      refine inv.acts there ?_ ⟨nofun, nofun⟩ fun _ exits => exits.elim
      split_ifs
      · exact (keeps_done s i).trans (keeps_reopenEnds _)
      · exact keeps_goto s i _
    | reopenList =>
      cases h
      exact inv.acts there (keeps_retireNext s i _) ⟨nofun, nofun⟩ fun _ exits => exits.elim
    | reopenRetireFind row rest =>
      cases h
      refine inv.acts there ?_ ⟨nofun, nofun⟩ fun _ exits => exits.elim
      split_ifs
      · exact keeps_goto s i _
      · exact keeps_retireNext s i rest
    | reopenRetireUpdate row rest =>
      cases h
      exact inv.acts there ((keeps_finish s _ _).trans (keeps_retireNext _ i rest)) ⟨nofun, nofun⟩
        fun _ exits => exits.elim
    | reopenOpening =>
      cases h
      exact inv.records there (keeps_goto _ i _) (fun now => absurd now (by simp [show closed = false from timely]))
        (fun wanted => by cases wanted) fun closing => by cases closing
    | reopenCheck =>
      cases h
      exact inv.acts there (keeps_reopenChecked s i) ⟨nofun, nofun⟩ fun _ exits => exits.elim
    | openFind | ready | reopenConflict => cases h

theorem inv_step {s t : System} {a : Action} (h : step s a = some t) (inv : Inv s) (timely : Timely s a) : Inv t := by
  obtain ⟨hublot, ran, rfl⟩ := Option.map_eq_some_iff.mp h
  cases a with
  | close | openTunnel =>
    cases ran
    exact inv.starts (keeps_start _ _) id
  | reopen =>
    cases ran
    refine inv.starts ?_ fun none => by cases none
    split_ifs
    · exact keeps_of_eq rfl rfl rfl rfl rfl rfl
    · exact (keeps_start _ _).trans (keeps_of_eq rfl rfl rfl rfl rfl rfl)
  | op i =>
    obtain ⟨task, there, goes⟩ := Option.bind_eq_some_iff.mp ran
    exact inv_op inv there timely goes
  | spawn i spawned =>
    simp only [HublotTunnels.step] at ran
    split at ran
    · next reopen there =>
        cases ran
        exact inv.acts there (keeps_openFound _ i reopen spawned) ⟨nofun, nofun⟩ fun _ exits => exits.elim
    · cases ran
  | conflict i found =>
    simp only [HublotTunnels.step] at ran
    split at ran
    · next there =>
        cases ran
        refine inv.acts there ?_ ⟨nofun, nofun⟩ fun _ exits => exits.elim
        split_ifs
        · exact (keeps_done _ i).trans (keeps_reopenEnds _)
        · exact keeps_goto _ i _
    · cases ran
  | answers i ok =>
    simp only [HublotTunnels.step] at ran
    split at ran
    · next number there =>
        obtain ⟨opener, _, rfl⟩ := Option.map_eq_some_iff.mp ran
        exact inv.acts there (keeps_answered _ i number opener ok) ⟨nofun, nofun⟩ fun _ exits => exits.elim
    · cases ran
  | output number =>
    obtain ⟨opener, _, rest⟩ := Option.bind_eq_some_iff.mp ran
    obtain ⟨child, _, rfl⟩ := Option.map_eq_some_iff.mp rest
    exact inv.starts (keeps_output _ number opener child) id
  | urlTimeout number =>
    obtain ⟨opener, _, rest⟩ := Option.bind_eq_some_iff.mp ran
    obtain ⟨_, same⟩ := Option.ite_none_right_eq_some.mp rest
    cases same
    exact inv.starts (keeps_urlTimeout _ number opener) id
  | exits number code =>
    obtain ⟨child, _, rest⟩ := Option.bind_eq_some_iff.mp ran
    obtain ⟨_, same⟩ := Option.ite_none_right_eq_some.mp rest
    cases same
    exact inv.exits number code
  | errors number =>
    obtain ⟨opener, _, rfl⟩ := Option.map_eq_some_iff.mp ran
    exact inv.starts (keeps_handleGone _ number opener false) id
  | execs number image =>
    obtain ⟨child, _, rest⟩ := Option.bind_eq_some_iff.mp ran
    obtain ⟨_, same⟩ := Option.ite_none_right_eq_some.mp rest
    cases same
    exact inv.starts (keeps_updateChild _ number _ fun _ alive => alive) id

structure Begins (s : System) : Prop where
  fresh : s.closed = false
  idle : ∀ i, s.hublot.tasks i = none
  unattached : s.hublot.openers = []
  wanted : s.hublot.row.desired = .closed → s.hublot.row.status = .closed ∨ s.hublot.row.status = .failed
  settled : s.hublot.row.status ≠ .closing

theorem Begins.inv {s : System} (begins : Begins s) : Inv s where
  final now := by cases begins.fresh.symm.trans now
  wanted wanted := .inr (begins.wanted wanted)
  numbered := ⟨nofun, fun i task there => by cases (begins.idle i).symm.trans there⟩
  recorded opener mem := by
    rw [begins.unattached] at mem
    cases mem
  charged closing := absurd closing begins.settled

/-- While every step is timely, a close completes and is final. -/
theorem close_final {s t : System} {actions : List Action} (begins : Begins s) (run : Run step Timely s actions t) :
    Closes t :=
  (run.invariant (fun _ _ _ inv timely h => inv_step h inv timely) begins.inv).closes

def heard (s : HublotTunnels.State) : Bool :=
  (List.range s.children.length).any fun child =>
    (s.openers.findIdx? fun opener => decide (opener.child = child)).any fun number =>
      (s.openers[number]?.any fun opener => s.processes.getLast?.map ProcessRow.id = some opener.processRow.id) &&
        s.children[child]?.map Child.alive = some true

theorem heard_sound {s : HublotTunnels.State} (h : heard s = true) : Heard s := by
  obtain ⟨child, _, found⟩ := List.any_eq_true.mp h
  obtain ⟨number, place, rest⟩ := (Option.any_eq_true _ _).mp found
  obtain ⟨latest, alive⟩ := Bool.and_eq_true_iff.mp rest
  obtain ⟨opener, there, last⟩ := (Option.any_eq_true _ _).mp latest
  exact ⟨child, number, place, ⟨opener, there, of_decide_eq_true last⟩, of_decide_eq_true alive⟩

def timely (s : System) : Action → Bool
  | .op i => (s.hublot.tasks i).all fun
      | .readyOpen _ => !s.closed
      | .reopenOpening => !s.closed
      | .exitRecord _ desired => !s.closed || desired = .closed
      | .closeList => (live s.hublot).isEmpty || heard s.hublot
      | .finishUpdate number true => s.hublot.row.status ≠ .closing || s.hublot.openers[number]?.all Opener.settled
      | .exitList .. => !s.hublot.hublotReopens
      | .openUpsert .. => s.hublot.row.status ≠ .closing
      | _ => true
  | _ => true

theorem timely_sound (s : System) (a : Action) (h : timely s a = true) : Timely s a := by
  cases a with
  | op i =>
    intro task there
    simp only [timely, there, Option.all_some] at h
    cases task with
    | readyOpen | reopenOpening => simpa using h
    | exitRecord number desired =>
      intro now
      simpa [now] using h
    | closeList =>
      intro found
      rw [Bool.or_eq_true, List.isEmpty_iff] at h
      exact .inl (heard_sound (h.resolve_left found))
    | finishUpdate number exit =>
      cases exit with
      | false => trivial
      | true =>
        intro closing
        refine .inr fun opener here => ?_
        simpa [closing, here] using h
    | exitList number current =>
      intro _ _ _ _
      simpa using h
    | openUpsert reopen number identity =>
      intro closing
      simp [closing] at h
    | closeFind | closeClosing | closeClosed | failFind | failFailed | openFind | openList | outputConfirm | ready | finishFind | exitFind
    | reopenFind | reopenHealth | reopenConflict | reopenList | reopenRetireFind | reopenRetireUpdate
    | reopenCheck => trivial
  | close | openTunnel | reopen | spawn | conflict | answers | output | urlTimeout | exits | errors | execs => trivial

/-- `reserveHublot`. -/
def reserved : System := ⟨⟨⟨.opening, .opened⟩, [], 0, [], 0, [], [], false, fun _ => none, 0⟩, false⟩

theorem begins_reserved : Begins reserved where
  fresh := rfl
  idle _ := rfl
  unattached := rfl
  wanted := by decide
  settled := by decide

def closedTwice : List Action :=
  [.openTunnel, .spawn 0 (.child 41 7), .op 0, .op 0, .output 0, .op 1, .answers 1 true, .op 1,
    .close, .op 2, .op 2, .op 2, .exits 0 false, .op 3, .op 3, .op 3, .op 3, .op 3,
    .reopen, .op 4, .conflict 4 false, .op 4, .op 4, .op 4, .spawn 4 (.child 42 7), .op 4, .op 4, .output 1, .op 5,
    .answers 5 true, .op 5, .close, .op 6, .op 6, .op 6, .exits 1 true, .op 7, .op 7, .op 7, .op 7, .op 7]

theorem close_final_twice :
    ∃ s, Run step Timely reserved closedTwice s ∧ s.hublot.row = ⟨.closed, .closed⟩ ∧ s.closed = true ∧ Closes s := by
  have checked : ((execIf step timely reserved closedTwice).any fun s =>
      decide (s.hublot.row = ⟨.closed, .closed⟩ ∧ s.closed = true)) = true := by decide +kernel
  obtain ⟨s, ran, ended⟩ := (Option.any_eq_true _ _).mp checked
  obtain ⟨row, closed⟩ := of_decide_eq_true ended
  have run := run_of_execIf timely_sound ran
  exact ⟨s, run, row, closed, close_final begins_reserved run⟩

def closedWhileOpening : List Action :=
  [.openTunnel, .spawn 0 (.child 41 7), .op 0, .op 0, .close, .op 1, .op 1, .op 1, .exits 0 false, .op 2, .op 2, .op 2]

theorem closing_for_ever :
    ∃ s, Run step Free reserved closedWhileOpening s ∧ s.hublot.row = ⟨.closing, .closed⟩ ∧ Quiescent s.hublot ∧
      ¬Closes s := by
  have quiescent : ∀ s, exec step reserved closedWhileOpening = some s → Quiescent s.hublot := by
    intro s ran
    cases ran
    refine ⟨fun i => ?_, by decide, by decide⟩
    match i with
    | 0 => rfl
    | 1 => rfl
    | 2 => rfl
    | _ + 3 => rfl
  refine ⟨_, run_of_exec rfl, rfl, quiescent _ rfl, fun closes => ?_⟩
  rcases closes.completes (quiescent _ rfl) rfl with closed | failed
  · cases closed
  · cases failed

end HublotClosing
