import Oyster.HublotShutdown

/-! What the shutdown of all hublots records, beside the exit handlers of their tunnels. It lists the targets while the processes still
run, and marks the hublots when all has been stopped; in between the handlers write the same rows. -/
namespace HublotShutdown
open Interleaving
open HublotTunnels (Status Desired Identity ProcessStatus)

def Hublot.Sweeps (row : Hublot) : Prop := row.status = .closing ∧ row.desired = .closed

instance (row : Hublot) : Decidable row.Sweeps := inferInstanceAs (Decidable (_ ∧ _))

/-- When the shutdown lists the open hublots, no verified tunnel process is of a hublot that is being closed already, and one of an open
hublot is active on record. When it records the end of a process, no end of it is on record. -/
def TimelyAt (s : State) : Stage → Prop
  | .list => ∀ row ∈ s.processes, row.role = .tunnel → s.verifies row = true →
      ∀ hublot ∈ s.hublots, hublot.id = row.hublotId → ¬hublot.Sweeps ∧ (hublot.desired = .opened → row.active = true)
  | .finish (target :: _) _ _ => ∀ row ∈ s.processes, row.id = target.id → row.ended = none
  | _ => True

def Timely (s : State) : Action → Prop
  | .op => TimelyAt s s.stage
  | _ => True

/-- The records of the processes whose ends exit handlers have stored tell these ends. -/
def Kept (s : State) : Prop :=
  ∀ id ended, s.stored id = some ended → ∀ row ∈ s.processes, row.id = id → row.ended = some ended

/-- The ends that exit handlers have stored are kept, and a hublot is marked closed only when none of its tunnels is alive. -/
structure Truthful (s : State) : Prop where
  kept : Kept s
  spares : true ∉ s.marked

variable {s t u : State}

/-- What a record of a process says of the process, whatever becomes of it. -/
structure Process.Same (row other : Process) : Prop where
  id : row.id = other.id
  hublotId : row.hublotId = other.hublotId
  role : row.role = other.role
  pid : row.pid = other.pid
  identity : row.identity = other.identity

theorem Process.Same.refl (row : Process) : row.Same row := ⟨rfl, rfl, rfl, rfl, rfl⟩

theorem Process.Same.trans {first second third : Process} (left : first.Same second) (right : second.Same third) :
    first.Same third :=
  ⟨left.id.trans right.id, left.hublotId.trans right.hublotId, left.role.trans right.role, left.pid.trans right.pid,
    left.identity.trans right.identity⟩

structure Frame (s t : State) : Prop where
  alive : ∀ (i : Nat) child, t.children[i]? = some child → child.alive = true → s.children[i]? = some child
  records : ∀ row ∈ t.processes, ∃ old ∈ s.processes, old.Same row

theorem Frame.trans (first : Frame s t) (second : Frame t u) : Frame s u where
  alive i child there alive := first.alive i child (second.alive i child there alive) alive
  records row there := by
    obtain ⟨middle, thereMiddle, same⟩ := second.records row there
    obtain ⟨old, thereOld, sameOld⟩ := first.records middle thereMiddle
    exact ⟨old, thereOld, sameOld.trans same⟩

theorem Frame.of_eq (children : t.children = s.children) (processes : t.processes = s.processes) : Frame s t :=
  ⟨fun _ _ there _ => children ▸ there, fun row there => ⟨row, processes ▸ there, .refl row⟩⟩

variable {row : Process}

theorem verifies_iff : s.verifies row = true ↔
    ∃ (i : Nat) (child : Child), s.children[i]? = some child ∧ child.alive = true ∧ child.pid = row.pid ∧
    row.identity = some child.identity := by
  simp only [State.verifies, List.any_eq_true, List.mem_iff_getElem?, Bool.and_eq_true, decide_eq_true_eq, and_assoc]
  exact ⟨fun ⟨child, ⟨i, there⟩, rest⟩ => ⟨i, child, there, rest⟩, fun ⟨i, child, there, rest⟩ => ⟨child, ⟨i, there⟩, rest⟩⟩

variable {other : Process}

theorem Frame.verifies (frame : Frame s t) (same : row.Same other) (verified : t.verifies other = true) :
    s.verifies row = true := by
  obtain ⟨i, child, there, alive, pid, identity⟩ := verifies_iff.mp verified
  exact verifies_iff.mpr ⟨i, child, frame.alive i child there alive, alive, pid.trans same.pid.symm,
    same.identity.trans identity⟩

def Attached (s : State) (handler : Handler) : Prop :=
  ∀ row ∈ s.processes, row.id = handler.processId → ∀ (i : Nat) child, s.children[i]? = some child →
    child.alive = true → child.pid = row.pid → row.identity = some child.identity → i = handler.child

def Exited (s : State) (handler : Handler) : Prop :=
  ∀ row ∈ s.processes, row.id = handler.processId → s.verifies row = false

variable {handler : Handler}

theorem Attached.frame (attached : Attached s handler) (frame : Frame s t) : Attached t handler := by
  intro row there named i child at_i alive pid identity
  obtain ⟨old, thereOld, same⟩ := frame.records row there
  exact attached old thereOld (same.id.trans named) i child (frame.alive i child at_i alive) alive
    (pid.trans same.pid.symm) (same.identity.trans identity)

theorem Exited.frame (exited : Exited s handler) (frame : Frame s t) : Exited t handler := by
  intro row there named
  obtain ⟨old, thereOld, same⟩ := frame.records row there
  refine Bool.eq_false_iff.mpr fun verified => ?_
  have never := exited old thereOld (same.id.trans named)
  rw [frame.verifies same verified] at never
  cases never

variable {child : Child}

theorem Attached.exited (attached : Attached s handler) (there : s.children[handler.child]? = some child)
    (dead : child.alive = false) : Exited s handler := by
  intro row thereRow named
  refine Bool.eq_false_iff.mpr fun verified => ?_
  obtain ⟨i, other, at_i, alive, pid, identity⟩ := verifies_iff.mp verified
  obtain rfl := attached row thereRow named i other at_i alive pid identity
  cases at_i.symm.trans there
  rw [dead] at alive
  cases alive

/-- The handler whose process an exit handler is yet to record as ended. -/
def Task.ending : Task → Option Handler
  | .find handler _ => some handler
  | .finish handler _ => some handler
  | _ => none

/-- The exit handlers wait for the children of their records, and run when these have ended. -/
structure Handled (s : State) : Prop where
  attached : ∀ handler ∈ s.handlers, Attached s handler
  tasks : s.tasks.Forall fun _ task => ∀ handler, task.ending = some handler → Exited s handler

theorem Handled.frame (handled : Handled s) (frame : Frame s t) (handlers : ∀ handler ∈ t.handlers, handler ∈ s.handlers)
    (tasks : t.tasks.Forall fun _ task => ∀ handler, task.ending = some handler → Exited s handler) : Handled t where
  attached handler there := (handled.attached handler (handlers handler there)).frame frame
  tasks := tasks.imp fun _ _ exited handler ending => (exited handler ending).frame frame

/-- What a step of an exit handler or of a process keeps, as far as the shutdown goes. -/
structure Quiet (s t : State) : Prop extends Frame s t where
  stage : t.stage = s.stage
  marked : t.marked = s.marked
  active : ∀ row ∈ t.processes, t.verifies row = true → ∃ old ∈ s.processes, old.Same row ∧ row.active = old.active
  sweeps : ∀ row ∈ t.hublots, row.Sweeps → ∃ old ∈ s.hublots, old.id = row.id ∧ old.Sweeps
  handled : Handled s → Handled t
  kept : Kept s → Kept t

theorem Quiet.trans (first : Quiet s t) (second : Quiet t u) : Quiet s u where
  toFrame := first.toFrame.trans second.toFrame
  stage := second.stage.trans first.stage
  marked := second.marked.trans first.marked
  active row there verified := by
    obtain ⟨middle, thereMiddle, same, active⟩ := second.active row there verified
    obtain ⟨old, thereOld, sameOld, activeOld⟩ := first.active middle thereMiddle (second.verifies same verified)
    exact ⟨old, thereOld, sameOld.trans same, active.trans activeOld⟩
  sweeps row there sweeps := by
    obtain ⟨middle, thereMiddle, same, sweepsMiddle⟩ := second.sweeps row there sweeps
    obtain ⟨old, thereOld, sameOld, sweepsOld⟩ := first.sweeps middle thereMiddle sweepsMiddle
    exact ⟨old, thereOld, sameOld.trans same, sweepsOld⟩
  handled handled := second.handled (first.handled handled)
  kept kept := second.kept (first.kept kept)

variable {id : Nat}

theorem mem_changed {ρ : Type} {key : ρ → Nat} {change : ρ → ρ} {rows : List ρ} {row : ρ}
    (there : row ∈ rows.map fun row => if key row = id then change row else row) :
    ∃ old ∈ rows, (key old = id ∧ row = change old) ∨ (key old ≠ id ∧ row = old) := by
  obtain ⟨old, thereOld, rfl⟩ := List.mem_map.mp there
  refine ⟨old, thereOld, ?_⟩
  by_cases named : key old = id
  · exact .inl ⟨named, if_pos named⟩
  · exact .inr ⟨named, if_neg named⟩

theorem mem_updateHublot {change : Hublot → Hublot} {row : Hublot} (there : row ∈ (s.updateHublot id change).hublots) :
    ∃ old ∈ s.hublots, (old.id = id ∧ row = change old) ∨ (old.id ≠ id ∧ row = old) := mem_changed there

variable {change : Process → Process}

theorem mem_updateProcess (there : row ∈ (s.updateProcess id change).processes) :
    ∃ old ∈ s.processes, (old.id = id ∧ row = change old) ∨ (old.id ≠ id ∧ row = old) := mem_changed there

theorem Frame.of_change (processes : t.processes = (s.updateProcess id change).processes)
    (children : t.children = s.children) (same : ∀ row : Process, row.Same (change row)) : Frame s t where
  alive _ _ there _ := children ▸ there
  records row there := by
    obtain ⟨old, thereOld, ⟨_, rfl⟩ | ⟨_, rfl⟩⟩ := mem_updateProcess (processes ▸ there)
    · exact ⟨old, thereOld, same old⟩
    · exact ⟨row, thereOld, .refl row⟩

theorem frame_storeEnd (s : State) (processId : Nat) (exit : Exit) : Frame s (s.storeEnd processId exit) :=
  .of_change rfl rfl fun _ => ⟨rfl, rfl, rfl, rfl, rfl⟩

theorem frame_storeShutdown (s : State) (processId stoppedAt : Nat) : Frame s (s.storeShutdown processId stoppedAt) :=
  .of_change rfl rfl fun _ => ⟨rfl, rfl, rfl, rfl, rfl⟩

variable {task : Task}

theorem quiet_goto (s : State) (i : Nat)
    (exited : Handled s → ∀ handler, task.ending = some handler → Exited s handler) : Quiet s (s.goto i task) where
  toFrame := .of_eq rfl rfl
  stage := rfl
  marked := rfl
  active row there _ := ⟨row, there, .refl row, rfl⟩
  sweeps row there sweeps := ⟨row, there, rfl, sweeps⟩
  handled handled := handled.frame (.of_eq rfl rfl) (fun _ there => there) (handled.tasks.put (exited handled))
  kept kept := kept

theorem quiet_pass (s : State) (i : Nat) (passed : task.ending = none) : Quiet s (s.goto i task) :=
  quiet_goto s i fun _ _ ending => nomatch passed.symm.trans ending

theorem quiet_done (s : State) (i : Nat) : Quiet s (s.done i) where
  toFrame := .of_eq rfl rfl
  stage := rfl
  marked := rfl
  active row there _ := ⟨row, there, .refl row, rfl⟩
  sweeps row there sweeps := ⟨row, there, rfl, sweeps⟩
  handled handled := handled.frame (.of_eq rfl rfl) (fun _ there => there) (handled.tasks.drop i)
  kept kept := kept

theorem quiet_recordTransition (s : State) (id : Nat) {status : Status} (desired : Option Desired)
    (lastError : Option (Option String)) (closedAt : Option Nat) (other : status ≠ .closing) :
    Quiet s (s.recordTransition id status desired lastError closedAt) where
  toFrame := .of_eq rfl rfl
  stage := rfl
  marked := rfl
  active row there _ := ⟨row, there, .refl row, rfl⟩
  sweeps row there sweeps := by
    obtain ⟨old, thereOld, ⟨_, rfl⟩ | ⟨_, rfl⟩⟩ := mem_updateHublot there
    · exact absurd sweeps.1 other
    · exact ⟨row, thereOld, rfl, sweeps⟩
  handled handled := handled.frame (.of_eq rfl rfl) (fun _ there => there) handled.tasks
  kept kept := kept

theorem quiet_storeEnd (exited : Exited s handler) (exit : Exit) : Quiet s (s.storeEnd handler.processId exit) where
  toFrame := frame_storeEnd s handler.processId exit
  stage := rfl
  marked := rfl
  active row there verified := by
    obtain ⟨old, thereOld, ⟨named, rfl⟩ | ⟨_, rfl⟩⟩ := mem_updateProcess there
    · have frame := frame_storeEnd s handler.processId exit
      have same : old.Same _ := ⟨rfl, rfl, rfl, rfl, rfl⟩
      have live := frame.verifies same verified
      rw [exited old thereOld named] at live
      cases live
    · exact ⟨row, thereOld, .refl row, rfl⟩
  sweeps row there sweeps := ⟨row, there, rfl, sweeps⟩
  handled handled :=
    handled.frame (frame_storeEnd s handler.processId exit) (fun _ there => there) handled.tasks
  kept kept := by
    intro id ended stored row there named
    obtain ⟨old, thereOld, ⟨namedOld, rfl⟩ | ⟨namedOld, rfl⟩⟩ := mem_updateProcess there
    · obtain rfl : id = handler.processId := named.symm.trans namedOld
      exact (Function.update_self handler.processId _ s.stored).symm.trans stored
    · have other : id ≠ handler.processId := fun same => namedOld (named.trans same)
      exact kept id ended ((Function.update_of_ne other ..).symm.trans stored) row thereOld named

theorem quiet_finished (s : State) (i : Nat) (handler : Handler) (exit : Exit) :
    Quiet s (s.finished i handler exit) := by
  unfold State.finished
  split_ifs
  · exact quiet_pass s i rfl
  · exact quiet_pass s i rfl

theorem quiet_handlerOp {i : Nat} (handled : Handled s) (there : s.tasks i = some task) :
    Quiet s (s.handlerOp i task) := by
  cases task with
  | find handler exit =>
    simp only [State.handlerOp]
    split
    · exact quiet_finished s i handler exit
    · exact quiet_goto s i fun _ _ ending => handled.tasks i _ there _ ending
  | finish handler exit =>
    simp only [State.handlerOp]
    split
    · exact quiet_done s i
    · exact (quiet_storeEnd (handled.tasks i _ there handler rfl) exit).trans (quiet_finished _ i handler exit)
  | failFind handler exit =>
    simp only [State.handlerOp]
    split
    · exact quiet_done s i
    · split_ifs
      · exact quiet_pass s i rfl
      · exact quiet_done s i
  | failRecord handler exit =>
    exact (quiet_recordTransition s handler.hublotId _ _ _ Status.noConfusion).trans (quiet_done _ i)
  | current handler exit => exact quiet_pass s i rfl
  | list handler exit current =>
    simp only [State.handlerOp]
    split
    · exact quiet_done s i
    · split_ifs
      · exact quiet_pass s i rfl
      · exact quiet_done s i
  | record handler exit current =>
    simp only [State.handlerOp]
    split_ifs
    · exact (quiet_recordTransition s handler.hublotId _ _ _ Status.noConfusion).trans (quiet_done _ i)
    · exact (quiet_recordTransition s handler.hublotId _ _ _ Status.noConfusion).trans (quiet_done _ i)

theorem frame_dies (s : State) (child : Nat) :
    Frame s { s with children := s.children.modify child fun process => { process with alive := false } } where
  alive i process there alive := by
    rw [List.getElem?_modify] at there
    obtain ⟨old, thereOld, rfl⟩ := Option.map_eq_some_iff.mp there
    by_cases same : child = i
    · simp only [if_pos same] at alive
      cases alive
    · rw [thereOld, if_neg same]
  records row there := ⟨row, there, .refl row⟩

theorem quiet_dies (s : State) (child : Nat) :
    Quiet s { s with children := s.children.modify child fun process => { process with alive := false } } where
  toFrame := frame_dies s child
  stage := rfl
  marked := rfl
  active row there _ := ⟨row, there, .refl row, rfl⟩
  sweeps row there sweeps := ⟨row, there, rfl, sweeps⟩
  handled handled := handled.frame (frame_dies s child) (fun _ there => there) handled.tasks
  kept kept := kept

theorem quiet_exit {number : Nat} (exit : Exit) (listed : s.handlers[number]? = some handler)
    (there : s.children[handler.child]? = some child) (dead : child.alive = false) : Quiet s ({ s with
      handlers := s.handlers.eraseIdx number
      handles := s.handles.filter (· ≠ handler.processId) }.start (.find handler exit)) where
  toFrame := .of_eq rfl rfl
  stage := rfl
  marked := rfl
  active row there _ := ⟨row, there, .refl row, rfl⟩
  sweeps row there sweeps := ⟨row, there, rfl, sweeps⟩
  handled handled := by
    refine handled.frame (.of_eq rfl rfl) (fun _ other => List.mem_of_mem_eraseIdx other) (handled.tasks.put ?_)
    intro other ending
    cases ending
    exact (handled.attached handler (List.mem_of_getElem? listed)).exited there dead
  kept kept := kept

theorem quiet_tick (s : State) : Quiet s { s with now := s.now + 1 } where
  toFrame := .of_eq rfl rfl
  stage := rfl
  marked := rfl
  active row there _ := ⟨row, there, .refl row, rfl⟩
  sweeps row there sweeps := ⟨row, there, rfl, sweeps⟩
  handled handled := handled.frame (.of_eq rfl rfl) (fun _ there => there) handled.tasks
  kept kept := kept

def Targeted (targets : List Process) (row : Process) : Prop :=
  ∃ target ∈ targets, target.hublotId = row.hublotId ∧ target.pid = row.pid ∧ target.identity = row.identity

def Outside (s : State) (id : Nat) : Prop := ∀ row ∈ s.hublots, row.id = id → ¬row.Sweeps

/-- A live tunnel is active on record until the turn of its hublot comes. Then it is a target, or of a hublot that the sweep leaves alone. -/
structure Covered (s : State) (rows : List Hublot) (targets : List Process) : Prop where
  pending : ∀ row ∈ s.processes, row.role = .tunnel → s.verifies row = true →
    (∃ hublot ∈ rows, hublot.id = row.hublotId) → row.active = true
  passed : ∀ row ∈ s.processes, row.role = .tunnel → s.verifies row = true →
    (∀ hublot ∈ rows, hublot.id ≠ row.hublotId) → Targeted targets row ∨ Outside s row.hublotId

def Spared (s : State) (rows : List Hublot) (remaining : List Process) : Prop :=
  ∀ row ∈ s.processes, row.role = .tunnel → s.verifies row = true → (∃ hublot ∈ rows, hublot.id = row.hublotId) →
    Targeted remaining row

def Knows (s : State) : Stage → Prop
  | .retire rows targets => Covered s rows targets
  | .processes row rows targets => Covered s (row :: rows) targets
  | .stop targets => Covered s [] targets
  | .finish _ remaining _ => Covered s [] remaining
  | .sweep remaining _ => Covered s [] remaining
  | .mark rows remaining _ => Spared s rows remaining
  | .idle | .list | .completed | .failed => True

variable {targets : List Process}

theorem Process.Same.targeted {old : Process} (same : old.Same row) (targeted : Targeted targets old) :
    Targeted targets row := by
  obtain ⟨target, there, hublotId, pid, identity⟩ := targeted
  exact ⟨target, there, hublotId.trans same.hublotId, pid.trans same.pid, identity.trans same.identity⟩

theorem Covered.frame (covered : Covered s [] targets) (frame : Frame s t)
    (outside : ∀ id, Outside s id → Outside t id) : Covered t [] targets where
  pending _ _ _ _ := fun ⟨_, listed, _⟩ => nomatch listed
  passed row there tunnel verified _ := by
    obtain ⟨old, thereOld, same⟩ := frame.records row there
    have known := covered.passed old thereOld (same.role.trans tunnel) (frame.verifies same verified) fun _ listed =>
      nomatch listed
    cases known with
    | inl targeted => exact .inl (same.targeted targeted)
    | inr left => exact .inr (same.hublotId ▸ outside _ left)

theorem Quiet.outside (quiet : Quiet s t) (outside : Outside s id) : Outside t id := by
  intro row there named sweeps
  obtain ⟨old, thereOld, same, sweepsOld⟩ := quiet.sweeps row there sweeps
  exact outside old thereOld (same.trans named) sweepsOld

variable {rows : List Hublot}

theorem Covered.quiet (covered : Covered s rows targets) (quiet : Quiet s t) : Covered t rows targets where
  pending row there tunnel verified turn := by
    obtain ⟨old, thereOld, same, active⟩ := quiet.active row there verified
    obtain ⟨hublot, listed, named⟩ := turn
    rw [active]
    exact covered.pending old thereOld (same.role.trans tunnel) (quiet.verifies same verified)
      ⟨hublot, listed, named.trans same.hublotId.symm⟩
  passed row there tunnel verified turn := by
    obtain ⟨old, thereOld, same⟩ := quiet.records row there
    have known := covered.passed old thereOld (same.role.trans tunnel) (quiet.verifies same verified)
      fun hublot listed named => turn hublot listed (named.trans same.hublotId)
    cases known with
    | inl targeted => exact .inl (same.targeted targeted)
    | inr left => exact .inr (same.hublotId ▸ quiet.outside left)

variable {remaining : List Process}

theorem Spared.frame (spared : Spared s rows remaining) (frame : Frame s t) : Spared t rows remaining := by
  intro row there tunnel verified ⟨hublot, listed, named⟩
  obtain ⟨old, thereOld, same⟩ := frame.records row there
  exact same.targeted (spared old thereOld (same.role.trans tunnel) (frame.verifies same verified)
    ⟨hublot, listed, named.trans same.hublotId.symm⟩)

theorem Quiet.knows (quiet : Quiet s t) {stage : Stage} (knows : Knows s stage) : Knows t stage := by
  cases stage with
  | mark rows remaining stoppedAt => exact Spared.frame knows quiet.toFrame
  | idle => trivial
  | list => trivial
  | completed => trivial
  | failed => trivial
  | _ => exact Covered.quiet knows quiet

theorem covered_list (timely : Timely s .op) (stage : s.stage = .list) :
    Covered s (s.hublots.filter (·.desired = .opened)) [] := by
  rw [Timely, stage] at timely
  constructor
  · intro row there tunnel verified ⟨hublot, listed, named⟩
    obtain ⟨thereHublot, desired⟩ := List.mem_filter.mp listed
    exact (timely row there tunnel verified hublot thereHublot named).2 (of_decide_eq_true desired)
  · intro row there tunnel verified _
    exact .inr fun hublot thereHublot named => (timely row there tunnel verified hublot thereHublot named).1

theorem Covered.retire {row : Hublot} (covered : Covered s (row :: rows) targets) (status : Status)
    (desired : Option Desired) (lastError : Option (Option String)) (closedAt : Option Nat) :
    Covered (s.recordTransition row.id status desired lastError closedAt) (row :: rows) targets where
  pending := covered.pending
  passed process there tunnel verified turn := by
    have known := covered.passed process there tunnel verified turn
    cases known with
    | inl targeted => exact .inl targeted
    | inr outside =>
      refine .inr fun hublot thereHublot named => ?_
      obtain ⟨old, thereOld, ⟨namedOld, rfl⟩ | ⟨_, rfl⟩⟩ := mem_updateHublot thereHublot
      · exact absurd (namedOld.symm.trans named) (turn row (List.mem_cons_self ..))
      · exact outside hublot thereOld named

theorem Covered.processes {row : Hublot} (covered : Covered s (row :: rows) targets) :
    Covered s rows (targets ++ (s.listProcesses row.id).filter fun process =>
      process.active && process.role = .tunnel && s.verifies process) where
  pending process there tunnel verified := fun ⟨hublot, listed, named⟩ =>
    covered.pending process there tunnel verified ⟨hublot, List.mem_cons_of_mem row listed, named⟩
  passed process there tunnel verified turn := by
    by_cases named : row.id = process.hublotId
    · have active := covered.pending process there tunnel verified ⟨row, List.mem_cons_self .., named⟩
      refine .inl ⟨process, List.mem_append_right _ ?_, rfl, rfl, rfl⟩
      refine List.mem_filter.mpr ⟨List.mem_filter.mpr ⟨there, decide_eq_true named.symm⟩, ?_⟩
      rw [active, verified, decide_eq_true tunnel]
      rfl
    · have known := covered.passed process there tunnel verified (List.forall_mem_cons.mpr ⟨named, turn⟩)
      cases known with
      | inl targeted =>
        obtain ⟨target, listed, same⟩ := targeted
        exact .inl ⟨target, List.mem_append_left _ listed, same⟩
      | inr outside => exact .inr outside

theorem verifies_same (pid : row.pid = other.pid) (identity : row.identity = other.identity) :
    s.verifies row = s.verifies other := by
  unfold State.verifies
  rw [pid, identity]

theorem Covered.stop (covered : Covered s [] targets) : Covered s [] (targets.filter s.verifies) where
  pending := covered.pending
  passed row there tunnel verified turn := by
    have known := covered.passed row there tunnel verified turn
    cases known with
    | inl targeted =>
      obtain ⟨target, listed, hublotId, pid, identity⟩ := targeted
      exact .inl ⟨target, List.mem_filter.mpr ⟨listed, (verifies_same pid identity).trans verified⟩, hublotId, pid,
        identity⟩
    | inr outside => exact .inr outside

theorem Covered.sweep (covered : Covered s [] remaining) :
    Spared s (s.hublots.filter fun row => row.status = .closing && row.desired = .closed) remaining := by
  intro row there tunnel verified ⟨hublot, listed, named⟩
  have known := covered.passed row there tunnel verified fun _ listed => nomatch listed
  cases known with
  | inl targeted => exact targeted
  | inr outside =>
    obtain ⟨thereHublot, sweeps⟩ := List.mem_filter.mp listed
    obtain ⟨status, desired⟩ := Bool.and_eq_true_iff.mp sweeps
    exact absurd ⟨of_decide_eq_true status, of_decide_eq_true desired⟩ (outside hublot thereHublot named)

theorem Spared.dead {row : Hublot} (spared : Spared s (row :: rows) remaining)
    (gone : (remaining.any (·.hublotId = row.id)) = false) : s.live row.id = false := by
  refine List.any_eq_false.mpr fun process there lives => ?_
  obtain ⟨both, verified⟩ := Bool.and_eq_true_iff.mp lives
  obtain ⟨named, tunnel⟩ := Bool.and_eq_true_iff.mp both
  have named := of_decide_eq_true named
  obtain ⟨target, listed, hublotId, _⟩ :=
    spared process there (of_decide_eq_true tunnel) verified ⟨row, List.mem_cons_self .., named.symm⟩
  exact List.any_eq_false.mp gone target listed (decide_eq_true (hublotId.trans named))

/-- What holds throughout, as the shutdown and the exit handlers go on beside each other. -/
structure Sound (s : State) : Prop where
  handled : Handled s
  kept : Kept s
  spares : true ∉ s.marked

structure Inv (s : State) : Prop extends Sound s where
  knows : Knows s s.stage

theorem Sound.goto (sound : Sound s) (stage : Stage) : Sound { s with stage } :=
  ⟨⟨sound.handled.attached, sound.handled.tasks⟩, sound.kept, sound.spares⟩

theorem Sound.quiet (sound : Sound s) (quiet : Quiet s t) : Sound t :=
  ⟨quiet.handled sound.handled, quiet.kept sound.kept, quiet.marked ▸ sound.spares⟩

theorem Sound.retireNext (sound : Sound s) (covered : Covered s rows targets) : Inv (s.retireNext targets rows) := by
  cases rows with
  | nil => exact ⟨sound.goto _, ⟨covered.pending, covered.passed⟩⟩
  | cons row rows =>
    simp only [State.retireNext]
    split_ifs
    · exact ⟨sound.goto _, ⟨covered.pending, covered.passed⟩⟩
    · exact ⟨sound.goto _, ⟨covered.pending, covered.passed⟩⟩

theorem Sound.finishNext (sound : Sound s) (stoppedAt : Nat) (covered : Covered s [] remaining)
    (pending : List Process) : Inv (s.finishNext remaining stoppedAt pending) := by
  unfold State.finishNext
  split
  · exact ⟨sound.goto _, ⟨covered.pending, covered.passed⟩⟩
  · exact ⟨sound.goto _, ⟨covered.pending, covered.passed⟩⟩

theorem Sound.markNext (sound : Sound s) (stoppedAt : Nat) (spared : Spared s rows remaining) :
    Inv (s.markNext remaining stoppedAt rows) := by
  cases rows with
  | nil => exact ⟨sound.goto _, trivial⟩
  | cons row rows => exact ⟨sound.goto _, spared⟩

theorem Sound.recordTransition (sound : Sound s) (id : Nat) (status : Status) (desired : Option Desired)
    (lastError : Option (Option String)) (closedAt : Option Nat) :
    Sound (s.recordTransition id status desired lastError closedAt) :=
  ⟨⟨sound.handled.attached, sound.handled.tasks⟩, sound.kept, sound.spares⟩

theorem Sound.storeShutdown (sound : Sound s) {processId : Nat} (stoppedAt : Nat)
    (unended : ∀ row ∈ s.processes, row.id = processId → row.ended = none) :
    Sound (s.storeShutdown processId stoppedAt) where
  handled := sound.handled.frame (frame_storeShutdown s processId stoppedAt) (fun _ there => there) sound.handled.tasks
  kept := by
    intro id ended stored row there named
    obtain ⟨old, thereOld, ⟨namedOld, rfl⟩ | ⟨_, rfl⟩⟩ := mem_updateProcess there
    · have told := sound.kept id ended stored old thereOld named
      rw [unended old thereOld namedOld] at told
      cases told
    · exact sound.kept id ended stored row thereOld named
  spares := sound.spares

theorem Sound.mark (sound : Sound s) {row : Hublot} (survives : Bool) (stoppedAt : Nat)
    (dead : survives = false → s.live row.id = false) : Sound (s.mark row survives stoppedAt) where
  handled := ⟨sound.handled.attached, sound.handled.tasks⟩
  kept := sound.kept
  spares := by
    cases survives with
    | false =>
      simp only [State.mark, Bool.false_eq_true, if_false, dead rfl, List.mem_cons, not_or]
      exact ⟨Bool.noConfusion, sound.spares⟩
    | true => exact sound.spares

theorem Inv.shutdownOp (inv : Inv s) (timely : Timely s .op) (op : s.shutdownOp s.stage = some t) : Inv t := by
  have sound := inv.toSound
  have knows := inv.knows
  cases stage : s.stage with
  | idle =>
    rw [stage] at op
    cases op
  | completed =>
    rw [stage] at op
    cases op
  | failed =>
    rw [stage] at op
    cases op
  | list =>
    rw [stage] at op
    cases op
    exact sound.retireNext (covered_list timely stage)
  | retire rows targets =>
    rw [stage] at op knows
    cases rows with
    | nil => cases op
    | cons row rows =>
      cases op
      cases s.find row.id with
      | none => exact ⟨sound.goto .failed, trivial⟩
      | some _ =>
        have covered := Covered.retire knows .closing (some .closed) (some (some serverStopped)) none
        exact ⟨(sound.recordTransition ..).goto _, ⟨covered.pending, covered.passed⟩⟩
  | processes row rows targets =>
    rw [stage] at op knows
    cases op
    exact sound.retireNext (Covered.processes knows)
  | stop targets =>
    rw [stage] at op knows
    cases op
    exact sound.finishNext s.now (Covered.stop knows) targets
  | finish pending remaining stoppedAt =>
    rw [stage] at op knows
    cases pending with
    | nil => cases op
    | cons row rows =>
      cases op
      cases s.findProcess row.id with
      | none => exact ⟨sound.goto .failed, trivial⟩
      | some _ =>
        have covered := Covered.frame knows (frame_storeShutdown s row.id stoppedAt) fun _ outside => outside
        rw [Timely, stage] at timely
        exact (sound.storeShutdown stoppedAt timely).finishNext stoppedAt covered rows
  | sweep remaining stoppedAt =>
    rw [stage] at op knows
    cases op
    exact sound.markNext stoppedAt (Covered.sweep knows)
  | mark rows remaining stoppedAt =>
    rw [stage] at op knows
    cases rows with
    | nil => cases op
    | cons row rows =>
      cases op
      cases s.find row.id with
      | none => exact ⟨sound.goto .failed, trivial⟩
      | some _ =>
        have rest : Spared s rows remaining := fun process there tunnel verified ⟨hublot, listed, named⟩ =>
          knows process there tunnel verified ⟨hublot, List.mem_cons_of_mem row listed, named⟩
        exact (sound.mark _ stoppedAt (Spared.dead knows)).markNext stoppedAt rest

theorem Inv.quiet (inv : Inv s) (quiet : Quiet s t) : Inv t :=
  ⟨inv.toSound.quiet quiet, quiet.stage ▸ quiet.knows inv.knows⟩

theorem inv_step (s : State) (action : Action) (t : State) (inv : Inv s) (timely : Timely s action)
    (stepped : step s action = some t) : Inv t := by
  cases action with
  | shutdown =>
    simp only [step] at stepped
    split_ifs at stepped
    cases stepped
    exact ⟨inv.toSound.goto .list, trivial⟩
  | op => exact inv.shutdownOp timely stepped
  | dies child =>
    cases stepped
    exact inv.quiet (quiet_dies s child)
  | exit number exit =>
    obtain ⟨handler, listed, rest⟩ := Option.bind_eq_some_iff.mp stepped
    obtain ⟨child, there, rest⟩ := Option.bind_eq_some_iff.mp rest
    split_ifs at rest with alive
    cases rest
    exact inv.quiet (quiet_exit exit listed there (Bool.eq_false_iff.mpr alive))
  | handler i =>
    obtain ⟨task, there, rest⟩ := Option.bind_eq_some_iff.mp stepped
    cases rest
    exact inv.quiet (quiet_handlerOp inv.handled there)
  | tick =>
    cases stepped
    exact inv.quiet (quiet_tick s)

/-- Before the shutdown; exit handlers may be under way. -/
structure Initial (s : State) : Prop where
  stage : s.stage = .idle
  marked : s.marked = []
  handled : Handled s
  kept : Kept s

/-- In every run in which the condition holds, however the exit handlers and the ends of the processes fall among the operations of the
shutdown, the ends that the handlers have stored are kept and no hublot with a live tunnel is marked closed. -/
theorem shutdown_truthful {s t : State} {actions : List Action} (initial : Initial s) (run : Run step Timely s actions t) :
    Truthful t := by
  have base : Inv s := {
    handled := initial.handled
    kept := initial.kept
    spares := by
      rw [initial.marked]
      exact List.not_mem_nil
    knows := by
      rw [initial.stage]
      trivial }
  have inv := Run.invariant inv_step run base
  exact ⟨inv.kept, inv.spares⟩

instance (s : State) (stage : Stage) : Decidable (TimelyAt s stage) :=
  match stage with
  | .list => inferInstanceAs (Decidable (∀ row ∈ s.processes, row.role = .tunnel → s.verifies row = true →
      ∀ hublot ∈ s.hublots, hublot.id = row.hublotId → ¬hublot.Sweeps ∧ (hublot.desired = .opened → row.active = true)))
  | .finish (target :: _) _ _ => inferInstanceAs (Decidable (∀ row ∈ s.processes, row.id = target.id → row.ended = none))
  | .finish [] _ _ | .idle | .retire _ _ | .processes _ _ _ | .stop _ | .sweep _ _ | .mark _ _ _ | .completed | .failed =>
    .isTrue trivial

instance (s : State) (action : Action) : Decidable (Timely s action) :=
  match action with
  | .op => inferInstanceAs (Decidable (TimelyAt s s.stage))
  | .shutdown | .dies _ | .exit _ _ | .handler _ | .tick => .isTrue trivial

/-- Two hublots and their tunnels, as `openTunnel` has left them. -/
def twoOpen : State where
  hublots := [⟨1, .opened, .opened, some "https://a", none, none⟩, ⟨2, .opened, .opened, some "https://b", none, none⟩]
  processes := [⟨10, 1, .tunnel, 100, some ⟨1, 0⟩, .running, some 0, none⟩,
    ⟨20, 2, .tunnel, 200, some ⟨2, 0⟩, .running, some 0, none⟩]
  children := [⟨100, ⟨1, 0⟩, true⟩, ⟨200, ⟨2, 0⟩, true⟩]
  handlers := [⟨0, 10, 1, true, ""⟩, ⟨1, 20, 2, true, ""⟩]
  handles := [10, 20]
  hublotReopens := []
  tasks _ := none
  nextTask := 0
  stage := .idle
  now := 7
  stored _ := none
  marked := []

theorem attached_twoOpen : ∀ handler ∈ twoOpen.handlers, Attached twoOpen handler := by
  intro handler there row thereRow named i child at_i _ pid _
  match i with
  | 0 =>
    cases at_i
    revert handler row
    decide
  | 1 =>
    cases at_i
    revert handler row
    decide

theorem initial_twoOpen : Initial twoOpen where
  stage := rfl
  marked := rfl
  handled := ⟨attached_twoOpen, fun _ _ => nofun⟩
  kept _ _ := nofun

def stoppedBoth : List Action :=
  [.shutdown, .op, .op, .dies 0, .exit 0 ⟨some 1, none⟩, .handler 0, .handler 0, .op, .op, .op, .dies 1, .tick, .op, .op,
    .op, .op,
    .op, .exit 0 ⟨none, some "SIGTERM"⟩, .handler 1, .handler 1]

theorem shutdown_truthful_both :
    ∃ s, Run step Timely twoOpen stoppedBoth s ∧ s.stage = .completed ∧ s.marked = [false, false] ∧
      s.processes.map (·.ended) = [some ⟨7, some 1, none⟩, some ⟨8, none, some "SIGTERM"⟩] ∧ Truthful s := by
  have checked : ((execIf step (fun s action => decide (Timely s action)) twoOpen stoppedBoth).any fun s =>
      decide (s.stage = .completed ∧ s.marked = [false, false] ∧
        s.processes.map (·.ended) = [some ⟨7, some 1, none⟩, some ⟨8, none, some "SIGTERM"⟩])) = true := by decide +kernel
  obtain ⟨s, ran, ended⟩ := (Option.any_eq_true _ _).mp checked
  obtain ⟨stage, marked, ends⟩ := of_decide_eq_true ended
  have run := run_of_execIf (fun _ _ => of_decide_eq_true) ran
  exact ⟨s, run, stage, marked, ends, shutdown_truthful initial_twoOpen run⟩

def stoppedFirst : List Action :=
  [.shutdown, .op, .op, .op, .op, .op, .dies 0, .dies 1, .exit 0 ⟨none, some "SIGTERM"⟩, .handler 0, .handler 0,
    .exit 0 ⟨some 0, none⟩,
    .handler 1, .handler 1, .tick, .op, .op, .op, .op, .op, .op]

def closingOne : State :=
  { twoOpen with hublots := [⟨1, .closing, .closed, none, none, none⟩,
    ⟨2, .opened, .opened, some "https://b", none, none⟩] }

def stoppedOther : List Action := [.shutdown, .op, .op, .op, .dies 1, .op, .op, .op, .op, .op]

/-- An end that a handler has stored is overwritten, and a hublot is marked closed while its tunnel is alive. -/
theorem shutdown_untruthful : (∃ s, Run step Free twoOpen stoppedFirst s ∧ s.stage = .completed ∧
      s.stored 10 = some ⟨7, none, some "SIGTERM"⟩ ∧ s.stored 20 = some ⟨7, some 0, none⟩ ∧
      s.processes.map (·.ended) = [some ⟨8, none, some "shutdown"⟩, some ⟨8, none, some "shutdown"⟩] ∧ ¬Truthful s) ∧
    ∃ s, Run step Free closingOne stoppedOther s ∧ s.stage = .completed ∧ s.live 1 = true ∧
    (s.find 1).map (·.status) = some .closed ∧ ¬Truthful s := by
  constructor
  · refine ⟨_, run_of_exec rfl, rfl, rfl, rfl, rfl, fun truthful => ?_⟩
    have told := truthful.kept 10 _ rfl _ (List.mem_cons_self ..) rfl
    cases told
  · refine ⟨_, run_of_exec rfl, rfl, rfl, rfl, fun truthful => ?_⟩
    exact truthful.spares (by decide)

end HublotShutdown
