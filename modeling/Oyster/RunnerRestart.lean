import Oyster.Runner

/-! The restart of the active runners: their resume queues are captured, the runners are
stopped one after the other, each queue is put back behind its stop, and the runners are
started again. Meanwhile clients send commands and resumes end. -/
namespace RunnerRestart
open Interleaving Runner

structure Item where
  runner : Nat
  queuedResumeWork : List Nat

/-- Where `restartActiveRunners` awaits: in the two parts of `stopRunner`, with the process
that it has read, or in a start. `ids` are the runners that have been stopped and are to be
started, `awaits` is the start that has been called last. -/
inductive Restart where
  | idle
  | stopping (item : Item) (proc : Option Nat) (rest : List Item) (ids : List Nat)
  | flushing (item : Item) (rest : List Item) (ids : List Nat)
  | starting (ids : List Nat) (awaits : Option (Nat × Nat))

/-- `queued` is history: the commands that have been accepted into the resume queue of a
runner, in order. -/
structure System where
  runners : Nat → Runner.State := fun _ => {}
  restart : Restart := .idle
  queued : Nat → List Nat := fun _ => []

def System.setRunner (s : System) (r : Nat) (t : Runner.State) : System :=
  { s with runners := Function.update s.runners r t }

def newlyQueued (s t : Runner.State) : List Nat :=
  if s.resumeQueue <+: t.resumeQueue then t.resumeQueue.drop s.resumeQueue.length else []

/-- The queue that was captured goes before what has come since, unless it still is there. -/
def restoreResumeQueue (s : Runner.State) (queuedResumeWork : List Nat) : Runner.State :=
  if queuedResumeWork <+: s.resumeQueue then s
  else { s with resumeQueue := queuedResumeWork ++ s.resumeQueue }

/-- `stopRunner` after its update. The restart awaits the call itself, so it is not among
the calls in flight. -/
def stopRunner (s : Runner.State) (proc : Option Nat) : Runner.State :=
  (stopProcess s s.nextCall proc true).dropCall s.nextCall

def nextStop (s : System) (rest : List Item) (ids : List Nat) : System :=
  match rest with
  | [] => { s with restart := .starting ids none }
  | item :: rest => { s with restart := .stopping item (s.runners item.runner).proc rest ids }

def restore (s : System) (item : Item) (rest : List Item) (ids : List Nat) : System :=
  nextStop (s.setRunner item.runner (restoreResumeQueue (s.runners item.runner) item.queuedResumeWork)) rest ids

inductive Action where
  | runner (r : Nat) (a : Runner.Action)
  | restart (chosen : List Nat)
  | proceed (now : Nat)
  | fail

def startNext (s : System) (r : Nat) (ids : List Nat) (now : Nat) : System :=
  let runner := s.runners r
  if runner.registered then
    let started := startRunner (startCalled runner) now false
    { s.setRunner r started with
      restart := .starting ids (if runner.nextCall < started.nextCall then some (r, runner.nextCall) else none) }
  else { s with restart := .starting ids none }

/-- A restart begins with runners that have a process, whichever the filters choose. A stop
that fails leaves its runner stopped or as it was, and the runner is not started. -/
def step (driver : Nat → Driver) (s : System) : Action → Option System
  | .runner r a =>
    (Runner.step (driver r) (s.runners r) a).map fun t =>
      { s.setRunner r t with
        queued := Function.update s.queued r (s.queued r ++ newlyQueued (s.runners r) t) }
  | .restart chosen =>
    match s.restart with
    | .idle =>
      if chosen.Nodup ∧ ∀ r ∈ chosen, (s.runners r).proc.isSome then
        some (nextStop s (chosen.map fun r => ⟨r, (s.runners r).resumeQueue⟩) [])
      else none
    | _ => none
  | .proceed now =>
    match s.restart with
    | .idle => none
    | .stopping item proc rest ids =>
      some { s.setRunner item.runner (stopRunner (s.runners item.runner) proc) with
        restart := .flushing item rest ids }
    | .flushing item rest ids => some (restore s item rest (ids ++ [item.runner]))
    | .starting ids awaits =>
      if awaits.any fun (r, i) => ((s.runners r).calls i).isSome then none
      else match ids with
        | [] => some { s with restart := .idle }
        | r :: ids => some (startNext s r ids now)
  | .fail =>
    match s.restart with
    | .stopping item _ rest ids | .flushing item rest ids => some (restore s item rest ids)
    | _ => none

/-! ### Queued commands -/

def writes (s : Runner.State) : List Nat :=
  (List.range s.nextChild).flatMap fun c => ((s.children c).map Child.written).getD []

def System.kept (s : System) (r : Nat) : List Nat :=
  match s.restart with
  | .flushing item _ _ => if item.runner = r then item.queuedResumeWork else []
  | _ => []

def System.pending (s : System) (r : Nat) : List Nat := s.kept r ++ (s.runners r).resumeQueue

/-- Every queued command has been written once or is pending, in the order of acceptance; a
resume that is awaited ends at the latest when its time is over; and when a process has been
sent its startup commands and no resume is awaited, nothing is pending. -/
structure QueueLaw (s : System) (r : Nat) : Prop where
  kept : (writes (s.runners r)).filter (· ∈ s.queued r) ++ s.pending r = s.queued r
  once : (s.queued r).Nodup
  waiting : (s.runners r).resumeId.isSome = true → (s.runners r).resumeTimer = true ∧ (s.runners r).proc.isSome
  delivered : (s.runners r).resumeId = none → ∀ c child, (s.runners r).proc = some c →
    (s.runners r).children c = some child → child.startup.isSome = true → s.pending r = []

/-- The step ends the resume that is awaited. -/
def Completes (s : Runner.State) : Runner.Action → Prop
  | .answer c => s.proc = some c ∧ (s.children c).bind Child.startup = s.resumeId ∧ s.resumeId.isSome = true
  | .resumeTimeout => s.resumeId.isSome = true
  | _ => False

def Undisturbed (s : Runner.State) : Runner.Action → Prop
  | .stop => False
  | .die c => ∀ child, s.children c = some child → child.toldToStop = true
  | _ => True

/-- The condition under which no command is lost or doubled: what a stop clears is what has
been captured, and no resume ends while captured commands are out of their queue. -/
def Preserving (s : System) : Action → Prop
  | .runner r a => Undisturbed (s.runners r) a ∧ (s.kept r ≠ [] → ¬Completes (s.runners r) a)
  | .restart _ => True
  | .proceed _ =>
    match s.restart with
    | .stopping item _ _ _ => (s.runners item.runner).resumeQueue = item.queuedResumeWork
    | _ => True
  | .fail =>
    match s.restart with
    | .stopping item _ _ _ => item.queuedResumeWork <+: (s.runners item.runner).resumeQueue
    | _ => True

/-! ### One runner -/

/-- No call of `stopRunner` but the restart's is in flight. -/
def Unstopped (s : Runner.State) : Prop :=
  ∀ i proc startedSince, s.calls i ≠ some (.stopping proc startedSince)

structure Processes (s : Runner.State) : Prop where
  bounded : ∀ c child, s.children c = some child → c < s.nextChild
  present : ∀ c, s.proc = some c → c + 1 = s.nextChild ∧
    ∃ child, s.children c = some child ∧ child.alive = true ∧ child.toldToStop = false

/-- The queued commands of one runner, of which `kept` are out of the queue. -/
structure Conserved (driver : Driver) (s : Runner.State) (queued kept : List Nat) : Prop where
  unstopped : Unstopped s
  processes : Processes s
  below : ∀ k, k ∈ writes s ∨ k ∈ queued → k < s.accepted
  ordered : queued.Pairwise (· < ·)
  total : (writes s).filter (· ∈ queued) ++ (kept ++ s.resumeQueue) = queued
  resumes : queued ≠ [] ∨ s.resumeId.isSome = true → driver.resumes = true
  waiting : s.resumeId.isSome = true → s.resumeTimer = true ∧ s.proc.isSome = true
  delivered : s.resumeId = none → ∀ c child, s.proc = some c → s.children c = some child →
    child.startup.isSome = true → kept ++ s.resumeQueue = []

section
variable {driver : Driver} {s t : Runner.State} {queued kept : List Nat}

theorem Processes.modify (h : Processes s) {c : Nat} {f : Child → Child}
    (children : t.children = s.children.modify c f) (nextChild : t.nextChild = s.nextChild)
    (proc : ∀ d, t.proc = some d → s.proc = some d)
    (lives : ∀ child, t.proc = some c → (f child).alive = child.alive ∧
      (f child).toldToStop = child.toldToStop) : Processes t := by
  constructor
  · intro d child found
    rw [nextChild]
    rw [children] at found
    obtain ⟨rfl, old, was, _⟩ | ⟨_, was⟩ := Calls.modify_eq_some found
    · exact h.bounded _ old was
    · exact h.bounded d child was
  · intro d present
    obtain ⟨last, child, found, alive, told⟩ := h.present d (proc d present)
    rw [nextChild, children]
    by_cases same : d = c
    · subst same
      refine ⟨last, f child, ?_, ?_, ?_⟩
      · rw [Calls.modify_self, found, Option.map_some]
      · rw [(lives child present).1, alive]
      · rw [(lives child present).2, told]
    · refine ⟨last, child, ?_, alive, told⟩
      rw [Calls.modify, Function.update_of_ne same, found]

theorem Processes.frame (h : Processes s) (children : t.children = s.children)
    (nextChild : t.nextChild = s.nextChild) (proc : t.proc = s.proc) : Processes t := by
  constructor
  · rw [children, nextChild]
    exact h.bounded
  · rw [children, nextChild, proc]
    exact h.present

theorem Conserved.frame (h : Conserved driver s queued kept) (unstopped : Unstopped t)
    (children : t.children = s.children) (nextChild : t.nextChild = s.nextChild) (proc : t.proc = s.proc)
    (accepted : t.accepted = s.accepted) (queue : t.resumeQueue = s.resumeQueue)
    (resumeId : t.resumeId = s.resumeId) (timer : t.resumeTimer = s.resumeTimer) :
    Conserved driver t queued kept := by
  have same : writes t = writes s := by rw [writes, writes, children, nextChild]
  constructor
  · exact unstopped
  · exact h.processes.frame children nextChild proc
  · rw [same, accepted]
    exact h.below
  · exact h.ordered
  · rw [same, queue]
    exact h.total
  · rw [resumeId]
    exact h.resumes
  · rw [resumeId, timer, proc]
    exact h.waiting
  · rw [resumeId, proc, children, queue]
    exact h.delivered

theorem writes_modify {c : Nat} {f : Child → Child} (children : t.children = s.children.modify c f)
    (nextChild : t.nextChild = s.nextChild) (keeps : ∀ child, (f child).written = child.written) :
    writes t = writes s := by
  rw [writes, writes, children, nextChild]
  congr 1
  funext d
  unfold Calls.modify
  by_cases same : d = c
  · subst same
    rw [Function.update_self, Option.map_map]
    congr 2
    funext child
    exact keeps child
  · rw [Function.update_of_ne same]

theorem writes_last {c : Nat} {f : Child → Child} {child : Child} {ks : List Nat}
    (last : c + 1 = s.nextChild) (found : s.children c = some child)
    (wrote : (f child).written = child.written ++ ks) (children : t.children = s.children.modify c f)
    (nextChild : t.nextChild = s.nextChild) : writes t = writes s ++ ks := by
  rw [writes, writes, children, nextChild, ← last, List.range_succ, List.flatMap_append, List.flatMap_append]
  have before : (List.range c).flatMap (fun d => ((s.children.modify c f d).map Child.written).getD []) =
      (List.range c).flatMap fun d => ((s.children d).map Child.written).getD [] := by
    refine List.flatMap_congr fun d mem => ?_
    have other : d ≠ c := Nat.ne_of_lt (List.mem_range.mp mem)
    rw [Calls.modify, Function.update_of_ne other]
  rw [before, List.flatMap_singleton, List.flatMap_singleton, Calls.modify_self, found]
  simp only [Option.map_some, Option.getD_some, wrote, List.append_assoc]

theorem Conserved.bounded_queue (h : Conserved driver s queued kept) {k : Nat}
    (mem : k ∈ kept ++ s.resumeQueue) : k ∈ queued := by
  rw [← h.total]
  exact List.mem_append_right _ mem

theorem Conserved.nodup (h : Conserved driver s queued kept) : queued.Nodup :=
  h.ordered.imp fun less => Nat.ne_of_lt less

/-! ### Calls in flight -/

theorem Unstopped.put (h : Unstopped s) (i : Nat) {call : Call}
    (other : ∀ proc startedSince, call ≠ .stopping proc startedSince) : Unstopped (s.putCall i call) := by
  intro j proc startedSince found
  rcases Calls.put_eq_some found with ⟨_, same⟩ | ⟨_, old⟩
  · exact other proc startedSince same.symm
  · exact h j proc startedSince old

theorem Unstopped.begin (h : Unstopped s) {call : Call}
    (other : ∀ proc startedSince, call ≠ .stopping proc startedSince) : Unstopped (s.beginCall call) := by
  intro j proc startedSince found
  rcases Calls.put_eq_some found with ⟨_, same⟩ | ⟨_, old⟩
  · exact other proc startedSince same.symm
  · exact h j proc startedSince old

theorem Unstopped.drop (h : Unstopped s) (i : Nat) : Unstopped (s.dropCall i) :=
  fun j proc startedSince found => h j proc startedSince (Calls.drop_eq_some found).2

theorem Unstopped.startCalled (h : Unstopped s) : Unstopped (startCalled s) := by
  intro i proc startedSince found
  obtain ⟨call, old, noted⟩ := Calls.mapAll_eq_some found
  cases call with
  | stopping was since => exact h i was since old
  | _ => cases noted

theorem Unstopped.returnStart (h : Unstopped s) (i : Nat) (sends : Bool) : Unstopped (returnStart s i sends) := by
  unfold Runner.returnStart
  split_ifs
  · exact h.put i fun _ _ absurd => nomatch absurd
  · exact h.drop i

theorem Conserved.startCalled (h : Conserved driver s queued kept) : Conserved driver (startCalled s) queued kept :=
  h.frame h.unstopped.startCalled rfl rfl rfl rfl rfl rfl rfl

theorem Conserved.startRunner (h : Conserved driver s queued kept) (now : Nat) (sends : Bool) :
    Conserved driver (startRunner s now sends) queued kept := by
  have returned : Conserved driver (if sends then s.beginCall .delivering else s) queued kept := by
    split_ifs
    · exact h.frame (h.unstopped.begin fun _ _ absurd => nomatch absurd) rfl rfl rfl rfl rfl rfl rfl
    · exact h
  unfold Runner.startRunner
  generalize (if sends = true then s.beginCall .delivering else s) = u at returned ⊢
  split_ifs
  · exact returned
  · exact returned.frame (t := deferRunnerStart u) returned.unstopped rfl rfl rfl rfl rfl rfl rfl
  · exact h.frame (h.unstopped.begin fun _ _ absurd => nomatch absurd) rfl rfl rfl rfl rfl rfl rfl

theorem Conserved.returnStart (h : Conserved driver s queued kept) (i : Nat) (sends : Bool) :
    Conserved driver (returnStart s i sends) queued kept := by
  obtain ⟨calls, same, _⟩ := returnStart_eq s i sends
  have unstopped := h.unstopped.returnStart i sends
  rw [same] at unstopped ⊢
  exact h.frame unstopped rfl rfl rfl rfl rfl rfl rfl

/-! ### Children -/

theorem Conserved.modify_other (h : Conserved driver s queued kept) {c : Nat} {f : Child → Child}
    (keeps : ∀ child, (f child).written = child.written) (other : s.proc ≠ some c) :
    Conserved driver (s.modifyChild c f) queued kept := by
  have same : writes (s.modifyChild c f) = writes s := writes_modify rfl rfl keeps
  constructor
  · exact h.unstopped
  · exact h.processes.modify rfl rfl (fun _ => id) fun _ present => absurd present other
  · rw [same]
    exact h.below
  · exact h.ordered
  · rw [same]
    exact h.total
  · exact h.resumes
  · exact h.waiting
  · intro idle d child proc found started
    have different : d ≠ c := fun same => other (same ▸ proc)
    refine h.delivered idle d child proc ?_ started
    rcases Calls.modify_eq_some found with ⟨same, _⟩ | ⟨_, was⟩
    · exact absurd same different
    · exact was

theorem writes_spawn (children : t.children = s.children.put s.nextChild {})
    (nextChild : t.nextChild = s.nextChild + 1) : writes t = writes s := by
  rw [writes, writes, children, nextChild, List.range_succ, List.flatMap_append, List.flatMap_singleton,
    Calls.put_self]
  refine (List.append_nil _).trans (List.flatMap_congr fun d mem => ?_)
  rw [Calls.put_of_ne _ _ (Nat.ne_of_lt (List.mem_range.mp mem))]

theorem Conserved.launch (h : Conserved driver s queued kept) (i : Nat) (sends launches : Bool) :
    Conserved driver (launch s i sends launches) queued kept := by
  unfold Runner.launch
  split_ifs
  · have same : writes { s.putCall i (.launched s.nextChild sends) with
        proc := some s.nextChild
        children := s.children.put s.nextChild {}
        nextChild := s.nextChild + 1
        lateSpawn := s.lateSpawn || s.stopped } = writes s := writes_spawn rfl rfl
    constructor
    · exact h.unstopped.put i fun _ _ absurd => nomatch absurd
    · constructor
      · intro c child found
        rcases Calls.put_eq_some found with ⟨rfl, _⟩ | ⟨_, was⟩
        · exact Nat.lt_succ_self _
        · exact Nat.lt_succ_of_lt (h.processes.bounded c child was)
      · intro c proc
        cases proc
        exact ⟨rfl, {}, Calls.put_self .., rfl, rfl⟩
    · rw [same]
      exact h.below
    · exact h.ordered
    · rw [same]
      exact h.total
    · exact h.resumes
    · exact fun waits => ⟨(h.waiting waits).1, rfl⟩
    · intro _ c child proc found started
      cases proc
      cases (Calls.put_self s.children s.nextChild {}).symm.trans found
      cases started
  · exact h.frame (h.unstopped.put i fun _ _ absurd => nomatch absurd) rfl rfl rfl rfl rfl rfl rfl

theorem Conserved.sendStartup (h : Conserved driver s queued kept) {c : Nat} (proc : s.proc = some c) :
    Conserved driver (sendStartup driver s c) queued kept := by
  have same : writes (Runner.sendStartup driver s c) = writes s := writes_modify rfl rfl fun _ => rfl
  constructor
  · exact h.unstopped
  · exact h.processes.modify rfl rfl (fun _ => id) fun _ _ => ⟨rfl, rfl⟩
  · rw [same]
    exact h.below
  · exact h.ordered
  · rw [same]
    exact h.total
  · rintro (some | waits)
    · exact h.resumes (.inl some)
    · by_contra resumes
      unfold Runner.sendStartup at waits
      simp only [resumes] at waits
      cases waits
  · intro waits
    refine ⟨?_, ?_⟩
    · unfold Runner.sendStartup at waits ⊢
      by_cases resumes : driver.resumes = true
      · simp only [resumes, Bool.true_or]
      · simp only [resumes] at waits
        cases waits
    · exact Option.isSome_iff_exists.mpr ⟨c, proc⟩
  · intro idle _ _ _ _ _
    have without : driver.resumes = false := by
      by_contra resumes
      unfold Runner.sendStartup at idle
      rw [Bool.not_eq_false] at resumes
      simp only [resumes] at idle
      cases idle
    refine List.eq_nil_iff_forall_not_mem.mpr fun k mem => ?_
    have resumes := h.resumes (.inl (List.ne_nil_of_mem (h.bounded_queue mem)))
    rw [without] at resumes
    cases resumes

theorem Conserved.startup (h : Conserved driver s queued kept) (i c : Nat) (sends : Bool) :
    Conserved driver (startup driver s i c sends) queued kept := by
  unfold Runner.startup
  split_ifs with ended
  · exact h.returnStart i sends
  · obtain ⟨_, proc⟩ := not_or.mp ended
    exact (h.sendStartup (not_not.mp proc)).returnStart i sends

/-! ### Commands -/

theorem newlyQueued_same (same : t.resumeQueue = s.resumeQueue) : newlyQueued s t = [] := by
  rw [newlyQueued, same, if_pos (List.prefix_refl _), List.drop_length]

theorem newlyQueued_push {k : Nat} (push : t.resumeQueue = s.resumeQueue ++ [k]) : newlyQueued s t = [k] := by
  rw [newlyQueued, push, if_pos (List.prefix_append _ _), List.drop_left]

theorem newlyQueued_cleared (cleared : t.resumeQueue = []) : newlyQueued s t = [] := by
  rw [newlyQueued, cleared, List.drop_nil, ite_self]

theorem Conserved.same (h : Conserved driver t queued kept) (same : t.resumeQueue = s.resumeQueue) :
    Conserved driver t (queued ++ newlyQueued s t) kept := by
  rw [newlyQueued_same same, List.append_nil]
  exact h

theorem Conserved.unaccepted (h : Conserved driver s queued kept) : s.accepted ∉ queued :=
  fun mem => Nat.lt_irrefl _ (h.below s.accepted (.inr mem))

theorem Conserved.push (h : Conserved driver s queued kept) (c : Nat) {request : Nat}
    (resumeId : s.resumeId = some request) :
    Conserved driver { s.modifyChild c (Child.accept s.accepted) with
      resumeQueue := s.resumeQueue ++ [s.accepted], accepted := s.accepted + 1 }
      (queued ++ [s.accepted]) kept := by
  have waits : s.resumeId.isSome = true := by
    rw [resumeId]
    rfl
  have same : writes { s.modifyChild c (Child.accept s.accepted) with
      resumeQueue := s.resumeQueue ++ [s.accepted], accepted := s.accepted + 1 } = writes s :=
    writes_modify rfl rfl fun child => by
      unfold Child.accept
      split_ifs <;> rfl
  have filtered : (writes s).filter (· ∈ queued ++ [s.accepted]) = (writes s).filter (· ∈ queued) := by
    refine List.filter_congr fun k written => ?_
    have older : k ≠ s.accepted := Nat.ne_of_lt (h.below k (.inl written))
    simp only [List.mem_append, List.mem_singleton, older, or_false]
  constructor
  · exact h.unstopped
  · exact h.processes.modify rfl rfl (fun _ => id) fun child _ =>
      ⟨Child.accept_alive _ child, Child.accept_toldToStop _ child⟩
  · rw [same]
    rintro k (written | mem)
    · exact Nat.lt_succ_of_lt (h.below k (.inl written))
    · rcases List.mem_append.mp mem with old | new
      · exact Nat.lt_succ_of_lt (h.below k (.inr old))
      · obtain rfl := List.mem_singleton.mp new
        exact Nat.lt_succ_self _
  · refine List.pairwise_append.mpr ⟨h.ordered, List.pairwise_singleton _ _, fun k old j new => ?_⟩
    obtain rfl := List.mem_singleton.mp new
    exact h.below k (.inr old)
  · rw [same, filtered]
    calc (writes s).filter (· ∈ queued) ++ (kept ++ (s.resumeQueue ++ [s.accepted]))
      _ = (writes s).filter (· ∈ queued) ++ (kept ++ s.resumeQueue) ++ [s.accepted] := by
        simp only [List.append_assoc]
      _ = queued ++ [s.accepted] := by rw [h.total]
  · exact fun _ => h.resumes (.inr waits)
  · exact h.waiting
  · intro idle
    rw [show s.resumeId = none from idle] at resumeId
    cases resumeId

theorem Conserved.write (h : Conserved driver s queued kept) {c : Nat} (proc : s.proc = some c) :
    Conserved driver { s.modifyChild c fun child => (child.accept s.accepted).write [s.accepted] with
      accepted := s.accepted + 1 } queued kept := by
  obtain ⟨last, child, found, alive, told⟩ := h.processes.present c proc
  have unchanged : ∀ child : Child, (child.accept s.accepted).written = child.written := by
    intro child
    unfold Child.accept
    split_ifs <;> rfl
  have wrote : writes { s.modifyChild c fun child => (child.accept s.accepted).write [s.accepted] with
      accepted := s.accepted + 1 } = writes s ++ [s.accepted] := by
    refine writes_last last found ?_ rfl rfl
    exact congrArg (· ++ [s.accepted]) (unchanged child)
  constructor
  · exact h.unstopped
  · exact h.processes.modify rfl rfl (fun _ => id) fun child _ =>
      ⟨Child.accept_alive _ child, Child.accept_toldToStop _ child⟩
  · rw [wrote]
    rintro k (mem | old)
    · rcases List.mem_append.mp mem with written | new
      · exact Nat.lt_succ_of_lt (h.below k (.inl written))
      · obtain rfl := List.mem_singleton.mp new
        exact Nat.lt_succ_self _
    · exact Nat.lt_succ_of_lt (h.below k (.inr old))
  · exact h.ordered
  · rw [wrote, List.filter_append, List.filter_singleton, decide_eq_false h.unaccepted]
    exact (congrArg (· ++ _) (List.append_nil _)).trans h.total
  · exact h.resumes
  · exact h.waiting
  · intro idle d other same was started
    cases proc.symm.trans same
    obtain ⟨_, before, _, rfl⟩ | ⟨different, _⟩ := Calls.modify_eq_some was
    · refine h.delivered idle c before same ‹_› ?_
      unfold Child.write Child.accept at started
      split_ifs at started <;> exact started
    · exact absurd rfl different

theorem Conserved.deliver (h : Conserved driver s queued kept) :
    Conserved driver (deliver s) (queued ++ newlyQueued s (deliver s)) kept := by
  cases proc : s.proc with
  | none =>
    have nothing : Runner.deliver s = s := by rw [Runner.deliver, proc]
    rw [nothing]
    exact h.same rfl
  | some c =>
    cases resumeId : s.resumeId with
    | some request =>
      have pushed : Runner.deliver s = { s.modifyChild c (Child.accept s.accepted) with
          resumeQueue := s.resumeQueue ++ [s.accepted], accepted := s.accepted + 1 } := by
        simp only [Runner.deliver, proc, resumeId, Option.isSome_some, if_true]
      rw [pushed, newlyQueued_push rfl]
      exact h.push c resumeId
    | none =>
      by_cases alive : s.alive c = true
      · have wrote : Runner.deliver s =
            { s.modifyChild c fun child => (child.accept s.accepted).write [s.accepted] with
              accepted := s.accepted + 1 } := by
          simp only [Runner.deliver, proc, resumeId, Option.isSome_none, alive, if_true]
          rfl
        rw [wrote]
        exact (h.write proc).same rfl
      · have nothing : Runner.deliver s = s := by
          simp only [Runner.deliver, proc, resumeId, Option.isSome_none, alive]
          rfl
        rw [nothing]
        exact h.same rfl

theorem Conserved.finishResume (h : Conserved driver s queued kept)
    (here : s.resumeId.isSome = true → kept = []) (timer : Bool) :
    Conserved driver (finishResume { s with resumeTimer := timer }) queued kept := by
  obtain resumeId | ⟨request, resumeId⟩ := Option.eq_none_or_eq_some s.resumeId
  · have nothing : Runner.finishResume { s with resumeTimer := timer } = { s with resumeTimer := timer } :=
      finishResume_none resumeId
    rw [nothing]
    constructor
    · exact h.unstopped
    · exact h.processes.frame rfl rfl rfl
    · exact h.below
    · exact h.ordered
    · exact h.total
    · exact h.resumes
    · exact fun awaited => nomatch awaited.symm.trans (congrArg Option.isSome resumeId)
    · exact h.delivered
  · have awaited : s.resumeId.isSome = true := by
      rw [resumeId]
      rfl
    obtain ⟨c, proc⟩ := Option.isSome_iff_exists.mp (h.waiting awaited).2
    obtain ⟨last, child, found, alive, told⟩ := h.processes.present c proc
    obtain rfl := here awaited
    have flushed : (child.flush s.resumeQueue (some request)).written = child.written ++ s.resumeQueue := by
      rw [Child.flush, if_pos alive]
      rfl
    have finished : Runner.finishResume { s with resumeTimer := timer } = { s with
          resumeId := none, resumeTimer := false, resumeQueue := []
          children := s.children.modify c (Child.flush s.resumeQueue (some request)) } :=
      finishResume_present (s := { s with resumeTimer := timer }) resumeId proc
    have wrote : writes { s with
          resumeId := none, resumeTimer := false, resumeQueue := []
          children := s.children.modify c (Child.flush s.resumeQueue (some request)) } =
        writes s ++ s.resumeQueue := writes_last last found flushed rfl rfl
    rw [finished]
    constructor
    · exact h.unstopped
    · refine h.processes.modify rfl rfl (fun _ => id) fun child _ => ?_
      unfold Child.flush
      split_ifs
      · exact ⟨rfl, rfl⟩
      · exact ⟨rfl, rfl⟩
    · rw [wrote]
      rintro k (mem | old)
      · rcases List.mem_append.mp mem with written | held
        · exact h.below k (.inl written)
        · exact h.below k (.inr (h.bounded_queue held))
      · exact h.below k (.inr old)
    · exact h.ordered
    · have all : s.resumeQueue.filter (· ∈ queued) = s.resumeQueue :=
        List.filter_eq_self.mpr fun k held => decide_eq_true (h.bounded_queue held)
      rw [wrote, List.filter_append, all]
      exact (List.append_nil _).trans h.total
    · rintro (some | absurd)
      · exact h.resumes (.inl some)
      · cases absurd
    · exact fun absurd => nomatch absurd
    · exact fun _ _ _ _ _ _ => rfl

theorem finishResume_queue (s : Runner.State) :
    (finishResume s).resumeQueue = s.resumeQueue ∨ (finishResume s).resumeQueue = [] := by
  unfold Runner.finishResume
  split_ifs
  · exact .inl rfl
  · refine .inr ?_
    split <;> rfl

theorem finishResume_proc (s : Runner.State) : (finishResume s).proc = s.proc := by
  unfold Runner.finishResume
  split_ifs
  · rfl
  · dsimp only
    split <;> rfl

theorem newlyQueued_finishResume (s : Runner.State) (timer : Bool) :
    newlyQueued s (finishResume { s with resumeTimer := timer }) = [] := by
  rcases finishResume_queue { s with resumeTimer := timer } with same | cleared
  · exact newlyQueued_same same
  · exact newlyQueued_cleared cleared

/-! ### Stop and restore -/

theorem Conserved.stopRunner (h : Conserved driver s queued []) {proc : Option Nat}
    (read : proc.isSome = true) : Conserved driver (stopRunner s proc) queued s.resumeQueue := by
  obtain ⟨c, rfl⟩ := Option.isSome_iff_exists.mp read
  have same : writes (RunnerRestart.stopRunner s (some c)) = writes s := writes_modify rfl rfl fun _ => rfl
  have flushing : Unstopped (s.putCall s.nextCall (.flushing true)) :=
    h.unstopped.put s.nextCall fun _ _ absurd => nomatch absurd
  have unstopped : Unstopped (RunnerRestart.stopRunner s (some c)) := flushing.drop s.nextCall
  constructor
  · exact unstopped
  · exact h.processes.modify rfl rfl (fun _ absurd => nomatch absurd) fun _ absurd => nomatch absurd
  · rw [same]
    exact h.below
  · exact h.ordered
  · rw [same]
    exact (congrArg (_ ++ ·) (List.append_nil _)).trans h.total
  · rintro (some | absurd)
    · exact h.resumes (.inl some)
    · cases absurd
  · exact fun absurd => nomatch absurd
  · intro _ _ _ absurd
    cases absurd

theorem Conserved.not_prefix (h : Conserved driver s queued kept) (captured : kept <+: s.resumeQueue) :
    kept = [] := by
  refine List.eq_nil_iff_forall_not_mem.mpr fun k mem => ?_
  have apart := (List.nodup_append.mp (h.total ▸ h.nodup)).2.1
  exact (List.nodup_append.mp apart).2.2 k mem k (captured.subset mem) rfl

theorem Conserved.restoreResumeQueue (h : Conserved driver s queued kept) :
    Conserved driver (restoreResumeQueue s kept) queued [] := by
  unfold RunnerRestart.restoreResumeQueue
  split_ifs with captured
  · rw [← h.not_prefix captured]
    exact h
  · constructor
    · exact h.unstopped
    · exact h.processes.frame rfl rfl rfl
    · exact h.below
    · exact h.ordered
    · exact h.total
    · exact h.resumes
    · exact h.waiting
    · exact h.delivered

theorem Conserved.retained (h : Conserved driver s queued []) {captured : List Nat}
    (retains : captured <+: s.resumeQueue) : Conserved driver (RunnerRestart.restoreResumeQueue s captured)
    queued [] := by
  rw [RunnerRestart.restoreResumeQueue, if_pos retains]
  exact h

theorem restoreResumeQueue_proc (s : Runner.State) (captured : List Nat) :
    (restoreResumeQueue s captured).proc = s.proc := by
  unfold restoreResumeQueue
  split_ifs <;> rfl

/-! ### Steps of a runner -/

theorem startRunner_same (s : Runner.State) (now : Nat) (sends : Bool) :
    (startRunner s now sends).resumeQueue = s.resumeQueue ∧ (startRunner s now sends).proc = s.proc := by
  unfold Runner.startRunner
  cases sends with
  | false =>
    split_ifs <;> exact ⟨rfl, rfl⟩
  | true =>
    split_ifs <;> exact ⟨rfl, rfl⟩

theorem startup_same (driver : Driver) (s : Runner.State) (i c : Nat) (sends : Bool) :
    (startup driver s i c sends).resumeQueue = s.resumeQueue ∧ (startup driver s i c sends).proc = s.proc := by
  have returned : ∀ u : Runner.State, (returnStart u i sends).resumeQueue = u.resumeQueue ∧
      (returnStart u i sends).proc = u.proc := by
    intro u
    unfold Runner.returnStart
    split_ifs <;> exact ⟨rfl, rfl⟩
  unfold Runner.startup
  split_ifs
  · exact returned s
  · exact returned (sendStartup driver s c)

theorem deliver_proc (s : Runner.State) : (deliver s).proc = s.proc := by
  unfold Runner.deliver
  cases proc : s.proc with
  | none => exact proc
  | some c =>
    dsimp only
    split_ifs <;> exact proc

def Keeps (driver : Driver) (s t : Runner.State) (queued kept : List Nat) : Prop :=
  Conserved driver t (queued ++ newlyQueued s t) kept ∧ (s.proc.isSome = true → t.proc.isSome = true)

theorem Conserved.quiet (h : Conserved driver t queued kept) (queue : t.resumeQueue = s.resumeQueue)
    (proc : t.proc = s.proc) : Keeps driver s t queued kept :=
  ⟨h.same queue, fun present => (congrArg Option.isSome proc).trans present⟩

theorem Conserved.unchanged (h : Conserved driver s queued kept) : Keeps driver s s queued kept :=
  h.quiet rfl rfl

theorem Conserved.started (h : Conserved driver s queued kept) (now : Nat) (sends : Bool) :
    Keeps driver s (Runner.startRunner (Runner.startCalled s) now sends) queued kept := by
  obtain ⟨queue, proc⟩ := startRunner_same (Runner.startCalled s) now sends
  exact (h.startCalled.startRunner now sends).quiet queue proc

theorem Conserved.delivers (h : Conserved driver s queued kept) : Keeps driver s (Runner.deliver s) queued kept :=
  ⟨h.deliver, fun present => (congrArg Option.isSome (deliver_proc s)).trans present⟩

theorem Conserved.completes (h : Conserved driver s queued kept)
    (here : s.resumeId.isSome = true → kept = []) (timer : Bool) :
    Keeps driver s (Runner.finishResume { s with resumeTimer := timer }) queued kept := by
  refine ⟨?_, fun present => ?_⟩
  · rw [newlyQueued_finishResume, List.append_nil]
    exact h.finishResume here timer
  · rw [finishResume_proc]
    exact present

theorem Conserved.resume (h : Conserved driver s queued kept) {i : Nat} {call : Call}
    (found : s.calls i = some call) (launches : Bool) :
    Keeps driver s (resume driver s i launches call) queued kept := by
  cases call with
  | starting sends =>
    refine ⟨(h.launch i sends launches).same ?_, ?_⟩
    · show (Runner.launch s i sends launches).resumeQueue = s.resumeQueue
      unfold Runner.launch
      split_ifs <;> rfl
    · show s.proc.isSome = true → (Runner.launch s i sends launches).proc.isSome = true
      unfold Runner.launch
      split_ifs
      · exact fun _ => rfl
      · exact id
  | launchFailing sends =>
    refine (h.returnStart i sends).quiet ?_ ?_
    · unfold Runner.returnStart
      split_ifs <;> rfl
    · unfold Runner.returnStart
      split_ifs <;> rfl
  | launched c sends =>
    obtain ⟨queue, proc⟩ := startup_same driver s i c sends
    exact (h.startup i c sends).quiet queue proc
  | delivering =>
    have dropped : Conserved driver (s.dropCall i) queued kept :=
      h.frame (h.unstopped.drop i) rfl rfl rfl rfl rfl rfl rfl
    exact dropped.delivers
  | stopping proc startedSince => exact absurd found (h.unstopped i proc startedSince)
  | flushing startedSince =>
    have dropped : Conserved driver (stopReturned s i startedSince) queued kept :=
      h.frame (h.unstopped.drop i) rfl rfl rfl rfl rfl rfl rfl
    exact dropped.quiet rfl rfl

theorem Conserved.step (h : Conserved driver s queued kept) {a : Runner.Action} (calm : Undisturbed s a)
    (here : kept ≠ [] → ¬Completes s a) (taken : Runner.step driver s a = some t) :
    Keeps driver s t queued kept := by
  cases a with
  | start now =>
    cases taken
    exact h.started now false
  | send now autostart =>
    cases taken
    unfold sendToRunner
    split_ifs
    · exact h.started now true
    · exact h.delivers
  | stop => exact absurd calm id
  | resolve i launches =>
    obtain ⟨call, found, rfl⟩ := Option.map_eq_some_iff.mp taken
    exact h.resume found launches
  | reject i =>
    have dropped : Keeps driver s (s.dropCall i) queued kept :=
      (h.frame (h.unstopped.drop i) rfl rfl rfl rfl rfl rfl rfl).quiet rfl rfl
    simp only [Runner.step] at taken
    split at taken
    · cases taken
    · cases taken
    · cases taken
      exact dropped
  | die c =>
    obtain ⟨alive, same⟩ := Option.ite_none_right_eq_some.mp taken
    cases same
    have other : s.proc ≠ some c := by
      intro proc
      obtain ⟨_, child, found, _, told⟩ := h.processes.present c proc
      rw [calm child found] at told
      cases told
    have died : Conserved driver (s.modifyChild c fun child => { child with alive := false })
        queued kept := h.modify_other (fun _ => rfl) other
    exact died.quiet rfl rfl
  | exit c =>
    simp only [Runner.step] at taken
    split at taken
    · rename_i child found
      obtain ⟨dead, same⟩ := Option.ite_none_left_eq_some.mp taken
      cases same
      have nothing : onExit s c child = s := by
        refine if_neg fun ⟨_, proc⟩ => dead ?_
        obtain ⟨_, living, was, alive, _⟩ := h.processes.present c proc
        cases found.symm.trans was
        exact alive
      rw [nothing]
      exact h.unchanged
    · cases taken
  | error c =>
    simp only [Runner.step] at taken
    split at taken
    · rename_i child found
      obtain ⟨dead, same⟩ := Option.ite_none_left_eq_some.mp taken
      cases same
      have other : s.proc ≠ some c := by
        intro proc
        obtain ⟨_, living, was, alive, _⟩ := h.processes.present c proc
        cases found.symm.trans was
        exact dead alive
      have failed : Conserved driver (s.modifyChild c fun child => { child with launchFailed := true })
          queued kept := h.modify_other (fun _ => rfl) other
      have proc : (onError s c).proc = s.proc := if_neg other
      exact (failed.frame (t := onError s c) failed.unstopped rfl rfl proc rfl rfl rfl rfl).quiet rfl proc
    · cases taken
  | answer c =>
    simp only [Runner.step] at taken
    split at taken
    · rename_i request startup
      cases taken
      unfold onAnswer
      split_ifs with own
      · obtain ⟨proc, resumeId⟩ := own
        refine h.completes (fun waits => ?_) s.resumeTimer
        by_contra some
        exact here some ⟨proc, startup.trans resumeId.symm, waits⟩
      · exact h.unchanged
    · cases taken
  | resumeTimeout =>
    obtain ⟨_, same⟩ := Option.ite_none_right_eq_some.mp taken
    cases same
    refine h.completes (fun waits => ?_) false
    by_contra some
    exact here some waits
  | startTimeout now =>
    obtain ⟨_, same⟩ := Option.ite_none_right_eq_some.mp taken
    cases same
    have fired : Conserved driver { s with startTimer := false } queued kept :=
      h.frame h.unstopped rfl rfl rfl rfl rfl rfl rfl
    unfold onStartTimer
    split_ifs
    · obtain ⟨queue, proc⟩ := startRunner_same { s with startTimer := false } now false
      exact (fired.startRunner now false).quiet queue proc
    · exact fired.quiet rfl rfl
  | unregister =>
    cases taken
    exact (h.frame (t := { s with registered := false }) h.unstopped rfl rfl rfl rfl rfl rfl rfl).quiet rfl rfl

end

/-! ### The restart -/

def System.toStop (s : System) : List Nat :=
  match s.restart with
  | .stopping item _ rest _ => item.runner :: rest.map Item.runner
  | .flushing _ rest _ => rest.map Item.runner
  | _ => []

structure Sound (driver : Nat → Driver) (s : System) : Prop where
  conserved : ∀ r, Conserved (driver r) (s.runners r) (s.queued r) (s.kept r)
  present : ∀ r ∈ s.toStop, (s.runners r).proc.isSome = true
  distinct : s.toStop.Nodup
  read : ∀ item proc rest ids, s.restart = .stopping item proc rest ids → proc.isSome = true

section
variable {driver : Nat → Driver} {s : System}

theorem Sound.init (driver : Nat → Driver) : Sound driver {} := by
  constructor
  · intro r
    constructor
    · exact fun _ _ _ absurd => nomatch absurd
    · exact ⟨fun _ _ absurd => (nomatch absurd), fun _ absurd => nomatch absurd⟩
    · rintro k (written | mem)
      · exact absurd written List.not_mem_nil
      · exact absurd mem List.not_mem_nil
    · exact List.Pairwise.nil
    · rfl
    · rintro (absurd | absurd)
      · exact (absurd rfl).elim
      · cases absurd
    · exact fun absurd => nomatch absurd
    · exact fun _ _ _ _ _ _ => rfl
  · exact fun _ absurd => nomatch absurd
  · exact List.nodup_nil
  · exact fun _ _ _ _ absurd => nomatch absurd

theorem System.setRunner_runners (r : Nat) (t : Runner.State) (q : Nat) :
    (s.setRunner r t).runners q = if q = r then t else s.runners q :=
  Function.update_apply _ _ _ _

theorem Sound.nextStop {rest : List Item} (conserved : ∀ r, Conserved (driver r) (s.runners r) (s.queued r) [])
    (present : ∀ r ∈ rest.map Item.runner, (s.runners r).proc.isSome = true)
    (distinct : (rest.map Item.runner).Nodup) (ids : List Nat) : Sound driver (nextStop s rest ids) := by
  cases rest with
  | nil =>
    constructor
    · exact conserved
    · exact fun _ absurd => nomatch absurd
    · exact List.nodup_nil
    · exact fun _ _ _ _ absurd => nomatch absurd
  | cons item rest =>
    constructor
    · exact conserved
    · exact present
    · exact distinct
    · intro other proc after stopped same
      cases same
      exact present item.runner List.mem_cons_self

theorem restore_sound {item : Item} {rest : List Item}
    (conserved : ∀ r, r ≠ item.runner → Conserved (driver r) (s.runners r) (s.queued r) [])
    (restored : Conserved (driver item.runner)
      (restoreResumeQueue (s.runners item.runner) item.queuedResumeWork) (s.queued item.runner) [])
    (present : ∀ r ∈ rest.map Item.runner, (s.runners r).proc.isSome = true)
    (distinct : (rest.map Item.runner).Nodup) (ids : List Nat) : Sound driver (restore s item rest ids) := by
  refine Sound.nextStop (fun r => ?_) (fun r mem => ?_) distinct ids
  · rw [System.setRunner_runners]
    split_ifs with same
    · rw [same]
      exact restored
    · exact conserved r same
  · rw [System.setRunner_runners]
    split_ifs with same
    · rw [restoreResumeQueue_proc, ← same]
      exact present r mem
    · exact present r mem

theorem Sound.runner (h : Sound driver s) {r : Nat} {a : Runner.Action} {t : Runner.State}
    (ok : Undisturbed (s.runners r) a ∧ (s.kept r ≠ [] → ¬Completes (s.runners r) a))
    (taken : Runner.step (driver r) (s.runners r) a = some t) :
    Sound driver { s.setRunner r t with
      queued := Function.update s.queued r (s.queued r ++ newlyQueued (s.runners r) t) } := by
  obtain ⟨conserved, lives⟩ := (h.conserved r).step ok.1 ok.2 taken
  constructor
  · intro q
    by_cases same : q = r
    · subst same
      show Conserved _ (Function.update s.runners q t q) (Function.update s.queued q _ q) (s.kept q)
      rw [Function.update_self, Function.update_self]
      exact conserved
    · show Conserved _ (Function.update s.runners r t q) (Function.update s.queued r _ q) (s.kept q)
      rw [Function.update_of_ne same, Function.update_of_ne same]
      exact h.conserved q
  · intro q mem
    have before := h.present q mem
    rw [System.setRunner_runners]
    split_ifs with same
    · subst same
      exact lives before
    · exact before
  · exact h.distinct
  · exact h.read

theorem Sound.stop (h : Sound driver s) {item : Item} {proc : Option Nat} {rest : List Item} {ids : List Nat}
    (awaits : s.restart = .stopping item proc rest ids)
    (captured : (s.runners item.runner).resumeQueue = item.queuedResumeWork) :
    Sound driver { s.setRunner item.runner (stopRunner (s.runners item.runner) proc) with
      restart := .flushing item rest ids } := by
  have nothing : ∀ r, s.kept r = [] := by
    intro r
    rw [System.kept, awaits]
  have remaining : s.toStop = item.runner :: rest.map Item.runner := by rw [System.toStop, awaits]
  have distinct := h.distinct
  have present := h.present
  rw [remaining] at distinct present
  obtain ⟨fresh, distinct⟩ := List.nodup_cons.mp distinct
  constructor
  · intro r
    have conserved := h.conserved r
    rw [nothing r] at conserved
    show Conserved _ ((s.setRunner item.runner _).runners r) (s.queued r)
      (if item.runner = r then item.queuedResumeWork else [])
    rw [System.setRunner_runners]
    by_cases same : r = item.runner
    · subst same
      rw [if_pos rfl, if_pos rfl, ← captured]
      exact conserved.stopRunner (h.read item proc rest ids awaits)
    · rw [if_neg same, if_neg (Ne.symm same)]
      exact conserved
  · intro r mem
    have other : r ≠ item.runner := fun same => fresh (same ▸ mem)
    rw [System.setRunner_runners, if_neg other]
    exact present r (List.mem_cons_of_mem _ mem)
  · exact distinct
  · exact fun _ _ _ _ absurd => nomatch absurd

theorem Sound.putBack (h : Sound driver s) {item : Item} {rest : List Item} {ids : List Nat}
    (awaits : s.restart = .flushing item rest ids) (started : List Nat) :
    Sound driver (restore s item rest started) := by
  have kept : ∀ r, s.kept r = if item.runner = r then item.queuedResumeWork else [] := by
    intro r
    rw [System.kept, awaits]
  have remaining : s.toStop = rest.map Item.runner := by rw [System.toStop, awaits]
  refine restore_sound (fun r other => ?_) ?_ (remaining ▸ h.present) (remaining ▸ h.distinct) _
  · have conserved := h.conserved r
    rw [kept r, if_neg (Ne.symm other)] at conserved
    exact conserved
  · have conserved := h.conserved item.runner
    rw [kept item.runner, if_pos rfl] at conserved
    exact conserved.restoreResumeQueue

theorem Sound.rest (conserved : ∀ r, Conserved (driver r) (s.runners r) (s.queued r) [])
    (kept : ∀ r, s.kept r = []) (toStop : s.toStop = [])
    (read : ∀ item proc rest ids, s.restart ≠ .stopping item proc rest ids) : Sound driver s := by
  constructor
  · intro r
    rw [kept r]
    exact conserved r
  · rw [toStop]
    exact fun _ absurd => nomatch absurd
  · rw [toStop]
    exact List.nodup_nil
  · exact fun item proc rest ids awaits => absurd awaits (read item proc rest ids)

theorem Sound.startNext (conserved : ∀ r, Conserved (driver r) (s.runners r) (s.queued r) [])
    (r : Nat) (ids : List Nat) (now : Nat) : Sound driver (startNext s r ids now) := by
  unfold RunnerRestart.startNext
  by_cases registered : (s.runners r).registered = true
  · rw [if_pos registered]
    refine Sound.rest (fun q => ?_) (fun _ => rfl) rfl fun _ _ _ _ absurd => nomatch absurd
    rw [System.setRunner_runners]
    split_ifs with same
    · subst same
      exact (conserved q).startCalled.startRunner now false
    · exact conserved q
  · rw [if_neg registered]
    exact Sound.rest conserved (fun _ => rfl) rfl fun _ _ _ _ absurd => nomatch absurd

theorem sound_step (driver : Nat → Driver) (s : System) (a : Action) (t : System) (h : Sound driver s)
    (ok : Preserving s a) (taken : step driver s a = some t) : Sound driver t := by
  cases a with
  | runner r a =>
    obtain ⟨u, stepped, rfl⟩ := Option.map_eq_some_iff.mp taken
    exact h.runner ok stepped
  | restart chosen =>
    cases awaits : s.restart with
    | idle =>
      simp only [step, awaits] at taken
      obtain ⟨⟨distinct, alive⟩, same⟩ := Option.ite_none_right_eq_some.mp taken
      cases same
      have runners : (chosen.map fun r => (⟨r, (s.runners r).resumeQueue⟩ : Item)).map Item.runner = chosen := by
        rw [List.map_map]
        exact List.map_id chosen
      refine Sound.nextStop (fun r => ?_) ?_ ?_ []
      · have conserved := h.conserved r
        rw [System.kept, awaits] at conserved
        exact conserved
      · rw [runners]
        exact alive
      · rw [runners]
        exact distinct
    | stopping item proc rest ids =>
      simp only [step, awaits] at taken
      cases taken
    | flushing item rest ids =>
      simp only [step, awaits] at taken
      cases taken
    | starting ids started =>
      simp only [step, awaits] at taken
      cases taken
  | proceed now =>
    cases awaits : s.restart with
    | idle =>
      simp only [step, awaits] at taken
      cases taken
    | stopping item proc rest ids =>
      simp only [step, awaits] at taken
      cases taken
      simp only [Preserving, awaits] at ok
      exact h.stop awaits ok
    | flushing item rest ids =>
      simp only [step, awaits] at taken
      cases taken
      exact h.putBack awaits _
    | starting ids started =>
      have conserved : ∀ r, Conserved (driver r) (s.runners r) (s.queued r) [] := by
        intro r
        have before := h.conserved r
        rw [System.kept, awaits] at before
        exact before
      simp only [step, awaits] at taken
      obtain ⟨_, same⟩ := Option.ite_none_left_eq_some.mp taken
      cases ids with
      | nil =>
        cases same
        exact Sound.rest conserved (fun _ => rfl) rfl fun _ _ _ _ absurd => nomatch absurd
      | cons r ids =>
        cases same
        exact Sound.startNext conserved r ids now
  | fail =>
    cases awaits : s.restart with
    | idle =>
      simp only [step, awaits] at taken
      cases taken
    | stopping item proc rest ids =>
      simp only [step, awaits] at taken
      cases taken
      simp only [Preserving, awaits] at ok
      have nothing : ∀ r, s.kept r = [] := by
        intro r
        rw [System.kept, awaits]
      have remaining : s.toStop = item.runner :: rest.map Item.runner := by rw [System.toStop, awaits]
      have distinct := h.distinct
      have present := h.present
      rw [remaining] at distinct present
      refine restore_sound (fun r _ => ?_) ?_ (fun r mem => present r (List.mem_cons_of_mem _ mem))
        (List.nodup_cons.mp distinct).2 _
      · rw [← nothing r]
        exact h.conserved r
      · have conserved := h.conserved item.runner
        rw [nothing item.runner] at conserved
        exact conserved.retained ok
    | flushing item rest ids =>
      simp only [step, awaits] at taken
      cases taken
      exact h.putBack awaits _
    | starting ids started =>
      simp only [step, awaits] at taken
      cases taken

theorem Sound.law (h : Sound driver s) (r : Nat) : QueueLaw s r where
  kept := (h.conserved r).total
  once := (h.conserved r).nodup
  waiting := (h.conserved r).waiting
  delivered := (h.conserved r).delivered

end

/-- The first half of the condition is exact: after a stop the queued commands are all accounted
for if and only if it has cleared what was captured. -/
theorem stop_accounts_iff {driver : Driver} {s : Runner.State} {queued : List Nat}
    (h : Conserved driver s queued []) {proc : Option Nat} (read : proc.isSome = true) (captured : List Nat) :
    (writes (stopRunner s proc)).filter (· ∈ queued) ++ (captured ++ (stopRunner s proc).resumeQueue) = queued ↔
      s.resumeQueue = captured := by
  have stopped := h.stopRunner read
  obtain ⟨c, rfl⟩ := Option.isSome_iff_exists.mp read
  have cleared : (stopRunner s (some c)).resumeQueue = [] := rfl
  have total := stopped.total
  rw [cleared, List.append_nil] at total ⊢
  constructor
  · intro accounted
    exact (List.append_cancel_left (accounted.trans total.symm)).symm
  · rintro rfl
    exact total

end RunnerRestart
