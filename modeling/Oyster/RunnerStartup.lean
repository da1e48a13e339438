import Oyster.Runner

/-! The order of startup: user commands reach a child only after its startup
commands and the end of its resume, and those accepted before that reach it then,
once and in the order of acceptance. -/
namespace Runner
open Interleaving

/-- What holds of a child at any time: no user command is written to it before it
is ready, they are written once and in the order of acceptance, and when it is
ready those accepted for it before have been written. -/
structure Child.Ordered (child : Child) : Prop where
  first : child.written ≠ [] → child.ready = true
  started : child.ready = true → child.startup.isSome = true
  order : child.written.Pairwise (· < ·)
  delivered : child.ready = true → ∀ k ∈ child.held, k ∈ child.written

/-- A live child that has been sent its startup commands is waited for: its
answer or the timer will finish the resume. -/
def Awaited (s : State) : Prop :=
  ∀ c child request, s.proc = some c → s.children c = some child → child.alive = true →
    child.ready = false → child.startup = some request → s.resumeId = some request ∧ s.resumeTimer = true

def StartupOrder (s : State) : Prop :=
  (∀ c child, s.children c = some child → child.Ordered) ∧ Awaited s

/-- The process of the runner has been launched and its startup commands have not
been sent. -/
def Unstarted (s : State) : Prop :=
  ∃ c child, s.proc = some c ∧ s.children c = some child ∧ child.alive = true ∧ child.startup = none

/-- The condition under which startup is ordered: commands that arrive between
the launch and the startup commands find a resume pending, and the timer of an
earlier resume does not fire there with commands in the queue. -/
def Ordering (s : State) : Action → Prop
  | .send _ _ => Unstarted s → s.resumeId.isSome = true
  | .resolve i _ => s.calls i = some .delivering → Unstarted s → s.resumeId.isSome = true
  | .resumeTimeout => Unstarted s → s.resumeId.isSome = true → s.resumeQueue = []
  | _ => True

structure OrderInv (s : State) : Prop where
  sorted : s.resumeQueue.Pairwise (· < ·)
  queued : ∀ k ∈ s.resumeQueue, k < s.accepted
  child : ∀ c child, s.children c = some child → c < s.nextChild ∧ child.Ordered ∧ ∀ k ∈ child.written, k < s.accepted
  ready : ∀ c child, s.proc = some c → s.children c = some child → child.ready = true → s.resumeId = none
  held : ∀ c child, s.proc = some c → s.children c = some child → child.alive = true →
    child.ready = false → ∀ k ∈ child.held, k ∈ s.resumeQueue
  awaited : Awaited s
  launching : ∀ i c sends, s.calls i = some (.launched c sends) →
    c < s.nextChild ∧ ∀ child, s.children c = some child → child.startup = none
  single : ∀ i j c sends sends', s.calls i = some (.launched c sends) → s.calls j = some (.launched c sends') → i = j

variable {child : Child}

theorem Child.Ordered.unwritten (h : child.Ordered) (unready : child.ready = false) : child.written = [] := by
  by_contra some
  rw [h.first some] at unready
  cases unready

theorem Child.Ordered.unready (h : child.Ordered) (unstarted : child.startup = none) : child.ready = false := by
  by_contra ready
  have started := h.started (by simpa using ready)
  rw [unstarted] at started
  cases started

theorem Child.Ordered.empty : ({} : Child).Ordered :=
  ⟨fun absurd => (absurd rfl).elim, (fun absurd => nomatch absurd), List.Pairwise.nil, (fun absurd => nomatch absurd)⟩

@[simp] theorem Child.accept_ready (k : Nat) (child : Child) : (child.accept k).ready = child.ready := by
  unfold Child.accept
  split_ifs <;> rfl

@[simp] theorem Child.accept_startup (k : Nat) (child : Child) : (child.accept k).startup = child.startup := by
  unfold Child.accept
  split_ifs <;> rfl

@[simp] theorem Child.accept_written (k : Nat) (child : Child) : (child.accept k).written = child.written := by
  unfold Child.accept
  split_ifs <;> rfl

variable {k : Nat}

theorem Child.accept_held_of_ready (ready : child.ready = true) : child.accept k = child := if_pos ready

theorem Child.accept_held {j : Nat} (h : j ∈ (child.accept k).held) : j ∈ child.held ∨ j = k := by
  unfold Child.accept at h
  split_ifs at h
  · exact .inl h
  · simpa using h

theorem Child.Ordered.accept (h : child.Ordered) (k : Nat) : (child.accept k).Ordered where
  first written := by
    rw [Child.accept_written] at written
    rw [Child.accept_ready]
    exact h.first written
  started ready := by
    rw [Child.accept_ready] at ready
    rw [Child.accept_startup]
    exact h.started ready
  order := by
    rw [Child.accept_written]
    exact h.order
  delivered ready := by
    rw [Child.accept_ready] at ready
    rw [Child.accept_held_of_ready ready]
    exact h.delivered ready

theorem Child.Ordered.write (h : child.Ordered) (ready : child.ready = true) (later : ∀ j ∈ child.written, j < k) :
    (child.write [k]).Ordered where
  first _ := ready
  started := h.started
  order := by
    refine List.pairwise_append.mpr ⟨h.order, List.pairwise_singleton _ _, ?_⟩
    intro j hj i hi
    rw [List.mem_singleton.mp hi]
    exact later j hj
  delivered _ j hj := List.mem_append_left _ (h.delivered ready j hj)

variable {request : Nat}

theorem Child.Ordered.flush (h : child.Ordered) {ks : List Nat} (alive : child.alive = true)
    (unready : child.ready = false) (own : child.startup = some request) (sorted : ks.Pairwise (· < ·))
    (held : ∀ k ∈ child.held, k ∈ ks) : (child.flush ks (some request)).Ordered := by
  have flushed : child.flush ks (some request) = { child with written := ks, ready := true } := by
    simp [Child.flush, Child.write, alive, own, h.unwritten unready]
  rw [flushed]
  refine ⟨fun _ => rfl, fun _ => ?_, sorted, fun _ => held⟩
  simp only [own, Option.isSome_some]

theorem Child.flush_unstarted (unstarted : child.startup = none) (request : Nat) :
    child.flush [] (some request) = child := by
  obtain ⟨alive, told, failed, startup, ready, held, written⟩ := child
  obtain rfl := unstarted
  cases alive <;> simp [Child.flush, Child.write]

theorem Child.flush_dead (dead : child.alive = false) (ks : List Nat) (resumeId : Option Nat) :
    child.flush ks resumeId = child := by
  simp [Child.flush, dead]

section Frames
variable {s t : State}

theorem OrderInv.frame (h : OrderInv s) (proc : t.proc = s.proc ∨ t.proc = none)
    (resumeId : t.resumeId = s.resumeId) (queue : t.resumeQueue = s.resumeQueue)
    (timer : t.resumeTimer = s.resumeTimer) (accepted : t.accepted = s.accepted)
    (children : t.children = s.children) (next : t.nextChild = s.nextChild)
    (calls : ∀ i c sends, t.calls i = some (.launched c sends) →
      s.calls i = some (.launched c sends)) : OrderInv t := by
  have current : ∀ c, t.proc = some c → s.proc = some c := by
    intro c same
    rcases proc with old | gone
    · rw [← old, same]
    · rw [gone] at same
      cases same
  refine ⟨queue ▸ h.sorted, ?_, ?_, ?_, ?_, ?_, ?_, ?_⟩
  · rw [queue, accepted]
    exact h.queued
  · rw [children, next, accepted]
    exact h.child
  · rw [children, resumeId]
    exact fun c child same => h.ready c child (current c same)
  · rw [children, queue]
    exact fun c child same => h.held c child (current c same)
  · unfold Awaited
    rw [children, resumeId, timer]
    exact fun c child request same => h.awaited c child request (current c same)
  · rw [children, next]
    exact fun i c sends call => h.launching i c sends (calls i c sends call)
  · exact fun i j c sends sends' hi hj =>
      h.single i j c sends sends' (calls i c sends hi) (calls j c sends' hj)

/-- A change of child `c` that leaves its commands and its startup alone. -/
theorem OrderInv.modify (h : OrderInv s) (c : Nat) (f : Child → Child)
    (startup : ∀ child, (f child).startup = child.startup)
    (ready : ∀ child, (f child).ready = child.ready)
    (held : ∀ child, (f child).held = child.held)
    (written : ∀ child, (f child).written = child.written)
    (alive : ∀ child, (f child).alive = true → child.alive = true) :
    OrderInv (s.modifyChild c f) := by
  have old : ∀ d child, (s.modifyChild c f).children d = some child →
      ∃ before, s.children d = some before ∧ child.startup = before.startup ∧
        child.ready = before.ready ∧ child.held = before.held ∧ child.written = before.written ∧
        (child.alive = true → before.alive = true) := by
    intro d child found
    rcases Calls.modify_eq_some found with ⟨rfl, before, hbefore, rfl⟩ | ⟨_, before⟩
    · exact ⟨before, hbefore, startup _, ready _, held _, written _, alive _⟩
    · exact ⟨child, before, rfl, rfl, rfl, rfl, id⟩
  refine ⟨h.sorted, h.queued, ?_, ?_, ?_, ?_, ?_, h.single⟩
  · intro d child found
    obtain ⟨before, hb, hstartup, hready, hheld, hwritten, _⟩ := old d child found
    obtain ⟨known, ordered, less⟩ := h.child d before hb
    refine ⟨known, ⟨?_, ?_, ?_, ?_⟩, hwritten ▸ less⟩
    · rw [hwritten, hready]
      exact ordered.first
    · rw [hready, hstartup]
      exact ordered.started
    · rw [hwritten]
      exact ordered.order
    · rw [hready, hheld, hwritten]
      exact ordered.delivered
  · intro d child same found isReady
    obtain ⟨before, hb, _, hready, _⟩ := old d child found
    exact h.ready d before same hb (hready ▸ isReady)
  · intro d child same found isAlive unready
    obtain ⟨before, hb, _, hready, hheld, _, halive⟩ := old d child found
    rw [hheld]
    exact h.held d before same hb (halive isAlive) (hready ▸ unready)
  · intro d child request same found isAlive unready sent
    obtain ⟨before, hb, hstartup, hready, _, _, halive⟩ := old d child found
    exact h.awaited d before request same hb (halive isAlive) (hready ▸ unready) (hstartup ▸ sent)
  · intro i d sends call
    refine ⟨(h.launching i d sends call).1, fun child found => ?_⟩
    obtain ⟨before, hb, hstartup, _⟩ := old d child found
    rw [hstartup]
    exact (h.launching i d sends call).2 before hb

theorem OrderInv.idle (h : OrderInv s) (proc : t.proc = none) (queue : t.resumeQueue = [])
    (accepted : t.accepted = s.accepted) (children : t.children = s.children)
    (next : t.nextChild = s.nextChild)
    (calls : ∀ i c sends, t.calls i = some (.launched c sends) →
      s.calls i = some (.launched c sends)) : OrderInv t := by
  have nobody : ∀ c, t.proc ≠ some c := by
    intro c
    rw [proc]
    exact Option.some_ne_none c |>.symm
  refine ⟨queue ▸ List.Pairwise.nil, ?_, ?_, ?_, ?_, ?_, ?_, ?_⟩
  · intro k hk
    rw [queue] at hk
    cases hk
  · rw [children, next, accepted]
    exact h.child
  · exact fun c _ same => absurd same (nobody c)
  · exact fun c _ same => absurd same (nobody c)
  · exact fun c _ _ same => absurd same (nobody c)
  · rw [children, next]
    exact fun i c sends call => h.launching i c sends (calls i c sends call)
  · exact fun i j c sends sends' hi hj =>
      h.single i j c sends sends' (calls i c sends hi) (calls j c sends' hj)

structure Present (t : State) (child : Child) : Prop where
  ordered : child.Ordered
  accepted : ∀ k ∈ child.written, k < t.accepted
  ready : child.ready = true → t.resumeId = none
  held : child.alive = true → child.ready = false → ∀ k ∈ child.held, k ∈ t.resumeQueue
  awaited : ∀ request, child.alive = true → child.ready = false → child.startup = some request →
    t.resumeId = some request ∧ t.resumeTimer = true

theorem OrderInv.present (h : OrderInv s) {c : Nat} {child : Child} (proc : s.proc = some c)
    (found : s.children c = some child) : Present s child where
  ordered := (h.child c child found).2.1
  accepted := (h.child c child found).2.2
  ready := h.ready c child proc found
  held := h.held c child proc found
  awaited request := h.awaited c child request proc found

/-- A step about the present child `c` only. -/
theorem OrderInv.update (h : OrderInv s) {c : Nat} (f : Child → Child) (tproc : t.proc = some c)
    (children : t.children = s.children.modify c f)
    (next : t.nextChild = s.nextChild) (grows : s.accepted ≤ t.accepted)
    (sorted : t.resumeQueue.Pairwise (· < ·)) (queued : ∀ k ∈ t.resumeQueue, k < t.accepted)
    (present : ∀ before, s.children c = some before → Present t (f before))
    (calls : ∀ i d sends, t.calls i = some (.launched d sends) → s.calls i = some (.launched d sends))
    (startup : ∀ i sends before, t.calls i = some (.launched c sends) →
      s.children c = some before → (f before).startup = none) : OrderInv t := by
  have current : ∀ d child, t.proc = some d → t.children d = some child → Present t child := by
    intro d child same found
    cases tproc.symm.trans same
    rw [children] at found
    rcases Calls.modify_eq_some found with ⟨_, before, hbefore, rfl⟩ | ⟨other, _⟩
    · exact present before hbefore
    · exact absurd rfl other
  refine ⟨sorted, queued, ?_, ?_, ?_, ?_, ?_, ?_⟩
  · intro d child found
    rw [children] at found
    rcases Calls.modify_eq_some found with ⟨rfl, before, hbefore, rfl⟩ | ⟨_, old⟩
    · exact ⟨next ▸ (h.child d before hbefore).1, (present before hbefore).ordered, (present before hbefore).accepted⟩
    · obtain ⟨known, ordered, less⟩ := h.child d child old
      exact ⟨next ▸ known, ordered, fun k hk => Nat.lt_of_lt_of_le (less k hk) grows⟩
  · exact fun d child same found => (current d child same found).ready
  · exact fun d child same found => (current d child same found).held
  · exact fun d child request same found => (current d child same found).awaited request
  · intro i d sends call
    refine ⟨next ▸ (h.launching i d sends (calls i d sends call)).1, fun child found => ?_⟩
    rw [children] at found
    rcases Calls.modify_eq_some found with ⟨rfl, before, hbefore, rfl⟩ | ⟨_, old⟩
    · exact startup i sends before call hbefore
    · exact (h.launching i d sends (calls i d sends call)).2 child old
  · exact fun i j d sends sends' hi hj =>
      h.single i j d sends sends' (calls i d sends hi) (calls j d sends' hj)

end Frames

variable {s : State} {c : Nat}

theorem alive_iff : s.alive c = true ↔ ∃ child, s.children c = some child ∧ child.alive = true := by
  unfold State.alive
  cases s.children c with
  | none => simp
  | some child => simp

theorem OrderInv.deliver (h : OrderInv s) (permitted : Unstarted s → s.resumeId.isSome = true) :
    OrderInv (deliver s) := by
  unfold Runner.deliver
  cases hproc : s.proc with
  | none => exact h
  | some c =>
    simp only
    split_ifs with pending alive
    · refine h.update (Child.accept s.accepted) hproc rfl rfl (Nat.le_succ _) ?_ ?_ ?_ (fun _ _ _ => id) ?_
      · refine List.pairwise_append.mpr ⟨h.sorted, List.pairwise_singleton _ _, ?_⟩
        intro j hj k hk
        rw [List.mem_singleton.mp hk]
        exact h.queued j hj
      · intro k hk
        rcases List.mem_append.mp hk with old | new
        · exact Nat.lt_succ_of_lt (h.queued k old)
        · rw [List.mem_singleton.mp new]
          exact Nat.lt_succ_self _
      · intro before found
        have now := h.present hproc found
        refine ⟨now.ordered.accept _, ?_, ?_, ?_, ?_⟩
        · rw [Child.accept_written]
          exact fun k hk => Nat.lt_succ_of_lt (now.accepted k hk)
        · rw [Child.accept_ready]
          exact now.ready
        · rw [Child.accept_alive, Child.accept_ready]
          intro isAlive unready k hk
          rcases Child.accept_held hk with old | new
          · exact List.mem_append_left _ (now.held isAlive unready k old)
          · exact List.mem_append_right _ (List.mem_singleton.mpr new)
        · rw [Child.accept_alive, Child.accept_ready, Child.accept_startup]
          exact now.awaited
      · intro i sends before call found
        rw [Child.accept_startup]
        exact (h.launching i c sends call).2 before found
    · obtain ⟨child, found, isAlive⟩ := alive_iff.mp alive
      have ready : child.ready = true := by
        by_contra unready
        have unready : child.ready = false := by simpa using unready
        cases sent : child.startup with
        | none => exact pending (permitted ⟨c, child, hproc, found, isAlive, sent⟩)
        | some request =>
          rw [(h.awaited c child request hproc found isAlive unready sent).1] at pending
          exact pending rfl
      refine h.update _ hproc rfl rfl (Nat.le_succ _) h.sorted
        (fun k hk => Nat.lt_succ_of_lt (h.queued k hk)) ?_ (fun _ _ _ => id) ?_
      · intro before hbefore
        cases found.symm.trans hbefore
        have now := h.present hproc found
        rw [Child.accept_held_of_ready ready]
        refine ⟨now.ordered.write ready now.accepted, ?_, now.ready, ?_, ?_⟩
        · intro k hk
          rcases List.mem_append.mp hk with old | new
          · exact Nat.lt_succ_of_lt (now.accepted k old)
          · rw [List.mem_singleton.mp new]
            exact Nat.lt_succ_self _
        · intro _ unready
          exact absurd (ready.symm.trans unready) (by decide)
        · intro _ _ unready
          exact absurd (ready.symm.trans unready) (by decide)
      · intro i sends before call hbefore
        have unstarted := (h.launching i c sends call).2 before hbefore
        cases found.symm.trans hbefore
        have started := (h.present hproc found).ordered.started ready
        rw [unstarted] at started
        cases started
    · exact h

variable {t : State}

theorem OrderInv.flush (h : OrderInv s) (hproc : s.proc = some c) (found : s.children c = some child)
    (hresume : s.resumeId = some request) (permitted : Unstarted s → s.resumeQueue = [])
    (resumeId : t.resumeId = none) (queue : t.resumeQueue = []) (accepted : t.accepted = s.accepted) :
    Present t (child.flush s.resumeQueue (some request)) := by
  have now := h.present hproc found
  cases alive : child.alive with
  | false =>
    rw [Child.flush_dead alive]
    refine ⟨now.ordered, accepted ▸ now.accepted, fun _ => resumeId, ?_, ?_⟩
    · intro live
      exact absurd (alive.symm.trans live) (by decide)
    · intro _ live
      exact absurd (alive.symm.trans live) (by decide)
  | true =>
    have unready : child.ready = false := by
      by_contra ready
      rw [now.ready (by simpa using ready)] at hresume
      cases hresume
    cases sent : child.startup with
    | none =>
      have nothing := permitted ⟨c, child, hproc, found, alive, sent⟩
      rw [nothing, Child.flush_unstarted sent]
      refine ⟨now.ordered, accepted ▸ now.accepted, fun _ => resumeId, ?_, ?_⟩
      · intro _ _ k hk
        rw [queue, ← nothing]
        exact now.held alive unready k hk
      · intro _ _ _ same
        rw [sent] at same
        cases same
    | some own =>
      obtain rfl := Option.some.inj ((now.awaited own alive unready sent).1.symm.trans hresume)
      have ordered := now.ordered.flush alive unready sent h.sorted (now.held alive unready)
      have flushed : child.flush s.resumeQueue (some own) =
          { child with written := s.resumeQueue, ready := true } := by
        simp [Child.flush, Child.write, alive, sent, now.ordered.unwritten unready]
      rw [flushed] at ordered ⊢
      refine ⟨ordered, accepted ▸ h.queued, fun _ => resumeId, ?_, ?_⟩
      · intro _ absurd
        cases absurd
      · intro _ _ absurd
        cases absurd

theorem OrderInv.finishResume (h : OrderInv s) (timer : Bool)
    (permitted : Unstarted s → s.resumeId.isSome = true → s.resumeQueue = []) :
    OrderInv (finishResume { s with resumeTimer := timer }) := by
  obtain hresume | ⟨request, hresume⟩ := Option.eq_none_or_eq_some s.resumeId
  · rw [finishResume_none (by exact hresume)]
    refine ⟨h.sorted, h.queued, h.child, h.ready, h.held, ?_, h.launching, h.single⟩
    intro c child request proc found alive unready sent
    have pending := (h.awaited c child request proc found alive unready sent).1
    rw [hresume] at pending
    cases pending
  · obtain hproc | ⟨c, hproc⟩ := Option.eq_none_or_eq_some s.proc
    · rw [finishResume_idle (by exact hresume) (by exact hproc)]
      exact h.idle hproc rfl rfl rfl rfl fun _ _ _ => id
    · rw [finishResume_present (by exact hresume) (by exact hproc)]
      refine h.update (Child.flush s.resumeQueue (some request)) hproc rfl rfl (Nat.le_refl _)
        List.Pairwise.nil (fun _ absurd => nomatch absurd) ?_ (fun _ _ _ => id) ?_
      · intro before found
        exact h.flush hproc found hresume (fun unstarted => permitted unstarted (by rw [hresume]; rfl)) rfl rfl rfl
      · intro i sends before call found
        have unstarted := (h.launching i c sends call).2 before found
        unfold Child.flush
        split_ifs
        · exact unstarted
        · exact unstarted

theorem OrderInv.launch (h : OrderInv s) (i : Nat) (sends launches : Bool) :
    OrderInv (launch s i sends launches) := by
  unfold Runner.launch
  split_ifs
  · have fresh : ∀ j d sends', s.calls j = some (.launched d sends') → d ≠ s.nextChild :=
      fun j d sends' call => Nat.ne_of_lt (h.launching j d sends' call).1
    refine ⟨h.sorted, h.queued, ?_, ?_, ?_, ?_, ?_, ?_⟩
    · intro c child found
      rcases Calls.put_eq_some found with ⟨rfl, rfl⟩ | ⟨_, old⟩
      · exact ⟨Nat.lt_succ_self _, Child.Ordered.empty, fun _ absurd => nomatch absurd⟩
      · obtain ⟨known, rest⟩ := h.child c child old
        exact ⟨Nat.lt_succ_of_lt known, rest⟩
    · intro c child same found ready
      cases same
      cases (Calls.put_self ..).symm.trans found
      cases ready
    · intro c child same found _ _ k hk
      cases same
      cases (Calls.put_self ..).symm.trans found
      cases hk
    · intro c child request same found _ _ sent
      cases same
      cases (Calls.put_self ..).symm.trans found
      cases sent
    · intro j c sends' call
      rcases Calls.put_eq_some call with ⟨_, same⟩ | ⟨_, old⟩
      · cases same
        refine ⟨Nat.lt_succ_self _, fun child found => ?_⟩
        rw [← Option.some.inj ((Calls.put_self ..).symm.trans found)]
      · obtain ⟨known, unsent⟩ := h.launching j c sends' old
        refine ⟨Nat.lt_succ_of_lt known, fun child found => ?_⟩
        rcases Calls.put_eq_some found with ⟨same, _⟩ | ⟨_, older⟩
        · exact absurd same (fresh j c sends' old)
        · exact unsent child older
    · intro j k c sends₁ sends₂ hj hk
      rcases Calls.put_eq_some hj with ⟨rfl, same⟩ | ⟨_, oldj⟩
      · cases same
        rcases Calls.put_eq_some hk with ⟨rfl, _⟩ | ⟨_, oldk⟩
        · rfl
        · exact absurd rfl (fresh k _ sends₂ oldk)
      · rcases Calls.put_eq_some hk with ⟨rfl, same⟩ | ⟨_, oldk⟩
        · cases same
          exact absurd rfl (fresh j _ sends₁ oldj)
        · exact h.single j k c sends₁ sends₂ oldj oldk
  · refine h.frame (.inl rfl) rfl rfl rfl rfl rfl rfl ?_
    intro j c sends' call
    rcases Calls.put_eq_some call with ⟨_, absurd⟩ | ⟨_, old⟩
    · cases absurd
    · exact old

theorem OrderInv.returnStart (h : OrderInv s) (i : Nat) (sends : Bool) : OrderInv (returnStart s i sends) := by
  obtain ⟨calls, same, kept⟩ := returnStart_eq s i sends
  rw [same]
  exact h.frame (.inl rfl) rfl rfl rfl rfl rfl rfl fun j c sends' call =>
    (kept j _ call (fun absurd => nomatch absurd)).2

variable {driver : Driver} {i : Nat}

theorem OrderInv.startup (resumes : driver.resumes = true) (h : OrderInv s) {sends : Bool}
    (calling : s.calls i = some (.launched c sends)) : OrderInv (startup driver s i c sends) := by
  unfold Runner.startup
  split_ifs with gone
  · exact h.returnStart i sends
  · have hproc : s.proc = some c := by
      by_contra other
      exact gone (.inr other)
    have pending : (sendStartup driver s c).resumeId = some s.srvSeq := by
      simp [sendStartup, resumes]
    have armed : (sendStartup driver s c).resumeTimer = true := by
      simp [sendStartup, resumes]
    obtain ⟨calls, same, kept⟩ := returnStart_eq (sendStartup driver s c) i sends
    have kept : ∀ j d sends', calls j = some (.launched d sends') → j ≠ i ∧ s.calls j = some (.launched d sends') :=
      fun j d sends' call => kept j _ call (fun absurd => nomatch absurd)
    rw [same]
    refine h.update (fun child => { child with startup := some s.srvSeq, ready := !driver.resumes })
      hproc rfl rfl (Nat.le_refl _) h.sorted h.queued ?_
      (fun j d sends' call => (kept j d sends' call).2) ?_
    · intro before found
      have now := h.present hproc found
      have unsent := (h.launching i c sends calling).2 before found
      have unready := now.ordered.unready unsent
      have unwritten := now.ordered.unwritten unready
      have waits : (!driver.resumes) = false := by rw [resumes]; rfl
      refine ⟨⟨?_, fun _ => rfl, now.ordered.order, ?_⟩, now.accepted, ?_, ?_, ?_⟩
      · intro written
        exact absurd unwritten written
      · intro ready
        exact absurd (waits.symm.trans ready) (by decide)
      · intro ready
        exact absurd (waits.symm.trans ready) (by decide)
      · intro alive _
        exact now.held alive unready
      · intro request _ _ own
        exact ⟨pending.trans own, armed⟩
    · intro j sends' before call found
      obtain ⟨other, old⟩ := kept j c sends' call
      exact absurd (h.single j i c sends' sends old calling) other

theorem OrderInv.stopProcess (h : OrderInv s) (i : Nat) (proc : Option Nat) (startedSince : Bool) :
    OrderInv (stopProcess s i proc startedSince) := by
  have kept : ∀ j c sends, s.calls.put i (.flushing startedSince) j = some (.launched c sends) →
      s.calls j = some (.launched c sends) := by
    intro j c sends call
    rcases Calls.put_eq_some call with ⟨_, absurd⟩ | ⟨_, old⟩
    · cases absurd
    · exact old
  cases proc with
  | none => exact h.frame (.inl rfl) rfl rfl rfl rfl rfl rfl kept
  | some c =>
    have told := h.modify c (fun child => { child with toldToStop := true }) (fun _ => rfl)
      (fun _ => rfl) (fun _ => rfl) (fun _ => rfl) (fun _ => id)
    exact told.idle rfl rfl rfl rfl rfl kept

theorem OrderInv.startRunner (h : OrderInv s) (now : Nat) (sends : Bool) : OrderInv (startRunner s now sends) := by
  have begun : ∀ call : Call, (∀ c sends, call ≠ .launched c sends) → ∀ j c sends',
      s.calls.put s.nextCall call j = some (.launched c sends') →
      s.calls j = some (.launched c sends') := by
    intro call other j c sends' found
    rcases Calls.put_eq_some found with ⟨_, same⟩ | ⟨_, old⟩
    · exact absurd same.symm (other c sends')
    · exact old
  have returned : OrderInv (if sends then s.beginCall .delivering else s) := by
    split_ifs
    · exact h.frame (.inl rfl) rfl rfl rfl rfl rfl rfl (begun _ fun _ _ absurd => nomatch absurd)
    · exact h
  unfold Runner.startRunner
  generalize (if sends = true then s.beginCall .delivering else s) = other at returned ⊢
  split_ifs
  · exact returned
  · exact returned.frame (.inl rfl) rfl rfl rfl rfl rfl rfl fun _ _ _ => id
  · exact h.frame (.inl rfl) rfl rfl rfl rfl rfl rfl (begun _ fun _ _ absurd => nomatch absurd)

theorem OrderInv.startCalled (h : OrderInv s) : OrderInv (startCalled s) := by
  refine h.frame (.inl rfl) rfl rfl rfl rfl rfl rfl fun i c sends call => ?_
  obtain ⟨before, found, same⟩ := Calls.mapAll_eq_some call
  cases before with
  | launched d sends' =>
    rw [same]
    exact found
  | starting _ | launchFailing _ | delivering | stopping _ _ | flushing _ => cases same

theorem OrderInv.dropCall (h : OrderInv s) (i : Nat) : OrderInv (s.dropCall i) :=
  h.frame (.inl rfl) rfl rfl rfl rfl rfl rfl fun _ _ _ call => (Calls.drop_eq_some call).2

theorem OrderInv.resume (resumes : driver.resumes = true) (h : OrderInv s) {call : Call} (launches : Bool)
    (calling : s.calls i = some call) (permitted : call = .delivering → Unstarted s → s.resumeId.isSome = true) :
    OrderInv (resume driver s i launches call) := by
  cases call with
  | starting sends => exact h.launch i sends launches
  | launchFailing sends => exact h.returnStart i sends
  | launched c sends => exact h.startup resumes calling
  | delivering => exact (h.dropCall i).deliver (permitted rfl)
  | stopping proc startedSince => exact h.stopProcess i proc startedSince
  | flushing startedSince =>
    exact h.frame (.inl rfl) rfl rfl rfl rfl rfl rfl fun _ _ _ call => (Calls.drop_eq_some call).2

theorem order_step (driver : Driver) (resumes : driver.resumes = true) (s : State) (a : Action)
    (t : State) (h : OrderInv s) (permitted : Ordering s a) (hstep : step driver s a = some t) :
    OrderInv t := by
  cases a with
  | start now =>
    cases hstep
    exact h.startCalled.startRunner now false
  | send now autostart =>
    cases hstep
    unfold sendToRunner
    split_ifs
    · exact h.startCalled.startRunner now true
    · exact h.deliver permitted
  | stop =>
    cases hstep
    refine h.frame (.inl rfl) rfl rfl rfl rfl rfl rfl fun i c sends call => ?_
    rcases Calls.put_eq_some call with ⟨_, absurd⟩ | ⟨_, old⟩
    · cases absurd
    · exact old
  | resolve i launches =>
    obtain ⟨call, calling, rfl⟩ := Option.map_eq_some_iff.mp hstep
    refine h.resume resumes launches calling ?_
    rintro rfl
    exact permitted calling
  | reject i =>
    simp only [step] at hstep
    split at hstep
    · cases hstep
    · cases hstep
    · cases hstep
      exact h.dropCall i
  | die c =>
    simp only [step] at hstep
    split_ifs at hstep
    cases hstep
    exact h.modify c _ (fun _ => rfl) (fun _ => rfl) (fun _ => rfl) (fun _ => rfl) fun _ absurd => nomatch absurd
  | exit c =>
    simp only [step] at hstep
    split at hstep
    · split_ifs at hstep
      cases hstep
      unfold onExit
      split_ifs
      · exact h.frame (.inr rfl) rfl rfl rfl rfl rfl rfl fun _ _ _ => id
      · exact h
    · cases hstep
  | error c =>
    simp only [step] at hstep
    split at hstep
    · split_ifs at hstep
      cases hstep
      have failed := h.modify c (fun child => { child with launchFailed := true }) (fun _ => rfl)
        (fun _ => rfl) (fun _ => rfl) (fun _ => rfl) (fun _ => id)
      refine failed.frame ?_ rfl rfl rfl rfl rfl rfl fun _ _ _ => id
      simp only [onError, State.modifyChild]
      split_ifs
      · exact .inr rfl
      · exact .inl rfl
    · cases hstep
  | answer c =>
    simp only [step] at hstep
    split at hstep
    · rename_i request sent
      cases hstep
      unfold onAnswer
      split_ifs with own
      · refine h.finishResume s.resumeTimer ?_
        rintro ⟨d, child, proc, found, _, unsent⟩ _
        cases own.1.symm.trans proc
        rw [found] at sent
        exact absurd (unsent.symm.trans sent) (by simp)
      · exact h
    · cases hstep
  | resumeTimeout =>
    simp only [step] at hstep
    split_ifs at hstep
    cases hstep
    exact h.finishResume false permitted
  | startTimeout now =>
    simp only [step] at hstep
    split_ifs at hstep
    cases hstep
    have fired : OrderInv { s with startTimer := false } :=
      h.frame (.inl rfl) rfl rfl rfl rfl rfl rfl fun _ _ _ => id
    unfold onStartTimer
    split_ifs
    · exact fired.startRunner now false
    · exact fired
  | unregister =>
    cases hstep
    exact h.frame (.inl rfl) rfl rfl rfl rfl rfl rfl fun _ _ _ => id

theorem startup_ordered (driver : Driver) (resumes : driver.resumes = true) (actions : List Action)
    (s : State) (run : Run (step driver) Ordering {} actions s) : StartupOrder s := by
  have inv : OrderInv s := run.invariant (order_step driver resumes)
    ⟨List.Pairwise.nil, (fun _ absurd => nomatch absurd), (fun _ _ absurd => nomatch absurd),
      (fun _ _ absurd => nomatch absurd), (fun _ _ absurd => nomatch absurd),
      (fun _ _ _ absurd => nomatch absurd), (fun _ _ _ absurd => nomatch absurd),
      (fun _ _ _ _ _ absurd => nomatch absurd)⟩
  exact ⟨fun c child found => (inv.child c child found).2.1, inv.awaited⟩

/-- A command, its resume and the answer to it. -/
theorem startup_ordered_held : ∃ s, Run (step ⟨true⟩) Ordering {} [.start 5000, .resolve 0 true, .resolve 0 true,
        .send 5001 true, .answer 0] s ∧
      (s.children 0).map Child.written = some [0] ∧ StartupOrder s := by
  have run : ∃ s, Run (step ⟨true⟩) Ordering {} [.start 5000, .resolve 0 true, .resolve 0 true,
      .send 5001 true, .answer 0] s ∧ (s.children 0).map Child.written = some [0] := by
    refine ⟨_, .cons trivial rfl (.cons ?_ rfl (.cons ?_ rfl (.cons (fun _ => rfl) rfl
      (.cons trivial rfl (.nil _))))), rfl⟩
    · intro absurd
      cases absurd
    · intro absurd
      cases absurd
  obtain ⟨s, run, written⟩ := run
  exact ⟨s, run, written, startup_ordered ⟨true⟩ rfl _ s run⟩

/-- A command that arrives while the launched child has not been sent its startup
commands is written to it before them. -/
theorem command_before_startup : ∃ s, exec (step ⟨true⟩) {} [.start 5000, .resolve 0 true, .send 5001 true] = some s ∧
      ¬StartupOrder s := by
  refine ⟨_, rfl, ?_⟩
  intro order
  have ready := (order.1 0 _ rfl).first (by decide)
  exact absurd ready (by decide)

theorem not_ordered_of_written (c : Nat) (child : Child) (found : s.children c = some child)
    (unready : child.ready = false) (written : child.written ≠ []) : ¬StartupOrder s := by
  intro order
  have ready := (order.1 c child found).first written
  rw [unready] at ready
  cases ready

theorem deliver_unstarted (h : OrderInv s) (unstarted : Unstarted s) (pending : s.resumeId = none) :
    ¬StartupOrder (deliver s) := by
  obtain ⟨c, child, proc, found, alive, unsent⟩ := unstarted
  have unready := (h.present proc found).ordered.unready unsent
  have live : s.alive c = true := alive_iff.mpr ⟨child, found, alive⟩
  refine not_ordered_of_written c ((child.accept s.accepted).write [s.accepted]) ?_ ?_ ?_
  · simp [deliver, proc, pending, live, State.modifyChild, Calls.modify_self, found]
  · simpa [Child.write] using unready
  · simp [Child.write]

theorem finishResume_unstarted (h : OrderInv s) (timer : Bool) (unstarted : Unstarted s)
    (pending : s.resumeId.isSome = true) (queued : s.resumeQueue ≠ []) :
    ¬StartupOrder (finishResume { s with resumeTimer := timer }) := by
  obtain ⟨c, child, proc, found, alive, unsent⟩ := unstarted
  obtain ⟨request, resumeId⟩ := Option.isSome_iff_exists.mp pending
  have unready := (h.present proc found).ordered.unready unsent
  rw [finishResume_present (by exact resumeId) (by exact proc)]
  refine not_ordered_of_written c (child.flush s.resumeQueue (some request)) ?_ ?_ ?_
  · simp [Calls.modify_self, found]
  · simp [Child.flush, Child.write, alive, unready, unsent]
  · simp [Child.flush, Child.write, alive, queued]

theorem not_ordering_writes {a : Action} (h : OrderInv s) (excluded : ¬Ordering s a)
    (hstep : step driver s a = some t) : ¬StartupOrder t := by
  cases a with
  | send now autostart =>
    obtain ⟨unstarted, pending⟩ := Classical.not_imp.mp excluded
    have pending : s.resumeId = none := by simpa using pending
    cases hstep
    have present : s.proc.isNone = false := by
      obtain ⟨c, _, proc, _⟩ := unstarted
      rw [proc]
      rfl
    rw [sendToRunner, present]
    exact deliver_unstarted h unstarted pending
  | resolve i launches =>
    obtain ⟨delivering, excluded⟩ := Classical.not_imp.mp excluded
    obtain ⟨unstarted, pending⟩ := Classical.not_imp.mp excluded
    have pending : s.resumeId = none := by simpa using pending
    obtain ⟨call, calling, rfl⟩ := Option.map_eq_some_iff.mp hstep
    cases calling.symm.trans delivering
    exact deliver_unstarted (h.dropCall i) unstarted pending
  | resumeTimeout =>
    obtain ⟨unstarted, excluded⟩ := Classical.not_imp.mp excluded
    obtain ⟨pending, queued⟩ := Classical.not_imp.mp excluded
    simp only [step] at hstep
    split_ifs at hstep
    cases hstep
    exact finishResume_unstarted h false unstarted pending queued
  | start _ | stop | reject _ | die _ | exit _ | error _ | answer _ | startTimeout _ | unregister =>
    exact absurd trivial excluded

end Runner
