import Mathlib.Data.List.Nodup
import Oyster.AppStore

/-! What holds between two steps of the application store. The work that the queue waits
for is the only call that begins transactions, and its phase says what is open in the
database; every other call that has left the queue and not settled is an operation of
its callback. The statement of the work is the last one of the driver, so that whatever
its callback has submitted is executed before its commit or rollback. -/
namespace AppStore
open Interleaving

structure QueueOk (s : State) : Prop where
  queued : ∀ i, i ∈ s.operationQueue ↔ ∃ call, s.calls i = some call ∧ call.phase = .queued
  nodup : s.operationQueue.Nodup
  order : s.enqueued = s.started ++ s.operationQueue
  started : ∀ i ∈ s.started, s.busy ≠ some i → s.settled i = true

variable {s : State} {i : Nat}

theorem settled_iff : s.settled i = true ↔ ∃ call, s.calls i = some call ∧ call.phase.isSettled = true := by
  simp [State.settled, Option.any_eq_true]

variable {t : State} {call : Call}

theorem settled_put {j : Nat} (calls : t.calls = s.calls.put i call) (h : s.settled j = true)
    (keep : j = i → call.phase.isSettled = true) : t.settled j = true := by
  obtain ⟨old, held, settled⟩ := settled_iff.mp h
  rw [settled_iff, calls]
  by_cases same : j = i
  · subst same
    exact ⟨call, Calls.put_self .., keep rfl⟩
  · exact ⟨old, by rwa [Calls.put_of_ne _ _ same], settled⟩

theorem QueueOk.put (h : QueueOk s) (before : i ∉ s.operationQueue) (after : call.phase ≠ .queued)
    (calls : t.calls = s.calls.put i call) (queue : t.operationQueue = s.operationQueue)
    (enqueued : t.enqueued = s.enqueued) (started : t.started = s.started)
    (busy : t.busy = s.busy ∧ (s.busy = some i ∨ call.phase.isSettled = true ∨ i ∉ s.started) ∨
      s.busy = some i ∧ call.phase.isSettled = true) : QueueOk t where
  queued := by
    intro j
    rw [queue, calls]
    by_cases same : j = i
    · subst same
      refine ⟨fun inside => absurd inside before, ?_⟩
      rintro ⟨held, found, waiting⟩
      rw [Calls.put_self] at found
      cases found
      exact absurd waiting after
    · rw [Calls.put_of_ne _ _ same]
      exact h.queued j
  nodup := queue ▸ h.nodup
  order := by rw [enqueued, started, queue]; exact h.order
  started := by
    intro j inside other
    rw [started] at inside
    rcases busy with ⟨same, now⟩ | ⟨was, settled⟩
    · rw [same] at other
      refine settled_put calls (h.started j inside other) ?_
      rintro rfl
      rcases now with busy | settled | new
      · exact absurd busy other
      · exact settled
      · exact absurd inside new
    · by_cases this : j = i
      · subst this
        exact settled_iff.mpr ⟨call, by rw [calls, Calls.put_self], settled⟩
      · refine settled_put calls (h.started j inside ?_) fun same => absurd same this
        rw [was]
        exact fun same => this (Option.some.inj same).symm

structure DriverOk (s : State) : Prop where
  statements : ∀ st ∈ s.driver, ∃ call, s.calls st.call = some call ∧ call.phase.sql = some st.sql ∧
    call.answer = none
  single : (s.driver.map Statement.call).Nodup
  submitted : ∀ i call sql, s.calls i = some call → call.phase.sql = some sql → call.answer = none →
    ⟨i, sql⟩ ∈ s.driver
  answered : ∀ i call ok, s.calls i = some call → call.answer = some ok → call.phase.sql ≠ none

theorem DriverOk.absent (h : DriverOk s)
    (free : ∀ call, s.calls i = some call → call.phase.sql = none ∨ call.answer ≠ none) :
    ∀ st ∈ s.driver, st.call ≠ i := by
  rintro st inside rfl
  obtain ⟨call, held, sql, open'⟩ := h.statements st inside
  rcases free call held with none | answered
  · rw [none] at sql
    cases sql
  · exact answered open'

theorem DriverOk.put (h : DriverOk s)
    (free : ∀ call, s.calls i = some call → call.phase.sql = none ∨ call.answer ≠ none)
    (calls : t.calls = s.calls.put i call) (driver : t.driver = s.driver) (sql : call.phase.sql = none)
    (answer : call.answer = none) : DriverOk t where
  statements := by
    intro st inside
    rw [driver] at inside
    rw [calls, Calls.put_of_ne _ _ (h.absent free st inside)]
    exact h.statements st inside
  single := driver ▸ h.single
  submitted := by
    intro j held sql' found submitted unanswered
    rw [calls] at found
    rcases Calls.put_eq_some found with ⟨rfl, rfl⟩ | ⟨_, old⟩
    · rw [sql] at submitted
      cases submitted
    · rw [driver]
      exact h.submitted j held sql' old submitted unanswered
  answered := by
    intro j held ok found has
    rw [calls] at found
    rcases Calls.put_eq_some found with ⟨rfl, rfl⟩ | ⟨_, old⟩
    · rw [answer] at has
      cases has
    · exact h.answered j held ok old has

variable {sql : Sql}

theorem DriverOk.submit (h : DriverOk s)
    (free : ∀ call, s.calls i = some call → call.phase.sql = none ∨ call.answer ≠ none)
    (calls : t.calls = s.calls.put i call) (driver : t.driver = s.driver ++ [⟨i, sql⟩])
    (has : call.phase.sql = some sql) (answer : call.answer = none) : DriverOk t where
  statements := by
    intro st inside
    rw [driver] at inside
    rcases List.mem_append.mp inside with old | new
    · rw [calls, Calls.put_of_ne _ _ (h.absent free st old)]
      exact h.statements st old
    · obtain rfl := List.mem_singleton.mp new
      exact ⟨call, by rw [calls, Calls.put_self], has, answer⟩
  single := by
    rw [driver, List.map_append, List.map_singleton]
    refine List.nodup_append.mpr ⟨h.single, List.nodup_singleton _, ?_⟩
    intro j inside k new
    obtain ⟨st, mem, rfl⟩ := List.mem_map.mp inside
    obtain rfl := List.mem_singleton.mp new
    exact h.absent free st mem
  submitted := by
    intro j held sql' found submitted unanswered
    rw [calls] at found
    rw [driver]
    rcases Calls.put_eq_some found with ⟨rfl, rfl⟩ | ⟨_, old⟩
    · cases has.symm.trans submitted
      exact List.mem_append_right _ (List.mem_singleton.mpr rfl)
    · exact List.mem_append_left _ (h.submitted j held sql' old submitted unanswered)
  answered := by
    intro j held ok found answered
    rw [calls] at found
    rcases Calls.put_eq_some found with ⟨rfl, rfl⟩ | ⟨_, old⟩
    · rw [answer] at answered
      cases answered
    · exact h.answered j held ok old answered

variable {ok : Bool}

theorem DriverOk.execute (h : DriverOk s) {st : Statement} {rest : List Statement} (before : s.driver = st :: rest)
    (held : s.calls st.call = some call) (calls : t.calls = s.calls.put st.call { call with answer := some ok })
    (after : t.driver = rest) : DriverOk t := by
  have single := h.single
  rw [before, List.map_cons, List.nodup_cons] at single
  have other : ∀ later ∈ rest, later.call ≠ st.call := by
    intro later inside same
    exact single.1 (same ▸ List.mem_map_of_mem inside)
  refine ⟨?_, after ▸ single.2, ?_, ?_⟩
  · intro later inside
    rw [after] at inside
    rw [calls, Calls.put_of_ne _ _ (other later inside)]
    exact h.statements later (before ▸ List.mem_cons_of_mem st inside)
  · intro j found sql held' submitted unanswered
    rw [calls] at held'
    rcases Calls.put_eq_some held' with ⟨rfl, rfl⟩ | ⟨different, old⟩
    · cases unanswered
    · have inside := h.submitted j found sql old submitted unanswered
      rw [before] at inside
      rw [after]
      rcases List.mem_cons.mp inside with same | later
      · exact absurd (congrArg Statement.call same) different
      · exact later
  · intro j found ok' held' answered
    rw [calls] at held'
    rcases Calls.put_eq_some held' with ⟨rfl, rfl⟩ | ⟨_, old⟩
    · obtain ⟨call', same, sql, _⟩ := h.statements st (before ▸ List.mem_cons_self)
      cases held.symm.trans same
      rw [sql]
      exact Option.some_ne_none _
    · exact h.answered j found ok' old answered

/-- The callback of the transaction is running. -/
def InCallback (s : State) (t : Nat) : Prop :=
  s.busy = some t ∧ ∃ call awaits, s.calls t = some call ∧ call.phase = .callback awaits

/-- An operation that the callback of `t` has started: it takes part in the transaction,
and when the callback has returned it submits nothing more. -/
structure Member (s : State) (t : Nat) (call : Call) : Prop where
  kind : call.kind ≠ .transaction
  opened : call.opened = false
  phase : (∃ left, call.phase = .body left) ∨ call.phase.isSettled = true
  submitted : Submitted call ∨ InCallback s t

def CallOk (s : State) (i : Nat) (call : Call) : Prop :=
  match call.issuer with
  | some t => Member s t call
  | none => s.busy ≠ some i → call.phase.isSettled = true ∨ call.phase = .queued ∧ call.opened = false

/-- The statement of `b`, if it is with the driver, is the last one there. -/
def Last (s : State) (b : Nat) : Prop := s.driver = [] ∨ ∃ ws sql, s.driver = ws ++ [⟨b, sql⟩]

def Only (s : State) (b : Nat) : Prop := ∀ st ∈ s.driver, st.call = b

/-- What the phase of the running work says about the driver and the database. -/
def PhaseOk (s : State) (b : Nat) (call : Call) : Prop :=
  match call.phase with
  | .begin =>
    (call.kind = .transaction ∨ call.opened = true) ∧ Only s b ∧
      s.dbOpen = if call.answer = some true then some b else none
  | .body _ =>
    call.kind ≠ .transaction ∧ Only s b ∧ s.dbOpen = if call.opened = true then some b else none
  | .callback awaits =>
    call.kind = .transaction ∧ s.dbOpen = some b ∧
      ∀ d ∈ awaits, d ≠ b ∧ ∃ awaited, s.calls d = some awaited ∧ awaited.phase ≠ .queued
  | .commit =>
    (call.kind = .transaction ∨ call.opened = true) ∧ Last s b ∧
      s.dbOpen = if call.answer = some true then none else some b
  | .rollback =>
    (call.kind = .transaction ∨ call.opened = true) ∧ Last s b ∧ (call.answer ≠ none → s.dbOpen = none) ∧
        (call.answer = none → s.dbOpen = some b ∨ s.dbOpen = none ∧ Only s b)
  | .queued | .settled _ => False

structure Running (s : State) (b : Nat) (call : Call) : Prop where
  issuer : call.issuer = none
  flag : s.transactionOpen = true ↔ call.kind = .transaction
  phase : PhaseOk s b call

structure CallsOk (s : State) : Prop where
  calls : ∀ i call, s.calls i = some call → CallOk s i call
  owner : ∀ st ∈ s.driver, s.busy = some st.call ∨
    ∃ call t, s.calls st.call = some call ∧ call.issuer = some t ∧ s.busy = some t
  idle : s.busy = none → s.dbOpen = none ∧ s.transactionOpen = false
  busy : ∀ b, s.busy = some b → ∃ call, s.calls b = some call ∧ Running s b call

variable {b : Nat}

theorem Running.not_queued (h : Running s b call) : call.phase ≠ .queued := by
  intro queued
  have phase := h.phase
  unfold PhaseOk at phase
  rw [queued] at phase
  exact phase

theorem Running.not_settled (h : Running s b call) : call.phase.isSettled = false := by
  have phase := h.phase
  unfold PhaseOk at phase
  cases held : call.phase with
  | settled ok =>
    rw [held] at phase
    exact phase.elim
  | queued | begin | body | callback | commit | rollback => rfl

theorem Member.not_queued {t : Nat} (h : Member s t call) : call.phase ≠ .queued := by
  intro queued
  rcases h.phase with ⟨left, same⟩ | settled
  · exact nomatch same.symm.trans queued
  · rw [queued] at settled
    cases settled

theorem CallsOk.queued (h : CallsOk s) (held : s.calls i = some call) (queued : call.phase = .queued) :
    call.issuer = none ∧ call.opened = false ∧ s.busy ≠ some i := by
  have ok := h.calls i call held
  have free : s.busy ≠ some i := by
    intro busy
    obtain ⟨running, same, ok⟩ := h.busy i busy
    cases held.symm.trans same
    exact ok.not_queued queued
  unfold CallOk at ok
  cases issuer : call.issuer with
  | some t =>
    rw [issuer] at ok
    exact absurd queued ok.not_queued
  | none =>
    rw [issuer] at ok
    rcases ok free with settled | ⟨_, opened⟩
    · rw [queued] at settled
      cases settled
    · exact ⟨rfl, opened, free⟩

theorem driver_nil (d : DriverOk s) (held : s.calls b = some call) (answer : call.answer = some ok)
    (last : Last s b ∨ Only s b) : s.driver = [] := by
  have absent : ∀ st ∈ s.driver, st.call ≠ b := by
    refine d.absent ?_
    intro other same
    cases held.symm.trans same
    rw [answer]
    exact .inr (Option.some_ne_none ok)
  rcases last with (nil | ⟨ws, sql, same⟩) | only
  · exact nil
  · exact absurd rfl (absent ⟨b, sql⟩ (same ▸ List.mem_append_right _ (List.mem_singleton.mpr rfl)))
  · exact List.eq_nil_iff_forall_not_mem.mpr fun st inside => absent st inside (only st inside)

theorem CallsOk.busyStep (h : CallsOk s) {old : Call} (busy : s.busy = some b) (held : s.calls b = some old)
    (calls : t.calls = s.calls.put b call) (same : t.busy = some b)
    (driver : ∀ st ∈ t.driver, st ∈ s.driver ∨ st.call = b) (running : Running t b call)
    (members : InCallback s b → ∀ j c, s.calls j = some c → c.issuer = some b →
      Submitted c ∨ InCallback t b) : CallsOk t where
  calls := by
    intro j c found
    rw [calls] at found
    rcases Calls.put_eq_some found with ⟨rfl, rfl⟩ | ⟨other, found⟩
    · unfold CallOk
      rw [running.issuer]
      exact fun absurd => (absurd same).elim
    · have ok := h.calls j c found
      unfold CallOk at ok ⊢
      cases issuer : c.issuer with
      | none =>
        rw [issuer] at ok
        rw [same, ← busy]
        exact ok
      | some t0 =>
        rw [issuer] at ok
        refine ⟨ok.kind, ok.opened, ok.phase, ?_⟩
        rcases ok.submitted with submitted | inside
        · exact .inl submitted
        · cases busy.symm.trans inside.1
          exact members inside j c found issuer
  owner := by
    intro st inside
    rw [same]
    rcases driver st inside with old | this
    · rcases h.owner st old with mine | ⟨c, t0, found, issuer, of⟩
      · exact .inl (busy ▸ mine)
      · by_cases this : st.call = b
        · exact .inl (this ▸ rfl)
        · refine .inr ⟨c, t0, ?_, issuer, busy ▸ of⟩
          rw [calls, Calls.put_of_ne _ _ this]
          exact found
    · exact .inl (this ▸ rfl)
  idle := by
    intro none
    cases same.symm.trans none
  busy := by
    intro b' now
    cases same.symm.trans now
    exact ⟨call, by rw [calls, Calls.put_self], running⟩

theorem CallsOk.settleBusy (h : CallsOk s) (busy : s.busy = some b) (calls : t.calls = s.calls.put b call)
    (issuer : call.issuer = none) (settled : call.phase.isSettled = true) (now : t.busy = none)
    (driver : t.driver = []) (outside : ¬InCallback s b) (closed : t.dbOpen = none ∧ t.transactionOpen = false) :
    CallsOk t where
  calls := by
    intro j c found
    rw [calls] at found
    rcases Calls.put_eq_some found with ⟨rfl, rfl⟩ | ⟨other, found⟩
    · unfold CallOk
      rw [issuer]
      exact fun _ => .inl settled
    · have ok := h.calls j c found
      unfold CallOk at ok ⊢
      cases issuer : c.issuer with
      | none =>
        rw [issuer] at ok
        intro _
        refine ok ?_
        rw [busy]
        exact fun same => other (Option.some.inj same).symm
      | some t0 =>
        rw [issuer] at ok
        refine ⟨ok.kind, ok.opened, ok.phase, ?_⟩
        rcases ok.submitted with submitted | inside
        · exact .inl submitted
        · cases busy.symm.trans inside.1
          exact absurd inside outside
  owner := by
    rw [driver]
    exact fun _ absurd => nomatch absurd
  idle := fun _ => closed
  busy := by
    intro b' absurd
    cases now.symm.trans absurd

theorem kept_put (calls : t.calls = s.calls.put i call) (active : call.phase ≠ .queued) {d : Nat}
    (h : ∃ awaited, s.calls d = some awaited ∧ awaited.phase ≠ .queued) :
    ∃ awaited, t.calls d = some awaited ∧ awaited.phase ≠ .queued := by
  obtain ⟨awaited, found, phase⟩ := h
  by_cases same : d = i
  · subst same
    exact ⟨call, by rw [calls, Calls.put_self], active⟩
  · exact ⟨awaited, by rwa [calls, Calls.put_of_ne _ _ same], phase⟩

theorem PhaseOk.put {work : Call} (h : PhaseOk s b work) (calls : t.calls = s.calls.put i call)
    (active : call.phase ≠ .queued) (db : t.dbOpen = s.dbOpen)
    (driver : t.driver = s.driver ∨ ∃ awaits, work.phase = .callback awaits) : PhaseOk t b work := by
  have waits : ∀ awaits : List Nat,
      (∀ d ∈ awaits, d ≠ b ∧ ∃ awaited, s.calls d = some awaited ∧ awaited.phase ≠ .queued) →
      ∀ d ∈ awaits, d ≠ b ∧ ∃ awaited, t.calls d = some awaited ∧ awaited.phase ≠ .queued :=
    fun awaits old d inside => ⟨(old d inside).1, kept_put calls active (old d inside).2⟩
  unfold PhaseOk Only Last at *
  rcases driver with driver | ⟨awaits, phase⟩
  · rw [driver, db]
    cases phase : work.phase with
    | callback awaits =>
      rw [phase] at h
      exact ⟨h.1, h.2.1, waits awaits h.2.2⟩
    | queued | begin | body | commit | rollback | settled =>
      rw [phase] at h
      exact h
  · rw [phase] at h ⊢
    rw [db]
    exact ⟨h.1, h.2.1, waits awaits h.2.2⟩

theorem CallsOk.memberStep (h : CallsOk s) {t0 : Nat} (issuer : call.issuer = some t0) (other : s.busy ≠ some i)
    (known : ∀ c, s.calls i = some c → c.issuer = some t0) (calls : t.calls = s.calls.put i call)
    (same : t.busy = s.busy) (member : Member t t0 call) (db : t.dbOpen = s.dbOpen)
    (flag : t.transactionOpen = s.transactionOpen)
    (driver : ∀ st ∈ t.driver, st ∈ s.driver ∨ st.call = i ∧ s.busy = some t0)
    (phase : ∀ b work, s.busy = some b → s.calls b = some work → PhaseOk s b work → PhaseOk t b work) :
    CallsOk t where
  calls := by
    intro j c found
    rw [calls] at found
    rcases Calls.put_eq_some found with ⟨rfl, rfl⟩ | ⟨different, found⟩
    · unfold CallOk
      rw [issuer]
      exact member
    · have ok := h.calls j c found
      unfold CallOk at ok ⊢
      cases held : c.issuer with
      | none =>
        rw [held] at ok
        rw [same]
        exact ok
      | some t1 =>
        rw [held] at ok
        refine ⟨ok.kind, ok.opened, ok.phase, ok.submitted.imp_right ?_⟩
        rintro ⟨busy, c', awaits, found', phase⟩
        refine ⟨same.trans busy, c', awaits, ?_, phase⟩
        rw [calls, Calls.put_of_ne _ _ ?_]
        · exact found'
        · rintro rfl
          exact other busy
  owner := by
    intro st inside
    rw [same]
    rcases driver st inside with old | ⟨this, running⟩
    · rcases h.owner st old with mine | ⟨c, t1, found, issuer', of⟩
      · exact .inl mine
      · by_cases this : st.call = i
        · rw [this] at found ⊢
          obtain rfl := Option.some.inj (issuer'.symm.trans (known c found))
          exact .inr ⟨call, t1, by rw [calls, Calls.put_self], issuer, of⟩
        · refine .inr ⟨c, t1, ?_, issuer', of⟩
          rw [calls, Calls.put_of_ne _ _ this]
          exact found
    · refine .inr ⟨call, t0, ?_, issuer, running⟩
      rw [calls, this, Calls.put_self]
  idle := by
    rw [same, db, flag]
    exact h.idle
  busy := by
    intro b now
    rw [same] at now
    obtain ⟨work, found, running⟩ := h.busy b now
    have kept : t.calls b = some work := by
      rw [calls, Calls.put_of_ne _ _ ?_]
      · exact found
      · rintro rfl
        exact other now
    exact ⟨work, kept, running.issuer, flag ▸ running.flag, phase b work now found running.phase⟩

/-- The transaction that a statement of the call belongs to. -/
def place (i : Nat) (call : Call) : Option Nat :=
  match call.issuer with
  | some t => some t
  | none => if call.opened = true then some i else none

def Succeeded (call : Call) : Prop :=
  (call.kind = .transaction ∨ call.opened = true) ∧
    (call.phase = .settled true ∨ call.phase = .commit ∧ call.answer = some true)

structure Inv (s : State) : Prop where
  queue : QueueOk s
  driver : DriverOk s
  calls : CallsOk s
  log : ∀ e ∈ s.log, ∃ call, s.calls e.call = some call ∧ call.phase ≠ .queued ∧ e.inside = place e.call call
  committed : ∀ t, t ∈ s.committed ↔ ∃ call, s.calls t = some call ∧ Succeeded call

theorem log_put (h : Inv s) (calls : t.calls = s.calls.put i call) (log : t.log = s.log)
    (same : ∀ old, s.calls i = some old → old.phase ≠ .queued →
      call.phase ≠ .queued ∧ call.issuer = old.issuer ∧ call.opened = old.opened) :
    ∀ e ∈ t.log, ∃ call, t.calls e.call = some call ∧ call.phase ≠ .queued ∧ e.inside = place e.call call := by
  intro e inside
  rw [log] at inside
  obtain ⟨old, held, active, placed⟩ := h.log e inside
  rw [calls]
  by_cases this : e.call = i
  · obtain ⟨active', issuer, opened⟩ := same old (this ▸ held) active
    refine ⟨call, by rw [this, Calls.put_self], active', ?_⟩
    rw [placed, place, place, issuer, opened]
  · exact ⟨old, by rwa [Calls.put_of_ne _ _ this], active, placed⟩

theorem committed_put (h : Inv s) (calls : t.calls = s.calls.put i call) (committed : t.committed = s.committed)
    (same : Succeeded call ↔ ∃ old, s.calls i = some old ∧ Succeeded old) (j : Nat) :
    j ∈ t.committed ↔ ∃ call, t.calls j = some call ∧ Succeeded call := by
  rw [committed, calls]
  by_cases this : j = i
  · subst this
    rw [Calls.put_self, h.committed j, ← same]
    constructor
    · exact fun success => ⟨call, rfl, success⟩
    · rintro ⟨c, held, success⟩
      exact Option.some.inj held ▸ success
  · rw [Calls.put_of_ne _ _ this]
    exact h.committed j

/-- What a step of the call `i` to `call` starts from: a call that does not exist yet, or
that runs and has no statement with the driver. -/
def Ready (s : State) (i : Nat) (call : Call) : Prop :=
  ∀ old, s.calls i = some old → old.phase ≠ .queued ∧ old.phase.isSettled = false ∧
    (old.phase.sql = none ∨ old.answer ≠ none) ∧ call.issuer = old.issuer ∧ call.opened = old.opened

theorem Ready.not_waiting (h : Inv s) (ready : Ready s i call) : i ∉ s.operationQueue := by
  intro waiting
  obtain ⟨old, held, queued⟩ := (h.queue.queued i).mp waiting
  exact (ready old held).1 queued

theorem Ready.not_started (h : Inv s) (ready : Ready s i call) : s.busy = some i ∨ i ∉ s.started := by
  by_cases busy : s.busy = some i
  · exact .inl busy
  · refine .inr fun started => ?_
    obtain ⟨old, held, settled⟩ := settled_iff.mp (h.queue.started i started busy)
    have running := (ready old held).2.1
    rw [settled] at running
    cases running

theorem Inv.submit (h : Inv s) {phase : Phase} (ready : Ready s i call) (has : phase.sql = some sql)
    (unsuccessful : ∀ old, s.calls i = some old → ¬Succeeded old) (calls : CallsOk (s.submit i call phase sql)) :
    Inv (s.submit i call phase sql) where
  queue := by
    refine h.queue.put (ready.not_waiting h) ?_ rfl rfl rfl rfl (.inl ⟨rfl, (ready.not_started h).imp_right .inr⟩)
    rintro rfl
    cases has
  driver := h.driver.submit (fun old held => (ready old held).2.2.1) rfl rfl has rfl
  calls := calls
  log := by
    refine log_put h rfl rfl fun old held _ => ⟨?_, (ready old held).2.2.2⟩
    rintro rfl
    cases has
  committed := by
    refine committed_put h rfl rfl ⟨?_, fun ⟨old, held, success⟩ => absurd success (unsuccessful old held)⟩
    rintro ⟨_, rfl | ⟨_, absurd⟩⟩
    · cases has
    · cases absurd

theorem Inv.settle (h : Inv s) (ready : Ready s i call)
    (success : ((call.kind = .transaction ∨ call.opened = true) ∧ ok = true) ↔
      ∃ old, s.calls i = some old ∧ Succeeded old) (flag : Bool)
    (calls : CallsOk ({ s with transactionOpen := flag }.settle i call ok)) :
    Inv ({ s with transactionOpen := flag }.settle i call ok) where
  queue := by
    refine h.queue.put (ready.not_waiting h) ?_ rfl rfl rfl rfl ?_
    · exact fun absurd => nomatch absurd
    · by_cases busy : s.busy = some i
      · exact .inr ⟨busy, rfl⟩
      · exact .inl ⟨if_neg busy, .inr (.inl rfl)⟩
  driver := h.driver.put (fun old held => (ready old held).2.2.1) rfl rfl rfl rfl
  calls := calls
  log := log_put h rfl rfl fun old held _ => ⟨(fun absurd => nomatch absurd), (ready old held).2.2.2⟩
  committed := by
    refine committed_put h rfl rfl (Iff.trans ?_ success)
    simp [Succeeded]

end AppStore
