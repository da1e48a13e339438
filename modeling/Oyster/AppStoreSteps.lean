import Oyster.AppStoreInvariant

/-! Every kind of step of the application store keeps the invariant: the work that the
queue waits for goes on, an operation of its callback goes on, a call is enqueued or
dequeued, and the driver executes a statement. -/
namespace AppStore
open Interleaving

/-! ### Steps of a running call -/

section Steps
variable {s t : State} {i : Nat} {call : Call}

theorem Inv.running (h : Inv s) (held : s.calls i = some call) (busy : s.busy = some i) : Running s i call := by
  obtain ⟨work, same, running⟩ := h.calls.busy i busy
  cases held.symm.trans same
  exact running

theorem ready_running {next : Call} (held : s.calls i = some call) (running : Running s i call)
    (free : call.phase.sql = none ∨ call.answer ≠ none) (issuer : next.issuer = call.issuer)
    (opened : next.opened = call.opened) : Ready s i next := by
  intro old same
  cases held.symm.trans same
  exact ⟨running.not_queued, running.not_settled, free, issuer, opened⟩

variable {phase : Phase} {sql : Sql}

theorem Inv.submitBusy (h : Inv s) (held : s.calls i = some call) (busy : s.busy = some i)
    (free : call.phase.sql = none ∨ call.answer ≠ none) (unsuccessful : ¬Succeeded call) (has : phase.sql = some sql)
    (ok : PhaseOk (s.submit i call phase sql) i { call with phase, answer := none })
    (members : InCallback s i → ∀ j c, s.calls j = some c → c.issuer = some i → Submitted c) :
    Inv (s.submit i call phase sql) := by
  have running := h.running held busy
  refine h.submit (ready_running held running free rfl rfl) has ?_ ?_
  · intro old same
    cases held.symm.trans same
    exact unsuccessful
  · refine h.calls.busyStep busy held rfl busy ?_ ⟨running.issuer, running.flag, ok⟩
      fun inside j c found issuer => .inl (members inside j c found issuer)
    intro st inside
    refine (List.mem_append.mp inside).imp_right fun new => ?_
    obtain rfl := List.mem_singleton.mp new
    rfl

variable {ok : Bool}

theorem Inv.settleBusy (h : Inv s) (held : s.calls i = some call) (busy : s.busy = some i) {answer : Bool}
    (answered : call.answer = some answer)
    (success : ((call.kind = .transaction ∨ call.opened = true) ∧ ok = true) ↔ Succeeded call)
    (alone : Last s i ∨ Only s i) (outside : call.phase.sql ≠ none) (closed : s.dbOpen = none) {flag : Bool}
    (down : flag = false) : Inv ({ s with transactionOpen := flag }.settle i call ok) := by
  have running := h.running held busy
  refine h.settle (ready_running held running (.inr ?_) rfl rfl) (Iff.trans success ?_) flag ?_
  · rw [answered]
    exact Option.some_ne_none _
  · constructor
    · exact fun success => ⟨call, held, success⟩
    · rintro ⟨old, same, success⟩
      cases held.symm.trans same
      exact success
  · have nil := driver_nil h.driver held answered alone
    refine h.calls.settleBusy busy rfl running.issuer rfl (if_pos busy) nil ?_ ⟨closed, down⟩
    rintro ⟨_, c, awaits, found, phase⟩
    cases held.symm.trans found
    rw [phase] at outside
    exact outside rfl

theorem Inv.nextStatementBusy (h : Inv s) (held : s.calls i = some call) (busy : s.busy = some i)
    (answered : call.answer = some true) (kind : call.kind ≠ .transaction) (alone : Only s i)
    (unsuccessful : ¬Succeeded call) (outside : call.phase.sql ≠ none)
    (db : s.dbOpen = if call.opened = true then some i else none) (left : Nat) :
    Inv (s.nextStatement i call left) := by
  have running := h.running held busy
  have free : call.phase.sql = none ∨ call.answer ≠ none := by
    rw [answered]
    exact .inr (Option.some_ne_none _)
  have nil := driver_nil h.driver held answered (.inr alone)
  have quiet : ¬InCallback s i := by
    rintro ⟨_, c, awaits, found, phase⟩
    cases held.symm.trans found
    rw [phase] at outside
    exact outside rfl
  have down : s.transactionOpen = false := by
    cases flag : s.transactionOpen with
    | false => rfl
    | true => exact absurd (running.flag.mp flag) kind
  unfold State.nextStatement
  cases left with
  | succ left =>
    refine h.submitBusy held busy free unsuccessful rfl ⟨kind, ?_, db⟩ fun inside => absurd inside quiet
    intro st inside
    rw [State.submit, nil] at inside
    obtain rfl := List.mem_singleton.mp inside
    rfl
  | zero =>
    split_ifs with opened
    · refine h.submitBusy held busy free unsuccessful rfl ⟨.inr opened, ?_, ?_⟩ fun inside =>
        absurd inside quiet
      · exact .inr ⟨s.driver, .commit, rfl⟩
      · rw [if_pos opened] at db
        exact db
    · refine h.settleBusy held busy answered ?_ (.inr alone) outside ?_ down
      · exact ⟨fun absurd => (absurd.1.elim kind opened).elim, fun success => absurd success unsuccessful⟩
      · rw [db, if_neg opened]

theorem flag_down (h : Inv s) (held : s.calls i = some call) (busy : s.busy = some i)
    (kind : call.kind ≠ .transaction) : s.transactionOpen = false := by
  cases flag : s.transactionOpen with
  | false => rfl
  | true => exact absurd ((h.running held busy).flag.mp flag) kind

theorem not_succeeded (phase : call.phase ≠ .settled true) (commit : call.phase = .commit → call.answer ≠ some true) :
    ¬Succeeded call := by
  rintro ⟨_, settled | ⟨at_commit, answer⟩⟩
  · exact phase settled
  · exact commit at_commit answer

theorem Inv.runCallback (h : Inv s) (held : s.calls i = some call) (busy : s.busy = some i)
    (free : call.phase.sql = none ∨ call.answer ≠ none) (unsuccessful : ¬Succeeded call)
    (kind : call.kind = .transaction) (db : s.dbOpen = some i) (awaits : List Nat)
    (known : ∀ d ∈ awaits, d ≠ i ∧ ∃ awaited, s.calls d = some awaited ∧ awaited.phase ≠ .queued) :
    Inv { s with calls := s.calls.put i { call with phase := .callback awaits, answer := none } } := by
  have running := h.running held busy
  have ready : Ready s i { call with phase := .callback awaits, answer := none } :=
    ready_running held running free rfl rfl
  refine ⟨?_, h.driver.put (fun old found => (ready old found).2.2.1) rfl rfl rfl rfl, ?_, ?_, ?_⟩
  · refine h.queue.put (ready.not_waiting h) ?_ rfl rfl rfl rfl (.inl ⟨rfl, .inl busy⟩)
    exact fun absurd => nomatch absurd
  · refine h.calls.busyStep busy held rfl busy (fun _ inside => .inl inside)
      ⟨running.issuer, running.flag, kind, db, ?_⟩ fun _ _ _ _ _ => .inr ⟨busy, _, awaits, Calls.put_self .., rfl⟩
    intro d inside
    refine ⟨(known d inside).1, kept_put rfl ?_ (known d inside).2⟩
    exact fun absurd => nomatch absurd
  · exact log_put h rfl rfl fun old found _ => ⟨(fun absurd => nomatch absurd), (ready old found).2.2.2⟩
  · refine committed_put h rfl rfl ⟨?_, ?_⟩
    · rintro ⟨_, absurd | ⟨absurd, _⟩⟩ <;> cases absurd
    · rintro ⟨old, found, success⟩
      cases held.symm.trans found
      exact absurd success unsuccessful

theorem Inv.rollBack (h : Inv s) (held : s.calls i = some call) (busy : s.busy = some i)
    (free : call.phase.sql = none ∨ call.answer ≠ none) (unsuccessful : ¬Succeeded call)
    (owns : call.kind = .transaction ∨ call.opened = true) (db : s.dbOpen = some i ∨ s.dbOpen = none ∧ s.driver = [])
    (members : InCallback s i → ∀ j c, s.calls j = some c → c.issuer = some i → Submitted c) :
    Inv (s.submit i call .rollback .rollback) := by
  refine h.submitBusy held busy free unsuccessful rfl ⟨owns, .inr ⟨s.driver, .rollback, rfl⟩, ?_, ?_⟩ members
  · exact fun absurd => (absurd rfl).elim
  · intro _
    refine db.imp_right fun ⟨closed, nil⟩ => ⟨closed, ?_⟩
    intro st inside
    rw [State.submit, nil] at inside
    obtain rfl := List.mem_singleton.mp inside
    rfl

theorem resume_busy (h : Inv s) (held : s.calls i = some call) (busy : s.busy = some i)
    (answered : call.answer = some ok) (hstep : resume s i call ok = some t) : Inv t := by
  have phaseOk := (h.running held busy).phase
  have sql := h.driver.answered i call ok held answered
  have free : call.phase.sql = none ∨ call.answer ≠ none := by
    rw [answered]
    exact .inr (Option.some_ne_none _)
  have nil := driver_nil h.driver held answered
  have down := flag_down h held busy
  have quiet : ∀ {P : Prop}, call.phase.sql ≠ none → InCallback s i → P := by
    rintro P active ⟨_, c, awaits, found, phase⟩
    cases held.symm.trans found
    rw [phase] at active
    exact absurd rfl active
  obtain ⟨kind, phase, answer, opened, issuer⟩ := call
  obtain rfl : answer = some ok := answered
  cases phase with
  | queued | settled => exact phaseOk.elim
  | callback awaits => exact absurd rfl sql
  | begin =>
    obtain ⟨owns, only, db⟩ := phaseOk
    have unsuccessful : ¬Succeeded ⟨kind, .begin, some ok, opened, issuer⟩ :=
      not_succeeded (fun absurd => nomatch absurd) (fun absurd => nomatch absurd)
    cases kind with
    | transaction =>
      cases ok with
      | true =>
        cases hstep
        exact h.runCallback held busy free unsuccessful rfl db [] fun _ absurd => nomatch absurd
      | false =>
        cases hstep
        exact h.rollBack held busy free unsuccessful owns (.inr ⟨db, nil (.inr only)⟩) (quiet sql)
    | operation statements isAtomic =>
      have opened : opened = true := owns.elim (fun absurd => nomatch absurd) id
      subst opened
      cases ok with
      | true =>
        cases hstep
        exact h.nextStatementBusy held busy rfl (fun absurd => nomatch absurd) only unsuccessful sql db statements
      | false =>
        cases hstep
        refine h.settleBusy held busy rfl ⟨?_, fun success => absurd success unsuccessful⟩
          (.inr only) sql db (down fun absurd => nomatch absurd)
        exact fun absurd => nomatch absurd.2
  | body left =>
    obtain ⟨notTransaction, only, db⟩ := phaseOk
    have unsuccessful : ¬Succeeded ⟨kind, .body left, some ok, opened, issuer⟩ :=
      not_succeeded (fun absurd => nomatch absurd) (fun absurd => nomatch absurd)
    cases kind with
    | transaction => exact absurd rfl notTransaction
    | operation statements isAtomic =>
      cases ok with
      | true =>
        cases hstep
        exact h.nextStatementBusy held busy rfl notTransaction only unsuccessful sql db left
      | false =>
        cases opened with
        | true =>
          cases hstep
          exact h.rollBack held busy free unsuccessful (.inr rfl) (.inl db) (quiet sql)
        | false =>
          cases hstep
          refine h.settleBusy held busy rfl ⟨?_, fun success => absurd success unsuccessful⟩
            (.inr only) sql db (down notTransaction)
          exact fun absurd => nomatch absurd.2
  | commit =>
    obtain ⟨owns, last, db⟩ := phaseOk
    cases ok with
    | true =>
      have success : Succeeded ⟨kind, .commit, some true, opened, issuer⟩ :=
        ⟨owns, .inr ⟨rfl, rfl⟩⟩
      cases kind with
      | transaction =>
        cases hstep
        exact h.settleBusy held busy rfl ⟨fun _ => success, fun _ => ⟨owns, rfl⟩⟩ (.inl last) sql db rfl
      | operation statements isAtomic =>
        cases hstep
        exact h.settleBusy held busy rfl ⟨fun _ => success, fun _ => ⟨owns, rfl⟩⟩ (.inl last) sql db
          (down fun absurd => nomatch absurd)
    | false =>
      have unsuccessful : ¬Succeeded ⟨kind, .commit, some false, opened, issuer⟩ :=
        not_succeeded (fun absurd => nomatch absurd) (fun _ absurd => nomatch absurd)
      have rolls := h.rollBack held busy free unsuccessful owns (.inl db) (quiet sql)
      cases kind with
      | transaction =>
        cases hstep
        exact rolls
      | operation statements isAtomic =>
        cases hstep
        exact rolls
  | rollback =>
    obtain ⟨owns, last, closed, _⟩ := phaseOk
    have db := closed (Option.some_ne_none ok)
    have unsuccessful : ¬Succeeded ⟨kind, .rollback, some ok, opened, issuer⟩ :=
      not_succeeded (fun absurd => nomatch absurd) (fun absurd => nomatch absurd)
    cases kind with
    | transaction =>
      cases hstep
      refine h.settleBusy held busy rfl ⟨?_, fun success => absurd success unsuccessful⟩ (.inl last) sql db rfl
      exact fun absurd => nomatch absurd.2
    | operation statements isAtomic =>
      cases hstep
      refine h.settleBusy held busy rfl ⟨?_, fun success => absurd success unsuccessful⟩ (.inl last) sql
        db (down fun absurd => nomatch absurd)
      exact fun absurd => nomatch absurd.2

/-! ### Operations of a callback -/

/-- An operation that the callback of `t0` has started or is about to start. -/
structure Joining (s : State) (i t0 : Nat) (call : Call) : Prop where
  ready : Ready s i call
  issuer : call.issuer = some t0
  known : ∀ old, s.calls i = some old → old.issuer = some t0
  other : s.busy ≠ some i
  kind : call.kind ≠ .transaction
  opened : call.opened = false

variable {t0 : Nat} {old : Call}

theorem Joining.unsuccessful (joining : Joining s i t0 call) (h : Inv s) (found : s.calls i = some old) :
    ¬Succeeded old := by
  have ok := h.calls.calls i old found
  unfold CallOk at ok
  rw [joining.known old found] at ok
  rintro ⟨kind | opened, _⟩
  · exact ok.kind kind
  · exact absurd (ok.opened.symm.trans opened) Bool.false_ne_true

theorem Inv.joinSettle (h : Inv s) (joining : Joining s i t0 call) (ok : Bool) : Inv (s.settle i call ok) := by
  refine h.settle joining.ready ⟨?_, ?_⟩ s.transactionOpen ?_
  · rintro ⟨kind | opened, _⟩
    · exact absurd kind joining.kind
    · exact absurd (joining.opened.symm.trans opened) Bool.false_ne_true
  · rintro ⟨old, found, success⟩
    exact absurd success (joining.unsuccessful h found)
  · have issuer : { call with phase := .settled ok, answer := none }.issuer = some t0 := joining.issuer
    exact h.calls.memberStep issuer joining.other joining.known rfl (if_neg joining.other)
      ⟨joining.kind, joining.opened, .inr rfl, .inl (.inl rfl)⟩ rfl rfl (fun _ inside => .inl inside)
      fun _ _ _ _ ok => ok.put rfl (fun absurd => nomatch absurd) rfl (.inl rfl)

theorem Inv.joinSubmit (h : Inv s) (joining : Joining s i t0 call) (inside : InCallback s t0) (left : Nat) :
    Inv (s.submit i call (.body left) .statement) := by
  have still : InCallback (s.submit i call (.body left) .statement) t0 := by
    obtain ⟨busy, owner, awaits, found, phase⟩ := inside
    refine ⟨busy, owner, awaits, ?_, phase⟩
    refine (Calls.put_of_ne _ _ ?_).trans found
    rintro rfl
    exact joining.other busy
  refine h.submit joining.ready rfl (fun old found => joining.unsuccessful h found) ?_
  have issuer : { call with phase := .body left, answer := none }.issuer = some t0 := joining.issuer
  refine h.calls.memberStep issuer joining.other joining.known rfl rfl
    ⟨joining.kind, joining.opened, .inl ⟨left, rfl⟩, .inr still⟩ rfl rfl ?_ ?_
  · intro st new
    refine (List.mem_append.mp new).imp_right fun new => ?_
    obtain rfl := List.mem_singleton.mp new
    exact ⟨rfl, inside.1⟩
  · intro b work busy found ok
    obtain ⟨busy', owner, awaits, found', phase⟩ := inside
    cases busy.symm.trans busy'
    cases found.symm.trans found'
    exact ok.put rfl (fun absurd => nomatch absurd) rfl (.inr ⟨awaits, phase⟩)

theorem Inv.joinNext (h : Inv s) (joining : Joining s i t0 call) (left : Nat) (inside : 0 < left → InCallback s t0) :
    Inv (s.nextStatement i call left) := by
  unfold State.nextStatement
  cases left with
  | zero =>
    rw [if_neg (by rw [joining.opened]; exact Bool.false_ne_true)]
    exact h.joinSettle joining true
  | succ left => exact h.joinSubmit joining (inside (Nat.succ_pos left)) left

theorem Inv.idle_sql (h : Inv s) (held : s.calls i = some call) (issuer : call.issuer = none)
    (other : s.busy ≠ some i) : call.phase.sql = none := by
  have ok := h.calls.calls i call held
  unfold CallOk at ok
  rw [issuer] at ok
  rcases ok other with settled | ⟨queued, _⟩
  · cases phase : call.phase with
    | settled _ => rfl
    | queued | begin | body | callback | commit | rollback =>
      rw [phase] at settled
      cases settled
  · rw [queued]
    rfl

variable {awaits : List Nat} {owner : Call}

theorem Inv.inCallback (h : Inv s) (held : s.calls t0 = some owner) (phase : owner.phase = .callback awaits) :
    InCallback s t0 := by
  refine ⟨?_, owner, awaits, held, phase⟩
  have ok := h.calls.calls t0 owner held
  unfold CallOk at ok
  cases issuer : owner.issuer with
  | some t1 =>
    rw [issuer] at ok
    rcases ok.phase with ⟨left, body⟩ | settled
    · cases phase.symm.trans body
    · rw [phase] at settled
      cases settled
  | none =>
    rw [issuer] at ok
    by_contra idle
    rcases ok idle with settled | ⟨queued, _⟩
    · rw [phase] at settled
      cases settled
    · cases phase.symm.trans queued

theorem resume_member (h : Inv s) (held : s.calls i = some call) (issuer : call.issuer = some t0)
    (answered : call.answer = some ok) (hstep : resume s i call ok = some t) : Inv t := by
  have member : Member s t0 call := by
    have ok := h.calls.calls i call held
    unfold CallOk at ok
    rwa [issuer] at ok
  have sql := h.driver.answered i call ok held answered
  have body : ∃ left, call.phase = .body left := by
    refine member.phase.resolve_right fun settled => sql ?_
    cases phase : call.phase with
    | settled _ => rfl
    | queued | begin | body | callback | commit | rollback =>
      rw [phase] at settled
      cases settled
  obtain ⟨left, body⟩ := body
  have joining : Joining s i t0 call := by
    refine ⟨?_, issuer, ?_, ?_, member.kind, member.opened⟩
    · intro old found
      cases held.symm.trans found
      rw [body, answered]
      exact ⟨(fun absurd => nomatch absurd), rfl, .inr (Option.some_ne_none ok), rfl, rfl⟩
    · intro old found
      cases held.symm.trans found
      exact issuer
    · intro busy
      cases issuer.symm.trans (h.running held busy).issuer
  have submitted := member.submitted
  have kind := member.kind
  have opened := member.opened
  obtain ⟨kind', phase, answer, opened', issuer'⟩ := call
  obtain rfl : answer = some ok := answered
  obtain rfl : phase = .body left := body
  obtain rfl : opened' = false := opened
  cases kind' with
  | transaction => exact absurd rfl kind
  | operation statements isAtomic =>
    cases ok with
    | true =>
      cases hstep
      refine h.joinNext joining left fun more => submitted.resolve_left ?_
      rintro (settled | last | ⟨_, _, failed⟩)
      · cases settled
      · cases last
        exact absurd more (Nat.lt_irrefl 0)
      · cases failed
    | false =>
      cases hstep
      exact h.joinSettle joining false

/-! ### The other steps -/

theorem enqueue_inv (h : Inv s) (fresh : s.calls i = none) (kind : Kind) : Inv (s.enqueue i kind) := by
  have absent : ∀ {j : Nat} {c : Call}, s.calls j = some c → j ≠ i := by
    rintro j c held rfl
    cases fresh.symm.trans held
  have keep : ∀ {j : Nat} {c : Call}, s.calls j = some c → (s.enqueue i kind).calls j = some c := by
    intro j c held
    exact (Calls.put_of_ne _ _ (absent held)).trans held
  refine ⟨⟨?_, ?_, ?_, ?_⟩, ?_, ⟨?_, ?_, h.calls.idle, ?_⟩, ?_, ?_⟩
  · intro j
    simp only [State.enqueue, List.mem_append, List.mem_singleton]
    by_cases this : j = i
    · subst this
      exact ⟨fun _ => ⟨_, Calls.put_self .., rfl⟩, fun _ => .inr rfl⟩
    · rw [Calls.put_of_ne _ _ this]
      simp only [this, or_false]
      exact h.queue.queued j
  · refine List.nodup_append.mpr ⟨h.queue.nodup, List.nodup_singleton _, ?_⟩
    intro j inside k new
    obtain rfl := List.mem_singleton.mp new
    obtain ⟨c, held, _⟩ := (h.queue.queued j).mp inside
    exact absent held
  · simp only [State.enqueue, h.queue.order, List.append_assoc]
  · intro j started busy
    obtain ⟨c, held, settled⟩ := settled_iff.mp (h.queue.started j started busy)
    exact settled_iff.mpr ⟨c, keep held, settled⟩
  · refine h.driver.put ?_ rfl rfl rfl rfl
    intro c held
    exact absurd rfl (absent held)
  · intro j c found
    rcases Calls.put_eq_some found with ⟨rfl, rfl⟩ | ⟨other, found⟩
    · exact fun _ => .inr ⟨rfl, rfl⟩
    · have ok := h.calls.calls j c found
      unfold CallOk at ok ⊢
      cases issuer : c.issuer with
      | none =>
        rw [issuer] at ok
        exact ok
      | some t0 =>
        rw [issuer] at ok
        refine ⟨ok.kind, ok.opened, ok.phase, ok.submitted.imp_right ?_⟩
        rintro ⟨busy, c', awaits, found', phase⟩
        exact ⟨busy, c', awaits, keep found', phase⟩
  · intro st inside
    refine (h.calls.owner st inside).imp_right ?_
    rintro ⟨c, t0, found, rest⟩
    exact ⟨c, t0, keep found, rest⟩
  · intro b busy
    obtain ⟨work, found, running⟩ := h.calls.busy b busy
    refine ⟨work, keep found, running.issuer, running.flag, ?_⟩
    have phase := running.phase
    unfold PhaseOk at phase ⊢
    cases at_phase : work.phase with
    | callback awaits =>
      rw [at_phase] at phase
      refine ⟨phase.1, phase.2.1, fun d inside => ⟨(phase.2.2 d inside).1, ?_⟩⟩
      obtain ⟨awaited, found, active⟩ := (phase.2.2 d inside).2
      exact ⟨awaited, keep found, active⟩
    | queued | begin | body | commit | rollback | settled =>
      rw [at_phase] at phase
      exact phase
  · refine log_put h rfl rfl ?_
    intro old held
    cases fresh.symm.trans held
  · refine committed_put h rfl rfl ⟨?_, ?_⟩
    · rintro ⟨_, absurd | ⟨absurd, _⟩⟩ <;> cases absurd
    · rintro ⟨old, held, _⟩
      cases fresh.symm.trans held

theorem operationIn_inv (h : Inv s) (fresh : s.calls i = none) (held : s.calls t0 = some owner)
    (phase : owner.phase = .callback awaits) (statements : Nat) (isAtomic : Bool) :
    Inv (s.operation i { kind := .operation statements isAtomic, phase := .queued, issuer := some t0 }
      statements isAtomic) := by
  have inside := h.inCallback held phase
  have running := h.running held inside.1
  have kind : owner.kind = .transaction := by
    have ok := running.phase
    unfold PhaseOk at ok
    rw [phase] at ok
    exact ok.1
  have up := running.flag.mpr kind
  have joining : Joining s i t0 { kind := .operation statements isAtomic, phase := .queued, issuer := some t0 } := by
    refine ⟨?_, rfl, ?_, ?_, (fun absurd => nomatch absurd), rfl⟩
    · intro old found
      cases fresh.symm.trans found
    · intro old found
      cases fresh.symm.trans found
    · intro busy
      obtain ⟨work, found, _⟩ := h.calls.busy i busy
      cases fresh.symm.trans found
  unfold State.operation
  rw [if_neg (by rw [up]; cases isAtomic <;> exact Bool.false_ne_true)]
  exact h.joinNext joining statements fun _ => inside

theorem await_inv (h : Inv s) {d : Nat} (held : s.calls t0 = some call) (phase : call.phase = .callback awaits)
    {awaited : Call} (known : s.calls d = some awaited) (other : d ≠ t0) (active : awaited.phase ≠ .queued) :
    Inv { s with calls := s.calls.put t0 { call with phase := .callback (d :: awaits) } } := by
  have inside := h.inCallback held phase
  have ok := (h.running held inside.1).phase
  unfold PhaseOk at ok
  rw [phase] at ok
  have answer : call.answer = none := by
    cases answer : call.answer with
    | none => rfl
    | some answered =>
      have sql := h.driver.answered t0 call answered held answer
      rw [phase] at sql
      exact absurd rfl sql
  have more := h.runCallback held inside.1 (.inl (by rw [phase]; rfl))
    (not_succeeded (by rw [phase]; exact fun absurd => nomatch absurd)
      (by rw [phase]; exact fun absurd => nomatch absurd)) ok.1 ok.2.1 (d :: awaits) ?_
  · rw [← answer] at more
    exact more
  · intro e inside
    rcases List.mem_cons.mp inside with rfl | old
    · exact ⟨other, awaited, known, active⟩
    · exact ok.2.2 e old

theorem finish_inv (h : Inv s) (held : s.calls t0 = some call) (phase : call.phase = .callback awaits)
    (members : ∀ i c, s.calls i = some c → c.issuer = some t0 → Submitted c) :
    Inv (s.submit t0 call .commit .commit) ∧ Inv (s.submit t0 call .rollback .rollback) := by
  have inside := h.inCallback held phase
  have ok := (h.running held inside.1).phase
  unfold PhaseOk at ok
  rw [phase] at ok
  have free : call.phase.sql = none ∨ call.answer ≠ none := .inl (by rw [phase]; rfl)
  have unsuccessful : ¬Succeeded call := not_succeeded (by rw [phase]; exact fun absurd => nomatch absurd)
    (by rw [phase]; exact fun absurd => nomatch absurd)
  constructor
  · exact h.submitBusy held inside.1 free unsuccessful rfl
      ⟨.inl ok.1, .inr ⟨s.driver, .commit, rfl⟩, ok.2.1⟩ fun _ => members
  · exact h.rollBack held inside.1 free unsuccessful (.inl ok.1) (.inl ok.2.1) fun _ => members

/-! ### The start of a work -/

theorem Inv.idle_driver (h : Inv s) (idle : s.busy = none) : s.driver = [] := by
  refine List.eq_nil_iff_forall_not_mem.mpr fun st inside => ?_
  rcases h.calls.owner st inside with mine | ⟨_, _, _, _, of⟩
  · cases idle.symm.trans mine
  · cases idle.symm.trans of

variable {rest : List Nat}

theorem start_queue (h : Inv s) (idle : s.busy = none) (queue : s.operationQueue = i :: rest)
    (active : call.phase ≠ .queued) (calls : t.calls = s.calls.put i call) (after : t.operationQueue = rest)
    (enqueued : t.enqueued = s.enqueued) (started : t.started = s.started ++ [i])
    (busy : t.busy = some i ∨ call.phase.isSettled = true) : QueueOk t := by
  have nodup := h.queue.nodup
  rw [queue, List.nodup_cons] at nodup
  refine ⟨?_, after ▸ nodup.2, ?_, ?_⟩
  · intro j
    rw [after, calls]
    by_cases this : j = i
    · subst this
      refine ⟨fun inside => absurd inside nodup.1, ?_⟩
      rintro ⟨c, found, queued⟩
      rw [Calls.put_self] at found
      cases found
      exact absurd queued active
    · rw [Calls.put_of_ne _ _ this, ← h.queue.queued j, queue, List.mem_cons]
      simp only [this, false_or]
  · rw [enqueued, started, after, h.queue.order, queue, List.append_assoc]
    rfl
  · intro j inside other
    rw [started] at inside
    have mine : call.phase.isSettled = true → t.settled i = true := fun settled =>
      settled_iff.mpr ⟨call, by rw [calls, Calls.put_self], settled⟩
    by_cases this : j = i
    · subst this
      exact mine (busy.resolve_left other)
    · refine settled_put calls (h.queue.started j ?_ ?_) fun same => absurd same this
      · refine (List.mem_append.mp inside).resolve_right fun new => ?_
        exact this (List.mem_singleton.mp new)
      · rw [idle]
        exact Option.some_ne_none j |>.symm

theorem start_others (h : Inv s) (idle : s.busy = none) {j : Nat} {c : Call}
    (found : s.calls j = some c) : CallOk t j c := by
  have ok := h.calls.calls j c found
  unfold CallOk at ok ⊢
  cases issuer : c.issuer with
  | none =>
    rw [issuer] at ok
    exact fun _ => ok (by rw [idle]; exact (Option.some_ne_none j).symm)
  | some t0 =>
    rw [issuer] at ok
    refine ⟨ok.kind, ok.opened, ok.phase, .inl (ok.submitted.resolve_right ?_)⟩
    rintro ⟨absurd, _⟩
    cases idle.symm.trans absurd

theorem start_submit (h : Inv s) (idle : s.busy = none) (queue : s.operationQueue = i :: rest)
    (held : s.calls i = some old) (queued : old.phase = .queued) (has : phase.sql = some sql) (flag : Bool)
    (flagOk : flag = true ↔ call.kind = .transaction) (issuer : call.issuer = none)
    (phaseOk : Only ({ s.take i rest with transactionOpen := flag }.submit i call phase sql) i →
      PhaseOk ({ s.take i rest with transactionOpen := flag }.submit i call phase sql) i
        { call with phase, answer := none }) :
    Inv ({ s.take i rest with transactionOpen := flag }.submit i call phase sql) := by
  have nil := h.idle_driver idle
  have active : phase ≠ .queued := by
    rintro rfl
    cases has
  have fresh : ¬Succeeded old := not_succeeded (by rw [queued]; exact fun absurd => nomatch absurd)
    (by rw [queued]; exact fun absurd => nomatch absurd)
  have alone : Only ({ s.take i rest with transactionOpen := flag }.submit i call phase sql) i := by
    intro st inside
    simp only [State.submit, State.take, nil, List.nil_append, List.mem_singleton] at inside
    rw [inside]
  refine ⟨?_, ?_, ⟨?_, ?_, ?_, ?_⟩, ?_, ?_⟩
  · exact start_queue h idle queue active rfl rfl rfl rfl (.inl rfl)
  · refine h.driver.submit ?_ rfl rfl has rfl
    intro c found
    cases held.symm.trans found
    exact .inl (by rw [queued]; rfl)
  · intro j c found
    rcases Calls.put_eq_some found with ⟨rfl, rfl⟩ | ⟨other, found⟩
    · unfold CallOk
      simp only [issuer]
      exact fun absurd => (absurd rfl).elim
    · exact start_others h idle found
  · exact fun st inside => .inl (congrArg some (alone st inside).symm)
  · intro absurd
    cases absurd
  · intro b busy
    cases busy
    exact ⟨_, Calls.put_self .., issuer, flagOk, phaseOk alone⟩
  · refine log_put h rfl rfl fun c found waiting => ?_
    cases held.symm.trans found
    exact absurd queued waiting
  · refine committed_put h rfl rfl ⟨?_, ?_⟩
    · rintro ⟨_, rfl | ⟨_, absurd⟩⟩
      · cases has
      · cases absurd
    · rintro ⟨c, found, success⟩
      cases held.symm.trans found
      exact absurd success fresh

theorem start_settle (h : Inv s) (idle : s.busy = none) (queue : s.operationQueue = i :: rest)
    (held : s.calls i = some call) (queued : call.phase = .queued) (kind : call.kind ≠ .transaction) :
    Inv ((s.take i rest).settle i call true) := by
  obtain ⟨issuer, opened, _⟩ := h.calls.queued held queued
  have nil := h.idle_driver idle
  refine ⟨?_, ?_, ⟨?_, ?_, ?_, ?_⟩, ?_, ?_⟩
  · refine start_queue h idle queue ?_ rfl rfl rfl rfl (.inr rfl)
    exact fun absurd => nomatch absurd
  · refine h.driver.put ?_ rfl rfl rfl rfl
    intro c found
    cases held.symm.trans found
    exact .inl (by rw [queued]; rfl)
  · intro j c found
    rcases Calls.put_eq_some found with ⟨rfl, rfl⟩ | ⟨other, found⟩
    · unfold CallOk
      simp only [issuer]
      exact fun _ => .inl rfl
    · exact start_others h idle found
  · intro st inside
    simp only [State.settle, State.take, nil, List.not_mem_nil] at inside
  · exact fun _ => h.calls.idle idle
  · intro b busy
    simp only [State.settle, State.take, if_true] at busy
    cases busy
  · refine log_put h rfl rfl fun c found waiting => ?_
    cases held.symm.trans found
    exact absurd queued waiting
  · refine committed_put h rfl rfl ⟨?_, ?_⟩
    · rintro ⟨own | own, _⟩
      · exact absurd own kind
      · exact absurd (opened.symm.trans own) Bool.false_ne_true
    · rintro ⟨c, found, _, success⟩
      cases held.symm.trans found
      rw [queued] at success
      rcases success with absurd | ⟨absurd, _⟩ <;> cases absurd

theorem dequeue_inv (h : Inv s) (hstep : dequeue s = some t) : Inv t := by
  unfold dequeue at hstep
  split at hstep
  · rename_i i rest idle queue
    obtain ⟨closed, down⟩ := h.calls.idle idle
    obtain ⟨call, held, queued⟩ := (h.queue.queued i).mp (queue ▸ List.mem_cons_self)
    obtain ⟨issuer, opened, _⟩ := h.calls.queued held queued
    have notTransaction : ∀ {n : Nat} {isAtomic : Bool}, call.kind = .operation n isAtomic →
        call.kind ≠ .transaction := by
      intro n isAtomic kind
      rw [kind]
      exact fun absurd => nomatch absurd
    simp only [held] at hstep
    split at hstep
    · rename_i statements isAtomic kind
      have flagOk : s.transactionOpen = true ↔ call.kind = .transaction :=
        ⟨fun up => absurd (down.symm.trans up) Bool.false_ne_true, fun own =>
          absurd own (notTransaction kind)⟩
      cases hstep
      unfold State.operation
      split_ifs with opens
      · exact start_submit h idle queue held queued rfl s.transactionOpen flagOk issuer
          fun only => ⟨.inr rfl, only, closed⟩
      · unfold State.nextStatement
        cases statements with
        | succ left =>
          refine start_submit h idle queue held queued rfl s.transactionOpen flagOk issuer
            fun only => ⟨notTransaction kind, only, ?_⟩
          simp only [opened]
          exact closed
        | zero =>
          rw [if_neg (by rw [opened]; exact Bool.false_ne_true)]
          exact start_settle h idle queue held queued (notTransaction kind)
    · rename_i kind
      cases hstep
      unfold State.transaction
      rw [if_neg (by rw [State.take, down]; exact Bool.false_ne_true)]
      exact start_submit h idle queue held queued rfl true ⟨fun _ => kind, fun _ => rfl⟩ issuer
        fun only => ⟨.inl kind, only, closed⟩
  · cases hstep

/-! ### The driver executes a statement -/

section Execute
variable {st : Statement} {rest : List Statement} {call : Call}

theorem rest_nil (d : DriverOk s) (before : s.driver = st :: rest) (last : Last s st.call) : rest = [] := by
  have single := d.single
  rcases last with nil | ⟨ws, sql, same⟩
  · cases before.symm.trans nil
  · rw [same] at single before
    cases ws with
    | nil => exact (List.cons.inj before).2.symm
    | cons first ws =>
      cases before
      rw [List.cons_append, List.map_cons, List.nodup_cons] at single
      refine absurd ?_ single.1
      rw [List.map_append]
      exact List.mem_append_right _ (List.mem_singleton.mpr rfl)

variable {b : Nat} {work : Call}

theorem open_for_member (h : Inv s) (before : s.driver = st :: rest) (found : s.calls b = some work)
    (ok : PhaseOk s b work) (other : st.call ≠ b) : s.dbOpen = some b := by
  have unanswered : Last s b → work.answer = none := by
    rintro (nil | ⟨ws, sql, same⟩)
    · cases before.symm.trans nil
    · obtain ⟨c, found', _, answer⟩ := h.driver.statements ⟨b, sql⟩
        (same ▸ List.mem_append_right _ (List.mem_singleton.mpr rfl))
      cases found.symm.trans found'
      exact answer
  have notOnly : ¬Only s b := fun only => other (only st (before ▸ List.mem_cons_self))
  unfold PhaseOk at ok
  cases phase : work.phase with
  | queued | settled =>
    rw [phase] at ok
    exact ok.elim
  | begin =>
    rw [phase] at ok
    exact absurd ok.2.1 notOnly
  | body left =>
    rw [phase] at ok
    exact absurd ok.2.1 notOnly
  | callback awaits =>
    rw [phase] at ok
    exact ok.2.1
  | commit =>
    rw [phase] at ok
    rw [ok.2.2, unanswered ok.2.1]
    rfl
  | rollback =>
    rw [phase] at ok
    exact (ok.2.2.2 (unanswered ok.2.1)).resolve_right fun closed => notOnly closed.2

theorem PhaseOk.executed (ok : PhaseOk s b work) (before : s.driver = st :: rest) (other : st.call ≠ b)
    (after : t.driver = rest) (db : t.dbOpen = s.dbOpen) {call : Call} (calls : t.calls = s.calls.put st.call call)
    (active : call.phase ≠ .queued) : PhaseOk t b work := by
  have notOnly : ¬Only s b := fun only => other (only st (before ▸ List.mem_cons_self))
  have last : Last s b → Last t b := by
    rintro (nil | ⟨ws, sql, same⟩)
    · cases before.symm.trans nil
    · cases ws with
      | nil =>
        have head := (List.cons.inj (before.symm.trans same)).1
        exact absurd (congrArg Statement.call head) other
      | cons first ws => exact .inr ⟨ws, sql, after.trans (List.cons.inj (before.symm.trans same)).2⟩
  unfold PhaseOk at ok ⊢
  cases phase : work.phase with
  | queued | settled =>
    rw [phase] at ok
    exact ok.elim
  | begin =>
    rw [phase] at ok
    exact absurd ok.2.1 notOnly
  | body left =>
    rw [phase] at ok
    exact absurd ok.2.1 notOnly
  | callback awaits =>
    rw [phase] at ok
    refine ⟨ok.1, db.trans ok.2.1, fun d inside => ⟨(ok.2.2 d inside).1, ?_⟩⟩
    exact kept_put calls active (ok.2.2 d inside).2
  | commit =>
    rw [phase] at ok
    exact ⟨ok.1, last ok.2.1, db.trans ok.2.2⟩
  | rollback =>
    rw [phase] at ok
    rw [db]
    exact ⟨ok.1, last ok.2.1, ok.2.2.1, fun answer => (ok.2.2.2 answer).imp_right fun closed =>
      absurd closed.2 notOnly⟩

def Performed (s : State) (st : Statement) (fails : Bool) (db : Option Nat) (log : List Entry)
    (committed : List Nat) (ok : Bool) : Prop :=
  match st.sql with
  | .begin =>
    log = s.log ∧ committed = s.committed ∧
      (ok = true → s.dbOpen = none ∧ db = some st.call) ∧ (ok = false → db = s.dbOpen)
  | .statement => db = s.dbOpen ∧ committed = s.committed ∧ log = s.log ++ [⟨st.call, s.dbOpen, ok⟩]
  | .commit =>
    log = s.log ∧ (ok = true → ∃ owner, s.dbOpen = some owner ∧ db = none ∧ committed = owner :: s.committed) ∧
      (ok = false → db = s.dbOpen ∧ committed = s.committed)
  | .rollback =>
    log = s.log ∧ committed = s.committed ∧ (ok = true → db = none) ∧
      (ok = false → db = s.dbOpen ∧ (s.dbOpen.isSome → fails = true))

theorem perform_spec (s : State) (st : Statement) (fails : Bool) :
    ∃ db log committed ok, perform s st fails = ({ s with dbOpen := db, log, committed }, ok) ∧
      Performed s st fails db log committed ok := by
  obtain ⟨i, sql⟩ := st
  obtain db | ⟨owner, db⟩ := Option.eq_none_or_eq_some s.dbOpen
  · cases sql <;> cases fails <;>
      exact ⟨_, _, _, _, by simp only [perform, db]; rfl, by simp [Performed, db]⟩
  · cases sql <;> cases fails <;>
      exact ⟨_, _, _, _, by simp only [perform, db]; rfl, by simp [Performed, db]⟩

theorem log_executed (h : Inv s) {ok : Bool} (held : s.calls st.call = some call)
    (active : call.phase ≠ .queued) (calls : t.calls = s.calls.put st.call { call with answer := some ok })
    (log : t.log = s.log ∨ t.log = s.log ++ [⟨st.call, place st.call call, ok⟩]) :
    ∀ e ∈ t.log, ∃ call, t.calls e.call = some call ∧ call.phase ≠ .queued ∧ e.inside = place e.call call := by
  have old : ∀ e ∈ s.log, ∃ call, t.calls e.call = some call ∧ call.phase ≠ .queued ∧
      e.inside = place e.call call := by
    refine fun e mem => log_put (t := { t with log := s.log }) h calls rfl ?_ e mem
    intro old found _
    cases held.symm.trans found
    exact ⟨active, rfl, rfl⟩
  rcases log with same | same
  · rw [same]
    exact old
  · intro e mem
    rw [same] at mem
    rcases List.mem_append.mp mem with mem | new
    · exact old e mem
    · obtain rfl := List.mem_singleton.mp new
      exact ⟨{ call with answer := some ok }, by rw [calls, Calls.put_self], active, rfl⟩

/-- The commits after a statement: `won` says that a commit has just been executed. -/
theorem committed_executed (h : Inv s) {ok : Bool} (held : s.calls st.call = some call) (answer : call.answer = none)
    (calls : t.calls = s.calls.put st.call { call with answer := some ok })
    (committed : ¬Succeeded { call with answer := some ok } ∧ t.committed = s.committed ∨
      Succeeded { call with answer := some ok } ∧ t.committed = st.call :: s.committed) (j : Nat) :
    j ∈ t.committed ↔ ∃ call, t.calls j = some call ∧ Succeeded call := by
  have before : ¬Succeeded call → st.call ∉ s.committed := by
    intro unsuccessful mem
    obtain ⟨c, found, success⟩ := (h.committed st.call).mp mem
    cases held.symm.trans found
    exact unsuccessful success
  rcases committed with ⟨lost, same⟩ | ⟨won, same⟩
  · refine committed_put h calls same ⟨fun success => absurd success lost, ?_⟩ j
    rintro ⟨old, found, owns, success⟩
    cases held.symm.trans found
    rcases success with settled | ⟨_, answered⟩
    · exact ⟨owns, .inl settled⟩
    · cases answer.symm.trans answered
  · rw [same, calls, List.mem_cons]
    by_cases this : j = st.call
    · subst this
      exact ⟨fun _ => ⟨_, Calls.put_self .., won⟩, fun _ => .inl rfl⟩
    · rw [Calls.put_of_ne _ _ this, h.committed j]
      simp only [this, false_or]

structure Executed (s t : State) (st : Statement) (rest : List Statement) (call : Call) (ok : Bool) : Prop where
  before : s.driver = st :: rest
  held : s.calls st.call = some call
  sql : call.phase.sql = some st.sql
  answer : call.answer = none
  calls : t.calls = s.calls.put st.call { call with answer := some ok }
  after : t.driver = rest
  busy : t.busy = s.busy
  flag : t.transactionOpen = s.transactionOpen
  queue : t.operationQueue = s.operationQueue
  enqueued : t.enqueued = s.enqueued
  started : t.started = s.started

theorem execute_spec (h : Inv s) {fails : Bool} (hstep : execute s fails = some t) :
    ∃ st rest call ok, Executed s t st rest call ok ∧
      Performed s st fails t.dbOpen t.log t.committed ok := by
  unfold execute at hstep
  split at hstep
  · cases hstep
  · rename_i st rest before
    obtain ⟨call, held, sql, answer⟩ := h.driver.statements st (before ▸ List.mem_cons_self)
    obtain ⟨db, log, committed, ok, result, performed⟩ := perform_spec s st fails
    simp only [held, result] at hstep
    cases hstep
    exact ⟨st, rest, call, ok, ⟨before, held, sql, answer, rfl, rfl, rfl, rfl, rfl, rfl, rfl⟩, performed⟩

section
variable {ok : Bool}

theorem Executed.active (e : Executed s t st rest call ok) : call.phase ≠ .queued := by
  intro queued
  have sql := e.sql
  rw [queued] at sql
  cases sql

theorem Executed.unsettled (e : Executed s t st rest call ok) : call.phase.isSettled = false := by
  have sql := e.sql
  cases phase : call.phase with
  | settled ok =>
    rw [phase] at sql
    cases sql
  | queued | begin | body | callback | commit | rollback => rfl

theorem Executed.queueOk (e : Executed s t st rest call ok) (h : Inv s) : QueueOk t := by
  have active : { call with answer := some ok }.phase ≠ .queued := e.active
  refine h.queue.put ?_ active e.calls e.queue e.enqueued e.started (.inl ⟨e.busy, ?_⟩)
  · intro waiting
    obtain ⟨c, found, queued⟩ := (h.queue.queued st.call).mp waiting
    cases e.held.symm.trans found
    exact e.active queued
  · by_cases busy : s.busy = some st.call
    · exact .inl busy
    · refine .inr (.inr fun started => ?_)
      obtain ⟨c, found, settled⟩ := settled_iff.mp (h.queue.started st.call started busy)
      cases e.held.symm.trans found
      exact absurd (e.unsettled.symm.trans settled) Bool.false_ne_true

theorem Executed.inv_busy (e : Executed s t st rest call ok) (h : Inv s)
    (busy : s.busy = some st.call) (phase : PhaseOk t st.call { call with answer := some ok })
    (log : t.log = s.log ∨ t.log = s.log ++ [⟨st.call, place st.call call, ok⟩])
    (committed : ¬Succeeded { call with answer := some ok } ∧ t.committed = s.committed ∨
      Succeeded { call with answer := some ok } ∧ t.committed = st.call :: s.committed) : Inv t := by
  have running := h.running e.held busy
  refine ⟨e.queueOk h, h.driver.execute e.before e.held e.calls e.after, ?_,
    log_executed h e.held e.active e.calls log, committed_executed h e.held e.answer e.calls committed⟩
  refine h.calls.busyStep busy e.held e.calls (e.busy.trans busy) ?_ ⟨running.issuer, e.flag ▸ running.flag, phase⟩ ?_
  · intro later mem
    rw [e.after] at mem
    exact .inl (e.before ▸ List.mem_cons_of_mem st mem)
  · rintro ⟨_, c, awaits, found, at_callback⟩
    cases e.held.symm.trans found
    have sql := e.sql
    rw [at_callback] at sql
    cases sql

variable {fails : Bool}

theorem execute_busy (e : Executed s t st rest call ok) (h : Inv s)
    (performed : Performed s st fails t.dbOpen t.log t.committed ok)
    (permitted : st.sql = .rollback → s.dbOpen.isSome → fails = false) (busy : s.busy = some st.call) : Inv t := by
  have phaseOk := (h.running e.held busy).phase
  have noIssuer := (h.running e.held busy).issuer
  have only : Only s st.call → Only t st.call := by
    intro only later mem
    rw [e.after] at mem
    exact only later (e.before ▸ List.mem_cons_of_mem st mem)
  have last : Last s st.call → Last t st.call := fun last =>
    .inl (e.after.trans (rest_nil h.driver e.before last))
  have go := e.inv_busy h busy
  have sql := e.sql
  have unanswered := e.answer
  obtain ⟨i, text⟩ := st
  obtain ⟨kind, phase, answer, opened, issuer⟩ := call
  obtain rfl : answer = none := unanswered
  obtain rfl : issuer = none := noIssuer
  cases phase with
  | queued | settled => exact phaseOk.elim
  | callback awaits => cases sql
  | begin =>
    cases sql
    obtain ⟨owns, alone, db⟩ := phaseOk
    obtain ⟨log, committed, opens, stays⟩ := performed
    refine go ⟨owns, only alone, ?_⟩ (.inl log) (.inl ⟨not_succeeded (fun absurd => nomatch absurd)
      (fun absurd => nomatch absurd), committed⟩)
    cases ok with
    | true => exact (opens rfl).2
    | false => exact (stays rfl).trans db
  | body left =>
    cases sql
    obtain ⟨notTransaction, alone, db⟩ := phaseOk
    obtain ⟨same, committed, log⟩ := performed
    rw [db] at log
    exact go ⟨notTransaction, only alone, same.trans db⟩ (.inr log)
      (.inl ⟨not_succeeded (fun absurd => nomatch absurd) (fun absurd => nomatch absurd), committed⟩)
  | commit =>
    cases sql
    obtain ⟨owns, end', db⟩ := phaseOk
    obtain ⟨log, commits, stays⟩ := performed
    cases ok with
    | true =>
      obtain ⟨owner, opened', closed, committed⟩ := commits rfl
      obtain rfl : owner = i := Option.some.inj (opened'.symm.trans db)
      exact go ⟨owns, last end', closed⟩ (.inl log) (.inr ⟨⟨owns, .inr ⟨rfl, rfl⟩⟩, committed⟩)
    | false =>
      obtain ⟨same, committed⟩ := stays rfl
      exact go ⟨owns, last end', same.trans db⟩ (.inl log) (.inl ⟨not_succeeded
        (fun absurd => nomatch absurd) (fun _ absurd => nomatch absurd), committed⟩)
  | rollback =>
    cases sql
    obtain ⟨owns, end', _, _⟩ := phaseOk
    obtain ⟨log, committed, closes, stays⟩ := performed
    refine go ⟨owns, last end', fun _ => ?_, fun absurd => nomatch absurd⟩ (.inl log)
      (.inl ⟨not_succeeded (fun absurd => nomatch absurd) (fun absurd => nomatch absurd), committed⟩)
    cases ok with
    | true => exact closes rfl
    | false =>
      obtain ⟨same, failed⟩ := stays rfl
      obtain db | ⟨owner, db⟩ := Option.eq_none_or_eq_some s.dbOpen
      · exact same.trans db
      · have isOpen : s.dbOpen.isSome := by rw [db]; rfl
        exact absurd ((permitted rfl isOpen).symm.trans (failed isOpen)) Bool.false_ne_true

theorem execute_member (e : Executed s t st rest call ok) (h : Inv s)
    (performed : Performed s st fails t.dbOpen t.log t.committed ok) {b : Nat} (issuer : call.issuer = some b)
    (busy : s.busy = some b) : Inv t := by
  have member : Member s b call := by
    have ok := h.calls.calls st.call call e.held
    unfold CallOk at ok
    rwa [issuer] at ok
  obtain ⟨work, found, running⟩ := h.calls.busy b busy
  have other : st.call ≠ b := by
    intro same
    rw [← same] at found
    cases e.held.symm.trans found
    cases issuer.symm.trans running.issuer
  have isOpen := open_for_member h e.before found running.phase other
  have body : ∃ left, call.phase = .body left := by
    refine member.phase.resolve_right fun settled => ?_
    exact absurd (e.unsettled.symm.trans settled) Bool.false_ne_true
  obtain ⟨left, body⟩ := body
  have sql := e.sql
  rw [body] at sql
  unfold Performed at performed
  rw [← Option.some.inj sql] at performed
  obtain ⟨same, committed, log⟩ := performed
  have placed : s.dbOpen = place st.call call := by
    rw [isOpen, place, issuer]
  refine ⟨e.queueOk h, h.driver.execute e.before e.held e.calls e.after, ?_,
    log_executed h e.held e.active e.calls (.inr (placed ▸ log)),
    committed_executed h e.held e.answer e.calls (.inl ⟨?_, committed⟩)⟩
  · have issuer' : { call with answer := some ok }.issuer = some b := issuer
    have known : ∀ c, s.calls st.call = some c → c.issuer = some b := by
      intro c held
      cases e.held.symm.trans held
      exact issuer
    have notBusy : s.busy ≠ some st.call := by
      rw [busy]
      exact fun this => other (Option.some.inj this).symm
    refine h.calls.memberStep issuer' notBusy known e.calls e.busy
      ⟨member.kind, member.opened, .inl ⟨left, body⟩, ?_⟩ same e.flag ?_ ?_
    · rcases member.submitted with (settled | last | ⟨_, _, failed⟩) | ⟨_, owner, awaits, held, phase⟩
      · exact .inl (.inl settled)
      · exact .inl (.inr (.inl last))
      · cases e.answer.symm.trans failed
      · refine .inr ⟨e.busy.trans busy, owner, awaits, ?_, phase⟩
        rw [e.calls, Calls.put_of_ne _ _ other.symm]
        exact held
    · intro later mem
      rw [e.after] at mem
      exact .inl (e.before ▸ List.mem_cons_of_mem st mem)
    · intro b' work' busy' _ ok'
      cases busy.symm.trans busy'
      exact ok'.executed e.before other e.after same e.calls e.active
  · rintro ⟨kind | opened, _⟩
    · exact member.kind kind
    · exact absurd (member.opened.symm.trans opened) Bool.false_ne_true

theorem execute_inv (h : Inv s)
    (permitted : ∀ st, s.driver.head? = some st → st.sql = .rollback → s.dbOpen.isSome → fails = false)
    (hstep : execute s fails = some t) : Inv t := by
  obtain ⟨st, rest, call, ok, e, performed⟩ := execute_spec h hstep
  have permitted := permitted st (by rw [e.before]; rfl)
  rcases h.calls.owner st (e.before ▸ List.mem_cons_self) with busy | ⟨c, b, found, issuer, busy⟩
  · exact execute_busy e h performed permitted busy
  · cases e.held.symm.trans found
    exact execute_member e h performed issuer busy

end

end Execute

end Steps

end AppStore
