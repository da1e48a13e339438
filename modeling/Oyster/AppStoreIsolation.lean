import Oyster.AppStoreSteps

/-! Transactions of the application store are isolated: every permitted step keeps the
invariant, and the invariant gives the law. Without the condition it fails: a callback
that awaits a nested transaction waits forever, and an operation that outlives its
callback is executed outside of the transaction. -/
namespace AppStore
open Interleaving

section Steps
variable {s t : State}

theorem step_inv (h : Inv s) (a : Action) (permitted : Permitted s a) (hstep : step s a = some t) :
    Inv t := by
  cases a with
  | operation i statements isAtomic =>
    simp only [step] at hstep
    split at hstep
    · rename_i fresh
      cases hstep
      exact enqueue_inv h (Option.isNone_iff_eq_none.mp fresh) _
    · cases hstep
  | transaction i =>
    simp only [step] at hstep
    split at hstep
    · rename_i fresh
      cases hstep
      exact enqueue_inv h (Option.isNone_iff_eq_none.mp fresh) _
    · cases hstep
  | operationIn t0 i statements isAtomic =>
    simp only [step] at hstep
    split at hstep
    · rename_i owner held
      split at hstep
      · rename_i guard
        simp only [Bool.and_eq_true, Option.isNone_iff_eq_none] at guard
        obtain ⟨awaits, phase⟩ := permitted owner held
        simp only [phase] at hstep
        cases hstep
        exact operationIn_inv h guard.1.1 held phase statements isAtomic
      · cases hstep
    · cases hstep
  | dequeue => exact dequeue_inv h hstep
  | execute fails => exact execute_inv h permitted hstep
  | resume i =>
    simp only [step] at hstep
    split at hstep
    · rename_i call held
      split at hstep
      · rename_i ok answered
        by_cases busy : s.busy = some i
        · exact resume_busy h held busy answered hstep
        · cases issuer : call.issuer with
          | some t0 => exact resume_member h held issuer answered hstep
          | none => exact absurd (h.idle_sql held issuer busy) (h.driver.answered i call ok held answered)
      · cases hstep
    · cases hstep
  | await t0 d =>
    simp only [step] at hstep
    split at hstep
    · rename_i call held
      split at hstep
      · rename_i awaits phase
        split at hstep
        · rename_i known
          obtain ⟨awaited, known⟩ := Option.isSome_iff_exists.mp known
          cases hstep
          exact await_inv h held phase known permitted.1 (permitted.2 awaited known)
        · cases hstep
      · cases hstep
    · cases hstep
  | finish t0 ok =>
    simp only [step] at hstep
    split at hstep
    · rename_i call held
      split at hstep
      · rename_i awaits phase
        obtain ⟨commits, rollsBack⟩ := finish_inv h held phase permitted
        split at hstep
        · split at hstep
          · cases hstep
            exact commits
          · cases hstep
            exact rollsBack
        · cases hstep
      · cases hstep
    · cases hstep

theorem inv_init : Inv {} := by
  refine ⟨⟨?_, List.nodup_nil, rfl, ?_⟩, ⟨?_, List.nodup_nil, ?_, ?_⟩, ⟨?_, ?_, ?_, ?_⟩, ?_, ?_⟩
  · intro i
    simp
  · exact fun _ absurd => nomatch absurd
  · exact fun _ absurd => nomatch absurd
  · exact fun _ _ _ absurd => nomatch absurd
  · exact fun _ _ _ absurd => nomatch absurd
  · exact fun _ _ absurd => nomatch absurd
  · exact fun _ absurd => nomatch absurd
  · exact fun _ => ⟨rfl, rfl⟩
  · exact fun _ absurd => nomatch absurd
  · exact fun _ absurd => nomatch absurd
  · intro i
    simp

variable {ok : Bool}

theorem Inv.atomic (h : Inv s) {t : Nat} {owner : Call} (held : s.calls t = some owner)
    (owns : owner.kind = .transaction ∨ owner.opened = true) (settled : owner.phase = .settled ok) {e : Entry}
    (inside : e.inside = some t) : Durable s e ↔ ok = true := by
  have durable : Durable s e ↔ t ∈ s.committed := by
    unfold Durable
    rw [inside]
    exact ⟨fun all => all t rfl, fun mem t' same => Option.some.inj same ▸ mem⟩
  rw [durable, h.committed t]
  constructor
  · rintro ⟨same, found, _, success | ⟨absurd, _⟩⟩
    · cases held.symm.trans found
      exact Phase.settled.inj (settled.symm.trans success)
    · cases held.symm.trans found
      cases settled.symm.trans absurd
  · rintro rfl
    exact ⟨owner, held, owns, .inl settled⟩

variable {i : Nat} {call : Call}

theorem Quiescent.waiting (h : Inv s) (rest : Quiescent s) (held : s.calls i = some call)
    (unsettled : call.phase.isSettled = false) : call.phase = .queued ∨ ∃ awaits, call.phase = .callback awaits := by
  have silent : ∀ sql, call.phase.sql ≠ some sql := by
    intro sql has
    have inside := h.driver.submitted i call sql held has (rest.answers i call held)
    rw [rest.driver] at inside
    cases inside
  cases phase : call.phase with
  | queued => exact .inl rfl
  | callback awaits => exact .inr ⟨awaits, rfl⟩
  | settled ok =>
    rw [phase] at unsettled
    cases unsettled
  | begin | body | commit | rollback =>
    rw [phase] at silent
    exact absurd rfl (silent _)

theorem Quiescent.no_callback (h : Inv s) (rest : Quiescent s) {b : Nat} (held : s.calls b = some call)
    {awaits : List Nat} (phase : call.phase = .callback awaits) : False := by
  have busy := (h.inCallback held phase).1
  have ok := (h.running held busy).phase
  unfold PhaseOk at ok
  rw [phase] at ok
  obtain ⟨d, mem, unsettled⟩ := rest.callbacks b call awaits held phase
  obtain ⟨other, awaited, found, active⟩ := ok.2.2 d mem
  have waiting : awaited.phase.isSettled = false := by
    simpa only [State.settled, found, Option.any_some] using unsettled
  rcases rest.waiting h found waiting with queued | ⟨awaits', phase'⟩
  · exact active queued
  · have busy' := (h.inCallback found phase').1
    exact other (Option.some.inj (busy'.symm.trans busy))

theorem Inv.live (h : Inv s) (rest : Quiescent s) (held : s.calls i = some call) : s.settled i = true := by
  rw [settled_iff]
  refine ⟨call, held, ?_⟩
  by_contra unsettled
  rw [Bool.not_eq_true] at unsettled
  rcases rest.waiting h held unsettled with queued | ⟨awaits, phase⟩
  · have waiting := (h.queue.queued i).mpr ⟨call, held, queued⟩
    obtain idle | ⟨b, busy⟩ := Option.eq_none_or_eq_some s.busy
    · rw [rest.queue idle] at waiting
      cases waiting
    · obtain ⟨work, found, running⟩ := h.calls.busy b busy
      rcases rest.waiting h found running.not_settled with absurd | ⟨awaits, phase⟩
      · exact running.not_queued absurd
      · exact rest.no_callback h found phase
  · exact rest.no_callback h held phase

theorem nextStatement_progress (i : Nat) (call : Call) (left : Nat) :
    ∃ next, (s.nextStatement i call left).calls = s.calls.put i next ∧
      next.remaining < 2 * left + 5 := by
  unfold State.nextStatement
  cases left with
  | succ left =>
    refine ⟨{ call with phase := .body left, answer := none }, rfl, ?_⟩
    simp only [Call.remaining, Option.isSome_none, Bool.false_eq_true, if_false]
    omega
  | zero =>
    simp only
    split_ifs with opened
    · exact ⟨{ call with phase := .commit, answer := none }, rfl, by simp [Call.remaining]⟩
    · exact ⟨{ call with phase := .settled true, answer := none }, rfl, by simp [Call.remaining]⟩

theorem resume_progress (answered : call.answer = some ok) (hstep : resume s i call ok = some t) :
    ∃ next, t.calls = s.calls.put i next ∧ next.remaining < call.remaining := by
  have done : ∀ {flag : Bool} {result : Bool}, 0 < call.remaining →
      some ({ s with transactionOpen := flag }.settle i call result) = some t →
      ∃ next, t.calls = s.calls.put i next ∧ next.remaining < call.remaining := by
    intro flag result more same
    cases same
    exact ⟨_, rfl, more⟩
  have back : 2 < call.remaining → some (s.submit i call .rollback .rollback) = some t →
      ∃ next, t.calls = s.calls.put i next ∧ next.remaining < call.remaining := by
    intro more same
    cases same
    exact ⟨_, rfl, more⟩
  have next : ∀ {left : Nat}, 2 * left + 5 ≤ call.remaining → some (s.nextStatement i call left) = some t →
      ∃ next, t.calls = s.calls.put i next ∧ next.remaining < call.remaining := by
    intro left more same
    cases same
    obtain ⟨next, calls, less⟩ := nextStatement_progress i call left
    exact ⟨next, calls, Nat.lt_of_lt_of_le less more⟩
  obtain ⟨kind, phase, answer, opened, issuer⟩ := call
  obtain rfl : answer = some ok := answered
  cases phase with
  | queued | callback | settled => cases kind <;> cases hstep
  | begin =>
    cases kind <;> cases ok
    · exact done (by simp [Call.remaining]) hstep
    · exact next (by simp [Call.remaining]) hstep
    · exact back (by simp [Call.remaining]) hstep
    · cases hstep
      exact ⟨_, rfl, by simp [Call.remaining]⟩
  | body left =>
    cases kind <;> cases ok
    · simp only [resume] at hstep
      split_ifs at hstep
      · exact back (by simp [Call.remaining]) hstep
      · exact done (by simp [Call.remaining]) hstep
    · exact next (by simp [Call.remaining]) hstep
    · cases hstep
    · cases hstep
  | commit =>
    cases kind <;> cases ok
    · exact back (by simp [Call.remaining]) hstep
    · exact done (by simp [Call.remaining]) hstep
    · exact back (by simp [Call.remaining]) hstep
    · exact done (by simp [Call.remaining]) hstep
  | rollback => cases kind <;> exact done (by simp [Call.remaining]) hstep

theorem execute_progress (h : Inv s) {fails : Bool} (hstep : execute s fails = some t) :
    Progress s t (.execute fails) := by
  obtain ⟨st, rest, call, ok, e, _⟩ := execute_spec h hstep
  refine ⟨st.call, call, _, e.held, e.calls, ?_⟩
  have sql := e.sql
  have unanswered := e.answer
  obtain ⟨kind, phase, answer, opened, issuer⟩ := call
  obtain rfl : answer = none := unanswered
  cases phase with
  | queued | callback | settled => cases sql
  | begin | body | commit | rollback => cases kind <;> simp [Call.remaining]

theorem dequeue_progress (h : Inv s) (hstep : dequeue s = some t) : Progress s t .dequeue := by
  unfold dequeue at hstep
  split at hstep
  · rename_i i rest idle queue
    obtain ⟨_, down⟩ := h.calls.idle idle
    obtain ⟨call, held, queued⟩ := (h.queue.queued i).mp (queue ▸ List.mem_cons_self)
    simp only [held] at hstep
    refine ⟨i, call, ?_⟩
    obtain ⟨kind, phase, answer, opened, issuer⟩ := call
    obtain rfl : phase = .queued := queued
    cases kind with
    | operation statements isAtomic =>
      cases hstep
      unfold State.operation
      split_ifs
      · exact ⟨_, held, rfl, by simp [Call.remaining]⟩
      · obtain ⟨next, calls, less⟩ := nextStatement_progress (s := s.take i rest) i
          ⟨.operation statements isAtomic, .queued, answer, opened, issuer⟩ statements
        refine ⟨next, held, calls, Nat.lt_of_lt_of_le less ?_⟩
        simp only [Call.remaining]
        omega
    | transaction =>
      cases hstep
      unfold State.transaction
      split_ifs
      · exact ⟨_, held, rfl, by simp [Call.remaining]⟩
      · exact ⟨_, held, rfl, by simp [Call.remaining]⟩
  · cases hstep

theorem step_progress (h : Inv s) (a : Action) (hstep : step s a = some t) : Progress s t a := by
  cases a with
  | operation | transaction | operationIn | await => trivial
  | dequeue => exact dequeue_progress h hstep
  | execute fails => exact execute_progress h hstep
  | resume i =>
    simp only [step] at hstep
    split at hstep
    · rename_i call held
      split at hstep
      · rename_i ok answered
        obtain ⟨next, calls, less⟩ := resume_progress answered hstep
        exact ⟨i, call, next, held, calls, less⟩
      · cases hstep
    · cases hstep
  | finish t0 ok =>
    simp only [step] at hstep
    split at hstep
    · rename_i call held
      split at hstep
      · rename_i awaits phase
        have more : ∀ bound < 5, bound < call.remaining := by
          intro bound less
          simpa only [Call.remaining, phase] using less
        split at hstep
        · split at hstep
          · cases hstep
            exact ⟨t0, call, _, held, rfl, more 4 (by decide)⟩
          · cases hstep
            exact ⟨t0, call, _, held, rfl, more 2 (by decide)⟩
        · cases hstep
      · cases hstep
    · cases hstep

theorem Inv.law (h : Inv s) : Law s where
  isolated := by
    intro e mem call held
    obtain ⟨same, found, _, placed⟩ := h.log e mem
    cases held.symm.trans found
    unfold place at placed
    cases issuer : call.issuer with
    | some t =>
      rw [issuer] at placed
      exact placed
    | none =>
      rw [issuer] at placed
      exact placed
  atomic := fun _ _ _ held owns settled _ _ inside => h.atomic held owns settled inside
  ordered := ⟨h.queue.order, h.queue.started⟩
  progress := fun a _ hstep => step_progress h a hstep
  live := fun rest _ _ held => h.live rest held

end Steps

theorem transactions_isolated (actions : List Action) (s : State) (run : Run step Permitted {} actions s) : Law s :=
  (run.invariant (fun _ a _ inv permitted hstep => step_inv inv a permitted hstep) inv_init).law

theorem fine {s : State} : Permitted s (.execute false) := fun _ _ _ _ => rfl

/-- The callback of transaction 0 runs, its operation 2 has failed, and the last statement
of its operation 1 is with the driver; operation 3 waits in the queue. -/
def concurrent : List Action :=
  [.transaction 0, .operation 3 1 true, .dequeue, .execute false, .resume 0,
    .operationIn 0 1 2 false, .operationIn 0 2 1 true, .await 0 1, .await 0 2, .execute false,
    .execute true, .resume 1, .resume 2]

/-- The transaction gives up without waiting for operation 1. -/
def givenUp : List Action :=
  [.finish 0 false, .execute false, .execute false, .resume 1, .resume 0, .dequeue,
    .execute false, .resume 3, .execute false, .resume 3, .execute false, .resume 3]

theorem concurrent_run : ∃ s, Run step Permitted {} (concurrent ++ givenUp) s ∧ s.committed = [3] ∧
    s.log = [⟨1, some 0, true⟩, ⟨2, some 0, false⟩, ⟨1, some 0, true⟩, ⟨3, some 3, true⟩] := by
  refine ⟨_, .cons trivial rfl (.cons trivial rfl (.cons trivial rfl (.cons fine rfl
    (.cons trivial rfl (.cons ?runs rfl (.cons ?still_runs rfl (.cons ?first rfl
    (.cons ?second rfl (.cons fine rfl (.cons ?fails rfl (.cons trivial rfl (.cons trivial rfl
    (.cons ?gives_up rfl (.cons fine rfl (.cons fine rfl (.cons trivial rfl (.cons trivial rfl
    (.cons trivial rfl (.cons fine rfl (.cons trivial rfl (.cons fine rfl (.cons trivial rfl
    (.cons fine rfl (.cons trivial rfl (.nil _))))))))))))))))))))))))), rfl, rfl⟩
  case runs | still_runs =>
    intro owner held
    cases held
    exact ⟨_, rfl⟩
  case first | second =>
    refine ⟨by decide, fun call held => ?_⟩
    cases held
    exact fun absurd => nomatch absurd
  case fails =>
    intro st head sql
    cases head
    cases sql
  case gives_up =>
    intro i call held issuer
    rcases i with _ | _ | _ | _ | i
    · cases held
      cases issuer
    · cases held
      exact .inr (.inl rfl)
    · cases held
      exact .inl rfl
    · cases held
      cases issuer
    · cases held

theorem transactions_isolated_rollback : ∃ s, Run step Permitted {} (concurrent ++ givenUp) s ∧ s.committed = [3] ∧
    s.log = [⟨1, some 0, true⟩, ⟨2, some 0, false⟩, ⟨1, some 0, true⟩, ⟨3, some 3, true⟩] ∧ Law s := by
  obtain ⟨s, run, committed, log⟩ := concurrent_run
  exact ⟨s, run, committed, log, transactions_isolated _ s run⟩

/-- A callback that awaits a transaction it has requested waits forever: the request is in
the queue behind its own transaction. -/
theorem nested_transaction_deadlocks :
    ∃ s, exec step {} [.transaction 0, .dequeue, .execute false, .resume 0, .transaction 1,
      .await 0 1] = some s ∧ ¬Law s := by
  refine ⟨_, rfl, fun law => ?_⟩
  refine absurd (law.live ⟨rfl, ?_, ?_, ?_⟩ 1 _ rfl) (by decide)
  · intro i call held
    match i, held with
    | 0, held => cases held; rfl
    | 1, held => cases held; rfl
    | i + 2, held => cases held
  · exact fun absurd => nomatch absurd
  · intro i call awaits held phase
    match i, held with
    | 0, held =>
      cases held
      cases phase
      exact ⟨1, List.mem_cons_self, rfl⟩
    | 1, held => cases held; cases phase
    | i + 2, held => cases held

end AppStore
