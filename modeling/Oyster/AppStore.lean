import Oyster.Interleaving

/-! The promise queue of the application store, its transactions, and the driver that
executes the submitted statements one at a time. A call from outside of a
transaction callback goes through the queue; an operation in the async context of a
callback goes to the driver directly, also when the callback has returned. A callback
is any program: what it starts, awaits and returns are steps. A failing statement
changes nothing. `issuer`, `log`, `committed`, `enqueued` and `started` are history. -/
namespace AppStore
open Interleaving

/-- A repository method of some statements, which may run them in `writeAtomically`,
or a transaction. -/
inductive Kind where
  | operation (statements : Nat) (atomic : Bool)
  | transaction
  deriving DecidableEq

/-- In the phases `begin`, `body`, `commit` and `rollback` a statement has been submitted;
`left` counts those to be submitted after it. -/
inductive Phase where
  | queued
  | begin
  | body (left : Nat)
  | callback (awaits : List Nat)
  | commit
  | rollback
  | settled (ok : Bool)
  deriving DecidableEq

inductive Sql where
  | begin | statement | commit | rollback

/-- `answer` is the outcome of the submitted statement when it has been executed. An
operation that `opened` has begun a transaction of its own. `issuer` is the transaction
whose running callback has started the operation. -/
structure Call where
  kind : Kind
  phase : Phase
  answer : Option Bool := none
  opened : Bool := false
  issuer : Option Nat := none

structure Statement where
  call : Nat
  sql : Sql

/-- A statement of the call has been executed inside the transaction that `inside` began. -/
structure Entry where
  call : Nat
  inside : Option Nat
  applied : Bool

structure State where
  calls : Calls Call := fun _ => none
  operationQueue : List Nat := []
  busy : Option Nat := none
  transactionOpen : Bool := false
  driver : List Statement := []
  dbOpen : Option Nat := none
  log : List Entry := []
  committed : List Nat := []
  enqueued : List Nat := []
  started : List Nat := []

inductive Action where
  | operation (i statements : Nat) (atomic : Bool)
  | transaction (i : Nat)
  | operationIn (t i statements : Nat) (atomic : Bool)
  | dequeue
  | execute (fails : Bool)
  | resume (i : Nat)
  | await (t d : Nat)
  | finish (t : Nat) (ok : Bool)

def Phase.sql : Phase → Option Sql
  | .begin => some .begin
  | .body _ => some .statement
  | .commit => some .commit
  | .rollback => some .rollback
  | .queued | .callback _ | .settled _ => none

def Phase.inContext : Phase → Bool
  | .callback _ | .commit | .rollback | .settled _ => true
  | .queued | .begin | .body _ => false

def Phase.isSettled : Phase → Bool
  | .settled _ => true
  | _ => false

namespace State
variable (s : State) (i : Nat) (call : Call)

def submit (phase : Phase) (sql : Sql) : State :=
  { s with
    calls := s.calls.put i { call with phase, answer := none }
    driver := s.driver ++ [⟨i, sql⟩] }

/-- The promise of the call settles; the queue goes on if it waits for it. -/
def settle (ok : Bool) : State :=
  { s with
    calls := s.calls.put i { call with phase := .settled ok, answer := none }
    busy := if s.busy = some i then none else s.busy }

def nextStatement (left : Nat) : State :=
  match left with
  | left + 1 => s.submit i call (.body left) .statement
  | 0 => if call.opened then s.submit i call .commit .commit else s.settle i call true

/-- A repository method, with `writeAtomically` around it or not. -/
def operation (statements : Nat) (atomic : Bool) : State :=
  if atomic && !s.transactionOpen then s.submit i { call with opened := true } .begin .begin
  else s.nextStatement i call statements

/-- The work that `transaction` has enqueued. -/
def transaction : State :=
  if s.transactionOpen then s.settle i call false
  else { s with transactionOpen := true }.submit i call .begin .begin

def enqueue (kind : Kind) : State :=
  { s with
    calls := s.calls.put i { kind, phase := .queued }
    operationQueue := s.operationQueue ++ [i]
    enqueued := s.enqueued ++ [i] }

def take (rest : List Nat) : State :=
  { s with operationQueue := rest, busy := some i, started := s.started ++ [i] }

def settled (d : Nat) : Bool := (s.calls d).any fun call => call.phase.isSettled

def failed (d : Nat) : Bool := (s.calls d).any fun call => call.phase = .settled false

end State

/-- The queue starts its next work. -/
def dequeue (s : State) : Option State :=
  match s.busy, s.operationQueue with
  | none, i :: rest =>
    match s.calls i with
    | some call =>
      match call.kind with
      | .operation statements atomic => some ((s.take i rest).operation i call statements atomic)
      | .transaction => some ((s.take i rest).transaction i call)
    | none => none
  | _, _ => none

def perform (s : State) (st : Statement) (fails : Bool) : State × Bool :=
  match st.sql, fails, s.dbOpen with
  | .begin, false, none => ({ s with dbOpen := some st.call }, true)
  | .commit, false, some owner => ({ s with dbOpen := none, committed := owner :: s.committed }, true)
  | .rollback, false, some _ => ({ s with dbOpen := none }, true)
  | .statement, fails, inside => ({ s with log := s.log ++ [⟨st.call, inside, !fails⟩] }, !fails)
  | _, _, _ => (s, false)

def execute (s : State) (fails : Bool) : Option State :=
  match s.driver with
  | [] => none
  | st :: rest =>
    match s.calls st.call with
    | some call =>
      let (s, ok) := perform s st fails
      some { s with driver := rest, calls := s.calls.put st.call { call with answer := some ok } }
    | none => none

/-- The end of the `transaction` body; its `finally` clears the flag. -/
def endTransaction (s : State) (i : Nat) (call : Call) (ok : Bool) : State :=
  { s with transactionOpen := false }.settle i call ok

def resume (s : State) (i : Nat) (call : Call) (ok : Bool) : Option State :=
  match call.kind, call.phase, ok with
  | .transaction, .begin, true =>
    some { s with calls := s.calls.put i { call with phase := .callback [], answer := none } }
  | .transaction, .commit, true => some (endTransaction s i call true)
  | .transaction, .begin, false => some (s.submit i call .rollback .rollback)
  | .transaction, .commit, false => some (s.submit i call .rollback .rollback)
  | .transaction, .rollback, _ => some (endTransaction s i call false)
  | .operation statements _, .begin, true => some (s.nextStatement i call statements)
  | .operation _ _, .begin, false => some (s.settle i call false)
  | .operation _ _, .body left, true => some (s.nextStatement i call left)
  | .operation _ _, .body _, false =>
    if call.opened then some (s.submit i call .rollback .rollback) else some (s.settle i call false)
  | .operation _ _, .commit, true => some (s.settle i call true)
  | .operation _ _, .commit, false => some (s.submit i call .rollback .rollback)
  | .operation _ _, .rollback, _ => some (s.settle i call false)
  | _, _, _ => none

def step (s : State) : Action → Option State
  | .operation i statements atomic =>
    if (s.calls i).isNone then some (s.enqueue i (.operation statements atomic)) else none
  | .transaction i => if (s.calls i).isNone then some (s.enqueue i .transaction) else none
  | .operationIn t i statements atomic =>
    match s.calls t with
    | some owner =>
      if (s.calls i).isNone && owner.kind = .transaction && owner.phase.inContext then
        let issuer := match owner.phase with
          | .callback _ => some t
          | _ => none
        some (s.operation i { kind := .operation statements atomic, phase := .queued, issuer } statements atomic)
      else none
    | none => none
  | .dequeue => dequeue s
  | .execute fails => execute s fails
  | .resume i =>
    match s.calls i with
    | some call =>
      match call.answer with
      | some ok => resume s i call ok
      | none => none
    | none => none
  | .await t d =>
    match s.calls t with
    | some call =>
      match call.phase with
      | .callback awaits =>
        if (s.calls d).isSome then
          some { s with calls := s.calls.put t { call with phase := .callback (d :: awaits) } }
        else none
      | _ => none
    | none => none
  -- A callback that awaits several operations at once throws when the first of them fails.
  | .finish t ok =>
    match s.calls t with
    | some call =>
      match call.phase with
      | .callback awaits =>
        if awaits.all s.settled || (!ok && awaits.any s.failed) then
          if ok then some (s.submit t call .commit .commit)
          else some (s.submit t call .rollback .rollback)
        else none
      | _ => none
    | none => none

/-- An applied statement has its effect: it was executed outside of transactions, or
inside one that has been committed. -/
def Durable (s : State) (e : Entry) : Prop := ∀ t ∈ e.inside, t ∈ s.committed

/-- Nothing goes on but new calls: the driver and the queue are at rest, every answer
has been delivered, and every running callback waits for a call. -/
structure Quiescent (s : State) : Prop where
  driver : s.driver = []
  answers : ∀ i call, s.calls i = some call → call.answer = none
  queue : s.busy = none → s.operationQueue = []
  callbacks : ∀ t call awaits, s.calls t = some call → call.phase = .callback awaits →
    ∃ d ∈ awaits, s.settled d = false

/-- A bound on the steps that the call still takes: two for each statement, its execution
and what follows on it. -/
def Call.remaining (call : Call) : Nat :=
  let answered := if call.answer.isSome then 1 else 0
  match call.phase, call.kind with
  | .settled _, _ => 0
  | .rollback, _ => 2 - answered
  | .commit, _ => 4 - answered
  | .callback _, _ => 5
  | .body left, _ => 2 * left + 6 - answered
  | .begin, .operation statements _ => 2 * statements + 7 - answered
  | .begin, .transaction => 7 - answered
  | .queued, .operation statements _ => 2 * statements + 8
  | .queued, .transaction => 8

/-- A step that starts no call brings one call closer to its end and leaves the others as
they are. -/
def Progress (s t : State) : Action → Prop
  | .dequeue | .execute _ | .resume _ | .finish _ _ =>
    ∃ i call next, s.calls i = some call ∧ t.calls = s.calls.put i next ∧
      next.remaining < call.remaining
  | .operation .. | .transaction _ | .operationIn .. | .await .. => True

/-- Operations of a running callback are executed inside its transaction, all others
outside of every transaction but the one they open; what has been executed inside a
transaction that has settled has its effect exactly if the transaction has succeeded;
the queue works through its calls in their order; and every call settles after finitely
many steps, none is left waiting. -/
structure Law (s : State) : Prop where
  isolated : ∀ e ∈ s.log, ∀ call, s.calls e.call = some call →
    match call.issuer with
    | some t => e.inside = some t
    | none => e.inside = if call.opened = true then some e.call else none
  atomic : ∀ t owner ok, s.calls t = some owner → owner.kind = .transaction ∨ owner.opened = true →
    owner.phase = .settled ok → ∀ e ∈ s.log, e.inside = some t → (Durable s e ↔ ok = true)
  ordered : s.enqueued = s.started ++ s.operationQueue ∧ ∀ i ∈ s.started, s.busy ≠ some i → s.settled i = true
  progress : ∀ a t, step s a = some t → Progress s t a
  live : Quiescent s → ∀ i call, s.calls i = some call → s.settled i = true

/-- The last statement of the operation has been submitted, or its current one has failed. -/
def Submitted (call : Call) : Prop :=
  call.phase.isSettled = true ∨ call.phase = .body 0 ∨ ∃ left, call.phase = .body left ∧ call.answer = some false

/-- The condition under which the law is kept: an operation in the context of a callback
is started while the callback runs, and the callback returns only when its operations
have submitted all their statements; a callback awaits neither a call that is still in
the queue nor its own transaction; and no rollback of an open transaction fails. -/
def Permitted (s : State) : Action → Prop
  | .operationIn t _ _ _ => ∀ owner, s.calls t = some owner → ∃ awaits, owner.phase = .callback awaits
  | .await t d => d ≠ t ∧ ∀ call, s.calls d = some call → call.phase ≠ .queued
  | .finish t _ => ∀ i call, s.calls i = some call → call.issuer = some t → Submitted call
  | .execute fails => ∀ st, s.driver.head? = some st → st.sql = .rollback → s.dbOpen.isSome → fails = false
  | _ => True

end AppStore
