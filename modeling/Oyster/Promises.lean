import Oyster.Interleaving

/-! Asynchronous computations that start others without waiting for them, and a program logic for the unhandled
rejections that a run of them leaves: of each operation it says whether its rejection ends the task that awaits it or
is caught, whatever the order in which the operations settle. -/
namespace Promises
open Interleaving

/-- A computation up to its next effect. An operation settles at some later time, with an answer or with a rejection; a
promise that is detached runs to its first operation before the computation goes on. -/
inductive Async (σ Op : Type) (Answer : Op → Type) (Task : Type) : Type → Type 1
  | pure {α : Type} (value : α) : Async σ Op Answer Task α
  | throw {α : Type} : Async σ Op Answer Task α
  | get {α : Type} (next : σ → Async σ Op Answer Task α) : Async σ Op Answer Task α
  | modify {α : Type} (f : σ → σ) (next : Async σ Op Answer Task α) : Async σ Op Answer Task α
  | await {α : Type} (op : Op) (next : Answer op → Async σ Op Answer Task α) (rejected : Async σ Op Answer Task α) :
      Async σ Op Answer Task α
  | detach {α : Type} (task : Task) (promise : Async σ Op Answer Task Unit) (next : Async σ Op Answer Task α) :
      Async σ Op Answer Task α

variable {σ Op : Type} {Answer : Op → Type} {Task : Type} {α β : Type}

namespace Async

protected def bind {α β : Type} : Async σ Op Answer Task α → (α → Async σ Op Answer Task β) → Async σ Op Answer Task β
  | .pure value, f => f value
  | .throw, _ => .throw
  | .get next, f => .get fun s => (next s).bind f
  | .modify g next, f => .modify g (next.bind f)
  | .await op next rejected, f => .await op (fun answer => (next answer).bind f) (rejected.bind f)
  | .detach task promise next, f => .detach task promise (next.bind f)

instance : Monad (Async σ Op Answer Task) where
  pure := .pure
  bind := Async.bind

/-- What is thrown in the first computation, or rejected in what it awaits, is answered by the second. -/
def tryCatch {α : Type} : Async σ Op Answer Task α → Async σ Op Answer Task α → Async σ Op Answer Task α
  | .pure value, _ => .pure value
  | .throw, handler => handler
  | .get next, handler => .get fun s => (next s).tryCatch handler
  | .modify f next, handler => .modify f (next.tryCatch handler)
  | .await op next rejected, handler => .await op (fun answer => (next answer).tryCatch handler) (rejected.tryCatch handler)
  | .detach task promise next, handler => .detach task promise (next.tryCatch handler)

def read : Async σ Op Answer Task σ := .get .pure

def update (f : σ → σ) : Async σ Op Answer Task Unit := .modify f (.pure ())

def call (op : Op) : Async σ Op Answer Task (Answer op) := .await op .pure .throw

def start (task : Task) (promise : Async σ Op Answer Task Unit) : Async σ Op Answer Task Unit :=
  .detach task promise (.pure ())

/-- `finally` with a last action that awaits nothing. -/
def finally' (p : Async σ Op Answer Task α) (f : σ → σ) : Async σ Op Answer Task α :=
  (p.tryCatch (.modify f .throw)).bind fun value => .modify f (.pure value)

def forEach (f : β → Async σ Op Answer Task Unit) : List β → Async σ Op Answer Task Unit
  | [] => .pure ()
  | b :: rest => (f b).bind fun _ => forEach f rest

end Async

/-- A task at the operation that it awaits. -/
structure Call (σ Op : Type) (Answer : Op → Type) (Task : Type) where
  task : Task
  op : Op
  next : Answer op → Async σ Op Answer Task Unit
  rejected : Async σ Op Answer Task Unit

structure System (σ Op : Type) (Answer : Op → Type) (Task : Type) where
  state : σ
  calls : Calls (Call σ Op Answer Task) := fun _ => none
  next : Nat := 0
  unhandled : List Task := []

/-- What is left of a computation that has run to its next operation or to its end. -/
inductive Rest (σ Op : Type) (Answer : Op → Type) (Task α : Type) where
  | returned (value : α)
  | threw
  | waits (op : Op) (next : Answer op → Async σ Op Answer Task α) (rejected : Async σ Op Answer Task α)

inductive Event (Op : Type) (Answer : Op → Type) (Task : Type) where
  | fires (task : Task)
  | settles (call : Nat) (answer : ∀ op, Answer op)
  | rejects (call : Nat)

section
variable (awaited : Task → Bool)

/-- A task has come to its next operation or to its end. A rejection of a task that nobody awaits is unhandled. -/
def System.settle (s : System σ Op Answer Task) (task : Task) : Rest σ Op Answer Task Unit → System σ Op Answer Task
  | .returned _ => s
  | .threw => if awaited task then s else { s with unhandled := s.unhandled ++ [task] }
  | .waits op next rejected => { s with calls := s.calls.put s.next ⟨task, op, next, rejected⟩, next := s.next + 1 }

def advance {α : Type} : Async σ Op Answer Task α → System σ Op Answer Task →
    System σ Op Answer Task × Rest σ Op Answer Task α
  | .pure value, s => (s, .returned value)
  | .throw, s => (s, .threw)
  | .get next, s => advance (next s.state) s
  | .modify f next, s => advance next { s with state := f s.state }
  | .await op next rejected, s => (s, .waits op next rejected)
  | .detach task promise next, s =>
    let (s, rest) := advance promise s
    advance next (s.settle awaited task rest)

def System.resume (s : System σ Op Answer Task) (task : Task) (p : Async σ Op Answer Task Unit) : System σ Op Answer Task :=
  let (s, rest) := advance awaited p s
  s.settle awaited task rest

/-- `body` is what a task does from its start. -/
def step (body : Task → Async σ Op Answer Task Unit) (s : System σ Op Answer Task) :
    Event Op Answer Task → Option (System σ Op Answer Task)
  | .fires task => some (s.resume awaited task (body task))
  | .settles i answer =>
    (s.calls i).map fun call => { s with calls := s.calls.drop i }.resume awaited call.task (call.next (answer call.op))
  | .rejects i => (s.calls i).map fun call => { s with calls := s.calls.drop i }.resume awaited call.task call.rejected

end

def Async.throws {α : Type} : Async σ Op Answer Task α → (σ → Prop) → σ → Prop
  | .pure _, _, _ => False
  | .throw, F, s => F s
  | .get next, F, s => (next s).throws F s
  | .modify f next, F, s => next.throws F (f s)
  | .await .., _, _ => False
  | .detach .., _, _ => False

section
variable (exposed : Task → Op → Bool) (awaited : Task → Bool) (I : σ → Prop)

def Ends (task : Task) (_ : σ) : Prop := awaited task = true

/-- The weakest precondition for a computation of a task to end in `Q`, or to throw in `E`, whatever the others do
that keep `I`, where the rejection of an exposed operation is thrown on at once, in `F`, and the detached tasks end as
they should. -/
def wp {α : Type} (task : Task) (E F : σ → Prop) : Async σ Op Answer Task α → (α → σ → Prop) → σ → Prop
  | .pure value, Q, s => Q value s
  | .throw, _, s => E s
  | .get next, Q, s => wp task E F (next s) Q s
  | .modify f next, Q, s => I (f s) ∧ wp task E F next Q (f s)
  | .await op next rejected, Q, _ => ∀ s, I s → (∀ answer, wp task E F (next answer) Q s) ∧
      if exposed task op then rejected.throws F s else wp task E F rejected Q s
  | .detach other promise next, Q, s =>
    wp other (Ends awaited other) (fun _ => True) promise (fun _ _ => True) s ∧ ∀ s, I s → wp task E F next Q s

end

section
variable {exposed : Task → Op → Bool} {awaited : Task → Bool} {I : σ → Prop} {task : Task} {E F : σ → Prop}

variable {p : Async σ Op Answer Task α} {s : σ}

variable {f : α → Async σ Op Answer Task β}

theorem Async.throws_bind {F : σ → Prop} (h : p.throws F s) : (p.bind f).throws F s := by
  induction p generalizing s with
  | pure value => cases h
  | throw => exact h
  | get next ih => exact ih s h
  | modify g next ih => exact ih h
  | await op next rejected => cases h
  | detach other promise next => cases h

variable {handler : Async σ Op Answer Task α}

theorem Async.throws_tryCatch {F : σ → Prop} (h : p.throws (handler.throws F) s) :
    (p.tryCatch handler).throws F s := by
  induction p generalizing s with
  | pure value => cases h
  | throw => exact h
  | get next ih => exact ih s h
  | modify g next ih => exact ih h
  | await op next rejected => cases h
  | detach other promise next => cases h

theorem ite_imp {c : Prop} [Decidable c] {P P' Q Q' : Prop} (first : P → P') (second : Q → Q') (h : if c then P else Q) :
    if c then P' else Q' := by
  split
  · next holds => exact first ((if_pos holds).mp h)
  · next fails => exact second ((if_neg fails).mp h)

variable {Q : α → σ → Prop}

theorem wp_mono {Q' : α → σ → Prop} (weaker : ∀ a s, Q a s → Q' a s) (h : wp exposed awaited I task E F p Q s) :
    wp exposed awaited I task E F p Q' s := by
  induction p generalizing s with
  | pure value => exact weaker value s h
  | throw => exact h
  | get next ih => exact ih s weaker h
  | modify g next ih => exact ⟨h.1, ih weaker h.2⟩
  | await op next rejected settled caught =>
    intro s kept
    obtain ⟨after, ended⟩ := h s kept
    exact ⟨fun answer => settled answer weaker (after answer), ite_imp id (caught weaker) ended⟩
  | detach other promise next _ ih => exact ⟨h.1, fun s kept => ih weaker (h.2 s kept)⟩

theorem wp_bind {Q : β → σ → Prop}
    (h : wp exposed awaited I task E F p (fun a => wp exposed awaited I task E F (f a) Q) s) :
    wp exposed awaited I task E F (p.bind f) Q s := by
  induction p generalizing s with
  | pure value => exact h
  | throw => exact h
  | get next ih => exact ih s h
  | modify g next ih => exact ⟨h.1, ih h.2⟩
  | await op next rejected settled caught =>
    intro s kept
    obtain ⟨after, ended⟩ := h s kept
    exact ⟨fun answer => settled answer (after answer), ite_imp Async.throws_bind caught ended⟩
  | detach other promise next _ ih => exact ⟨h.1, fun s kept => ih (h.2 s kept)⟩

theorem wp_tryCatch (h : wp exposed awaited I task (wp exposed awaited I task E F handler Q) (handler.throws F) p Q s) :
    wp exposed awaited I task E F (p.tryCatch handler) Q s := by
  induction p generalizing s with
  | pure value => exact h
  | throw => exact h
  | get next ih => exact ih s h
  | modify g next ih => exact ⟨h.1, ih h.2⟩
  | await op next rejected settled caught =>
    intro s kept
    obtain ⟨after, ended⟩ := h s kept
    exact ⟨fun answer => settled answer (after answer), ite_imp Async.throws_tryCatch caught ended⟩
  | detach other promise next _ ih => exact ⟨h.1, fun s kept => ih (h.2 s kept)⟩

theorem wp_call {op : Op} {Q : Answer op → σ → Prop} (rejects : ∀ s, I s → if exposed task op then F s else E s)
    (settles : ∀ answer s, I s → Q answer s) : wp exposed awaited I task E F (Async.call op) Q s :=
  fun s kept => ⟨fun answer => settles answer s kept, rejects s kept⟩

theorem wp_update {f : σ → σ} {Q : Unit → σ → Prop} (kept : I (f s)) (h : Q () (f s)) :
    wp exposed awaited I task E F (Async.update f : Async σ Op Answer Task Unit) Q s := ⟨kept, h⟩

theorem wp_start {other : Task} {promise : Async σ Op Answer Task Unit} {Q : Unit → σ → Prop}
    (ends : wp exposed awaited I other (Ends awaited other) (fun _ => True) promise (fun _ _ => True) s)
    (h : ∀ s, I s → Q () s) : wp exposed awaited I task E F (Async.start other promise) Q s := ⟨ends, h⟩

theorem wp_finally {f : σ → σ}
    (h : wp exposed awaited I task (fun s => I (f s) ∧ E (f s)) (fun s => F (f s)) p (fun a s => I (f s) ∧ Q a (f s)) s)
    : wp exposed awaited I task E F (p.finally' f) Q s :=
  wp_bind (wp_tryCatch (wp_mono (fun _ _ after => after) h))

end

section
variable (exposed : Task → Op → Bool) (awaited : Task → Bool) (I : σ → Prop)

/-- A computation keeps `I`, and throws only where `E` holds; its exposed operations are thrown on in `F`. -/
def Keeps {α : Type} (task : Task) (E F : σ → Prop) (p : Async σ Op Answer Task α) : Prop :=
  ∀ s, I s → wp exposed awaited I task E F p (fun _ => I) s

/-- A detached task, or one of the event loop, that keeps `I`. -/
def TaskKeeps (task : Task) (p : Async σ Op Answer Task Unit) : Prop :=
  Keeps exposed awaited I task (Ends awaited task) (fun _ => True) p

/-- Where the rejection of an operation may lead. -/
def Rejects (task : Task) (E F : σ → Prop) (op : Op) : Prop := ∀ s, I s → if exposed task op then F s else E s

end

section
variable {exposed : Task → Op → Bool} {awaited : Task → Bool} {I : σ → Prop} {task : Task} {E F : σ → Prop}

theorem Keeps.pure (value : α) : Keeps exposed awaited I task E F (pure value : Async σ Op Answer Task α) := fun _ kept => kept

theorem Keeps.throw (thrown : ∀ s, I s → E s) : Keeps exposed awaited I task E F (Async.throw : Async σ Op Answer Task α) := thrown

theorem Keeps.read : Keeps exposed awaited I task E F (Async.read : Async σ Op Answer Task σ) := fun _ kept => kept

variable {f : σ → σ}

theorem Keeps.update (keeps : ∀ s, I s → I (f s)) :
    Keeps exposed awaited I task E F (Async.update f : Async σ Op Answer Task Unit) := fun s kept => ⟨keeps s kept, keeps s kept⟩

theorem Keeps.call {op : Op} (rejects : Rejects exposed I task E F op) :
    Keeps exposed awaited I task E F (Async.call op : Async σ Op Answer Task (Answer op)) :=
  fun _ _ => wp_call rejects fun _ _ kept => kept

theorem Keeps.start {other : Task} {promise : Async σ Op Answer Task Unit} (keeps : TaskKeeps exposed awaited I other promise) :
    Keeps exposed awaited I task E F (Async.start other promise) :=
  fun s kept => wp_start (wp_mono (fun _ _ _ => trivial) (keeps s kept)) fun _ kept => kept

variable {p : Async σ Op Answer Task α}

theorem Keeps.bind {f : α → Async σ Op Answer Task β} (first : Keeps exposed awaited I task E F p)
    (second : ∀ a, Keeps exposed awaited I task E F (f a)) : Keeps exposed awaited I task E F (p >>= f) :=
  fun s kept => wp_bind (wp_mono (fun a s kept => second a s kept) (first s kept))

theorem Keeps.map {f : α → β} (keeps : Keeps exposed awaited I task E F p) :
    Keeps exposed awaited I task E F (f <$> p) := keeps.bind fun _ => .pure _

theorem Keeps.ite {c : Prop} [Decidable c] {q : Async σ Op Answer Task α} (first : Keeps exposed awaited I task E F p)
    (second : Keeps exposed awaited I task E F q) : Keeps exposed awaited I task E F (if c then p else q) := by
  split
  · exact first
  · exact second

theorem Keeps.tryCatch {handler : Async σ Op Answer Task α}
    (tried : Keeps exposed awaited I task (wp exposed awaited I task E F handler fun _ => I) (handler.throws F) p) :
    Keeps exposed awaited I task E F (p.tryCatch handler) := fun s kept => wp_tryCatch (tried s kept)

theorem Keeps.forEach {f : β → Async σ Op Answer Task Unit} {bs : List β} (each : ∀ b, Keeps exposed awaited I task E F (f b)) :
    Keeps exposed awaited I task E F (Async.forEach f bs) := by
  induction bs with
  | nil => exact .pure ()
  | cons b rest ih => exact (each b).bind fun _ => ih

theorem Keeps.finally' (keeps : ∀ s, I s → I (f s))
    (tried : Keeps exposed awaited I task (fun s => I (f s) ∧ E (f s)) (fun s => F (f s)) p) :
    Keeps exposed awaited I task E F (p.finally' f) :=
  fun s kept => wp_finally (wp_mono (fun _ s kept => ⟨keeps s kept, keeps s kept⟩) (tried s kept))

end

section
variable (exposed : Task → Op → Bool) (awaited : Task → Bool) (I : σ → Prop)

/-- What is left of a computation keeps what it had promised. -/
def RestFits {α : Type} (task : Task) (E F : σ → Prop) (Q : α → σ → Prop) : Rest σ Op Answer Task α → σ → Prop
  | .returned value, s => Q value s
  | .threw, s => E s
  | .waits op next rejected, _ => ∀ s, I s → (∀ answer, wp exposed awaited I task E F (next answer) Q s) ∧
      if exposed task op then rejected.throws F s else wp exposed awaited I task E F rejected Q s

def CallFits (call : Call σ Op Answer Task) : Prop :=
  ∀ s, I s → RestFits exposed awaited I call.task (Ends awaited call.task) (fun _ => True) (fun _ _ => True)
    (.waits call.op call.next call.rejected) s

structure Inv (s : System σ Op Answer Task) : Prop where
  kept : I s.state
  fits : ∀ i call, s.calls i = some call → CallFits exposed awaited I call
  handled : s.unhandled = []

end

section
variable {exposed : Task → Op → Bool} {awaited : Task → Bool} {I : σ → Prop} {task : Task} {E F : σ → Prop}

variable {s : System σ Op Answer Task}

theorem Inv.settle {rest : Rest σ Op Answer Task Unit} (h : Inv exposed awaited I s)
    (fits : RestFits exposed awaited I task (Ends awaited task) (fun _ => True) (fun _ _ => True) rest s.state) :
    Inv exposed awaited I (s.settle awaited task rest) := by
  cases rest with
  | returned value => exact h
  | threw =>
    have waited : awaited task = true := fits
    simp only [System.settle, waited, if_true]
    exact h
  | waits op next rejected =>
    refine ⟨h.kept, fun i call found => ?_, h.handled⟩
    rcases Calls.put_eq_some found with ⟨_, rfl⟩ | ⟨_, old⟩
    · exact fun s kept => fits
    · exact h.fits i call old

theorem Inv.advance {p : Async σ Op Answer Task α} {Q : α → σ → Prop} (h : Inv exposed awaited I s)
    (safe : wp exposed awaited I task E F p Q s.state) : Inv exposed awaited I (advance awaited p s).1 ∧
      RestFits exposed awaited I task E F Q (advance awaited p s).2 (advance awaited p s).1.state := by
  induction p generalizing s task E F with
  | pure value => exact ⟨h, safe⟩
  | throw => exact ⟨h, safe⟩
  | get next ih => exact ih s.state h safe
  | modify f next ih => exact ih (s := { s with state := f s.state }) ⟨safe.1, h.fits, h.handled⟩ safe.2
  | await op next rejected => exact ⟨h, safe⟩
  | detach other promise next started after =>
    obtain ⟨next', rest⟩ := started h safe.1
    have settled := next'.settle rest
    exact after settled (safe.2 _ settled.kept)

variable {p : Async σ Op Answer Task Unit}

theorem Inv.resume (h : Inv exposed awaited I s)
    (safe : wp exposed awaited I task (Ends awaited task) (fun _ => True) p (fun _ _ => True) s.state) :
    Inv exposed awaited I (s.resume awaited task p) := by
  obtain ⟨next, rest⟩ := h.advance safe
  exact next.settle rest

theorem unhandled_settle (s : System σ Op Answer Task) (task : Task) (rest : Rest σ Op Answer Task Unit) :
    s.unhandled <+: (s.settle awaited task rest).unhandled := by
  cases rest with
  | returned value => exact List.prefix_rfl
  | threw =>
    simp only [System.settle]
    split
    · exact List.prefix_rfl
    · exact List.prefix_append s.unhandled [task]
  | waits op next rejected => exact List.prefix_rfl

theorem unhandled_advance (p : Async σ Op Answer Task α) (s : System σ Op Answer Task) :
    s.unhandled <+: (advance awaited p s).1.unhandled := by
  induction p generalizing s with
  | pure value => exact List.prefix_rfl
  | throw => exact List.prefix_rfl
  | get next ih => exact ih s.state s
  | modify f next ih => exact ih { s with state := f s.state }
  | await op next rejected => exact List.prefix_rfl
  | detach other promise next started after =>
    exact (started s).trans ((unhandled_settle _ other _).trans (after _))

theorem unhandled_resume (s : System σ Op Answer Task) (task : Task) (p : Async σ Op Answer Task Unit) :
    s.unhandled <+: (s.resume awaited task p).unhandled :=
  (unhandled_advance p s).trans (unhandled_settle _ task _)

theorem unhandled_detach (s : System σ Op Answer Task) (task other : Task) (promise next : Async σ Op Answer Task Unit) :
    (s.resume awaited other promise).unhandled <+: (s.resume awaited task (.detach other promise next)).unhandled :=
  (unhandled_advance next _).trans (unhandled_settle _ task _)

variable {body : Task → Async σ Op Answer Task Unit} {t : System σ Op Answer Task} {e : Event Op Answer Task}

theorem unhandled_step (taken : step awaited body s e = some t) : s.unhandled <+: t.unhandled := by
  cases e with
  | fires task =>
    cases taken
    exact unhandled_resume s task (body task)
  | settles i answer =>
    obtain ⟨call, _, rfl⟩ := Option.map_eq_some_iff.mp taken
    exact unhandled_resume { s with calls := s.calls.drop i } call.task _
  | rejects i =>
    obtain ⟨call, _, rfl⟩ := Option.map_eq_some_iff.mp taken
    exact unhandled_resume { s with calls := s.calls.drop i } call.task _

variable {events : List (Event Op Answer Task)}

theorem unhandled_run (run : Run (step awaited body) Free s events t) : s.unhandled <+: t.unhandled := by
  induction run with
  | nil s => exact List.prefix_rfl
  | cons _ taken _ ih => exact (unhandled_step taken).trans ih

theorem advance_threw {p : Async σ Op Answer Task α} {F : σ → Prop} (h : p.throws F s.state) :
    (advance awaited p s).2 = .threw := by
  induction p generalizing s with
  | pure value => cases h
  | throw => rfl
  | get next ih => exact ih s.state h
  | modify f next ih => exact ih (s := { s with state := f s.state }) h
  | await op next rejected => cases h
  | detach other promise next => cases h

theorem resume_unhandled {F : σ → Prop} (h : p.throws F s.state) (alone : awaited task = false) :
    task ∈ (s.resume awaited task p).unhandled := by
  simp only [System.resume, advance_threw h, System.settle, alone, Bool.false_eq_true, if_false]
  exact List.mem_append_right _ (List.mem_singleton_self task)

def Unexposed (exposed : Task → Op → Bool) (starts : σ → Task → Prop) (s : System σ Op Answer Task) : Event Op Answer Task → Prop
  | .fires task => starts s.state task
  | .settles _ _ => True
  | .rejects i => ∀ call, s.calls i = some call → exposed call.task call.op = false

variable {starts : σ → Task → Prop}

theorem Inv.next (h : Inv exposed awaited I s) (safe : ∀ task s, I s → starts s task →
      wp exposed awaited I task (Ends awaited task) (fun _ => True) (body task) (fun _ => I) s)
    (unexposed : Unexposed exposed starts s e) (taken : step awaited body s e = some t) :
    Inv exposed awaited I t := by
  have without (i : Nat) : Inv exposed awaited I { s with calls := s.calls.drop i } :=
    ⟨h.kept, fun j call found => h.fits j call (Calls.drop_eq_some found).2, h.handled⟩
  cases e with
  | fires task =>
    cases taken
    exact h.resume (wp_mono (fun _ _ _ => trivial) (safe task s.state h.kept unexposed))
  | settles i answer =>
    obtain ⟨call, there, rfl⟩ := Option.map_eq_some_iff.mp taken
    exact (without i).resume ((h.fits i call there s.state h.kept s.state h.kept).1 (answer call.op))
  | rejects i =>
    obtain ⟨call, there, rfl⟩ := Option.map_eq_some_iff.mp taken
    have after := (h.fits i call there s.state h.kept s.state h.kept).2
    rw [unexposed call there, if_neg Bool.false_ne_true] at after
    exact (without i).resume after

theorem Inv.exposed_unhandled (h : Inv exposed awaited I s)
    (alone : ∀ task op, exposed task op = true → awaited task = false)
    (broken : ∀ task (s : System σ Op Answer Task), ¬starts s.state task → (s.resume awaited task (body task)).unhandled ≠ [])
    (unmet : ¬Unexposed exposed starts s e) (taken : step awaited body s e = some t) : t.unhandled ≠ [] := by
  cases e with
  | fires task =>
    cases taken
    exact broken task s unmet
  | settles i answer => exact absurd trivial unmet
  | rejects i =>
    obtain ⟨call, there, rfl⟩ := Option.map_eq_some_iff.mp taken
    have open' : exposed call.task call.op = true := by
      by_contra closed
      refine unmet fun other found => ?_
      cases there.symm.trans found
      exact Bool.not_eq_true _ ▸ closed
    have after := (h.fits i call there s.state h.kept s.state h.kept).2
    rw [open', if_pos rfl] at after
    exact List.ne_nil_of_mem (resume_unhandled (s := { s with calls := s.calls.drop i }) after (alone _ _ open'))

theorem unhandled_eq_nil_iff (h : Inv exposed awaited I s)
    (alone : ∀ task op, exposed task op = true → awaited task = false) (safe : ∀ task s, I s → starts s task →
      wp exposed awaited I task (Ends awaited task) (fun _ => True) (body task) (fun _ => I) s)
    (broken : ∀ task (s : System σ Op Answer Task), ¬starts s.state task → (s.resume awaited task (body task)).unhandled ≠ [])
    (run : Run (step awaited body) Free s events t) :
    t.unhandled = [] ↔ Run (step awaited body) (Unexposed exposed starts) s events t := by
  constructor
  · intro none
    induction run with
    | nil s => exact .nil s
    | @cons s t u e _ _ taken rest ih =>
      by_cases met : Unexposed exposed starts s e
      · exact .cons met taken (ih (h.next safe met taken) none)
      · exact absurd (List.prefix_nil.mp (none ▸ unhandled_run rest)) (h.exposed_unhandled alone broken met taken)
  · intro good
    have preserved : ∀ (s : System σ Op Answer Task) e t, Inv exposed awaited I s → Unexposed exposed starts s e →
        step awaited body s e = some t → Inv exposed awaited I t := fun _ _ _ inv met taken => inv.next safe met taken
    exact (good.invariant preserved h).handled

end

end Promises
