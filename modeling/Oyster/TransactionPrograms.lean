/-! Transactions on a state of any type: programs of statements, each of which may be refused or
fail. A transaction that fails anywhere is rolled back, so what its body ensures of a state in
which an invariant holds is enough for the invariant to hold after it. -/
namespace TransactionPrograms

/-- The second component counts the statements that are executed before one of them fails. -/
abbrev Program (σ : Type) := StateT (σ × Nat) Option

variable {σ α β : Type}

def statement (f : σ → Option (α × σ)) : Program σ α := fun (s, left) =>
  match left with
  | 0 => none
  | left + 1 => (f s).map fun (a, s') => (a, s', left)

def read (f : σ → α) : Program σ α := statement fun s => some (f s, s)

def write (f : σ → Option σ) : Program σ Unit := statement fun s => (f s).map fun s' => ((), s')

def transaction (p : Program σ α) (left : Nat) (s : σ) : Option (α × σ) :=
  match left with
  | 0 => none
  | left + 1 =>
    match p (s, left) with
    | some (a, s', _ + 1) => some (a, s')
    | some (_, _, 0) | none => none

/-- The state after the transaction, which a failure leaves as it was. -/
def after (p : Program σ α) (left : Nat) (s : σ) : σ := ((transaction p left s).map Prod.snd).getD s

/-- What a program gives, where it comes to its end. -/
def Ensures (P : σ → Prop) (p : Program σ α) (Q : α → σ → Prop) : Prop :=
  ∀ s left a s' rest, P s → p (s, left) = some (a, s', rest) → Q a s'

variable {P : σ → Prop} {Q : α → σ → Prop} {R : β → σ → Prop}

theorem Ensures.pure {a : α} (h : ∀ s, P s → Q a s) : Ensures P (Pure.pure a) Q := by
  intro s left b s' rest before step
  cases Option.some.inj step
  exact h s before

variable {p : Program σ α}

theorem Ensures.bind {f : α → Program σ β} (first : Ensures P p Q) (second : ∀ a, Ensures (Q a) (f a) R) :
    Ensures P (p >>= f) R := by
  intro s left b s' rest before step
  obtain ⟨⟨a, t, between⟩, one, two⟩ := Option.bind_eq_some_iff.mp step
  exact second a t between b s' rest (first s left a t between before one) two

theorem Ensures.failure : Ensures P (failure : Program σ α) Q := by
  intro s left a s' rest _ step
  cases step

theorem Ensures.statement {f : σ → Option (α × σ)} (h : ∀ s a s', P s → f s = some (a, s') → Q a s') :
    Ensures P (statement f) Q := by
  intro s left a s' rest before step
  cases left with
  | zero => cases step
  | succ left =>
    obtain ⟨⟨b, t⟩, found, same⟩ := Option.map_eq_some_iff.mp step
    cases same
    exact h s a s' before found

theorem Ensures.read {f : σ → α} (h : ∀ s, P s → Q (f s) s) : Ensures P (read f) Q := by
  refine Ensures.statement ?_
  intro s a s' before step
  cases Option.some.inj step
  exact h s before

theorem Ensures.write {f : σ → Option σ} {Q : Unit → σ → Prop} (h : ∀ s s', P s → f s = some s' → Q () s') :
    Ensures P (write f) Q := by
  refine Ensures.statement ?_
  intro s _ s' before step
  obtain ⟨t, found, same⟩ := Option.map_eq_some_iff.mp step
  cases same
  exact h s s' before found

variable {s : σ}

theorem Ensures.after (h : Ensures P p fun _ => P) (before : P s) (left : Nat) : P (after p left s) := by
  unfold TransactionPrograms.after transaction
  cases left with
  | zero => exact before
  | succ left =>
    dsimp only
    cases step : p (s, left) with
    | none => exact before
    | some r =>
      obtain ⟨a, s', rest⟩ := r
      cases rest with
      | zero => exact before
      | succ rest => exact h s left a s' _ before step

theorem foldl_after {ι : Type} {p : ι → Program σ α} (h : ∀ i, Ensures P (p i) fun _ => P) (runs : List (ι × Nat))
    (before : P s) : P (runs.foldl (fun s run => TransactionPrograms.after (p run.1) run.2 s) s) := by
  induction runs generalizing s with
  | nil => exact before
  | cons run runs ih => exact ih ((h run.1).after before run.2)

end TransactionPrograms
