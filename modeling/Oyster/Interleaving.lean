import Mathlib.Data.List.Basic

/-! Finite runs of an executable labelled step, and the table of calls in flight
(or of the processes of a system) that such a step resumes. A scheduler is the list of labels: every interleaving
of the calls is some list, so a statement about all lists is one about all
schedules. -/
namespace Interleaving

variable {σ α τ : Type*}

/-- Take the labels in order; `none` when one of them is not enabled. -/
def exec (step : σ → α → Option σ) : σ → List α → Option σ
  | s, [] => some s
  | s, a :: as => (step s a).bind fun t => exec step t as

/-- A run whose every step is enabled and meets `ok` in the state before it. -/
inductive Run (step : σ → α → Option σ) (ok : σ → α → Prop) : σ → List α → σ → Prop
  | nil (s : σ) : Run step ok s [] s
  | cons {s t u : σ} {a : α} {as : List α} :
      ok s a → step s a = some t → Run step ok t as u → Run step ok s (a :: as) u

/-- The side condition of an unrestricted run. -/
def Free (_ : σ) (_ : α) : Prop := True

section Runs
variable {step : σ → α → Option σ} {ok : σ → α → Prop}

theorem Run.exec_eq {s u : σ} {as : List α} (h : Run step ok s as u) :
    exec step s as = some u := by
  induction h with
  | nil s => rfl
  | cons _ hstep _ ih => simp only [exec, hstep, Option.bind_some, ih]

theorem run_of_exec {s u : σ} {as : List α} (h : exec step s as = some u) :
    Run step Free s as u := by
  induction as generalizing s with
  | nil =>
    obtain rfl := Option.some.inj h
    exact .nil s
  | cons a as ih =>
    obtain ⟨t, hstep, hrest⟩ := Option.bind_eq_some_iff.mp h
    exact .cons trivial hstep (ih hrest)

theorem Run.mono {ok' : σ → α → Prop} (weaker : ∀ s a, ok s a → ok' s a)
    {s u : σ} {as : List α} (h : Run step ok s as u) : Run step ok' s as u := by
  induction h with
  | nil s => exact .nil s
  | cons hok hstep _ ih => exact .cons (weaker _ _ hok) hstep ih

theorem Run.append {s t u : σ} {as bs : List α} (h : Run step ok s as t)
    (h' : Run step ok t bs u) : Run step ok s (as ++ bs) u := by
  induction h with
  | nil s => exact h'
  | cons hok hstep _ ih => exact .cons hok hstep (ih h')

theorem Run.invariant {Inv : σ → Prop} (preserved : ∀ s a t, Inv s → ok s a → step s a = some t → Inv t)
    {s u : σ} {as : List α} (h : Run step ok s as u) (base : Inv s) : Inv u := by
  induction h with
  | nil s => exact base
  | cons hok hstep _ ih => exact ih (preserved _ _ _ base hok hstep)

/-- A preorder that relates the ends of every permitted step relates the ends of
a run; the invariant `Inv` may be used at each step. -/
theorem Run.relates {Inv : σ → Prop} {R : σ → σ → Prop} (refl : ∀ s, R s s) (trans : ∀ s t u, R s t → R t u → R s u)
    (preserved : ∀ s a t, Inv s → ok s a → step s a = some t → Inv t ∧ R s t)
    {s u : σ} {as : List α} (h : Run step ok s as u) (base : Inv s) : R s u := by
  induction h with
  | nil s => exact refl s
  | cons hok hstep _ ih =>
    obtain ⟨inv, rel⟩ := preserved _ _ _ base hok hstep
    exact trans _ _ _ rel (ih inv)

/-- Some step of the run is one of `P`, in the state before it. -/
def Meets (step : σ → α → Option σ) (P : σ → α → Prop) : σ → List α → Prop
  | _, [] => False
  | s, a :: as => P s a ∨ ∃ t, step s a = some t ∧ Meets step P t as

/-- A goal that no step undoes, and that a step reaches exactly when it is one of `P`. -/
theorem Run.reaches_iff {Inv Goal : σ → Prop} {P : σ → α → Prop}
    (each : ∀ s a t, Inv s → ok s a → step s a = some t → Inv t ∧ (Goal t ↔ Goal s ∨ P s a))
    {s u : σ} {as : List α} (h : Run step ok s as u) (base : Inv s) :
    Inv u ∧ (Goal u ↔ Goal s ∨ Meets step P s as) := by
  induction h with
  | nil s => exact ⟨base, by rw [Meets, or_false]⟩
  | @cons s t u a as hok hstep _ ih =>
    obtain ⟨inv, here⟩ := each _ _ _ base hok hstep
    obtain ⟨last, later⟩ := ih inv
    have next : (∃ t', step s a = some t' ∧ Meets step P t' as) ↔ Meets step P t as := by
      rw [hstep]
      exact ⟨fun ⟨_, same, meets⟩ => Option.some.inj same ▸ meets, fun meets => ⟨t, rfl, meets⟩⟩
    refine ⟨last, ?_⟩
    rw [later, here, or_assoc, Meets, next]

/-- Take the labels in order, where every step passes a test. -/
def execIf (step : σ → α → Option σ) (test : σ → α → Bool) : σ → List α → Option σ :=
  exec fun s a => if test s a then step s a else none

theorem run_of_execIf {test : σ → α → Bool} (sound : ∀ s a, test s a = true → ok s a)
    {s u : σ} {as : List α} (h : execIf step test s as = some u) : Run step ok s as u := by
  induction as generalizing s with
  | nil =>
    obtain rfl := Option.some.inj h
    exact .nil s
  | cons a as ih =>
    obtain ⟨t, guarded, hrest⟩ := Option.bind_eq_some_iff.mp h
    obtain ⟨passed, hstep⟩ := Option.ite_none_right_eq_some.mp guarded
    exact .cons (sound s a passed) hstep (ih hrest)

end Runs

abbrev Calls (τ : Type*) := Nat → Option τ

namespace Calls

/-- Every call in flight satisfies `P`. -/
def Forall (P : Nat → τ → Prop) (c : Calls τ) : Prop :=
  ∀ i t, c i = some t → P i t

/-- Put call `i` into the state `t`, whether it is new or resumed. -/
def put (c : Calls τ) (i : Nat) (t : τ) : Calls τ := Function.update c i (some t)

/-- Call `i` has returned or thrown. -/
def drop (c : Calls τ) (i : Nat) : Calls τ := Function.update c i none

/-- Change entry `i`, if there is one. -/
def modify (c : Calls τ) (i : Nat) (f : τ → τ) : Calls τ := Function.update c i ((c i).map f)

/-- Change every entry. -/
def mapAll (c : Calls τ) (f : τ → τ) : Calls τ := fun i => (c i).map f

@[simp] theorem put_self (c : Calls τ) (i : Nat) (t : τ) : c.put i t i = some t :=
  Function.update_self ..

theorem put_of_ne (c : Calls τ) {i j : Nat} (t : τ) (h : j ≠ i) : c.put i t j = c j :=
  Function.update_of_ne h ..

@[simp] theorem drop_self (c : Calls τ) (i : Nat) : c.drop i i = none :=
  Function.update_self ..

theorem drop_of_ne (c : Calls τ) {i j : Nat} (h : j ≠ i) : c.drop i j = c j :=
  Function.update_of_ne h ..

theorem put_eq_some {c : Calls τ} {i j : Nat} {t u : τ} (h : c.put i t j = some u) :
    (j = i ∧ u = t) ∨ (j ≠ i ∧ c j = some u) := by
  by_cases same : j = i
  · subst j
    rw [put_self] at h
    exact .inl ⟨rfl, (Option.some.inj h).symm⟩
  · exact .inr ⟨same, by rwa [put_of_ne c t same] at h⟩

theorem drop_eq_some {c : Calls τ} {i j : Nat} {u : τ} (h : c.drop i j = some u) : j ≠ i ∧ c j = some u := by
  by_cases same : j = i
  · subst j
    rw [drop_self] at h
    cases h
  · exact ⟨same, by rwa [drop_of_ne c same] at h⟩

theorem modify_self (c : Calls τ) (i : Nat) (f : τ → τ) : c.modify i f i = (c i).map f :=
  Function.update_self ..

theorem modify_eq_some {c : Calls τ} {f : τ → τ} {i j : Nat} {u : τ} (h : c.modify i f j = some u) :
    (j = i ∧ ∃ t, c i = some t ∧ u = f t) ∨ (j ≠ i ∧ c j = some u) := by
  by_cases same : j = i
  · subst j
    rw [modify, Function.update_self] at h
    obtain ⟨t, found, rfl⟩ := Option.map_eq_some_iff.mp h
    exact .inl ⟨rfl, t, found, rfl⟩
  · exact .inr ⟨same, by rwa [modify, Function.update_of_ne same] at h⟩

theorem mapAll_eq_some {c : Calls τ} {f : τ → τ} {i : Nat} {u : τ} (h : c.mapAll f i = some u) :
    ∃ t, c i = some t ∧ u = f t := by
  obtain ⟨t, found, rfl⟩ := Option.map_eq_some_iff.mp h
  exact ⟨t, found, rfl⟩

theorem Forall.put {P : Nat → τ → Prop} {c : Calls τ} (h : c.Forall P) {i : Nat} {t : τ}
    (ht : P i t) : (c.put i t).Forall P := by
  intro j u hu
  rcases put_eq_some hu with ⟨rfl, rfl⟩ | ⟨_, old⟩
  · exact ht
  · exact h j u old

theorem Forall.drop {P : Nat → τ → Prop} {c : Calls τ} (h : c.Forall P) (i : Nat) : (c.drop i).Forall P :=
  fun j u hu => h j u (drop_eq_some hu).2

theorem Forall.imp {P Q : Nat → τ → Prop} {c : Calls τ} (h : c.Forall P) (imp : ∀ i t, P i t → Q i t) : c.Forall Q :=
  fun i t ht => imp i t (h i t ht)

end Calls
end Interleaving
