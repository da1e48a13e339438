import Mathlib.Data.List.Pairwise
import Mathlib.Tactic.Tauto

/-! An UPDATE of the selected rows of a table, one row after the other, with the table's
constraints checked at each row: a row may be refused because of a row that is updated
after it. -/
namespace RowUpdates
variable {ρ : Type*}

/-- What a table demands: of each row a check, and of no two rows that they clash. -/
structure Constraints (ρ : Type*) where
  check : ρ → Bool
  clash : ρ → ρ → Bool
  clash_comm : ∀ a b, clash a b = clash b a

structure Constraints.Hold (c : Constraints ρ) (rows : List ρ) : Prop where
  check : ∀ r ∈ rows, c.check r = true
  apart : rows.Pairwise fun a b => c.clash a b = false

section
variable (c : Constraints ρ) (p : ρ → Bool) (f : ρ → ρ)

def updateFrom (done : List ρ) : List ρ → Option (List ρ)
  | [] => some done
  | r :: rest =>
    if p r then
      if c.check (f r) && !(done ++ rest).any (c.clash (f r)) then updateFrom (done ++ [f r]) rest
      else none
    else updateFrom (done ++ [r]) rest

def update (rows : List ρ) : Option (List ρ) := updateFrom c p f [] rows

def updated (r : ρ) : ρ := if p r then f r else r

structure Admitted (rows : List ρ) : Prop where
  check : ∀ r ∈ rows, p r → c.check (f r) = true
  apart : rows.Pairwise fun a b =>
    (p a → c.clash (f a) b = false) ∧ (p b → c.clash (f b) (updated p f a) = false)

end

variable {c : Constraints ρ} {p : ρ → Bool} {f : ρ → ρ} {rows rows' done : List ρ} {r : ρ}

@[simp] theorem updated_of_selected (h : p r = true) : updated p f r = f r := if_pos h

@[simp] theorem updated_of_not (h : p r = false) : updated p f r = r := by
  simp [updated, h]

theorem admitted_nil : Admitted c p f [] := ⟨by simp, .nil⟩

theorem admitted_cons {rest : List ρ} : Admitted c p f (r :: rest) ↔
      (p r → c.check (f r) = true ∧ ∀ b ∈ rest, c.clash (f r) b = false) ∧
        (∀ b ∈ rest, p b → c.clash (f b) (updated p f r) = false) ∧ Admitted c p f rest := by
  constructor
  · intro ⟨check, apart⟩
    obtain ⟨first, later⟩ := List.pairwise_cons.mp apart
    refine ⟨fun hp => ⟨check r (by simp) hp, fun b hb => (first b hb).1 hp⟩, ?_, ?_⟩
    · intro b hb hp
      exact (first b hb).2 hp
    · exact ⟨fun b hb => check b (by simp [hb]), later⟩
  · intro ⟨own, after, admitted⟩
    refine ⟨?_, List.pairwise_cons.mpr ⟨?_, admitted.apart⟩⟩
    · intro b hb hp
      cases List.mem_cons.mp hb with
      | inl same => exact same ▸ (own (same ▸ hp)).1
      | inr later => exact admitted.check b later hp
    · intro b hb
      exact ⟨fun hp => (own hp).2 b hb, after b hb⟩

theorem updateFrom_eq_some_iff : updateFrom c p f done rows = some rows' ↔
      rows' = done ++ rows.map (updated p f) ∧ Admitted c p f rows ∧
        ∀ d ∈ done, ∀ r ∈ rows, p r → c.clash (f r) d = false := by
  induction rows generalizing done with
  | nil =>
    simp only [updateFrom, List.map_nil, List.append_nil, admitted_nil, List.not_mem_nil, false_implies,
      implies_true, and_true, Option.some.injEq]
    exact eq_comm
  | cons r rest ih =>
    have shift : done ++ (r :: rest).map (updated p f) = done ++ [updated p f r] ++ rest.map (updated p f) := by
      simp
    -- the rows after `r` meet the new row where they met `r`
    have before : (∀ d ∈ done ++ [updated p f r], ∀ b ∈ rest, p b → c.clash (f b) d = false) ↔
        (∀ d ∈ done, ∀ b ∈ rest, p b → c.clash (f b) d = false) ∧
          ∀ b ∈ rest, p b → c.clash (f b) (updated p f r) = false := by
      simp only [List.mem_append, List.mem_singleton, or_imp, forall_and, forall_eq]
    have all : (∀ d ∈ done, ∀ b ∈ r :: rest, p b → c.clash (f b) d = false) ↔
        (p r → ∀ d ∈ done, c.clash (f r) d = false) ∧ ∀ d ∈ done, ∀ b ∈ rest, p b → c.clash (f b) d = false := by
      simp only [List.mem_cons, or_imp, forall_and, forall_eq]
      exact and_congr_left fun _ => ⟨fun h hp d hd => h d hd hp, fun h d hd hp => h hp d hd⟩
    rw [updateFrom, shift, admitted_cons, all]
    cases selected : p r with
    | false =>
      rw [updated_of_not selected] at before ⊢
      rw [if_neg Bool.false_ne_true, ih, before]
      tauto
    | true =>
      rw [updated_of_selected selected] at before ⊢
      rw [if_pos rfl, Option.ite_none_right_eq_some, ih, before]
      have fits : (c.check (f r) && !(done ++ rest).any (c.clash (f r))) = true ↔
          c.check (f r) = true ∧ (∀ d ∈ done, c.clash (f r) d = false) ∧ ∀ b ∈ rest, c.clash (f r) b = false := by
        simp only [Bool.and_eq_true, Bool.not_eq_true', List.any_eq_false, List.mem_append, or_imp, forall_and,
          Bool.not_eq_true]
      tauto

theorem update_eq_some_iff :
    update c p f rows = some rows' ↔ rows' = rows.map (updated p f) ∧ Admitted c p f rows := by
  rw [update, updateFrom_eq_some_iff]
  simp

variable {a b : ρ}

theorem Constraints.Hold.eq_of_clash (h : c.Hold rows) (ha : a ∈ rows) (hb : b ∈ rows) (clash : c.clash a b = true) :
    a = b := by
  by_contra ne
  have symm : Std.Symm fun a b => c.clash a b = false := ⟨fun a b h => (c.clash_comm b a).trans h⟩
  have apart := List.Pairwise.forall h.apart ha hb ne
  exact absurd (clash.symm.trans apart) Bool.true_eq_false.mp

theorem Constraints.Hold.update (h : c.Hold rows) (step : update c p f rows = some rows') : c.Hold rows' := by
  obtain ⟨rfl, admitted⟩ := update_eq_some_iff.mp step
  refine ⟨?_, ?_⟩
  · intro r' hr'
    obtain ⟨r, hr, rfl⟩ := List.mem_map.mp hr'
    cases selected : p r with
    | true => rw [updated_of_selected selected]; exact admitted.check r hr selected
    | false => rw [updated_of_not selected]; exact h.check r hr
  · rw [List.pairwise_map]
    refine (h.apart.and admitted.apart).imp ?_
    intro a b ⟨old, first, second⟩
    cases hb : p b with
    | true =>
      rw [updated_of_selected hb, c.clash_comm]
      exact second hb
    | false =>
      rw [updated_of_not hb]
      cases ha : p a with
      | true => rw [updated_of_selected ha]; exact first ha
      | false => rw [updated_of_not ha]; exact old

theorem Admitted.stays (h : Admitted c p f rows) (ha : a ∈ rows) (hb : b ∈ rows) (selected : p a = true)
    (stays : p b = false) : c.clash (f a) b = false := by
  have one : rows.Pairwise fun a b => p a = true → p b = false → c.clash (f a) b = false :=
    h.apart.imp fun both hx _ => both.1 hx
  have other : rows.Pairwise (flip fun a b => p a = true → p b = false → c.clash (f a) b = false) := by
    refine h.apart.imp ?_
    intro x y both hy hx
    have := both.2 hy
    rwa [updated_of_not hx] at this
  have itself : ∀ x ∈ rows, p x = true → p x = false → c.clash (f x) x = false := by
    intro x _ yes no
    exact absurd (yes.symm.trans no) Bool.true_eq_false.mp
  exact List.Pairwise.forall_of_forall_of_flip itself one other ha hb selected stays

theorem Admitted.of_unread (h : c.Hold rows) (check : ∀ r, p r → c.check (f r) = c.check r)
    (clash : ∀ a b, p a → c.clash (f a) b = c.clash a b) : Admitted c p f rows := by
  refine ⟨fun r hr hp => by rw [check r hp, h.check r hr], h.apart.imp ?_⟩
  intro a b apart
  refine ⟨fun ha => by rw [clash a b ha, apart], fun hb => ?_⟩
  rw [clash b _ hb, c.clash_comm]
  cases ha : p a with
  | true => rw [updated_of_selected ha, clash a b ha, apart]
  | false => rw [updated_of_not ha, apart]

end RowUpdates
