import Mathlib.Data.Nat.Find
import Oyster.ParentRelation

/-! A walk up a parent relation that stops at a place whose key has come up. Places that are parents are known by their
keys; the place where the walk starts need not be. -/
namespace KeyedWalk
open ParentRelation

variable {ε κ : Type*} (next : ε → Option ε) (key : ε → κ)

/-- The walk, with the keys that have come up; `none` if the fuel is used up. -/
def walk [DecidableEq κ] : (fuel : Nat) → (seen : List κ) → ε → Option ε
  | 0, _, _ => none
  | fuel + 1, seen, x =>
    match next x with
    | none => some x
    | some y => if key x ∈ seen then some x else walk fuel (key x :: seen) y

inductive Ends : List κ → ε → ε → Prop
  | last {seen : List κ} {x : ε} (ended : next x = none) : Ends seen x x
  | again {seen : List κ} {x y : ε} (up : next x = some y) (known : key x ∈ seen) : Ends seen x x
  | step {seen : List κ} {x y r : ε} (up : next x = some y) (fresh : key x ∉ seen) (rest : Ends (key x :: seen) y r) :
      Ends seen x r

/-- A place without a parent, or its own parent. -/
def Stays (x : ε) : Prop := next x = none ∨ next x = some x

/-- The place `y` is above `x`. -/
def Leads (x y : ε) : Prop := ∃ n, climb next (n + 1) x = some y

/-- Parents are known by their keys. -/
def Keyed : Prop := ∀ ⦃x x' y y'⦄, next x = some y → next x' = some y' → key y = key y' → y = y'

/-- The way up does not lead back to a key, except where a place is its own parent. -/
def Acyclic (nodes : List ε) : Prop := ∀ x ∈ nodes, ∀ y, Leads next x y → key y = key x → next x = some x

variable {next key} {nodes : List ε} {seen : List κ} {x y z r : ε}

theorem Ends.unique {r' : ε} (h : Ends next key seen x r) (h' : Ends next key seen x r') : r = r' := by
  induction h with
  | last none =>
    cases h' with
    | last => rfl
    | again => rfl
    | step up => rw [none] at up; cases up
  | again up known =>
    cases h' with
    | last => rfl
    | again => rfl
    | step _ fresh => exact absurd known fresh
  | step up fresh _ ih =>
    cases h' with
    | last none => rw [none] at up; cases up
    | again _ known => exact absurd known fresh
    | step up' _ rest =>
      cases up.symm.trans up'
      exact ih rest

section Fuel
variable [DecidableEq κ]

theorem ends_of_walk {fuel : Nat} (h : walk next key fuel seen x = some r) : Ends next key seen x r := by
  induction fuel generalizing seen x with
  | zero => cases h
  | succ fuel ih =>
    unfold walk at h
    cases up : next x with
    | none =>
      rw [up] at h
      cases h
      exact .last up
    | some y =>
      rw [up] at h
      split_ifs at h with known
      · cases h
        exact .again up known
      · exact .step up known (ih h)

theorem walk_total (closed : ∀ x ∈ nodes, ∀ y, next x = some y → y ∈ nodes) {fuel : Nat} (here : x ∈ nodes)
    (nodup : seen.Nodup) (inside : seen ⊆ nodes.map key) (enough : nodes.length < fuel + seen.length) :
    ∃ r, walk next key fuel seen x = some r := by
  induction fuel generalizing seen x with
  | zero =>
    have short := (nodup.subperm inside).length_le
    rw [List.length_map] at short
    omega
  | succ fuel ih =>
    unfold walk
    cases up : next x with
    | none => exact ⟨x, rfl⟩
    | some y =>
      split_ifs with known
      · exact ⟨x, rfl⟩
      · refine ih (closed x here y up) (List.nodup_cons.mpr ⟨known, nodup⟩) ?_ ?_
        · exact List.cons_subset.mpr ⟨List.mem_map_of_mem here, inside⟩
        · rw [List.length_cons]
          omega

theorem exists_root (closed : ∀ x ∈ nodes, ∀ y, next x = some y → y ∈ nodes) (here : x ∈ nodes) :
    ∃ r, Ends next key [] x r ∧ ∀ fuel, nodes.length < fuel → walk next key fuel [] x = some r := by
  obtain ⟨r, found⟩ := @walk_total ε κ next key nodes [] x _ closed (nodes.length + 1) here List.nodup_nil
    (List.nil_subset _) (Nat.lt_succ_self _)
  have ends := ends_of_walk found
  refine ⟨r, ends, fun fuel enough => ?_⟩
  obtain ⟨r', found'⟩ := @walk_total ε κ next key nodes [] x _ closed fuel here List.nodup_nil
    (List.nil_subset _) enough
  rw [found', ends.unique (ends_of_walk found')]

end Fuel

theorem Ends.climbs (h : Ends next key seen x r) : Climbs next x r := by
  induction h with
  | last => exact .refl _
  | again => exact .refl _
  | step up _ _ ih => exact (Climbs.of_parent up).trans ih

theorem Ends.of_stays (stays : Stays next x) (h : Ends next key seen x r) : r = x := by
  cases h with
  | last => rfl
  | again => rfl
  | step up fresh rest =>
    rcases stays with none | own
    · rw [none] at up
      cases up
    · cases own.symm.trans up
      cases rest with
      | last => rfl
      | again => rfl
      | step _ fresh => exact absurd List.mem_cons_self fresh

theorem Leads.of_parent (up : next x = some y) : Leads next x y := ⟨0, (climb_below up).trans rfl⟩

theorem Leads.climbs (h : Leads next x y) : Climbs next x y := ⟨_, h.choose_spec⟩

theorem Leads.further (h : Leads next x y) (up : next y = some z) : Leads next x z :=
  ⟨_, (climb_succ h.choose_spec).trans up⟩

theorem climbs_iff : Climbs next x y ↔ x = y ∨ Leads next x y := by
  constructor
  · rintro ⟨n, up⟩
    cases n with
    | zero => exact .inl (Option.some.inj up)
    | succ n => exact .inr ⟨n, up⟩
  · rintro (rfl | above)
    · exact .refl x
    · exact above.climbs

theorem Leads.parent (h : Leads next x y) : ∃ z, next z = some y := by
  obtain ⟨n, up⟩ := h
  obtain ⟨z, -, last⟩ := Option.bind_eq_some_iff.mp up
  exact ⟨z, last⟩

theorem Ends.key_eq (keyed : Keyed next key) (h : Ends next key [] x r) (above : Leads next x y)
    (same : key y = key x) : key r = key x := by
  classical
  -- the nearest place above that has the key
  have exist : ∃ n, ∃ y, climb next (n + 1) x = some y ∧ key y = key x := by
    obtain ⟨n, up⟩ := above
    exact ⟨n, y, up, same⟩
  obtain ⟨top, up, keyTop⟩ := Nat.find_spec exist
  have least : ∀ n < Nat.find exist, ∀ y, climb next (n + 1) x = some y → key y ≠ key x := fun n less y up same =>
    Nat.find_min exist less ⟨y, up, same⟩
  generalize Nat.find exist = p at up least
  -- the keys that have come up are those of the places before
  suffices walked : ∀ m ≤ p + 1, ∀ z seen, climb next m x = some z →
      (∀ k ∈ seen, ∃ i < m, ∃ w, climb next i x = some w ∧ key w = k) → (0 < m → key x ∈ seen) →
      Ends next key seen z r → key r = key x from
    walked 0 (Nat.zero_le _) x [] rfl (fun _ absurd => nomatch absurd) (fun absurd => (Nat.lt_irrefl 0 absurd).elim) h
  clear h
  intro m le z seen climbed known first ends
  induction ends generalizing m with
  | @last seen z none =>
    rcases Nat.lt_or_eq_of_le le with before | rfl
    · obtain ⟨w, more⟩ := climb_between before up
      rw [climb_succ climbed, none] at more
      cases more
    · rw [climbed] at up
      exact Option.some.inj up ▸ keyTop
  | @again seen z z' more there =>
    obtain ⟨i, less, w, upto, keyed_w⟩ := known _ there
    cases i with
    | zero => rw [← Option.some.inj upto] at keyed_w; exact keyed_w.symm
    | succ i =>
      -- a place that comes up twice would be nearer than the nearest
      obtain ⟨m, rfl⟩ := Nat.exists_eq_succ_of_ne_zero (Nat.ne_of_gt (Nat.zero_lt_of_lt less))
      obtain ⟨w', -, last_w⟩ := Option.bind_eq_some_iff.mp upto
      obtain ⟨z'', -, last_z⟩ := Option.bind_eq_some_iff.mp climbed
      obtain rfl := keyed last_w last_z keyed_w
      have nearer : climb next (i + (p - m) + 1) x = some top := by
        have far : m + 1 + (p - m) = p + 1 := by omega
        rw [Nat.add_right_comm, climb_add, upto, ← climbed, ← climb_add, far, up]
      exact absurd keyTop (least _ (by omega) top nearer)
  | @step seen z z' r more fresh _ ih =>
    rcases Nat.lt_or_eq_of_le le with before | rfl
    · refine ih (m + 1) before ((climb_succ climbed).trans more) ?_ ?_
      · intro k there
        rcases List.mem_cons.mp there with rfl | there
        · exact ⟨m, Nat.lt_succ_self m, z, climbed, rfl⟩
        · obtain ⟨i, less, rest⟩ := known k there
          exact ⟨i, Nat.lt_succ_of_lt less, rest⟩
      · intro _
        cases m with
        | zero => rw [← Option.some.inj climbed]; exact List.mem_cons_self
        | succ m => exact List.mem_cons_of_mem _ (first (Nat.succ_pos m))
    · rw [climbed] at up
      cases up
      exact absurd (keyTop ▸ first (Nat.succ_pos p)) fresh

theorem Ends.stop {P : ε → Prop} (closed : ∀ y z, P y → next y = some z → P z) (h : Ends next key seen x r)
    (here : P x) (known : ∀ k ∈ seen, ∃ w, P w ∧ Leads next w x ∧ key w = k) :
    next r = none ∨ ∃ w, P w ∧ Leads next w r ∧ key w = key r := by
  induction h with
  | last none => exact .inl none
  | again _ there => exact .inr (known _ there)
  | @step seen x y r up _ _ ih =>
    apply ih (closed x y here up)
    intro k there
    rcases List.mem_cons.mp there with rfl | there
    · exact ⟨x, here, .of_parent up, rfl⟩
    · obtain ⟨w, inside, above, same⟩ := known k there
      exact ⟨w, inside, above.further up, same⟩

theorem Ends.of_end (keyed : Keyed next key) (h : Ends next key [] x r) (moved : key r ≠ key x) {r' : ε}
    (h' : Ends next key [] r r') : r' = r := by
  have closed : ∀ y z, (y = x ∨ ∃ u, next u = some y) → next y = some z → z = x ∨ ∃ u, next u = some z :=
    fun y _ _ up => .inr ⟨y, up⟩
  rcases h.stop closed (.inl rfl) (fun _ absurd => nomatch absurd) with none | ⟨w, rfl | ⟨u, up⟩, above, same⟩
  · exact h'.of_stays (.inl none)
  · exact absurd same.symm moved
  · obtain ⟨v, last⟩ := above.parent
    obtain rfl := keyed up last same
    rcases climbs_iff.mp h'.climbs with back | further
    · exact back.symm
    · obtain ⟨v', last'⟩ := further.parent
      exact keyed last' last (h'.key_eq keyed above rfl)

theorem climbs_stays (stays : Stays next x) (h : Climbs next x y) : y = x := by
  obtain ⟨n, up⟩ := h
  rcases stays with last | own
  · cases n with
    | zero => exact (Option.some.inj up).symm
    | succ n =>
      obtain ⟨z, first⟩ := climb_between (Nat.succ_le_succ (Nat.zero_le n)) up
      have first : next x = some z := first
      rw [last] at first
      cases first
  · rw [climb_fixed own] at up
    exact (Option.some.inj up).symm

section Acyclic
variable (acyclic : Acyclic next key nodes) (closed : ∀ x ∈ nodes, ∀ y, next x = some y → y ∈ nodes)
include acyclic

theorem Leads.stays (above : Leads next x y) (here : x ∈ nodes) (same : key y = key x) : Stays next x ∧ y = x := by
  have own := acyclic x here y above same
  exact ⟨.inr own, climbs_stays (.inr own) above.climbs⟩

theorem Ends.eq_of_key (h : Ends next key seen x r) (here : x ∈ nodes) (same : key r = key x) : r = x := by
  rcases climbs_iff.mp h.climbs with rfl | above
  · rfl
  · exact (above.stays acyclic here same).2

include closed

theorem Ends.stays (h : Ends next key [] x r) (here : x ∈ nodes) : Stays next r := by
  have up : ∀ y z, y ∈ nodes → next y = some z → z ∈ nodes := fun y z inside => closed y inside z
  rcases h.stop up here (fun _ absurd => nomatch absurd) with none | ⟨w, inside, above, same⟩
  · exact .inl none
  · obtain ⟨stays, rfl⟩ := above.stays acyclic inside same.symm
    exact stays

theorem Ends.of_parent (h : Ends next key [] x r) (here : x ∈ nodes) (up : next x = some y) {r' : ε}
    (h' : Ends next key [] y r') : r' = r := by
  have stays := h.stays acyclic closed here
  have stays' := h'.stays acyclic closed (closed x here y up)
  rcases h.climbs.linear ((Climbs.of_parent up).trans h'.climbs) with above | above
  · exact climbs_stays stays above
  · exact (climbs_stays stays' above).symm

end Acyclic

end KeyedWalk
