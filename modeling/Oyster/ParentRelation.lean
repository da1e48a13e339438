import Mathlib.Data.List.Sublists

/-! A parent relation that nothing is known of: parents may be missing, and the
way up may run into a cycle. -/
namespace ParentRelation

variable {ι : Type*} (parent : ι → Option ι)

/-- The ancestor that is `n` steps up. -/
def climb : Nat → ι → Option ι
  | 0, x => some x
  | n + 1, x => (climb n x).bind parent

def ascend [DecidableEq ι] : (fuel : Nat) → (seen : List ι) → ι → List ι × ι
  | 0, seen, x => (seen, x)
  | fuel + 1, seen, x =>
    match parent x with
    | none => (seen, x)
    | some y => if x ∈ seen then (seen, x) else ascend fuel (seen ++ [x]) y

/-- `seen` is the way from `x` up to `y`, without a place twice. -/
structure Way (x : ι) (seen : List ι) (y : ι) : Prop where
  steps : ∀ i z, seen[i]? = some z → climb parent i x = some z
  ends : climb parent seen.length x = some y
  nodup : seen.Nodup

variable {parent}

theorem climb_succ {n : Nat} {x y : ι} (h : climb parent n x = some y) : climb parent (n + 1) x = parent y := by
  rw [climb, h, Option.bind_some]

theorem climb_add (m n : Nat) (x : ι) : climb parent (m + n) x = (climb parent m x).bind (climb parent n) := by
  induction n with
  | zero => cases climb parent m x <;> rfl
  | succ n ih =>
    rw [← Nat.add_assoc, climb, ih, Option.bind_assoc]
    rfl

theorem climb_below {n : Nat} {x y : ι} (up : parent x = some y) : climb parent (n + 1) x = climb parent n y := by
  rw [Nat.add_comm, climb_add]
  simp [climb, up]

theorem climb_between {m n : Nat} {x z : ι} (le : m ≤ n) (h : climb parent n x = some z) :
    ∃ y, climb parent m x = some y := by
  induction n generalizing z with
  | zero =>
    obtain rfl := Nat.le_zero.mp le
    exact ⟨z, h⟩
  | succ n ih =>
    rcases Nat.of_le_succ le with less | rfl
    · obtain ⟨y, above, _⟩ := Option.bind_eq_some_iff.mp h
      exact ih less above
    · exact ⟨z, h⟩

theorem Way.start (x : ι) : Way parent x [] x :=
  ⟨fun i z none => by simp at none, rfl, List.nodup_nil⟩

theorem Way.step {x y z : ι} {seen : List ι} (way : Way parent x seen y) (fresh : y ∉ seen)
    (up : parent y = some z) : Way parent x (seen ++ [y]) z := by
  refine ⟨?_, ?_, ?_⟩
  · intro i w found
    rw [List.getElem?_append] at found
    split_ifs at found with inside
    · exact way.steps i w found
    · obtain ⟨last, rfl⟩ := List.getElem?_eq_some_iff.mp found
      have at_end : i = seen.length := by
        simp only [List.length_singleton] at last
        omega
      simp [at_end, way.ends]
  · rw [List.length_append, List.length_singleton, climb_succ way.ends, up]
  · exact List.nodup_append.mpr ⟨way.nodup, List.nodup_singleton y, fun a inside b last same =>
      fresh (List.mem_singleton.mp last ▸ same ▸ inside)⟩

/-- `x` first meets `top` after `n` steps up. -/
structure Below (parent : ι → Option ι) (top : ι) (n : Nat) (x : ι) : Prop where
  climbs : climb parent n x = some top
  first : ∀ m < n, climb parent m x ≠ some top

theorem Below.refl (top : ι) : Below parent top 0 top :=
  ⟨rfl, fun m less => absurd less (Nat.not_lt_zero m)⟩

theorem Below.child {top x y : ι} {n : Nat} (below : Below parent top n y) (up : parent x = some y) (new : x ≠ top) :
    Below parent top (n + 1) x := by
  refine ⟨(climb_below up).trans below.climbs, ?_⟩
  intro m less
  cases m with
  | zero => exact fun same => new (Option.some.inj same)
  | succ m => exact (climb_below up) ▸ below.first m (Nat.lt_of_succ_lt_succ less)

theorem Below.up {top x : ι} {n : Nat} (below : Below parent top (n + 1) x) :
    ∃ y, parent x = some y ∧ Below parent top n y := by
  obtain ⟨y, up⟩ := climb_between (Nat.succ_le_succ (Nat.zero_le n)) below.climbs
  refine ⟨y, up, (climb_below up).symm.trans below.climbs, fun m less => ?_⟩
  exact (climb_below up) ▸ below.first (m + 1) (Nat.succ_lt_succ less)

/-- Below the first meeting with `top` there is no way round. -/
theorem Below.no_return {top x : ι} {m n : Nat} (below : Below parent top n x) (positive : 0 < m) (le : m ≤ n) :
    climb parent m x ≠ some x := by
  intro back
  have again := below.climbs
  rw [← Nat.add_sub_cancel' le, climb_add, back, Option.bind_some] at again
  exact below.first (n - m) (by omega) again

/-- `y` is one of the `n` nearest ancestors of `x`. -/
def Above (parent : ι → Option ι) (n : Nat) (x y : ι) : Prop := ∃ m, 0 < m ∧ m ≤ n ∧ climb parent m x = some y

theorem not_above_zero (x y : ι) : ¬Above parent 0 x y := fun ⟨_, positive, le, _⟩ => by omega

theorem above_child {n : Nat} {x y z : ι} (up : parent x = some y) :
    Above parent (n + 1) x z ↔ z = y ∨ Above parent n y z := by
  constructor
  · rintro ⟨m, positive, le, climbed⟩
    obtain ⟨m, rfl⟩ := Nat.exists_eq_succ_of_ne_zero positive.ne'
    rw [climb_below up] at climbed
    cases m with
    | zero => exact .inl (Option.some.inj climbed).symm
    | succ m => exact .inr ⟨m + 1, Nat.succ_pos m, Nat.le_of_succ_le_succ le, climbed⟩
  · rintro (rfl | ⟨m, positive, le, climbed⟩)
    · exact ⟨1, Nat.one_pos, by omega, up⟩
    · exact ⟨m + 1, Nat.succ_pos m, by omega, (climb_below up).trans climbed⟩

theorem Below.not_above {top x : ι} {n : Nat} (below : Below parent top n x) : ¬Above parent n x x :=
  fun ⟨_, positive, le, climbed⟩ => below.no_return positive le climbed

theorem Below.above {top x : ι} {n : Nat} (below : Below parent top n x) (positive : 0 < n) : Above parent n x top :=
  ⟨n, positive, Nat.le_refl n, below.climbs⟩

theorem climb_fixed {x : ι} (own : parent x = some x) (n : Nat) : climb parent n x = some x := by
  induction n with
  | zero => rfl
  | succ n ih => rw [climb, ih, Option.bind_some, own]

theorem climb_cycle {x : ι} {period : Nat} (round : climb parent period x = some x) (times : Nat) :
    climb parent (times * period) x = some x := by
  induction times with
  | zero => rw [Nat.zero_mul, climb]
  | succ times ih => rw [Nat.succ_mul, climb_add, ih, Option.bind_some, round]

theorem Way.fixed {x y z : ι} {seen : List ι} (way : Way parent x seen y) (stopped : parent y = none ∨ y ∈ seen)
    {n : Nat} (climbed : climb parent n x = some z) (own : parent z = some z) : y = z := by
  rcases Nat.le_total n seen.length with before | after
  · have ends := way.ends
    rw [← Nat.add_sub_cancel' before, climb_add, climbed, Option.bind_some, climb_fixed own] at ends
    exact (Option.some.inj ends).symm
  · rw [← Nat.add_sub_cancel' after, climb_add, way.ends, Option.bind_some] at climbed
    rcases stopped with last | known
    · cases more : n - seen.length with
      | zero =>
        rw [more, climb] at climbed
        exact Option.some.inj climbed
      | succ k =>
        rw [more] at climbed
        obtain ⟨w, up⟩ := climb_between (Nat.succ_le_succ (Nat.zero_le k)) climbed
        exact nomatch up.symm.trans last
    · obtain ⟨i, less, found⟩ := List.getElem_of_mem known
      have round := way.ends
      rw [← Nat.add_sub_cancel' less.le, climb_add,
        way.steps i y (List.getElem?_eq_some_iff.mpr ⟨less, found⟩), Option.bind_some] at round
      -- far enough round the circle one is at `z` for good, and at `y` again
      have again := climb_cycle round (n - seen.length)
      have far : n - seen.length ≤ (n - seen.length) * (seen.length - i) :=
        Nat.le_mul_of_pos_right _ (Nat.sub_pos_of_lt less)
      rw [← Nat.add_sub_cancel' far, climb_add, climbed, Option.bind_some, climb_fixed own] at again
      exact (Option.some.inj again).symm

def Climbs (parent : ι → Option ι) (x y : ι) : Prop := ∃ n, climb parent n x = some y

/-- Where the way up from `x` ends: it has no parent, or the way leads back to it. -/
def Top (parent : ι → Option ι) (x top : ι) : Prop :=
  Climbs parent x top ∧ (parent top = none ∨ ∃ n, 0 < n ∧ climb parent n top = some top)

theorem Climbs.refl (x : ι) : Climbs parent x x := ⟨0, rfl⟩

theorem Climbs.trans {x y z : ι} (xy : Climbs parent x y) (yz : Climbs parent y z) : Climbs parent x z := by
  obtain ⟨m, up⟩ := xy
  obtain ⟨n, further⟩ := yz
  exact ⟨m + n, by rw [climb_add, up, Option.bind_some, further]⟩

theorem Climbs.of_parent {x y : ι} (up : parent x = some y) : Climbs parent x y :=
  ⟨1, by rw [climb, climb, Option.bind_some, up]⟩

theorem Climbs.head {x y : ι} (h : Climbs parent x y) : x = y ∨ ∃ z, parent x = some z ∧ Climbs parent z y := by
  obtain ⟨n, up⟩ := h
  cases n with
  | zero => exact .inl (Option.some.inj up)
  | succ n =>
    obtain ⟨z, first⟩ := climb_between (Nat.succ_le_succ (Nat.zero_le n)) up
    exact .inr ⟨z, first, n, (climb_below first).symm.trans up⟩

theorem Climbs.mono {other : ι → Option ι} (less : ∀ x y, parent x = some y → other x = some y) {n : Nat} {x y : ι}
    (h : climb parent n x = some y) : climb other n x = some y := by
  induction n generalizing y with
  | zero => exact h
  | succ n ih =>
    obtain ⟨z, below, up⟩ := Option.bind_eq_some_iff.mp h
    exact (climb_succ (ih below)).trans (less z y up)

theorem Climbs.agree {other : ι → Option ι} {y : ι} (same : ∀ x, Climbs parent x y → x = y ∨ other x = parent x) {x : ι}
    (h : Climbs parent x y) : Climbs other x y := by
  obtain ⟨n, up⟩ := h
  induction n generalizing x with
  | zero => exact Option.some.inj up ▸ .refl x
  | succ n ih =>
    obtain rfl | agrees := same x ⟨n + 1, up⟩
    · exact .refl x
    · obtain ⟨z, first⟩ := climb_between (Nat.succ_le_succ (Nat.zero_le n)) up
      have rest := ih ((climb_below first).symm.trans up)
      exact (Climbs.of_parent (agrees.trans first)).trans rest

theorem Climbs.linear {x y z : ι} (xy : Climbs parent x y) (xz : Climbs parent x z) :
    Climbs parent y z ∨ Climbs parent z y := by
  obtain ⟨m, up⟩ := xy
  obtain ⟨n, further⟩ := xz
  rcases Nat.le_total m n with le | le
  · refine .inl ⟨n - m, ?_⟩
    rwa [← Nat.add_sub_cancel' le, climb_add, up, Option.bind_some] at further
  · refine .inr ⟨m - n, ?_⟩
    rwa [← Nat.add_sub_cancel' le, climb_add, further, Option.bind_some] at up

theorem Top.above {x y top : ι} (h : Top parent x top) (up : Climbs parent x y) : Climbs parent y top := by
  obtain ⟨climbs, ends⟩ := h
  obtain above | ⟨n, further⟩ := up.linear climbs
  · exact above
  · obtain last | ⟨period, positive, round⟩ := ends
    · cases n with
      | zero => exact Option.some.inj further ▸ .refl top
      | succ n =>
        obtain ⟨z, first⟩ := climb_between (Nat.succ_le_succ (Nat.zero_le n)) further
        exact nomatch first.symm.trans last
    · -- after enough rounds one is past `y`, and at the top again
      have far : n ≤ n * period := Nat.le_mul_of_pos_right n positive
      have again := climb_cycle round n
      rw [← Nat.add_sub_cancel' far, climb_add, further, Option.bind_some] at again
      exact ⟨_, again⟩

theorem Top.of_climbs {x y top : ι} (h : Top parent x top) (up : Climbs parent y top) : Top parent y top :=
  ⟨up, h.2⟩

theorem Top.same {x top other : ι} (h : Top parent x top) (h' : Top parent x other) (y : ι) :
    Climbs parent y top ↔ Climbs parent y other :=
  ⟨fun up => up.trans (h'.above h.1), fun up => up.trans (h.above h'.1)⟩

theorem Way.top {x y : ι} {seen : List ι} (way : Way parent x seen y) (stopped : parent y = none ∨ y ∈ seen) :
    Top parent x y := by
  refine ⟨⟨seen.length, way.ends⟩, stopped.imp_right fun known => ?_⟩
  obtain ⟨i, less, found⟩ := List.getElem_of_mem known
  refine ⟨seen.length - i, Nat.sub_pos_of_lt less, ?_⟩
  have ends := way.ends
  rwa [← Nat.add_sub_cancel' less.le, climb_add, way.steps i y (List.getElem?_eq_some_iff.mpr ⟨less, found⟩),
    Option.bind_some] at ends

theorem Way.round {x y z : ι} {seen : List ι} (way : Way parent x seen y) (up : parent y = some z)
    (known : z ∈ seen ++ [y]) : Top parent x y := by
  refine ⟨⟨seen.length, way.ends⟩, .inr ?_⟩
  obtain old | last := List.mem_append.mp known
  · obtain ⟨i, less, found⟩ := List.getElem_of_mem old
    have ends := way.ends
    rw [← Nat.add_sub_cancel' less.le, climb_add, way.steps i z (List.getElem?_eq_some_iff.mpr ⟨less, found⟩),
      Option.bind_some] at ends
    exact ⟨seen.length - i + 1, Nat.succ_pos _, (climb_below up).trans ends⟩
  · rw [List.mem_singleton.mp last] at up
    exact ⟨1, Nat.one_pos, climb_below up⟩

section Ascend
variable [DecidableEq ι]

theorem ascend_way {fuel : Nat} {x y : ι} {seen : List ι} (way : Way parent x seen y) :
    Way parent x (ascend parent fuel seen y).1 (ascend parent fuel seen y).2 := by
  induction fuel generalizing seen y with
  | zero => exact way
  | succ fuel ih =>
    unfold ascend
    cases up : parent y with
    | none => exact way
    | some z =>
      split_ifs with known
      · exact way
      · exact ih (way.step known up)

theorem ascend_stops (nodes : List ι) (closed : ∀ x y, parent x = some y → y ∈ nodes) {fuel : Nat} {y : ι}
    {seen : List ι} (nodup : seen.Nodup) (inside : ∀ z ∈ seen, z ∈ nodes) (here : y ∈ nodes)
    (enough : nodes.length < fuel + seen.length) :
    parent (ascend parent fuel seen y).2 = none ∨ (ascend parent fuel seen y).2 ∈ (ascend parent fuel seen y).1 := by
  induction fuel generalizing seen y with
  | zero =>
    have short := (nodup.subperm inside).length_le
    omega
  | succ fuel ih =>
    unfold ascend
    cases up : parent y with
    | none => exact .inl up
    | some z =>
      split_ifs with known
      · exact .inr known
      · refine ih ?_ ?_ (closed y z up) ?_
        · exact List.nodup_append.mpr ⟨nodup, List.nodup_singleton y, fun a old b last same =>
            known (List.mem_singleton.mp last ▸ same ▸ old)⟩
        · intro w mem
          rcases List.mem_append.mp mem with old | last
          · exact inside w old
          · exact List.mem_singleton.mp last ▸ here
        · rw [List.length_append, List.length_singleton]
          omega

theorem ascend_top (nodes : List ι) (closed : ∀ x y, parent x = some y → x ∈ nodes ∧ y ∈ nodes) {fuel : Nat}
    (enough : nodes.length < fuel) (x : ι) : Top parent x (ascend parent fuel [] x).2 := by
  have way : Way parent x (ascend parent fuel [] x).1 (ascend parent fuel [] x).2 := ascend_way (.start x)
  cases up : parent x with
  | none =>
    refine way.top (.inl ?_)
    cases fuel with
    | zero => exact up
    | succ fuel =>
      rw [ascend, up]
      exact up
  | some y =>
    refine way.top (ascend_stops nodes (fun z w up => (closed z w up).2) List.nodup_nil ?_ (closed x y up).1 enough)
    exact fun z absurd => nomatch absurd

/-- The places that a climb has been at, each once, in the order in which it came to them. -/
def visited (parent : ι → Option ι) (fuel : Nat) (seen : List ι) (x : ι) : List ι :=
  let climbed := ascend parent fuel seen x
  if climbed.2 ∈ climbed.1 then climbed.1 else climbed.1 ++ [climbed.2]

theorem visited_known {x : ι} {seen : List ι} (known : x ∈ seen) (fuel : Nat) : visited parent fuel seen x = seen := by
  have stays : ascend parent fuel seen x = (seen, x) := by
    cases fuel with
    | zero => rfl
    | succ fuel =>
      unfold ascend
      cases parent x with
      | none => rfl
      | some y => exact if_pos known
  simp only [visited, stays, if_pos known]

theorem visited_last {x : ι} {seen : List ι} (new : x ∉ seen) (last : parent x = none) (fuel : Nat) :
    visited parent fuel seen x = seen ++ [x] := by
  have stays : ascend parent fuel seen x = (seen, x) := by
    cases fuel with
    | zero => rfl
    | succ fuel =>
      unfold ascend
      rw [last]
  simp only [visited, stays, if_neg new]

theorem visited_step {x y : ι} {seen : List ι} (new : x ∉ seen) (up : parent x = some y) (fuel : Nat) :
    visited parent (fuel + 1) seen x = visited parent fuel (seen ++ [x]) y := by
  have goes : ascend parent (fuel + 1) seen x = ascend parent fuel (seen ++ [x]) y := by
    rw [ascend, up]
    exact if_neg new
  simp only [visited, goes]

theorem Way.height {x y : ι} {seen : List ι} (way : Way parent x seen y) :
    ∃ j, Below parent y j x ∧ j < (if y ∈ seen then seen else seen ++ [y]).length := by
  have listed : ∀ i z, i < seen.length → climb parent i x = some z → seen[i]? = some z := by
    intro i z less climbed
    rw [way.steps i seen[i] (List.getElem?_eq_getElem less)] at climbed
    rw [List.getElem?_eq_getElem less, Option.some.inj climbed]
  split_ifs with known
  · obtain ⟨j, less, found⟩ := List.getElem_of_mem known
    refine ⟨j, ⟨way.steps j y (List.getElem?_eq_some_iff.mpr ⟨less, found⟩), ?_⟩, less⟩
    intro m before climbed
    have same := (listed m y (by omega) climbed).trans (List.getElem?_eq_some_iff.mpr ⟨less, found⟩).symm
    have := (List.getElem?_inj (by omega) way.nodup).mp same
    omega
  · refine ⟨seen.length, ⟨way.ends, ?_⟩, by simp⟩
    intro m less climbed
    exact known (List.mem_of_getElem? (listed m y less climbed))

end Ascend

/-- The whole way up from a place to one without a parent. -/
inductive Lineage (parent : ι → Option ι) : ι → List ι → Prop
  | root {x : ι} (last : parent x = none) : Lineage parent x [x]
  | child {x y : ι} {above : List ι} (up : parent x = some y) (rest : Lineage parent y above) :
      Lineage parent x (x :: above)

theorem Lineage.unique {x : ι} {l m : List ι} (h : Lineage parent x l) (k : Lineage parent x m) : l = m := by
  induction h generalizing m with
  | root last =>
    cases k with
    | root => rfl
    | child up => rw [last] at up; cases up
  | child up _ ih =>
    cases k with
    | root last => rw [last] at up; cases up
    | child up' rest' =>
      rw [up] at up'
      cases up'
      rw [ih rest']

theorem Lineage.of_mem {x y : ι} {l : List ι} (h : Lineage parent x l) (mem : y ∈ l) :
    ∃ m, Lineage parent y m ∧ m.length ≤ l.length := by
  induction h with
  | root last =>
    obtain rfl := List.mem_singleton.mp mem
    exact ⟨_, .root last, le_rfl⟩
  | child up rest ih =>
    cases List.mem_cons.mp mem with
    | inl same =>
      obtain rfl := same
      exact ⟨_, .child up rest, le_rfl⟩
    | inr above =>
      obtain ⟨m, lineage, short⟩ := ih above
      exact ⟨m, lineage, Nat.le_succ_of_le short⟩

theorem Lineage.nodup {x : ι} {l : List ι} (h : Lineage parent x l) : l.Nodup := by
  induction h with
  | root => exact List.nodup_singleton _
  | child up rest ih =>
    refine List.nodup_cons.mpr ⟨fun again => ?_, ih⟩
    obtain ⟨m, lineage, short⟩ := rest.of_mem again
    rw [lineage.unique (.child up rest), List.length_cons] at short
    exact Nat.not_succ_le_self _ short

end ParentRelation
