import Mathlib.Data.List.Basic
import Mathlib.Algebra.BigOperators.Group.List.Basic
import Mathlib.Algebra.Order.BigOperators.Group.List
import Mathlib.Algebra.Order.Group.Nat
import Mathlib.Algebra.GroupWithZero.Nat

/-! A sequence of pieces and of their images, each with a size: where an interval of the images
comes from. The scan over the pieces finds the least range of whole pieces whose images cover it. -/
namespace Pieces
variable {α : Type*}

/-- The size of the first pieces. -/
def offset (f : α → Nat) (ps : List α) (k : Nat) : Nat := ((ps.take k).map f).sum

theorem offset_succ (f : α → Nat) {ps : List α} {k : Nat} {p : α} {rest : List α} (h : ps.drop k = p :: rest) :
    offset f ps (k + 1) = offset f ps k + f p := by
  have next : ps[k]? = some p := by
    rw [← List.head?_drop, h]
    rfl
  rw [offset, List.take_add_one, next, Option.toList_some, List.map_append, List.sum_append]
  simp [offset]

theorem offset_mono (f : α → Nat) (ps : List α) {j k : Nat} (le : j ≤ k) : offset f ps j ≤ offset f ps k := by
  have sub : (ps.take j).Sublist (ps.take k) := (List.take_prefix_take_left le).sublist
  exact (sub.map f).sum_le_sum fun _ _ => Nat.zero_le _

theorem offset_length (f : α → Nat) (ps : List α) : offset f ps ps.length = (ps.map f).sum := by
  rw [offset, List.take_length]

/-- A range of whole pieces, from `index` on. -/
def Aligned (size : α → Nat) (ps : List α) (i j index length : Nat) : Prop :=
  i ≤ j ∧ j ≤ ps.length ∧ index = offset size ps i ∧ index + length = offset size ps j

/-- A range of whole pieces whose images reach from `start` to `stop`. -/
def Covers (size image : α → Nat) (ps : List α) (start stop index length : Nat) : Prop :=
  ∃ i j, Aligned size ps i j index length ∧ offset image ps i ≤ start ∧ stop ≤ offset image ps j

/-- A covering range that every other contains. -/
def Least (size image : α → Nat) (ps : List α) (start stop index length : Nat) : Prop :=
  Covers size image ps start stop index length ∧ ∀ index' length', Covers size image ps start stop index' length' →
      index' ≤ index ∧ index + length ≤ index' + length'

/-- The scan: `source` and `mapped` are the sizes behind it, `found` is where the range begins. -/
def locate (size image : α → Nat) (start stop : Nat) : List α → Nat → Nat → Option Nat → Option (Nat × Nat)
  | [], _, _, _ => none
  | p :: ps, source, mapped, found =>
    let nextSource := source + size p
    let nextMapped := mapped + image p
    let found := if found = none ∧ start < nextMapped then some source else found
    match found with
    | none => locate size image start stop ps nextSource nextMapped none
    | some first =>
      if stop ≤ nextMapped then some (first, nextSource - first)
      else locate size image start stop ps nextSource nextMapped (some first)

section
variable {size image : α → Nat} {ps : List α} {start stop : Nat}

/-- Where the range begins, if it is known after the first `k` pieces. -/
def Begins (size image : α → Nat) (ps : List α) (start k : Nat) : Option Nat → Prop
  | none => offset image ps k ≤ start
  | some first => ∃ i < k, first = offset size ps i ∧ offset image ps i ≤ start ∧ start < offset image ps (i + 1)

theorem least_of_tight {i j : Nat} (within : j ≤ ps.length) (before : offset image ps i ≤ start)
    (past : start < offset image ps (i + 1)) (short : offset image ps (j - 1) < stop)
    (covered : stop ≤ offset image ps j) (ordered : i < j) :
    Least size image ps start stop (offset size ps i) (offset size ps j - offset size ps i) := by
  have le := offset_mono size ps (Nat.le_of_lt ordered)
  refine ⟨⟨i, j, ⟨Nat.le_of_lt ordered, within, rfl, Nat.add_sub_cancel' le⟩, before, covered⟩, ?_⟩
  rintro index' length' ⟨i', j', ⟨_, _, rfl, ends⟩, before', covered'⟩
  rw [Nat.add_sub_cancel' le, ends]
  constructor
  · refine offset_mono size ps (Nat.le_of_not_lt fun later => ?_)
    have := offset_mono image ps (show i + 1 ≤ i' by omega)
    omega
  · refine offset_mono size ps (Nat.le_of_not_lt fun earlier => ?_)
    have := offset_mono image ps (show j' ≤ j - 1 by omega)
    omega

theorem locate_least {k : Nat} {rest : List α} {found : Option Nat} (h : ps.drop k = rest)
    (some_before : start < stop) (short : offset image ps k < stop) (enough : stop ≤ offset image ps ps.length)
    (begins : Begins size image ps start k found) :
    ∃ index length, locate size image start stop rest (offset size ps k) (offset image ps k) found =
        some (index, length) ∧ Least size image ps start stop index length := by
  induction rest generalizing k found with
  | nil =>
    have past : ps.length ≤ k := List.drop_eq_nil_iff.mp h
    have := offset_mono image ps past
    omega
  | cons p rest ih =>
    have next : ps.drop (k + 1) = rest := by
      rw [← List.drop_drop, h]
      rfl
    have inside : k + 1 ≤ ps.length := by
      by_contra past
      rw [List.drop_eq_nil_iff.mpr (by omega)] at h
      cases h
    rw [locate]
    simp only [← offset_succ size h, ← offset_succ image h]
    generalize eq : (if found = none ∧ start < offset image ps (k + 1) then some (offset size ps k) else found) =
      found'
    have begins' : Begins size image ps start (k + 1) found' := by
      rw [← eq]
      split_ifs with first
      · obtain ⟨rfl, past⟩ := first
        exact ⟨k, Nat.lt_succ_self k, rfl, begins, past⟩
      · cases found with
        | none => exact Nat.le_of_not_lt fun past => first ⟨rfl, past⟩
        | some first =>
          obtain ⟨i, less, rest⟩ := begins
          exact ⟨i, Nat.lt_succ_of_lt less, rest⟩
    cases found' with
    | none =>
      have behind : offset image ps (k + 1) ≤ start := begins'
      exact ih next (Nat.lt_of_le_of_lt behind some_before) behind
    | some first =>
      split_ifs with covered
      · obtain ⟨i, less, rfl, before, past⟩ := begins'
        exact ⟨_, _, rfl, least_of_tight inside before past short covered less⟩
      · exact ih next (Nat.lt_of_not_le covered) begins'

theorem locate_spec (nonempty : start < stop) (enough : stop ≤ (ps.map image).sum) :
    ∃ index length, locate size image start stop ps 0 0 none = some (index, length) ∧
      Least size image ps start stop index length := by
  rw [← offset_length] at enough
  exact @locate_least _ _ _ _ _ _ 0 _ _ rfl nonempty (Nat.lt_of_le_of_lt (Nat.zero_le start) nonempty) enough (Nat.zero_le _)

theorem sum_eq_iff (grows : ∀ p ∈ ps, size p ≤ image p) (same : (ps.map image).sum = (ps.map size).sum) :
    ∀ p ∈ ps, image p = size p := by
  induction ps with
  | nil => exact fun _ mem => nomatch mem
  | cons p ps ih =>
    obtain ⟨head, tail⟩ := List.forall_mem_cons.mp grows
    rw [List.map_cons, List.map_cons, List.sum_cons, List.sum_cons] at same
    have rest : (ps.map size).sum ≤ (ps.map image).sum := List.sum_le_sum tail
    exact List.forall_mem_cons.mpr ⟨by omega, ih tail (by omega)⟩

theorem least_of_same {i j : Nat} (same : ∀ p ∈ ps, image p = size p) (ordered : i ≤ j) (within : j ≤ ps.length)
    (first : start = offset size ps i) (last : stop = offset size ps j) :
    Least size image ps start stop start (stop - start) := by
  have offsets : ∀ k, offset image ps k = offset size ps k := by
    intro k
    rw [offset, List.map_congr_left fun p mem => same p (List.mem_of_mem_take mem)]
    rfl
  have le : start ≤ stop := by
    rw [first, last]
    exact offset_mono size ps ordered
  refine ⟨⟨i, j, ⟨ordered, within, first, by rw [Nat.add_sub_cancel' le, last]⟩, ?_, ?_⟩, ?_⟩
  · rw [offsets, first]
  · rw [offsets, last]
  · rintro index' length' ⟨i', j', ⟨_, _, rfl, ends⟩, before, covered⟩
    rw [offsets] at before covered
    omega

end

end Pieces
