import Mathlib.Algebra.BigOperators.Group.List.Basic
import Oyster.OrderedMap

/-! What the values of a map hold together, and how one write changes it. -/
namespace OrderedMap
variable {κ ν M : Type*} [AddCommMonoid M]

def sumOf (f : ν → M) (m : OrderedMap κ ν) : M := (m.entries.map fun e => f e.2).sum

variable [DecidableEq κ] {f : ν → M} {m : OrderedMap κ ν} {k : κ} {old : ν} {more : M} {new : ν}

theorem sum_replaced {entries : List (κ × ν)} (nodup : (entries.map Prod.fst).Nodup) (there : (k, old) ∈ entries)
    (grows : f new = f old + more) : ((entries.map fun e => if e.1 = k then (k, new) else e).map fun e => f e.2).sum =
      (entries.map fun e => f e.2).sum + more := by
  induction entries with
  | nil => cases there
  | cons entry entries ih =>
    rw [List.map_cons, List.nodup_cons] at nodup
    obtain ⟨fresh, nodup⟩ := nodup
    simp only [List.map_cons, List.sum_cons]
    rcases List.mem_cons.mp there with rfl | there
    · have rest : (entries.map fun e => if e.1 = k then (k, new) else e) = entries := by
        refine (List.map_congr_left fun e inside => ?_).trans (List.map_id entries)
        have listed : e.1 ∈ entries.map Prod.fst := List.mem_map_of_mem inside
        exact if_neg fun same : e.1 = k => fresh (same ▸ listed)
      rw [rest, if_pos rfl, grows, add_assoc, add_comm more, ← add_assoc]
    · have listed : k ∈ entries.map Prod.fst := List.mem_map_of_mem there
      have other : entry.1 ≠ k := fun same => fresh (same ▸ listed)
      rw [if_neg other, ih nodup there, add_assoc]

theorem sumOf_set_present (there : (k, old) ∈ m) (grows : f new = f old + more) :
    sumOf f (m.set k new) = sumOf f m + more := by
  rw [set, dif_pos (has_iff.mpr ⟨old, there⟩)]
  exact sum_replaced m.nodup there grows

theorem sumOf_set_new (absent : m.has k = false) (v : ν) : sumOf f (m.set k v) = sumOf f m + f v := by
  rw [set, dif_neg (Bool.not_eq_true _ ▸ absent), sumOf, List.map_append, List.sum_append, List.map_singleton,
    List.sum_singleton]
  rfl

theorem sumOf_modify (there : (k, old) ∈ m) {change : ν → ν} (grows : f (change old) = f old + more) :
    sumOf f (m.modify k change) = sumOf f m + more := by
  rw [modify, get_eq_some_iff.mpr there]
  exact sumOf_set_present there grows

end OrderedMap
