import Mathlib.Data.List.Basic
import Mathlib.Data.List.Nodup
import Mathlib.Data.Finset.Card

/-! A map that is iterated in the order of insertion, as JavaScript's `Map` is:
writing to a present key keeps its place, and no key occurs twice. -/

structure OrderedMap (κ ν : Type*) where
  entries : List (κ × ν)
  nodup : (entries.map Prod.fst).Nodup

namespace OrderedMap
variable {κ ν : Type*}

def empty : OrderedMap κ ν := ⟨[], List.nodup_nil⟩

instance : Membership (κ × ν) (OrderedMap κ ν) := ⟨fun m e => e ∈ m.entries⟩

instance [DecidableEq κ] [DecidableEq ν] (e : κ × ν) (m : OrderedMap κ ν) : Decidable (e ∈ m) :=
  inferInstanceAs (Decidable (e ∈ m.entries))

variable {m : OrderedMap κ ν} {e : κ × ν}

theorem mem_iff : e ∈ m ↔ e ∈ m.entries := Iff.rfl

@[simp] theorem not_mem_empty (e : κ × ν) : ¬e ∈ (empty : OrderedMap κ ν) :=
  List.not_mem_nil

theorem value_unique {k : κ} {v w : ν} (hv : (k, v) ∈ m) (hw : (k, w) ∈ m) : v = w := by
  have same := List.inj_on_of_nodup_map m.nodup hv hw rfl
  exact (Prod.mk.inj same).2

section Keys
variable [DecidableEq κ]

def has (m : OrderedMap κ ν) (k : κ) : Bool := (m.entries.map Prod.fst).contains k

def get (m : OrderedMap κ ν) (k : κ) : Option ν :=
  (m.entries.find? fun e => e.1 = k).map Prod.snd

variable {m : OrderedMap κ ν} {k : κ}

theorem has_iff : m.has k = true ↔ ∃ v, (k, v) ∈ m := by
  simp [has, mem_iff]

variable {v : ν}

theorem mem_of_get (h : m.get k = some v) : (k, v) ∈ m := by
  obtain ⟨⟨key, value⟩, found, rfl⟩ := Option.map_eq_some_iff.mp h
  have same : key = k := by simpa using List.find?_some found
  subst same
  exact List.mem_of_find?_eq_some found

def replaced (m : OrderedMap κ ν) (k : κ) (v : ν) : List (κ × ν) :=
  m.entries.map fun e => if e.1 = k then (k, v) else e

theorem replaced_keys (m : OrderedMap κ ν) (k : κ) (v : ν) :
    (m.replaced k v).map Prod.fst = m.entries.map Prod.fst := by
  rw [replaced, List.map_map]
  apply List.map_congr_left
  intro e _
  simp only [Function.comp_apply]
  split_ifs with same
  · exact same.symm
  · rfl

def set (m : OrderedMap κ ν) (k : κ) (v : ν) : OrderedMap κ ν :=
  if present : m.has k = true then ⟨m.replaced k v, by rw [replaced_keys]; exact m.nodup⟩
  else ⟨m.entries ++ [(k, v)], by
    rw [List.map_append, List.nodup_append]
    refine ⟨m.nodup, List.nodup_singleton _, ?_⟩
    intro key inside other new same
    obtain rfl := List.mem_singleton.mp new
    subst same
    exact present (List.contains_iff_mem.mpr inside)⟩

def delete (m : OrderedMap κ ν) (k : κ) : OrderedMap κ ν :=
  ⟨m.entries.filter fun e => e.1 ≠ k, m.nodup.sublist (List.filter_sublist.map Prod.fst)⟩

variable {key : κ} {value : ν}

theorem mem_set : (key, value) ∈ m.set k v ↔ (key = k ∧ value = v) ∨ (key ≠ k ∧ (key, value) ∈ m) := by
  unfold set
  split_ifs with present
  · obtain ⟨old, inside⟩ := has_iff.mp present
    simp only [mem_iff, replaced, List.mem_map]
    constructor
    · rintro ⟨⟨key', value'⟩, mem, same⟩
      split_ifs at same with hk
      · exact .inl ⟨(Prod.mk.inj same).1.symm, (Prod.mk.inj same).2.symm⟩
      · cases same
        exact .inr ⟨hk, mem⟩
    · rintro (⟨rfl, rfl⟩ | ⟨other, mem⟩)
      · exact ⟨(key, old), inside, if_pos rfl⟩
      · exact ⟨(key, value), mem, if_neg other⟩
  · simp only [mem_iff, List.mem_append, List.mem_singleton, Prod.mk.injEq]
    constructor
    · rintro (mem | new)
      · refine .inr ⟨?_, mem⟩
        rintro rfl
        exact present (has_iff.mpr ⟨value, mem⟩)
      · exact .inl new
    · rintro (new | ⟨_, mem⟩)
      · exact .inr new
      · exact .inl mem

theorem mem_delete : (key, value) ∈ m.delete k ↔ key ≠ k ∧ (key, value) ∈ m := by
  simp [delete, mem_iff, and_comm]

theorem get_eq_some_iff : m.get k = some v ↔ (k, v) ∈ m := by
  refine ⟨mem_of_get, fun mem => ?_⟩
  cases found : m.get k with
  | none =>
    have absent := List.find?_eq_none.mp (Option.map_eq_none_iff.mp found) (k, v) mem
    simp at absent
  | some w => rw [value_unique (mem_of_get found) mem]

theorem get_set_eq_some {w : ν} (h : (m.set k v).get key = some w) :
    (key = k ∧ w = v) ∨ (key ≠ k ∧ m.get key = some w) := by
  rcases mem_set.mp (mem_of_get h) with same | ⟨other, mem⟩
  · exact .inl same
  · exact .inr ⟨other, get_eq_some_iff.mpr mem⟩

theorem get_set_self (m : OrderedMap κ ν) (k : κ) (v : ν) : (m.set k v).get k = some v :=
  get_eq_some_iff.mpr (mem_set.mpr (.inl ⟨rfl, rfl⟩))

theorem get_set_of_ne (m : OrderedMap κ ν) (v : ν) (other : key ≠ k) : (m.set k v).get key = m.get key := by
  ext w
  rw [get_eq_some_iff, get_eq_some_iff, mem_set]
  constructor
  · rintro (⟨same, _⟩ | ⟨_, mem⟩)
    · exact absurd same other
    · exact mem
  · exact fun mem => .inr ⟨other, mem⟩

/-- Change the value at a key, if it is present. -/
def modify (m : OrderedMap κ ν) (k : κ) (f : ν → ν) : OrderedMap κ ν :=
  match m.get k with
  | none => m
  | some v => m.set k (f v)

theorem mem_modify {f : ν → ν} : (key, value) ∈ m.modify k f ↔
      (key = k ∧ ∃ v, (k, v) ∈ m ∧ value = f v) ∨ (key ≠ k ∧ (key, value) ∈ m) := by
  unfold modify
  cases found : m.get k with
  | none =>
    have absent : ∀ v, (k, v) ∉ m := fun v mem => by
      rw [get_eq_some_iff.mpr mem] at found
      cases found
    constructor
    · intro mem
      exact .inr ⟨(fun same => absent value (same ▸ mem)), mem⟩
    · rintro (⟨rfl, v, mem, _⟩ | ⟨_, mem⟩)
      · exact absurd mem (absent v)
      · exact mem
  | some v =>
    have inside := mem_of_get found
    rw [mem_set]
    constructor
    · rintro (⟨rfl, rfl⟩ | other)
      · exact .inl ⟨rfl, v, inside, rfl⟩
      · exact .inr other
    · rintro (⟨rfl, w, mem, rfl⟩ | other)
      · exact .inl ⟨rfl, by rw [value_unique mem inside]⟩
      · exact .inr other

theorem has_modify (m : OrderedMap κ ν) (k key : κ) (f : ν → ν) : (m.modify k f).has key = m.has key := by
  rw [Bool.eq_iff_iff, has_iff, has_iff]
  constructor
  · rintro ⟨value, there⟩
    rcases mem_modify.mp there with ⟨rfl, old, before, -⟩ | ⟨-, before⟩
    · exact ⟨old, before⟩
    · exact ⟨value, before⟩
  · rintro ⟨value, there⟩
    by_cases same : key = k
    · subst same
      exact ⟨f value, mem_modify.mpr (.inl ⟨rfl, value, there, rfl⟩)⟩
    · exact ⟨value, mem_modify.mpr (.inr ⟨same, there⟩)⟩

theorem has_set : (m.set k v).has key = true ↔ key = k ∨ m.has key = true := by
  simp only [has_iff, mem_set]
  constructor
  · rintro ⟨w, ⟨same, -⟩ | ⟨-, inside⟩⟩
    · exact .inl same
    · exact .inr ⟨w, inside⟩
  · rintro (same | ⟨w, inside⟩)
    · exact ⟨v, .inl ⟨same, rfl⟩⟩
    · by_cases same : key = k
      · exact ⟨v, .inl ⟨same, rfl⟩⟩
      · exact ⟨w, .inr ⟨same, inside⟩⟩

theorem has_delete : (m.delete k).has key = true ↔ key ≠ k ∧ m.has key = true := by
  simp only [has_iff, mem_delete, exists_and_left]

theorem get_eq_none : m.get k = none ↔ m.has k = false := by
  rw [Option.eq_none_iff_forall_ne_some, ← Bool.not_eq_true, has_iff]
  simp only [ne_eq, get_eq_some_iff, not_exists]

def keys (m : OrderedMap κ ν) : Finset κ := (m.entries.map Prod.fst).toFinset

theorem mem_keys : k ∈ m.keys ↔ m.has k = true := by
  rw [keys, List.mem_toFinset, has, List.contains_iff_mem]

theorem card_keys (m : OrderedMap κ ν) : m.keys.card = m.entries.length := by
  rw [keys, List.toFinset_card_of_nodup m.nodup, List.length_map]

theorem keys_set (m : OrderedMap κ ν) (k : κ) (v : ν) : (m.set k v).keys = insert k m.keys := by
  ext key
  rw [mem_keys, has_set, Finset.mem_insert, mem_keys]

theorem keys_delete (m : OrderedMap κ ν) (k : κ) : (m.delete k).keys = m.keys.erase k := by
  ext key
  rw [mem_keys, has_delete, Finset.mem_erase, mem_keys]

end Keys

def mapValues (m : OrderedMap κ ν) (f : ν → ν) : OrderedMap κ ν :=
  ⟨m.entries.map fun e => (e.1, f e.2), by
    rw [List.map_map]
    exact m.nodup⟩

theorem mem_mapValues {f : ν → ν} {key : κ} {value : ν} :
    (key, value) ∈ m.mapValues f ↔ ∃ v, (key, v) ∈ m ∧ value = f v := by
  simp only [mapValues, mem_iff, List.mem_map, Prod.mk.injEq]
  constructor
  · rintro ⟨⟨k, v⟩, mem, rfl, rfl⟩
    exact ⟨v, mem, rfl⟩
  · rintro ⟨v, mem, rfl⟩
    exact ⟨(key, v), mem, rfl, rfl⟩

def filter (m : OrderedMap κ ν) (p : κ × ν → Bool) : OrderedMap κ ν :=
  ⟨m.entries.filter p, m.nodup.sublist (List.filter_sublist.map Prod.fst)⟩

theorem mem_filter {p : κ × ν → Bool} : e ∈ m.filter p ↔ e ∈ m ∧ p e = true :=
  List.mem_filter

end OrderedMap
