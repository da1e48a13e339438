import Mathlib.Algebra.Order.Group.Multiset
import Oyster.OrderedMapSums

/-! Families of entries, one for each key of a root: what they hold together, and when each entry is in one of them. -/
namespace KeyedFamilies

structure Family (ε : Type*) where
  root : ε
  forks : List ε
deriving DecidableEq

def Family.members {ε : Type*} (f : Family ε) : List ε := f.root :: f.forks

variable {ε κ : Type*} [DecidableEq κ] (key : ε → κ)

def openFamily (families : OrderedMap κ (Family ε)) (root : ε) : OrderedMap κ (Family ε) :=
  if families.has (key root) then families else families.set (key root) ⟨root, []⟩

def place (families : OrderedMap κ (Family ε)) (x root : ε) : OrderedMap κ (Family ε) :=
  if key x = key root then openFamily key families root
  else (openFamily key families root).modify (key root) fun f => ⟨f.root, f.forks ++ [x]⟩

def group (root : ε → ε) (entries : List ε) : OrderedMap κ (Family ε) :=
  entries.foldl (fun families x => place key families x (root x)) .empty

structure Grouped (root : ε → ε) (met placed : List ε) (families : OrderedMap κ (Family ε)) : Prop where
  before : placed ⊆ met
  opened : ∀ k f, (k, f) ∈ families → key f.root = k ∧ ∃ y ∈ met, root y = f.root
  all : ∀ y ∈ met, families.has (key (root y)) = true
  forks : ∀ k f, (k, f) ∈ families → ∀ x, x ∈ f.forks ↔ x ∈ placed ∧ key (root x) = k ∧ key x ≠ k
  members : families.sumOf (fun f => (f.members : Multiset ε)) =
    families.sumOf (fun f => {f.root}) + (placed.filter fun x => key x ≠ key (root x) : List ε)

variable {key} {root : ε → ε} {met placed entries : List ε} {families : OrderedMap κ (Family ε)}

theorem Grouped.nil (root : ε → ε) : Grouped key root [] [] (.empty : OrderedMap κ (Family ε)) where
  before := List.Subset.refl _
  opened := fun _ _ absurd => nomatch absurd
  all := fun _ absurd => nomatch absurd
  forks := fun _ _ absurd => nomatch absurd
  members := rfl

theorem Grouped.open (h : Grouped key root met placed families) (x : ε) :
    Grouped key root (x :: met) placed (openFamily key families (root x)) := by
  have earlier : ∀ k f, (k, f) ∈ families → key f.root = k ∧ ∃ y ∈ x :: met, root y = f.root := fun k f old => by
    obtain ⟨same, y, mem, rest⟩ := h.opened k f old
    exact ⟨same, y, List.mem_cons_of_mem _ mem, rest⟩
  unfold openFamily
  cases present : families.has (key (root x)) with
  | true =>
    exact ⟨List.subset_cons_of_subset _ h.before, earlier, List.forall_mem_cons.mpr ⟨present, h.all⟩, h.forks, h.members⟩
  | false =>
    constructor
    · exact List.subset_cons_of_subset _ h.before
    · intro k f inside
      rcases OrderedMap.mem_set.mp inside with ⟨rfl, rfl⟩ | ⟨-, old⟩
      · exact ⟨rfl, x, List.mem_cons_self, rfl⟩
      · exact earlier k f old
    · intro y mem
      apply OrderedMap.has_set.mpr
      rcases List.mem_cons.mp mem with rfl | old
      · exact .inl rfl
      · exact .inr (h.all y old)
    · intro k f inside y
      rcases OrderedMap.mem_set.mp inside with ⟨rfl, rfl⟩ | ⟨-, old⟩
      · constructor
        · exact fun absurd => nomatch absurd
        · rintro ⟨mem, same, -⟩
          have known := h.all y (h.before mem)
          rw [same, present] at known
          cases known
      · exact h.forks k f old y
    · rw [if_neg Bool.false_ne_true, OrderedMap.sumOf_set_new present, OrderedMap.sumOf_set_new present, h.members,
        add_right_comm]
      rfl

variable {x : ε}

theorem Grouped.stay (h : Grouped key root met placed families) (there : x ∈ met) (same : key x = key (root x)) :
    Grouped key root met (placed ++ [x]) families where
  before := List.append_subset.mpr ⟨h.before, List.cons_subset.mpr ⟨there, List.nil_subset _⟩⟩
  opened := h.opened
  all := h.all
  forks := fun k f inside y => by
    rw [h.forks k f inside y, List.mem_append, List.mem_singleton]
    constructor
    · exact fun ⟨mem, rest⟩ => ⟨.inl mem, rest⟩
    · rintro ⟨mem | rfl, of_k, other⟩
      · exact ⟨mem, of_k, other⟩
      · exact absurd (same.trans of_k) other
  members := by
    rw [h.members, List.filter_append, List.filter_cons_of_neg (by simpa using same), List.filter_nil, List.append_nil]

theorem Grouped.push (h : Grouped key root met placed families) (there : x ∈ met) (moved : key x ≠ key (root x)) :
    Grouped key root met (placed ++ [x]) (families.modify (key (root x)) fun f => ⟨f.root, f.forks ++ [x]⟩) := by
  obtain ⟨own, inside⟩ := OrderedMap.has_iff.mp (h.all x there)
  constructor
  · exact List.append_subset.mpr ⟨h.before, List.cons_subset.mpr ⟨there, List.nil_subset _⟩⟩
  · intro k f mem
    rcases OrderedMap.mem_modify.mp mem with ⟨rfl, old, before, rfl⟩ | ⟨-, before⟩
    · exact h.opened _ old before
    · exact h.opened k f before
  · intro y mem
    rw [OrderedMap.has_modify]
    exact h.all y mem
  · intro k f mem y
    rw [List.mem_append, List.mem_singleton]
    rcases OrderedMap.mem_modify.mp mem with ⟨rfl, old, before, rfl⟩ | ⟨other, before⟩
    · rw [List.mem_append, List.mem_singleton, h.forks _ old before]
      constructor
      · rintro (⟨mem, rest⟩ | rfl)
        · exact ⟨.inl mem, rest⟩
        · exact ⟨.inr rfl, rfl, moved⟩
      · rintro ⟨mem | rfl, rest⟩
        · exact .inl ⟨mem, rest⟩
        · exact .inr rfl
    · rw [h.forks k f before]
      constructor
      · exact fun ⟨mem, rest⟩ => ⟨.inl mem, rest⟩
      · rintro ⟨mem | rfl, of_k, rest⟩
        · exact ⟨mem, of_k, rest⟩
        · exact absurd of_k.symm other
  · have one : ((⟨own.root, own.forks ++ [x]⟩ : Family ε).members : Multiset ε) =
        (own.members : Multiset ε) + {x} := rfl
    rw [OrderedMap.sumOf_modify inside one, OrderedMap.sumOf_modify inside (add_zero _).symm, h.members, add_zero, add_assoc,
      List.filter_append, List.filter_cons_of_pos (by simpa using moved), List.filter_nil]
    rfl

theorem Grouped.place (h : Grouped key root met placed families) (x : ε) :
    Grouped key root (x :: met) (placed ++ [x]) (place key families x (root x)) := by
  unfold KeyedFamilies.place
  split_ifs with same
  · exact (h.open x).stay List.mem_cons_self same
  · exact (h.open x).push List.mem_cons_self same

theorem grouped_group (root : ε → ε) (entries : List ε) : ∃ met, (∀ x, x ∈ met ↔ x ∈ entries) ∧
    Grouped key root met entries (group key root entries) := by
  induction entries using List.reverseRecOn with
  | nil => exact ⟨[], fun _ => Iff.rfl, .nil root⟩
  | append_singleton entries x ih =>
    obtain ⟨met, same, grouped⟩ := ih
    refine ⟨x :: met, fun y => ?_, ?_⟩
    · rw [List.mem_cons, List.mem_append, List.mem_singleton, same, or_comm]
    · rw [group, List.foldl_append, List.foldl_cons, List.foldl_nil]
      exact grouped.place x

def selfs (key : ε → κ) (root : ε → ε) (entries : List ε) : List ε := entries.filter fun x => key x = key (root x)

/-- No two entries claim one family as its root, and the root of each family claims it. -/
structure Clean (key : ε → κ) (root : ε → ε) (entries : List ε) : Prop where
  apart : ((selfs key root entries).map key).Nodup
  rooted : ∀ k f, (k, f) ∈ group key root entries → f.root ∈ selfs key root entries

theorem mem_selfs : x ∈ selfs key root entries ↔ x ∈ entries ∧ key x = key (root x) := by
  simp [selfs]

def familiesOf (key : ε → κ) (root : ε → ε) (entries : List ε) : List (Family ε) :=
  (group key root entries).entries.map Prod.snd

variable {f : Family ε}

theorem mem_familiesOf : f ∈ familiesOf key root entries ↔ ∃ k, (k, f) ∈ group key root entries := by
  simp [familiesOf, OrderedMap.mem_iff]

theorem coe_flatMap {α β : Type*} (g : α → List β) (l : List α) :
    (l.map fun a => (g a : Multiset β)).sum = (l.flatMap g : List β) := by
  induction l with
  | nil => rfl
  | cons a l ih => rw [List.map_cons, List.sum_cons, ih, List.flatMap_cons, ← Multiset.coe_add]

theorem perm_iff : ((familiesOf key root entries).flatMap Family.members).Perm entries ↔ Clean key root entries := by
  obtain ⟨met, same, grouped⟩ := @grouped_group _ _ _ key root entries
  have keys : ((familiesOf key root entries).map (·.root)).map key = (group key root entries).entries.map Prod.fst := by
    rw [familiesOf, List.map_map, List.map_map]
    exact List.map_congr_left fun e inside => (grouped.opened e.1 e.2 inside).1
  have nodup : (((familiesOf key root entries).map (·.root)).map key).Nodup := keys ▸ (group key root entries).nodup
  have members : (((familiesOf key root entries).flatMap Family.members : List ε) : Multiset ε) =
      ((familiesOf key root entries).map (·.root) : List ε) +
        (entries.filter fun x => key x ≠ key (root x) : List ε) := by
    have all := coe_flatMap (fun e : κ × Family ε => e.2.members) (group key root entries).entries
    have roots := coe_flatMap (fun e : κ × Family ε => [e.2.root]) (group key root entries).entries
    rw [← List.map_eq_flatMap] at roots
    rw [familiesOf, List.flatMap_map, List.map_map, ← all]
    exact grouped.members.trans (congrArg (· + _) roots)
  have split : (entries : Multiset ε) =
      (selfs key root entries : List ε) + (entries.filter fun x => key x ≠ key (root x) : List ε) := by
    simp only [selfs, ne_eq, decide_not]
    exact (Multiset.coe_eq_coe.mpr (List.filter_append_perm _ entries)).symm
  rw [← Multiset.coe_eq_coe, members]
  nth_rewrite 1 [split]
  rw [add_left_inj, Multiset.coe_eq_coe]
  constructor
  · intro perm
    refine ⟨(perm.map key).nodup_iff.mp nodup, fun k f inside => perm.mem_iff.mp ?_⟩
    exact List.mem_map_of_mem (mem_familiesOf.mpr ⟨k, inside⟩)
  · intro clean
    apply (List.perm_ext_iff_of_nodup (nodup.of_map key) (clean.apart.of_map key)).mpr
    intro x
    constructor
    · intro there
      obtain ⟨f, inside, rfl⟩ := List.mem_map.mp there
      obtain ⟨k, inside⟩ := mem_familiesOf.mp inside
      exact clean.rooted k f inside
    · intro there
      obtain ⟨listed, own⟩ := mem_selfs.mp there
      obtain ⟨f, inside⟩ := OrderedMap.has_iff.mp (grouped.all x ((same x).mpr listed))
      have equal : f.root = x := List.inj_on_of_nodup_map clean.apart (clean.rooted _ f inside) there
        ((grouped.opened _ f inside).1.trans own.symm)
      exact List.mem_map.mpr ⟨f, mem_familiesOf.mpr ⟨_, inside⟩, equal⟩

theorem exists_of_mem {k : κ} (inside : (k, f) ∈ group key root entries) : ∃ y ∈ entries, root y = f.root := by
  obtain ⟨met, same, grouped⟩ := @grouped_group _ _ _ key root entries
  obtain ⟨-, y, mem, rest⟩ := grouped.opened k f inside
  exact ⟨y, (same y).mp mem, rest⟩

theorem Clean.exists_eq (clean : Clean key root entries) (there : x ∈ selfs key root entries) :
    ∃ y ∈ entries, root y = x := by
  obtain ⟨met, same, grouped⟩ := @grouped_group _ _ _ key root entries
  obtain ⟨listed, own⟩ := mem_selfs.mp there
  obtain ⟨f, inside⟩ := OrderedMap.has_iff.mp (grouped.all x ((same x).mpr listed))
  obtain ⟨of_k, y, mem, rest⟩ := grouped.opened _ f inside
  have equal : f.root = x := List.inj_on_of_nodup_map clean.apart (clean.rooted _ f inside) there (of_k.trans own.symm)
  exact ⟨y, (same y).mp mem, rest.trans equal⟩

theorem Clean.together_iff (clean : Clean key root entries) {a b : ε} (ha : a ∈ entries) (hb : b ∈ entries) :
    (∃ f ∈ familiesOf key root entries, a ∈ f.members ∧ b ∈ f.members) ↔ key (root a) = key (root b) := by
  obtain ⟨met, same, grouped⟩ := @grouped_group _ _ _ key root entries
  have mem : ∀ k f, (k, f) ∈ group key root entries → ∀ x ∈ entries, x ∈ f.members ↔ key (root x) = k := by
    intro k f inside x listed
    have rooted := clean.rooted k f inside
    have of_k := (grouped.opened k f inside).1
    rw [Family.members, List.mem_cons, grouped.forks k f inside]
    constructor
    · rintro (rfl | ⟨-, of_k, -⟩)
      · exact (mem_selfs.mp rooted).2.symm.trans of_k
      · exact of_k
    · intro of_x
      by_cases own : key x = k
      · exact .inl (List.inj_on_of_nodup_map clean.apart (mem_selfs.mpr ⟨listed, own.trans of_x.symm⟩) rooted
          (own.trans of_k.symm))
      · exact .inr ⟨listed, of_x, own⟩
  constructor
  · rintro ⟨f, inside, of_a, of_b⟩
    obtain ⟨k, inside⟩ := mem_familiesOf.mp inside
    exact ((mem k f inside a ha).mp of_a).trans ((mem k f inside b hb).mp of_b).symm
  · intro equal
    obtain ⟨f, inside⟩ := OrderedMap.has_iff.mp (grouped.all a ((same a).mpr ha))
    exact ⟨f, mem_familiesOf.mpr ⟨_, inside⟩, (mem _ f inside a ha).mpr rfl, (mem _ f inside b hb).mpr equal.symm⟩

end KeyedFamilies
