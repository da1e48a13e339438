import Oyster.PinnedWidgets

/-! The order in which a container shows its widgets, and what each transaction makes of it.
An order is the widgets of the container with rising positions, so that in a well-formed
store there is one only, whatever the comparison of ids. -/
namespace PinnedWidgets

structure Ordered (s : Store) (c : Container) (l : List String) : Prop where
  nodup : l.Nodup
  mem : ∀ j, j ∈ l ↔ ∃ w, (j, w) ∈ s.widgets ∧ w.container = c
  rising : l.Pairwise fun i j => ∀ v w, (i, v) ∈ s.widgets → (j, w) ∈ s.widgets → v.position ≤ w.position

variable {s : Store} {c : Container} {l : List String} {m : List String}

theorem Ordered.perm (h : Ordered s c l) (k : Ordered s c m) : l.Perm m := by
  rw [List.perm_ext_iff_of_nodup h.nodup k.nodup]
  intro j
  rw [h.mem, k.mem]

theorem Ordered.unique (distinct : Distinct s c) (h : Ordered s c l) (k : Ordered s c m) : l = m := by
  refine (h.perm k).eq_of_pairwise ?_ h.rising k.rising
  intro i j hi hj before after
  obtain ⟨v, memI, inI⟩ := (h.mem i).mp hi
  obtain ⟨w, memJ, inJ⟩ := (k.mem j).mp hj
  have same := Nat.le_antisymm (before v w memI memJ) (after w v memJ memI)
  exact distinct i v j w memI memJ inI inJ same

theorem Ordered.filter {t : Store} {id : String} (h : Ordered s c l)
    (mem : ∀ j, (∃ w, (j, w) ∈ t.widgets ∧ w.container = c) ↔ j ≠ id ∧ ∃ w, (j, w) ∈ s.widgets ∧ w.container = c)
    (same : ∀ j w, (j, w) ∈ t.widgets → j ≠ id → w.container = c →
      ∃ v, (j, v) ∈ s.widgets ∧ v.position = w.position) : Ordered t c (l.filter (· ≠ id)) := by
  refine ⟨h.nodup.filter _, fun j => ?_, ?_⟩
  · rw [List.mem_filter, h.mem, mem, decide_eq_true_iff, and_comm]
  · refine (h.rising.filter _).imp_of_mem ?_
    intro i j hi hj before v w memI memJ
    have kept : ∀ k x, k ∈ l.filter (· ≠ id) → (k, x) ∈ t.widgets →
        ∃ y, (k, y) ∈ s.widgets ∧ y.position = x.position := by
      intro k x listed present
      obtain ⟨listed, ne⟩ := List.mem_filter.mp listed
      obtain ⟨y, mem', inside⟩ := (mem k).mpr ⟨of_decide_eq_true ne, (h.mem k).mp listed⟩
      obtain rfl := OrderedMap.value_unique present mem'
      exact same k x present (of_decide_eq_true ne) inside
    obtain ⟨v', old, position⟩ := kept i v hi memI
    obtain ⟨w', old', position'⟩ := kept j w hj memJ
    rw [← position, ← position']
    exact before v' w' old old'

theorem pairwise_idxOf (nodup : l.Nodup) : l.Pairwise fun a b => l.idxOf a ≤ l.idxOf b := by
  induction l with
  | nil => exact .nil
  | cons a l ih =>
    obtain ⟨absent, nodup⟩ := List.nodup_cons.mp nodup
    have later : ∀ b ∈ l, (a :: l).idxOf b = l.idxOf b + 1 := by
      intro b mem
      refine List.idxOf_cons_ne _ ?_
      rintro rfl
      exact absent mem
    refine .cons (fun b _ => ?_) ((ih nodup).imp_of_mem fun memB memC le => ?_)
    · rw [List.idxOf_cons_self]
      exact Nat.zero_le _
    · rw [later _ memB, later _ memC]
      exact Nat.succ_le_succ le

theorem Ordered.of_idxOf (nodup : l.Nodup) (mem : ∀ j, j ∈ l ↔ ∃ w, (j, w) ∈ s.widgets ∧ w.container = c)
    (places : ∀ j w, (j, w) ∈ s.widgets → w.container = c → w.position = l.idxOf j) : Ordered s c l := by
  refine ⟨nodup, mem, (pairwise_idxOf nodup).imp_of_mem ?_⟩
  intro i j hi hj le v w memI memJ
  obtain ⟨v', mem', inside⟩ := (mem i).mp hi
  obtain rfl := OrderedMap.value_unique memI mem'
  obtain ⟨w', mem', inside'⟩ := (mem j).mp hj
  obtain rfl := OrderedMap.value_unique memJ mem'
  rw [places i v memI inside, places j w memJ inside']
  exact le

section
variable (localeLe : String → String → Bool)

/-- The order in which the container shows its widgets. -/
def visible (s : Store) (c : Container) : List String := (sorted localeLe (members s c)).map Prod.fst

theorem insertionSort_rising {α : Type} {r : α → α → Prop} [DecidableRel r] {f : α → Nat}
    (le : ∀ a b, r a b → f a ≤ f b) (ge : ∀ a b, ¬r a b → f b ≤ f a) (l : List α) :
    (l.insertionSort r).Pairwise fun a b => f a ≤ f b := by
  have insert : ∀ (a : α) (m : List α), m.Pairwise (fun a b => f a ≤ f b) →
      (m.orderedInsert r a).Pairwise fun a b => f a ≤ f b := by
    intro a m sorted
    induction m with
    | nil => exact List.pairwise_singleton _ a
    | cons b m ih =>
      obtain ⟨head, tail⟩ := List.pairwise_cons.mp sorted
      rw [List.orderedInsert_cons]
      split_ifs with before
      · refine .cons (fun c mem => ?_) sorted
        rcases List.mem_cons.mp mem with rfl | mem
        · exact le a c before
        · exact Nat.le_trans (le a b before) (head c mem)
      · refine .cons (fun c mem => ?_) (ih tail)
        rcases (List.mem_orderedInsert r).mp mem with rfl | mem
        · exact ge c b before
        · exact head c mem
  induction l with
  | nil => exact .nil
  | cons a l ih => exact insert a _ ih

theorem visible_ordered (s : Store) (c : Container) : Ordered s c (visible localeLe s c) := by
  have perm := sorted_perm localeLe (members s c)
  refine ⟨(perm.map Prod.fst).nodup_iff.mpr (members_keys_nodup s c), fun j => ?_, ?_⟩
  · rw [visible, (perm.map Prod.fst).mem_iff, List.mem_map]
    constructor
    · rintro ⟨⟨i, w⟩, mem, rfl⟩
      exact ⟨w, mem_members.mp mem⟩
    · rintro ⟨w, mem⟩
      exact ⟨(j, w), mem_members.mpr mem, rfl⟩
  · rw [visible, List.pairwise_map]
    have rising : (sorted localeLe (members s c)).Pairwise fun a b => a.2.position ≤ b.2.position := by
      refine insertionSort_rising (fun a b before => ?_) (fun a b after => ?_) _
      · rcases before with less | ⟨same, _⟩
        · exact Nat.le_of_lt less
        · exact Nat.le_of_eq same
      · exact Nat.le_of_not_lt fun less => after (.inl less)
    refine rising.imp_of_mem ?_
    intro a b memA memB le v w memV memW
    rw [OrderedMap.value_unique memV (mem_members.mp (perm.mem_iff.mp memA)).1,
      OrderedMap.value_unique memW (mem_members.mp (perm.mem_iff.mp memB)).1]
    exact le

variable {localeLe} {c : Container}

theorem mem_visible {s : Store} {j : String} : j ∈ visible localeLe s c ↔ ∃ w, (j, w) ∈ s.widgets ∧ w.container = c :=
  (visible_ordered localeLe s c).mem j

theorem visible_eq {s : Store} {l : List String} (distinct : Distinct s c) (h : Ordered s c l) :
    visible localeLe s c = l :=
  (visible_ordered localeLe s c).unique distinct h

theorem normalizeContainer_visible {s t : Store} (others : ∀ d, d ≠ c → Distinct s d) (grouped : Grouped s)
    (h : normalizeContainer localeLe s c = some t) (d : Container) : visible localeLe t d = visible localeLe s d := by
  have after := normalizeContainer_wellFormed others grouped h
  obtain ⟨_, widgets⟩ := normalizeContainer_spec h
  have within : ∀ j, (∃ w, (j, w) ∈ t.widgets ∧ w.container = d) ↔ ∃ w, (j, w) ∈ s.widgets ∧ w.container = d := by
    intro j
    constructor
    · rintro ⟨w, mem, inside⟩
      obtain ⟨v, old, rfl⟩ := (widgets j w).mp mem
      refine ⟨v, old, ?_⟩
      split_ifs at inside <;> exact inside
    · rintro ⟨v, old, inside⟩
      refine ⟨_, (widgets j _).mpr ⟨v, old, rfl⟩, ?_⟩
      split_ifs <;> exact inside
  have before := visible_ordered localeLe s d
  refine visible_eq (after.distinct d) ?_
  by_cases this : d = c
  · subst this
    refine .of_idxOf before.nodup (fun j => (before.mem j).trans (within j).symm) ?_
    intro j w mem inside
    obtain ⟨v, old, rfl⟩ := (widgets j w).mp mem
    by_cases own : v.container = d
    · rw [if_pos own]
      rfl
    · rw [if_neg own] at inside
      exact absurd inside own
  · refine ⟨before.nodup, fun j => (before.mem j).trans (within j).symm, before.rising.imp_of_mem ?_⟩
    intro i j hi hj le v w memI memJ
    have unchanged : ∀ k x, k ∈ visible localeLe s d → (k, x) ∈ t.widgets → (k, x) ∈ s.widgets := by
      intro k x listed mem
      obtain ⟨y, old, rfl⟩ := (widgets k x).mp mem
      obtain ⟨z, old', inside⟩ := (before.mem k).mp listed
      obtain rfl := OrderedMap.value_unique old old'
      rw [if_neg fun own => this (inside.symm.trans own)]
      exact old
    exact le v w (unchanged i v hi memI) (unchanged j w hj memJ)

variable (localeLe) in
theorem placing_visible {s t : Store} {order : List String} {id : String} {next : Container} {now : String}
    (h : updateAll s (placing order 0 id next now) = some t) (wellFormed : WellFormed s)
    (nodup : order.Nodup) (moving : id ∈ order)
    (current : ∀ j v, (j, v) ∈ s.widgets → j ≠ id → (j ∈ order ↔ v.container = next))
    (present : ∀ j ∈ order, ∃ v, (j, v) ∈ s.widgets) (group : GroupMatches s next) :
    WellFormed t ∧ visible localeLe t next = order ∧
      ∀ c, c ≠ next → visible localeLe t c = (visible localeLe s c).filter (· ≠ id) := by
  have after : WellFormed t := by
    have again : reorder localeLe s order id next next now = some t := by
      rw [reorder, h]
      exact if_pos rfl
    exact reorder_wellFormed again wellFormed nodup moving current group
  obtain ⟨_, _, widgets⟩ := updateAll_spec (by rw [placing_keys]; exact nodup) h
  simp only [changeOf_placing nodup, Nat.zero_add] at widgets
  -- a row stands in the order, or is as it was
  have back : ∀ {j w}, (j, w) ∈ t.widgets → (j ∈ order ∧ w.container = next ∧ w.position = order.idxOf j) ∨
        (j ∉ order ∧ w.container ≠ next ∧ (j, w) ∈ s.widgets) := by
    intro j w mem
    obtain ⟨v, old, rfl⟩ := (widgets j w).mp mem
    by_cases listed : j ∈ order
    · rw [if_pos listed]
      by_cases this : j = id
      · rw [if_pos this]
        exact .inl ⟨listed, rfl, rfl⟩
      · rw [if_neg this]
        exact .inl ⟨listed, (current j v old this).mp listed, rfl⟩
    · rw [if_neg listed]
      have other : j ≠ id := fun same => listed (same ▸ moving)
      exact .inr ⟨listed, fun inside => listed ((current j v old other).mpr inside), old⟩
  refine ⟨after, visible_eq (after.distinct next) (.of_idxOf nodup (fun j => ?_) ?_), fun c other => ?_⟩
  · constructor
    · intro listed
      obtain ⟨v, old⟩ := present j listed
      refine ⟨_, (widgets j _).mpr ⟨v, old, rfl⟩, ?_⟩
      rcases back ((widgets j _).mpr ⟨v, old, rfl⟩) with ⟨_, inside, _⟩ | ⟨absent, _⟩
      · exact inside
      · exact absurd listed absent
    · rintro ⟨w, mem, inside⟩
      rcases back mem with ⟨listed, _⟩ | ⟨_, outside, _⟩
      · exact listed
      · exact absurd inside outside
  · intro j w mem inside
    rcases back mem with ⟨_, _, position⟩ | ⟨_, outside, _⟩
    · exact position
    · exact absurd inside outside
  · refine visible_eq (after.distinct c) ((visible_ordered localeLe s c).filter (fun j => ?_) ?_)
    · constructor
      · rintro ⟨w, mem, inside⟩
        rcases back mem with ⟨_, there, _⟩ | ⟨absent, _, old⟩
        · exact absurd (inside.symm.trans there) other
        · exact ⟨fun same => absent (same ▸ moving), w, old, inside⟩
      · rintro ⟨ne, w, old, inside⟩
        have unlisted : j ∉ order := fun listed =>
          other (inside.symm.trans ((current j w old ne).mp listed))
        exact ⟨w, (widgets j w).mpr ⟨w, old, (if_neg unlisted).symm⟩, inside⟩
    · intro j w mem _ inside
      rcases back mem with ⟨_, there, _⟩ | ⟨_, _, old⟩
      · exact absurd (inside.symm.trans there) other
      · exact ⟨w, old, rfl⟩

theorem reorder_visible {s t : Store} {order : List String} {id : String} {old next : Container} {now : String}
    (h : reorder localeLe s order id old next now = some t) (wellFormed : WellFormed s)
    (nodup : order.Nodup) (moving : id ∈ order)
    (current : ∀ j v, (j, v) ∈ s.widgets → j ≠ id → (j ∈ order ↔ v.container = next))
    (present : ∀ j ∈ order, ∃ v, (j, v) ∈ s.widgets) (group : GroupMatches s next) :
    visible localeLe t next = order ∧
      ∀ c, c ≠ next → visible localeLe t c = (visible localeLe s c).filter (· ≠ id) := by
  obtain ⟨u, placed, rest⟩ := Option.bind_eq_some_iff.mp h
  obtain ⟨between, order', others⟩ := placing_visible localeLe placed wellFormed nodup moving current present group
  split_ifs at rest with same
  · cases rest
    exact ⟨order', others⟩
  · have kept := normalizeContainer_visible (fun d _ => between.distinct d) between.grouped rest
    exact ⟨(kept next).trans order', fun c other => (kept c).trans (others c other)⟩

theorem delete_visible {s : Store} (wellFormed : WellFormed s) (id : String) (c : Container) :
    visible localeLe (delete s id) c = (visible localeLe s c).filter (· ≠ id) := by
  refine visible_eq (delete_distinct (wellFormed.distinct c)) ((visible_ordered localeLe s c).filter (fun j => ?_) ?_)
  · simp only [delete, OrderedMap.mem_delete, and_assoc, exists_and_left]
  · intro j w mem _ _
    exact ⟨w, (OrderedMap.mem_delete.mp mem).2, rfl⟩

theorem unpin_visible {s t : Store} {id : String} (h : unpin localeLe s id c = some t) (wellFormed : WellFormed s)
    (d : Container) : visible localeLe t d = (visible localeLe s d).filter (· ≠ id) := by
  rw [normalizeContainer_visible (fun e _ => delete_distinct (wellFormed.distinct e))
    (delete_grouped wellFormed.grouped) h, delete_visible wellFormed]

variable (localeLe) in
theorem create_visible {s t : Store} {id : String} {w : Widget} (h : create s id w = some t)
    (after : WellFormed t) (next : w.position = nextPosition s w.container) (c : Container) :
    visible localeLe t c = if c = w.container then visible localeLe s c ++ [id] else visible localeLe s c := by
  obtain ⟨_, _, absent, widgets⟩ := create_spec h
  have before := visible_ordered localeLe s c
  have fresh : ∀ {j v}, (j, v) ∈ s.widgets → j ≠ id := by
    rintro j v mem rfl
    exact absent v mem
  have kept : ∀ {j v}, j ≠ id → ((j, v) ∈ t.widgets ↔ (j, v) ∈ s.widgets) := by
    intro j v ne
    rw [widgets]
    simp only [ne, false_and, false_or, ne_eq, not_false_eq_true, true_and]
  have among : ∀ {j}, j ∈ visible localeLe s c → j ≠ id := by
    intro j mem
    obtain ⟨v, old, _⟩ := (before.mem j).mp mem
    exact fresh old
  have rising : (visible localeLe s c).Pairwise fun i j =>
      ∀ v u, (i, v) ∈ t.widgets → (j, u) ∈ t.widgets → v.position ≤ u.position := by
    refine before.rising.imp_of_mem ?_
    intro i j hi hj le v u memI memJ
    exact le v u ((kept (among hi)).mp memI) ((kept (among hj)).mp memJ)
  refine visible_eq (after.distinct c) ?_
  split_ifs with own
  · subst own
    refine ⟨?_, fun j => ?_, ?_⟩
    · rw [List.nodup_append_comm, List.singleton_append, List.nodup_cons]
      exact ⟨fun mem => among mem rfl, before.nodup⟩
    · rw [List.mem_append, List.mem_singleton, before.mem]
      constructor
      · rintro (⟨v, old, inside⟩ | rfl)
        · exact ⟨v, (kept (fresh old)).mpr old, inside⟩
        · exact ⟨w, (widgets _ w).mpr (.inl ⟨rfl, rfl⟩), rfl⟩
      · rintro ⟨v, mem, inside⟩
        rcases (widgets j v).mp mem with ⟨rfl, _⟩ | ⟨_, old⟩
        · exact .inr rfl
        · exact .inl ⟨v, old, inside⟩
    · refine List.pairwise_append.mpr ⟨rising, List.pairwise_singleton _ _, ?_⟩
      intro i hi j hj v u memI memJ
      obtain rfl := List.mem_singleton.mp hj
      have new : (j, w) ∈ t.widgets := (widgets j w).mpr (.inl ⟨rfl, rfl⟩)
      obtain rfl := OrderedMap.value_unique new memJ
      obtain ⟨v', old, inside⟩ := (before.mem i).mp hi
      obtain rfl := OrderedMap.value_unique ((kept (among hi)).mp memI) old
      rw [next]
      exact Nat.le_of_lt (position_lt_next old inside)
  · refine ⟨before.nodup, fun j => ?_, rising⟩
    rw [before.mem]
    constructor
    · rintro ⟨v, old, inside⟩
      exact ⟨v, (kept (fresh old)).mpr old, inside⟩
    · rintro ⟨v, mem, inside⟩
      rcases (widgets j v).mp mem with ⟨_, rfl⟩ | ⟨_, old⟩
      · exact absurd inside.symm own
      · exact ⟨v, old, inside⟩

end

end PinnedWidgets
