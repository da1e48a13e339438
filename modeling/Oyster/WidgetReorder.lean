import Oyster.PinnedWidgetRequests
import Oyster.WidgetOrder

/-! The reordering of a widget: where it goes, what it does to the orders of the containers,
and that the steps of a request, with nothing between them, come to the same. -/
namespace PinnedWidgets

def destination (row : Widget) (groupId : Field) (identity : Option Identity) : Container :=
  let next := identity.getD row.identity
  ⟨next, nextGroup groupId row.container next⟩

section
variable (localeLe : String → String → Bool)

/-- Without a `beforeId` the widget goes to the end. -/
def reorderWidget (s : Store) (id : String) (row : Widget) (groupId : Field) (beforeId : Option String)
    (identity : Option Identity) (now : String) : Store × Except Failure Unit :=
  let old := row.container
  let next := destination row groupId identity
  match groupFailure s next with
  | some failure => (s, .error failure)
  | none =>
    if next = old ∧ beforeId = some id then (s, .ok ())
    else match siblingOrder localeLe s ⟨id, old, next, beforeId.filter (· ≠ ""), none, now⟩ with
      | .error failure => (s, .error failure)
      | .ok order =>
        match reorder localeLe s order id old next now with
        | none => (s, .error constraintViolation)
        | some t => (t, .ok ())

/-- The next steps of a request, with nothing between them. -/
def settle : Nat → Store × Progress → Store × Progress
  | 0, c => c
  | n + 1, (s, .waiting p) => settle n (advance localeLe s p)
  | _ + 1, (s, .done result) => (s, .done result)

theorem settle_done (n : Nat) (s : Store) (result : Except Failure Unit) :
    settle localeLe n (s, .done result) = (s, .done result) := by
  cases n <;> rfl

theorem settle_start (s : Store) (id : String) (row : Widget) (groupId : Field) (beforeId : Option String)
    (identity : Option Identity) (now : String) (given : beforeId ≠ some "") :
    settle localeLe 3 (s, Reorder.start ⟨id, row.container, destination row groupId identity, beforeId, none, now⟩) =
      ((reorderWidget localeLe s id row groupId beforeId identity now).1,
        .done (reorderWidget localeLe s id row groupId beforeId identity now).2) := by
  have target : beforeId.filter (· ≠ "") = beforeId := by
    cases beforeId with
    | none => rfl
    | some before => simpa using given
  generalize dest : destination row groupId identity = next
  -- the two steps after the check of the group
  have checked : ∀ n, groupFailure s next = none →
      settle localeLe (n + 2) (s, Reorder.checked ⟨id, row.container, next, beforeId, none, now⟩) =
        ((reorderWidget localeLe s id row groupId beforeId identity now).1,
          .done (reorderWidget localeLe s id row groupId beforeId identity now).2) := by
    intro n group
    simp only [reorderWidget, dest, group, target, Reorder.checked]
    split_ifs with same
    · exact settle_done localeLe _ s _
    · simp only [settle, advance]
      cases order : siblingOrder localeLe s ⟨id, row.container, next, beforeId, none, now⟩ with
      | error failure => exact settle_done localeLe _ s _
      | ok siblings =>
        simp only [Except.map, Progress.ofExcept, settle, advance]
        cases reorder localeLe s siblings id row.container next now with
        | none => exact settle_done localeLe _ s _
        | some t => exact settle_done localeLe _ t _
  unfold Reorder.start
  split_ifs with named
  · simp only [settle, advance]
    cases group : groupFailure s next with
    | some failure =>
      simp only [reorderWidget, dest, group]
      exact settle_done localeLe _ s _
    | none => exact checked 0 group
  · refine checked 1 ?_
    rw [groupFailure, Option.not_isSome_iff_eq_none.mp named]

/-- The order `after` is `rest` with the widget directly before `beforeId`, or at the end. -/
def Inserted (id : String) (rest : List String) : Option String → List String → Prop
  | none, after => after = rest ++ [id]
  | some before, after => ∃ front back, rest = front ++ before :: back ∧ after = front ++ id :: before :: back

variable {id : String} {beforeId : Option String}

theorem Inserted.mem {rest after : List String} (h : Inserted id rest beforeId after) {j : String} :
    j ∈ after ↔ j = id ∨ j ∈ rest := by
  cases beforeId with
  | none =>
    rw [show after = rest ++ [id] from h, List.mem_append, List.mem_singleton, or_comm]
  | some before =>
    obtain ⟨front, back, rfl, rfl⟩ := h
    simp only [List.mem_append, List.mem_cons, or_left_comm]

variable {localeLe} {s : Store} {r : Reorder} {order : List String}

theorem siblingOrder_inserted (h : siblingOrder localeLe s r = .ok order) :
    Inserted r.id ((visible localeLe s r.next).filter (· ≠ r.id)) r.beforeId order := by
  unfold siblingOrder at h
  rw [← visible] at h
  generalize (visible localeLe s r.next).filter (· ≠ r.id) = siblings at h ⊢
  cases target : r.beforeId with
  | none =>
    rw [target] at h
    exact (Except.ok.inj h).symm
  | some before =>
    simp only [target] at h
    split_ifs at h with listed
    obtain rfl := Except.ok.inj h
    -- what is not taken begins with the target
    have rest : ∃ back, siblings.dropWhile (· ≠ before) = before :: back := by
      clear h target
      induction siblings with
      | nil => cases listed
      | cons sibling siblings ih =>
        by_cases same : sibling = before
        · subst same
          exact ⟨siblings, by simp⟩
        · obtain ⟨back, eq⟩ := ih ((List.mem_cons.mp listed).resolve_left (Ne.symm same))
          refine ⟨back, ?_⟩
          rw [List.dropWhile_cons_of_pos (by exact decide_eq_true same)]
          exact eq
    obtain ⟨back, eq⟩ := rest
    refine ⟨siblings.takeWhile (· ≠ before), back, ?_, by rw [eq]⟩
    rw [← eq]
    exact List.takeWhile_append_dropWhile.symm

variable {failure : Failure}

theorem siblingOrder_error (h : siblingOrder localeLe s r = .error failure) :
    failure = ⟨409, "reorder target is not in the destination group"⟩ ∧
      ∃ before, r.beforeId = some before ∧ before ∉ (visible localeLe s r.next).filter (· ≠ r.id) := by
  unfold siblingOrder at h
  cases target : r.beforeId with
  | none =>
    rw [target] at h
    cases h
  | some before =>
    simp only [target] at h
    split_ifs at h with listed
    exact ⟨(Except.error.inj h).symm, before, rfl, listed⟩

structure Reordered (localeLe : String → String → Bool) (s t : Store) (id : String) (row : Widget)
    (next : Container) (beforeId : Option String) (now : String) : Prop where
  wellFormed : WellFormed t
  groups : t.groups = s.groups
  destination : if next = row.container ∧ beforeId = some id then t = s
    else Inserted id ((visible localeLe s next).filter (· ≠ id)) (beforeId.filter (· ≠ "")) (visible localeLe t next)
  others : ∀ c, c ≠ next → visible localeLe t c = (visible localeLe s c).filter (· ≠ id)
  kept : ∀ j v, (j, v) ∈ s.widgets →
    ∃ position, (j, setPosition position v) ∈ t.widgets ∨ j = id ∧ (j, moved next now position v) ∈ t.widgets
  none_new : ∀ j w, (j, w) ∈ t.widgets → ∃ v, (j, v) ∈ s.widgets

variable {t : Store} {now : String}

theorem reorder_rows {old next : Container} (h : reorder localeLe s order id old next now = some t)
    (nodup : order.Nodup) : t.groups = s.groups ∧ (∀ j v, (j, v) ∈ s.widgets → ∃ position,
        (j, setPosition position v) ∈ t.widgets ∨ j = id ∧ (j, moved next now position v) ∈ t.widgets) ∧
      ∀ j w, (j, w) ∈ t.widgets → ∃ v, (j, v) ∈ s.widgets := by
  obtain ⟨u, placed, rest⟩ := Option.bind_eq_some_iff.mp h
  obtain ⟨groups, _, widgets⟩ := updateAll_spec (by rw [placing_keys]; exact nodup) placed
  simp only [changeOf_placing nodup, Nat.zero_add] at widgets
  have first : ∀ j v, (j, v) ∈ s.widgets → ∃ position,
      (j, setPosition position v) ∈ u.widgets ∨ j = id ∧ (j, moved next now position v) ∈ u.widgets := by
    intro j v old
    have new := (widgets j _).mpr ⟨v, old, rfl⟩
    split_ifs at new with listed this
    · exact ⟨_, .inr ⟨this, new⟩⟩
    · exact ⟨_, .inl new⟩
    · exact ⟨v.position, .inl new⟩
  have second : ∀ j w, (j, w) ∈ u.widgets → ∃ v, (j, v) ∈ s.widgets := by
    intro j w mem
    obtain ⟨v, old, _⟩ := (widgets j w).mp mem
    exact ⟨v, old⟩
  split_ifs at rest with same
  · cases rest
    exact ⟨groups, first, second⟩
  · obtain ⟨groups', widgets'⟩ := normalizeContainer_spec rest
    -- a renumbered row is the row with another position
    have renumbered : ∀ j w, (j, w) ∈ u.widgets → ∃ position, (j, setPosition position w) ∈ t.widgets := by
      intro j w mem
      have new := (widgets' j _).mpr ⟨w, mem, rfl⟩
      split_ifs at new
      · exact ⟨_, new⟩
      · exact ⟨w.position, new⟩
    refine ⟨groups'.trans groups, fun j v old => ?_, fun j w mem => ?_⟩
    · obtain ⟨position, new | ⟨this, new⟩⟩ := first j v old
      · obtain ⟨position', new'⟩ := renumbered j _ new
        exact ⟨position', .inl new'⟩
      · obtain ⟨position', new'⟩ := renumbered j _ new
        exact ⟨position', .inr ⟨this, new'⟩⟩
    · obtain ⟨v, mem', _⟩ := (widgets' j w).mp mem
      exact second j v mem'

variable {row : Widget}

theorem reordered_refl (wellFormed : WellFormed s) (found : (id, row) ∈ s.widgets) (itself : beforeId = some id)
    (now : String) : Reordered localeLe s s id row row.container beforeId now where
  wellFormed := wellFormed
  groups := rfl
  destination := by rw [if_pos ⟨rfl, itself⟩]
  others := by
    intro c other
    refine (List.filter_eq_self.mpr fun j mem => decide_eq_true ?_).symm
    rintro rfl
    obtain ⟨w, mem, inside⟩ := mem_visible.mp mem
    exact other (inside.symm.trans (congrArg Widget.container (OrderedMap.value_unique mem found)))
  kept := fun j v mem => ⟨v.position, .inl mem⟩
  none_new := fun j w mem => ⟨w, mem⟩

theorem siblingOrder_present (h : siblingOrder localeLe s r = .ok order) (found : (r.id, row) ∈ s.widgets) :
    ∀ j ∈ order, ∃ v, (j, v) ∈ s.widgets := by
  intro j listed
  rcases (siblingOrder_inserted h).mem.mp listed with rfl | sibling
  · exact ⟨row, found⟩
  · obtain ⟨v, mem, _⟩ := mem_visible.mp (List.mem_filter.mp sibling).1
    exact ⟨v, mem⟩

variable {groupId : Field} {identity : Option Identity}

theorem reorderWidget_ok (wellFormed : WellFormed s) (found : (id, row) ∈ s.widgets)
    (h : reorderWidget localeLe s id row groupId beforeId identity now = (t, .ok ())) :
    Reordered localeLe s t id row (destination row groupId identity) beforeId now ∧
      GroupMatches s (destination row groupId identity) := by
  unfold reorderWidget at h
  simp only at h
  generalize destination row groupId identity = next at h ⊢
  cases group : groupFailure s next with
  | some failure =>
    rw [group] at h
    cases h
  | none =>
    have matching := groupFailure_none group
    refine ⟨?_, matching⟩
    simp only [group] at h
    split_ifs at h with same
    · cases h
      rw [same.1]
      exact reordered_refl wellFormed found same.2 now
    · cases siblings : siblingOrder localeLe s ⟨id, row.container, next, beforeId.filter (· ≠ ""), none, now⟩ with
      | error failure =>
        rw [siblings] at h
        cases h
      | ok order =>
        simp only [siblings] at h
        cases written : reorder localeLe s order id row.container next now with
        | none =>
          rw [written] at h
          cases h
        | some u =>
          rw [written] at h
          cases h
          obtain ⟨nodup, moving, current⟩ := siblingOrder_spec siblings
          obtain ⟨placed, others⟩ := reorder_visible written wellFormed nodup moving current
            (siblingOrder_present siblings found) matching
          obtain ⟨groups, kept, noneNew⟩ := reorder_rows written nodup
          refine ⟨reorder_wellFormed written wellFormed nodup moving current matching, groups, ?_, others,
            kept, noneNew⟩
          rw [if_neg same, placed]
          exact siblingOrder_inserted siblings

theorem reorderWidget_error (h : reorderWidget localeLe s id row groupId beforeId identity now = (t, .error failure)) :
    t = s ∧ (groupFailure s (destination row groupId identity) = some failure ∨
        (failure = ⟨409, "reorder target is not in the destination group"⟩ ∧
          ∃ before, beforeId.filter (· ≠ "") = some before ∧
            before ∉ (visible localeLe s (destination row groupId identity)).filter (· ≠ id)) ∨
        failure = constraintViolation) := by
  unfold reorderWidget at h
  simp only at h
  generalize destination row groupId identity = next at h ⊢
  cases group : groupFailure s next with
  | some failure' =>
    rw [group] at h
    obtain ⟨rfl, same⟩ := Prod.mk.inj h
    exact ⟨rfl, .inl (congrArg some (Except.error.inj same))⟩
  | none =>
    simp only [group] at h
    split_ifs at h with same
    · cases h
    · cases siblings : siblingOrder localeLe s ⟨id, row.container, next, beforeId.filter (· ≠ ""), none, now⟩ with
      | error failure' =>
        rw [siblings] at h
        obtain ⟨rfl, same⟩ := Prod.mk.inj h
        rw [← Except.error.inj same]
        exact ⟨rfl, .inr (.inl (siblingOrder_error siblings))⟩
      | ok order =>
        simp only [siblings] at h
        cases written : reorder localeLe s order id row.container next now with
        | none =>
          rw [written] at h
          obtain ⟨rfl, same⟩ := Prod.mk.inj h
          exact ⟨rfl, .inr (.inr (Except.error.inj same).symm)⟩
        | some u =>
          rw [written] at h
          cases h

end

/-- `WellFormed`, as a test of the tables. -/
def tidy (s : Store) : Bool :=
  (s.widgets.entries.all fun e => s.widgets.entries.all fun f =>
    decide (e.2.container = f.2.container → e.2.position = f.2.position → e.1 = f.1)) &&
  s.widgets.entries.all fun e => e.2.groupId.all fun g =>
    s.groups.entries.any fun row => row.1 = g && row.2.identity = e.2.identity

theorem wellFormed_of_tidy {s : Store} (h : tidy s = true) : WellFormed s := by
  obtain ⟨distinct, grouped⟩ := Bool.and_eq_true_iff.mp h
  rw [List.all_eq_true] at distinct grouped
  constructor
  · intro c i v j w hi hj vc wc
    exact of_decide_eq_true (List.all_eq_true.mp (distinct (i, v) hi) (j, w) hj) (vc.trans wc.symm)
  · intro i w g mem named
    have found := grouped (i, w) mem
    rw [named, Option.all_some, List.any_eq_true] at found
    obtain ⟨⟨key, group⟩, inside, same⟩ := found
    obtain ⟨this, identity⟩ := Bool.and_eq_true_iff.mp same
    obtain rfl := of_decide_eq_true this
    exact ⟨group, inside, of_decide_eq_true identity⟩

def link (groupId : Option String) (position : Nat) (target : String) : Widget :=
  ⟨.workspace, groupId, .link, target, position, some target, none, none, none, none, "then", "then"⟩

end PinnedWidgets
