import Oyster.SessionRecords

/-! What the promotion of a session's identity keeps. The records of the source become the
target's, table by table; only the uniqueness of checkpoints reads the owner, and nothing
renumbers the widgets of the two sessions. -/
namespace SessionRecords
open RowUpdates SessionReference

def Database.Owns (d : Database) (reference : Reference) (owner : Option Nat) : Prop :=
  ∃ o ∈ d.app_sessions, o.reference = reference ∧ owner = some o.id

/-- The same record, whoever owns it. -/
def Table.Reowned {ρ : Type} (t : Table ρ) (r r' : ρ) : Prop := ∃ n, r' = t.setOwner n r

def StandsFor : (t : OwnedTable) → t.Row → t.Row → Prop
  | .checkpoints, r, r' => r.git_hash = r'.git_hash ∧ r.anchor_id = r'.anchor_id
  | .operations, _, _ | .routines, _, _ | .hublots, _, _ | .runners, _, _ => False
  | .pinned_widget_groups, _, _ | .pinned_widgets, _, _ => False

def DistinctPositions (widgets : List Widget) (c : PinnedWidgets.Container) : Prop :=
  ∀ i v j w, (i, v) ∈ widgets → (j, w) ∈ widgets → v.container = c → w.container = c → v.position = w.position → i = j

structure Kept (previous next : Reference) (d d' : Database) : Prop where
  source : ∀ t : OwnedTable, ∀ r ∈ d.rows t, d.Owns previous (t.table.owner r) →
    ∃ r' ∈ d'.rows t, d'.Owns next (t.table.owner r') ∧ (t.table.Reowned r r' ∨
        StandsFor t r r' ∧ ∃ x ∈ d.rows t, d.Owns next (t.table.owner x) ∧ t.table.Reowned x r')
  target : ∀ t : OwnedTable, ∀ r ∈ d.rows t, d.Owns next (t.table.owner r) →
    ∃ r' ∈ d'.rows t, d'.Owns next (t.table.owner r') ∧ t.table.Reowned r r'
  distinct : (∀ c, DistinctPositions (d.rows .pinned_widgets) c) → ∀ c, DistinctPositions (d'.rows .pinned_widgets) c

/-- Two sessions with the identities have no checkpoint of one hash and anchor, and, where no
container holds two widgets at one position, no widgets at one position of one group. -/
def Mergeable (previous next : Reference) (d : Database) : Prop :=
  ∀ o ∈ d.app_sessions, ∀ o' ∈ d.app_sessions, o.reference = previous → o'.reference = next → o.id ≠ o'.id →
    (∀ r ∈ d.rows .checkpoints, ∀ r' ∈ d.rows .checkpoints, r.owner_id = o.id → r'.owner_id = o'.id →
      ¬(r.git_hash = r'.git_hash ∧ r.anchor_id = r'.anchor_id)) ∧
    ((∀ c, DistinctPositions (d.rows .pinned_widgets) c) →
      ∀ w ∈ d.rows .pinned_widgets, ∀ w' ∈ d.rows .pinned_widgets, w.2.identity = .session o.id →
        w'.2.identity = .session o'.id → w.2.groupId = w'.2.groupId → w.2.position ≠ w'.2.position)

section
variable {d d' : Database} {source target : Nat}

def moved (source target : Nat) (t : OwnedTable) (r : t.Row) : t.Row :=
  updated (fun r => t.table.owner r = some source) (t.table.setOwner target) r

variable {t : OwnedTable} {r : t.Row}

theorem moved_source (h : t.table.owner r = some source) :
    moved source target t r = t.table.setOwner target r := updated_of_selected (decide_eq_true h)

theorem moved_other (h : t.table.owner r ≠ some source) :
    moved source target t r = r := updated_of_not (decide_eq_false h)

abbrev Movable (source target : Nat) (d : Database) (t : OwnedTable) : Prop :=
  Admitted t.table.toConstraints (fun r => t.table.owner r = some source) (t.table.setOwner target) (d.rows t)

def afterMoves (source target : Nat) (d : Database) : Database :=
  { d with rows := fun t => (d.rows t).map (moved source target t) }

theorem updateOwner_eq_some_iff : d.updateOwner source target t = some d' ↔ Movable source target d t ∧
        d' = { d with rows := Function.update d.rows t ((d.rows t).map (moved source target t)) } := by
  rw [Database.updateOwner, Option.map_eq_some_iff]
  constructor
  · intro ⟨rows, step, same⟩
    obtain ⟨rfl, admitted⟩ := update_eq_some_iff.mp step
    exact ⟨admitted, same.symm⟩
  · intro ⟨admitted, same⟩
    exact ⟨_, update_eq_some_iff.mpr ⟨rfl, admitted⟩, same.symm⟩

theorem foldlM_updateOwner_iff {tables : List OwnedTable} (nodup : tables.Nodup) :
    tables.foldlM (fun d t => d.updateOwner source target t) d = some d' ↔ (∀ t ∈ tables, Movable source target d t) ∧
        d' = { d with rows := fun t => if t ∈ tables then (d.rows t).map (moved source target t) else d.rows t } := by
  induction tables generalizing d with
  | nil => simp [eq_comm]
  | cons t tables ih =>
    obtain ⟨fresh, nodup⟩ := List.nodup_cons.mp nodup
    have others : ∀ t' ∈ tables, Movable source target
        { d with rows := Function.update d.rows t ((d.rows t).map (moved source target t)) } t' ↔
          Movable source target d t' := by
      intro t' mem
      have ne : t' ≠ t := fun same => fresh (same ▸ mem)
      simp only [Movable, Function.update_of_ne ne]
    have final : ({ d with rows := fun t' => if t' ∈ tables then
          (Function.update d.rows t ((d.rows t).map (moved source target t)) t').map (moved source target t')
        else Function.update d.rows t ((d.rows t).map (moved source target t)) t' } : Database) =
        { d with rows := fun t' => if t' ∈ t :: tables then (d.rows t').map (moved source target t') else d.rows t' } := by
      congr 1
      funext t'
      by_cases same : t' = t
      · subst same
        simp [fresh]
      · by_cases mem : t' ∈ tables
        · simp [mem, same]
        · simp [mem, same]
    constructor
    · intro step
      obtain ⟨e, first, rest⟩ := Option.bind_eq_some_iff.mp step
      obtain ⟨admitted, rfl⟩ := updateOwner_eq_some_iff.mp first
      obtain ⟨later, rfl⟩ := (ih nodup).mp rest
      refine ⟨?_, final⟩
      intro t' mem
      cases List.mem_cons.mp mem with
      | inl same => exact same ▸ admitted
      | inr mem => exact (others t' mem).mp (later t' mem)
    · rintro ⟨admitted, same⟩
      refine Option.bind_eq_some_iff.mpr ⟨_, updateOwner_eq_some_iff.mpr ⟨admitted t (by simp), rfl⟩, ?_⟩
      refine (ih nodup).mpr ⟨?_, ?_⟩
      · intro t' mem
        exact (others t' mem).mpr (admitted t' (by simp [mem]))
      · rw [same]
        exact final.symm

theorem OwnedTable.mem_all (t : OwnedTable) : t ∈ OwnedTable.all := by cases t <;> decide

theorem moveRecords_eq_some_iff : d.moveRecords source target = some d' ↔
      (∀ t, Movable source target d t) ∧ d' = afterMoves source target d := by
  rw [Database.moveRecords, foldlM_updateOwner_iff (by decide)]
  simp only [OwnedTable.mem_all, if_true, forall_const]
  rfl

theorem Database.Valid.movable (h : d.Valid) (other : t ≠ .checkpoints) : Movable source target d t := by
  refine Admitted.of_unread (h.rows t) ?_ ?_
  · intro r _
    cases t <;> rfl
  · intro a b selected
    cases t with
    | checkpoints => exact absurd rfl other
    | operations | routines | hublots | runners | pinned_widget_groups => rfl
    | pinned_widgets =>
      have session := identity_of_ownerOf (of_decide_eq_true selected)
      simp only [OwnedTable.table, pinned_widgets, PinnedWidgets.isBuiltinOf, session, reduceCtorEq,
        decide_false, Bool.and_false, Bool.false_and]

theorem checkpoints_apart {a b : Checkpoint} : checkpoints.clash a b = false ↔
      a.id ≠ b.id ∧ ¬(a.owner_id = b.owner_id ∧ a.git_hash = b.git_hash ∧ a.anchor_id = b.anchor_id) := by
  simp [checkpoints]

theorem Database.Valid.movable_checkpoints_iff (h : d.Valid) (ne : source ≠ target) :
    Movable source target d .checkpoints ↔
      ∀ r ∈ d.rows .checkpoints, ∀ r' ∈ d.rows .checkpoints, r.owner_id = source → r'.owner_id = target →
        ¬(r.git_hash = r'.git_hash ∧ r.anchor_id = r'.anchor_id) := by
  constructor
  · intro admitted r hr r' hr' owned owned' ⟨hash, anchor⟩
    have apart := admitted.stays hr hr' (decide_eq_true (congrArg some owned))
      (decide_eq_false fun same => ne ((Option.some.inj same).symm.trans owned'))
    simp [OwnedTable.table, checkpoints, owned', hash, anchor] at apart
  · intro free
    refine ⟨fun _ _ _ => rfl, (h.rows .checkpoints).apart.imp_of_mem ?_⟩
    intro a b ha hb apart
    -- a moved checkpoint meets one that is still the source's, or one of another session
    have meets : ∀ x ∈ d.rows .checkpoints, ∀ y ∈ d.rows .checkpoints, x.owner_id = source →
        checkpoints.clash x y = false → checkpoints.clash (checkpoints.setOwner target x) y = false := by
      intro x hx y hy owned apart
      rw [checkpoints_apart] at apart ⊢
      refine ⟨apart.1, fun ⟨owner, same⟩ => ?_⟩
      exact free x hx y hy owned owner.symm same
    refine ⟨fun ha' => meets a ha b hb (Option.some.inj (of_decide_eq_true ha')) apart, fun hb' => ?_⟩
    have owned := Option.some.inj (of_decide_eq_true hb')
    have apart' := (checkpoints.clash_comm b a).trans apart
    change checkpoints.clash _ (moved source target .checkpoints a) = false
    by_cases ha' : a.owner_id = source
    · rw [@moved_source source target .checkpoints a (congrArg some ha')]
      rw [checkpoints_apart] at apart'
      refine checkpoints_apart.mpr ?_
      exact ⟨apart'.1, fun same => apart'.2 ⟨owned.trans ha'.symm, same.2⟩⟩
    · rw [@moved_other source target .checkpoints a fun same => ha' (Option.some.inj same)]
      exact meets b hb a ha owned apart'

variable {w : Widget}

theorem moved_widget_source (h : w.2.identity = .session source) :
    moved source target .pinned_widgets w = (w.1, { w.2 with identity := .session target }) :=
  @moved_source source target .pinned_widgets w (congrArg ownerOf h)

theorem moved_widget_other (h : w.2.identity ≠ .session source) : moved source target .pinned_widgets w = w :=
  @moved_other source target .pinned_widgets w fun same => h (identity_of_ownerOf same)

theorem moved_widget (w : Widget) : (moved source target .pinned_widgets w).2.groupId = w.2.groupId ∧
    (moved source target .pinned_widgets w).2.hublotId = w.2.hublotId := by
  by_cases owned : w.2.identity = .session source
  · rw [moved_widget_source owned]
    exact ⟨rfl, rfl⟩
  · rw [moved_widget_other owned]
    exact ⟨rfl, rfl⟩

theorem moved_group_id (g : WidgetGroup) : (moved source target .pinned_widget_groups g).1 = g.1 := by
  by_cases owned : OwnedTable.pinned_widget_groups.table.owner g = some source
  · rw [moved_source owned]
    rfl
  · rw [moved_other owned]

theorem moved_hublot_id (r : Hublot) : (moved source target .hublots r).id = r.id := by
  by_cases owned : OwnedTable.hublots.table.owner r = some source
  · rw [moved_source owned]
    rfl
  · rw [moved_other owned]

theorem filter_of_all {α : Type} {p : α → Bool} {o : Option α} (h : ∀ a, o = some a → p a = true) : o.filter p = o := by
  cases o with
  | none => rfl
  | some a => exact Option.filter_some_pos (h a rfl)

theorem Database.Valid.delete_afterMoves (h : d.Valid) (ne : source ≠ target) :
    (afterMoves source target d).deleteSession source =
      { afterMoves source target d with app_sessions := d.app_sessions.filter fun o => o.id ≠ source } := by
  have free : ∀ t, ∀ r ∈ (afterMoves source target d).rows t, t.table.owner r ≠ some source := by
    intro t r' mem
    obtain ⟨r, -, rfl⟩ := List.mem_map.mp mem
    by_cases owned : t.table.owner r = some source
    · rw [moved_source owned, t.table.owner_setOwner]
      exact fun same => ne (Option.some.inj same).symm
    · rwa [moved_other owned]
  have all : ∀ t, (afterMoves source target d).unowned source t = (afterMoves source target d).rows t := by
    intro t
    exact List.filter_eq_self.mpr fun r mem => decide_eq_true (free t r mem)
  rw [Database.deleteSession]
  congr 1
  funext t
  cases t with
  | checkpoints | routines | hublots | runners | pinned_widget_groups => exact all _
  | operations =>
    refine (List.map_congr_left ?_).trans (List.map_id _)
    intro r mem
    exact if_neg (free .operations r mem)
  | pinned_widgets =>
    simp only [all]
    refine (List.map_congr_left ?_).trans (List.map_id _)
    intro w' mem
    obtain ⟨w, hw, rfl⟩ := List.mem_map.mp mem
    obtain ⟨group, hublot⟩ := @moved_widget source target w
    refine Prod.ext rfl ?_
    have groups : ∀ g, (moved source target .pinned_widgets w).2.groupId = some g →
        ((afterMoves source target d).unowned source .pinned_widget_groups).any (fun r => r.1 = g) = true := by
      intro g hg
      obtain ⟨r, hr, same⟩ := h.group_id w hw g (group ▸ hg)
      rw [all]
      exact List.any_eq_true.mpr ⟨_, List.mem_map_of_mem hr, decide_eq_true ((moved_group_id r).trans same)⟩
    have hublots : ∀ i, (moved source target .pinned_widgets w).2.hublotId = some i →
        ((afterMoves source target d).unowned source .hublots).any (fun r => r.id = i) = true := by
      intro i hi
      obtain ⟨r, hr, same⟩ := h.hublot_id w hw i (hublot ▸ hi)
      rw [all]
      exact List.any_eq_true.mpr ⟨_, List.mem_map_of_mem hr, decide_eq_true ((moved_hublot_id r).trans same)⟩
    rw [id_eq, Database.detached, filter_of_all groups, filter_of_all hublots]

variable {previous next : Reference} {o o' : AppSession}

theorem appSessions_clash_iff : appSessions.clash o o' = true ↔ o.id = o'.id ∨ o.reference = o'.reference := by
  simp [appSessions]

theorem Database.Valid.session_unique (h : d.Valid) (ho : o ∈ d.app_sessions) (ho' : o' ∈ d.app_sessions)
    (same : o.reference = o'.reference) : o = o' :=
  h.app_sessions.eq_of_clash ho ho' (appSessions_clash_iff.mpr (Or.inr same))

theorem findSession_some (found : d.findSession next = some o) : o ∈ d.app_sessions ∧ o.reference = next := by
  have same := List.find?_some found
  exact ⟨List.mem_of_find?_eq_some found, of_decide_eq_true same⟩

theorem Database.Valid.findSession_eq (h : d.Valid) (ho : o ∈ d.app_sessions) (same : o.reference = next) :
    d.findSession next = some o := by
  cases found : d.findSession next with
  | none => exact absurd same (by simpa using List.find?_eq_none.mp found o ho)
  | some o' =>
    obtain ⟨ho', same'⟩ := findSession_some found
    rw [h.session_unique ho ho' (same.trans same'.symm)]

def renamed (id : Nat) (next : Reference) (d : Database) : Database :=
  { d with app_sessions := d.app_sessions.map (updated (fun o => o.id = id) fun o => { o with reference := next }) }

theorem Database.Valid.update_reference (h : d.Valid)
    (free : ∀ o' ∈ d.app_sessions, o'.reference = next → o'.id = o.id) :
    update appSessions (fun x => x.id = o.id) (fun x => { x with reference := next }) d.app_sessions =
      some (renamed o.id next d).app_sessions := by
  refine update_eq_some_iff.mpr ⟨rfl, ?_, ?_⟩
  · exact fun _ _ _ => rfl
  · refine h.app_sessions.apart.imp_of_mem ?_
    intro a b ha hb apart
    have ids : a.id ≠ b.id := fun same => by simp [appSessions_clash_iff.mpr (Or.inl same)] at apart
    refine ⟨fun selected => ?_, fun selected => ?_⟩
    · have own : a.id = o.id := of_decide_eq_true selected
      have other : b.reference ≠ next := fun same => ids (own.trans (free b hb same).symm)
      simp [appSessions, ids, other.symm]
    · have own : b.id = o.id := of_decide_eq_true selected
      have other : a.reference ≠ next := fun same => ids ((free a ha same).trans own.symm)
      have stays : ¬a.id = o.id := fun same => ids (same.trans own.symm)
      simp [appSessions, updated, stays, ids.symm, other.symm]

theorem Database.Valid.renameSession_eq (h : d.Valid)
    (free : ∀ o' ∈ d.app_sessions, o'.reference = next → o'.id = o.id) :
    d.renameSession o.id next = some (renamed o.id next d) := by
  rw [Database.renameSession, h.update_reference free]
  rfl

def merged (source target : Nat) (d : Database) : Database :=
  { afterMoves source target d with app_sessions := d.app_sessions.filter fun o => o.id ≠ source }

theorem reidentify_absent (h : ∀ o ∈ d.app_sessions, o.reference ≠ previous) :
    d.reidentify previous next = some d := by
  have absent : d.findSession previous = none :=
    List.find?_eq_none.mpr fun o ho => by simpa using h o ho
  rw [Database.reidentify, absent]

theorem Database.Valid.reidentify_rename (h : d.Valid) (ho : o ∈ d.app_sessions) (source : o.reference = previous)
    (free : ∀ o' ∈ d.app_sessions, o'.reference = next → o'.id = o.id) :
    d.reidentify previous next = some (renamed o.id next d) := by
  rw [Database.reidentify, h.findSession_eq ho source]
  cases found : d.findSession next with
  | none => exact h.renameSession_eq free
  | some o' =>
    obtain ⟨ho', same⟩ := findSession_some found
    simp only [free o' ho' same, ne_eq, not_true_eq_false, if_false]
    exact h.renameSession_eq free

theorem Database.Valid.reidentify_merge_iff (h : d.Valid) (ho : o ∈ d.app_sessions) (ho' : o' ∈ d.app_sessions)
    (source : o.reference = previous) (target : o'.reference = next) (ne : o.id ≠ o'.id) :
    d.reidentify previous next = some d' ↔
      Movable o.id o'.id d .checkpoints ∧ d' = merged o.id o'.id d := by
  rw [Database.reidentify, h.findSession_eq ho source, h.findSession_eq ho' target]
  simp only [ne_eq, ne.symm, not_false_eq_true, if_true, Option.map_eq_some_iff, moveRecords_eq_some_iff]
  constructor
  · rintro ⟨e, ⟨movable, rfl⟩, rfl⟩
    exact ⟨movable .checkpoints, h.delete_afterMoves ne⟩
  · rintro ⟨movable, rfl⟩
    refine ⟨_, ⟨fun t => ?_, rfl⟩, h.delete_afterMoves ne⟩
    by_cases same : t = .checkpoints
    · exact same ▸ movable
    · exact h.movable same

theorem Database.Valid.reidentify_cases (h : d.Valid) (previous next : Reference) :
    ((∀ o ∈ d.app_sessions, o.reference ≠ previous) ∧ d.reidentify previous next = some d) ∨
    (∃ o ∈ d.app_sessions, o.reference = previous ∧ (∀ o' ∈ d.app_sessions, o'.reference = next → o'.id = o.id) ∧
      d.reidentify previous next = some (renamed o.id next d)) ∨
    ∃ o ∈ d.app_sessions, ∃ o' ∈ d.app_sessions, o.reference = previous ∧ o'.reference = next ∧ o.id ≠ o'.id ∧
      ∀ d', d.reidentify previous next = some d' ↔ Movable o.id o'.id d .checkpoints ∧ d' = merged o.id o'.id d := by
  by_cases present : ∃ o ∈ d.app_sessions, o.reference = previous
  · obtain ⟨o, ho, source⟩ := present
    by_cases free : ∀ o' ∈ d.app_sessions, o'.reference = next → o'.id = o.id
    · exact .inr (.inl ⟨o, ho, source, free, h.reidentify_rename ho source free⟩)
    · push Not at free
      obtain ⟨o', ho', target, ne⟩ := free
      exact .inr (.inr ⟨o, ho, o', ho', source, target, ne.symm, fun _ => h.reidentify_merge_iff ho ho' source target ne.symm⟩)
  · push Not at present
    exact .inl ⟨present, reidentify_absent present⟩

theorem renamed_kept (h : d.Valid) (ho : o ∈ d.app_sessions) (source : o.reference = previous)
    (free : ∀ o' ∈ d.app_sessions, o'.reference = next → o'.id = o.id) :
    Kept previous next d (renamed o.id next d) := by
  have owns : (renamed o.id next d).Owns next (some o.id) :=
    ⟨{ o with reference := next }, List.mem_map.mpr ⟨o, ho, updated_of_selected (decide_eq_true rfl)⟩, rfl, rfl⟩
  have stays : ∀ t : OwnedTable, ∀ r ∈ d.rows t, t.table.owner r = some o.id →
      ∃ r' ∈ (renamed o.id next d).rows t, (renamed o.id next d).Owns next (t.table.owner r') ∧ t.table.Reowned r r' := by
    intro t r hr owned
    exact ⟨r, hr, owned ▸ owns, o.id, (t.table.setOwner_owner o.id r owned).symm⟩
  refine ⟨?_, ?_, fun distinct => distinct⟩
  · intro t r hr ⟨x, hx, same, owned⟩
    obtain rfl := h.session_unique hx ho (same.trans source.symm)
    obtain ⟨r', hr', owns', reowned⟩ := stays t r hr owned
    exact ⟨r', hr', owns', Or.inl reowned⟩
  · intro t r hr ⟨x, hx, same, owned⟩
    exact stays t r hr (free x hx same ▸ owned)

theorem DistinctPositions.moved (distinct : ∀ c, DistinctPositions (d.rows .pinned_widgets) c)
    (apart : ∀ w ∈ d.rows .pinned_widgets, ∀ w' ∈ d.rows .pinned_widgets, w.2.identity = .session source →
      w'.2.identity = .session target → w.2.groupId = w'.2.groupId → w.2.position ≠ w'.2.position)
    (c : PinnedWidgets.Container) :
    DistinctPositions ((d.rows .pinned_widgets).map (moved source target .pinned_widgets)) c := by
  -- a moved widget and one that stays are in different groups or at different positions
  have cross : ∀ a ∈ d.rows .pinned_widgets, ∀ b ∈ d.rows .pinned_widgets, a.2.identity = .session source →
      b.2.container = ⟨.session target, a.2.groupId⟩ → a.2.position = b.2.position → False := by
    intro a ha b hb owned container position
    obtain ⟨identity, group⟩ := PinnedWidgets.Container.mk.inj container
    exact apart a ha b hb owned identity group.symm position
  intro i v j w hv hw inV inW position
  obtain ⟨⟨i', a⟩, ha, movedA⟩ := List.mem_map.mp hv
  obtain ⟨⟨j', b⟩, hb, movedB⟩ := List.mem_map.mp hw
  by_cases ownA : a.identity = .session source
  · rw [moved_widget_source ownA] at movedA
    cases movedA
    by_cases ownB : b.identity = .session source
    · rw [moved_widget_source ownB] at movedB
      cases movedB
      have group : a.groupId = b.groupId := congrArg PinnedWidgets.Container.groupId (inV.trans inW.symm)
      refine distinct b.container _ _ _ _ ha hb ?_ rfl position
      rw [PinnedWidgets.Widget.container, PinnedWidgets.Widget.container, ownA, ownB, group]
    · rw [moved_widget_other ownB] at movedB
      cases movedB
      exact (cross _ ha _ hb ownA (inW.trans inV.symm) position).elim
  · rw [moved_widget_other ownA] at movedA
    cases movedA
    by_cases ownB : b.identity = .session source
    · rw [moved_widget_source ownB] at movedB
      cases movedB
      exact (cross _ hb _ ha ownB (inV.trans inW.symm) position.symm).elim
    · rw [moved_widget_other ownB] at movedB
      cases movedB
      exact distinct c _ _ _ _ ha hb inV inW position

theorem merged_kept (h : d.Valid) (ho : o ∈ d.app_sessions) (ho' : o' ∈ d.app_sessions)
    (source : o.reference = previous) (target : o'.reference = next) (ne : o.id ≠ o'.id)
    (apart : (∀ c, DistinctPositions (d.rows .pinned_widgets) c) →
      ∀ w ∈ d.rows .pinned_widgets, ∀ w' ∈ d.rows .pinned_widgets, w.2.identity = .session o.id →
        w'.2.identity = .session o'.id → w.2.groupId = w'.2.groupId → w.2.position ≠ w'.2.position) :
    Kept previous next d (merged o.id o'.id d) := by
  have owns : (merged o.id o'.id d).Owns next (some o'.id) :=
    ⟨o', List.mem_filter.mpr ⟨ho', decide_eq_true ne.symm⟩, target, rfl⟩
  refine ⟨?_, ?_, fun distinct => DistinctPositions.moved distinct (apart distinct)⟩
  · intro t r hr ⟨x, hx, same, owned⟩
    obtain rfl := h.session_unique hx ho (same.trans source.symm)
    refine ⟨_, List.mem_map_of_mem hr, ?_, Or.inl ⟨o'.id, moved_source owned⟩⟩
    rw [moved_source owned, t.table.owner_setOwner]
    exact owns
  · intro t r hr ⟨x, hx, same, owned⟩
    obtain rfl := h.session_unique hx ho' (same.trans target.symm)
    have stays : moved o.id x.id t r = r := moved_other fun same => ne (Option.some.inj (owned.symm.trans same)).symm
    refine ⟨_, List.mem_map_of_mem hr, ?_, x.id, ?_⟩
    · rw [stays, owned]
      exact owns
    · rw [stays, t.table.setOwner_owner x.id r owned]

/-- The promotion of an identity succeeds, gives the target every record of the source, loses
none of the target's and keeps the widgets of every container apart, exactly when the records
of the two sessions can be merged. -/
theorem reidentify_keeps_iff (d : Database) (valid : d.Valid) (previous next : Reference) :
    (∃ d', d.reidentify previous next = some d' ∧ Kept previous next d d') ↔ Mergeable previous next d := by
  constructor
  · rintro ⟨d', step, kept⟩ o ho o' ho' source target ne
    obtain ⟨movable, rfl⟩ := (valid.reidentify_merge_iff ho ho' source target ne).mp step
    refine ⟨(valid.movable_checkpoints_iff ne).mp movable, ?_⟩
    intro distinct w hw w' hw' owned owned' group position
    have other : w'.2.identity ≠ .session o.id := fun same =>
      ne (PinnedWidgets.Identity.session.inj (same.symm.trans owned'))
    have mem := List.mem_map_of_mem (f := moved o.id o'.id .pinned_widgets) hw
    have mem' := List.mem_map_of_mem (f := moved o.id o'.id .pinned_widgets) hw'
    rw [moved_widget_source owned] at mem
    rw [moved_widget_other other] at mem'
    have same : w.1 = w'.1 := by
      refine kept.distinct distinct ⟨.session o'.id, w.2.groupId⟩ _ _ _ _ mem mem' rfl ?_ position
      rw [PinnedWidgets.Widget.container, owned', group]
    have clash : pinned_widgets.clash w w' = true := by simp [pinned_widgets, same]
    obtain rfl := (valid.rows .pinned_widgets).eq_of_clash hw hw' clash
    exact other owned
  · intro mergeable
    obtain ⟨absent, same⟩ | ⟨o, ho, source, free, same⟩ | ⟨o, ho, o', ho', source, target, ne, same⟩ :=
      valid.reidentify_cases previous next
    · refine ⟨d, same, ?_, ?_, fun distinct => distinct⟩
      · rintro t r _ ⟨o, ho, same, _⟩
        exact absurd same (absent o ho)
      · rintro t r hr ⟨o, ho, same, owned⟩
        exact ⟨r, hr, ⟨o, ho, same, owned⟩, o.id, (t.table.setOwner_owner o.id r owned).symm⟩
    · exact ⟨_, same, renamed_kept valid ho source free⟩
    · obtain ⟨checkpoints, widgets⟩ := mergeable o ho o' ho' source target ne
      have movable := (valid.movable_checkpoints_iff ne).mpr checkpoints
      exact ⟨_, (same _).mpr ⟨movable, rfl⟩, merged_kept valid ho ho' source target ne widgets⟩

end

def twoSessions (anchor : String) : Database where
  app_sessions := [⟨1, ⟨.codex, "provisional", none⟩⟩, ⟨2, ⟨.codex, "native", none⟩⟩]
  rows
    | .checkpoints => [⟨1, 1, "a1", anchor⟩, ⟨2, 2, "a1", "m1"⟩]
    | .pinned_widgets => [("w1", ⟨.session 1, none, .link, "Docs", 0, some "/", none, none, none, none, "t", "t"⟩),
        ("w2", ⟨.session 2, none, .link, "Docs", 1, some "/", none, none, none, none, "t", "t"⟩)]
    | .operations | .routines | .hublots | .runners | .pinned_widget_groups => []

theorem twoSessions_valid : ∀ anchor ∈ ["m1", "m2"], (twoSessions anchor).Valid := by
  refine List.forall_mem_cons.mpr ⟨?_, List.forall_mem_singleton.mpr ?_⟩
  all_goals
    refine ⟨⟨by decide, by decide⟩, fun t => ?_, fun t => ?_, by decide, by decide⟩
    · cases t <;> exact ⟨by decide, by decide⟩
    · cases t <;> decide

theorem reidentify_keeps_iff_other_anchor :
    ∃ d', (twoSessions "m2").reidentify ⟨.codex, "provisional", none⟩ ⟨.codex, "native", none⟩ = some d' ∧
      Kept ⟨.codex, "provisional", none⟩ ⟨.codex, "native", none⟩ (twoSessions "m2") d' := by
  refine (reidentify_keeps_iff _ (twoSessions_valid _ (by decide)) _ _).mpr ?_
  have checkpoints : ∀ o ∈ (twoSessions "m2").app_sessions, ∀ o' ∈ (twoSessions "m2").app_sessions, o.id ≠ o'.id →
      ∀ r ∈ (twoSessions "m2").rows .checkpoints, ∀ r' ∈ (twoSessions "m2").rows .checkpoints,
        r.owner_id = o.id → r'.owner_id = o'.id → ¬(r.git_hash = r'.git_hash ∧ r.anchor_id = r'.anchor_id) := by decide
  have widgets : ∀ o ∈ (twoSessions "m2").app_sessions, ∀ o' ∈ (twoSessions "m2").app_sessions, o.id ≠ o'.id →
      ∀ w ∈ (twoSessions "m2").rows .pinned_widgets, ∀ w' ∈ (twoSessions "m2").rows .pinned_widgets,
        w.2.identity = .session o.id → w'.2.identity = .session o'.id → w.2.groupId = w'.2.groupId →
          w.2.position ≠ w'.2.position := by decide
  exact fun o ho o' ho' _ _ ne => ⟨checkpoints o ho o' ho' ne, fun _ => widgets o ho o' ho' ne⟩

/-- Both sessions have the checkpoint: the statement that moves it fails, and with it the promotion. -/
theorem equal_checkpoint_fails : ¬∀ (d : Database) (_ : d.Valid) (previous next : Reference),
      ∃ d', d.reidentify previous next = some d' ∧ Kept previous next d d' := by
  intro all
  obtain ⟨d', step, -⟩ := all _ (twoSessions_valid "m1" (by decide))
    ⟨.codex, "provisional", none⟩ ⟨.codex, "native", none⟩
  have fails : ((twoSessions "m1").reidentify ⟨.codex, "provisional", none⟩ ⟨.codex, "native", none⟩).isNone = true := by
    decide
  rw [step] at fails
  cases fails

end SessionRecords
