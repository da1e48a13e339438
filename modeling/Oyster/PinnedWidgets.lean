import Mathlib.Data.List.Sort
import Oyster.OrderedMap

/-! Pinned widgets and their groups: the tables with their constraints, the repository's
statements, and the transactions of the routes. A container is the scope, owner and group
of a widget; the positions in it order its widgets. -/
namespace PinnedWidgets

/-- The scope and the owner. Only widgets of a session have an owner. -/
inductive Identity where
  | workspace
  | session (owner : Nat)
  deriving DecidableEq

structure Container where
  identity : Identity
  groupId : Option String
  deriving DecidableEq

inductive Kind where
  | liveInterface | image | video | markdown | file | directory | builtin | link | monitoring
  deriving DecidableEq

structure Widget where
  identity : Identity
  groupId : Option String
  kind : Kind
  label : String
  position : Nat
  target : Option String
  hublotId : Option String
  mimeType : Option String
  size : Option Nat
  mtimeMs : Option Nat
  createdAt : String
  updatedAt : String

def Widget.container (w : Widget) : Container := ⟨w.identity, w.groupId⟩

structure Group where
  identity : Identity
  name : String
  position : Nat
  createdAt : String
  updatedAt : String

structure Store where
  widgets : OrderedMap String Widget
  groups : OrderedMap String Group

/-- The length without the spaces around it. -/
def trimmedLength (s : String) : Nat :=
  (((s.toList.dropWhile (· = ' ')).reverse).dropWhile (· = ' ')).length

def Widget.checks (w : Widget) : Bool :=
  (1 ≤ trimmedLength w.label && trimmedLength w.label ≤ 200) && (w.kind = .liveInterface || w.hublotId.isNone) &&
    (w.target.isSome || w.kind = .liveInterface || w.kind = .builtin)

def Group.checks (g : Group) : Bool := 1 ≤ trimmedLength g.name && trimmedLength g.name ≤ 80

def isBuiltinOf (target : Option String) (w : Widget) : Bool :=
  w.kind = .builtin && w.identity = .workspace && w.target = target && target.isSome

/-- The row keeps the constraints of the table: its group exists, and no other row has its
hublot or is the same built-in widget of the workspace. -/
def allowed (s : Store) (id : String) (w : Widget) : Bool :=
  w.checks && w.groupId.all s.groups.has && s.widgets.entries.all fun e => e.1 = id ||
      !(e.2.hublotId = w.hublotId && w.hublotId.isSome || isBuiltinOf w.target w && isBuiltinOf w.target e.2)

def create (s : Store) (id : String) (w : Widget) : Option Store :=
  if !s.widgets.has id && allowed s id w then some { s with widgets := s.widgets.set id w } else none

/-- An update of an absent row changes nothing. -/
def update (s : Store) (id : String) (f : Widget → Widget) : Option Store :=
  match s.widgets.get id with
  | none => some s
  | some w => if allowed s id (f w) then some { s with widgets := s.widgets.modify id f } else none

def delete (s : Store) (id : String) : Store := { s with widgets := s.widgets.delete id }

def members (s : Store) (c : Container) : List (String × Widget) :=
  s.widgets.entries.filter fun e => e.2.container = c

def nextPosition (s : Store) (c : Container) : Nat :=
  (members s c).foldl (fun n e => max n (e.2.position + 1)) 0

def createGroup (s : Store) (id : String) (g : Group) : Option Store :=
  if !s.groups.has id && g.checks then some { s with groups := s.groups.set id g } else none

def updateGroup (s : Store) (id : String) (f : Group → Group) : Option Store :=
  match s.groups.get id with
  | none => some s
  | some g => if (f g).checks then some { s with groups := s.groups.modify id f } else none

def deleteGroup (s : Store) (id : String) : Store where
  widgets := s.widgets.mapValues fun w => if w.groupId = some id then { w with groupId := none } else w
  groups := s.groups.delete id

def groupMembers (s : Store) (identity : Identity) : List (String × Group) :=
  s.groups.entries.filter fun e => e.2.identity = identity

def nextGroupPosition (s : Store) (identity : Identity) : Nat :=
  (groupMembers s identity).foldl (fun n e => max n (e.2.position + 1)) 0

section
variable (localeLe : String → String → Bool)

def sorted (items : List (String × Widget)) : List (String × Widget) :=
  items.insertionSort fun a b =>
    a.2.position < b.2.position ∨ (a.2.position = b.2.position ∧ localeLe a.1 b.1)

def sortedGroups (items : List (String × Group)) : List (String × Group) :=
  items.insertionSort fun a b =>
    a.2.position < b.2.position ∨ (a.2.position = b.2.position ∧ localeLe a.1 b.1)

def updateAll (s : Store) (changes : List (String × (Widget → Widget))) : Option Store :=
  changes.foldlM (fun s c => update s c.1 c.2) s

def setPosition (position : Nat) (w : Widget) : Widget := { w with position }

def renumbering (items : List (String × Widget)) (first : Nat) : List (String × (Widget → Widget)) :=
  (items.zipIdx first).filterMap fun (e, position) =>
    if e.2.position ≠ position then some (e.1, setPosition position) else none

def normalizeContainer (s : Store) (c : Container) : Option Store :=
  updateAll s (renumbering (sorted localeLe (members s c)) 0)

def normalizeGroupContainer (s : Store) (identity : Identity) : Option Store :=
  (sortedGroups localeLe (groupMembers s identity)).zipIdx.foldlM (fun s (e, position) =>
    if e.2.position ≠ position then updateGroup s e.1 fun g => { g with position } else some s) s

def placing (order : List String) (first : Nat) (id : String) (next : Container) (now : String) :
    List (String × (Widget → Widget)) :=
  (order.zipIdx first).map fun (item, position) => (item, fun w =>
    if item = id then
      { w with position, identity := next.identity, groupId := next.groupId, updatedAt := now }
    else setPosition position w)

def reorder (s : Store) (order : List String) (id : String) (old next : Container) (now : String) :
    Option Store := do
  let s ← updateAll s (placing order 0 id next now)
  if next = old then some s else normalizeContainer localeLe s old

def unpin (s : Store) (id : String) (c : Container) : Option Store :=
  normalizeContainer localeLe (delete s id) c

def moveHublotWidget (s : Store) (id : String) (old : Container) (next : Identity) (now : String) :
    Option Store := do
  let position := nextPosition s ⟨next, none⟩
  let s ← update s id fun w => { w with identity := next, groupId := none, position, updatedAt := now }
  normalizeContainer localeLe s old

def releaseChildren (s : Store) (children : List String) (deleteWidgets : Bool) (now : String) : Option Store :=
  if deleteWidgets then some (children.foldl delete s)
  else updateAll s (children.map fun item => (item, fun w => { w with groupId := none, updatedAt := now }))

def removeGroup (s : Store) (id : String) (identity : Identity) (children : List String)
    (deleteWidgets : Bool) (now : String) : Option Store := do
  let s ← releaseChildren s children deleteWidgets now
  normalizeContainer localeLe (deleteGroup s id) ⟨identity, none⟩

def moveGroup (s : Store) (id : String) (old next : Identity) (now : String) : Option Store := do
  let position := nextGroupPosition s next
  let s ← updateGroup s id fun g => { g with identity := next, position, updatedAt := now }
  let children := (s.widgets.entries.filter fun e => e.2.groupId = some id).map Prod.fst
  let s ← updateAll s (children.map fun item => (item, fun w => { w with identity := next, updatedAt := now }))
  normalizeGroupContainer localeLe s old

/-- A name that is given and has no text makes the transaction fail. -/
def renameGroup (s : Store) (id : String) (name : Option (Option String)) (now : String) : Option Store :=
  match name with
  | none => some s
  | some none => none
  | some (some name) => updateGroup s id fun g => { g with name, updatedAt := now }

def patchGroup (s : Store) (id : String) (old next : Identity) (name : Option (Option String))
    (now : String) : Option Store :=
  (if next = old then some s else moveGroup localeLe s id old next now).bind fun s =>
    renameGroup s id name now

end

def Distinct (s : Store) (c : Container) : Prop :=
  ∀ i v j w, (i, v) ∈ s.widgets → (j, w) ∈ s.widgets → v.container = c → w.container = c →
    v.position = w.position → i = j

def Grouped (s : Store) : Prop :=
  ∀ i w g, (i, w) ∈ s.widgets → w.groupId = some g → ∃ group, (g, group) ∈ s.groups ∧ group.identity = w.identity

structure WellFormed (s : Store) : Prop where
  distinct : ∀ c, Distinct s c
  grouped : Grouped s

variable {s : Store} {c : Container}

theorem mem_members {e : String × Widget} : e ∈ members s c ↔ e ∈ s.widgets ∧ e.2.container = c := by
  simp only [members, List.mem_filter, decide_eq_true_eq, OrderedMap.mem_iff]

variable {t : Store} {id : String} {w : Widget}

theorem create_spec (h : create s id w = some t) :
    t.groups = s.groups ∧ (∀ g, w.groupId = some g → ∃ group, (g, group) ∈ s.groups) ∧ (∀ v, (id, v) ∉ s.widgets) ∧
      ∀ j v, (j, v) ∈ t.widgets ↔ (j = id ∧ v = w) ∨ (j ≠ id ∧ (j, v) ∈ s.widgets) := by
  unfold create at h
  split_ifs at h with free
  cases h
  rw [Bool.and_eq_true, allowed, Bool.and_eq_true, Bool.and_eq_true] at free
  obtain ⟨absent, ⟨_, group⟩, _⟩ := free
  refine ⟨rfl, fun g same => ?_, fun v mem => ?_, fun j v => OrderedMap.mem_set⟩
  · rw [same] at group
    exact OrderedMap.has_iff.mp group
  · rw [OrderedMap.has_iff.mpr ⟨v, mem⟩] at absent
    cases absent

theorem update_spec {f : Widget → Widget} (h : update s id f = some t) : t.groups = s.groups ∧
      (∀ v, (id, v) ∈ s.widgets → ∀ g, (f v).groupId = some g → ∃ group, (g, group) ∈ s.groups) ∧
      ∀ j w, (j, w) ∈ t.widgets ↔ (j = id ∧ ∃ v, (id, v) ∈ s.widgets ∧ w = f v) ∨ (j ≠ id ∧ (j, w) ∈ s.widgets) := by
  unfold update at h
  cases found : s.widgets.get id with
  | none =>
    rw [found] at h
    cases h
    have absent : ∀ v, (id, v) ∉ s.widgets := fun v mem => by
      rw [OrderedMap.get_eq_some_iff.mpr mem] at found
      cases found
    refine ⟨rfl, fun v mem => absurd mem (absent v), fun j w => ⟨fun mem => ?_, ?_⟩⟩
    · exact .inr ⟨(fun same => absent w (same ▸ mem)), mem⟩
    · rintro (⟨_, v, mem, _⟩ | ⟨_, mem⟩)
      · exact absurd mem (absent v)
      · exact mem
  | some v =>
    rw [found] at h
    simp only at h
    split_ifs at h with ok
    cases h
    refine ⟨rfl, fun w mem g same => ?_, fun j w => OrderedMap.mem_modify⟩
    obtain rfl := OrderedMap.value_unique mem (OrderedMap.mem_of_get found)
    rw [allowed, Bool.and_eq_true, Bool.and_eq_true] at ok
    have group := ok.1.2
    rw [same] at group
    exact OrderedMap.has_iff.mp group

def changeOf (changes : List (String × (Widget → Widget))) (id : String) (w : Widget) : Widget :=
  match changes.find? (·.1 = id) with
  | none => w
  | some c => c.2 w

theorem changeOf_cons (c : String × (Widget → Widget)) (changes : List (String × (Widget → Widget)))
    (id : String) (w : Widget) :
    changeOf (c :: changes) id w = if c.1 = id then c.2 w else changeOf changes id w := by
  simp only [changeOf, List.find?_cons]
  by_cases same : c.1 = id
  · simp [same]
  · simp [same]

variable {changes : List (String × (Widget → Widget))}

theorem changeOf_absent (absent : id ∉ changes.map Prod.fst) (w : Widget) : changeOf changes id w = w := by
  have none : changes.find? (fun d => decide (d.1 = id)) = none := by
    refine List.find?_eq_none.mpr fun d mem same => absent ?_
    rw [← of_decide_eq_true same]
    exact List.mem_map_of_mem mem
  simp only [changeOf, none]

theorem updateAll_spec (distinct : (changes.map Prod.fst).Nodup) (h : updateAll s changes = some t) :
    t.groups = s.groups ∧
      (∀ j v, (j, v) ∈ s.widgets → j ∈ changes.map Prod.fst → ∀ g, (changeOf changes j v).groupId = some g →
        ∃ group, (g, group) ∈ s.groups) ∧
      ∀ j w, (j, w) ∈ t.widgets ↔ ∃ v, (j, v) ∈ s.widgets ∧ w = changeOf changes j v := by
  induction changes generalizing s with
  | nil =>
    cases h
    refine ⟨rfl, (fun _ _ _ absurd => nomatch absurd), fun j w => ⟨fun mem => ⟨w, mem, rfl⟩, ?_⟩⟩
    rintro ⟨v, mem, rfl⟩
    exact mem
  | cons c changes ih =>
    rw [List.map_cons, List.nodup_cons] at distinct
    obtain ⟨u, first, rest⟩ := Option.bind_eq_some_iff.mp h
    obtain ⟨groups, allowed, widgets⟩ := update_spec first
    obtain ⟨groups', allowed', widgets'⟩ := ih distinct.2 rest
    have absent := changeOf_absent distinct.1
    simp only [changeOf_cons]
    refine ⟨groups'.trans groups, ?_, fun j w => ?_⟩
    · intro j v mem listed g named
      by_cases same : c.1 = j
      · rw [if_pos same] at named
        exact allowed v (same ▸ mem) g named
      · rw [if_neg same] at named
        rw [← groups]
        refine allowed' j v ((widgets _ _).mpr (.inr ⟨Ne.symm same, mem⟩)) ?_ g named
        exact (List.mem_cons.mp listed).resolve_left (Ne.symm same)
    · rw [widgets']
      simp only [widgets]
      constructor
      · rintro ⟨v, ⟨rfl, u, mem, rfl⟩ | ⟨ne, mem⟩, rfl⟩
        · exact ⟨u, mem, by rw [absent, if_pos rfl]⟩
        · exact ⟨v, mem, by rw [if_neg (Ne.symm ne)]⟩
      · rintro ⟨v, mem, rfl⟩
        by_cases same : c.1 = j
        · subst same
          exact ⟨c.2 v, .inl ⟨rfl, v, mem, rfl⟩, by rw [if_pos rfl, absent]⟩
        · exact ⟨v, .inr ⟨Ne.symm same, mem⟩, by rw [if_neg same]⟩

variable {j : String}

theorem position_lt_next (mem : (j, w) ∈ s.widgets) (inside : w.container = c) : w.position < nextPosition s c := by
  have fold : ∀ (l : List (String × Widget)) (n : Nat), n ≤ l.foldl (fun n e => max n (e.2.position + 1)) n ∧
        ∀ e ∈ l, e.2.position < l.foldl (fun n e => max n (e.2.position + 1)) n := by
    intro l
    induction l with
    | nil => exact fun n => ⟨Nat.le_refl n, fun _ absurd => nomatch absurd⟩
    | cons e l ih =>
      intro n
      obtain ⟨above, all⟩ := ih (max n (e.2.position + 1))
      refine ⟨Nat.le_trans (Nat.le_max_left _ _) above, fun d mem => ?_⟩
      rcases List.mem_cons.mp mem with rfl | later
      · exact Nat.lt_of_lt_of_le (Nat.lt_succ_self _) (Nat.le_trans (Nat.le_max_right _ _) above)
      · exact all d later
  exact (fold (members s c) 0).2 (j, w) (mem_members.mpr ⟨mem, inside⟩)

theorem sorted_perm (localeLe : String → String → Bool) (items : List (String × Widget)) :
    (sorted localeLe items).Perm items := List.perm_insertionSort _ _

theorem members_keys_nodup (s : Store) (c : Container) : ((members s c).map Prod.fst).Nodup :=
  s.widgets.nodup.sublist (List.filter_sublist.map Prod.fst)

variable {items : List (String × Widget)}

theorem changeOf_renumbering (distinct : (items.map Prod.fst).Nodup) (first : Nat) (j : String) (v : Widget) :
    ((j, v) ∈ items → changeOf (renumbering items first) j v = setPosition (first + (items.map Prod.fst).idxOf j) v) ∧
      (j ∉ items.map Prod.fst → changeOf (renumbering items first) j v = v) := by
  induction items generalizing first with
  | nil => exact ⟨(fun absurd => nomatch absurd), fun _ => rfl⟩
  | cons e items ih =>
    rw [List.map_cons, List.nodup_cons] at distinct
    have later := ih distinct.2 (first + 1)
    have step : changeOf (renumbering (e :: items) first) j v =
        if e.1 = j ∧ e.2.position ≠ first then setPosition first v
        else changeOf (renumbering items (first + 1)) j v := by
      by_cases placed : e.2.position = first
      · simp [placed, renumbering]
      · simp [placed, renumbering, changeOf_cons]
    rw [step, List.map_cons]
    by_cases same : e.1 = j
    · refine ⟨fun mem => ?_, fun absent => absurd (same ▸ List.mem_cons_self) absent⟩
      have own : e.2 = v := by
        rcases List.mem_cons.mp mem with head | other
        · rw [← head]
        · exact absurd (same ▸ List.mem_map_of_mem other) distinct.1
      rw [same, List.idxOf_cons_self, Nat.add_zero, later.2 (same ▸ distinct.1)]
      split_ifs with moved
      · rfl
      · have placed : v.position = first := by
          by_contra other
          exact moved ⟨rfl, own ▸ other⟩
        rw [← placed]
        rfl
    · rw [if_neg fun both => same both.1]
      refine ⟨fun mem => ?_, fun absent => later.2 fun inside => absent (List.mem_cons_of_mem _ inside)⟩
      rcases List.mem_cons.mp mem with head | other
      · exact absurd (congrArg Prod.fst head).symm same
      · rw [later.1 other, List.idxOf_cons_ne _ same, Nat.succ_eq_add_one, Nat.add_assoc, Nat.add_comm 1]

theorem renumbering_keys (distinct : (items.map Prod.fst).Nodup) (first : Nat) :
    ((renumbering items first).map Prod.fst).Nodup := by
  have sub : ((renumbering items first).map Prod.fst).Sublist (items.map Prod.fst) := by
    clear distinct
    induction items generalizing first with
    | nil => exact .slnil
    | cons e items ih =>
      unfold renumbering at ih ⊢
      rw [List.zipIdx_cons, List.filterMap_cons]
      by_cases placed : e.2.position = first
      · simp only [placed, ne_eq, not_true_eq_false, if_false, List.map_cons]
        exact (ih (first + 1)).cons _
      · simp only [placed, ne_eq, not_false_eq_true, if_true, List.map_cons]
        exact (ih (first + 1)).cons_cons _
  exact distinct.sublist sub

variable {localeLe : String → String → Bool}

theorem normalizeContainer_spec (h : normalizeContainer localeLe s c = some t) : t.groups = s.groups ∧
      (∀ j w, (j, w) ∈ t.widgets ↔ ∃ v, (j, v) ∈ s.widgets ∧ w =
        if v.container = c then
          setPosition (((sorted localeLe (members s c)).map Prod.fst).idxOf j) v
        else v) := by
  have perm := sorted_perm localeLe (members s c)
  have distinct : ((sorted localeLe (members s c)).map Prod.fst).Nodup :=
    (perm.map Prod.fst).nodup_iff.mpr (members_keys_nodup s c)
  obtain ⟨groups, _, widgets⟩ := updateAll_spec (renumbering_keys distinct 0) h
  refine ⟨groups, fun j w => ?_⟩
  rw [widgets]
  refine exists_congr fun v => and_congr_right fun mem => ?_
  obtain ⟨within, outside⟩ := changeOf_renumbering distinct 0 j v
  by_cases inside : v.container = c
  · rw [if_pos inside, within (perm.mem_iff.mpr (mem_members.mpr ⟨mem, inside⟩)), Nat.zero_add]
  · rw [if_neg inside, outside]
    intro key
    obtain ⟨⟨i, u⟩, among, rfl⟩ := List.mem_map.mp key
    obtain ⟨mem', inside'⟩ := mem_members.mp (perm.mem_iff.mp among)
    exact inside (by rw [← inside', OrderedMap.value_unique mem mem'])

theorem normalizeContainer_wellFormed (others : ∀ d, d ≠ c → Distinct s d) (grouped : Grouped s)
    (h : normalizeContainer localeLe s c = some t) : WellFormed t := by
  obtain ⟨groups, widgets⟩ := normalizeContainer_spec h
  have back : ∀ {j w}, (j, w) ∈ t.widgets → ∃ v, (j, v) ∈ s.widgets ∧ v.container = w.container ∧
      v.identity = w.identity ∧ v.groupId = w.groupId ∧
      w.position = (if v.container = c then
        ((sorted localeLe (members s c)).map Prod.fst).idxOf j else v.position) := by
    intro j w mem
    obtain ⟨v, old, rfl⟩ := (widgets j w).mp mem
    refine ⟨v, old, ?_⟩
    split_ifs <;> exact ⟨rfl, rfl, rfl, rfl⟩
  constructor
  · intro d i v j w hi hj vd wd same
    obtain ⟨v', mem, container, _, _, position⟩ := back hi
    obtain ⟨w', mem', container', _, _, position'⟩ := back hj
    by_cases this : d = c
    · subst this
      rw [position, position', if_pos (container.trans vd), if_pos (container'.trans wd)] at same
      have among : i ∈ (sorted localeLe (members s d)).map Prod.fst :=
        List.mem_map_of_mem ((sorted_perm localeLe _).mem_iff.mpr (mem_members.mpr ⟨mem, container.trans vd⟩))
      exact (List.idxOf_inj among).mp same
    · rw [position, position', if_neg, if_neg] at same
      · exact others d this i v' j w' mem mem' (container.trans vd) (container'.trans wd) same
      · exact fun h => this ((wd.symm.trans container'.symm).trans h)
      · exact fun h => this ((vd.symm.trans container.symm).trans h)
  · intro i w g mem group
    obtain ⟨v, mem, _, identity, groupId, _⟩ := back mem
    rw [groups, ← identity]
    exact grouped i v g mem (groupId.trans group)

/-- A group that is named, if it exists, has this scope and owner. -/
def GroupMatches (s : Store) (c : Container) : Prop :=
  ∀ g, c.groupId = some g → ∀ group, (g, group) ∈ s.groups → group.identity = c.identity

theorem create_wellFormed (h : create s id w = some t) (wellFormed : WellFormed s)
    (free : ∀ e ∈ members s w.container, e.2.position ≠ w.position) (group : GroupMatches s w.container) :
    WellFormed t := by
  obtain ⟨groups, present, _, widgets⟩ := create_spec h
  constructor
  · intro c i v j u hi hj vc uc same
    rcases (widgets i v).mp hi with ⟨rfl, rfl⟩ | ⟨_, hi⟩
    · rcases (widgets j u).mp hj with ⟨rfl, rfl⟩ | ⟨_, hj⟩
      · rfl
      · exact absurd same.symm (free (j, u) (mem_members.mpr ⟨hj, uc.trans vc.symm⟩))
    · rcases (widgets j u).mp hj with ⟨rfl, rfl⟩ | ⟨_, hj⟩
      · exact absurd same (free (i, v) (mem_members.mpr ⟨hi, vc.trans uc.symm⟩))
      · exact wellFormed.distinct c i v j u hi hj vc uc same
  · intro i v g mem named
    rw [groups]
    rcases (widgets i v).mp mem with ⟨rfl, rfl⟩ | ⟨_, mem⟩
    · obtain ⟨row, found⟩ := present g named
      exact ⟨row, found, group g named row found⟩
    · exact wellFormed.grouped i v g mem named

theorem create_wellFormed_iff (h : create s id w = some t) (wellFormed : WellFormed s)
    (group : GroupMatches s w.container) : WellFormed t ↔ ∀ e ∈ members s w.container, e.2.position ≠ w.position := by
  refine ⟨fun after e mem same => ?_, fun free => create_wellFormed h wellFormed free group⟩
  obtain ⟨_, _, absent, widgets⟩ := create_spec h
  obtain ⟨j, v⟩ := e
  obtain ⟨mem, inside⟩ := mem_members.mp mem
  have other : j ≠ id := by
    rintro rfl
    exact absent v mem
  exact other (after.distinct _ j v id w ((widgets j v).mpr (.inr ⟨other, mem⟩))
    ((widgets id w).mpr (.inl ⟨rfl, rfl⟩)) inside rfl same)

theorem delete_distinct (h : Distinct s c) : Distinct (delete s id) c := by
  intro i v j w hi hj
  exact h i v j w (OrderedMap.mem_delete.mp hi).2 (OrderedMap.mem_delete.mp hj).2

theorem delete_grouped (h : Grouped s) : Grouped (delete s id) :=
  fun i w g mem => h i w g (OrderedMap.mem_delete.mp mem).2

theorem unpin_wellFormed (h : unpin localeLe s id c = some t) (wellFormed : WellFormed s) : WellFormed t :=
  normalizeContainer_wellFormed (fun d _ => delete_distinct (wellFormed.distinct d))
    (delete_grouped wellFormed.grouped) h

variable {next : Identity} {now : String} {old : Container}

theorem moveHublotWidget_wellFormed (h : moveHublotWidget localeLe s id old next now = some t)
    (wellFormed : WellFormed s) : WellFormed t := by
  obtain ⟨u, moved, normalized⟩ := Option.bind_eq_some_iff.mp h
  obtain ⟨groups, _, widgets⟩ := update_spec moved
  refine normalizeContainer_wellFormed (fun d _ => ?_) ?_ normalized
  · intro i v j w hi hj vd wd same
    rcases (widgets i v).mp hi with ⟨rfl, v, mem, rfl⟩ | ⟨_, mem⟩
    · rcases (widgets j w).mp hj with ⟨rfl, _⟩ | ⟨_, mem'⟩
      · rfl
      · have less := position_lt_next mem' (wd.trans vd.symm)
        exact absurd same.symm (Nat.ne_of_lt less)
    · rcases (widgets j w).mp hj with ⟨rfl, w, _, rfl⟩ | ⟨_, mem'⟩
      · have less := position_lt_next mem (vd.trans wd.symm)
        exact absurd same (Nat.ne_of_lt less)
      · exact wellFormed.distinct d i v j w mem mem' vd wd same
  · intro i w g mem named
    rw [groups]
    rcases (widgets i w).mp mem with ⟨rfl, v, _, rfl⟩ | ⟨_, mem⟩
    · cases named
    · exact wellFormed.grouped i w g mem named

theorem placing_keys (order : List String) (first : Nat) (id : String) (next : Container) (now : String) :
    (placing order first id next now).map Prod.fst = order := by
  induction order generalizing first with
  | nil => rfl
  | cons item order ih =>
    unfold placing at ih ⊢
    rw [List.zipIdx_cons, List.map_cons, List.map_cons, ih]

def moved (next : Container) (now : String) (position : Nat) (w : Widget) : Widget :=
  { w with position, identity := next.identity, groupId := next.groupId, updatedAt := now }

variable {order : List String}

theorem changeOf_placing (distinct : order.Nodup) (first : Nat) (id : String) (next : Container) (now : String)
    (j : String) (v : Widget) : changeOf (placing order first id next now) j v =
      if j ∈ order then
        if j = id then moved next now (first + order.idxOf j) v else setPosition (first + order.idxOf j) v
      else v := by
  induction order generalizing first with
  | nil => rfl
  | cons item order ih =>
    rw [List.nodup_cons] at distinct
    have later := ih distinct.2 (first + 1)
    have step : changeOf (placing (item :: order) first id next now) j v =
        if item = j then (if j = id then moved next now first v else setPosition first v)
        else changeOf (placing order (first + 1) id next now) j v := by
      rw [placing, List.zipIdx_cons, List.map_cons, changeOf_cons]
      by_cases same : item = j
      · rw [if_pos same, if_pos same, same]
        rfl
      · rw [if_neg same, if_neg same, placing]
    rw [step]
    by_cases same : item = j
    · subst same
      rw [if_pos rfl, if_pos List.mem_cons_self, List.idxOf_cons_self, Nat.add_zero]
    · rw [if_neg same, later, List.idxOf_cons_ne _ same, Nat.succ_eq_add_one, Nat.add_assoc, Nat.add_comm 1]
      have mem : j ∈ item :: order ↔ j ∈ order := by
        rw [List.mem_cons, or_iff_right (Ne.symm same)]
      simp only [mem]

theorem reorder_wellFormed {next : Container} (h : reorder localeLe s order id old next now = some t)
    (wellFormed : WellFormed s) (distinct : order.Nodup) (moving : id ∈ order)
    (current : ∀ j v, (j, v) ∈ s.widgets → j ≠ id → (j ∈ order ↔ v.container = next)) (group : GroupMatches s next) :
    WellFormed t := by
  obtain ⟨u, placed, rest⟩ := Option.bind_eq_some_iff.mp h
  obtain ⟨groups, present, widgets⟩ := updateAll_spec (by rw [placing_keys]; exact distinct) placed
  simp only [changeOf_placing distinct, Nat.zero_add] at widgets
  have between : WellFormed u := by
    have back : ∀ {j w}, (j, w) ∈ u.widgets → (w.container = next ∧ j ∈ order ∧ w.position = order.idxOf j) ∨
          (w.container ≠ next ∧ (j, w) ∈ s.widgets) := by
      intro j w mem
      obtain ⟨v, old, rfl⟩ := (widgets j w).mp mem
      by_cases this : j = id
      · subst this
        rw [if_pos moving, if_pos rfl]
        exact .inl ⟨rfl, moving, rfl⟩
      · have inside := current j v old this
        by_cases listed : j ∈ order
        · rw [if_pos listed, if_neg this]
          exact .inl ⟨inside.mp listed, listed, rfl⟩
        · rw [if_neg listed]
          exact .inr ⟨fun same => listed (inside.mpr same), old⟩
    constructor
    · intro c i v j w hi hj vc wc same
      rcases back hi with ⟨vn, listed, position⟩ | ⟨vn, mem⟩
      · rcases back hj with ⟨_, _, position'⟩ | ⟨wn, _⟩
        · rw [position, position'] at same
          exact (List.idxOf_inj listed).mp same
        · exact absurd (wc.trans (vc.symm.trans vn)) wn
      · rcases back hj with ⟨wn, _, _⟩ | ⟨_, mem'⟩
        · exact absurd (vc.trans (wc.symm.trans wn)) vn
        · exact wellFormed.distinct c i v j w mem mem' vc wc same
    · intro i w g mem named
      rw [groups]
      obtain ⟨v, old, rfl⟩ := (widgets i w).mp mem
      split_ifs at named ⊢ with listed this
      · have row := present i v old (by rw [placing_keys]; exact listed) g (by
          rw [changeOf_placing distinct, if_pos listed, if_pos this]
          exact named)
        obtain ⟨row, found⟩ := row
        exact ⟨row, found, group g named row found⟩
      · exact wellFormed.grouped i v g old named
      · exact wellFormed.grouped i v g old named
  split_ifs at rest with same
  · cases rest
    exact between
  · exact normalizeContainer_wellFormed (fun d _ => between.distinct d) between.grouped rest

theorem map_change_keys (children : List String) (f : Widget → Widget) :
    (children.map fun item => (item, f)).map Prod.fst = children := by
  rw [List.map_map]
  exact List.map_id children

variable {children : List String}

theorem changeOf_map (listed : j ∈ children) (f : Widget → Widget) (v : Widget) :
    changeOf (children.map fun item => (item, f)) j v = f v := by
  induction children with
  | nil => cases listed
  | cons child children ih =>
    rw [List.map_cons, changeOf_cons]
    by_cases same : child = j
    · rw [if_pos same]
    · rw [if_neg same]
      exact ih ((List.mem_cons.mp listed).resolve_left (Ne.symm same))

theorem foldl_delete_spec (children : List String) (s : Store) : (children.foldl delete s).groups = s.groups ∧
      ∀ j w, (j, w) ∈ (children.foldl delete s).widgets ↔ j ∉ children ∧ (j, w) ∈ s.widgets := by
  induction children generalizing s with
  | nil => exact ⟨rfl, fun j w => by rw [List.foldl_nil, and_iff_right List.not_mem_nil]⟩
  | cons child children ih =>
    obtain ⟨groups, widgets⟩ := ih (delete s child)
    refine ⟨groups, fun j w => ?_⟩
    rw [List.foldl_cons, widgets, delete, OrderedMap.mem_delete, List.mem_cons, not_or, and_left_comm, and_assoc]

variable {identity : Identity}

theorem removeGroup_wellFormed {deleteWidgets : Bool}
    (h : removeGroup localeLe s id identity children deleteWidgets now = some t) (wellFormed : WellFormed s)
    (distinct : children.Nodup) (group : GroupMatches s ⟨identity, some id⟩)
    (current : deleteWidgets = false → ∀ j v, (j, v) ∈ s.widgets → j ∈ children → v.groupId ≠ none →
      v.identity = identity) : WellFormed t := by
  obtain ⟨u, first, rest⟩ := Option.bind_eq_some_iff.mp h
  -- a row either is as it was, or has no group and the scope and owner of the group
  have between : u.groups = s.groups ∧ ∀ j w, (j, w) ∈ u.widgets → ∃ v, (j, v) ∈ s.widgets ∧
      v.identity = w.identity ∧ v.position = w.position ∧
        (w.groupId = v.groupId ∨ (w.groupId = none ∧ w.identity = identity)) := by
    cases deleteWidgets with
    | true =>
      cases first
      obtain ⟨groups, widgets⟩ := foldl_delete_spec children s
      exact ⟨groups, fun j w mem => ⟨w, ((widgets j w).mp mem).2, rfl, rfl, .inl rfl⟩⟩
    | false =>
      have keys := map_change_keys children fun w => { w with groupId := none, updatedAt := now }
      obtain ⟨groups, _, widgets⟩ := updateAll_spec (by rw [keys]; exact distinct) first
      refine ⟨groups, fun j w mem => ?_⟩
      obtain ⟨v, old, rfl⟩ := (widgets j w).mp mem
      refine ⟨v, old, ?_⟩
      by_cases listed : j ∈ children
      · rw [changeOf_map listed]
        refine ⟨rfl, rfl, ?_⟩
        by_cases none : v.groupId = none
        · exact .inl none.symm
        · exact .inr ⟨rfl, current rfl j v old listed none⟩
      · rw [changeOf_absent (by rw [keys]; exact listed)]
        exact ⟨rfl, rfl, .inl rfl⟩
  obtain ⟨groups, back⟩ := between
  have back' : ∀ j w, (j, w) ∈ (deleteGroup u id).widgets → ∃ v, (j, v) ∈ s.widgets ∧
      v.identity = w.identity ∧ v.position = w.position ∧
        ((w.groupId = v.groupId ∧ w.groupId ≠ some id) ∨ w.container = ⟨identity, none⟩) := by
    intro j w mem
    obtain ⟨x, inside, rfl⟩ := OrderedMap.mem_mapValues.mp mem
    obtain ⟨v, old, same, position, kept⟩ := back j x inside
    refine ⟨v, old, ?_⟩
    split_ifs with inside
    · refine ⟨same, position, .inr ?_⟩
      rcases kept with kept | ⟨none, _⟩
      · obtain ⟨row, found, match'⟩ := wellFormed.grouped j v id old (kept.symm.trans inside)
        have mine := group id rfl row found
        simp only [Widget.container, ← same, ← match', mine]
      · rw [none] at inside
        cases inside
    · refine ⟨same, position, ?_⟩
      rcases kept with kept | ⟨none, mine⟩
      · exact .inl ⟨kept, inside⟩
      · exact .inr (by simp only [Widget.container, none, mine])
  refine normalizeContainer_wellFormed (fun d other => ?_) ?_ rest
  · intro i v j w hi hj vd wd same
    obtain ⟨v', old, identity', position, kept⟩ := back' i v hi
    obtain ⟨w', old', identity'', position', kept'⟩ := back' j w hj
    have kept := (kept.resolve_right fun this => other (vd.symm.trans this)).1
    have kept' := (kept'.resolve_right fun this => other (wd.symm.trans this)).1
    refine wellFormed.distinct d i v' j w' old old' ?_ ?_ (by rw [position, position', same])
    · rw [← vd, Widget.container, Widget.container, identity', kept]
    · rw [← wd, Widget.container, Widget.container, identity'', kept']
  · intro j w g mem named
    obtain ⟨v, old, same, _, kept⟩ := back' j w mem
    rcases kept with ⟨kept, ne⟩ | apart
    · obtain ⟨row, found, match'⟩ := wellFormed.grouped j v g old (kept.symm.trans named)
      refine ⟨row, OrderedMap.mem_delete.mpr ⟨?_, groups ▸ found⟩, match'.trans same⟩
      rintro rfl
      exact ne named
    · rw [show w.groupId = none from congrArg Container.groupId apart] at named
      cases named

variable {f : Group → Group}

theorem updateGroup_spec (h : updateGroup s id f = some t) : t.widgets = s.widgets ∧ ∀ j g, (j, g) ∈ t.groups ↔
      (j = id ∧ ∃ v, (id, v) ∈ s.groups ∧ g = f v) ∨ (j ≠ id ∧ (j, g) ∈ s.groups) := by
  unfold updateGroup at h
  cases found : s.groups.get id with
  | none =>
    rw [found] at h
    cases h
    have absent : ∀ v, (id, v) ∉ s.groups := fun v mem => by
      rw [OrderedMap.get_eq_some_iff.mpr mem] at found
      cases found
    refine ⟨rfl, fun j g => ⟨fun mem => .inr ⟨fun same => absent g (same ▸ mem), mem⟩, ?_⟩⟩
    rintro (⟨_, v, mem, _⟩ | ⟨_, mem⟩)
    · exact absurd mem (absent v)
    · exact mem
  | some v =>
    rw [found] at h
    simp only at h
    split_ifs at h with ok
    cases h
    exact ⟨rfl, fun j g => OrderedMap.mem_modify⟩

/-- A change of groups that keeps their scopes and owners. -/
structure SameGroups (s t : Store) : Prop where
  widgets : t.widgets = s.widgets
  forth : ∀ j g, (j, g) ∈ s.groups → ∃ g', (j, g') ∈ t.groups ∧ g'.identity = g.identity

theorem SameGroups.refl (s : Store) : SameGroups s s := ⟨rfl, fun _ g mem => ⟨g, mem, rfl⟩⟩

theorem SameGroups.trans {u : Store} (h : SameGroups s t) (k : SameGroups t u) : SameGroups s u := by
  refine ⟨k.widgets.trans h.widgets, fun j g mem => ?_⟩
  obtain ⟨g', mem', same⟩ := h.forth j g mem
  obtain ⟨g'', mem'', same'⟩ := k.forth j g' mem'
  exact ⟨g'', mem'', same'.trans same⟩

theorem SameGroups.wellFormed (h : SameGroups s t) (wellFormed : WellFormed s) : WellFormed t := by
  constructor
  · intro c i v j w hi hj
    rw [h.widgets] at hi hj
    exact wellFormed.distinct c i v j w hi hj
  · intro i w g mem named
    rw [h.widgets] at mem
    obtain ⟨group, found, same⟩ := wellFormed.grouped i w g mem named
    obtain ⟨group', found', same'⟩ := h.forth g group found
    exact ⟨group', found', same'.trans same⟩

theorem updateGroup_same (h : updateGroup s id f = some t) (keeps : ∀ g, (f g).identity = g.identity) :
    SameGroups s t := by
  obtain ⟨widgets, groups⟩ := updateGroup_spec h
  refine ⟨widgets, fun j g mem => ?_⟩
  by_cases this : j = id
  · subst this
    exact ⟨f g, (groups j _).mpr (.inl ⟨rfl, g, mem, rfl⟩), keeps g⟩
  · exact ⟨g, (groups j g).mpr (.inr ⟨this, mem⟩), rfl⟩

theorem normalizeGroupContainer_same (h : normalizeGroupContainer localeLe s identity = some t) : SameGroups s t := by
  unfold normalizeGroupContainer at h
  generalize (sortedGroups localeLe (groupMembers s identity)).zipIdx = items at h
  induction items generalizing s with
  | nil =>
    obtain rfl := Option.some.inj h
    exact .refl s
  | cons e items ih =>
    obtain ⟨u, first, rest⟩ := Option.bind_eq_some_iff.mp h
    refine SameGroups.trans ?_ (ih rest)
    dsimp only at first
    split_ifs at first with moved
    · exact updateGroup_same first fun _ => rfl
    · obtain rfl := Option.some.inj first
      exact .refl _

theorem moveGroup_wellFormed {old : Identity} (h : moveGroup localeLe s id old next now = some t)
    (wellFormed : WellFormed s) : WellFormed t := by
  obtain ⟨u, group, rest⟩ := Option.bind_eq_some_iff.mp h
  obtain ⟨v, children, normalized⟩ := Option.bind_eq_some_iff.mp rest
  obtain ⟨widgets, groups⟩ := updateGroup_spec group
  refine (normalizeGroupContainer_same normalized).wellFormed ?_
  have inside : ∀ j w, (j, w) ∈ s.widgets →
      (j ∈ (u.widgets.entries.filter fun e => e.2.groupId = some id).map Prod.fst ↔ w.groupId = some id) := by
    intro j w mem
    rw [widgets, List.mem_map]
    constructor
    · rintro ⟨⟨i, x⟩, mem', rfl⟩
      obtain ⟨mem', named⟩ := List.mem_filter.mp mem'
      rw [OrderedMap.value_unique mem mem']
      exact of_decide_eq_true named
    · exact fun named => ⟨(j, w), List.mem_filter.mpr ⟨mem, decide_eq_true named⟩, rfl⟩
  have keys := map_change_keys ((u.widgets.entries.filter fun e => e.2.groupId = some id).map Prod.fst)
    fun w => { w with identity := next, updatedAt := now }
  obtain ⟨groups', _, widgets'⟩ := updateAll_spec (by
    rw [keys]
    exact u.widgets.nodup.sublist (List.filter_sublist.map Prod.fst)) children
  have back : ∀ j w, (j, w) ∈ v.widgets → ∃ x, (j, x) ∈ s.widgets ∧ x.groupId = w.groupId ∧
      x.position = w.position ∧ if w.groupId = some id then w.identity = next else x.identity = w.identity := by
    intro j w mem
    obtain ⟨x, before, rfl⟩ := (widgets' j w).mp mem
    rw [widgets] at before
    refine ⟨x, before, ?_⟩
    by_cases named : x.groupId = some id
    · rw [changeOf_map ((inside j x before).mpr named), if_pos named]
      exact ⟨rfl, rfl, rfl⟩
    · have unlisted := fun listed => named ((inside j x before).mp listed)
      rw [changeOf_absent (by rw [keys]; exact unlisted), if_neg named]
      exact ⟨rfl, rfl, rfl⟩
  constructor
  · intro c i x j y hi hj xc yc same
    obtain ⟨x', mem, group, position, identity⟩ := back i x hi
    obtain ⟨y', mem', group', position', identity'⟩ := back j y hj
    have sameGroup : x.groupId = y.groupId := congrArg Container.groupId (xc.trans yc.symm)
    refine wellFormed.distinct x'.container i x' j y' mem mem' rfl ?_ (by rw [position, position', same])
    by_cases named : x.groupId = some id
    · -- both were in the container of the group
      obtain ⟨row, found, match'⟩ := wellFormed.grouped i x' id mem (group.trans named)
      obtain ⟨row', found', match''⟩ := wellFormed.grouped j y' id mem' (group'.trans (sameGroup ▸ named))
      obtain rfl := OrderedMap.value_unique found found'
      rw [Widget.container, Widget.container, ← match', ← match'', group, group', sameGroup]
    · rw [if_neg named] at identity
      rw [if_neg (sameGroup ▸ named)] at identity'
      have sameIdentity : x.identity = y.identity := congrArg Container.identity (xc.trans yc.symm)
      rw [Widget.container, Widget.container, identity, identity', group, group', sameGroup, sameIdentity]
  · intro j w g mem named
    obtain ⟨x, mem, group, _, identity⟩ := back j w mem
    obtain ⟨row, found, match'⟩ := wellFormed.grouped j x g mem (group.trans named)
    rw [groups']
    by_cases this : g = id
    · subst this
      rw [if_pos named] at identity
      exact ⟨_, (groups g _).mpr (.inl ⟨rfl, row, found, rfl⟩), identity.symm⟩
    · rw [if_neg fun same => this (Option.some.inj (named.symm.trans same))] at identity
      exact ⟨row, (groups g row).mpr (.inr ⟨this, found⟩), match'.trans identity⟩

theorem patchGroup_wellFormed {old : Identity} {name : Option (Option String)}
    (h : patchGroup localeLe s id old next name now = some t) (wellFormed : WellFormed s) : WellFormed t := by
  obtain ⟨u, first, rest⟩ := Option.bind_eq_some_iff.mp h
  have between : WellFormed u := by
    split_ifs at first with same
    · cases first
      exact wellFormed
    · exact moveGroup_wellFormed first wellFormed
  unfold renameGroup at rest
  split at rest
  · cases rest
    exact between
  · cases rest
  · exact (updateGroup_same rest fun _ => rfl).wellFormed between

theorem createGroup_wellFormed {g : Group} (h : createGroup s id g = some t) (wellFormed : WellFormed s) :
    WellFormed t := by
  unfold createGroup at h
  split_ifs at h with free
  cases h
  have absent : ∀ row, (id, row) ∉ s.groups := by
    intro row mem
    rw [OrderedMap.has_iff.mpr ⟨row, mem⟩] at free
    cases free
  refine SameGroups.wellFormed (s := s) ⟨rfl, fun j row mem => ⟨row, ?_, rfl⟩⟩ wellFormed
  refine OrderedMap.mem_set.mpr (.inr ⟨?_, mem⟩)
  rintro rfl
  exact absent row mem

theorem updateLabel_wellFormed {label : String}
    (h : update s id (fun w => { w with label, updatedAt := now }) = some t) (wellFormed : WellFormed s) :
    WellFormed t := by
  obtain ⟨groups, _, widgets⟩ := update_spec h
  have back : ∀ j w, (j, w) ∈ t.widgets → ∃ v, (j, v) ∈ s.widgets ∧ v.container = w.container ∧
      v.position = w.position := by
    intro j w mem
    rcases (widgets j w).mp mem with ⟨rfl, v, old, rfl⟩ | ⟨_, old⟩
    · exact ⟨v, old, rfl, rfl⟩
    · exact ⟨w, old, rfl, rfl⟩
  constructor
  · intro c i v j w hi hj vc wc same
    obtain ⟨v', mem, container, position⟩ := back i v hi
    obtain ⟨w', mem', container', position'⟩ := back j w hj
    exact wellFormed.distinct c i v' j w' mem mem' (container.trans vc) (container'.trans wc)
      (by rw [position, position', same])
  · intro i w g mem named
    obtain ⟨v, old, container, _⟩ := back i w mem
    rw [groups, ← show v.identity = w.identity from congrArg Container.identity container]
    exact wellFormed.grouped i v g old ((congrArg Container.groupId container).trans named)

end PinnedWidgets
