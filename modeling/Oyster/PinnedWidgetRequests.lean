import Oyster.Interleaving
import Oyster.PinnedWidgets
import Oyster.Text
import Oyster.Unicode

/-! The requests on pinned widgets, from one awaited call of the store to the next. Run to
completion one after the other, or in any order of their steps. -/
namespace PinnedWidgets
open Interleaving

structure Failure where
  statusCode : Nat
  message : String

def noSuchPinnedWidget : Failure := ⟨404, "no such pinned widget"⟩

def noSuchPinnedWidgetGroup : Failure := ⟨404, "no such pinned widget group"⟩

def constraintViolation : Failure := ⟨409, "request conflicts with existing pinned widget state"⟩

/-! ### Bodies -/

def trim (s : String) : List Char :=
  ((s.toList.dropWhile Text.isSpace).reverse.dropWhile Text.isSpace).reverse

/-- `slice(0, length)`, as the database stores it. -/
def slice (s : List Char) (length : Nat) : String :=
  String.ofList (Utf16.decode ((Utf16.encode s).take length))

/-- A label without text is refused. -/
def normalizeLabel (value fallback : Option String) : Except Failure String :=
  let label := slice (trim ((value <|> fallback).getD "")) 200
  if label = "" then .error ⟨400, "widget label is required"⟩ else .ok label

inductive ScopeField where
  | absent | session | workspace | other
  deriving DecidableEq

/-- The scope that a body asks for, with the owner that `ensureSessionOwner` finds. -/
structure ScopeBody where
  scope : ScopeField
  sessionId : Option String
  owner : Option Nat

def scopeIdentity (body : ScopeBody) : Except Failure Identity :=
  match body.scope with
  | .other => .error ⟨400, "pinned widget scope must be session or workspace"⟩
  | .workspace => .ok .workspace
  | scope =>
    let sessionId := trim (body.sessionId.getD "")
    if sessionId = [] then
      if scope = .session then .error ⟨400, "sessionId is required for session-scoped pinned widgets"⟩
      else .ok .workspace
    else if 100 < Text.utf16Length sessionId then .error ⟨400, "sessionId is too long"⟩
    else match body.owner with
      | none => .error ⟨404, "unknown session for pinned widget"⟩
      | some owner => .ok (.session owner)

structure Hublot where
  id : String
  ownerId : Option Nat
  label : Option String
  createdAt : Option String

def Hublot.identity (h : Hublot) : Identity :=
  match h.ownerId with
  | none => .workspace
  | some owner => .session owner

/-- What a pin is made of. -/
structure Artifact where
  kind : Kind
  target : Option String
  mimeType : Option String
  size : Option Nat
  mtimeMs : Option Nat
  fallbackLabel : String

inductive Target where
  | artifact (a : Artifact)
  | hublot (h : Hublot)

structure PinBody where
  scope : ScopeBody
  groupId : Option String
  label : Option String
  target : Except Failure Target

/-- A field that is absent, or present and possibly empty. -/
abbrev Field := Option (Option String)

structure PatchBody where
  id : String
  label : Option String
  groupId : Field
  beforeId : Field
  scope : ScopeBody

structure GroupBody where
  id : String
  name : Option String
  scope : ScopeBody

inductive Request where
  | pin (body : PinBody) (id now : String)
  | ensurePinnedHublot (h : Hublot) (now : String)
  | patch (body : PatchBody) (now : String)
  | unpin (id : String)
  | createGroup (body : GroupBody) (now : String)
  | patchGroup (body : GroupBody) (now : String)
  | deleteGroup (id : String) (ungroup deleteWidgets : Bool) (now : String)

/-! ### Steps -/

/-- A pin whose scope, owner and target are known. -/
structure Pin where
  id : String
  identity : Identity
  artifact : Artifact
  groupId : Option String
  label : Option String
  now : String

def Pin.container (p : Pin) : Container := ⟨p.identity, p.groupId⟩

def Pin.widget (p : Pin) (label : String) (position : Nat) : Widget where
  identity := p.identity
  groupId := p.groupId
  kind := p.artifact.kind
  label := label
  position := position
  target := p.artifact.target
  hublotId := none
  mimeType := p.artifact.mimeType
  size := p.artifact.size
  mtimeMs := p.artifact.mtimeMs
  createdAt := p.now
  updatedAt := p.now

def hublotWidgetId (h : Hublot) : String := "hublot:" ++ h.id

def hublotWidget (h : Hublot) (position : Nat) (now : String) : Widget where
  identity := h.identity
  groupId := none
  kind := .liveInterface
  label := slice (trim (if Text.falsy h.label then "Live interface" else h.label.getD "")) 200
  position := position
  target := none
  hublotId := some h.id
  mimeType := none
  size := none
  mtimeMs := none
  createdAt := h.createdAt.getD now
  updatedAt := now

/-- A widget on its way to another place. -/
structure Reorder where
  id : String
  old : Container
  next : Container
  beforeId : Option String
  label : Option String
  now : String

/-- What a request does at its next step. -/
inductive Phase where
  | findDuplicate (p : Pin)
  | assertGroup (p : Pin)
  | takePosition (p : Pin) (label : String)
  | create (p : Pin) (label : String) (position : Nat)
  | findHublot (h : Hublot) (now : String)
  | moveHublot (h : Hublot) (id : String) (old : Container) (now : String)
  | hublotPosition (h : Hublot) (now : String)
  | createHublot (h : Hublot) (position : Nat) (now : String)
  | findWidget (body : PatchBody) (now : String)
  | assertDestination (r : Reorder)
  | listSiblings (r : Reorder)
  | reorder (r : Reorder) (order : List String)
  | updateLabel (id label now : String)
  | findUnpinned (id : String)
  | unpin (id : String) (c : Container)
  | groupPosition (id : String) (identity : Identity) (name now : String)
  | createGroup (id : String) (g : Group)
  | findPatched (body : GroupBody) (now : String)
  | patchGroup (id : String) (old next : Identity) (name : Option (Option String)) (now : String)
  | findDeleted (id : String) (ungroup deleteWidgets : Bool) (now : String)
  | listChildren (id : String) (identity : Identity) (ungroup deleteWidgets : Bool) (now : String)
  | deleteGroup (id : String) (identity : Identity) (children : List String) (deleteWidgets : Bool) (now : String)

inductive Progress where
  | waiting (p : Phase)
  | done (result : Except Failure Unit)

def Progress.ofExcept : Except Failure Progress → Progress
  | .ok progress => progress
  | .error failure => .done (.error failure)

def ok : Progress := .done (.ok ())

def fails (failure : Failure) : Progress := .done (.error failure)

def groupName (name : Option String) : Except Failure String :=
  (normalizeLabel name none).map fun label => slice label.toList 80

def startPin (body : PinBody) (id now : String) : Except Failure Progress := do
  let identity ← scopeIdentity body.scope
  match ← body.target with
  | .hublot h => return .waiting (.findHublot h now)
  | .artifact a => return .waiting (.findDuplicate ⟨id, identity, a, body.groupId, body.label, now⟩)

def startGroup (body : GroupBody) (now : String) : Except Failure Progress := do
  let identity ← scopeIdentity body.scope
  let name ← groupName body.name
  return .waiting (.groupPosition body.id identity name now)

def begin : Request → Progress
  | .pin body id now => .ofExcept (startPin body id now)
  | .ensurePinnedHublot h now => .waiting (.findHublot h now)
  | .patch body now => .waiting (.findWidget body now)
  | .unpin id => .waiting (.findUnpinned id)
  | .createGroup body now => .ofExcept (startGroup body now)
  | .patchGroup body now => .waiting (.findPatched body now)
  | .deleteGroup id ungroup deleteWidgets now => .waiting (.findDeleted id ungroup deleteWidgets now)

def groupFailure (s : Store) (c : Container) : Option Failure :=
  match c.groupId with
  | none => none
  | some id =>
    match s.groups.get id with
    | none => some noSuchPinnedWidgetGroup
    | some g =>
      if g.identity = c.identity then none else some ⟨409, "widget and group scopes do not match"⟩

def Pin.positioned (p : Pin) : Progress :=
  .ofExcept ((normalizeLabel p.label (some p.artifact.fallbackLabel)).map fun label =>
    .waiting (.takePosition p label))

/-- The label is written last, if the body has one. -/
def labelled (id : String) (label : Option String) (now : String) : Progress :=
  match label with
  | none => ok
  | some label => .waiting (.updateLabel id label now)

/-- A widget that is put before itself stays where it is. -/
def Reorder.checked (r : Reorder) : Progress :=
  if r.next = r.old ∧ r.beforeId = some r.id then labelled r.id r.label r.now
  else .waiting (.listSiblings r)

/-- A change of scope leaves the group, unless the body names one. -/
def nextGroup (groupId : Field) (old : Container) (next : Identity) : Option String :=
  match groupId with
  | none => if next = old.identity then old.groupId else none
  | some groupId => groupId.filter (· ≠ "")

def Reorder.start (r : Reorder) : Progress :=
  if r.next.groupId.isSome then .waiting (.assertDestination r) else r.checked

def patchScope (body : ScopeBody) (w : Widget) : Except Failure Identity :=
  if body.scope = .absent then .ok w.identity
  else if w.kind = .builtin ∧ body.scope ≠ (if w.identity = .workspace then .workspace else .session) then
    .error ⟨409, "built-in widgets cannot change scope"⟩
  else scopeIdentity body

def patchLabel (body : PatchBody) : Except Failure (Option String) :=
  match body.label with
  | none => .ok none
  | some label => (normalizeLabel (some label) none).map some

def patchFound (body : PatchBody) (now : String) (w : Widget) : Except Failure Progress := do
  let label ← patchLabel body
  if body.groupId.isSome ∨ body.beforeId.isSome ∨ body.scope.scope ≠ .absent then
    let next ← patchScope body.scope w
    return Reorder.start {
      id := body.id
      old := w.container
      next := ⟨next, nextGroup body.groupId w.container next⟩
      beforeId := (body.beforeId.getD none).filter (· ≠ "")
      label, now }
  else return labelled body.id label now

section
variable (localeLe : String → String → Bool)

/-- The order in which the destination's widgets and the moved one are to stand. -/
def siblingOrder (s : Store) (r : Reorder) : Except Failure (List String) :=
  let siblings := ((sorted localeLe (members s r.next)).map Prod.fst).filter (· ≠ r.id)
  match r.beforeId with
  | none => .ok (siblings ++ [r.id])
  | some before =>
    if before ∈ siblings then
      .ok (siblings.takeWhile (· ≠ before) ++ r.id :: siblings.dropWhile (· ≠ before))
    else .error ⟨409, "reorder target is not in the destination group"⟩

/-- A transaction that fails changes nothing. -/
def commit (s : Store) (result : Option Store) (next : Progress) : Store × Progress :=
  match result with
  | none => (s, fails constraintViolation)
  | some t => (t, next)

def childrenOf (s : Store) (id : String) : List (String × Widget) :=
  s.widgets.entries.filter fun e => e.2.groupId = some id

def advance (s : Store) : Phase → Store × Progress
  | .findDuplicate p =>
    let duplicate := s.widgets.entries.any fun e =>
      e.2.identity = p.identity && e.2.kind = p.artifact.kind && e.2.target = p.artifact.target
    (s, if duplicate then ok else if p.groupId.isSome then .waiting (.assertGroup p) else p.positioned)
  | .assertGroup p => (s, match groupFailure s p.container with
      | some failure => fails failure
      | none => p.positioned)
  | .takePosition p label => (s, .waiting (.create p label (nextPosition s p.container)))
  | .create p label position => commit s (create s p.id (p.widget label position)) ok
  | .findHublot h now => (s, match s.widgets.entries.find? fun e => e.2.hublotId = some h.id with
      | none => .waiting (.hublotPosition h now)
      | some (id, w) =>
        if w.identity = h.identity then ok else .waiting (.moveHublot h id w.container now))
  | .moveHublot h id old now => commit s (moveHublotWidget localeLe s id old h.identity now) ok
  | .hublotPosition h now => (s, .waiting (.createHublot h (nextPosition s ⟨h.identity, none⟩) now))
  | .createHublot h position now => commit s (create s (hublotWidgetId h) (hublotWidget h position now)) ok
  | .findWidget body now => (s, match s.widgets.get body.id with
      | none => fails noSuchPinnedWidget
      | some w => .ofExcept (patchFound body now w))
  | .assertDestination r => (s, match groupFailure s r.next with
      | some failure => fails failure
      | none => r.checked)
  | .listSiblings r => (s, .ofExcept ((siblingOrder localeLe s r).map fun order => .waiting (.reorder r order)))
  | .reorder r order =>
    commit s (reorder localeLe s order r.id r.old r.next r.now) (labelled r.id r.label r.now)
  | .updateLabel id label now => commit s (update s id fun w => { w with label, updatedAt := now }) ok
  | .findUnpinned id => (s, match s.widgets.get id with
      | none => fails noSuchPinnedWidget
      | some w =>
        if w.kind = .builtin then fails ⟨409, "built-in widgets cannot be unpinned"⟩
        else .waiting (.unpin id w.container))
  | .unpin id c => commit s (unpin localeLe s id c) ok
  | .groupPosition id identity name now =>
    (s, .waiting (.createGroup id ⟨identity, name, nextGroupPosition s identity, now, now⟩))
  | .createGroup id g => commit s (createGroup s id g) ok
  | .findPatched body now => (s, match s.groups.get body.id with
      | none => fails noSuchPinnedWidgetGroup
      | some g => .ofExcept ((if body.scope.scope = .absent then .ok g.identity else scopeIdentity body.scope).map
          fun next => .waiting (.patchGroup body.id g.identity next
            (body.name.map fun name => (groupName (some name)).toOption) now)))
  | .patchGroup id old next name now => commit s (patchGroup localeLe s id old next name now) ok
  | .findDeleted id ungroup deleteWidgets now => (s, match s.groups.get id with
      | none => fails noSuchPinnedWidgetGroup
      | some g => .waiting (.listChildren id g.identity ungroup deleteWidgets now))
  | .listChildren id identity ungroup deleteWidgets now =>
    let children := childrenOf s id
    (s, if deleteWidgets && children.any (·.2.kind = .builtin) then
        fails ⟨409, "built-in widgets cannot be unpinned"⟩
      else if !children.isEmpty && !ungroup && !deleteWidgets then
        fails ⟨409, "group is not empty; request ungroup=1 to keep its widgets or deleteWidgets=1 to remove them"⟩
      else .waiting (.deleteGroup id identity (children.map Prod.fst) deleteWidgets now))
  | .deleteGroup id identity children deleteWidgets now =>
    commit s (removeGroup localeLe s id identity children deleteWidgets now) ok

end

/-! ### Runs -/

/-- The tables, the requests under way, and as history the widgets whose pin has succeeded
and those that have been unpinned since, alone or with their group. -/
structure State where
  store : Store
  requests : Calls Phase := fun _ => none
  pinned : List String := []
  unpinned : List String := []

inductive Action where
  | request (i : Nat) (r : Request)
  | advance (i : Nat)

def Phase.pins : Phase → List String
  | .create p _ _ => [p.id]
  | .createHublot h _ _ => [hublotWidgetId h]
  | _ => []

/-- The widgets that a step unpins if it succeeds: those that are asked for, and those
that stand in a group that is deleted with its widgets. -/
def Phase.unpins (s : Store) : Phase → List String
  | .unpin id _ => [id]
  | .deleteGroup id _ children true _ =>
    children.filter fun j => (s.widgets.get j).any fun w => w.groupId = some id
  | _ => []

def Progress.succeeded : Progress → Bool
  | .done (.ok _) => true
  | _ => false

def step (localeLe : String → String → Bool) (s : State) : Action → Option State
  | .request i r =>
    if (s.requests i).isSome then none
    else match begin r with
      | .waiting p => some { s with requests := s.requests.put i p }
      | .done _ => some s
  | .advance i => do
      let p ← s.requests i
      let (store, progress) := advance localeLe s.store p
      let requests := match progress with
        | .waiting q => s.requests.put i q
        | .done _ => s.requests.drop i
      if progress.succeeded then
        return ⟨store, requests, p.pins ++ s.pinned, p.unpins s.store ++ s.unpinned⟩
      else return { s with store, requests }

/-! ### What a step has read -/

/-- What a request has checked and computed, as long as no group changes its scope. -/
def Checked (s : Store) : Phase → Prop
  | .takePosition p _ | .create p _ _ => GroupMatches s p.container
  | .listSiblings r => GroupMatches s r.next
  | .reorder r order => GroupMatches s r.next ∧ order.Nodup ∧ r.id ∈ order
  | .listChildren id identity _ _ _ => GroupMatches s ⟨identity, some id⟩
  | .deleteGroup id identity children _ _ => GroupMatches s ⟨identity, some id⟩ ∧ children.Nodup
  | _ => True

/-- The positions, siblings and children that a request has read are still those of the
containers when it writes: the position is free, no widget has come to the destination or
left it for another container, and the children, if they still are in a group, have its
scope and owner, or are in it when they are to be deleted. -/
def Fresh (s : Store) : Phase → Prop
  | .create p _ position => ∀ e ∈ members s p.container, e.2.position ≠ position
  | .createHublot h position _ => ∀ e ∈ members s ⟨h.identity, none⟩, e.2.position ≠ position
  | .reorder r order => ∀ j v, (j, v) ∈ s.widgets → j ≠ r.id → (j ∈ order ↔ v.container = r.next)
  | .deleteGroup id identity children deleteWidgets _ =>
    ∀ j v, (j, v) ∈ s.widgets → j ∈ children →
      if deleteWidgets then v.groupId = some id else v.groupId ≠ none → v.identity = identity
  | _ => True

section
variable {localeLe : String → String → Bool} {s t : Store} {progress : Progress}

theorem commit_spec {result : Option Store} {next : Progress} (h : commit s result next = (t, progress)) :
    (result = some t ∧ progress = next) ∨ (t = s ∧ progress = fails constraintViolation) := by
  cases result with
  | none =>
    cases h
    exact .inr ⟨rfl, rfl⟩
  | some u =>
    cases h
    exact .inl ⟨rfl, rfl⟩

variable {p : Phase}

theorem advance_wellFormed (wellFormed : WellFormed s) (checked : Checked s p) (fresh : Fresh s p) :
    WellFormed (advance localeLe s p).1 := by
  have committed : ∀ (result : Option Store) (next : Progress),
      (∀ t, result = some t → WellFormed t) → WellFormed (commit s result next).1 := by
    intro result next keeps
    cases result with
    | none => exact wellFormed
    | some t => exact keeps t rfl
  cases p with
  | create p label position =>
    exact committed _ _ fun t h => create_wellFormed h wellFormed fresh checked
  | createHublot h position now =>
    refine committed _ _ fun t created => create_wellFormed created wellFormed fresh ?_
    exact fun _ absurd => nomatch absurd
  | moveHublot h id old now => exact committed _ _ fun t h => moveHublotWidget_wellFormed h wellFormed
  | reorder r order =>
    exact committed _ _ fun t h =>
      reorder_wellFormed h wellFormed checked.2.1 checked.2.2 fresh checked.1
  | updateLabel id label now => exact committed _ _ fun t h => updateLabel_wellFormed h wellFormed
  | unpin id c => exact committed _ _ fun t h => unpin_wellFormed h wellFormed
  | createGroup id g => exact committed _ _ fun t h => createGroup_wellFormed h wellFormed
  | patchGroup id old next name now => exact committed _ _ fun t h => patchGroup_wellFormed h wellFormed
  | deleteGroup id identity children deleteWidgets now =>
    refine committed _ _ fun t h => removeGroup_wellFormed h wellFormed checked.2 checked.1 ?_
    intro keep j v mem child
    have current := fresh j v mem child
    rw [keep] at current
    exact current
  | findDuplicate | assertGroup | takePosition | findHublot | hublotPosition | findWidget
  | assertDestination | listSiblings | findUnpinned | groupPosition | findPatched | findDeleted
  | listChildren => exact wellFormed

variable {c : Container}

theorem groupFailure_none (h : groupFailure s c = none) : GroupMatches s c := by
  intro g named group mem
  rw [groupFailure, named] at h
  simp only [OrderedMap.get_eq_some_iff.mpr mem] at h
  split_ifs at h with same
  exact same

theorem groupMatches_none (s : Store) (identity : Identity) : GroupMatches s ⟨identity, none⟩ :=
  fun _ absurd => nomatch absurd

def Phase.concurrent : Phase → Bool
  | .groupPosition .. | .createGroup .. | .findPatched .. | .patchGroup .. => false
  | _ => true

/-- The next step has what it needs, and no group comes from it. -/
structure Handed (s : Store) (q : Phase) : Prop where
  checked : Checked s q
  fresh : Fresh s q
  concurrent : q.concurrent = true

variable {q : Phase}

theorem positioned_checked {p : Pin} (group : GroupMatches s p.container) (h : p.positioned = .waiting q) :
    Handed s q := by
  unfold Pin.positioned at h
  cases label : normalizeLabel p.label (some p.artifact.fallbackLabel) with
  | error failure =>
    rw [label] at h
    cases h
  | ok label' =>
    rw [label] at h
    cases h
    exact ⟨group, trivial, rfl⟩

variable {id now : String}

theorem labelled_checked {label : Option String} (h : labelled id label now = .waiting q) : Handed s q := by
  cases label with
  | none => cases h
  | some label =>
    cases h
    exact ⟨trivial, trivial, rfl⟩

variable {r : Reorder}

theorem checked_checked (group : GroupMatches s r.next) (h : r.checked = .waiting q) : Handed s q := by
  unfold Reorder.checked at h
  split_ifs at h
  · exact labelled_checked h
  · cases h
    exact ⟨group, trivial, rfl⟩

variable {order : List String}

theorem siblingOrder_spec (h : siblingOrder localeLe s r = .ok order) :
    order.Nodup ∧ r.id ∈ order ∧ ∀ j v, (j, v) ∈ s.widgets → j ≠ r.id → (j ∈ order ↔ v.container = r.next) := by
  have perm := sorted_perm localeLe (members s r.next)
  have distinct : (((sorted localeLe (members s r.next)).map Prod.fst).filter (· ≠ r.id)).Nodup :=
    ((perm.map Prod.fst).nodup_iff.mpr (members_keys_nodup s r.next)).filter _
  have inside : ∀ j v, (j, v) ∈ s.widgets → j ≠ r.id →
      (j ∈ ((sorted localeLe (members s r.next)).map Prod.fst).filter (· ≠ r.id) ↔ v.container = r.next) := by
    intro j v mem ne
    rw [List.mem_filter, (perm.map Prod.fst).mem_iff, List.mem_map]
    constructor
    · rintro ⟨⟨⟨i, w⟩, listed, rfl⟩, _⟩
      obtain ⟨mem', same⟩ := mem_members.mp listed
      rw [OrderedMap.value_unique mem mem']
      exact same
    · exact fun same => ⟨⟨(j, v), mem_members.mpr ⟨mem, same⟩, rfl⟩, decide_eq_true ne⟩
  have absent : r.id ∉ ((sorted localeLe (members s r.next)).map Prod.fst).filter (· ≠ r.id) := by
    intro listed
    exact of_decide_eq_true (List.mem_filter.mp listed).2 rfl
  unfold siblingOrder at h
  generalize ((sorted localeLe (members s r.next)).map Prod.fst).filter (· ≠ r.id) = siblings at *
  -- the moved widget stands somewhere between its siblings
  have placed : ∀ before after : List String, before ++ after = siblings → order = before ++ r.id :: after →
      order.Nodup ∧ r.id ∈ order ∧ ∀ j v, (j, v) ∈ s.widgets → j ≠ r.id → (j ∈ order ↔ v.container = r.next) := by
    rintro before after rfl rfl
    have perm' : (before ++ r.id :: after).Perm (r.id :: (before ++ after)) := List.perm_middle
    refine ⟨perm'.nodup_iff.mpr (List.nodup_cons.mpr ⟨absent, distinct⟩),
      List.mem_append_right _ List.mem_cons_self, fun j v mem ne => ?_⟩
    rw [perm'.mem_iff, List.mem_cons, or_iff_right ne]
    exact inside j v mem ne
  simp only at h
  split at h
  · cases h
    exact placed siblings [] (List.append_nil _) rfl
  · split_ifs at h with listed
    cases h
    exact placed _ _ List.takeWhile_append_dropWhile rfl

theorem start_checked (s : Store) (h : r.start = .waiting q) : Handed s q := by
  unfold Reorder.start at h
  split_ifs at h with named
  · cases h
    exact ⟨trivial, trivial, rfl⟩
  · refine checked_checked ?_ h
    intro g same
    rw [same] at named
    exact absurd rfl named

theorem patchFound_checked (s : Store) {body : PatchBody} {w : Widget}
    (h : Progress.ofExcept (patchFound body now w) = .waiting q) : Handed s q := by
  unfold patchFound at h
  cases found : patchLabel body with
  | error failure =>
    rw [found] at h
    cases h
  | ok label =>
    rw [found] at h
    split_ifs at h
    · cases scope : patchScope body.scope w with
      | error failure =>
        rw [scope] at h
        cases h
      | ok next =>
        rw [scope] at h
        exact start_checked s h
    · exact labelled_checked h

theorem advance_next (wellFormed : WellFormed s) (checked : Checked s p) (h : advance localeLe s p = (t, .waiting q)) :
    Checked t q ∧ Fresh t q ∧ (p.concurrent = true → q.concurrent = true) := by
  have handed : ∀ {u : Store}, Handed u q → Checked u q ∧ Fresh u q ∧ (p.concurrent = true → q.concurrent = true) :=
    fun h => ⟨h.checked, h.fresh, fun _ => h.concurrent⟩
  have committed : ∀ (result : Option Store), commit s result ok ≠ (t, .waiting q) := by
    intro result same
    rcases commit_spec same with ⟨_, absurd⟩ | ⟨_, absurd⟩ <;> cases absurd
  cases p with
  | create | createHublot | moveHublot | updateLabel | unpin | createGroup | patchGroup | deleteGroup =>
    exact absurd h (committed _)
  | reorder r order =>
    rcases commit_spec h with ⟨_, next⟩ | ⟨_, absurd⟩
    · exact handed (labelled_checked next.symm)
    · cases absurd
  | findDuplicate p =>
    obtain ⟨rfl, next⟩ := Prod.mk.inj h
    split_ifs at next with _ named
    · cases next
    · cases next
      exact ⟨trivial, trivial, fun kind => kind⟩
    · refine handed (positioned_checked ?_ next)
      rw [Pin.container, Option.not_isSome_iff_eq_none.mp named]
      exact groupMatches_none s _
  | assertGroup p =>
    obtain ⟨rfl, next⟩ := Prod.mk.inj h
    cases group : groupFailure s p.container with
    | some failure =>
      rw [group] at next
      cases next
    | none =>
      rw [group] at next
      exact handed (positioned_checked (groupFailure_none group) next)
  | takePosition p label =>
    obtain ⟨rfl, next⟩ := Prod.mk.inj h
    cases next
    refine ⟨checked, fun e mem => Nat.ne_of_lt ?_, fun _ => rfl⟩
    exact position_lt_next (mem_members.mp mem).1 (mem_members.mp mem).2
  | findHublot h' now =>
    obtain ⟨rfl, next⟩ := Prod.mk.inj h
    split at next
    · cases next
      exact ⟨trivial, trivial, fun kind => kind⟩
    · split_ifs at next
      · cases next
      · cases next
        exact ⟨trivial, trivial, fun kind => kind⟩
  | hublotPosition h' now =>
    obtain ⟨rfl, next⟩ := Prod.mk.inj h
    cases next
    refine ⟨trivial, fun e mem => Nat.ne_of_lt ?_, fun _ => rfl⟩
    exact position_lt_next (mem_members.mp mem).1 (mem_members.mp mem).2
  | findWidget body now =>
    obtain ⟨rfl, next⟩ := Prod.mk.inj h
    split at next
    · cases next
    · exact handed (patchFound_checked s next)
  | assertDestination r =>
    obtain ⟨rfl, next⟩ := Prod.mk.inj h
    cases group : groupFailure s r.next with
    | some failure =>
      rw [group] at next
      cases next
    | none =>
      rw [group] at next
      exact handed (checked_checked (groupFailure_none group) next)
  | listSiblings r =>
    obtain ⟨rfl, next⟩ := Prod.mk.inj h
    cases listed : siblingOrder localeLe s r with
    | error failure =>
      rw [listed] at next
      cases next
    | ok order =>
      rw [listed] at next
      cases next
      obtain ⟨distinct, moving, current⟩ := siblingOrder_spec listed
      exact ⟨⟨checked, distinct, moving⟩, current, fun _ => rfl⟩
  | findUnpinned id =>
    obtain ⟨rfl, next⟩ := Prod.mk.inj h
    split at next
    · cases next
    · split_ifs at next
      · cases next
      · cases next
        exact ⟨trivial, trivial, fun kind => kind⟩
  | groupPosition id identity name now =>
    obtain ⟨rfl, next⟩ := Prod.mk.inj h
    cases next
    exact ⟨trivial, trivial, fun kind => kind⟩
  | findPatched body now =>
    obtain ⟨rfl, next⟩ := Prod.mk.inj h
    split at next
    · cases next
    · rename_i g found
      cases scope : (if body.scope.scope = .absent then .ok g.identity else scopeIdentity body.scope) with
      | error failure =>
        rw [scope] at next
        cases next
      | ok identity =>
        rw [scope] at next
        cases next
        exact ⟨trivial, trivial, fun kind => kind⟩
  | findDeleted id ungroup deleteWidgets now =>
    obtain ⟨rfl, next⟩ := Prod.mk.inj h
    cases found : s.groups.get id with
    | none =>
      rw [found] at next
      cases next
    | some g =>
      rw [found] at next
      cases next
      refine ⟨?_, trivial, fun _ => rfl⟩
      intro g' named group mem
      cases named
      rw [OrderedMap.value_unique mem (OrderedMap.mem_of_get found)]
  | listChildren id identity ungroup deleteWidgets now =>
    obtain ⟨rfl, next⟩ := Prod.mk.inj h
    split_ifs at next
    · cases next
    · cases next
    · cases next
      refine ⟨⟨checked, s.widgets.nodup.sublist (List.filter_sublist.map Prod.fst)⟩, ?_, fun _ => rfl⟩
      intro j v mem child
      obtain ⟨⟨i, w⟩, listed, rfl⟩ := List.mem_map.mp child
      obtain ⟨mem', named⟩ := List.mem_filter.mp listed
      obtain rfl := OrderedMap.value_unique mem mem'
      have named := of_decide_eq_true named
      by_cases removed : deleteWidgets = true
      · rw [if_pos removed]
        exact named
      · rw [if_neg removed]
        intro _
        obtain ⟨group, found, same⟩ := wellFormed.grouped i v id mem named
        exact same.symm.trans (checked id rfl group found)

/-! ### One request at a time -/

/-- A request arrives when no other is under way. -/
def Sequential (s : State) : Action → Prop
  | .request _ _ => ∀ i, s.requests i = none
  | .advance _ => True

structure SequentialInv (s : State) : Prop where
  wellFormed : WellFormed s.store
  current : ∀ i p, s.requests i = some p → Checked s.store p ∧ Fresh s.store p
  single : ∀ i j p q, s.requests i = some p → s.requests j = some q → i = j

/-- The first steps of the requests. -/
def Phase.initial : Phase → Bool
  | .findDuplicate _ | .findHublot .. | .findWidget .. | .findUnpinned _ | .groupPosition .. | .findPatched ..
  | .findDeleted .. => true
  | _ => false

def Request.concurrent : Request → Bool
  | .createGroup .. | .patchGroup .. => false
  | _ => true

theorem begin_spec {r : Request} (h : begin r = .waiting q) :
    q.initial = true ∧ (r.concurrent = true → q.concurrent = true) := by
  cases r with
  | pin body id now =>
    have started : Progress.ofExcept (startPin body id now) = .waiting q := h
    unfold startPin at started
    cases identity : scopeIdentity body.scope with
    | error failure =>
      rw [identity] at started
      cases started
    | ok identity' =>
      rw [identity] at started
      cases target : body.target with
      | error failure =>
        rw [target] at started
        cases started
      | ok target' =>
        rw [target] at started
        cases target' with
        | artifact a =>
          cases started
          exact ⟨rfl, fun _ => rfl⟩
        | hublot hublot' =>
          cases started
          exact ⟨rfl, fun _ => rfl⟩
  | createGroup body now =>
    have started : Progress.ofExcept (startGroup body now) = .waiting q := h
    unfold startGroup at started
    cases identity : scopeIdentity body.scope with
    | error failure =>
      rw [identity] at started
      cases started
    | ok identity' =>
      rw [identity] at started
      cases name : groupName body.name with
      | error failure =>
        rw [name] at started
        cases started
      | ok name' =>
        rw [name] at started
        cases started
        exact ⟨rfl, fun absurd => nomatch absurd⟩
  | ensurePinnedHublot | patch | unpin | patchGroup | deleteGroup =>
    cases h
    exact ⟨rfl, fun kind => kind⟩

theorem initial_checked (h : q.initial = true) (s : Store) : Checked s q ∧ Fresh s q := by
  cases q with
  | findDuplicate | findHublot | findWidget | findUnpinned | groupPosition | findPatched | findDeleted =>
    exact ⟨trivial, trivial⟩
  | _ => cases h

variable {i : Nat}

theorem step_advance {s t : State} (h : step localeLe s (.advance i) = some t) :
    ∃ p store progress, s.requests i = some p ∧ advance localeLe s.store p = (store, progress) ∧ t.store = store ∧
      t.requests = (match progress with
        | .waiting q => s.requests.put i q
        | .done _ => s.requests.drop i) ∧
      t.pinned = (if progress.succeeded then p.pins else []) ++ s.pinned ∧
      t.unpinned = (if progress.succeeded then p.unpins s.store else []) ++ s.unpinned := by
  obtain ⟨p, request, rest⟩ := Option.bind_eq_some_iff.mp h
  refine ⟨p, (advance localeLe s.store p).1, (advance localeLe s.store p).2, request, rfl, ?_⟩
  dsimp only at rest
  split_ifs at rest with succeeded
  · cases rest
    rw [if_pos succeeded, if_pos succeeded]
    exact ⟨rfl, rfl, rfl, rfl⟩
  · cases rest
    rw [if_neg succeeded, if_neg succeeded]
    exact ⟨rfl, rfl, rfl, rfl⟩

theorem step_request {s t : State} {r : Request} (h : step localeLe s (.request i r) = some t) :
    t = s ∨ ∃ p, begin r = .waiting p ∧ t = { s with requests := s.requests.put i p } := by
  unfold step at h
  simp only at h
  split_ifs at h
  split at h
  · rename_i p waiting
    exact .inr ⟨p, waiting, (Option.some.inj h).symm⟩
  · exact .inl (Option.some.inj h).symm

theorem sequential_step (s : State) (a : Action) (t : State) (h : SequentialInv s) (alone : Sequential s a)
    (stepped : step localeLe s a = some t) : SequentialInv t := by
  cases a with
  | request i r =>
    rcases step_request stepped with rfl | ⟨p, waiting, rfl⟩
    · exact h
    · have only : ∀ j q, s.requests.put i p j = some q → j = i ∧ q = p := by
        intro j q found
        rcases Calls.put_eq_some found with same | ⟨_, old⟩
        · exact same
        · rw [alone j] at old
          cases old
      refine ⟨h.wellFormed, fun j q found => ?_, fun j k q q' found found' => ?_⟩
      · obtain ⟨_, rfl⟩ := only j q found
        exact initial_checked (begin_spec waiting).1 s.store
      · rw [(only j q found).1, (only k q' found').1]
  | advance i =>
    obtain ⟨p, store, progress, request, advanced, rfl, requests, _⟩ := step_advance stepped
    obtain ⟨checked, fresh⟩ := h.current i p request
    have wellFormed : WellFormed (advance localeLe s.store p).1 :=
      advance_wellFormed h.wellFormed checked fresh
    rw [advanced] at wellFormed
    have only : ∀ j q, t.requests j = some q → j = i ∧ progress = .waiting q := by
      intro j q found
      rw [requests] at found
      cases progress with
      | waiting next =>
        rcases Calls.put_eq_some found with ⟨rfl, rfl⟩ | ⟨ne, old⟩
        · exact ⟨rfl, rfl⟩
        · exact absurd (h.single j i q p old request) ne
      | done result =>
        obtain ⟨ne, old⟩ := Calls.drop_eq_some found
        exact absurd (h.single j i q p old request) ne
    refine ⟨wellFormed, fun j q found => ?_, fun j k q q' found found' => ?_⟩
    · obtain ⟨_, rfl⟩ := only j q found
      obtain ⟨checked', fresh', _⟩ := advance_next h.wellFormed checked advanced
      exact ⟨checked', fresh'⟩
    · rw [(only j q found).1, (only k q' found').1]

/-- Requests that are run to completion one after the other keep the containers well formed. -/
theorem sequential_wellFormed (localeLe : String → String → Bool) (actions : List Action) (store : Store)
    (s : State) (wellFormed : WellFormed store)
    (run : Run (step localeLe) Sequential { store } actions s) : WellFormed s.store := by
  have base : SequentialInv { store } :=
    ⟨wellFormed, (fun _ _ absurd => nomatch absurd), fun _ _ _ _ absurd => nomatch absurd⟩
  exact (Run.invariant sequential_step run base).wellFormed

/-! ### Requests at the same time -/

/-- Pins, patches, unpins and deletions of groups arrive, in any number, and each writes
only while what it has read is current. -/
def Concurrent (s : State) : Action → Prop
  | .request _ r => r.concurrent = true
  | .advance i => ∀ p, s.requests i = some p → Fresh s.store p

/-- The containers are well formed, and every widget that has been pinned and not unpinned
is there once. -/
structure ContainersLaw (s : State) : Prop where
  wellFormed : WellFormed s.store
  present : ∀ id ∈ s.pinned, id ∉ s.unpinned → ∃! w, (id, w) ∈ s.store.widgets

/-! ### What concurrent steps keep -/

/-- The groups of `t` were groups of `s`. -/
def GroupsFrom (s t : Store) : Prop := ∀ g row, (g, row) ∈ t.groups → (g, row) ∈ s.groups

theorem groupsFrom_of_eq (h : t.groups = s.groups) : GroupsFrom s t := by
  intro g row mem
  rw [h] at mem
  exact mem

theorem Checked.mono (groups : GroupsFrom s t) (h : Checked s p) : Checked t p := by
  have matches' : ∀ c, GroupMatches s c → GroupMatches t c := fun c h g named row mem =>
    h g named row (groups g row mem)
  cases p with
  | takePosition | create | listSiblings | listChildren => exact matches' _ h
  | reorder | deleteGroup => exact ⟨matches' _ h.1, h.2⟩
  | _ => trivial

/-- Every widget of `s` is in `t`, if it has not been removed. -/
def Survives (removed : List String) (s t : Store) : Prop :=
  ∀ j w, (j, w) ∈ s.widgets → (∃ w', (j, w') ∈ t.widgets) ∨ j ∈ removed

theorem normalizeContainer_keeps (h : normalizeContainer localeLe s c = some t) :
    GroupsFrom s t ∧ Survives [] s t := by
  obtain ⟨groups, widgets⟩ := normalizeContainer_spec h
  exact ⟨groupsFrom_of_eq groups, fun j w mem => .inl ⟨_, (widgets j _).mpr ⟨w, mem, rfl⟩⟩⟩

theorem update_keeps {f : Widget → Widget} (h : update s id f = some t) : GroupsFrom s t ∧ Survives [] s t := by
  obtain ⟨groups, _, widgets⟩ := update_spec h
  refine ⟨groupsFrom_of_eq groups, fun j w mem => .inl ?_⟩
  by_cases this : j = id
  · subst this
    exact ⟨f w, (widgets j _).mpr (.inl ⟨rfl, w, mem, rfl⟩)⟩
  · exact ⟨w, (widgets j w).mpr (.inr ⟨this, mem⟩)⟩

theorem create_keeps {v : Widget} (h : create s id v = some t) : GroupsFrom s t ∧ Survives [] s t := by
  obtain ⟨groups, _, absent, widgets⟩ := create_spec h
  refine ⟨groupsFrom_of_eq groups, fun j w mem => .inl ⟨w, (widgets j w).mpr (.inr ⟨?_, mem⟩)⟩⟩
  rintro rfl
  exact absent w mem

variable {u : Store}

theorem Survives.andThen {removed : List String} (h : Survives removed s t) (k : Survives [] t u) :
    Survives removed s u := by
  intro j w mem
  rcases h j w mem with ⟨w', mem'⟩ | gone
  · exact .inl ((k j w' mem').resolve_right List.not_mem_nil)
  · exact .inr gone

theorem GroupsFrom.andThen (h : GroupsFrom s t) (k : GroupsFrom t u) : GroupsFrom s u :=
  fun g row mem => h g row (k g row mem)

variable {old : Container}

theorem reorder_keeps {next : Container} (distinct : order.Nodup)
    (h : PinnedWidgets.reorder localeLe s order id old next now = some t) : GroupsFrom s t ∧ Survives [] s t := by
  obtain ⟨u, placed, rest⟩ := Option.bind_eq_some_iff.mp h
  obtain ⟨groups, _, widgets⟩ := updateAll_spec (by rw [placing_keys]; exact distinct) placed
  have first : GroupsFrom s u ∧ Survives [] s u :=
    ⟨groupsFrom_of_eq groups, fun j w mem => .inl ⟨_, (widgets j _).mpr ⟨w, mem, rfl⟩⟩⟩
  split_ifs at rest
  · cases rest
    exact first
  · obtain ⟨groups', widgets'⟩ := normalizeContainer_keeps rest
    exact ⟨first.1.andThen groups', first.2.andThen widgets'⟩

theorem unpin_keeps (h : PinnedWidgets.unpin localeLe s id c = some t) : GroupsFrom s t ∧ Survives [id] s t := by
  obtain ⟨groups, widgets⟩ := normalizeContainer_keeps h
  refine ⟨groups, Survives.andThen (fun j w mem => ?_) widgets⟩
  by_cases this : j = id
  · exact .inr (this ▸ List.mem_singleton_self id)
  · exact .inl ⟨w, OrderedMap.mem_delete.mpr ⟨this, mem⟩⟩

theorem moveHublotWidget_keeps {next : Identity} (h : moveHublotWidget localeLe s id old next now = some t) :
    GroupsFrom s t ∧ Survives [] s t := by
  obtain ⟨u, moved, rest⟩ := Option.bind_eq_some_iff.mp h
  obtain ⟨groups, widgets⟩ := update_keeps moved
  obtain ⟨groups', widgets'⟩ := normalizeContainer_keeps rest
  exact ⟨groups.andThen groups', widgets.andThen widgets'⟩

theorem removeGroup_keeps {identity : Identity} {children : List String} {deleteWidgets : Bool}
    (distinct : children.Nodup) (h : removeGroup localeLe s id identity children deleteWidgets now = some t) :
    GroupsFrom s t ∧ Survives (if deleteWidgets then children else []) s t := by
  obtain ⟨u, first, rest⟩ := Option.bind_eq_some_iff.mp h
  have released : GroupsFrom s u ∧ Survives (if deleteWidgets then children else []) s u := by
    cases deleteWidgets with
    | true =>
      cases first
      obtain ⟨groups, widgets⟩ := foldl_delete_spec children s
      refine ⟨groupsFrom_of_eq groups, fun j w mem => ?_⟩
      by_cases child : j ∈ children
      · exact .inr child
      · exact .inl ⟨w, (widgets j w).mpr ⟨child, mem⟩⟩
    | false =>
      obtain ⟨groups, _, widgets⟩ := updateAll_spec (by rw [map_change_keys]; exact distinct) first
      exact ⟨groupsFrom_of_eq groups, fun j w mem => .inl ⟨_, (widgets j _).mpr ⟨w, mem, rfl⟩⟩⟩
  have deleted : GroupsFrom u (deleteGroup u id) ∧ Survives [] u (deleteGroup u id) :=
    ⟨fun g row mem => (OrderedMap.mem_delete.mp mem).2,
      fun j w mem => .inl ⟨_, OrderedMap.mem_mapValues.mpr ⟨w, mem, rfl⟩⟩⟩
  obtain ⟨groups, widgets⟩ := normalizeContainer_keeps rest
  exact ⟨(released.1.andThen deleted.1).andThen groups, (released.2.andThen deleted.2).andThen widgets⟩

theorem advance_keeps (concurrent : p.concurrent = true) (checked : Checked s p) (fresh : Fresh s p)
    (h : advance localeLe s p = (t, progress)) :
    GroupsFrom s t ∧ Survives (if progress.succeeded then p.unpins s else []) s t := by
  have same : GroupsFrom s s ∧ ∀ removed, Survives removed s s :=
    ⟨fun _ _ mem => mem, fun _ j w mem => .inl ⟨w, mem⟩⟩
  have committed : ∀ (result : Option Store) (next : Progress), commit s result next = (t, progress) →
      (∀ u, result = some u → GroupsFrom s u ∧ Survives (if next.succeeded then p.unpins s else []) s u) →
      GroupsFrom s t ∧ Survives (if progress.succeeded then p.unpins s else []) s t := by
    intro result next eq keeps
    rcases commit_spec eq with ⟨done, rfl⟩ | ⟨rfl, rfl⟩
    · exact keeps t done
    · exact ⟨same.1, same.2 _⟩
  have more : ∀ {u : Store} (removed : List String), GroupsFrom s u ∧ Survives [] s u →
      GroupsFrom s u ∧ Survives removed s u := fun removed kept =>
    ⟨kept.1, fun j w mem => .inl ((kept.2 j w mem).resolve_right List.not_mem_nil)⟩
  cases p with
  | create p label position => exact committed _ _ h fun u created => more _ (create_keeps created)
  | createHublot hublot position now => exact committed _ _ h fun u created => more _ (create_keeps created)
  | moveHublot hublot id old now => exact committed _ _ h fun u moved => more _ (moveHublotWidget_keeps moved)
  | reorder r order => exact committed _ _ h fun u placed => more _ (reorder_keeps checked.2.1 placed)
  | updateLabel id label now => exact committed _ _ h fun u updated => more _ (update_keeps updated)
  | unpin id c => exact committed _ _ h fun u removed => unpin_keeps removed
  | deleteGroup id identity children deleteWidgets now =>
    refine committed _ _ h fun u removed => ?_
    obtain ⟨groups, widgets⟩ := removeGroup_keeps checked.2 removed
    refine ⟨groups, fun j w mem => ?_⟩
    rcases widgets j w mem with kept | gone
    · exact .inl kept
    · cases deleteWidgets with
      | false => cases gone
      | true =>
        refine .inr (List.mem_filter.mpr ⟨gone, ?_⟩)
        rw [OrderedMap.get_eq_some_iff.mpr mem]
        exact decide_eq_true (fresh j w mem gone)
  | groupPosition | createGroup | findPatched | patchGroup => cases concurrent
  | findDuplicate | assertGroup | takePosition | findHublot | hublotPosition | findWidget
  | assertDestination | listSiblings | findUnpinned | findDeleted | listChildren =>
    cases h
    exact ⟨same.1, same.2 _⟩

theorem advance_pins (h : advance localeLe s p = (t, progress)) (succeeded : progress.succeeded = true) :
    ∀ id ∈ p.pins, ∃ w, (id, w) ∈ t.widgets := by
  have created : ∀ (id : String) (w : Widget), commit s (create s id w) ok = (t, progress) →
      ∃ w, (id, w) ∈ t.widgets := by
    intro id w eq
    rcases commit_spec eq with ⟨done, _⟩ | ⟨_, rfl⟩
    · exact ⟨w, ((create_spec done).2.2.2 id w).mpr (.inl ⟨rfl, rfl⟩)⟩
    · cases succeeded
  intro id mem
  cases p with
  | create p label position =>
    obtain rfl := List.mem_singleton.mp mem
    exact created _ _ h
  | createHublot hublot position now =>
    obtain rfl := List.mem_singleton.mp mem
    exact created _ _ h
  | _ => cases mem

structure ConcurrentInv (s : State) : Prop where
  law : ContainersLaw s
  requests : ∀ i p, s.requests i = some p → p.concurrent = true ∧ Checked s.store p

theorem concurrent_step (s : State) (a : Action) (t : State) (h : ConcurrentInv s) (ok : Concurrent s a)
    (stepped : step localeLe s a = some t) : ConcurrentInv t := by
  cases a with
  | request i r =>
    rcases step_request stepped with rfl | ⟨p, waiting, rfl⟩
    · exact h
    · obtain ⟨initial, kind⟩ := begin_spec waiting
      refine ⟨⟨h.law.wellFormed, h.law.present⟩, fun j q found => ?_⟩
      rcases Calls.put_eq_some found with ⟨rfl, rfl⟩ | ⟨_, old⟩
      · exact ⟨kind ok, (initial_checked initial s.store).1⟩
      · exact h.requests j q old
  | advance i =>
    obtain ⟨p, store, progress, request, advanced, rfl, requests, pinned, unpinned⟩ := step_advance stepped
    obtain ⟨concurrent, checked⟩ := h.requests i p request
    have fresh := ok p request
    have wellFormed : WellFormed (advance localeLe s.store p).1 :=
      advance_wellFormed h.law.wellFormed checked fresh
    rw [advanced] at wellFormed
    obtain ⟨groups, widgets⟩ := advance_keeps concurrent checked fresh advanced
    refine ⟨⟨wellFormed, fun id mem kept => ?_⟩, fun j q found => ?_⟩
    · have found : ∃ w, (id, w) ∈ t.store.widgets := by
        rw [unpinned, List.mem_append, not_or] at kept
        rw [pinned, List.mem_append] at mem
        rcases mem with new | old
        · split_ifs at new with succeeded
          · exact advance_pins advanced succeeded id new
          · cases new
        · obtain ⟨w, inside, _⟩ := h.law.present id old kept.2
          exact (widgets id w inside).resolve_right kept.1
      obtain ⟨w, inside⟩ := found
      exact ⟨w, inside, fun v other => OrderedMap.value_unique other inside⟩
    · have others : ∀ j q, s.requests j = some q → q.concurrent = true ∧ Checked t.store q := fun j q old =>
        ⟨(h.requests j q old).1, (h.requests j q old).2.mono groups⟩
      rw [requests] at found
      cases progress with
      | waiting next =>
        rcases Calls.put_eq_some found with ⟨rfl, rfl⟩ | ⟨_, old⟩
        · obtain ⟨checked', _, kind⟩ := advance_next h.law.wellFormed checked advanced
          exact ⟨kind concurrent, checked'⟩
        · exact others j q old
      | done result => exact others j q (Calls.drop_eq_some found).2

/-- In every run in which requests write only while what they have read is current, the
containers stay well formed and no widget is lost or doubled. -/
theorem concurrent_containers (localeLe : String → String → Bool) (actions : List Action) (store : Store)
    (s : State) (wellFormed : WellFormed store)
    (run : Run (step localeLe) Concurrent { store } actions s) : ContainersLaw s := by
  have base : ConcurrentInv { store } :=
    ⟨⟨wellFormed, fun _ absurd => nomatch absurd⟩, fun _ _ absurd => nomatch absurd⟩
  exact (Run.invariant concurrent_step run base).law

end

def emptyStore : Store := ⟨.empty, .empty⟩

theorem emptyStore_wellFormed : WellFormed emptyStore :=
  ⟨(fun _ _ _ _ _ absurd => nomatch absurd), fun _ _ _ absurd => nomatch absurd⟩

def pinLink (id target : String) : Request :=
  .pin ⟨⟨.workspace, none, none⟩, none, none, .ok (.artifact ⟨.link, some target, none, none, none, target⟩)⟩ id "now"

/-- Two widgets are pinned, and the first is unpinned. -/
theorem sequential_wellFormed_pins :
    ∃ s, Run (step fun a b => decide (a ≤ b)) Sequential ⟨emptyStore, fun _ => none, [], []⟩
        [.request 0 (pinLink "a" "x"), .advance 0, .advance 0, .advance 0,
          .request 0 (pinLink "b" "y"), .advance 0, .advance 0, .advance 0,
          .request 0 (.unpin "a"), .advance 0, .advance 0] s ∧
      s.store.widgets.entries.map (fun e => (e.1, e.2.position)) = [("b", 0)] ∧ WellFormed s.store := by
  have run : ∃ s, Run (step fun a b => decide (a ≤ b)) Sequential ⟨emptyStore, fun _ => none, [], []⟩
        [.request 0 (pinLink "a" "x"), .advance 0, .advance 0, .advance 0,
          .request 0 (pinLink "b" "y"), .advance 0, .advance 0, .advance 0,
          .request 0 (.unpin "a"), .advance 0, .advance 0] s ∧
      s.store.widgets.entries.map (fun e => (e.1, e.2.position)) = [("b", 0)] := by
    refine ⟨_, .cons (fun _ => rfl) rfl (.cons trivial rfl (.cons trivial rfl (.cons trivial rfl
      (.cons ?first rfl (.cons trivial rfl (.cons trivial rfl (.cons trivial rfl
      (.cons ?second rfl (.cons trivial rfl (.cons trivial rfl (.nil _))))))))))), ?positions⟩
    case first | second =>
      intro i
      rcases i with _ | i <;> rfl
    case positions => decide +kernel
  obtain ⟨s, run, positions⟩ := run
  exact ⟨s, run, positions, sequential_wellFormed _ _ _ s emptyStore_wellFormed run⟩

/-- Two pins at the same time, where the second reads its position after the first is in the table. -/
theorem concurrent_containers_pins :
    ∃ s, Run (step fun a b => decide (a ≤ b)) Concurrent ⟨emptyStore, fun _ => none, [], []⟩
        [.request 0 (pinLink "a" "x"), .request 1 (pinLink "b" "y"), .advance 0, .advance 1, .advance 0,
          .advance 0, .advance 1, .advance 1] s ∧
      s.pinned = ["b", "a"] ∧ s.requests 0 = none ∧ s.requests 1 = none ∧ ContainersLaw s := by
  have run : ∃ s, Run (step fun a b => decide (a ≤ b)) Concurrent ⟨emptyStore, fun _ => none, [], []⟩
        [.request 0 (pinLink "a" "x"), .request 1 (pinLink "b" "y"), .advance 0, .advance 1, .advance 0,
          .advance 0, .advance 1, .advance 1] s ∧
      s.pinned = ["b", "a"] ∧ s.requests 0 = none ∧ s.requests 1 = none := by
    refine ⟨_, .cons rfl rfl (.cons rfl rfl (.cons ?readA rfl (.cons ?readB rfl (.cons ?positionA rfl
      (.cons ?createA rfl (.cons ?positionB rfl (.cons ?createB rfl (.nil _)))))))), rfl, rfl, rfl⟩
    case readA | readB | positionA | positionB =>
      intro p request
      cases request
      trivial
    case createA | createB =>
      intro p request
      cases request
      show ∀ e ∈ members _ _, _
      decide +kernel
  obtain ⟨s, run, pinned, first, second⟩ := run
  exact ⟨s, run, pinned, first, second, concurrent_containers _ _ _ s emptyStore_wellFormed run⟩

/-- Two pins that both read their position before either is in the table. -/
theorem two_pins_one_position : ∃ s, exec (step fun a b => decide (a ≤ b)) ⟨emptyStore, fun _ => none, [], []⟩
        [.request 0 (pinLink "a" "x"), .request 1 (pinLink "b" "y"), .advance 0, .advance 1, .advance 0,
          .advance 1, .advance 0, .advance 1] = some s ∧
      s.requests 0 = none ∧ s.requests 1 = none ∧
      s.store.widgets.entries.map (fun e => (e.1, e.2.position)) = [("a", 0), ("b", 0)] ∧
      ¬ContainersLaw s := by
  refine ⟨_, rfl, rfl, rfl, by decide +kernel, fun law => ?_⟩
  have clash := law.wellFormed.distinct ⟨.workspace, none⟩ "a" _ "b" _ (.head _) (.tail _ (.head _)) rfl rfl rfl
  exact absurd clash (by decide)

end PinnedWidgets
