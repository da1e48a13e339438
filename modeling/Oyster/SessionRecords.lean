import Oyster.PinnedWidgets
import Oyster.RowUpdates
import Oyster.SessionReference

/-! The sessions that the application database knows and the records that they own, with the
promotion of a session to another identity. Records are moved table by table, and the session
is deleted afterwards with what it still owns. -/
namespace SessionRecords
open RowUpdates SessionReference

structure AppSession where
  id : Nat
  reference : Reference

structure Operation where
  id : String
  owner_id : Option Nat

structure Checkpoint where
  id : Nat
  owner_id : Nat
  git_hash : String
  anchor_id : String

structure Routine where
  id : String
  owner_id : Option Nat
  name : String

structure Hublot where
  id : String
  owner_id : Option Nat
  port : Nat
  status : String

structure Runner where
  id : String
  owner_id : Option Nat
  is_default : Bool

abbrev WidgetGroup := String × PinnedWidgets.Group

abbrev Widget := String × PinnedWidgets.Widget

/-- A table with the column `owner_id`, and the constraints on its rows. -/
structure Table (ρ : Type) extends Constraints ρ where
  owner : ρ → Option Nat
  setOwner : Nat → ρ → ρ
  owner_setOwner : ∀ n r, owner (setOwner n r) = some n
  setOwner_owner : ∀ n r, owner r = some n → setOwner n r = r

/-- `id TEXT PRIMARY KEY`, and no other constraint. -/
def operations : Table Operation where
  check _ := true
  clash a b := a.id = b.id
  clash_comm a b := by simp only [eq_comm]
  owner r := r.owner_id
  setOwner n r := { r with owner_id := some n }
  owner_setOwner _ _ := rfl
  setOwner_owner _ _ h := by simp [← h]

/-- `UNIQUE(owner_id, git_hash, anchor_id)` -/
def checkpoints : Table Checkpoint where
  check _ := true
  clash a b := a.id = b.id || a.owner_id = b.owner_id && a.git_hash = b.git_hash && a.anchor_id = b.anchor_id
  clash_comm a b := by simp only [eq_comm]
  owner r := some r.owner_id
  setOwner n r := { r with owner_id := n }
  owner_setOwner _ _ := rfl
  setOwner_owner _ _ h := by simp [← Option.some.inj h]

/-- `name TEXT NOT NULL UNIQUE` -/
def routines : Table Routine where
  check _ := true
  clash a b := a.id = b.id || a.name = b.name
  clash_comm a b := by simp only [eq_comm]
  owner r := r.owner_id
  setOwner n r := { r with owner_id := some n }
  owner_setOwner _ _ := rfl
  setOwner_owner _ _ h := by simp [← h]

/-- `hublots_active_port_idx` on the ports of the hublots that are not closed. -/
def hublots : Table Hublot where
  check r := 1 ≤ r.port && r.port ≤ 65535
  clash a b := a.id = b.id || a.status ≠ "closed" && b.status ≠ "closed" && a.port = b.port
  clash_comm a b := by simp only [eq_comm, Bool.and_comm]
  owner r := r.owner_id
  setOwner n r := { r with owner_id := some n }
  owner_setOwner _ _ := rfl
  setOwner_owner _ _ h := by simp [← h]

/-- `runners_one_default_idx` -/
def runners : Table Runner where
  check _ := true
  clash a b := a.id = b.id || a.is_default && b.is_default
  clash_comm a b := by simp only [eq_comm, Bool.and_comm]
  owner r := r.owner_id
  setOwner n r := { r with owner_id := some n }
  owner_setOwner _ _ := rfl
  setOwner_owner _ _ h := by simp [← h]

/-- `owner_id`, which a row has exactly in the scope of a session. -/
def ownerOf : PinnedWidgets.Identity → Option Nat
  | .workspace => none
  | .session owner => some owner

theorem identity_of_ownerOf {identity : PinnedWidgets.Identity} {n : Nat} (h : ownerOf identity = some n) :
    identity = .session n := by
  cases identity with
  | workspace => cases h
  | session owner => rw [Option.some.inj h]

def pinned_widget_groups : Table WidgetGroup where
  check r := r.2.checks
  clash a b := a.1 = b.1
  clash_comm a b := by simp only [eq_comm]
  owner r := ownerOf r.2.identity
  setOwner n r := (r.1, { r.2 with identity := .session n })
  owner_setOwner _ _ := rfl
  setOwner_owner n r h := by rw [← identity_of_ownerOf h]

/-- `pinned_widgets_hublot_idx` and `pinned_widgets_builtin_workspace_idx` -/
def pinned_widgets : Table Widget where
  check r := r.2.checks
  clash a b := a.1 = b.1 || a.2.hublotId = b.2.hublotId && a.2.hublotId.isSome && b.2.hublotId.isSome ||
    PinnedWidgets.isBuiltinOf b.2.target a.2 && PinnedWidgets.isBuiltinOf a.2.target b.2
  clash_comm a b := by simp only [eq_comm, Bool.and_comm, Bool.and_left_comm, Bool.and_assoc]
  owner r := ownerOf r.2.identity
  setOwner n r := (r.1, { r.2 with identity := .session n })
  owner_setOwner _ _ := rfl
  setOwner_owner n r h := by rw [← identity_of_ownerOf h]

/-- The tables in the order in which their records are moved. -/
inductive OwnedTable where
  | operations | checkpoints | routines | hublots | runners | pinned_widget_groups | pinned_widgets
  deriving DecidableEq

def OwnedTable.all : List OwnedTable :=
  [.operations, .checkpoints, .routines, .hublots, .runners, .pinned_widget_groups, .pinned_widgets]

abbrev OwnedTable.Row : OwnedTable → Type
  | .operations => Operation
  | .checkpoints => Checkpoint
  | .routines => Routine
  | .hublots => Hublot
  | .runners => Runner
  | .pinned_widget_groups => WidgetGroup
  | .pinned_widgets => Widget

def OwnedTable.table : (t : OwnedTable) → Table t.Row
  | .operations => SessionRecords.operations
  | .checkpoints => SessionRecords.checkpoints
  | .routines => SessionRecords.routines
  | .hublots => SessionRecords.hublots
  | .runners => SessionRecords.runners
  | .pinned_widget_groups => SessionRecords.pinned_widget_groups
  | .pinned_widgets => SessionRecords.pinned_widgets

structure Database where
  app_sessions : List AppSession
  rows : (t : OwnedTable) → List t.Row

/-- `UNIQUE (backend, session_id, storage_path)`, and the index on the identities without a path. -/
def appSessions : Constraints AppSession where
  check _ := true
  clash a b := a.id = b.id || a.reference = b.reference
  clash_comm a b := by simp only [eq_comm]

/-- The state satisfies the schema. -/
structure Database.Valid (d : Database) : Prop where
  app_sessions : appSessions.Hold d.app_sessions
  rows : ∀ t : OwnedTable, t.table.Hold (d.rows t)
  owner_id : ∀ t : OwnedTable, ∀ r ∈ d.rows t, ∀ n, t.table.owner r = some n → ∃ o ∈ d.app_sessions, o.id = n
  group_id : ∀ w ∈ d.rows .pinned_widgets, ∀ g, w.2.groupId = some g → ∃ r ∈ d.rows .pinned_widget_groups, r.1 = g
  hublot_id : ∀ w ∈ d.rows .pinned_widgets, ∀ h, w.2.hublotId = some h → ∃ r ∈ d.rows .hublots, r.id = h

namespace Database
variable (d : Database)

def findSession (reference : Reference) : Option AppSession :=
  d.app_sessions.find? fun o => o.reference = reference

/-- `UPDATE table SET owner_id = target WHERE owner_id = source` -/
def updateOwner (source target : Nat) (t : OwnedTable) : Option Database :=
  (update t.table.toConstraints (fun r => t.table.owner r = some source) (t.table.setOwner target) (d.rows t)).map
    fun rows => { d with rows := Function.update d.rows t rows }

def moveRecords (source target : Nat) : Option Database :=
  OwnedTable.all.foldlM (fun d t => d.updateOwner source target t) d

/-- The rows that a cascading delete of the session leaves. -/
def unowned (id : Nat) (t : OwnedTable) : List t.Row :=
  (d.rows t).filter fun r => t.table.owner r ≠ some id

def detached (id : Nat) (w : PinnedWidgets.Widget) : PinnedWidgets.Widget :=
  { w with
    groupId := w.groupId.filter fun g => (d.unowned id .pinned_widget_groups).any fun r => r.1 = g
    hublotId := w.hublotId.filter fun h => (d.unowned id .hublots).any fun r => r.id = h }

/-- `DELETE FROM app_sessions WHERE id = ?` with the actions of the foreign keys: an operation
loses its owner, every other record goes. -/
def deleteSession (id : Nat) : Database where
  app_sessions := d.app_sessions.filter fun o => o.id ≠ id
  rows
    | .operations => (d.rows .operations).map fun r => if r.owner_id = some id then { r with owner_id := none } else r
    | .pinned_widgets => (d.unowned id .pinned_widgets).map fun w => (w.1, d.detached id w.2)
    | .checkpoints => d.unowned id .checkpoints
    | .routines => d.unowned id .routines
    | .hublots => d.unowned id .hublots
    | .runners => d.unowned id .runners
    | .pinned_widget_groups => d.unowned id .pinned_widget_groups

def renameSession (id : Nat) (next : Reference) : Option Database :=
  (update appSessions (fun o => o.id = id) (fun o => { o with reference := next }) d.app_sessions).map
    fun app_sessions => { d with app_sessions }

/-- A failing statement rolls the transaction back and throws. -/
def reidentify (previous next : Reference) : Option Database :=
  match d.findSession previous with
  | none => some d
  | some owner =>
    match d.findSession next with
    | some target =>
      if target.id ≠ owner.id then (d.moveRecords owner.id target.id).map fun d => d.deleteSession owner.id
      else d.renameSession owner.id next
    | none => d.renameSession owner.id next

end Database
end SessionRecords
