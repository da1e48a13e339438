import Oyster.Interleaving
import Mathlib.Data.List.Sort
import Mathlib.Data.List.TakeDrop
import Mathlib.Algebra.Group.Int.Defs

/-! The migrations of the application database, and the ledger of those that have been applied. Several
processes may migrate one database: each reads the ledger once, and then looks at it again for every
migration, in a transaction that no other writer can be in. -/
namespace Migrations
open Interleaving

structure Migration where
  version : Int
  name : String
  sql : String
  deriving DecidableEq

/-- A row of `schema_migrations`. -/
structure Row where
  version : Int
  name : String
  appliedAt : String

inductive MigrationError where
  | notAscending
  | invalidMigration (version : Int)
  | invalidHistory
  | notSupported (version : Int)
  | nameMismatch (version : Int)
  | gap
  deriving DecidableEq

def maxSafeInteger : Int := 2 ^ 53 - 1

def isBlank (text : String) : Bool := text.toList.all Char.isWhitespace

/-- The loop of `validateMigrations`. -/
def validateFrom (previous : Int) : List Migration → Except MigrationError Unit
  | [] => .ok ()
  | migration :: migrations =>
    if maxSafeInteger < migration.version ∨ migration.version ≤ previous then .error .notAscending
    else if isBlank migration.name ∨ isBlank migration.sql then .error (.invalidMigration migration.version)
    else validateFrom migration.version migrations

def validateMigrations (migrations : List Migration) : Except MigrationError Unit := validateFrom 0 migrations

def checkRows (migrations : List Migration) : List Row → Except MigrationError Unit
  | [] => .ok ()
  | row :: rows =>
    if row.version < 1 ∨ maxSafeInteger < row.version then .error .invalidHistory
    else match migrations.find? fun migration => migration.version = row.version with
      | none => .error (.notSupported row.version)
      | some migration =>
        if migration.name ≠ row.name then .error (.nameMismatch row.version) else checkRows migrations rows

def checkGap (applied : List Int) (foundPending : Bool) : List Migration → Except MigrationError Unit
  | [] => .ok ()
  | migration :: migrations =>
    if migration.version ∉ applied then checkGap applied true migrations
    else if foundPending then .error .gap
    else checkGap applied false migrations

def readAppliedMigrations (ledger : List Row) (migrations : List Migration) : Except MigrationError (List Int) := do
  checkRows migrations ledger
  checkGap (ledger.map Row.version) false migrations
  pure (ledger.map Row.version)

structure Database (σ : Type) where
  schema : σ
  ledger : List Row

inductive Phase where
  | creating
  | reading
  | migrating (pending : List Migration)
  | checking (migration : Migration) (pending : List Migration)
  | executing (migration : Migration) (pending : List Migration)
  | recording (migration : Migration) (appliedAt : String) (pending : List Migration)
  | committing (pending : List Migration)
  | rollingBack
  | done (applied : List Int)
  | failed
  deriving DecidableEq

/-- `lock` is the transaction of the one process that may write: what it sees and will commit. -/
structure State (σ : Type) where
  committed : Database σ
  lock : Option (Nat × Database σ) := none
  processes : Calls Phase := fun _ => none

inductive Action where
  | start (p : Nat)
  | create (p : Nat)
  | read (p : Nat)
  | begin (p : Nat)
  | check (p : Nat)
  | execute (p : Nat) (appliedAt : String)
  | insert (p : Nat)
  | commit (p : Nat)
  | rollback (p : Nat) (succeeds : Bool)
  | finish (p : Nat)
  | fail (p : Nat)

/-- The insertion into the table, in the order of its key; the key is unique. -/
def insertRow (row : Row) (ledger : List Row) : Option (List Row) :=
  if ledger.any fun old => old.version = row.version then none
  else some (ledger.orderedInsert (fun a b => a.version ≤ b.version) row)

section
variable {σ : Type}

def State.enter (s : State σ) (p : Nat) (phase : Phase) : State σ := { s with processes := s.processes.put p phase }

def State.transaction (s : State σ) (p : Nat) : Option (Database σ) :=
  match s.lock with
  | some (owner, database) => if owner = p then some database else none
  | none => none

variable (effect : String → σ → Option σ) (migrations : List Migration)

/-- `effect` is what a text of SQL makes of the schema; `none` when it fails. -/
def step (s : State σ) : Action → Option (State σ)
  | .start p =>
    if s.processes p = none then
      match validateMigrations migrations with
      | .error _ => some (s.enter p .failed)
      | .ok _ => some (s.enter p .creating)
    else none
  | .create p =>
    match s.processes p with
    | some .creating => some (s.enter p .reading)
    | _ => none
  | .read p =>
    match s.processes p with
    | some .reading =>
      match readAppliedMigrations s.committed.ledger migrations with
      | .error _ => some (s.enter p .failed)
      | .ok applied =>
        some (s.enter p (.migrating (migrations.filter fun migration => migration.version ∉ applied)))
    | _ => none
  | .begin p =>
    match s.processes p, s.lock with
    | some (.migrating (migration :: pending)), none =>
      some { s.enter p (.checking migration pending) with lock := some (p, s.committed) }
    | _, _ => none
  | .check p =>
    match s.processes p, s.transaction p with
    | some (.checking migration pending), some database =>
      match database.ledger.find? fun row => row.version = migration.version with
      | none => some (s.enter p (.executing migration pending))
      | some row =>
        if row.name = migration.name then some (s.enter p (.committing pending))
        else some (s.enter p .rollingBack)
    | _, _ => none
  | .execute p appliedAt =>
    match s.processes p, s.transaction p with
    | some (.executing migration pending), some database =>
      if isBlank appliedAt then none
      else (effect migration.sql database.schema).map fun schema =>
        { s.enter p (.recording migration appliedAt pending) with lock := some (p, { database with schema }) }
    | _, _ => none
  | .insert p =>
    match s.processes p, s.transaction p with
    | some (.recording migration appliedAt pending), some database =>
      (insertRow ⟨migration.version, migration.name, appliedAt⟩ database.ledger).map fun ledger =>
        { s.enter p (.committing pending) with lock := some (p, { database with ledger }) }
    | _, _ => none
  | .commit p =>
    match s.processes p, s.transaction p with
    | some (.committing pending), some database =>
      some { s.enter p (.migrating pending) with committed := database, lock := none }
    | _, _ => none
  | .rollback p succeeds =>
    match s.processes p with
    | some .rollingBack => some { s.enter p .failed with lock := if succeeds then none else s.lock }
    | _ => none
  | .finish p =>
    match s.processes p with
    | some (.migrating []) =>
      match readAppliedMigrations s.committed.ledger migrations with
      | .error _ => some (s.enter p .failed)
      | .ok applied => some (s.enter p (.done applied))
    | _ => none
  | .fail p =>
    match s.processes p with
    | some .creating | some .reading | some (.migrating _) => some (s.enter p .failed)
    | some (.checking ..) | some (.executing ..) | some (.recording ..) | some (.committing _) =>
      some (s.enter p .rollingBack)
    | _ => none

end

def Migration.key (migration : Migration) : Int × String := (migration.version, migration.name)

def Row.key (row : Row) : Int × String := (row.version, row.name)

def keys (migrations : List Migration) : List (Int × String) := migrations.map Migration.key

/-- The table as it is read: its key is unique. -/
def Sorted (ledger : List Row) : Prop := ledger.Pairwise fun a b => a.version < b.version

/-- The first migrations have been applied, and no others. -/
def Consistent (migrations : List Migration) (ledger : List Row) : Prop :=
  ∃ k ≤ migrations.length, ledger.map Row.key = keys (migrations.take k)

structure Valid (migrations : List Migration) : Prop where
  ascending : migrations.Pairwise fun a b => a.version < b.version
  bounds : ∀ migration ∈ migrations, 1 ≤ migration.version ∧ migration.version ≤ maxSafeInteger

variable {migrations : List Migration}

theorem valid_of_validateFrom {previous : Int} (h : validateFrom previous migrations = .ok ()) :
    (migrations.Pairwise fun a b => a.version < b.version) ∧
      ∀ migration ∈ migrations, previous < migration.version ∧ migration.version ≤ maxSafeInteger := by
  induction migrations generalizing previous with
  | nil => exact ⟨List.Pairwise.nil, fun _ mem => nomatch mem⟩
  | cons migration migrations ih =>
    rw [validateFrom] at h
    split_ifs at h with outside blank
    obtain ⟨ascending, bounds⟩ := ih h
    have here : previous < migration.version ∧ migration.version ≤ maxSafeInteger := by omega
    refine ⟨List.pairwise_cons.mpr ⟨fun other mem => (bounds other mem).1, ascending⟩, ?_⟩
    rintro other mem
    rcases List.mem_cons.mp mem with rfl | mem
    · exact here
    · exact ⟨here.1.trans (bounds other mem).1, (bounds other mem).2⟩

theorem valid_of_validate (h : validateMigrations migrations = .ok ()) : Valid migrations := by
  obtain ⟨ascending, bounds⟩ := valid_of_validateFrom h
  exact ⟨ascending, fun migration mem => by have := bounds migration mem; omega⟩

theorem Valid.eq_of_version (valid : Valid migrations) {a b : Migration} (ha : a ∈ migrations) (hb : b ∈ migrations)
    (same : a.version = b.version) : a = b := by
  have nodup : (migrations.map Migration.version).Nodup :=
    List.pairwise_map.mpr (valid.ascending.imp fun less => ne_of_lt less)
  exact List.inj_on_of_nodup_map nodup ha hb same

theorem Valid.find (valid : Valid migrations) {migration : Migration} (mem : migration ∈ migrations) :
    (migrations.find? fun other => other.version = migration.version) = some migration := by
  cases found : migrations.find? fun other => other.version = migration.version with
  | none => exact absurd (decide_eq_true rfl) (List.find?_eq_none.mp found migration mem)
  | some other =>
    have same : other.version = migration.version := by simpa using List.find?_some found
    rw [valid.eq_of_version (List.mem_of_find?_eq_some found) mem same]

theorem checkRows_iff (valid : Valid migrations) (ledger : List Row) :
    checkRows migrations ledger = .ok () ↔ ∀ row ∈ ledger, row.key ∈ keys migrations := by
  induction ledger with
  | nil => exact iff_of_true rfl fun _ mem => nomatch mem
  | cons row rows ih =>
    rw [List.forall_mem_cons, ← ih, checkRows]
    constructor
    · intro h
      split_ifs at h with outside
      cases found : migrations.find? fun migration => migration.version = row.version with
      | none => rw [found] at h; cases h
      | some migration =>
        rw [found] at h
        dsimp only at h
        split_ifs at h with renamed
        have same : migration.version = row.version := by simpa using List.find?_some found
        refine ⟨List.mem_map.mpr ⟨migration, List.mem_of_find?_eq_some found, ?_⟩, h⟩
        rw [Migration.key, Row.key, same, not_not.mp renamed]
    · rintro ⟨known, rest⟩
      obtain ⟨migration, mem, same⟩ := List.mem_map.mp known
      obtain ⟨version, name⟩ := Prod.mk.inj same
      have bounds := valid.bounds migration mem
      have found := valid.find mem
      rw [version] at bounds found
      rw [if_neg (by omega), found]
      dsimp only
      rw [if_neg (not_not.mpr name)]
      exact rest

theorem checkGap_pending (applied : List Int) (migrations : List Migration) :
    checkGap applied true migrations = .ok () ↔ ∀ migration ∈ migrations, migration.version ∉ applied := by
  induction migrations with
  | nil => exact iff_of_true rfl fun _ mem => nomatch mem
  | cons migration migrations ih =>
    rw [List.forall_mem_cons, ← ih, checkGap]
    by_cases applied' : migration.version ∈ applied
    · rw [if_neg (not_not.mpr applied'), if_pos rfl]
      exact iff_of_false (fun h => nomatch h) fun h => h.1 applied'
    · rw [if_pos applied']
      exact (and_iff_right applied').symm

theorem checkGap_iff (applied : List Int) (migrations : List Migration) : checkGap applied false migrations = .ok () ↔
      ∃ k, (∀ migration ∈ migrations.take k, migration.version ∈ applied) ∧
        ∀ migration ∈ migrations.drop k, migration.version ∉ applied := by
  induction migrations with
  | nil => exact iff_of_true rfl ⟨0, fun _ mem => (nomatch mem), fun _ mem => nomatch mem⟩
  | cons migration migrations ih =>
    rw [checkGap]
    by_cases applied' : migration.version ∈ applied
    · rw [if_neg (not_not.mpr applied'), if_neg Bool.false_ne_true, ih]
      constructor
      · rintro ⟨k, front, back⟩
        exact ⟨k + 1, List.forall_mem_cons.mpr ⟨applied', front⟩, back⟩
      · rintro ⟨k, front, back⟩
        cases k with
        | zero => exact absurd applied' (List.forall_mem_cons.mp back).1
        | succ k => exact ⟨k, (List.forall_mem_cons.mp front).2, back⟩
    · rw [if_pos applied', checkGap_pending]
      constructor
      · intro h
        exact ⟨0, fun _ mem => (nomatch mem), List.forall_mem_cons.mpr ⟨applied', h⟩⟩
      · rintro ⟨k, front, back⟩
        cases k with
        | zero => exact (List.forall_mem_cons.mp back).2
        | succ k => exact absurd (List.forall_mem_cons.mp front).1 applied'

theorem readAppliedMigrations_iff (valid : Valid migrations) {ledger : List Row} (sorted : Sorted ledger)
    (applied : List Int) : readAppliedMigrations ledger migrations = .ok applied ↔
      applied = ledger.map Row.version ∧ Consistent migrations ledger := by
  have rows := checkRows_iff valid ledger
  have gap := checkGap_iff (ledger.map Row.version) migrations
  constructor
  · intro h
    unfold readAppliedMigrations at h
    cases checked : checkRows migrations ledger with
    | error error => rw [checked] at h; cases h
    | ok u =>
      cases gaps : checkGap (ledger.map Row.version) false migrations with
      | error error => rw [checked, gaps] at h; cases h
      | ok v =>
        rw [checked, gaps] at h
        cases h
        have known := rows.mp checked
        obtain ⟨k, front, back⟩ := gap.mp gaps
        refine ⟨rfl, min k migrations.length, Nat.min_le_right _ _, ?_⟩
        rw [← List.take_eq_take_min]
        have antisymm : Std.Antisymm fun a b : Int × String => a.1 < b.1 :=
          ⟨fun a b less more => absurd less (lt_asymm more)⟩
        refine List.Pairwise.eq_of_mem_iff (r := fun a b : Int × String => a.1 < b.1) (List.pairwise_map.mpr sorted)
          (List.pairwise_map.mpr (valid.ascending.sublist (List.take_sublist k migrations))) fun key => ?_
        constructor
        · intro mem
          obtain ⟨row, recorded, rfl⟩ := List.mem_map.mp mem
          obtain ⟨migration, mem, same⟩ := List.mem_map.mp (known row recorded)
          have version : migration.version ∈ ledger.map Row.version :=
            List.mem_map.mpr ⟨row, recorded, (congrArg Prod.fst same).symm⟩
          rw [← List.take_append_drop k migrations, List.mem_append] at mem
          rcases mem with mem | mem
          · exact List.mem_map.mpr ⟨migration, mem, same⟩
          · exact absurd version (back migration mem)
        · intro first
          obtain ⟨migration, mem, rfl⟩ := List.mem_map.mp first
          obtain ⟨row, recorded, version⟩ := List.mem_map.mp (front migration mem)
          obtain ⟨other, mem', same⟩ := List.mem_map.mp (known row recorded)
          have equal := valid.eq_of_version mem' (List.mem_of_mem_take mem) ((congrArg Prod.fst same).trans version)
          exact List.mem_map.mpr ⟨row, recorded, by rw [← same, equal]⟩
  · rintro ⟨rfl, k, _, prefixed⟩
    have recorded : ledger.map Row.version = (migrations.take k).map Migration.version := by
      have first := congrArg (List.map Prod.fst) prefixed
      rw [keys, List.map_map, List.map_map] at first
      exact first
    have checked : checkRows migrations ledger = .ok () := by
      refine rows.mpr fun row mem => ?_
      have there : row.key ∈ keys (migrations.take k) := prefixed ▸ List.mem_map_of_mem mem
      obtain ⟨migration, front, same⟩ := List.mem_map.mp there
      exact List.mem_map.mpr ⟨migration, List.mem_of_mem_take front, same⟩
    have gaps : checkGap (ledger.map Row.version) false migrations = .ok () := by
      refine gap.mpr ⟨k, fun migration mem => recorded ▸ List.mem_map_of_mem mem, fun migration mem applied => ?_⟩
      rw [recorded] at applied
      obtain ⟨other, front, same⟩ := List.mem_map.mp applied
      have ordered := valid.ascending
      rw [← List.take_append_drop k migrations, List.pairwise_append] at ordered
      exact absurd same (ne_of_lt (ordered.2.2 other front migration mem))
    unfold readAppliedMigrations
    rw [checked, gaps]
    rfl

end Migrations
