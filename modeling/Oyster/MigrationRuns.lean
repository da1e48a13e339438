import Oyster.Migrations

/-! Any number of processes that migrate one database, in any interleaving and with any failure: what is
committed is the database after some of the migrations, each applied once and in their order. -/
namespace Migrations
open Interleaving

variable {σ : Type} (effect : String → σ → Option σ) (migrations : List Migration)

def applyAll : List Migration → σ → Option σ
  | [], schema => some schema
  | migration :: rest, schema => (effect migration.sql schema).bind (applyAll rest)

/-- The SQL of the migration and its row, and nothing else. -/
def Applies (migration : Migration) (before after : Database σ) : Prop :=
  effect migration.sql before.schema = some after.schema ∧
    ∃ appliedAt, after.ledger = before.ledger ++ [⟨migration.version, migration.name, appliedAt⟩]

/-- The database after the first `j` migrations, of which `k` were applied in the first place. -/
structure At (first : Database σ) (k j : Nat) (database : Database σ) : Prop where
  le : k ≤ j
  within : j ≤ migrations.length
  ledger : database.ledger.map Row.key = keys (migrations.take j)
  grown : first.ledger <+: database.ledger
  schema : applyAll effect ((migrations.take j).drop k) first.schema = some database.schema

theorem applyAll_append (a b : List Migration) (schema : σ) :
    applyAll effect (a ++ b) schema = (applyAll effect a schema).bind (applyAll effect b) := by
  induction a generalizing schema with
  | nil => rfl
  | cons migration a ih =>
    rw [List.cons_append, applyAll, applyAll]
    cases effect migration.sql schema with
    | none => rfl
    | some next => exact ih next

section
variable {effect migrations} {first : Database σ} {k : Nat}

theorem At.sorted {j : Nat} {database : Database σ} (valid : Valid migrations)
    (at' : At effect migrations first k j database) : Sorted database.ledger := by
  have ascending : (database.ledger.map Row.key).Pairwise fun a b => a.1 < b.1 := by
    rw [at'.ledger]
    exact List.pairwise_map.mpr (valid.ascending.sublist (List.take_sublist j migrations))
  exact (List.pairwise_map (f := Row.key)).mp ascending

theorem At.versions {j : Nat} {database : Database σ} (at' : At effect migrations first k j database) :
    database.ledger.map Row.version = (migrations.take j).map Migration.version := by
  have keys' := congrArg (List.map Prod.fst) at'.ledger
  rw [keys, List.map_map, List.map_map] at keys'
  exact keys'

theorem At.next {j : Nat} {database after : Database σ} {migration : Migration} {pending : List Migration}
    (at' : At effect migrations first k j database) (next : migrations.drop j = migration :: pending)
    (applies : Applies effect migration database after) : At effect migrations first k (j + 1) after := by
  obtain ⟨applied, appliedAt, row⟩ := applies
  have there : migrations[j]? = some migration := by
    rw [← List.head?_drop, next]
    rfl
  have within : j < migrations.length := (List.getElem?_eq_some_iff.mp there).1
  have taken : migrations.take (j + 1) = migrations.take j ++ [migration] := by
    rw [List.take_add_one, there]
    rfl
  have whole : (migrations.take j).length = j := by
    rw [List.length_take]
    exact Nat.min_eq_left at'.within
  refine ⟨at'.le.trans (Nat.le_succ _), within, ?_, row ▸ at'.grown.trans (List.prefix_append _ _), ?_⟩
  · rw [row, List.map_append, at'.ledger, taken, keys, keys, List.map_append]
    rfl
  · rw [taken, List.drop_append_of_le_length (by rw [whole]; exact at'.le), applyAll_append, at'.schema]
    change (effect migration.sql database.schema).bind some = _
    rw [applied]
    rfl

theorem At.found {j p : Nat} {database : Database σ} (valid : Valid migrations)
    (at' : At effect migrations first k j database) {migration : Migration} {pending : List Migration}
    (next : migrations.drop p = migration :: pending) :
    (p < j → ∃ row, (database.ledger.find? fun row => row.version = migration.version) = some row ∧
      row.name = migration.name) ∧
    (j ≤ p → (database.ledger.find? fun row => row.version = migration.version) = none) := by
  have there : migrations[p]? = some migration := by
    rw [← List.head?_drop, next]
    rfl
  have mem := List.mem_of_getElem? there
  have recorded : ∀ row ∈ database.ledger, ∃ other ∈ migrations.take j, other.key = row.key := by
    intro row mem
    have known : row.key ∈ keys (migrations.take j) := at'.ledger ▸ List.mem_map_of_mem mem
    exact List.mem_map.mp known
  constructor
  · intro before
    have front : migration ∈ migrations.take j := by
      refine List.mem_of_getElem? (i := p) ?_
      rw [List.getElem?_take_of_lt before, there]
    have known : migration.key ∈ database.ledger.map Row.key := at'.ledger ▸ List.mem_map_of_mem front
    obtain ⟨row, inLedger, same⟩ := List.mem_map.mp known
    cases found : database.ledger.find? fun row => row.version = migration.version with
    | none =>
      have absent := List.find?_eq_none.mp found row inLedger
      exact absurd (decide_eq_true (congrArg Prod.fst same)) absent
    | some row =>
      have version : row.version = migration.version := by simpa using List.find?_some found
      obtain ⟨other, front, key⟩ := recorded row (List.mem_of_find?_eq_some found)
      obtain ⟨versions, names⟩ := Prod.mk.inj key
      have equal := valid.eq_of_version (List.mem_of_mem_take front) mem (versions.trans version)
      exact ⟨row, rfl, names.symm.trans (congrArg Migration.name equal)⟩
  · intro behind
    rw [List.find?_eq_none]
    intro row inLedger same
    have version : row.version = migration.version := of_decide_eq_true same
    obtain ⟨other, front, key⟩ := recorded row inLedger
    have back : migration ∈ migrations.drop j := by
      refine List.mem_of_getElem? (i := p - j) ?_
      rw [List.getElem?_drop, Nat.add_sub_cancel' behind, there]
    have ordered := valid.ascending
    rw [← List.take_append_drop j migrations, List.pairwise_append] at ordered
    exact absurd ((congrArg Prod.fst key).trans version) (ne_of_lt (ordered.2.2 other front migration back))

/-- What a process is at, when the first `j` migrations are committed. -/
def PhaseOk (effect : String → σ → Option σ) (migrations : List Migration) (j : Nat)
    (lock : Option (Nat × Database σ)) (committed : Database σ) (p : Nat) : Phase → Prop
  | .creating | .reading | .failed => True
  | .migrating pending => ∃ i ≤ j, pending = migrations.drop i
  | .checking migration pending =>
    lock = some (p, committed) ∧ ∃ i ≤ j, migrations.drop i = migration :: pending
  | .executing migration pending => lock = some (p, committed) ∧ migrations.drop j = migration :: pending
  | .recording migration _ pending =>
    migrations.drop j = migration :: pending ∧ ∃ schema, effect migration.sql committed.schema = some schema ∧
      lock = some (p, { committed with schema })
  | .committing pending =>
    (lock = some (p, committed) ∧ ∃ i ≤ j, pending = migrations.drop i) ∨
      ∃ migration database, migrations.drop j = migration :: pending ∧
        Applies effect migration committed database ∧ lock = some (p, database)
  | .rollingBack => ∃ database, lock = some (p, database)
  | .done applied => j = migrations.length ∧ applied = migrations.map Migration.version

structure Inv (effect : String → σ → Option σ) (migrations : List Migration) (first : Database σ) (k j : Nat)
    (s : State σ) : Prop where
  committed : At effect migrations first k j s.committed
  processes : s.processes.Forall (PhaseOk effect migrations j s.lock s.committed)

theorem PhaseOk.other {j j' : Nat} {lock lock' : Option (Nat × Database σ)} {committed committed' : Database σ}
    {p q : Nat} {phase : Phase} (ok : PhaseOk effect migrations j lock committed q phase)
    (free : ∀ owner database, lock = some (owner, database) → owner = p) (differs : q ≠ p) (le : j ≤ j')
    (within : j' ≤ migrations.length) : PhaseOk effect migrations j' lock' committed' q phase := by
  cases phase with
  | creating => trivial
  | reading => trivial
  | failed => trivial
  | migrating pending =>
    obtain ⟨i, before, rest⟩ := ok
    exact ⟨i, before.trans le, rest⟩
  | checking migration pending => exact absurd (free _ _ ok.1) differs
  | executing migration pending => exact absurd (free _ _ ok.1) differs
  | recording migration appliedAt pending =>
    obtain ⟨_, _, _, mine⟩ := ok
    exact absurd (free _ _ mine) differs
  | committing pending =>
    rcases ok with ⟨mine, _⟩ | ⟨_, _, _, _, mine⟩
    · exact absurd (free _ _ mine) differs
    · exact absurd (free _ _ mine) differs
  | rollingBack =>
    obtain ⟨_, mine⟩ := ok
    exact absurd (free _ _ mine) differs
  | done applied =>
    obtain ⟨all, versions⟩ := ok
    exact ⟨by omega, versions⟩

theorem Inv.enter {j p : Nat} {s : State σ} {phase : Phase} (inv : Inv effect migrations first k j s)
    (ok : PhaseOk effect migrations j s.lock s.committed p phase) :
    Inv effect migrations first k j (s.enter p phase) :=
  ⟨inv.committed, inv.processes.put ok⟩

theorem Inv.locked {j j' p : Nat} {s : State σ} {phase : Phase} {lock' : Option (Nat × Database σ)}
    {committed' : Database σ} (inv : Inv effect migrations first k j s)
    (free : ∀ owner database, s.lock = some (owner, database) → owner = p)
    (le : j ≤ j') (committed : At effect migrations first k j' committed')
    (ok : PhaseOk effect migrations j' lock' committed' p phase) :
    Inv effect migrations first k j' { s.enter p phase with lock := lock', committed := committed' } := by
  refine ⟨committed, fun q other here => ?_⟩
  rcases Calls.put_eq_some here with ⟨rfl, rfl⟩ | ⟨differs, old⟩
  · exact ok
  · exact (inv.processes q other old).other free differs le committed.within

theorem transaction_eq_some {s : State σ} {p : Nat} {database : Database σ}
    (h : s.transaction p = some database) : s.lock = some (p, database) := by
  unfold State.transaction at h
  cases locked : s.lock with
  | none => rw [locked] at h; cases h
  | some held =>
    obtain ⟨owner, held⟩ := held
    rw [locked] at h
    dsimp only at h
    split_ifs at h with mine
    cases h
    rw [mine]

theorem orderedInsert_last {row : Row} {ledger : List Row} (last : ∀ old ∈ ledger, old.version < row.version) :
    ledger.orderedInsert (fun a b => a.version ≤ b.version) row = ledger ++ [row] := by
  induction ledger with
  | nil => rfl
  | cons old ledger ih =>
    rw [List.forall_mem_cons] at last
    rw [List.orderedInsert_cons, if_neg (not_le.mpr last.1), ih last.2]
    rfl

theorem insertRow_at {j : Nat} {database : Database σ} {migration : Migration} {pending : List Migration}
    (valid : Valid migrations) (at' : At effect migrations first k j database)
    (next : migrations.drop j = migration :: pending) {appliedAt : String} {ledger : List Row}
    (h : insertRow ⟨migration.version, migration.name, appliedAt⟩ database.ledger = some ledger) :
    ledger = database.ledger ++ [⟨migration.version, migration.name, appliedAt⟩] := by
  unfold insertRow at h
  split_ifs at h
  cases h
  refine orderedInsert_last fun old mem => ?_
  have version : old.version ∈ (migrations.take j).map Migration.version := at'.versions ▸ List.mem_map_of_mem mem
  obtain ⟨other, front, same⟩ := List.mem_map.mp version
  have ordered := valid.ascending
  rw [← List.take_append_drop j migrations, List.pairwise_append, next] at ordered
  exact same ▸ ordered.2.2 other front migration List.mem_cons_self

theorem At.pending {j : Nat} {database : Database σ} (valid : Valid migrations)
    (at' : At effect migrations first k j database) :
    (migrations.filter fun migration => migration.version ∉ database.ledger.map Row.version) = migrations.drop j := by
  have ordered := valid.ascending
  rw [← List.take_append_drop j migrations, List.pairwise_append] at ordered
  have front : (migrations.take j).filter (fun migration =>
      migration.version ∉ (migrations.take j).map Migration.version) = [] := by
    refine List.filter_eq_nil_iff.mpr fun migration mem absent => ?_
    exact of_decide_eq_true absent (List.mem_map_of_mem mem)
  have back : (migrations.drop j).filter (fun migration =>
      migration.version ∉ (migrations.take j).map Migration.version) = migrations.drop j := by
    refine List.filter_eq_self.mpr fun migration mem => decide_eq_true fun there => ?_
    obtain ⟨other, taken, same⟩ := List.mem_map.mp there
    exact absurd same (ne_of_lt (ordered.2.2 other taken migration mem))
  rw [at'.versions]
  calc migrations.filter (fun migration => migration.version ∉ (migrations.take j).map Migration.version)
    _ = (migrations.take j ++ migrations.drop j).filter fun migration =>
          migration.version ∉ (migrations.take j).map Migration.version := by
        rw [List.take_append_drop]
    _ = migrations.drop j := by rw [List.filter_append, front, back, List.nil_append]

theorem step_inv {j : Nat} {s t : State σ} {a : Action} (valid : Valid migrations)
    (inv : Inv effect migrations first k j s) (h : step effect migrations s a = some t) :
    (t.committed = s.committed ∧ Inv effect migrations first k j t) ∨
      ∃ migration ∈ migrations, Applies effect migration s.committed t.committed ∧
        Inv effect migrations first k (j + 1) t := by
  cases a with
  | start p =>
    refine .inl ?_
    rw [step] at h
    split_ifs at h with absent
    cases validated : validateMigrations migrations with
    | error error =>
      rw [validated] at h
      cases h
      exact ⟨rfl, inv.enter trivial⟩
    | ok u =>
      rw [validated] at h
      cases h
      exact ⟨rfl, inv.enter trivial⟩
  | create p =>
    refine .inl ?_
    rw [step] at h
    split at h
    · cases h
      exact ⟨rfl, inv.enter trivial⟩
    · cases h
  | read p =>
    refine .inl ?_
    rw [step] at h
    split at h
    · split at h
      · cases h
        exact ⟨rfl, inv.enter trivial⟩
      · next applied read =>
        cases h
        obtain ⟨rfl, _⟩ := (readAppliedMigrations_iff valid (inv.committed.sorted valid) applied).mp read
        exact ⟨rfl, inv.enter ⟨j, Nat.le_refl j, inv.committed.pending valid⟩⟩
    · cases h
  | begin p =>
    refine .inl ?_
    rw [step] at h
    split at h
    · next migration pending here free =>
      cases h
      obtain ⟨i, le, rest⟩ := inv.processes p _ here
      refine ⟨rfl, inv.locked (fun _ _ mine => ?_) (Nat.le_refl j) inv.committed ⟨rfl, i, le, rest.symm⟩⟩
      rw [free] at mine
      cases mine
    · cases h
  | check p =>
    refine .inl ?_
    rw [step] at h
    split at h
    · next migration pending database here seen =>
      obtain ⟨locked, i, le, rest⟩ := inv.processes p _ here
      obtain ⟨_, rfl⟩ := Prod.mk.inj (Option.some.inj (locked.symm.trans (transaction_eq_some seen)))
      obtain ⟨earlier, later⟩ := inv.committed.found valid rest
      split at h
      · next absent =>
        cases h
        have here : i = j := by
          refine Nat.le_antisymm le (Nat.le_of_not_lt fun before => ?_)
          obtain ⟨row, found, _⟩ := earlier before
          rw [absent] at found
          cases found
        subst here
        exact ⟨rfl, inv.enter ⟨locked, rest⟩⟩
      · next row found =>
        have before : i < j := by
          by_contra behind
          rw [later (by omega)] at found
          cases found
        obtain ⟨row', found', same⟩ := earlier before
        cases found.symm.trans found'
        rw [if_pos same] at h
        cases h
        refine ⟨rfl, inv.enter (.inl ⟨locked, i + 1, before, ?_⟩)⟩
        rw [← List.drop_drop, rest]
        rfl
    · cases h
  | execute p appliedAt =>
    refine .inl ?_
    rw [step] at h
    split at h
    · next migration pending database here seen =>
      obtain ⟨locked, rest⟩ := inv.processes p _ here
      obtain ⟨_, rfl⟩ := Prod.mk.inj (Option.some.inj (locked.symm.trans (transaction_eq_some seen)))
      split_ifs at h
      obtain ⟨schema, applied, rfl⟩ := Option.map_eq_some_iff.mp h
      refine ⟨rfl, inv.locked (fun owner _ mine => ?_) (Nat.le_refl j) inv.committed ⟨rest, schema, applied, rfl⟩⟩
      rw [locked] at mine
      exact (Prod.mk.inj (Option.some.inj mine)).1.symm
    · cases h
  | insert p =>
    refine .inl ?_
    rw [step] at h
    split at h
    · next migration appliedAt pending database here seen =>
      obtain ⟨rest, schema, applied, locked⟩ := inv.processes p _ here
      obtain ⟨_, rfl⟩ := Prod.mk.inj (Option.some.inj (locked.symm.trans (transaction_eq_some seen)))
      obtain ⟨ledger, inserted, rfl⟩ := Option.map_eq_some_iff.mp h
      obtain rfl := insertRow_at valid inv.committed rest inserted
      refine ⟨rfl, inv.locked (fun owner _ mine => ?_) (Nat.le_refl j) inv.committed (.inr ⟨migration,
          ⟨schema, s.committed.ledger ++ [⟨migration.version, migration.name, appliedAt⟩]⟩, rest,
          ⟨applied, appliedAt, rfl⟩, rfl⟩)⟩
      rw [locked] at mine
      exact (Prod.mk.inj (Option.some.inj mine)).1.symm
    · cases h
  | commit p =>
    rw [step] at h
    split at h
    · next pending database here seen =>
      cases h
      have free : ∀ owner held, s.lock = some (owner, held) → owner = p := by
        intro owner held mine
        rw [transaction_eq_some seen] at mine
        exact (Prod.mk.inj (Option.some.inj mine)).1.symm
      rcases inv.processes p _ here with ⟨locked, i, le, rest⟩ | ⟨migration, database', rest, applies, locked⟩
      · obtain ⟨_, rfl⟩ := Prod.mk.inj (Option.some.inj (locked.symm.trans (transaction_eq_some seen)))
        exact .inl ⟨rfl, inv.locked free (Nat.le_refl j) inv.committed ⟨i, le, rest⟩⟩
      · obtain ⟨_, rfl⟩ := Prod.mk.inj (Option.some.inj (locked.symm.trans (transaction_eq_some seen)))
        have mem : migration ∈ migrations := List.mem_of_mem_drop (rest ▸ List.mem_cons_self)
        refine .inr ⟨migration, mem, applies, inv.locked free (Nat.le_succ j) (inv.committed.next rest applies)
          ⟨j + 1, Nat.le_refl _, ?_⟩⟩
        rw [← List.drop_drop, rest]
        rfl
    · cases h
  | rollback p succeeds =>
    refine .inl ?_
    rw [step] at h
    split at h
    · next here =>
      cases h
      obtain ⟨database, locked⟩ := inv.processes p _ here
      refine ⟨rfl, inv.locked (fun owner _ mine => ?_) (Nat.le_refl j) inv.committed trivial⟩
      rw [locked] at mine
      exact (Prod.mk.inj (Option.some.inj mine)).1.symm
    · cases h
  | finish p =>
    refine .inl ?_
    rw [step] at h
    split at h
    · next here =>
      obtain ⟨i, le, rest⟩ := inv.processes p _ here
      split at h
      · cases h
        exact ⟨rfl, inv.enter trivial⟩
      · next applied read =>
        cases h
        have all : j = migrations.length := by
          have short := congrArg List.length rest
          rw [List.length_drop, List.length_nil] at short
          have within := inv.committed.within
          omega
        obtain ⟨rfl, _⟩ := (readAppliedMigrations_iff valid (inv.committed.sorted valid) applied).mp read
        refine ⟨rfl, inv.enter ⟨all, ?_⟩⟩
        rw [inv.committed.versions, all, List.take_length]
    · cases h
  | fail p =>
    refine .inl ?_
    rw [step] at h
    split at h
    · cases h
      exact ⟨rfl, inv.enter trivial⟩
    · cases h
      exact ⟨rfl, inv.enter trivial⟩
    · cases h
      exact ⟨rfl, inv.enter trivial⟩
    · next here =>
      cases h
      exact ⟨rfl, inv.enter ⟨_, (inv.processes p _ here).1⟩⟩
    · next here =>
      cases h
      exact ⟨rfl, inv.enter ⟨_, (inv.processes p _ here).1⟩⟩
    · next here =>
      cases h
      obtain ⟨_, _, _, locked⟩ := inv.processes p _ here
      exact ⟨rfl, inv.enter ⟨_, locked⟩⟩
    · next here =>
      cases h
      rcases inv.processes p _ here with ⟨locked, _⟩ | ⟨_, _, _, _, locked⟩
      · exact ⟨rfl, inv.enter ⟨_, locked⟩⟩
      · exact ⟨rfl, inv.enter ⟨_, locked⟩⟩
    · cases h

theorem start_inv (consistent : first.ledger.map Row.key = keys (migrations.take k)) (within : k ≤ migrations.length) :
    Inv effect migrations first k k { committed := first } := by
  refine ⟨⟨Nat.le_refl k, within, consistent, List.prefix_refl _, ?_⟩, fun p phase here => nomatch here⟩
  have whole : (migrations.take k).drop k = [] := by
    rw [List.drop_eq_nil_iff, List.length_take]
    exact Nat.min_le_left _ _
  rw [whole]
  rfl

structure Refused (first : Database σ) (s : State σ) : Prop where
  committed : s.committed = first
  lock : s.lock = none
  processes : s.processes.Forall fun _ phase => phase = .creating ∨ phase = .reading ∨ phase = .failed

theorem Refused.enter {s : State σ} {phase : Phase} (refused : Refused first s) (p : Nat)
    (ok : phase = .creating ∨ phase = .reading ∨ phase = .failed) : Refused first (s.enter p phase) :=
  ⟨refused.committed, refused.lock, refused.processes.put ok⟩

theorem step_refused {s t : State σ} {a : Action} (valid : Valid migrations) (sorted : Sorted first.ledger)
    (gap : ¬ Consistent migrations first.ledger) (refused : Refused first s)
    (h : step effect migrations s a = some t) : Refused first t := by
  have only : ∀ p phase, s.processes p = some phase → phase = .creating ∨ phase = .reading ∨ phase = .failed :=
    refused.processes
  have outside : ∀ p, s.transaction p = none := by
    intro p
    rw [State.transaction, refused.lock]
  have rejected : ∀ applied, readAppliedMigrations s.committed.ledger migrations ≠ .ok applied := by
    intro applied read
    rw [refused.committed] at read
    exact gap ((readAppliedMigrations_iff valid sorted applied).mp read).2
  cases a with
  | start p =>
    rw [step] at h
    split_ifs at h
    split at h
    · cases h
      exact refused.enter p (.inr (.inr rfl))
    · cases h
      exact refused.enter p (.inl rfl)
  | create p =>
    rw [step] at h
    split at h
    · cases h
      exact refused.enter p (.inr (.inl rfl))
    · cases h
  | read p =>
    rw [step] at h
    split at h
    · split at h
      · cases h
        exact refused.enter p (.inr (.inr rfl))
      · next applied read => exact absurd read (rejected applied)
    · cases h
  | begin p =>
    rw [step] at h
    split at h
    · next here _ => exact absurd (only p _ here) (by simp)
    · cases h
  | check p =>
    rw [step, outside] at h
    split at h
    · next seen => cases seen
    · cases h
  | execute p appliedAt =>
    rw [step, outside] at h
    split at h
    · next seen => cases seen
    · cases h
  | insert p =>
    rw [step, outside] at h
    split at h
    · next seen => cases seen
    · cases h
  | commit p =>
    rw [step, outside] at h
    split at h
    · next seen => cases seen
    · cases h
  | rollback p succeeds =>
    rw [step] at h
    split at h
    · next here => exact absurd (only p _ here) (by simp)
    · cases h
  | finish p =>
    rw [step] at h
    split at h
    · next here => exact absurd (only p _ here) (by simp)
    · cases h
  | fail p =>
    rw [step] at h
    split at h
    · cases h
      exact refused.enter p (.inr (.inr rfl))
    · cases h
      exact refused.enter p (.inr (.inr rfl))
    · cases h
      exact refused.enter p (.inr (.inr rfl))
    · next here => exact absurd (only p _ here) (by simp)
    · next here => exact absurd (only p _ here) (by simp)
    · next here => exact absurd (only p _ here) (by simp)
    · next here => exact absurd (only p _ here) (by simp)
    · cases h

end

/-- A failure of a process: a statement or the transaction, or what follows it. -/
def Action.fails (a : Action) : Prop := ∃ p, a = .fail p ∨ ∃ succeeds, a = .rollback p succeeds

structure MigrationLaw (first : Database σ) (s : State σ) : Prop where
  applied : ∀ k ≤ migrations.length, first.ledger.map Row.key = keys (migrations.take k) →
    ∃ j, At effect migrations first k j s.committed
  atomic : ∀ a t, step effect migrations s a = some t → t.committed = s.committed ∨
    ∃ migration ∈ migrations, Applies effect migration s.committed t.committed
  failed : ∀ a t, step effect migrations s a = some t → a.fails → t.committed = s.committed
  released : ∀ p t, step effect migrations s (.rollback p true) = some t → t.lock = none
  rejected : ¬ Consistent migrations first.ledger → s.committed = first ∧
    ∀ p phase, s.processes p = some phase → phase = .creating ∨ phase = .reading ∨ phase = .failed
  complete : ∀ p applied, s.processes p = some (.done applied) →
    s.committed.ledger.map Row.key = keys migrations ∧ applied = migrations.map Migration.version

/-- Whatever the processes do and whatever fails. -/
theorem migrations_applied (valid : validateMigrations migrations = .ok ()) (first : Database σ)
    (sorted : Sorted first.ledger) (as : List Action) (s : State σ)
    (run : Run (step effect migrations) Free { committed := first } as s) :
    MigrationLaw effect migrations first s := by
  have ok := valid_of_validate valid
  have failed : ∀ a t, step effect migrations s a = some t → a.fails → t.committed = s.committed := by
    rintro a t h ⟨p, rfl | ⟨succeeds, rfl⟩⟩
    · rw [step] at h
      split at h <;> first | (obtain rfl := Option.some.inj h; rfl) | cases h
    · rw [step] at h
      split at h
      · cases h
        rfl
      · cases h
  have released : ∀ p t, step effect migrations s (.rollback p true) = some t → t.lock = none := by
    intro p t h
    rw [step] at h
    split at h
    · cases h
      rfl
    · cases h
  by_cases consistent : Consistent migrations first.ledger
  · obtain ⟨k, within, prefixed⟩ := consistent
    have reached : ∀ k ≤ migrations.length, first.ledger.map Row.key = keys (migrations.take k) →
        ∃ j, Inv effect migrations first k j s := by
      intro k within prefixed
      have preserved : ∀ (s : State σ) (a : Action) (t : State σ),
          (∃ j, Inv effect migrations first k j s) → Free s a →
          step effect migrations s a = some t → ∃ j, Inv effect migrations first k j t := by
        rintro s a t ⟨j, inv⟩ _ h
        rcases step_inv ok inv h with ⟨_, next⟩ | ⟨_, _, _, next⟩
        · exact ⟨j, next⟩
        · exact ⟨j + 1, next⟩
      exact run.invariant preserved ⟨k, start_inv prefixed within⟩
    obtain ⟨j, inv⟩ := reached k within prefixed
    refine ⟨fun k within prefixed => ?_, fun a t h => ?_, failed, released,
      fun gap => absurd ⟨k, within, prefixed⟩ gap, fun p applied here => ?_⟩
    · obtain ⟨j, inv⟩ := reached k within prefixed
      exact ⟨j, inv.committed⟩
    · rcases step_inv ok inv h with ⟨same, _⟩ | ⟨migration, mem, applies, _⟩
      · exact .inl same
      · exact .inr ⟨migration, mem, applies⟩
    · obtain ⟨all, versions⟩ := inv.processes p _ here
      refine ⟨?_, versions⟩
      rw [inv.committed.ledger, all, List.take_length]
  · have preserved : ∀ (s : State σ) (a : Action) (t : State σ), Refused first s → Free s a →
        step effect migrations s a = some t → Refused first t :=
      fun s a t refused _ h => step_refused ok sorted consistent refused h
    have refused : Refused first s := run.invariant preserved ⟨rfl, rfl, fun p phase here => nomatch here⟩
    refine ⟨fun k within prefixed => absurd ⟨k, within, prefixed⟩ consistent, fun a t h => ?_, failed, released,
      fun _ => ⟨refused.committed, refused.processes⟩, fun p applied here => ?_⟩
    · have next := step_refused ok sorted consistent refused h
      exact .inl (next.committed.trans refused.committed.symm)
    · exact absurd (refused.processes p _ here) (by simp)

def statements (sql : String) (schema : List String) : Option (List String) :=
  if sql = "fails" then none else some (schema ++ [sql])

def two : List Migration := [⟨1, "users", "one"⟩, ⟨2, "teams", "two"⟩]

/-- A process that fails inside its transaction, and another that applies both. -/
def rivals : List Action :=
  [.start 0, .start 1, .create 0, .create 1, .read 0, .read 1, .begin 0, .check 0, .execute 0 "now", .fail 0,
    .rollback 0 true, .begin 1, .check 1, .execute 1 "now", .insert 1, .commit 1, .begin 1, .check 1, .execute 1 "now",
    .insert 1, .commit 1, .finish 1]

theorem migrations_applied_rivals : ∃ s, exec (step statements two) { committed := ⟨[], []⟩ } rivals = some s ∧
    MigrationLaw statements two ⟨[], []⟩ s ∧ s.committed.schema = ["one", "two"] ∧
    s.processes 1 = some (.done [1, 2]) := by
  have ends : ((exec (step statements two) { committed := ⟨[], []⟩ } rivals).map fun s =>
      (s.committed.schema, s.processes 1)) = some (["one", "two"], some (.done [1, 2])) := by decide +kernel
  obtain ⟨s, run, same⟩ := Option.map_eq_some_iff.mp ends
  obtain ⟨schema, done⟩ := Prod.mk.inj same
  exact ⟨s, run, migrations_applied statements two (by decide +kernel) ⟨[], []⟩ List.Pairwise.nil rivals s
    (run_of_exec run), schema, done⟩

end Migrations
