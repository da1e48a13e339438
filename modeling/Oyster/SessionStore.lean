import Mathlib.Data.List.Nodup
import Oyster.SessionReference

/-! The tables of the application that hang on a session owner, and the statements
that deletion runs on them. Deleting an owner row cascades to the rows that carry
its id and takes the id off the operations. `created` and `lost` are history: the
time of an insertion, and the time at which an operation lost its owner row. -/
namespace SessionStore
open SessionReference

structure Owner where
  id : Nat
  reference : Reference
  deleting : Bool := false
  created : Nat

inductive Status where
  | running | interrupted | failed | completed
  deriving DecidableEq

inductive Stage where
  | persisted
  | runnersStopped
  | routinesStopped
  | agentDeleted
  | hublotsClosed
  | routinesDeleted
  | appResourcesDeleted
  | runtimeRemoved
  | completed
  deriving DecidableEq

/-- A journaled operation of the kind `delete_session`. -/
structure Operation where
  id : Nat
  ownerId : Option Nat
  status : Status
  stage : Stage
  error : Option String := none
  payload : Reference
  lost : Option Nat := none

inductive HublotStatus where
  | opening | «open» | recovering | closing | closed | failed | interrupted
  deriving DecidableEq

structure Hublot where
  id : Nat
  ownerId : Option Nat
  status : HublotStatus

/-- A routine, a pinned widget or a checkpoint. -/
structure Owned where
  id : Nat
  ownerId : Option Nat
  deriving DecidableEq

structure Store where
  owners : List Owner := []
  operations : List Operation := []
  hublots : List Hublot := []
  routines : List Owned := []
  widgets : List Owned := []
  checkpoints : List Owned := []

namespace Store
variable (store : Store)

/-- `sessions.find`. -/
def find (reference : Reference) : Option Owner :=
  store.owners.find? fun owner => owner.reference = reference

/-- The rowid that the next insertion gets: one more than the largest in use. -/
def nextOwnerId : Nat := (store.owners.map Owner.id).foldr max 0 + 1

/-- `sessions.upsert`. -/
def upsert (reference : Reference) (now : Nat) : Store × Owner :=
  match store.find reference with
  | some owner => (store, owner)
  | none =>
    let owner : Owner := { id := store.nextOwnerId, reference, created := now }
    ({ store with owners := store.owners ++ [owner] }, owner)

/-- `sessions.markDeleting` on a present row. -/
def markDeleting (ownerId : Nat) : Store :=
  { store with owners := store.owners.map fun owner =>
      if owner.id = ownerId then { owner with deleting := true } else owner }

def hasOwner (ownerId : Nat) : Bool := store.owners.any fun owner => owner.id = ownerId

/-- `sessions.delete` with the actions of the foreign keys. -/
def deleteOwner (ownerId : Nat) (now : Nat) : Store where
  owners := store.owners.filter fun owner => owner.id ≠ ownerId
  operations := store.operations.map fun op =>
    if op.ownerId = some ownerId then { op with ownerId := none, lost := some now } else op
  hublots := store.hublots.filter fun row => row.ownerId ≠ some ownerId
  routines := store.routines.filter fun row => row.ownerId ≠ some ownerId
  widgets := store.widgets.filter fun row => row.ownerId ≠ some ownerId
  checkpoints := store.checkpoints.filter fun row => row.ownerId ≠ some ownerId

def operation (id : Nat) : Option Operation := store.operations.find? fun op => op.id = id

/-- `operations.update` on a present row. -/
def updateOperation (id : Nat) (status : Status) (stage : Stage) (error : Option String) : Store :=
  { store with operations := store.operations.map fun op =>
      if op.id = id then { op with status, stage, error } else op }

/-- `operations.markRunningInterrupted`. -/
def markRunningInterrupted : Store :=
  { store with operations := store.operations.map fun op =>
      if op.status = .running then
        { op with
          status := .interrupted
          error := op.error.getD "server restarted during operation" }
      else op }

/-- `operations.listIncomplete`. -/
def listIncomplete : List Operation := store.operations.filter fun op => op.status ≠ .completed

def ownerOf (ownerId : Option Nat) : Option Owner :=
  ownerId.bind fun id => store.owners.find? fun owner => owner.id = id

def ofSession (ownerId : Option Nat) (sessionId : String) : Bool :=
  (store.ownerOf ownerId).any fun owner => owner.reference.id = sessionId

/-- The transitions of `closeSessionHublots`: its rows are all put to closing, and
to closed when their tunnels have stopped. -/
def closingTransitions (sessionId : String) : List (Hublot × HublotStatus) :=
  let rows := store.hublots.filter fun row =>
    store.ofSession row.ownerId sessionId && row.status ≠ .closed
  rows.map (·, .closing) ++ rows.map (·, .closed)

def recordHublotTransition (id : Nat) (status : HublotStatus) : Store :=
  { store with hublots := store.hublots.map fun row =>
      if row.id = id then { row with status } else row }

/-- `routines.list` by session. -/
def sessionRoutines (sessionId : String) : List Owned :=
  store.routines.filter fun row => store.ofSession row.ownerId sessionId

def deleteRoutines (rows : List Owned) : Store :=
  { store with routines := store.routines.filter fun row => row ∉ rows }

end Store

/-- The unique keys and the foreign key of the operations: an operation that has
an owner was made for the session of that owner. -/
structure Tables (codec : Codec) (store : Store) : Prop where
  positive : ∀ owner ∈ store.owners, 1 ≤ owner.id
  ids : (store.owners.map Owner.id).Nodup
  references : (store.owners.map Owner.reference).Nodup
  operationIds : (store.operations.map Operation.id).Nodup
  valid : ∀ op ∈ store.operations, ∃ reference, codec.validate op.payload = .ok reference
  owned : ∀ op ∈ store.operations, ∀ id, op.ownerId = some id →
    ∃ owner ∈ store.owners, owner.id = id ∧ codec.validate op.payload = .ok owner.reference

variable {codec : Codec} {store : Store} {owner : Owner}

theorem id_lt_nextOwnerId (h : owner ∈ store.owners) : owner.id < store.nextOwnerId := by
  have bound : ∀ ids : List Nat, owner.id ∈ ids → owner.id ≤ ids.foldr max 0 := by
    intro ids inside
    induction ids with
    | nil => cases inside
    | cons id ids ih =>
      rcases List.mem_cons.mp inside with same | later
      · rw [same]
        exact Nat.le_max_left ..
      · exact Nat.le_trans (ih later) (Nat.le_max_right ..)
  exact Nat.lt_succ_of_le (bound _ (List.mem_map_of_mem h))

variable {reference : Reference}

theorem find_eq_some (h : store.find reference = some owner) : owner ∈ store.owners ∧ owner.reference = reference :=
  ⟨List.mem_of_find?_eq_some h, by simpa using List.find?_some h⟩

theorem find_eq_none (h : store.find reference = none) : ∀ owner ∈ store.owners, owner.reference ≠ reference := by
  intro owner inside same
  exact List.find?_eq_none.mp h owner inside (by simpa using same)

variable {next : Store}

theorem Tables.mapOperations (h : Tables codec store) (f : Operation → Operation)
    (owners : next.owners = store.owners) (operations : next.operations = store.operations.map f)
    (keeps : ∀ op, (f op).id = op.id ∧ (f op).ownerId = op.ownerId ∧ (f op).payload = op.payload) :
    Tables codec next where
  positive := owners ▸ h.positive
  ids := owners ▸ h.ids
  references := owners ▸ h.references
  operationIds := by
    have same : Operation.id ∘ f = Operation.id := funext fun op => (keeps op).1
    rw [operations, List.map_map, same]
    exact h.operationIds
  valid := by
    intro op inside
    rw [operations] at inside
    obtain ⟨old, mem, rfl⟩ := List.mem_map.mp inside
    rw [(keeps old).2.2]
    exact h.valid old mem
  owned := by
    intro op inside id has
    rw [operations] at inside
    obtain ⟨old, mem, rfl⟩ := List.mem_map.mp inside
    rw [(keeps old).2.1] at has
    rw [(keeps old).2.2, owners]
    exact h.owned old mem id has

theorem Tables.frame (h : Tables codec store) (owners : next.owners = store.owners)
    (operations : next.operations = store.operations) : Tables codec next :=
  h.mapOperations id owners (by rw [operations, List.map_id]) fun _ => ⟨rfl, rfl, rfl⟩

theorem Tables.updateOperation (h : Tables codec store) (id : Nat) (status : Status) (stage : Stage)
    (error : Option String) : Tables codec (store.updateOperation id status stage error) := by
  refine h.mapOperations _ rfl rfl ?_
  intro op
  split_ifs <;> exact ⟨rfl, rfl, rfl⟩

theorem Tables.markRunningInterrupted (h : Tables codec store) :
    Tables codec store.markRunningInterrupted := by
  refine h.mapOperations _ rfl rfl ?_
  intro op
  split_ifs <;> exact ⟨rfl, rfl, rfl⟩

theorem Tables.markDeleting (h : Tables codec store) (ownerId : Nat) :
    Tables codec (store.markDeleting ownerId) := by
  have keeps : ∀ owner : Owner, (if owner.id = ownerId then { owner with deleting := true } else owner).id
      = owner.id ∧ (if owner.id = ownerId then { owner with deleting := true } else owner).reference
        = owner.reference := by
    intro owner
    split_ifs <;> exact ⟨rfl, rfl⟩
  refine ⟨?_, ?_, ?_, h.operationIds, h.valid, ?_⟩
  · intro owner inside
    obtain ⟨old, mem, rfl⟩ := List.mem_map.mp inside
    rw [(keeps old).1]
    exact h.positive old mem
  · have same := List.map_congr_left (l := store.owners) fun owner _ => (keeps owner).1
    simp only [Store.markDeleting, List.map_map]
    exact same ▸ h.ids
  · have same := List.map_congr_left (l := store.owners) fun owner _ => (keeps owner).2
    simp only [Store.markDeleting, List.map_map]
    exact same ▸ h.references
  · intro op inside id has
    obtain ⟨owner, mem, same, named⟩ := h.owned op inside id has
    refine ⟨_, List.mem_map_of_mem mem, (keeps owner).1.trans same, ?_⟩
    rw [(keeps owner).2]
    exact named

theorem Tables.upsert (h : Tables codec store) (reference : Reference) (now : Nat) :
    Tables codec (store.upsert reference now).1 := by
  unfold Store.upsert
  cases found : store.find reference with
  | some owner => exact h
  | none =>
    refine ⟨?_, ?_, ?_, h.operationIds, h.valid, ?_⟩
    · intro owner inside
      rcases List.mem_append.mp inside with old | new
      · exact h.positive owner old
      · obtain rfl := List.mem_singleton.mp new
        exact Nat.succ_pos _
    · simp only [List.map_append, List.map_singleton]
      refine List.nodup_append.mpr ⟨h.ids, List.nodup_singleton _, ?_⟩
      intro id inside other new
      obtain ⟨owner, mem, rfl⟩ := List.mem_map.mp inside
      obtain rfl := List.mem_singleton.mp new
      exact Nat.ne_of_lt (id_lt_nextOwnerId mem)
    · simp only [List.map_append, List.map_singleton]
      refine List.nodup_append.mpr ⟨h.references, List.nodup_singleton _, ?_⟩
      intro old inside other new
      obtain ⟨owner, mem, rfl⟩ := List.mem_map.mp inside
      obtain rfl := List.mem_singleton.mp new
      exact find_eq_none found owner mem
    · intro op inside id has
      obtain ⟨owner, mem, rest⟩ := h.owned op inside id has
      exact ⟨owner, List.mem_append_left _ mem, rest⟩

theorem Tables.deleteOwner (h : Tables codec store) (ownerId now : Nat) :
    Tables codec (store.deleteOwner ownerId now) where
  positive := fun owner inside => h.positive owner (List.mem_filter.mp inside).1
  ids := h.ids.sublist (List.filter_sublist.map Owner.id)
  references := h.references.sublist (List.filter_sublist.map Owner.reference)
  operationIds := by
    have same : (store.deleteOwner ownerId now).operations.map Operation.id = store.operations.map Operation.id := by
      simp only [Store.deleteOwner, List.map_map]
      apply List.map_congr_left
      intro op _
      simp only [Function.comp_apply]
      split_ifs <;> rfl
    exact same ▸ h.operationIds
  valid := by
    intro op inside
    obtain ⟨old, mem, rfl⟩ := List.mem_map.mp inside
    split_ifs <;> exact h.valid old mem
  owned := by
    intro op inside id has
    obtain ⟨old, mem, rfl⟩ := List.mem_map.mp inside
    by_cases own : old.ownerId = some ownerId
    · rw [if_pos own] at has
      cases has
    · rw [if_neg own] at has ⊢
      obtain ⟨owner, there, same, named⟩ := h.owned old mem id has
      refine ⟨owner, List.mem_filter.mpr ⟨there, ?_⟩, same, named⟩
      have other : owner.id ≠ ownerId := by
        rintro rfl
        exact own (same ▸ has)
      simpa using other

variable {op : Operation}

theorem Tables.create (h : Tables codec store) (fresh : ∀ old ∈ store.operations, old.id ≠ op.id)
    (present : owner ∈ store.owners) (same : op.ownerId = some owner.id)
    (named : codec.validate op.payload = .ok owner.reference) :
    Tables codec { store with operations := store.operations ++ [op] } where
  positive := h.positive
  ids := h.ids
  references := h.references
  operationIds := by
    simp only [List.map_append, List.map_singleton]
    refine List.nodup_append.mpr ⟨h.operationIds, List.nodup_singleton _, ?_⟩
    intro id inside other new
    obtain ⟨old, mem, rfl⟩ := List.mem_map.mp inside
    obtain rfl := List.mem_singleton.mp new
    exact fresh old mem
  valid := by
    intro old inside
    rcases List.mem_append.mp inside with mem | new
    · exact h.valid old mem
    · obtain rfl := List.mem_singleton.mp new
      exact ⟨_, named⟩
  owned := by
    intro old inside id has
    rcases List.mem_append.mp inside with mem | new
    · exact h.owned old mem id has
    · obtain rfl := List.mem_singleton.mp new
      cases same.symm.trans has
      exact ⟨owner, present, rfl, named⟩

theorem Tables.operation_unique (h : Tables codec store) {other : Operation} (hop : op ∈ store.operations)
    (hother : other ∈ store.operations) (same : op.id = other.id) : op = other :=
  List.inj_on_of_nodup_map h.operationIds hop hother same

theorem Tables.owner_unique (h : Tables codec store) {other : Owner} (howner : owner ∈ store.owners)
    (hother : other ∈ store.owners) (same : owner.id = other.id) : owner = other :=
  List.inj_on_of_nodup_map h.ids howner hother same

end SessionStore
