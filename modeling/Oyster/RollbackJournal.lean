import Oyster.Interleaving
import Oyster.OrderedMap

/-! The journal of one rollback: a row of the database that says how far the work has come, and a copy of
it in memory against which every call is checked. The copy is brought up to date when the write has
been awaited, so a call that is made before that is checked against the state before it. -/
namespace RollbackJournal
open Interleaving

inductive Stage where
  | persisted
  | safetyCheckpointed
  | sessionForked
  | gitReset
  | inheritanceRecorded
  | runnerOpened
  | completed
  deriving DecidableEq

/-- `NEXT_STAGE`. -/
def Stage.next : Stage → Option Stage
  | .persisted => some .safetyCheckpointed
  | .safetyCheckpointed => some .sessionForked
  | .sessionForked => some .gitReset
  | .gitReset => some .inheritanceRecorded
  | .inheritanceRecorded => some .runnerOpened
  | .runnerOpened => some .completed
  | .completed => none

inductive Status where
  | running
  | completed
  | failed
  deriving DecidableEq

/-- What the serialization makes of a property: its value, nothing (`undefined`), or an error. -/
inductive Field (ν : Type) where
  | json (value : ν)
  | omitted
  | unserializable

inductive Details (ν : Type) where
  | none
  | notObject
  | object (fields : List (String × Field ν))

/-- The stage of an advance is `none` for a text that is no stage. -/
inductive Call (ν : Type) where
  | advance (nextStage : Option Stage) (details : Details ν)
  | complete (details : Details ν)
  | fail (message : String)

inductive Refusal where
  | already (status : Status)
  | cannotAdvance (stage : Stage)
  | cannotComplete (stage : Stage)
  | detailsNotObject
  | replacesIdentity
  | notSerializable
  | blankTimestamp

structure Memory (ν : Type) where
  stage : Stage
  status : Status
  payload : OrderedMap String ν

structure Row (ν : Type) where
  stage : Stage
  status : Status
  payload : OrderedMap String ν
  error : Option String
  updatedAt : String

/-- An update that has been handed to the database, with the details of its call. -/
structure Write (ν : Type) where
  row : Row ν
  details : Details ν

/-- `outcome` tells whether the database has executed the update, and how. -/
structure InFlight (ν : Type) where
  write : Write ν
  outcome : Option Bool := none

structure State (ν : Type) where
  memory : Memory ν
  row : Row ν
  inFlight : List (InFlight ν) := []

variable {ν : Type}

def Row.memory (row : Row ν) : Memory ν := ⟨row.stage, row.status, row.payload⟩

def identityFields : List String := ["reference", "hash", "dir"]

/-- The spread of one more property, after serialization. -/
def put (payload : OrderedMap String ν) (field : String × Field ν) : OrderedMap String ν :=
  match field.2 with
  | .json value => payload.set field.1 value
  | _ => payload.delete field.1

/-- `mergeDetails` and the snapshot of what it gives. -/
def mergeDetails (payload : OrderedMap String ν) : Details ν → Except Refusal (OrderedMap String ν)
  | .none => .ok payload
  | .notObject => .error .detailsNotObject
  | .object fields =>
    if fields.any fun field => identityFields.contains field.1 then .error .replacesIdentity
    else if fields.any fun field => field.2 matches .unserializable then .error .notSerializable
    else .ok (fields.foldl put payload)

/-- `write`, up to the update of the row. -/
def prepareWrite (memory : Memory ν) (nextStatus : Status) (nextStage : Option Stage) (error : Option String)
    (details : Details ν) (clock : Option String) : Except Refusal (Write ν) := do
  if memory.status ≠ .running then throw (.already memory.status)
  if nextStatus = .running ∧ (nextStage = none ∨ nextStage ≠ memory.stage.next) then
    throw (.cannotAdvance memory.stage)
  if nextStatus = .completed ∧ (nextStage ≠ some .completed ∨ memory.stage.next ≠ some .completed) then
    throw (.cannotComplete memory.stage)
  let payload ← mergeDetails memory.payload details
  match clock with
  | none => throw .blankTimestamp
  | some updatedAt =>
    pure ⟨⟨nextStage.getD memory.stage, nextStatus, payload, error, updatedAt⟩, details⟩

def prepare (memory : Memory ν) (call : Call ν) (clock : Option String) : Except Refusal (Write ν) :=
  match call with
  | .advance nextStage details => prepareWrite memory .running nextStage none details clock
  | .complete details => prepareWrite memory .completed (some .completed) none details clock
  | .fail message => prepareWrite memory .failed (some memory.stage) (some message) .none clock

inductive Action (ν : Type) where
  | call (call : Call ν) (clock : Option String)
  | execute (succeeds : Bool)
  | resume (i : Nat)

def executeFirst (succeeds : Bool) : List (InFlight ν) → Option (Write ν × List (InFlight ν))
  | [] => none
  | f :: rest =>
    if f.outcome = none then some (f.write, { f with outcome := some succeeds } :: rest)
    else (executeFirst succeeds rest).map fun found => (found.1, f :: found.2)

def step (s : State ν) : Action ν → Option (State ν)
  | .call call clock =>
    match prepare s.memory call clock with
    | .error _ => some s
    | .ok write => some { s with inFlight := s.inFlight ++ [{ write }] }
  | .execute succeeds =>
    (executeFirst succeeds s.inFlight).map fun found =>
      { s with row := if succeeds then found.1.row else s.row, inFlight := found.2 }
  | .resume i =>
    match s.inFlight[i]? with
    | some ⟨write, some succeeds⟩ =>
      some { s with
        memory := if succeeds then write.row.memory else s.memory
        inFlight := s.inFlight.eraseIdx i }
    | _ => none

def initialPayload (reference hash dir : ν) : OrderedMap String ν :=
  ((OrderedMap.empty.set "reference" reference).set "hash" hash).set "dir" dir

def start (reference hash dir : ν) (createdAt : String) : State ν where
  memory := ⟨.persisted, .running, initialPayload reference hash dir⟩
  row := ⟨.persisted, .running, initialPayload reference hash dir, none, createdAt⟩

def Details.names (key : String) : Details ν → Prop
  | .object fields => ∃ field ∈ fields, field.1 = key
  | _ => False

variable {key : String}

theorem get_delete_of_ne (m : OrderedMap String ν) {k : String} (other : key ≠ k) :
    (m.delete k).get key = m.get key := by
  apply Option.ext
  intro v
  rw [OrderedMap.get_eq_some_iff, OrderedMap.get_eq_some_iff, OrderedMap.mem_delete]
  exact and_iff_right other

variable {payload : OrderedMap String ν}

theorem put_get {field : String × Field ν} (other : field.1 ≠ key) :
    (put payload field).get key = payload.get key := by
  unfold put
  cases field.2 with
  | json value => exact payload.get_set_of_ne value (Ne.symm other)
  | omitted => exact get_delete_of_ne payload (Ne.symm other)
  | unserializable => exact get_delete_of_ne payload (Ne.symm other)

theorem foldl_put_get {fields : List (String × Field ν)} (other : ∀ field ∈ fields, field.1 ≠ key) :
    (fields.foldl put payload).get key = payload.get key := by
  induction fields generalizing payload with
  | nil => rfl
  | cons field fields ih =>
    rw [List.forall_mem_cons] at other
    rw [List.foldl_cons, ih other.2, put_get other.1]

variable {details : Details ν}

theorem mergeDetails_get {merged : OrderedMap String ν} (h : mergeDetails payload details = .ok merged)
    (other : ¬ details.names key) : merged.get key = payload.get key := by
  cases details with
  | none =>
    cases h
    rfl
  | notObject => cases h
  | object fields =>
    rw [mergeDetails] at h
    split_ifs at h
    cases h
    exact foldl_put_get fun field mem same => other ⟨field, mem, same⟩

structure Prepared (memory : Memory ν) (write : Write ν) : Prop where
  running : memory.status = .running
  stage : write.row.stage = memory.stage ∧ write.row.status = .failed ∨ memory.stage.next = some write.row.stage
  keeps : ∀ key, ¬ write.details.names key → write.row.payload.get key = memory.payload.get key

variable {memory : Memory ν} {clock : Option String} {write : Write ν}

theorem prepareWrite_ok {nextStatus : Status} {nextStage : Option Stage} {error : Option String}
    (h : prepareWrite memory nextStatus nextStage error details clock = .ok write) : memory.status = .running ∧
      ¬ (nextStatus = .running ∧ (nextStage = none ∨ nextStage ≠ memory.stage.next)) ∧
      ¬ (nextStatus = .completed ∧ (nextStage ≠ some .completed ∨ memory.stage.next ≠ some .completed)) ∧
      ∃ payload updatedAt, mergeDetails memory.payload details = .ok payload ∧
        write = ⟨⟨nextStage.getD memory.stage, nextStatus, payload, error, updatedAt⟩, details⟩ := by
  unfold prepareWrite at h
  by_cases running : memory.status ≠ .running
  · rw [if_pos running] at h
    cases h
  by_cases advances : nextStatus = .running ∧ (nextStage = none ∨ nextStage ≠ memory.stage.next)
  · rw [if_neg running, if_pos advances] at h
    cases h
  by_cases completes : nextStatus = .completed ∧ (nextStage ≠ some .completed ∨ memory.stage.next ≠ some .completed)
  · rw [if_neg running, if_neg advances, if_pos completes] at h
    cases h
  rw [if_neg running, if_neg advances, if_neg completes] at h
  cases merge : mergeDetails memory.payload details with
  | error refusal =>
    rw [merge] at h
    cases h
  | ok payload =>
    rw [merge] at h
    cases clock with
    | none => cases h
    | some updatedAt =>
      cases h
      exact ⟨not_not.mp running, advances, completes, payload, updatedAt, rfl, rfl⟩

theorem prepare_ok {call : Call ν} (h : prepare memory call clock = .ok write) : Prepared memory write := by
  cases call with
  | advance nextStage details =>
    obtain ⟨running, advances, _, payload, updatedAt, merge, rfl⟩ := prepareWrite_ok h
    refine ⟨running, .inr ?_, fun key other => mergeDetails_get merge other⟩
    cases nextStage with
    | none => exact absurd ⟨rfl, .inl rfl⟩ advances
    | some stage => exact not_not.mp fun other => advances ⟨rfl, .inr fun same => other same.symm⟩
  | complete details =>
    obtain ⟨running, _, completes, payload, updatedAt, merge, rfl⟩ := prepareWrite_ok h
    refine ⟨running, .inr ?_, fun key other => mergeDetails_get merge other⟩
    exact not_not.mp fun other => completes ⟨rfl, .inr other⟩
  | fail message =>
    obtain ⟨running, _, _, payload, updatedAt, merge, rfl⟩ := prepareWrite_ok h
    exact ⟨running, .inl ⟨rfl, rfl⟩, fun key other => mergeDetails_get merge other⟩

end RollbackJournal
