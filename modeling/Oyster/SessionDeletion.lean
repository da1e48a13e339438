import Oyster.Interleaving
import Oyster.SessionStore

/-! Session deletion: the journaled workflow of a request, and the reconciliation
that a start of the server makes of the operations that are not completed. The
workflow is cut at its awaits and may stop at each of them; a start reconciles
before anything else runs. What the dependencies do to rows they may do to only
the first few of them before they throw. Stops of runners and routines change none
of the tables here. `removals`, `listed` and `faulted` are history. -/
namespace SessionDeletion
open Interleaving SessionReference SessionStore Text

structure AgentSession where
  reference : Reference
  created : Nat
  deriving DecidableEq

structure Catalog where
  backend : Backend
  deletes : Backend → Bool

/-- A dependency throws after it has changed `done` rows. -/
structure Fault where
  message : String
  done : Nat

/-- What the check of a pending operation awaits. -/
inductive CheckPoint where
  | find
  | findById
  | deleteSession (done : Nat)

structure CheckFault where
  message : String
  point : CheckPoint

/-- Where a call of `deleteOwnedSession` stands: before its operation exists,
between two stages, after the work of the next stage, in its `catch`. -/
inductive Progress where
  | owned
  | ready
  | acted
  | failing (message : String)
  deriving DecidableEq

/-- `identity` is the validated reference. -/
structure Workflow where
  reference : Reference
  identity : Reference
  ownerId : Nat
  stage : Stage
  progress : Progress

/-- Where the body of the reconciling loop stands. -/
inductive Position where
  | checking
  | closing (reference : Reference)
  | deleting (reference : Reference)
  | committing (reference : Reference)
  | failing (message : String)

/-- The operations are those that `listIncomplete` has read; the loop is at the first. -/
structure Pass where
  catalog : Catalog
  pending : List Operation
  position : Position
  results : List (Nat × Option String)
  listed : List Nat
  faulted : List Nat

inductive Process where
  | stopped
  | reconciling (pass : Pass)
  | serving

inductive Kind where
  | hublot | routine | owner | agentSession
  deriving DecidableEq

/-- Something of the session `of` is closed or deleted by an operation for the
session `operation`, which lost its owner row at the time `lost`. -/
structure Removal where
  kind : Kind
  operation : Reference
  of : Reference
  created : Nat := 0
  lost : Option Nat := none
  deriving DecidableEq

structure State where
  store : Store := {}
  agent : List AgentSession := []
  clock : Nat := 0
  process : Process := .stopped
  workflows : Calls Workflow := fun _ => none
  removals : List Removal := []

inductive Action where
  -- the rest of the program, and the agents
  | ensureOwner (reference : Reference)
  | createAgent (reference : Reference)
  | writeHublots (rows : List Hublot)
  | writeRoutines (rows : List Owned)
  | writeWidgets (rows : List Owned)
  | writeCheckpoints (rows : List Owned)
  -- `deleteOwnedSession`
  | begin (i : Nat) (reference : Reference)
  | persist (i : Nat) (stored : Bool)
  | act (i : Nat) (fault : Option Fault)
  | journal (i : Nat) (fault : Option String)
  | journalFailure (i : Nat) (stored : Bool)
  -- the process, and `reconcileSessionDeletions`
  | crash
  | start (catalog : Catalog)
  | check (fault : Option CheckFault)
  | closeSessionHublots (fault : Option Fault)
  | deleteSessionRoutines (fault : Option Fault)
  | commit (fault : Option String)
  | journalReconcileFailure (stored : Bool)
  | serve

def Process.isServing : Process → Bool
  | .serving => true
  | _ => false

def nextStage : Stage → Stage
  | .persisted => .runnersStopped
  | .runnersStopped => .routinesStopped
  | .routinesStopped => .agentDeleted
  | .agentDeleted => .hublotsClosed
  | .hublotsClosed => .routinesDeleted
  | .routinesDeleted => .appResourcesDeleted
  | .appResourcesDeleted => .runtimeRemoved
  | .runtimeRemoved => .completed
  | .completed => .completed

def reached {α : Type} (fault : Option Fault) (rows : List α) : List α :=
  match fault with
  | none => rows
  | some fault => rows.take fault.done

def nonBlank (value : String) : Bool := value.toList.any (!isSpace ·)

/-- `requireReference` of the workflow. -/
def requireReference (reference : Reference) : Bool :=
  nonBlank reference.id && reference.storagePath.any nonBlank

namespace State
variable (s : State)

def lostOf (id : Nat) : Option Nat := (s.store.operation id).bind Operation.lost

/-! What the dependencies do, on behalf of the operation `id` for the session `identity`. -/

def agentRows (fault : Option Fault) (identity : Reference) : List AgentSession :=
  reached fault (s.agent.filter fun session => session.reference = identity)

/-- `sessionOperations.deleteSession`. -/
def deleteAgentSession (id : Nat) (identity : Reference) (fault : Option Fault) : State :=
  { s with
    agent := s.agent.filter fun session => session ∉ s.agentRows fault identity
    removals := s.removals ++ (s.agentRows fault identity).map fun session =>
      ⟨.agentSession, identity, session.reference, session.created, s.lostOf id⟩ }

def hublotTransitions (fault : Option Fault) (sessionId : String) : List (Hublot × HublotStatus) :=
  reached fault (s.store.closingTransitions sessionId)

def closeHublots (identity : Reference) (sessionId : String) (fault : Option Fault) : State :=
  let transitions := s.hublotTransitions fault sessionId
  { s with
    store := transitions.foldl (fun store t => store.recordHublotTransition t.1.id t.2) s.store
    removals := s.removals ++ transitions.filterMap fun t =>
      (s.store.ownerOf t.1.ownerId).map fun owner => { kind := .hublot, operation := identity, of := owner.reference } }

def routineRows (fault : Option Fault) (sessionId : String) : List Owned :=
  reached fault (s.store.sessionRoutines sessionId)

def deleteRoutines (identity : Reference) (sessionId : String) (fault : Option Fault) : State :=
  let rows := s.routineRows fault sessionId
  { s with
    store := s.store.deleteRoutines rows
    removals := s.removals ++ rows.filterMap fun row =>
      (s.store.ownerOf row.ownerId).map fun owner => { kind := .routine, operation := identity, of := owner.reference } }

def ownerRemovals (id : Nat) (identity : Reference) (owner : Owner) : List Removal :=
  ⟨.owner, identity, owner.reference, owner.created, s.lostOf id⟩ ::
    ((s.store.hublots.filter fun row => row.ownerId = some owner.id).map fun _ =>
      { kind := .hublot, operation := identity, of := owner.reference }) ++
    (s.store.routines.filter fun row => row.ownerId = some owner.id).map fun _ =>
      { kind := .routine, operation := identity, of := owner.reference }

def deleteOwner (id : Nat) (identity : Reference) (ownerId : Nat) : State :=
  { s with
    store := s.store.deleteOwner ownerId s.clock
    removals := s.removals ++ (s.store.owners.filter fun owner => owner.id = ownerId).flatMap
      (s.ownerRemovals id identity) }

def updateOperation (id : Nat) (status : Status) (stage : Stage) (error : Option String) : State :=
  { s with store := s.store.updateOperation id status stage error }

def setWorkflow (i : Nat) (w : Workflow) : State := { s with workflows := s.workflows.put i w }

/-- The call has returned or thrown. -/
def dropWorkflow (i : Nat) : State := { s with workflows := s.workflows.drop i }

def setPass (pass : Pass) : State := { s with process := .reconciling pass }

end State

/-- `deleteOwnedSession` up to the owner: it throws, and nothing has changed, where
the reference is refused. -/
def begin (codec : Codec) (s : State) (i : Nat) (reference : Reference) : Option State :=
  if s.process.isServing && (s.workflows i).isNone && (s.store.operation i).isNone && requireReference reference then
    match codec.validate reference with
    | .error _ => none
    | .ok identity =>
      let (store, owner) := s.store.upsert identity s.clock
      some { s with
        store
        clock := s.clock + 1
        workflows := s.workflows.put i ⟨reference, identity, owner.id, .persisted, .owned⟩ }
  else none

def persist (s : State) (i : Nat) (stored : Bool) (w : Workflow) : State :=
  if stored && s.store.hasOwner w.ownerId && (s.store.operation i).isNone then
    let operation : Operation :=
      { id := i, ownerId := w.ownerId, status := .running, stage := w.stage, payload := w.reference }
    { s with
      store := { s.store.markDeleting w.ownerId with
        operations := s.store.operations ++ [operation] }
      workflows := s.workflows.put i { w with progress := .ready } }
  else s.dropWorkflow i

/-- The transaction after the stage `routines_deleted`. -/
def deleteOwnerRow (s : State) (i : Nat) (fault : Option Fault) (w : Workflow) : State :=
  match fault with
  | some fault => s.setWorkflow i { w with progress := .failing fault.message }
  | none =>
    let ownerId := w.ownerId
    if !s.store.hasOwner ownerId then
      s.setWorkflow i { w with progress := .failing s!"session owner {ownerId} no longer exists" }
    else if (s.store.operation i).isNone then
      s.setWorkflow i { w with progress := .failing s!"session deletion operation {i} no longer exists" }
    else
      ((s.deleteOwner i w.identity ownerId).updateOperation i .running .appResourcesDeleted none).setWorkflow
        i { w with stage := .appResourcesDeleted }

def stageEffect (s : State) (i : Nat) (w : Workflow) (fault : Option Fault) : State :=
  match w.stage with
  | .routinesStopped => s.deleteAgentSession i w.identity fault
  | .agentDeleted => s.closeHublots w.identity w.reference.id fault
  | .hublotsClosed => s.deleteRoutines w.identity w.reference.id fault
  | _ => s

def act (s : State) (i : Nat) (fault : Option Fault) (w : Workflow) : State :=
  if w.stage = .routinesDeleted then deleteOwnerRow s i fault w
  else
    (stageEffect s i w fault).setWorkflow i
      { w with progress := (fault.map fun fault => Progress.failing fault.message).getD .acted }

def journal (s : State) (i : Nat) (fault : Option String) (w : Workflow) : State :=
  match fault with
  | some message => s.setWorkflow i { w with progress := .failing message }
  | none =>
    if (s.store.operation i).isNone then
      s.setWorkflow i { w with progress := .failing s!"session deletion operation {i} no longer exists" }
    else
      let stage := nextStage w.stage
      if stage = .completed then (s.updateOperation i .completed .completed none).dropWorkflow i
      else (s.updateOperation i .running stage none).setWorkflow i { w with stage, progress := .ready }

/-- The `catch` of the workflow. -/
def journalFailure (s : State) (i : Nat) (stored : Bool) (w : Workflow) (message : String) : State :=
  (if stored then s.updateOperation i .failed w.stage message else s).dropWorkflow i

/-- `none` where the owner matches. -/
def requireMatchingOwner (operation : Operation) (owner : Option Owner) : Option String :=
  let id := operation.id
  match operation.ownerId with
  | none => none
  | some ownerId =>
    if ownerId < 1 then some s!"session deletion operation {id} has an invalid owner"
    else if owner.any (·.id = ownerId) then none
    else some s!"session deletion operation {id} owner does not match its session reference"

namespace Pass
variable (pass : Pass)

def failing (message : String) : Pass := { pass with position := .failing message }

/-- A failure of a dependency or of the configuration, and not of the code. -/
def faulting (id : Nat) (message : String) : Pass :=
  { pass with position := .failing message, faulted := id :: pass.faulted }

def next (id : Nat) (result : Option String) : Pass :=
  { pass with
    pending := pass.pending.tail
    position := .checking
    results := pass.results ++ [(id, result)] }

end Pass

def removeAgentSession (s : State) (pass : Pass) (op : Operation) (reference : Reference)
    (fault : Option CheckFault) : State :=
  let checked : Pass := { pass with position := .closing reference }
  let found := s.agent.any fun session =>
    session.reference.backend = pass.catalog.backend ∧ session.reference.id = reference.id
  let backend := reference.backend.name
  match fault with
  | some ⟨message, .findById⟩ => s.setPass (pass.faulting op.id message)
  | fault =>
    if !found then s.setPass checked
    else if !pass.catalog.deletes reference.backend then
      s.setPass (pass.faulting op.id s!"{backend} session deletion is unavailable during reconciliation")
    else
      match fault with
      | some ⟨message, .deleteSession done⟩ =>
        (s.deleteAgentSession op.id reference (some ⟨message, done⟩)).setPass (pass.faulting op.id message)
      | _ => (s.deleteAgentSession op.id reference none).setPass checked

def check (codec : Codec) (s : State) (pass : Pass) (op : Operation) (fault : Option CheckFault) :
    State :=
  match codec.validate op.payload with
  | .error text => s.setPass (pass.failing text)
  | .ok reference =>
    let backend := reference.backend.name
    let configured := pass.catalog.backend.name
    if reference.backend ≠ pass.catalog.backend then
      s.setPass (pass.faulting op.id s!"operation backend {backend} does not match configured {configured} catalog")
    else
      match fault with
      | some ⟨message, .find⟩ => s.setPass (pass.faulting op.id message)
      | fault =>
        match requireMatchingOwner op (s.store.find reference) with
        | some text => s.setPass (pass.failing text)
        | none => removeAgentSession s pass op reference fault

def commit (s : State) (pass : Pass) (op : Operation) (reference : Reference) (fault : Option String) : State :=
  match fault with
  | some message => s.setPass (pass.faulting op.id message)
  | none =>
    let id := op.id
    let owner := s.store.find reference
    match requireMatchingOwner op owner with
    | some text => s.setPass (pass.failing text)
    | none =>
      if (s.store.operation id).isNone then
        s.setPass (pass.failing s!"session deletion operation {id} no longer exists")
      else
        let cleaned := owner.elim s fun owner => s.deleteOwner id reference owner.id
        (cleaned.updateOperation id .completed .completed none).setPass (pass.next id none)

/-- One step of the loop on the first pending operation. -/
def reconcile (codec : Codec) (s : State) (pass : Pass) (op : Operation) : Position → Action → Option State
  | .checking, .check fault => some (check codec s pass op fault)
  | .closing reference, .closeSessionHublots fault =>
    let closed := s.closeHublots reference reference.id fault
    match fault with
    | some fault => some (closed.setPass (pass.faulting op.id fault.message))
    | none => some (closed.setPass { pass with position := .deleting reference })
  | .deleting reference, .deleteSessionRoutines fault =>
    let deleted := s.deleteRoutines reference reference.id fault
    match fault with
    | some fault => some (deleted.setPass (pass.faulting op.id fault.message))
    | none => some (deleted.setPass { pass with position := .committing reference })
  | .committing reference, .commit fault => some (commit s pass op reference fault)
  | .failing message, .journalReconcileFailure stored =>
    if stored then
      some ((s.updateOperation op.id .failed op.stage message).setPass (pass.next op.id message))
    else some { s with process := .stopped }
  | _, _ => none

def start (s : State) (catalog : Catalog) : State :=
  let store := s.store.markRunningInterrupted
  { s with
    store
    process := .reconciling
      { catalog, pending := store.listIncomplete, position := .checking, results := [],
        listed := store.listIncomplete.map Operation.id, faulted := [] } }

def knownOwners (s : State) (ownerIds : List (Option Nat)) : Bool :=
  ownerIds.all fun ownerId => ownerId.all s.store.hasOwner

def step (codec : Codec) (s : State) : Action → Option State
  | .ensureOwner reference =>
    if s.process.isServing then
      match codec.validate reference with
      | .error _ => none
      | .ok identity =>
        some { s with store := (s.store.upsert identity s.clock).1, clock := s.clock + 1 }
    else none
  | .createAgent reference =>
    match s.process with
    | .reconciling _ => none
    | _ => some { s with agent := s.agent ++ [⟨reference, s.clock⟩], clock := s.clock + 1 }
  | .writeHublots rows =>
    if s.process.isServing && knownOwners s (rows.map Hublot.ownerId) then
      some { s with store := { s.store with hublots := rows } }
    else none
  | .writeRoutines rows =>
    if s.process.isServing && knownOwners s (rows.map Owned.ownerId) then
      some { s with store := { s.store with routines := rows } }
    else none
  | .writeWidgets rows =>
    if s.process.isServing && knownOwners s (rows.map Owned.ownerId) then
      some { s with store := { s.store with widgets := rows } }
    else none
  | .writeCheckpoints rows =>
    if s.process.isServing && knownOwners s (rows.map Owned.ownerId) then
      some { s with store := { s.store with checkpoints := rows } }
    else none
  | .begin i reference => begin codec s i reference
  | .persist i stored =>
    match s.workflows i with
    | some w => if w.progress = .owned then some (persist s i stored w) else none
    | none => none
  | .act i fault =>
    match s.workflows i with
    | some w => if w.progress = .ready then some (act s i fault w) else none
    | none => none
  | .journal i fault =>
    match s.workflows i with
    | some w => if w.progress = .acted then some (journal s i fault w) else none
    | none => none
  | .journalFailure i stored =>
    match s.workflows i with
    | some w =>
      match w.progress with
      | .failing message => some (journalFailure s i stored w message)
      | _ => none
    | none => none
  | .crash => some { s with process := .stopped, workflows := fun _ => none }
  | .start catalog =>
    match s.process with
    | .stopped => some (start s catalog)
    | _ => none
  | .serve =>
    match s.process with
    | .reconciling pass => if pass.pending = [] then some { s with process := .serving } else none
    | _ => none
  | a =>
    match s.process with
    | .reconciling pass =>
      match pass.pending with
      | op :: _ => reconcile codec s pass op pass.position a
      | [] => none
    | _ => none

def Position.rank : Position → Nat
  | .checking => 4
  | .closing _ => 3
  | .deleting _ => 2
  | .committing _ => 1
  | .failing _ => 0

/-- More than the steps that a pass has left. -/
def Process.fuel : Process → Nat
  | .reconciling pass => 5 * pass.pending.length + pass.position.rank + 1
  | _ => 0

variable {pass : Pass} {op : Operation} {rest : List Operation}

theorem fuel_next (at_op : pass.pending = op :: rest) (s : State) (id : Nat) (result : Option String) :
    (s.setPass (pass.next id result)).process.fuel < (Process.reconciling pass).fuel := by
  simp only [State.setPass, Process.fuel, Pass.next, at_op, List.tail_cons, List.length_cons, Position.rank]
  omega

theorem fuel_position {position : Position} (at_position : pass.position = position) (s : State) (next : Pass)
    (pending : next.pending = pass.pending) (lower : next.position.rank < position.rank) :
    (s.setPass next).process.fuel < (Process.reconciling pass).fuel := by
  simp only [State.setPass, Process.fuel, pending, at_position]
  omega

variable {s : State} {reference : Reference} {fault : Option CheckFault}

theorem removeAgentSession_fuel (position : pass.position = .checking) :
    (removeAgentSession s pass op reference fault).process.fuel < (Process.reconciling pass).fuel := by
  have lower := fuel_position position
  unfold removeAgentSession
  simp only
  split
  · exact lower s (pass.faulting ..) rfl (Nat.succ_pos 3)
  · split_ifs
    · exact lower s { pass with position := .closing reference } rfl (Nat.lt_succ_self 3)
    · exact lower s (pass.faulting ..) rfl (Nat.succ_pos 3)
    · split
      · exact lower _ (pass.faulting ..) rfl (Nat.succ_pos 3)
      · exact lower _ { pass with position := .closing reference } rfl (Nat.lt_succ_self 3)

variable {codec : Codec}

theorem check_fuel (position : pass.position = .checking) :
    (check codec s pass op fault).process.fuel < (Process.reconciling pass).fuel := by
  have lower := fuel_position position s
  unfold check
  split
  · exact lower (pass.failing _) rfl (Nat.succ_pos 3)
  · simp only
    split_ifs
    · exact lower (pass.faulting ..) rfl (Nat.succ_pos 3)
    · split
      · exact lower (pass.faulting ..) rfl (Nat.succ_pos 3)
      · split
        · exact lower (pass.failing _) rfl (Nat.succ_pos 3)
        · exact removeAgentSession_fuel position

theorem commit_fuel (at_op : pass.pending = op :: rest) {fault : Option String}
    (position : pass.position = .committing reference) :
    (commit s pass op reference fault).process.fuel < (Process.reconciling pass).fuel := by
  have lower := fuel_position position s
  unfold commit
  split
  · exact lower (pass.faulting ..) rfl Nat.one_pos
  · simp only
    split
    · exact lower (pass.failing _) rfl Nat.one_pos
    · split_ifs
      · exact lower (pass.failing _) rfl Nat.one_pos
      · exact fuel_next at_op ..

theorem reconcile_decreases {t : State} (at_op : pass.pending = op :: rest) {a : Action}
    (hstep : reconcile codec s pass op pass.position a = some t) :
    t.process.fuel < (Process.reconciling pass).fuel := by
  unfold reconcile at hstep
  split at hstep
  · rename_i position
    cases hstep
    exact check_fuel position
  · rename_i reference fault position
    cases fault with
    | some fault =>
      cases hstep
      exact fuel_position position _ (pass.faulting ..) rfl (Nat.succ_pos 2)
    | none =>
      cases hstep
      exact fuel_position position _ { pass with position := .deleting reference } rfl (Nat.lt_succ_self 2)
  · rename_i reference fault position
    cases fault with
    | some fault =>
      cases hstep
      exact fuel_position position _ (pass.faulting ..) rfl (Nat.succ_pos 1)
    | none =>
      cases hstep
      exact fuel_position position _ { pass with position := .committing reference } rfl (Nat.lt_succ_self 1)
  · rename_i reference fault position
    cases hstep
    exact commit_fuel at_op position
  · split_ifs at hstep
    · cases hstep
      exact fuel_next at_op ..
    · cases hstep
      exact Nat.succ_pos _
  · cases hstep

/-- The steps of the reconciling loop. -/
def Action.reconciles : Action → Bool
  | .check _ | .closeSessionHublots _ | .deleteSessionRoutines _ | .commit _ | .journalReconcileFailure _ => true
  | _ => false

theorem reconcile_enabled (codec : Codec) (s : State) (pass : Pass) (op : Operation) :
    ∃ a t, a.reconciles = true ∧ reconcile codec s pass op pass.position a = some t := by
  cases pass.position with
  | checking => exact ⟨.check none, _, rfl, rfl⟩
  | closing reference => exact ⟨.closeSessionHublots none, _, rfl, rfl⟩
  | deleting reference => exact ⟨.deleteSessionRoutines none, _, rfl, rfl⟩
  | committing reference => exact ⟨.commit none, _, rfl, rfl⟩
  | failing message => exact ⟨.journalReconcileFailure true, _, rfl, rfl⟩

end SessionDeletion
