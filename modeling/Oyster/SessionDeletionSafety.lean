import Oyster.SessionDeletion

/-! What deletion may remove, and what a start leaves behind: the law, the
condition under which every run keeps it, and how it fails outside of it. -/
namespace SessionDeletion
open Interleaving SessionReference SessionStore

/-! ### The law -/

/-- What an operation removes is its own session's, and not newer than the loss of
its owner row. -/
def Removal.Confined (r : Removal) : Prop :=
  r.of = r.operation ∧ ∀ d ∈ r.lost, r.created < d

def Gone (codec : Codec) (s : State) (payload : Reference) : Prop :=
  ∀ reference, codec.validate payload = .ok reference → (∀ session ∈ s.agent, session.reference ≠ reference) ∧
      ∀ owner ∈ s.store.owners, owner.reference ≠ reference

/-- Removals are confined; a reconciliation works through every incomplete
operation, whatever becomes of the others, and leaves each that no dependency
fails completed and its session gone. -/
structure Safe (codec : Codec) (s : State) : Prop where
  confined : ∀ r ∈ s.removals, r.Confined
  independent : ∀ pass, s.process = .reconciling pass →
    pass.listed = pass.results.map Prod.fst ++ pass.pending.map Operation.id ∧
      ∀ op ∈ s.store.operations, op.status ≠ .completed → op.id ∈ pass.listed
  completes : ∀ pass, s.process = .reconciling pass → ∀ op ∈ s.store.operations,
    op.id ∈ pass.results.map Prod.fst → op.id ∉ pass.faulted → op.status = .completed ∧ Gone codec s op.payload

def HublotsUnshared (s : State) (identity : Reference) : Prop :=
  ∀ row ∈ s.store.hublots, row.status ≠ .closed → ∀ owner, s.store.ownerOf row.ownerId = some owner →
    owner.reference.id = identity.id → owner.reference = identity

def RoutinesUnshared (s : State) (identity : Reference) : Prop :=
  ∀ row ∈ s.store.routines, ∀ owner, s.store.ownerOf row.ownerId = some owner →
    owner.reference.id = identity.id → owner.reference = identity

def AgentKept (s : State) (id : Nat) (identity : Reference) : Prop :=
  ∀ session ∈ s.agent, session.reference = identity → ∀ d ∈ s.lostOf id, session.created < d

def OwnerKept (s : State) (id : Nat) (identity : Reference) : Prop :=
  ∀ owner ∈ s.store.owners, owner.reference = identity → ∀ d ∈ s.lostOf id, owner.created < d

/-- The rowid that a call holds has not passed to another session. -/
def RowidKept (s : State) (w : Workflow) : Prop :=
  ∀ owner ∈ s.store.owners, owner.id = w.ownerId → owner.reference = w.identity

/-- The dependency changes something. -/
def Acts (fault : Option Fault) : Prop := ∀ f ∈ fault, 0 < f.done

def PermittedAct (s : State) (i : Nat) (fault : Option Fault) (w : Workflow) : Prop :=
  match w.stage with
  | .routinesStopped => Acts fault → AgentKept s i w.identity
  | .agentDeleted => Acts fault → HublotsUnshared s w.identity
  | .hublotsClosed => Acts fault → RoutinesUnshared s w.identity
  | .routinesDeleted => fault = none → RowidKept s w ∧ OwnerKept s i w.identity
  | _ => True

def RowCurrent (s : State) (op : Operation) : Prop :=
  ∃ row ∈ s.store.operations, row.id = op.id ∧ row.ownerId = op.ownerId

def PermittedPass (codec : Codec) (s : State) (op : Operation) : Position → Action → Prop
  | .checking, .check fault =>
    (∀ f ∈ fault, f.point ≠ .find) → RowCurrent s op ∧
      ((∀ f ∈ fault, f.point ≠ .findById ∧ f.point ≠ .deleteSession 0) →
        ∀ reference, codec.validate op.payload = .ok reference → AgentKept s op.id reference)
  | .closing reference, .closeSessionHublots fault => Acts fault → HublotsUnshared s reference
  | .deleting reference, .deleteSessionRoutines fault => Acts fault → RoutinesUnshared s reference
  | .committing reference, .commit fault => fault = none → OwnerKept s op.id reference
  | _, _ => True

/-- The condition under which deletion is confined and completes: where hublots are
closed or routines deleted by session id, no other session of that id has any;
what is deleted by identity or by rowid has not been created anew since the
operation lost its owner row; and no other operation of the pass has taken the owner row
that the operation was read with. -/
def Permitted (codec : Codec) (s : State) : Action → Prop
  | .persist i stored => ∀ w, s.workflows i = some w → stored = true → RowidKept s w
  | .act i fault => ∀ w, s.workflows i = some w → PermittedAct s i fault w
  | a => ∀ pass, s.process = .reconciling pass → ∀ op, pass.pending.head? = some op →
      PermittedPass codec s op pass.position a

/-! ### Frames -/

variable {fault : Option Fault}

theorem mem_reached {α : Type} {rows : List α} {row : α} (h : row ∈ reached fault rows) :
    row ∈ rows ∧ Acts fault := by
  cases fault with
  | none => exact ⟨h, fun _ absurd => nomatch absurd⟩
  | some fault =>
    refine ⟨List.mem_of_mem_take h, ?_⟩
    intro f same
    obtain rfl := Option.mem_some_iff.mp same
    have some_taken : 0 < (rows.take fault.done).length := List.length_pos_of_mem h
    rw [List.length_take] at some_taken
    omega

section Frames
variable (s : State) (id : Nat) (identity : Reference) (sessionId : String) (fault : Option Fault)

theorem foldl_transitions (transitions : List (Hublot × HublotStatus)) (store : Store) :
    (transitions.foldl (fun store t => store.recordHublotTransition t.1.id t.2) store).owners = store.owners ∧
      (transitions.foldl (fun store t => store.recordHublotTransition t.1.id t.2) store).operations =
        store.operations := by
  induction transitions generalizing store with
  | nil => exact ⟨rfl, rfl⟩
  | cons t transitions ih => exact ih (store.recordHublotTransition t.1.id t.2)

@[simp] theorem closeHublots_owners : (s.closeHublots identity sessionId fault).store.owners = s.store.owners :=
  (foldl_transitions _ _).1

@[simp] theorem closeHublots_operations :
    (s.closeHublots identity sessionId fault).store.operations = s.store.operations :=
  (foldl_transitions _ _).2

variable {session : AgentSession}

theorem mem_agent_of_deleteAgentSession (h : session ∈ (s.deleteAgentSession id identity fault).agent) :
    session ∈ s.agent :=
  (List.mem_filter.mp h).1

theorem deleteAgentSession_gone (h : session ∈ (s.deleteAgentSession id identity none).agent) :
    session.reference ≠ identity := by
  intro same
  obtain ⟨inside, kept⟩ := List.mem_filter.mp h
  have absent : session ∉ s.agentRows none identity := by simpa using kept
  exact absent (List.mem_filter.mpr ⟨inside, by simpa using same⟩)

end Frames

/-! ### Removals -/

def AllConfined (s : State) : Prop := ∀ r ∈ s.removals, r.Confined

variable {s : State} {t : State}

theorem AllConfined.append (h : AllConfined s) {more : List Removal} (same : t.removals = s.removals ++ more)
    (new : ∀ r ∈ more, r.Confined) : AllConfined t := by
  intro r inside
  rw [same] at inside
  rcases List.mem_append.mp inside with old | fresh
  · exact h r old
  · exact new r fresh

variable {identity : Reference} {id : Nat}

theorem AllConfined.deleteAgentSession (h : AllConfined s) (kept : Acts fault → AgentKept s id identity) :
    AllConfined (s.deleteAgentSession id identity fault) := by
  refine h.append rfl ?_
  intro r inside
  obtain ⟨session, reachable, rfl⟩ := List.mem_map.mp inside
  obtain ⟨found, acts⟩ := mem_reached reachable
  obtain ⟨inAgent, same⟩ := List.mem_filter.mp found
  have same : session.reference = identity := by simpa using same
  exact ⟨same, kept acts session inAgent same⟩

variable {sessionId : String} {store : Store}

theorem ofSession_eq {ownerId : Option Nat} {owner : Owner} (joined : store.ownerOf ownerId = some owner)
    (h : store.ofSession ownerId sessionId = true) : owner.reference.id = sessionId := by
  simpa [Store.ofSession, joined] using h

theorem mem_closingTransitions {t : Hublot × HublotStatus} (h : t ∈ store.closingTransitions sessionId) :
    t.1 ∈ store.hublots ∧ store.ofSession t.1.ownerId sessionId = true ∧ t.1.status ≠ .closed := by
  have row : t.1 ∈ store.hublots.filter fun row =>
      store.ofSession row.ownerId sessionId && row.status ≠ .closed := by
    rcases List.mem_append.mp h with closing | closed
    · obtain ⟨row, inside, rfl⟩ := List.mem_map.mp closing
      exact inside
    · obtain ⟨row, inside, rfl⟩ := List.mem_map.mp closed
      exact inside
  simpa using row

theorem AllConfined.closeHublots (h : AllConfined s) (same : sessionId = identity.id)
    (unshared : Acts fault → HublotsUnshared s identity) : AllConfined (s.closeHublots identity sessionId fault) := by
  refine h.append rfl ?_
  intro r inside
  obtain ⟨t, reachable, made⟩ := List.mem_filterMap.mp inside
  obtain ⟨owner, joined, rfl⟩ := Option.map_eq_some_iff.mp made
  obtain ⟨found, acts⟩ := mem_reached reachable
  obtain ⟨row, of, live⟩ := mem_closingTransitions found
  refine ⟨?_, fun _ absurd => nomatch absurd⟩
  exact unshared acts t.1 row live owner joined ((ofSession_eq joined of).trans same)

theorem AllConfined.deleteRoutines (h : AllConfined s) (same : sessionId = identity.id)
    (unshared : Acts fault → RoutinesUnshared s identity) :
    AllConfined (s.deleteRoutines identity sessionId fault) := by
  refine h.append rfl ?_
  intro r inside
  obtain ⟨row, reachable, made⟩ := List.mem_filterMap.mp inside
  obtain ⟨owner, joined, rfl⟩ := Option.map_eq_some_iff.mp made
  obtain ⟨found, acts⟩ := mem_reached reachable
  obtain ⟨inside, of⟩ := List.mem_filter.mp found
  refine ⟨?_, fun _ absurd => nomatch absurd⟩
  exact unshared acts row inside owner joined ((ofSession_eq joined of).trans same)

theorem AllConfined.deleteOwner (h : AllConfined s) {ownerId : Nat}
    (own : ∀ owner ∈ s.store.owners, owner.id = ownerId → owner.reference = identity) (kept : OwnerKept s id identity) :
    AllConfined (s.deleteOwner id identity ownerId) := by
  refine h.append rfl ?_
  intro r inside
  obtain ⟨owner, found, removed⟩ := List.mem_flatMap.mp inside
  obtain ⟨present, same⟩ := List.mem_filter.mp found
  have named := own owner present (by simpa using same)
  rcases List.mem_append.mp removed with first | routine
  · rcases List.mem_cons.mp first with rfl | hublot
    · exact ⟨named, kept owner present named⟩
    · obtain ⟨_, _, rfl⟩ := List.mem_map.mp hublot
      exact ⟨named, fun _ absurd => nomatch absurd⟩
  · obtain ⟨_, _, rfl⟩ := List.mem_map.mp routine
    exact ⟨named, fun _ absurd => nomatch absurd⟩

/-! ### The pass of a start -/

/-- What the loop knows of the operation that it is at. -/
def PositionOk (codec : Codec) (s : State) (pass : Pass) (op : Operation) : Prop :=
  match pass.position with
  | .checking => True
  | .closing reference | .deleting reference | .committing reference =>
    codec.validate op.payload = .ok reference ∧ (∀ session ∈ s.agent, session.reference ≠ reference) ∧
      requireMatchingOwner op (s.store.find reference) = none
  | .failing _ => op.id ∈ pass.faulted

structure PassOk (codec : Codec) (s : State) (pass : Pass) : Prop where
  listed : pass.listed = pass.results.map Prod.fst ++ pass.pending.map Operation.id
  nodup : pass.listed.Nodup
  complete : ∀ op ∈ s.store.operations, op.status ≠ .completed → op.id ∈ pass.listed
  rows : ∀ op ∈ pass.pending, ∃ row ∈ s.store.operations, row.id = op.id ∧ row.payload = op.payload
  done : ∀ row ∈ s.store.operations, row.id ∈ pass.results.map Prod.fst → row.id ∉ pass.faulted →
    row.status = .completed ∧ Gone codec s row.payload
  position : ∀ op rest, pass.pending = op :: rest → PositionOk codec s pass op

variable {codec : Codec}

theorem Gone.mono {payload : Reference} (h : Gone codec s payload) (agent : ∀ session ∈ t.agent, session ∈ s.agent)
    (owners : ∀ owner ∈ t.store.owners, owner ∈ s.store.owners) : Gone codec t payload := by
  intro reference valid
  obtain ⟨noAgent, noOwner⟩ := h reference valid
  exact ⟨fun session inside => noAgent session (agent session inside),
    fun owner inside => noOwner owner (owners owner inside)⟩

variable {pass : Pass}

theorem PassOk.move (h : PassOk codec s pass) (t : State) (operations : t.store.operations = s.store.operations)
    (owners : t.store.owners = s.store.owners) (agent : ∀ session ∈ t.agent, session ∈ s.agent) (next : Pass)
    (pending : next.pending = pass.pending) (results : next.results = pass.results)
    (listed : next.listed = pass.listed) (faulted : ∀ id ∈ pass.faulted, id ∈ next.faulted)
    (position : ∀ op rest, pass.pending = op :: rest → PositionOk codec t next op) : PassOk codec t next where
  listed := by rw [listed, results, pending]; exact h.listed
  nodup := listed ▸ h.nodup
  complete := by rw [operations, listed]; exact h.complete
  rows := by rw [operations, pending]; exact h.rows
  done := by
    rw [operations, results]
    intro row inside result unfaulted
    obtain ⟨completed, gone⟩ := h.done row inside result fun before => unfaulted (faulted _ before)
    refine ⟨completed, gone.mono agent fun owner present => ?_⟩
    rwa [owners] at present
  position := by rw [pending]; exact position

theorem PassOk.advance {op : Operation} {rest : List Operation} (h : PassOk codec s pass) (t : State)
    (at_op : pass.pending = op :: rest) (agent : ∀ session ∈ t.agent, session ∈ s.agent)
    (owners : ∀ owner ∈ t.store.owners, owner ∈ s.store.owners) (f : Operation → Operation)
    (operations : t.store.operations = s.store.operations.map f)
    (keeps : ∀ row, (f row).id = row.id ∧ (f row).payload = row.payload ∧
      (row.id ≠ op.id → (f row).status = row.status)) (result : Option String)
    (settled : op.id ∈ pass.faulted ∨ ∀ row ∈ t.store.operations, row.id = op.id →
      row.status = .completed ∧ Gone codec t row.payload) : PassOk codec t (pass.next op.id result) where
  listed := by
    simp only [Pass.next, h.listed, at_op, List.map_append, List.map_cons, List.map_nil,
      List.tail_cons, List.append_assoc, List.cons_append, List.nil_append]
  nodup := h.nodup
  complete := by
    intro row inside incomplete
    rw [operations] at inside
    obtain ⟨old, mem, rfl⟩ := List.mem_map.mp inside
    obtain ⟨same, _, status⟩ := keeps old
    rw [same]
    by_cases this : old.id = op.id
    · show old.id ∈ pass.listed
      rw [this, h.listed, at_op]
      simp
    · exact h.complete old mem (status this ▸ incomplete)
  rows := by
    intro later inside
    obtain ⟨row, mem, same, payload⟩ := h.rows later (at_op ▸ List.mem_cons_of_mem op (by
      simpa [Pass.next, at_op] using inside))
    rw [operations]
    exact ⟨f row, List.mem_map_of_mem mem, (keeps row).1.trans same, (keeps row).2.1.trans payload⟩
  done := by
    intro row inside result' unfaulted
    by_cases this : row.id = op.id
    · rcases settled with faulted | settled
      · exact absurd (this ▸ faulted) unfaulted
      · exact settled row inside this
    · have earlier : row.id ∈ pass.results.map Prod.fst := by
        simpa [Pass.next, this] using result'
      rw [operations] at inside
      obtain ⟨old, mem, rfl⟩ := List.mem_map.mp inside
      obtain ⟨same, payload, status⟩ := keeps old
      rw [same] at earlier unfaulted this
      obtain ⟨completed, gone⟩ := h.done old mem earlier unfaulted
      rw [status this, payload]
      exact ⟨completed, gone.mono agent owners⟩
  position := by
    intro later rest' _
    trivial

/-! ### The invariant -/

structure Inv (codec : Codec) (s : State) : Prop where
  tables : Tables codec s.store
  workflows : s.workflows.Forall fun _ w => codec.validate w.reference = .ok w.identity
  idle : s.process.isServing = false → ∀ i, s.workflows i = none
  pass : ∀ pass, s.process = .reconciling pass → PassOk codec s pass
  confined : AllConfined s

section Invariant
variable {codec : Codec} {s t : State} {i : Nat} {w : Workflow}

theorem Inv.serving (h : Inv codec s) (held : s.workflows i = some w) : s.process.isServing = true := by
  cases serving : s.process.isServing with
  | true => rfl
  | false => exact absurd ((h.idle serving i).symm.trans held) (Option.some_ne_none w).symm

theorem Inv.ofServing (serving : t.process.isServing = true) (tables : Tables codec t.store)
    (workflows : t.workflows.Forall fun _ w => codec.validate w.reference = .ok w.identity)
    (confined : AllConfined t) : Inv codec t where
  tables := tables
  workflows := workflows
  idle := fun absurd => nomatch serving.symm.trans absurd
  pass := by
    intro pass reconciling
    rw [reconciling] at serving
    cases serving
  confined := confined

theorem Inv.ofPass (h : Inv codec s) {pass next : Pass} (before : s.process = .reconciling pass)
    (after : t.process = .reconciling next) (calls : t.workflows = s.workflows)
    (tables : Tables codec t.store) (ok : PassOk codec t next) (confined : AllConfined t) :
    Inv codec t where
  tables := tables
  workflows := calls ▸ h.workflows
  idle := by
    intro _
    rw [calls]
    exact h.idle (by rw [before]; rfl)
  pass := by
    intro pass' reconciling
    cases after.symm.trans reconciling
    exact ok
  confined := confined

theorem Inv.ofStopped (stopped : t.process = .stopped) (tables : Tables codec t.store)
    (calls : ∀ i, t.workflows i = none) (confined : AllConfined t) : Inv codec t where
  tables := tables
  workflows := by
    intro i w held
    cases (calls i).symm.trans held
  idle := fun _ => calls
  pass := by
    intro pass reconciling
    cases stopped.symm.trans reconciling
  confined := confined

variable {store : Store}

theorem hasOwner_iff {ownerId : Nat} :
    store.hasOwner ownerId = true ↔ ∃ owner ∈ store.owners, owner.id = ownerId := by
  simp [Store.hasOwner]

theorem operation_isNone {id : Nat} (h : (store.operation id).isNone = true) :
    ∀ op ∈ store.operations, op.id ≠ id := by
  intro op inside same
  have missing := List.find?_eq_none.mp (Option.isNone_iff_eq_none.mp h) op inside
  exact missing (by simpa using same)

variable {reference : Reference}

theorem begin_inv (h : Inv codec s) (hstep : begin codec s i reference = some t) : Inv codec t := by
  unfold begin at hstep
  split_ifs at hstep with ready
  simp only [Bool.and_eq_true] at ready
  cases valid : codec.validate reference with
  | error text =>
    rw [valid] at hstep
    cases hstep
  | ok identity =>
    rw [valid] at hstep
    cases hstep
    exact .ofServing ready.1.1.1 (h.tables.upsert identity s.clock) (h.workflows.put valid) h.confined

variable {stored : Bool}

theorem persist_inv (h : Inv codec s) (held : s.workflows i = some w) (permitted : stored = true → RowidKept s w) :
    Inv codec (persist s i stored w) := by
  have serving := h.serving held
  have valid := h.workflows i w held
  unfold persist
  split_ifs with created
  · simp only [Bool.and_eq_true] at created
    obtain ⟨⟨rfl, known⟩, fresh⟩ := created
    obtain ⟨owner, present, same⟩ := hasOwner_iff.mp known
    have named := permitted rfl owner present same
    have marked : { owner with deleting := true } ∈ (s.store.markDeleting w.ownerId).owners :=
      List.mem_map.mpr ⟨owner, present, if_pos same⟩
    refine .ofServing serving ?_ (h.workflows.put valid) h.confined
    exact (h.tables.markDeleting w.ownerId).create (operation_isNone fresh) marked
      (congrArg some same.symm) (named ▸ valid)
  · exact .ofServing serving h.tables (h.workflows.drop i) h.confined

theorem validate_id {identity : Reference} (valid : codec.validate reference = .ok identity) :
    reference.id = identity.id := by
  rcases codec.validate_cases valid with ⟨_, rfl⟩ | ⟨_, _, _, rfl⟩ <;> rfl

variable {fault : Option Fault}

theorem deleteOwnerRow_inv (h : Inv codec s) (held : s.workflows i = some w)
    (permitted : fault = none → RowidKept s w ∧ OwnerKept s i w.identity) :
    Inv codec (deleteOwnerRow s i fault w) := by
  have serving := h.serving held
  have valid := h.workflows i w held
  unfold deleteOwnerRow
  cases fault with
  | some fault => exact .ofServing serving h.tables (h.workflows.put valid) h.confined
  | none =>
    obtain ⟨rowid, kept⟩ := permitted rfl
    simp only
    split_ifs
    · exact .ofServing serving h.tables (h.workflows.put valid) h.confined
    · exact .ofServing serving h.tables (h.workflows.put valid) h.confined
    · exact .ofServing serving ((h.tables.deleteOwner w.ownerId s.clock).updateOperation ..)
        (h.workflows.put valid) (h.confined.deleteOwner rowid kept)

theorem stageEffect_store (s : State) (i : Nat) (w : Workflow) (fault : Option Fault) :
    (stageEffect s i w fault).store.owners = s.store.owners ∧
      (stageEffect s i w fault).store.operations = s.store.operations := by
  unfold stageEffect
  split
  · exact ⟨rfl, rfl⟩
  · exact ⟨closeHublots_owners .., closeHublots_operations ..⟩
  · exact ⟨rfl, rfl⟩
  · exact ⟨rfl, rfl⟩

theorem stageEffect_calls (s : State) (i : Nat) (w : Workflow) (fault : Option Fault) :
    (stageEffect s i w fault).workflows = s.workflows ∧ (stageEffect s i w fault).process = s.process := by
  unfold stageEffect
  split <;> exact ⟨rfl, rfl⟩

theorem stageEffect_confined (h : AllConfined s) (same : w.reference.id = w.identity.id)
    (permitted : PermittedAct s i fault w) : AllConfined (stageEffect s i w fault) := by
  unfold stageEffect
  unfold PermittedAct at permitted
  split
  · rename_i stage
    rw [stage] at permitted
    exact h.deleteAgentSession permitted
  · rename_i stage
    rw [stage] at permitted
    exact h.closeHublots same permitted
  · rename_i stage
    rw [stage] at permitted
    exact h.deleteRoutines same permitted
  · exact h

theorem act_inv (h : Inv codec s) (held : s.workflows i = some w) (permitted : PermittedAct s i fault w) :
    Inv codec (act s i fault w) := by
  have serving := h.serving held
  have valid := h.workflows i w held
  unfold act
  split_ifs with stage
  · unfold PermittedAct at permitted
    rw [stage] at permitted
    exact deleteOwnerRow_inv h held permitted
  · obtain ⟨owners, operations⟩ := stageEffect_store s i w fault
    obtain ⟨calls, process⟩ := stageEffect_calls s i w fault
    refine .ofServing (process ▸ serving) (h.tables.frame owners operations) ?_
      (stageEffect_confined h.confined (validate_id valid) permitted)
    exact (calls ▸ h.workflows).put valid

theorem journal_inv (h : Inv codec s) {fault : Option String} (held : s.workflows i = some w) :
    Inv codec (journal s i fault w) := by
  have serving := h.serving held
  have valid := h.workflows i w held
  unfold journal
  cases fault with
  | some message => exact .ofServing serving h.tables (h.workflows.put valid) h.confined
  | none =>
    simp only
    split_ifs
    · exact .ofServing serving h.tables (h.workflows.put valid) h.confined
    · exact .ofServing serving (h.tables.updateOperation ..) (h.workflows.drop i) h.confined
    · exact .ofServing serving (h.tables.updateOperation ..) (h.workflows.put valid) h.confined

theorem journalFailure_inv (h : Inv codec s) {message : String} (held : s.workflows i = some w) :
    Inv codec (journalFailure s i stored w message) := by
  have serving := h.serving held
  unfold journalFailure
  split_ifs
  · exact .ofServing serving (h.tables.updateOperation ..) (h.workflows.drop i) h.confined
  · exact .ofServing serving h.tables (h.workflows.drop i) h.confined

/-! ### Steps of a pass -/

theorem requireMatchingOwner_none (tables : Tables codec s.store) {op : Operation}
    (rows : ∃ row ∈ s.store.operations, row.id = op.id ∧ row.payload = op.payload)
    (valid : codec.validate op.payload = .ok reference) (current : RowCurrent s op) :
    requireMatchingOwner op (s.store.find reference) = none := by
  obtain ⟨row, inside, same, payload⟩ := rows
  obtain ⟨row', inside', same', ownerId⟩ := current
  obtain rfl := tables.operation_unique inside inside' (same.trans same'.symm)
  unfold requireMatchingOwner
  cases has : op.ownerId with
  | none => rfl
  | some id =>
    obtain ⟨owner, present, hid, named⟩ := tables.owned row inside id (ownerId.trans has)
    have named : owner.reference = reference :=
      (Except.ok.inj ((payload ▸ valid).symm.trans named)).symm
    have found : s.store.find reference = some owner := by
      cases found : s.store.find reference with
      | none => exact absurd named (find_eq_none found owner present)
      | some other =>
        obtain ⟨inOwners, same⟩ := find_eq_some found
        exact congrArg some (List.inj_on_of_nodup_map tables.references inOwners present (same.trans named.symm))
    have positive := tables.positive owner present
    simp only [found, Option.any_some, decide_eq_true_eq, hid, if_true]
    rw [if_neg (by omega)]

structure Quiet (s u : State) : Prop where
  owners : u.store.owners = s.store.owners
  operations : u.store.operations = s.store.operations
  agent : ∀ session ∈ u.agent, session ∈ s.agent
  calls : u.workflows = s.workflows

theorem Quiet.refl (s : State) : Quiet s s := ⟨rfl, rfl, fun _ inside => inside, rfl⟩

theorem Quiet.deleteAgentSession (s : State) (id : Nat) (identity : Reference)
    (fault : Option Fault) : Quiet s (s.deleteAgentSession id identity fault) :=
  ⟨rfl, rfl, fun _ => mem_agent_of_deleteAgentSession s id identity fault, rfl⟩

theorem Quiet.closeHublots (s : State) (identity : Reference) (sessionId : String)
    (fault : Option Fault) : Quiet s (s.closeHublots identity sessionId fault) :=
  ⟨closeHublots_owners .., closeHublots_operations .., fun _ inside => inside, rfl⟩

theorem Quiet.deleteRoutines (s : State) (identity : Reference) (sessionId : String)
    (fault : Option Fault) : Quiet s (s.deleteRoutines identity sessionId fault) :=
  ⟨rfl, rfl, fun _ inside => inside, rfl⟩

theorem Quiet.find {u : State} (quiet : Quiet s u) (reference : Reference) :
    u.store.find reference = s.store.find reference := by
  unfold Store.find
  rw [quiet.owners]

section Steps
variable {pass : Pass} {op : Operation} {rest : List Operation} {u : State}

theorem Inv.faulting (h : Inv codec s) (before : s.process = .reconciling pass)
    (at_op : pass.pending = op :: rest) (quiet : Quiet s u) (confined : AllConfined u)
    (message : String) : Inv codec (u.setPass (pass.faulting op.id message)) := by
  have ok := h.pass pass before
  refine h.ofPass before rfl quiet.calls (h.tables.frame quiet.owners quiet.operations) ?_ confined
  refine ok.move (u.setPass _) quiet.operations quiet.owners quiet.agent (pass.faulting op.id message) rfl rfl rfl
    (fun id inside => List.mem_cons_of_mem _ inside) ?_
  intro other rest' same
  cases at_op.symm.trans same
  exact List.mem_cons_self

theorem Inv.moving (h : Inv codec s) (before : s.process = .reconciling pass)
    (at_op : pass.pending = op :: rest) (quiet : Quiet s u) (confined : AllConfined u)
    {position : Position}
    (ok : PositionOk codec (u.setPass { pass with position }) { pass with position } op) :
    Inv codec (u.setPass { pass with position }) := by
  have old := h.pass pass before
  refine h.ofPass before rfl quiet.calls (h.tables.frame quiet.owners quiet.operations) ?_ confined
  refine old.move (u.setPass _) quiet.operations quiet.owners quiet.agent { pass with position } rfl rfl rfl
    (fun _ inside => inside) ?_
  intro other rest' same
  cases at_op.symm.trans same
  exact ok

variable {reference : Reference}

theorem Quiet.positionOk (quiet : Quiet s u) (known : codec.validate op.payload = .ok reference ∧
      (∀ session ∈ s.agent, session.reference ≠ reference) ∧
        requireMatchingOwner op (s.store.find reference) = none) : codec.validate op.payload = .ok reference ∧
      (∀ session ∈ u.agent, session.reference ≠ reference) ∧
        requireMatchingOwner op (u.store.find reference) = none := by
  refine ⟨known.1, fun session inside => known.2.1 session (quiet.agent session inside), ?_⟩
  rw [quiet.find]
  exact known.2.2

theorem removeAgentSession_inv (h : Inv codec s) (before : s.process = .reconciling pass)
    (at_op : pass.pending = op :: rest) (valid : codec.validate op.payload = .ok reference)
    (backend : reference.backend = pass.catalog.backend)
    (matching : requireMatchingOwner op (s.store.find reference) = none) {fault : Option CheckFault}
    (kept : (∀ f ∈ fault, f.point ≠ .findById ∧ f.point ≠ .deleteSession 0) →
      AgentKept s op.id reference) : Inv codec (removeAgentSession s pass op reference fault) := by
  have removed : ∀ {fault : Option Fault}, (Acts fault → AgentKept s op.id reference) →
      AllConfined (s.deleteAgentSession op.id reference fault) := fun acts =>
    h.confined.deleteAgentSession acts
  unfold removeAgentSession
  simp only
  split
  · exact h.faulting before at_op (.refl s) h.confined _
  · rename_i other
    split_ifs with missing refused
    · refine h.moving before at_op (.refl s) h.confined ⟨valid, ?_, matching⟩
      intro session inside same
      simp only [Bool.not_eq_true', List.any_eq_false, decide_eq_true_eq] at missing
      exact missing session inside ⟨same ▸ backend, same ▸ rfl⟩
    · exact h.faulting before at_op (.refl s) h.confined _
    · split
      · rename_i message done
        refine h.faulting before at_op (.deleteAgentSession ..) (removed fun acts => kept ?_) _
        intro f same
        obtain rfl := Option.mem_some_iff.mp same
        have positive := acts _ rfl
        refine ⟨(fun absurd => nomatch absurd), ?_⟩
        intro zero
        cases zero
        exact absurd positive (Nat.lt_irrefl 0)
      · rename_i unfaulted
        refine h.moving before at_op (.deleteAgentSession ..) (removed fun _ => kept ?_) ⟨valid, ?_, matching⟩
        · intro f same
          obtain ⟨message, point⟩ := f
          obtain rfl := Option.mem_def.mp same
          refine ⟨?_, ?_⟩
          · rintro rfl
            exact other message rfl
          · rintro rfl
            exact unfaulted message 0 rfl
        · exact fun session inside => deleteAgentSession_gone s op.id reference inside

theorem check_inv (h : Inv codec s) (before : s.process = .reconciling pass)
    (at_op : pass.pending = op :: rest) {fault : Option CheckFault}
    (permitted : PermittedPass codec s op .checking (.check fault)) :
    Inv codec (check codec s pass op fault) := by
  have rows := (h.pass pass before).rows op (at_op ▸ List.mem_cons_self)
  unfold check
  cases valid : codec.validate op.payload with
  | error text =>
    obtain ⟨row, inside, _, payload⟩ := rows
    obtain ⟨reference, found⟩ := h.tables.valid row inside
    rw [payload, valid] at found
    cases found
  | ok reference =>
    simp only
    split_ifs with backend
    · exact h.faulting before at_op (.refl s) h.confined _
    · split
      · exact h.faulting before at_op (.refl s) h.confined _
      · rename_i other
        have reads : ∀ f ∈ fault, f.point ≠ .find := by
          rintro ⟨message, point⟩ same rfl
          exact other message (Option.mem_def.mp same)
        obtain ⟨current, kept⟩ := permitted reads
        have matching := requireMatchingOwner_none h.tables rows valid current
        simp only [matching]
        exact removeAgentSession_inv h before at_op valid (not_not.mp backend) matching
          fun undone => kept undone reference valid

theorem operation_present (h : Inv codec s) (before : s.process = .reconciling pass)
    (at_op : pass.pending = op :: rest) : ¬(s.store.operation op.id).isNone = true := by
  intro missing
  obtain ⟨row, inside, same, _⟩ := (h.pass pass before).rows op (at_op ▸ List.mem_cons_self)
  exact operation_isNone missing row inside same

theorem Inv.completed (h : Inv codec s) (before : s.process = .reconciling pass)
    (at_op : pass.pending = op :: rest) (tables : Tables codec u.store) (g : Operation → Operation)
    (operations : u.store.operations = s.store.operations.map g)
    (keeps : ∀ row, (g row).id = row.id ∧ (g row).payload = row.payload ∧ (g row).status = row.status)
    (owners : ∀ owner ∈ u.store.owners, owner ∈ s.store.owners) (agent : u.agent = s.agent)
    (calls : u.workflows = s.workflows) (confined : AllConfined u)
    (gone : Gone codec u op.payload) :
    Inv codec ((u.updateOperation op.id .completed .completed none).setPass (pass.next op.id none)) := by
  have ok := h.pass pass before
  let f : Operation → Operation := fun row =>
    if (g row).id = op.id then { g row with status := .completed, stage := .completed, error := none }
    else g row
  refine h.ofPass before rfl calls (tables.updateOperation ..) ?_ confined
  refine ok.advance ((u.updateOperation op.id .completed .completed none).setPass _) at_op
    (fun session inside => agent ▸ inside) owners f ?_ ?_ none (.inr ?_)
  · show u.store.operations.map _ = _
    rw [operations, List.map_map]
    rfl
  · intro row
    obtain ⟨same, payload, status⟩ := keeps row
    simp only [f]
    split_ifs with this
    · exact ⟨same, payload, fun other => absurd (same.symm.trans this) other⟩
    · exact ⟨same, payload, fun _ => status⟩
  · intro row inside this
    obtain ⟨old, mem, rfl⟩ := List.mem_map.mp inside
    obtain ⟨first, inStore, rfl⟩ := List.mem_map.mp (operations ▸ mem)
    split_ifs at this ⊢ with same
    · obtain ⟨row, known, id, payload⟩ := ok.rows op (at_op ▸ List.mem_cons_self)
      have one : first = row := h.tables.operation_unique inStore known
        (((keeps first).1.symm.trans same).trans id.symm)
      refine ⟨rfl, ?_⟩
      rw [(keeps first).2.1, one, payload]
      exact gone
    · exact absurd this same

theorem commit_inv (h : Inv codec s) (before : s.process = .reconciling pass) (at_op : pass.pending = op :: rest)
    (position : pass.position = .committing reference) {fault : Option String}
    (permitted : fault = none → OwnerKept s op.id reference) : Inv codec (commit s pass op reference fault) := by
  have ok := h.pass pass before
  have known := ok.position op rest at_op
  unfold PositionOk at known
  rw [position] at known
  obtain ⟨valid, noAgent, matching⟩ := known
  unfold commit
  cases fault with
  | some message => exact h.faulting before at_op (.refl s) h.confined _
  | none =>
    simp only [matching]
    rw [if_neg (operation_present h before at_op)]
    cases found : s.store.find reference with
    | none =>
      refine h.completed before at_op h.tables id (List.map_id _).symm (fun _ => ⟨rfl, rfl, rfl⟩)
        (fun _ inside => inside) rfl rfl h.confined ?_
      intro named same
      cases valid.symm.trans same
      exact ⟨noAgent, find_eq_none found⟩
    | some owner =>
      obtain ⟨present, named⟩ := find_eq_some found
      refine h.completed before at_op (h.tables.deleteOwner owner.id s.clock) _ rfl ?_
        (fun _ inside => (List.mem_filter.mp inside).1) rfl rfl ?_ ?_
      · intro row
        split_ifs <;> exact ⟨rfl, rfl, rfl⟩
      · refine h.confined.deleteOwner ?_ (permitted rfl)
        intro other inside same
        rw [h.tables.owner_unique inside present same]
        exact named
      · intro named' same
        cases valid.symm.trans same
        refine ⟨noAgent, ?_⟩
        intro other inside same
        obtain ⟨inside, kept⟩ := List.mem_filter.mp inside
        have one := List.inj_on_of_nodup_map h.tables.references inside present (same.trans named.symm)
        simp [one] at kept

theorem reconcile_inv (h : Inv codec s) (before : s.process = .reconciling pass)
    (at_op : pass.pending = op :: rest) {a : Action}
    (permitted : PermittedPass codec s op pass.position a)
    (hstep : reconcile codec s pass op pass.position a = some t) : Inv codec t := by
  have ok := h.pass pass before
  have known := ok.position op rest at_op
  unfold PositionOk at known
  unfold reconcile at hstep
  split at hstep
  · rename_i position
    rw [position] at permitted
    cases hstep
    exact check_inv h before at_op permitted
  · rename_i reference fault position
    rw [position] at permitted known
    have closed := h.confined.closeHublots rfl permitted
    have quiet := Quiet.closeHublots s reference reference.id fault
    cases fault with
    | some fault =>
      cases hstep
      exact h.faulting before at_op quiet closed _
    | none =>
      cases hstep
      exact h.moving before at_op quiet closed (quiet.positionOk known)
  · rename_i reference fault position
    rw [position] at permitted known
    have deleted := h.confined.deleteRoutines rfl permitted
    have quiet := Quiet.deleteRoutines s reference reference.id fault
    cases fault with
    | some fault =>
      cases hstep
      exact h.faulting before at_op quiet deleted _
    | none =>
      cases hstep
      exact h.moving before at_op quiet deleted (quiet.positionOk known)
  · rename_i reference fault position
    rw [position] at permitted
    cases hstep
    exact commit_inv h before at_op position permitted
  · rename_i message stored position
    rw [position] at known
    split_ifs at hstep
    · cases hstep
      refine h.ofPass before rfl rfl (h.tables.updateOperation ..) ?_ h.confined
      refine ok.advance ((s.updateOperation op.id .failed op.stage message).setPass _) at_op
        (fun _ inside => inside) (fun _ inside => inside) _ rfl ?_ _ (.inl known)
      intro row
      split_ifs with this
      · exact ⟨rfl, rfl, fun other => absurd this other⟩
      · exact ⟨rfl, rfl, fun _ => rfl⟩
    · cases hstep
      exact .ofStopped rfl h.tables (h.idle (by rw [before]; rfl)) h.confined
  · cases hstep

end Steps

theorem start_inv (h : Inv codec s) (stopped : s.process = .stopped) (catalog : Catalog) :
    Inv codec (start s catalog) where
  tables := h.tables.markRunningInterrupted
  workflows := h.workflows
  idle := fun _ => h.idle (by rw [stopped]; rfl)
  pass := by
    intro pass reconciling
    cases reconciling
    refine ⟨rfl, ?_, ?_, fun op inside => ⟨op, (List.mem_filter.mp inside).1, rfl, rfl⟩,
      (fun _ _ absurd => nomatch absurd), fun _ _ _ => trivial⟩
    · exact h.tables.markRunningInterrupted.operationIds.sublist (List.filter_sublist.map Operation.id)
    · intro op inside incomplete
      exact List.mem_map_of_mem (List.mem_filter.mpr ⟨inside, by simpa using incomplete⟩)
  confined := h.confined

theorem write_inv (h : Inv codec s) (known : Bool) (store : Store)
    (owners : store.owners = s.store.owners) (operations : store.operations = s.store.operations)
    (hstep : (if s.process.isServing && known then some { s with store } else none) = some t) :
    Inv codec t := by
  split_ifs at hstep with serving
  cases hstep
  simp only [Bool.and_eq_true] at serving
  exact .ofServing serving.1 (h.tables.frame owners operations) h.workflows h.confined

theorem pass_step_inv (h : Inv codec s) {a : Action}
    (permitted : ∀ pass, s.process = .reconciling pass → ∀ op, pass.pending.head? = some op →
      PermittedPass codec s op pass.position a)
    (hstep : (match s.process with
      | .reconciling pass =>
        match pass.pending with
        | op :: _ => reconcile codec s pass op pass.position a
        | [] => none
      | _ => none) = some t) : Inv codec t := by
  cases before : s.process with
  | stopped =>
    rw [before] at hstep
    cases hstep
  | serving =>
    rw [before] at hstep
    cases hstep
  | reconciling pass =>
    rw [before] at hstep
    cases at_op : pass.pending with
    | nil =>
      simp only [at_op] at hstep
      cases hstep
    | cons op rest =>
      simp only [at_op] at hstep
      exact reconcile_inv h before at_op (permitted pass before op (by rw [at_op]; rfl)) hstep

theorem step_inv (codec : Codec) (s : State) (a : Action) (t : State) (h : Inv codec s)
    (permitted : Permitted codec s a) (hstep : step codec s a = some t) : Inv codec t := by
  cases a with
  | ensureOwner reference =>
    simp only [step] at hstep
    split_ifs at hstep with serving
    cases valid : codec.validate reference with
    | error text =>
      rw [valid] at hstep
      cases hstep
    | ok identity =>
      rw [valid] at hstep
      cases hstep
      exact .ofServing serving (h.tables.upsert ..) h.workflows h.confined
  | createAgent reference =>
    simp only [step] at hstep
    cases before : s.process with
    | reconciling pass =>
      rw [before] at hstep
      cases hstep
    | stopped =>
      rw [before] at hstep
      cases hstep
      exact .ofStopped rfl h.tables (h.idle (by rw [before]; rfl)) h.confined
    | serving =>
      rw [before] at hstep
      cases hstep
      exact .ofServing rfl h.tables h.workflows h.confined
  | writeHublots rows =>
    exact write_inv h (knownOwners s (rows.map Hublot.ownerId)) { s.store with hublots := rows } rfl
      rfl hstep
  | writeRoutines rows =>
    exact write_inv h (knownOwners s (rows.map Owned.ownerId)) { s.store with routines := rows } rfl
      rfl hstep
  | writeWidgets rows =>
    exact write_inv h (knownOwners s (rows.map Owned.ownerId)) { s.store with widgets := rows } rfl
      rfl hstep
  | writeCheckpoints rows =>
    exact write_inv h (knownOwners s (rows.map Owned.ownerId)) { s.store with checkpoints := rows } rfl
      rfl hstep
  | begin i reference => exact begin_inv h hstep
  | persist i stored =>
    simp only [step] at hstep
    split at hstep
    · rename_i w held
      split_ifs at hstep
      cases hstep
      exact persist_inv h held (permitted w held)
    · cases hstep
  | act i fault =>
    simp only [step] at hstep
    split at hstep
    · rename_i w held
      split_ifs at hstep
      cases hstep
      exact act_inv h held (permitted w held)
    · cases hstep
  | journal i fault =>
    simp only [step] at hstep
    split at hstep
    · rename_i w held
      split_ifs at hstep
      cases hstep
      exact journal_inv h held
    · cases hstep
  | journalFailure i stored =>
    simp only [step] at hstep
    split at hstep
    · rename_i w held
      split at hstep
      · cases hstep
        exact journalFailure_inv h held
      · cases hstep
    · cases hstep
  | crash =>
    cases hstep
    exact .ofStopped rfl h.tables (fun _ => rfl) h.confined
  | start catalog =>
    simp only [step] at hstep
    split at hstep
    · rename_i stopped
      cases hstep
      exact start_inv h stopped catalog
    · cases hstep
  | serve =>
    simp only [step] at hstep
    split at hstep
    · split_ifs at hstep
      cases hstep
      exact .ofServing rfl h.tables h.workflows h.confined
    · cases hstep
  | _ => exact pass_step_inv h permitted hstep

theorem Inv.init (codec : Codec) : Inv codec {} where
  tables := ⟨(fun _ absurd => nomatch absurd), .nil, .nil, .nil, (fun _ absurd => nomatch absurd),
    fun _ absurd => nomatch absurd⟩
  workflows := fun _ _ absurd => nomatch absurd
  idle := fun _ _ => rfl
  pass := fun _ absurd => nomatch absurd
  confined := fun _ absurd => nomatch absurd

theorem Inv.safe (h : Inv codec s) : Safe codec s where
  confined := h.confined
  independent := fun pass reconciling =>
    ⟨(h.pass pass reconciling).listed, (h.pass pass reconciling).complete⟩
  completes := fun pass reconciling => (h.pass pass reconciling).done

end Invariant

theorem deletion_safe (codec : Codec) (actions : List Action) (s : State)
    (run : Run (step codec) (Permitted codec) {} actions s) : Safe codec s :=
  (run.invariant (step_inv codec) (.init codec)).safe

/-! ### The condition is exact

A dependency that runs to its end where the condition fails removes something of
another session, or something newer than the loss. -/

section Exact
variable {s : State} {id : Nat} {identity : Reference} {owner : Owner}

theorem ofSession_of_joined {store : Store} {ownerId : Option Nat} (joined : store.ownerOf ownerId = some owner) :
    store.ofSession ownerId owner.reference.id = true := by
  simp [Store.ofSession, joined]

theorem shared_hublots_removed (shared : ¬HublotsUnshared s identity) :
    ¬AllConfined (s.closeHublots identity identity.id none) := by
  intro confined
  apply shared
  intro row inside live owner joined same
  have of := ofSession_of_joined joined
  rw [same] at of
  have transition : (row, HublotStatus.closing) ∈ s.hublotTransitions none identity.id := by
    refine List.mem_append_left _ (List.mem_map.mpr ⟨row, List.mem_filter.mpr ⟨inside, ?_⟩, rfl⟩)
    simp [of, live]
  have removed : { kind := .hublot, operation := identity, of := owner.reference } ∈
      (s.closeHublots identity identity.id none).removals := by
    refine List.mem_append_right _ (List.mem_filterMap.mpr ⟨_, transition, ?_⟩)
    rw [joined]
    rfl
  exact (confined _ removed).1

theorem shared_routines_removed (shared : ¬RoutinesUnshared s identity) :
    ¬AllConfined (s.deleteRoutines identity identity.id none) := by
  intro confined
  apply shared
  intro row inside owner joined same
  have of := ofSession_of_joined joined
  rw [same] at of
  have removed : { kind := .routine, operation := identity, of := owner.reference } ∈
      (s.deleteRoutines identity identity.id none).removals := by
    refine List.mem_append_right _ (List.mem_filterMap.mpr ⟨row, List.mem_filter.mpr ⟨inside, of⟩, ?_⟩)
    rw [joined]
    rfl
  exact (confined _ removed).1

theorem new_agent_removed (anew : ¬AgentKept s id identity) :
    ¬AllConfined (s.deleteAgentSession id identity none) := by
  intro confined
  apply anew
  intro session inside same
  have removed : ⟨.agentSession, identity, session.reference, session.created, s.lostOf id⟩ ∈
      (s.deleteAgentSession id identity none).removals :=
    List.mem_append_right _ (List.mem_map.mpr ⟨session, List.mem_filter.mpr ⟨inside, by simpa using same⟩, rfl⟩)
  exact (confined _ removed).2

theorem owner_removed (present : owner ∈ s.store.owners) (confined : AllConfined (s.deleteOwner id identity owner.id)) :
    owner.reference = identity ∧ ∀ d ∈ s.lostOf id, owner.created < d := by
  have removed : ⟨.owner, identity, owner.reference, owner.created, s.lostOf id⟩ ∈
      (s.deleteOwner id identity owner.id).removals :=
    List.mem_append_right _ (List.mem_flatMap.mpr ⟨owner, List.mem_filter.mpr ⟨present, by simp⟩, List.mem_cons_self⟩)
  exact confined _ removed

end Exact

/-! ### Instances -/

def demoPath : NodePath where
  resolve := fun path => path
  relative := fun root path =>
    if root.toList.isPrefixOf path.toList then String.ofList (path.toList.drop (root.length + 1)) else path
  isAbsolute := fun path => path.toList.head? = some '/'
  resolve_resolve := fun _ => rfl

def demoCodec : Codec := ⟨demoPath, "/agent/sessions", "/agent/sessions.sqlite"⟩

def sqliteSession : Reference := ⟨.sqlite, "s", some "/agent/sessions.sqlite"⟩

def jsonlSession : Reference := ⟨.jsonl, "s", some "/agent/sessions/s.jsonl"⟩

def demoCatalog : Catalog := ⟨.sqlite, fun _ => true⟩

/-- The deletion of one session closes a hublot of another that has the same id. -/
theorem shared_id_closes_hublot : ∃ s, exec (step demoCodec) {}
        [.start demoCatalog, .serve, .ensureOwner jsonlSession, .writeHublots [⟨7, some 1, .open⟩],
          .begin 0 sqliteSession, .persist 0 true, .act 0 none, .journal 0 none, .act 0 none,
          .journal 0 none, .act 0 none, .journal 0 none, .act 0 none] = some s ∧
      ¬Safe demoCodec s := by
  refine ⟨_, rfl, ?_⟩
  intro safe
  have own := safe.confined { kind := .hublot, operation := sqliteSession, of := jsonlSession } (by decide)
  exact absurd own.1 (by decide)

def demoCall : State where
  store := { owners := [⟨1, sqliteSession, false, 1⟩], hublots := [⟨7, some 1, .open⟩] }
  agent := [⟨sqliteSession, 0⟩]
  clock := 3
  process := .serving
  workflows := Calls.put (fun _ => none) 0 ⟨sqliteSession, sqliteSession, 1, .persisted, .owned⟩

def demoOperation : Operation :=
  ⟨0, some 1, .interrupted, .persisted, some "server restarted during operation", sqliteSession, none⟩

/-- A pass at the only operation, after a crash behind the first transaction. -/
def demoState (position : Position) (agent : List AgentSession) (status : HublotStatus)
    (removals : List Removal) : State where
  store := {
    owners := [⟨1, sqliteSession, true, 1⟩]
    operations := [demoOperation]
    hublots := [⟨7, some 1, status⟩] }
  agent := agent
  clock := 3
  process := .reconciling ⟨demoCatalog, [demoOperation], position, [], [0], []⟩
  removals := removals

def demoRemovals : List Removal :=
  [⟨.agentSession, sqliteSession, sqliteSession, 0, none⟩, ⟨.hublot, sqliteSession, sqliteSession, 0, none⟩,
    ⟨.hublot, sqliteSession, sqliteSession, 0, none⟩]

/-- A request that is cut off when its operation has been persisted, and the next start. -/
theorem deletion_safe_crash : ∃ s, Run (step demoCodec) (Permitted demoCodec) {}
        [.start demoCatalog, .serve, .createAgent sqliteSession, .ensureOwner sqliteSession,
          .writeHublots [⟨7, some 1, .open⟩], .begin 0 sqliteSession, .persist 0 true, .crash,
          .start demoCatalog, .check none, .closeSessionHublots none, .deleteSessionRoutines none,
          .commit none] s ∧
      (s.agent = [] ∧ s.store.owners = [] ∧ s.store.operations.map Operation.status = [.completed]) ∧
      Safe demoCodec s := by
  have run : ∃ s, Run (step demoCodec) (Permitted demoCodec) {}
      [.start demoCatalog, .serve, .createAgent sqliteSession, .ensureOwner sqliteSession,
        .writeHublots [⟨7, some 1, .open⟩], .begin 0 sqliteSession, .persist 0 true, .crash,
        .start demoCatalog, .check none, .closeSessionHublots none, .deleteSessionRoutines none,
        .commit none] s ∧
      (s.agent = [] ∧ s.store.owners = [] ∧ s.store.operations.map Operation.status = [.completed]) := by
    refine ⟨_, .cons (fun _ absurd => nomatch absurd) rfl (.cons ?serve rfl
      (.cons (fun _ absurd => nomatch absurd) rfl (.cons (fun _ absurd => nomatch absurd) rfl
      (.cons (fun _ absurd => nomatch absurd) rfl (.cons (fun _ absurd => nomatch absurd) (rfl : _ = some demoCall)
      (.cons ?persist rfl (.cons (fun _ absurd => nomatch absurd) rfl
      (.cons (fun _ absurd => nomatch absurd) (rfl : _ = some (demoState .checking [⟨sqliteSession, 0⟩] .open []))
      (.cons ?check (rfl : _ = some (demoState (.closing sqliteSession) [] .open (demoRemovals.take 1)))
      (.cons ?close (rfl : _ = some (demoState (.deleting sqliteSession) [] .closed demoRemovals))
      (.cons ?delete (rfl : _ = some (demoState (.committing sqliteSession) [] .closed demoRemovals))
      (.cons ?commit rfl
      (.nil _))))))))))))), rfl, rfl, rfl⟩
    case serve =>
      intro pass same op first
      cases same
      cases first
    case persist =>
      intro w held _ owner present _
      cases held
      obtain rfl := List.mem_singleton.mp present
      rfl
    case check =>
      intro pass same op first
      cases same
      cases first
      intro _
      refine ⟨⟨demoOperation, List.mem_singleton.mpr rfl, rfl, rfl⟩, ?_⟩
      intro _ reference _ session _ _ d lost
      cases lost
    case close =>
      intro pass same op first
      cases same
      cases first
      intro _ row inside _ owner joined _
      obtain rfl := List.mem_singleton.mp inside
      cases joined
      rfl
    case delete =>
      intro pass same op first
      cases same
      cases first
      intro _ row inside
      cases inside
    case commit =>
      intro pass same op first
      cases same
      cases first
      intro _ owner _ _ d lost
      cases lost
  obtain ⟨s, run, result⟩ := run
  exact ⟨s, run, result, deletion_safe demoCodec _ s run⟩

section
variable {codec : Codec} {s t : State} {pass : Pass} {op : Operation} {rest : List Operation}

theorem step_reconciling {a : Action} (own : a.reconciles = true) (before : s.process = .reconciling pass) (at_op : pass.pending = op :: rest) :
    step codec s a = reconcile codec s pass op pass.position a := by
  cases a <;> cases own <;> simp only [step, before, at_op]

theorem step_decreases {a : Action} (own : a.reconciles = true) (hstep : step codec s a = some t) : t.process.fuel < s.process.fuel := by
  cases before : s.process with
  | stopped => cases a <;> cases own <;> simp only [step, before, reduceCtorEq] at hstep
  | serving => cases a <;> cases own <;> simp only [step, before, reduceCtorEq] at hstep
  | reconciling pass =>
    cases at_op : pass.pending with
    | nil => cases a <;> cases own <;> simp only [step, before, at_op, reduceCtorEq] at hstep
    | cons op rest =>
      rw [step_reconciling own before at_op] at hstep
      exact reconcile_decreases at_op hstep

theorem run_decreases {actions : List Action} (run : Run (step codec) (fun _ a => a.reconciles = true) s actions t) :
    actions.length + t.process.fuel ≤ s.process.fuel := by
  induction run with
  | nil s => exact Nat.le_of_eq (Nat.zero_add _)
  | cons own hstep _ ih =>
    have less := step_decreases own hstep
    rw [List.length_cons]
    omega

/-- However its steps fail, a pass takes at most five of them for an operation, and is never stuck before its last one. -/
theorem pass_ends (codec : Codec) (s t : State) (catalog : Catalog) (actions : List Action)
    (run : Run (step codec) (fun _ a => a.reconciles = true) (start s catalog) actions t) :
    actions.length ≤ 5 * s.store.markRunningInterrupted.listIncomplete.length + 5 ∧
      ∀ pass, t.process = .reconciling pass → pass.pending ≠ [] → ∃ a u, a.reconciles = true ∧ step codec t a = some u := by
  refine ⟨Nat.le_trans (Nat.le_add_right _ _) (run_decreases run), fun pass before more => ?_⟩
  obtain ⟨op, rest, at_op⟩ := List.exists_cons_of_ne_nil more
  obtain ⟨a, u, own, taken⟩ := reconcile_enabled codec t pass op
  exact ⟨a, u, own, (step_reconciling own before at_op).trans taken⟩

/-- The agent session cannot be deleted, and the failure is written down. -/
theorem pass_ends_failing : ∃ t, Run (step demoCodec) (fun _ a => a.reconciles = true)
    (start (demoState .checking [⟨sqliteSession, 0⟩] .open []) demoCatalog)
      [.check (some ⟨"busy", .deleteSession 0⟩), .journalReconcileFailure true] t ∧ 2 ≤ 5 * 1 + 5 := by
  have run : ∃ t, Run (step demoCodec) (fun _ a => a.reconciles = true)
      (start (demoState .checking [⟨sqliteSession, 0⟩] .open []) demoCatalog)
      [.check (some ⟨"busy", .deleteSession 0⟩), .journalReconcileFailure true] t :=
    ⟨_, .cons rfl rfl (.cons rfl rfl (.nil _))⟩
  obtain ⟨t, run⟩ := run
  exact ⟨t, run, (pass_ends demoCodec _ t demoCatalog _ run).1⟩

end
end SessionDeletion
