import Oyster.Tasks
import Oyster.Text
import Mathlib.Logic.Function.Basic

/-! The import of legacy data under an entry of the migration ledger. The writes of the ledger are not awaited: they are handed to the
queue of the database, and take effect at the earliest when the code that issues them awaits something else. -/
namespace LegacyMigration
open Tasks

/-- `none` stands for conflicts that are no array, and for a conflict that cannot be serialized. -/
structure Report where
  sourceCount : Int
  destinationCount : Int
  conflicts : Option (List (Option String))

structure Tally where
  sourceCounts : List (String × Int) := []
  destinationCounts : List (String × Int) := []
  conflicts : List (String × String) := []
  deriving DecidableEq

def isCount (value : Int) : Bool := 0 ≤ value && value ≤ 9007199254740991

/-- A report is added up to the first part that is refused. -/
def Tally.add (t : Tally) (domain : String) (report : Report) : Tally × Option String :=
  if !isCount report.sourceCount then (t, some (domain ++ " sourceCount must be a non-negative safe integer"))
  else
    let t := { t with sourceCounts := t.sourceCounts ++ [(domain, report.sourceCount)] }
    if !isCount report.destinationCount then (t, some (domain ++ " destinationCount must be a non-negative safe integer"))
    else
      let t := { t with destinationCounts := t.destinationCounts ++ [(domain, report.destinationCount)] }
      match report.conflicts with
      | none => (t, some (domain ++ " conflicts must be an array"))
      | some conflicts =>
        ({ t with conflicts := t.conflicts ++ ((conflicts.takeWhile Option.isSome).reduceOption.map (domain, ·)) },
          if conflicts.all Option.isSome then none else some (domain ++ " conflicts must be JSON-serializable objects"))

inductive Status where
  | running | completed | failed
  deriving DecidableEq

structure Row where
  status : Status
  tally : Option Tally
  error : Option String
  deriving DecidableEq

inductive Write where
  | start
  | finish (status : Status) (tally : Tally) (error : Option String)
  deriving DecidableEq

/-- The row under the id of the run, the writes that are queued, and history: those stored and those rejected, which nobody handles. -/
structure Ledger where
  row : Option Row
  queue : List Write := []
  stored : List Write := []
  rejected : List Write := []
  deriving DecidableEq

/-- The writes that the database refuses, and whether it takes the closing one before that of the start, neither being awaited. -/
structure Faults where
  start : Bool := false
  finish : Bool := false
  overtaken : Bool := false

/-- The statement of a write, which the database may refuse: the id of a row is unique. -/
def Ledger.perform (faults : Faults) (l : Ledger) : Write → Ledger
  | .start =>
    if faults.start ∨ l.row.isSome then { l with rejected := l.rejected ++ [.start] }
    else { l with row := some ⟨.running, none, none⟩, stored := l.stored ++ [.start] }
  | .finish status tally error =>
    if faults.finish then { l with rejected := l.rejected ++ [.finish status tally error] }
    else { l with row := l.row.map fun _ => ⟨status, some tally, error⟩, stored := l.stored ++ [.finish status tally error] }

/-- All writes in the queue have been stored or rejected. -/
def Ledger.settle (faults : Faults) (l : Ledger) : Ledger :=
  (if faults.overtaken then l.queue.reverse else l.queue).foldl (·.perform faults) { l with queue := [] }

def Ledger.issue (l : Ledger) (write : Write) : Ledger := { l with queue := l.queue ++ [write] }

abbrev Entry (σ : Type) := String × (Bool → Task σ Report)

/-- The clocks tell whether `now` gives a time stamp for the start, the end and a failure. -/
structure Input (σ : Type) where
  mode : String
  id : String
  entries : List (Entry σ)
  startClock : Bool := true
  finishClock : Bool := true
  failureClock : Bool := true
  row : Option Row := none
  faults : Faults := {}

inductive RecordingError where
  | timestamp (error : String)
  | finish (error : String)
  deriving DecidableEq

structure Failure where
  error : String
  recordingErrors : List RecordingError
  deriving DecidableEq

/-- `calls` is history: the ledger at the call of each task. Nothing that a run does depends on when its writes are performed. -/
structure Progress (σ : Type) where
  ledger : Ledger
  tally : Tally := {}
  calls : List Ledger := []
  stores : σ

section
variable {σ : Type}

def Input.apply (input : Input σ) : Bool := input.mode = "apply"

/-- Nothing is recorded of the run and no task called. -/
def Input.refused (input : Input σ) : Bool :=
  !((input.mode = "dry-run" || input.mode = "apply") && input.id ≠ "" && !input.entries.isEmpty &&
    (input.entries.all fun entry => Text.trim entry.1.toList ≠ []) && input.startClock)

/-- `await task(...)`. -/
def Progress.call (p : Progress σ) (apply : Bool) (entry : Entry σ) : Progress σ × Option String :=
  let p := { p with calls := p.calls ++ [p.ledger] }
  match (entry.2 apply).run.run p.stores with
  | (.error cause, stores) => ({ p with stores }, some cause)
  | (.ok report, stores) => ({ p with stores, tally := (p.tally.add entry.1 report).1 }, (p.tally.add entry.1 report).2)

def runTasks (apply : Bool) (p : Progress σ) : List (Entry σ) → Progress σ × Option String
  | [] => (p, none)
  | entry :: rest =>
    match p.call apply entry with
    | (p, none) => runTasks apply p rest
    | (p, some cause) => (p, some cause)

def Progress.finish (p : Progress σ) (status : Status) (error : Option String) : Progress σ :=
  { p with ledger := p.ledger.issue (.finish status p.tally error) }

/-- `finish` is asynchronous, so that the `catch` around its call catches nothing. -/
def recordMigrationFailure (input : Input σ) (p : Progress σ) (cause : String) : Progress σ × Except Failure Tally :=
  (p.finish .failed (some cause),
    .error ⟨cause, if input.failureClock then [] else [.timestamp "migration failure timestamp must be a non-empty string"]⟩)

def runLegacyMigration (input : Input σ) (stores : σ) : Progress σ × Except Failure Tally :=
  let p : Progress σ := { ledger := { row := input.row }, stores }
  if input.refused then (p, .error ⟨"invalid migration", []⟩)
  else
    match runTasks input.apply { p with ledger := p.ledger.issue .start } input.entries with
    | (p, some cause) => recordMigrationFailure input p cause
    | (p, none) =>
      if input.finishClock then (p.finish .completed none, .ok p.tally)
      else recordMigrationFailure input p "migration finish timestamp must be a non-empty string"

/-- What the ledger is to show of a run, once its writes have been stored or rejected. -/
structure Audited (l : Ledger) (run : Progress σ × Except Failure Tally) : Prop where
  completed : ∀ tally, run.2 = .ok tally → l.row = some ⟨.completed, some tally, none⟩
  started : run.1.calls ≠ [] → .start ∈ l.stored
  failed : ∀ failure, run.2 = .error failure → .start ∈ l.stored →
    ((∃ row ∈ l.row, row.status = .failed) ∨ ∃ error, .finish error ∈ failure.recordingErrors) ∧ ∀ row ∈ l.row, row.status ≠ .completed
  handled : l.rejected = []

/-- At the first call of a task, the row of the start is stored, and at the end, no write is left that nobody awaits. -/
def Awaited (run : Progress σ × Except Failure Tally) : Prop :=
  (∀ call ∈ run.1.calls.head?, .start ∈ call.stored) ∧ run.1.ledger.queue = []

/-- The row of the start can be stored, and after it the closing one. -/
def Input.recorded (input : Input σ) : Bool :=
  input.row.isNone && !input.faults.start && !input.faults.finish && !input.faults.overtaken

/-- Each task leaves what the next one needs, and what is left at the end or by a task that throws is sound. -/
def Chain (S : σ → Prop) (apply : Bool) : List (Entry σ) → (σ → Prop) → Prop
  | [], P => ∀ s, P s → S s
  | entry :: rest, P => ∃ Q, Triple P (entry.2 apply) (fun _ => Q) S ∧ (∀ s, Q s → S s) ∧ Chain S apply rest Q

variable {apply : Bool} {p : Progress σ} {P S : σ → Prop}

theorem call_spec {Q : σ → Prop} {entry : Entry σ} (triple : Triple P (entry.2 apply) (fun _ => Q) S) (weaker : ∀ s, Q s → S s)
    (before : P p.stores) : (p.call apply entry).1.ledger = p.ledger ∧ (p.call apply entry).1.calls = p.calls ++ [p.ledger] ∧
      S (p.call apply entry).1.stores ∧ ((p.call apply entry).2 = none → Q (p.call apply entry).1.stores) := by
  have ended := triple p.stores before
  unfold Progress.call
  dsimp only
  match (entry.2 apply).run.run p.stores, ended with
  | (.error _, _), ended => exact ⟨rfl, rfl, ended, nofun⟩
  | (.ok _, _), ended => exact ⟨rfl, rfl, weaker _ ended, fun _ => ended⟩

theorem runTasks_spec {entries : List (Entry σ)} (chain : Chain S apply entries P) (before : P p.stores) :
    (runTasks apply p entries).1.ledger = p.ledger ∧ S (runTasks apply p entries).1.stores ∧
      p.calls ++ (entries.head?.map fun _ => p.ledger).toList <+: (runTasks apply p entries).1.calls := by
  induction entries generalizing p P with
  | nil => exact ⟨rfl, chain _ before, (List.append_nil p.calls).symm ▸ List.prefix_rfl⟩
  | cons entry rest ih =>
    obtain ⟨Q, triple, weaker, chain⟩ := chain
    obtain ⟨ledger, calls, sound, left⟩ := call_spec (p := p) triple weaker before
    unfold runTasks
    generalize p.call apply entry = called at ledger calls sound left
    match called with
    | (q, none) =>
      obtain ⟨same, sound, later⟩ := ih chain (left rfl)
      have before : p.calls ++ [p.ledger] <+: q.calls := calls ▸ List.prefix_rfl
      exact ⟨same.trans ledger, sound, before.trans ((List.prefix_append ..).trans later)⟩
    | (q, some _) => exact ⟨ledger, sound, calls ▸ List.prefix_rfl⟩

theorem runLegacyMigration_refused {input : Input σ} (refused : input.refused = true) (stores : σ) :
    runLegacyMigration input stores = ({ ledger := { row := input.row }, stores }, .error ⟨"invalid migration", []⟩) := by
  unfold runLegacyMigration
  rw [refused]
  rfl

/-- A run that is not refused issues its start, calls a task, and issues its end, which its outcome agrees with. -/
theorem run_spec {input : Input σ} (accepted : input.refused = false) (stores : σ) (chain : Chain S input.apply input.entries P)
    (before : P stores) : S (runLegacyMigration input stores).1.stores ∧
      (runLegacyMigration input stores).1.calls.head? = some (({ row := input.row } : Ledger).issue .start) ∧
      ∃ (status : Status) (tally : Tally) (error : Option String),
        (runLegacyMigration input stores).1.ledger = { row := input.row, queue := [.start, .finish status tally error] } ∧
          ((status = .completed ∧ error = none ∧ (runLegacyMigration input stores).2 = .ok tally) ∨
            (status = .failed ∧ ∃ failure, (runLegacyMigration input stores).2 = .error failure ∧
              ∀ error, .finish error ∉ failure.recordingErrors)) := by
  have caught (cause : String) (p : Progress σ) : ∃ failure, (recordMigrationFailure input p cause).2 = .error failure ∧
      ∀ error, .finish error ∉ failure.recordingErrors := by
    refine ⟨_, rfl, fun error => ?_⟩
    split_ifs <;> simp
  have closed {p : Progress σ} (same : p.ledger = ({ row := input.row } : Ledger).issue .start) (status : Status) (error : Option String) :
      (p.finish status error).ledger = { row := input.row, queue := [.start, .finish status p.tally error] } :=
    congrArg (·.issue (.finish status p.tally error)) same
  obtain ⟨ledger, sound, later, calls⟩ :=
    runTasks_spec (p := { ledger := ({ row := input.row } : Ledger).issue .start, stores }) chain before
  have nonempty : input.entries ≠ [] := by
    intro empty
    simp [Input.refused, empty] at accepted
  obtain ⟨entry, rest, entries⟩ := List.exists_cons_of_ne_nil nonempty
  unfold runLegacyMigration
  rw [accepted]
  dsimp only
  rw [if_neg Bool.false_ne_true]
  rw [entries] at calls ledger sound ⊢
  generalize runTasks input.apply { ledger := ({ row := input.row } : Ledger).issue .start, stores } (entry :: rest) = ran
    at ledger sound calls ⊢
  match ran with
  | (p, some cause) =>
    exact ⟨sound, congrArg List.head? calls.symm, .failed, p.tally, some cause, closed ledger _ _, .inr ⟨rfl, caught cause p⟩⟩
  | (p, none) =>
    dsimp only
    split_ifs
    · exact ⟨sound, congrArg List.head? calls.symm, .completed, p.tally, none, closed ledger _ _, .inl ⟨rfl, rfl, rfl⟩⟩
    · exact ⟨sound, congrArg List.head? calls.symm, .failed, p.tally, _, closed ledger _ _, .inr ⟨rfl, caught _ p⟩⟩

theorem runLegacyMigration_stores {input : Input σ} {stores : σ} (chain : Chain S input.apply input.entries P) (before : P stores)
    (sound : S stores) : S (runLegacyMigration input stores).1.stores := by
  cases refused : input.refused with
  | true =>
    rw [runLegacyMigration_refused refused]
    exact sound
  | false => exact (run_spec refused stores chain before).1

theorem chain_true (entries : List (Entry σ)) : Chain (fun _ => True) apply entries fun _ => True := by
  induction entries with
  | nil => exact fun _ => id
  | cons entry rest ih =>
    refine ⟨fun _ => True, fun s _ => ?_, fun _ => id, ih⟩
    match (entry.2 apply).run.run s with
    | (.ok _, _) | (.error _, _) => trivial

/-- Nothing is to be shown of a run that has not begun. -/
theorem refused_audited (faults : Faults) (row : Option Row) (stores : σ) (failure : Failure) :
    Audited (({ row } : Ledger).settle faults) ({ ledger := { row }, stores }, .error failure) ∧
      Awaited ({ ledger := { row }, stores }, .error failure) := by
  have settled : ({ row } : Ledger).settle faults = { row } := by
    unfold Ledger.settle
    split_ifs <;> rfl
  rw [settled]
  exact ⟨⟨nofun, fun calls => (calls rfl).elim, nofun, rfl⟩, nofun, rfl⟩

theorem runLegacyMigration_audited_iff (input : Input σ) (stores : σ) :
    (Audited ((runLegacyMigration input stores).1.ledger.settle input.faults) (runLegacyMigration input stores) ↔
        input.refused = true ∨ input.recorded = true) ∧
      (Awaited (runLegacyMigration input stores) ↔ input.refused = true) := by
  cases refused : input.refused with
  | true =>
    rw [runLegacyMigration_refused refused]
    have audited := refused_audited input.faults input.row stores ⟨"invalid migration", []⟩
    exact ⟨iff_of_true audited.1 (.inl rfl), iff_of_true audited.2 rfl⟩
  | false =>
    obtain ⟨_, first, status, tally, error, ledger, ends⟩ := run_spec refused stores (chain_true input.entries) trivial
    refine ⟨?_, iff_of_false (fun awaited => ?_) Bool.false_ne_true⟩
    · rw [or_iff_right Bool.false_ne_true, ledger]
      constructor
      · rintro ⟨shown, _, recorded, handled⟩
        unfold Input.recorded
        cases free : input.row <;> cases start : input.faults.start <;> cases finish : input.faults.finish <;>
          cases overtaken : input.faults.overtaken <;>
          simp [Ledger.settle, Ledger.perform, free, start, finish, overtaken] at shown recorded handled ⊢
        -- only the order of the two writes is wrong
        rcases ends with ⟨_, _, outcome⟩ | ⟨_, failure, outcome, silent⟩
        · exact shown tally outcome
        · obtain ⟨error, carried⟩ := recorded failure outcome
          exact silent error carried
      · intro recorded
        simp only [Input.recorded, Bool.and_eq_true, Bool.not_eq_true', Option.isNone_iff_eq_none] at recorded
        obtain ⟨⟨⟨free, start⟩, finish⟩, overtaken⟩ := recorded
        have settled : ({ row := input.row, queue := [.start, .finish status tally error] } : Ledger).settle input.faults =
            ⟨some ⟨status, some tally, error⟩, [], [.start, .finish status tally error], []⟩ := by
          simp [Ledger.settle, Ledger.perform, free, start, finish, overtaken]
        rw [settled]
        refine ⟨fun reported same => ?_, fun _ => List.mem_cons_self, fun failure same _ => ?_, rfl⟩
        · rcases ends with ⟨rfl, rfl, outcome⟩ | ⟨_, failure, outcome, _⟩
          · cases outcome.symm.trans same
            rfl
          · cases outcome.symm.trans same
        · rcases ends with ⟨_, _, outcome⟩ | ⟨rfl, _⟩
          · cases outcome.symm.trans same
          · exact ⟨.inl ⟨_, rfl, rfl⟩, fun row mem => Option.some.inj mem ▸ nofun⟩
    · rw [Awaited, first] at awaited
      cases awaited.1 _ rfl

end

/-- The rows of the repositories, and history: the candidates that have been found stored as they are, and the files that have been
renamed, each with what had been found by then. -/
structure Stores (κ ρ : Type) where
  rows : κ → Option ρ
  operations : Nat := 0
  found : List κ := []
  renamed : List (String × List κ) := []

/-- `recorded` is what a repository keeps when it records the candidate. -/
structure Candidate (κ ρ : Type) where
  key : κ
  recorded : ρ
  expected : ρ

/-- The candidates of a source, unless it is missing or refused, and the files that it adds to the validated ones. -/
structure Source (κ ρ : Type) where
  content : Except String (Option (List (Candidate κ ρ)))
  files : List String
  conflicts : List (Candidate κ ρ × Option ρ) → List (Option String)

/-- `fails` are the operations on a repository that fail. `backupFile` tells whether the handler renames the file and whether it
returns a report, `stamp` whether `now` gives a date. The tasks are those below. -/
structure AppData (κ ρ : Type) extends Input (Stores κ ρ) where
  serviceStopped : Bool
  checkpoints : Source κ ρ
  routines : Source κ ρ
  fails : Nat → Bool
  backupFile : String → Bool × Bool
  stamp : Bool

section
variable {κ ρ : Type} {P S : Stores κ ρ → Prop} {all : List κ} {fails : Nat → Bool}

def Source.candidates (source : Source κ ρ) : List (Candidate κ ρ) :=
  match source.content with
  | .ok (some candidates) => candidates
  | _ => []

/-- An operation on a repository. -/
def query {α : Type} (fails : Nat → Bool) (answer : Stores κ ρ → α) (write : Stores κ ρ → Stores κ ρ) : Task (Stores κ ρ) α :=
  ExceptT.mk fun s =>
    if fails s.operations then (.error "repository operation failed", { s with operations := s.operations + 1 })
    else (.ok (answer s), { write s with operations := s.operations + 1 })

/-- No file has been renamed, and the candidates with these keys have been found. -/
def Clean (keys : List κ) (s : Stores κ ρ) : Prop := s.renamed = [] ∧ keys ⊆ s.found

/-- Every file that has been renamed was so after all candidates had been found. -/
def Sound (all : List κ) (s : Stores κ ρ) : Prop := ∀ file ∈ s.renamed, all ⊆ file.2

def backUp (backupFile : String → Bool × Bool) (path : String) : Task (Stores κ ρ) PUnit := do
  if (backupFile path).1 then modify fun s => { s with renamed := s.renamed ++ [(path, s.found)] }
  if (backupFile path).2 then pure () else throw "legacy backup handler must synchronously return a backup report object"

/-- The validated sources are those of both tasks, as the second one calls it at its end. -/
def AppData.retainValidatedSources (d : AppData κ ρ) : Task (Stores κ ρ) PUnit :=
  if d.stamp then (d.checkpoints.files ++ d.routines.files).eraseDups.forM (backUp d.backupFile) else throw "Invalid time value"

theorem query_keeps {α : Type} {answer : Stores κ ρ → α} {write : Stores κ ρ → Stores κ ρ} (weaker : ∀ s, P s → S s)
    (operations : ∀ s n, P s → P { s with operations := n }) (writes : ∀ s, P s → P (write s)) :
    Triple P (query fails answer write) (fun _ => P) S := by
  intro s before
  show Ends (fun _ => P) S (if fails s.operations then (.error "repository operation failed", { s with operations := s.operations + 1 })
    else (.ok (answer s), { write s with operations := s.operations + 1 }))
  split_ifs
  · exact weaker _ (operations s _ before)
  · exact operations _ _ (writes s before)

theorem Clean.sound {keys : List κ} {s : Stores κ ρ} (clean : Clean keys s) : Sound all s := by
  intro file mem
  rw [clean.1] at mem
  cases mem

theorem backUp_sound (backupFile : String → Bool × Bool) (path : String) :
    Triple (fun s : Stores κ ρ => Sound all s ∧ all ⊆ s.found) (backUp backupFile path) (fun _ s => Sound all s ∧ all ⊆ s.found)
      (Sound all) := by
  have renamed (s : Stores κ ρ) (before : Sound all s ∧ all ⊆ s.found) : Sound all { s with renamed := s.renamed ++ [(path, s.found)] } := by
    intro file mem
    rcases List.mem_append.mp mem with old | new
    · exact before.1 file old
    · exact List.mem_singleton.mp new ▸ before.2
  unfold backUp
  dsimp only
  split_ifs
  · exact .bind (Q := fun _ s => Sound all s ∧ all ⊆ s.found) (.modify fun s before => ⟨renamed s before, before.2⟩) fun _ => .pure _ fun _ => id
  · exact .bind (Q := fun _ s => Sound all s ∧ all ⊆ s.found) (.modify fun s before => ⟨renamed s before, before.2⟩)
      fun _ => .throw (fun _ => And.left) _
  · exact .pure _ fun _ => id
  · exact .throw (fun _ => And.left) _

theorem retainValidatedSources_sound (d : AppData κ ρ) :
    Triple (Clean all) d.retainValidatedSources (fun _ => Sound all) (Sound all) := by
  unfold AppData.retainValidatedSources
  split_ifs
  · exact (Triple.forM (Q := fun _ s => Sound all s ∧ all ⊆ s.found) (fun _ path => backUp_sound d.backupFile path) _ []).imp
      (fun s clean => ⟨clean.sound, clean.2⟩) fun _ _ => And.left
  · exact .throw (fun _ => Clean.sound) _

variable [DecidableEq κ]

def findRow (fails : Nat → Bool) (key : κ) : Task (Stores κ ρ) (Option ρ) := query fails (·.rows key) id

def recordRow (fails : Nat → Bool) (key : κ) (row : ρ) : Task (Stores κ ρ) PUnit :=
  query fails (fun _ => ⟨⟩) fun s => { s with rows := Function.update s.rows key (some row) }

/-- `importLegacyCheckpoints` and `importLegacyRoutines`. -/
def importLegacy (fails : Nat → Bool) (source : Source κ ρ) (apply : Bool) : Task (Stores κ ρ) Report :=
  match source.content with
  | .error error => throw error
  | .ok none => pure ⟨0, 0, some (source.conflicts [])⟩
  | .ok (some candidates) => do
    let inspections ← candidates.mapM fun c => do
      let row ← findRow fails c.key
      return (c, row)
    let imports := inspections.filter (·.2.isNone)
    if apply then imports.forM fun inspection => recordRow fails inspection.1.key inspection.1.recorded
    return ⟨candidates.length, inspections.length - imports.length + if apply then imports.length else 0,
      some (source.conflicts inspections)⟩

theorem importLegacy_keeps {apply : Bool} (source : Source κ ρ) (weaker : ∀ s, P s → S s)
    (operations : ∀ s n, P s → P { s with operations := n }) (rows : apply = true → ∀ s rows, P s → P { s with rows }) :
    Triple P (importLegacy fails source apply) (fun _ => P) S := by
  unfold importLegacy
  split
  · exact .throw weaker _
  · exact .pure _ fun _ => id
  · refine .bind (Q := fun _ => P) (.mapM (fun c => ?_) _) fun inspections => ?_
    · exact .bind (query_keeps weaker operations fun _ => id) fun _ => .pure _ fun _ => id
    · dsimp only
      split_ifs with applied
      · refine .bind (Q := fun _ => P) (.forM (Q := fun _ => P) (fun _ _ => ?_) _ []) fun _ => .pure _ fun _ => id
        exact query_keeps weaker operations fun s before => rows applied s _ before
      · exact .pure _ fun _ => id

variable [DecidableEq ρ]

def validateCandidate (fails : Nat → Bool) (c : Candidate κ ρ) : Task (Stores κ ρ) PUnit := do
  let stored ← findRow fails c.key
  if stored = some c.expected then modify fun s => { s with found := s.found ++ [c.key] } else throw "validation failed"

def importTask (fails : Nat → Bool) (source : Source κ ρ) (apply : Bool) : Task (Stores κ ρ) Report := do
  let report ← importLegacy fails source apply
  if apply then source.candidates.forM (validateCandidate fails)
  return report

def AppData.routinesTask (d : AppData κ ρ) (apply : Bool) : Task (Stores κ ρ) Report := do
  let report ← importTask d.fails d.routines apply
  if apply then d.retainValidatedSources
  return report

def AppData.input (d : AppData κ ρ) : Input (Stores κ ρ) :=
  { d.toInput with entries := [("checkpoints", importTask d.fails d.checkpoints), ("routines", d.routinesTask)] }

def importLegacyAppData (d : AppData κ ρ) (rows : κ → Option ρ) : Progress (Stores κ ρ) × Except Failure Tally :=
  if d.serviceStopped then runLegacyMigration d.input { rows }
  else ({ ledger := { row := d.row }, stores := { rows } }, .error ⟨"legacy import requires the oyster service to be stopped", []⟩)

/-- Nothing is recorded of the import and no task called. -/
def AppData.refused (d : AppData κ ρ) : Bool := !d.serviceStopped || d.input.refused

def AppData.keys (d : AppData κ ρ) : List κ := (d.checkpoints.candidates ++ d.routines.candidates).map Candidate.key

theorem importTask_clean (source : Source κ ρ) (keys : List κ) :
    Triple (Clean keys) (importTask fails source true) (fun _ => Clean (keys ++ source.candidates.map Candidate.key)) (Sound all) := by
  refine .bind (importLegacy_keeps source (fun _ => Clean.sound) (fun _ _ => id) fun _ _ _ => id) fun _ => ?_
  refine .bind (Q := fun _ => Clean (keys ++ source.candidates.map Candidate.key)) ?_ fun _ => .pure _ fun _ => id
  refine (Triple.forM (Q := fun done => Clean (keys ++ done.map Candidate.key)) (fun done c => ?_) source.candidates []).imp
    (fun s clean => (List.append_nil keys).symm ▸ clean) fun _ _ => id
  refine .bind (query_keeps (fun _ => Clean.sound) (fun _ _ => id) fun _ => id) fun row => ?_
  split_ifs
  · refine .modify fun s clean => ⟨clean.1, ?_⟩
    rw [List.map_append, ← List.append_assoc]
    exact List.append_subset.mpr ⟨List.Subset.trans clean.2 (List.subset_append_left ..), List.subset_append_right ..⟩
  · exact .throw (fun _ => Clean.sound) _

/-- Without `apply`, nothing is recorded and no file renamed; with it, no file is renamed before all candidates are found. -/
theorem importLegacyAppData_stores (d : AppData κ ρ) (rows : κ → Option ρ) :
    (d.mode ≠ "apply" → (importLegacyAppData d rows).1.stores.rows = rows ∧ (importLegacyAppData d rows).1.stores.renamed = []) ∧
      Sound d.keys (importLegacyAppData d rows).1.stores := by
  unfold importLegacyAppData
  split_ifs
  · have dryRun (off : d.input.apply = false) : (runLegacyMigration d.input { rows }).1.stores.rows = rows ∧
        (runLegacyMigration d.input { rows }).1.stores.renamed = [] := by
      let P (s : Stores κ ρ) : Prop := s.rows = rows ∧ s.renamed = []
      have keeps (source : Source κ ρ) : Triple P (importTask d.fails source false) (fun _ => P) P :=
        .bind (importLegacy_keeps source (fun _ => id) (fun _ _ => id) nofun) fun _ => .pure _ fun _ => id
      have chain : Chain P false d.input.entries P :=
        ⟨P, keeps d.checkpoints, fun _ => id, P, .bind (keeps d.routines) fun _ => .pure _ fun _ => id, fun _ => id, fun _ => id⟩
      have start : P { rows } := ⟨rfl, rfl⟩
      exact runLegacyMigration_stores (off ▸ chain) start start
    refine ⟨fun mode => dryRun (decide_eq_false mode), ?_⟩
    cases on : d.input.apply with
    | false =>
      have clean : Clean [] (runLegacyMigration d.input { rows }).1.stores := ⟨(dryRun on).2, List.nil_subset _⟩
      exact clean.sound
    | true =>
      have keys : d.keys = d.checkpoints.candidates.map Candidate.key ++ d.routines.candidates.map Candidate.key := List.map_append
      have chain : Chain (Sound d.keys) true d.input.entries (Clean []) := by
        refine ⟨_, importTask_clean d.checkpoints [], fun _ => Clean.sound, Sound d.keys, ?_, fun _ => id, fun _ => id⟩
        refine .bind (importTask_clean d.routines _) fun _ => .bind ?_ fun _ => .pure _ fun _ => id
        exact keys ▸ retainValidatedSources_sound d
      have start : Clean [] ({ rows } : Stores κ ρ) := ⟨rfl, List.nil_subset _⟩
      exact runLegacyMigration_stores (on ▸ chain) start start.sound
  · exact ⟨fun _ => ⟨rfl, rfl⟩, nofun⟩

end

/-- Of a run that is not refused, the ledger tells the truth if and only if the id is free and the two writes are stored in their order;
it does so in time of none. What is said of rows and files always holds. -/
theorem legacy_import_audited_iff {κ ρ : Type} [DecidableEq κ] [DecidableEq ρ] :
    (∀ (σ : Type) (input : Input σ) (stores : σ),
      (Audited ((runLegacyMigration input stores).1.ledger.settle input.faults) (runLegacyMigration input stores) ↔
          input.refused = true ∨ input.recorded = true) ∧
        (Awaited (runLegacyMigration input stores) ↔ input.refused = true)) ∧
      ∀ (d : AppData κ ρ) (rows : κ → Option ρ),
        ((Audited ((importLegacyAppData d rows).1.ledger.settle d.faults) (importLegacyAppData d rows) ↔
            d.refused = true ∨ d.input.recorded = true) ∧
          (Awaited (importLegacyAppData d rows) ↔ d.refused = true)) ∧
        (d.mode ≠ "apply" →
          (importLegacyAppData d rows).1.stores.rows = rows ∧ (importLegacyAppData d rows).1.stores.renamed = []) ∧
        Sound d.keys (importLegacyAppData d rows).1.stores := by
  refine ⟨fun _ => runLegacyMigration_audited_iff, fun d rows => ⟨?_, importLegacyAppData_stores d rows⟩⟩
  unfold AppData.refused importLegacyAppData
  cases d.serviceStopped with
  | true => exact runLegacyMigration_audited_iff d.input { rows }
  | false =>
    have audited := refused_audited d.faults d.row (σ := Stores κ ρ) { rows } ⟨"legacy import requires the oyster service to be stopped", []⟩
    exact ⟨iff_of_true audited.1 (.inl rfl), iff_of_true audited.2 rfl⟩

def withoutSources : AppData String String :=
  { mode := "dry-run", id := "m", entries := [], faults := { start := true }, serviceStopped := true, stamp := true
    checkpoints := ⟨.ok none, [], fun _ => []⟩, routines := ⟨.ok none, [], fun _ => []⟩
    fails := fun _ => false, backupFile := fun _ => (true, true) }

/-- The write of the start fails. The tasks run, the import is reported as completed, and no row tells of it. -/
theorem completed_unrecorded : ∃ tally, (importLegacyAppData withoutSources fun _ => none).2 = .ok tally ∧
    (importLegacyAppData withoutSources fun _ => none).1.calls.length = 2 ∧
      (importLegacyAppData withoutSources fun _ => none).1.ledger.settle withoutSources.faults =
        ⟨none, [], [.finish .completed tally none], [.start]⟩ :=
  ⟨⟨[("checkpoints", 0), ("routines", 0)], [("checkpoints", 0), ("routines", 0)], []⟩, by decide⟩

end LegacyMigration
