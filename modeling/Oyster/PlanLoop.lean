import Oyster.Checklist
import Oyster.Interleaving

/-! The loop that has a checklist implemented item by item: a subagent works on the first unchecked item, a script validates what it has
done, and the item is checked and committed. Each operation of the loop is one step, and any may throw. -/
namespace PlanLoop
open Checklist Interleaving

def maxStalledIterations : Nat := 20

/-- The result of `pi.exec`. -/
structure Exec where
  code : Int
  killed : Bool
  stdout : List Char

def Exec.succeeded (result : Exec) : Bool := result.code = 0 && !result.killed

/-- `currentGitHead`, which throws where there is none. -/
def currentGitHead (result : Exec) : Option (List Char) :=
  if result.succeeded && Text.trim result.stdout ≠ [] then some (Text.trim result.stdout) else none

structure IterationResult where
  iteration : Nat
  item : List Char
  succeeded : Bool
  commitHash : Option (List Char)
deriving DecidableEq

/-- What the loop returns. -/
structure Result where
  text : List Char
  complete : Bool
  results : List IterationResult
deriving DecidableEq

/-- The plan that an iteration begins with, and its first unchecked item. -/
structure Attempt where
  planBefore : List Char
  item : ChecklistItem
deriving DecidableEq

/-- The operation that the loop waits for. -/
inductive Stage where
  | inputs
  | begin
  | read
  | head (attempt : Attempt)
  | subagent (attempt : Attempt) (headBefore : List Char)
  | restoredHead (attempt : Attempt) (headBefore : List Char) (ok : Bool)
  | reset (attempt : Attempt) (ok : Bool)
  | validation (attempt : Attempt)
  | check (attempt : Attempt) (checked : List Char)
  | add (attempt : Attempt)
  | commit (attempt : Attempt)
  | hash (attempt : Attempt)
  | restore (attempt : Attempt)
  | returned (result : Result)
  | thrown
deriving DecidableEq

/-- The key of an item: its line and its text. -/
abbrev Key := Nat × List Char

def itemKey (item : ChecklistItem) : Key := (item.line, item.text)

structure State where
  /-- The plan file. -/
  plan : List Char
  stage : Stage
  iteration : Nat
  results : List IterationResult
  stalledItemKey : Option Key
  stalledIterations : Nat
  /-- The plan file when the loop started. -/
  started : List Char
  /-- The items whose validation has passed. -/
  validated : List Key
  /-- The items whose step has been committed. -/
  committed : List Key

/-- How the operation turns out that the loop waits for. -/
inductive Action where
  | inputs (valid : Bool)
  | begins (aborted : Bool)
  | reads
  | executes (result : Exec)
  /-- The subagent has ended, and has left this plan. -/
  | answers (ok : Bool) (plan : List Char)
  | writes
  /-- The operation throws, and may leave another plan if it is the subagent or a write. -/
  | throws (left : Option (List Char))

def start (plan : List Char) : State := ⟨plan, .inputs, 1, [], none, 0, plan, [], []⟩

def loopComplete (iterations : Nat) : List Char :=
  "Loop complete after ".toList ++ (toString iterations).toList ++ " iteration".toList ++
    (if iterations = 1 then [] else "s".toList) ++ "; every checklist item is checked.".toList

def loopStopped (item : List Char) : List Char :=
  "Loop stopped after “".toList ++ item ++ "” failed to advance for ".toList ++ (toString maxStalledIterations).toList ++
    " consecutive iterations.".toList

namespace State
variable (s : State)

def goto (stage : Stage) : State := { s with stage }

def iterate : State :=
  match firstUncheckedItem s.plan with
  | none => s.goto (.returned ⟨loopComplete s.results.length, true, s.results⟩)
  | some item =>
    { s with
      stage := .head ⟨s.plan, item⟩
      stalledItemKey := some (itemKey item)
      stalledIterations := if s.stalledItemKey = some (itemKey item) then s.stalledIterations else 0 }

/-- The subagent's commits are undone, or could not be. -/
def restoredHead (attempt : Attempt) (ok : Bool) : State := s.goto (if ok then .validation attempt else .restore attempt)

def passed (attempt : Attempt) : State :=
  match checkItem attempt.planBefore attempt.item with
  | .error _ => s.goto .thrown
  | .ok checked =>
    { s with stage := .check attempt checked, validated := itemKey attempt.item :: s.validated }

def succeed (attempt : Attempt) (commitHash : Option (List Char)) : State :=
  { s with
    stage := .begin
    iteration := s.iteration + 1
    results := s.results ++ [⟨s.iteration, attempt.item.text, true, commitHash⟩]
    stalledItemKey := none
    stalledIterations := 0 }

def fail (attempt : Attempt) : State :=
  let results := s.results ++ [⟨s.iteration, attempt.item.text, false, none⟩]
  { s with
    stage :=
      if s.stalledIterations + 1 ≥ maxStalledIterations then .returned ⟨loopStopped attempt.item.text, false, results⟩
      else .begin
    iteration := s.iteration + 1
    results
    stalledIterations := s.stalledIterations + 1 }

/-- `pi.exec` has returned. -/
def executes (result : Exec) : Stage → Option State
  | .head attempt =>
    some <| match currentGitHead result with
    | none => s.goto .thrown
    | some head => s.goto (.subagent attempt head)
  | .restoredHead attempt headBefore ok =>
    some <| match currentGitHead result with
    | none => s.goto .thrown
    | some head => if head = headBefore then s.restoredHead attempt ok else s.goto (.reset attempt ok)
  | .reset attempt ok => some (s.restoredHead attempt (ok && result.succeeded))
  | .validation attempt => some (if result.succeeded then s.passed attempt else s.goto (.restore attempt))
  | .add attempt => some (s.goto (if result.succeeded then .commit attempt else .restore attempt))
  | .commit attempt =>
    some <|
      if result.succeeded then
        { s with stage := .hash attempt, committed := itemKey attempt.item :: s.committed }
      else s.goto (.restore attempt)
  | .hash attempt =>
    let hash := Text.trim result.stdout
    some (s.succeed attempt (if result.succeeded && hash ≠ [] then some hash else none))
  | _ => none

def writes : Stage → Option State
  | .check attempt checked => some { s with plan := checked, stage := .add attempt }
  | .restore attempt => some ({ s with plan := attempt.planBefore }.fail attempt)
  | _ => none

def throws (left : Option (List Char)) : Stage → Option State
  | .subagent _ _ | .check _ _ | .restore _ => some { s with plan := left.getD s.plan, stage := .thrown }
  | .begin | .returned _ | .thrown => none
  | _ => if left = none then some (s.goto .thrown) else none

end State

def step (s : State) : Action → Option State
  | .inputs valid =>
    if s.stage = .inputs then
      -- `assertInputs`
      some (s.goto (if valid && !(checklistItems s.plan).isEmpty then .begin else .thrown))
    else none
  | .begins aborted => if s.stage = .begin then some (s.goto (if aborted then .thrown else .read)) else none
  | .reads => if s.stage = .read then some s.iterate else none
  | .executes result => s.executes result s.stage
  | .answers ok plan =>
    match s.stage with
    | .subagent attempt headBefore => some { s with plan, stage := .restoredHead attempt headBefore ok }
    | _ => none
  | .writes => s.writes s.stage
  | .throws left => s.throws left s.stage

def Stage.exits : Stage → Bool
  | .returned _ | .thrown => true
  | _ => false

def Exited (s : State) : Prop := s.stage.exits = true

instance (s : State) : Decidable (Exited s) := inferInstanceAs (Decidable (_ = _))

def uncheck (item : ChecklistItem) : ChecklistItem := { item with checked := false }

/-- At an exit of the loop, each item that is checked, and was not when it started, has been validated and committed. -/
def Clean (s : State) : Prop :=
  Exited s → ∀ item ∈ checklistItems s.plan, item.checked = true → uncheck item ∈ checklistItems s.started →
      itemKey item ∈ s.validated ∧ itemKey item ∈ s.committed

instance (s : State) : Decidable (Clean s) :=
  inferInstanceAs (Decidable (Exited s → ∀ item ∈ checklistItems s.plan, item.checked = true →
    uncheck item ∈ checklistItems s.started → itemKey item ∈ s.validated ∧ itemKey item ∈ s.committed))

def Spoils (planBefore left : List Char) : Prop :=
  ∃ item ∈ checklistItems left, item.checked = true ∧ uncheck item ∈ checklistItems planBefore

/-- No operation throws while the plan has an item checked too early: neither from where the subagent may have edited it up to the write
that replaces it, nor between that write and the commit. -/
def Timely (s : State) : Action → Prop
  | .throws left =>
    match s.stage with
    | .subagent attempt _ | .check attempt _ | .restore attempt => ¬Spoils attempt.planBefore (left.getD s.plan)
    | .restoredHead attempt _ _ | .reset attempt _ | .validation attempt => ¬Spoils attempt.planBefore s.plan
    | .add _ | .commit _ => False
    | _ => True
  | .executes result =>
    match s.stage with
    | .restoredHead attempt _ _ => currentGitHead result = none → ¬Spoils attempt.planBefore s.plan
    | _ => True
  | _ => True

end PlanLoop
