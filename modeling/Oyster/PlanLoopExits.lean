import Oyster.PlanLoop

/-! What the plan has checked when the loop exits. Between two iterations the plan is the one that the loop started with, with the committed
items checked; an exit is clean if it leaves a plan that checks nothing else. -/
namespace PlanLoop
open Checklist Interleaving

def mark (committed : List Key) (item : ChecklistItem) : ChecklistItem :=
  if itemKey item ∈ committed then { item with checked := true } else item

def Settled (started : List Char) (committed : List Key) (plan : List Char) : Prop :=
  checklistItems plan = (checklistItems started).map (mark committed)

section Settled
variable {started plan left : List Char} {committed : List Key} {item : ChecklistItem}

theorem settled_start (plan : List Char) : Settled plan [] plan := by
  have same : mark [] = id := funext fun item => if_neg List.not_mem_nil
  rw [Settled, same, List.map_id]

theorem line_mark (committed : List Key) (item : ChecklistItem) : (mark committed item).line = item.line := by
  unfold mark
  split_ifs
  · rfl
  · rfl

theorem mark_of_unchecked (unchecked : (mark committed item).checked = false) :
    mark committed item = item ∧ itemKey item ∉ committed := by
  unfold mark at unchecked ⊢
  split_ifs at unchecked ⊢ with done
  exact ⟨rfl, done⟩

/-- The unchecked items of a settled plan are those that were unchecked and have not been committed. -/
theorem Settled.unchecked_iff (settled : Settled started committed plan) (unchecked : item.checked = false) :
    item ∈ checklistItems plan ↔ item ∈ checklistItems started ∧ itemKey item ∉ committed := by
  rw [settled, List.mem_map]
  constructor
  · rintro ⟨old, there, rfl⟩
    obtain ⟨same, fresh⟩ := mark_of_unchecked unchecked
    rw [same]
    exact ⟨there, fresh⟩
  · rintro ⟨there, fresh⟩
    exact ⟨item, there, if_neg fresh⟩

theorem Settled.unspoiled_iff (settled : Settled started committed plan) :
    ¬Spoils plan left ↔ ∀ item ∈ checklistItems left, item.checked = true → uncheck item ∈ checklistItems started →
      itemKey item ∈ committed := by
  constructor
  · intro unspoiled item there checked before
    by_contra fresh
    exact unspoiled ⟨item, there, checked, (settled.unchecked_iff rfl).mpr ⟨before, fresh⟩⟩
  · rintro each ⟨item, there, checked, before⟩
    obtain ⟨started, fresh⟩ := (settled.unchecked_iff rfl).mp before
    exact fresh (each item there checked started)

theorem unspoiled_self (plan : List Char) : ¬Spoils plan plan := by
  rintro ⟨item, there, checked, before⟩
  have same : item = uncheck item := item_unique there before rfl
  rw [same] at checked
  cases checked

theorem Settled.commit (settled : Settled started committed plan) (there : item ∈ checklistItems plan)
    (unchecked : item.checked = false) {written : List Char}
    (checked : checklistItems written = (checklistItems plan).map (check item.line)) :
    Settled started (itemKey item :: committed) written := by
  rw [Settled, checked, settled, List.map_map]
  obtain ⟨before, fresh⟩ := (settled.unchecked_iff unchecked).mp there
  refine List.map_congr_left fun other listed => ?_
  rw [Function.comp_apply, check, line_mark]
  by_cases same : other.line = item.line
  · obtain rfl := item_unique listed before same
    rw [if_pos rfl, mark, if_neg fresh, mark, if_pos (List.mem_cons_self ..)]
  · have different : itemKey other ≠ itemKey item := fun keys => same (congrArg Prod.fst keys)
    have still : itemKey other ∈ itemKey item :: committed ↔ itemKey other ∈ committed := by
      rw [List.mem_cons, or_iff_right different]
    rw [if_neg same, mark, mark]
    simp only [still]

end Settled

structure Ready (started : List Char) (committed : List Key) (attempt : Attempt) : Prop where
  settled : Settled started committed attempt.planBefore
  item : attempt.item ∈ checklistItems attempt.planBefore
  unchecked : attempt.item.checked = false

def Checked (attempt : Attempt) (text : List Char) : Prop :=
  checklistItems text = (checklistItems attempt.planBefore).map (check attempt.item.line)

/-- What holds while the loop waits for an operation. -/
def Standing (s : State) : Stage → Prop
  | .inputs | .begin | .read | .hash _ => Settled s.started s.committed s.plan
  | .head attempt => Ready s.started s.committed attempt ∧ s.plan = attempt.planBefore
  | .subagent attempt _ | .restoredHead attempt _ _ | .reset attempt _ | .validation attempt | .restore attempt =>
    Ready s.started s.committed attempt
  | .check attempt text => Ready s.started s.committed attempt ∧ Checked attempt text ∧ itemKey attempt.item ∈ s.validated
  | .add attempt | .commit attempt => Ready s.started s.committed attempt ∧ Checked attempt s.plan ∧
    itemKey attempt.item ∈ s.validated
  | .returned _ | .thrown => True

structure Inv (s : State) : Prop where
  passed : ∀ key ∈ s.committed, key ∈ s.validated
  standing : Standing s s.stage

section Steps
variable {s t : State} {attempt : Attempt} {plan : List Char}

theorem clean_iff (passed : ∀ key ∈ s.committed, key ∈ s.validated) (settled : Settled s.started s.committed plan)
    (exited : Exited s) : Clean s ↔ ¬Spoils plan s.plan := by
  rw [settled.unspoiled_iff]
  constructor
  · intro clean item there checked before
    exact (clean exited item there checked before).2
  · intro each _ item there checked before
    have done := each item there checked before
    exact ⟨passed _ done, done⟩

theorem clean_of_settled (passed : ∀ key ∈ s.committed, key ∈ s.validated)
    (settled : Settled s.started s.committed s.plan) :
    Clean s :=
  fun exited => (clean_iff passed settled exited).mpr (unspoiled_self s.plan) exited

theorem Ready.spoils (ready : Ready s.started s.committed attempt) {text : List Char} (checked : Checked attempt text) :
    Spoils attempt.planBefore text := by
  refine ⟨check attempt.item.line attempt.item, ?_, ?_, ?_⟩
  · rw [checked]
    exact List.mem_map_of_mem ready.item
  · rw [check, if_pos rfl]
  · rw [check, if_pos rfl]
    have same : uncheck { attempt.item with checked := true } = attempt.item := by
      rw [uncheck, ← ready.unchecked]
    rw [same]
    exact ready.item

/-- What a step comes to: the loop goes on, or it exits and is clean just when the condition holds. -/
def Comes (s : State) (action : Action) (t : State) : Prop :=
  (Exited t → (Clean t ↔ Timely s action)) ∧ (¬Exited t → Timely s action ∧ Inv t)

variable {action : Action}

theorem comes_on (timely : Timely s action) (goes : t.stage.exits = false) (inv : Inv t) : Comes s action t :=
  ⟨fun exited => absurd exited (Bool.eq_false_iff.mp goes), fun _ => ⟨timely, inv⟩⟩

theorem comes_settled (timely : Timely s action) (passed : ∀ key ∈ t.committed, key ∈ t.validated)
    (settled : Settled t.started t.committed t.plan) (standing : t.stage.exits = false → Standing t t.stage) :
    Comes s action t :=
  ⟨fun _ => iff_of_true (clean_of_settled passed settled) timely,
    fun goes => ⟨timely, passed, standing (Bool.eq_false_iff.mpr goes)⟩⟩

theorem comes_thrown (passed : ∀ key ∈ t.committed, key ∈ t.validated) (settled : Settled t.started t.committed plan)
    (exits : t.stage.exits = true) (timely : Timely s action ↔ ¬Spoils plan t.plan) : Comes s action t :=
  ⟨fun exited => (clean_iff passed settled exited).trans timely.symm, fun goes => absurd exits goes⟩

theorem comes_restoredHead (timely : Timely s action) (passed : ∀ key ∈ s.committed, key ∈ s.validated)
    (ready : Ready s.started s.committed attempt)
    (ok : Bool) : Comes s action (s.restoredHead attempt ok) := by
  cases ok with
  | false => exact comes_on timely rfl ⟨passed, ready⟩
  | true => exact comes_on timely rfl ⟨passed, ready⟩

theorem comes_iterate (passed : ∀ key ∈ s.committed, key ∈ s.validated) (settled : Settled s.started s.committed s.plan) :
    Comes s .reads s.iterate := by
  cases first : firstUncheckedItem s.plan with
  | none =>
    have same : s.iterate = s.goto (.returned ⟨loopComplete s.results.length, true, s.results⟩) := by
      rw [State.iterate, first]
    rw [same]
    exact comes_settled trivial passed settled nofun
  | some item =>
    have unchecked := List.find?_some first
    have ready : Ready s.started s.committed ⟨s.plan, item⟩ :=
      ⟨settled, List.mem_of_find?_eq_some first, Bool.eq_false_iff.mpr fun checked => by
      rw [checked] at unchecked
      cases unchecked⟩
    have same : s.iterate = { s with
        stage := .head ⟨s.plan, item⟩
        stalledItemKey := some (itemKey item)
        stalledIterations := if s.stalledItemKey = some (itemKey item) then s.stalledIterations else 0 } := by
      rw [State.iterate, first]
    rw [same]
    exact comes_on trivial rfl ⟨passed, ready, rfl⟩

variable {result : Exec}

theorem comes_passed (stage : s.stage = .validation attempt) (passed : ∀ key ∈ s.committed, key ∈ s.validated)
    (ready : Ready s.started s.committed attempt) : Comes s (.executes result) (s.passed attempt) := by
  obtain ⟨written, same, checked⟩ := checkItem_ok ready.item
  have timely : Timely s (.executes result) := by
    rw [Timely, stage]
    trivial
  have next : s.passed attempt =
      { s with stage := .check attempt written, validated := itemKey attempt.item :: s.validated } := by
    rw [State.passed, same]
  rw [next]
  exact comes_on timely rfl
    ⟨fun key done => List.mem_cons_of_mem _ (passed key done), ready, checked, List.mem_cons_self ..⟩

theorem comes_fail (passed : ∀ key ∈ s.committed, key ∈ s.validated)
    (ready : Ready s.started s.committed attempt) : Comes s .writes ({ s with plan := attempt.planBefore }.fail attempt) :=
    by
  refine comes_settled trivial passed ready.settled fun goes => ?_
  unfold State.fail at goes ⊢
  split_ifs at goes ⊢ with stalled
  · cases goes
  · exact ready.settled

theorem comes_executes (inv : Inv s) (stepped : s.executes result s.stage = some t) :
    Comes s (.executes result) t := by
  have passed := inv.passed
  have standing := inv.standing
  have timely : (∀ attempt headBefore ok, s.stage ≠ .restoredHead attempt headBefore ok) → Timely s (.executes result) := by
    intro other
    simp only [Timely]
  cases stage : s.stage with
  | head attempt =>
    rw [stage] at stepped standing timely
    cases stepped
    obtain ⟨ready, plan⟩ := standing
    cases currentGitHead result with
    | none => exact comes_settled (timely nofun) passed (plan ▸ ready.settled) nofun
    | some head => exact comes_on (timely nofun) rfl ⟨passed, ready⟩
  | restoredHead attempt headBefore ok =>
    rw [stage] at stepped standing
    cases stepped
    have timely : Timely s (.executes result) ↔ (currentGitHead result = none → ¬Spoils attempt.planBefore s.plan) := by
      rw [Timely, stage]
    cases head : currentGitHead result with
    | none =>
      refine comes_thrown passed standing.settled rfl (timely.trans ?_)
      exact ⟨fun unspoiled => unspoiled head, fun unspoiled _ => unspoiled⟩
    | some head =>
      have fine : Timely s (.executes result) := timely.mpr fun none => by
        rw [none] at head
        cases head
      dsimp only
      split_ifs
      · exact comes_restoredHead fine passed standing ok
      · exact comes_on fine rfl ⟨passed, standing⟩
  | reset attempt ok =>
    rw [stage] at stepped standing timely
    cases stepped
    exact comes_restoredHead (timely nofun) passed standing _
  | validation attempt =>
    rw [stage] at stepped standing timely
    cases stepped
    split_ifs
    · exact comes_passed stage passed standing
    · exact comes_on (timely nofun) rfl ⟨passed, standing⟩
  | add attempt =>
    rw [stage] at stepped standing timely
    cases stepped
    split_ifs
    · exact comes_on (timely nofun) rfl ⟨passed, standing⟩
    · exact comes_on (timely nofun) rfl ⟨passed, standing.1⟩
  | commit attempt =>
    rw [stage] at stepped standing timely
    cases stepped
    obtain ⟨ready, checked, validated⟩ := standing
    split_ifs
    · refine comes_on (timely nofun) rfl ⟨?_, ready.settled.commit ready.item ready.unchecked checked⟩
      exact List.forall_mem_cons.mpr ⟨validated, passed⟩
    · exact comes_on (timely nofun) rfl ⟨passed, ready⟩
  | hash attempt =>
    rw [stage] at stepped standing timely
    cases stepped
    exact comes_on (timely nofun) rfl ⟨passed, standing⟩
  | inputs | begin | read | subagent | check | restore | returned | thrown =>
    rw [stage] at stepped
    cases stepped

theorem comes_throws {left : Option (List Char)} (inv : Inv s) (stepped : s.throws left s.stage = some t) :
    Comes s (.throws left) t := by
  have passed := inv.passed
  have standing := inv.standing
  cases stage : s.stage with
  | returned result =>
    rw [stage] at stepped
    cases stepped
  | thrown =>
    rw [stage] at stepped
    cases stepped
  | begin =>
    rw [stage] at stepped
    cases stepped
  | inputs | read | hash =>
    rw [stage] at stepped standing
    obtain ⟨_, stepped⟩ := Option.ite_none_right_eq_some.mp stepped
    cases stepped
    refine comes_settled ?_ passed standing nofun
    rw [Timely, stage]
    trivial
  | head attempt =>
    rw [stage] at stepped standing
    obtain ⟨_, stepped⟩ := Option.ite_none_right_eq_some.mp stepped
    cases stepped
    refine comes_settled ?_ passed (standing.2 ▸ standing.1.settled) nofun
    rw [Timely, stage]
    trivial
  | restoredHead attempt | reset attempt | validation attempt =>
    rw [stage] at stepped standing
    obtain ⟨_, stepped⟩ := Option.ite_none_right_eq_some.mp stepped
    cases stepped
    refine comes_thrown passed standing.settled rfl ?_
    rw [Timely, stage]
    rfl
  | subagent attempt =>
    rw [stage] at stepped standing
    cases stepped
    refine comes_thrown passed standing.settled rfl ?_
    rw [Timely, stage]
  | restore attempt =>
    rw [stage] at stepped standing
    cases stepped
    refine comes_thrown passed standing.settled rfl ?_
    rw [Timely, stage]
  | check attempt text =>
    rw [stage] at stepped standing
    cases stepped
    refine comes_thrown passed standing.1.settled rfl ?_
    rw [Timely, stage]
  | add attempt | commit attempt =>
    rw [stage] at stepped standing
    obtain ⟨_, stepped⟩ := Option.ite_none_right_eq_some.mp stepped
    cases stepped
    obtain ⟨ready, checked, -⟩ := standing
    refine comes_thrown passed ready.settled rfl ?_
    rw [Timely, stage]
    exact iff_of_false not_false (not_not_intro (ready.spoils checked))

theorem comes_step (inv : Inv s) (stepped : step s action = some t) : Comes s action t := by
  have passed := inv.passed
  have standing := inv.standing
  cases action with
  | inputs valid =>
    obtain ⟨stage, stepped⟩ := Option.ite_none_right_eq_some.mp stepped
    cases stepped
    rw [stage] at standing
    split_ifs
    · exact comes_on trivial rfl ⟨passed, standing⟩
    · exact comes_settled trivial passed standing nofun
  | begins aborted =>
    obtain ⟨stage, stepped⟩ := Option.ite_none_right_eq_some.mp stepped
    cases stepped
    rw [stage] at standing
    split_ifs
    · exact comes_settled trivial passed standing nofun
    · exact comes_on trivial rfl ⟨passed, standing⟩
  | reads =>
    obtain ⟨stage, stepped⟩ := Option.ite_none_right_eq_some.mp stepped
    cases stepped
    rw [stage] at standing
    exact comes_iterate passed standing
  | executes result => exact comes_executes inv stepped
  | answers ok plan =>
    simp only [step] at stepped
    split at stepped
    · next attempt headBefore stage =>
        cases stepped
        rw [stage] at standing
        exact comes_on trivial rfl ⟨passed, standing⟩
    · cases stepped
  | writes =>
    simp only [step] at stepped
    unfold State.writes at stepped
    split at stepped
    · next attempt checked stage =>
        cases stepped
        rw [stage] at standing
        exact comes_on trivial rfl ⟨passed, standing⟩
    · next attempt stage =>
        cases stepped
        rw [stage] at standing
        exact comes_fail passed standing
    · cases stepped
  | throws left => exact comes_throws inv stepped

theorem step_exited (exited : Exited s) (action : Action) : step s action = none := by
  unfold Exited Stage.exits at exited
  split at exited
  · next result stage =>
      cases action <;> simp [step, stage, State.executes, State.writes, State.throws]
  · next stage =>
      cases action <;> simp [step, stage, State.executes, State.writes, State.throws]
  · cases exited

end Steps

theorem clean_iff_timely {s t : State} {actions : List Action} (inv : Inv s) (going : ¬Exited s)
    (run : Run step Free s actions t) :
    Clean t ↔ Run step Timely s actions t := by
  induction run with
  | nil s => exact iff_of_true (fun exited => absurd exited going) (.nil s)
  | @cons s t u action actions _ stepped rest ih =>
    obtain ⟨exits, goes⟩ := comes_step inv stepped
    by_cases exited : Exited t
    · cases rest with
      | nil =>
        rw [exits exited]
        constructor
        · exact fun timely => .cons timely stepped (.nil t)
        · intro run
          cases run with
          | cons timely _ _ => exact timely
      | cons _ next _ =>
        rw [step_exited exited] at next
        cases next
    · obtain ⟨timely, inv⟩ := goes exited
      rw [ih inv exited]
      constructor
      · exact fun run => .cons timely stepped run
      · intro run
        cases run with
        | cons _ again run =>
          cases stepped.symm.trans again
          exact run

theorem inv_start (plan : List Char) : Inv (start plan) where
  passed _ none := absurd none List.not_mem_nil
  standing := settled_start plan

/-- In any run from any plan, whatever the subagents and the operations do, the law holds where the run leads if and only if every step of
it meets the condition. -/
theorem loop_clean_iff {plan : List Char} {actions : List Action} {s : State} (run : Run step Free (start plan) actions s) :
    Clean s ↔ Run step Timely (start plan) actions s :=
  clean_iff_timely (inv_start plan) Bool.noConfusion run

def twoItems : List Char := "- [ ] one\n- [ ] two\n".toList

def allChecked : List Char := "- [x] one\n- [x] two\n".toList

def atHead : Exec := ⟨0, false, "c0ffee\n".toList⟩

def done : Exec := ⟨0, false, []⟩

/-- The first subagent fails, after it has checked both items; the second step is done, and the third iteration is aborted. -/
def failsThenSucceeds : List Action :=
  [.inputs true, .begins false, .reads, .executes atHead, .answers false allChecked, .executes atHead, .writes,
    .begins false, .reads, .executes atHead, .answers true twoItems, .executes atHead, .executes done, .writes,
    .executes done,
    .executes done, .executes atHead, .begins true]

theorem loop_clean_aborted :
    ∃ s, Run step Timely (start twoItems) failsThenSucceeds s ∧ Exited s ∧ s.committed = [(0, "one".toList)] ∧
      s.plan = "- [x] one\n- [ ] two\n".toList ∧ Clean s := by
  have checked : ((exec step (start twoItems) failsThenSucceeds).any fun s =>
      decide (Exited s ∧ s.committed = [(0, "one".toList)] ∧ s.plan = "- [x] one\n- [ ] two\n".toList ∧ Clean s)) = true :=
        by
    decide +kernel
  obtain ⟨s, ran, ended⟩ := (Option.any_eq_true _ _).mp checked
  obtain ⟨exited, committed, plan, clean⟩ := of_decide_eq_true ended
  exact ⟨s, (loop_clean_iff (run_of_exec ran)).mp clean, exited, committed, plan, clean⟩

/-- The first subagent checks both items, and its stream ends without a completion. -/
def subagentThrows : List Action := [.inputs true, .begins false, .reads, .executes atHead, .throws (some allChecked)]

def commitThrows : List Action :=
  [.inputs true, .begins false, .reads, .executes atHead, .answers true twoItems, .executes atHead, .executes done, .writes,
    .executes done, .throws none]

theorem loop_leaves_checked :
    (∃ s, Run step Free (start twoItems) subagentThrows s ∧ s.committed = [] ∧ s.plan = allChecked ∧ ¬Clean s) ∧
      ∃ s, Run step Free (start twoItems) commitThrows s ∧ s.committed = [] ∧ s.plan = "- [x] one\n- [ ] two\n".toList ∧
        ¬Clean s := by
  have checked : ((exec step (start twoItems) subagentThrows).any fun s =>
      decide (s.committed = [] ∧ s.plan = allChecked ∧ ¬Clean s)) = true ∧
    ((exec step (start twoItems) commitThrows).any fun s =>
      decide (s.committed = [] ∧ s.plan = "- [x] one\n- [ ] two\n".toList ∧ ¬Clean s)) = true := by decide +kernel
  obtain ⟨⟨s, ran, ended⟩, t, ran', ended'⟩ := checked.imp (Option.any_eq_true _ _).mp (Option.any_eq_true _ _).mp
  exact ⟨⟨s, run_of_exec ran, of_decide_eq_true ended⟩, t, run_of_exec ran', of_decide_eq_true ended'⟩

end PlanLoop
