import Oyster.RollbackJournal

/-! The row and the memory of a rollback journal agree when nothing is in flight, the stage goes forward one
step at a time, a row that is no longer running stays, and no detail is lost, as long as no call writes
while a write is in flight. -/
namespace RollbackJournal
open Interleaving

variable {ν : Type}

/-- A call that is made while a write is in flight is refused by its own checks. -/
def Serial (s : State ν) : Action ν → Prop
  | .call call clock => s.inFlight = [] ∨ ∃ refusal, prepare s.memory call clock = .error refusal
  | _ => True

def Overwrites (key : String) (s : State ν) : Action ν → Prop
  | .execute true => ∃ found, executeFirst true s.inFlight = some found ∧ found.1.details.names key
  | _ => False

structure JournalLaw (s : State ν) : Prop where
  agrees : s.inFlight = [] → s.memory = s.row.memory
  advances : ∀ a t, Serial s a → step s a = some t → t.row.stage = s.row.stage ∨ s.row.stage.next = some t.row.stage
  final : s.row.status ≠ .running → ∀ as t, Run step Serial s as t → t.row = s.row
  kept : ∀ key v as t, Run step Serial s as t → s.row.payload.get key = some v →
    ¬ Meets step (Overwrites key) s as → t.row.payload.get key = some v
  rejected : ∀ t, step s (.execute false) = some t → t.memory = s.memory ∧ t.row = s.row
  forgotten : ∀ i write t, s.inFlight[i]? = some ⟨write, some false⟩ → step s (.resume i) = some t →
    t.memory = s.memory ∧ t.row = s.row

inductive Phase (s : State ν) : Prop
  | idle (none : s.inFlight = []) (agree : s.memory = s.row.memory)
  | submitted (write : Write ν) (one : s.inFlight = [⟨write, none⟩]) (agree : s.memory = s.row.memory)
      (prepared : Prepared s.memory write)
  | executed (write : Write ν) (one : s.inFlight = [⟨write, some true⟩]) (done : s.row = write.row)
  | failed (write : Write ν) (one : s.inFlight = [⟨write, some false⟩]) (agree : s.memory = s.row.memory)

theorem start_phase (reference hash dir : ν) (createdAt : String) : Phase (start reference hash dir createdAt) :=
  .idle rfl rfl

/-- The row is changed by the execution of an update that was prepared for it, and by nothing else. -/
inductive Change (s : State ν) : Action ν → State ν → Prop
  | same {a : Action ν} {t : State ν} (same : t.row = s.row) : Change s a t
  | write {t : State ν} (found : Write ν × List (InFlight ν)) (first : executeFirst true s.inFlight = some found)
      (prepared : Prepared s.row.memory found.1) (row : t.row = found.1.row) : Change s (.execute true) t

variable {s t : State ν}

theorem step_phase {a : Action ν} (phase : Phase s) (serial : Serial s a) (h : step s a = some t) :
    Phase t ∧ Change s a t := by
  cases a with
  | call call clock =>
    rw [step] at h
    cases prep : prepare s.memory call clock with
    | error refusal =>
      rw [prep] at h
      cases h
      exact ⟨phase, .same rfl⟩
    | ok write =>
      rw [prep] at h
      cases h
      refine ⟨?_, .same rfl⟩
      rcases serial with none | ⟨refusal, refused⟩
      · cases phase with
        | idle none agree =>
          refine .submitted write ?_ agree (prepare_ok prep)
          rw [none, List.nil_append]
        | submitted _ one => rw [none] at one; cases one
        | executed _ one => rw [none] at one; cases one
        | failed _ one => rw [none] at one; cases one
      · rw [prep] at refused
        cases refused
  | execute succeeds =>
    obtain ⟨found, first, rfl⟩ := Option.map_eq_some_iff.mp h
    cases phase with
    | idle none => rw [none] at first; cases first
    | executed write one => rw [one] at first; cases first
    | failed write one => rw [one] at first; cases first
    | submitted write one agree prepared =>
      have whole := first
      rw [one] at first
      cases first
      cases succeeds with
      | true => exact ⟨.executed write rfl rfl, .write _ whole (agree ▸ prepared) rfl⟩
      | false => exact ⟨.failed write rfl agree, .same rfl⟩
  | resume i =>
    have only : ∀ f : InFlight ν, s.inFlight = [f] → ∀ g, s.inFlight[i]? = some g → i = 0 ∧ g = f := by
      intro f one g there
      rw [one] at there
      cases i with
      | zero => exact ⟨rfl, (Option.some.inj there).symm⟩
      | succ i => cases there
    rw [step] at h
    cases phase with
    | idle none => rw [none] at h; cases h
    | submitted write one =>
      cases there : s.inFlight[i]? with
      | none => rw [there] at h; cases h
      | some g =>
        obtain ⟨rfl, rfl⟩ := only _ one g there
        rw [there] at h
        cases h
    | executed write one done =>
      cases there : s.inFlight[i]? with
      | none => rw [there] at h; cases h
      | some g =>
        obtain ⟨rfl, rfl⟩ := only _ one g there
        rw [there] at h
        cases h
        refine ⟨.idle ?_ ?_, .same rfl⟩
        · dsimp only
          rw [one]
          rfl
        · dsimp only
          rw [done]
          rfl
    | failed write one agree =>
      cases there : s.inFlight[i]? with
      | none => rw [there] at h; cases h
      | some g =>
        obtain ⟨rfl, rfl⟩ := only _ one g there
        rw [there] at h
        cases h
        refine ⟨.idle ?_ agree, .same rfl⟩
        rw [one]
        rfl

variable {as : List (Action ν)}

theorem run_phase (phase : Phase s) (run : Run step Serial s as t) : Phase t :=
  run.invariant (fun _ _ _ phase serial h => (step_phase phase serial h).1) phase

theorem run_final (phase : Phase s) (ended : s.row.status ≠ .running) (run : Run step Serial s as t) :
    t.row = s.row := by
  induction run with
  | nil s => rfl
  | cons serial h _ ih =>
    obtain ⟨next, change⟩ := step_phase phase serial h
    cases change with
    | same same =>
      rw [← same] at ended ⊢
      exact ih next ended
    | write found first prepared row => exact absurd prepared.running ended

theorem run_kept {key : String} {v : ν} (phase : Phase s) (run : Run step Serial s as t)
    (there : s.row.payload.get key = some v) (spared : ¬ Meets step (Overwrites key) s as) :
    t.row.payload.get key = some v := by
  induction run with
  | nil s => exact there
  | cons serial h _ ih =>
    obtain ⟨next, change⟩ := step_phase phase serial h
    rw [Meets, not_or] at spared
    refine ih next ?_ fun later => spared.2 ⟨_, h, later⟩
    cases change with
    | same same => rw [same]; exact there
    | write found first prepared row =>
      have other : ¬ found.1.details.names key := fun named => spared.1 ⟨found, first, named⟩
      rw [row, prepared.keeps key other]
      exact there

/-- In a run where no call writes while a write is in flight. -/
theorem journal_agrees {reference hash dir : ν} {createdAt : String} {as : List (Action ν)} {s : State ν}
    (run : Run step Serial (start reference hash dir createdAt) as s) : JournalLaw s := by
  have phase := run_phase (start_phase reference hash dir createdAt) run
  refine ⟨?_, ?_, fun final as t later => run_final phase final later,
    fun key v as t later there spared => run_kept phase later there spared, ?_, ?_⟩
  · intro none
    cases phase with
    | idle _ agree => exact agree
    | submitted _ one => rw [none] at one; cases one
    | executed _ one => rw [none] at one; cases one
    | failed _ one => rw [none] at one; cases one
  · intro a t serial h
    cases (step_phase phase serial h).2 with
    | same same => exact .inl (congrArg Row.stage same)
    | write found first prepared row =>
      rw [row]
      exact prepared.stage.imp (fun failed => failed.1) id
  · intro t h
    obtain ⟨found, first, rfl⟩ := Option.map_eq_some_iff.mp h
    exact ⟨rfl, rfl⟩
  · intro i write t there h
    rw [step, there] at h
    cases h
    exact ⟨rfl, rfl⟩

def serial (s : State ν) : Action ν → Bool
  | .call call clock => s.inFlight.isEmpty || !(prepare s.memory call clock).isOk
  | _ => true

theorem serial_sound (s : State ν) (a : Action ν) (h : serial s a = true) : Serial s a := by
  cases a with
  | execute succeeds => trivial
  | resume i => trivial
  | call call clock =>
    rcases Bool.or_eq_true_iff.mp h with none | refused
    · exact .inl (List.isEmpty_iff.mp none)
    · cases prep : prepare s.memory call clock with
      | error refusal => exact .inr ⟨refusal, prep⟩
      | ok write =>
        rw [prep] at refused
        exact absurd refused Bool.false_ne_true

def journal : State String := start "session" "abc" "/work" "0"

def checkpointed : Call String := .advance (some .safetyCheckpointed) (.object [("safetyHash", .json "def")])

def failing : List (Action String) :=
  [.call checkpointed (some "1"), .execute false, .resume 0, .call checkpointed (some "2"), .execute true, .resume 0,
    .call (.fail "stopped") (some "3"), .execute true, .call checkpointed (some "4"), .resume 0]

theorem journal_agrees_failing : ∃ s, exec step journal failing = some s ∧ JournalLaw s ∧
    s.memory.status = .failed ∧ s.row.payload.get "safetyHash" = some "def" := by
  have some' : ((execIf step serial journal failing).map fun s =>
      (s.memory.status, s.row.payload.get "safetyHash")) = some (.failed, some "def") := by decide +kernel
  obtain ⟨s, run, same⟩ := Option.map_eq_some_iff.mp some'
  obtain ⟨status, hash⟩ := Prod.mk.inj same
  have whole := run_of_execIf serial_sound run
  exact ⟨s, whole.exec_eq, journal_agrees whole, status, hash⟩

/-- A failure and an advance that are both checked against the first stage: a row that has failed is running
again, or a stage and its details are taken back. -/
theorem journal_overwritten :
    (((exec step journal [.call (.fail "stopped") (some "1"), .call checkpointed (some "2"), .execute true]).map
        fun s => s.row.status) = some .failed ∧
      ((exec step journal [.call (.fail "stopped") (some "1"), .call checkpointed (some "2"), .execute true,
        .execute true]).map fun s => s.row.status) = some .running) ∧
    ((exec step journal [.call checkpointed (some "1"), .call (.fail "stopped") (some "2"), .execute true]).map
        fun s => (s.row.stage, s.row.payload.get "safetyHash")) = some (.safetyCheckpointed, some "def") ∧
      ((exec step journal [.call checkpointed (some "1"), .call (.fail "stopped") (some "2"), .execute true,
        .execute true]).map fun s => (s.row.stage, s.row.payload.get "safetyHash")) = some (.persisted, none) := by
  decide +kernel

end RollbackJournal
