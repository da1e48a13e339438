import Oyster.Interleaving
import Oyster.OrderedMap
import Oyster.SessionReference

/-! The registry of runners, the opening of sessions and the adoption of session
identities. An opening call is cut at its awaits: the choice of the harness, the
upsert of the session owner and the insert of the runner row. What the database
and the catalog answer is part of the label of the step that resumes the call. -/
namespace SessionRegistry
open Interleaving SessionReference Text

structure Driver where
  id : String
  isSessionCompatible : Option Reference → Bool

structure Config where
  codec : Codec
  drivers : List Driver
  defaultId : String
  catalogBackend : Option Backend

structure Runner where
  dir : String
  harness : String
  sessionRef : Option Reference
  deriving DecidableEq

/-- The arguments of `openSessionRunner`. -/
structure OpenRequest where
  harness : Option String := none
  sessionRef : Option Reference := none
  sessionPath : Option String := none
  sessionId : Option String := none
  dir : Option String := none

/-- The arguments of `spawnRunner` after the reference has been validated. -/
structure Spawning where
  dir : String
  harness : String
  reference : Option Reference

inductive Opener where
  | selecting (harness : Option String) (reference : Option Reference) (dir : Option String)
  | owning (spawning : Spawning)
  | creating (id : String) (spawning : Spawning)

structure State where
  runners : OrderedMap String Runner
  openers : Calls Opener
  currentDir : String

def maxRunnerIdAttempts : Nat := 8

def inputReference (request : OpenRequest) : Option Reference :=
  request.sessionRef <|>
    if falsy request.sessionPath || falsy request.sessionId then none
    else some ⟨.jsonl, request.sessionId.getD "", request.sessionPath⟩

namespace Config
variable (config : Config)

def driver (id : String) : Except String Driver :=
  match config.drivers.find? (·.id == id) with
  | some driver => .ok driver
  | none => .error s!"runner harness is unavailable: {id}"

def compatible (reference : Reference) : Option Driver :=
  config.drivers.find? (·.isSessionCompatible (some reference))

def selectSessionHarness (harness : Option String) (reference : Option Reference)
    (found : Except String (Option String)) : Except String (Option String) := do
  let saved ←
    if falsy harness && reference.map Reference.backend == config.catalogBackend then
      if config.catalogBackend.isNone then throw "state.sessionCatalog is undefined" else found
    else pure none
  return harness <|> saved <|>
    match reference with
    | some reference => (config.compatible reference).map Driver.id
    | none => some config.defaultId

def validateOption (reference : Option Reference) : Except String (Option Reference) :=
  match reference with
  | none => .ok none
  | some reference => (config.codec.validate reference).map some

/-- `findRunnerByReference` on the entries of the registry, in their order. -/
def findAmong (reference : Reference) : List (String × Runner) → Except String (Option String)
  | [] => .ok none
  | (id, candidate) :: rest =>
    match candidate.sessionRef with
    | none => findAmong reference rest
    | some held =>
      match config.codec.equals held reference with
      | .error text => .error text
      | .ok true => .ok (some id)
      | .ok false => findAmong reference rest

def findRunnerByReference (runners : OrderedMap String Runner) (reference : Reference) :
    Except String (Option String) :=
  config.findAmong reference runners.entries

/-- The part of `spawnRunner` before its first await. -/
def checkSpawn (dir harness : String) (sessionRef : Option Reference) : Except String Spawning := do
  let selectedDriver ← config.driver harness
  let reference ← config.validateOption sessionRef
  match reference with
  | some valid =>
    if !selectedDriver.isSessionCompatible reference then
      let id := valid.id
      throw s!"session {id} is incompatible with harness {harness}"
    return ⟨dir, harness, reference⟩
  | none => return ⟨dir, harness, none⟩

end Config

def isRunnerToken (token : String) : Bool :=
  let cs := token.toList
  decide (8 ≤ cs.length ∧ cs.length ≤ 128) && cs.all fun c => c.isAlphanum || c == '_' || c == '-'

/-- `tokens` are the next values of the identity generator. -/
def allocateRunnerId (runners : OrderedMap String Runner) : Nat → List String → Except String String
  | attempts + 1, token :: tokens =>
    let id := "r-" ++ token
    if !isRunnerToken token then .error "runner ID generator returned an invalid persistence-safe token"
    else if runners.has id then allocateRunnerId runners attempts tokens
    else .ok id
  | _, _ => .error "runner ID generator repeatedly returned an existing ID"

/-- The call `i` goes on to the insert of the runner row, or throws. -/
def createRow (s : State) (i : Nat) (spawning : Spawning) (tokens : List String) : State :=
  match allocateRunnerId s.runners maxRunnerIdAttempts tokens with
  | .error _ => { s with openers := s.openers.drop i }
  | .ok id => { s with openers := s.openers.put i (.creating id spawning) }

def spawnRunner (config : Config) (s : State) (i : Nat) (dir harness : String)
    (sessionRef : Option Reference) (tokens : List String) : State :=
  match config.checkSpawn dir harness sessionRef with
  | .error _ => { s with openers := s.openers.drop i }
  | .ok spawning =>
    if spawning.reference.isSome then { s with openers := s.openers.put i (.owning spawning) }
    else createRow s i spawning tokens

/-- `openSessionRunner` after the harness has been selected. -/
def openSelected (config : Config) (s : State) (i : Nat) (selected : Except String (Option String))
    (reference : Option Reference) (dir : Option String) (tokens : List String) : State :=
  let returned : State := { s with openers := s.openers.drop i }
  match selected with
  | .error _ => returned
  | .ok selectedHarness =>
    let directory := if falsy dir then s.currentDir else dir.getD ""
    if falsy selectedHarness then returned
    else
      match reference with
      | none => spawnRunner config s i directory (selectedHarness.getD "") none tokens
      | some wanted =>
        match config.findRunnerByReference s.runners wanted with
        | .ok none =>
          spawnRunner config s i directory (selectedHarness.getD "") reference tokens
        | _ => returned

/-- The end of `spawnRunner`: the runner becomes part of the registry. -/
def register (s : State) (i : Nat) (id : String) (spawning : Spawning) : State :=
  { s with
    runners := s.runners.set id ⟨spawning.dir, spawning.harness, spawning.reference⟩
    openers := s.openers.drop i }

def setReference (s : State) (id : String) (runner : Runner) (next : Option Reference) : State :=
  { s with runners := s.runners.set id { runner with sessionRef := next } }

/-- What `updateRunnerSessionReference` adopts; it throws for a harness that
cannot hold the session. -/
def adopted (config : Config) (runner : Runner) (reference : Reference) : Except String Reference := do
  let next ← config.codec.validate reference
  let driver ← config.driver runner.harness
  if !driver.isSessionCompatible (some next) then
    let id := next.id
    let harness := runner.harness
    throw s!"session {id} is incompatible with harness {harness}"
  return next

inductive Action where
  | openSession (i : Nat) (request : OpenRequest)
  | spawn (i : Nat) (dir harness : String) (tokens : List String)
  | selected (i : Nat) (found : Except String (Option String)) (tokens : List String)
  | owned (i : Nat) (ok : Bool) (tokens : List String)
  | created (i : Nat) (ok : Bool)
  | updateReference (id : String) (reference : Reference)
  | getState (id : String) (reference : Option Reference)
  | remove (id : String)

def step (config : Config) (s : State) : Action → Option State
  | .openSession i request =>
    match s.openers i, config.validateOption (inputReference request) with
    | some _, _ => none
    | none, .error _ => some s
    | none, .ok reference =>
      some { s with openers := s.openers.put i (.selecting request.harness reference request.dir) }
  | .spawn i dir harness tokens =>
    match s.openers i with
    | some _ => none
    | none => some (spawnRunner config s i dir harness none tokens)
  | .selected i found tokens =>
    match s.openers i with
    | some (.selecting harness reference dir) =>
      some (openSelected config s i (config.selectSessionHarness harness reference found) reference dir tokens)
    | _ => none
  | .owned i ok tokens =>
    match s.openers i with
    | some (.owning spawning) =>
      some (if ok then createRow s i spawning tokens else { s with openers := s.openers.drop i })
    | _ => none
  | .created i ok =>
    match s.openers i with
    | some (.creating id spawning) =>
      some (if ok then register s i id spawning else { s with openers := s.openers.drop i })
    | _ => none
  | .updateReference id reference =>
    match s.runners.get id with
    | none => some s
    | some runner =>
      match adopted config runner reference with
      | .error _ => some s
      | .ok next => some (setReference s id runner (some next))
  | .getState id reference =>
    match s.runners.get id, config.validateOption reference with
    | some runner, .ok next => some (setReference s id runner next)
    | _, _ => some s
  | .remove id => some { s with runners := s.runners.delete id }

/-- The session that the call will hand to the runner it registers. -/
def Opener.claimed : Opener → Option Reference
  | .selecting _ _ _ => none
  | .owning spawning | .creating _ spawning => spawning.reference

/-- A call has not found a runner of the session and has not registered one yet. -/
def Waiting (s : State) (reference : Reference) : Prop :=
  ∃ i opener, s.openers i = some opener ∧ opener.claimed = some reference

/-- No runner other than `id` holds the session. -/
def FreeFor (s : State) (id : String) (reference : Reference) : Prop :=
  ∀ other runner, (other, runner) ∈ s.runners → other ≠ id → runner.sessionRef ≠ some reference

/-- Adoptions are of identities that no other runner holds. -/
def Domain (config : Config) (s : State) : Action → Prop
  | .updateReference id reference | .getState id (some reference) =>
    ∀ next, config.codec.validate reference = .ok next → FreeFor s id next
  | _ => True

/-- The condition under which a session keeps one runner: while an open of the
session waits between its lookup and its registration, no other open of it makes
its lookup and no runner adopts it. -/
def Permitted (config : Config) (s : State) (a : Action) : Prop :=
  Domain config s a ∧
    match a with
    | .selected i _ _ =>
      ∀ harness reference dir, s.openers i = some (.selecting harness (some reference) dir) → ¬Waiting s reference
    | .updateReference _ reference | .getState _ (some reference) =>
      ∀ next, config.codec.validate reference = .ok next → ¬Waiting s next
    | _ => True

def Unique (s : State) : Prop :=
  ∀ id runner other another reference, (id, runner) ∈ s.runners → (other, another) ∈ s.runners →
    runner.sessionRef = some reference → another.sessionRef = some reference → id = other

structure Inv (config : Config) (s : State) : Prop where
  unique : Unique s
  fresh : ∀ reference, Waiting s reference →
    ∀ id runner, (id, runner) ∈ s.runners → runner.sessionRef ≠ some reference
  alone : ∀ i j opener another reference, s.openers i = some opener →
    s.openers j = some another → opener.claimed = some reference →
    another.claimed = some reference → i = j
  valid : s.openers.Forall fun _ opener => ∀ harness reference dir, opener = .selecting harness (some reference) dir →
    ∃ raw, config.codec.validate raw = .ok reference

variable {config : Config}

theorem findAmong_none {reference : Reference} {entries : List (String × Runner)}
    (h : config.findAmong reference entries = .ok none) :
    ∀ id runner, (id, runner) ∈ entries → runner.sessionRef ≠ some reference := by
  induction entries with
  | nil =>
    intro id runner absurd
    cases absurd
  | cons entry rest ih =>
    obtain ⟨key, candidate⟩ := entry
    intro id runner mem holds
    have tail : config.findAmong reference rest = .ok none ∧ candidate.sessionRef ≠ some reference := by
      unfold Config.findAmong at h
      cases held : candidate.sessionRef with
      | none =>
        rw [held] at h
        exact ⟨h, fun absurd => nomatch absurd⟩
      | some ref =>
        rw [held] at h
        cases compared : config.codec.equals ref reference with
        | error text =>
          simp only [compared] at h
          cases h
        | ok same =>
          simp only [compared] at h
          cases same with
          | true => cases h
          | false =>
            refine ⟨h, fun equal => ?_⟩
            cases equal
            exact absurd (config.codec.equals_self compared) (by decide)
    rcases List.mem_cons.mp mem with same | later
    · exact tail.2 ((Prod.mk.inj same).2 ▸ holds)
    · exact ih tail.1 id runner later holds

section Calls
variable {config : Config} {s : State} {i : Nat} {reference : Reference}

theorem Waiting.of_drop (h : Waiting { s with openers := s.openers.drop i } reference) : Waiting s reference := by
  obtain ⟨j, opener, found, claimed⟩ := h
  exact ⟨j, opener, (Calls.drop_eq_some found).2, claimed⟩

theorem Inv.drop (h : Inv config s) (i : Nat) :
    Inv config { s with openers := s.openers.drop i } where
  unique := h.unique
  fresh reference waiting := h.fresh reference waiting.of_drop
  alone j k opener another reference hj hk :=
    h.alone j k opener another reference (Calls.drop_eq_some hj).2 (Calls.drop_eq_some hk).2
  valid := h.valid.drop i

theorem Inv.put (h : Inv config s) {opener : Opener} (claim : ∀ reference, opener.claimed = some reference →
      (∃ before, s.openers i = some before ∧ before.claimed = some reference) ∨ ¬Waiting s reference ∧
          ∀ id runner, (id, runner) ∈ s.runners → runner.sessionRef ≠ some reference)
    (valid : ∀ harness reference dir, opener = .selecting harness (some reference) dir →
      ∃ raw, config.codec.validate raw = .ok reference) :
    Inv config { s with openers := s.openers.put i opener } := by
  have only : ∀ reference, opener.claimed = some reference → ∀ j another,
      s.openers j = some another → another.claimed = some reference → j = i := by
    intro reference claimed j another hj claimed'
    rcases claim reference claimed with ⟨before, hi, same⟩ | ⟨free, _⟩
    · exact h.alone j i another before reference hj hi claimed' same
    · exact absurd ⟨j, another, hj, claimed'⟩ free
  refine ⟨h.unique, ?_, ?_, h.valid.put valid⟩
  · rintro reference ⟨j, another, found, claimed⟩
    rcases Calls.put_eq_some found with ⟨_, same⟩ | ⟨_, old⟩
    · rw [same] at claimed
      rcases claim reference claimed with ⟨before, hi, same⟩ | ⟨_, free⟩
      · exact h.fresh reference ⟨i, before, hi, same⟩
      · exact free
    · exact h.fresh reference ⟨j, another, old, claimed⟩
  · intro j k left right reference hj hk claimed claimed'
    rcases Calls.put_eq_some hj with ⟨rfl, rfl⟩ | ⟨_, oldj⟩
    · rcases Calls.put_eq_some hk with ⟨rfl, _⟩ | ⟨_, oldk⟩
      · rfl
      · exact (only reference claimed k right oldk claimed').symm
    · rcases Calls.put_eq_some hk with ⟨rfl, rfl⟩ | ⟨_, oldk⟩
      · exact only reference claimed' j left oldj claimed
      · exact h.alone j k left right reference oldj oldk claimed claimed'

theorem Inv.write (h : Inv config s) (id : String) (written : Runner)
    (free : ∀ reference, written.sessionRef = some reference → FreeFor s id reference ∧ ¬Waiting s reference) :
    Inv config { s with runners := s.runners.set id written } := by
  refine ⟨?_, ?_, h.alone, h.valid⟩
  · intro k runner k' another reference hk hk' holds holds'
    rcases OrderedMap.mem_set.mp hk with ⟨rfl, rfl⟩ | ⟨other, old⟩
    · rcases OrderedMap.mem_set.mp hk' with ⟨rfl, _⟩ | ⟨other, old⟩
      · rfl
      · exact absurd holds' ((free reference holds).1 k' another old other)
    · rcases OrderedMap.mem_set.mp hk' with ⟨rfl, rfl⟩ | ⟨other', old'⟩
      · exact absurd holds ((free reference holds').1 k runner old other)
      · exact h.unique k runner k' another reference old old' holds holds'
  · intro reference waiting k runner hk holds
    rcases OrderedMap.mem_set.mp hk with ⟨_, rfl⟩ | ⟨_, old⟩
    · exact (free reference holds).2 waiting
    · exact h.fresh reference waiting k runner old holds

theorem Inv.remove (h : Inv config s) (id : String) :
    Inv config { s with runners := s.runners.delete id } where
  unique k runner k' another reference hk hk' :=
    h.unique k runner k' another reference (OrderedMap.mem_delete.mp hk).2 (OrderedMap.mem_delete.mp hk').2
  fresh reference waiting k runner hk :=
    h.fresh reference waiting k runner (OrderedMap.mem_delete.mp hk).2
  alone := h.alone
  valid := h.valid

variable {spawning : Spawning}

theorem Inv.createRow (h : Inv config s) (tokens : List String)
    (claim : ∀ reference, spawning.reference = some reference →
      (∃ before, s.openers i = some before ∧ before.claimed = some reference) ∨ ¬Waiting s reference ∧
          ∀ id runner, (id, runner) ∈ s.runners → runner.sessionRef ≠ some reference) :
    Inv config (createRow s i spawning tokens) := by
  unfold SessionRegistry.createRow
  cases allocateRunnerId s.runners maxRunnerIdAttempts tokens with
  | error _ => exact h.drop i
  | ok id => exact h.put claim fun _ _ _ absurd => nomatch absurd

theorem checkSpawn_reference {dir harness : String} {sessionRef : Option Reference}
    (h : config.checkSpawn dir harness sessionRef = .ok spawning) :
    config.validateOption sessionRef = .ok spawning.reference := by
  unfold Config.checkSpawn at h
  cases hdriver : config.driver harness with
  | error _ =>
    rw [hdriver] at h
    cases h
  | ok driver =>
    cases hvalid : config.validateOption sessionRef with
    | error _ =>
      rw [hdriver, hvalid] at h
      cases h
    | ok reference =>
      rw [hdriver, hvalid] at h
      cases reference with
      | none =>
        cases h
        rfl
      | some valid =>
        cases compatible : driver.isSessionCompatible (some valid) with
        | false => simp [bind, Except.bind, compatible, throw, throwThe, MonadExceptOf.throw] at h
        | true =>
          simp [bind, Except.bind, compatible, pure, Except.pure] at h
          rw [← h]

/-- `spawnRunner` keeps the sessions apart when the session is new to the
registry and no call waits for it. -/
theorem Inv.spawnRunner (h : Inv config s) (i : Nat) (dir harness : String)
    (sessionRef : Option Reference) (tokens : List String)
    (free : ∀ reference, config.validateOption sessionRef = .ok (some reference) → ¬Waiting s reference ∧
        ∀ id runner, (id, runner) ∈ s.runners → runner.sessionRef ≠ some reference) :
    Inv config (spawnRunner config s i dir harness sessionRef tokens) := by
  unfold SessionRegistry.spawnRunner
  cases checked : config.checkSpawn dir harness sessionRef with
  | error _ => exact h.drop i
  | ok spawning =>
    have claim : ∀ reference, spawning.reference = some reference → ¬Waiting s reference ∧
        ∀ id runner, (id, runner) ∈ s.runners → runner.sessionRef ≠ some reference := by
      intro reference same
      exact free reference (same ▸ checkSpawn_reference checked)
    simp only
    split_ifs
    · exact h.put (fun reference same => .inr (claim reference same)) fun _ _ _ absurd => nomatch absurd
    · exact h.createRow tokens fun reference same => .inr (claim reference same)

theorem Inv.openSelected (h : Inv config s) {harness dir : Option String} {reference : Option Reference}
    (calling : s.openers i = some (.selecting harness reference dir))
    (free : ∀ wanted, reference = some wanted → ¬Waiting s wanted) (selected : Except String (Option String))
    (tokens : List String) : Inv config (openSelected config s i selected reference dir tokens) := by
  unfold SessionRegistry.openSelected
  cases selected with
  | error _ => exact h.drop i
  | ok selectedHarness =>
    simp only
    generalize (if falsy dir then s.currentDir else dir.getD "") = directory
    split_ifs
    · exact h.drop i
    · cases reference with
      | none => exact h.spawnRunner i _ _ none tokens fun _ absurd => nomatch absurd
      | some wanted =>
        simp only
        cases lookup : config.findRunnerByReference s.runners wanted with
        | error _ => exact h.drop i
        | ok existing =>
          cases existing with
          | some id => exact h.drop i
          | none =>
            refine h.spawnRunner i _ _ (some wanted) tokens ?_
            intro reference valid
            obtain ⟨raw, hraw⟩ := h.valid i _ calling harness wanted dir rfl
            have same : reference = wanted := by
              unfold Config.validateOption at valid
              cases again : config.codec.validate wanted with
              | error _ => simp [again, Except.map] at valid
              | ok value =>
                simp [again, Except.map] at valid
                rw [← valid]
                exact config.codec.validate_validate hraw again
            rw [same]
            exact ⟨free wanted rfl, findAmong_none lookup⟩

variable {id : String}

theorem Inv.register (h : Inv config s) (calling : s.openers i = some (.creating id spawning)) :
    Inv config (register s i id spawning) := by
  refine (h.drop i).write id ⟨spawning.dir, spawning.harness, spawning.reference⟩ ?_
  intro reference claimed
  refine ⟨fun other runner mem _ => h.fresh reference ⟨i, _, calling, claimed⟩ other runner mem, ?_⟩
  rintro ⟨j, opener, found, claimed'⟩
  obtain ⟨other, old⟩ := Calls.drop_eq_some found
  exact other (h.alone j i opener _ reference old calling claimed' claimed)

variable {runner : Runner}

theorem Inv.setReference (h : Inv config s) {next : Option Reference} (free : ∀ reference, next = some reference →
      FreeFor s id reference ∧ ¬Waiting s reference) : Inv config (setReference s id runner next) :=
  h.write id { runner with sessionRef := next } free

theorem adopted_valid {next : Reference} (h : adopted config runner reference = .ok next) :
    config.codec.validate reference = .ok next := by
  unfold adopted at h
  cases valid : config.codec.validate reference with
  | error _ =>
    rw [valid] at h
    cases h
  | ok value =>
    cases hdriver : config.driver runner.harness with
    | error _ =>
      rw [valid, hdriver] at h
      cases h
    | ok driver =>
      rw [valid, hdriver] at h
      cases compatible : driver.isSessionCompatible (some value) with
      | false => simp [bind, Except.bind, compatible, throw, throwThe, MonadExceptOf.throw] at h
      | true =>
        simp [bind, Except.bind, compatible, pure, Except.pure] at h
        rw [h]

end Calls

variable {reference : Option Reference}

theorem validateOption_some {valid : Reference} (h : config.validateOption reference = .ok (some valid)) :
    ∃ raw, reference = some raw ∧ config.codec.validate raw = .ok valid := by
  cases reference with
  | none => cases h
  | some raw =>
    unfold Config.validateOption at h
    cases validated : config.codec.validate raw with
    | error _ => simp [validated, Except.map] at h
    | ok value =>
      simp [validated, Except.map] at h
      exact ⟨raw, rfl, by rw [← h]; exact validated⟩

theorem step_inv (config : Config) (s : State) (a : Action) (t : State) (h : Inv config s)
    (permitted : Permitted config s a) (hstep : step config s a = some t) : Inv config t := by
  obtain ⟨domain, permitted⟩ := permitted
  cases a with
  | openSession i request =>
    simp only [step] at hstep
    split at hstep
    · cases hstep
    · cases hstep
      exact h
    · rename_i reference _ valid
      cases hstep
      refine h.put (fun _ absurd => nomatch absurd) ?_
      intro harness wanted dir same
      cases same
      obtain ⟨raw, _, validated⟩ := validateOption_some valid
      exact ⟨raw, validated⟩
  | spawn i dir harness tokens =>
    simp only [step] at hstep
    split at hstep
    · cases hstep
    · cases hstep
      exact h.spawnRunner i dir harness none tokens fun _ absurd => nomatch absurd
  | selected i found tokens =>
    simp only [step] at hstep
    split at hstep
    · rename_i harness reference dir calling
      cases hstep
      refine h.openSelected calling ?_ _ tokens
      rintro wanted rfl
      exact permitted harness wanted dir calling
    · cases hstep
  | owned i ok tokens =>
    simp only [step] at hstep
    split at hstep
    · rename_i spawning calling
      cases hstep
      split_ifs
      · exact h.createRow tokens fun reference same => .inl ⟨_, calling, same⟩
      · exact h.drop i
    · cases hstep
  | created i ok =>
    simp only [step] at hstep
    split at hstep
    · rename_i id spawning calling
      cases hstep
      split_ifs
      · exact h.register calling
      · exact h.drop i
    · cases hstep
  | updateReference id reference =>
    simp only [step] at hstep
    split at hstep
    · cases hstep
      exact h
    · split at hstep
      · cases hstep
        exact h
      · rename_i next adopts
        cases hstep
        refine h.setReference ?_
        intro wanted same
        cases same
        exact ⟨domain next (adopted_valid adopts), permitted next (adopted_valid adopts)⟩
  | getState id reference =>
    simp only [step] at hstep
    split at hstep
    · rename_i runner next _ valid
      cases hstep
      refine h.setReference ?_
      rintro wanted rfl
      obtain ⟨raw, rfl, validated⟩ := validateOption_some valid
      exact ⟨domain wanted validated, permitted wanted validated⟩
    · cases hstep
      exact h
  | remove id =>
    cases hstep
    exact h.remove id

/-- A manager starts without calls in flight. -/
def start (runners : OrderedMap String Runner) (currentDir : String) : State :=
  ⟨runners, fun _ => none, currentDir⟩

theorem sessions_unique (config : Config) (runners : OrderedMap String Runner)
    (currentDir : String) (loaded : Unique (start runners currentDir)) (actions : List Action)
    (s : State)
    (run : Run (step config) (Permitted config) (start runners currentDir) actions s) :
    Unique s := by
  refine (run.invariant (step_inv config) ⟨loaded, ?_, ?_, ?_⟩).unique
  · rintro _ ⟨_, _, absurd, _⟩
    cases absurd
  · intro _ _ _ _ _ absurd
    cases absurd
  · intro _ _ absurd
    cases absurd

def ampOnly : Config where
  codec := ⟨⟨id, fun _ p => p, fun _ => true, fun _ => rfl⟩, "/agent/sessions", "/agent/sessions.sqlite"⟩
  drivers := [⟨"amp", fun reference => reference.all (·.backend == .amp)⟩]
  defaultId := "amp"
  catalogBackend := some .sqlite

def ampSession : Reference := ⟨.amp, "T-1", none⟩

theorem not_waiting_selecting {s : State} {before : Calls Opener} {i : Nat} {harness dir : Option String}
    (same : s.openers = before.put i (.selecting harness reference dir)) (idle : ∀ j, before j = none)
    (wanted : Reference) : ¬Waiting s wanted := by
  rintro ⟨j, opener, found, claimed⟩
  rw [same] at found
  rcases Calls.put_eq_some found with ⟨_, rfl⟩ | ⟨_, old⟩
  · cases claimed
  · rw [idle j] at old
    cases old

/-- The second open of a session comes after the first has registered a runner. -/
theorem sessions_unique_reopened : ∃ s, Run (step ampOnly) (Permitted ampOnly) (start .empty "/w")
        [.openSession 0 { sessionRef := some ampSession }, .selected 0 (.ok none) [],
          .owned 0 true ["aaaaaaaa"], .created 0 true,
          .openSession 1 { sessionRef := some ampSession }, .selected 1 (.ok none) []] s ∧
      s.runners.entries = [("r-aaaaaaaa", ⟨"/w", "amp", some ampSession⟩)] ∧ Unique s := by
  have run : ∃ s, Run (step ampOnly) (Permitted ampOnly) (start .empty "/w")
      [.openSession 0 { sessionRef := some ampSession }, .selected 0 (.ok none) [],
        .owned 0 true ["aaaaaaaa"], .created 0 true,
        .openSession 1 { sessionRef := some ampSession }, .selected 1 (.ok none) []] s ∧
      s.runners.entries = [("r-aaaaaaaa", ⟨"/w", "amp", some ampSession⟩)] := by
    refine ⟨_, .cons ⟨trivial, trivial⟩ rfl (.cons ⟨trivial, ?_⟩ rfl (.cons ⟨trivial, trivial⟩ rfl
      (.cons ⟨trivial, trivial⟩ rfl (.cons ⟨trivial, trivial⟩ rfl (.cons ⟨trivial, ?_⟩ rfl (.nil _)))))), rfl⟩
    · intro _ wanted _ _
      exact not_waiting_selecting rfl (fun _ => rfl) wanted
    · intro _ wanted _ _
      refine not_waiting_selecting rfl (fun j => ?_) wanted
      cases j <;> rfl
  obtain ⟨s, run, entries⟩ := run
  refine ⟨s, run, entries, sessions_unique ampOnly .empty "/w" ?_ _ s run⟩
  intro id runner _ _ _ inside
  exact absurd inside (OrderedMap.not_mem_empty (id, runner))

/-- Two opens of one session that both look before either registers. -/
theorem concurrent_opens_duplicate : ∃ s, Run (step ampOnly) (Domain ampOnly) (start .empty "/w")
        [.openSession 0 { sessionRef := some ampSession }, .openSession 1 { sessionRef := some ampSession },
          .selected 0 (.ok none) [], .selected 1 (.ok none) [],
          .owned 0 true ["aaaaaaaa"], .owned 1 true ["bbbbbbbb"],
          .created 0 true, .created 1 true] s ∧ ¬Unique s := by
  refine ⟨_, .cons trivial rfl (.cons trivial rfl (.cons trivial rfl (.cons trivial rfl
    (.cons trivial rfl (.cons trivial rfl (.cons trivial rfl (.cons trivial rfl (.nil _)))))))), ?_⟩
  intro unique
  have same := unique "r-aaaaaaaa" ⟨"/w", "amp", some ampSession⟩ "r-bbbbbbbb"
    ⟨"/w", "amp", some ampSession⟩ ampSession (by decide) (by decide) rfl rfl
  exact absurd same (by decide)

end SessionRegistry
