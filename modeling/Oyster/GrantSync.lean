import Oyster.PiCredentials

/-! The grant of Anthropic that pi's store and Claude Code's store share. A sync and a rotation mirror it, while either CLI
may refresh its own. Both compare the grants some time before they write: the fresher one stays unless a refresh falls in
between. -/
namespace GrantSync
open Interleaving PiCredentials

/-- `refreshed` tells that a CLI has refreshed its grant since the grants were compared. History: whether a step of the hub
has replaced a grant by one that expires earlier. -/
structure State where
  base : PiCredentials.State
  refreshed : Bool := false
  wentBack : Bool := false

inductive Move where
  | own (event : Event) (written : Bool)
  | piRefreshes (grant : Grant)
  | claudeRefreshes (grant : Grant)

def oauth : Option Credential → Option Grant
  | some (.oauth grant) => some grant
  | _ => none

def concerns : Event → Bool
  | .call .syncClaudeOAuth | .call (.rotateAnthropicOAuth _ _) => true
  | .call _ | .claudeWrites _ => false
  | .loaded _ | .effect _ _ | .resumes _ | .fails _ _ | .passes _ => true

def backward (before after : Option Grant) : Bool :=
  before.any fun old => after.any fun new => decide (new.expires < old.expires)

def goesBack (before after : PiCredentials.State) : Bool :=
  backward (oauth before.stored) (oauth after.stored) || backward before.claude after.claude

def State.wrote (s : State) (written : Bool) (base : PiCredentials.State) : PiCredentials.State :=
  if written then base else { base with claude := s.base.claude }

/-- After a step of the hub. -/
def State.after (s : State) (event : Event) (written : Bool) (base : PiCredentials.State) : State where
  base := s.wrote written base
  refreshed := match event with
    | .loaded _ => false
    | _ => s.refreshed
  wentBack := s.wentBack || goesBack s.base (s.wrote written base)

def step (service : Service) (s : State) : Move → Option State
  | .own event written =>
    if concerns event then (PiCredentials.step service s.base event).map (s.after event written) else none
  | .piRefreshes grant =>
    (oauth s.base.stored).map fun _ =>
      { s with base := { s.base with stored := some (.oauth grant) }, refreshed := true }
  | .claudeRefreshes grant =>
    s.base.claude.map fun _ => { s with base := { s.base with claude := some grant }, refreshed := true }

/-- No CLI has refreshed its grant between the comparison and the write, or got one that expires no later than what is
written; and the token endpoint answers with a grant that does not expire before the one it replaces. -/
def permitted (s : State) : Move → Bool
  | .own (.effect k grant) written =>
    match s.base.calls k with
    | some ⟨_, .syncing read⟩ => !s.refreshed || (oauth s.base.stored).all fun pi => decide (pi.expires ≤ read.expires)
    | some ⟨.rotateAnthropicOAuth force marginMs, .rotating _⟩ =>
      (oauth s.base.stored).all fun pi => !s.base.due pi force marginMs || decide (pi.expires ≤ grant.expires)
    | some ⟨_, .exchanging _⟩ => (oauth s.base.stored).all fun pi => decide (pi.expires ≤ grant.expires)
    | some ⟨_, .renewing read⟩ =>
      !written || s.base.claude.all fun claude =>
        decide (claude.refresh ≠ read.refresh) || decide (claude.expires ≤ grant.expires)
    | _ => true
  | .own (.resumes k) written =>
    match s.base.calls k with
    | some ⟨.rotateAnthropicOAuth _ _, .stored⟩ =>
      !written || !s.refreshed || s.base.claude.all fun claude =>
        (oauth s.base.stored).all fun pi => decide (claude.expires ≤ pi.expires)
    | _ => true
  | _ => true

def Ok (s : State) (m : Move) : Prop := permitted s m = true

/-! ### What a sync is for -/

/-- The grant that expires last; pi's where both expire at the same time. -/
def freshest : Option Grant → Option Grant → Option Grant
  | none, claude => claude
  | some pi, none => some pi
  | some pi, some claude => some (if pi.expires < claude.expires then claude else pi)

def same (pi claude : Option Grant) : Prop :=
  pi.map (fun grant => (grant.refresh, grant.expires)) = claude.map fun grant => (grant.refresh, grant.expires)

instance (pi claude : Option Grant) : Decidable (same pi claude) := inferInstanceAs (Decidable (_ = _))

/-- Both stores with the freshest grant, unless they have one already; a credential of pi that is no grant stays. -/
def mirrored (stored : Option Credential) (claude : Option Grant) : Option Credential × Option Grant :=
  if stored.isSome ∧ oauth stored = none ∨ same (oauth stored) claude then (stored, claude)
  else ((freshest (oauth stored) claude).map .oauth, freshest (oauth stored) claude)

def stores (s : State) : Option Credential × Option Grant := (s.base.stored, s.base.claude)

def mirror (s : State) : Option Credential × Option Grant := mirrored s.base.stored s.base.claude

/-- The steps of syncs that complete, with no other writer. -/
def Alone (_ : State) : Move → Prop
  | .own (.call .syncClaudeOAuth) written | .own (.loaded _) written | .own (.effect _ _) written
  | .own (.resumes _) written | .own (.passes _) written => written = true
  | _ => False

theorem mirrored_idem (stored : Option Credential) (claude : Option Grant) :
    mirrored (mirrored stored claude).1 (mirrored stored claude).2 = mirrored stored claude := by
  by_cases settled : stored.isSome ∧ oauth stored = none ∨ same (oauth stored) claude
  · have kept : mirrored stored claude = (stored, claude) := if_pos settled
    rw [kept, kept]
  · have both : mirrored stored claude = ((freshest (oauth stored) claude).map .oauth, freshest (oauth stored) claude) :=
      if_neg settled
    have one : same (oauth ((freshest (oauth stored) claude).map .oauth)) (freshest (oauth stored) claude) := by
      cases freshest (oauth stored) claude <;> rfl
    rw [both]
    exact if_pos (.inr one)

/-! ### One call at a time -/

/-- No refresh has come since the grants were compared, or else Claude Code's is not the fresher one. -/
def Compared (s : State) : Prop :=
  s.refreshed = false → ∀ claude, s.base.claude = some claude → ∀ pi, oauth s.base.stored = some pi → claude.expires ≤ pi.expires

/-- What a call has come to know about the stores. -/
def Progress (s : State) : Stage → Prop
  | .loading | .renewing _ => True
  | .syncing read => s.refreshed = false →
      s.base.claude = some read ∧ ∀ pi, oauth s.base.stored = some pi → pi.expires ≤ read.expires
  | .synced | .rotating _ | .stored => Compared s
  | .exchanging _ => Compared s ∧ (oauth s.base.stored).isSome = true
  | _ => False

structure Idle (base : PiCredentials.State) : Prop where
  calls : base.calls = fun _ => none
  free : base.reservations = []

/-- A sync or a rotation holds both reservations. -/
structure Busy (base : PiCredentials.State) (k : Nat) (call : Call) : Prop where
  calls : base.calls = Calls.put (fun _ => none) k call
  reserved : base.reservations = [.pi, .claudeCode]
  operation : call.operation.reservations = [.pi, .claudeCode]

def Inv (s : State) : Prop := Idle s.base ∨ ∃ k call, Busy s.base k call ∧ Progress s call.stage

section Calls
variable {base : PiCredentials.State} {k j : Nat} {call other : Call}

theorem Busy.only (h : Busy base k call) (there : base.calls j = some other) : j = k ∧ other = call := by
  rw [h.calls] at there
  rcases Calls.put_eq_some there with found | ⟨_, absurd⟩
  · exact found
  · cases absurd

theorem Busy.goto (h : Busy base k call) (stage : Stage) : Busy (base.goto k call.operation stage) k ⟨call.operation, stage⟩ := by
  refine ⟨?_, h.reserved, h.operation⟩
  show base.calls.put k _ = _
  rw [h.calls]
  exact Function.update_idem ..

theorem Busy.close (h : Busy base k call) : Idle (base.close k call.operation) := by
  constructor
  · show base.calls.drop k = _
    rw [h.calls]
    funext j
    by_cases here : j = k
    · rw [here, Calls.drop_self]
    · rw [Calls.drop_of_ne _ here, Calls.put_of_ne _ _ here]
  · show base.reservations.filter _ = []
    rw [h.reserved, h.operation]
    rfl

variable {operation : Operation} {service : Service}

theorem begins {next : PiCredentials.State} (alone : Idle base)
    (reserves : operation.reservations = [.pi, .claudeCode]) (began : base.begin service operation = some next) :
    next = { base with
      reservations := [.pi, .claudeCode]
      calls := Calls.put (fun _ => none) base.nextCall { operation }
      nextCall := base.nextCall + 1 } := by
  obtain ⟨_, began⟩ := Option.ite_none_right_eq_some.mp began
  cases began
  rw [alone.calls, alone.free, reserves]
  rfl

theorem Busy.refuses (h : Busy base k call) (reserves : operation.reservations = [.pi, .claudeCode]) :
    base.begin service operation = none := by
  apply if_neg
  rintro ⟨_, free⟩
  rw [reserves, h.reserved] at free
  exact free .pi List.mem_cons_self List.mem_cons_self

theorem Busy.cases (h : Busy base k call) : call.operation = .syncClaudeOAuth ∨
    ∃ force marginMs, call.operation = .rotateAnthropicOAuth force marginMs := by
  have reserved := h.operation
  cases operation : call.operation with
  | syncClaudeOAuth => exact .inl rfl
  | rotateAnthropicOAuth force marginMs => exact .inr ⟨force, marginMs, rfl⟩
  | _ => simp [operation, Operation.reservations] at reserved

theorem Busy.there (h : Busy base k call) : base.calls k = some call := by rw [h.calls, Calls.put_self]

theorem Busy.write (h : Busy base k call) (by' : Replacer) (grant : Grant) : Busy (base.write by' grant) k call :=
  ⟨h.calls, h.reserved, h.operation⟩

theorem Busy.setClaude (h : Busy base k call) (claude : Option Grant) : Busy { base with claude } k call :=
  ⟨h.calls, h.reserved, h.operation⟩

theorem Busy.setDead (h : Busy base k call) (dead deadProvider : Option Nat) :
    Busy { base with deadRefreshToken := dead, deadProviderRefreshToken := deadProvider } k call :=
  ⟨h.calls, h.reserved, h.operation⟩

theorem reserves_of_concerns (concern : concerns (.call operation) = true) :
    operation = .syncClaudeOAuth ∨ ∃ force marginMs, operation = .rotateAnthropicOAuth force marginMs := by
  unfold concerns at concern
  split at concern
  · next same => exact .inl (Event.call.inj same)
  · next force marginMs same => exact .inr ⟨force, marginMs, Event.call.inj same⟩
  all_goals simp_all

end Calls

/-! ### What a step writes -/

theorem backward_eq_false {before after : Option Grant} : backward before after = false ↔
    ∀ old, before = some old → ∀ new, after = some new → old.expires ≤ new.expires := by
  cases before with
  | none => simp [backward]
  | some old => cases after <;> simp [backward]

@[simp] theorem backward_self (grant : Option Grant) : backward grant grant = false := by
  cases grant <;> simp [backward]

theorem all_le {grant : Option Grant} {expires : Nat} : (grant.all fun old => decide (old.expires ≤ expires)) = true ↔
    ∀ old, grant = some old → old.expires ≤ expires := by
  cases grant <;> simp

variable {s t : State} {stage : Stage}

theorem Progress.frame (progress : Progress s stage) (refreshed : t.refreshed = s.refreshed)
    (stored : t.base.stored = s.base.stored) (claude : t.base.claude = s.base.claude) : Progress t stage := by
  have same : Progress t stage ↔ Progress s stage := by
    cases stage <;> simp only [Progress, Compared, refreshed, stored, claude]
  exact same.mpr progress

theorem Progress.refresh (progress : Progress s stage) (refreshed : t.refreshed = true)
    (holds : (oauth s.base.stored).isSome = true → (oauth t.base.stored).isSome = true) : Progress t stage := by
  have late : ∀ {P : Prop}, t.refreshed = false → P := fun quiet => absurd (refreshed.symm.trans quiet) (by decide)
  cases stage with
  | loading | renewing read => trivial
  | syncing read => exact late
  | synced | rotating read | stored => exact late
  | exchanging read => exact ⟨late, holds progress.2⟩
  | external | storing key | removing | loggingIn | standalone | loggingOut => exact progress

section Step
variable {service : Service} {s : State} {base next : PiCredentials.State} {k : Nat} {call : Call} {event : Event} {written : Bool}

@[simp] theorem wrote_stored : (s.wrote written base).stored = base.stored := by cases written <;> rfl

theorem wrote_calls : (s.wrote written base).calls = base.calls := by cases written <;> rfl

theorem wrote_reservations : (s.wrote written base).reservations = base.reservations := by cases written <;> rfl

theorem wrote_claude (same : base.claude = s.base.claude) : (s.wrote written base).claude = s.base.claude := by
  cases written with
  | false => rfl
  | true => exact same

theorem goesBack_stored (claude : base.claude = s.base.claude) :
    goesBack s.base (s.wrote written base) = backward (oauth s.base.stored) (oauth base.stored) := by
  rw [goesBack, wrote_stored, wrote_claude claude, backward_self, Bool.or_false]

theorem goesBack_claude (stored : base.stored = s.base.stored) :
    goesBack s.base (s.wrote written base) = (written && backward s.base.claude base.claude) := by
  rw [goesBack, wrote_stored, stored, backward_self, Bool.false_or]
  cases written with
  | false => exact backward_self _
  | true => rfl

theorem goesBack_kept (stored : base.stored = s.base.stored) (claude : base.claude = s.base.claude) :
    goesBack s.base (s.wrote written base) = false := by
  rw [goesBack_stored claude, stored, backward_self]

theorem compared_kept (claude : base.claude = s.base.claude) (older : (s.after event written base).refreshed = false →
      ∀ claude, s.base.claude = some claude → ∀ pi, oauth base.stored = some pi → claude.expires ≤ pi.expires) :
    Compared (s.after event written base) := by
  intro quiet found here pi there
  exact older quiet found ((wrote_claude claude).symm.trans here) pi (wrote_stored (s := s) ▸ there)

theorem compared_mirrored (claude : base.claude = oauth base.stored)
    (older : (s.after event written base).refreshed = false →
      ∀ claude, s.base.claude = some claude → ∀ pi, oauth base.stored = some pi → claude.expires ≤ pi.expires) :
    Compared (s.after event written base) := by
  cases written with
  | false => exact fun quiet found here pi there => older quiet found here pi there
  | true =>
    intro _ found here pi there
    cases here.symm.trans (claude.trans there)
    exact Nat.le_refl _

theorem Inv.closed (idle : Idle base) : Inv (s.after event written base) :=
  .inl ⟨wrote_calls.trans idle.calls, wrote_reservations.trans idle.free⟩

theorem Inv.goes (busy : Busy base k call) (progress : Progress (s.after event written base) call.stage) :
    Inv (s.after event written base) :=
  .inr ⟨k, call, ⟨wrote_calls.trans busy.calls, wrote_reservations.trans busy.reserved, busy.operation⟩, progress⟩

theorem moves_kept (stored : base.stored = s.base.stored) (claude : base.claude = s.base.claude)
    (ok : permitted s (.own event written) = true) (inv : Inv (s.after event written base)) :
    (goesBack s.base (s.wrote written base) = false ↔ permitted s (.own event written) = true) ∧
      (permitted s (.own event written) = true → Inv (s.after event written base)) :=
  ⟨iff_of_true (goesBack_kept stored claude) ok, fun _ => inv⟩

theorem sync_cases (service : Service) (base : PiCredentials.State) (k : Nat) (operation : Operation) :
    (mirrored base.stored base.claude = (base.stored, base.claude) ∧
      (∀ claude, base.claude = some claude → ∀ pi, oauth base.stored = some pi → claude.expires ≤ pi.expires) ∧
      base.syncAnthropicOAuth service k operation = base.goto k operation .synced) ∨
    (∃ claude, base.claude = some claude ∧ mirrored base.stored base.claude = (some (.oauth claude), some claude) ∧
      (∀ pi, oauth base.stored = some pi → pi.expires ≤ claude.expires) ∧
      (base.syncAnthropicOAuth service k operation = base.goto k operation (.syncing claude) ∨
        base.syncAnthropicOAuth service k operation = (base.write .sync claude).goto k operation .synced)) ∨
    ∃ pi, base.stored = some (.oauth pi) ∧ mirrored base.stored base.claude = (some (.oauth pi), some pi) ∧
      (∀ claude, base.claude = some claude → claude.expires ≤ pi.expires) ∧
      base.syncAnthropicOAuth service k operation = { base with claude := some pi }.goto k operation .synced := by
  obtain ⟨now, stored, claude⟩ := base
  have written : ∀ (base : PiCredentials.State) (grant : Grant),
      base.writeStoredOAuth service k operation grant = base.goto k operation (.syncing grant) ∨
        base.writeStoredOAuth service k operation grant = (base.write .sync grant).goto k operation .synced := by
    intro base grant
    unfold PiCredentials.State.writeStoredOAuth
    split
    · exact .inl rfl
    · exact .inr rfl
  match stored, claude with
  | some (.apiKey _), _ => exact .inl ⟨if_pos (.inl ⟨rfl, rfl⟩), fun _ _ _ absurd => (nomatch absurd), rfl⟩
  | some (.unsupported _), _ => exact .inl ⟨if_pos (.inl ⟨rfl, rfl⟩), fun _ _ _ absurd => (nomatch absurd), rfl⟩
  | none, none => exact .inl ⟨rfl, fun _ absurd => (nomatch absurd), rfl⟩
  | none, some claude => exact .inr (.inl ⟨claude, rfl, rfl, fun _ absurd => (nomatch absurd), written _ _⟩)
  | some (.oauth pi), none =>
    exact .inr (.inr ⟨pi, rfl, rfl, fun _ absurd => (nomatch absurd), rfl⟩)
  | some (.oauth pi), some claude =>
    unfold PiCredentials.State.syncAnthropicOAuth
    dsimp only
    by_cases one : pi.refresh = claude.refresh ∧ pi.expires = claude.expires
    · rw [if_pos one]
      have settled : same (oauth (some (.oauth pi))) (some claude) := by simp [same, oauth, one]
      refine .inl ⟨if_pos (.inr settled), ?_, rfl⟩
      intro _ here _ there
      cases here
      cases there
      exact Nat.le_of_eq one.2.symm
    · rw [if_neg one]
      have other : ¬((some (Credential.oauth pi)).isSome = true ∧ oauth (some (.oauth pi)) = none ∨
          same (oauth (some (.oauth pi))) (some claude)) := by simpa [same, oauth] using one
      have both : mirrored (some (.oauth pi)) (some claude) =
          ((freshest (some pi) (some claude)).map .oauth, freshest (some pi) (some claude)) := if_neg other
      rw [both]
      by_cases fresher : pi.expires < claude.expires
      · rw [if_pos fresher, freshest, if_pos fresher]
        refine .inr (.inl ⟨claude, rfl, rfl, ?_, written _ _⟩)
        intro _ there
        cases there
        exact Nat.le_of_lt fresher
      · rw [if_neg fresher, freshest, if_neg fresher]
        refine .inr (.inr ⟨pi, rfl, rfl, ?_, rfl⟩)
        intro _ here
        cases here
        exact Nat.le_of_not_lt fresher

theorem rotate_cases (service : Service) (base : PiCredentials.State) (k : Nat) (force : Bool) (marginMs : Nat) :
    base.rotateAnthropicOAuth service k force marginMs = base.close k (.rotateAnthropicOAuth force marginMs) ∨
      ∃ read, base.rotateAnthropicOAuth service k force marginMs =
          base.goto k (.rotateAnthropicOAuth force marginMs) (.renewing read) ∨
        base.rotateAnthropicOAuth service k force marginMs =
          base.goto k (.rotateAnthropicOAuth force marginMs) (.rotating read) ∨
        (oauth base.stored).isSome = true ∧ base.rotateAnthropicOAuth service k force marginMs =
            base.goto k (.rotateAnthropicOAuth force marginMs) (.exchanging read) := by
  unfold PiCredentials.State.rotateAnthropicOAuth
  split
  · split
    · next claude _ =>
        split
        · exact .inr ⟨claude, .inl rfl⟩
        · exact .inl rfl
    · exact .inl rfl
  · next pi there =>
      split
      · unfold PiCredentials.State.exchange
        cases service.modifies with
        | true => exact .inr ⟨pi, .inr (.inl rfl)⟩
        | false => exact .inr ⟨pi, .inr (.inr ⟨by rw [there]; rfl, rfl⟩)⟩
      · exact .inl rfl
  · exact .inl rfl

theorem fail_cases {invalidGrant : Bool} (failed : base.fail k call invalidGrant = some next) : ∃ dead deadProvider,
      next = { base with deadRefreshToken := dead, deadProviderRefreshToken := deadProvider }.close k call.operation := by
  unfold PiCredentials.State.fail at failed
  split at failed
  · cases failed
  · cases failed
  all_goals
    cases failed
    cases invalidGrant
    all_goals simp_all
    all_goals exact ⟨_, _, rfl⟩

variable {operation : Operation}

theorem loaded_moves (busy : Busy s.base k ⟨operation, .loading⟩) :
    goesBack s.base (s.wrote written (s.base.syncAnthropicOAuth service k operation)) = false ∧
      Inv (s.after (.loaded k) written (s.base.syncAnthropicOAuth service k operation)) := by
  rcases sync_cases service s.base k operation with ⟨_, older, next⟩ | ⟨claude, there, _, older, next | next⟩ |
    ⟨pi, there, _, older, next⟩
  · rw [next]
    exact ⟨goesBack_kept rfl rfl, Inv.goes (busy.goto .synced) (compared_kept rfl fun _ => older)⟩
  · rw [next]
    refine ⟨goesBack_kept rfl rfl, Inv.goes (busy.goto (.syncing claude)) fun _ => ⟨(wrote_claude ?_).trans there, ?_⟩⟩
    · rfl
    · intro pi found
      have stored : oauth (s.wrote written _).stored = some pi := found
      rw [wrote_stored] at stored
      exact older pi stored
  · rw [next]
    constructor
    · refine (goesBack_stored ?_).trans (backward_eq_false.mpr ?_)
      · rfl
      intro pi found _ new
      cases new
      exact older pi found
    · refine Inv.goes ((busy.write .sync claude).goto .synced) (compared_kept rfl fun _ _ here _ found => ?_)
      cases here.symm.trans there
      cases found
      exact Nat.le_refl _
  · rw [next]
    have holds : oauth s.base.stored = some pi := by rw [there]; rfl
    constructor
    · refine (goesBack_claude ?_).trans (Bool.and_eq_false_imp.mpr fun _ => backward_eq_false.mpr ?_)
      · rfl
      intro old here _ new
      cases new
      exact older old here
    · refine Inv.goes ((busy.setClaude (some pi)).goto .synced) (compared_mirrored holds.symm fun _ claude here _ found => ?_)
      cases holds.symm.trans found
      exact older claude here

variable {grant : Grant} {by' : Replacer} {stage : Stage}

theorem goesBack_write : goesBack s.base (s.wrote written ((s.base.write by' grant).goto k operation stage)) = false ↔
      ∀ pi, oauth s.base.stored = some pi → pi.expires ≤ grant.expires := by
  have kept : goesBack s.base (s.wrote written ((s.base.write by' grant).goto k operation stage)) =
      backward (oauth s.base.stored) (some grant) := goesBack_stored (by rfl)
  rw [kept, backward_eq_false]
  exact forall₂_congr fun pi _ => ⟨fun later => later grant rfl, fun later _ new => Option.some.inj new ▸ later⟩

theorem compared_write
    (older : (s.after event written ((s.base.write by' grant).goto k operation stage)).refreshed = false →
      ∀ claude, s.base.claude = some claude → claude.expires ≤ grant.expires) :
    Compared (s.after event written ((s.base.write by' grant).goto k operation stage)) := by
  refine compared_kept rfl fun quiet claude here pi found => ?_
  cases found
  exact older quiet claude here

theorem rotate_eq (base : PiCredentials.State) (force : Bool) (marginMs : Nat) (grant : Grant) :
    base.rotate (.rotateAnthropicOAuth force marginMs) grant =
      if (oauth base.stored).any fun pi => base.due pi force marginMs then base.write .rotation grant else base := by
  obtain ⟨now, stored, claude⟩ := base
  match stored with
  | none => rfl
  | some (.apiKey _) => rfl
  | some (.unsupported _) => rfl
  | some (.oauth pi) => rfl

theorem effect_moves (busy : Busy s.base k call) (progress : Progress s call.stage)
    (made : s.base.effect k call grant = some base) :
    (goesBack s.base (s.wrote written base) = false ↔ permitted s (.own (.effect k grant) written) = true) ∧
      (permitted s (.own (.effect k grant) written) = true → Inv (s.after (.effect k grant) written base)) := by
  have there := busy.there
  obtain ⟨operation, stage⟩ := call
  cases stage with
  | syncing read =>
    cases made
    have allowed : permitted s (.own (.effect k grant) written) = true ↔
        ∀ pi, oauth s.base.stored = some pi → pi.expires ≤ read.expires := by
      simp only [permitted, there, Bool.or_eq_true, Bool.not_eq_true', all_le]
      exact ⟨fun either pi found => either.elim (fun quiet => (progress quiet).2 pi found) (· pi found), .inr⟩
    refine ⟨goesBack_write.trans allowed.symm, fun _ => ?_⟩
    refine Inv.goes ((busy.write .sync read).goto .synced) (compared_write fun quiet claude here => ?_)
    cases here.symm.trans (progress quiet).1
    exact Nat.le_refl _
  | rotating read =>
    cases made
    rcases busy.cases with sync | ⟨force, marginMs, rotate⟩
    · obtain rfl : operation = .syncClaudeOAuth := sync
      have kept : s.base.rotate .syncClaudeOAuth grant = s.base := by
        unfold PiCredentials.State.rotate
        split <;> simp_all
      rw [kept]
      refine moves_kept rfl rfl (by simp only [permitted, there]) ?_
      exact Inv.goes (busy.goto .stored) (compared_kept rfl progress)
    · obtain rfl : operation = .rotateAnthropicOAuth force marginMs := rotate
      rw [rotate_eq]
      have allowed : permitted s (.own (.effect k grant) written) = true ↔
          ∀ pi, oauth s.base.stored = some pi → s.base.due pi force marginMs = true → pi.expires ≤ grant.expires := by
        simp only [permitted, there, Option.all_eq_true, Bool.or_eq_true, Bool.not_eq_true', decide_eq_true_eq]
        refine forall₂_congr fun pi _ => ?_
        cases s.base.due pi force marginMs <;> simp
      by_cases due : (oauth s.base.stored).any (fun pi => s.base.due pi force marginMs) = true
      · rw [if_pos due]
        obtain ⟨pi, found, due⟩ := (Option.any_eq_true _ _).mp due
        have later : permitted s (.own (.effect k grant) written) = true ↔
            ∀ pi, oauth s.base.stored = some pi → pi.expires ≤ grant.expires := by
          rw [allowed, found]
          constructor
          · intro later _ same
            cases same
            exact later _ rfl due
          · exact fun later _ same _ => later _ same
        refine ⟨goesBack_write.trans later.symm, fun ok => ?_⟩
        refine Inv.goes ((busy.write .rotation grant).goto .stored) (compared_write fun quiet claude here => ?_)
        exact Nat.le_trans (progress quiet claude here pi found) (later.mp ok pi found)
      · rw [if_neg due]
        have fresh : permitted s (.own (.effect k grant) written) = true := by
          rw [allowed]
          exact fun pi found isDue => absurd ((Option.any_eq_true _ _).mpr ⟨pi, found, isDue⟩) due
        refine moves_kept rfl rfl fresh ?_
        exact Inv.goes (busy.goto .stored) (compared_kept rfl progress)
  | exchanging read =>
    cases made
    have allowed : permitted s (.own (.effect k grant) written) = true ↔
        ∀ pi, oauth s.base.stored = some pi → pi.expires ≤ grant.expires := by
      simp only [permitted, there, all_le]
    refine ⟨goesBack_write.trans allowed.symm, fun ok => ?_⟩
    refine Inv.goes ((busy.write .rotation grant).goto .stored) (compared_write fun quiet claude here => ?_)
    obtain ⟨pi, found⟩ := Option.isSome_iff_exists.mp progress.2
    exact Nat.le_trans (progress.1 quiet claude here pi found) (allowed.mp ok pi found)
  | renewing read =>
    have allowed : permitted s (.own (.effect k grant) written) = true ↔ (written = true →
        ∀ claude, s.base.claude = some claude → claude.refresh = read.refresh → claude.expires ≤ grant.expires) := by
      simp only [permitted, there, Option.all_eq_true, Bool.or_eq_true, Bool.not_eq_true', decide_eq_true_eq,
        ← imp_iff_not_or]
      cases written <;> simp
    simp only [PiCredentials.State.effect] at made
    split at made
    · next changed =>
        cases made
        obtain ⟨claude, here, other⟩ := (Option.any_eq_true _ _).mp changed
        have ok : permitted s (.own (.effect k grant) written) = true := by
          rw [allowed, here]
          rintro - _ same refresh
          cases same
          exact absurd refresh (of_decide_eq_true other)
        exact moves_kept rfl rfl ok (Inv.closed (busy.setDead none _).close)
    · next unchanged =>
        cases made
        have one : ∀ claude, s.base.claude = some claude → claude.refresh = read.refresh := by
          intro claude here
          by_contra other
          exact unchanged ((Option.any_eq_true _ _).mpr ⟨claude, here, decide_eq_true other⟩)
        refine ⟨?_, fun _ => Inv.closed ((busy.setDead none _).setClaude (some grant)).close⟩
        refine Iff.trans (Eq.congr_left (goesBack_claude (by rfl))) (Iff.trans ?_ allowed.symm)
        rw [Bool.and_eq_false_imp]
        refine imp_congr_right fun _ => backward_eq_false.trans ?_
        constructor
        · exact fun later claude here _ => later claude here grant rfl
        · rintro later claude here _ new
          cases new
          exact later claude here (one claude here)
  | loading => cases made
  | external => cases made
  | synced => cases made
  | stored => cases made
  | _ => exact progress.elim

theorem project_eq (base : PiCredentials.State) :
    base.projectToClaude = { base with claude := (oauth base.stored).or base.claude } := by
  obtain ⟨now, stored, claude⟩ := base
  match stored with
  | none => rfl
  | some (.apiKey _) => rfl
  | some (.unsupported _) => rfl
  | some (.oauth pi) => rfl

theorem resume_moves (busy : Busy s.base k call) (progress : Progress s call.stage)
    (made : s.base.resume service k call = some base) :
    (goesBack s.base (s.wrote written base) = false ↔ permitted s (.own (.resumes k) written) = true) ∧
      (permitted s (.own (.resumes k) written) = true → Inv (s.after (.resumes k) written base)) := by
  have there := busy.there
  obtain ⟨operation, stage⟩ := call
  cases stage with
  | synced =>
    have ok : permitted s (.own (.resumes k) written) = true := by simp only [permitted, there]
    rcases busy.cases with sync | ⟨force, marginMs, rotate⟩
    · obtain rfl : operation = .syncClaudeOAuth := sync
      cases made
      exact moves_kept rfl rfl ok (Inv.closed busy.close)
    · obtain rfl : operation = .rotateAnthropicOAuth force marginMs := rotate
      cases made
      rcases rotate_cases service s.base k force marginMs with next | ⟨read, next | next | ⟨holds, next⟩⟩
      · rw [next]
        exact moves_kept rfl rfl ok (Inv.closed busy.close)
      · rw [next]
        exact moves_kept rfl rfl ok (Inv.goes (busy.goto (.renewing read)) trivial)
      · rw [next]
        refine moves_kept rfl rfl ok ?_
        exact Inv.goes (busy.goto (.rotating read)) (compared_kept rfl progress)
      · rw [next]
        refine moves_kept rfl rfl ok ?_
        refine Inv.goes (busy.goto (.exchanging read)) ⟨compared_kept rfl progress, ?_⟩
        exact (congrArg (fun stored => (oauth stored).isSome) wrote_stored).trans holds
  | stored =>
    rcases busy.cases with sync | ⟨force, marginMs, rotate⟩
    · obtain rfl : operation = .syncClaudeOAuth := sync
      cases made
      have ok : permitted s (.own (.resumes k) written) = true := by simp only [permitted, there]
      exact moves_kept rfl rfl ok (Inv.closed busy.close)
    · obtain rfl : operation = .rotateAnthropicOAuth force marginMs := rotate
      cases made
      have allowed : permitted s (.own (.resumes k) written) = true ↔ (written = true →
          ∀ claude, s.base.claude = some claude → ∀ pi, oauth s.base.stored = some pi → claude.expires ≤ pi.expires) := by
        simp only [permitted, there, Option.all_eq_true, Bool.or_eq_true, Bool.not_eq_true', decide_eq_true_eq]
        constructor
        · rintro ((unwritten | quiet) | later) ok
          · exact absurd ok (Bool.eq_false_iff.mp unwritten)
          · exact progress quiet
          · exact later
        · intro later
          cases written with
          | false => exact .inl (.inl rfl)
          | true => exact .inr (later rfl)
      rw [project_eq]
      refine ⟨?_, fun _ => Inv.closed ((busy.setDead none _).setClaude _).close⟩
      refine Iff.trans (Eq.congr_left (goesBack_claude (by rfl))) (Iff.trans ?_ allowed.symm)
      rw [Bool.and_eq_false_imp]
      refine imp_congr_right fun _ => ?_
      show backward s.base.claude ((oauth s.base.stored).or s.base.claude) = false ↔ _
      cases oauth s.base.stored with
      | none => simp
      | some pi => exact backward_eq_false
  | loading => cases made
  | syncing read => cases made
  | rotating read => cases made
  | exchanging read => cases made
  | renewing read => cases made
  | _ => exact progress.elim

theorem own_moves (inv : Inv s) (concern : concerns event = true) (made : PiCredentials.step service s.base event = some base) :
    (goesBack s.base (s.wrote written base) = false ↔ permitted s (.own event written) = true) ∧
      (permitted s (.own event written) = true → Inv (s.after event written base)) := by
  cases event with
  | call operation =>
    have reserves : operation.reservations = [.pi, .claudeCode] := by
      rcases reserves_of_concerns concern with rfl | ⟨force, marginMs, rfl⟩ <;> rfl
    rcases inv with idle | ⟨k, call, busy, _⟩
    · obtain rfl := begins idle reserves made
      refine moves_kept rfl rfl rfl ?_
      exact .inr ⟨s.base.nextCall, ⟨operation, .loading⟩, ⟨wrote_calls, wrote_reservations, reserves⟩, trivial⟩
    · exact absurd (made.symm.trans (busy.refuses reserves)) (Option.some_ne_none _)
  | loaded j =>
    rcases inv with idle | ⟨k, call, busy, _⟩
    · simp [PiCredentials.step, idle.calls] at made
    · simp only [PiCredentials.step] at made
      split at made
      · next operation found =>
          obtain ⟨rfl, rfl⟩ := busy.only found
          have next : base = s.base.syncAnthropicOAuth service j operation := by
            rcases busy.cases with sync | ⟨force, marginMs, rotate⟩
            · obtain rfl : operation = .syncClaudeOAuth := sync
              exact (Option.some.inj made).symm
            · obtain rfl : operation = .rotateAnthropicOAuth force marginMs := rotate
              exact (Option.some.inj made).symm
          obtain rfl := next
          obtain ⟨kept, inv⟩ := loaded_moves busy
          exact ⟨iff_of_true kept rfl, fun _ => inv⟩
      · cases made
  | effect j grant =>
    rcases inv with idle | ⟨k, call, busy, progress⟩
    · simp [PiCredentials.step, idle.calls] at made
    · obtain ⟨call, found, made⟩ := Option.bind_eq_some_iff.mp made
      obtain ⟨rfl, rfl⟩ := busy.only found
      exact effect_moves busy progress made
  | resumes j =>
    rcases inv with idle | ⟨k, call, busy, progress⟩
    · simp [PiCredentials.step, idle.calls] at made
    · obtain ⟨call, found, made⟩ := Option.bind_eq_some_iff.mp made
      obtain ⟨rfl, rfl⟩ := busy.only found
      exact resume_moves busy progress made
  | fails j invalidGrant =>
    rcases inv with idle | ⟨k, call, busy, _⟩
    · simp [PiCredentials.step, idle.calls] at made
    · obtain ⟨call, found, made⟩ := Option.bind_eq_some_iff.mp made
      obtain ⟨rfl, rfl⟩ := busy.only found
      obtain ⟨dead, deadProvider, rfl⟩ := fail_cases made
      exact moves_kept rfl rfl rfl (Inv.closed (busy.setDead dead deadProvider).close)
  | passes ms =>
    cases made
    refine moves_kept rfl rfl rfl ?_
    rcases inv with idle | ⟨k, call, busy, progress⟩
    · exact Inv.closed ⟨idle.calls, idle.free⟩
    · have busy : Busy { s.base with now := s.base.now + ms } k call := ⟨busy.calls, busy.reserved, busy.operation⟩
      exact Inv.goes busy (progress.frame rfl wrote_stored (wrote_claude rfl))
  | claudeWrites grant => cases concern

end Step

/-! ### Every run -/

section Runs
variable {service : Service}

theorem inv_step (s : State) (m : Move) (t : State) (inv : Inv s) (permitted : Ok s m) (taken : step service s m = some t) :
    Inv t := by
  cases m with
  | own event written =>
    obtain ⟨concern, taken⟩ := Option.ite_none_right_eq_some.mp taken
    obtain ⟨base, made, rfl⟩ := Option.map_eq_some_iff.mp taken
    exact (own_moves inv concern made).2 permitted
  | piRefreshes grant =>
    obtain ⟨pi, found, rfl⟩ := Option.map_eq_some_iff.mp taken
    refine inv.imp (fun idle => ⟨idle.calls, idle.free⟩) ?_
    rintro ⟨k, call, busy, progress⟩
    exact ⟨k, call, ⟨busy.calls, busy.reserved, busy.operation⟩, progress.refresh rfl fun _ => rfl⟩
  | claudeRefreshes grant =>
    obtain ⟨claude, found, rfl⟩ := Option.map_eq_some_iff.mp taken
    refine inv.imp (fun idle => ⟨idle.calls, idle.free⟩) ?_
    rintro ⟨k, call, busy, progress⟩
    exact ⟨k, call, ⟨busy.calls, busy.reserved, busy.operation⟩, progress.refresh rfl id⟩

variable {s : State}

theorem wentBack_step_iff {t : State} {m : Move} (inv : Inv s) (never : s.wentBack = false)
    (taken : step service s m = some t) : t.wentBack = false ↔ Ok s m := by
  cases m with
  | own event written =>
    obtain ⟨concern, taken⟩ := Option.ite_none_right_eq_some.mp taken
    obtain ⟨base, made, rfl⟩ := Option.map_eq_some_iff.mp taken
    show (s.wentBack || _) = false ↔ _
    rw [never, Bool.false_or]
    exact (own_moves inv concern made).1
  | piRefreshes grant =>
    obtain ⟨pi, found, rfl⟩ := Option.map_eq_some_iff.mp taken
    exact iff_of_true never rfl
  | claudeRefreshes grant =>
    obtain ⟨claude, found, rfl⟩ := Option.map_eq_some_iff.mp taken
    exact iff_of_true never rfl

/-! ### Syncs alone -/

def Known (start s : State) : Stage → Prop
  | .loading => True
  | .syncing read => (some (.oauth read), s.base.claude) = mirror start
  | .synced => stores s = mirror start
  | _ => False

/-- Since `start` there have been syncs alone. -/
structure Undisturbed (start s : State) : Prop where
  among : stores s = stores start ∨ stores s = mirror start
  phase : Idle s.base ∧ (s.base.nextCall = start.base.nextCall ∨ stores s = mirror start) ∨
    ∃ k stage, Busy s.base k ⟨.syncClaudeOAuth, stage⟩ ∧ Known start s stage

variable {start : State}

theorem Undisturbed.mirror_eq (h : Undisturbed start s) : mirror s = mirror start := by
  rcases h.among with kept | settled
  · exact congrArg (fun pair => mirrored pair.1 pair.2) kept
  · exact (congrArg (fun pair => mirrored pair.1 pair.2) settled).trans (mirrored_idem _ _)

theorem undisturbed_step (s : State) (m : Move) (t : State) (h : Undisturbed start s) (alone : Alone s m)
    (taken : step service s m = some t) : Undisturbed start t := by
  cases m with
  | piRefreshes grant => exact alone.elim
  | claudeRefreshes grant => exact alone.elim
  | own event written =>
    obtain ⟨concern, taken⟩ := Option.ite_none_right_eq_some.mp taken
    obtain ⟨base, made, rfl⟩ := Option.map_eq_some_iff.mp taken
    cases event with
    | call operation =>
      rcases reserves_of_concerns concern with rfl | ⟨force, marginMs, rfl⟩
      · obtain rfl : written = true := alone
        rcases h.phase with ⟨idle, _⟩ | ⟨k, stage, busy, _⟩
        · obtain rfl := begins idle rfl made
          exact ⟨h.among, .inr ⟨_, _, ⟨rfl, rfl, rfl⟩, trivial⟩⟩
        · exact absurd (made.symm.trans (busy.refuses rfl)) (Option.some_ne_none _)
      · exact alone.elim
    | loaded j =>
      obtain rfl : written = true := alone
      rcases h.phase with ⟨idle, _⟩ | ⟨k, stage, busy, _⟩
      · simp [PiCredentials.step, idle.calls] at made
      · simp only [PiCredentials.step] at made
        split at made
        · next operation found =>
            obtain ⟨rfl, same⟩ := busy.only found
            cases same
            have next : base = s.base.syncAnthropicOAuth service j .syncClaudeOAuth := (Option.some.inj made).symm
            have target : mirrored s.base.stored s.base.claude = mirror start := h.mirror_eq
            rcases sync_cases service s.base j .syncClaudeOAuth with ⟨settled, _, compared⟩ |
              ⟨claude, there, settled, _, compared | compared⟩ | ⟨pi, there, settled, _, compared⟩
            all_goals
              rw [compared] at next
              rw [settled] at target
              subst next
            · exact ⟨.inr target, .inr ⟨j, _, busy.goto .synced, target⟩⟩
            · have both : (some (Credential.oauth claude), s.base.claude) = mirror start := there ▸ target
              exact ⟨h.among, .inr ⟨j, _, busy.goto (.syncing claude), both⟩⟩
            · have both : (some (Credential.oauth claude), s.base.claude) = mirror start := there ▸ target
              exact ⟨.inr both, .inr ⟨j, _, (busy.write .sync claude).goto .synced, both⟩⟩
            · have both : (s.base.stored, some pi) = mirror start := there ▸ target
              exact ⟨.inr both, .inr ⟨j, _, (busy.setClaude (some pi)).goto .synced, both⟩⟩
        · cases made
    | effect j grant =>
      obtain rfl : written = true := alone
      rcases h.phase with ⟨idle, _⟩ | ⟨k, stage, busy, known⟩
      · simp [PiCredentials.step, idle.calls] at made
      · obtain ⟨call, found, made⟩ := Option.bind_eq_some_iff.mp made
        obtain ⟨rfl, rfl⟩ := busy.only found
        cases stage with
        | syncing read =>
          cases made
          exact ⟨.inr known, .inr ⟨j, _, (busy.write .sync read).goto .synced, known⟩⟩
        | loading => cases made
        | synced => cases made
        | _ => exact known.elim
    | resumes j =>
      obtain rfl : written = true := alone
      rcases h.phase with ⟨idle, _⟩ | ⟨k, stage, busy, known⟩
      · simp [PiCredentials.step, idle.calls] at made
      · obtain ⟨call, found, made⟩ := Option.bind_eq_some_iff.mp made
        obtain ⟨rfl, rfl⟩ := busy.only found
        cases stage with
        | synced =>
          cases made
          exact ⟨.inr known, .inl ⟨busy.close, .inr known⟩⟩
        | loading => cases made
        | syncing read => cases made
        | _ => exact known.elim
    | fails j invalidGrant => exact alone.elim
    | passes ms =>
      obtain rfl : written = true := alone
      cases made
      refine ⟨h.among, h.phase.imp (fun ⟨idle, known⟩ => ⟨⟨idle.calls, idle.free⟩, known⟩) ?_⟩
      rintro ⟨k, stage, busy, known⟩
      refine ⟨k, stage, ⟨busy.calls, busy.reserved, busy.operation⟩, ?_⟩
      cases stage <;> exact known
    | claudeWrites grant => cases concern

variable {event : Event} {base : PiCredentials.State}

theorem own_taken (concern : concerns event = true) (made : PiCredentials.step service s.base event = some base) :
    step service s (.own event true) = some (s.after event true base) := by
  simp only [step, concern, made, if_true, Option.map_some]

/-- The calls of `s` come to an end. -/
def Completes (service : Service) (s : State) : Prop :=
  ∃ moves t, Run (step service) Alone s moves t ∧ t.base.reservations = [] ∧ t.base.nextCall = s.base.nextCall

theorem Completes.after (made : PiCredentials.step service s.base event = some base) (concern : concerns event = true)
    (alone : Alone s (.own event true)) (count : base.nextCall = s.base.nextCall)
    (rest : Completes service (s.after event true base)) : Completes service s := by
  obtain ⟨moves, t, run, free, same⟩ := rest
  exact ⟨_, t, .cons alone (own_taken concern made) run, free, same.trans count⟩

variable {k : Nat}

theorem synced_completes (busy : Busy s.base k ⟨.syncClaudeOAuth, .synced⟩) : Completes service s := by
  have made : PiCredentials.step service s.base (.resumes k) = some (s.base.close k .syncClaudeOAuth) := by
    simp only [PiCredentials.step, busy.there]
    rfl
  exact .after made rfl rfl rfl ⟨[], _, .nil _, busy.close.free, rfl⟩

theorem syncing_completes {read : Grant} (busy : Busy s.base k ⟨.syncClaudeOAuth, .syncing read⟩) :
    Completes service s := by
  have made : PiCredentials.step service s.base (.effect k read) =
      some ((s.base.write .sync read).goto k .syncClaudeOAuth .synced) := by
    simp only [PiCredentials.step, busy.there]
    rfl
  exact .after made rfl rfl rfl (synced_completes ((busy.write .sync read).goto .synced))

theorem loading_completes (busy : Busy s.base k ⟨.syncClaudeOAuth, .loading⟩) : Completes service s := by
  have made : PiCredentials.step service s.base (.loaded k) = some (s.base.syncAnthropicOAuth service k .syncClaudeOAuth) := by
    simp only [PiCredentials.step, busy.there]
    rfl
  rcases sync_cases service s.base k .syncClaudeOAuth with ⟨_, _, compared⟩ | ⟨claude, _, _, _, compared | compared⟩ |
    ⟨pi, _, _, _, compared⟩
  all_goals rw [compared] at made
  · exact .after made rfl rfl rfl (synced_completes (busy.goto .synced))
  · exact .after made rfl rfl rfl (syncing_completes (busy.goto (.syncing claude)))
  · exact .after made rfl rfl rfl (synced_completes ((busy.write .sync claude).goto .synced))
  · exact .after made rfl rfl rfl (synced_completes ((busy.setClaude (some pi)).goto .synced))

theorem sync_completes (idle : Idle s.base) (sink : service.claudeSink = true) :
    ∃ moves t, Run (step service) Alone s moves t ∧ t.base.reservations = [] ∧ s.base.nextCall < t.base.nextCall := by
  have offered : service.offers .syncClaudeOAuth = true ∧
      ∀ harness ∈ Operation.reservations .syncClaudeOAuth, harness ∉ s.base.reservations :=
    ⟨sink, fun _ _ there => by simp [idle.free] at there⟩
  obtain ⟨base, began⟩ : ∃ base, PiCredentials.step service s.base (.call .syncClaudeOAuth) = some base := ⟨_, if_pos offered⟩
  obtain rfl := begins idle rfl began
  have busy : Busy (s.after (.call .syncClaudeOAuth) true { s.base with
      reservations := [.pi, .claudeCode]
      calls := Calls.put (fun _ => none) s.base.nextCall { operation := .syncClaudeOAuth }
      nextCall := s.base.nextCall + 1 }).base s.base.nextCall ⟨.syncClaudeOAuth, .loading⟩ := ⟨rfl, rfl, rfl⟩
  obtain ⟨moves, t, run, free, count⟩ := @loading_completes service _ _ busy
  have alone : Alone s (.own (.call .syncClaudeOAuth) true) := rfl
  refine ⟨_, t, .cons alone (own_taken rfl began) run, free, ?_⟩
  rw [count]
  exact Nat.lt_succ_self _

end Runs

/-- In every run whose steps are all permitted, no step of the hub replaces a grant by one that expires earlier; and
wherever no call is under way, syncs that have no other writer leave the fresher grant in both stores, after the first
of them as after the next. -/
theorem grants_never_go_back (service : Service) (now : Nat) (stored : Option Credential) (claude : Option Grant)
    (dead : Option Nat) (moves : List Move) (s : State)
    (run : Run (step service) Ok { base := { now, stored, claude, deadRefreshToken := dead } } moves s) :
    s.wentBack = false ∧
      (s.base.reservations = [] → ∀ alone t, Run (step service) Alone s alone t → t.base.reservations = [] →
        s.base.nextCall < t.base.nextCall → (t.base.stored, t.base.claude) = mirrored s.base.stored s.base.claude ∧
            ∀ again u, Run (step service) Alone t again u →
              u.base.stored = t.base.stored ∧ u.base.claude = t.base.claude) := by
  have preserved : ∀ s m t, (Inv s ∧ s.wentBack = false) → Ok s m → step service s m = some t → Inv t ∧ t.wentBack = false :=
    fun s m t inv ok taken => ⟨inv_step s m t inv.1 ok taken, (wentBack_step_iff inv.1 inv.2 taken).mpr ok⟩
  obtain ⟨inv, never⟩ := run.invariant preserved ⟨.inl ⟨rfl, rfl⟩, rfl⟩
  refine ⟨never, fun free alone t syncs free' completed => ?_⟩
  -- no call is under way where nothing is reserved
  have idle : Idle s.base := by
    rcases inv with idle | ⟨k, call, busy, _⟩
    · exact idle
    · simp [busy.reserved] at free
  have undisturbed : Undisturbed s t := syncs.invariant undisturbed_step ⟨.inl rfl, .inl ⟨idle, .inl rfl⟩⟩
  have settled : stores t = mirror s := by
    rcases undisturbed.phase with ⟨_, none | settled⟩ | ⟨k, stage, busy, _⟩
    · exact absurd none (Nat.ne_of_gt completed)
    · exact settled
    · simp [busy.reserved] at free'
  refine ⟨settled, fun again u more => ?_⟩
  have idle' : Idle t.base := by
    rcases undisturbed.phase with ⟨idle, _⟩ | ⟨k, stage, busy, _⟩
    · exact idle
    · simp [busy.reserved] at free'
  have steady : mirror t = stores t := undisturbed.mirror_eq.trans settled.symm
  have kept : Undisturbed t u := more.invariant undisturbed_step ⟨.inl rfl, .inl ⟨idle', .inl rfl⟩⟩
  have same : stores u = stores t := kept.among.elim id fun mirrored => mirrored.trans steady
  exact ⟨congrArg Prod.fst same, congrArg Prod.snd same⟩

/-! ### Runs -/

/-- pi's store keeps a lock that a callback of `modify` holds. -/
def locked : Service where
  provider := ANTHROPIC
  runtime := true
  modifies := true
  claudeSink := true
  registered := true
  oauthCapable := true

/-- A rotation takes Claude Code's grant and renews it; pi has refreshed its own before the grants are compared. -/
theorem grants_never_go_back_rotated :
    ∃ s, Run (step locked) Ok { base := { stored := some (.oauth ⟨1, 1, 50⟩), claude := some ⟨2, 2, 200⟩ } }
        [.own (.call (.rotateAnthropicOAuth true 0)) true, .piRefreshes ⟨3, 3, 100⟩, .own (.loaded 0) true,
          .own (.effect 0 ⟨0, 0, 0⟩) true, .own (.resumes 0) true, .own (.effect 0 ⟨4, 4, 300⟩) true,
          .own (.resumes 0) true] s ∧
      s.base.claude = some ⟨4, 4, 300⟩ ∧ s.wentBack = false := by
  have checked : ((execIf (step locked) permitted { base := { stored := some (.oauth ⟨1, 1, 50⟩), claude := some ⟨2, 2, 200⟩ } }
      [.own (.call (.rotateAnthropicOAuth true 0)) true, .piRefreshes ⟨3, 3, 100⟩, .own (.loaded 0) true,
        .own (.effect 0 ⟨0, 0, 0⟩) true, .own (.resumes 0) true, .own (.effect 0 ⟨4, 4, 300⟩) true,
        .own (.resumes 0) true]).any fun s => decide (s.base.claude = some ⟨4, 4, 300⟩)) = true := by decide +kernel
  obtain ⟨s, ran, kept⟩ := (Option.any_eq_true _ _).mp checked
  have run := run_of_execIf (fun _ _ => id) ran
  exact ⟨s, run, of_decide_eq_true kept, (grants_never_go_back locked 0 _ _ none _ s run).1⟩

/-- pi refreshes its grant after a sync has compared it, and the sync writes Claude Code's older one over it. Claude Code
refreshes its grant while a rotation awaits pi's store, and the rotation mirrors an older one. -/
theorem refreshed_grant_lost :
    (∃ s, Run (step locked) Free { base := { stored := some (.oauth ⟨1, 1, 50⟩), claude := some ⟨2, 2, 100⟩ } }
        [.own (.call .syncClaudeOAuth) true, .own (.loaded 0) true, .piRefreshes ⟨3, 3, 200⟩,
          .own (.effect 0 ⟨0, 0, 0⟩) true] s ∧ s.wentBack = true) ∧
      ∃ s, Run (step locked) Free { base := { stored := some (.oauth ⟨1, 1, 50⟩), claude := some ⟨1, 1, 50⟩ } }
        [.own (.call (.rotateAnthropicOAuth false 60)) true, .own (.loaded 0) true, .own (.resumes 0) true,
          .own (.effect 0 ⟨2, 2, 100⟩) true, .claudeRefreshes ⟨3, 3, 200⟩, .own (.resumes 0) true] s ∧
        s.wentBack = true := by
  have synced : ((exec (step locked) { base := { stored := some (.oauth ⟨1, 1, 50⟩), claude := some ⟨2, 2, 100⟩ } }
      [.own (.call .syncClaudeOAuth) true, .own (.loaded 0) true, .piRefreshes ⟨3, 3, 200⟩,
        .own (.effect 0 ⟨0, 0, 0⟩) true]).any (·.wentBack)) = true := by decide +kernel
  have rotated : ((exec (step locked) { base := { stored := some (.oauth ⟨1, 1, 50⟩), claude := some ⟨1, 1, 50⟩ } }
      [.own (.call (.rotateAnthropicOAuth false 60)) true, .own (.loaded 0) true, .own (.resumes 0) true,
        .own (.effect 0 ⟨2, 2, 100⟩) true, .claudeRefreshes ⟨3, 3, 200⟩, .own (.resumes 0) true]).any (·.wentBack)) = true := by
    decide +kernel
  obtain ⟨s, ran, back⟩ := (Option.any_eq_true _ _).mp synced
  obtain ⟨t, ran', back'⟩ := (Option.any_eq_true _ _).mp rotated
  exact ⟨⟨s, run_of_exec ran, back⟩, t, run_of_exec ran', back'⟩

end GrantSync
