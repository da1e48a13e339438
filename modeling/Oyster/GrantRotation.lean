import Oyster.Interleaving
import Mathlib.Data.List.Nodup

/-! The two stores of an OAuth grant that are rotated ahead of expiry: the one that the hub keeps for
the Gemini CLI, and the one of Claude Code, which that CLI changes by itself. A rotation reads
the grant, awaits the token endpoint and reads the store again before it writes. -/
namespace GrantRotation
open Interleaving

inductive Sink where
  | gemini
  | claude
  deriving DecidableEq

/-- Tokens are named by numbers. `origin` is history: the login that the grant descends from. -/
structure Grant where
  access : Nat
  refresh : Nat
  expires : Nat
  origin : Nat

structure TokenAnswer where
  access : Nat
  refresh : Option Nat
  expiresIn : Nat

/-- `file` is the grant that the store holds, `rotations` are those that await the token endpoint, with the
grant that they have read. `reserved` tells that the provider has a credential operation.
History: the login that the store is of, unless it has been removed since, and the login that
each refresh token has been issued for. -/
structure State where
  now : Nat := 0
  file : Option Grant := none
  deadRefreshToken : Option Nat := none
  rotations : Calls Grant := fun _ => none
  nextRotation : Nat := 0
  reserved : Bool := false
  configured : Option Nat := none
  issued : List (Nat × Nat) := []
  nextOrigin : Nat := 0

def State.login (s : State) (access refresh expiresIn : Nat) : State :=
  { s with
    file := some ⟨access, refresh, s.now + expiresIn * 1000, s.nextOrigin⟩
    configured := some s.nextOrigin
    issued := s.issued ++ [(refresh, s.nextOrigin)]
    nextOrigin := s.nextOrigin + 1 }

def State.remove (s : State) : State := { s with file := none, configured := none }

def State.due (s : State) (grant : Grant) (force : Bool) (marginMs : Nat) : Bool :=
  (force || decide (grant.expires ≤ s.now + marginMs)) && decide (s.deadRefreshToken ≠ some grant.refresh)

def renew (sink : Sink) (grant : Grant) (answer : TokenAnswer) (now : Nat) : Option Grant :=
  match sink, answer.refresh with
  | .gemini, refresh => some ⟨answer.access, refresh.getD grant.refresh, now + answer.expiresIn * 1000, grant.origin⟩
  | .claude, some refresh => some ⟨answer.access, refresh, now + answer.expiresIn * 1000 - 5 * 60 * 1000, grant.origin⟩
  | .claude, none => none

def State.settle (sink : Sink) (s : State) (k : Nat) : State :=
  { s with rotations := s.rotations.drop k, reserved := if sink = .claude then false else s.reserved }

/-- The token endpoint has answered: the grant is written over one that has the same refresh token, and
where the store has none. -/
def State.answered (sink : Sink) (s : State) (k : Nat) (grant : Grant) (answer : TokenAnswer) (written : Bool) : State :=
  let s := s.settle sink k
  match renew sink grant answer s.now with
  | none => s
  | some next =>
    let s := { s with
      deadRefreshToken := if sink = .claude then none else s.deadRefreshToken
      issued := s.issued ++ (if next.refresh = grant.refresh then [] else [(next.refresh, grant.origin)]) }
    if s.file.any fun latest => decide (latest.refresh ≠ grant.refresh) then s
    else if written then { s with file := some next, deadRefreshToken := none }
    else s

inductive Event where
  | tick (ms : Nat)
  | rotate (force : Bool) (marginMs : Nat)
  | answered (k : Nat) (answer : TokenAnswer) (written : Bool)
  | rejected (k : Nat) (invalidGrant : Bool)
  | loginOAuth (replace : Bool)
  | loginStored (access refresh expiresIn : Nat)
  | loginFailed
  | logoutOAuth
  | cliLogin (access refresh expiresIn : Nat)
  | cliRefresh (access refresh expiresIn : Nat)
  | cliRemoves

def State.unissued (s : State) (refresh : Nat) : Bool := s.issued.all fun token => decide (token.1 ≠ refresh)

/-- Refresh tokens are not issued twice, but for the one that a rotation presents; an answer without
one is refused by Anthropic's rotation. Logins, removals
and their reservation are those of the Gemini store; Claude Code's own CLI writes its store at any
time, while the rotations of the hub reserve its provider. -/
def step (sink : Sink) (s : State) : Event → Option State
  | .tick ms => some { s with now := s.now + ms }
  | .rotate force marginMs =>
    if sink = .claude ∧ s.reserved then none
    else match s.file with
      | none => some s
      | some grant =>
        if s.due grant force marginMs then some { s with
          rotations := s.rotations.put s.nextRotation grant
          nextRotation := s.nextRotation + 1
          reserved := decide (sink = .claude) || s.reserved }
        else some s
  | .answered k answer written =>
    match s.rotations k with
    | some grant =>
      if (renew sink grant answer s.now).isSome ∧
          answer.refresh.all fun refresh => s.unissued refresh || decide (refresh = grant.refresh) then
        some (s.answered sink k grant answer written)
      else none
    | none => none
  | .rejected k invalidGrant =>
    match s.rotations k with
    | some grant => some { s.settle sink k with
        deadRefreshToken := if invalidGrant then some grant.refresh else s.deadRefreshToken }
    | none => none
  | .loginOAuth replace =>
    if sink = .gemini ∧ s.reserved = false ∧ (s.file.isNone || replace) then some { s with reserved := true } else none
  | .loginStored access refresh expiresIn =>
    if sink = .gemini ∧ s.reserved ∧ s.unissued refresh then
      some { s.login access refresh expiresIn with reserved := false }
    else none
  | .loginFailed => if sink = .gemini ∧ s.reserved then some { s with reserved := false } else none
  | .logoutOAuth => if sink = .gemini ∧ s.reserved = false ∧ s.file.isSome then some s.remove else none
  | .cliLogin access refresh expiresIn =>
    if sink = .claude ∧ s.unissued refresh then some (s.login access refresh expiresIn) else none
  | .cliRefresh access refresh expiresIn =>
    if sink = .claude ∧ s.unissued refresh then
      s.file.map fun grant => { s with
        file := some ⟨access, refresh, s.now + expiresIn * 1000, grant.origin⟩
        issued := s.issued ++ [(refresh, grant.origin)] }
    else none
  | .cliRemoves => if sink = .claude then some s.remove else none

/-- The store holds a grant of the last login, and none after a removal: no rotation of an older
grant has written since. -/
def GrantLaw (s : State) : Prop := s.file.map Grant.origin = s.configured

/-- Where the token endpoint answers a rotation and the grant can be written, the store has one. -/
def Present (s : State) : Event → Prop
  | .answered _ _ written => written = true → s.file.isSome = true
  | _ => True

/-- A refresh token tells the login that its grant descends from. -/
structure Inv (s : State) : Prop where
  law : GrantLaw s
  issued : (s.issued.map Prod.fst).Nodup
  file : ∀ grant, s.file = some grant → (grant.refresh, grant.origin) ∈ s.issued
  rotations : ∀ k grant, s.rotations k = some grant → (grant.refresh, grant.origin) ∈ s.issued

section
variable {sink : Sink} {s : State} {refresh : Nat}

theorem issued_concat (h : (s.issued.map Prod.fst).Nodup) (fresh : s.unissued refresh = true) (origin : Nat) :
    ((s.issued ++ [(refresh, origin)]).map Prod.fst).Nodup := by
  rw [List.map_append, List.nodup_append]
  refine ⟨h, List.nodup_singleton _, fun token inside other new same => ?_⟩
  obtain rfl := List.mem_singleton.mp new
  obtain ⟨entry, there, rfl⟩ := List.mem_map.mp inside
  exact of_decide_eq_true (List.all_eq_true.mp fresh entry there) same

theorem Inv.origin_eq (h : Inv s) {origin other : Nat} (one : (refresh, origin) ∈ s.issued)
    (two : (refresh, other) ∈ s.issued) : origin = other := by
  have same := List.inj_on_of_nodup_map h.issued one two rfl
  exact (Prod.mk.inj same).2

theorem Inv.login (h : Inv s) {access expiresIn : Nat} (fresh : s.unissued refresh = true) :
    Inv (s.login access refresh expiresIn) := by
  refine ⟨rfl, issued_concat h.issued fresh _, ?_, fun k grant there => List.mem_append_left _ (h.rotations k grant there)⟩
  intro grant same
  cases same
  exact List.mem_append_right _ (List.mem_singleton_self _)

theorem Inv.remove (h : Inv s) : Inv s.remove :=
  ⟨rfl, h.issued, fun _ absurd => (nomatch absurd), h.rotations⟩

theorem Inv.settle (h : Inv s) (k : Nat) : Inv (s.settle sink k) :=
  ⟨h.law, h.issued, h.file, fun j grant there => h.rotations j grant (Calls.drop_eq_some there).2⟩

variable {grant : Grant} {answer : TokenAnswer} {next : Grant}

theorem renew_origin {now : Nat} (renewed : renew sink grant answer now = some next) :
    next.origin = grant.origin ∧ (answer.refresh = some next.refresh ∨ next.refresh = grant.refresh) := by
  unfold renew at renewed
  split at renewed
  · cases renewed
    refine ⟨rfl, ?_⟩
    cases answer.refresh with
    | none => exact .inr rfl
    | some refresh => exact .inl rfl
  · next refresh given =>
      cases renewed
      exact ⟨rfl, .inl given⟩
  · cases renewed

variable {k : Nat}

theorem Inv.issue (h : Inv s) (there : s.rotations k = some grant)
    (fresh : (answer.refresh.all fun refresh => s.unissued refresh || decide (refresh = grant.refresh)) = true)
    (renewed : renew sink grant answer s.now = some next) :
    let issued := s.issued ++ (if next.refresh = grant.refresh then [] else [(next.refresh, grant.origin)])
    (issued.map Prod.fst).Nodup ∧ s.issued ⊆ issued ∧ (next.refresh, next.origin) ∈ issued := by
  obtain ⟨origin, given⟩ := renew_origin renewed
  split
  · next same =>
      rw [List.append_nil, origin, same]
      exact ⟨h.issued, fun _ => id, h.rotations k grant there⟩
  · next other =>
      have given := given.resolve_right other
      rw [given, Option.all_some, Bool.or_eq_true, decide_eq_true_eq] at fresh
      refine ⟨issued_concat h.issued (fresh.resolve_right other) _, List.subset_append_left .., ?_⟩
      rw [origin]
      exact List.mem_append_right _ (List.mem_singleton_self _)

theorem Inv.answered (h : Inv s) {written : Bool} (there : s.rotations k = some grant)
    (fresh : (answer.refresh.all fun refresh => s.unissued refresh || decide (refresh = grant.refresh)) = true)
    (present : written = true → s.file.isSome = true) : Inv (s.answered sink k grant answer written) := by
  have settled : Inv (s.settle sink k) := h.settle k
  unfold State.answered
  dsimp only
  cases renewed : renew sink grant answer (s.settle sink k).now with
  | none => exact settled
  | some next =>
    obtain ⟨nodup, more, own⟩ := h.issue there fresh renewed
    have origin := (renew_origin renewed).1
    have kept : ∀ dead, Inv { s.settle sink k with
        deadRefreshToken := dead
        issued := s.issued ++ (if next.refresh = grant.refresh then [] else [(next.refresh, grant.origin)]) } :=
      fun _ => ⟨settled.law, nodup, fun latest found => more (settled.file latest found),
        fun j other found => more (settled.rotations j other found)⟩
    dsimp only
    split
    · exact kept _
    · next unchanged =>
        split
        · next ok =>
            obtain ⟨latest, found⟩ := Option.isSome_iff_exists.mp (present ok)
            have same : latest.refresh = grant.refresh := by
              have found : (s.settle sink k).file = some latest := found
              rw [found, Option.any_some, decide_eq_true_eq, not_not] at unchanged
              exact unchanged
            have descends : latest.origin = grant.origin :=
              h.origin_eq (h.file latest found) (same ▸ h.rotations k grant there)
            have law : s.file.map Grant.origin = s.configured := h.law
            rw [found, Option.map_some, descends, ← origin] at law
            refine ⟨law, nodup, fun other stored => ?_, (kept none).rotations⟩
            cases stored
            exact own
        · exact kept _

theorem inv_step (s : State) (e : Event) (t : State) (h : Inv s) (permitted : Present s e) (taken : step sink s e = some t) :
    Inv t := by
  cases e with
  | tick ms =>
    cases taken
    exact ⟨h.law, h.issued, h.file, h.rotations⟩
  | rotate force marginMs =>
    obtain ⟨_, taken⟩ := Option.ite_none_left_eq_some.mp taken
    split at taken
    · cases taken
      exact h
    · next grant found =>
        split at taken
        · cases taken
          refine ⟨h.law, h.issued, h.file, fun k other there => ?_⟩
          rcases Calls.put_eq_some there with ⟨_, rfl⟩ | ⟨_, old⟩
          · exact h.file _ found
          · exact h.rotations k other old
        · cases taken
          exact h
  | answered k answer written =>
    simp only [step] at taken
    split at taken
    · next grant there =>
        obtain ⟨⟨_, fresh⟩, taken⟩ := Option.ite_none_right_eq_some.mp taken
        cases taken
        exact h.answered there fresh permitted
    · cases taken
  | rejected k invalidGrant =>
    simp only [step] at taken
    split at taken
    · cases taken
      have settled : Inv (s.settle sink k) := h.settle k
      exact ⟨settled.law, settled.issued, settled.file, settled.rotations⟩
    · cases taken
  | loginOAuth replace =>
    obtain ⟨_, taken⟩ := Option.ite_none_right_eq_some.mp taken
    cases taken
    exact ⟨h.law, h.issued, h.file, h.rotations⟩
  | loginStored access refresh expiresIn =>
    obtain ⟨⟨_, _, fresh⟩, taken⟩ := Option.ite_none_right_eq_some.mp taken
    cases taken
    have stored : Inv (s.login access refresh expiresIn) := h.login fresh
    exact ⟨stored.law, stored.issued, stored.file, stored.rotations⟩
  | loginFailed =>
    obtain ⟨_, taken⟩ := Option.ite_none_right_eq_some.mp taken
    cases taken
    exact ⟨h.law, h.issued, h.file, h.rotations⟩
  | logoutOAuth =>
    obtain ⟨_, taken⟩ := Option.ite_none_right_eq_some.mp taken
    cases taken
    exact h.remove
  | cliLogin access refresh expiresIn =>
    obtain ⟨⟨_, fresh⟩, taken⟩ := Option.ite_none_right_eq_some.mp taken
    cases taken
    exact h.login fresh
  | cliRefresh access refresh expiresIn =>
    obtain ⟨⟨_, fresh⟩, taken⟩ := Option.ite_none_right_eq_some.mp taken
    obtain ⟨grant, found, rfl⟩ := Option.map_eq_some_iff.mp taken
    have law : s.file.map Grant.origin = s.configured := h.law
    rw [found, Option.map_some] at law
    refine ⟨law, issued_concat h.issued fresh _, fun other same => ?_,
      fun k other there => List.mem_append_left _ (h.rotations k other there)⟩
    cases same
    exact List.mem_append_right _ (List.mem_singleton_self _)
  | cliRemoves =>
    obtain ⟨_, taken⟩ := Option.ite_none_right_eq_some.mp taken
    cases taken
    exact h.remove

/-- The condition on a step is exact: without a grant in the store, a rotation that writes breaks the law. -/
theorem law_step_iff {e : Event} {t : State} (h : Inv s) (taken : step sink s e = some t) : GrantLaw t ↔ Present s e := by
  refine ⟨fun law => ?_, fun permitted => (inv_step s e t h permitted taken).law⟩
  cases e with
  | answered k answer written =>
    intro ok
    by_contra absent
    have empty : s.file = none := by simpa using absent
    simp only [step] at taken
    split at taken
    · next grant there =>
        obtain ⟨⟨renewed, _⟩, taken⟩ := Option.ite_none_right_eq_some.mp taken
        obtain ⟨next, renewed⟩ := Option.isSome_iff_exists.mp renewed
        cases taken
        have removed : s.configured = none := by
          rw [← h.law, empty]
          rfl
        have same : renew sink grant answer (s.settle sink k).now = some next := renewed
        have none : (s.settle sink k).file = none := empty
        unfold State.answered at law
        simp only [same, none, Option.any_none, Bool.false_eq_true, if_false, ok, if_true] at law
        have origin : some next.origin = s.configured := law
        rw [removed] at origin
        cases origin
    · cases taken
  | _ => trivial

end

theorem Inv.init : Inv {} :=
  ⟨rfl, List.nodup_nil, fun _ absurd => (nomatch absurd), fun _ _ absurd => nomatch absurd⟩

/-- In every run whose rotations find a grant in the store when they come to write theirs, the
store holds a grant of the last login, and none after a removal. -/
theorem sign_out_final (sink : Sink) (events : List Event) (s : State) (run : Run (step sink) Present {} events s) :
    GrantLaw s := by
  have preserved : ∀ s e t, Inv s → Present s e → step sink s e = some t → Inv t := inv_step
  exact (run.invariant preserved .init).law

/-- `Present`, as a test. -/
def present (s : State) : Event → Bool
  | .answered _ _ written => !written || s.file.isSome
  | _ => true

theorem present_sound (s : State) (e : Event) (passed : present s e = true) : Present s e := by
  cases e with
  | answered k answer written =>
    intro ok
    simpa [present, ok] using passed
  | _ => trivial

/-- Two rotations overlap, and a login replaces the grant before the second is answered. -/
theorem sign_out_final_replaced :
    ∃ s, Run (step .gemini) Present {} [.loginOAuth false, .loginStored 1 1 60, .rotate false 1800000, .rotate true 0,
        .answered 0 ⟨2, none, 3600⟩ true, .loginOAuth true, .loginStored 3 2 3600, .answered 1 ⟨4, some 3, 3600⟩ true] s ∧
      s.file.map Grant.access = some 3 ∧ GrantLaw s := by
  have checked : ((execIf (step .gemini) present {} [.loginOAuth false, .loginStored 1 1 60, .rotate false 1800000,
      .rotate true 0, .answered 0 ⟨2, none, 3600⟩ true, .loginOAuth true, .loginStored 3 2 3600,
      .answered 1 ⟨4, some 3, 3600⟩ true]).any fun s => decide (s.file.map Grant.access = some 3)) = true := by decide +kernel
  obtain ⟨s, ran, kept⟩ := (Option.any_eq_true _ _).mp checked
  have run := run_of_execIf present_sound ran
  exact ⟨s, run, of_decide_eq_true kept, sign_out_final .gemini _ s run⟩

theorem not_law {s : State} (found : (s.file.isSome && decide (s.configured = none)) = true) : ¬GrantLaw s := by
  intro law
  obtain ⟨there, removed⟩ := (Bool.and_eq_true _ _).mp found
  unfold GrantLaw at law
  rw [of_decide_eq_true removed, Option.map_eq_none_iff] at law
  rw [law] at there
  cases there

/-- Google is signed out while its grant is rotated: the rotation stores it again. -/
theorem removed_grant_returns :
    ∃ s, Run (step .gemini) Free {} [.loginOAuth false, .loginStored 1 1 60, .rotate false 1800000, .logoutOAuth,
        .answered 0 ⟨2, none, 3600⟩ true] s ∧ ¬GrantLaw s := by
  have checked : ((exec (step .gemini) {} [.loginOAuth false, .loginStored 1 1 60, .rotate false 1800000, .logoutOAuth,
      .answered 0 ⟨2, none, 3600⟩ true]).any fun s => s.file.isSome && decide (s.configured = none)) = true := by
    decide +kernel
  obtain ⟨s, ran, found⟩ := (Option.any_eq_true _ _).mp checked
  exact ⟨s, run_of_exec ran, not_law found⟩

end GrantRotation
