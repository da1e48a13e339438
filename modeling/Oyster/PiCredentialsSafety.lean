import Oyster.PiCredentials

/-! Who replaces an API key by an OAuth grant. The reservations keep the operations of one harness apart, so that what
an operation has found in pi's store holds until it writes; a login for Claude Code does not reserve pi. -/
namespace PiCredentials
open Interleaving

def KeyKept (s : State) : Prop := ∀ replacer ∈ s.replaced, ∃ harness, replacer = .login harness true

/-- The step by which `setApiKey` stores its key. -/
def StoresKey (service : Service) (s : State) : Event → Prop
  | .effect k _ => ∃ call key, s.calls k = some call ∧ call.stage = .storing key
  | .loaded k => ∃ key, s.calls k = some ⟨.setApiKey key, .loading⟩ ∧ s.acceptsKey service = true ∧ service.runtime = false
  | _ => False

def Apart (service : Service) (s : State) (e : Event) : Prop :=
  StoresKey service s e → ∀ i, s.calls i ≠ some ⟨.loginOAuth .claudeCode false, .loggingIn⟩

def Keyless (stored : Option Credential) : Prop := stored.any Credential.isApiKey = false

/-- An operation that will write a grant over what it has found, which is no API key. -/
def Call.relies (call : Call) : Prop :=
  match call.stage with
  | .loggingIn => ∀ harness, call.operation ≠ .loginOAuth harness true
  | .syncing _ | .exchanging _ => True
  | _ => False

def Call.Shaped (call : Call) : Prop :=
  match call.stage with
  | .storing _ => .pi ∈ call.operation.reservations
  | .loggingIn => ∃ replace, call.operation = .loginOAuth .pi replace ∨ call.operation = .loginOAuth .claudeCode replace
  | .syncing _ | .exchanging _ => .pi ∈ call.operation.reservations
  | _ => True

structure Inv (s : State) : Prop where
  reserved : ∀ i call, s.calls i = some call → ∀ harness ∈ call.operation.reservations, harness ∈ s.reservations
  apart : ∀ i j call other, s.calls i = some call → s.calls j = some other →
    ∀ harness ∈ call.operation.reservations, harness ∈ other.operation.reservations → i = j
  shaped : ∀ i call, s.calls i = some call → call.Shaped
  keyless : ∀ i call, s.calls i = some call → call.relies → Keyless s.stored
  kept : KeyKept s

theorem Inv.init (stored : Option Credential) (claude : Option Grant) : Inv { stored, claude } where
  reserved := fun _ _ found => (nomatch found)
  apart := fun _ _ _ _ found => (nomatch found)
  shaped := fun _ _ found => (nomatch found)
  keyless := fun _ _ found => (nomatch found)
  kept := fun _ inside => (nomatch inside)

section
variable {s : State} {k : Nat} {call : Call}

theorem Keyless.oauth (grant : Grant) : Keyless (some (.oauth grant)) := rfl

theorem Keyless.none : Keyless none := rfl

/-- What another operation than `call` finds in pi's store, while that changes. -/
def Kept (s : State) (k : Nat) (stored : Option Credential) : Prop :=
  ∀ i call, i ≠ k → s.calls i = some call → call.relies → Keyless stored

theorem Inv.keptSame (h : Inv s) (k : Nat) : Kept s k s.stored := fun i call _ found relies => h.keyless i call found relies

theorem Kept.of_keyless {stored : Option Credential} (keyless : Keyless stored) (k : Nat) : Kept s k stored := fun _ _ _ _ _ => keyless

variable {t : State} {stage : Stage}

theorem Inv.goto (h : Inv s) (there : s.calls k = some call) (calls : t.calls = s.calls)
    (reservations : t.reservations = s.reservations) (others : Kept s k t.stored) (kept : KeyKept t)
    (shaped : Call.Shaped ⟨call.operation, stage⟩) (own : Call.relies ⟨call.operation, stage⟩ → Keyless t.stored) :
    Inv (t.goto k call.operation stage) := by
  refine ⟨?_, ?_, ?_, ?_, kept⟩
  · intro i other found harness inside
    simp only [State.goto, calls, reservations] at found ⊢
    rcases Calls.put_eq_some found with ⟨_, rfl⟩ | ⟨_, old⟩
    · exact h.reserved k call there harness inside
    · exact h.reserved i other old harness inside
  · intro i j one other found found' harness inside inside'
    simp only [State.goto, calls] at found found'
    rcases Calls.put_eq_some found with ⟨rfl, rfl⟩ | ⟨_, old⟩
    · rcases Calls.put_eq_some found' with ⟨rfl, _⟩ | ⟨_, old'⟩
      · rfl
      · exact h.apart _ j call other there old' harness inside inside'
    · rcases Calls.put_eq_some found' with ⟨rfl, rfl⟩ | ⟨_, old'⟩
      · exact h.apart i _ one call old there harness inside inside'
      · exact h.apart i j one other old old' harness inside inside'
  · intro i other found
    simp only [State.goto, calls] at found
    rcases Calls.put_eq_some found with ⟨_, rfl⟩ | ⟨_, old⟩
    · exact shaped
    · exact h.shaped i other old
  · intro i other found relies
    simp only [State.goto, calls] at found
    rcases Calls.put_eq_some found with ⟨_, rfl⟩ | ⟨different, old⟩
    · exact own relies
    · exact others i other different old relies

theorem Inv.close (h : Inv s) (there : s.calls k = some call) (calls : t.calls = s.calls)
    (reservations : t.reservations = s.reservations) (others : Kept s k t.stored) (kept : KeyKept t) :
    Inv (t.close k call.operation) := by
  refine ⟨?_, ?_, ?_, ?_, kept⟩
  · intro i other found harness inside
    simp only [State.close, calls, reservations] at found ⊢
    obtain ⟨different, old⟩ := Calls.drop_eq_some found
    refine List.mem_filter.mpr ⟨h.reserved i other old harness inside, decide_eq_true fun own => different ?_⟩
    exact h.apart i k other call old there harness inside own
  · intro i j one other found found' harness inside inside'
    simp only [State.close, calls] at found found'
    exact h.apart i j one other (Calls.drop_eq_some found).2 (Calls.drop_eq_some found').2 harness inside inside'
  · intro i other found
    simp only [State.close, calls] at found
    exact h.shaped i other (Calls.drop_eq_some found).2
  · intro i other found relies
    simp only [State.close, calls] at found
    obtain ⟨different, old⟩ := Calls.drop_eq_some found
    exact others i other different old relies

theorem Inv.pass (h : Inv s) (there : s.calls k = some call) (calls : t.calls = s.calls)
    (reservations : t.reservations = s.reservations) (stored : t.stored = s.stored)
    (replaced : t.replaced = s.replaced) (shaped : Call.Shaped ⟨call.operation, stage⟩)
    (own : Call.relies ⟨call.operation, stage⟩ → Keyless s.stored) : Inv (t.goto k call.operation stage) :=
  h.goto there calls reservations (stored ▸ h.keptSame k) (fun w inside => h.kept w (replaced ▸ inside)) shaped fun relies =>
    stored ▸ own relies

theorem Inv.leave (h : Inv s) (there : s.calls k = some call) (calls : t.calls = s.calls)
    (reservations : t.reservations = s.reservations) (stored : t.stored = s.stored)
    (replaced : t.replaced = s.replaced) : Inv (t.close k call.operation) :=
  h.close there calls reservations (stored ▸ h.keptSame k) fun w inside => h.kept w (replaced ▸ inside)

variable {replacer : Replacer}

theorem KeyKept.write (h : KeyKept s) (grant : Grant)
    (allowed : Keyless s.stored ∨ ∃ harness, replacer = .login harness true) : KeyKept (s.write replacer grant) := by
  intro w inside
  simp only [State.write] at inside
  split at inside
  · next key =>
      rcases List.mem_append.mp inside with old | new
      · exact h w old
      · obtain rfl := List.mem_singleton.mp new
        exact allowed.resolve_left fun keyless => Bool.noConfusion (keyless.symm.trans key)
  · exact h w inside

theorem projectToClaude_same (s : State) : s.projectToClaude.calls = s.calls ∧ s.projectToClaude.reservations = s.reservations ∧
    s.projectToClaude.stored = s.stored ∧ s.projectToClaude.replaced = s.replaced := by
  unfold State.projectToClaude
  split <;> exact ⟨rfl, rfl, rfl, rfl⟩

theorem clearMirroredOauth_same (service : Service) (s : State) :
    (s.clearMirroredOauth service).calls = s.calls ∧ (s.clearMirroredOauth service).reservations = s.reservations ∧
    (s.clearMirroredOauth service).stored = s.stored ∧ (s.clearMirroredOauth service).replaced = s.replaced := by
  unfold State.clearMirroredOauth
  split <;> exact ⟨rfl, rfl, rfl, rfl⟩

theorem Inv.keptKey (h : Inv s) (there : s.calls k = some call) (holds : .pi ∈ call.operation.reservations)
    (alone : ∀ i, s.calls i ≠ some ⟨.loginOAuth .claudeCode false, .loggingIn⟩) (stored : Option Credential) : Kept s k stored := by
  intro i other different found relies
  exfalso
  have apart (inside : .pi ∈ other.operation.reservations) : False := different (h.apart i k other call found there .pi inside holds)
  have shaped := h.shaped i other found
  obtain ⟨operation, stage⟩ := other
  cases stage with
  | loggingIn =>
    obtain ⟨replace, pi | claudeCode⟩ := shaped
    · exact apart (by rw [pi]; exact List.mem_singleton_self _)
    · cases replace with
      | true => exact relies .claudeCode claudeCode
      | false => exact alone i (by rw [found, show operation = _ from claudeCode])
  | syncing grant => exact apart shaped
  | exchanging grant => exact apart shaped
  | _ => exact relies

variable {grant : Grant}

theorem keyless_of_oauth (stored : s.stored = some (.oauth grant)) : Keyless s.stored := by
  rw [stored]
  exact .oauth grant

variable {service : Service}

theorem Inv.setApiKey {key : String} (h : Inv s) (there : s.calls k = some ⟨.setApiKey key, .loading⟩)
    (apart : Apart service s (.loaded k)) : Inv (s.setApiKey service k key) := by
  unfold State.setApiKey
  split
  · next accepted =>
      split
      · exact h.pass there rfl rfl rfl rfl (List.mem_singleton_self _) (fun relies => relies.elim)
      · next legacy =>
          have alone := apart ⟨key, there, accepted, Bool.not_eq_true _ ▸ legacy⟩
          exact h.close (t := s.setKey key) there rfl rfl (h.keptKey there (List.mem_singleton_self _) alone _) h.kept
  · exact h.leave there rfl rfl rfl rfl

theorem Inv.removed (h : Inv s) (there : s.calls k = some call) : Inv (s.remove.close k call.operation) :=
  h.close there rfl rfl (.of_keyless .none k) h.kept

theorem Inv.removeApiKey (h : Inv s) (there : s.calls k = some ⟨.removeApiKey, .loading⟩) :
    Inv (s.removeApiKey service k) := by
  unfold State.removeApiKey
  split
  · split
    · exact h.pass there rfl rfl rfl rfl trivial (fun relies => relies.elim)
    · exact h.removed there
  · exact h.leave there rfl rfl rfl rfl

theorem Inv.projected (h : Inv s) (there : s.calls k = some call) : Inv (s.projectToClaude.close k call.operation) := by
  obtain ⟨calls, reservations, stored, replaced⟩ := projectToClaude_same s
  exact h.leave there calls reservations stored replaced

variable {replace : Bool}

theorem Inv.claudeCodeOAuthLogin (h : Inv s) (there : s.calls k = some ⟨.loginOAuth .claudeCode replace, .loading⟩) :
    Inv (s.claudeCodeOAuthLogin k replace) := by
  have loggedIn (keyless : Keyless s.stored) : Inv (s.goto k (.loginOAuth .claudeCode replace) .loggingIn) :=
    h.pass there rfl rfl rfl rfl ⟨replace, .inr rfl⟩ fun _ => keyless
  unfold State.claudeCodeOAuthLogin
  split
  · exact h.leave there rfl rfl rfl rfl
  · cases stored : s.stored with
    | none => exact loggedIn (by rw [stored]; exact .none)
    | some credential =>
      cases credential with
      | apiKey key => exact h.pass there rfl rfl rfl rfl trivial (fun relies => relies.elim)
      | oauth grant => exact h.projected there
      | unsupported type => exact loggedIn (by rw [stored]; rfl)

theorem Inv.piOAuthLoginResult (h : Inv s) (there : s.calls k = some ⟨.loginOAuth .pi replace, .loading⟩) :
    Inv (s.piOAuthLoginResult k replace) := by
  have replaced (allowed : replace = true) : Inv (if replace then s.goto k (.loginOAuth .pi replace) .loggingIn
      else s.close k (.loginOAuth .pi replace)) := by
    rw [if_pos allowed]
    exact h.pass there rfl rfl rfl rfl ⟨replace, .inl rfl⟩ fun relies => absurd (by rw [allowed]) (relies .pi)
  have chosen : Inv (if replace then s.goto k (.loginOAuth .pi replace) .loggingIn else s.close k (.loginOAuth .pi replace)) := by
    cases allowed : replace with
    | true => exact allowed ▸ replaced allowed
    | false => exact h.leave (allowed ▸ there) rfl rfl rfl rfl
  unfold State.piOAuthLoginResult
  cases stored : s.stored with
  | none => exact h.pass there rfl rfl rfl rfl ⟨replace, .inl rfl⟩ fun _ => by rw [stored]; exact .none
  | some credential =>
    cases credential with
    | apiKey key => exact chosen
    | oauth grant => exact chosen
    | unsupported type => exact h.leave there rfl rfl rfl rfl

variable {harness : Harness}

theorem Inv.loginOAuth (h : Inv s) (there : s.calls k = some ⟨.loginOAuth harness replace, .loading⟩) :
    Inv (s.loginOAuth service k harness replace) := by
  cases harness with
  | gemini => exact h.pass there rfl rfl rfl rfl trivial (fun relies => relies.elim)
  | amp => exact h.pass there rfl rfl rfl rfl trivial (fun relies => relies.elim)
  | claudeCode =>
    simp only [State.loginOAuth]
    split
    · exact h.claudeCodeOAuthLogin there
    · exact h.leave there rfl rfl rfl rfl
  | pi =>
    simp only [State.loginOAuth]
    split
    · exact h.piOAuthLoginResult there
    · exact h.leave there rfl rfl rfl rfl

theorem Inv.logoutOAuth (h : Inv s) (there : s.calls k = some ⟨.logoutOAuth harness, .loading⟩) :
    Inv (s.logoutOAuth service k harness) := by
  cases harness with
  | gemini => exact h.pass there rfl rfl rfl rfl trivial (fun relies => relies.elim)
  | amp => exact h.pass there rfl rfl rfl rfl trivial (fun relies => relies.elim)
  | claudeCode =>
    simp only [State.logoutOAuth]
    split
    · exact h.leave (t := { s with claude := none }) there rfl rfl rfl rfl
    · exact h.leave there rfl rfl rfl rfl
  | pi =>
    simp only [State.logoutOAuth]
    split
    · split
      · exact h.pass there rfl rfl rfl rfl trivial (fun relies => relies.elim)
      · obtain ⟨calls, reservations, stored, replaced⟩ := clearMirroredOauth_same service s.remove
        refine h.close there calls reservations ?_ fun w inside => h.kept w (replaced ▸ inside)
        rw [stored]
        exact .of_keyless .none k
    · exact h.leave there rfl rfl rfl rfl

theorem Inv.wrote (h : Inv s) (there : s.calls k = some call) (grant : Grant)
    (allowed : Keyless s.stored ∨ ∃ harness, replacer = .login harness true)
    (shaped : Call.Shaped ⟨call.operation, stage⟩) : Inv ((s.write replacer grant).goto k call.operation stage) :=
  h.goto there rfl rfl (.of_keyless (.oauth grant) k) (KeyKept.write h.kept grant allowed) shaped fun _ => .oauth grant

theorem Inv.writeStoredOAuth (h : Inv s) (there : s.calls k = some call) (grant : Grant) (keyless : Keyless s.stored)
    (holds : .pi ∈ call.operation.reservations) : Inv (s.writeStoredOAuth service k call.operation grant) := by
  unfold State.writeStoredOAuth
  split
  · exact h.pass there rfl rfl rfl rfl holds fun _ => keyless
  · exact h.wrote there grant (.inl keyless) trivial

theorem Inv.syncAnthropicOAuth (h : Inv s) (there : s.calls k = some call) (holds : .pi ∈ call.operation.reservations) :
    Inv (s.syncAnthropicOAuth service k call.operation) := by
  have synced : Inv (s.goto k call.operation .synced) := h.pass there rfl rfl rfl rfl trivial (fun relies => relies.elim)
  have projected : Inv (s.projectToClaude.goto k call.operation .synced) := by
    obtain ⟨calls, reservations, stored, replaced⟩ := projectToClaude_same s
    exact h.pass there calls reservations stored replaced trivial (fun relies => relies.elim)
  unfold State.syncAnthropicOAuth
  cases stored : s.stored with
  | none =>
    cases s.claude with
    | none => exact synced
    | some claude => exact h.writeStoredOAuth there claude (by rw [stored]; exact .none) holds
  | some credential =>
    cases credential with
    | apiKey key => cases s.claude <;> exact synced
    | unsupported type => cases s.claude <;> exact synced
    | oauth pi =>
      cases s.claude with
      | none => exact projected
      | some claude =>
        dsimp only
        split
        · exact synced
        · split
          · exact h.writeStoredOAuth there claude (keyless_of_oauth stored) holds
          · exact projected

theorem Inv.exchange (h : Inv s) (there : s.calls k = some call) (keyless : Keyless s.stored)
    (holds : .pi ∈ call.operation.reservations) : Inv (s.exchange service k call.operation grant) := by
  unfold State.exchange
  split
  · exact h.pass there rfl rfl rfl rfl trivial (fun relies => relies.elim)
  · exact h.pass there rfl rfl rfl rfl holds fun _ => keyless

variable {force : Bool} {marginMs : Nat}

theorem Inv.rotateProviderOAuth (h : Inv s) (there : s.calls k = some ⟨.rotateProviderOAuth force marginMs, .loading⟩) :
    Inv (s.rotateProviderOAuth service k force marginMs) := by
  unfold State.rotateProviderOAuth
  split
  · next grant stored =>
      split
      · exact h.exchange there (keyless_of_oauth stored) (List.mem_singleton_self _)
      · exact h.leave there rfl rfl rfl rfl
  · exact h.leave there rfl rfl rfl rfl

variable {operation : Operation}

theorem Inv.loaded (h : Inv s) (there : s.calls k = some ⟨operation, .loading⟩) (apart : Apart service s (.loaded k)) :
    Inv (s.loaded service k operation) := by
  cases operation with
  | setApiKey key => exact h.setApiKey there apart
  | removeApiKey => exact h.removeApiKey there
  | loginOAuth harness replace => exact h.loginOAuth there
  | logoutOAuth harness => exact h.logoutOAuth there
  | rotateAnthropicOAuth force marginMs => exact h.syncAnthropicOAuth there (List.mem_cons_self ..)
  | rotateProviderOAuth force marginMs => exact h.rotateProviderOAuth there
  | syncClaudeOAuth => exact h.syncAnthropicOAuth there (List.mem_cons_self ..)
  | syncCodexOAuth => exact h.leave there rfl rfl rfl rfl

theorem rotate_cases (s : State) (operation : Operation) (grant : Grant) :
    s.rotate operation grant = s ∨ Keyless s.stored ∧ s.rotate operation grant = s.write .rotation grant := by
  cases stored : s.stored with
  | none => exact .inl (by simp only [State.rotate, stored])
  | some credential =>
    cases credential with
    | apiKey key => exact .inl (by simp only [State.rotate, stored])
    | unsupported type => exact .inl (by simp only [State.rotate, stored])
    | oauth current =>
      have due (force : Bool) (marginMs : Nat) : (if s.due current force marginMs then s.write .rotation grant else s) = s ∨
          Keyless (some (.oauth current)) ∧
            (if s.due current force marginMs then s.write .rotation grant else s) = s.write .rotation grant := by
        split
        · exact .inr ⟨.oauth current, rfl⟩
        · exact .inl rfl
      cases operation with
      | rotateAnthropicOAuth force marginMs =>
        simp only [State.rotate, stored]
        exact due force marginMs
      | rotateProviderOAuth force marginMs =>
        simp only [State.rotate, stored]
        exact due force marginMs
      | _ => exact .inl (by simp only [State.rotate, stored])

theorem Inv.rotated (h : Inv s) (there : s.calls k = some call) (grant : Grant) :
    Inv ((s.rotate call.operation grant).goto k call.operation .stored) := by
  rcases rotate_cases s call.operation grant with same | ⟨keyless, wrote⟩
  · rw [same]
    exact h.pass there rfl rfl rfl rfl trivial (fun relies => relies.elim)
  · rw [wrote]
    exact h.wrote there grant (.inl keyless) trivial

theorem Inv.effect (h : Inv s) (there : s.calls k = some call) (apart : Apart service s (.effect k grant))
    (taken : s.effect k call grant = some t) : Inv t := by
  obtain ⟨operation, stage⟩ := call
  have shaped := h.shaped k _ there
  have removed : Inv (s.remove.goto k operation .stored) :=
    h.goto there rfl rfl (.of_keyless .none k) h.kept trivial (fun relies => relies.elim)
  cases stage with
  | storing key =>
    cases taken
    have alone := apart ⟨_, key, there, rfl⟩
    exact h.goto (t := s.setKey key) there rfl rfl (h.keptKey there shaped alone _) h.kept trivial (fun relies => relies.elim)
  | removing =>
    cases taken
    exact removed
  | loggingOut =>
    cases taken
    exact removed
  | loggingIn =>
    simp only [State.effect] at taken
    split at taken
    · next harness replace =>
        cases taken
        refine h.wrote there grant ?_ trivial
        cases replace with
        | true => exact .inr ⟨harness, rfl⟩
        | false => exact .inl (h.keyless k _ there fun other same => by cases same)
    · cases taken
  | syncing grant =>
    cases taken
    exact h.wrote there grant (.inl (h.keyless k _ there trivial)) trivial
  | rotating read =>
    cases taken
    exact h.rotated there grant
  | exchanging read =>
    cases taken
    exact h.wrote there grant (.inl (h.keyless k _ there trivial)) trivial
  | standalone =>
    cases taken
    exact h.leave (t := { s with claude := some grant }) there rfl rfl rfl rfl
  | renewing read =>
    simp only [State.effect] at taken
    split at taken
    · cases taken
      exact h.leave (t := { s with deadRefreshToken := none }) there rfl rfl rfl rfl
    · cases taken
      exact h.leave (t := { s with deadRefreshToken := none, claude := some grant }) there rfl rfl rfl rfl
  | _ => cases taken

theorem Inv.rotateAnthropicOAuth (h : Inv s)
    (there : s.calls k = some ⟨.rotateAnthropicOAuth force marginMs, .synced⟩) :
    Inv (s.rotateAnthropicOAuth service k force marginMs) := by
  unfold State.rotateAnthropicOAuth
  split
  · split
    · split
      · exact h.pass there rfl rfl rfl rfl trivial (fun relies => relies.elim)
      · exact h.leave there rfl rfl rfl rfl
    · exact h.leave there rfl rfl rfl rfl
  · next grant stored =>
      split
      · exact h.exchange there (keyless_of_oauth stored) (List.mem_cons_self ..)
      · exact h.leave there rfl rfl rfl rfl
  · exact h.leave there rfl rfl rfl rfl

theorem Inv.resumeStored (h : Inv s) (there : s.calls k = some ⟨operation, .stored⟩)
    (taken : s.resume service k ⟨operation, .stored⟩ = some t) : Inv t := by
  have left : Inv (s.close k operation) := h.leave there rfl rfl rfl rfl
  have mirrored : Inv ((if service.claudeSink ∧ service.provider = ANTHROPIC then s.projectToClaude else s).close k operation) := by
    split
    · exact h.projected there
    · exact left
  cases operation with
  | loginOAuth harness replace =>
    cases harness with
    | claudeCode =>
      cases taken
      exact h.projected there
    | _ =>
      cases taken
      exact mirrored
  | logoutOAuth harness =>
    cases taken
    obtain ⟨calls, reservations, stored, replaced⟩ := clearMirroredOauth_same service s
    exact h.leave there calls reservations stored replaced
  | rotateAnthropicOAuth force marginMs =>
    cases taken
    obtain ⟨calls, reservations, stored, replaced⟩ := projectToClaude_same { s with deadRefreshToken := none }
    exact h.leave there calls reservations stored replaced
  | rotateProviderOAuth force marginMs =>
    cases taken
    exact h.leave (t := { s with deadProviderRefreshToken := none }) there rfl rfl rfl rfl
  | _ =>
    cases taken
    exact left

theorem Inv.resume (h : Inv s) (there : s.calls k = some call) (taken : s.resume service k call = some t) :
    Inv t := by
  obtain ⟨operation, stage⟩ := call
  cases stage with
  | stored => exact h.resumeStored there taken
  | external =>
    cases taken
    exact h.leave there rfl rfl rfl rfl
  | synced =>
    cases operation with
    | rotateAnthropicOAuth force marginMs =>
      cases taken
      exact h.rotateAnthropicOAuth there
    | _ =>
      cases taken
      exact h.leave there rfl rfl rfl rfl
  | _ => cases taken

variable {invalidGrant : Bool}

theorem fail_cases (taken : s.fail k call invalidGrant = some t) :
    ∃ u : State, t = u.close k call.operation ∧ u.calls = s.calls ∧ u.reservations = s.reservations ∧ u.stored = s.stored ∧
      u.replaced = s.replaced := by
  obtain ⟨operation, stage⟩ := call
  have provider (read : Grant) : ∃ u : State,
      (if invalidGrant then { s with deadProviderRefreshToken := some read.refresh } else s).close k operation = u.close k operation ∧
        u.calls = s.calls ∧ u.reservations = s.reservations ∧ u.stored = s.stored ∧ u.replaced = s.replaced := by
    refine ⟨_, rfl, ?_⟩
    split <;> exact ⟨rfl, rfl, rfl, rfl⟩
  have shared (read : Grant) : ∃ u : State,
      (if invalidGrant then { s with deadRefreshToken := some read.refresh } else s).close k operation = u.close k operation ∧
        u.calls = s.calls ∧ u.reservations = s.reservations ∧ u.stored = s.stored ∧ u.replaced = s.replaced := by
    refine ⟨_, rfl, ?_⟩
    split <;> exact ⟨rfl, rfl, rfl, rfl⟩
  cases stage with
  | synced => cases taken
  | stored => cases taken
  | rotating read =>
    cases operation with
    | rotateProviderOAuth force marginMs =>
      cases taken
      exact provider read
    | _ =>
      cases taken
      exact shared read
  | exchanging read =>
    cases operation with
    | rotateProviderOAuth force marginMs =>
      cases taken
      exact provider read
    | _ =>
      cases taken
      exact shared read
  | renewing read =>
    cases taken
    exact shared read
  | _ =>
    cases taken
    exact ⟨s, rfl, rfl, rfl, rfl, rfl⟩

theorem Inv.fail (h : Inv s) (there : s.calls k = some call) (taken : s.fail k call invalidGrant = some t) :
    Inv t := by
  obtain ⟨u, rfl, calls, reservations, stored, replaced⟩ := fail_cases taken
  exact h.leave there calls reservations stored replaced

theorem Inv.begin (h : Inv s) (taken : s.begin service operation = some t) : Inv t := by
  obtain ⟨⟨_, free⟩, taken⟩ := Option.ite_none_right_eq_some.mp taken
  cases taken
  refine ⟨?_, ?_, ?_, ?_, h.kept⟩
  · intro i call found harness inside
    rcases Calls.put_eq_some found with ⟨_, rfl⟩ | ⟨_, old⟩
    · exact List.mem_append_right _ inside
    · exact List.mem_append_left _ (h.reserved i call old harness inside)
  · intro i j call other found found' harness inside inside'
    rcases Calls.put_eq_some found with ⟨rfl, rfl⟩ | ⟨_, old⟩
    · rcases Calls.put_eq_some found' with ⟨rfl, _⟩ | ⟨_, old'⟩
      · rfl
      · exact absurd (h.reserved j other old' harness inside') (free harness inside)
    · rcases Calls.put_eq_some found' with ⟨rfl, rfl⟩ | ⟨_, old'⟩
      · exact absurd (h.reserved i call old harness inside) (free harness inside')
      · exact h.apart i j call other old old' harness inside inside'
  · intro i call found
    rcases Calls.put_eq_some found with ⟨_, rfl⟩ | ⟨_, old⟩
    · trivial
    · exact h.shaped i call old
  · intro i call found relies
    rcases Calls.put_eq_some found with ⟨_, rfl⟩ | ⟨_, old⟩
    · exact relies.elim
    · exact h.keyless i call old relies

end

theorem inv_step {service : Service} (s : State) (e : Event) (t : State) (h : Inv s) (apart : Apart service s e)
    (taken : step service s e = some t) : Inv t := by
  cases e with
  | call operation => exact h.begin taken
  | loaded k =>
    simp only [step] at taken
    split at taken
    · next there =>
        cases taken
        exact h.loaded there apart
    · cases taken
  | effect k grant =>
    obtain ⟨call, there, taken⟩ := Option.bind_eq_some_iff.mp taken
    exact h.effect there apart taken
  | resumes k =>
    obtain ⟨call, there, taken⟩ := Option.bind_eq_some_iff.mp taken
    exact h.resume there taken
  | fails k invalidGrant =>
    obtain ⟨call, there, taken⟩ := Option.bind_eq_some_iff.mp taken
    exact h.fail there taken
  | claudeWrites grant =>
    cases taken
    exact ⟨h.reserved, h.apart, h.shaped, h.keyless, h.kept⟩
  | passes ms =>
    cases taken
    exact ⟨h.reserved, h.apart, h.shaped, h.keyless, h.kept⟩

/-- In every run in which no key is stored while a login for Claude Code that may not replace one waits, an API key is
only replaced by logins that were called to replace it. -/
theorem key_kept (service : Service) (stored : Option Credential) (claude : Option Grant) (events : List Event) (s : State)
    (run : Run (step service) (Apart service) { stored, claude } events s) : KeyKept s := by
  have preserved : ∀ s e t, Inv s → Apart service s e → step service s e = some t → Inv t := inv_step
  exact (run.invariant preserved (.init stored claude)).kept

def storesNoKey (s : State) : Event → Bool
  | .effect k _ => (s.calls k).all fun call => match call.stage with
      | .storing _ => false
      | _ => true
  | .loaded k => (s.calls k).all fun call => match call.operation with
      | .setApiKey _ => false
      | _ => true
  | _ => true

theorem storesNoKey_sound (service : Service) (s : State) (e : Event) (passed : storesNoKey s e = true) : Apart service s e := by
  intro stores
  exfalso
  cases e with
  | effect k grant =>
    obtain ⟨call, key, there, storing⟩ := stores
    have tested := (Option.all_eq_true _ _).mp passed call there
    rw [storing] at tested
    cases tested
  | loaded k =>
    obtain ⟨key, there, _⟩ := stores
    have tested := (Option.all_eq_true _ _).mp passed _ there
    cases tested
  | _ => exact stores

def sampleService : Service := ⟨ANTHROPIC, true, true, true, true, true⟩

def replacingLogin : List Event :=
  [.call (.loginOAuth .pi true), .loaded 0, .effect 0 ⟨1, 2, 10⟩, .resumes 0,
    .call (.rotateAnthropicOAuth true 0), .loaded 1, .resumes 1, .effect 1 ⟨3, 4, 20⟩, .resumes 1]

theorem key_kept_replacingLogin :
    ∃ s, Run (step sampleService) (Apart sampleService) { stored := some (.apiKey "key"), claude := none } replacingLogin s ∧
      (s.stored, s.replaced) = (some (.oauth ⟨3, 4, 20⟩), [.login .pi true]) ∧ KeyKept s := by
  have checked : ((execIf (step sampleService) storesNoKey { stored := some (.apiKey "key"), claude := none } replacingLogin).any fun s =>
        decide ((s.stored, s.replaced) = (some (.oauth ⟨3, 4, 20⟩), [.login .pi true]))) = true := by decide +kernel
  obtain ⟨s, ran, ended⟩ := (Option.any_eq_true _ _).mp checked
  have run := run_of_execIf (storesNoKey_sound sampleService) ran
  exact ⟨s, run, of_decide_eq_true ended, key_kept sampleService _ _ _ s run⟩

/-- A login for Claude Code has found no credential of pi; a key is stored, and the login writes its grant over it. -/
theorem key_replaced_silently : ∃ s, Run (step sampleService) Free { stored := none, claude := none }
        [.call (.loginOAuth .claudeCode false), .loaded 0, .call (.setApiKey "key"), .loaded 1, .effect 1 ⟨0, 0, 0⟩, .resumes 1,
          .effect 0 ⟨1, 2, 10⟩] s ∧ ¬KeyKept s := by
  have checked : ((exec (step sampleService) { stored := none, claude := none }
      [.call (.loginOAuth .claudeCode false), .loaded 0, .call (.setApiKey "key"), .loaded 1, .effect 1 ⟨0, 0, 0⟩, .resumes 1,
        .effect 0 ⟨1, 2, 10⟩]).any fun s => decide (.login .claudeCode false ∈ s.replaced)) = true := by decide +kernel
  obtain ⟨s, ran, replaced⟩ := (Option.any_eq_true _ _).mp checked
  refine ⟨s, run_of_exec ran, fun kept => ?_⟩
  obtain ⟨harness, same⟩ := kept _ (of_decide_eq_true replaced)
  cases same

end PiCredentials
