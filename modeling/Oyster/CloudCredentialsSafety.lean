import Oyster.CloudCredentials

/-! No configuration of a cloud account is lost and none that has been removed comes back, in every
run whose refreshes and selections write only over what they have started from. -/
namespace CloudCredentials
open Interleaving

structure Untouched (s : State) : Prop where
  refreshes : ∀ r, s.refreshes r = none
  calls : ∀ k call, s.calls k = some call → call.phase = .assuming ∨ ∃ load, call.phase = .loading load
  writes : s.writes = []
  credentials : ∀ provider, s.credentials provider = none
  file : ∀ provider, (stored s.file provider).map Credential.origin = s.configured provider

structure Inv (s : State) : Prop where
  untouched : s.loaded = false → Untouched s
  ready : ∀ k request, s.calls k = some ⟨request, .loading none⟩ → s.loaded = true
  finished : ∀ l, s.loads l = some .finished → s.loaded = true
  parsed : ∀ l content, s.loads l = some (.parsed content) → s.loaded = false → content = s.file
  memory : s.loaded = true → ∀ provider, (s.credentials provider).map Credential.origin = s.configured provider
  last : ∀ w, s.writes.getLast? = some w → w.credentials = s.credentials
  durable : s.loaded = true → s.writes = [] → s.lost = false → ∀ provider, stored s.file provider = s.credentials provider

theorem Inv.law {s : State} (h : Inv s) : CredentialLaw s := by
  refine ⟨h.memory, fun up written kept provider => ?_⟩
  rw [h.durable up written kept]
  exact h.memory up provider

theorem Inv.start (file : Option Credentials) : Inv (State.start file) := by
  refine ⟨fun _ => ⟨fun _ => rfl, fun _ _ absurd => (nomatch absurd), rfl, fun _ => rfl, fun _ => rfl⟩, ?_, ?_, ?_, ?_, ?_, ?_⟩
  · exact fun _ _ absurd => nomatch absurd
  · exact fun _ absurd => nomatch absurd
  · exact fun _ _ absurd => nomatch absurd
  · exact fun absurd => nomatch absurd
  · exact fun _ absurd => nomatch absurd
  · exact fun absurd => nomatch absurd

section
variable {s t : State}

theorem Inv.side (h : Inv s) (up : s.loaded = true) (loaded : t.loaded = true) (credentials : t.credentials = s.credentials)
    (file : t.file = s.file) (writes : t.writes = s.writes) (lost : t.lost = s.lost)
    (configured : t.configured = s.configured) : Inv t := by
  have busy : t.loaded ≠ false := by simp [loaded]
  refine ⟨(absurd · busy), fun _ _ _ => loaded, fun _ _ => loaded, fun _ _ _ => (absurd · busy), ?_, ?_, ?_⟩
  · intro _ provider
    rw [credentials, configured]
    exact h.memory up provider
  · intro w inside
    rw [writes] at inside
    rw [credentials]
    exact h.last w inside
  · intro _ written kept provider
    rw [writes] at written
    rw [lost] at kept
    rw [file, credentials]
    exact h.durable up written kept provider

theorem Inv.push (loaded : t.loaded = true)
    (memory : ∀ provider, (t.credentials provider).map Credential.origin = t.configured provider)
    {writes : List Write} {refresh : Option Nat} (pushed : t.writes = writes ++ [⟨t.credentials, refresh⟩]) : Inv t := by
  have busy : t.loaded ≠ false := by simp [loaded]
  refine ⟨(absurd · busy), fun _ _ _ => loaded, fun _ _ => loaded, fun _ _ _ => (absurd · busy), fun _ => memory, ?_, ?_⟩
  · intro w inside
    rw [pushed, List.getLast?_concat] at inside
    rw [← Option.some.inj inside]
  · intro _ written
    rw [pushed] at written
    cases List.append_eq_nil_iff.mp written |>.2

variable {provider : Provider} {credentials : Credentials} {configured : Provider → Option Nat}

theorem origin_put {value : Option Credential} (same : ∀ p, (credentials p).map Credential.origin = configured p)
    (p : Provider) : (Function.update credentials provider value p).map Credential.origin =
      Function.update configured provider (value.map Credential.origin) p := by
  by_cases own : p = provider
  · subst own
    rw [Function.update_self, Function.update_self]
  · rw [Function.update_of_ne own, Function.update_of_ne own]
    exact same p

variable {value : Credential}

theorem origin_keep (same : ∀ p, (credentials p).map Credential.origin = configured p)
    (kept : configured provider = some value.origin) (p : Provider) :
    (Function.update credentials provider (some value) p).map Credential.origin = configured p := by
  rw [origin_put same, Option.map_some, ← kept, Function.update_eq_self]

theorem Inv.install (h : Inv s) (up : s.loaded = true) (k : Nat) (provider : Provider) (value : Credential) :
    Inv (s.install k provider value) :=
  .push up (origin_put (h.memory up)) rfl

theorem Inv.remove (h : Inv s) (up : s.loaded = true) (k : Nat) (provider : Provider) : Inv (s.remove k provider) :=
  .push up (origin_put (h.memory up)) rfl

variable {k : Nat} {call : Call}

theorem Inv.refreshed (h : Inv s) (up : s.loaded = true) {now : Nat} {selects : Bool} :
    Inv (s.refreshed k call provider value now selects) := by
  unfold State.refreshed State.refreshOAuthCredential
  split
  · cases s.oauthRefreshes provider with
    | none => exact h.side up up rfl rfl rfl rfl rfl
    | some r => exact h.side up up rfl rfl rfl rfl rfl
  · exact h.side up up rfl rfl rfl rfl rfl

theorem Inv.resume (h : Inv s) (up : s.loaded = true) (k : Nat) (call : Call) (now : Nat) : Inv (s.resume k call now) := by
  unfold State.resume
  split
  · exact h.install up k _ _
  · exact h.install up k _ _
  · exact h.install up k _ _
  · split
    · exact h.side up up rfl rfl rfl rfl rfl
    · exact h.remove up k _
  · split
    · split
      · exact h.refreshed up
      · exact h.side up up rfl rfl rfl rfl rfl
    · exact h.side up up rfl rfl rfl rfl rfl
  · split
    · exact h.refreshed up
    · exact h.side up up rfl rfl rfl rfl rfl

theorem Inv.endRefresh (h : Inv s) (up : s.loaded = true) (r : Nat) (refresh : Refresh) (phase : RefreshPhase) :
    Inv (s.endRefresh r refresh phase) :=
  h.side up up rfl rfl rfl rfl rfl

variable {w : Write} {rest : List Write}

theorem Inv.pop (h : Inv s) (up : s.loaded = true) (head : s.writes = w :: rest) (ok : Bool) :
    Inv { s with writes := rest, file := if ok then some w.credentials else s.file, lost := !ok } := by
  have busy : s.loaded ≠ false := by simp [up]
  refine ⟨(absurd · busy), fun _ _ _ => up, fun _ _ => up, fun _ _ _ => (absurd · busy), h.memory, ?_, ?_⟩
  · intro v inside
    refine h.last v ?_
    rw [head, List.getLast?_cons, inside]
    rfl
  · intro _ written kept provider
    obtain rfl : ok = true := by simpa using kept
    obtain rfl : rest = [] := written
    have single : s.writes.getLast? = some w := by
      rw [head]
      rfl
    rw [if_pos rfl, ← h.last w single]
    rfl

theorem Inv.written (h : Inv s) (up : s.loaded = true) (head : s.writes = w :: rest) (ok : Bool) :
    Inv (s.written w rest ok) := by
  have popped := h.pop up head ok
  unfold State.written
  dsimp only
  split
  · split
    · exact popped.endRefresh up _ _ _
    · exact popped
  · exact popped

theorem Inv.load (h : Inv s) (k : Nat) (request : Request) : Inv (s.load k request) := by
  unfold State.load
  by_cases up : s.loaded = true
  · rw [if_pos up]
    exact h.side up up rfl rfl rfl rfl rfl
  · rw [if_neg up]
    have old := h.untouched (Bool.eq_false_iff.mpr up)
    refine ⟨fun _ => ⟨old.refreshes, ?_, old.writes, old.credentials, old.file⟩, ?_, ?_, ?_, h.memory, h.last, h.durable⟩
    · intro j call there
      rcases Calls.put_eq_some there with ⟨_, rfl⟩ | ⟨_, before⟩
      · exact .inr ⟨_, rfl⟩
      · exact old.calls j call before
    · intro j other there
      rcases Calls.put_eq_some there with ⟨_, absurd⟩ | ⟨_, before⟩
      · cases absurd
      · exact h.ready j other before
    · intro l there
      rcases Calls.put_eq_some there with ⟨_, absurd⟩ | ⟨_, before⟩
      · cases absurd
      · exact h.finished l before
    · intro l content there down
      rcases Calls.put_eq_some there with ⟨_, absurd⟩ | ⟨_, before⟩
      · cases absurd
      · exact h.parsed l content before down

theorem Inv.submit (h : Inv s) (request : Request) : Inv (s.submit request) := by
  refine ⟨fun down => ?_, ?_, h.finished, h.parsed, h.memory, h.last, h.durable⟩
  · have old := h.untouched down
    refine ⟨old.refreshes, ?_, old.writes, old.credentials, old.file⟩
    intro j call there
    rcases Calls.put_eq_some there with ⟨_, rfl⟩ | ⟨_, before⟩
    · exact .inl rfl
    · exact old.calls j call before
  · intro j other there
    rcases Calls.put_eq_some there with ⟨_, absurd⟩ | ⟨_, before⟩
    · cases absurd
    · exact h.ready j other before

theorem Inv.drop (h : Inv s) (k : Nat) : Inv { s with calls := s.calls.drop k } := by
  refine ⟨fun down => ?_, fun j request there => h.ready j request (Calls.drop_eq_some there).2, h.finished, h.parsed, h.memory,
    h.last, h.durable⟩
  have old := h.untouched down
  exact ⟨old.refreshes, fun j call there => old.calls j call (Calls.drop_eq_some there).2, old.writes, old.credentials, old.file⟩

theorem Inv.readFile (h : Inv s) (l : Nat) : Inv { s with loads := s.loads.put l (.parsed s.file) } := by
  refine ⟨fun down => ?_, h.ready, ?_, ?_, h.memory, h.last, h.durable⟩
  · have old := h.untouched down
    exact ⟨old.refreshes, old.calls, old.writes, old.credentials, old.file⟩
  · intro j there
    rcases Calls.put_eq_some there with ⟨_, absurd⟩ | ⟨_, before⟩
    · cases absurd
    · exact h.finished j before
  · intro j content there down
    rcases Calls.put_eq_some there with ⟨_, same⟩ | ⟨_, before⟩
    · cases same
      rfl
    · exact h.parsed j content before down

theorem Inv.loaded (h : Inv s) (down : s.loaded = false) {l : Nat} {content : Option Credentials}
    (parsed : s.loads l = some (.parsed content)) :
    Inv { s with loads := s.loads.put l .finished, loaded := true, credentials := content.getD s.credentials } := by
  have old := h.untouched down
  obtain rfl := h.parsed l content parsed down
  have same : ∀ provider, stored s.file provider = (s.file.getD s.credentials) provider := by
    intro provider
    cases s.file with
    | none => exact (old.credentials provider).symm
    | some content => rfl
  refine ⟨fun absurd => (nomatch absurd), fun _ _ _ => rfl, fun _ _ => rfl, fun _ _ _ absurd => (nomatch absurd), ?_, ?_,
    fun _ _ _ => same⟩
  · intro _ provider
    have kept := old.file provider
    rwa [same provider] at kept
  · intro w inside
    rw [old.writes] at inside
    cases inside

theorem Inv.up (h : Inv s) (there : s.calls k = some call) (assumed : call.phase ≠ .assuming)
    (loading : ∀ load, call.phase ≠ .loading load) : s.loaded = true := by
  by_contra down
  rcases (h.untouched (Bool.eq_false_iff.mpr down)).calls k call there with same | ⟨load, same⟩
  · exact assumed same
  · exact loading load same

theorem Inv.refreshing (h : Inv s) {r : Nat} {refresh : Refresh} (there : s.refreshes r = some refresh) : s.loaded = true := by
  by_contra down
  have none := (h.untouched (Bool.eq_false_iff.mpr down)).refreshes r
  rw [there] at none
  cases none

theorem Inv.readied (h : Inv s) {request : Request} {load : Option Nat}
    (there : s.calls k = some ⟨request, .loading load⟩) (ready : s.ready load = true) : s.loaded = true := by
  cases load with
  | none => exact h.ready k request there
  | some l =>
    unfold State.ready at ready
    rw [Option.all_some] at ready
    split at ready
    · next finished => exact h.finished l finished
    · cases ready

theorem inv_step (s : State) (e : Event) (t : State) (h : Inv s) (permitted : Unreplaced s e) (taken : step s e = some t) :
    Inv t := by
  cases e with
  | call request =>
    have numbered : Inv { s with nextCall := s.nextCall + 1 } :=
      ⟨fun down => ⟨(h.untouched down).refreshes, (h.untouched down).calls, (h.untouched down).writes,
        (h.untouched down).credentials, (h.untouched down).file⟩, h.ready, h.finished, h.parsed, h.memory, h.last, h.durable⟩
    cases request with
    | verifyAwsRole value =>
      cases taken
      exact h.submit _
    | configure provider value | configureOAuth provider value | removeCredentials provider | selectProject projectId
      | credential provider =>
        cases taken
        exact numbered.load _ _
  | assumed k ok =>
    simp only [step] at taken
    split at taken
    · cases taken
      split
      · exact h.load k _
      · exact h.drop k
    · cases taken
  | readFile l =>
    simp only [step] at taken
    split at taken
    · cases taken
      exact h.readFile l
    · cases taken
  | loaded l =>
    simp only [step] at taken
    split at taken
    · next content parsed =>
        cases taken
        exact h.loaded permitted parsed
    · cases taken
  | resume k now =>
    simp only [step] at taken
    split at taken
    · next request load there =>
        obtain ⟨ready, taken⟩ := Option.ite_none_right_eq_some.mp taken
        cases taken
        exact h.resume (h.readied there ready) k _ now
    · cases taken
  | revoked k =>
    simp only [step] at taken
    split at taken
    · next provider there =>
        cases taken
        exact h.remove (h.up there (by simp) (by simp)) k provider
    · cases taken
  | fetched r now answer =>
    simp only [step] at taken
    split at taken
    · next provider value there =>
        cases taken
        have up := h.refreshing there
        exact .push up (origin_keep (h.memory up) (permitted _ there)) rfl
    · cases taken
  | refreshFails r =>
    simp only [step] at taken
    split at taken
    · next provider value there =>
        cases taken
        exact h.endRefresh (h.refreshing there) r _ _
    · cases taken
  | settled k =>
    simp only [step] at taken
    split at taken
    · next request r there =>
        have up := h.up there (by simp) (by simp)
        split at taken
        · cases taken
          exact h.side up up rfl rfl rfl rfl rfl
        · cases taken
          exact h.drop k
        · cases taken
    · cases taken
  | validated k ok =>
    simp only [step] at taken
    split at taken
    · next projectId current there =>
        have up := h.up there (by simp) (by simp)
        split at taken
        · next passed =>
            cases taken
            have kept : s.configured .gcp = some ({ current with projectId := some projectId } : Credential).origin :=
              permitted passed _ current there
            exact .push up (origin_keep (h.memory up) kept) rfl
        · cases taken
          exact h.drop k
    · cases taken
  | persist =>
    obtain ⟨up, taken⟩ := Option.ite_none_right_eq_some.mp taken
    cases taken
    exact .push up (h.memory up) rfl
  | write ok =>
    simp only [step] at taken
    split at taken
    · next w rest head =>
        cases taken
        have up : s.loaded = true := by
          by_contra down
          have none := (h.untouched (Bool.eq_false_iff.mpr down)).writes
          rw [head] at none
          cases none
        exact h.written up head ok
    · cases taken

end

/-- In every run whose refreshes and selections write over what they have started from, the
credential of a provider descends from its last configuration. -/
theorem credentials_descend (file : Option Credentials) (events : List Event) (s : State)
    (run : Run step Unreplaced (.start file) events s) : CredentialLaw s :=
  (run.invariant inv_step (.start file)).law

/-- `Unreplaced`, as a test. -/
def unreplaced (s : State) : Event → Bool
  | .loaded _ => !s.loaded
  | .fetched r _ _ => (s.refreshes r).all fun refresh => decide (s.configured refresh.provider = some refresh.value.origin)
  | .validated k ok => !ok || (s.calls k).all fun call => match call.phase with
      | .validating current => decide (s.configured .gcp = some current.origin)
      | _ => true
  | _ => true

theorem unreplaced_sound (s : State) (e : Event) (passed : unreplaced s e = true) : Unreplaced s e := by
  cases e with
  | loaded l => exact Bool.not_eq_true' _ |>.mp passed
  | fetched r now answer =>
    intro refresh found
    simpa [unreplaced, found] using passed
  | validated k ok =>
    intro validated request current found
    simpa [unreplaced, found, validated] using passed
  | _ => trivial

def google : Credential := { kind := .oauth, accessToken := "a", refreshToken := "r", expiresAt := some 1 }

/-- Google is connected, and a project is selected whose access token has to be refreshed first. -/
def selecting : List Event :=
  [.call (.configureOAuth .gcp google), .readFile 0, .loaded 0, .resume 0 5, .write true,
    .call (.selectProject "project"), .resume 1 6]

theorem credentials_descend_selected : ∃ s, Run step Unreplaced (.start none)
        (selecting ++ [.fetched 0 7 ⟨"b", none, 3600⟩, .write true, .settled 1, .validated 1 true, .write true]) s ∧
      (s.credentials .gcp).bind Credential.projectId = some "project" ∧ CredentialLaw s := by
  have checked : ((execIf step unreplaced (.start none)
      (selecting ++ [.fetched 0 7 ⟨"b", none, 3600⟩, .write true, .settled 1, .validated 1 true, .write true])).any fun s =>
        decide ((s.credentials .gcp).bind Credential.projectId = some "project")) = true := by decide +kernel
  obtain ⟨s, ran, selected⟩ := (Option.any_eq_true _ _).mp checked
  have run := run_of_execIf unreplaced_sound ran
  exact ⟨s, run, of_decide_eq_true selected, credentials_descend none _ s run⟩

/-- Google is disconnected while its access token is refreshed: the refresh puts it back. -/
theorem removed_credential_returns :
    ∃ s, Run step Free (.start none) (selecting ++ [.call (.removeCredentials .gcp), .resume 2 6, .revoked 2,
        .fetched 0 7 ⟨"b", none, 3600⟩]) s ∧ ¬CredentialLaw s := by
  have checked : ((exec step (.start none) (selecting ++ [.call (.removeCredentials .gcp), .resume 2 6, .revoked 2,
      .fetched 0 7 ⟨"b", none, 3600⟩])).any fun s => s.loaded &&
        (decide ((s.credentials .gcp).isSome = true) && decide (s.configured .gcp = none))) = true := by decide +kernel
  obtain ⟨s, ran, found⟩ := (Option.any_eq_true _ _).mp checked
  obtain ⟨up, found⟩ := (Bool.and_eq_true _ _).mp found
  obtain ⟨there, removed⟩ := (Bool.and_eq_true _ _).mp found
  refine ⟨s, run_of_exec ran, fun law => ?_⟩
  have descends := law.memory up .gcp
  rw [of_decide_eq_true removed, Option.map_eq_none_iff] at descends
  rw [descends] at there
  cases there

end CloudCredentials
