import Oyster.Interleaving

/-! The credential controller of an active view. All requests share one abort controller, which each new request takes over, and each
path decides by itself whether it arms the poll timer and clears the loading flag. -/
namespace CredentialsController
open Interleaving

/-- What a request is sent for; `refresh` is `load({ quiet: true })`. -/
inductive Operation where
  | load | refresh | save | remove | startOAuth | logoutOAuth | poll | respondOAuth | cancelOAuth
  deriving DecidableEq

/-- The requests whose outcome is not to be lost. -/
def Operation.mutates : Operation → Bool
  | .save | .remove | .logoutOAuth => true
  | _ => false

def Operation.loud : Operation → Bool
  | .load | .save | .remove | .startOAuth | .logoutOAuth => true
  | _ => false

/-- The operations whose success takes over a flow. -/
def Operation.applies : Operation → Bool
  | .startOAuth | .poll | .respondOAuth | .cancelOAuth => true
  | _ => false

inductive Status where
  | pending | succeeded | failed | cancelled
  deriving DecidableEq

/-- `deviceCode` is the first request of the flow that offers a device code. -/
structure Flow where
  flowId : String
  status : Status
  deviceCode : Option String

structure Request where
  operation : Operation
  aborted : Bool

/-- History: `lost` are the saves, removals and sign-outs that ended without a word. -/
structure State where
  flow : Option Flow := none
  pollTimer : Bool := false
  loading : Bool := false
  activeRequest : Option Nat := none
  requests : Calls Request := fun _ => none
  next : Nat := 0
  automaticResponses : List String := []
  lost : List Nat := []

/-- What a request ends with; `flow` is the flow in the data, `credential` tells that the details of an error have one. -/
inductive Outcome where
  | ok (flow : Option Flow)
  | error (credential : Bool)
  | abortError

/-- Only an aborted request ends with an `AbortError`. One that is aborted while its body is read ends with empty data. -/
def Outcome.fits (outcome : Outcome) (request : Request) : Bool :=
  match outcome with
  | .ok flow => !request.aborted || flow.isNone
  | .error credential => !(request.aborted && credential)
  | .abortError => request.aborted

namespace State

def pending (s : State) : Bool := s.flow.any (·.status = .pending)

/-- `flow?.flowId`. -/
def hasFlow (s : State) : Bool := s.flow.any (·.flowId ≠ "")

def beginRequest (s : State) (operation : Operation) : State :=
  let aborted := match s.activeRequest with
    | some i => s.requests.modify i ({ · with aborted := true })
    | none => s.requests
  { s with requests := aborted.put s.next ⟨operation, false⟩, activeRequest := some s.next, next := s.next + 1 }

def stopPolling (s : State) : State := { s with pollTimer := false }

def schedulePoll (s : State) : State := { s.stopPolling with pollTimer := s.pending }

def respondOAuth (s : State) : State := if s.hasFlow then s.beginRequest .respondOAuth else s

def automaticDeviceCodeResponse (flow : Option Flow) : Option String :=
  flow.bind fun flow => if flow.status = .pending then flow.deviceCode else none

def applyFlow (s : State) (next : Option Flow) : State :=
  let s := { s with flow := next }
  match automaticDeviceCodeResponse next with
  | some requestId =>
    let s := s.schedulePoll
    if requestId ∈ s.automaticResponses then s
    else { s with automaticResponses := requestId :: s.automaticResponses }.respondOAuth
  | none => if s.pending then s.schedulePoll else s.stopPolling

def call (s : State) (operation : Operation) : State :=
  match operation with
  | .respondOAuth => s.respondOAuth
  | .cancelOAuth => if s.hasFlow then s.stopPolling.beginRequest .cancelOAuth else s
  | .poll => if s.pending then s.beginRequest .poll else s
  | operation => { s with loading := s.loading || operation.loud }.beginRequest operation

def fires (s : State) : State := { s with pollTimer := false }.call .poll

def finish (s : State) (i : Nat) (operation : Operation) : Outcome → State
  | .ok next =>
    match operation with
    | .load | .refresh => { s with loading := false }
    | .save | .remove | .logoutOAuth => { s with loading := false }.call .refresh
    | .startOAuth => { s.applyFlow next with loading := false }
    | .poll =>
      let s := s.applyFlow next
      if next.any (·.status = .succeeded) then s.call .refresh else s
    | _ => s.applyFlow next
  | .error credential =>
    match operation with
    | .load | .refresh | .startOAuth => { s with loading := false }
    | .save | .remove | .logoutOAuth =>
      if credential then { s with loading := false }.call .refresh else { s with loading := false }
    | .poll => s.schedulePoll
    | _ => s
  | .abortError => if operation.mutates then { s with lost := i :: s.lost } else s

end State

inductive Action where
  | calls (operation : Operation)
  | fires
  | ends (i : Nat) (outcome : Outcome)

def step (s : State) : Action → Option State
  | .calls operation => if operation = .poll ∨ operation = .refresh then none else some (s.call operation)
  | .fires => if s.pollTimer then some s.fires else none
  | .ends i outcome =>
    match s.requests i with
    | some request =>
      if outcome.fits request then some ({ s with requests := s.requests.drop i }.finish i request.operation outcome) else none
    | none => none

def Quiescent (s : State) : Prop := ∀ i, s.requests i = none

/-- A quiescent state polls a pending flow and shows no loading, no request that changes credentials is aborted, and the outcome of
none of them is lost. -/
structure Law (s : State) : Prop where
  polls : Quiescent s → s.pending = true → s.pollTimer = true
  settled : Quiescent s → s.loading = false
  kept : ∀ i request, s.requests i = some request → request.operation.mutates = true → request.aborted = false
  published : s.lost = []

def State.current (s : State) : Option Operation := (s.activeRequest.bind s.requests).map (·.operation)

/-- A request may begin: no save, removal or sign-out is in flight, no loading is shown that it would not clear, and it does not
leave a pending flow without a timer unless it takes over a flow itself. -/
def Admits (s : State) (operation : Operation) : Prop :=
  s.current.any Operation.mutates = false ∧ (s.loading = true → operation.loud = true) ∧
    (s.pending = true → s.pollTimer = true ∨ operation.applies = true)

instance (s : State) (operation : Operation) : Decidable (Admits s operation) := by unfold Admits; infer_instance

/-- Requests begin where they may, and no operation on a flow but a poll fails while the flow is pending without a timer. -/
def Orderly (s : State) : Action → Prop
  | .calls operation => Admits s operation
  | .fires => Admits s .poll
  | .ends i (.error _) =>
    ∀ request ∈ s.requests i, request.aborted = false → request.operation.applies = true → request.operation ≠ .poll →
      s.pending = true → s.pollTimer = true
  | .ends _ _ => True

instance (s : State) : DecidablePred (Orderly s)
  | .calls operation => inferInstanceAs (Decidable (Admits s operation))
  | .fires => inferInstanceAs (Decidable (Admits s .poll))
  | .ends i (.error _) =>
    inferInstanceAs (Decidable (∀ request ∈ s.requests i, request.aborted = false → request.operation.applies = true →
      request.operation ≠ .poll → s.pending = true → s.pollTimer = true))
  | .ends _ (.ok _) => inferInstanceAs (Decidable True)
  | .ends _ .abortError => inferInstanceAs (Decidable True)

structure Table (s : State) : Prop where
  fresh : ∀ i request, s.requests i = some request → i < s.next
  live : ∀ i request, s.requests i = some request → request.aborted = false → s.activeRequest = some i
  newest : ∀ i request, s.requests i = some request → s.activeRequest = some i → request.aborted = false
  kept : ∀ i request, s.requests i = some request → request.operation.mutates = true → request.aborted = false
  published : s.lost = []

/-- A pending flow is polled, or the newest request takes over a flow. -/
def Polled (s : State) : Prop := s.pending = true → s.pollTimer = true ∨ s.current.any Operation.applies = true

structure Inv (s : State) : Prop extends Table s where
  loading : s.loading = true → s.current.any Operation.loud = true
  polling : Polled s

variable {s : State} {operation : Operation} {i : Nat}

theorem Table.shown (table : Table s) (flow : Option Flow) (pollTimer loading : Bool) (automaticResponses : List String) :
    Table { s with flow, pollTimer, loading, automaticResponses } :=
  ⟨table.fresh, table.live, table.newest, table.kept, table.published⟩

theorem Inv.law (inv : Inv s) : Law s where
  polls quiet pending := by
    have idle : s.current = none := by
      unfold State.current
      cases s.activeRequest with
      | none => rfl
      | some i => rw [Option.bind_some, quiet i, Option.map_none]
    rcases inv.polling pending with armed | applies
    · exact armed
    · rw [idle] at applies
      cases applies
  settled quiet := by
    refine Bool.eq_false_iff.mpr fun loading => ?_
    have loud := inv.loading loading
    unfold State.current at loud
    cases active : s.activeRequest with
    | none =>
      rw [active] at loud
      cases loud
    | some i =>
      rw [active, Option.bind_some, quiet i] at loud
      cases loud
  kept := inv.kept
  published := inv.published

theorem current_beginRequest (s : State) (operation : Operation) : (s.beginRequest operation).current = some operation := by
  show Option.map _ (Calls.put _ _ _ _) = _
  rw [Calls.put_self, Option.map_some]

theorem Table.beginRequest (table : Table s) (calm : s.current.any Operation.mutates = false) (operation : Operation) :
    Table (s.beginRequest operation) := by
  have before (j : Nat) (request : Request) (found : (s.beginRequest operation).requests j = some request) :
      (j = s.next ∧ request = ⟨operation, false⟩) ∨
        j < s.next ∧ request.aborted = true ∧ request.operation.mutates = false := by
    rcases Calls.put_eq_some found with ⟨rfl, rfl⟩ | ⟨_, found⟩
    · exact .inl ⟨rfl, rfl⟩
    · refine .inr ?_
      have aged : ∀ old, s.requests j = some old → s.activeRequest ≠ some j → old.aborted = true ∧ old.operation.mutates = false := by
        intro old there other
        have aborted : old.aborted = true :=
          Bool.not_eq_false _ ▸ fun live => other (table.live j old there live)
        exact ⟨aborted, Bool.eq_false_iff.mpr fun mutates => Bool.noConfusion (aborted.symm.trans (table.kept j old there mutates))⟩
      cases active : s.activeRequest with
      | none =>
        simp only [active] at found
        exact ⟨table.fresh j request found, aged request found (by rw [active]; nofun)⟩
      | some k =>
        simp only [active] at found
        rcases Calls.modify_eq_some found with ⟨rfl, old, there, rfl⟩ | ⟨other, there⟩
        · refine ⟨table.fresh j old there, rfl, ?_⟩
          rwa [State.current, active, Option.bind_some, there] at calm
        · exact ⟨table.fresh j request there, aged request there fun same => other (Option.some.inj (same.symm.trans active))⟩
  refine ⟨?_, ?_, ?_, ?_, table.published⟩
  · intro j request found
    rcases before j request found with ⟨rfl, _⟩ | ⟨old, _⟩
    · exact Nat.lt_succ_self _
    · exact Nat.lt_succ_of_lt old
  · intro j request found live
    rcases before j request found with ⟨rfl, _⟩ | ⟨_, aborted, _⟩
    · rfl
    · cases live.symm.trans aborted
  · intro j request found active
    rcases before j request found with ⟨_, rfl⟩ | ⟨old, _⟩
    · rfl
    · cases active
      exact absurd old (Nat.lt_irrefl _)
  · intro j request found mutates
    rcases before j request found with ⟨_, rfl⟩ | ⟨_, _, other⟩
    · rfl
    · cases mutates.symm.trans other

theorem Table.begins (table : Table s) (calm : s.current.any Operation.mutates = false) (loading : s.loading = true → operation.loud = true)
    (polling : s.pending = true → s.pollTimer = true ∨ operation.applies = true) : Inv (s.beginRequest operation) := by
  refine ⟨table.beginRequest calm operation, ?_, ?_⟩
  · rw [current_beginRequest]
    exact loading
  · unfold Polled
    rw [current_beginRequest]
    exact polling

theorem Inv.call (inv : Inv s) (admits : Admits s operation) : Inv (s.call operation) := by
  obtain ⟨calm, loading, polling⟩ := admits
  have loudly : (s.loading || operation.loud) = true → operation.loud = true := by
    intro shown
    rcases Bool.or_eq_true _ _ ▸ shown with before | loud
    · exact loading before
    · exact loud
  have table : Table { s with loading := s.loading || operation.loud } := inv.shown _ _ _ _
  cases operation with
  | respondOAuth =>
    show Inv s.respondOAuth
    unfold State.respondOAuth
    split_ifs
    · exact inv.toTable.begins calm loading polling
    · exact inv
  | cancelOAuth =>
    unfold State.call
    dsimp only
    split_ifs
    · have stopped : Table s.stopPolling := inv.shown _ _ _ _
      exact stopped.begins calm loading fun _ => .inr rfl
    · exact inv
  | poll =>
    unfold State.call
    dsimp only
    split_ifs
    · exact inv.toTable.begins calm loading polling
    · exact inv
  | _ => exact table.begins calm loudly polling

theorem Inv.fires (inv : Inv s) (admits : Admits s .poll) : Inv s.fires := by
  have table : Table { s with pollTimer := false } := inv.shown _ _ _ _
  unfold State.fires State.call
  dsimp only
  split_ifs with pending
  · exact table.begins admits.1 admits.2.1 fun _ => .inr rfl
  · exact ⟨table, inv.loading, fun still => absurd still pending⟩

theorem Table.refresh (table : Table s) (idle : s.current = none) (settled : s.loading = false)
    (polling : s.pending = true → s.pollTimer = true) : Inv (s.call .refresh) := by
  have calm : Table { s with loading := s.loading || false } := table.shown _ _ _ _
  refine calm.begins ?_ ?_ fun pending => .inl (polling pending)
  · exact congrArg (Option.any Operation.mutates) idle
  · rw [settled]
    nofun

theorem Table.applyFlow (table : Table s) (idle : s.current = none) (next : Option Flow) :
    Table (s.applyFlow next) ∧ Polled (s.applyFlow next) ∧ (s.applyFlow next).loading = s.loading := by
  have renewed (timer : Bool) (answered : List String) :
      Table { s with flow := next, pollTimer := timer, automaticResponses := answered } := table.shown _ _ _ _
  unfold State.applyFlow
  dsimp only
  split
  · split_ifs
    · exact ⟨renewed _ _, .inl, rfl⟩
    · unfold State.respondOAuth
      split_ifs
      · refine ⟨(renewed _ _).beginRequest ?_ _, fun _ => .inr ?_, rfl⟩
        · exact congrArg (Option.any Operation.mutates) idle
        · rw [current_beginRequest]
          rfl
      · exact ⟨renewed _ _, .inl, rfl⟩
  · split_ifs with pending
    · exact ⟨renewed _ _, .inl, rfl⟩
    · exact ⟨renewed _ _, fun still => absurd still pending, rfl⟩

theorem applyFlow_unless {next : Option Flow} (ended : next.any (·.status = .pending) = false) :
    s.applyFlow next = { s with flow := next, pollTimer := false } := by
  have nothing : State.automaticDeviceCodeResponse next = none := by
    cases next with
    | none => rfl
    | some flow => exact if_neg (of_decide_eq_false ended)
  unfold State.applyFlow
  rw [nothing]
  exact if_neg (Bool.eq_false_iff.mp ended)

theorem Table.drop (table : Table s) (i : Nat) : Table { s with requests := s.requests.drop i } where
  fresh j request found := table.fresh j request (Calls.drop_eq_some found).2
  live j request found := table.live j request (Calls.drop_eq_some found).2
  newest j request found := table.newest j request (Calls.drop_eq_some found).2
  kept j request found := table.kept j request (Calls.drop_eq_some found).2
  published := table.published

variable {request : Request}

theorem current_of_aborted (table : Table s) (found : s.requests i = some request) (aborted : request.aborted = true) :
    { s with requests := s.requests.drop i }.current = s.current := by
  unfold State.current
  cases active : s.activeRequest with
  | none => rfl
  | some j =>
    have other : j ≠ i := by
      rintro rfl
      cases aborted.symm.trans (table.newest j request found active)
    exact congrArg _ (Calls.drop_of_ne _ other)

theorem current_of_live (table : Table s) (found : s.requests i = some request) (live : request.aborted = false) :
    s.current = some request.operation ∧ { s with requests := s.requests.drop i }.current = none := by
  unfold State.current
  rw [table.live i request found live]
  exact ⟨by rw [Option.bind_some, found]; rfl, congrArg (Option.map _) (Calls.drop_self ..)⟩

variable {outcome : Outcome}

/-- An aborted request changes nothing, but that what it takes for data may clear the loading or the flow. -/
theorem Inv.ends_aborted (inv : Inv s) (found : s.requests i = some request) (aborted : request.aborted = true)
    (fits : outcome.fits request = true) :
    Inv ({ s with requests := s.requests.drop i }.finish i request.operation outcome) := by
  have same := current_of_aborted inv.toTable found aborted
  have table := inv.toTable.drop i
  have base : Inv { s with requests := s.requests.drop i } := by
    refine ⟨table, ?_, ?_⟩
    · rw [same]
      exact inv.loading
    · unfold Polled
      rw [same]
      exact inv.polling
  have cleared : Inv { s with requests := s.requests.drop i, loading := false } := ⟨table.shown _ _ _ _, nofun, base.polling⟩
  have ended (loading : Bool) (shown : loading = true → s.loading = true) :
      Inv { s with requests := s.requests.drop i, flow := none, pollTimer := false, loading } :=
    ⟨table.shown _ _ _ _, fun l => base.loading (shown l), nofun⟩
  have other : request.operation.mutates = false := Bool.eq_false_iff.mpr fun mutates => by
    cases aborted.symm.trans (inv.kept i request found mutates)
  rw [Outcome.fits.eq_def, aborted] at fits
  cases outcome with
  | ok next =>
    obtain rfl : next = none := Option.isNone_iff_eq_none.mp fits
    cases op : request.operation with
    | load | refresh => exact cleared
    | save | remove | logoutOAuth => rw [op] at other; cases other
    | startOAuth => exact ended false nofun
    | poll | respondOAuth | cancelOAuth => exact ended _ id
  | error credential =>
    cases op : request.operation with
    | load | refresh | startOAuth => exact cleared
    | save | remove | logoutOAuth => rw [op] at other; cases other
    | poll => exact ⟨table.shown _ _ _ _, base.loading, .inl⟩
    | respondOAuth | cancelOAuth => exact base
  | abortError =>
    unfold State.finish
    rw [other]
    exact base

/-- The newest request ends, as it is free to unless it leaves a pending flow to nobody. -/
theorem Inv.ends_live (inv : Inv s) (found : s.requests i = some request) (live : request.aborted = false)
    (fits : outcome.fits request = true) (orderly : Orderly s (.ends i outcome)) :
    Inv ({ s with requests := s.requests.drop i }.finish i request.operation outcome) := by
  obtain ⟨own, idle⟩ := current_of_live inv.toTable found live
  have table := inv.toTable.drop i
  have loud : s.loading = true → request.operation.loud = true := by
    have loading := inv.loading
    rwa [own] at loading
  have applies : s.pending = true → s.pollTimer = true ∨ request.operation.applies = true := by
    have polling := inv.polling
    rwa [Polled, own] at polling
  have cleared (polling : s.pending = true → s.pollTimer = true) :
      Inv { s with requests := s.requests.drop i, loading := false } :=
    ⟨table.shown _ _ _ _, nofun, fun pending => .inl (polling pending)⟩
  have refreshed (polling : s.pending = true → s.pollTimer = true) :
      Inv ({ s with requests := s.requests.drop i, loading := false }.call .refresh) :=
    Table.refresh (table.shown _ _ _ _) idle rfl polling
  have applied := table.applyFlow idle
  cases outcome with
  | ok next =>
    obtain ⟨apart, polled, loading⟩ := applied next
    have quiet (silent : request.operation.loud = false) :
        Inv ({ s with requests := s.requests.drop i }.applyFlow next) := by
      refine ⟨apart, fun shown => ?_, polled⟩
      cases silent.symm.trans (loud (loading.symm.trans shown))
    cases op : request.operation with
    | load | refresh | save | remove | logoutOAuth =>
      have polling : s.pending = true → s.pollTimer = true := by
        rw [op] at applies
        exact fun pending => (applies pending).resolve_right nofun
      first
      | exact cleared polling
      | exact refreshed polling
    | startOAuth => exact ⟨apart.shown _ _ _ _, nofun, polled⟩
    | respondOAuth | cancelOAuth => exact quiet (op ▸ rfl)
    | poll =>
      unfold State.finish
      dsimp only
      split_ifs with succeeded
      · have ended : next.any (·.status = .pending) = false := by
          cases next with
          | none => rfl
          | some flow => exact decide_eq_false fun pending => by cases pending.symm.trans (of_decide_eq_true succeeded)
        have silent : s.loading = false := Bool.eq_false_iff.mpr fun shown => by
          have := loud shown
          rw [op] at this
          cases this
        rw [applyFlow_unless ended]
        refine Table.refresh (table.shown _ _ _ _) idle silent fun pending => ?_
        cases ended.symm.trans pending
      · exact quiet (op ▸ rfl)
  | error credential =>
    have armed (other : request.operation ≠ .poll) : s.pending = true → s.pollTimer = true := by
      intro pending
      rcases applies pending with timer | applies
      · exact timer
      · exact orderly request found live applies other pending
    cases op : request.operation with
    | load | refresh | startOAuth => exact cleared (armed (op ▸ nofun))
    | save | remove | logoutOAuth =>
      unfold State.finish
      dsimp only
      split_ifs
      · exact refreshed (armed (op ▸ nofun))
      · exact cleared (armed (op ▸ nofun))
    | poll =>
      refine ⟨table.shown _ _ _ _, fun shown => ?_, .inl⟩
      have := loud shown
      rw [op] at this
      cases this
    | respondOAuth | cancelOAuth =>
      refine ⟨table, fun shown => ?_, fun pending => .inl (armed (op ▸ nofun) pending)⟩
      have := loud shown
      rw [op] at this
      cases this
  | abortError => cases live.symm.trans fits

theorem inv_step {a : Action} {t : State} (inv : Inv s) (orderly : Orderly s a) (taken : step s a = some t) : Inv t := by
  cases a with
  | calls operation =>
    simp only [step, Option.ite_none_left_eq_some] at taken
    cases taken.2
    exact inv.call orderly
  | fires =>
    obtain ⟨_, taken⟩ := Option.ite_none_right_eq_some.mp taken
    cases taken
    exact inv.fires orderly
  | ends i outcome =>
    cases found : s.requests i with
    | none => simp only [step, found] at taken; cases taken
    | some request =>
      simp only [step, found] at taken
      obtain ⟨fits, taken⟩ := Option.ite_none_right_eq_some.mp taken
      cases taken
      cases status : request.aborted with
      | true => exact inv.ends_aborted found status fits
      | false => exact inv.ends_live found status fits orderly

theorem inv_initial : Inv {} := ⟨⟨nofun, nofun, nofun, nofun, rfl⟩, nofun, nofun⟩

/-- In every run of the controller in which requests begin and fail as they may, the law holds in every state. -/
theorem polling_never_stalls {actions : List Action} (run : Run step Orderly {} actions s) : Law s :=
  (run.invariant (fun _ _ _ inv orderly taken => inv_step inv orderly taken) inv_initial).law

def signIn : Flow := ⟨"f", .pending, none⟩

def orderlyActions : List Action :=
  [.calls .startOAuth, .ends 0 (.ok (some { signIn with deviceCode := some "r" })), .ends 1 (.ok (some signIn)), .fires,
    .ends 2 (.error false), .calls .save, .ends 3 (.ok none), .ends 4 (.ok none)]

theorem polling_never_stalls_signIn : ∃ s, Run step Orderly {} orderlyActions s ∧ Law s ∧ s.pollTimer = true := by
  have checked : (execIf step (fun s a => decide (Orderly s a)) {} orderlyActions).any (·.pollTimer) = true := by decide
  obtain ⟨s, ran, armed⟩ := (Option.any_eq_true _ _).mp checked
  have run := run_of_execIf (fun _ _ => of_decide_eq_true) ran
  exact ⟨s, run, polling_never_stalls run, armed⟩

def abortedSave : List Action :=
  [.calls .startOAuth, .ends 0 (.ok (some signIn)), .calls .save, .fires, .ends 1 .abortError, .ends 2 (.ok (some signIn))]

def failedCancel : List Action := [.calls .startOAuth, .ends 0 (.ok (some signIn)), .calls .cancelOAuth, .ends 1 (.error false)]

theorem outcome_lost_and_polling_stalled :
    (∃ s, exec step {} abortedSave = some s ∧ Quiescent s ∧ s.lost = [1] ∧ s.loading = true) ∧
      ∃ s, exec step {} failedCancel = some s ∧ Quiescent s ∧ s.pending = true ∧ s.pollTimer = false := by
  refine ⟨⟨_, rfl, fun i => ?_, rfl, rfl⟩, ⟨_, rfl, fun i => ?_, rfl, rfl⟩⟩
  · match i with
    | 0 | 1 | 2 | _ + 3 => rfl
  · match i with
    | 0 | 1 | _ + 2 => rfl

end CredentialsController
