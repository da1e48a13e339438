import Mathlib.Data.List.Nodup
import Oyster.PiOAuthFlow

/-! What holds of the flows of the OAuth service, whatever the order of its calls, its timers, the callbacks
of the providers and the ends of the logins. -/
namespace PiOAuthFlow
open Interleaving

def Flow.ids (flow : Flow) : List Nat := flow.requests.map Request.requestId

structure FlowsKept (maxActiveFlows : Nat) (s : State) : Prop where
  bounded : s.activeFlows.length ≤ maxActiveFlows
  registered : ∀ f flow, s.flows f = some flow → flow.status = .pending → f ∈ s.activeFlows
  exclusive : ∀ f g flow other, s.flows f = some flow → s.flows g = some other → flow.status = .pending → other.status = .pending →
    flow.provider = other.provider → flow.harness = other.harness → f = g
  final : ∀ f flow, s.flows f = some flow → flow.ends = if flow.status = .pending then [] else [flow.status]
  cleared : ∀ f flow, s.flows f = some flow → flow.status ≠ .pending →
    flow.requests = [] ∧ flow.authorization = none ∧ flow.deviceCode = none ∧ flow.progress = none
  settled : ∀ f flow, s.flows f = some flow → flow.status ≠ .pending → ∀ p ∈ flow.prompts, p ∈ s.settled
  once : s.settled.Nodup
  saved : ∀ f flow, s.flows f = some flow → flow.status = .cancelled → flow.stored = false

/-- No flow whose credential is stored is cancelled or expires before the service has noted that, and none
that is still active is shut down. -/
def Unsaved (s : State) : Event → Prop
  | .cancel f _ | .expires f _ => ∀ flow, s.flows f = some flow → flow.status = .pending → flow.credentialPersisted = false →
      flow.stored = false
  | .shutdown _ => ∀ f flow, s.flows f = some flow → flow.status = .pending → flow.stored = false
  | _ => True

structure FlowInv (flow : Flow) : Prop where
  final : flow.ends = if flow.status = .pending then [] else [flow.status]
  cleared : flow.status ≠ .pending →
    flow.requests = [] ∧ flow.authorization = none ∧ flow.deviceCode = none ∧ flow.progress = none
  saved : flow.status = .cancelled → flow.stored = false ∧ flow.aborted = true
  retained : flow.terminalTimer = true → flow.status ≠ .pending

variable {flow : Flow} {next : Flow}

theorem FlowInv.active (h : FlowInv flow) (active : flow.status = .pending) (status : next.status = flow.status)
    (ends : next.ends = flow.ends) (timer : next.terminalTimer = flow.terminalTimer) : FlowInv next := by
  have pending : next.status = .pending := status.trans active
  refine ⟨?_, fun ended => absurd pending ended, fun cancelled => ?_, fun retained => ?_⟩
  · rw [if_pos pending, ends, h.final, if_pos active]
  · rw [pending] at cancelled
    cases cancelled
  · rw [timer] at retained
    exact absurd active (h.retained retained)

theorem FlowInv.ends_nil (h : FlowInv flow) (pending : flow.status = .pending) : flow.ends = [] := by
  rw [h.final, if_pos pending]

structure Promises (s : State) : Prop where
  once : s.settled.Nodup
  numbered : ∀ p ∈ s.settled, p < s.nextPromise
  distinct : ∀ f flow, s.flows f = some flow → flow.ids.Nodup
  open' : ∀ f flow, s.flows f = some flow → ∀ p ∈ flow.ids, p < s.nextPromise ∧ p ∉ s.settled
  apart : ∀ f g flow other, s.flows f = some flow → s.flows g = some other → ∀ p ∈ flow.ids, p ∈ other.ids → f = g
  prompts : ∀ f flow, s.flows f = some flow → ∀ p ∈ flow.prompts, p ∈ s.settled ∨ p ∈ flow.ids

variable {s : State} {f : Nat}

theorem Promises.put (h : Promises s) (there : s.flows f = some flow) {n : Nat} {l : List Nat}
    (le : s.nextPromise ≤ n) (distinct : (next.ids ++ l).Nodup)
    (source : ∀ p ∈ next.ids ++ l, p ∈ flow.ids ∨ s.nextPromise ≤ p ∧ p < n)
    (moved : ∀ p ∈ flow.ids, p ∈ next.ids ++ l) (prompts : ∀ p ∈ next.prompts, p ∈ flow.prompts ∨ p ∈ next.ids ++ l) :
    Promises { s with flows := s.flows.put f next, nextPromise := n, settled := s.settled ++ l } := by
  have below : ∀ p ∈ next.ids ++ l, p < n ∧ p ∉ s.settled := by
    intro p inside
    rcases source p inside with old | ⟨fresh, less⟩
    · obtain ⟨less, unsettled⟩ := h.open' f flow there p old
      exact ⟨Nat.lt_of_lt_of_le less le, unsettled⟩
    · exact ⟨less, fun done => Nat.not_lt.mpr fresh (h.numbered p done)⟩
  have strange : ∀ g other, g ≠ f → s.flows g = some other → ∀ p ∈ next.ids ++ l, p ∉ other.ids := by
    intro g other different found p inside theirs
    rcases source p inside with old | ⟨fresh, _⟩
    · exact different (h.apart g f other flow found there p theirs old)
    · exact Nat.not_lt.mpr fresh (h.open' g other found p theirs).1
  refine ⟨?_, ?_, ?_, ?_, ?_, ?_⟩
  · refine List.nodup_append.mpr ⟨h.once, (List.nodup_append.mp distinct).2.1, fun p done q inside same => ?_⟩
    subst same
    exact (below p (List.mem_append_right _ inside)).2 done
  · intro p inside
    rcases List.mem_append.mp inside with old | new
    · exact Nat.lt_of_lt_of_le (h.numbered p old) le
    · exact (below p (List.mem_append_right _ new)).1
  · intro g other found
    rcases Calls.put_eq_some found with ⟨_, rfl⟩ | ⟨_, old⟩
    · exact (List.nodup_append.mp distinct).1
    · exact h.distinct g other old
  · intro g other found p inside
    rcases Calls.put_eq_some found with ⟨_, rfl⟩ | ⟨different, old⟩
    · have own := below p (List.mem_append_left _ inside)
      refine ⟨own.1, fun done => ?_⟩
      rcases List.mem_append.mp done with before | now
      · exact own.2 before
      · exact (List.nodup_append.mp distinct).2.2 p inside p now rfl
    · obtain ⟨less, unsettled⟩ := h.open' g other old p inside
      refine ⟨Nat.lt_of_lt_of_le less le, fun done => ?_⟩
      rcases List.mem_append.mp done with before | now
      · exact unsettled before
      · exact strange g other different old p (List.mem_append_right _ now) inside
  · intro g k other another found found' p inside inside'
    rcases Calls.put_eq_some found with ⟨rfl, rfl⟩ | ⟨different, old⟩
    · rcases Calls.put_eq_some found' with ⟨rfl, _⟩ | ⟨different', old'⟩
      · rfl
      · exact absurd inside' (strange k another different' old' p (List.mem_append_left _ inside))
    · rcases Calls.put_eq_some found' with ⟨rfl, rfl⟩ | ⟨_, old'⟩
      · exact absurd inside (strange g other different old p (List.mem_append_left _ inside'))
      · exact h.apart g k other another old old' p inside inside'
  · intro g other found p inside
    rcases Calls.put_eq_some found with ⟨_, rfl⟩ | ⟨_, old⟩
    · rcases prompts p inside with before | now
      · rcases h.prompts f flow there p before with done | outstanding
        · exact .inl (List.mem_append_left _ done)
        · exact (List.mem_append.mp (moved p outstanding)).elim .inr fun now => .inl (List.mem_append_right _ now)
      · exact (List.mem_append.mp now).elim .inr fun now => .inl (List.mem_append_right _ now)
    · exact (h.prompts g other old p inside).imp_left (List.mem_append_left _)

structure Inv (maxActiveFlows : Nat) (s : State) : Prop where
  bounded : s.activeFlows.length ≤ maxActiveFlows
  registered : ∀ f flow, s.flows f = some flow → flow.status = .pending → f ∈ s.registry
  numbered : ∀ f flow, s.flows f = some flow → f < s.nextFlow
  listed : ∀ f ∈ s.registry, f < s.nextFlow
  exclusive : ∀ f g flow other, s.flows f = some flow → s.flows g = some other → flow.status = .pending → other.status = .pending →
    flow.provider = other.provider → flow.harness = other.harness → f = g
  flows : ∀ f flow, s.flows f = some flow → FlowInv flow
  promises : Promises s

theorem mem_activeFlows :
    f ∈ s.activeFlows ↔ f ∈ s.registry ∧ ∃ flow, s.flows f = some flow ∧ flow.status = .pending := by
  unfold State.activeFlows State.isActive
  rw [List.mem_filter, Option.any_eq_true]
  simp only [decide_eq_true_eq]

variable {maxActiveFlows : Nat}

theorem Inv.kept (h : Inv maxActiveFlows s) : FlowsKept maxActiveFlows s where
  bounded := h.bounded
  registered f flow there pending := mem_activeFlows.mpr ⟨h.registered f flow there pending, flow, there, pending⟩
  exclusive := h.exclusive
  final f flow there := (h.flows f flow there).final
  cleared f flow there := (h.flows f flow there).cleared
  settled f flow there ended p inside := by
    rcases h.promises.prompts f flow there p inside with done | outstanding
    · exact done
    · unfold Flow.ids at outstanding
      rw [((h.flows f flow there).cleared ended).1] at outstanding
      cases outstanding
  once := h.promises.once
  saved f flow there cancelled := ((h.flows f flow there).saved cancelled).1

section
variable {maxActiveFlows : Nat} {s : State} {f : Nat} {flow next : Flow}

theorem Inv.init : Inv maxActiveFlows {} :=
  ⟨Nat.zero_le _, fun _ _ absurd => (nomatch absurd), fun _ _ absurd => (nomatch absurd), fun _ absurd => (nomatch absurd),
    fun _ _ _ _ absurd => (nomatch absurd), fun _ _ absurd => (nomatch absurd),
    ⟨List.nodup_nil, fun _ absurd => (nomatch absurd), fun _ _ absurd => (nomatch absurd), fun _ _ absurd => (nomatch absurd),
      fun _ _ _ _ absurd => (nomatch absurd), fun _ _ absurd => nomatch absurd⟩⟩

theorem Inv.put (h : Inv maxActiveFlows s) (there : s.flows f = some flow) (provider : next.provider = flow.provider)
    (harness : next.harness = flow.harness) (pending : next.status = .pending → flow.status = .pending) (kept : FlowInv next)
    {n : Nat} {settled : List Nat}
    (promises : Promises { s with flows := s.flows.put f next, nextPromise := n, settled }) :
    Inv maxActiveFlows { s with flows := s.flows.put f next, nextPromise := n, settled } := by
  have before : ∀ g other, s.flows.put f next g = some other → other.status = .pending →
      ∃ old, s.flows g = some old ∧ old.status = .pending ∧ other.provider = old.provider ∧ other.harness = old.harness := by
    intro g other found active
    rcases Calls.put_eq_some found with ⟨rfl, rfl⟩ | ⟨_, old⟩
    · exact ⟨flow, there, pending active, provider, harness⟩
    · exact ⟨other, old, active, rfl, rfl⟩
  refine ⟨?_, fun g other found active => ?_, fun g other found => ?_, h.listed,
    fun g k other another found found' active active' same same' => ?_, fun g other found => ?_, promises⟩
  · refine Nat.le_trans ?_ h.bounded
    unfold State.activeFlows
    rw [← List.countP_eq_length_filter, ← List.countP_eq_length_filter]
    refine List.countP_mono_left fun g _ active => ?_
    obtain ⟨other, found, active⟩ := (Option.any_eq_true _ _).mp active
    obtain ⟨old, there, active, _⟩ := before g other found (of_decide_eq_true active)
    exact (Option.any_eq_true _ _).mpr ⟨old, there, decide_eq_true active⟩
  · obtain ⟨old, there, active, _⟩ := before g other found active
    exact h.registered g old there active
  · rcases Calls.put_eq_some found with ⟨rfl, _⟩ | ⟨_, old⟩
    · exact h.numbered g flow there
    · exact h.numbered g other old
  · obtain ⟨old, there, active, provider, harness⟩ := before g other found active
    obtain ⟨old', there', active', provider', harness'⟩ := before k another found' active'
    exact h.exclusive g k old old' there there' active active' (by rw [← provider, ← provider', same])
      (by rw [← harness, ← harness', same'])
  · rcases Calls.put_eq_some found with ⟨_, rfl⟩ | ⟨_, old⟩
    · exact kept
    · exact h.flows g other old

theorem Inv.set (h : Inv maxActiveFlows s) (there : s.flows f = some flow) (provider : next.provider = flow.provider)
    (harness : next.harness = flow.harness) (pending : next.status = .pending → flow.status = .pending) (kept : FlowInv next)
    (requests : next.requests = flow.requests) (prompts : next.prompts = flow.prompts) : Inv maxActiveFlows (s.setFlow f next) := by
  have ids : next.ids = flow.ids := congrArg (List.map Request.requestId) requests
  have promises : Promises { s with flows := s.flows.put f next, nextPromise := s.nextPromise, settled := s.settled ++ [] } := by
    refine h.promises.put there (Nat.le_refl _) ?_ ?_ ?_ ?_
    · rw [List.append_nil, ids]
      exact h.promises.distinct f flow there
    · rw [List.append_nil, ids]
      exact fun p inside => .inl inside
    · rw [List.append_nil, ids]
      exact fun p => id
    · rw [prompts]
      exact fun p => .inl
  rw [List.append_nil] at promises
  exact h.put there provider harness pending kept promises

/-- What a callback leaves of the flow that it is for, as far as its end goes. -/
structure Flow.Goes (flow next : Flow) : Prop where
  status : next.status = flow.status
  stored : next.stored = flow.stored
  aborted : next.aborted = flow.aborted

/-- After some callbacks the flow goes on, the others are as they were, and every invariant holds. -/
structure Goes (maxActiveFlows f : Nat) (flow : Flow) (s t : State) : Prop where
  inv : Inv maxActiveFlows t
  goes : ∃ next, t.flows f = some next ∧ flow.Goes next
  others : ∀ g, g ≠ f → t.flows g = s.flows g
  registry : t.registry = s.registry

theorem Inv.goes (h : Inv maxActiveFlows s) (there : s.flows f = some flow) : Goes maxActiveFlows f flow s s :=
  ⟨h, ⟨flow, there, rfl, rfl, rfl⟩, fun _ _ => rfl, rfl⟩

theorem Inv.setActive (h : Inv maxActiveFlows s) (there : s.flows f = some flow) (active : flow.status = .pending)
    (provider : next.provider = flow.provider) (harness : next.harness = flow.harness) (goes : flow.Goes next)
    (requests : next.requests = flow.requests) (prompts : next.prompts = flow.prompts) (ends : next.ends = flow.ends)
    (timer : next.terminalTimer = flow.terminalTimer) : Goes maxActiveFlows f flow s (s.setFlow f next) := by
  have kept : FlowInv next := (h.flows f flow there).active active goes.status ends timer
  exact ⟨h.set there provider harness (fun _ => active) kept requests prompts, ⟨next, Calls.put_self .., goes⟩,
    fun g other => Calls.put_of_ne _ _ other, rfl⟩

theorem Inv.pendingRequest (h : Inv maxActiveFlows s) (there : s.flows f = some flow) (active : flow.status = .pending)
    (kind : Kind) (message : String) (placeholder : Option (Option String)) (options : Option (List (String × String))) :
    Goes maxActiveFlows f flow s (s.pendingRequest f flow kind message placeholder options) := by
  have fresh : s.nextPromise ∉ flow.ids := fun inside => Nat.lt_irrefl _ (h.promises.open' f flow there _ inside).1
  have distinct : (flow.ids ++ [s.nextPromise]).Nodup := by
    refine List.nodup_append.mpr ⟨h.promises.distinct f flow there, List.nodup_singleton _, fun p inside q new same => ?_⟩
    obtain rfl := List.mem_singleton.mp new
    exact fresh (same ▸ inside)
  have source : ∀ p ∈ flow.ids ++ [s.nextPromise], p ∈ flow.ids ∨ s.nextPromise ≤ p ∧ p < s.nextPromise + 1 := by
    intro p inside
    rcases List.mem_append.mp inside with old | new
    · exact .inl old
    · rw [List.mem_singleton.mp new]
      exact .inr ⟨Nat.le_refl _, Nat.lt_succ_self _⟩
  have prompts : ∀ p ∈ flow.prompts ++ [s.nextPromise], p ∈ flow.prompts ∨ p ∈ flow.ids ++ [s.nextPromise] :=
    fun p inside => (List.mem_append.mp inside).imp_right (List.mem_append_right _)
  unfold State.pendingRequest
  split
  · next given _ =>
      let next : Flow := { flow.update (.request kind) with
        prompts := flow.prompts ++ [s.nextPromise]
        requests := flow.requests ++ [⟨s.nextPromise, kind, message, given, options⟩] }
      have ids : next.ids = flow.ids ++ [s.nextPromise] := List.map_append ..
      have promises : Promises { s with flows := s.flows.put f next, nextPromise := s.nextPromise + 1, settled := s.settled ++ [] } := by
        refine h.promises.put there (Nat.le_succ _) ?_ ?_ ?_ ?_
        · rw [ids, List.append_nil]
          exact distinct
        · rw [ids, List.append_nil]
          exact source
        · rw [ids, List.append_nil]
          exact fun p => List.mem_append_left _
        · rw [ids, List.append_nil]
          exact prompts
      rw [List.append_nil] at promises
      have kept : FlowInv next := (h.flows f flow there).active active rfl rfl rfl
      have same : next.provider = flow.provider ∧ next.harness = flow.harness := ⟨rfl, rfl⟩
      exact ⟨h.put there same.1 same.2 (fun _ => active) kept promises, ⟨next, Calls.put_self .., rfl, rfl, rfl⟩,
        fun g other => Calls.put_of_ne _ _ other, rfl⟩
  · let next : Flow := { flow.update (.request kind) with prompts := flow.prompts ++ [s.nextPromise] }
    have promises : Promises { s with
        flows := s.flows.put f next, nextPromise := s.nextPromise + 1, settled := s.settled ++ [s.nextPromise] } :=
      h.promises.put there (Nat.le_succ _) distinct source (fun p => List.mem_append_left _) prompts
    have kept : FlowInv next := (h.flows f flow there).active active rfl rfl rfl
    have same : next.provider = flow.provider ∧ next.harness = flow.harness := ⟨rfl, rfl⟩
    exact ⟨h.put there same.1 same.2 (fun _ => active) kept promises, ⟨next, Calls.put_self .., rfl, rfl, rfl⟩,
        fun g other => Calls.put_of_ne _ _ other, rfl⟩

theorem Inv.callback (h : Inv maxActiveFlows s) (there : s.flows f = some flow) (validUrl : String → Bool) (callback : Callback) :
    Goes maxActiveFlows f flow s (s.callback validUrl f flow callback) := by
  cases callback with
  | onAuth url instructions =>
    unfold State.callback
    dsimp only
    split
    · next active =>
        split
        · exact h.setActive there active rfl rfl ⟨rfl, rfl, rfl⟩ rfl rfl rfl rfl
        · exact h.setActive there active rfl rfl ⟨rfl, rfl, rfl⟩ rfl rfl rfl rfl
    · exact h.goes there
  | onDeviceCode userCode verificationUri intervalSeconds expiresInSeconds =>
    unfold State.callback
    dsimp only
    split
    · next active =>
        split
        · exact h.setActive there active rfl rfl ⟨rfl, rfl, rfl⟩ rfl rfl rfl rfl
        · exact h.setActive there active rfl rfl ⟨rfl, rfl, rfl⟩ rfl rfl rfl rfl
    · exact h.goes there
  | onPrompt message placeholder =>
    unfold State.callback
    dsimp only
    split
    · split
      · next active => exact h.pendingRequest there active ..
      · exact h.goes there
    · exact h.goes there
  | onSelect message options =>
    unfold State.callback
    dsimp only
    split
    · split
      · next active => exact h.pendingRequest there active ..
      · exact h.goes there
    · exact h.goes there
  | onProgress message =>
    unfold State.callback
    dsimp only
    split
    · next active =>
        split
        · exact h.setActive there active rfl rfl ⟨rfl, rfl, rfl⟩ rfl rfl rfl rfl
        · exact h.setActive there active rfl rfl ⟨rfl, rfl, rfl⟩ rfl rfl rfl rfl
    · exact h.goes there
  | onManualCodeInput =>
    unfold State.callback
    dsimp only
    split
    · next active => exact h.pendingRequest there active ..
    · exact h.goes there

variable {t : State} {validUrl : String → Bool}

theorem Goes.listeners (listeners : List Callback) (h : Goes maxActiveFlows f flow s t) :
    Goes maxActiveFlows f flow s (listeners.foldl (fun t callback => t.runCallback validUrl f callback) t) := by
  induction listeners generalizing t with
  | nil => exact h
  | cons callback rest ih =>
    obtain ⟨next, there, goes⟩ := h.goes
    have same : t.runCallback validUrl f callback = t.callback validUrl f next callback := by
      unfold State.runCallback
      rw [there]
    have called := h.inv.callback there validUrl callback
    obtain ⟨last, there', goes'⟩ := called.goes
    refine ih ?_
    change Goes maxActiveFlows f flow s (t.runCallback validUrl f callback)
    rw [same]
    exact ⟨called.inv, ⟨last, there', goes'.status.trans goes.status, goes'.stored.trans goes.stored,
      goes'.aborted.trans goes.aborted⟩, fun g other => (called.others g other).trans (h.others g other),
      called.registry.trans h.registry⟩

structure Ended (maxActiveFlows f : Nat) (s t : State) : Prop where
  inv : Inv maxActiveFlows t
  ended : ∀ flow, t.flows f = some flow → flow.status ≠ .pending
  others : ∀ g, g ≠ f → t.flows g = s.flows g
  registry : t.registry = s.registry

variable {status : Status}

theorem Inv.conclude (h : Inv maxActiveFlows s) (there : s.flows f = some flow) (active : flow.status = .pending)
    (ended : status ≠ .pending) (saved : status = .cancelled → flow.stored = false ∧ flow.aborted = true)
    (failureCode : Option String) : Ended maxActiveFlows f s (s.conclude f status failureCode) := by
  have ends := (h.flows f flow there).ends_nil active
  unfold State.conclude
  rw [there]
  let next : Flow := { flow with
    requests := []
    authorization := none
    deviceCode := none
    progress := none
    status
    phase := .complete
    failureCode := failureCode <|> flow.failureCode
    terminalTimer := true
    ends := flow.ends ++ [status] }
  have kept : FlowInv next := by
    refine ⟨?_, fun _ => ⟨rfl, rfl, rfl, rfl⟩, saved, fun _ => ended⟩
    change flow.ends ++ [status] = _
    rw [if_neg ended, ends]
    rfl
  have same : next.provider = flow.provider ∧ next.harness = flow.harness := ⟨rfl, rfl⟩
  have promises : Promises { s with
      flows := s.flows.put f next, nextPromise := s.nextPromise, settled := s.settled ++ flow.ids } :=
    h.promises.put there (Nat.le_refl _) (h.promises.distinct f flow there) (fun p => .inl) (fun p => id) (fun p => .inl)
  refine ⟨h.put there same.1 same.2 (fun pending => absurd pending ended) kept promises, fun other found => ?_,
    fun g other => Calls.put_of_ne _ _ other, rfl⟩
  have found : s.flows.put f next f = some other := found
  rw [Calls.put_self] at found
  cases found
  exact ended

theorem Inv.finish (h : Inv maxActiveFlows s) (validUrl : String → Bool) (f : Nat) (ended : status ≠ .pending)
    (failureCode : Option String) (abort : Bool) (listeners : List Callback)
    (aborts : status = .cancelled → abort = true)
    (saved : status = .cancelled → ∀ flow, s.flows f = some flow → flow.status = .pending → flow.stored = false) :
    Ended maxActiveFlows f s (s.finish validUrl f status failureCode abort listeners) := by
  unfold State.finish
  split
  · next absent =>
      refine ⟨h, fun flow found => ?_, fun _ _ => rfl, rfl⟩
      rw [absent] at found
      cases found
  · next flow there =>
      split
      · next active =>
          have quiet : Goes maxActiveFlows f { flow with aborted := flow.aborted || abort } s
              (s.setFlow f { flow with activeTimer := false, aborted := flow.aborted || abort }) := by
            refine ⟨h.set there rfl rfl (fun _ => active) ((h.flows f flow there).active active rfl rfl rfl) rfl rfl,
              ⟨_, Calls.put_self .., rfl, rfl, rfl⟩, fun g other => Calls.put_of_ne _ _ other, rfl⟩
          have heard : Goes maxActiveFlows f { flow with aborted := flow.aborted || abort } s
              (let s := s.setFlow f { flow with activeTimer := false, aborted := flow.aborted || abort }
              if abort then listeners.foldl (fun s callback => s.runCallback validUrl f callback) s else s) := by
            split
            · exact quiet.listeners listeners
            · exact quiet
          obtain ⟨next, there', goes⟩ := heard.goes
          have concluded := heard.inv.conclude there' (goes.status.trans active) ended (fun cancelled => by
            refine ⟨goes.stored.trans (saved cancelled flow there active), goes.aborted.trans ?_⟩
            rw [aborts cancelled]
            exact Bool.or_true _) failureCode
          exact ⟨concluded.inv, concluded.ended, fun g other => (concluded.others g other).trans (heard.others g other),
            concluded.registry.trans heard.registry⟩
      · next ended' =>
          refine ⟨h, fun other found => ?_, fun _ _ => rfl, rfl⟩
          rw [there] at found
          cases found
          exact ended'

theorem Inv.respond (h : Inv maxActiveFlows s) {requestId : Nat} {value : Option String}
    (taken : s.respond f requestId value = some t) : Inv maxActiveFlows t := by
  unfold State.respond at taken
  split at taken
  · cases taken
  · next flow there =>
      obtain ⟨⟨_, active⟩, taken⟩ := Option.ite_none_right_eq_some.mp taken
      split at taken
      · next request response found _ =>
          obtain ⟨_, taken⟩ := Option.ite_none_left_eq_some.mp taken
          cases taken
          obtain rfl : request.requestId = requestId := by simpa using List.find?_some found
          let phase : Phase := if (flow.requests.filter fun other => decide (other.requestId ≠ request.requestId)) = [] then .waiting
            else .input
          let next : Flow := { flow with
            requests := flow.requests.filter fun other => decide (other.requestId ≠ request.requestId) }.update phase
          have mem : ∀ p, p ∈ next.ids ↔ p ∈ flow.ids ∧ p ≠ request.requestId := by
            intro p
            simp only [next, Flow.ids, Flow.update, List.mem_map, List.mem_filter, decide_eq_true_eq]
            constructor
            · rintro ⟨other, ⟨inside, different⟩, rfl⟩
              exact ⟨⟨other, inside, rfl⟩, different⟩
            · rintro ⟨⟨other, inside, rfl⟩, different⟩
              exact ⟨other, ⟨inside, different⟩, rfl⟩
          have own : request.requestId ∈ flow.ids := List.mem_map.mpr ⟨request, List.mem_of_find?_eq_some found, rfl⟩
          have nodup : next.ids.Nodup := (h.promises.distinct f flow there).sublist (List.filter_sublist.map _)
          have promises : Promises { s with
              flows := s.flows.put f next, nextPromise := s.nextPromise, settled := s.settled ++ [request.requestId] } := by
            refine h.promises.put there (Nat.le_refl _) ?_ ?_ ?_ (fun p => .inl)
            · refine List.nodup_append.mpr ⟨nodup, List.nodup_singleton _, fun p inside q new same => ?_⟩
              obtain rfl := List.mem_singleton.mp new
              exact ((mem p).mp inside).2 same
            · intro p inside
              rcases List.mem_append.mp inside with old | answered
              · exact .inl ((mem p).mp old).1
              · rw [List.mem_singleton.mp answered]
                exact .inl own
            · intro p inside
              by_cases same : p = request.requestId
              · exact List.mem_append_right _ (List.mem_singleton.mpr same)
              · exact List.mem_append_left _ ((mem p).mpr ⟨inside, same⟩)
          have kept : FlowInv next := (h.flows f flow there).active active rfl rfl rfl
          have same : next.provider = flow.provider ∧ next.harness = flow.harness := ⟨rfl, rfl⟩
          exact h.put there same.1 same.2 (fun _ => active) kept promises
      · cases taken

theorem Promises.start (h : Promises s) (provider harness : String) : Promises { s with
      flows := s.flows.put s.nextFlow { provider, harness, activeTimer := true }
      nextFlow := s.nextFlow + 1
      registry := s.registry ++ [s.nextFlow] } := by
  refine ⟨h.once, h.numbered, fun g other found => ?_, fun g other found p inside => ?_, fun g k other another found found' p inside inside' => ?_,
    fun g other found p inside => ?_⟩
  · rcases Calls.put_eq_some found with ⟨_, rfl⟩ | ⟨_, old⟩
    · exact List.nodup_nil
    · exact h.distinct g other old
  · rcases Calls.put_eq_some found with ⟨_, rfl⟩ | ⟨_, old⟩
    · cases inside
    · exact h.open' g other old p inside
  · rcases Calls.put_eq_some found with ⟨_, rfl⟩ | ⟨_, old⟩
    · cases inside
    · rcases Calls.put_eq_some found' with ⟨_, rfl⟩ | ⟨_, old'⟩
      · cases inside'
      · exact h.apart g k other another old old' p inside inside'
  · rcases Calls.put_eq_some found with ⟨_, rfl⟩ | ⟨_, old⟩
    · cases inside
    · exact h.prompts g other old p inside

theorem Inv.start (h : Inv maxActiveFlows s) {provider harness : Option String}
    (taken : s.start maxActiveFlows provider harness = some t) : Inv maxActiveFlows t := by
  unfold State.start at taken
  split at taken
  · next provider harness _ _ =>
      obtain ⟨free, taken⟩ := Option.ite_none_left_eq_some.mp taken
      obtain ⟨room, taken⟩ := Option.ite_none_left_eq_some.mp taken
      cases taken
      have alone : ∀ g other, s.flows g = some other → other.status = .pending → ¬(other.provider = provider ∧ other.harness = harness) := by
        intro g other found active same
        refine free (List.any_eq_true.mpr ⟨g, mem_activeFlows.mpr ⟨h.registered g other found active, other, found, active⟩, ?_⟩)
        exact (Option.any_eq_true _ _).mpr ⟨other, found, by simp [same]⟩
      refine ⟨?_, fun g other found active => ?_, fun g other found => ?_, fun g inside => ?_,
        fun g k other another found found' active active' same same' => ?_, fun g other found => ?_, h.promises.start provider harness⟩
      · unfold State.activeFlows at room ⊢
        rw [List.filter_append, List.length_append]
        have old : (s.registry.filter (State.isActive { s with
            flows := s.flows.put s.nextFlow { provider, harness, activeTimer := true }
            nextFlow := s.nextFlow + 1
            registry := s.registry ++ [s.nextFlow] })) = s.registry.filter s.isActive := by
          refine List.filter_congr fun g inside => ?_
          unfold State.isActive
          dsimp only
          rw [Calls.put_of_ne _ _ (Nat.ne_of_lt (h.listed g inside))]
        have new := List.length_filter_le (State.isActive { s with
            flows := s.flows.put s.nextFlow { provider, harness, activeTimer := true }
            nextFlow := s.nextFlow + 1
            registry := s.registry ++ [s.nextFlow] }) [s.nextFlow]
        rw [old]
        simp only [List.length_singleton] at new
        omega
      · rcases Calls.put_eq_some found with ⟨rfl, _⟩ | ⟨_, old⟩
        · exact List.mem_append_right _ (List.mem_singleton_self _)
        · exact List.mem_append_left _ (h.registered g other old active)
      · rcases Calls.put_eq_some found with ⟨rfl, _⟩ | ⟨_, old⟩
        · exact Nat.lt_succ_self _
        · exact Nat.lt_succ_of_lt (h.numbered g other old)
      · rcases List.mem_append.mp inside with old | new
        · exact Nat.lt_succ_of_lt (h.listed g old)
        · rw [List.mem_singleton.mp new]
          exact Nat.lt_succ_self _
      · rcases Calls.put_eq_some found with ⟨rfl, rfl⟩ | ⟨_, old⟩
        · rcases Calls.put_eq_some found' with ⟨rfl, _⟩ | ⟨_, old'⟩
          · rfl
          · exact absurd ⟨same.symm, same'.symm⟩ (alone k another old' active')
        · rcases Calls.put_eq_some found' with ⟨rfl, rfl⟩ | ⟨_, old'⟩
          · exact absurd ⟨same, same'⟩ (alone g other old active)
          · exact h.exclusive g k other another old old' active active' same same'
      · rcases Calls.put_eq_some found with ⟨_, rfl⟩ | ⟨_, old⟩
        · exact ⟨rfl, fun ended => absurd rfl ended, fun absurd => (nomatch absurd), fun absurd => (nomatch absurd)⟩
        · exact h.flows g other old
  · cases taken

theorem Inv.expire (h : Inv maxActiveFlows s) (there : s.flows f = some flow) (validUrl : String → Bool)
    (listeners : List Callback)
    (saved : flow.status = .pending → flow.credentialPersisted = false → flow.stored = false) :
    Inv maxActiveFlows (s.expire validUrl f flow listeners) := by
  have kept := h.flows f flow there
  have fired : Inv maxActiveFlows (s.setFlow f { flow with activeTimer := false }) :=
    h.set there rfl rfl id ⟨kept.final, kept.cleared, kept.saved, kept.retained⟩ rfl rfl
  unfold State.expire
  split
  · next active =>
      split
      · have noted : Inv maxActiveFlows
            ((s.setFlow f { flow with activeTimer := false }).setFlow f { flow with activeTimer := false, restart := some .failed }) :=
          fired.set (Calls.put_self ..) rfl rfl id ⟨kept.final, kept.cleared, kept.saved, kept.retained⟩ rfl rfl
        exact (noted.finish validUrl f (nofun : Status.succeeded ≠ .pending) none false [] nofun nofun).inv
      · next unsaved =>
          refine (fired.finish validUrl f (nofun : Status.cancelled ≠ .pending) _ true listeners (fun _ => rfl) fun _ other found _ => ?_).inv
          have found : s.flows.put f { flow with activeTimer := false } f = some other := found
          rw [Calls.put_self] at found
          cases found
          exact saved active ((Bool.not_eq_true _).mp unsaved)
  · exact fired

def Unstored (s : State) : Prop := ∀ f flow, s.flows f = some flow → flow.status = .pending → flow.stored = false

theorem Inv.finishAll (validUrl : String → Bool) (code : Option String) (listeners : Nat → List Callback) (ids : List Nat) {s : State}
    (h : Inv maxActiveFlows s) (unstored : Unstored s) :
    let t := ids.foldl (fun t f => t.finish validUrl f .cancelled code true (listeners f)) s
    Inv maxActiveFlows t ∧ t.registry = s.registry ∧ ∀ f flow, t.flows f = some flow → flow.status = .pending →
      f ∉ ids ∧ ∃ before, s.flows f = some before ∧ before.status = .pending := by
  induction ids generalizing s with
  | nil => exact ⟨h, rfl, fun _ flow found active => ⟨List.not_mem_nil, flow, found, active⟩⟩
  | cons first rest ih =>
    have ended := h.finish validUrl first (nofun : Status.cancelled ≠ .pending) code true (listeners first) (fun _ => rfl)
      fun _ flow there active => unstored first flow there active
    have before : ∀ g flow, (s.finish validUrl first .cancelled code true (listeners first)).flows g = some flow →
        flow.status = .pending → g ≠ first ∧ s.flows g = some flow := by
      intro g flow found active
      by_cases same : g = first
      · subst same
        exact absurd active (ended.ended flow found)
      · rw [ended.others g same] at found
        exact ⟨same, found⟩
    have still : Unstored (s.finish validUrl first .cancelled code true (listeners first)) :=
      fun g flow found active => unstored g flow (before g flow found active).2 active
    obtain ⟨inv, registry, gone⟩ := ih ended.inv still
    refine ⟨inv, registry.trans ended.registry, fun f flow found active => ?_⟩
    obtain ⟨absent, old, there, active'⟩ := gone f flow found active
    obtain ⟨different, there⟩ := before f old there active'
    exact ⟨fun inside => (List.mem_cons.mp inside).elim different absent, old, there, active'⟩

theorem Inv.clearTimers (h : Inv maxActiveFlows s) (f : Nat) :
    Inv maxActiveFlows (s.clearTimers f) ∧ ∀ g next, (s.clearTimers f).flows g = some next →
      ∃ flow, s.flows g = some flow ∧ flow.status = next.status := by
  unfold State.clearTimers
  split
  · next flow there =>
      have kept := h.flows f flow there
      refine ⟨h.set there rfl rfl id ⟨kept.final, kept.cleared, kept.saved, nofun⟩ rfl rfl, fun g next found => ?_⟩
      rcases Calls.put_eq_some found with ⟨rfl, rfl⟩ | ⟨_, old⟩
      · exact ⟨flow, there, rfl⟩
      · exact ⟨next, old, rfl⟩
  · exact ⟨h, fun g next found => ⟨next, found, rfl⟩⟩

theorem Inv.clearAll (ids : List Nat) {s : State} (h : Inv maxActiveFlows s) :
    Inv maxActiveFlows (ids.foldl State.clearTimers s) ∧ ∀ g next, (ids.foldl State.clearTimers s).flows g = some next →
      ∃ flow, s.flows g = some flow ∧ flow.status = next.status := by
  induction ids generalizing s with
  | nil => exact ⟨h, fun g next found => ⟨next, found, rfl⟩⟩
  | cons first rest ih =>
    obtain ⟨inv, before⟩ := h.clearTimers first
    obtain ⟨inv', between⟩ := ih inv
    refine ⟨inv', fun g next found => ?_⟩
    obtain ⟨flow, there, same⟩ := between g next found
    obtain ⟨old, there', same'⟩ := before g flow there
    exact ⟨old, there', same'.trans same⟩

theorem Inv.shutdown (h : Inv maxActiveFlows s) (unstored : Unstored s) (validUrl : String → Bool)
    (listeners : Nat → List Callback) : Inv maxActiveFlows (s.shutdown validUrl listeners) := by
  obtain ⟨inv, registry, gone⟩ := h.finishAll validUrl (some "oauth_cancelled") listeners s.registry unstored
  obtain ⟨inv, before⟩ := inv.clearAll s.registry
  refine ⟨Nat.zero_le _, fun f flow there active => ?_, inv.numbered, fun _ absurd => (nomatch absurd), inv.exclusive, inv.flows,
    ⟨inv.promises.once, inv.promises.numbered, inv.promises.distinct, inv.promises.open', inv.promises.apart, inv.promises.prompts⟩⟩
  obtain ⟨old, there, same⟩ := before f flow there
  obtain ⟨absent, first, found, active⟩ := gone f old there (same.trans active)
  exact absurd (h.registered f first found active) absent

theorem Inv.forget (h : Inv maxActiveFlows s) (there : s.flows f = some flow) (retained : flow.terminalTimer = true) :
    Inv maxActiveFlows { s.setFlow f { flow with terminalTimer := false } with
      registry := s.registry.filter fun g => decide (g ≠ f) } := by
  have kept := h.flows f flow there
  have cleared : Inv maxActiveFlows (s.setFlow f { flow with terminalTimer := false }) :=
    h.set there rfl rfl id ⟨kept.final, kept.cleared, kept.saved, nofun⟩ rfl rfl
  refine ⟨Nat.le_trans ?_ cleared.bounded, fun g other found active => ?_, cleared.numbered, fun g inside => ?_, cleared.exclusive,
    cleared.flows, ⟨cleared.promises.once, cleared.promises.numbered, cleared.promises.distinct, cleared.promises.open',
      cleared.promises.apart, cleared.promises.prompts⟩⟩
  · exact (List.filter_sublist.filter _).length_le
  · refine List.mem_filter.mpr ⟨cleared.registered g other found active, decide_eq_true fun same => ?_⟩
    subst same
    have found : s.flows.put g { flow with terminalTimer := false } g = some other := found
    rw [Calls.put_self] at found
    cases found
    exact kept.retained retained active
  · exact h.listed g (List.mem_filter.mp inside).1

theorem Inv.setLogin (h : Inv maxActiveFlows s) (there : s.flows f = some flow) (login : Login) :
    Inv maxActiveFlows (s.setFlow f { flow with login }) := by
  have kept := h.flows f flow there
  exact h.set there rfl rfl id ⟨kept.final, kept.cleared, kept.saved, kept.retained⟩ rfl rfl

theorem Inv.flowStep (h : Inv maxActiveFlows s) (there : s.flows f = some flow) {e : Event}
    (expires : ∀ listeners, e = .expires f listeners → flow.status = .pending → flow.credentialPersisted = false →
      flow.stored = false) (own : e.flow = f) (taken : flowStep validUrl s f flow e = some t) :
    Inv maxActiveFlows t := by
  have kept := h.flows f flow there
  cases e with
  | callback g callback =>
    obtain ⟨_, taken⟩ := Option.ite_none_left_eq_some.mp taken
    cases taken
    exact (h.callback there validUrl callback).inv
  | expires g listeners =>
    obtain rfl : g = f := own
    obtain ⟨_, taken⟩ := Option.ite_none_right_eq_some.mp taken
    cases taken
    exact h.expire there validUrl listeners (expires listeners rfl)
  | forgets g =>
    obtain ⟨retained, taken⟩ := Option.ite_none_right_eq_some.mp taken
    cases taken
    exact h.forget there retained
  | loginStarts g =>
    obtain ⟨_, taken⟩ := Option.ite_none_right_eq_some.mp taken
    cases taken
    exact h.setLogin there .running
  | stores g =>
    obtain ⟨⟨_, unaborted⟩, taken⟩ := Option.ite_none_right_eq_some.mp taken
    cases taken
    refine h.set there rfl rfl id ⟨kept.final, kept.cleared, fun cancelled => ?_, kept.retained⟩ rfl rfl
    rw [(kept.saved cancelled).2] at unaborted
    cases unaborted
  | resolves g harnesses =>
    obtain ⟨_, taken⟩ := Option.ite_none_right_eq_some.mp taken
    cases taken
    exact h.setLogin there _
  | rejects g code =>
    obtain ⟨_, taken⟩ := Option.ite_none_right_eq_some.mp taken
    cases taken
    exact h.setLogin there _
  | persisted g =>
    simp only [PiOAuthFlow.flowStep] at taken
    split at taken
    · next harnesses _ =>
        cases taken
        unfold Flow.persisted
        split
        · next active => exact h.set there rfl rfl id (kept.active active rfl rfl rfl) rfl rfl
        · exact h.setLogin there .done
    · cases taken
  | restarted g restart =>
    obtain ⟨_, taken⟩ := Option.ite_none_right_eq_some.mp taken
    cases taken
    unfold State.restarted
    split
    · next active =>
        have noted : Inv maxActiveFlows (s.setFlow f { flow with restart := some restart, login := .done }) :=
          h.set there rfl rfl id (kept.active active rfl rfl rfl) rfl rfl
        exact (noted.finish validUrl f (nofun : Status.succeeded ≠ .pending) none false [] nofun nofun).inv
    · exact h.setLogin there .done
  | caught g =>
    simp only [PiOAuthFlow.flowStep] at taken
    split at taken
    · cases taken
      exact ((h.setLogin there .done).finish validUrl f (nofun : Status.failed ≠ .pending) _ false [] nofun nofun).inv
    · cases taken
  | _ => cases taken

end

theorem inv_step {validUrl : String → Bool} (s : State) (e : Event) (t : State) (h : Inv maxActiveFlows s)
    (unsaved : Unsaved s e) (taken : step validUrl maxActiveFlows s e = some t) : Inv maxActiveFlows t := by
  have others {e : Event} (expires : ∀ f listeners, e = .expires f listeners → ∀ flow, s.flows f = some flow → flow.status = .pending →
      flow.credentialPersisted = false → flow.stored = false)
      (taken : ∃ flow, s.flows e.flow = some flow ∧ flowStep validUrl s e.flow flow e = some t) : Inv maxActiveFlows t := by
    obtain ⟨flow, there, taken⟩ := taken
    exact h.flowStep there (fun listeners same => expires _ listeners same flow there) rfl taken
  cases e with
  | start provider harness => exact h.start taken
  | respond f requestId value => exact h.respond taken
  | cancel f listeners =>
    simp only [step, State.cancel] at taken
    split at taken
    · cases taken
    · next flow there =>
        obtain ⟨⟨_, unpersisted⟩, taken⟩ := Option.ite_none_right_eq_some.mp taken
        cases taken
        refine (h.finish validUrl f (by decide) _ true listeners (fun _ => rfl) fun _ other found active => ?_).inv
        rw [there] at found
        cases found
        exact unsaved flow there active unpersisted
  | shutdown listeners =>
    cases taken
    exact h.shutdown unsaved validUrl _
  | expires f listeners =>
    refine others (fun g other same flow there active unpersisted => ?_) (flowStep_of_eq_some taken)
    cases same
    exact unsaved flow there active unpersisted
  | callback f callback => exact others (e := .callback f callback) (fun _ _ same => by cases same) (flowStep_of_eq_some taken)
  | forgets f => exact others (e := .forgets f) (fun _ _ same => by cases same) (flowStep_of_eq_some taken)
  | loginStarts f => exact others (e := .loginStarts f) (fun _ _ same => by cases same) (flowStep_of_eq_some taken)
  | stores f => exact others (e := .stores f) (fun _ _ same => by cases same) (flowStep_of_eq_some taken)
  | resolves f harnesses => exact others (e := .resolves f harnesses) (fun _ _ same => by cases same) (flowStep_of_eq_some taken)
  | rejects f code => exact others (e := .rejects f code) (fun _ _ same => by cases same) (flowStep_of_eq_some taken)
  | persisted f => exact others (e := .persisted f) (fun _ _ same => by cases same) (flowStep_of_eq_some taken)
  | restarted f restart => exact others (e := .restarted f restart) (fun _ _ same => by cases same) (flowStep_of_eq_some taken)
  | caught f => exact others (e := .caught f) (fun _ _ same => by cases same) (flowStep_of_eq_some taken)

/-- In every run in which no flow is cancelled, expires or is shut down once its credential is stored (and, for the
first two, before that is noted), the limits, the ends, the prompts and the credentials of the flows are as they should be. -/
theorem flows_kept (validUrl : String → Bool) (maxActiveFlows : Nat) (events : List Event) (s : State)
    (run : Run (step validUrl maxActiveFlows) Unsaved {} events s) : FlowsKept maxActiveFlows s := by
  have preserved : ∀ s e t, Inv maxActiveFlows s → Unsaved s e → step validUrl maxActiveFlows s e = some t → Inv maxActiveFlows t :=
    inv_step
  exact (run.invariant preserved .init).kept

def unsaved (s : State) : Event → Bool
  | .cancel f _ | .expires f _ => (s.flows f).all fun flow =>
    decide (flow.status ≠ .pending) || flow.credentialPersisted || !flow.stored
  | .shutdown _ => false
  | _ => true

theorem unsaved_sound (s : State) (e : Event) (passed : unsaved s e = true) : Unsaved s e := by
  have tested (f : Nat) (passed : ((s.flows f).all fun flow =>
        decide (flow.status ≠ .pending) || flow.credentialPersisted || !flow.stored) = true) :
      ∀ flow, s.flows f = some flow → flow.status = .pending → flow.credentialPersisted = false → flow.stored = false := by
    intro flow there active unpersisted
    have held := (Option.all_eq_true _ _).mp passed flow there
    simpa [active, unpersisted] using held
  cases e with
  | cancel f listeners => exact tested f passed
  | expires f listeners => exact tested f passed
  | shutdown listeners => cases passed
  | _ => trivial

def twoLogins : List Event :=
  [.start (some "anthropic") none, .start (some "google") (some "gemini"), .loginStarts 0, .loginStarts 1,
    .callback 0 (.onAuth (some "https://auth.example") none), .callback 0 (.onPrompt (some "code") none),
    .cancel 1 [.onManualCodeInput], .respond 0 0 (some "1234"), .stores 0, .resolves 0 ["pi"], .callback 1 (.onProgress (some "late")),
    .persisted 0, .restarted 0 .restarted, .callback 0 (.onPrompt (some "again") none)]

theorem flows_kept_twoLogins : ∃ s, Run (step (fun _ => true) 2) Unsaved {} twoLogins s ∧
      ((s.flows 0).map Flow.status, (s.flows 1).map Flow.status, s.settled) = (some .succeeded, some .cancelled, [1, 0]) ∧
      FlowsKept 2 s := by
  have checked : ((execIf (step (fun _ => true) 2) unsaved {} twoLogins).any fun s =>
      decide (((s.flows 0).map Flow.status, (s.flows 1).map Flow.status, s.settled) =
        (some .succeeded, some .cancelled, [1, 0]))) = true := by decide +kernel
  obtain ⟨s, ran, ended⟩ := (Option.any_eq_true _ _).mp checked
  have run := run_of_execIf unsaved_sound ran
  exact ⟨s, run, of_decide_eq_true ended, flows_kept _ 2 _ s run⟩

/-- Whether flow `f` has ended cancelled although its login has stored its credential. -/
def lost (f : Nat) (s : State) : Bool := (s.flows f).any fun flow => decide (flow.status = .cancelled) && flow.stored

theorem not_flowsKept (lost : lost f s = true) : ¬FlowsKept maxActiveFlows s := by
  intro kept
  obtain ⟨flow, there, held⟩ := (Option.any_eq_true _ _).mp lost
  obtain ⟨cancelled, stored⟩ := Bool.and_eq_true_iff.mp held
  rw [kept.saved f flow there (of_decide_eq_true cancelled)] at stored
  cases stored

theorem exists_not_flowsKept {events : List Event} (lost : ((exec (step (fun _ => true) 16) {} events).any (lost 0)) = true) :
    ∃ s, Run (step (fun _ => true) 16) Free {} events s ∧ ¬FlowsKept 16 s := by
  obtain ⟨s, ran, lost⟩ := (Option.any_eq_true _ _).mp lost
  exact ⟨s, run_of_exec ran, not_flowsKept lost⟩

/-- A flow is cancelled after its login has stored the credential and before the service has noted it. -/
theorem stored_credential_cancelled :
    ∃ s, Run (step (fun _ => true) 16) Free {} [.start (some "anthropic") none, .loginStarts 0, .stores 0, .cancel 0 []] s ∧
      ¬FlowsKept 16 s :=
  exists_not_flowsKept (by decide +kernel)

end PiOAuthFlow
