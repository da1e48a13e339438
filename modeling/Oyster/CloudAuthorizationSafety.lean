import Oyster.CloudAuthorization

/-! What holds of the authorization flows in every run: which steps keep an end that a flow has
come to, and which hand a credential to the store in time. -/
namespace CloudAuthorization
open Interleaving

/-- A state value is consumed at most once, no credential is saved and no success reported for a flow
that had been cancelled or whose time was over when the exchange ended. -/
structure AuthorizationLaw (s : State) : Prop where
  consumed : s.consumed.Nodup
  saves : ∀ save ∈ s.saves, save.2 = false
  reports : ∀ report ∈ s.reports, report.1.status = .succeeded → report.2 = false

def Final (before after : List Flow) : Prop :=
  ∀ (o : Nat) (flow : Flow), before[o]? = some flow → ∃ flow', after[o]? = some flow' ∧
    (flow.status ≠ .authorizing → flow'.status = flow.status)

def Sweepable (s : State) : Prop :=
  ∀ e ∈ s.flows.entries, ∀ flow, s.objects[e.2]? = some flow → flow.due s.now = true →
    flow.status = .authorizing ∨ flow.status = .expired

/-- Where the service sweeps, no flow that has succeeded, failed or been cancelled is due; an
exchange ends, and the store answers, while the flow goes on. -/
def EndsInTime (s : State) : Event → Prop
  | .start .. | .status _ | .cancel _ | .callback .. => Sweepable s
  | .exchanged k result => ∀ (o : Nat) (flow : Flow), s.callbacks k = some (.exchanging o) → s.objects[o]? = some flow →
      flow.status = .authorizing ∧ (result.isSome → flow.due s.now = false)
  | .saved k _ => ∀ (o : Nat) (credential : Credential) (late : Bool) (flow : Flow),
      s.callbacks k = some (.saving o credential late) → s.objects[o]? = some flow → flow.status = .authorizing
  | _ => True

structure Inv (s : State) : Prop where
  indexed : ∀ e ∈ s.stateIndex.entries, e.1 ∉ s.consumed
  known : s.consumed ⊆ s.objects.map Flow.state
  consumed : s.consumed.Nodup
  saving : ∀ (k o : Nat) (credential : Credential) (late : Bool),
    s.callbacks k = some (.saving o credential late) → late = false
  saves : ∀ save ∈ s.saves, save.2 = false
  reports : ∀ report ∈ s.reports, report.1.status = .succeeded → report.2 = false

variable {s : State}

theorem Inv.law (h : Inv s) : AuthorizationLaw s := ⟨h.consumed, h.saves, h.reports⟩

theorem Final.refl (flows : List Flow) : Final flows flows := fun _ flow found => ⟨flow, found, fun _ => rfl⟩

theorem Final.trans {a b c : List Flow} (h : Final a b) (h' : Final b c) : Final a c := by
  intro o flow found
  obtain ⟨flow', found', kept⟩ := h o flow found
  obtain ⟨flow'', found'', kept'⟩ := h' o flow' found'
  refine ⟨flow'', found'', fun ended => ?_⟩
  rw [← kept ended]
  exact kept' (by rwa [kept ended])

variable {o : Nat} {f : Flow → Flow} {flows : List Flow}

theorem Final.modify
    (kept : ∀ flow, flows[o]? = some flow → flow.status ≠ .authorizing → (f flow).status = flow.status) :
    Final flows (flows.modify o f) := by
  intro p flow found
  refine ⟨if o = p then f flow else flow, ?_, ?_⟩
  · rw [List.getElem?_modify, found]
    split <;> rfl
  · intro ended
    split
    · next same =>
        subst same
        exact kept flow found ended
    · rfl

theorem Final.append (flows more : List Flow) : Final flows (flows ++ more) := by
  intro o flow found
  have inside := (List.getElem?_eq_some_iff.mp found).1
  exact ⟨flow, by rwa [List.getElem?_append_left inside], fun _ => rfl⟩

theorem states_modify (same : ∀ flow, (f flow).state = flow.state) :
    (flows.modify o f).map Flow.state = flows.map Flow.state := by
  apply List.ext_getElem?
  intro p
  simp only [List.getElem?_map, List.getElem?_modify]
  cases flows[p]? with
  | none => rfl
  | some flow =>
    simp only [Option.map_eq_map, Option.map_some]
    split
    · rw [same]
    · rfl

theorem expire_cases (s : State) (e : String × Nat) :
    expire s e = s ∨ ∃ flow, s.objects[e.2]? = some flow ∧ flow.due s.now = true ∧ ∃ flows, expire s e = { s with
      objects := s.objects.modify e.2 Flow.expire
      stateIndex := s.stateIndex.delete flow.state
      flows } := by
  unfold expire
  split
  · exact .inl rfl
  · next flow found =>
      split
      · next due =>
          refine .inr ⟨flow, found, due, ?_⟩
          split
          · exact ⟨_, rfl⟩
          · exact ⟨_, rfl⟩
      · exact .inl rfl

theorem states_expire (s : State) (e : String × Nat) : (expire s e).objects.map Flow.state = s.objects.map Flow.state := by
  rcases expire_cases s e with same | ⟨flow, _, _, flows, same⟩
  · rw [same]
  · rw [same]
    exact states_modify fun _ => rfl

theorem states_sweep (s : State) : (sweep s).objects.map Flow.state = s.objects.map Flow.state :=
  List.foldlRecOn (motive := fun t => t.objects.map Flow.state = s.objects.map Flow.state) s.flows.entries expire rfl
    fun t same e _ => (states_expire t e).trans same

theorem Inv.expire (h : Inv s) (e : String × Nat) : Inv (expire s e) := by
  have known := h.known
  rw [← states_expire s e] at known
  rcases expire_cases s e with same | ⟨flow, _, _, flows, same⟩
  · rw [same]
    exact h
  · rw [same] at known ⊢
    exact ⟨fun entry inside => h.indexed entry (List.mem_filter.mp inside).1, known, h.consumed, h.saving, h.saves, h.reports⟩

theorem Inv.sweep (h : Inv s) : Inv (sweep s) :=
  List.foldlRecOn s.flows.entries CloudAuthorization.expire h fun _ kept e _ => kept.expire e

variable {e : String × Nat}

theorem final_expire
    (admitted : ∀ flow, s.objects[e.2]? = some flow → flow.due s.now = true → flow.status = .authorizing ∨ flow.status = .expired)
    : Final s.objects (expire s e).objects := by
  rcases expire_cases s e with same | ⟨flow, found, due, flows, same⟩
  · rw [same]
    exact .refl _
  · rw [same]
    refine .modify fun other there ended => ?_
    cases found.symm.trans there
    exact ((admitted flow found due).resolve_left ended).symm

theorem expire_admits {now : Nat}
    (admitted : ∀ flow, s.objects[o]? = some flow → flow.due now = true → flow.status = .authorizing ∨ flow.status = .expired)
    (flow : Flow) (found : (expire s e).objects[o]? = some flow) (due : flow.due now = true) :
    flow.status = .authorizing ∨ flow.status = .expired := by
  rcases expire_cases s e with same | ⟨_, _, _, flows, same⟩
  · rw [same] at found
    exact admitted flow found due
  · rw [same] at found
    simp only [List.getElem?_modify, Option.map_eq_map, Option.map_eq_some_iff] at found
    obtain ⟨before, there, rfl⟩ := found
    split at due
    · next own =>
        rw [if_pos own]
        exact .inr rfl
    · next other =>
        rw [if_neg other]
        exact admitted before there due

theorem expire_now (s : State) (e : String × Nat) : (expire s e).now = s.now := by
  rcases expire_cases s e with same | ⟨_, _, _, flows, same⟩ <;> rw [same]

theorem final_foldl (entries : List (String × Nat)) (s : State)
    (admitted : ∀ e ∈ entries, ∀ flow, s.objects[e.2]? = some flow → flow.due s.now = true →
      flow.status = .authorizing ∨ flow.status = .expired) : Final s.objects (entries.foldl expire s).objects := by
  induction entries generalizing s with
  | nil => exact .refl _
  | cons e entries ih =>
    refine (final_expire (admitted e List.mem_cons_self)).trans (ih _ fun entry inside flow found due => ?_)
    rw [expire_now] at due
    exact expire_admits (admitted entry (List.mem_cons_of_mem e inside)) flow found due

theorem final_sweep (h : Sweepable s) : Final s.objects (sweep s).objects :=
  final_foldl s.flows.entries s h

theorem Inv.objects (h : Inv s) {objects : List Flow} (same : objects.map Flow.state = s.objects.map Flow.state) :
    Inv { s with objects } := by
  refine ⟨h.indexed, ?_, h.consumed, h.saving, h.saves, h.reports⟩
  rw [same]
  exact h.known

theorem Inv.report (h : Inv s) {late : Bool} (same : ∀ flow, (f flow).state = flow.state)
    (inTime : ∀ flow, (f flow).status = .succeeded → late = false) : Inv (s.report o late f) := by
  have kept := h.objects (states_modify (o := o) same)
  refine ⟨kept.indexed, kept.known, kept.consumed, kept.saving, kept.saves, fun report inside succeeded => ?_⟩
  rcases List.mem_append.mp inside with old | new
  · exact h.reports report old succeeded
  · obtain ⟨flow, _, rfl⟩ := Option.map_eq_some_iff.mp (Option.mem_toList.mp new)
    exact inTime flow succeeded

theorem Inv.dropped (h : Inv s) (k : Nat) : Inv { s with callbacks := s.callbacks.drop k } :=
  ⟨h.indexed, h.known, h.consumed, fun j o credential late there => h.saving j o credential late (Calls.drop_eq_some there).2,
    h.saves, h.reports⟩

theorem cancel_status {flow : Flow} (ended : flow.status ≠ .authorizing) : flow.cancel.status = flow.status := if_neg ended

section Steps
variable {configured : String → Bool} {authorizationUrl : String → String → String → String} {s : State}

variable {provider : String}

theorem Inv.start (h : Inv s) {id state verifier : String} (fresh : s.fresh id state = true) :
    Inv (start configured authorizationUrl s provider id state verifier).2 := by
  have swept := h.sweep
  unfold CloudAuthorization.start
  dsimp only
  split
  · exact swept
  · have unused : state ∉ (CloudAuthorization.sweep s).consumed := by
      intro used
      have known := swept.known used
      rw [states_sweep] at known
      obtain ⟨flow, there, rfl⟩ := List.mem_map.mp known
      have distinct := List.all_eq_true.mp fresh flow there
      simp at distinct
    refine ⟨fun entry inside => ?_, ?_, swept.consumed, swept.saving, swept.saves, swept.reports⟩
    · rcases OrderedMap.mem_set.mp inside with ⟨same, _⟩ | ⟨_, old⟩
      · rwa [same]
      · exact swept.indexed entry old
    · rw [List.map_append]
      exact fun consumed inside => List.mem_append_left _ (swept.known inside)

theorem Inv.cancel (h : Inv s) (flowId : String) : Inv (cancel s flowId).2 := by
  have swept := h.sweep
  unfold CloudAuthorization.cancel
  dsimp only
  split
  · exact swept
  · next o flow _ =>
      have same : ((CloudAuthorization.sweep s).objects.modify o Flow.cancel).map Flow.state =
          (CloudAuthorization.sweep s).objects.map Flow.state := states_modify fun _ => rfl
      have kept := swept.objects same
      exact ⟨fun entry inside => kept.indexed entry (List.mem_filter.mp inside).1, kept.known, kept.consumed, kept.saving,
        kept.saves, kept.reports⟩

variable {o : Nat} {flow : Flow}

theorem consumes_spec {parameters : Parameters} (taken : s.consumes provider parameters = .ok (o, flow)) :
    s.objects[o]? = some flow ∧ flow.status = .authorizing ∧ ∃ id, (flow.state, id) ∈ s.stateIndex := by
  unfold State.consumes at taken
  cases presented : requiredString parameters.state "OAuth state" with
  | error _ =>
    rw [presented] at taken
    cases taken
  | ok state =>
    rw [presented] at taken
    dsimp only [bind, Except.bind] at taken
    split at taken
    · cases taken
    · next p other found =>
        split at taken
        · next same =>
            cases taken
            obtain ⟨id, indexed, found⟩ := Option.bind_eq_some_iff.mp found
            obtain ⟨q, _, found⟩ := Option.bind_eq_some_iff.mp found
            obtain ⟨there, at_, pair⟩ := Option.map_eq_some_iff.mp found
            cases pair
            exact ⟨at_, same.2.2, id, same.1 ▸ OrderedMap.mem_of_get indexed⟩
        · cases taken

theorem Inv.consume (h : Inv s) (found : s.objects[o]? = some flow) (indexed : ∃ id, (flow.state, id) ∈ s.stateIndex) :
    Inv { s with
      stateIndex := s.stateIndex.delete flow.state
      objects := s.objects.modify o Flow.consume
      consumed := s.consumed ++ [flow.state] } := by
  obtain ⟨id, indexed⟩ := indexed
  have unused : flow.state ∉ s.consumed := h.indexed _ indexed
  have states : (s.objects.modify o Flow.consume).map Flow.state = s.objects.map Flow.state := states_modify fun _ => rfl
  refine ⟨fun entry inside => ?_, ?_, ?_, h.saving, h.saves, h.reports⟩
  · obtain ⟨old, other⟩ := List.mem_filter.mp inside
    rw [List.mem_append, List.mem_singleton, not_or]
    exact ⟨h.indexed entry old, of_decide_eq_true other⟩
  · refine List.append_subset.mpr ⟨?_, ?_⟩
    · rw [states]
      exact h.known
    · rw [states]
      rintro state inside
      obtain rfl := List.mem_singleton.mp inside
      exact List.mem_map_of_mem (List.mem_of_getElem? found)
  · rw [List.nodup_append]
    refine ⟨h.consumed, List.nodup_singleton _, fun state inside other new same => ?_⟩
    obtain rfl := List.mem_singleton.mp new
    exact unused (same ▸ inside)

theorem Inv.await (h : Inv s) (o : Nat) : Inv { s with
    callbacks := s.callbacks.put s.nextCallback (.exchanging o)
    nextCallback := s.nextCallback + 1 } := by
  refine ⟨h.indexed, h.known, h.consumed, fun k p credential late there => ?_, h.saves, h.reports⟩
  rcases Calls.put_eq_some there with ⟨_, absurd⟩ | ⟨_, old⟩
  · cases absurd
  · exact h.saving k p credential late old

theorem Inv.callback (h : Inv s) (provider : String) (parameters : Parameters) :
    Inv (callback configured s provider parameters).2 := by
  have swept := h.sweep
  unfold CloudAuthorization.callback
  dsimp only
  split
  · exact swept
  · next o flow taken =>
      obtain ⟨found, _, indexed⟩ := consumes_spec taken
      have kept := swept.consume found indexed
      split
      · exact kept.report (fun _ => rfl) fun _ _ => rfl
      · split
        · exact kept.await o
        · exact kept.report (fun _ => rfl) fun _ _ => rfl

variable {k : Nat}

theorem Inv.exchanged (h : Inv s) {result : Option Credential}
    (inTime : result.isSome → (s.objects[o]?).any (fun flow => flow.over s.now) = false) :
    Inv (exchanged s k o result) := by
  unfold CloudAuthorization.exchanged
  cases result with
  | none => exact (h.dropped k).report (fun _ => rfl) fun _ absurd => nomatch absurd
  | some credential =>
    rw [inTime rfl]
    refine ⟨h.indexed, h.known, h.consumed, fun j p other late there => ?_, fun save inside => ?_, h.reports⟩
    · rcases Calls.put_eq_some there with ⟨_, same⟩ | ⟨_, old⟩
      · cases same
        rfl
      · exact h.saving j p other late old
    · rcases List.mem_append.mp inside with old | new
      · exact h.saves save old
      · rw [List.mem_singleton.mp new]

theorem Inv.saved (h : Inv s) {credential : Credential} {late stored : Bool}
    (saving : s.callbacks k = some (.saving o credential late)) : Inv (saved s k o credential late stored) := by
  refine (h.dropped k).report (fun flow => ?_) fun _ _ => h.saving k o credential late saving
  cases stored <;> rfl

theorem states_close (entries : List (String × Nat)) (flows : List Flow) :
    (entries.foldl (fun objects e => objects.modify e.2 Flow.erase) flows).map Flow.state = flows.map Flow.state := by
  induction entries generalizing flows with
  | nil => rfl
  | cons e entries ih =>
    rw [List.foldl_cons, ih]
    exact states_modify fun _ => rfl

theorem Inv.close (h : Inv s) : Inv (close s) := by
  have kept := h.objects (states_close s.flows.entries s.objects)
  exact ⟨fun _ absurd => (nomatch absurd), kept.known, kept.consumed, kept.saving, kept.saves, kept.reports⟩

theorem final_close (entries : List (String × Nat)) (flows : List Flow) :
    Final flows (entries.foldl (fun objects e => objects.modify e.2 Flow.erase) flows) := by
  induction entries generalizing flows with
  | nil => exact .refl _
  | cons e entries ih =>
    have erased : Final flows (flows.modify e.2 Flow.erase) := .modify fun _ _ _ => rfl
    exact erased.trans (ih _)

theorem final_callback (h : Sweepable s) (provider : String) (parameters : Parameters) :
    Final s.objects (callback configured s provider parameters).2.objects := by
  have swept := final_sweep h
  unfold callback
  dsimp only
  split
  · exact swept
  · next o flow taken =>
      obtain ⟨found, authorizing, _⟩ := consumes_spec taken
      have consumed : Final (sweep s).objects ((sweep s).objects.modify o Flow.consume) := .modify fun _ _ _ => rfl
      have ends (f : Flow → Flow) : Final (sweep s).objects (((sweep s).objects.modify o Flow.consume).modify o f) := by
        refine consumed.trans (.modify fun other there ended => ?_)
        rw [List.getElem?_modify_eq, found] at there
        cases there
        exact absurd authorizing ended
      split
      · exact swept.trans (ends _)
      · split
        · exact swept.trans consumed
        · exact swept.trans (ends _)

theorem step_final (s : State) (e : Event) (t : State) (h : Inv s) (permitted : EndsInTime s e)
    (taken : step configured authorizationUrl s e = some t) : Inv t ∧ Final s.objects t.objects := by
  cases e with
  | tick ms =>
    cases taken
    exact ⟨⟨h.indexed, h.known, h.consumed, h.saving, h.saves, h.reports⟩, .refl _⟩
  | start provider id state verifier =>
    obtain ⟨fresh, taken⟩ := Option.ite_none_right_eq_some.mp taken
    cases taken
    refine ⟨h.start fresh, (final_sweep permitted).trans ?_⟩
    unfold start
    dsimp only
    split
    · exact .refl _
    · exact Final.append (sweep s).objects _
  | status flowId =>
    cases taken
    exact ⟨h.sweep, final_sweep permitted⟩
  | cancel flowId =>
    cases taken
    refine ⟨h.cancel flowId, (final_sweep permitted).trans ?_⟩
    unfold cancel
    dsimp only
    split
    · exact .refl _
    · exact .modify fun _ _ ended => cancel_status ended
  | callback provider parameters =>
    cases taken
    exact ⟨h.callback provider parameters, final_callback permitted provider parameters⟩
  | exchanged k result =>
    simp only [step] at taken
    split at taken
    · next o exchanging =>
        cases taken
        have goesOn := permitted o
        refine ⟨h.exchanged fun some? => ?_, ?_⟩
        · cases found : s.objects[o]? with
          | none => rfl
          | some flow =>
            obtain ⟨authorizing, inTime⟩ := goesOn flow exchanging found
            simp [Flow.over, authorizing, inTime some?]
        · cases result with
          | none => exact .modify fun flow found ended => absurd (goesOn flow exchanging found).1 ended
          | some credential => exact .refl _
    · cases taken
  | saved k stored =>
    simp only [step] at taken
    split at taken
    · next o credential late saving =>
        cases taken
        exact ⟨h.saved saving, .modify fun flow found ended => absurd (permitted o credential late flow saving found) ended⟩
    · cases taken
  | close =>
    cases taken
    exact ⟨h.close, final_close s.flows.entries s.objects⟩

end Steps

theorem Inv.init : Inv {} :=
  ⟨fun _ absurd => (nomatch absurd), List.nil_subset _, List.nodup_nil, fun _ _ _ _ absurd => (nomatch absurd),
    fun _ absurd => (nomatch absurd), fun _ absurd => nomatch absurd⟩

/-- Wherever a run leads the law holds, and from there on flows that have ended keep their status. -/
theorem flows_end_once (configured : String → Bool) (authorizationUrl : String → String → String → String)
    (events later : List Event) (s t : State) (run : Run (step configured authorizationUrl) EndsInTime {} events s)
    (rest : Run (step configured authorizationUrl) EndsInTime s later t) :
    AuthorizationLaw s ∧ Final s.objects t.objects := by
  have reached : Inv s := run.invariant (fun s e t h permitted taken => (step_final s e t h permitted taken).1) .init
  refine ⟨reached.law, ?_⟩
  have kept := rest.relates (R := fun s t : State => Final s.objects t.objects) (fun _ => .refl _) (fun _ _ _ => .trans) step_final
  exact kept reached

/-- `EndsInTime`, as a test. -/
def endsInTime (s : State) : Event → Bool
  | .start .. | .status _ | .cancel _ | .callback .. =>
    s.flows.entries.all fun e => (s.objects[e.2]?).all fun flow =>
      !flow.due s.now || decide (flow.status = .authorizing) || decide (flow.status = .expired)
  | .exchanged k result =>
    match s.callbacks k with
    | some (.exchanging o) => (s.objects[o]?).all fun flow =>
      decide (flow.status = .authorizing) && (!result.isSome || !flow.due s.now)
    | _ => true
  | .saved k _ =>
    match s.callbacks k with
    | some (.saving o _ _) => (s.objects[o]?).all fun flow => decide (flow.status = .authorizing)
    | _ => true
  | _ => true

theorem sweepable_of_all (passed : (s.flows.entries.all fun e => (s.objects[e.2]?).all fun flow =>
    !flow.due s.now || decide (flow.status = .authorizing) || decide (flow.status = .expired)) = true) :
    Sweepable s := by
  intro e inside flow found due
  have admitted := List.all_eq_true.mp passed e inside
  rw [found, Option.all_some, due] at admitted
  simpa using admitted

theorem endsInTime_sound (s : State) (e : Event) (passed : endsInTime s e = true) : EndsInTime s e := by
  cases e with
  | tick ms => trivial
  | close => trivial
  | exchanged k result =>
    intro o flow exchanging found
    simp only [endsInTime, exchanging, found, Option.all_some, Bool.and_eq_true, decide_eq_true_eq] at passed
    refine ⟨passed.1, fun some? => ?_⟩
    simpa [some?] using passed.2
  | saved k stored =>
    intro o credential late flow saving found
    simpa [endsInTime, saving, found] using passed
  | _ => exact sweepable_of_all passed

def browser (provider state verifier : String) : String := s!"{provider}?state={state}&code_challenge={verifier}"

def connecting : List Event :=
  [.start "gcp" "flow" "state" "verifier", .tick 5, .callback "gcp" { state := some "state", code := some "code" }]

/-- The flow of `connecting` succeeds, and stays so. -/
theorem flows_end_once_connected : ∃ s t, Run (step (fun _ => true) browser) EndsInTime {}
        (connecting ++ [.exchanged 0 (some { account := some "me" }), .saved 0 true]) s ∧
      Run (step (fun _ => true) browser) EndsInTime s [.cancel "flow", .status "flow"] t ∧
      s.objects.map Flow.status = [.succeeded] ∧ AuthorizationLaw s ∧ Final s.objects t.objects := by
  have checked : ((execIf (step (fun _ => true) browser) endsInTime {}
        (connecting ++ [.exchanged 0 (some { account := some "me" }), .saved 0 true])).any fun s =>
      decide (s.objects.map Flow.status = [.succeeded]) &&
        (execIf (step (fun _ => true) browser) endsInTime s [.cancel "flow", .status "flow"]).isSome) = true := by
    decide +kernel
  obtain ⟨s, ran, found⟩ := (Option.any_eq_true _ _).mp checked
  obtain ⟨succeeded, goesOn⟩ := (Bool.and_eq_true _ _).mp found
  obtain ⟨t, rest⟩ := Option.isSome_iff_exists.mp goesOn
  have run := run_of_execIf endsInTime_sound ran
  have later := run_of_execIf endsInTime_sound rest
  obtain ⟨law, final⟩ := flows_end_once _ _ _ _ s t run later
  exact ⟨s, t, run, later, of_decide_eq_true succeeded, law, final⟩

theorem not_final {before after : List Flow} {first second : Flow} (was : before.head? = some first)
    (is : after.head? = some second) (ended : first.status ≠ .authorizing) (changed : second.status ≠ first.status) :
    ¬Final before after := by
  intro final
  rw [List.head?_eq_getElem?] at was is
  obtain ⟨flow, found, kept⟩ := final 0 first was
  cases is.symm.trans found
  exact changed (kept ended)

/-- A flow that is cancelled during the exchange stores its credential and succeeds. -/
theorem cancelled_flow_succeeds :
    ∃ s t, Run (step (fun _ => true) browser) Free {} (connecting ++ [.cancel "flow"]) s ∧
      Run (step (fun _ => true) browser) Free s [.exchanged 0 (some {}), .saved 0 true] t ∧
      ¬AuthorizationLaw t ∧ ¬Final s.objects t.objects := by
  have checked : ((exec (step (fun _ => true) browser) {} (connecting ++ [.cancel "flow"])).any fun s =>
      (exec (step (fun _ => true) browser) s [.exchanged 0 (some {}), .saved 0 true]).any fun t =>
        decide (s.objects.head?.map Flow.status = some .cancelled) &&
          (decide (t.objects.head?.map Flow.status = some .succeeded) && decide (t.saves = [(0, true)]))) = true := by
    decide +kernel
  obtain ⟨s, ran, found⟩ := (Option.any_eq_true _ _).mp checked
  obtain ⟨t, rest, found⟩ := (Option.any_eq_true _ _).mp found
  obtain ⟨was, found⟩ := (Bool.and_eq_true _ _).mp found
  obtain ⟨is, saves⟩ := (Bool.and_eq_true _ _).mp found
  obtain ⟨first, atFirst, was⟩ := Option.map_eq_some_iff.mp (of_decide_eq_true was)
  obtain ⟨second, atSecond, is⟩ := Option.map_eq_some_iff.mp (of_decide_eq_true is)
  refine ⟨s, t, run_of_exec ran, run_of_exec rest, fun law => ?_, not_final atFirst atSecond ?_ ?_⟩
  · have late := law.saves (0, true)
    rw [of_decide_eq_true saves] at late
    exact absurd (late (List.mem_singleton_self _)) (by decide)
  · rw [was]
    decide
  · rw [was, is]
    decide

end CloudAuthorization
