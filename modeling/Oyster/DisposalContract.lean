import Oyster.DisposableScope
import Oyster.History
import Mathlib.Data.List.Sort

/-! The documented contract of disposal, as a condition on the history of a scope, and the runs that keep it. -/
namespace DisposableScope
open Interleaving History

def Permitted : Event → List Event → Prop
  | .registered _, before | .ran, before => ∀ run, .began run ∉ before
  -- runs do not overlap
  | .began _, before => ∀ run, .began run ∈ before → ∃ ok, .ended run ok ∈ before
  -- newest first, each once in a run, none that has succeeded, and none is passed over
  | .called run id, before =>
    .registered id ∈ before ∧ .succeeded id ∉ before ∧ .called run id ∉ before ∧ (∀ ok, .ended run ok ∉ before) ∧
      ∀ later, id < later → .registered later ∈ before → .succeeded later ∈ before ∨ .called run later ∈ before
  | .succeeded id, before => ∃ run, .called run id ∈ before
  | .failed run id, before => .called run id ∈ before
  | .ended run ok, before =>
    (∀ id, .registered id ∈ before → .succeeded id ∈ before ∨ ok = false ∧ .failed run id ∈ before) ∧
      (ok = false → ∃ id, .failed run id ∈ before)
  | .rejected run, before => .ended run false ∈ before
  -- after a failure `dispose` makes a new run
  | .disposed run, before => .began run ∈ before ∧ .rejected run ∉ before

/-- `dispose` is not called by a cleanup that is itself called before the `dispose` that began its run has returned. -/
def Outside (s : State) : Action → Prop
  | .dispose => ∀ frame ∈ s.frames, frame.initial = false
  | _ => True

/-- Run `run` is about to go on with the cleanups below `n`. -/
structure Between (cleanups : List Nat) (log : List Event) (run errors n : Nat) : Prop where
  within : n ≤ cleanups.length
  done : ∀ k id, n ≤ k → cleanups[k]? = some id → .called run id ∈ log ∧ .failed run id ∈ log
  ahead : ∀ later, .called run later ∈ log → ∀ k id, k < n → cleanups[k]? = some id → id < later
  clean : errors = 0 → ∀ id, .failed run id ∉ log
  dirty : errors ≠ 0 → ∃ id, .failed run id ∈ log
  unended : ∀ ok, .ended run ok ∉ log

/-- Run `run` is at a cleanup. -/
structure At (cleanups : List Nat) (log : List Event) (run : Nat) (d : Disposal) : Prop where
  there : cleanups[d.index]? = some d.cleanup
  called : .called run d.cleanup ∈ log
  done : ∀ k id, d.index < k → cleanups[k]? = some id → .called run id ∈ log ∧ .failed run id ∈ log
  ahead : ∀ later, .called run later ∈ log → ∀ k id, k < d.index → cleanups[k]? = some id → id < later
  clean : d.errors = 0 → ∀ id, .failed run id ∉ log
  dirty : d.errors ≠ 0 → ∃ id, .failed run id ∈ log
  unended : ∀ ok, .ended run ok ∉ log

structure Stack (cleanups : List Nat) (registered : Nat) (log : List Event) : Prop where
  fits : Fits Permitted log
  sorted : cleanups.Pairwise (· < ·)
  registered : ∀ id, .registered id ∈ log ↔ id < registered
  pending : ∀ id, id ∈ cleanups ↔ .registered id ∈ log ∧ .succeeded id ∉ log

def Event.run? : Event → Option Nat
  | .began run | .called run _ | .failed run _ | .ended run _ | .rejected run | .disposed run => some run
  | .registered _ | .ran | .succeeded _ => none

/-- The runs before the current one are over and their failures reported. -/
structure Begun (earlier : List Disposal) (log : List Event) : Prop where
  begun : ∀ run, .began run ∈ log ↔ run ≤ earlier.length
  numbered : ∀ e ∈ log, ∀ run, e.run? = some run → run ≤ earlier.length
  reported : ∀ (run : Nat) d, earlier[run]? = some d → d.phase = .reported ∧ ∃ ok, .ended run ok ∈ log

/-- What the last run of a scope is doing. -/
inductive Current (s : State) (earlier : List Disposal) (d : Disposal) : Prop
  | calling (initial : Bool) (phase : d.phase = .calling) (frames : s.frames = [⟨earlier.length, initial⟩])
      (disposal : s.disposal = if initial then none else some earlier.length)
      (place : At s.cleanups s.log earlier.length d)
  | awaiting (phase : d.phase = .awaiting) (frames : s.frames = []) (disposal : s.disposal = some earlier.length)
      (place : At s.cleanups s.log earlier.length d)
  | settled (phase : d.phase = .settled) (frames : s.frames = []) (disposal : s.disposal = some earlier.length)
      (ended : .ended earlier.length (decide (d.errors = 0)) ∈ s.log) (unreported : .rejected earlier.length ∉ s.log)
  | reported (phase : d.phase = .reported) (frames : s.frames = []) (disposal : s.disposal = none)
      (ended : .ended earlier.length false ∈ s.log)

/-- The states of a scope whose disposals do not start inside one another. -/
inductive Inv (s : State) : Prop
  | fresh (stack : Stack s.cleanups s.registered s.log) (started : s.started = false) (runs : s.runs = [])
      (frames : s.frames = []) (disposal : s.disposal = none) (quiet : ∀ e ∈ s.log, e.run? = none)
  | begun (earlier : List Disposal) (d : Disposal) (stack : Stack s.cleanups s.registered s.log) (started : s.started = true)
      (runs : s.runs = earlier ++ [d]) (begun : Begun earlier s.log) (current : Current s earlier d)

variable {cleanups : List Nat}

theorem index_lt (sorted : cleanups.Pairwise (· < ·)) {i j a b : Nat} (at_i : cleanups[i]? = some a)
    (at_j : cleanups[j]? = some b) (less : a < b) : i < j := by
  obtain ⟨hi, rfl⟩ := List.getElem?_eq_some_iff.mp at_i
  obtain ⟨hj, rfl⟩ := List.getElem?_eq_some_iff.mp at_j
  rcases Nat.lt_trichotomy i j with before | rfl | after
  · exact before
  · exact absurd less (Nat.lt_irrefl _)
  · exact absurd (List.pairwise_iff_getElem.mp sorted j i hj hi after) (Nat.lt_asymm less)

section Notes
variable {cleanups : List Nat} {registered run : Nat} {log : List Event} {earlier : List Disposal} {d : Disposal} {e : Event}

theorem Stack.note (stack : Stack cleanups registered log) (permitted : Permitted e log)
    (notRegistered : ∀ id, .registered id ≠ e) (notSucceeded : ∀ id, .succeeded id ≠ e) :
    Stack cleanups registered (e :: log) where
  fits := stack.fits.cons permitted
  sorted := stack.sorted
  registered := by
    intro id
    rw [List.mem_cons, stack.registered]
    exact or_iff_right (notRegistered id)
  pending := by
    intro id
    rw [stack.pending, List.mem_cons, List.mem_cons, or_iff_right (notRegistered id), or_iff_right (notSucceeded id)]

theorem Begun.note (begun : Begun earlier log) (notBegan : ∀ run, .began run ≠ e)
    (numbered : ∀ run, e.run? = some run → run ≤ earlier.length) : Begun earlier (e :: log) where
  begun := by
    intro run
    rw [List.mem_cons, or_iff_right (notBegan run), begun.begun]
  numbered := by
    intro other mem run named
    rcases List.mem_cons.mp mem with rfl | old
    · exact numbered run named
    · exact begun.numbered other old run named
  reported := by
    intro run d found
    obtain ⟨phase, ok, ended⟩ := begun.reported run d found
    exact ⟨phase, ok, List.mem_cons_of_mem _ ended⟩

/-- A call of `dispose` leaves a run where it is. -/
theorem At.disposed (place : At cleanups log run d) (other : Nat) : At cleanups (.disposed other :: log) run d := by
  constructor
  · exact place.there
  · simpa using place.called
  · simpa using place.done
  · simpa using place.ahead
  · simpa using place.clean
  · simpa using place.dirty
  · simpa using place.unended

theorem unreported (fits : Fits Permitted log) (unended : ∀ ok, .ended run ok ∉ log) : .rejected run ∉ log := by
  intro mem
  obtain ⟨newer, before, rfl⟩ := List.append_of_mem mem
  have ended : .ended run false ∈ before := fits.at
  exact unended false (List.mem_append_right _ (List.mem_cons_of_mem _ ended))

theorem At.fails (place : At cleanups log run d) :
    Between cleanups (.failed run d.cleanup :: log) run (d.errors + 1) d.index where
  within := (List.getElem?_eq_some_iff.mp place.there).1.le
  done := by
    intro k id after found
    rcases Nat.eq_or_lt_of_le after with rfl | later
    · cases place.there.symm.trans found
      exact ⟨List.mem_cons_of_mem _ place.called, List.mem_cons_self ..⟩
    · obtain ⟨called, failed⟩ := place.done k id later found
      exact ⟨List.mem_cons_of_mem _ called, List.mem_cons_of_mem _ failed⟩
  ahead := by simpa using place.ahead
  clean := fun none => absurd none (Nat.succ_ne_zero _)
  dirty := fun _ => ⟨d.cleanup, List.mem_cons_self ..⟩
  unended := by simpa using place.unended

theorem At.succeeds (place : At cleanups log run d) :
    Between (cleanups.eraseIdx d.index) (.succeeded d.cleanup :: log) run d.errors d.index where
  within := by
    have := (List.getElem?_eq_some_iff.mp place.there).1
    rw [List.length_eraseIdx_of_lt this]
    omega
  done := by
    intro k id after found
    rw [List.getElem?_eraseIdx_of_ge after] at found
    simpa using place.done (k + 1) id (Nat.lt_succ_of_le after) found
  ahead := by
    intro later called k id before found
    rw [List.getElem?_eraseIdx_of_lt before] at found
    exact place.ahead later (by simpa using called) k id before found
  clean := by simpa using place.clean
  dirty := by simpa using place.dirty
  unended := by simpa using place.unended

theorem Stack.succeeds (stack : Stack cleanups registered log) (place : At cleanups log run d) :
    Stack (cleanups.eraseIdx d.index) registered (.succeeded d.cleanup :: log) where
  fits := stack.fits.cons ⟨run, place.called⟩
  sorted := stack.sorted.sublist (List.eraseIdx_sublist ..)
  registered := by simpa using stack.registered
  pending := by
    have nodup : cleanups.Nodup := stack.sorted.imp Nat.ne_of_lt
    obtain ⟨inside, found⟩ := List.getElem?_eq_some_iff.mp place.there
    rw [← List.Nodup.erase_getElem nodup d.index inside]
    simp only [found, nodup.mem_erase_iff, stack.pending, List.mem_cons, Event.succeeded.injEq,
      reduceCtorEq, false_or, not_or]
    tauto

end Notes

theorem proceed_inv {s : State} (earlier : List Disposal) {last : Disposal} {initial : Bool} {errors n : Nat}
    (stack : Stack s.cleanups s.registered s.log) (started : s.started = true) (runs : s.runs = earlier ++ [last])
    (begun : Begun earlier s.log) (frames : s.frames = []) (disposal : s.disposal = if initial then none else some earlier.length)
    (between : Between s.cleanups s.log earlier.length errors n) : Inv (s.proceed ⟨earlier.length, initial⟩ errors n) := by
  have next : ∀ d, (earlier ++ [last]).set earlier.length d = earlier ++ [d] := by simp
  cases n with
  | zero =>
    have ends : Permitted (.ended earlier.length (decide (errors = 0))) s.log := by
      constructor
      · intro id registered
        by_cases succeeded : .succeeded id ∈ s.log
        · exact .inl succeeded
        · obtain ⟨k, found⟩ := List.mem_iff_getElem?.mp ((stack.pending id).mpr ⟨registered, succeeded⟩)
          have failed := (between.done k id (Nat.zero_le k) found).2
          exact .inr ⟨decide_eq_false fun none => between.clean none id failed, failed⟩
      · exact fun failed => between.dirty (of_decide_eq_false failed)
    have stackEnded := stack.note ends (fun _ => nofun) (fun _ => nofun)
    have begunEnded : Begun earlier (.ended earlier.length (decide (errors = 0)) :: s.log) := begun.note (fun _ => nofun) (by
      intro run named
      exact (Option.some.inj named).ge)
    have fresh : .rejected earlier.length ∉ .ended earlier.length (decide (errors = 0)) :: s.log := by
      simpa using unreported stack.fits between.unended
    simp only [State.proceed, State.loop, runs, next, List.getElem?_concat_length, State.leave]
    split_ifs with first
    · refine .begun earlier _ (stackEnded.note ⟨?_, fresh⟩ (fun _ => nofun) (fun _ => nofun)) started rfl
        (begunEnded.note (fun _ => nofun) fun run named => (Option.some.inj named).ge)
        (.settled rfl frames rfl ?_ ?_)
      · exact List.mem_cons_of_mem _ ((begun.begun _).mpr (Nat.le_refl _))
      · exact List.mem_cons_of_mem _ (List.mem_cons_self ..)
      · simpa [State.disposed] using fresh
    · rw [if_neg first] at disposal
      exact .begun earlier _ stackEnded started rfl begunEnded (.settled rfl frames disposal (List.mem_cons_self ..) fresh)
  | succ index =>
    have inside : index < s.cleanups.length := between.within
    have found : s.cleanups[index]? = some s.cleanups[index] := List.getElem?_eq_getElem inside
    have waits := (stack.pending _).mp (List.getElem_mem inside)
    have calls : Permitted (.called earlier.length s.cleanups[index]) s.log := by
      refine ⟨waits.1, waits.2, ?_, between.unended, ?_⟩
      · intro called
        exact absurd (between.ahead _ called index _ (Nat.lt_succ_self index) found) (Nat.lt_irrefl _)
      · intro later less registered
        by_cases succeeded : .succeeded later ∈ s.log
        · exact .inl succeeded
        · obtain ⟨k, there⟩ := List.mem_iff_getElem?.mp ((stack.pending later).mpr ⟨registered, succeeded⟩)
          exact .inr (between.done k later (index_lt stack.sorted found there less) there).1
    simp only [State.proceed, State.loop, runs, next, found, List.getElem?_concat_length]
    refine .begun earlier _ (stack.note calls (fun _ => nofun) (fun _ => nofun)) started rfl
      (begun.note (fun _ => nofun) fun run named => (Option.some.inj named).ge)
      (.calling initial rfl (by rw [frames]) disposal ?_)
    constructor
    · exact found
    · exact List.mem_cons_self ..
    · intro k id after there
      obtain ⟨called, failed⟩ := between.done k id after there
      exact ⟨List.mem_cons_of_mem _ called, List.mem_cons_of_mem _ failed⟩
    · intro later called k id before there
      rcases List.mem_cons.mp called with same | old
      · cases same
        obtain ⟨within, rfl⟩ := List.getElem?_eq_some_iff.mp there
        exact List.pairwise_iff_getElem.mp stack.sorted k index within inside before
      · exact between.ahead later old k id (Nat.lt_succ_of_lt before) there
    · simpa using between.clean
    · simpa using between.dirty
    · simpa using between.unended

theorem Inv.register {s : State} (inv : Inv s) (idle : s.started = false) : Inv s.push := by
  cases inv with
  | begun earlier d stack started => exact nomatch idle.symm.trans started
  | fresh stack started runs frames disposal quiet =>
    have quiet' : ∀ e ∈ Event.registered s.registered :: s.log, e.run? = none := by
      intro e mem
      rcases List.mem_cons.mp mem with rfl | old
      · rfl
      · exact quiet e old
    refine .fresh ?_ started runs frames disposal quiet'
    have unused : .registered s.registered ∉ s.log := fun mem => Nat.lt_irrefl _ ((stack.registered _).mp mem)
    have unsucceeded : ∀ id, .succeeded id ∈ s.log → .registered id ∈ s.log := by
      intro id mem
      obtain ⟨newer, before, same⟩ := List.append_of_mem mem
      rw [same] at stack quiet
      obtain ⟨run, called⟩ := stack.fits.at
      exact nomatch quiet (.called run id) (List.mem_append_right _ (List.mem_cons_of_mem _ called))
    constructor
    · exact stack.fits.cons fun run mem => nomatch quiet _ mem
    · refine List.pairwise_append.mpr ⟨stack.sorted, List.pairwise_singleton _ _, ?_⟩
      intro a old b last
      rw [List.mem_singleton.mp last]
      exact (stack.registered a).mp ((stack.pending a).mp old).1
    · intro id
      simp only [State.push, List.mem_cons, stack.registered, Event.registered.injEq]
      omega
    · intro id
      simp only [State.push, List.mem_append, stack.pending, List.mem_cons, Event.registered.injEq,
        List.not_mem_nil, or_false, reduceCtorEq, false_or, or_and_right]
      constructor
      · rintro (old | rfl)
        · exact .inr old
        · exact .inl ⟨rfl, fun mem => unused (unsucceeded _ mem)⟩
      · rintro (⟨rfl, _⟩ | old)
        · exact .inr rfl
        · exact .inl old

theorem Inv.guarded {s : State} (inv : Inv s) : Inv s.guarded := by
  unfold State.guarded
  split_ifs with begun
  · exact inv
  · cases inv with
    | begun earlier d stack started => exact absurd started begun
    | fresh stack started runs frames disposal quiet =>
      refine .fresh (stack.note ?_ (fun _ => nofun) (fun _ => nofun)) started runs frames disposal ?_
      · exact fun run mem => nomatch quiet _ mem
      · intro e mem
        rcases List.mem_cons.mp mem with rfl | old
        · rfl
        · exact quiet e old

variable {earlier : List Disposal} {d : Disposal}

/-- A call of `dispose` during a disposal returns its promise. -/
theorem Current.disposed {s : State} (current : Current s earlier d) (assigned : s.disposal = some earlier.length) :
    Current (s.disposed earlier.length) earlier d := by
  cases current with
  | calling initial phase frames disposal place => exact .calling initial phase frames disposal (place.disposed _)
  | awaiting phase frames disposal place => exact .awaiting phase frames disposal (place.disposed _)
  | settled phase frames disposal ended unreported =>
    exact .settled phase frames disposal (List.mem_cons_of_mem _ ended) (by simpa [State.disposed] using unreported)
  | reported phase frames disposal ended => exact nomatch disposal.symm.trans assigned

theorem Current.unreported {s : State} (current : Current s earlier d) (fits : Fits Permitted s.log)
    (assigned : s.disposal = some earlier.length) : .rejected earlier.length ∉ s.log := by
  cases current with
  | calling initial phase frames disposal place => exact DisposableScope.unreported fits place.unended
  | awaiting phase frames disposal place => exact DisposableScope.unreported fits place.unended
  | settled phase frames disposal ended unreported => exact unreported
  | reported phase frames disposal ended => exact nomatch disposal.symm.trans assigned

variable {log : List Event}

theorem Between.start {run : Nat} (numbered : ∀ e ∈ log, ∀ other, e.run? = some other → other < run) :
    Between cleanups (.began run :: log) run 0 cleanups.length := by
  have absent : ∀ e ∈ log, e.run? ≠ some run := fun e mem same => Nat.lt_irrefl _ (numbered e mem run same)
  constructor
  · exact Nat.le_refl _
  · intro k id beyond found
    exact absurd (List.getElem?_eq_some_iff.mp found).1 (Nat.not_lt.mpr beyond)
  · intro later called
    exact absurd rfl (absent _ (by simpa using called))
  · intro _ id failed
    exact absurd rfl (absent _ (by simpa using failed))
  · exact fun dirty => absurd rfl dirty
  · intro ok ended
    exact absurd rfl (absent _ (by simpa using ended))

theorem Inv.dispose {s : State} (inv : Inv s) (outside : ∀ frame ∈ s.frames, frame.initial = false) : Inv s.dispose := by
  cases inv with
  | fresh stack started runs frames disposal quiet =>
    have none : ∀ e ∈ s.log, ∀ run, e.run? ≠ some run := fun e mem run same => nomatch (quiet e mem).symm.trans same
    have begins : Permitted (.began 0) s.log := fun run mem => absurd rfl (none _ mem run)
    simp only [State.dispose, disposal, runs, List.nil_append, List.length_nil]
    refine proceed_inv [] (stack.note begins (fun _ => nofun) (fun _ => nofun)) rfl rfl ?_ frames rfl
      (Between.start fun e mem other same => absurd same (none e mem other))
    refine ⟨?_, ?_, fun run d found => by simp at found⟩
    · intro run
      rw [List.mem_cons, List.length_nil, Nat.le_zero, Event.began.injEq]
      exact or_iff_left fun mem => none _ mem run rfl
    · intro e mem run same
      rcases List.mem_cons.mp mem with rfl | old
      · exact (Option.some.inj same).ge
      · exact absurd same (none e old run)
  | begun earlier d stack started runs begun current =>
    have joins : s.disposal = some earlier.length → Inv s.dispose := by
      intro assigned
      have same : s.dispose = s.disposed earlier.length := by
        obtain ⟨_, disposal, _, _, _, _, _⟩ := s
        obtain rfl : disposal = some earlier.length := assigned
        rw [State.dispose, State.disposed, started]
        rfl
      rw [same]
      refine .begun earlier d (stack.note ⟨?_, current.unreported stack.fits assigned⟩ (fun _ => nofun) (fun _ => nofun))
        started runs (begun.note (fun _ => nofun) fun run named => (Option.some.inj named).ge) (current.disposed assigned)
      exact (begun.begun _).mpr (Nat.le_refl _)
    cases current with
    | calling initial phase frames disposal place =>
      have later : initial = false := outside _ (frames ▸ List.mem_singleton_self _)
      exact joins (by rw [disposal, later]; rfl)
    | awaiting phase frames disposal place => exact joins disposal
    | settled phase frames disposal ended unreported => exact joins disposal
    | reported phase frames disposal ended =>
      have length : s.runs.length = (earlier ++ [d]).length := congrArg _ runs
      have finished : ∀ run (d' : Disposal), (earlier ++ [d])[run]? = some d' → d'.phase = .reported ∧ ∃ ok, .ended run ok ∈ s.log := by
        intro run d' found
        rcases Nat.lt_or_ge run earlier.length with less | beyond
        · rw [List.getElem?_append_left less] at found
          exact begun.reported run d' found
        · have last := (List.getElem?_eq_some_iff.mp found).1
          rw [List.length_append, List.length_singleton] at last
          obtain rfl : run = earlier.length := by omega
          rw [List.getElem?_concat_length] at found
          cases found
          exact ⟨phase, false, ended⟩
      have begins : Permitted (.began s.runs.length) s.log := by
        intro run mem
        have less : run < (earlier ++ [d]).length := by
          rw [List.length_append, List.length_singleton]
          exact Nat.lt_succ_of_le ((begun.begun run).mp mem)
        exact (finished run _ (List.getElem?_eq_getElem less)).2
      simp only [State.dispose, disposal]
      rw [length, runs]
      refine proceed_inv (earlier ++ [d]) ?_ rfl rfl ?_ frames rfl (Between.start ?_)
      · exact stack.note (length ▸ begins) (fun _ => nofun) (fun _ => nofun)
      · refine ⟨?_, ?_, ?_⟩
        · intro run
          rw [List.mem_cons, begun.begun, Event.began.injEq, List.length_append, List.length_singleton]
          omega
        · intro e mem run same
          rcases List.mem_cons.mp mem with rfl | old
          · exact (Option.some.inj same).ge
          · have := begun.numbered e old run same
            rw [List.length_append]
            omega
        · intro run d' found
          obtain ⟨phase, ok, ended⟩ := finished run d' found
          exact ⟨phase, ok, List.mem_cons_of_mem _ ended⟩
      · intro e mem other same
        rw [List.length_append, List.length_singleton]
        exact Nat.lt_succ_of_le (begun.numbered e mem other same)

variable {run : Disposal}

theorem Current.throws_inv {s : State} {frame : Frame} {frames : List Frame} (current : Current s earlier d)
    (stack : Stack s.cleanups s.registered s.log) (started : s.started = true) (runs : s.runs = earlier ++ [d])
    (begun : Begun earlier s.log) (top : s.frames = frame :: frames) (found : s.runs[frame.run]? = some run) :
    Inv (s.throws frame frames run) := by
  cases current with
  | awaiting phase empty disposal place => exact nomatch top.symm.trans empty
  | settled phase empty disposal ended unreported => exact nomatch top.symm.trans empty
  | reported phase empty disposal ended => exact nomatch top.symm.trans empty
  | calling initial phase only disposal place =>
    cases top.symm.trans only
    rw [runs, List.getElem?_concat_length] at found
    cases found
    exact proceed_inv earlier (stack.note place.called (fun _ => nofun) (fun _ => nofun)) started runs
      (begun.note (fun _ => nofun) fun run named => (Option.some.inj named).ge) rfl disposal place.fails

theorem At.awaiting {run : Nat} (place : At cleanups log run d) : At cleanups log run { d with phase := .awaiting } :=
  ⟨place.there, place.called, place.done, place.ahead, place.clean, place.dirty, place.unended⟩

theorem Current.returns_inv {s : State} {frame : Frame} {frames : List Frame} (current : Current s earlier d)
    (stack : Stack s.cleanups s.registered s.log) (started : s.started = true) (runs : s.runs = earlier ++ [d])
    (begun : Begun earlier s.log) (top : s.frames = frame :: frames) (found : s.runs[frame.run]? = some run) :
    Inv (s.returns frame frames run) := by
  cases current with
  | awaiting phase empty disposal place => exact nomatch top.symm.trans empty
  | settled phase empty disposal ended unreported => exact nomatch top.symm.trans empty
  | reported phase empty disposal ended => exact nomatch top.symm.trans empty
  | calling initial phase only disposal place =>
    cases top.symm.trans only
    rw [runs, List.getElem?_concat_length] at found
    cases found
    have next : s.runs.set earlier.length { d with phase := .awaiting } = earlier ++ [{ d with phase := .awaiting }] := by
      rw [runs]
      simp
    unfold State.returns State.leave
    split_ifs with first
    · refine .begun earlier { d with phase := .awaiting } (stack.note ⟨?_, ?_⟩ (fun _ => nofun) (fun _ => nofun)) started next
        (begun.note (fun _ => nofun) fun run named => (Option.some.inj named).ge)
        (.awaiting rfl rfl rfl (place.awaiting.disposed _))
      · exact (begun.begun _).mpr (Nat.le_refl _)
      · exact DisposableScope.unreported stack.fits place.unended
    · rw [if_neg first] at disposal
      exact .begun earlier _ stack started next begun (.awaiting rfl rfl disposal place.awaiting)

variable {number : Nat}

theorem Begun.last (begun : Begun earlier log) (found : (earlier ++ [d])[number]? = some run)
    (busy : run.phase ≠ .reported) : number = earlier.length ∧ run = d := by
  rcases Nat.lt_or_ge number earlier.length with less | beyond
  · rw [List.getElem?_append_left less] at found
    exact absurd (begun.reported number run found).1 busy
  · have last := (List.getElem?_eq_some_iff.mp found).1
    rw [List.length_append, List.length_singleton] at last
    obtain rfl : number = earlier.length := by omega
    rw [List.getElem?_concat_length] at found
    exact ⟨rfl, (Option.some.inj found).symm⟩

theorem Current.settles_inv {s : State} (ok : Bool) (current : Current s earlier d)
    (stack : Stack s.cleanups s.registered s.log) (started : s.started = true) (runs : s.runs = earlier ++ [d])
    (begun : Begun earlier s.log) (found : s.runs[number]? = some run) (waits : run.phase = .awaiting) :
    Inv (s.settles number run ok) := by
  obtain ⟨rfl, rfl⟩ := begun.last (runs ▸ found) (by rw [waits]; decide)
  cases current with
  | calling initial phase frames disposal place => exact nomatch waits.symm.trans phase
  | settled phase frames disposal ended unreported => exact nomatch waits.symm.trans phase
  | reported phase frames disposal ended => exact nomatch waits.symm.trans phase
  | awaiting phase frames disposal place =>
    cases ok with
    | true =>
      refine proceed_inv earlier (stack.succeeds place) started runs ?_ frames disposal place.succeeds
      exact begun.note (fun _ => nofun) fun _ named => nomatch named
    | false =>
      exact proceed_inv earlier (stack.note place.called (fun _ => nofun) (fun _ => nofun)) started runs
        (begun.note (fun _ => nofun) fun run named => (Option.some.inj named).ge) frames disposal place.fails

theorem Current.caught_inv {s : State} (current : Current s earlier d) (stack : Stack s.cleanups s.registered s.log)
    (started : s.started = true) (runs : s.runs = earlier ++ [d]) (begun : Begun earlier s.log)
    (found : s.runs[number]? = some run) (settled : run.phase = .settled) (failed : run.errors ≠ 0) :
    Inv (s.caught number run) := by
  obtain ⟨rfl, rfl⟩ := begun.last (runs ▸ found) (by rw [settled]; decide)
  cases current with
  | calling initial phase frames disposal place => exact nomatch settled.symm.trans phase
  | awaiting phase frames disposal place => exact nomatch settled.symm.trans phase
  | reported phase frames disposal ended => exact nomatch settled.symm.trans phase
  | settled phase frames disposal ended unreported =>
    rw [decide_eq_false failed] at ended
    refine .begun earlier { run with phase := .reported } (stack.note ended (fun _ => nofun) (fun _ => nofun)) started ?_
      (begun.note (fun _ => nofun) fun run named => (Option.some.inj named).ge)
      (.reported rfl frames rfl (List.mem_cons_of_mem _ ended))
    simp [State.caught, runs]

theorem Inv.init : Inv {} := by
  refine .fresh ⟨trivial, List.Pairwise.nil, ?_, ?_⟩ rfl rfl rfl rfl (fun e mem => absurd mem List.not_mem_nil)
  · exact fun id => ⟨fun mem => absurd mem List.not_mem_nil, fun less => absurd less (Nat.not_lt_zero id)⟩
  · exact fun id => ⟨fun mem => absurd mem List.not_mem_nil, fun mem => absurd mem.1 List.not_mem_nil⟩

theorem Inv.frames {s : State} (inv : Inv s) {frame : Frame} {frames : List Frame} (top : s.frames = frame :: frames) :
    ∃ earlier d, Stack s.cleanups s.registered s.log ∧ s.started = true ∧ s.runs = earlier ++ [d] ∧ Begun earlier s.log ∧
      Current s earlier d := by
  cases inv with
  | fresh stack started runs empty => exact nomatch top.symm.trans empty
  | begun earlier d stack started runs begun current => exact ⟨earlier, d, stack, started, runs, begun, current⟩

theorem inv_step (s : State) (a : Action) (t : State) (inv : Inv s) (outside : Outside s a) (h : step s a = some t) : Inv t := by
  cases a with
  | defer isFunction =>
    cases h
    unfold State.defer
    split_ifs with skipped
    · exact inv
    · have idle : s.started = false ∧ isFunction = true := by simpa using skipped
      exact inv.register idle.1
  | listen target isFunction =>
    cases h
    unfold State.listen
    split_ifs with skipped
    · exact inv
    · have idle : s.started = false ∧ isFunction = true := by simpa using skipped
      cases target with
      | addEventListener => exact inv.register idle.1
      | on => exact inv.register idle.1
      | unsupported => exact inv
  | guarded =>
    cases h
    exact inv.guarded
  | dispose =>
    cases h
    exact inv.dispose outside
  | throws =>
    cases top : s.frames with
    | nil => simp [step, top] at h
    | cons frame frames =>
      simp only [step, top] at h
      obtain ⟨run, found, rfl⟩ := Option.map_eq_some_iff.mp h
      obtain ⟨earlier, d, stack, started, runs, begun, current⟩ := inv.frames top
      exact current.throws_inv stack started runs begun top found
  | returns =>
    cases top : s.frames with
    | nil => simp [step, top] at h
    | cons frame frames =>
      simp only [step, top] at h
      obtain ⟨run, found, rfl⟩ := Option.map_eq_some_iff.mp h
      obtain ⟨earlier, d, stack, started, runs, begun, current⟩ := inv.frames top
      exact current.returns_inv stack started runs begun top found
  | settles number ok =>
    simp only [step] at h
    split at h
    · next run _ found =>
        obtain ⟨waits, rest⟩ := Option.ite_none_right_eq_some.mp h
        cases rest
        cases inv with
        | fresh stack started runs => simp [runs] at found
        | begun earlier d stack started runs begun current => exact current.settles_inv ok stack started runs begun found waits
    · cases h
  | caught number =>
    simp only [step] at h
    split at h
    · next run _ found =>
        obtain ⟨⟨settled, failed⟩, rest⟩ := Option.ite_none_right_eq_some.mp h
        cases rest
        cases inv with
        | fresh stack started runs => simp [runs] at found
        | begun earlier d stack started runs begun current => exact current.caught_inv stack started runs begun found settled failed
    · cases h

theorem loop_grows (s : State) (run errors n : Nat) : s.log <:+ (s.loop run errors n).log := by
  induction n generalizing errors with
  | zero => exact List.suffix_cons ..
  | succ index ih =>
    unfold State.loop
    cases s.cleanups[index]? with
    | none => exact ih (errors + 1)
    | some cleanup => exact List.suffix_cons ..

theorem leave_grows {s : State} (frame : Frame) (older : log <:+ s.log) : log <:+ (s.leave frame).log := by
  unfold State.leave
  split_ifs
  · exact older.trans (List.suffix_cons ..)
  · exact older

theorem proceed_grows {s : State} (frame : Frame) (errors n : Nat) (older : log <:+ s.log) :
    log <:+ (s.proceed frame errors n).log := by
  have grown := older.trans (loop_grows s frame.run errors n)
  unfold State.proceed
  dsimp only
  split
  · exact grown
  · exact leave_grows frame grown

theorem dispose_grows (s : State) : s.log <:+ s.dispose.log := by
  unfold State.dispose
  dsimp only
  split
  · exact List.suffix_cons ..
  · exact proceed_grows _ _ _ (List.suffix_cons ..)

theorem push_grows (s : State) : s.log <:+ s.push.log := List.suffix_cons ..

theorem step_grows {s t : State} {a : Action} (h : step s a = some t) : s.log <:+ t.log := by
  cases a with
  | defer isFunction =>
    cases h
    unfold State.defer
    split_ifs
    · exact List.suffix_rfl
    · exact push_grows s
  | listen target isFunction =>
    cases h
    unfold State.listen
    split_ifs
    · exact List.suffix_rfl
    · cases target with
      | addEventListener => exact push_grows s
      | on => exact push_grows s
      | unsupported => exact List.suffix_rfl
  | guarded =>
    cases h
    unfold State.guarded
    split_ifs
    · exact List.suffix_rfl
    · exact List.suffix_cons ..
  | dispose =>
    cases h
    exact dispose_grows s
  | throws =>
    cases top : s.frames with
    | nil => simp [step, top] at h
    | cons frame frames =>
      simp only [step, top] at h
      obtain ⟨run, _, rfl⟩ := Option.map_eq_some_iff.mp h
      exact proceed_grows _ _ _ (List.suffix_cons ..)
  | returns =>
    cases top : s.frames with
    | nil => simp [step, top] at h
    | cons frame frames =>
      simp only [step, top] at h
      obtain ⟨run, _, rfl⟩ := Option.map_eq_some_iff.mp h
      exact leave_grows _ List.suffix_rfl
  | settles number ok =>
    simp only [step] at h
    split at h
    · obtain ⟨_, rest⟩ := Option.ite_none_right_eq_some.mp h
      cases rest
      cases ok with
      | true => exact proceed_grows _ _ _ (List.suffix_cons ..)
      | false => exact proceed_grows _ _ _ (List.suffix_cons ..)
    · cases h
  | caught number =>
    simp only [step] at h
    split at h
    · obtain ⟨_, rest⟩ := Option.ite_none_right_eq_some.mp h
      cases rest
      exact List.suffix_cons ..
    · cases h

variable {actions : List Action}

theorem run_grows {ok : State → Action → Prop} {s t : State} (run : Interleaving.Run step ok s actions t) :
    s.log <:+ t.log := by
  induction run with
  | nil s => exact List.suffix_rfl
  | cons _ taken _ ih => exact (step_grows taken).trans ih

theorem dispose_inside_overlaps {s : State} (inv : Inv s) (inside : ¬Outside s .dispose) : ¬Fits Permitted s.dispose.log := by
  intro fits
  cases inv with
  | fresh stack started runs frames disposal quiet => exact inside (by simp [Outside, frames])
  | begun earlier d stack started runs begun current =>
    cases current with
    | awaiting phase frames disposal place => exact inside (by simp [Outside, frames])
    | settled phase frames disposal ended unreported => exact inside (by simp [Outside, frames])
    | reported phase frames disposal ended => exact inside (by simp [Outside, frames])
    | calling initial phase frames disposal place =>
      cases initial with
      | false => exact inside (by simp [Outside, frames])
      | true =>
        have first : s.disposal = none := disposal
        have begins : .began s.runs.length :: s.log <:+ s.dispose.log := by
          simp only [State.dispose, first]
          exact proceed_grows _ _ _ List.suffix_rfl
        have alone := (fits.of_suffix begins).1
        obtain ⟨ok, ended⟩ := alone earlier.length ((begun.begun _).mpr (Nat.le_refl _))
        exact place.unended ok ended

theorem outside_of_fits {s u : State} (run : Interleaving.Run step Free s actions u) (inv : Inv s)
    (fits : Fits Permitted u.log) : Interleaving.Run step Outside s actions u := by
  induction run with
  | nil s => exact .nil s
  | @cons s t u a as _ taken rest ih =>
    have outside : Outside s a := by
      by_contra inside
      cases a with
      | dispose =>
        cases taken
        exact dispose_inside_overlaps inv inside (fits.of_suffix (run_grows rest))
      | defer | listen | guarded | throws | returns | settles | caught => exact inside trivial
    exact .cons outside taken (ih (inv_step s a t inv outside taken) fits)

theorem inv_run {s : State} (run : Interleaving.Run step Outside {} actions s) : Inv s :=
  run.invariant inv_step Inv.init

/-- A scope keeps the contract of disposal just as long as no cleanup calls `dispose` before the
`dispose` call that began its run has returned. -/
theorem contract_iff (actions : List Action) (s : State) (run : Interleaving.Run step Free {} actions s) :
    Fits Permitted s.log ↔ Interleaving.Run step Outside {} actions s := by
  constructor
  · exact outside_of_fits run Inv.init
  · intro kept
    cases inv_run kept with
    | fresh stack => exact stack.fits
    | begun earlier d stack => exact stack.fits

def outside (s : State) : Action → Bool
  | .dispose => s.frames.all fun frame => !frame.initial
  | _ => true

theorem outside_sound (s : State) (a : Action) (passed : outside s a = true) : Outside s a := by
  cases a with
  | dispose => simpa [outside, Outside] using passed
  | defer | listen | guarded | throws | returns | settles | caught => trivial

/-- The newer of two cleanups fails, is joined by a `dispose` of the older one, and succeeds when it is retried. -/
def retried : List Action :=
  [.defer true, .guarded, .listen .on true, .dispose, .guarded, .returns, .settles 0 false, .dispose, .returns, .settles 0 true,
    .caught 0, .dispose, .returns, .settles 1 true, .dispose]

theorem contract_retried : ∃ s, Interleaving.Run step Free {} retried s ∧ s.cleanups = [] ∧ Fits Permitted s.log := by
  have checked : ((execIf step outside {} retried).any fun s => decide (s.cleanups = [])) = true := by decide +kernel
  obtain ⟨s, ran, empty⟩ := (Option.any_eq_true _ _).mp checked
  have kept : Interleaving.Run step Outside {} retried s := run_of_execIf outside_sound ran
  have run : Interleaving.Run step Free {} retried s := kept.mono fun _ _ _ => trivial
  exact ⟨s, run, of_decide_eq_true empty, (contract_iff retried s run).mpr kept⟩

/-- The only cleanup disposes of its scope as it is called: it is called again inside itself, and succeeds twice. -/
theorem dispose_in_cleanup_runs_it_twice :
    ∃ s, Interleaving.Run step Free {} [.defer true, .dispose, .dispose, .returns, .returns, .settles 1 true, .settles 0 true] s ∧
      ¬Fits Permitted s.log := by
  have checked : ((exec step {} [.defer true, .dispose, .dispose, .returns, .returns, .settles 1 true, .settles 0 true]).any fun s =>
      decide (s.log = [.ended 0 true, .succeeded 0, .ended 1 true, .succeeded 0, .disposed 0, .disposed 1, .called 1 0, .began 1,
        .called 0 0, .began 0, .registered 0])) = true := by decide +kernel
  obtain ⟨s, ran, log⟩ := (Option.any_eq_true _ _).mp checked
  refine ⟨s, run_of_exec ran, ?_⟩
  rw [of_decide_eq_true log]
  intro fits
  have second : Fits Permitted [.began 1, .called 0 0, .began 0, .registered 0] := fits.2.2.2.2.2.2.2
  obtain ⟨ok, ended⟩ := second.1 0 (by simp)
  simp at ended

end DisposableScope
