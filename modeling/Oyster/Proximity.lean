import Mathlib.Algebra.Order.Ring.Rat
import Mathlib.Data.Fintype.EquivFin
import Mathlib.Data.Fintype.Lattice
import Mathlib.Order.CompleteLatticeIntervals
import Mathlib.Data.Int.ConditionallyCompleteOrder

/-! The proximity of the terms in a search result: a window over their occurrences, in order of position, is taken further at its end and
shortened at its start while it holds every term. -/
namespace SearchRescore

def PROXIMITY_BASE_SCORE : ℚ := 30

def PROXIMITY_SPAN_DIVISOR : ℚ := 8

structure Event where
  position : Int
  termIndex : Nat
  deriving DecidableEq

def events (positionSets : List (List Int)) : List Event :=
  (positionSets.zipIdx.flatMap fun set => set.1.map fun position => ⟨position, set.2⟩).mergeSort
    fun left right => left.position ≤ right.position

structure Scan where
  counts : List Nat
  covered : Nat
  smallestSpan : WithTop Int

/-- The event at `end` is counted. -/
def Scan.enter (s : Scan) (event : Event) : Scan :=
  { s with
    counts := s.counts.modify event.termIndex (· + 1)
    covered := if s.counts.getD event.termIndex 0 = 0 then s.covered + 1 else s.covered }

/-- The event at `start`, of a window with all terms, is counted no longer. -/
def Scan.leave (s : Scan) (position : Int) (first : Event) : Scan :=
  { counts := s.counts.modify first.termIndex (· - 1)
    covered := if (s.counts.modify first.termIndex (· - 1)).getD first.termIndex 0 = 0 then s.covered - 1 else s.covered
    smallestSpan := min s.smallestSpan ((position - first.position : Int) : WithTop Int) }

/-- The inner loop. The list holds the events from `start` to `end`. -/
def shrink (position : Int) (s : Scan) : List Event → Scan × List Event
  | [] => (s, [])
  | first :: rest =>
    if s.covered = s.counts.length then shrink position (s.leave position first) rest else (s, first :: rest)

def advance (s : Scan × List Event) (event : Event) : Scan × List Event :=
  shrink event.position (s.1.enter event) (s.2 ++ [event])

def smallestSpan (positionSets : List (List Int)) : WithTop Int :=
  ((events positionSets).foldl advance (⟨List.replicate positionSets.length 0, 0, ⊤⟩, [])).1.smallestSpan

/-- A span of `Infinity` scores nothing. -/
def proximityScore (positionSets : List (List Int)) : ℚ :=
  if positionSets.length < 2 ∨ positionSets.any List.isEmpty then 0
  else
    match smallestSpan positionSets with
    | none => 0
    | some span => max 0 (PROXIMITY_BASE_SCORE - span / PROXIMITY_SPAN_DIVISOR)

def Covers (terms : Nat) (list : List Event) : Prop := ∀ i < terms, ∃ event ∈ list, event.termIndex = i

structure Counted (terms : Nat) (s : Scan) (window : List Event) : Prop where
  length : s.counts.length = terms
  known : ∀ event ∈ window, event.termIndex < terms
  counts : ∀ i < terms, s.counts.getD i 0 = (window.map Event.termIndex).count i
  covered : s.covered = (window.map Event.termIndex).toFinset.card

section
variable {terms : Nat} {s : Scan} {window : List Event}

theorem getD_modify (counts : List Nat) (f : Nat → Nat) {i : Nat} (within : i < counts.length) (j : Nat) :
    (counts.modify j f).getD i 0 = if j = i then f (counts.getD i 0) else counts.getD i 0 := by
  rw [List.getD_eq_getElem?_getD, List.getD_eq_getElem?_getD, List.getElem?_modify, List.getElem?_eq_getElem within]
  split_ifs <;> rfl

theorem card_insert (labels : List Nat) (i : Nat) :
    (insert i labels.toFinset).card = if labels.count i = 0 then labels.toFinset.card + 1 else labels.toFinset.card := by
  split_ifs with absent
  · exact Finset.card_insert_of_notMem fun mem => List.count_eq_zero.mp absent (List.mem_toFinset.mp mem)
  · exact congrArg _ (Finset.insert_eq_of_mem (List.mem_toFinset.mpr (List.count_pos_iff.mp (Nat.pos_of_ne_zero absent))))

theorem Counted.enter (counted : Counted terms s window) {event : Event} (known : event.termIndex < terms) :
    Counted terms (s.enter event) (window ++ [event]) where
  length := (List.length_modify ..).trans counted.length
  known e mem := by
    rcases List.mem_append.mp mem with old | new
    · exact counted.known e old
    · exact List.mem_singleton.mp new ▸ known
  counts i small := by
    unfold Scan.enter
    rw [getD_modify _ _ (counted.length.symm ▸ small), counted.counts i small, List.map_append, List.count_append]
    split_ifs with same <;> simp [same]
  covered := by
    unfold Scan.enter
    dsimp only
    have same : ((window ++ [event]).map Event.termIndex).toFinset = insert event.termIndex (window.map Event.termIndex).toFinset := by
      rw [List.map_append, List.toFinset_append, Finset.union_comm]
      rfl
    rw [counted.counts _ known, counted.covered, same, card_insert]

theorem Counted.leave {first : Event} (counted : Counted terms s (first :: window)) (position : Int) :
    Counted terms (s.leave position first) window where
  length := (List.length_modify ..).trans counted.length
  known e mem := counted.known e (List.mem_cons_of_mem _ mem)
  counts i small := by
    unfold Scan.leave
    rw [getD_modify _ _ (counted.length.symm ▸ small), counted.counts i small, List.map_cons, List.count_cons]
    split_ifs with same <;> simp_all
  covered := by
    have known := counted.known first List.mem_cons_self
    unfold Scan.leave
    dsimp only
    rw [getD_modify _ _ (counted.length.symm ▸ known), if_pos rfl, counted.counts _ known, counted.covered, List.map_cons,
      List.count_cons_self, Nat.add_sub_cancel, List.toFinset_cons, card_insert]
    split_ifs <;> rfl

/-- The loop goes on as long as the window has all terms. -/
theorem Counted.covers_iff (counted : Counted terms s window) : s.covered = s.counts.length ↔ Covers terms window := by
  have small : (window.map Event.termIndex).toFinset ⊆ Finset.range terms := by
    intro i mem
    obtain ⟨event, inside, rfl⟩ := List.mem_map.mp (List.mem_toFinset.mp mem)
    exact Finset.mem_range.mpr (counted.known event inside)
  rw [counted.covered, counted.length]
  constructor
  · intro full i within
    have same := Finset.eq_of_subset_of_card_le small ((Finset.card_range terms).trans_le full.ge)
    have mem : i ∈ (window.map Event.termIndex).toFinset := same.symm ▸ Finset.mem_range.mpr within
    exact List.mem_map.mp (List.mem_toFinset.mp mem)
  · intro covers
    have same : (window.map Event.termIndex).toFinset = Finset.range terms := by
      refine small.antisymm fun i mem => List.mem_toFinset.mpr (List.mem_map.mpr ?_)
      exact covers i (Finset.mem_range.mp mem)
    rw [same, Finset.card_range]

/-- What the inner loop does: it lets go of `left`. -/
structure Shrunk (terms : Nat) (position : Int) (s : Scan) (window : List Event) (t : Scan) (left rest : List Event) : Prop where
  parts : window = left ++ rest
  counted : Counted terms t rest
  uncovered : ¬Covers terms rest
  least : t.smallestSpan ≤ s.smallestSpan
  left : ∀ first ∈ left, t.smallestSpan ≤ ((position - first.position : Int) : WithTop Int)
  reached : t.smallestSpan = s.smallestSpan ∨ ∃ first rest, first :: rest <:+ window ∧ Covers terms (first :: rest) ∧
    t.smallestSpan = ((position - first.position : Int) : WithTop Int)

theorem shrink_spec (positive : 0 < terms) (position : Int) (counted : Counted terms s window) :
    ∃ left, Shrunk terms position s window (shrink position s window).1 left (shrink position s window).2 := by
  induction window generalizing s with
  | nil =>
    refine ⟨[], rfl, counted, fun covers => ?_, le_rfl, nofun, .inl rfl⟩
    obtain ⟨event, mem, _⟩ := covers 0 positive
    cases mem
  | cons first rest ih =>
    unfold shrink
    split_ifs with full
    · obtain ⟨left, shrunk⟩ := ih (counted.leave position)
      have narrowed : (s.leave position first).smallestSpan = min s.smallestSpan ((position - first.position : Int) : WithTop Int) := rfl
      refine ⟨first :: left, congrArg (first :: ·) shrunk.parts, shrunk.counted, shrunk.uncovered,
        shrunk.least.trans (narrowed.trans_le (min_le_left ..)), ?_, ?_⟩
      · exact List.forall_mem_cons.mpr ⟨shrunk.least.trans (narrowed.trans_le (min_le_right ..)), shrunk.left⟩
      · rcases shrunk.reached with same | ⟨start, others, within, covers, same⟩
        · rcases min_choice s.smallestSpan ((position - first.position : Int) : WithTop Int) with before | here
          · exact .inl (same.trans (narrowed.trans before))
          · exact .inr ⟨first, rest, List.suffix_rfl, counted.covers_iff.mp full, same.trans (narrowed.trans here)⟩
        · exact .inr ⟨start, others, within.trans (List.suffix_cons ..), covers, same⟩
    · exact ⟨[], rfl, counted, fun covers => full (counted.covers_iff.mpr covers), le_rfl, nofun, .inl rfl⟩

/-- The events that have been read are those that the window has let go of and the window. No events with all terms lie closer together
than the smallest span so far, and some lie as close. -/
structure Inv (terms : Nat) (passed : List Event) (s : Scan) (window : List Event) : Prop where
  counted : Counted terms s window
  gone : ∀ first ∈ passed, ∃ last ∈ passed ++ window, s.smallestSpan ≤ ((last.position - first.position : Int) : WithTop Int)
  least : ∀ chosen ⊆ passed ++ window, Covers terms chosen →
    ∃ first ∈ chosen, ∃ last ∈ chosen, s.smallestSpan ≤ ((last.position - first.position : Int) : WithTop Int)
  reached : ∀ span : Int, s.smallestSpan = span → ∃ chosen ⊆ passed ++ window, Covers terms chosen ∧
    ∃ start, ∀ event ∈ chosen, start ≤ event.position ∧ event.position ≤ start + span

theorem inv_advance {passed : List Event} (positive : 0 < terms) {event : Event} (known : event.termIndex < terms)
    (sorted : (passed ++ window ++ [event]).Pairwise (·.position ≤ ·.position)) (inv : Inv terms passed s window) :
    ∃ passed', passed' ++ (advance (s, window) event).2 = passed ++ window ++ [event] ∧
      Inv terms passed' (advance (s, window) event).1 (advance (s, window) event).2 := by
  obtain ⟨left, shrunk⟩ := shrink_spec positive event.position (inv.counted.enter known)
  have until_event : ∀ e ∈ passed ++ window ++ [event], e.position ≤ event.position := by
    intro e mem
    rcases List.mem_append.mp mem with old | new
    · exact (List.pairwise_append.mp sorted).2.2 e old event List.mem_cons_self
    · exact (List.mem_singleton.mp new ▸ le_rfl)
  have parts : (passed ++ left) ++ (advance (s, window) event).2 = passed ++ window ++ [event] := by
    rw [List.append_assoc, List.append_assoc, shrunk.parts]
    rfl
  -- each event that has been let go of is at least the smallest span before this one
  have gone : ∀ first ∈ passed ++ left,
      (advance (s, window) event).1.smallestSpan ≤ ((event.position - first.position : Int) : WithTop Int) := by
    intro first mem
    rcases List.mem_append.mp mem with old | new
    · obtain ⟨last, inside, close⟩ := inv.gone first old
      refine shrunk.least.trans (close.trans (WithTop.coe_le_coe.mpr ?_))
      exact Int.sub_le_sub_right (until_event last (List.mem_append_left _ inside)) _
    · exact shrunk.left first new
  have read : event ∈ passed ++ window ++ [event] := List.mem_append_right _ List.mem_cons_self
  refine ⟨passed ++ left, parts, shrunk.counted, fun first mem => ⟨event, parts.symm ▸ read, gone first mem⟩, ?_, ?_⟩
  · rw [parts]
    intro chosen within covers
    by_cases new : event ∈ chosen
    · -- the window has lost a term, and with it one of the chosen events
      have uncovered : ¬Covers terms (advance (s, window) event).2 := shrunk.uncovered
      obtain ⟨i, small, lost⟩ : ∃ i < terms, ∀ e ∈ (advance (s, window) event).2, e.termIndex ≠ i := by
        simpa [Covers] using uncovered
      obtain ⟨first, mem, same⟩ := covers i small
      have before : first ∈ passed ++ left := by
        have there := within mem
        rw [← parts] at there
        exact (List.mem_append.mp there).resolve_right fun kept => lost first kept same
      exact ⟨first, mem, event, new, gone first before⟩
    · have old : chosen ⊆ passed ++ window := fun e mem =>
        (List.mem_append.mp (within mem)).resolve_right fun here => new (List.mem_singleton.mp here ▸ mem)
      obtain ⟨first, mem, last, mem', close⟩ := inv.least chosen old covers
      exact ⟨first, mem, last, mem', shrunk.least.trans close⟩
  · rw [parts]
    intro span same
    rcases shrunk.reached with before | ⟨first, rest, suffix, covers, here⟩
    · obtain ⟨chosen, within, covers, bounds⟩ := inv.reached span (before.symm.trans same)
      exact ⟨chosen, fun e mem => List.mem_append_left _ (within mem), covers, bounds⟩
    · have inside : first :: rest <:+ passed ++ window ++ [event] := by
        rw [List.append_assoc]
        exact suffix.trans (List.suffix_append ..)
      obtain rfl : event.position - first.position = span := WithTop.coe_inj.mp (here.symm.trans same)
      refine ⟨first :: rest, inside.subset, covers, first.position, fun e mem => ⟨?_, ?_⟩⟩
      · rcases List.mem_cons.mp mem with rfl | later
        · exact le_rfl
        · exact (List.pairwise_cons.mp (sorted.sublist inside.sublist)).1 e later
      · have := until_event e (inside.subset mem)
        omega

theorem inv_run (positive : 0 < terms) (rest : List Event) {passed : List Event} (known : ∀ event ∈ rest, event.termIndex < terms)
    (sorted : (passed ++ window ++ rest).Pairwise (·.position ≤ ·.position)) (inv : Inv terms passed s window) :
    ∃ passed', passed' ++ (rest.foldl advance (s, window)).2 = passed ++ window ++ rest ∧
      Inv terms passed' (rest.foldl advance (s, window)).1 (rest.foldl advance (s, window)).2 := by
  induction rest generalizing passed s window with
  | nil => exact ⟨passed, (List.append_nil _).symm, inv⟩
  | cons event rest ih =>
    obtain ⟨known, others⟩ := List.forall_mem_cons.mp known
    rw [List.append_cons] at sorted ⊢
    obtain ⟨passed', parts, inv⟩ := inv_advance positive known (List.pairwise_append.mp sorted).1 inv
    rw [← parts] at sorted ⊢
    exact ih others sorted inv

end

/-- One occurrence of each term. -/
structure Choice (positionSets : List (List Int)) where
  position : Fin positionSets.length → Int
  occurs : ∀ i, position i ∈ positionSets.get i

def Choice.Spans {positionSets : List (List Int)} (c : Choice positionSets) (span : Int) : Prop :=
  ∃ first last, IsLeast (Set.range c.position) first ∧ IsGreatest (Set.range c.position) last ∧ last - first = span

section
variable {positionSets : List (List Int)}

theorem Choice.spans (positive : 0 < positionSets.length) (c : Choice positionSets) : ∃ span, c.Spans span := by
  have : Nonempty (Fin positionSets.length) := ⟨⟨0, positive⟩⟩
  obtain ⟨first, least⟩ := Finite.exists_min c.position
  obtain ⟨last, greatest⟩ := Finite.exists_max c.position
  exact ⟨_, _, _, ⟨⟨first, rfl⟩, Set.forall_mem_range.mpr least⟩, ⟨⟨last, rfl⟩, Set.forall_mem_range.mpr greatest⟩, rfl⟩

theorem mem_events {event : Event} :
    event ∈ events positionSets ↔ ∃ i : Fin positionSets.length, event.termIndex = i ∧ event.position ∈ positionSets.get i := by
  unfold events
  rw [List.mem_mergeSort, List.mem_flatMap]
  constructor
  · rintro ⟨⟨positions, i⟩, listed, inside⟩
    obtain ⟨position, mem, rfl⟩ := List.mem_map.mp inside
    obtain ⟨small, there⟩ := List.getElem?_eq_some_iff.mp (List.mem_zipIdx_iff_getElem?.mp listed)
    exact ⟨⟨i, small⟩, rfl, (congrArg (position ∈ ·) there).mpr mem⟩
  · rintro ⟨i, same, mem⟩
    refine ⟨(positionSets.get i, i), ?_, List.mem_map.mpr ⟨event.position, mem, same ▸ rfl⟩⟩
    exact List.mem_zipIdx_iff_getElem?.mpr (List.getElem?_eq_getElem i.isLt)

theorem inv_events (positive : 0 < positionSets.length) : ∃ passed s window, passed ++ window = events positionSets ∧
    Inv positionSets.length passed s window ∧ s.smallestSpan = smallestSpan positionSets := by
  have start : Inv positionSets.length [] ⟨List.replicate positionSets.length 0, 0, ⊤⟩ [] := by
    refine ⟨⟨List.length_replicate, nofun, fun i small => ?_, rfl⟩, nofun, fun chosen within covers => ?_, fun _ same => nomatch same⟩
    · rw [List.getD_eq_getElem?_getD, List.getElem?_replicate_of_lt small]
      rfl
    · obtain ⟨event, mem, _⟩ := covers 0 positive
      cases within mem
  have known : ∀ event ∈ events positionSets, event.termIndex < positionSets.length := by
    intro event mem
    obtain ⟨i, same, _⟩ := mem_events.mp mem
    exact same ▸ i.isLt
  have sorted : (events positionSets).Pairwise (·.position ≤ ·.position) := by
    refine List.Pairwise.imp of_decide_eq_true (List.pairwise_mergeSort (fun a b c => ?_) (fun a b => ?_) _)
    · simpa using le_trans
    · simpa using le_total _ _
  obtain ⟨passed, parts, inv⟩ := inv_run positive (events positionSets) known sorted start
  exact ⟨passed, _, _, parts, inv, rfl⟩

theorem smallestSpan_isLeast (positive : 0 < positionSets.length) (nonempty : ∀ positions ∈ positionSets, positions ≠ []) :
    ∃ span : Int, smallestSpan positionSets = span ∧ IsLeast {d | ∃ c : Choice positionSets, c.Spans d} span := by
  obtain ⟨passed, s, window, parts, inv, same⟩ := inv_events positive
  rw [← same]
  have lower (c : Choice positionSets) {d : Int} (spans : c.Spans d) : s.smallestSpan ≤ d := by
    obtain ⟨low, high, least, greatest, rfl⟩ := spans
    have within : List.ofFn (fun i => (⟨c.position i, i⟩ : Event)) ⊆ passed ++ window := by
      intro event mem
      obtain ⟨i, rfl⟩ := List.mem_ofFn.mp mem
      exact parts.symm ▸ mem_events.mpr ⟨i, rfl, c.occurs i⟩
    obtain ⟨first, begins, last, ends, close⟩ := inv.least _ within
      fun i small => ⟨_, List.mem_ofFn.mpr ⟨⟨i, small⟩, rfl⟩, rfl⟩
    obtain ⟨i, rfl⟩ := List.mem_ofFn.mp begins
    obtain ⟨j, rfl⟩ := List.mem_ofFn.mp ends
    exact close.trans (WithTop.coe_le_coe.mpr (Int.sub_le_sub (greatest.2 ⟨j, rfl⟩) (least.2 ⟨i, rfl⟩)))
  choose position occurs using fun i => List.exists_mem_of_ne_nil _ (nonempty (positionSets.get i) (List.get_mem ..))
  obtain ⟨d, spans⟩ := Choice.spans positive ⟨position, occurs⟩
  obtain ⟨span, reached, _⟩ := WithTop.le_coe_iff.mp (lower _ spans)
  refine ⟨span, reached, ?_, fun d ⟨c, spans⟩ => WithTop.coe_le_coe.mp (reached ▸ lower c spans)⟩
  obtain ⟨chosen, within, covers, start, bounds⟩ := inv.reached span reached
  have close (i : Fin positionSets.length) : ∃ position ∈ positionSets.get i, start ≤ position ∧ position ≤ start + span := by
    obtain ⟨event, mem, same⟩ := covers i i.isLt
    obtain ⟨j, there, inside⟩ := mem_events.mp (parts ▸ within mem)
    obtain rfl : j = i := Fin.ext (there.symm.trans same)
    exact ⟨event.position, inside, bounds event mem⟩
  choose position occurs bounds using close
  obtain ⟨d, spans⟩ := Choice.spans positive ⟨position, occurs⟩
  have above : span ≤ d := WithTop.coe_le_coe.mp (reached ▸ lower _ spans)
  have below : d ≤ span := by
    obtain ⟨_, _, ⟨⟨i, rfl⟩, _⟩, ⟨⟨j, rfl⟩, _⟩, rfl⟩ := spans
    exact sub_le_iff_le_add'.mpr ((bounds j).2.trans (add_le_add_left (bounds i).1 span))
  exact ⟨_, above.antisymm below ▸ spans⟩

end

/-- Also where a position occurs twice. -/
theorem proximityScore_window (positionSets : List (List Int)) (many : 2 ≤ positionSets.length)
    (nonempty : ∀ positions ∈ positionSets, positions ≠ []) :
    ∃ span : Int, smallestSpan positionSets = span ∧ IsLeast {d | ∃ c : Choice positionSets, c.Spans d} span ∧
      proximityScore positionSets = max 0 (PROXIMITY_BASE_SCORE - span / PROXIMITY_SPAN_DIVISOR) := by
  obtain ⟨span, reached, least⟩ := smallestSpan_isLeast (Nat.zero_lt_of_lt many) nonempty
  refine ⟨span, reached, least, ?_⟩
  have given : ¬(positionSets.length < 2 ∨ positionSets.any List.isEmpty = true) := by
    rintro (few | empty)
    · exact Nat.not_lt.mpr many few
    · obtain ⟨positions, mem, empty⟩ := List.any_eq_true.mp empty
      exact nonempty positions mem (List.isEmpty_iff.mp empty)
  unfold proximityScore
  rw [if_neg given, reached]

theorem proximityScore_window_two : ∃ span : Int, smallestSpan [[0, 30], [12], [14, 25]] = span ∧
    IsLeast {d | ∃ c : Choice [[0, 30], [12], [14, 25]], c.Spans d} span ∧
      proximityScore [[0, 30], [12], [14, 25]] = max 0 (PROXIMITY_BASE_SCORE - span / PROXIMITY_SPAN_DIVISOR) :=
  proximityScore_window _ (by decide) (by decide)

end SearchRescore
