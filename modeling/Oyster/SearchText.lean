import Oyster.Pieces
import Oyster.Unicode

/-! The places where the terms of a search stand in a text. Text and terms are compared in lower
case, and a place in the lowered text is brought back to the text code point by code point. The
lower case of a code point, which the runtime has, is given; it is never shorter. -/
namespace SearchQuery
open Utf16

section
variable (lower : CodePoint → CodeUnits)

def toLowerCase (s : CodeUnits) : CodeUnits := (codePoints s).flatMap lower

def indexOf (text value : CodeUnits) : Option Nat :=
  (List.range (text.length + 1)).find? fun i => value.isPrefixOf (text.drop i)

def size (p : CodePoint) : Nat := p.units.length

def sourceMatchRange (source normalizedSource : CodeUnits) (normalizedIndex normalizedLength : Nat) : Nat × Nat :=
  if normalizedSource.length = source.length then (normalizedIndex, normalizedLength)
  else (Pieces.locate size (fun p => (lower p).length) normalizedIndex (normalizedIndex + normalizedLength)
    (codePoints source) 0 0 none).getD (normalizedIndex, normalizedLength)

structure Match where
  termIndex : Nat
  index : Nat
  length : Nat
  deriving DecidableEq

def matchTerm (text term : CodeUnits) (termIndex : Nat) : Option Match :=
  let normalized := toLowerCase lower text
  let normalizedTerm := toLowerCase lower term
  if normalizedTerm = [] then none
  else (indexOf normalized normalizedTerm).map fun index =>
    let range := sourceMatchRange lower text normalized index normalizedTerm.length
    ⟨termIndex, range.1, range.2⟩

def matchingSearchTerms (text : CodeUnits) (terms : List CodeUnits) : List Match :=
  terms.zipIdx.filterMap fun (term, termIndex) => matchTerm lower text term termIndex

def leftmost : List Match → Option Match
  | [] => none
  | m :: rest => some (rest.foldl (fun first m => if m.index < first.index then m else first) m)

def matchSearchText (text : CodeUnits) (terms : List CodeUnits) (operator : String) : Option Match :=
  let found := matchingSearchTerms lower text terms
  if found = [] ∨ (operator ≠ "OR" ∧ found.length ≠ terms.length) then none else leftmost found

end

def FirstOccurrence (text value : CodeUnits) (start : Nat) : Prop :=
  value <+: text.drop start ∧ ∀ i < start, ¬value <+: text.drop i

variable {text value : CodeUnits}

theorem indexOf_eq_some {start : Nat} (h : indexOf text value = some start) : FirstOccurrence text value start := by
  obtain ⟨here, _, before⟩ := List.find?_range_eq_some.mp h
  refine ⟨List.isPrefixOf_iff_prefix.mp here, fun i less starts => ?_⟩
  have none := before i less
  rw [List.isPrefixOf_iff_prefix.mpr starts] at none
  cases none

theorem indexOf_isSome : (indexOf text value).isSome ↔ value <:+: text := by
  rw [indexOf, List.find?_isSome]
  constructor
  · rintro ⟨i, _, here⟩
    exact (List.isPrefixOf_iff_prefix.mp here).isInfix.trans (List.drop_suffix i text).isInfix
  · rintro ⟨front, back, rfl⟩
    refine ⟨front.length, List.mem_range.mpr ?_, List.isPrefixOf_iff_prefix.mpr ?_⟩
    · simp only [List.length_append]
      omega
    · rw [List.append_assoc, List.drop_left]
      exact List.prefix_append value back

section
variable {lower : CodePoint → CodeUnits}

/-- The least range of whole code points whose lower case reaches from `start` to `stop`. -/
def LeastRange (lower : CodePoint → CodeUnits) (text : CodeUnits) (start stop index length : Nat) : Prop :=
  Pieces.Least size (fun p => (lower p).length) (codePoints text) start stop index length

def OnBoundary (text : CodeUnits) (place : Nat) : Prop :=
  ∃ k ≤ (codePoints text).length, place = Pieces.offset size (codePoints text) k

theorem length_toLowerCase (s : CodeUnits) :
    (toLowerCase lower s).length = ((codePoints s).map fun p => (lower p).length).sum := by
  rw [toLowerCase, List.length_flatMap]

theorem length_codePoints (s : CodeUnits) : ((codePoints s).map size).sum = s.length := by
  calc ((codePoints s).map size).sum
    _ = ((codePoints s).flatMap CodePoint.units).length := by rw [List.length_flatMap]; rfl
    _ = s.length := by rw [units_codePoints]

theorem toLowerCase_eq_nil (grows : ∀ p, size p ≤ (lower p).length) {s : CodeUnits} :
    toLowerCase lower s = [] ↔ s = [] := by
  constructor
  · intro empty
    have total : ((codePoints s).map size).sum ≤ ((codePoints s).map fun p => (lower p).length).sum :=
      List.sum_le_sum fun p _ => grows p
    rw [← length_toLowerCase, empty, length_codePoints, List.length_nil, Nat.le_zero] at total
    exact List.length_eq_zero_iff.mp total
  · rintro rfl
    rfl

variable {text : CodeUnits} {value : CodeUnits} {start : Nat}

/-- What the mapping gives is the least range, if on the short way, where text and lower case
are as long as each other, the occurrence stands between code points. -/
theorem sourceMatchRange_least (grows : ∀ p, size p ≤ (lower p).length) (some_value : value ≠ [])
    (inside : start + value.length ≤ (toLowerCase lower text).length)
    (apart : (toLowerCase lower text).length = text.length →
      OnBoundary text start ∧ OnBoundary text (start + value.length)) :
    LeastRange lower text start (start + value.length)
      (sourceMatchRange lower text (toLowerCase lower text) start value.length).1
      (sourceMatchRange lower text (toLowerCase lower text) start value.length).2 := by
  have longer : 0 < value.length := List.length_pos_iff.mpr some_value
  unfold sourceMatchRange
  split_ifs with same
  · obtain ⟨⟨i, _, first⟩, j, within, last⟩ := apart same
    have sums : ((codePoints text).map fun p => (lower p).length).sum = ((codePoints text).map size).sum := by
      rw [← length_toLowerCase, same, length_codePoints]
    have ordered : i ≤ j := by
      by_contra later
      have := Pieces.offset_mono size (codePoints text) (show j ≤ i by omega)
      omega
    have least := Pieces.least_of_same (Pieces.sum_eq_iff (fun p _ => grows p) sums) ordered within first last
    rw [Nat.add_sub_cancel_left] at least
    exact least
  · rw [length_toLowerCase] at inside
    have longer' : start < start + value.length := Nat.lt_add_of_pos_right longer
    obtain ⟨index, length, found, least⟩ := @Pieces.locate_spec _ size _ _ _ _ longer' inside
    rw [found]
    exact least

theorem FirstOccurrence.inside (h : FirstOccurrence text value start) (some_value : value ≠ []) :
    start + value.length ≤ text.length := by
  have short := h.1.length_le
  have longer : 0 < value.length := List.length_pos_iff.mpr some_value
  rw [List.length_drop] at short
  omega

variable {term : CodeUnits} {k : Nat}

theorem matchTerm_isSome (grows : ∀ p, size p ≤ (lower p).length) :
    (matchTerm lower text term k).isSome ↔ term ≠ [] ∧ toLowerCase lower term <:+: toLowerCase lower text := by
  unfold matchTerm
  simp only [toLowerCase_eq_nil grows]
  split_ifs with empty
  · simp [empty]
  · rw [Option.isSome_map, indexOf_isSome, and_iff_right empty]

variable {m : Match}

theorem matchTerm_spec (grows : ∀ p, size p ≤ (lower p).length) (h : matchTerm lower text term k = some m) :
    m.termIndex = k ∧ ∃ start, FirstOccurrence (toLowerCase lower text) (toLowerCase lower term) start ∧
      (((toLowerCase lower text).length = text.length →
          OnBoundary text start ∧ OnBoundary text (start + (toLowerCase lower term).length)) →
        LeastRange lower text start (start + (toLowerCase lower term).length) m.index m.length) := by
  unfold matchTerm at h
  simp only at h
  split_ifs at h with empty
  obtain ⟨start, found, rfl⟩ := Option.map_eq_some_iff.mp h
  have first := indexOf_eq_some found
  exact ⟨rfl, start, first, sourceMatchRange_least grows empty (first.inside empty)⟩

theorem mem_matching {terms : List CodeUnits} : m ∈ matchingSearchTerms lower text terms ↔
      ∃ term k, terms[k]? = some term ∧ matchTerm lower text term k = some m := by
  simp only [matchingSearchTerms, List.mem_filterMap, Prod.exists, List.mem_zipIdx_iff_getElem?]

theorem matching_pairwise (grows : ∀ p, size p ≤ (lower p).length) (text : CodeUnits) (terms : List CodeUnits) :
    (matchingSearchTerms lower text terms).Pairwise fun a b => a.termIndex < b.termIndex := by
  have indices : terms.zipIdx.Pairwise fun a b => a.2 < b.2 := by
    refine List.pairwise_map.mp ?_
    rw [List.zipIdx_map_snd]
    exact List.pairwise_lt_range'
  refine List.pairwise_filterMap.mpr (indices.imp ?_)
  intro a b less m found m' found'
  rw [(matchTerm_spec grows found).1, (matchTerm_spec grows found').1]
  exact less

theorem matching_length (grows : ∀ p, size p ≤ (lower p).length) (text : CodeUnits) (terms : List CodeUnits) :
    (matchingSearchTerms lower text terms).length = terms.length ↔
      ∀ term ∈ terms, term ≠ [] ∧ toLowerCase lower term <:+: toLowerCase lower text := by
  have zipped : terms.zipIdx.length = terms.length := List.length_zipIdx
  rw [matchingSearchTerms, List.length_filterMap_eq_countP, ← zipped, List.countP_eq_length]
  constructor
  · intro all term mem
    obtain ⟨k, _, at'⟩ := List.mem_iff_getElem.mp mem
    have listed : (term, k) ∈ terms.zipIdx := List.mem_zipIdx_iff_getElem?.mpr (List.getElem?_eq_some_iff.mpr ⟨_, at'⟩)
    exact (matchTerm_isSome grows).mp (all (term, k) listed)
  · rintro all ⟨term, k⟩ listed
    refine (matchTerm_isSome grows).mpr (all term ?_)
    exact List.mem_of_getElem? (List.mem_zipIdx_iff_getElem?.mp listed)

variable {l : List Match}

theorem leftmost_spec (h : leftmost l = some m) : m ∈ l ∧ ∀ other ∈ l, m.index ≤ other.index := by
  have fold : ∀ (rest : List Match) (first : Match),
      let m := rest.foldl (fun first m => if m.index < first.index then m else first) first
      m ∈ first :: rest ∧ ∀ other ∈ first :: rest, m.index ≤ other.index := by
    intro rest
    induction rest with
    | nil => exact fun first => ⟨List.mem_cons_self, fun other mem => by rw [List.mem_singleton.mp mem]; rfl⟩
    | cons second rest ih =>
      intro first
      rw [List.foldl_cons]
      split_ifs with less
      · obtain ⟨mem, least⟩ := ih second
        refine ⟨List.mem_cons_of_mem _ mem, List.forall_mem_cons.mpr ⟨?_, least⟩⟩
        exact (least second List.mem_cons_self).trans (Nat.le_of_lt less)
      · obtain ⟨mem, least⟩ := ih first
        obtain ⟨own, later⟩ := List.forall_mem_cons.mp least
        refine ⟨?_, List.forall_mem_cons.mpr ⟨own, List.forall_mem_cons.mpr ⟨?_, later⟩⟩⟩
        · rcases List.mem_cons.mp mem with same | mem
          · rw [same]
            exact List.mem_cons_self
          · exact List.mem_cons_of_mem _ (List.mem_cons_of_mem _ mem)
        · exact own.trans (Nat.le_of_not_lt less)
  cases l with
  | nil => cases h
  | cons first rest =>
    cases h
    exact fold rest first

theorem leftmost_isSome : (leftmost l).isSome ↔ l ≠ [] := by
  cases l <;> simp [leftmost]

def Hit (lower : CodePoint → CodeUnits) (text : CodeUnits) (terms : List CodeUnits) (operator : String) : Prop :=
  if operator = "OR" then ∃ term ∈ terms, term ≠ [] ∧ toLowerCase lower term <:+: toLowerCase lower text
  else terms ≠ [] ∧ ∀ term ∈ terms, term ≠ [] ∧ toLowerCase lower term <:+: toLowerCase lower text

theorem matchSearchText_isSome (grows : ∀ p, size p ≤ (lower p).length) (text : CodeUnits)
    (terms : List CodeUnits) (operator : String) :
    (matchSearchText lower text terms operator).isSome ↔ Hit lower text terms operator := by
  have some_found : matchingSearchTerms lower text terms ≠ [] ↔
      ∃ term ∈ terms, term ≠ [] ∧ toLowerCase lower term <:+: toLowerCase lower text := by
    constructor
    · intro found
      obtain ⟨m, mem⟩ := List.exists_mem_of_ne_nil _ found
      obtain ⟨term, k, at', found⟩ := mem_matching.mp mem
      exact ⟨term, List.mem_of_getElem? at', (matchTerm_isSome grows).mp (Option.isSome_of_eq_some found)⟩
    · rintro ⟨term, mem, contained⟩
      obtain ⟨k, _, at'⟩ := List.mem_iff_getElem.mp mem
      obtain ⟨m, found⟩ := Option.isSome_iff_exists.mp ((matchTerm_isSome (k := k) grows).mpr contained)
      exact List.ne_nil_of_mem (mem_matching.mpr ⟨term, k, List.getElem?_eq_some_iff.mpr ⟨_, at'⟩, found⟩)
  have length := matching_length grows text terms
  have every : matchingSearchTerms lower text terms ≠ [] ∧
      (matchingSearchTerms lower text terms).length = terms.length ↔
        terms ≠ [] ∧ ∀ term ∈ terms, term ≠ [] ∧ toLowerCase lower term <:+: toLowerCase lower text := by
    rw [length, ← List.length_pos_iff]
    constructor
    · rintro ⟨found, all⟩
      rw [length.mpr all, List.length_pos_iff] at found
      exact ⟨found, all⟩
    · rintro ⟨given, all⟩
      rw [length.mpr all, List.length_pos_iff]
      exact ⟨given, all⟩
  rw [matchSearchText, Hit]
  by_cases either : operator = "OR"
  · simp only [either, if_true, ne_eq, not_true_eq_false, false_and, or_false, ← some_found]
    split_ifs with none
    · simp [none]
    · rw [leftmost_isSome]
  · simp only [either, if_false, ne_eq, not_false_eq_true, true_and, ← every]
    split_ifs with refused
    · simp only [Option.isSome_none, Bool.false_eq_true, false_iff, not_and]
      exact fun found same => refused.elim found fun other => other same
    · rw [leftmost_isSome]
      obtain ⟨found, same⟩ := not_or.mp refused
      exact ⟨fun _ => ⟨found, not_not.mp same⟩, fun both => both.1⟩

/-- The matches are the terms in the text, each with the least range of its first occurrence, and
the hit is the leftmost of them. On the short way, where text and lower case are as long as each
other, this is so for the occurrences between code points. -/
theorem matchSearchText_highlights (lower : CodePoint → CodeUnits) (grows : ∀ p, size p ≤ (lower p).length)
    (text : CodeUnits) (terms : List CodeUnits) (operator : String) :
    (∀ k term, terms[k]? = some term → ((∃ m ∈ matchingSearchTerms lower text terms, m.termIndex = k) ↔
        term ≠ [] ∧ toLowerCase lower term <:+: toLowerCase lower text)) ∧
      ((matchingSearchTerms lower text terms).Pairwise fun a b => a.termIndex < b.termIndex) ∧
      (∀ m ∈ matchingSearchTerms lower text terms, ∃ term start, terms[m.termIndex]? = some term ∧
        FirstOccurrence (toLowerCase lower text) (toLowerCase lower term) start ∧
        (((toLowerCase lower text).length = text.length →
            OnBoundary text start ∧ OnBoundary text (start + (toLowerCase lower term).length)) →
          LeastRange lower text start (start + (toLowerCase lower term).length) m.index m.length)) ∧
      ((matchSearchText lower text terms operator).isSome ↔ Hit lower text terms operator) ∧
      ∀ m, matchSearchText lower text terms operator = some m → m ∈ matchingSearchTerms lower text terms ∧
          ∀ other ∈ matchingSearchTerms lower text terms, m.index ≤ other.index := by
  refine ⟨fun k term at' => ?_, matching_pairwise grows text terms, fun m mem => ?_,
    matchSearchText_isSome grows text terms operator, fun m found => ?_⟩
  · rw [← matchTerm_isSome (k := k) grows, Option.isSome_iff_exists]
    constructor
    · rintro ⟨m, mem, rfl⟩
      obtain ⟨other, k, at'', found⟩ := mem_matching.mp mem
      rw [← (matchTerm_spec grows found).1] at at'' found
      rw [at'] at at''
      exact ⟨m, Option.some.inj at'' ▸ found⟩
    · rintro ⟨m, found⟩
      exact ⟨m, mem_matching.mpr ⟨term, k, at', found⟩, (matchTerm_spec grows found).1⟩
  · obtain ⟨term, k, at', found⟩ := mem_matching.mp mem
    obtain ⟨rfl, start, first, least⟩ := matchTerm_spec grows found
    exact ⟨term, start, at', first, least⟩
  · rw [matchSearchText] at found
    split_ifs at found
    exact leftmost_spec found

end

/-- A lower case that changes nothing. -/
def unchanged (p : CodePoint) : CodeUnits := p.units

/-- The lower case of U+0130 is longer by a combining dot. -/
def dotted (p : CodePoint) : CodeUnits := if p = .scalar (Char.ofNat 0x130) then [0x69, 0x307] else p.units

theorem dotted_grows (p : CodePoint) : size p ≤ (dotted p).length := by
  unfold dotted
  split_ifs with this
  · subst this
    decide
  · exact Nat.le_refl _

/-- The dot alone is found in "aİ", and its range is the whole of the second character. -/
theorem matchSearchText_highlights_dot :
    matchSearchText dotted [0x61, 0x130] [[0x307]] "AND" = some ⟨0, 1, 1⟩ ∧
      ∃ start, FirstOccurrence (toLowerCase dotted [0x61, 0x130]) (toLowerCase dotted [0x307]) start ∧
        LeastRange dotted [0x61, 0x130] start (start + 1) 1 1 := by
  refine ⟨by decide +kernel, ?_⟩
  obtain ⟨_, _, ranges, _⟩ := matchSearchText_highlights dotted dotted_grows [0x61, 0x130] [[0x307]] "AND"
  obtain ⟨term, start, at', first, least⟩ := ranges ⟨0, 1, 1⟩ (by decide +kernel)
  cases at'
  exact ⟨start, first, least fun same => absurd same (by decide +kernel)⟩

/-- An empty term is in every text and no match; and the second half of a pair is a match of its own. -/
theorem empty_term_skipped :
    toLowerCase unchanged [] <:+: toLowerCase unchanged [0x61] ∧ matchingSearchTerms unchanged [0x61] [[]] = [] ∧
      matchSearchText unchanged [0x61] [] "AND" = none ∧
      matchingSearchTerms unchanged [0xd83d, 0xde00] [[0xde00]] = [⟨0, 1, 1⟩] ∧
      ¬OnBoundary [0xd83d, 0xde00] 1 := by
  refine ⟨List.nil_infix, by decide +kernel, by decide +kernel, by decide +kernel, ?_⟩
  rintro ⟨k, within, place⟩
  have apart : ∀ k ≤ (codePoints [0xd83d, 0xde00]).length,
      1 ≠ Pieces.offset size (codePoints [0xd83d, 0xde00]) k := by decide +kernel
  exact apart k within place

end SearchQuery
