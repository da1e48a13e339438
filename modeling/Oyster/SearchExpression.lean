import Oyster.SearchText

/-! The query of a search: its terms with their operator, and the full-text expression made of
them. The expression quotes every term, and read back as the index reads it, it is the terms again. -/
namespace SearchQuery
open Utf16

def isSpace (u : UInt16) : Bool :=
  (0x9 ≤ u && u ≤ 0xd) || u = 0x20 || u = 0xa0 || u = 0x1680 || (0x2000 ≤ u && u ≤ 0x200a) ||
    u = 0x2028 || u = 0x2029 || u = 0x202f || u = 0x205f || u = 0x3000 || u = 0xfeff

def trim (s : CodeUnits) : CodeUnits := ((s.dropWhile isSpace).reverse.dropWhile isSpace).reverse

inductive Operator where
  | and | or
  deriving DecidableEq

def Operator.text : Operator → String
  | .and => "AND"
  | .or => "OR"

structure Query where
  terms : List CodeUnits := []
  operator : Operator := .and

section
variable (lower : CodePoint → CodeUnits)

/-- The end of a term. A bare `or` is the operator, and a bare term has at least three units. -/
def push (query : Query) (current : CodeUnits) (isQuoted : Bool) : Query :=
  let rawValue := trim current
  let value := toLowerCase lower rawValue
  if !isQuoted ∧ value = [0x6f, 0x72] then { query with operator := .or }
  else if value ≠ [] ∧ (isQuoted ∨ 3 ≤ rawValue.length) ∧ value ∉ query.terms then
    { query with terms := query.terms ++ [value] }
  else query

def parseFrom (query : Query) (current : CodeUnits) (quoted : Bool) : CodeUnits → Query
  | [] => push lower query current quoted
  | 0x5c :: 0x22 :: rest => parseFrom query (current ++ [0x22]) quoted rest
  | c :: rest =>
    if c = 0x22 then
      if quoted then parseFrom (push lower query current true) [] false rest
      else if trim current ≠ [] then parseFrom (push lower query current false) [] true rest
      else parseFrom query current true rest
    else if isSpace c ∧ !quoted then parseFrom (push lower query current false) [] quoted rest
    else parseFrom query (current ++ [c]) quoted rest

def parseSearchQuery (query : CodeUnits) : Query :=
  parseFrom lower {} [] false (trim (query.filter (· ≠ 0)))

end

section
variable {lower : CodePoint → CodeUnits}

/-- What holds of the terms of a query, from the characters they are made of. -/
structure Terms (lower : CodePoint → CodeUnits) (query : Query) : Prop where
  nonempty : ∀ term ∈ query.terms, term ≠ []
  free : ∀ term ∈ query.terms, 0 ∉ term

variable {s : CodeUnits}

theorem mem_codePoints_units {p : CodePoint} {u : UInt16} (mem : p ∈ codePoints s) (inside : u ∈ p.units) :
    u ∈ s := by
  rw [← units_codePoints s]
  exact List.mem_flatMap.mpr ⟨p, mem, inside⟩

theorem zero_notMem_toLowerCase (kept : ∀ p, 0 ∈ lower p → 0 ∈ p.units) (free : 0 ∉ s) : 0 ∉ toLowerCase lower s := by
  intro mem
  obtain ⟨p, inside, zero⟩ := List.mem_flatMap.mp mem
  exact free (mem_codePoints_units inside (kept p zero))

theorem trim_subset (s : CodeUnits) : trim s ⊆ s := by
  intro u mem
  have inner := (List.dropWhile_sublist isSpace).subset (List.mem_reverse.mp mem)
  exact (List.dropWhile_sublist isSpace).subset (List.mem_reverse.mp inner)

variable {query : Query} {current : CodeUnits}

theorem push_terms (kept : ∀ p, 0 ∈ lower p → 0 ∈ p.units) (terms : Terms lower query) (free : 0 ∉ current)
    (isQuoted : Bool) : Terms lower (push lower query current isQuoted) := by
  unfold push
  simp only
  split_ifs with operator added
  · exact ⟨terms.nonempty, terms.free⟩
  · have value : 0 ∉ toLowerCase lower (trim current) :=
      zero_notMem_toLowerCase kept fun zero => free (trim_subset current zero)
    constructor
    · intro term mem
      rcases List.mem_append.mp mem with old | new
      · exact terms.nonempty term old
      · rw [List.mem_singleton.mp new]
        exact added.1
    · intro term mem
      rcases List.mem_append.mp mem with old | new
      · exact terms.free term old
      · rw [List.mem_singleton.mp new]
        exact value
  · exact terms

theorem parseFrom_terms (kept : ∀ p, 0 ∈ lower p → 0 ∈ p.units) (terms : Terms lower query) (free : 0 ∉ current)
    {quoted : Bool} {rest : CodeUnits} (text : 0 ∉ rest) :
    Terms lower (parseFrom lower query current quoted rest) := by
  -- a character that is added is one of the text
  have added : ∀ {current : CodeUnits} {c : UInt16}, 0 ∉ current → c ≠ 0 → 0 ∉ current ++ [c] := by
    intro current c free other mem
    rcases List.mem_append.mp mem with old | new
    · exact free old
    · exact other (List.mem_singleton.mp new).symm
  fun_induction parseFrom lower query current quoted rest with
  | case1 query current quoted => exact push_terms kept terms free quoted
  | case2 query current quoted rest ih =>
    rw [List.mem_cons, List.mem_cons, not_or, not_or] at text
    exact ih terms (added free (by decide)) text.2.2
  | case3 query current rest _ ih =>
    exact ih (push_terms kept terms free true) List.not_mem_nil (List.not_mem_of_not_mem_cons text)
  | case4 query current quoted rest _ _ _ ih =>
    exact ih (push_terms kept terms free false) List.not_mem_nil (List.not_mem_of_not_mem_cons text)
  | case5 query current quoted rest _ _ _ ih => exact ih terms free (List.not_mem_of_not_mem_cons text)
  | case6 query current quoted c rest _ _ _ ih =>
    exact ih (push_terms kept terms free false) List.not_mem_nil (List.not_mem_of_not_mem_cons text)
  | case7 query current quoted c rest _ _ _ ih =>
    refine ih terms (added free ?_) (List.not_mem_of_not_mem_cons text)
    rintro rfl
    exact text List.mem_cons_self

theorem parseSearchQuery_terms (kept : ∀ p, 0 ∈ lower p → 0 ∈ p.units) (query : CodeUnits) :
    Terms lower (parseSearchQuery lower query) := by
  have first : Terms lower {} :=
    ⟨fun term mem => absurd mem List.not_mem_nil, fun term mem => absurd mem List.not_mem_nil⟩
  refine parseFrom_terms kept first List.not_mem_nil fun zero => ?_
  obtain ⟨_, other⟩ := List.mem_filter.mp (trim_subset _ zero)
  exact of_decide_eq_true other rfl

end

def quoteTerm (term : CodeUnits) : CodeUnits :=
  0x22 :: (term.filter (· ≠ 0)).flatMap (fun u => if u = 0x22 then [0x22, 0x22] else [u]) ++ [0x22]

def separator : Operator → CodeUnits
  | .and => [0x20, 0x41, 0x4e, 0x44, 0x20]
  | .or => [0x20, 0x4f, 0x52, 0x20]

def ftsSearchExpression (terms : List CodeUnits) (operator : Operator) : CodeUnits :=
  (separator operator).intercalate (terms.map quoteTerm)

/-- What is left of a string after its opening quote. -/
def readString : CodeUnits → Option (CodeUnits × CodeUnits)
  | [] => none
  | [u] => if u = 0x22 then some ([], []) else none
  | u :: v :: rest =>
    if u = 0x22 then
      if v = 0x22 then (readString rest).map (Prod.map (0x22 :: ·) id) else some ([], v :: rest)
    else (readString (v :: rest)).map (Prod.map (u :: ·) id)

/-- Strings with one operator between them; the number bounds how many. -/
def readStrings (operator : Operator) : Nat → CodeUnits → Option (List CodeUnits)
  | n + 1, 0x22 :: text => do
      let (first, rest) ← readString text
      if rest = [] then some [first]
      else if (separator operator).isPrefixOf rest then
        (readStrings operator n (rest.drop (separator operator).length)).map (first :: ·)
      else none
  | _, _ => none

/-- What an index answers to an expression for a text: phrases are looked for without regard to case. -/
def ftsMatch (lower : CodePoint → CodeUnits) (expression text : CodeUnits) : Bool :=
  let contains := fun phrase => (indexOf (toLowerCase lower text) (toLowerCase lower phrase)).isSome
  match readStrings .and expression.length expression, readStrings .or expression.length expression with
  | some phrases, _ => phrases.all contains
  | none, some phrases => phrases.any contains
  | none, none => false

def doubled (term : CodeUnits) : CodeUnits := term.flatMap fun u => if u = 0x22 then [0x22, 0x22] else [u]

theorem readString_doubled (term : CodeUnits) {rest : CodeUnits} (free : rest.head? ≠ some 0x22) :
    readString (doubled term ++ 0x22 :: rest) = some (term, rest) := by
  induction term with
  | nil =>
    cases rest with
    | nil => rfl
    | cons u rest =>
      have other : u ≠ 0x22 := fun same => free (congrArg some same)
      rw [doubled, List.flatMap_nil, List.nil_append, readString, if_pos rfl, if_neg other]
  | cons u term ih =>
    have cons : doubled (u :: term) = (if u = 0x22 then [0x22, 0x22] else [u]) ++ doubled term := List.flatMap_cons
    rw [cons]
    by_cases quote : u = 0x22
    · rw [if_pos quote, quote]
      simp only [List.cons_append, List.nil_append]
      rw [readString, if_pos rfl, if_pos rfl, ih]
      rfl
    · rw [if_neg quote, List.cons_append, List.nil_append, List.cons_append]
      cases tail : doubled term ++ 0x22 :: rest with
      | nil => exact absurd tail (by simp)
      | cons v after =>
        rw [readString, if_neg quote, ← tail, ih]
        rfl

theorem quoteTerm_eq {term : CodeUnits} (free : 0 ∉ term) : quoteTerm term = 0x22 :: (doubled term ++ [0x22]) := by
  have same : term.filter (· ≠ 0) = term := by
    refine List.filter_eq_self.mpr fun u mem => decide_eq_true ?_
    rintro rfl
    exact free mem
  rw [quoteTerm, same]
  rfl

variable {terms : List CodeUnits}

theorem readStrings_expression (operator : Operator) (given : terms ≠ []) (free : ∀ term ∈ terms, 0 ∉ term) {n : Nat}
    (enough : terms.length ≤ n) : readStrings operator n (ftsSearchExpression terms operator) = some terms := by
  unfold ftsSearchExpression
  induction terms generalizing n with
  | nil => exact absurd rfl given
  | cons term terms ih =>
    obtain ⟨own, later⟩ := List.forall_mem_cons.mp free
    obtain ⟨n, rfl⟩ : ∃ m, n = m + 1 := ⟨n - 1, by simp at enough; omega⟩
    cases terms with
    | nil =>
      rw [List.map_cons, List.map_nil, List.intercalate_singleton, quoteTerm_eq own, readStrings,
        readString_doubled term (by simp)]
      rfl
    | cons second terms =>
      have step : (separator operator).intercalate ((term :: second :: terms).map quoteTerm) =
          0x22 :: (doubled term ++ 0x22 :: (separator operator ++
            (separator operator).intercalate ((second :: terms).map quoteTerm))) := by
        rw [List.map_cons, List.map_cons, List.intercalate_cons_cons, quoteTerm_eq own]
        simp
      have apart : (separator operator ++
          (separator operator).intercalate ((second :: terms).map quoteTerm)).head? ≠ some 0x22 := by
        cases operator <;> simp [separator]
      rw [step, readStrings, readString_doubled term apart]
      have rest := ih (List.cons_ne_nil _ _) later (show (second :: terms).length ≤ n by simpa using enough)
      have some_rest : separator operator ++
          (separator operator).intercalate ((second :: terms).map quoteTerm) ≠ [] := by
        cases operator <;> simp [separator]
      have starts : (separator operator).isPrefixOf (separator operator ++
          (separator operator).intercalate ((second :: terms).map quoteTerm)) = true :=
        List.isPrefixOf_iff_prefix.mpr (List.prefix_append _ _)
      simp only [Option.bind_eq_bind, Option.bind_some, List.drop_left, rest, Option.map_some, some_rest,
        starts, if_true, if_false]

theorem readStrings_other {operator other : Operator} (differ : operator ≠ other) {first second : CodeUnits}
    (free : 0 ∉ first) (n : Nat) :
    readStrings other n (ftsSearchExpression (first :: second :: terms) operator) = none := by
  cases n with
  | zero => rw [readStrings]; simp
  | succ n =>
    have step : ftsSearchExpression (first :: second :: terms) operator =
        0x22 :: (doubled first ++ 0x22 :: (separator operator ++
          (separator operator).intercalate ((second :: terms).map quoteTerm))) := by
      rw [ftsSearchExpression, List.map_cons, List.map_cons, List.intercalate_cons_cons, quoteTerm_eq free]
      simp
    have apart : (separator operator ++
        (separator operator).intercalate ((second :: terms).map quoteTerm)).head? ≠ some 0x22 := by
      cases operator <;> simp [separator]
    rw [step, readStrings, readString_doubled first apart]
    cases operator <;> cases other <;> simp_all [separator]

def has (lower : CodePoint → CodeUnits) (text : CodeUnits) (terms : List CodeUnits) : Operator → Bool
  | .and => terms.all fun term => (indexOf (toLowerCase lower text) (toLowerCase lower term)).isSome
  | .or => terms.any fun term => (indexOf (toLowerCase lower text) (toLowerCase lower term)).isSome

theorem length_le_expression (terms : List CodeUnits) (operator : Operator) :
    terms.length ≤ (ftsSearchExpression terms operator).length := by
  unfold ftsSearchExpression
  induction terms with
  | nil => exact Nat.zero_le _
  | cons term terms ih =>
    cases terms with
    | nil => simp [quoteTerm]
    | cons second terms =>
      rw [List.map_cons, List.map_cons, List.intercalate_cons_cons, ← List.map_cons]
      simp only [List.length_cons, List.length_append, quoteTerm] at ih ⊢
      omega

theorem ftsMatch_expression (lower : CodePoint → CodeUnits) (given : terms ≠ []) (free : ∀ term ∈ terms, 0 ∉ term)
    (operator : Operator) (text : CodeUnits) :
    ftsMatch lower (ftsSearchExpression terms operator) text = has lower text terms operator := by
  have read := readStrings_expression operator given free (length_le_expression terms operator)
  cases operator with
  | and => simp only [ftsMatch, read, has]
  | or =>
    obtain ⟨first, rest, rfl⟩ := List.exists_cons_of_ne_nil given
    cases rest with
    | nil =>
      -- one string is read with either operator
      have same : ftsSearchExpression [first] .or = ftsSearchExpression [first] .and := rfl
      have read' := readStrings_expression .and given free (length_le_expression [first] .and)
      rw [same]
      simp only [ftsMatch, read', has, List.all_cons, List.all_nil, List.any_cons, List.any_nil, Bool.and_true,
        Bool.or_false]
    | cons second terms =>
      have none : readStrings .and (ftsSearchExpression (first :: second :: terms) .or).length
          (ftsSearchExpression (first :: second :: terms) .or) = none :=
        readStrings_other (by decide) (free first List.mem_cons_self) _
      simp only [ftsMatch, none, read, has]

end SearchQuery
