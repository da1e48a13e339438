import Oyster.SearchExpression
import Oyster.StringDecoder

/-! The search of the SQLite catalog, with the full-text index and without it. The index gives
the entries that can have hits; these are looked at again, part by part, as the scan does. -/
namespace SearchQuery
open Utf16

inductive PartKind where
  | name | text | thinking | toolCall
  deriving DecidableEq

structure Part where
  role : Option CodeUnits
  kind : PartKind
  text : CodeUnits

/-- A block of a message; the arguments of a call are given as the JSON they are searched as. -/
inductive Block where
  | text (text : CodeUnits)
  | thinking (thinking : CodeUnits)
  | toolCall (name : Option CodeUnits) (arguments : CodeUnits)
  | other

inductive Content where
  | string (text : CodeUnits)
  | blocks (blocks : List Block)
  | other

inductive Body where
  | sessionInfo (name : Option CodeUnits)
  | message (role : Option CodeUnits) (content : Content)
  | other

structure Entry where
  id : CodeUnits
  timestamp : Option CodeUnits
  body : Body

def searchableBlockPart (role : Option CodeUnits) : Block → Option Part
  | .text text => if text = [] then none else some ⟨role, .text, text⟩
  | .thinking thinking => if thinking = [] then none else some ⟨role, .thinking, thinking⟩
  | .toolCall name arguments =>
    let name := (name.filter (· ≠ [])).getD [0x3f]
    some ⟨role, .toolCall, name ++ 0x20 :: arguments⟩
  | .other => none

/-- The role of a session's name: `meta`. -/
def metaRole : CodeUnits := [0x6d, 0x65, 0x74, 0x61]

def searchableParts (entry : Entry) : List Part :=
  match entry.body with
  | .sessionInfo name => ((name.filter (· ≠ [])).map fun name => ⟨some metaRole, .name, name⟩).toList
  | .message role (.string text) => [⟨role, .text, text⟩]
  | .message role (.blocks blocks) => blocks.filterMap (searchableBlockPart role)
  | .message _ .other => []
  | .other => []

structure Session where
  id : CodeUnits
  name : Option CodeUnits
  harness : CodeUnits
  cwd : Option CodeUnits
  preview : Option CodeUnits

structure Database where
  sessions : List Session
  entries : CodeUnits → List Entry
  branch : CodeUnits → List Entry
  within : ∀ id, branch id ⊆ entries id

structure IndexRow where
  sessionId : CodeUnits
  entryId : CodeUnits
  part : Part

def Indexed (database : Database) (rows : List IndexRow) : Prop :=
  ∀ row, row ∈ rows ↔ (∃ session ∈ database.sessions, session.id = row.sessionId) ∧
    ∃ entry ∈ database.entries row.sessionId, entry.id = row.entryId ∧ row.part ∈ searchableParts entry

inductive Scope where
  | session | folder | all | other

/-- An argument that names a session or a folder: a string, or an object with an id. -/
inductive Value where
  | undefined | null
  | string (s : CodeUnits)
  | object (id : CodeUnits)
  deriving DecidableEq

inductive SearchFailure where
  | sessionIdRequired | notAPath

structure Search where
  q : CodeUnits
  scope : Scope
  path : Value
  cwd : Value
  includeTools : Bool
  maxResults : Int

structure Snippet where
  before : CodeUnits
  matched : CodeUnits
  after : CodeUnits

structure SearchHit where
  entryId : CodeUnits
  role : Option CodeUnits
  kind : PartKind
  timestamp : Option CodeUnits
  snippet : Snippet

def collapse : Bool → CodeUnits → CodeUnits
  | _, [] => []
  | inside, u :: rest =>
    if isSpace u then (if inside then [] else [0x20]) ++ collapse true rest else u :: collapse false rest

def ellipsis : UInt16 := 0x2026

def snippet (text : CodeUnits) (index length : Nat) : Snippet :=
  let start := index - 70
  let stop := min text.length (index + length + 70)
  { before := (if start ≠ 0 then [ellipsis] else []) ++ collapse false ((text.take index).drop start)
    matched := (text.take (index + length)).drop index
    after := collapse false ((text.take stop).drop (index + length)) ++ if stop < text.length then [ellipsis] else [] }

structure Result where
  hit : SearchHit
  session : Session

/-- What is outside: the lower case of a code point, the resolution of a path, the reading of a
date, and the score of a result, given the latest date of all. -/
structure Runtime (Score : Type) where
  lower : CodePoint → CodeUnits
  resolve : CodeUnits → CodeUnits
  parseDate : CodeUnits → Option Int
  score : Option Int → CodeUnits → Result → Score

structure Outcome where
  results : List Result
  truncated : Bool
  filesSearched : Nat

def Value.truthy : Value → Bool
  | .string s => s ≠ []
  | .object _ => true
  | _ => false

def identityId : Value → Except SearchFailure CodeUnits
  | .string s | .object s => if s = [] then .error .sessionIdRequired else .ok s
  | _ => .error .sessionIdRequired

/-- Without a `cwd` of its own a search has its path as one. -/
def Search.folder (search : Search) : Value := if search.cwd = .undefined then search.path else search.cwd

def user : CodeUnits := [0x75, 0x73, 0x65, 0x72]

def assistant : CodeUnits := [0x61, 0x73, 0x73, 0x69, 0x73, 0x74, 0x61, 0x6e, 0x74]

def Part.isText (part : Part) : Bool :=
  part.kind = .name || part.kind = .text && (part.role = some user || part.role = some assistant)

section
variable {Score : Type} (runtime : Runtime Score)

def Runtime.resolveValue : Value → Except SearchFailure CodeUnits
  | .string s => .ok (runtime.resolve s)
  | _ => .error .notAPath

def list (database : Database) (cwd : Value) : Except SearchFailure (List Session) :=
  if cwd.truthy then do
    let folder ← runtime.resolveValue cwd
    return database.sessions.filter (·.cwd = some folder)
  else .ok database.sessions

def selectSearchSessions (database : Database) (search : Search) : Except SearchFailure (List Session) :=
  match search.scope with
  | .session => do
      let id ← identityId search.path
      return (database.sessions.find? (·.id = id)).toList
  | .all => .ok database.sessions
  | _ => list runtime database search.folder

/-- The rows of the scope, as the statement's condition. -/
def scopeFilter (database : Database) (search : Search) : Except SearchFailure (IndexRow → Bool) :=
  match search.scope with
  | .session => do
      let id ← identityId search.path
      return fun row => row.sessionId = id
  | .folder => do
      let folder ← runtime.resolveValue search.folder
      return fun row => database.sessions.any fun session => session.id = row.sessionId && session.cwd = some folder
  | _ => .ok fun _ => true

/-- The index knows no phrase of less than three characters. -/
def canUseSearchIndex (query : Query) : Bool := query.terms.all fun term => 3 ≤ (codePoints term).length

def findIndexedSearchCandidates (database : Database) (index : Option (List IndexRow)) (selected : List Session)
    (query : Query) (search : Search) :
    Except SearchFailure (List Session × Option (List (CodeUnits × CodeUnits))) :=
  match if canUseSearchIndex query then index else none with
  | none => .ok (selected, none)
  | some rows => do
      let inScope ← scopeFilter runtime database search
      let found := rows.filter fun row =>
        ftsMatch runtime.lower (ftsSearchExpression query.terms query.operator) row.part.text &&
          (search.includeTools || row.part.isText) && inScope row
      let indexed := found.map fun row => (row.sessionId, row.entryId)
      return (selected.filter fun session => indexed.any (·.1 = session.id), some indexed)

def hitOf (query : Query) (includeTools : Bool) (entry : Entry) (part : Part) : Option SearchHit :=
  if !includeTools && !part.isText then none
  else (matchSearchText runtime.lower part.text query.terms query.operator.text).map fun m =>
    ⟨entry.id, part.role, part.kind, entry.timestamp, snippet part.text m.index m.length⟩

def maxSearchHits : Nat := 25

def collectParts (query : Query) (includeTools : Bool) (entry : Entry) (hits : List SearchHit) :
    List Part → List SearchHit
  | [] => hits
  | part :: parts =>
    match hitOf runtime query includeTools entry part with
    | none => collectParts query includeTools entry hits parts
    | some hit =>
      let hits := hits ++ [hit]
      if maxSearchHits ≤ hits.length then hits else collectParts query includeTools entry hits parts

def collectSessionHits (query : Query) (includeTools : Bool) (indexed : Option (List (CodeUnits × CodeUnits)))
    (sessionId : CodeUnits) (hits : List SearchHit) : List Entry → List SearchHit
  | [] => hits
  | entry :: entries =>
    if indexed.any fun known => (sessionId, entry.id) ∉ known then
      collectSessionHits query includeTools indexed sessionId hits entries
    else
      let hits := collectParts runtime query includeTools entry hits (searchableParts entry)
      if maxSearchHits ≤ hits.length then hits
      else collectSessionHits query includeTools indexed sessionId hits entries

def appendLimitedSearchResults (results : List Result) (session : Session) (resultLimit : Nat) :
    List SearchHit → List Result × Bool
  | [] => (results, false)
  | hit :: hits =>
    if resultLimit ≤ results.length then (results, true)
    else appendLimitedSearchResults (results ++ [⟨hit, session⟩]) session resultLimit hits

def searchSessions (database : Database) (query : Query) (search : Search)
    (indexed : Option (List (CodeUnits × CodeUnits))) (resultLimit : Nat) (results : List Result) :
    List Session → List Result × Bool
  | [] => (results, false)
  | session :: sessions =>
    let hits := collectSessionHits runtime query search.includeTools indexed session.id [] (database.branch session.id)
    let (results, truncated) := appendLimitedSearchResults results session resultLimit hits
    if truncated then (results, true)
    else searchSessions database query search indexed resultLimit results sessions

def rescoreSearchResults [LinearOrder Score] (results : List Result) (q : CodeUnits) : List Result :=
  let reference := results.foldl (fun latest result =>
    match result.hit.timestamp.bind runtime.parseDate, latest with
    | none, latest => latest
    | some date, none => some date
    | some date, some last => some (max date last)) none
  results.mergeSort fun a b => runtime.score reference q b ≤ runtime.score reference q a

/-- A limit that is no safe integer, or negative, is none at all. -/
def resultLimit (maxResults : Int) : Nat := if maxResults ≤ 2 ^ 53 - 1 then maxResults.toNat else 0

def search [LinearOrder Score] (database : Database) (index : Option (List IndexRow)) (args : Search) :
    Except SearchFailure Outcome :=
  let query := parseSearchQuery runtime.lower args.q
  if query.terms = [] then .ok ⟨[], false, 0⟩
  else do
    let selected ← selectSearchSessions runtime database args
    let (candidates, indexed) ← findIndexedSearchCandidates runtime database index selected query args
    let (results, truncated) := searchSessions runtime database query args indexed (resultLimit args.maxResults) []
      candidates
    return ⟨rescoreSearchResults runtime results args.q, truncated, selected.length⟩

end

section
variable {Score : Type} {runtime : Runtime Score}

/-- What is known of the lower case: it is not shorter, and no NUL comes from it. -/
structure Runtime.Lawful (runtime : Runtime Score) : Prop where
  grows : ∀ p, size p ≤ (runtime.lower p).length
  kept : ∀ p, 0 ∈ runtime.lower p → 0 ∈ p.units

variable {query : Query}

theorem has_iff {lower : CodePoint → CodeUnits} (grows : ∀ p, size p ≤ (lower p).length) (given : query.terms ≠ [])
    (terms : Terms lower query) (text : CodeUnits) : has lower text query.terms query.operator = true ↔
      (matchSearchText lower text query.terms query.operator.text).isSome := by
  rw [matchSearchText_isSome grows, Hit]
  have contains : ∀ term ∈ query.terms, (indexOf (toLowerCase lower text) (toLowerCase lower term)).isSome = true ↔
      term ≠ [] ∧ toLowerCase lower term <:+: toLowerCase lower text := by
    intro term mem
    rw [indexOf_isSome, and_iff_right (terms.nonempty term mem)]
  cases operator : query.operator with
  | and =>
    rw [has, List.all_eq_true, if_neg (by decide), and_iff_right given]
    exact forall₂_congr contains
  | or =>
    rw [has, List.any_eq_true, if_pos (by decide)]
    exact exists_congr fun term => and_congr_right fun mem => contains term mem

variable {includeTools : Bool} {entry : Entry}

theorem collectParts_none {parts : List Part}
    (none : ∀ part ∈ parts, hitOf runtime query includeTools entry part = none) (hits : List SearchHit) :
    collectParts runtime query includeTools entry hits parts = hits := by
  induction parts with
  | nil => rfl
  | cons part parts ih =>
    obtain ⟨own, later⟩ := List.forall_mem_cons.mp none
    rw [collectParts, own]
    exact ih later

variable {known : List (CodeUnits × CodeUnits)} {id : CodeUnits} {entries : List Entry}

theorem collectSessionHits_index (complete : ∀ entry ∈ entries, (id, entry.id) ∉ known →
      ∀ part ∈ searchableParts entry, hitOf runtime query includeTools entry part = none) {hits : List SearchHit}
    (few : hits.length < maxSearchHits) : collectSessionHits runtime query includeTools (some known) id hits entries =
      collectSessionHits runtime query includeTools none id hits entries := by
  induction entries generalizing hits with
  | nil => rfl
  | cons entry entries ih =>
    obtain ⟨own, later⟩ := List.forall_mem_cons.mp complete
    rw [collectSessionHits, collectSessionHits]
    simp only [Option.any_some, Option.any_none, Bool.false_eq_true, if_false, decide_eq_true_eq]
    by_cases unknown : (id, entry.id) ∉ known
    · rw [if_pos unknown, collectParts_none (own unknown), if_neg (Nat.not_le_of_lt few)]
      exact ih later few
    · rw [if_neg unknown]
      split_ifs with full
      · rfl
      · exact ih later (Nat.lt_of_not_le full)

theorem collectSessionHits_none
    (nothing : ∀ entry ∈ entries, ∀ part ∈ searchableParts entry, hitOf runtime query includeTools entry part = none) :
    collectSessionHits runtime query includeTools none id [] entries = [] := by
  have all : ∀ entry ∈ entries, (id, entry.id) ∉ ([] : List (CodeUnits × CodeUnits)) →
      ∀ part ∈ searchableParts entry, hitOf runtime query includeTools entry part = none :=
    fun entry mem _ => nothing entry mem
  rw [← collectSessionHits_index all (by decide)]
  induction entries with
  | nil => rfl
  | cons entry entries ih =>
    exact ih (List.forall_mem_cons.mp nothing).2 (List.forall_mem_cons.mp all).2

variable {database : Database} {args : Search}

theorem searchSessions_index {limit : Nat} {sessions : List Session}
    (complete : ∀ session ∈ sessions, ∀ entry ∈ database.branch session.id, (session.id, entry.id) ∉ known →
      ∀ part ∈ searchableParts entry, hitOf runtime query args.includeTools entry part = none) (results : List Result) :
    searchSessions runtime database query args (some known) limit results
        (sessions.filter fun session => known.any (·.1 = session.id)) =
      searchSessions runtime database query args none limit results sessions := by
  induction sessions generalizing results with
  | nil => rfl
  | cons session sessions ih =>
    obtain ⟨own, later⟩ := List.forall_mem_cons.mp complete
    by_cases listed : known.any (fun k => k.1 = session.id) = true
    · rw [List.filter_cons, if_pos listed, searchSessions, searchSessions, collectSessionHits_index own (by decide)]
      simp only [ih later]
    · have nothing : ∀ entry ∈ database.branch session.id, ∀ part ∈ searchableParts entry,
          hitOf runtime query args.includeTools entry part = none := by
        intro entry mem
        refine own entry mem fun inside => listed ?_
        exact List.any_eq_true.mpr ⟨_, inside, decide_eq_true rfl⟩
      rw [List.filter_cons, if_neg listed, ih later, searchSessions.eq_2, collectSessionHits_none nothing]
      rfl

def Unscoped (lower : CodePoint → CodeUnits) (args : Search) : Prop :=
  (parseSearchQuery lower args.q).terms ≠ [] ∧ canUseSearchIndex (parseSearchQuery lower args.q) = true ∧
    args.scope = .folder ∧ args.folder.truthy = false

/-- The condition of the statement keeps the rows of the selected sessions, if the folder is given. -/
theorem scopeFilter_spec {selected : List Session}
    (select : selectSearchSessions runtime database args = .ok selected)
    (given : args.scope = .folder → args.folder.truthy = true) :
    ∃ inScope, scopeFilter runtime database args = .ok inScope ∧ ∀ session ∈ selected, session ∈ database.sessions ∧
      ∀ row : IndexRow, row.sessionId = session.id → inScope row = true := by
  have listed : ∀ {value : Value}, list runtime database value = .ok selected →
      (∀ session ∈ selected, session ∈ database.sessions) ∧ (value.truthy = true → ∃ folder,
        runtime.resolveValue value = .ok folder ∧ ∀ session ∈ selected, session.cwd = some folder) := by
    intro value eq
    unfold list at eq
    split_ifs at eq with truthy
    · cases resolved : runtime.resolveValue value with
      | error failure =>
        rw [resolved] at eq
        cases eq
      | ok folder =>
        rw [resolved] at eq
        cases eq
        refine ⟨fun session mem => List.mem_of_mem_filter mem, fun _ => ⟨folder, rfl, fun session mem => ?_⟩⟩
        exact of_decide_eq_true (List.mem_filter.mp mem).2
    · cases eq
      exact ⟨fun session mem => mem, fun absurd' => absurd absurd' truthy⟩
  unfold selectSearchSessions at select
  unfold scopeFilter
  cases scope : args.scope with
  | session =>
    rw [scope] at select
    cases identity : identityId args.path with
    | error failure =>
      rw [identity] at select
      cases select
    | ok id =>
      rw [identity] at select
      cases select
      refine ⟨_, rfl, fun session mem => ?_⟩
      have found := Option.mem_toList.mp mem
      have own := List.find?_some found
      refine ⟨List.mem_of_find?_eq_some found, fun row same => decide_eq_true ?_⟩
      rw [same]
      exact of_decide_eq_true own
  | folder =>
    rw [scope] at select
    obtain ⟨inside, resolved⟩ := listed select
    obtain ⟨folder, resolved, own⟩ := resolved (given scope)
    simp only [resolved]
    refine ⟨_, rfl, fun session mem => ⟨inside session mem, fun row same => ?_⟩⟩
    refine List.any_eq_true.mpr ⟨session, inside session mem, ?_⟩
    rw [same, own session mem]
    simp
  | all =>
    rw [scope] at select
    cases select
    exact ⟨_, rfl, fun session mem => ⟨mem, fun _ _ => rfl⟩⟩
  | other =>
    rw [scope] at select
    exact ⟨_, rfl, fun session mem => ⟨(listed select).1 session mem, fun _ _ => rfl⟩⟩

theorem hitOf_indexed (lawful : runtime.Lawful) (given : query.terms ≠ []) (terms : Terms runtime.lower query)
    {part : Part} (hit : hitOf runtime query includeTools entry part ≠ none) :
    ftsMatch runtime.lower (ftsSearchExpression query.terms query.operator) part.text = true ∧
      (includeTools || part.isText) = true := by
  unfold hitOf at hit
  split_ifs at hit with skipped
  · exact absurd rfl hit
  · rw [ftsMatch_expression runtime.lower given terms.free, has_iff lawful.grows given terms]
    refine ⟨?_, by cases includeTools <;> simp_all⟩
    rw [ne_eq, Option.map_eq_none_iff] at hit
    exact Option.ne_none_iff_isSome.mp hit

theorem search_agrees [LinearOrder Score] (lawful : runtime.Lawful) {rows : List IndexRow}
    (indexed : Indexed database rows) (folder : ¬Unscoped runtime.lower args) :
    search runtime database (some rows) args = search runtime database none args := by
  unfold search
  simp only
  have terms := parseSearchQuery_terms lawful.kept args.q
  unfold Unscoped at folder
  generalize parseSearchQuery runtime.lower args.q = query at folder terms ⊢
  split_ifs with empty
  · rfl
  · cases select : selectSearchSessions runtime database args with
    | error failure => rfl
    | ok selected =>
      have scan : findIndexedSearchCandidates runtime database none selected query args = .ok (selected, none) := by
        unfold findIndexedSearchCandidates
        rw [ite_self]
      simp only [bind, Except.bind, scan]
      cases usable : canUseSearchIndex query with
      | false =>
        have short : findIndexedSearchCandidates runtime database (some rows) selected query args =
            .ok (selected, none) := by
          unfold findIndexedSearchCandidates
          rw [usable]
          rfl
        simp only [short]
      | true =>
        obtain ⟨inScope, filter, keeps⟩ := scopeFilter_spec select fun scope => by
          by_contra missing
          exact folder ⟨empty, usable, scope, Bool.eq_false_iff.mpr missing⟩
        have found : findIndexedSearchCandidates runtime database (some rows) selected query args =
            .ok (selected.filter fun session => ((rows.filter fun row =>
                ftsMatch runtime.lower (ftsSearchExpression query.terms query.operator) row.part.text &&
                  (args.includeTools || row.part.isText) && inScope row).map
                    fun row => (row.sessionId, row.entryId)).any (·.1 = session.id),
              some ((rows.filter fun row =>
                ftsMatch runtime.lower (ftsSearchExpression query.terms query.operator) row.part.text &&
                  (args.includeTools || row.part.isText) && inScope row).map
                    fun row => (row.sessionId, row.entryId))) := by
          unfold findIndexedSearchCandidates
          rw [if_pos usable]
          simp only [filter, bind, Except.bind, pure, Except.pure]
        simp only [found]
        rw [searchSessions_index]
        intro session mem entry inside unknown part among
        by_contra hit
        obtain ⟨matched, searched⟩ := hitOf_indexed lawful empty terms hit
        obtain ⟨known, keeps⟩ := keeps session mem
        refine unknown (List.mem_map.mpr ⟨⟨session.id, entry.id, part⟩, List.mem_filter.mpr ⟨?_, ?_⟩, rfl⟩)
        · exact (indexed _).mpr ⟨⟨session, known, rfl⟩, entry, database.within _ inside, rfl, among⟩
        · rw [matched, searched, keeps ⟨session.id, entry.id, part⟩ rfl]
          rfl

/-- A text with all the terms, with spaces between them. -/
def allTerms (terms : List CodeUnits) : CodeUnits := terms.flatMap (· ++ [0x20])

theorem toLowerCase_append (lower : CodePoint → CodeUnits) {a b : CodeUnits} (joined : ¬Splits a b) :
    toLowerCase lower (a ++ b) = toLowerCase lower a ++ toLowerCase lower b := by
  rw [toLowerCase, codePoints_append joined, List.flatMap_append]
  rfl

theorem not_splits_space (a b : CodeUnits) : ¬Splits a (0x20 :: b) := by
  rintro ⟨_, low, _, first, _, isLow⟩
  obtain ⟨rest, eq⟩ := first
  obtain rfl : low = 0x20 := (List.cons.inj eq).1
  exact absurd isLow (by decide)

theorem space_not_splits (b : CodeUnits) : ¬Splits [0x20] b := by
  rintro ⟨high, _, ⟨front, eq⟩, _, isHigh, _⟩
  obtain rfl : high = 0x20 := by
    have last := congrArg List.getLast? eq
    simpa using last
  exact absurd isHigh (by decide)

theorem mem_allTerms (lower : CodePoint → CodeUnits) {terms : List CodeUnits} {term : CodeUnits} (mem : term ∈ terms) :
    toLowerCase lower term <:+: toLowerCase lower (allTerms terms) := by
  induction terms with
  | nil => cases mem
  | cons first terms ih =>
    have step : toLowerCase lower (allTerms (first :: terms)) =
        toLowerCase lower first ++ (toLowerCase lower [0x20] ++ toLowerCase lower (allTerms terms)) := by
      have whole : allTerms (first :: terms) = first ++ 0x20 :: allTerms terms := by simp [allTerms]
      have tail : toLowerCase lower (0x20 :: allTerms terms) =
          toLowerCase lower [0x20] ++ toLowerCase lower (allTerms terms) :=
        toLowerCase_append lower (space_not_splits _)
      rw [whole, toLowerCase_append lower (not_splits_space _ _), tail]
    rw [step]
    rcases List.mem_cons.mp mem with rfl | later
    · exact (List.prefix_append _ _).isInfix
    · exact (ih later).trans ((List.suffix_append _ _).isInfix.trans (List.suffix_append _ _).isInfix)

def oneMessage (folder text : CodeUnits) : Database where
  sessions := [⟨[0x73], none, [0x70, 0x69], some folder, none⟩]
  entries := fun _ => [⟨[0x65], none, .message (some user) (.string text)⟩]
  branch := fun _ => [⟨[0x65], none, .message (some user) (.string text)⟩]
  within := fun _ => List.Subset.refl _

def oneRow (text : CodeUnits) : List IndexRow := [⟨[0x73], [0x65], ⟨some user, .text, text⟩⟩]

theorem oneRow_indexed (folder text : CodeUnits) : Indexed (oneMessage folder text) (oneRow text) := by
  rintro ⟨sessionId, entryId, part⟩
  simp only [oneRow, oneMessage, List.mem_singleton, IndexRow.mk.injEq, exists_eq_left, searchableParts]
  constructor
  · rintro ⟨rfl, rfl, rfl⟩
    exact ⟨rfl, rfl, rfl⟩
  · rintro ⟨rfl, rfl, rfl⟩
    exact ⟨rfl, rfl, rfl⟩

theorem allTerms_hit (grows : ∀ p, size p ≤ (runtime.lower p).length) (given : query.terms ≠ [])
    (terms : Terms runtime.lower query) (includeTools : Bool) :
    ∃ hit, hitOf runtime query includeTools ⟨[0x65], none, .message (some user) (.string (allTerms query.terms))⟩
      ⟨some user, .text, allTerms query.terms⟩ = some hit := by
  have every : has runtime.lower (allTerms query.terms) query.terms query.operator = true := by
    have contains : ∀ term ∈ query.terms,
        (indexOf (toLowerCase runtime.lower (allTerms query.terms)) (toLowerCase runtime.lower term)).isSome = true :=
      fun term mem => indexOf_isSome.mpr (mem_allTerms runtime.lower mem)
    cases query.operator with
    | and => exact List.all_eq_true.mpr contains
    | or =>
      obtain ⟨term, mem⟩ := List.exists_mem_of_ne_nil _ given
      exact List.any_eq_true.mpr ⟨term, mem, contains term mem⟩
  obtain ⟨m, found⟩ := Option.isSome_iff_exists.mp ((has_iff grows given terms _).mp every)
  have searched : (!includeTools && !Part.isText ⟨some user, .text, allTerms query.terms⟩) = false := by
    have text : Part.isText ⟨some user, .text, allTerms query.terms⟩ = true := rfl
    rw [text, Bool.not_true, Bool.and_false]
  unfold hitOf
  rw [searched, if_neg Bool.false_ne_true, found]
  exact ⟨_, rfl⟩

theorem search_differs [LinearOrder Score] (lawful : runtime.Lawful) (unscoped : Unscoped runtime.lower args) :
    ∃ database rows, Indexed database rows ∧
      search runtime database (some rows) args ≠ search runtime database none args := by
  obtain ⟨given, usable, scope, missing⟩ := unscoped
  have terms := parseSearchQuery_terms lawful.kept args.q
  generalize parsed : parseSearchQuery runtime.lower args.q = query at given usable terms
  have all : ∀ database : Database, selectSearchSessions runtime database args = .ok database.sessions := by
    intro database
    rw [selectSearchSessions, scope]
    simp only [list, missing, Bool.false_eq_true, if_false]
  cases folder : args.folder with
  | undefined | null =>
    refine ⟨⟨[], fun _ => [], fun _ => [], fun _ => List.Subset.refl _⟩, [], fun row => ?_, ?_⟩
    · simp
    · simp only [search, parsed, if_neg given, all, bind, Except.bind, findIndexedSearchCandidates, usable,
        if_true, scopeFilter, scope, folder, Runtime.resolveValue]
      exact fun same => nomatch same
  | object id =>
    rw [folder] at missing
    cases missing
  | string s =>
    obtain rfl : s = [] := by
      rw [folder] at missing
      simpa [Value.truthy] using missing
    obtain ⟨hit, found⟩ := allTerms_hit lawful.grows given terms args.includeTools
    refine ⟨oneMessage (runtime.resolve [] ++ [0x78]) (allTerms query.terms), oneRow (allTerms query.terms),
      oneRow_indexed _ _, fun same => ?_⟩
    -- the only row is of another folder
    have indexed : findIndexedSearchCandidates runtime
        (oneMessage (runtime.resolve [] ++ [0x78]) (allTerms query.terms)) (some (oneRow (allTerms query.terms)))
        (oneMessage (runtime.resolve [] ++ [0x78]) (allTerms query.terms)).sessions query args = .ok ([], some []) := by
      simp [findIndexedSearchCandidates, usable, scopeFilter, scope, folder, Runtime.resolveValue, bind, Except.bind,
        pure, Except.pure, oneRow, oneMessage]
    -- the scan has a hit, or has too many
    have scanned : searchSessions runtime (oneMessage (runtime.resolve [] ++ [0x78]) (allTerms query.terms)) query args
        none (resultLimit args.maxResults) []
        (oneMessage (runtime.resolve [] ++ [0x78]) (allTerms query.terms)).sessions ≠ ([], false) := by
      simp only [oneMessage, searchSessions, collectSessionHits, searchableParts, collectParts, found, maxSearchHits,
        Option.any_none, Bool.false_eq_true, if_false, List.nil_append, List.length_singleton,
        show ¬25 ≤ 1 by decide, appendLimitedSearchResults]
      split_ifs <;> simp_all
    have scan : findIndexedSearchCandidates runtime
        (oneMessage (runtime.resolve [] ++ [0x78]) (allTerms query.terms)) none
        (oneMessage (runtime.resolve [] ++ [0x78]) (allTerms query.terms)).sessions query args =
          .ok ((oneMessage (runtime.resolve [] ++ [0x78]) (allTerms query.terms)).sessions, none) := by
      unfold findIndexedSearchCandidates
      rw [ite_self]
    simp only [search, parsed, if_neg given, all, bind, Except.bind, indexed, scan, searchSessions] at same
    have outcome := Except.ok.inj same
    obtain ⟨results, truncated, _⟩ := Outcome.mk.inj outcome
    refine scanned (Prod.ext ?_ truncated.symm)
    have lengths := congrArg List.length results
    simp only [rescoreSearchResults, List.length_mergeSort, List.length_nil] at lengths
    exact List.length_eq_zero_iff.mp lengths.symm

/-- For a query, a scope, a path and folder, the choice of tools and a limit, the search with the
index is the scan, whatever the sessions and entries, iff it is not one of a folder that is not given. -/
theorem indexed_search_iff [LinearOrder Score] (runtime : Runtime Score) (lawful : runtime.Lawful) (args : Search) :
    (∀ database rows, Indexed database rows →
      search runtime database (some rows) args = search runtime database none args) ↔
        ¬Unscoped runtime.lower args := by
  constructor
  · intro agrees unscoped
    obtain ⟨database, rows, indexed, differs⟩ := search_differs lawful unscoped
    exact differs (agrees database rows indexed)
  · exact fun folder database rows indexed => search_agrees lawful indexed folder

end

/-- No letter has another case, and all results have one score. -/
def plainRuntime : Runtime Nat := ⟨CodePoint.units, id, fun _ => none, fun _ _ _ => 0⟩

theorem plainRuntime_lawful : plainRuntime.Lawful := ⟨fun _ => Nat.le_refl _, fun _ mem => mem⟩

/-- The search for `durable`. -/
def durable (scope : Scope) : Search :=
  ⟨[0x64, 0x75, 0x72, 0x61, 0x62, 0x6c, 0x65], scope, .undefined, .undefined, false, 200⟩

/-- A message `durable` in the folder `/w`. -/
def durableMessage : Database := oneMessage [0x2f, 0x77] [0x64, 0x75, 0x72, 0x61, 0x62, 0x6c, 0x65]

def durableRow : List IndexRow := oneRow [0x64, 0x75, 0x72, 0x61, 0x62, 0x6c, 0x65]

/-- In all sessions both ways find it. -/
theorem indexed_search_iff_all :
    (search plainRuntime durableMessage none (durable .all)).toOption.map (fun o => (o.results.length, o.truncated)) =
        some (1, false) ∧
      search plainRuntime durableMessage (some durableRow) (durable .all) =
        search plainRuntime durableMessage none (durable .all) := by
  refine ⟨by decide +kernel, ?_⟩
  refine (indexed_search_iff plainRuntime plainRuntime_lawful (durable .all)).mpr ?_ _ _ (oneRow_indexed _ _)
  rintro ⟨_, _, scope, _⟩
  cases scope

/-- In the default scope, without a folder, the scan finds it and the index is not asked. -/
theorem search_without_folder : Indexed durableMessage durableRow ∧
      (search plainRuntime durableMessage none (durable .folder)).toOption.map (fun o => o.results.length) = some 1 ∧
      search plainRuntime durableMessage (some durableRow) (durable .folder) = .error .notAPath ∧
      search plainRuntime durableMessage (some durableRow) (durable .folder) ≠
        search plainRuntime durableMessage none (durable .folder) := by
  have found : (search plainRuntime durableMessage none (durable .folder)).toOption.map (fun o => o.results.length) =
      some 1 := by decide +kernel
  have fails : search plainRuntime durableMessage (some durableRow) (durable .folder) = .error .notAPath := by rfl
  refine ⟨oneRow_indexed _ _, found, fails, fun same => ?_⟩
  rw [← same, fails] at found
  cases found

end SearchQuery
