import Oyster.SessionFamily
import Oyster.Worklist

/-! The walk over the children of a session comes to an end, and finds every session below it
once. Which of its ancestors the walk starts from makes no difference beyond their top. -/
namespace SessionFamily
open ParentRelation Worklist
open SessionKeys (Reference)

variable {sqlite : Bool} {summaries : List Summary}

def namedParent (sqlite : Bool) (unique : OrderedMap CodeUnits Summary) (id : CodeUnits) : Option CodeUnits :=
  (unique.get id).bind (·.parentIdentity sqlite)

def Link (sqlite : Bool) (summaries : List Summary) (parent child : CodeUnits) : Prop :=
  namedParent sqlite (unique sqlite summaries) child = some parent

/-- Every session is found under its own name. -/
def Indexed (sqlite : Bool) (unique : OrderedMap CodeUnits Summary) : Prop :=
  ∀ id session, unique.get id = some session → session.identity sqlite = id

theorem indexed_unique (sqlite : Bool) (summaries : List Summary) : Indexed sqlite (unique sqlite summaries) := by
  have general : ∀ (sessions : List Summary) (all : OrderedMap CodeUnits Summary), Indexed sqlite all →
      Indexed sqlite (sessions.foldl (fun all session => all.set (session.identity sqlite) session) all) := by
    intro sessions
    induction sessions with
    | nil => exact fun all indexed => indexed
    | cons first sessions ih =>
      refine fun all indexed => ih _ fun id session found => ?_
      obtain ⟨rfl, rfl⟩ | ⟨_, old⟩ := OrderedMap.get_set_eq_some found
      · rfl
      · exact indexed id session old
  exact general _ .empty fun id session absurd => nomatch absurd

theorem mem_values {unique : OrderedMap CodeUnits Summary} (indexed : Indexed sqlite unique) {session : Summary} :
    session ∈ unique.entries.map Prod.snd ↔ unique.get (session.identity sqlite) = some session := by
  constructor
  · intro mem
    obtain ⟨⟨id, _⟩, inside, rfl⟩ := List.mem_map.mp mem
    have found := OrderedMap.get_eq_some_iff.mpr inside
    exact (indexed id _ found).symm ▸ found
  · exact fun found => List.mem_map.mpr ⟨_, OrderedMap.get_eq_some_iff.mp found, rfl⟩

theorem children_get (sessions : List Summary) (children : OrderedMap CodeUnits (List Summary)) (id : CodeUnits) :
    ((sessions.foldl (addChild sqlite) children).get id).getD [] =
      (children.get id).getD [] ++ sessions.filter (·.parentIdentity sqlite = some id) := by
  induction sessions generalizing children with
  | nil => exact (List.append_nil _).symm
  | cons session sessions ih =>
    rw [List.foldl_cons, ih, List.filter_cons]
    unfold addChild
    cases named : session.parentIdentity sqlite with
    | none => simp
    | some parent =>
      by_cases same : parent = id
      · simp [same, OrderedMap.get_set_self]
      · simp [same, OrderedMap.get_set_of_ne _ _ (Ne.symm same)]

def childrenOf (sqlite : Bool) (unique : OrderedMap CodeUnits Summary) (id : CodeUnits) : List CodeUnits :=
  ((unique.entries.map Prod.snd).filter (·.parentIdentity sqlite = some id)).map (·.identity sqlite)

theorem mem_childrenOf {unique : OrderedMap CodeUnits Summary} (indexed : Indexed sqlite unique) {id child : CodeUnits} :
    child ∈ childrenOf sqlite unique id ↔ namedParent sqlite unique child = some id := by
  unfold childrenOf namedParent
  constructor
  · intro mem
    obtain ⟨session, inside, rfl⟩ := List.mem_map.mp mem
    obtain ⟨value, named⟩ := List.mem_filter.mp inside
    rw [(mem_values indexed).mp value]
    exact of_decide_eq_true named
  · intro up
    obtain ⟨session, found, named⟩ := Option.bind_eq_some_iff.mp up
    have own := indexed child session found
    refine List.mem_map.mpr ⟨session, List.mem_filter.mpr ⟨(mem_values indexed).mpr ?_, decide_eq_true named⟩, own⟩
    rw [own, found]

theorem below_iff_climbs {parent : CodeUnits → Option CodeUnits} {root id : CodeUnits} :
    Relation.ReflTransGen (fun a b => parent b = some a) root id ↔ Climbs parent id root := by
  constructor
  · intro leads
    induction leads with
    | refl => exact .refl root
    | tail _ up ih => exact (Climbs.of_parent up).trans ih
  · rintro ⟨n, climbed⟩
    induction n generalizing id with
    | zero => exact Option.some.inj climbed ▸ .refl
    | succ n ih =>
      obtain ⟨above, first⟩ := climb_between (Nat.succ_le_succ (Nat.zero_le n)) climbed
      exact .tail (ih ((climb_below first).symm.trans climbed)) first

/-- The reference of a session that the walk comes to; only the root may be none of the catalog. -/
def referenceOf (referenceFor : Summary → Except CodeUnits Reference) (unique : OrderedMap CodeUnits Summary)
    (rootReference : Reference) (id : CodeUnits) : Except CodeUnits Reference :=
  (unique.get id).elim (.ok rootReference) referenceFor

theorem visits (referenceFor : Summary → Except CodeUnits Reference) {unique : OrderedMap CodeUnits Summary}
    (rootReference : Reference) {sessions : List Summary}
    (known : ∀ session ∈ sessions, unique.get (session.identity sqlite) = some session) (found : Found) :
    sessions.foldlM (visit sqlite referenceFor) found =
      ((fresh found.seen (sessions.map (·.identity sqlite))).mapM (referenceOf referenceFor unique rootReference)).map
        fun more => ⟨found.pending ++ fresh found.seen (sessions.map (·.identity sqlite)),
          found.seen ++ fresh found.seen (sessions.map (·.identity sqlite)), found.references ++ more⟩ := by
  induction sessions generalizing found with
  | nil => simp [fresh, Except.map, pure, Except.pure]
  | cons session sessions ih =>
    have rest := ih fun other mem => known other (List.mem_cons_of_mem _ mem)
    rw [List.foldlM_cons, List.map_cons, fresh]
    unfold visit
    split_ifs with old
    · exact rest found
    · have own : referenceOf referenceFor unique rootReference (session.identity sqlite) = referenceFor session := by
        rw [referenceOf, known session (List.mem_cons_self ..)]
        rfl
      rw [List.mapM_cons, own]
      cases referenceFor session with
      | error text => rfl
      | ok reference =>
        change sessions.foldlM (visit sqlite referenceFor) ⟨found.pending ++ [session.identity sqlite],
          found.seen ++ [session.identity sqlite], found.references ++ [reference]⟩ = _
        rw [rest]
        dsimp only [bind, Except.bind]
        cases (fresh (found.seen ++ [session.identity sqlite]) (sessions.map (·.identity sqlite))).mapM
            (referenceOf referenceFor unique rootReference) with
        | error text => rfl
        | ok more => simp only [Except.map, pure, Except.pure, List.append_assoc, List.singleton_append]

theorem descend_collect (referenceFor : Summary → Except CodeUnits Reference) {unique : OrderedMap CodeUnits Summary}
    (indexed : Indexed sqlite unique)
    {children : OrderedMap CodeUnits (List Summary)}
    (listed : ∀ id, (children.get id).getD [] = (unique.entries.map Prod.snd).filter (·.parentIdentity sqlite = some id))
    (rootReference : Reference) {fuel : Nat} {pending seen result : List CodeUnits}
    (h : collect (childrenOf sqlite unique) fuel pending seen = some result) (references : List Reference) :
    ∃ more, result = seen ++ more ∧ descend sqlite referenceFor children fuel ⟨pending, seen, references⟩ =
      some ((more.mapM (referenceOf referenceFor unique rootReference)).map (references ++ ·)) := by
  induction fuel generalizing pending seen references with
  | zero =>
    cases pending with
    | nil =>
      cases h
      exact ⟨[], (List.append_nil _).symm, by simp [descend, Except.map, pure, Except.pure]⟩
    | cons id pending => cases h
  | succ fuel ih =>
    cases pending with
    | nil =>
      cases h
      exact ⟨[], (List.append_nil _).symm, by simp [descend, Except.map, pure, Except.pure]⟩
    | cons id pending =>
      have known : ∀ session ∈ (children.get id).getD [], unique.get (session.identity sqlite) = some session := by
        intro session mem
        rw [listed] at mem
        exact (mem_values indexed).mp (List.mem_filter.mp mem).1
      have names : ((children.get id).getD []).map (·.identity sqlite) = childrenOf sqlite unique id := by
        rw [listed]
        rfl
      have step := visits referenceFor rootReference known ⟨pending, seen, references⟩
      rw [names] at step
      unfold descend
      rw [step]
      cases made : (fresh seen (childrenOf sqlite unique id)).mapM (referenceOf referenceFor unique rootReference) with
      | error text =>
        obtain ⟨more, whole, _⟩ := ih h []
        refine ⟨fresh seen (childrenOf sqlite unique id) ++ more, by rw [whole, List.append_assoc], ?_⟩
        rw [List.mapM_append, made]
        rfl
      | ok added =>
        obtain ⟨more, whole, rest⟩ := ih h (references ++ added)
        refine ⟨fresh seen (childrenOf sqlite unique id) ++ more, by rw [whole, List.append_assoc], ?_⟩
        dsimp only [Except.map]
        rw [rest, List.mapM_append, made]
        dsimp only [bind, Except.bind]
        cases more.mapM (referenceOf referenceFor unique rootReference) with
        | error text => rfl
        | ok others => simp only [Except.map, pure, Except.pure, List.append_assoc]

/-- From any session on, in the catalog or not, the walk ends and finds every session below it
once, that session first. -/
theorem descendantReferences_spec (sqlite : Bool) (referenceFor : Summary → Except CodeUnits Reference)
    (summaries : List Summary) (rootReference : Reference) (root : CodeUnits) :
    ∃ ids : List CodeUnits, ∃ enough : Nat, ids.Nodup ∧
      (∀ id, id ∈ ids ↔ Relation.ReflTransGen (Link sqlite summaries) root id) ∧ ∀ fuel, enough ≤ fuel →
        descendantReferences sqlite referenceFor (sessionFamilyIndexes sqlite summaries) root rootReference fuel =
          some (ids.mapM (referenceOf referenceFor (unique sqlite summaries) rootReference)) := by
  have indexed := indexed_unique sqlite summaries
  have listed : ∀ id, ((sessionFamilyIndexes sqlite summaries).children.get id).getD [] =
      ((unique sqlite summaries).entries.map Prod.snd).filter (·.parentIdentity sqlite = some id) := by
    intro id
    exact (children_get _ .empty id).trans (List.nil_append _)
  have links : (fun a b => b ∈ childrenOf sqlite (unique sqlite summaries) a) = Link sqlite summaries := by
    funext a b
    exact propext (mem_childrenOf indexed)
  let nodes := ((unique sqlite summaries).entries.map Prod.snd).map (·.identity sqlite)
  have finite : ∀ id, childrenOf sqlite (unique sqlite summaries) id ⊆ nodes := by
    intro id child mem
    obtain ⟨session, inside, rfl⟩ := List.mem_map.mp mem
    exact List.mem_map.mpr ⟨session, (List.mem_filter.mp inside).1, rfl⟩
  obtain ⟨enough, ids, found⟩ := collect_total nodes finite root
  obtain ⟨nodup, ⟨others, rfl⟩, mem⟩ := mem_collect (found enough (Nat.le_refl _))
  refine ⟨_, enough, nodup, fun id => by rw [mem, links], fun fuel le => ?_⟩
  unfold descendantReferences
  have same : (sessionFamilyIndexes sqlite summaries).unique = unique sqlite summaries := rfl
  rw [List.singleton_append, List.mapM_cons, referenceOf, same]
  cases ((unique sqlite summaries).get root).elim (.ok rootReference) referenceFor with
  | error text => rfl
  | ok reference =>
    obtain ⟨more, same, walked⟩ := descend_collect referenceFor indexed listed rootReference (found fuel le) [reference]
    obtain rfl := List.append_cancel_left same
    dsimp only
    rw [walked]
    cases others.mapM (referenceOf referenceFor (unique sqlite summaries) rootReference) with
    | error text => rfl
    | ok rest => rfl

/-- The sessions below a top of the session, or of the cycle that its ancestors run into. -/
def Family (sqlite : Bool) (summaries : List Summary) (member id : CodeUnits) : Prop :=
  ∃ top, Top (knownParent sqlite (unique sqlite summaries)) member top ∧
    Relation.ReflTransGen (Link sqlite summaries) top id

theorem knownParent_some {unique : OrderedMap CodeUnits Summary} {id parent : CodeUnits} :
    knownParent sqlite unique id = some parent ↔
      namedParent sqlite unique id = some parent ∧ unique.has parent = true :=
  Option.filter_eq_some_iff

theorem namedParent_known {unique : OrderedMap CodeUnits Summary} {id parent : CodeUnits}
    (up : namedParent sqlite unique id = some parent) : unique.has id = true := by
  obtain ⟨session, found, _⟩ := Option.bind_eq_some_iff.mp up
  exact OrderedMap.has_iff.mpr ⟨session, OrderedMap.get_eq_some_iff.mp found⟩

theorem climbs_known {unique : OrderedMap CodeUnits Summary} {id top : CodeUnits} (known : unique.has top = true) :
    Climbs (namedParent sqlite unique) id top ↔ Climbs (knownParent sqlite unique) id top := by
  constructor
  · rintro ⟨n, climbed⟩
    induction n generalizing id with
    | zero => exact Option.some.inj climbed ▸ .refl id
    | succ n ih =>
      obtain ⟨above, first⟩ := climb_between (Nat.succ_le_succ (Nat.zero_le n)) climbed
      have rest := (climb_below first).symm.trans climbed
      have inside : unique.has above = true := by
        obtain rfl | ⟨further, up, _⟩ := Climbs.head ⟨n, rest⟩
        · exact known
        · exact namedParent_known up
      exact (Climbs.of_parent (knownParent_some.mpr ⟨first, inside⟩)).trans (ih rest)
  · rintro ⟨n, climbed⟩
    induction n generalizing id with
    | zero => exact Option.some.inj climbed ▸ .refl id
    | succ n ih =>
      obtain ⟨above, first⟩ := climb_between (Nat.succ_le_succ (Nat.zero_le n)) climbed
      exact (Climbs.of_parent (knownParent_some.mp first).1).trans (ih ((climb_below first).symm.trans climbed))

theorem familyRoot_top (sqlite : Bool) (unique : OrderedMap CodeUnits Summary) (id : CodeUnits) :
    Top (knownParent sqlite unique) id (familyRootIdentity sqlite unique id true) := by
  have closed : ∀ x y, knownParent sqlite unique x = some y →
      x ∈ unique.entries.map Prod.fst ∧ y ∈ unique.entries.map Prod.fst := by
    intro x y up
    obtain ⟨named, inside⟩ := knownParent_some.mp up
    obtain ⟨_, child⟩ := OrderedMap.has_iff.mp (namedParent_known named)
    obtain ⟨_, parent⟩ := OrderedMap.has_iff.mp inside
    exact ⟨List.mem_map.mpr ⟨_, child, rfl⟩, List.mem_map.mpr ⟨_, parent, rfl⟩⟩
  exact ascend_top (unique.entries.map Prod.fst) closed (by rw [List.length_map]; exact Nat.lt_succ_self _) id

theorem top_known {unique : OrderedMap CodeUnits Summary} {id top : CodeUnits} (known : unique.has id = true)
    (h : Top (knownParent sqlite unique) id top) : unique.has top = true := by
  obtain ⟨⟨n, climbed⟩, _⟩ := h
  cases n with
  | zero => exact Option.some.inj climbed ▸ known
  | succ n =>
    obtain ⟨below, _, up⟩ := Option.bind_eq_some_iff.mp climbed
    exact (knownParent_some.mp up).2

section
variable {member top : CodeUnits}

theorem family_iff (known : (unique sqlite summaries).has member = true)
    (h : Top (knownParent sqlite (unique sqlite summaries)) member top) (id : CodeUnits) :
    Family sqlite summaries member id ↔ Climbs (knownParent sqlite (unique sqlite summaries)) id top := by
  constructor
  · rintro ⟨other, h', leads⟩
    have climbs := (climbs_known (top_known known h')).mp (below_iff_climbs.mp leads)
    exact (h'.same h id).mp climbs
  · intro climbs
    exact ⟨top, h, below_iff_climbs.mpr ((climbs_known (top_known known h)).mpr climbs)⟩

theorem family_root (known : (unique sqlite summaries).has member = true) (id : CodeUnits) :
    Relation.ReflTransGen (Link sqlite summaries) (familyRootIdentity sqlite (unique sqlite summaries) member true) id ↔
      Family sqlite summaries member id := by
  have isTop := familyRoot_top sqlite (unique sqlite summaries) member
  rw [family_iff known isTop, ← climbs_known (top_known known isTop)]
  exact below_iff_climbs

theorem family_member (known : (unique sqlite summaries).has member = true) {other : CodeUnits}
    (mem : Family sqlite summaries member other) :
    (unique sqlite summaries).has other = true ∧
      ∀ id, Family sqlite summaries other id ↔ Family sqlite summaries member id := by
  have h := familyRoot_top sqlite (unique sqlite summaries) member
  have climbs := (family_iff known h other).mp mem
  have inside : (unique sqlite summaries).has other = true := by
    obtain same | ⟨above, up, _⟩ := climbs.head
    · exact same ▸ top_known known h
    · exact namedParent_known (knownParent_some.mp up).1
  exact ⟨inside, fun id => (family_iff inside (h.of_climbs climbs) id).trans (family_iff known h id).symm⟩

end
end SessionFamily
