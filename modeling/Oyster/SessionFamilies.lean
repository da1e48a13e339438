import Oyster.SessionFamilyQuery

/-! The families of the two catalogs. The walk over what the queries of the database return finds
what the walk over all its sessions does, and a family is the same from each of its members. -/
namespace SessionFamily
open ParentRelation RecursiveQuery
open SessionKeys (Reference message)

theorem get_unique (sqlite : Bool) (summaries : List Summary) (id : CodeUnits) : (unique sqlite summaries).get id =
      ((summaries.filter (·.identity sqlite ≠ [])).filter (·.identity sqlite = id)).getLast? := by
  unfold unique
  induction summaries.filter (·.identity sqlite ≠ []) using List.reverseRecOn with
  | nil => rfl
  | append_singleton sessions last ih =>
    rw [List.foldl_append, List.filter_append, List.foldl_cons, List.foldl_nil]
    by_cases same : last.identity sqlite = id
    · rw [← same, OrderedMap.get_set_self]
      simp
    · rw [OrderedMap.get_set_of_ne _ _ (Ne.symm same), ih]
      simp [same]

variable {summary : Summary}

theorem get_unique_iff {sqlite : Bool} {summaries : List Summary} {id : CodeUnits} (filled : id ≠ [])
    (one : ∀ a ∈ summaries, ∀ b ∈ summaries, a.identity sqlite = id → b.identity sqlite = id → a = b) :
    (unique sqlite summaries).get id = some summary ↔ summary ∈ summaries ∧ summary.identity sqlite = id := by
  rw [get_unique]
  constructor
  · intro found
    obtain ⟨mem, own⟩ := List.mem_filter.mp (List.mem_of_getLast? found)
    exact ⟨(List.mem_filter.mp mem).1, of_decide_eq_true own⟩
  · rintro ⟨mem, own⟩
    have inside : summary ∈ (summaries.filter (·.identity sqlite ≠ [])).filter (·.identity sqlite = id) :=
      List.mem_filter.mpr ⟨List.mem_filter.mpr ⟨mem, decide_eq_true (own ▸ filled)⟩, decide_eq_true own⟩
    cases last : ((summaries.filter (·.identity sqlite ≠ [])).filter (·.identity sqlite = id)).getLast? with
    | none =>
      rw [List.getLast?_eq_none_iff.mp last] at inside
      cases inside
    | some other =>
      obtain ⟨mem', own'⟩ := List.mem_filter.mp (List.mem_of_getLast? last)
      rw [one other (List.mem_filter.mp mem').1 summary mem (of_decide_eq_true own') own]

def Reads (table : SessionTable) (summaries : List Summary) (P : CodeUnits → Prop) : Prop :=
  ∀ summary, summary ∈ summaries ↔ ∃ row ∈ table.rows, summary = rowSummary row ∧ P row.id

variable {table : SessionTable} {summaries : List Summary} {P : CodeUnits → Prop} {id : CodeUnits}

theorem reads_list (table : SessionTable) : Reads table table.list fun _ => True := by
  intro summary
  unfold SessionTable.list
  rw [List.mem_map]
  constructor
  · rintro ⟨row, mem, rfl⟩
    exact ⟨row, (List.mem_insertionSort _).mp mem, rfl, trivial⟩
  · rintro ⟨row, mem, rfl, _⟩
    exact ⟨row, (List.mem_insertionSort _).mpr mem, rfl⟩

variable {row : SessionRow}

theorem row_unique {other : SessionRow} (mem : row ∈ table.rows) (mem' : other ∈ table.rows)
    (same : row.id = other.id) : row = other :=
  List.inj_on_of_nodup_map table.key mem mem' same

theorem Reads.get (reads : Reads table summaries P) (named : table.Named) :
    (unique true summaries).get id = some summary ↔
      ∃ row ∈ table.rows, row.id = id ∧ summary = rowSummary row ∧ P id := by
  have one : ∀ a ∈ summaries, ∀ b ∈ summaries, a.identity true = id → b.identity true = id → a = b := by
    intro a mem b mem' own own'
    obtain ⟨row, here, rfl, _⟩ := (reads a).mp mem
    obtain ⟨row', here', rfl, _⟩ := (reads b).mp mem'
    rw [row_unique here here' (own.trans own'.symm)]
  by_cases filled : id = []
  · constructor
    · intro found
      have own := (get_unique true summaries id).symm.trans found
      obtain ⟨mem, same⟩ := List.mem_filter.mp (List.mem_of_getLast? own)
      have filled' := of_decide_eq_true (List.mem_filter.mp mem).2
      exact absurd ((of_decide_eq_true same).trans filled) filled'
    · rintro ⟨row, mem, own, _⟩
      exact absurd (own.trans filled) (named row mem).1
  · rw [get_unique_iff filled one]
    constructor
    · rintro ⟨mem, own⟩
      obtain ⟨row, here, rfl, holds⟩ := (reads summary).mp mem
      exact ⟨row, here, own, rfl, own ▸ holds⟩
    · rintro ⟨row, here, own, rfl, holds⟩
      exact ⟨(reads _).mpr ⟨row, here, rfl, own ▸ holds⟩, own⟩

theorem Reads.has (reads : Reads table summaries P) (named : table.Named) :
    (unique true summaries).has id = true ↔ id ∈ table.ids ∧ P id := by
  rw [OrderedMap.has_iff]
  constructor
  · rintro ⟨summary, mem⟩
    obtain ⟨row, here, own, _, holds⟩ := (reads.get named).mp (OrderedMap.get_eq_some_iff.mpr mem)
    exact ⟨SessionTable.mem_ids.mpr ⟨row, here, own⟩, holds⟩
  · rintro ⟨known, holds⟩
    obtain ⟨row, here, own⟩ := SessionTable.mem_ids.mp known
    exact ⟨_, OrderedMap.get_eq_some_iff.mp ((reads.get named).mpr ⟨row, here, own, rfl, holds⟩)⟩

variable {parent : CodeUnits}

theorem Reads.namedParent (reads : Reads table summaries P) (named : table.Named) :
    namedParent true (unique true summaries) id = some parent ↔ table.parentOf id = some parent ∧ P id := by
  unfold SessionFamily.namedParent
  rw [Option.bind_eq_some_iff]
  constructor
  · rintro ⟨summary, found, up⟩
    obtain ⟨row, here, rfl, rfl, holds⟩ := (reads.get named).mp found
    exact ⟨(SessionTable.parentOf_row here).trans up, holds⟩
  · rintro ⟨up, holds⟩
    obtain ⟨row, here, rfl, _⟩ := SessionTable.parentOf_some up
    exact ⟨rowSummary row, (reads.get named).mpr ⟨row, here, rfl, rfl, holds⟩,
      (SessionTable.parentOf_row here).symm.trans up⟩

theorem Reads.knownParent (reads : Reads table summaries P) (named : table.Named) :
    knownParent true (unique true summaries) id = some parent ↔
      table.knownParentOf id = some parent ∧ P id ∧ P parent := by
  rw [knownParent_some, reads.namedParent named, reads.has named, SessionTable.knownParentOf_some]
  constructor
  · rintro ⟨⟨up, holds⟩, known, above⟩
    exact ⟨⟨up, known⟩, holds, above⟩
  · rintro ⟨⟨up, known⟩, holds, above⟩
    exact ⟨⟨up, holds⟩, known, above⟩

theorem reads_joined {trails : List Trail} (lead : ∀ id, (∃ trail ∈ trails, trail.id = id) ↔ P id) :
    Reads table (((table.joined trails).insertionSort fun a b => table.before a b = true).map fun found =>
    rowSummary found.2) P := by
  intro summary
  rw [List.mem_map]
  constructor
  · rintro ⟨⟨trail, row⟩, mem, rfl⟩
    obtain ⟨trail', inside, mem⟩ := List.mem_flatMap.mp ((List.mem_insertionSort _).mp mem)
    obtain ⟨row', here, same⟩ := List.mem_map.mp mem
    obtain ⟨rfl, rfl⟩ := Prod.mk.inj same
    obtain ⟨here, own⟩ := List.mem_filter.mp here
    exact ⟨row', here, rfl, (lead _).mp ⟨trail', inside, (of_decide_eq_true own).symm⟩⟩
  · rintro ⟨row, here, rfl, holds⟩
    obtain ⟨trail, inside, own⟩ := (lead _).mpr holds
    refine ⟨(trail, row), (List.mem_insertionSort _).mpr (List.mem_flatMap.mpr ⟨trail, inside, ?_⟩), rfl⟩
    exact List.mem_map.mpr ⟨row, List.mem_filter.mpr ⟨here, decide_eq_true own.symm⟩, rfl⟩

variable {includeAncestors : Bool}

theorem SessionTable.family_more {fuel more : Nat} {result : Except CodeUnits (List Summary)}
    (h : table.family fuel id includeAncestors = some result) (le : fuel ≤ more) :
    table.family more id includeAncestors = some result := by
  unfold SessionTable.family at h ⊢
  split_ifs at h ⊢ with empty ancestors
  · exact h
  · obtain ⟨root, climbed, h⟩ := Option.bind_eq_some_iff.mp h
    obtain ⟨trails, walked, rfl⟩ := Option.map_eq_some_iff.mp h
    obtain ⟨above, found, rfl⟩ := Option.map_eq_some_iff.mp climbed
    rw [evaluate_more found le, Option.map_some, Option.bind_some, evaluate_more walked le, Option.map_some]
  · obtain ⟨root, climbed, h⟩ := Option.bind_eq_some_iff.mp h
    obtain ⟨trails, walked, rfl⟩ := Option.map_eq_some_iff.mp h
    cases climbed
    rw [Option.bind_some, evaluate_more walked le, Option.map_some]

theorem family_spec (named : table.Named) (mem : row ∈ table.rows) (includeAncestors : Bool) :
    ∃ enough summaries top, (∀ fuel, enough ≤ fuel → table.family fuel row.id includeAncestors = some (.ok summaries)) ∧
      Reads table summaries (Climbs table.parentOf · top) ∧ top ∈ table.ids ∧
      if includeAncestors then Top table.knownParentOf row.id top else top = row.id := by
  have filled := (named row mem).1
  cases includeAncestors with
  | false =>
    obtain ⟨enough, trails, ends, lead⟩ := SessionTable.descendants_spec named mem
    refine ⟨enough, _, row.id, fun fuel le => ?_, reads_joined lead, SessionTable.mem_ids.mpr ⟨row, mem, rfl⟩, rfl⟩
    unfold SessionTable.family
    rw [if_neg filled, if_neg Bool.false_ne_true, Option.bind_some, SessionTable.find_row mem, List.map_singleton,
      ends fuel le, Option.map_some]
  | true =>
    obtain ⟨enough, trails, top, ends, first, isTop⟩ := SessionTable.ancestors_spec named mem
    have known : top ∈ table.ids := by
      obtain ⟨⟨n, climbed⟩, _⟩ := isTop
      cases n with
      | zero => exact Option.some.inj climbed ▸ SessionTable.mem_ids.mpr ⟨row, mem, rfl⟩
      | succ n =>
        obtain ⟨_, _, up⟩ := Option.bind_eq_some_iff.mp climbed
        exact (SessionTable.knownParentOf_some.mp up).2
    obtain ⟨head, here, rfl⟩ := SessionTable.mem_ids.mp known
    obtain ⟨enough', trails', ends', lead⟩ := SessionTable.descendants_spec named here
    refine ⟨max enough enough', _, head.id, fun fuel le => ?_, reads_joined lead, known, isTop⟩
    have climbed := ends fuel ((Nat.le_max_left ..).trans le)
    have walked := ends' fuel ((Nat.le_max_right ..).trans le)
    unfold SessionTable.family
    rw [if_neg filled, if_pos rfl, SessionTable.find_row mem, List.map_singleton, climbed, Option.map_some, first,
      Option.bind_some, Option.getD_some, SessionTable.find_row here, List.map_singleton, walked, Option.map_some]

theorem namedParent_list (named : table.Named) : namedParent true (unique true table.list) = table.parentOf := by
  funext id
  refine Option.ext fun parent => ?_
  rw [(reads_list table).namedParent named, and_iff_left trivial]

theorem knownParent_list (named : table.Named) : knownParent true (unique true table.list) = table.knownParentOf := by
  funext id
  refine Option.ext fun parent => ?_
  rw [(reads_list table).knownParent named, and_iff_left ⟨trivial, trivial⟩]

theorem mem_rows_has (named : table.Named) (mem : row ∈ table.rows) : (unique true table.list).has row.id = true :=
  ((reads_list table).has named).mpr ⟨SessionTable.mem_ids.mpr ⟨row, mem, rfl⟩, trivial⟩

section
variable {top : CodeUnits}

theorem Reads.climbs (reads : Reads table summaries (Climbs table.parentOf · top)) (named : table.Named) :
    Climbs (SessionFamily.namedParent true (unique true summaries)) id top ↔ Climbs table.parentOf id top := by
  constructor
  · rintro ⟨n, climbed⟩
    exact ⟨n, Climbs.mono (fun x y up => ((reads.namedParent named).mp up).1) climbed⟩
  · refine Climbs.agree fun z below => .inr (Option.ext fun parent => ?_)
    rw [reads.namedParent named, and_iff_left below]

variable {member : CodeUnits}

theorem top_closed (known : top ∈ table.ids) (isTop : Top table.knownParentOf member top) {id parent : CodeUnits}
    (below : Climbs table.knownParentOf id top) (up : table.knownParentOf id = some parent) :
    Climbs table.knownParentOf parent top := by
  obtain rfl | ⟨above, first, climbs⟩ := below.head
  · exact isTop.above (isTop.1.trans (.of_parent up))
  · cases first.symm.trans up
    exact climbs

theorem climbs_table (named : table.Named) (known : top ∈ table.ids) :
    Climbs table.parentOf id top ↔ Climbs table.knownParentOf id top := by
  have inside : (unique true table.list).has top = true := ((reads_list table).has named).mpr ⟨known, trivial⟩
  rw [← namedParent_list named, ← knownParent_list named]
  exact climbs_known inside

theorem Reads.root_top (reads : Reads table summaries (Climbs table.parentOf · top)) (named : table.Named)
    (known : top ∈ table.ids) (isTop : Top table.knownParentOf member top) :
    Top table.knownParentOf member (familyRootIdentity true (unique true summaries) member true) := by
  obtain ⟨⟨n, climbed⟩, ends⟩ := familyRoot_top true (unique true summaries) member
  have less : ∀ x y, SessionFamily.knownParent true (unique true summaries) x = some y → table.knownParentOf x = some y :=
    fun x y up => ((reads.knownParent named).mp up).1
  have climbs : Climbs table.knownParentOf member (familyRootIdentity true (unique true summaries) member true) :=
    ⟨n, Climbs.mono less climbed⟩
  refine ⟨climbs, ends.imp (fun last => ?_) fun ⟨m, positive, round⟩ => ⟨m, positive, Climbs.mono less round⟩⟩
  have below := isTop.above climbs
  refine Option.eq_none_iff_forall_not_mem.mpr fun parent up => ?_
  have above := top_closed known isTop below up
  have there := (reads.knownParent named).mpr
    ⟨up, (climbs_table named known).mpr below, (climbs_table named known).mpr above⟩
  exact nomatch last.symm.trans there

theorem Reads.below_root (reads : Reads table summaries (Climbs table.parentOf · top)) (named : table.Named)
    (known : top ∈ table.ids) (isTop : Top table.knownParentOf member top) :
    Climbs (SessionFamily.namedParent true (unique true summaries)) id
        (familyRootIdentity true (unique true summaries) member true) ↔
      Climbs table.knownParentOf id top := by
  have rootTop := reads.root_top named known isTop
  have below : ∀ z, Climbs table.knownParentOf z (familyRootIdentity true (unique true summaries) member true) ↔
      Climbs table.knownParentOf z top := rootTop.same isTop
  have rootBelow := (below _).mp (.refl _)
  have rootKnown : (unique true summaries).has (familyRootIdentity true (unique true summaries) member true) = true := by
    refine (reads.has named).mpr ⟨?_, (climbs_table named known).mpr rootBelow⟩
    obtain same | ⟨above, up, _⟩ := rootBelow.head
    · exact same ▸ known
    · exact SessionTable.parentOf_known (SessionTable.knownParentOf_some.mp up).1
  rw [climbs_known rootKnown, ← below]
  constructor
  · rintro ⟨n, climbed⟩
    exact ⟨n, Climbs.mono (fun x y up => ((reads.knownParent named).mp up).1) climbed⟩
  · refine Climbs.agree fun z climbs => .inr (Option.ext fun parent => ?_)
    have here := (below z).mp climbs
    rw [reads.knownParent named]
    refine ⟨fun ⟨up, _⟩ => up, fun up => ⟨up, (climbs_table named known).mpr here, ?_⟩⟩
    exact (climbs_table named known).mpr (top_closed known isTop here up)

end

theorem below_same (named : table.Named) (mem : row ∈ table.rows) {top : CodeUnits}
    (reads : Reads table summaries (Climbs table.parentOf · top)) (known : top ∈ table.ids)
    (isTop : if includeAncestors then Top table.knownParentOf row.id top else top = row.id) :
    Relation.ReflTransGen (Link true summaries)
        (familyRootIdentity true (unique true summaries) row.id includeAncestors) id ↔
      Relation.ReflTransGen (Link true table.list)
        (familyRootIdentity true (unique true table.list) row.id includeAncestors) id := by
  refine below_iff_climbs.trans (Iff.trans ?_ below_iff_climbs.symm)
  cases includeAncestors with
  | false =>
    obtain rfl : top = row.id := isTop
    rw [familyRootIdentity, familyRootIdentity, if_neg Bool.false_ne_true, if_neg Bool.false_ne_true,
      reads.climbs named, namedParent_list named]
  | true =>
    have rootTop := familyRoot_top true (unique true table.list) row.id
    rw [knownParent_list named] at rootTop
    have inside := top_known (mem_rows_has named mem) (familyRoot_top true (unique true table.list) row.id)
    rw [reads.below_root named known isTop, climbs_known inside, knownParent_list named]
    exact isTop.same rootTop id

def rootOf (catalog : Catalog) (reference : Reference) : CodeUnits :=
  if catalog.sqlite then reference.id else reference.storagePath.getD []

/-- The collections end, with the references of the same sessions, or both with an error of one of them. -/
def SameFamily (first second : Nat → Option (Except CodeUnits (List Reference))) : Prop :=
  ∃ (references : CodeUnits → Except CodeUnits Reference) (ids ids' : List CodeUnits) (enough : Nat),
    ids.Nodup ∧ ids.Perm ids' ∧ ∀ fuel, enough ≤ fuel →
      first fuel = some (ids.mapM references) ∧ second fuel = some (ids'.mapM references)

structure Serves (catalog : Catalog) (table : SessionTable) : Prop where
  sqlite : catalog.sqlite = true
  list : catalog.list none = table.list
  family : ∀ family, catalog.family = some family → ∀ id ∈ table.ids, ∀ includeAncestors, ∃ fuel,
    table.family fuel id includeAncestors = some (family id includeAncestors)

theorem mapM_congr {α β ε : Type} {f g : α → Except ε β} {l : List α} (same : ∀ a ∈ l, f a = g a) :
    l.mapM f = l.mapM g := by
  induction l with
  | nil => rfl
  | cons a l ih =>
    rw [List.mapM_cons, List.mapM_cons, same a (List.mem_cons_self ..), ih fun b mem =>
      same b (List.mem_cons_of_mem _ mem)]

section Collected
variable {ν : Type} [Json.Numbers ν] {resolver : Resolver} {catalog : Catalog} {reference reference' : Reference}
  {referenceFor : Summary → Except CodeUnits Reference} {includeAncestors : Bool} {summaries summaries' : List Summary}

theorem collected (resolved : sessionReferenceResolver ν resolver catalog = .ok referenceFor)
    (own : reference.backend.external = false)
    (read : sessionFamilySummaries resolver catalog reference includeAncestors = .ok summaries) :
    ∃ (ids : List CodeUnits) (enough : Nat), ids.Nodup ∧
      (∀ id, id ∈ ids ↔ Relation.ReflTransGen (Link catalog.sqlite summaries)
        (familyRootIdentity catalog.sqlite (unique catalog.sqlite summaries)
          (rootOf catalog reference) includeAncestors) id) ∧
      ∀ fuel, enough ≤ fuel → collectSessionFamilyReferences ν resolver catalog reference includeAncestors fuel =
        some (ids.mapM (referenceOf referenceFor (unique catalog.sqlite summaries) reference)) := by
  obtain ⟨ids, enough, nodup, mem, walked⟩ := descendantReferences_spec catalog.sqlite referenceFor summaries reference
    (familyRootIdentity catalog.sqlite (unique catalog.sqlite summaries) (rootOf catalog reference) includeAncestors)
  refine ⟨ids, enough, nodup, mem, fun fuel le => ?_⟩
  unfold collectSessionFamilyReferences
  rw [if_neg (by rw [own]; exact Bool.false_ne_true), resolved, read]
  exact walked fuel le

theorem collects_same (resolved : sessionReferenceResolver ν resolver catalog = .ok referenceFor)
    (own : reference.backend.external = false)
    (read : sessionFamilySummaries resolver catalog reference includeAncestors = .ok summaries)
    {other : Catalog} (resolved' : sessionReferenceResolver ν resolver other = .ok referenceFor)
    (own' : reference'.backend.external = false)
    (read' : sessionFamilySummaries resolver other reference' includeAncestors = .ok summaries')
    {M : CodeUnits → Prop}
    (members : ∀ id, Relation.ReflTransGen (Link catalog.sqlite summaries)
      (familyRootIdentity catalog.sqlite (unique catalog.sqlite summaries)
        (rootOf catalog reference) includeAncestors) id ↔ M id)
    (members' : ∀ id, Relation.ReflTransGen (Link other.sqlite summaries')
      (familyRootIdentity other.sqlite (unique other.sqlite summaries')
        (rootOf other reference') includeAncestors) id ↔ M id)
    (found : ∀ id, M id → ∃ session, (unique catalog.sqlite summaries).get id = some session ∧
      (unique other.sqlite summaries').get id = some session) :
    SameFamily (collectSessionFamilyReferences ν resolver catalog reference includeAncestors)
      (collectSessionFamilyReferences ν resolver other reference' includeAncestors) := by
  obtain ⟨ids, enough, nodup, mem, ends⟩ := collected resolved own read
  obtain ⟨ids', enough', nodup', mem', ends'⟩ := collected resolved' own' read'
  have perm : ids.Perm ids' := (List.perm_ext_iff_of_nodup nodup nodup').mpr fun id => by
    rw [mem, mem', members, members']
  refine ⟨referenceOf referenceFor (unique catalog.sqlite summaries) reference, ids, ids', max enough enough', nodup, perm,
    fun fuel le => ⟨ends fuel ((Nat.le_max_left ..).trans le), ?_⟩⟩
  rw [ends' fuel ((Nat.le_max_right ..).trans le)]
  refine congrArg some (mapM_congr fun id inside => ?_)
  obtain ⟨session, here, there⟩ := found id ((members' id).mp ((mem' id).mp inside))
  rw [referenceOf, referenceOf, here, there]
  rfl

def SameReading (sqlite : Bool) (summaries summaries' : List Summary) : Prop :=
  ∀ id, (unique sqlite summaries).get id = (unique sqlite summaries').get id

variable {sqlite : Bool}

theorem SameReading.family (same : SameReading sqlite summaries summaries') (member : CodeUnits) :
    Family sqlite summaries member = Family sqlite summaries' member := by
  have named : namedParent sqlite (unique sqlite summaries) = namedParent sqlite (unique sqlite summaries') :=
    funext fun id => congrArg (Option.bind · _) (same id)
  have known : knownParent sqlite (unique sqlite summaries) = knownParent sqlite (unique sqlite summaries') := by
    funext id
    refine Option.ext fun parent => ?_
    have has : (unique sqlite summaries).has parent = true ↔ (unique sqlite summaries').has parent = true := by
      simp only [OrderedMap.has_iff, ← OrderedMap.get_eq_some_iff, same parent]
    rw [knownParent_some, knownParent_some, named, has]
  have link : Link sqlite summaries = Link sqlite summaries' := by
    funext a b
    exact congrArg (fun parents : CodeUnits → Option CodeUnits => parents b = some a) named
  funext id
  rw [Family, Family, known, link]

def Consistent (catalog : Catalog) : Prop :=
  ∀ location location', ∀ a ∈ catalog.list location, ∀ b ∈ catalog.list location', a.path = b.path → a = b

theorem sameReading_folders (files : catalog.sqlite = false) (consistent : Consistent catalog)
    (inside : resolver.dirname (reference.storagePath.getD []) ∈ catalog.folders.filter (· ≠ []))
    (inside' : resolver.dirname (reference'.storagePath.getD []) ∈ catalog.folders.filter (· ≠ []))
    (read : sessionFamilySummaries resolver catalog reference includeAncestors = .ok summaries)
    (read' : sessionFamilySummaries resolver catalog reference' includeAncestors = .ok summaries') :
    SameReading catalog.sqlite summaries summaries' := by
  have listed : ∀ {r : Reference} {all : List Summary},
    sessionFamilySummaries resolver catalog r includeAncestors = .ok all →
      resolver.dirname (r.storagePath.getD []) ∈ catalog.folders.filter (· ≠ []) →
      ∀ a, a ∈ all ↔ ∃ location ∈ catalog.folders.filter (· ≠ []), a ∈ catalog.list (some location) := by
    intro r all read inside a
    unfold sessionFamilySummaries at read
    rw [files, if_neg Bool.false_ne_true] at read
    cases read
    simp only [List.mem_flatMap, List.mem_eraseDups, List.mem_cons]
    constructor
    · rintro ⟨location, rfl | old, mem⟩
      · exact ⟨_, inside, mem⟩
      · exact ⟨location, old, mem⟩
    · rintro ⟨location, old, mem⟩
      exact ⟨location, .inr old, mem⟩
  have first := listed read inside
  have second := listed read' inside'
  rw [files]
  intro id
  by_cases filled : id = []
  · have none_found : ∀ all : List Summary, (unique false all).get id = none := by
      intro all
      refine Option.eq_none_iff_forall_not_mem.mpr fun session found => ?_
      rw [get_unique] at found
      obtain ⟨mem, own⟩ := List.mem_filter.mp (List.mem_of_getLast? found)
      exact of_decide_eq_true (List.mem_filter.mp mem).2 ((of_decide_eq_true own).trans filled)
    rw [none_found, none_found]
  · refine Option.ext fun session => ?_
    have one : ∀ {all : List Summary}, (∀ a, a ∈ all ↔ ∃ location ∈ catalog.folders.filter (· ≠ []),
        a ∈ catalog.list (some location)) → ∀ a ∈ all, ∀ b ∈ all, a.identity false = id → b.identity false = id → a = b :=
          by
      intro all listed a mem b mem' own own'
      obtain ⟨location, _, here⟩ := (listed a).mp mem
      obtain ⟨location', _, there⟩ := (listed b).mp mem'
      exact consistent _ _ a here b there (own.trans own'.symm)
    rw [get_unique_iff filled (one first), get_unique_iff filled (one second), first, second]

theorem link_known {root id : CodeUnits} (known : (unique sqlite summaries).has root = true)
    (leads : Relation.ReflTransGen (Link sqlite summaries) root id) : (unique sqlite summaries).has id = true := by
  obtain rfl | ⟨_, _, last⟩ := Relation.ReflTransGen.cases_tail leads
  · exact known
  · exact namedParent_known last

theorem serves_read {table : SessionTable} (named : table.Named) (serves : Serves catalog table) {row : SessionRow}
    (mem : row ∈ table.rows) (same : reference.id = row.id) :
    ∃ summaries, sessionFamilySummaries resolver catalog reference includeAncestors = .ok summaries ∧
      (unique true summaries).has row.id = true ∧ (∃ P : CodeUnits → Prop, Reads table summaries P) ∧
      ∀ id, Relation.ReflTransGen (Link true summaries)
          (familyRootIdentity true (unique true summaries) row.id includeAncestors) id ↔
        Relation.ReflTransGen (Link true table.list)
          (familyRootIdentity true (unique true table.list) row.id includeAncestors) id := by
  unfold sessionFamilySummaries
  rw [if_pos serves.sqlite]
  cases asked : catalog.family with
  | none =>
    exact ⟨table.list, congrArg Except.ok serves.list, mem_rows_has named mem, ⟨fun _ => True, reads_list table⟩,
      fun _ => Iff.rfl⟩
  | some family =>
    obtain ⟨enough, summaries, top, ends, reads, known, isTop⟩ := family_spec named mem includeAncestors
    obtain ⟨fuel, served⟩ := serves.family family asked row.id (SessionTable.mem_ids.mpr ⟨row, mem, rfl⟩) includeAncestors
    have both := (SessionTable.family_more served (Nat.le_max_right enough fuel)).symm.trans
      (ends (max enough fuel) (Nat.le_max_left ..))
    have below : Climbs table.parentOf row.id top := by
      cases includeAncestors with
      | false =>
        obtain rfl : top = row.id := isTop
        exact .refl row.id
      | true =>
        exact (climbs_table named known).mpr isTop.1
    refine ⟨summaries, same ▸ Option.some.inj both, ?_, ⟨_, reads⟩, fun id => below_same named mem reads known isTop⟩
    exact (reads.has named).mpr ⟨SessionTable.mem_ids.mpr ⟨row, mem, rfl⟩, below⟩

end Collected

end SessionFamily
