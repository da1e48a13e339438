import Oyster.SessionFamilies

/-! What is collected for the family of a session: everything below it, or below its topmost
ancestor, once, from whichever catalog and from whichever member. -/
namespace SessionFamily
open ParentRelation
open SessionKeys (Reference message Codec)

section
variable {ν : Type} [Json.Numbers ν] {resolver : Resolver} {catalog : Catalog} {reference reference' : Reference}
  {referenceFor : Summary → Except CodeUnits Reference} {includeAncestors : Bool} {table : SessionTable}

theorem found_both (named : table.Named) {summaries summaries' : List Summary} {P P' : CodeUnits → Prop}
    (reads : Reads table summaries P) (reads' : Reads table summaries' P') {id : CodeUnits}
    (known : (unique true summaries).has id = true) (known' : (unique true summaries').has id = true) :
    ∃ session, (unique true summaries).get id = some session ∧ (unique true summaries').get id = some session := by
  obtain ⟨inside, holds⟩ := (reads.has named).mp known
  obtain ⟨_, holds'⟩ := (reads'.has named).mp known'
  obtain ⟨row, mem, own⟩ := SessionTable.mem_ids.mp inside
  exact ⟨rowSummary row, (reads.get named).mpr ⟨row, mem, own, rfl, holds⟩,
    (reads'.get named).mpr ⟨row, mem, own, rfl, holds'⟩⟩

theorem root_known {sqlite : Bool} {summaries : List Summary} {root : CodeUnits}
    (known : (unique sqlite summaries).has root = true) (includeAncestors : Bool) :
    (unique sqlite summaries).has (familyRootIdentity sqlite (unique sqlite summaries) root includeAncestors) = true := by
  cases includeAncestors with
  | false => exact known
  | true => exact top_known known (familyRoot_top sqlite _ root)

theorem serves_same (named : table.Named) (serves : Serves catalog table)
    (resolved : sessionReferenceResolver ν resolver catalog = .ok referenceFor) {other : Catalog}
    (serves' : Serves other table) (resolved' : sessionReferenceResolver ν resolver other = .ok referenceFor)
    (own : reference.backend.external = false) (own' : reference'.backend.external = false)
    {row row' : SessionRow} (mem : row ∈ table.rows) (mem' : row' ∈ table.rows)
    (same : reference.id = row.id) (same' : reference'.id = row'.id)
    (members : ∀ id, Relation.ReflTransGen (Link true table.list)
        (familyRootIdentity true (unique true table.list) row.id includeAncestors) id ↔
      Relation.ReflTransGen (Link true table.list)
        (familyRootIdentity true (unique true table.list) row'.id includeAncestors) id) :
    SameFamily (collectSessionFamilyReferences ν resolver catalog reference includeAncestors)
      (collectSessionFamilyReferences ν resolver other reference' includeAncestors) := by
  obtain ⟨summaries, read, known, ⟨P, reads⟩, below⟩ := serves_read named serves mem same
  obtain ⟨summaries', read', known', ⟨P', reads'⟩, below'⟩ := serves_read named serves' mem' same'
  have root : rootOf catalog reference = row.id := by rw [rootOf, if_pos serves.sqlite, same]
  have root' : rootOf other reference' = row'.id := by rw [rootOf, if_pos serves'.sqlite, same']
  refine collects_same resolved own read resolved' own' read' (by rw [serves.sqlite, root]; exact below)
    (by rw [serves'.sqlite, root']; exact fun id => (below' id).trans (members id).symm)
    fun id leads => ?_
  rw [serves.sqlite, serves'.sqlite]
  exact found_both named reads reads' (link_known (root_known known includeAncestors) ((below id).mpr leads))
    (link_known (root_known known' includeAncestors) ((below' id).mpr ((members id).mp leads)))

end

/-- What is collected for a session is what can be reached from it along the links to children,
once and in an end. With the ancestors it is the family of the session, which all its members
have in common: in the files when both are in folders of the catalog, and in the database,
where the walk over the rows of the queries collects the same as the walk over all rows. -/
theorem family_closure (ν : Type) [Json.Numbers ν] (resolver : Resolver) (catalog : Catalog)
    {referenceFor : Summary → Except CodeUnits Reference}
    (resolved : sessionReferenceResolver ν resolver catalog = .ok referenceFor) :
    (∀ reference summaries, reference.backend.external = false →
      sessionFamilySummaries resolver catalog reference false = .ok summaries →
      ∃ (ids : List CodeUnits) (enough : Nat), ids.Nodup ∧
        (∀ id, id ∈ ids ↔ Relation.ReflTransGen (Link catalog.sqlite summaries) (rootOf catalog reference) id) ∧
        ∀ fuel, enough ≤ fuel → collectSessionFamilyReferences ν resolver catalog reference false fuel =
          some (ids.mapM (referenceOf referenceFor (unique catalog.sqlite summaries) reference))) ∧
    (∀ reference summaries, reference.backend.external = false →
      sessionFamilySummaries resolver catalog reference true = .ok summaries →
      (unique catalog.sqlite summaries).has (rootOf catalog reference) = true →
      ∃ (ids : List CodeUnits) (enough : Nat), ids.Nodup ∧
        (∀ id, id ∈ ids ↔ Family catalog.sqlite summaries (rootOf catalog reference) id) ∧
        (∀ member ∈ ids, ∀ id, Family catalog.sqlite summaries member id ↔
          Family catalog.sqlite summaries (rootOf catalog reference) id) ∧
        ∀ fuel, enough ≤ fuel → collectSessionFamilyReferences ν resolver catalog reference true fuel =
          some (ids.mapM (referenceOf referenceFor (unique catalog.sqlite summaries) reference))) ∧
    (catalog.sqlite = false → Consistent catalog → ∀ reference reference' summaries,
      reference.backend.external = false → reference'.backend.external = false →
      resolver.dirname (reference.storagePath.getD []) ∈ catalog.folders.filter (· ≠ []) →
      resolver.dirname (reference'.storagePath.getD []) ∈ catalog.folders.filter (· ≠ []) →
      sessionFamilySummaries resolver catalog reference true = .ok summaries →
      (unique catalog.sqlite summaries).has (rootOf catalog reference) = true →
      Family catalog.sqlite summaries (rootOf catalog reference) (rootOf catalog reference') →
      SameFamily (collectSessionFamilyReferences ν resolver catalog reference true)
        (collectSessionFamilyReferences ν resolver catalog reference' true)) ∧
    (∀ table : SessionTable, table.Named → Serves catalog table → ∀ row ∈ table.rows, ∀ reference : Reference,
      reference.backend.external = false → reference.id = row.id →
      (∀ includeAncestors, SameFamily (collectSessionFamilyReferences ν resolver catalog reference includeAncestors)
        (collectSessionFamilyReferences ν resolver { catalog with family := none } reference includeAncestors)) ∧
      ∀ row' ∈ table.rows, ∀ reference' : Reference, reference'.backend.external = false → reference'.id = row'.id →
        Family true table.list row.id row'.id →
        SameFamily (collectSessionFamilyReferences ν resolver catalog reference true)
          (collectSessionFamilyReferences ν resolver catalog reference' true)) := by
  refine ⟨fun reference summaries own read => collected resolved own read, ?_, ?_, ?_⟩
  · intro reference summaries own read known
    obtain ⟨ids, enough, nodup, mem, ends⟩ := collected resolved own read
    have members : ∀ id, id ∈ ids ↔ Family catalog.sqlite summaries (rootOf catalog reference) id :=
      fun id => (mem id).trans (family_root known id)
    exact ⟨ids, enough, nodup, members,
      fun member inside => (family_member known ((members member).mp inside)).2, ends⟩
  · intro files consistent reference reference' summaries own own' inside inside' read known member
    obtain ⟨summaries', read'⟩ : ∃ summaries', sessionFamilySummaries resolver catalog reference' true = .ok summaries' := by
      unfold sessionFamilySummaries
      rw [files, if_neg Bool.false_ne_true]
      exact ⟨_, rfl⟩
    have same := sameReading_folders files consistent inside inside' read read'
    obtain ⟨there, families⟩ := family_member known member
    have there' : (unique catalog.sqlite summaries').has (rootOf catalog reference') = true := by
      obtain ⟨session, found⟩ := OrderedMap.has_iff.mp there
      rw [← OrderedMap.get_eq_some_iff, same] at found
      exact OrderedMap.has_iff.mpr ⟨session, OrderedMap.get_eq_some_iff.mp found⟩
    refine collects_same resolved own read resolved own' read' (family_root known) (fun id => ?_) fun id mem => ?_
    · rw [family_root there', ← same.family, families]
    · obtain ⟨session, found⟩ := OrderedMap.has_iff.mp (family_member known mem).1
      have found := OrderedMap.get_eq_some_iff.mpr found
      exact ⟨session, found, (same id).symm.trans found⟩
  · intro table named serves row mem reference own same
    have listing : Serves { catalog with family := none } table :=
      ⟨serves.sqlite, serves.list, fun family absurd => nomatch absurd⟩
    refine ⟨fun includeAncestors => ?_, fun row' mem' reference' own' same' member => ?_⟩
    · exact serves_same named serves resolved listing resolved own own mem mem same same fun _ => Iff.rfl
    · refine serves_same named serves resolved serves resolved own own' mem mem' same same' fun id => ?_
      rw [family_root (mem_rows_has named mem), family_root (mem_rows_has named mem'),
        (family_member (mem_rows_has named mem) member).2]

def resolver : Resolver where
  dirname path := PosixPath.text (PosixPath.names path).dropLast
  sessionReferences := some SessionKeys.codec
  sessionReferenceFor := none

/-- The database with the given sessions and parents. -/
def tableOf (rows : List (CodeUnits × CodeUnits)) (key : ((rows.map fun row => SessionRow.mk row.1 (some row.2) []).map
    (·.id)).Nodup) : SessionTable where
  rows := rows.map fun row => ⟨row.1, some row.2, []⟩
  key := key
  le a b := decide (a ≤ b)

def catalogOf (table : SessionTable) : Catalog where
  sqlite := true
  storagePath := Json.ascii "/root/sessions.sqlite"
  folders := []
  list _ := table.list
  family := some fun id includeAncestors => (table.family 10 id includeAncestors).getD (.ok [])

def named (id : CodeUnits) : Reference := ⟨.sqlite, id, some (Json.ascii "/root/sessions.sqlite")⟩

def idsOf (collected : Option (Except CodeUnits (List Reference))) : Option (Option (List CodeUnits)) :=
  collected.map fun result => result.toOption.map fun references => references.map (·.id)

def collectFrom (catalog : Catalog) (id : String) (includeAncestors : Bool) : Option (Option (List CodeUnits)) :=
  idsOf (collectSessionFamilyReferences Json.Literal resolver catalog (named (Json.ascii id)) includeAncestors 10)

/-- One session, whose parent is none of the database. -/
def orphan : SessionTable := tableOf [(Json.ascii "c", Json.ascii "g")] (by decide)

/-- A session, its child, and a child of that whose id is the ids of both with a separator. -/
def separated : SessionTable :=
  tableOf [(Json.ascii "a", []), (Json.ascii "b", Json.ascii "a"), (Json.ascii "a\u001fb", Json.ascii "b")] (by decide)

def fileOf (path parent : String) : Summary := ⟨Json.ascii "s", Json.ascii path, none, some (Json.ascii parent)⟩

def files : Catalog where
  sqlite := false
  storagePath := []
  folders := [Json.ascii "/root/sessions/d"]
  list location :=
    if location = some (Json.ascii "/root/sessions") then [fileOf "/root/sessions/a.jsonl" ""]
    else if location = some (Json.ascii "/root/sessions/d") then
      [fileOf "/root/sessions/d/c.jsonl" "/root/sessions/a.jsonl"]
    else []
  family := none

def pathsFrom (path : String) : Option (Option (List CodeUnits)) :=
  (collectSessionFamilyReferences Json.Literal resolver files ⟨.jsonl, Json.ascii "s", some (Json.ascii path)⟩ true 10).map
    fun result => result.toOption.map fun references => references.filterMap (·.storagePath)

/-- A session that is not in the database has a child in the list of all sessions and none in
the rows of the query, and the child does not come back to it. A file in no folder of the
catalog is not read with its child. The walk over all sessions rejects the id with a separator,
which the query leaves out. -/
theorem families_differ : (collectFrom (catalogOf orphan) "g" true = some (some [Json.ascii "g"]) ∧
      collectFrom { catalogOf orphan with family := none } "g" true = some (some [Json.ascii "g", Json.ascii "c"]) ∧
      collectFrom { catalogOf orphan with family := none } "c" true = some (some [Json.ascii "c"])) ∧
    (pathsFrom "/root/sessions/a.jsonl" =
        some (some [Json.ascii "/root/sessions/a.jsonl", Json.ascii "/root/sessions/d/c.jsonl"]) ∧
      pathsFrom "/root/sessions/d/c.jsonl" = some (some [Json.ascii "/root/sessions/d/c.jsonl"])) ∧
    collectFrom (catalogOf separated) "a" false = some (some [Json.ascii "a", Json.ascii "b"]) ∧
    collectFrom { catalogOf separated with family := none } "a" false = some none := by
  decide +kernel

/-- Two sessions that are each the parent of the other, and a child of one of them. -/
def cycle : SessionTable :=
  tableOf [(Json.ascii "a", Json.ascii "b"), (Json.ascii "b", Json.ascii "a"), (Json.ascii "c", Json.ascii "b")] (by decide)

theorem serves_cycle : Serves (catalogOf cycle) cycle where
  sqlite := rfl
  list := rfl
  family := by
    intro family asked id mem includeAncestors
    cases asked
    have ends : ∀ id ∈ cycle.ids, ∀ includeAncestors, (cycle.family 10 id includeAncestors).isSome = true := by
      decide +kernel
    obtain ⟨result, found⟩ := Option.isSome_iff_exists.mp (ends id mem includeAncestors)
    refine ⟨10, found.trans ?_⟩
    dsimp only
    rw [found]
    rfl

/-- The child of one and the other of them have the same family. -/
theorem families_same_cycle :
    SameFamily (collectSessionFamilyReferences Json.Literal resolver (catalogOf cycle) (named (Json.ascii "c")) true)
      (collectSessionFamilyReferences Json.Literal resolver (catalogOf cycle) (named (Json.ascii "a")) true) := by
  have member : Family true cycle.list (Json.ascii "c") (Json.ascii "a") := by
    have root : familyRootIdentity true (unique true cycle.list) (Json.ascii "c") true = Json.ascii "b" := by
      decide +kernel
    have link : Link true cycle.list (Json.ascii "b") (Json.ascii "a") := by
      unfold Link
      decide +kernel
    exact (family_root (by decide +kernel) _).mp (root ▸ .single link)
  have plain : cycle.Named := by
    unfold SessionTable.Named
    decide +kernel
  obtain ⟨_, _, _, same⟩ := family_closure Json.Literal resolver (catalogOf cycle) rfl
  obtain ⟨_, same⟩ := same cycle plain serves_cycle ⟨Json.ascii "c", some (Json.ascii "b"), []⟩ (by decide +kernel)
    (named (Json.ascii "c")) rfl rfl
  exact same ⟨Json.ascii "a", some (Json.ascii "b"), []⟩ (by decide +kernel) (named (Json.ascii "a")) rfl rfl member

end SessionFamily
