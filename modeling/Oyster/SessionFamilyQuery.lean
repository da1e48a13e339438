import Mathlib.Data.List.Sort
import Mathlib.Data.Nat.Find
import Oyster.RecursiveQuery
import Oyster.SessionFamilyWalk

/-! The family that the database of sessions is asked for with two recursive queries: the walk
over its rows finds what the walk over all sessions does. -/
namespace SessionFamily
open ParentRelation RecursiveQuery
open SessionKeys (Reference message)

structure SessionRow where
  id : CodeUnits
  parentSessionId : Option CodeUnits
  /-- `COALESCE(s.updated_at, s.created_at)`. -/
  modifiedAt : CodeUnits
  deriving DecidableEq

structure SessionTable where
  rows : List SessionRow
  key : (rows.map (·.id)).Nodup
  le : CodeUnits → CodeUnits → Bool

/-- The unit that the paths of the queries are separated by. -/
def separator : UInt16 := 31

/-- A row of either recursive query. -/
structure Trail where
  id : CodeUnits
  parentSessionId : Option CodeUnits
  depth : Nat
  path : CodeUnits

def SessionRow.start (row : SessionRow) : Trail where
  id := row.id
  parentSessionId := row.parentSessionId
  depth := 0
  path := separator :: row.id ++ [separator]

def Trail.follow (trail : Trail) (row : SessionRow) : Trail where
  id := row.id
  parentSessionId := row.parentSessionId
  depth := trail.depth + 1
  path := trail.path ++ row.id ++ [separator]

def rowSummary (row : SessionRow) : Summary where
  id := row.id
  path := []
  parentSessionId := row.parentSessionId
  parentSession := none

namespace SessionTable
variable (table : SessionTable)

def find (id : CodeUnits) : List SessionRow := table.rows.filter (·.id = id)

/-- The recursive part of `ancestors`. -/
def ancestors (trail : Trail) : List Trail :=
  (table.rows.filter fun parent => some parent.id = trail.parentSessionId ∧ ¬Occurs separator parent.id trail.path).map
    trail.follow

/-- The recursive part of `family`. -/
def descendants (trail : Trail) : List Trail :=
  (table.rows.filter fun child => child.parentSessionId = some trail.id ∧ ¬Occurs separator child.id trail.path).map
    trail.follow

/-- The id that the query of the ancestors returns, if it returns one that is not empty. -/
def topOf (trails : List Trail) : Option CodeUnits :=
  ((trails.insertionSort fun a b => b.depth ≤ a.depth).head?.map Trail.id).filter (· ≠ [])

def before (a b : Trail × SessionRow) : Bool :=
  a.1.depth < b.1.depth || (a.1.depth = b.1.depth && (!table.le b.2.modifiedAt a.2.modifiedAt ||
      (table.le a.2.modifiedAt b.2.modifiedAt && table.le a.2.id b.2.id)))

def joined (trails : List Trail) : List (Trail × SessionRow) :=
  trails.flatMap fun trail => (table.find trail.id).map fun row => (trail, row)

/-- `family`, if both queries end within `fuel` rows. -/
def family (fuel : Nat) (id : CodeUnits) (includeAncestors : Bool) : Option (Except CodeUnits (List Summary)) :=
  if id = [] then some (.error (message "SQLite session ID is required"))
  else
    let rootId :=
      if includeAncestors then
        (evaluate table.ancestors fuel ((table.find id).map SessionRow.start)).map fun trails => (topOf trails).getD id
      else some id
    rootId.bind fun rootId =>
      (evaluate table.descendants fuel ((table.find rootId).map SessionRow.start)).map fun trails =>
        .ok (((table.joined trails).insertionSort fun a b => table.before a b = true).map fun found => rowSummary found.2)

/-- `list` of every session, the latest first. -/
def list : List Summary :=
  (table.rows.insertionSort fun a b => table.le b.modifiedAt a.modifiedAt = true).map rowSummary

end SessionTable

namespace SessionTable
variable {table : SessionTable}

def ids (table : SessionTable) : List CodeUnits := table.rows.map (·.id)

/-- The parent that the row names; the empty text names none. -/
def parentOf (table : SessionTable) (id : CodeUnits) : Option CodeUnits :=
  ((table.find id).head?.bind (·.parentSessionId)).filter (· ≠ [])

def knownParentOf (table : SessionTable) (id : CodeUnits) : Option CodeUnits :=
  (table.parentOf id).filter (· ∈ table.ids)

/-- The ids are those that the codec of references takes, as far as the queries need it. -/
def Named (table : SessionTable) : Prop := ∀ row ∈ table.rows, row.id ≠ [] ∧ separator ∉ row.id

theorem find_row {row : SessionRow} (mem : row ∈ table.rows) : table.find row.id = [row] :=
  filter_key table.key mem

theorem parentOf_row {row : SessionRow} (mem : row ∈ table.rows) :
    table.parentOf row.id = row.parentSessionId.filter (· ≠ []) := by
  rw [parentOf, find_row mem]
  rfl

theorem parentOf_some {id parent : CodeUnits} (up : table.parentOf id = some parent) :
    ∃ row ∈ table.rows, row.id = id ∧ row.parentSessionId = some parent := by
  obtain ⟨named, _⟩ := Option.filter_eq_some_iff.mp up
  obtain ⟨row, first, parent⟩ := Option.bind_eq_some_iff.mp named
  obtain ⟨mem, own⟩ := List.mem_filter.mp (List.mem_of_head? first)
  exact ⟨row, mem, of_decide_eq_true own, parent⟩

theorem parentOf_known {id parent : CodeUnits} (up : table.parentOf id = some parent) : id ∈ table.ids := by
  obtain ⟨row, mem, rfl, _⟩ := parentOf_some up
  exact List.mem_map.mpr ⟨row, mem, rfl⟩

theorem knownParentOf_some {id parent : CodeUnits} :
    table.knownParentOf id = some parent ↔ table.parentOf id = some parent ∧ parent ∈ table.ids := by
  simp [knownParentOf, Option.filter_eq_some_iff]

theorem mem_ids {id : CodeUnits} : id ∈ table.ids ↔ ∃ row ∈ table.rows, row.id = id := List.mem_map

/-- A row of the family of `root`, with the ids from there on. -/
structure Descends (table : SessionTable) (root : CodeUnits) (trail : Trail) (names : List CodeUnits) : Prop where
  path : trail.path = RecursiveQuery.path separator names
  length : names.length = trail.depth + 1
  nodup : names.Nodup
  inside : names ⊆ table.ids
  top : root ∈ names
  own : trail.id ∈ names
  below : Below table.parentOf root trail.depth trail.id
  above : ∀ name ∈ names, ∃ m ≤ trail.depth, climb table.parentOf m trail.id = some name

theorem Descends.start {row : SessionRow} (mem : row ∈ table.rows) : Descends table row.id row.start [row.id] where
  path := (path_singleton ..).symm
  length := rfl
  nodup := List.nodup_singleton _
  inside := fun _ last => List.mem_singleton.mp last ▸ mem_ids.mpr ⟨row, mem, rfl⟩
  top := List.mem_singleton_self _
  own := List.mem_singleton_self _
  below := .refl row.id
  above := fun _ mem => ⟨0, Nat.le_refl 0, congrArg some (List.mem_singleton.mp mem).symm⟩

theorem Descends.follow {root : CodeUnits} {trail : Trail} {names : List CodeUnits} (named : table.Named)
    (h : Descends table root trail names) {row : SessionRow} (mem : row ∈ table.rows)
    (child : row.parentSessionId = some trail.id) (free : ¬Occurs separator row.id trail.path) :
    Descends table root (trail.follow row) (names ++ [row.id]) := by
  have new : row.id ∉ names := fun old => free (h.path ▸ occurs_of_mem old)
  obtain ⟨own, inside, same⟩ := mem_ids.mp (h.inside h.own)
  have filled : trail.id ≠ [] := same ▸ (named own inside).1
  have up : table.parentOf row.id = some trail.id := by
    rw [parentOf_row mem, child]
    exact Option.filter_some_pos (by simpa using filled)
  constructor
  · rw [path_append, ← h.path]
    rfl
  · rw [List.length_append, h.length]
    rfl
  · exact List.nodup_append.mpr ⟨h.nodup, List.nodup_singleton _, fun a old b last same =>
      new (List.mem_singleton.mp last ▸ same ▸ old)⟩
  · exact List.append_subset.mpr ⟨h.inside, fun _ last =>
      List.mem_singleton.mp last ▸ mem_ids.mpr ⟨row, mem, rfl⟩⟩
  · exact List.mem_append_left _ h.top
  · exact List.mem_append_right _ (List.mem_singleton_self _)
  · refine h.below.child up fun same => new ?_
    have same : row.id = root := same
    exact same ▸ h.top
  · intro name mem
    obtain old | last := List.mem_append.mp mem
    · obtain ⟨m, le, climbed⟩ := h.above name old
      exact ⟨m + 1, Nat.succ_le_succ le, (climb_below up).trans climbed⟩
    · exact ⟨0, Nat.zero_le _, congrArg some (List.mem_singleton.mp last).symm⟩

theorem Descends.next {root : CodeUnits} {trail made : Trail} {names : List CodeUnits} (named : table.Named)
    (h : Descends table root trail names) (mem : made ∈ table.descendants trail) :
    ∃ more, Descends table root made more := by
  obtain ⟨row, inside, rfl⟩ := List.mem_map.mp mem
  obtain ⟨here, guard⟩ := List.mem_filter.mp inside
  obtain ⟨child, free⟩ := of_decide_eq_true guard
  exact ⟨_, h.follow named here child free⟩

theorem Descends.shallow {root : CodeUnits} {trail : Trail} {names : List CodeUnits}
    (h : Descends table root trail names) : trail.depth < table.rows.length := by
  have fewer := (h.nodup.subperm h.inside).length_le
  rw [h.length, ids, List.length_map] at fewer
  omega

theorem descendants_follow {trail made : Trail} (mem : made ∈ table.descendants trail) : made.depth = trail.depth + 1 := by
  obtain ⟨row, _, rfl⟩ := List.mem_map.mp mem
  rfl

theorem below_of_climbs {parent : CodeUnits → Option CodeUnits} {x top : CodeUnits} (h : Climbs parent x top) :
    ∃ n, Below parent top n x := by
  classical
  exact ⟨Nat.find h, Nat.find_spec h, fun m less => Nat.find_min h less⟩

theorem descendants_spec (named : table.Named) {row : SessionRow} (mem : row ∈ table.rows) :
    ∃ enough trails, (∀ fuel, enough ≤ fuel → evaluate table.descendants fuel [row.start] = some trails) ∧
      ∀ id, (∃ trail ∈ trails, trail.id = id) ↔ Climbs table.parentOf id row.id := by
  have sinks : ∀ trail, (∃ names, Descends table row.id trail names) → ∀ made ∈ table.descendants trail,
      (∃ names, Descends table row.id made names) ∧ table.rows.length - made.depth < table.rows.length - trail.depth := by
    rintro trail ⟨names, h⟩ made mem
    have shallow := h.shallow
    rw [descendants_follow mem]
    exact ⟨h.next named mem, by omega⟩
  have start : ∃ names, Descends table row.id row.start names := ⟨_, .start mem⟩
  obtain ⟨enough, trails, ends, found, descends⟩ := evaluate_from sinks start
  refine ⟨enough, trails, ends, fun id => ⟨?_, fun climbs => ?_⟩⟩
  · rintro ⟨trail, inside, rfl⟩
    obtain ⟨names, h⟩ := descends trail inside
    exact ⟨trail.depth, h.below.climbs⟩
  · obtain ⟨n, below⟩ := below_of_climbs climbs
    have general : ∀ n id, Below table.parentOf row.id n id → ∃ trail ∈ trails, trail.id = id ∧ trail.depth = n := by
      intro n
      induction n with
      | zero =>
        intro id below
        exact ⟨row.start, (found _).mpr .refl, (Option.some.inj below.climbs).symm, rfl⟩
      | succ n ih =>
        intro id below
        obtain ⟨parent, up, above⟩ := below.up
        obtain ⟨trail, inside, rfl, rfl⟩ := ih parent above
        obtain ⟨names, h⟩ := descends trail inside
        obtain ⟨child, here, rfl, parent⟩ := parentOf_some up
        have free : ¬Occurs separator child.id trail.path := by
          intro met
          rw [h.path] at met
          have plain : ∀ other ∈ names, separator ∉ other := by
            intro other known
            obtain ⟨row, here, rfl⟩ := mem_ids.mp (h.inside known)
            exact (named row here).2
          obtain ⟨m, le, climbed⟩ := h.above _ (mem_of_occurs plain (named child here).2 met)
          exact below.no_return (Nat.succ_pos m) (Nat.succ_le_succ le) ((climb_below up).trans climbed)
        refine ⟨trail.follow child, (found _).mpr (.tail ((found _).mp inside) ?_), rfl, rfl⟩
        exact List.mem_map.mpr ⟨child, List.mem_filter.mpr ⟨here, decide_eq_true ⟨parent, free⟩⟩, rfl⟩
    obtain ⟨trail, inside, same, _⟩ := general n id below
    exact ⟨trail, inside, same⟩

/-- A row of the ancestors of `member`, after the ids on the way to it. -/
structure Ascends (table : SessionTable) (member : CodeUnits) (trail : Trail) (seen : List CodeUnits) : Prop where
  path : trail.path = RecursiveQuery.path separator (seen ++ [trail.id])
  depth : trail.depth = seen.length
  way : Way table.knownParentOf member seen trail.id
  fresh : trail.id ∉ seen
  inside : seen ⊆ table.ids
  row : ∃ row ∈ table.rows, row.id = trail.id ∧ row.parentSessionId = trail.parentSessionId

theorem Ascends.start {row : SessionRow} (mem : row ∈ table.rows) : Ascends table row.id row.start [] where
  path := (path_singleton ..).symm
  depth := rfl
  way := .start row.id
  fresh := List.not_mem_nil
  inside := List.nil_subset _
  row := ⟨row, mem, rfl, rfl⟩

theorem Ascends.known {member : CodeUnits} {trail : Trail} {seen : List CodeUnits}
    (h : Ascends table member trail seen) : seen ++ [trail.id] ⊆ table.ids := by
  obtain ⟨row, mem, same, _⟩ := h.row
  exact List.append_subset.mpr ⟨h.inside, fun _ last =>
    List.mem_singleton.mp last ▸ mem_ids.mpr ⟨row, mem, same⟩⟩

theorem Ascends.nodup {member : CodeUnits} {trail : Trail} {seen : List CodeUnits}
    (h : Ascends table member trail seen) : (seen ++ [trail.id]).Nodup :=
  List.nodup_append.mpr ⟨h.way.nodup, List.nodup_singleton _, fun _ old _ last same =>
    h.fresh (List.mem_singleton.mp last ▸ same ▸ old)⟩

theorem Ascends.shallow {member : CodeUnits} {trail : Trail} {seen : List CodeUnits}
    (h : Ascends table member trail seen) : trail.depth < table.rows.length := by
  have fewer := (h.nodup.subperm h.known).length_le
  rw [List.length_append, List.length_singleton, ids, List.length_map, ← h.depth] at fewer
  omega

theorem Ascends.parent {member : CodeUnits} {trail : Trail} {seen : List CodeUnits}
    (h : Ascends table member trail seen) : table.knownParentOf trail.id =
      (trail.parentSessionId.filter (· ≠ [])).filter (· ∈ table.ids) := by
  obtain ⟨row, mem, same, parent⟩ := h.row
  rw [knownParentOf, ← same, parentOf_row mem, parent]

theorem Ascends.follow {member : CodeUnits} {trail : Trail} {seen : List CodeUnits} (named : table.Named)
    (h : Ascends table member trail seen) {row : SessionRow} (mem : row ∈ table.rows)
    (parent : some row.id = trail.parentSessionId) (free : ¬Occurs separator row.id trail.path) :
    Ascends table member (trail.follow row) (seen ++ [trail.id]) := by
  have new : row.id ∉ seen ++ [trail.id] := fun old => free (h.path ▸ occurs_of_mem old)
  have up : table.knownParentOf trail.id = some row.id := by
    have known : row.id ∈ table.ids := mem_ids.mpr ⟨row, mem, rfl⟩
    rw [h.parent, ← parent, Option.filter_some_pos (by simpa using (named row mem).1)]
    exact Option.filter_some_pos (decide_eq_true known)
  constructor
  · change trail.path ++ row.id ++ [separator] = RecursiveQuery.path separator (seen ++ [trail.id] ++ [row.id])
    rw [path_append, h.path]
  · rw [List.length_append, ← h.depth]
    rfl
  · exact h.way.step h.fresh up
  · exact new
  · exact h.known
  · exact ⟨row, mem, rfl, rfl⟩

theorem Ascends.next {member : CodeUnits} {trail made : Trail} {seen : List CodeUnits} (named : table.Named)
    (h : Ascends table member trail seen) (mem : made ∈ table.ancestors trail) :
    ∃ more, Ascends table member made more := by
  obtain ⟨row, inside, rfl⟩ := List.mem_map.mp mem
  obtain ⟨here, guard⟩ := List.mem_filter.mp inside
  obtain ⟨parent, free⟩ := of_decide_eq_true guard
  exact ⟨_, h.follow named here parent free⟩

theorem ancestors_follow {trail made : Trail} (mem : made ∈ table.ancestors trail) : made.depth = trail.depth + 1 := by
  obtain ⟨row, _, rfl⟩ := List.mem_map.mp mem
  rfl

theorem Ascends.top {member : CodeUnits} {trail : Trail} {seen : List CodeUnits} (named : table.Named)
    (h : Ascends table member trail seen) (last : table.ancestors trail = []) :
    Top table.knownParentOf member trail.id := by
  cases up : table.knownParentOf trail.id with
  | none => exact h.way.top (.inl up)
  | some parent =>
    refine h.way.round up ?_
    obtain ⟨row, mem, rfl⟩ := mem_ids.mp (knownParentOf_some.mp up).2
    have asked : some row.id = trail.parentSessionId := by
      rw [h.parent, Option.filter_eq_some_iff, Option.filter_eq_some_iff] at up
      exact up.1.1.symm
    have met : Occurs separator row.id trail.path := by
      by_contra free
      have made : trail.follow row ∈ table.ancestors trail :=
        List.mem_map.mpr ⟨row, List.mem_filter.mpr ⟨mem, decide_eq_true ⟨asked, free⟩⟩, rfl⟩
      rw [last] at made
      cases made
    rw [h.path] at met
    refine mem_of_occurs ?_ (named row mem).2 met
    intro other known
    obtain ⟨row, here, rfl⟩ := mem_ids.mp (h.known known)
    exact (named row here).2

theorem topOf_deepest {trails : List Trail} (filled : ∀ trail ∈ trails, trail.id ≠ []) (some_row : trails ≠ []) :
    ∃ trail ∈ trails, topOf trails = some trail.id ∧ ∀ other ∈ trails, other.depth ≤ trail.depth := by
  have sorted := List.pairwise_insertionSort (fun a b : Trail => b.depth ≤ a.depth) trails
  have same := List.perm_insertionSort (fun a b : Trail => b.depth ≤ a.depth) trails
  unfold topOf
  cases deepest : trails.insertionSort fun a b => b.depth ≤ a.depth with
  | nil =>
    rw [deepest] at same
    exact absurd same.symm.eq_nil some_row
  | cons trail rest =>
    rw [deepest] at same sorted
    have mem : trail ∈ trails := same.subset (List.mem_cons_self ..)
    refine ⟨trail, mem, Option.filter_some_pos (by simpa using filled trail mem), fun other inside => ?_⟩
    obtain rfl | later := List.mem_cons.mp (same.symm.subset inside)
    · exact Nat.le_refl _
    · exact (List.pairwise_cons.mp sorted).1 other later

theorem ancestors_spec (named : table.Named) {row : SessionRow} (mem : row ∈ table.rows) :
    ∃ enough trails top, (∀ fuel, enough ≤ fuel → evaluate table.ancestors fuel [row.start] = some trails) ∧
      topOf trails = some top ∧ Top table.knownParentOf row.id top := by
  have sinks : ∀ trail, (∃ seen, Ascends table row.id trail seen) → ∀ made ∈ table.ancestors trail,
      (∃ seen, Ascends table row.id made seen) ∧ table.rows.length - made.depth < table.rows.length - trail.depth := by
    rintro trail ⟨seen, h⟩ made mem
    have shallow := h.shallow
    rw [ancestors_follow mem]
    exact ⟨h.next named mem, by omega⟩
  have start : ∃ seen, Ascends table row.id row.start seen := ⟨_, .start mem⟩
  obtain ⟨enough, trails, ends, found, ascends⟩ := evaluate_from sinks start
  have filled : ∀ trail ∈ trails, trail.id ≠ [] := by
    intro trail inside
    obtain ⟨seen, h⟩ := ascends trail inside
    obtain ⟨row, here, same, _⟩ := h.row
    exact same ▸ (named row here).1
  have first : row.start ∈ trails := (found _).mpr .refl
  obtain ⟨trail, inside, top, deepest⟩ := topOf_deepest filled (List.ne_nil_of_mem first)
  refine ⟨enough, trails, trail.id, ends, top, ?_⟩
  obtain ⟨seen, h⟩ := ascends trail inside
  refine h.top named ?_
  -- what followed the deepest row would be deeper
  cases made : table.ancestors trail with
  | nil => rfl
  | cons next rest =>
    have follows : next ∈ table.ancestors trail := made ▸ List.mem_cons_self ..
    have lower := deepest next ((found next).mpr (.tail ((found trail).mp inside) follows))
    rw [ancestors_follow follows] at lower
    omega

end SessionTable
end SessionFamily
