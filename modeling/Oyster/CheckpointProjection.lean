import Oyster.CheckpointTree

/-! The tree of a family shows each session and each checkpoint once, unless the way up
ends at a session that is its own parent. -/
namespace CheckpointTree
open ParentRelation

namespace Tree

theorem infosOfAll_eq (trees : List Tree) : infosOfAll trees = trees.flatMap infos := by
  induction trees with
  | nil => rfl
  | cons tree trees ih => rw [infosOfAll, ih, List.flatMap_cons]

theorem branchesOfAll_eq (trees : List Tree) : branchesOfAll trees = trees.flatMap branches := by
  induction trees with
  | nil => rfl
  | cons tree trees ih => rw [branchesOfAll, ih, List.flatMap_cons]

@[simp] theorem infos_node (info : Info) (fork : Option String) (checkpoints : List Checkpoint) (children : List Tree) :
    (node info fork checkpoints children).infos = info :: children.flatMap infos := by
  rw [infos, infosOfAll_eq]

theorem mem_branches_node {info : Info} {fork : Option String} {checkpoints : List Checkpoint}
    {children : List Tree} {branch : List String} :
    branch ∈ (node info fork checkpoints children).branches ↔
      ∃ rest, branch = checkpoints.map Checkpoint.key ++ rest ∧
        ((children = [] ∧ rest = []) ∨ ∃ child ∈ children, rest ∈ child.branches) := by
  cases children with
  | nil => simp [branches]
  | cons child children =>
    have listed : (node info fork checkpoints (child :: children)).branches =
        ((child :: children).flatMap branches).map (checkpoints.map Checkpoint.key ++ ·) := by
      rw [branches, branchesOfAll_eq, List.flatMap_cons]
    rw [listed, List.mem_map]
    constructor
    · rintro ⟨rest, mem, rfl⟩
      exact ⟨rest, rfl, .inr (List.mem_flatMap.mp mem)⟩
    · rintro ⟨rest, rfl, ⟨empty, _⟩ | found⟩
      · exact nomatch empty
      · exact ⟨rest, List.mem_flatMap.mpr found, rfl⟩

/-- One tree stands somewhere in the other. -/
inductive Sub : Tree → Tree → Prop where
  | refl (tree : Tree) : Sub tree tree
  | down {info : Info} {fork : Option String} {checkpoints : List Checkpoint} {children : List Tree} {child whole : Tree} :
      Sub (node info fork checkpoints children) whole → child ∈ children → Sub child whole

variable {part whole : Tree}

theorem Sub.infos (sub : Sub part whole) : ∀ info ∈ part.infos, info ∈ whole.infos := by
  induction sub with
  | refl => exact fun _ mem => mem
  | down sub mem ih =>
    intro info inside
    refine ih info ?_
    rw [infos_node]
    exact List.mem_cons_of_mem _ (List.mem_flatMap.mpr ⟨_, mem, inside⟩)

theorem Sub.branches (sub : Sub part whole) :
    ∀ branch ∈ part.branches, ∃ above, above ++ branch ∈ whole.branches := by
  induction sub with
  | refl => exact fun branch mem => ⟨[], mem⟩
  | @down _ _ checkpoints _ _ _ sub mem ih =>
    intro branch inside
    obtain ⟨above, found⟩ := ih _ (mem_branches_node.mpr ⟨branch, rfl, .inr ⟨_, mem, inside⟩⟩)
    exact ⟨above ++ checkpoints.map Checkpoint.key, by rwa [List.append_assoc]⟩

end Tree

theorem filter_not_mem_nodup_iff {α : Type*} [DecidableEq α] {l shown : List α} :
    (l.filter fun a => decide (a ∉ shown)).Nodup ↔ ∀ a, 2 ≤ l.count a → a ∈ shown := by
  rw [List.nodup_iff_count_le_one]
  constructor
  · intro once a twice
    by_contra hidden
    have := once a
    rw [List.count_filter (by simpa using hidden)] at this
    omega
  · intro listed a
    by_cases hidden : a ∈ shown
    · have absent : a ∉ l.filter fun a => decide (a ∉ shown) := by simp [hidden]
      rw [List.count_eq_zero_of_not_mem absent]
      omega
    · rw [List.count_filter (by simpa using hidden)]
      by_contra many
      exact hidden (listed a (by omega))

namespace Family
variable {family : Family}

theorem byId_of_mem {info : Info} (known : info ∈ family.infos) : family.byId info.id = some info := by
  cases found : family.byId info.id with
  | none =>
    have := List.find?_eq_none.mp found info known
    simp at this
  | some other =>
    have same : other.id = info.id := by simpa using List.find?_some found
    rw [List.inj_on_of_nodup_map family.distinct (List.mem_of_find?_eq_some found) known same]

variable {x y : Info}

theorem id_inj (hx : x ∈ family.infos) (hy : y ∈ family.infos) (same : x.id = y.id) : x = y :=
  List.inj_on_of_nodup_map family.distinct hx hy same

theorem parent_iff : family.parent x = some y ↔ y ∈ family.infos ∧ x.parent = some y.id := by
  constructor
  · intro up
    obtain ⟨id, named, found⟩ := Option.bind_eq_some_iff.mp up
    have same : y.id = id := by simpa using List.find?_some found
    exact ⟨List.mem_of_find?_eq_some found, same ▸ named⟩
  · rintro ⟨known, named⟩
    rw [parent, named, Option.bind_some, byId_of_mem known]

theorem climb_known {n : Nat} (known : x ∈ family.infos) (climbed : climb family.parent n x = some y) :
    y ∈ family.infos := by
  cases n with
  | zero => exact Option.some.inj climbed ▸ known
  | succ n =>
    obtain ⟨z, _, up⟩ := Option.bind_eq_some_iff.mp climbed
    exact (parent_iff.mp up).1

theorem mem_descendants {info child : Info} {lineage : List String} : child ∈ family.descendants info lineage ↔
      child ∈ family.infos ∧ child.parent = some info.id ∧ child.id ∉ lineage := by
  simp [descendants, childrenByParentId, List.mem_mergeSort, and_assoc]

theorem descendants_nodup (info : Info) (lineage : List String) : (family.descendants info lineage).Nodup := by
  refine List.Nodup.filter _ ((List.mergeSort_perm _ _).nodup_iff.mpr ?_)
  exact List.Nodup.filter _ (List.Nodup.of_map _ family.distinct)

def newKeys (family : Family) (info : Info) (shown : List String) : List String :=
  (family.keys info).filter fun key => decide (key ∉ shown)

theorem newKeys_eq (info : Info) (shown : List String) :
    ((family.checkpointsById info).filter fun checkpoint => decide (checkpoint.key ∉ shown)).map Checkpoint.key =
      family.newKeys info shown := by
  rw [newKeys, keys, List.filter_map]
  rfl

variable {levels : Nat} {info : Info} {shown lineage : List String}

theorem infos_build_zero : (family.build 0 info shown lineage).infos = [info] := by
  rw [build, Tree.infos_node, List.flatMap_nil]

theorem infos_build_succ :
    (family.build (levels + 1) info shown lineage).infos = info :: (family.descendants info lineage).flatMap fun child =>
      (family.build levels child (shown ++ family.keys info) (info.id :: lineage)).infos := by
  rw [build, Tree.infos_node, List.flatMap_map]

theorem build_climbs (known : info ∈ family.infos) (inside : x ∈ (family.build levels info shown lineage).infos) :
    x ∈ family.infos ∧ ∃ n, climb family.parent n x = some info ∧
      ∀ m < n, ∀ y, climb family.parent m x = some y → y.id ∉ lineage := by
  induction levels generalizing info shown lineage with
  | zero =>
    rw [infos_build_zero, List.mem_singleton] at inside
    exact ⟨inside ▸ known, 0, inside ▸ rfl, fun m less => absurd less (Nat.not_lt_zero m)⟩
  | succ levels ih =>
    rw [infos_build_succ, List.mem_cons] at inside
    rcases inside with rfl | inside
    · exact ⟨known, 0, rfl, fun m less => absurd less (Nat.not_lt_zero m)⟩
    · obtain ⟨child, mem, inside⟩ := List.mem_flatMap.mp inside
      obtain ⟨childKnown, named, outside⟩ := mem_descendants.mp mem
      obtain ⟨xKnown, n, climbed, avoids⟩ := ih childKnown inside
      refine ⟨xKnown, n + 1, (climb_succ climbed).trans (parent_iff.mpr ⟨known, named⟩), ?_⟩
      intro m less y above
      rcases Nat.lt_succ_iff_lt_or_eq.mp less with before | rfl
      · exact fun mem => avoids m before y above (List.mem_cons_of_mem _ mem)
      · exact Option.some.inj (climbed.symm.trans above) ▸ outside

theorem children_disjoint {a b : Info} (known : info ∈ family.infos) (notOwn : family.parent info ≠ some info)
    (memA : a ∈ family.descendants info lineage) (memB : b ∈ family.descendants info lineage) (ne : a ≠ b) :
    List.Disjoint (family.build levels a shown (info.id :: lineage)).infos
      (family.build levels b shown (info.id :: lineage)).infos := by
  obtain ⟨knownA, namedA, _⟩ := mem_descendants.mp memA
  obtain ⟨knownB, namedB, _⟩ := mem_descendants.mp memB
  -- the way up from the first child passes `info`, which the second one's tree avoids
  have apart : ∀ {c d : Info} {x : Info} {i j : Nat}, c.parent = some info.id → d.parent = some info.id →
      climb family.parent i x = some c → climb family.parent j x = some d →
      (∀ m < j, ∀ y, climb family.parent m x = some y → y.id ∉ info.id :: lineage) → ¬i < j := by
    intro c d x i j namedC namedD upC upD avoids less
    have upInfo := (climb_succ upC).trans (parent_iff.mpr ⟨known, namedC⟩)
    rcases Nat.lt_or_eq_of_le (Nat.succ_le_of_lt less) with before | rfl
    · exact avoids _ before _ upInfo (List.mem_cons_self ..)
    · have same := Option.some.inj (upInfo.symm.trans upD)
      exact notOwn (parent_iff.mpr ⟨known, same ▸ namedD⟩)
  intro x inA inB
  obtain ⟨_, i, upA, avoidsA⟩ := build_climbs knownA inA
  obtain ⟨_, j, upB, avoidsB⟩ := build_climbs knownB inB
  rcases Nat.lt_trichotomy i j with less | rfl | less
  · exact apart namedA namedB upA upB avoidsB less
  · exact ne (Option.some.inj (upA.symm.trans upB))
  · exact apart namedB namedA upB upA avoidsA less

theorem build_nodup (known : info ∈ family.infos) (notOwn : family.parent info ≠ some info) :
    (family.build levels info shown lineage).infos.Nodup := by
  induction levels generalizing info shown lineage with
  | zero => simp [infos_build_zero]
  | succ levels ih =>
    have childNotOwn : ∀ child ∈ family.descendants info lineage, child ≠ info := by
      rintro child mem rfl
      obtain ⟨_, named, _⟩ := mem_descendants.mp mem
      exact notOwn (parent_iff.mpr ⟨known, named⟩)
    rw [infos_build_succ, List.nodup_cons, List.nodup_flatMap]
    refine ⟨?_, ?_, ?_⟩
    · intro inside
      obtain ⟨child, mem, inside⟩ := List.mem_flatMap.mp inside
      obtain ⟨_, n, climbed, avoids⟩ := build_climbs (mem_descendants.mp mem).1 inside
      cases n with
      | zero => exact childNotOwn child mem (Option.some.inj climbed).symm
      | succ n => exact avoids 0 (Nat.succ_pos n) info rfl (List.mem_cons_self ..)
    · intro child mem
      obtain ⟨childKnown, named, _⟩ := mem_descendants.mp mem
      refine ih childKnown ?_
      intro own
      have same := (parent_iff.mp own).2.symm.trans named
      exact childNotOwn child mem (id_inj childKnown known (Option.some.inj same))
    · refine (descendants_nodup info lineage).pairwise_of_forall_ne ?_
      intro a memA b memB ne
      exact children_disjoint known notOwn memA memB ne

/-- The session stands `n` levels below the root, with all and only its ancestors up to there shown above it. -/
structure Placed (family : Family) (root : Info) (n : Nat) (info : Info) (shown lineage : List String) : Prop where
  known : info ∈ family.infos
  below : Below family.parent root n info
  shown : ∀ key, key ∈ shown ↔ ∃ y, Above family.parent n info y ∧ key ∈ family.keys y
  lineage : ∀ id, id ∈ lineage ↔ ∃ y, Above family.parent n info y ∧ y.id = id

variable {root : Info} {n : Nat}

theorem Placed.start (known : root ∈ family.infos) : Placed family root 0 root [] [] where
  known := known
  below := Below.refl root
  shown := fun _ => ⟨fun mem => absurd mem (List.not_mem_nil), fun ⟨y, above, _⟩ => absurd above (not_above_zero root y)⟩
  lineage := fun _ => ⟨fun mem => absurd mem (List.not_mem_nil), fun ⟨y, above, _⟩ => absurd above (not_above_zero root y)⟩

theorem Placed.child {child : Info} (placed : Placed family root n info shown lineage) (known : child ∈ family.infos)
    (up : family.parent child = some info) (new : child ≠ root) :
    Placed family root (n + 1) child (shown ++ family.keys info) (info.id :: lineage) where
  known := known
  below := placed.below.child up new
  shown := by
    intro key
    rw [List.mem_append, placed.shown]
    simp only [above_child up, or_and_right, exists_or, exists_eq_left]
    exact or_comm
  lineage := by
    intro id
    rw [List.mem_cons, placed.lineage]
    simp only [above_child up, or_and_right, exists_or, exists_eq_left]
    exact or_congr_left eq_comm

theorem Placed.descendant {child : Info} (placed : Placed family root n info shown lineage)
    (notOwn : family.parent root ≠ some root) (mem : child ∈ family.descendants info lineage) :
    Placed family root (n + 1) child (shown ++ family.keys info) (info.id :: lineage) := by
  obtain ⟨known, named, outside⟩ := mem_descendants.mp mem
  have up := parent_iff.mpr ⟨placed.known, named⟩
  refine placed.child known up ?_
  rintro rfl
  cases n with
  | zero => exact notOwn (Option.some.inj placed.below.climbs ▸ up)
  | succ n => exact outside ((placed.lineage _).mpr ⟨child, placed.below.above (Nat.succ_pos n), rfl⟩)

theorem Placed.fresh_iff (placed : Placed family root n info shown lineage) :
    (family.newKeys info shown).Nodup ↔ ∀ key, 2 ≤ (family.keys info).count key →
      ∃ y, Above family.parent n info y ∧ key ∈ family.keys y := by
  simp only [newKeys, filter_not_mem_nodup_iff, placed.shown]

theorem placed_in_tree (rootKnown : root ∈ family.infos) (within : n ≤ MAX_DESCENDANT_DEPTH + 1)
    (known : info ∈ family.infos) (below : Below family.parent root n info) :
    ∃ shown lineage, Placed family root n info shown lineage ∧
      Tree.Sub (family.build (MAX_DESCENDANT_DEPTH + 1 - n) info shown lineage)
        (family.build (MAX_DESCENDANT_DEPTH + 1) root [] []) := by
  induction n generalizing info with
  | zero =>
    cases below.climbs
    exact ⟨[], [], Placed.start rootKnown, Tree.Sub.refl _⟩
  | succ n ih =>
    obtain ⟨above, up, aboveBelow⟩ := below.up
    obtain ⟨aboveKnown, named⟩ := parent_iff.mp up
    obtain ⟨shown, lineage, placed, sub⟩ := ih (by omega) aboveKnown aboveBelow
    have new : info ≠ root := fun same => below.first 0 (Nat.succ_pos n) (same ▸ rfl)
    refine ⟨_, _, placed.child known up new, ?_⟩
    have outside : info.id ∉ lineage := by
      intro mem
      obtain ⟨y, higher, same⟩ := (placed.lineage _).mp mem
      have yKnown : y ∈ family.infos := climb_known aboveKnown higher.choose_spec.2.2
      exact below.not_above ((above_child up).mpr (.inr (id_inj yKnown known same ▸ higher)))
    obtain ⟨levels, more⟩ : ∃ levels, MAX_DESCENDANT_DEPTH + 1 - n = levels + 1 :=
      ⟨MAX_DESCENDANT_DEPTH - n, by omega⟩
    have less : MAX_DESCENDANT_DEPTH + 1 - (n + 1) = levels := by omega
    rw [more, build] at sub
    rw [less]
    exact sub.down (List.mem_map_of_mem (mem_descendants.mpr ⟨known, named, outside⟩))

theorem branch_of_build (info : Info) (shown lineage : List String) :
    ∃ rest, family.newKeys info shown ++ rest ∈ (family.build levels info shown lineage).branches := by
  induction levels generalizing info shown lineage with
  | zero =>
    refine ⟨[], ?_⟩
    rw [build, Tree.mem_branches_node, newKeys_eq]
    exact ⟨[], rfl, .inl ⟨rfl, rfl⟩⟩
  | succ levels ih =>
    rw [build]
    simp only [Tree.mem_branches_node, newKeys_eq]
    cases some : family.descendants info lineage with
    | nil => exact ⟨[], [], rfl, .inl ⟨rfl, rfl⟩⟩
    | cons child children =>
      obtain ⟨rest, mem⟩ := ih child (shown ++ family.keys info) (info.id :: lineage)
      exact ⟨_, _, rfl, .inr ⟨_, List.mem_map_of_mem (List.mem_cons_self ..), mem⟩⟩

theorem branches_nodup (notOwn : family.parent root ≠ some root) (depth : levels + n = MAX_DESCENDANT_DEPTH + 1)
    (fresh : ∀ m ≤ MAX_DESCENDANT_DEPTH + 1, ∀ x shown lineage, Placed family root m x shown lineage →
      (family.newKeys x shown).Nodup)
    (placed : Placed family root n info shown lineage) {branch : List String}
    (mem : branch ∈ (family.build levels info shown lineage).branches) :
    branch.Nodup ∧ ∀ key ∈ branch, key ∉ shown := by
  have own : (family.newKeys info shown).Nodup ∧ ∀ key ∈ family.newKeys info shown, key ∉ shown :=
    ⟨fresh n (by omega) _ _ _ placed, fun key mem => by simpa using (List.mem_filter.mp mem).2⟩
  induction levels generalizing n info shown lineage branch with
  | zero =>
    rw [build, Tree.mem_branches_node, newKeys_eq] at mem
    obtain ⟨rest, rfl, ⟨_, rfl⟩ | ⟨child, absent, _⟩⟩ := mem
    · simpa using own
    · exact absurd absent List.not_mem_nil
  | succ levels ih =>
    rw [build, Tree.mem_branches_node, newKeys_eq] at mem
    obtain ⟨rest, rfl, ⟨_, rfl⟩ | ⟨tree, listed, mem⟩⟩ := mem
    · simpa using own
    · obtain ⟨child, childMem, rfl⟩ := List.mem_map.mp listed
      have childPlaced := placed.descendant notOwn childMem
      obtain ⟨restNodup, restFresh⟩ := ih (by omega) childPlaced mem
        ⟨fresh (n + 1) (by omega) _ _ _ childPlaced, fun key mem => by simpa using (List.mem_filter.mp mem).2⟩
      have disjoint : ∀ key ∈ family.newKeys info shown, key ∉ rest := by
        intro key mine below
        exact restFresh key below (List.mem_append_right _ (List.mem_of_mem_filter mine))
      refine ⟨List.nodup_append'.mpr ⟨own.1, restNodup, disjoint⟩, ?_⟩
      intro key mem
      rcases List.mem_append.mp mem with mine | below
      · exact own.2 key mine
      · exact fun above => restFresh key below (List.mem_append_left _ above)

/-- The ancestors of a session, nearest first, each listed once and the session itself left out. -/
def ancestorChain (family : Family) (info : Info) : List Info :=
  let (seen, last) := family.searchRoot info
  (if last ∈ seen then seen else seen ++ [last]).tail

structure Projects (family : Family) (info : Info) (tree : Tree) : Prop where
  /-- The search for the root came to an end by itself. -/
  settled : family.parent (family.root info) = none ∨ family.root info ∈ (family.searchRoot info).1
  sessions : tree.ids.Nodup
  checkpoints : ∀ branch ∈ tree.branches, branch.Nodup
  contains : (family.ancestorChain info).length ≤ MAX_DESCENDANT_DEPTH → info.id ∈ tree.ids

/-- No session on the way up is its own parent, and a session within reach below the root has
a key twice only if an ancestor in the tree has it too. -/
structure Regular (family : Family) (info : Info) : Prop where
  notOwn : ∀ n x, climb family.parent n info = some x → family.parent x ≠ some x
  keys : ∀ n ≤ MAX_DESCENDANT_DEPTH + 1, ∀ x ∈ family.infos, Below family.parent (family.root info) n x →
    ∀ key, 2 ≤ (family.keys x).count key → ∃ y, Above family.parent n x y ∧ key ∈ family.keys y

theorem searchRoot_way (info : Info) : Way family.parent info (family.searchRoot info).1 (family.root info) :=
  ascend_way (Way.start info)

theorem searchRoot_stops (known : info ∈ family.infos) :
    family.parent (family.root info) = none ∨ family.root info ∈ (family.searchRoot info).1 := by
  refine ascend_stops family.infos ?_ List.nodup_nil (fun z mem => absurd mem List.not_mem_nil) known ?_
  · exact fun x y up => (parent_iff.mp up).1
  · simp

theorem root_known (known : info ∈ family.infos) : family.root info ∈ family.infos :=
  climb_known known (searchRoot_way info).ends

theorem own_parent_twice (known : root ∈ family.infos) (own : family.parent root = some root) :
    ¬(family.build (levels + 1) root [] []).ids.Nodup := by
  intro nodup
  have infos := List.Nodup.of_map _ nodup
  rw [infos_build_succ, List.nodup_cons] at infos
  refine infos.1 (List.mem_flatMap.mpr ⟨root, ?_, ?_⟩)
  · exact mem_descendants.mpr ⟨known, (parent_iff.mp own).2, List.not_mem_nil⟩
  · cases levels with
    | zero => simp [infos_build_zero]
    | succ levels => simp [infos_build_succ]

theorem tree_contains (known : info ∈ family.infos)
    (near : (family.ancestorChain info).length ≤ MAX_DESCENDANT_DEPTH) : info.id ∈ (family.tree info).ids := by
  obtain ⟨n, below, short⟩ := (searchRoot_way info).height
  have within : n ≤ MAX_DESCENDANT_DEPTH + 1 := by
    rw [ancestorChain, List.length_tail] at near
    exact (Nat.lt_succ_iff.mp (short.trans_le (Nat.sub_le_iff_le_add.mp near))).trans (Nat.le_succ _)
  obtain ⟨shown, lineage, _, sub⟩ := placed_in_tree (root_known known) within known below
  refine List.mem_map_of_mem (sub.infos info ?_)
  cases MAX_DESCENDANT_DEPTH + 1 - n with
  | zero => simp [infos_build_zero]
  | succ levels => simp [infos_build_succ]

theorem Regular.root_notOwn (regular : family.Regular info) :
    family.parent (family.root info) ≠ some (family.root info) :=
  regular.notOwn _ _ (searchRoot_way info).ends

theorem Regular.projects (known : info ∈ family.infos) (regular : family.Regular info) :
    family.Projects info (family.tree info) where
  settled := searchRoot_stops known
  sessions := by
    refine List.Nodup.map_on ?_ (build_nodup (root_known known) regular.root_notOwn)
    intro x hx y hy same
    exact id_inj (build_climbs (root_known known) hx).1 (build_climbs (root_known known) hy).1 same
  checkpoints := fun branch mem =>
    (branches_nodup regular.root_notOwn (Nat.add_zero _)
      (fun m within x _ _ placed => placed.fresh_iff.mpr (regular.keys m within x placed.known placed.below))
      (Placed.start (root_known known)) mem).1
  contains := tree_contains known

theorem Projects.regular (known : info ∈ family.infos) (projects : family.Projects info (family.tree info)) :
    family.Regular info where
  notOwn := by
    intro n x climbed own
    obtain rfl := (searchRoot_way info).fixed (searchRoot_stops known) climbed own
    exact own_parent_twice (root_known known) own projects.sessions
  keys := by
    intro n within x xKnown below
    obtain ⟨shown, lineage, placed, sub⟩ := placed_in_tree (root_known known) within xKnown below
    obtain ⟨rest, mem⟩ := branch_of_build x shown lineage
    obtain ⟨above, whole⟩ := sub.branches _ mem
    have nodup := (List.nodup_append.mp (projects.checkpoints _ whole)).2.1
    exact placed.fresh_iff.mp (List.nodup_append.mp nodup).1

end Family

/-- The tree of a session in the catalog shows every session and, on each branch, every checkpoint
once, and the session itself if it is near enough, just where the family is regular. -/
theorem checkpointTree_projects_iff (catalog : Catalog) (localeCompare : String → String → Int)
    (listForSession : SessionRef → List Checkpoint) (info : Info) (known : info ∈ catalog.infos) :
    ∃ tree, checkpointTree catalog localeCompare (some listForSession) true info.id = .ok tree ∧
      ((catalog.family listForSession localeCompare).Projects info tree ↔
        (catalog.family listForSession localeCompare).Regular info) := by
  let family := catalog.family listForSession localeCompare
  have known : info ∈ family.infos := known
  refine ⟨family.tree info, ?_, fun projects => projects.regular known, fun regular => regular.projects known⟩
  have found : catalog.infos.find? (fun other => decide (other.id = info.id)) = some info := Family.byId_of_mem known
  unfold checkpointTree
  simp only [if_true, found]
  rfl

def forked : Catalog where
  backend := .jsonl
  storagePath := none
  summaries := [
    ⟨"a", some "/sessions/a.jsonl", none, none, some "2026-01-01T00:00:00.000Z", none⟩,
    ⟨"b", some "/sessions/b.jsonl", some "/sessions/a.jsonl", none, some "2026-01-02T00:00:00.000Z", none⟩]
  distinct := by decide

theorem forked_projects_iff :
    ∃ tree, checkpointTree forked (fun _ _ => 0) (some fun _ => [⟨"f00", "1", none, none⟩]) true "b" = .ok tree ∧
      ((forked.family (fun _ => [⟨"f00", "1", none, none⟩]) fun _ _ => 0).Projects
          ⟨"b", ⟨.jsonl, "b", some "/sessions/b.jsonl"⟩, some "/sessions/b.jsonl", some "a",
            some "2026-01-02T00:00:00.000Z", none⟩ tree ↔
        (forked.family (fun _ => [⟨"f00", "1", none, none⟩]) fun _ _ => 0).Regular
          ⟨"b", ⟨.jsonl, "b", some "/sessions/b.jsonl"⟩, some "/sessions/b.jsonl", some "a",
            some "2026-01-02T00:00:00.000Z", none⟩) :=
  checkpointTree_projects_iff forked (fun _ _ => 0) (fun _ => [⟨"f00", "1", none, none⟩])
    ⟨"b", ⟨.jsonl, "b", some "/sessions/b.jsonl"⟩, some "/sessions/b.jsonl", some "a",
      some "2026-01-02T00:00:00.000Z", none⟩ (by decide)

def ownParent : Catalog where
  backend := .jsonl
  storagePath := none
  summaries := [⟨"a", some "/sessions/a.jsonl", some "/sessions/a.jsonl", none, none, none⟩]
  distinct := by decide

theorem own_parent_shown_twice :
    ∃ tree, checkpointTree ownParent (fun _ _ => 0) (some fun _ => []) true "a" = .ok tree ∧ ¬tree.ids.Nodup := by
  have known : ownParent.info ⟨"a", some "/sessions/a.jsonl", some "/sessions/a.jsonl", none, none, none⟩ ∈
      (ownParent.family (fun _ => []) fun _ _ => 0).infos := List.mem_map_of_mem (by decide)
  exact ⟨_, rfl, Family.own_parent_twice known (by decide)⟩

end CheckpointTree
