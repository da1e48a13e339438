import Oyster.OrderedMap

/-! The focus boundaries of a document. The top one of them is isolated: the elements beside its path
are made inert, and their own flags are kept to be put back. `E` is the type of the elements, and `P`
the type of the priorities. -/
namespace FocusBoundaries

variable {E P : Type}

structure Tree (E : Type) where
  parentElement : E → Option E
  children : E → List E
  body : Option E
  depth : E → Nat
  mem_children {x p : E} : x ∈ children p ↔ parentElement x = some p
  nodup (p : E) : (children p).Nodup
  descends {x p : E} : parentElement x = some p → depth p < depth x

/-- An entry is an object of its own: `id` tells it from the others. -/
structure Entry (E P : Type) where
  id : Nat
  node : E
  priority : P
  deriving DecidableEq

structure FocusState (E P : Type) where
  entries : List (Entry E P)
  isolated : OrderedMap E Bool

/-- `documents` refers to the state of the document, which every handle made under it keeps. -/
structure World (E P : Type) where
  inert : E → Bool
  documents : Option Nat
  states : Nat → FocusState E P
  nextState : Nat
  handles : List (Nat × Entry E P)

def World.initial (inert : E → Bool) : World E P := ⟨inert, none, fun _ => ⟨[], .empty⟩, 0, []⟩

section
variable [DecidableEq E] (tree : Tree E)

def siblings (branch : E) : List E :=
  match _h : tree.parentElement branch with
  | none => []
  | some p => (tree.children p).filter (· ≠ branch) ++ if tree.body = some p then [] else siblings p
termination_by tree.depth branch
decreasing_by exact tree.descends _h

def assign (inert : E → Bool) (x : E) (value : Bool) : E → Bool := fun y => if y = x then value else inert y

def restore (inert : E → Bool) (isolated : List (E × Bool)) : E → Bool :=
  isolated.foldl (fun inert e => assign inert e.1 e.2) inert

def isolateFrom (kept : OrderedMap E Bool × (E → Bool)) (branches : List E) : OrderedMap E Bool × (E → Bool) :=
  branches.foldl (fun kept x => (kept.1.set x (kept.2 x), assign kept.2 x true)) kept

section
variable [LinearOrder P]

def top (entries : List (Entry E P)) : Option (Entry E P) :=
  entries.foldl (fun best candidate =>
    if best.all fun best => best.priority ≤ candidate.priority then some candidate else best) none

/-- The flags are put back, and those beside the path of the top boundary are taken. -/
def isolate (inert : E → Bool) (s : FocusState E P) : OrderedMap E Bool × (E → Bool) :=
  isolateFrom (.empty, restore inert s.isolated.entries) ((top s.entries).elim [] fun active => siblings tree active.node)

def World.update (w : World E P) (k : Nat) (entries : List (Entry E P)) : World E P :=
  let kept := isolate tree w.inert ⟨entries, (w.states k).isolated⟩
  { w with inert := kept.2, states := fun j => if j = k then ⟨entries, kept.1⟩ else w.states j }

def World.obtain (w : World E P) : Nat × World E P :=
  match w.documents with
  | some k => (k, w)
  | none =>
    (w.nextState, { w with
      documents := some w.nextState
      states := fun j => if j = w.nextState then ⟨[], .empty⟩ else w.states j
      nextState := w.nextState + 1 })

def World.register (w : World E P) (node : E) (priority : P) : World E P :=
  let entry : Entry E P := ⟨w.handles.length, node, priority⟩
  let k := w.obtain.1
  let made := w.obtain.2
  let next := made.update tree k ((made.states k).entries ++ [entry])
  { next with handles := next.handles ++ [(k, entry)] }

def World.release (w : World E P) (handle : Nat) : World E P :=
  match w.handles[handle]? with
  | none => w
  | some (k, entry) =>
    if entry ∈ (w.states k).entries then
      let left := (w.states k).entries.erase entry
      let next := w.update tree k left
      if left = [] then { next with documents := none } else next
    else w

def World.isTop (w : World E P) (handle : Nat) : Bool :=
  w.handles[handle]?.any fun h => top (w.states h.1).entries = some h.2

inductive Call (E P : Type) where
  | register (node : E) (priority : P)
  | release (handle : Nat)

def World.step (w : World E P) : Call E P → World E P
  | .register node priority => w.register tree node priority
  | .release handle => w.release tree handle

def run (inert : E → Bool) (calls : List (Call E P)) : World E P := calls.foldl (World.step tree) (.initial inert)

end

/-- The boundaries that were registered and not released, the latest last. -/
structure Boundaries (E P : Type) where
  made : Nat := 0
  live : List (Entry E P) := []

def Boundaries.step (b : Boundaries E P) : Call E P → Boundaries E P
  | .register node priority => ⟨b.made + 1, b.live ++ [⟨b.made, node, priority⟩]⟩
  | .release handle => { b with live := b.live.filter (·.id ≠ handle) }

def boundaries (calls : List (Call E P)) : Boundaries E P := calls.foldl Boundaries.step {}

/-- The highest priority, and the latest of those that have it. -/
def Topmost [LinearOrder P] (live : List (Entry E P)) (e : Entry E P) : Prop :=
  e ∈ live ∧ ∀ x ∈ live, x.priority < e.priority ∨ x.priority = e.priority ∧ x.id ≤ e.id

end

namespace Tree
variable (tree : Tree E)

def Parent (x p : E) : Prop := tree.parentElement x = some p

/-- The body is above the element. -/
def Inside (x : E) : Prop := ∃ body, tree.body = some body ∧ Relation.TransGen tree.Parent x body

/-- On the path from the node up to the body, or to the root for a node that the body is not above. -/
def Along (node a : E) : Prop := Relation.ReflTransGen tree.Parent node a ∧ (tree.Inside node → tree.Inside a)

def Sibling (x a : E) : Prop := x ≠ a ∧ ∃ p, tree.Parent x p ∧ tree.Parent a p

end Tree

section
variable {tree : Tree E}

theorem depth_lt {x y : E} (above : Relation.TransGen tree.Parent x y) : tree.depth y < tree.depth x := by
  induction above with
  | single parent => exact tree.descends parent
  | tail _ parent ih => exact (tree.descends parent).trans ih

theorem depth_le {x y : E} (above : Relation.ReflTransGen tree.Parent x y) : tree.depth y ≤ tree.depth x := by
  rcases Relation.reflTransGen_iff_eq_or_transGen.mp above with rfl | above
  · exact Nat.le_refl _
  · exact (depth_lt above).le

theorem inside_iff {x p : E} (parent : tree.Parent x p) : tree.Inside x ↔ tree.body = some p ∨ tree.Inside p := by
  constructor
  · rintro ⟨body, isBody, above⟩
    obtain ⟨q, toParent, further⟩ := Relation.TransGen.head'_iff.mp above
    obtain rfl : p = q := Option.some.inj (parent.symm.trans toParent)
    rcases Relation.reflTransGen_iff_eq_or_transGen.mp further with rfl | further
    · exact .inl isBody
    · exact .inr ⟨body, isBody, further⟩
  · rintro (isBody | ⟨body, isBody, above⟩)
    · exact ⟨p, isBody, .single parent⟩
    · exact ⟨body, isBody, .head parent above⟩

theorem along_self (node : E) : tree.Along node node := ⟨.refl, id⟩

theorem along_below {node p a : E} (parent : tree.Parent node p) (isBody : tree.body = some p) :
    tree.Along node a ↔ a = node := by
  refine ⟨fun along => ?_, by rintro rfl; exact along_self a⟩
  rcases Relation.ReflTransGen.cases_head_iff.mp along.1 with rfl | ⟨q, toParent, further⟩
  · rfl
  · obtain rfl : p = q := Option.some.inj (parent.symm.trans toParent)
    obtain ⟨body, same, above⟩ := along.2 ((inside_iff parent).mpr (.inl isBody))
    obtain rfl : p = body := Option.some.inj (isBody.symm.trans same)
    exact absurd (depth_lt above) (not_lt.mpr (depth_le further))

theorem along_above {node p a : E} (parent : tree.Parent node p) (notBody : tree.body ≠ some p) :
    tree.Along node a ↔ a = node ∨ tree.Along p a := by
  have inside : tree.Inside node ↔ tree.Inside p := by
    rw [inside_iff parent, or_iff_right notBody]
  constructor
  · intro along
    rcases Relation.ReflTransGen.cases_head_iff.mp along.1 with rfl | ⟨q, toParent, further⟩
    · exact .inl rfl
    · obtain rfl : p = q := Option.some.inj (parent.symm.trans toParent)
      exact .inr ⟨further, fun h => along.2 (inside.mpr h)⟩
  · rintro (rfl | along)
    · exact along_self a
    · exact ⟨.head parent along.1, fun h => along.2 (inside.mp h)⟩

theorem sibling_iff {node p x : E} (parent : tree.Parent node p) :
    tree.Sibling x node ↔ x ∈ tree.children p ∧ x ≠ node := by
  rw [tree.mem_children]
  constructor
  · rintro ⟨differs, q, mine, its⟩
    obtain rfl : p = q := Option.some.inj (parent.symm.trans its)
    exact ⟨mine, differs⟩
  · exact fun ⟨mine, differs⟩ => ⟨differs, p, mine, parent⟩

variable [DecidableEq E]

theorem siblings_root {branch : E} (root : tree.parentElement branch = none) : siblings tree branch = [] := by
  unfold siblings
  split
  · rfl
  · next p parent => exact absurd (root.symm.trans parent) (by simp)

theorem siblings_child {branch p : E} (parent : tree.Parent branch p) : siblings tree branch =
      (tree.children p).filter (· ≠ branch) ++ if tree.body = some p then [] else siblings tree p := by
  rw [siblings]
  split
  · next root => exact absurd (root.symm.trans parent) (by simp)
  · next q toParent =>
    obtain rfl : p = q := Option.some.inj (parent.symm.trans toParent)
    rfl

theorem mem_siblings {branch x : E} : x ∈ siblings tree branch ↔ ∃ a, tree.Along branch a ∧ tree.Sibling x a := by
  induction h : tree.depth branch using Nat.strong_induction_on generalizing branch with
  | _ n ih =>
    cases parent : tree.parentElement branch with
    | none =>
      rw [siblings_root parent]
      refine ⟨fun mem => absurd mem List.not_mem_nil, fun ⟨a, along, _, q, _, its⟩ => ?_⟩
      rcases Relation.ReflTransGen.cases_head_iff.mp along.1 with rfl | ⟨q, toParent, _⟩
      · exact absurd (parent.symm.trans its) (by simp)
      · exact absurd (parent.symm.trans toParent) (by simp)
    | some p =>
      have here : x ∈ (tree.children p).filter (· ≠ branch) ↔ tree.Sibling x branch := by
        rw [sibling_iff parent, List.mem_filter, decide_eq_true_iff]
      rw [siblings_child parent, List.mem_append, here]
      by_cases isBody : tree.body = some p
      · simp [isBody, along_below parent isBody]
      · rw [if_neg isBody, ih _ (h ▸ tree.descends parent) rfl]
        simp [along_above parent isBody, or_and_right, exists_or]

theorem nodup_siblings (branch : E) : (siblings tree branch).Nodup := by
  induction h : tree.depth branch using Nat.strong_induction_on generalizing branch with
  | _ n ih =>
    cases parent : tree.parentElement branch with
    | none => rw [siblings_root parent]; exact List.nodup_nil
    | some p =>
      rw [siblings_child parent]
      refine List.nodup_append.mpr ⟨(tree.nodup p).filter _, ?_, fun x here y further same => ?_⟩
      · split_ifs
        · exact List.nodup_nil
        · exact ih _ (h ▸ tree.descends parent) p rfl
      · subst same
        split_ifs at further with isBody
        · exact absurd further List.not_mem_nil
        · -- What is come to later has its parent above.
          obtain ⟨a, along, _, q, mine, its⟩ := mem_siblings.mp further
          have mine' := tree.mem_children.mp (List.mem_filter.mp here).1
          obtain rfl : p = q := Option.some.inj (mine'.symm.trans mine)
          have := tree.descends its
          have := depth_le along.1
          omega

structure Kept (original : E → Bool) (branches : List E) (isolated : OrderedMap E Bool) (inert : E → Bool) : Prop where
  flags : ∀ x v, (x, v) ∈ isolated ↔ x ∈ branches ∧ v = original x
  inert : ∀ x, inert x = if x ∈ branches then true else original x

variable {original : E → Bool}

theorem restore_eq {entries : List (E × Bool)} {inert : E → Bool} (flags : ∀ e ∈ entries, e.2 = original e.1)
    (others : ∀ x, inert x = original x ∨ ∃ e ∈ entries, e.1 = x) : restore inert entries = original := by
  induction entries generalizing inert with
  | nil =>
    funext x
    exact (others x).resolve_right (fun ⟨e, mem, _⟩ => absurd mem List.not_mem_nil)
  | cons first entries ih =>
    refine ih (fun e mem => flags e (List.mem_cons_of_mem _ mem)) fun x => ?_
    show assign inert first.1 first.2 x = original x ∨ _
    unfold assign
    by_cases here : x = first.1
    · exact .inl (by rw [if_pos here, flags first List.mem_cons_self, here])
    · rw [if_neg here]
      refine (others x).imp_right fun ⟨e, mem, same⟩ => ⟨e, ?_, same⟩
      exact (List.mem_cons.mp mem).resolve_left fun atFirst => here (by rw [← same, atFirst])

theorem Kept.restored {branches : List E} {isolated : OrderedMap E Bool} {inert : E → Bool}
    (kept : Kept original branches isolated inert) : restore inert isolated.entries = original := by
  refine restore_eq (fun e mem => ((kept.flags e.1 e.2).mp mem).2) fun x => ?_
  by_cases there : x ∈ branches
  · exact .inr ⟨(x, original x), (kept.flags _ _).mpr ⟨there, rfl⟩, rfl⟩
  · exact .inl (by rw [kept.inert, if_neg there])

theorem Kept.nil (original : E → Bool) : Kept original [] .empty original :=
  ⟨fun x v => by simp, fun x => by simp⟩

theorem Kept.snoc {branches : List E} {isolated : OrderedMap E Bool} {inert : E → Bool}
    (kept : Kept original branches isolated inert) {x : E} (new : x ∉ branches) :
    Kept original (branches ++ [x]) (isolated.set x (inert x)) (assign inert x true) where
  flags := by
    intro y v
    rw [OrderedMap.mem_set, kept.flags, kept.inert x, if_neg new, List.mem_append, List.mem_singleton]
    by_cases same : y = x
    · subst same
      simp
    · simp [same]
  inert := by
    intro y
    by_cases same : y = x
    · subst same
      simp [assign]
    · simp [assign, same, kept.inert y]

theorem Kept.isolateFrom {branches more : List E} {kept : OrderedMap E Bool × (E → Bool)}
    (h : Kept original branches kept.1 kept.2) (nodup : (branches ++ more).Nodup) :
    Kept original (branches ++ more) (isolateFrom kept more).1 (isolateFrom kept more).2 := by
  induction more generalizing branches kept with
  | nil => simpa [FocusBoundaries.isolateFrom] using h
  | cons x more ih =>
    have new : x ∉ branches := fun mem => (List.nodup_append.mp nodup).2.2 x mem x List.mem_cons_self rfl
    rw [List.append_cons] at nodup ⊢
    exact ih (h.snoc new) nodup

variable [LinearOrder P]

def beside (tree : Tree E) (entries : List (Entry E P)) : List E :=
  (top entries).elim [] fun active => siblings tree active.node

theorem kept_isolate {inert : E → Bool} {s : FocusState E P} (restored : restore inert s.isolated.entries = original) :
    Kept original (beside tree s.entries) (isolate tree inert s).1 (isolate tree inert s).2 := by
  have nodup : (beside tree s.entries).Nodup := by
    unfold beside
    cases top s.entries with
    | none => exact List.nodup_nil
    | some active => exact nodup_siblings active.node
  have start : Kept original [] (.empty : OrderedMap E Bool) (restore inert s.isolated.entries) := restored ▸ .nil _
  exact @Kept.isolateFrom _ _ _ [] _ _ start nodup

end

section
variable [LinearOrder P]

theorem top_snoc (entries : List (Entry E P)) (e : Entry E P) :
    top (entries ++ [e]) = if (top entries).all fun best => best.priority ≤ e.priority then some e else top entries := by
  rw [top, List.foldl_append]
  rfl

theorem top_eq_none {entries : List (Entry E P)} : top entries = none ↔ entries = [] := by
  refine ⟨fun none => ?_, fun h => h ▸ rfl⟩
  rcases List.eq_nil_or_concat entries with rfl | ⟨before, e, rfl⟩
  · rfl
  · rw [List.concat_eq_append, top_snoc] at none
    split_ifs at none with low
    rw [none] at low
    exact absurd rfl low

theorem topmost_top {live : List (Entry E P)} (ids : live.Pairwise fun a b => a.id < b.id) {e : Entry E P}
    (isTop : top live = some e) : Topmost live e := by
  induction live using List.reverseRecOn generalizing e with
  | nil => exact absurd isTop (by simp [top])
  | append_singleton before last ih =>
    obtain ⟨ids, _, behind⟩ := List.pairwise_append.mp ids
    rw [top_snoc] at isTop
    split_ifs at isTop with low
    · cases isTop
      refine ⟨by simp, fun x mem => ?_⟩
      rcases List.mem_append.mp mem with mem | mem
      · cases best : top before with
        | none => rw [top_eq_none.mp best] at mem; exact absurd mem List.not_mem_nil
        | some best' =>
          rw [best] at low
          have le : best'.priority ≤ last.priority := by simpa using low
          have earlier := behind x mem last (by simp)
          rcases (ih ids best).2 x mem with lt | ⟨eq, _⟩
          · exact .inl (lt.trans_le le)
          · rcases (eq ▸ le).lt_or_eq with lt | eq'
            · exact .inl lt
            · exact .inr ⟨eq', earlier.le⟩
      · obtain rfl := List.mem_singleton.mp mem
        exact .inr ⟨rfl, Nat.le_refl _⟩
    · obtain ⟨mem, above⟩ := ih ids isTop
      rw [isTop] at low
      have lt : last.priority < e.priority := by simpa using low
      refine ⟨List.mem_append_left _ mem, fun x mem => ?_⟩
      rcases List.mem_append.mp mem with mem | mem
      · exact above x mem
      · rw [List.mem_singleton.mp mem]
        exact .inl lt

omit [LinearOrder P] in
theorem ids_inj {live : List (Entry E P)} (ids : live.Pairwise fun a b => a.id < b.id) {e f : Entry E P}
    (he : e ∈ live) (hf : f ∈ live) (same : e.id = f.id) : e = f := by
  have distinct : (live.map (·.id)).Nodup := List.pairwise_map.mpr (ids.imp Nat.ne_of_lt)
  exact List.inj_on_of_nodup_map distinct he hf same

theorem topmost_unique {live : List (Entry E P)} (ids : live.Pairwise fun a b => a.id < b.id) {e f : Entry E P}
    (he : Topmost live e) (hf : Topmost live f) : e = f := by
  refine ids_inj ids he.1 hf.1 ?_
  rcases he.2 f hf.1 with lt | ⟨eq, le⟩ <;> rcases hf.2 e he.1 with lt' | ⟨eq', le'⟩
  · exact absurd (lt.trans lt') (lt_irrefl _)
  · exact absurd (eq' ▸ lt) (lt_irrefl _)
  · exact absurd (eq ▸ lt') (lt_irrefl _)
  · exact le_antisymm le' le

theorem top_eq_some {live : List (Entry E P)} (ids : live.Pairwise fun a b => a.id < b.id) {e : Entry E P} :
    top live = some e ↔ Topmost live e := by
  refine ⟨topmost_top ids, fun isTop => ?_⟩
  cases best : top live with
  | none => rw [top_eq_none.mp best] at isTop; exact absurd isTop.1 List.not_mem_nil
  | some f => rw [topmost_unique ids isTop (topmost_top ids best)]

end

section
variable [DecidableEq E] [LinearOrder P] {tree : Tree E} {original : E → Bool}

/-- The state of the document has the boundaries that are live, and the states before it have none. -/
structure Inv (tree : Tree E) (original : E → Bool) (w : World E P) (b : Boundaries E P) : Prop where
  made : w.handles.length = b.made
  ids : ∀ (i k : Nat) (e : Entry E P), w.handles[i]? = some (k, e) → e.id = i
  order : b.live.Pairwise fun x y => x.id < y.id
  live : ∀ e ∈ b.live, ∃ k, w.documents = some k ∧ w.handles[e.id]? = some (k, e)
  entries : ∀ k, (w.states k).entries = if w.documents = some k then b.live else []
  kept : ∀ k, w.documents = some k → Kept original (beside tree b.live) (w.states k).isolated w.inert
  idle : w.documents = none → w.inert = original

theorem Inv.initial : Inv tree original (.initial original : World E P) {} where
  made := rfl
  ids _ _ _ h := absurd h (by simp [World.initial])
  order := .nil
  live _ mem := absurd mem List.not_mem_nil
  entries k := by simp [World.initial]
  kept _ h := absurd h (by simp [World.initial])
  idle _ := rfl

theorem kept_update {w : World E P} {k : Nat} (restored : restore w.inert (w.states k).isolated.entries = original)
    (entries : List (Entry E P)) :
    Kept original (beside tree entries) ((w.update tree k entries).states k).isolated (w.update tree k entries).inert := by
  have same : (w.update tree k entries).states k =
      ⟨entries, (isolate tree w.inert ⟨entries, (w.states k).isolated⟩).1⟩ := if_pos rfl
  rw [same]
  exact @kept_isolate _ _ tree _ original _ w.inert ⟨entries, (w.states k).isolated⟩ restored

theorem entries_update (w : World E P) (k : Nat) (entries : List (Entry E P)) (j : Nat) :
    ((w.update tree k entries).states j).entries = if j = k then entries else (w.states j).entries := by
  unfold World.update
  dsimp only
  split_ifs <;> rfl

variable {w : World E P} {b : Boundaries E P}

theorem Inv.live_nil (inv : Inv tree original w b) (none : w.documents = none) : b.live = [] := by
  refine List.eq_nil_iff_forall_not_mem.mpr fun e mem => ?_
  obtain ⟨k, some, _⟩ := inv.live e mem
  exact absurd (none.symm.trans some) (by simp)

theorem Inv.id_lt (inv : Inv tree original w b) {e : Entry E P} (mem : e ∈ b.live) : e.id < b.made := by
  obtain ⟨k, _, handle⟩ := inv.live e mem
  exact inv.made ▸ (List.getElem?_eq_some_iff.mp handle).1

theorem Inv.obtain (inv : Inv tree original w b) :
    Inv tree original w.obtain.2 b ∧ w.obtain.2.documents = some w.obtain.1 := by
  unfold World.obtain
  cases documents : w.documents with
  | some k => exact ⟨inv, documents⟩
  | none =>
    have none := inv.live_nil documents
    refine ⟨⟨inv.made, inv.ids, inv.order, ?_, ?_, ?_, ?_⟩, rfl⟩
    · rw [none]
      exact fun e mem => absurd mem List.not_mem_nil
    · intro k
      dsimp only
      rw [none, ite_self]
      split_ifs
      · rfl
      · simpa [documents] using inv.entries k
    · intro k same
      obtain rfl : w.nextState = k := Option.some.inj same
      dsimp only
      rw [if_pos rfl, none, inv.idle documents]
      exact .nil original
    · exact fun h => absurd h (by simp)

theorem Inv.register (inv : Inv tree original w b) (node : E) (priority : P) :
    Inv tree original (w.register tree node priority) (b.step (.register node priority)) := by
  have count : w.obtain.2.handles = w.handles := by
    unfold World.obtain
    split <;> rfl
  obtain ⟨inv, documents⟩ := inv.obtain
  unfold World.register
  rw [← count, inv.made]
  dsimp only
  generalize w.obtain.1 = k at documents ⊢
  generalize w.obtain.2 = w at inv documents ⊢
  have current : (w.states k).entries = b.live := by rw [inv.entries, if_pos documents]
  rw [current]
  refine ⟨?_, ?_, ?_, ?_, ?_, ?_, ?_⟩
  · rw [List.length_append, List.length_singleton]
    exact congrArg (· + 1) inv.made
  · intro i j e handle
    rw [List.getElem?_append] at handle
    split_ifs at handle with before
    · exact inv.ids i j e handle
    · have last := (List.getElem?_eq_some_iff.mp handle).1
      rw [List.length_singleton] at last
      have made : (w.update tree k (b.live ++ [⟨b.made, node, priority⟩])).handles.length = b.made := inv.made
      have same : i = b.made := by omega
      have first : i - (w.update tree k (b.live ++ [⟨b.made, node, priority⟩])).handles.length = 0 := by omega
      rw [first] at handle
      rw [same, ← (Prod.mk.inj (Option.some.inj handle)).2]
  · refine List.pairwise_append.mpr ⟨inv.order, List.pairwise_singleton _ _, fun x mem y last => ?_⟩
    rw [List.mem_singleton.mp last]
    exact inv.id_lt mem
  · intro e mem
    refine ⟨k, documents, ?_⟩
    rcases List.mem_append.mp mem with mem | mem
    · obtain ⟨j, same, handle⟩ := inv.live e mem
      obtain rfl : k = j := Option.some.inj (documents.symm.trans same)
      rw [List.getElem?_append_left]
      · exact handle
      · exact (List.getElem?_eq_some_iff.mp handle).1
    · rw [List.mem_singleton.mp mem]
      exact inv.made ▸ List.getElem?_concat_length
  · intro j
    rw [entries_update, inv.entries]
    have named : (w.update tree k (b.live ++ [⟨b.made, node, priority⟩])).documents = some k := documents
    rw [named, documents]
    by_cases same : j = k
    · simp [same, Boundaries.step]
    · simp [same, Ne.symm same]
  · intro j same
    obtain rfl : k = j := Option.some.inj (documents.symm.trans same)
    exact kept_update (inv.kept k documents).restored _
  · intro none
    exact absurd (documents.symm.trans none) (by simp)

theorem Inv.erase (inv : Inv tree original w b) {e : Entry E P} (mem : e ∈ b.live) :
    b.live.erase e = b.live.filter (·.id ≠ e.id) := by
  have nodup : b.live.Nodup := inv.order.imp fun lt same => absurd (same ▸ lt) (lt_irrefl _)
  rw [nodup.erase_eq_filter]
  refine List.filter_congr fun x there => ?_
  have iff : x = e ↔ x.id = e.id := ⟨congrArg _, ids_inj inv.order there mem⟩
  by_cases same : x = e
  · simp [same]
  · simp [same, mt iff.mpr same]

theorem Inv.released (inv : Inv tree original w b) {handle : Nat} (gone : ∀ e ∈ b.live, e.id ≠ handle) :
    Inv tree original w (b.step (.release handle)) := by
  have same : b.step (.release handle) = b := by
    have all := List.filter_eq_self.mpr fun e mem => decide_eq_true (gone e mem)
    exact congrArg (Boundaries.mk b.made) all
  rw [same]
  exact inv

theorem Inv.update (inv : Inv tree original w b) {k : Nat} (documents : w.documents = some k) {e : Entry E P}
    (mem : e ∈ b.live) :
    Inv tree original (w.update tree k (b.live.erase e)) (b.step (.release e.id)) where
  made := inv.made
  ids := inv.ids
  order := inv.order.filter _
  live f mem := inv.live f (List.mem_filter.mp mem).1
  entries j := by
    have named : (w.update tree k (b.live.erase e)).documents = some k := documents
    rw [entries_update, inv.entries, named, documents, inv.erase mem]
    by_cases same : j = k
    · simp [same, Boundaries.step]
    · simp [same, Ne.symm same]
  kept j same := by
    obtain rfl : k = j := Option.some.inj (documents.symm.trans same)
    rw [inv.erase mem]
    exact kept_update (inv.kept k documents).restored _
  idle none := absurd (documents.symm.trans none) (by simp)

theorem Inv.release (inv : Inv tree original w b) (handle : Nat) :
    Inv tree original (w.release tree handle) (b.step (.release handle)) := by
  unfold World.release
  split
  · next none =>
    refine inv.released fun e mem same => ?_
    obtain ⟨k, _, there⟩ := inv.live e mem
    rw [same, none] at there
    exact absurd there (by simp)
  · next k e there =>
    have number := inv.ids handle k e there
    by_cases mem : e ∈ (w.states k).entries
    · rw [if_pos mem]
      rw [inv.entries] at mem
      split_ifs at mem with documents
      · have current : (w.states k).entries = b.live := by rw [inv.entries, if_pos documents]
        have next := inv.update documents mem
        rw [number] at next
        rw [current]
        dsimp only
        split_ifs with left
        · -- The last boundary of the document: its state is given up.
          have none : (b.step (.release handle)).live = [] := by
            rw [← left, inv.erase mem, number]
            rfl
          refine ⟨next.made, next.ids, next.order, ?_, ?_, ?_, ?_⟩
          · rw [none]
            exact fun e mem => absurd mem List.not_mem_nil
          · intro j
            have empty := next.entries j
            rw [none, ite_self] at empty ⊢
            exact empty
          · exact fun j h => absurd h (by simp)
          · intro _
            have kept := next.kept k documents
            rw [none] at kept
            funext x
            exact (kept.inert x).trans (if_neg List.not_mem_nil)
        · exact next
      · exact absurd mem List.not_mem_nil
    · rw [if_neg mem]
      refine inv.released fun f live same => mem ?_
      obtain ⟨j, documents, again⟩ := inv.live f live
      rw [same, there] at again
      cases again
      rw [inv.entries, if_pos documents]
      exact live

theorem inv_run (tree : Tree E) (inert : E → Bool) (calls : List (Call E P)) :
    Inv tree inert (run tree inert calls) (boundaries calls) := by
  have carried : ∀ (calls : List (Call E P)) (w : World E P) (b : Boundaries E P), Inv tree inert w b →
      Inv tree inert (calls.foldl (World.step tree) w) (calls.foldl Boundaries.step b) := by
    intro calls
    induction calls with
    | nil => exact fun w b inv => inv
    | cons call calls ih =>
      intro w b inv
      cases call with
      | register node priority => exact ih _ _ (inv.register node priority)
      | release handle => exact ih _ _ (inv.release handle)
  exact carried calls _ _ .initial

theorem Inv.inert_iff (inv : Inv tree original w b) (x : E) :
    w.inert x = true ↔ original x = true ∨ ∃ e a, Topmost b.live e ∧ tree.Along e.node a ∧ tree.Sibling x a := by
  have beside_iff : x ∈ beside tree b.live ↔ ∃ e a, Topmost b.live e ∧ tree.Along e.node a ∧ tree.Sibling x a := by
    unfold beside
    cases best : top b.live with
    | none =>
      refine ⟨fun mem => absurd mem List.not_mem_nil, fun ⟨e, _, isTop, _⟩ => ?_⟩
      rw [← top_eq_some inv.order, best] at isTop
      exact absurd isTop (by simp)
    | some f =>
      refine mem_siblings.trans ⟨fun ⟨a, along, sibling⟩ => ?_, fun ⟨e, a, isTop, along, sibling⟩ => ?_⟩
      · exact ⟨f, a, topmost_top inv.order best, along, sibling⟩
      · rw [← top_eq_some inv.order, best] at isTop
        exact ⟨a, Option.some.inj isTop ▸ along, sibling⟩
  rw [← beside_iff]
  cases documents : w.documents with
  | some k =>
    rw [(inv.kept k documents).inert]
    by_cases mem : x ∈ beside tree b.live <;> simp [mem]
  | none =>
    rw [inv.idle documents, inv.live_nil documents]
    simp [beside, top]

theorem Inv.isTop_iff (inv : Inv tree original w b) (handle : Nat) :
    w.isTop handle = true ↔ ∃ e, Topmost b.live e ∧ e.id = handle := by
  unfold World.isTop
  constructor
  · intro isTop
    cases there : w.handles[handle]? with
    | none => rw [there] at isTop; exact absurd isTop (by simp)
    | some h =>
      rw [there, Option.any_some, decide_eq_true_iff, inv.entries] at isTop
      split_ifs at isTop with documents
      · exact ⟨h.2, topmost_top inv.order isTop, inv.ids handle h.1 h.2 there⟩
      · exact absurd isTop (by simp [top])
  · rintro ⟨e, isTop, rfl⟩
    obtain ⟨k, documents, there⟩ := inv.live e isTop.1
    rw [there, Option.any_some, inv.entries, if_pos documents]
    exact decide_eq_true ((top_eq_some inv.order).mpr isTop)

/-- After every call the inert elements are those that were so at the start and the siblings along the
path of the top boundary, which is the only one to be told that it is on top. Without a live boundary
every flag is as it was. -/
theorem isolation_exact (tree : Tree E) (inert : E → Bool) (calls : List (Call E P)) :
    (∀ x, (run tree inert calls).inert x = true ↔
      inert x = true ∨ ∃ e a, Topmost (boundaries calls).live e ∧ tree.Along e.node a ∧ tree.Sibling x a) ∧
    (∀ handle, (run tree inert calls).isTop handle = true ↔ ∃ e, Topmost (boundaries calls).live e ∧ e.id = handle) ∧
    ((boundaries calls).live = [] → (run tree inert calls).inert = inert) := by
  have inv := inv_run tree inert calls
  refine ⟨inv.inert_iff, inv.isTop_iff, fun none => ?_⟩
  funext x
  rw [Bool.eq_iff_iff, inv.inert_iff, none]
  exact or_iff_left fun ⟨e, _, isTop, _⟩ => absurd isTop.1 List.not_mem_nil

end

/-- The elements `html`, `head`, `body` and a dialog in the body. -/
def page : Tree (Fin 4) where
  parentElement x := [none, some 0, some 0, some 2][x]
  children x := [[1, 2], [], [3], []][x]
  body := some 2
  depth x := [0, 1, 1, 2][x]
  mem_children {x p} := by revert x p; decide
  nodup := by decide
  descends {x p} := by revert x p; decide

/-- A dialog twice, released in the order of registration, the first of them again. -/
theorem isolation_exact_twice :
    (run page (· == 1) [.register 3 (0 : Int), .register 3 0, .release 0, .release 1, .release 0]).inert = (· == 1) :=
  (isolation_exact page (· == 1) [.register 3 (0 : Int), .register 3 0, .release 0, .release 1, .release 0]).2.2
    (by decide)

/-- With the body itself as a boundary the head is inert, which is not beside a path below the body. -/
theorem isolation_above_body : (run page (fun _ => false) [.register 2 (0 : Int)]).inert 1 = true ∧
      ¬ ∃ e a, Topmost (boundaries [.register (2 : Fin 4) (0 : Int)]).live e ∧
        Relation.ReflTransGen page.Parent e.node a ∧ page.Inside a ∧ page.Sibling 1 a := by
  have live : (boundaries [.register (2 : Fin 4) (0 : Int)]).live = [⟨0, 2, 0⟩] := rfl
  constructor
  · refine ((inv_run page (fun _ => false) [.register 2 (0 : Int)]).inert_iff 1).mpr (.inr ⟨⟨0, 2, 0⟩, 2, ?_, ?_, ?_⟩)
    · rw [live]
      exact ⟨List.mem_singleton_self _, fun x mem => by rw [List.mem_singleton.mp mem]; exact .inr ⟨rfl, Nat.le_refl _⟩⟩
    · exact along_self 2
    · exact ⟨by decide, 0, rfl, rfl⟩
  · rintro ⟨e, a, ⟨mem, _⟩, along, ⟨body, isBody, inside⟩, _⟩
    obtain rfl := List.mem_singleton.mp mem
    obtain rfl : (2 : Fin 4) = body := Option.some.inj isBody
    exact absurd (depth_lt inside) (not_lt.mpr (depth_le along))

end FocusBoundaries
