import Mathlib.Data.List.Dedup
import Mathlib.Data.List.Perm.Subperm
import Mathlib.Logic.Relation

/-! A worklist over a relation that nothing is known of: what is found is looked at once, in
the order in which it was found, and all that can be reached is found. -/
namespace Worklist

variable {ι : Type*} [DecidableEq ι]

def fresh (seen : List ι) : List ι → List ι
  | [] => []
  | y :: ys => if y ∈ seen then fresh seen ys else y :: fresh (seen ++ [y]) ys

def collect (next : ι → List ι) : (fuel : Nat) → (pending seen : List ι) → Option (List ι)
  | _, [], seen => some seen
  | 0, _ :: _, _ => none
  | fuel + 1, x :: pending, seen =>
    collect next fuel (pending ++ fresh seen (next x)) (seen ++ fresh seen (next x))

variable {seen : List ι}

theorem mem_fresh {ys : List ι} {y : ι} : y ∈ fresh seen ys ↔ y ∈ ys ∧ y ∉ seen := by
  induction ys generalizing seen with
  | nil => simp [fresh]
  | cons first ys ih =>
    unfold fresh
    split_ifs with known
    · rw [ih, List.mem_cons]
      refine ⟨fun ⟨mem, new⟩ => ⟨.inr mem, new⟩, fun ⟨mem, new⟩ => ⟨mem.resolve_left ?_, new⟩⟩
      rintro rfl
      exact new known
    · rw [List.mem_cons, List.mem_cons, ih, List.mem_append, List.mem_singleton]
      constructor
      · rintro (rfl | ⟨mem, new⟩)
        · exact ⟨.inl rfl, known⟩
        · exact ⟨.inr mem, fun old => new (.inl old)⟩
      · rintro ⟨rfl | mem, new⟩
        · exact .inl rfl
        · by_cases same : y = first
          · exact .inl same
          · exact .inr ⟨mem, fun old => old.elim new same⟩

theorem fresh_nodup_self (seen ys : List ι) : (fresh seen ys).Nodup := by
  induction ys generalizing seen with
  | nil => exact List.nodup_nil
  | cons first ys ih =>
    unfold fresh
    split_ifs with known
    · exact ih seen
    · refine List.nodup_cons.mpr ⟨fun again => ?_, ih _⟩
      exact (mem_fresh.mp again).2 (List.mem_append_right _ (List.mem_singleton_self first))

theorem fresh_nodup (ys : List ι) (nodup : seen.Nodup) : (seen ++ fresh seen ys).Nodup :=
  List.nodup_append.mpr ⟨nodup, fresh_nodup_self seen ys, fun _ old _ new same =>
    (mem_fresh.mp new).2 (same ▸ old)⟩

variable {next : ι → List ι} {fuel : Nat} {pending result : List ι}

theorem collect_more {more : Nat} (h : collect next fuel pending seen = some result) (le : fuel ≤ more) :
    collect next more pending seen = some result := by
  induction fuel generalizing more pending seen with
  | zero =>
    cases pending with
    | nil =>
      cases more <;> exact h
    | cons x pending => cases h
  | succ fuel ih =>
    cases more with
    | zero => omega
    | succ more =>
      cases pending with
      | nil => exact h
      | cons x pending =>
        unfold collect at h ⊢
        exact ih h (Nat.le_of_succ_le_succ le)

def Explored (next : ι → List ι) (pending seen : List ι) : Prop :=
  pending ⊆ seen ∧ ∀ x ∈ seen, x ∈ pending ∨ ∀ y ∈ next x, y ∈ seen

omit [DecidableEq ι] in
theorem Explored.start (x : ι) : Explored next [x] [x] :=
  ⟨fun _ mem => mem, fun _ mem => .inl mem⟩

theorem Explored.step {x : ι} (h : Explored next (x :: pending) seen) :
    Explored next (pending ++ fresh seen (next x)) (seen ++ fresh seen (next x)) := by
  obtain ⟨inside, looked⟩ := h
  constructor
  · intro y mem
    obtain old | new := List.mem_append.mp mem
    · exact List.mem_append_left _ (inside (List.mem_cons_of_mem _ old))
    · exact List.mem_append_right _ new
  · intro y mem
    obtain old | new := List.mem_append.mp mem
    · obtain waiting | done := looked y old
      · obtain rfl | waiting := List.mem_cons.mp waiting
        · refine .inr fun z made => ?_
          by_cases known : z ∈ seen
          · exact List.mem_append_left _ known
          · exact List.mem_append_right _ (mem_fresh.mpr ⟨made, known⟩)
        · exact .inl (List.mem_append_left _ waiting)
      · exact .inr fun z made => List.mem_append_left _ (done z made)
    · exact .inl (List.mem_append_right _ new)

theorem collect_spec (h : collect next fuel pending seen = some result) (explored : Explored next pending seen)
    (nodup : seen.Nodup) : result.Nodup ∧ seen <+: result ∧ (∀ x ∈ result, ∀ y ∈ next x, y ∈ result) ∧
      ∀ x ∈ result, ∃ start ∈ seen, Relation.ReflTransGen (fun a b => b ∈ next a) start x := by
  induction fuel generalizing pending seen with
  | zero =>
    cases pending with
    | nil =>
      cases h
      refine ⟨nodup, List.prefix_refl _, fun x mem => ?_, fun x mem => ⟨x, mem, .refl⟩⟩
      exact (explored.2 x mem).resolve_left List.not_mem_nil
    | cons x pending => cases h
  | succ fuel ih =>
    cases pending with
    | nil =>
      cases h
      refine ⟨nodup, List.prefix_refl _, fun x mem => ?_, fun x mem => ⟨x, mem, .refl⟩⟩
      exact (explored.2 x mem).resolve_left List.not_mem_nil
    | cons x pending =>
      obtain ⟨apart, longer, closed, reached⟩ := ih h explored.step (fresh_nodup (next x) nodup)
      refine ⟨apart, (List.prefix_append ..).trans longer, closed, fun y mem => ?_⟩
      obtain ⟨start, inside, leads⟩ := reached y mem
      obtain old | new := List.mem_append.mp inside
      · exact ⟨start, old, leads⟩
      · exact ⟨x, explored.1 (List.mem_cons_self ..), .head (mem_fresh.mp new).1 leads⟩

theorem mem_collect {root : ι} (h : collect next fuel [root] [root] = some result) :
    result.Nodup ∧ [root] <+: result ∧ ∀ x, x ∈ result ↔ Relation.ReflTransGen (fun a b => b ∈ next a) root x := by
  obtain ⟨nodup, first, closed, reached⟩ := collect_spec h (.start root) (List.nodup_singleton root)
  refine ⟨nodup, first, fun x => ⟨fun mem => ?_, fun leads => ?_⟩⟩
  · obtain ⟨start, inside, leads⟩ := reached x mem
    exact List.mem_singleton.mp inside ▸ leads
  · induction leads with
    | refl => exact first.subset (List.mem_singleton_self root)
    | tail _ made inside => exact closed _ inside _ made

theorem collect_ends (nodes : List ι) (finite : ∀ x, next x ⊆ nodes) (pending seen : List ι)
    (enough : pending.length + (nodes.dedup.filter (· ∉ seen)).length ≤ fuel) :
    ∃ result, collect next fuel pending seen = some result := by
  induction fuel generalizing pending seen with
  | zero =>
    cases pending with
    | nil => exact ⟨seen, rfl⟩
    | cons x pending =>
      rw [List.length_cons] at enough
      omega
  | succ fuel ih =>
    cases pending with
    | nil => exact ⟨seen, rfl⟩
    | cons x pending =>
      refine ih _ _ ?_
      -- what is found now is not left to be found later
      have apart : (fresh seen (next x) ++ nodes.dedup.filter (· ∉ seen ++ fresh seen (next x))).Nodup := by
        refine List.nodup_append.mpr ⟨fresh_nodup_self _ _, (List.nodup_dedup nodes).filter _, ?_⟩
        rintro y new _ left rfl
        exact of_decide_eq_true (List.mem_filter.mp left).2 (List.mem_append_right _ new)
      have inside : fresh seen (next x) ++ nodes.dedup.filter (· ∉ seen ++ fresh seen (next x)) ⊆
          nodes.dedup.filter (· ∉ seen) := by
        intro y mem
        obtain new | left := List.mem_append.mp mem
        · obtain ⟨made, unseen⟩ := mem_fresh.mp new
          exact List.mem_filter.mpr ⟨List.mem_dedup.mpr (finite x made), decide_eq_true unseen⟩
        · obtain ⟨node, unseen⟩ := List.mem_filter.mp left
          exact List.mem_filter.mpr ⟨node, decide_eq_true fun old =>
            of_decide_eq_true unseen (List.mem_append_left _ old)⟩
      have fewer := (apart.subperm inside).length_le
      rw [List.length_append] at fewer ⊢
      rw [List.length_cons] at enough
      omega

theorem collect_total (nodes : List ι) (finite : ∀ x, next x ⊆ nodes) (root : ι) :
    ∃ enough result, ∀ fuel, enough ≤ fuel → collect next fuel [root] [root] = some result := by
  obtain ⟨result, found⟩ := collect_ends nodes finite [root] [root] (Nat.le_refl _)
  exact ⟨_, result, fun fuel le => collect_more found le⟩

end Worklist
