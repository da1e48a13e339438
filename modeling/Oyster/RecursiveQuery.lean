import Mathlib.Data.List.Infix
import Mathlib.Data.List.Nodup
import Mathlib.Logic.Relation
import Mathlib.Algebra.GroupWithZero.Nat

/-! Recursive queries: `WITH RECURSIVE` over `UNION ALL`, as a queue of rows from which one
row after the other is taken and followed by the rows that the recursive part makes of it;
and the guard of such queries against cycles, a path of separated names. -/
namespace RecursiveQuery

section Rows
variable {ρ : Type*}

/-- The rows of the query in the order in which they leave the queue. -/
def evaluate (next : ρ → List ρ) : (fuel : Nat) → (queue : List ρ) → Option (List ρ)
  | _, [] => some []
  | 0, _ :: _ => none
  | fuel + 1, row :: queue => (evaluate next fuel (queue ++ next row)).map (row :: ·)

variable {next : ρ → List ρ} {fuel : Nat} {row : ρ} {queue result : List ρ}

theorem evaluate_cons (h : evaluate next (fuel + 1) (row :: queue) = some result) :
    ∃ rest, evaluate next fuel (queue ++ next row) = some rest ∧ result = row :: rest := by
  obtain ⟨rest, found, rfl⟩ := Option.map_eq_some_iff.mp h
  exact ⟨rest, found, rfl⟩

@[simp] theorem evaluate_nil (fuel : Nat) : evaluate next fuel [] = some [] := by
  cases fuel <;> rfl

theorem evaluate_last (last : next row = []) (fuel : Nat) : evaluate next (fuel + 1) [row] = some [row] := by
  rw [evaluate, last, List.append_nil, evaluate_nil, Option.map_some]

theorem evaluate_follow {made : ρ} (only : next row = [made]) (fuel : Nat) :
    evaluate next (fuel + 1) [row] = (evaluate next fuel [made]).map (row :: ·) := by
  rw [evaluate, only, List.nil_append]

theorem evaluate_more {more : Nat} (h : evaluate next fuel queue = some result) (le : fuel ≤ more) :
    evaluate next more queue = some result := by
  induction fuel generalizing more queue result with
  | zero =>
    cases queue with
    | nil => exact (evaluate_nil more).trans h
    | cons row queue => cases h
  | succ fuel ih =>
    cases queue with
    | nil => exact (evaluate_nil more).trans h
    | cons row queue =>
      obtain ⟨rest, found, rfl⟩ := evaluate_cons h
      cases more with
      | zero => omega
      | succ more => rw [evaluate, ih found (Nat.le_of_succ_le_succ le), Option.map_some]

theorem mem_evaluate (h : evaluate next fuel queue = some result) (row : ρ) :
    row ∈ result ↔ ∃ start ∈ queue, Relation.ReflTransGen (fun a b => b ∈ next a) start row := by
  induction fuel generalizing queue result with
  | zero =>
    cases queue with
    | nil =>
      cases h
      simp
    | cons first queue => cases h
  | succ fuel ih =>
    cases queue with
    | nil =>
      cases h
      simp
    | cons first queue =>
      obtain ⟨rest, found, rfl⟩ := evaluate_cons h
      rw [List.mem_cons, ih found]
      constructor
      · rintro (rfl | ⟨start, mem, leads⟩)
        · exact ⟨row, List.mem_cons_self .., .refl⟩
        · obtain waiting | made := List.mem_append.mp mem
          · exact ⟨start, List.mem_cons_of_mem _ waiting, leads⟩
          · exact ⟨first, List.mem_cons_self .., .head made leads⟩
      · rintro ⟨start, mem, leads⟩
        obtain rfl | waiting := List.mem_cons.mp mem
        · obtain rfl | ⟨second, made, leads⟩ := Relation.ReflTransGen.cases_head leads
          · exact .inl rfl
          · exact .inr ⟨second, List.mem_append_right _ made, leads⟩
        · exact .inr ⟨start, List.mem_append_left _ waiting, leads⟩

/-- The number of rows that a row leads to, itself included, when no more than `depth` steps
follow it. -/
def weight (next : ρ → List ρ) : (depth : Nat) → ρ → Nat
  | 0, _ => 1
  | depth + 1, row => 1 + ((next row).map (weight next depth)).sum

variable {Inv : ρ → Prop} {rank : ρ → Nat} {depth : Nat}

theorem weight_stable (sinks : ∀ row, Inv row → ∀ made ∈ next row, Inv made ∧ rank made < rank row) (inv : Inv row)
    (low : rank row ≤ depth) : weight next depth row = weight next (depth + 1) row := by
  induction depth generalizing row with
  | zero =>
    have none : next row = [] := by
      cases made : next row with
      | nil => rfl
      | cons first _ =>
        have lower := (sinks row inv first (made ▸ List.mem_cons_self ..)).2
        omega
    simp [weight, none]
  | succ depth ih =>
    have same : (next row).map (weight next depth) = (next row).map (weight next (depth + 1)) := by
      refine List.map_congr_left fun made mem => ?_
      obtain ⟨inside, lower⟩ := sinks row inv made mem
      exact ih inside (by omega)
    rw [weight, same, weight]

theorem evaluate_ends (sinks : ∀ row, Inv row → ∀ made ∈ next row, Inv made ∧ rank made < rank row) (queue : List ρ)
    (inside : ∀ row ∈ queue, Inv row ∧ rank row ≤ depth) :
    ∃ fuel result, ∀ more, evaluate next (fuel + more) queue = some result := by
  -- the fuel is the weight of all that the queue leads to, which a step lowers by one
  generalize cost : (queue.map (weight next depth)).sum = fuel
  induction fuel using Nat.strong_induction_on generalizing queue with
  | _ fuel ih =>
    cases queue with
    | nil => exact ⟨0, [], fun more => evaluate_nil _⟩
    | cons row queue =>
      obtain ⟨inv, low⟩ := inside row (List.mem_cons_self ..)
      have made : ∀ r ∈ queue ++ next row, Inv r ∧ rank r ≤ depth := by
        intro r mem
        obtain old | new := List.mem_append.mp mem
        · exact inside r (List.mem_cons_of_mem _ old)
        · obtain ⟨inv, lower⟩ := sinks row inv r new
          exact ⟨inv, by omega⟩
      have less : ((queue ++ next row).map (weight next depth)).sum < fuel := by
        rw [← cost, List.map_cons, List.sum_cons, List.map_append, List.sum_append, weight_stable sinks inv low,
          weight]
        omega
      obtain ⟨steps, rest, found⟩ := ih _ less (queue ++ next row) made rfl
      refine ⟨steps + 1, row :: rest, fun more => ?_⟩
      rw [Nat.add_right_comm, evaluate, found more, Option.map_some]

theorem evaluate_from (sinks : ∀ row, Inv row → ∀ made ∈ next row, Inv made ∧ rank made < rank row) {start : ρ}
    (inv : Inv start) : ∃ enough rows, (∀ fuel, enough ≤ fuel → evaluate next fuel [start] = some rows) ∧
      (∀ row, row ∈ rows ↔ Relation.ReflTransGen (fun a b => b ∈ next a) start row) ∧ ∀ row ∈ rows, Inv row := by
  have first : ∀ row ∈ [start], Inv row ∧ rank row ≤ rank start := by
    intro row mem
    obtain rfl := List.mem_singleton.mp mem
    exact ⟨inv, le_rfl⟩
  obtain ⟨enough, rows, ends⟩ := evaluate_ends sinks [start] first
  have found : ∀ row, row ∈ rows ↔ Relation.ReflTransGen (fun a b => b ∈ next a) start row := by
    intro row
    rw [mem_evaluate (ends 0)]
    simp
  refine ⟨enough, rows, fun fuel le => Nat.add_sub_cancel' le ▸ ends (fuel - enough), found, fun row mem => ?_⟩
  have leads := (found row).mp mem
  clear mem
  induction leads with
  | refl => exact inv
  | tail _ made ih => exact (sinks _ ih _ made).1

theorem filter_key {α κ : Type} [DecidableEq κ] {key : α → κ} {l : List α} {a : α} (nodup : (l.map key).Nodup)
    (mem : a ∈ l) : l.filter (fun b => key b = key a) = [a] := by
  induction l with
  | nil => cases mem
  | cons b l ih =>
    obtain ⟨fresh, nodup⟩ := List.nodup_cons.mp nodup
    obtain rfl | later := List.mem_cons.mp mem
    · have none : l.filter (fun b => key b = key a) = [] := by
        refine List.filter_eq_nil_iff.mpr fun b inside same => fresh ?_
        exact List.mem_map.mpr ⟨b, inside, by simpa using same⟩
      rw [List.filter_cons_of_pos (by simp), none]
    · have other : key b ≠ key a := fun same => fresh (List.mem_map.mpr ⟨a, later, same.symm⟩)
      rw [List.filter_cons_of_neg (by simpa using other), ih nodup later]

end Rows

section Paths
variable {α : Type*}

def path (separator : α) (names : List (List α)) : List α :=
  separator :: names.flatMap fun name => name ++ [separator]

/-- What the guard looks for. -/
def Occurs (separator : α) (name path : List α) : Prop := separator :: name ++ [separator] <:+: path

instance [DecidableEq α] (separator : α) (name path : List α) : Decidable (Occurs separator name path) := by
  unfold Occurs
  infer_instance

variable {separator : α} {name : List α} {names : List (List α)}

theorem path_append (separator : α) (names : List (List α)) (name : List α) :
    path separator (names ++ [name]) = path separator names ++ name ++ [separator] := by
  simp [path]

theorem path_singleton (separator : α) (name : List α) :
    path separator [name] = separator :: name ++ [separator] := by
  simp [path]

theorem occurs_of_mem (mem : name ∈ names) : Occurs separator name (path separator names) := by
  obtain ⟨before, after, rfl⟩ := List.append_of_mem mem
  induction before using List.reverseRecOn with
  | nil =>
    exact ⟨[], after.flatMap fun name => name ++ [separator], by simp [path]⟩
  | append_singleton before last _ =>
    refine ⟨separator :: before.flatMap (fun name => name ++ [separator]) ++ last,
      after.flatMap fun name => name ++ [separator], ?_⟩
    simp [path]

theorem separated_inj {a b c d : List α} (left : separator ∉ a) (right : separator ∉ c)
    (same : a ++ separator :: b = c ++ separator :: d) : a = c := by
  obtain ⟨rest, whole, tail⟩ | ⟨rest, whole, tail⟩ := List.append_eq_append_iff.mp same
  · cases rest with
    | nil => rw [whole, List.append_nil]
    | cons head rest =>
      obtain rfl := (List.cons.inj tail).1
      exact absurd (whole ▸ List.mem_append_right _ (List.mem_cons_self ..)) right
  · cases rest with
    | nil => rw [whole, List.append_nil]
    | cons head rest =>
      obtain rfl := (List.cons.inj tail).1
      exact absurd (whole ▸ List.mem_append_right _ (List.mem_cons_self ..)) left

theorem mem_of_occurs (plain : ∀ other ∈ names, separator ∉ other) (own : separator ∉ name)
    (found : Occurs separator name (path separator names)) : name ∈ names := by
  induction names with
  | nil =>
    obtain ⟨before, after, same⟩ := found
    have short := congrArg List.length same
    simp only [path, List.flatMap_nil, List.length_append, List.length_cons, List.length_nil] at short
    omega
  | cons first names ih =>
    have split : path separator (first :: names) = separator :: first ++ path separator names := by simp [path]
    have first_plain := plain first (List.mem_cons_self ..)
    have later := ih fun other mem => plain other (List.mem_cons_of_mem _ mem)
    obtain ⟨before, after, same⟩ := found
    rw [split] at same
    cases before with
    | nil =>
      -- the name and the first of the path both end at the next separator
      have tails : name ++ separator :: after = first ++ separator :: names.flatMap fun other =>
        other ++ [separator] := by
        simpa [path] using same
      exact List.mem_cons.mpr (.inl (separated_inj own first_plain tails))
    | cons _ before =>
      have tails : before ++ (separator :: name ++ [separator] ++ after) = first ++ path separator names := by
        simpa using (List.cons.inj same).2
      refine List.mem_cons_of_mem _ (later ?_)
      obtain ⟨rest, left, right⟩ | ⟨rest, _, right⟩ := List.append_eq_append_iff.mp tails
      · cases rest with
        | nil => exact ⟨[], after, by simpa using right⟩
        | cons head rest =>
          obtain rfl : separator = head := (List.cons.inj right).1
          exact absurd (left ▸ List.mem_append_right _ (List.mem_cons_self ..)) first_plain
      · exact ⟨rest, after, by rw [right, List.append_assoc]⟩

end Paths
end RecursiveQuery
