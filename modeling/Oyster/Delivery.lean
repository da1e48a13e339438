import Mathlib.Data.List.Basic

/-! What a sender writes on its way to a receiver: the part that has landed, and the rest, which is
under way as long as the receiver takes it. A chunk may travel in parts of a bounded size. -/
namespace Delivery
variable {α : Type*}

def parts (size : Nat) (chunk : List α) : List (List α) :=
  (List.range ((chunk.length + size - 1) / size)).map fun i => (chunk.drop (i * size)).take size

theorem flatten_pieces (size : Nat) (chunk : List α) (n : Nat) :
    ((List.range n).map fun i => (chunk.drop (i * size)).take size).flatten = chunk.take (n * size) := by
  induction n with
  | zero => simp
  | succ n ih =>
    rw [List.range_succ, List.map_append, List.flatten_append, ih, Nat.succ_mul, List.take_add]
    simp

variable {size : Nat}

theorem flatten_parts (positive : 0 < size) (chunk : List α) : (parts size chunk).flatten = chunk := by
  rw [parts, flatten_pieces]
  apply List.take_of_length_le
  have enough := Nat.lt_div_mul_add (a := chunk.length + size - 1) positive
  omega

theorem length_part {chunk part : List α} (h : part ∈ parts size chunk) : part.length ≤ size := by
  obtain ⟨i, _, rfl⟩ := List.mem_map.mp h
  exact List.length_take_le _ _

/-- What has landed is a prefix of what was written. As long as more is taken, so is that together
with what is under way, and it is all that was written if nothing was dropped on the way. -/
structure Faithful (written landed underway : List α) (takes intact : Prop) : Prop where
  arrived : landed <+: written
  along : takes → landed ++ underway <+: written
  whole : takes → intact → landed ++ underway = written

section
variable {written landed front underway new rest : List α} {takes takes' intact intact' : Prop}

theorem Faithful.init : Faithful ([] : List α) [] [] takes intact :=
  ⟨List.prefix_refl _, fun _ => List.prefix_refl _, fun _ _ => rfl⟩

theorem Faithful.moves (h : Faithful written landed underway takes intact) (still : takes' → takes)
    (carried : rest <+: underway ∨ intact ∧ rest <+: underway ++ new)
    (kept : intact' → intact ∧ rest = underway ++ new) :
    Faithful (written ++ new) landed rest takes' intact' := by
  refine ⟨h.arrived.trans (List.prefix_append _ _), fun now => ?_, fun now all => ?_⟩
  · obtain dropped | ⟨before, carried⟩ := carried
    · have left : landed ++ rest <+: written :=
        ((List.prefix_append_right_inj landed).mpr dropped).trans (h.along (still now))
      exact left.trans (List.prefix_append _ _)
    · rw [← h.whole (still now) before, List.append_assoc]
      exact (List.prefix_append_right_inj landed).mpr carried
  · obtain ⟨before, same⟩ := kept all
    rw [same, ← List.append_assoc, h.whole (still now) before]

theorem Faithful.moves_last (h : Faithful written landed (front ++ underway) takes intact) (still : takes' → takes)
    (carried : rest <+: underway ∨ intact ∧ rest <+: underway ++ new)
    (kept : intact' → intact ∧ rest = underway ++ new) :
    Faithful (written ++ new) landed (front ++ rest) takes' intact' := by
  refine h.moves still ?_ fun whole => ?_
  · rw [List.append_assoc, List.prefix_append_right_inj, List.prefix_append_right_inj]
    exact carried
  · obtain ⟨before, same⟩ := kept whole
    exact ⟨before, by rw [same, List.append_assoc]⟩

theorem Faithful.stays (h : Faithful written landed underway takes intact) (still : takes' → takes)
    (kept : intact' → intact) : Faithful written landed underway takes' intact' :=
  ⟨h.arrived, fun now => h.along (still now), fun now whole => h.whole (still now) (kept whole)⟩

theorem Faithful.lands (h : Faithful written landed (new ++ rest) takes intact) (now : takes) :
    Faithful written (landed ++ new) rest takes intact := by
  have all := h.along now
  rw [← List.append_assoc] at all
  refine ⟨(List.prefix_append _ _).trans all, fun _ => all, fun _ whole => ?_⟩
  rw [List.append_assoc, h.whole now whole]

theorem Faithful.stops (h : Faithful written landed underway takes intact) (stopped : ¬takes') :
    Faithful written landed rest takes' intact' :=
  ⟨h.arrived, fun now => absurd now stopped, fun now => absurd now stopped⟩

end
end Delivery
