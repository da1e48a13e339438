import Mathlib.Data.List.Basic

/-! Contiguous parts of a list, given by their bounds. -/
namespace Slices

variable {α : Type*} {l l' : List α} {a b c : Nat}

/-- The elements from `first` on and before `last`. -/
def slice (l : List α) (first last : Nat) : List α := (l.drop first).take (last - first)

@[simp] theorem slice_self (l : List α) (a : Nat) : slice l a a = [] := by
  rw [slice, Nat.sub_self, List.take_zero]

theorem slice_append (l : List α) (first : a ≤ b) (second : b ≤ c) : slice l a b ++ slice l b c = slice l a c := by
  have whole : c - a = (b - a) + (c - b) := by omega
  have middle : a + (b - a) = b := by omega
  rw [slice, slice, slice, whole, List.take_add, List.drop_drop, middle]

theorem length_slice (le : b ≤ l.length) : (slice l a b).length = b - a := by
  rw [slice, List.length_take, List.length_drop]
  omega

theorem slice_length (l : List α) (a : Nat) : slice l a l.length = l.drop a := by
  rw [slice, ← List.length_drop, List.take_length]

theorem slice_grown (grown : l <+: l') (le : b ≤ l.length) : slice l' a b = slice l a b := by
  obtain ⟨more, rfl⟩ := grown
  rw [slice, slice]
  rcases Nat.le_total a l.length with inside | outside
  · rw [List.drop_append_of_le_length inside, List.take_append_of_le_length]
    rw [List.length_drop]
    omega
  · have none : b - a = 0 := by omega
    rw [none, List.take_zero, List.take_zero]

theorem slice_take (l : List α) {n : Nat} (le : b ≤ n) : slice (l.take n) a b = slice l a b := by
  rw [slice, slice, List.drop_take, List.take_take]
  congr 1
  omega

theorem drop_slice (l : List α) (le : a ≤ b) : (slice l a c).drop (b - a) = slice l b c := by
  have middle : a + (b - a) = b := by omega
  have rest : c - a - (b - a) = c - b := by omega
  rw [slice, slice, List.drop_take, List.drop_drop, middle, rest]

end Slices
