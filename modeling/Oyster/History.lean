import Mathlib.Data.List.Basic

/-! Histories, newest event first, in which each event has to fit what was before it. -/
namespace History

variable {ε : Type*}

/-- Every event is permitted after the events before it. -/
def Fits (permitted : ε → List ε → Prop) : List ε → Prop
  | [] => True
  | e :: before => permitted e before ∧ Fits permitted before

variable {permitted : ε → List ε → Prop} {before : List ε} {e : ε}

theorem Fits.cons (fits : Fits permitted before) (here : permitted e before) : Fits permitted (e :: before) :=
  ⟨here, fits⟩

variable {newer : List ε}

theorem Fits.earlier (fits : Fits permitted (newer ++ before)) : Fits permitted before := by
  induction newer with
  | nil => exact fits
  | cons e newer ih => exact ih fits.2

theorem Fits.of_suffix {after : List ε} (grown : before <:+ after) (fits : Fits permitted after) :
    Fits permitted before := by
  obtain ⟨newer, rfl⟩ := grown
  exact fits.earlier

theorem Fits.at (fits : Fits permitted (newer ++ e :: before)) : permitted e before :=
  fits.earlier.1

end History
