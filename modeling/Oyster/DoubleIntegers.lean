import Mathlib.Data.Nat.Log
import Mathlib.Tactic.NormNum

/-! Whole numbers as a double holds them: exact up to fifty-three bits, and rounded to the
nearest multiple of a power of two above, ties to the even one. -/
namespace DoubleIntegers

/-- The greatest integer below which every integer is a double. -/
def maxSafe : ℕ := 2 ^ 53 - 1

def nearest (n : ℕ) : ℕ :=
  let unit := 2 ^ (n.log2 - 52)
  let whole := n / unit
  let rest := n % unit
  (if unit < 2 * rest ∨ (2 * rest = unit ∧ whole % 2 = 1) then whole + 1 else whole) * unit

/-- The least integer that overflows: half a unit beyond the last double. -/
def overflow : ℕ := (2 ^ 54 - 1) * 2 ^ 970

/-- The double nearest to an integer; `none` is infinity. -/
def ofNat (n : ℕ) : Option ℕ := if n < overflow then some (nearest n) else none

variable {n : ℕ}

theorem nearest_of_small (small : n ≤ maxSafe) : nearest n = n := by
  have bits : n.log2 - 52 = 0 := by
    rcases Nat.eq_zero_or_pos n with rfl | positive
    · rfl
    · have := (Nat.log2_lt positive.ne').mpr (show n < 2 ^ 53 by unfold maxSafe at small; omega)
      omega
  simp [nearest, bits, Nat.mod_one]

theorem le_nearest_of_large (large : maxSafe < n) : maxSafe < nearest n := by
  have wide : 2 ^ 53 ≤ n := by unfold maxSafe at large; omega
  have bits : 53 ≤ n.log2 := (Nat.le_log2 (by omega)).mpr wide
  have floor : 2 ^ n.log2 ≤ n := Nat.log2_self_le (by omega)
  obtain ⟨e, log⟩ : ∃ e, n.log2 = e + 53 := ⟨n.log2 - 53, by omega⟩
  have whole : 2 ^ 52 ≤ n / 2 ^ (e + 1) := by
    rw [Nat.le_div_iff_mul_le (Nat.two_pow_pos _), ← Nat.pow_add, show 52 + (e + 1) = n.log2 by omega]
    exact floor
  have scaled : 2 ^ 52 * 2 ≤ n / 2 ^ (e + 1) * 2 ^ (e + 1) := by
    refine Nat.mul_le_mul whole ?_
    calc 2 = 2 ^ 1 := rfl
      _ ≤ 2 ^ (e + 1) := Nat.pow_le_pow_right (by norm_num) (by omega)
  have unit : n.log2 - 52 = e + 1 := by omega
  have below : n / 2 ^ (e + 1) * 2 ^ (e + 1) ≤ nearest n := by
    simp only [nearest, unit]
    refine Nat.mul_le_mul_right _ ?_
    split_ifs
    · exact Nat.le_succ _
    · exact le_rfl
  unfold maxSafe
  omega

theorem nearest_safe_iff : nearest n ≤ maxSafe ↔ n ≤ maxSafe := by
  constructor
  · intro safe
    by_contra large
    exact absurd (le_nearest_of_large (not_le.mp large)) (not_lt.mpr safe)
  · intro small
    rw [nearest_of_small small]
    exact small

theorem maxSafe_lt_shift (k : ℕ) : maxSafe < (2 ^ 54 - 1) * 2 ^ k :=
  calc maxSafe < (2 ^ 54 - 1) * 1 := by decide
    _ ≤ (2 ^ 54 - 1) * 2 ^ k := Nat.mul_le_mul_left _ (Nat.two_pow_pos k)

theorem maxSafe_lt_overflow : maxSafe < overflow := maxSafe_lt_shift 970

theorem ofNat_of_small (small : n ≤ maxSafe) : ofNat n = some n := by
  rw [ofNat, if_pos (lt_of_le_of_lt small maxSafe_lt_overflow), nearest_of_small small]

theorem ofNat_eq_none_iff : ofNat n = none ↔ overflow ≤ n := by
  unfold ofNat
  split_ifs with finite
  · exact ⟨(fun h => nomatch h), fun large => absurd finite (not_lt.mpr large)⟩
  · exact ⟨fun _ => not_lt.mp finite, fun _ => rfl⟩

theorem ofNat_safe_iff {k : ℕ} : (ofNat n = some k ∧ k ≤ maxSafe) ↔ n = k ∧ n ≤ maxSafe := by
  constructor
  · rintro ⟨read, safe⟩
    unfold ofNat at read
    split_ifs at read
    cases read
    have small := nearest_safe_iff.mp safe
    exact ⟨(nearest_of_small small).symm, small⟩
  · rintro ⟨rfl, small⟩
    exact ⟨ofNat_of_small small, small⟩

end DoubleIntegers
