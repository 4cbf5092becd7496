import Mathlib.Algebra.Order.Round
import Mathlib.Tactic.Linarith
import Mathlib.Tactic.FieldSimp

/-! # Rounding a quotient of integers

Adding half the denominator before an integer division rounds to the nearest integer,
halves upwards, whether the denominator is even or odd.
-/
namespace Foundation.Rounding
variable (K : Type*) [Field K] [LinearOrder K] [IsStrictOrderedRing K] [FloorRing K] {d : ℤ}

/-- Where the quotient lies, in twice the denominator. -/
theorem div_half_bounds (hd : 0 < d) (n : ℤ) :
    2 * (d * ((n + d / 2) / d)) ≤ 2 * n + d ∧ 2 * n + d < 2 * (d * ((n + d / 2) / d + 1)) := by
  have hlow : d * ((n + d / 2) / d) ≤ n + d / 2 := Int.mul_ediv_self_le hd.ne'
  have hhigh : n + d / 2 < d * ((n + d / 2) / d + 1) := by
    have hlt := Int.lt_mul_ediv_self_add (x := n + d / 2) hd
    rw [mul_add, mul_one]
    exact hlt
  omega

theorem round_div (hd : 0 < d) (n : ℤ) : round ((n : K) / d) = (n + d / 2) / d := by
  obtain ⟨hlow, hhigh⟩ := div_half_bounds hd n
  generalize (n + d / 2) / d = q at hlow hhigh ⊢
  have hpos : (0 : K) < d := Int.cast_pos.mpr hd
  have hlow' : 2 * ((d : K) * q) ≤ 2 * n + d := by exact_mod_cast hlow
  have hhigh' : 2 * (n : K) + d < 2 * (d * (q + 1)) := by exact_mod_cast hhigh
  rw [round_eq, Int.floor_eq_iff]
  have hsum : (n : K) / d + 1 / 2 = (2 * n + d) / (2 * d) := by
    field_simp
  rw [hsum]
  constructor
  · rw [le_div_iff₀ (by linarith)]
    linarith
  · rw [div_lt_iff₀ (by linarith)]
    linarith

theorem round_mono {x y : K} (h : x ≤ y) : round x ≤ round y := by
  rw [round_eq, round_eq]
  apply Int.floor_le_floor
  linarith

end Foundation.Rounding
