import Mathlib.Data.Rat.Floor
import SmartParking.Foundation.Rounding
import SmartParking.Server.ZoneHandlers

/-! # Rounded percentages

`roundPercent` multiplies before it divides, in `int`. It rounds correctly as long as the
sum it divides fits, which is not so for every count the handlers can pass it.
-/
namespace SmartParking.Server
open Foundation.Rounding

variable {numerator denominator occupied total : ℤ}

theorem signed_of_lt (h : 0 ≤ numerator) (hlt : numerator < 2 ^ 31) : signed numerator = some numerator := by
  apply if_pos
  omega

theorem signed_of_le (h : 2 ^ 31 ≤ numerator) : signed numerator = none := by
  apply if_neg
  omega

/-- Where the sum fits, nothing overflows. -/
theorem roundPercent_fits (hn : 0 ≤ numerator) (hd : 0 < denominator)
    (hfits : numerator * 100 + denominator / 2 < 2 ^ 31) :
    roundPercent numerator denominator = some (round ((100 * numerator : ℚ) / denominator)) := by
  have hhalf : denominator.tdiv 2 = denominator / 2 := Int.tdiv_eq_ediv_of_nonneg hd.le
  have hsum : (numerator * 100 + denominator / 2).tdiv denominator =
      (numerator * 100 + denominator / 2) / denominator := Int.tdiv_eq_ediv_of_nonneg (by omega)
  have hquotient : 0 ≤ (numerator * 100 + denominator / 2) / denominator :=
    Int.ediv_nonneg (by omega) hd.le
  have hle : (numerator * 100 + denominator / 2) / denominator ≤ numerator * 100 + denominator / 2 :=
    Int.ediv_le_self _ (by omega)
  have hround : round ((100 * numerator : ℚ) / denominator) =
      (numerator * 100 + denominator / 2) / denominator := by
    rw [← round_div ℚ hd]
    push_cast
    rw [mul_comm]
  rw [roundPercent, if_neg (by omega), signed_of_lt (by omega) (by omega), hhalf, hround]
  dsimp only [Option.bind_eq_bind, Option.bind_some]
  rw [signed_of_lt (by omega) hfits, Option.bind_some, hsum, signed_of_lt hquotient (by omega)]

theorem roundPercent_overflows (hn : 0 ≤ numerator) (hd : 0 < denominator)
    (hover : 2 ^ 31 ≤ numerator * 100 + denominator / 2) : roundPercent numerator denominator = none := by
  have hhalf : denominator.tdiv 2 = denominator / 2 := Int.tdiv_eq_ediv_of_nonneg hd.le
  rw [roundPercent, if_neg (by omega), hhalf]
  by_cases hproduct : numerator * 100 < 2 ^ 31
  · rw [signed_of_lt (by omega) hproduct]
    dsimp only [Option.bind_eq_bind, Option.bind_some]
    rw [signed_of_le hover]
    rfl
  · rw [signed_of_le (by omega)]
    rfl

theorem roundPercent_zero (numerator : ℤ) : roundPercent numerator 0 = some 0 := rfl

theorem round_percent_mono {fewer : ℤ} (ht : 0 < total) (h : fewer ≤ occupied) :
    round ((100 * fewer : ℚ) / total) ≤ round ((100 * occupied : ℚ) / total) := by
  have htotal : (0 : ℚ) < total := by exact_mod_cast ht
  have hle : (fewer : ℚ) ≤ occupied := by exact_mod_cast h
  apply round_mono ℚ
  gcongr

theorem round_percent_none (total : ℤ) : round ((100 * (0 : ℤ) : ℚ) / total) = 0 := by simp

theorem round_percent_all (ht : 0 < total) : round ((100 * total : ℚ) / total) = 100 := by
  have htotal : (total : ℚ) ≠ 0 := by exact_mod_cast ht.ne'
  rw [mul_div_cancel_right₀ _ htotal]
  exact round_intCast 100

/-- `roundPercent` has a value for the two counts, and it is the right one. -/
def RoundsRight (occupied total : ℤ) : Prop :=
  ∃ percent, roundPercent occupied total = some percent ∧
    (total = 0 → percent = 0) ∧
    (0 < total → percent = round ((100 * occupied : ℚ) / total)) ∧
    0 ≤ percent ∧ percent ≤ 100 ∧
    (occupied = total → 0 < total → percent = 100) ∧
    ∀ fewer, 0 ≤ fewer → fewer ≤ occupied →
      ∃ percent', roundPercent fewer total = some percent' ∧ percent' ≤ percent

theorem roundsRight_zero : RoundsRight 0 0 := by
  refine ⟨0, roundPercent_zero 0, fun _ => rfl, by omega, by omega, by omega, by omega, ?_⟩
  intro fewer _ _
  exact ⟨0, roundPercent_zero fewer, Int.le_refl 0⟩

theorem roundsRight_of_fits (h : 0 ≤ occupied) (hle : occupied ≤ total) (ht : 0 < total)
    (hfits : occupied * 100 + total / 2 < 2 ^ 31) : RoundsRight occupied total := by
  refine ⟨_, roundPercent_fits h ht hfits, by omega, fun _ => rfl, ?_, ?_, ?_, ?_⟩
  · have hmono := round_percent_mono ht h
    rwa [round_percent_none] at hmono
  · have hmono := round_percent_mono ht hle
    rwa [round_percent_all ht] at hmono
  · rintro rfl -
    exact round_percent_all ht
  · intro fewer hfewer hless
    exact ⟨_, roundPercent_fits hfewer ht (by omega), round_percent_mono ht hless⟩

/-- For the counts of a zone or of a system, `roundPercent` is right exactly when its sum
fits into an `int`. -/
theorem roundPercent_right_iff (occupied total : ℤ) (h : 0 ≤ occupied) (hle : occupied ≤ total) :
    RoundsRight occupied total ↔ occupied * 100 + total / 2 < 2 ^ 31 := by
  rcases (Int.le_trans h hle).eq_or_lt with rfl | ht
  · obtain rfl : occupied = 0 := by omega
    exact iff_of_true roundsRight_zero (by decide)
  · constructor
    · rintro ⟨percent, hpercent, -⟩
      by_contra hover
      rw [roundPercent_overflows h ht (by omega)] at hpercent
      contradiction
    · exact roundsRight_of_fits h hle ht

/-- Two of three slots. -/
theorem roundPercent_right_two_of_three : RoundsRight 2 3 :=
  (roundPercent_right_iff 2 3 (by decide) (by decide)).mpr (by decide)

/-- A full zone of 21474837 slots. -/
theorem roundPercent_wrong : ¬ RoundsRight 21474837 21474837 := by
  rintro ⟨percent, hpercent, -⟩
  have hnone : roundPercent 21474837 21474837 = none := by decide
  rw [hnone] at hpercent
  contradiction

end SmartParking.Server
