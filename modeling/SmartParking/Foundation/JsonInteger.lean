import Mathlib.Tactic.Common
import SmartParking.Foundation.JsonNumber

/-! # Integers as JSON numbers

The decimal text of an integer is a number of JSON, and can be read back.
-/
namespace Foundation.JsonNumber
open JsonText

def natText (n : ℕ) : List UInt8 := (Nat.toDigits 10 n).map Char.toUInt8

def integerText (n : ℤ) : List UInt8 := if n < 0 then 0x2D :: natText n.natAbs else natText n.natAbs

def digitsValue (ds : List UInt8) : ℕ := ds.foldl (fun n d => n * 10 + (d.toNat - 0x30)) 0

def digit (d : ℕ) : UInt8 := (Nat.digitChar d).toUInt8

theorem digit_value : ∀ d < 10, digit d ∈ digitChars ∧ (digit d).toNat - 0x30 = d ∧ (digit d = 0x30 ↔ d = 0) := by
  decide

theorem natText_of_lt {n : ℕ} (h : n < 10) : natText n = [digit n] := by
  rw [natText, Nat.toDigits_of_lt_base h]
  rfl

theorem natText_of_le {n : ℕ} (h : 10 ≤ n) : natText n = natText (n / 10) ++ [digit (n % 10)] := by
  rw [natText, Nat.toDigits_of_base_le (by decide) h, List.map_append]
  rfl

theorem digitsValue_append (ds : List UInt8) (d : UInt8) :
    digitsValue (ds ++ [d]) = digitsValue ds * 10 + (d.toNat - 0x30) := by
  rw [digitsValue, List.foldl_append]
  rfl

theorem digitsValue_natText (n : ℕ) : digitsValue (natText n) = n := by
  induction n using Nat.strong_induction_on with
  | _ n ih =>
    by_cases h : n < 10
    · rw [natText_of_lt h]
      have hvalue := (digit_value n h).2.1
      simpa [digitsValue] using hvalue
    · have hlt : n % 10 < 10 := by omega
      rw [natText_of_le (by omega), digitsValue_append, ih (n / 10) (by omega), (digit_value _ hlt).2.1]
      omega

/-- The text of a positive number starts with a digit that is no zero. -/
theorem natText_pos {n : ℕ} (h : 0 < n) :
    ∃ d ds, natText n = d :: ds ∧ d ∈ digitChars ∧ d ≠ 0x30 ∧ AllDigits ds := by
  induction n using Nat.strong_induction_on with
  | _ n ih =>
    by_cases hlt : n < 10
    · obtain ⟨hmem, -, hzero⟩ := digit_value n hlt
      exact ⟨digit n, [], natText_of_lt hlt, hmem, hzero.not.mpr (by omega), by simp [AllDigits]⟩
    · obtain ⟨d, ds, htext, hd, hzero, hds⟩ := ih (n / 10) (by omega) (by omega)
      have hlast := (digit_value (n % 10) (by omega)).1
      refine ⟨d, ds ++ [digit (n % 10)], by rw [natText_of_le (by omega), htext, List.cons_append], hd, hzero, ?_⟩
      exact List.forall_mem_append.mpr ⟨hds, by simpa using hlast⟩

theorem isInteger_natText (n : ℕ) : IsInteger (natText n) := by
  rcases Nat.eq_zero_or_pos n with rfl | hpos
  · exact IsInteger.zero
  · obtain ⟨d, ds, htext, hd, hzero, hds⟩ := natText_pos hpos
    rw [htext]
    exact IsInteger.digits hd hzero hds

theorem isNumber_of_isInteger {sign integer : List UInt8} (hsign : IsSign sign) (h : IsInteger integer) :
    IsNumber (sign ++ integer) := by
  have hnumber := IsNumber.mk hsign h IsFraction.none IsExponent.none
  rwa [List.append_nil, List.append_nil] at hnumber

theorem isNumber_integerText (n : ℤ) : IsNumber (integerText n) := by
  unfold integerText
  split
  · exact isNumber_of_isInteger (Or.inr rfl : IsSign [0x2D]) (isInteger_natText _)
  · exact isNumber_of_isInteger (Or.inl rfl : IsSign []) (isInteger_natText _)

instance (ds : List UInt8) : Decidable (AllDigits ds) := List.decidableBAll _ _

/-- The integer that an integer token stands for. -/
def integerValue : List UInt8 → Option ℤ
  | [] => none
  | c :: ds =>
    if c = 0x2D then if ds ≠ [] ∧ AllDigits ds then some (-digitsValue ds) else none
    else if AllDigits (c :: ds) then some (digitsValue (c :: ds)) else none

theorem integerValue_integerText (n : ℤ) : integerValue (integerText n) = some n := by
  have hdigits := (isInteger_natText n.natAbs).allDigits
  have hne := (isInteger_natText n.natAbs).ne_nil
  have hvalue := digitsValue_natText n.natAbs
  unfold integerText
  split
  · rw [integerValue, if_pos rfl, if_pos ⟨hne, hdigits⟩, hvalue]
    congr 1
    omega
  · obtain ⟨c, ds, htext⟩ := List.exists_cons_of_ne_nil hne
    rw [htext] at hdigits hvalue ⊢
    have hminus : c ≠ 0x2D := by
      rintro rfl
      exact absurd (hdigits _ List.mem_cons_self) (by decide)
    rw [integerValue, if_neg hminus, if_pos hdigits, hvalue]
    congr 1
    omega

end Foundation.JsonNumber
