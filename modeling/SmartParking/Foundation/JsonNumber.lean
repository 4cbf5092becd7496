import SmartParking.Foundation.JsonText

/-! # The numbers of JSON

A sign, an integer without leading zeros, a fraction and an exponent, where all but the
integer may be missing. With the string bodies of JSON they make the standard dialect.
-/
namespace Foundation.JsonNumber
open JsonString JsonText

def AllDigits (ds : List UInt8) : Prop := ∀ d ∈ ds, d ∈ digitChars

def IsSign (sign : List UInt8) : Prop := sign = [] ∨ sign = [0x2D]

/-- A zero, or digits of which the first one is no zero. -/
inductive IsInteger : List UInt8 → Prop
  | zero : IsInteger [0x30]
  | digits {d : UInt8} {ds : List UInt8} (hd : d ∈ digitChars) (hzero : d ≠ 0x30) (hds : AllDigits ds) :
      IsInteger (d :: ds)

inductive IsFraction : List UInt8 → Prop
  | none : IsFraction []
  | point {d : UInt8} {ds : List UInt8} (hds : AllDigits (d :: ds)) : IsFraction (0x2E :: d :: ds)

def IsE (e : UInt8) : Prop := e = 0x65 ∨ e = 0x45

inductive IsExponent : List UInt8 → Prop
  | none : IsExponent []
  | e {e d : UInt8} {sign ds : List UInt8} (he : IsE e) (hsign : sign = [] ∨ sign = [0x2B] ∨ sign = [0x2D])
      (hds : AllDigits (d :: ds)) : IsExponent (e :: (sign ++ d :: ds))

inductive IsNumber : List UInt8 → Prop
  | mk {sign integer fraction exponent : List UInt8} (hsign : IsSign sign) (hinteger : IsInteger integer)
      (hfraction : IsFraction fraction) (hexponent : IsExponent exponent) :
      IsNumber (sign ++ (integer ++ (fraction ++ exponent)))

theorem digitChars_numberChars : ∀ d ∈ digitChars, d ∈ numberChars := by decide

theorem AllDigits.chars {ds : List UInt8} (h : AllDigits ds) : ∀ b ∈ ds, b ∈ numberChars :=
  fun b hb => digitChars_numberChars b (h b hb)

theorem IsSign.chars {sign : List UInt8} (h : IsSign sign) : ∀ b ∈ sign, b ∈ numberChars := by
  rcases h with rfl | rfl <;> decide

theorem IsInteger.allDigits {integer : List UInt8} (h : IsInteger integer) : AllDigits integer := by
  cases h with
  | zero => unfold AllDigits; decide
  | digits hd _ hds => exact List.forall_mem_cons.mpr ⟨hd, hds⟩

theorem IsInteger.ne_nil {integer : List UInt8} (h : IsInteger integer) : integer ≠ [] := by
  cases h <;> exact List.cons_ne_nil _ _

theorem IsE.mem_numberChars {e : UInt8} (h : IsE e) : e ∈ numberChars := by
  rcases h with rfl | rfl <;> decide

theorem IsFraction.chars {fraction : List UInt8} (h : IsFraction fraction) : ∀ b ∈ fraction, b ∈ numberChars := by
  cases h with
  | none => exact fun b hb => absurd hb List.not_mem_nil
  | point hds => exact List.forall_mem_cons.mpr ⟨by decide, hds.chars⟩

theorem IsExponent.chars {exponent : List UInt8} (h : IsExponent exponent) : ∀ b ∈ exponent, b ∈ numberChars := by
  cases h with
  | none => exact fun b hb => absurd hb List.not_mem_nil
  | e he hsign hds =>
    simp only [List.forall_mem_cons, List.forall_mem_append]
    refine ⟨he.mem_numberChars, ?_, List.forall_mem_cons.mp hds.chars⟩
    rcases hsign with rfl | rfl | rfl <;> decide

theorem IsNumber.chars {token : List UInt8} (h : IsNumber token) : ∀ b ∈ token, b ∈ numberChars := by
  cases h with
  | mk hsign hinteger hfraction hexponent =>
    simp only [List.forall_mem_append]
    exact ⟨hsign.chars, hinteger.allDigits.chars, hfraction.chars, hexponent.chars⟩

theorem IsNumber.ne_nil {token : List UInt8} (h : IsNumber token) : token ≠ [] := by
  cases h with
  | mk _ hinteger _ _ => simp [hinteger.ne_nil]

/-- A character of a string, with what comes after it. -/
theorem enclosed_char {c body : List UInt8} {v : ℕ} (hc : IsChar c v) (h : Enclosed body) : Enclosed (c ++ body) := by
  have hraw : ∀ d text, hexValue d ≠ none → Enclosed text → Enclosed (d :: text) := by
    intro d text hd htext
    refine Enclosed.raw ?_ ?_ htext
    · rintro rfl
      exact hd (by decide)
    · rintro rfl
      exact hd (by decide)
  cases hc with
  | raw b _ hquote hbackslash => exact Enclosed.raw hquote hbackslash h
  | short letter => exact Enclosed.escape letter h
  | unit d₁ d₂ d₃ d₄ v₁ v₂ v₃ v₄ h₁ h₂ h₃ h₄ =>
    exact Enclosed.escape _ (hraw _ _ (by simp [h₁]) (hraw _ _ (by simp [h₂]) (hraw _ _ (by simp [h₃])
      (hraw _ _ (by simp [h₄]) h))))

theorem enclosed_chars {body : List UInt8} {vs : List ℕ} (h : IsChars body vs) : Enclosed body := by
  induction h with
  | nil => exact Enclosed.nil
  | cons hc _ ih => exact enclosed_char hc ih

/-- JSON itself, over bytes that need not be UTF-8. -/
def standard : Dialect where
  IsNumber := IsNumber
  IsBody body := ∃ vs, IsChars body vs
  number_ne_nil _ h := h.ne_nil
  number_chars _ h := h.chars
  body_enclosed _ h := enclosed_chars h.choose_spec

end Foundation.JsonNumber
