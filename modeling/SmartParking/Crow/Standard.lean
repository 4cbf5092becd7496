import SmartParking.Crow.Language
import SmartParking.Foundation.JsonInteger
import SmartParking.Foundation.JsonWrite

/-! # Crow and JSON

On a text that is JSON, `load` goes wrong in two ways only: it refuses a number with an
exponent right after a leading zero, and containers that nest more than 5000 deep.
-/
namespace SmartParking.Crow
open Foundation Foundation.JsonText Foundation.JsonString
open Foundation.JsonNumber hiding IsNumber
open NumberParsingState

def HasZeroExponent (token : List UInt8) : Prop :=
  ∃ sign e rest, IsSign sign ∧ IsE e ∧ token = sign ++ 0x30 :: e :: rest

theorem IsFraction.loose {fraction : List UInt8} (h : IsFraction fraction) : LooseFraction fraction := by
  cases h with
  | none => exact LooseFraction.none
  | point hds => exact LooseFraction.point hds

theorem IsExponent.loose {exponent : List UInt8} (h : IsExponent exponent) : LooseExponent exponent := by
  cases h with
  | none => exact LooseExponent.none
  | e he hsign hds =>
    rcases hsign with rfl | rfl | rfl
    · have hd := List.forall_mem_cons.mp hds
      exact LooseExponent.e he (Or.inl hd.1) hd.2
    · exact LooseExponent.e he (Or.inr (Or.inl rfl)) hds
    · exact LooseExponent.e he (Or.inr (Or.inr rfl)) hds

theorem not_isNumber_of_hasZeroExponent {token : List UInt8} (h : HasZeroExponent token) : ¬ IsNumber token := by
  obtain ⟨sign, e, rest, hsign, he, rfl⟩ := h
  have hinvalid : next zeroFirst e = invalid := by rcases he with rfl | rfl <;> rfl
  have hzero : ∀ state, next state 0x30 = zeroFirst → ¬ AcceptsFrom state (0x30 :: e :: rest) := by
    intro state hstate h
    rw [acceptsFrom_cons, acceptsFrom_cons, hstate, hinvalid] at h
    exact not_acceptsFrom_invalid h.2.2
  rw [← acceptsFrom_minus]
  rcases hsign with rfl | rfl
  · exact hzero minus rfl
  · rw [List.cons_append, List.nil_append, acceptsFrom_cons]
    exact fun h => hzero _ rfl h.2

/-- Which numbers of JSON Crow reads. -/
theorem isNumber_iff {token : List UInt8} (h : JsonNumber.IsNumber token) :
    IsNumber token ↔ ¬ HasZeroExponent token := by
  constructor
  · exact fun hnumber hzero => not_isNumber_of_hasZeroExponent hzero hnumber
  · intro hzero
    obtain @⟨sign, integer, fraction, exponent, hsign, hinteger, hfraction, hexponent⟩ := h
    refine IsNumber.mk hsign hinteger (IsFraction.loose hfraction) (IsExponent.loose hexponent) ?_
    rintro rfl rfl
    cases hexponent with
    | none => rfl
    | e he _ _ => exact absurd ⟨sign, _, _, hsign, he, rfl⟩ hzero

theorem check_of_hexValue {c : UInt8} {v : ℕ} (h : hexValue c = some v) : check c = true := by
  unfold hexValue at h
  unfold check
  split at h
  · next hc => simp [hc.1, hc.2]
  split at h
  · next hc => simp [hc.1, hc.2]
  split at h
  · next hc => simp [hc.1, hc.2]
  · contradiction

theorem isBody_of_isChars {body : List UInt8} {vs : List ℕ} (h : IsChars body vs) : IsBody body := by
  induction h with
  | nil => exact IsBody.nil
  | cons hc _ ih =>
    cases hc with
    | raw b hcontrol hquote hbackslash =>
      refine IsBody.raw hquote hbackslash ?_ ih
      rintro rfl
      exact absurd hcontrol (by decide)
    | short letter v hmem =>
      have hletters : ∀ p ∈ shortEscapes, p.1 ∈ escapeLetters := by decide
      exact IsBody.short (hletters _ hmem) ih
    | unit d₁ d₂ d₃ d₄ v₁ v₂ v₃ v₄ h₁ h₂ h₃ h₄ =>
      exact IsBody.unit (check_of_hexValue h₁) (check_of_hexValue h₂) (check_of_hexValue h₃) (check_of_hexValue h₄) ih

/-- JSON without an exponent after a leading zero. -/
def common : Dialect where
  IsNumber token := JsonNumber.IsNumber token ∧ ¬ HasZeroExponent token
  IsBody := standard.IsBody
  number_ne_nil token h := standard.number_ne_nil token h.1
  number_chars token h := standard.number_chars token h.1
  body_enclosed := standard.body_enclosed

theorem isBody_of_standard {body : List UInt8} (h : standard.IsBody body) : IsBody body :=
  isBody_of_isChars h.choose_spec

theorem fits_common_iff {n m : ℕ} {t : Tree} (h : t.Fits standard n) : t.Fits dialect m ↔ t.Fits common m := by
  have hto : ∀ token, standard.IsNumber token → dialect.IsNumber token → common.IsNumber token :=
    fun _ hnumber hcrow => ⟨hnumber, (isNumber_iff hnumber).mp hcrow⟩
  have hfrom : ∀ token, standard.IsNumber token → common.IsNumber token → dialect.IsNumber token :=
    fun _ hnumber hcommon => (isNumber_iff hnumber).mpr hcommon.2
  constructor
  · exact h.and hto fun _ hbody _ => hbody
  · exact h.and hfrom fun _ hbody _ => isBody_of_standard hbody

theorem cString_of_standard {n : ℕ} {data : List UInt8} {t : Tree} (h : IsDocument standard n data t) :
    cString data = data := by
  have hbytes : ∀ b ∈ data, b ≠ 0 := h.bytes (by decide) fun _ hbody => (isBody_of_standard hbody).ne_zero
  have hcut : cString (data ++ []) = data := cString_append hbytes rfl
  rwa [List.append_nil] at hcut

/-- Of the texts that are JSON, `load` reads those that do not nest too deep and have no
exponent after a leading zero, and refuses the others. -/
theorem load_of_standard {n : ℕ} {data : List UInt8} {t : Tree} (h : IsDocument standard n data t) :
    (t.Fits common 5000 → load data = some t) ∧ (¬ t.Fits common 5000 → load data = none) := by
  constructor
  · intro hfits
    rw [load_eq_some_iff, cString_of_standard h]
    exact h.retype ((fits_common_iff h.fits).mpr hfits)
  · intro hfits
    by_contra hsome
    obtain ⟨t', hload⟩ := Option.ne_none_iff_exists'.mp hsome
    have hdocument := (load_eq_some_iff data t').mp hload
    rw [cString_of_standard h] at hdocument
    obtain rfl := h.unique hdocument
    exact hfits ((fits_common_iff h.fits).mp hdocument.fits)

/-- The number `0e1` is JSON and is refused. -/
theorem load_zeroExponent : load [0x30, 0x65, 0x31] = none := by
  have hdigits : AllDigits [0x31] := by unfold AllDigits; decide
  have hexponent : IsExponent (0x65 :: ([] ++ [0x31])) := IsExponent.e (Or.inl rfl) (Or.inl rfl) hdigits
  have hnumber : JsonNumber.IsNumber [0x30, 0x65, 0x31] :=
    JsonNumber.IsNumber.mk (Or.inl rfl) IsInteger.zero IsFraction.none hexponent
  have hdocument : IsDocument standard 0 [0x30, 0x65, 0x31] (.number [0x30, 0x65, 0x31]) :=
    padded (IsLeaf.number hnumber)
  refine (load_of_standard hdocument).2 fun hfits => ?_
  exact hfits.2 ⟨[], 0x65, [0x31], Or.inl rfl, Or.inl rfl, rfl⟩

theorem isNumber_integerText (n : ℤ) : IsNumber (integerText n) := by
  rw [isNumber_iff (JsonNumber.isNumber_integerText n)]
  rintro ⟨sign, e, rest, hsign, he, htext⟩
  have hmem : e ∈ integerText n := by simp [htext]
  have hdigits : ∀ b ∈ integerText n, b = 0x2D ∨ b ∈ digitChars := by
    unfold integerText
    have hall := (isInteger_natText n.natAbs).allDigits
    split
    · exact List.forall_mem_cons.mpr ⟨Or.inl rfl, fun b hb => Or.inr (hall b hb)⟩
    · exact fun b hb => Or.inr (hall b hb)
  have hneither : ¬ (e = 0x2D ∨ e ∈ digitChars) := by
    rcases he with rfl | rfl <;> decide
  exact hneither (hdigits e hmem)

end SmartParking.Crow
