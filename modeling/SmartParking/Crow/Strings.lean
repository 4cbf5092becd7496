import SmartParking.Crow.Json

/-! # The strings Crow reads

`decode_string` takes every byte but 0 between its quotes, with the escapes of JSON, and
ends at the first quote that no backslash takes.
-/
namespace SmartParking.Crow
open Foundation.JsonText Foundation.JsonString

inductive IsBody : List UInt8 → Prop
  | nil : IsBody []
  | raw {c : UInt8} {body : List UInt8} (hquote : c ≠ quote) (hbackslash : c ≠ backslash) (hzero : c ≠ 0)
      (h : IsBody body) : IsBody (c :: body)
  | short {letter : UInt8} {body : List UInt8} (hletter : letter ∈ escapeLetters) (h : IsBody body) :
      IsBody (backslash :: letter :: body)
  | unit {d₁ d₂ d₃ d₄ : UInt8} {body : List UInt8} (h₁ : check d₁ = true) (h₂ : check d₂ = true)
      (h₃ : check d₃ = true) (h₄ : check d₄ = true) (h : IsBody body) :
      IsBody (backslash :: 0x75 :: d₁ :: d₂ :: d₃ :: d₄ :: body)

theorem check_ne {c : UInt8} (h : check c = true) : c ≠ quote ∧ c ≠ backslash ∧ c ≠ 0 := by
  refine ⟨?_, ?_, ?_⟩ <;> (rintro rfl; exact absurd h (by decide))

theorem IsBody.enclosed {body : List UInt8} (h : IsBody body) : Enclosed body := by
  induction h with
  | nil => exact Enclosed.nil
  | raw hquote hbackslash _ _ ih => exact Enclosed.raw hquote hbackslash ih
  | short _ _ ih => exact Enclosed.escape _ ih
  | unit h₁ h₂ h₃ h₄ _ ih =>
    have hdigit : ∀ d text, check d = true → Enclosed text → Enclosed (d :: text) := by
      intro d text hd htext
      exact Enclosed.raw (check_ne hd).1 (check_ne hd).2.1 htext
    exact Enclosed.escape _ (hdigit _ _ h₁ (hdigit _ _ h₂ (hdigit _ _ h₃ (hdigit _ _ h₄ ih))))

theorem decodeStringLoop_sound {data body rest : List UInt8} (h : decodeStringLoop data = some (body, rest)) :
    data = body ++ quote :: rest ∧ IsBody body := by
  fun_induction decodeStringLoop data generalizing body rest with
  | case1 => contradiction
  | case2 c data hraw ih =>
    obtain ⟨⟨body', rest'⟩, hloop, heq⟩ := Option.map_eq_some_iff.mp h
    obtain ⟨rfl, rfl⟩ := Prod.mk.inj heq
    obtain ⟨rfl, hbody⟩ := ih hloop
    exact ⟨rfl, IsBody.raw hraw.1 hraw.2.1 hraw.2.2 hbody⟩
  | case3 data =>
    obtain ⟨rfl, rfl⟩ := Prod.mk.inj (Option.some.inj h)
    exact ⟨rfl, IsBody.nil⟩
  | case4 => contradiction
  | case5 d₁ d₂ d₃ d₄ data hcheck _ _ ih =>
    obtain ⟨⟨body', rest'⟩, hloop, heq⟩ := Option.map_eq_some_iff.mp h
    obtain ⟨rfl, rfl⟩ := Prod.mk.inj heq
    obtain ⟨rfl, hbody⟩ := ih hloop
    simp only [Bool.and_eq_true] at hcheck
    exact ⟨rfl, IsBody.unit hcheck.1.1.1 hcheck.1.1.2 hcheck.1.2 hcheck.2 hbody⟩
  | case6 => contradiction
  | case7 => contradiction
  | case8 letter data _ hletter _ _ ih =>
    obtain ⟨⟨body', rest'⟩, hloop, heq⟩ := Option.map_eq_some_iff.mp h
    obtain ⟨rfl, rfl⟩ := Prod.mk.inj heq
    obtain ⟨rfl, hbody⟩ := ih hloop
    exact ⟨rfl, IsBody.short hletter hbody⟩
  | case9 => contradiction
  | case10 => contradiction

theorem escapeLetters_ne_u : ∀ letter ∈ escapeLetters, letter ≠ 0x75 := by decide

theorem decodeStringLoop_complete {body : List UInt8} (h : IsBody body) (rest : List UInt8) :
    decodeStringLoop (body ++ quote :: rest) = some (body, rest) := by
  have hbackslash : backslash ≠ quote := by decide
  induction h with
  | nil =>
    rw [List.nil_append, decodeStringLoop.eq_def]
    simp
  | raw hquote hslash hzero _ ih =>
    rw [List.cons_append, decodeStringLoop.eq_def]
    simp only [hquote, hslash, hzero, ne_eq, not_false_eq_true, and_self, if_true, ih, Option.map_some]
  | short hletter _ ih =>
    rw [List.cons_append, List.cons_append, decodeStringLoop.eq_def]
    simp only [hbackslash, escapeLetters_ne_u _ hletter, hletter, ne_eq, not_true_eq_false, false_and, and_false,
      if_false, if_true, ih, Option.map_some]
  | unit h₁ h₂ h₃ h₄ _ ih =>
    simp only [List.cons_append]
    rw [decodeStringLoop.eq_def]
    simp only [hbackslash, h₁, h₂, h₃, h₄, ne_eq, not_true_eq_false, false_and, and_false, if_false, if_true,
      Bool.and_self, ih, Option.map_some]

/-- `decode_string` reads a quoted body, and only that. -/
theorem decodeString_eq_some_iff {data body rest : List UInt8} :
    decodeString data = some (body, rest) ↔ data = quoted body ++ rest ∧ IsBody body := by
  rw [decodeString, Option.bind_eq_bind, Option.bind_eq_some_iff]
  constructor
  · rintro ⟨data', hconsume, hloop⟩
    obtain ⟨rfl, hbody⟩ := decodeStringLoop_sound hloop
    rw [consume_eq_some hconsume (by decide)]
    exact ⟨by simp [quoted], hbody⟩
  · rintro ⟨rfl, hbody⟩
    refine ⟨body ++ quote :: rest, ?_, decodeStringLoop_complete hbody rest⟩
    simp [quoted, consume_cons]

end SmartParking.Crow
