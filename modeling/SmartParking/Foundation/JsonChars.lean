import SmartParking.Foundation.JsonString

/-! # Putting string bodies together and reading them

Bodies of string tokens from raw bytes and from other bodies, and a reader of them.
-/
namespace Foundation.JsonString

/-- A byte that stands for itself. -/
def IsRaw (b : UInt8) : Prop := 0x20 ≤ b ∧ b ≠ quote ∧ b ≠ backslash

instance (b : UInt8) : Decidable (IsRaw b) := instDecidableAnd

theorem isChars_raw {text : List UInt8} (h : ∀ b ∈ text, IsRaw b) : IsChars text (text.map UInt8.toNat) := by
  induction text with
  | nil => exact IsChars.nil
  | cons b text ih =>
    obtain ⟨⟨hcontrol, hquote, hbackslash⟩, hrest⟩ := List.forall_mem_cons.mp h
    exact IsChars.cons (IsChar.raw b hcontrol hquote hbackslash) (ih hrest)

theorem IsChars.append {text text' : List UInt8} {vs vs' : List ℕ} (h : IsChars text vs) (h' : IsChars text' vs') :
    IsChars (text ++ text') (vs ++ vs') := by
  induction h with
  | nil => exact h'
  | cons hc _ ih =>
    rw [List.append_assoc, List.cons_append]
    exact IsChars.cons hc ih

def shortValue (letter : UInt8) : Option ℕ := (shortEscapes.find? fun p => p.1 == letter).map Prod.snd

def unitValue (d₁ d₂ d₃ d₄ : UInt8) : Option ℕ := do
  let v₁ ← hexValue d₁
  let v₂ ← hexValue d₂
  let v₃ ← hexValue d₃
  let v₄ ← hexValue d₄
  some (((v₁ * 16 + v₂) * 16 + v₃) * 16 + v₄)

/-- The values of the characters of a body. -/
def readChars : List UInt8 → Option (List ℕ)
  | [] => some []
  | c :: text =>
    if c = backslash then
      match text with
      | [] => none
      | letter :: text =>
        if letter = 0x75 then
          match text with
          | d₁ :: d₂ :: d₃ :: d₄ :: text => do
            let v ← unitValue d₁ d₂ d₃ d₄
            let vs ← readChars text
            some (v :: vs)
          | _ => none
        else do
          let v ← shortValue letter
          let vs ← readChars text
          some (v :: vs)
    else if IsRaw c then do
      let vs ← readChars text
      some (c.toNat :: vs)
    else none

theorem shortEscapes_shortValue : ∀ p ∈ shortEscapes, shortValue p.1 = some p.2 := by decide

theorem readChars_char {c : List UInt8} {v : ℕ} (h : IsChar c v) (text : List UInt8) :
    readChars (c ++ text) = (readChars text).map (v :: ·) := by
  cases h with
  | raw b hcontrol hquote hbackslash =>
    rw [List.singleton_append, readChars.eq_def]
    dsimp only
    rw [if_neg hbackslash, if_pos ⟨hcontrol, hquote, hbackslash⟩]
    cases readChars text <;> rfl
  | short letter v h =>
    rw [List.cons_append, List.singleton_append, readChars.eq_def]
    dsimp only
    rw [if_pos rfl, if_neg (shortEscapes_printable _ h).2, shortEscapes_shortValue _ h]
    cases readChars text <;> rfl
  | unit d₁ d₂ d₃ d₄ v₁ v₂ v₃ v₄ h₁ h₂ h₃ h₄ =>
    have hvalue : unitValue d₁ d₂ d₃ d₄ = some (((v₁ * 16 + v₂) * 16 + v₃) * 16 + v₄) := by
      simp only [unitValue, h₁, h₂, h₃, h₄, Option.bind_eq_bind, Option.bind_some]
    simp only [List.cons_append, List.nil_append]
    rw [readChars.eq_def]
    dsimp only
    rw [if_pos rfl, if_pos rfl, hvalue]
    cases readChars text <;> rfl

theorem IsChars.readChars {text : List UInt8} {vs : List ℕ} (h : IsChars text vs) : readChars text = some vs := by
  induction h with
  | nil => rfl
  | cons hc _ ih => rw [readChars_char hc, ih, Option.map_some]

end Foundation.JsonString
