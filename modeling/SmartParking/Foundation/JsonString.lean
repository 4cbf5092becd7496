import Mathlib.Data.List.Basic
import Mathlib.Data.UInt

/-! # The strings of JSON

The grammar of string tokens over bytes: raw bytes, two-byte escapes and escapes that give
four hexadecimal digits. Bytes from 0x80 on are raw bytes, so a token need not be UTF-8. It
is read with the list of values it stands for. Reading from the left, at most one token can
be found, and what follows it is determined.
-/
namespace Foundation.JsonString

def quote : UInt8 := 0x22
def backslash : UInt8 := 0x5C

/-- The letter after a backslash, and what the two stand for. -/
def shortEscapes : List (UInt8 × ℕ) :=
  [(0x22, 0x22), (0x5C, 0x5C), (0x2F, 0x2F), (0x62, 0x08), (0x66, 0x0C), (0x6E, 0x0A), (0x72, 0x0D), (0x74, 0x09)]

def hexValue (digit : UInt8) : Option ℕ :=
  if 0x30 ≤ digit ∧ digit ≤ 0x39 then some (digit.toNat - 0x30)
  else if 0x41 ≤ digit ∧ digit ≤ 0x46 then some (digit.toNat - 0x37)
  else if 0x61 ≤ digit ∧ digit ≤ 0x66 then some (digit.toNat - 0x57)
  else none

/-- Going through a list of bytes comes before going through all bytes. -/
instance (priority := 2000) decidableForallMem (p : UInt8 → Prop) [DecidablePred p] (bytes : List UInt8) :
    Decidable (∀ b ∈ bytes, p b) := List.decidableBAll p bytes

/-- One character of a string, and its value. -/
inductive IsChar : List UInt8 → ℕ → Prop
  | raw (b : UInt8) (hcontrol : 0x20 ≤ b) (hquote : b ≠ quote) (hbackslash : b ≠ backslash) : IsChar [b] b.toNat
  | short (letter : UInt8) (v : ℕ) (h : (letter, v) ∈ shortEscapes) : IsChar [backslash, letter] v
  | unit (d₁ d₂ d₃ d₄ : UInt8) (v₁ v₂ v₃ v₄ : ℕ) (h₁ : hexValue d₁ = some v₁) (h₂ : hexValue d₂ = some v₂)
      (h₃ : hexValue d₃ = some v₃) (h₄ : hexValue d₄ = some v₄) :
      IsChar [backslash, 0x75, d₁, d₂, d₃, d₄] (((v₁ * 16 + v₂) * 16 + v₃) * 16 + v₄)

inductive IsChars : List UInt8 → List ℕ → Prop
  | nil : IsChars [] []
  | cons {c text : List UInt8} {v : ℕ} {vs : List ℕ} (hc : IsChar c v) (h : IsChars text vs) :
      IsChars (c ++ text) (v :: vs)

/-- A string token: characters between two quotes. -/
inductive IsString : List UInt8 → List ℕ → Prop
  | quoted {text : List UInt8} {vs : List ℕ} (h : IsChars text vs) : IsString (quote :: (text ++ [quote])) vs

theorem shortEscapes_unique : ∀ p ∈ shortEscapes, ∀ q ∈ shortEscapes, p.1 = q.1 → p.2 = q.2 := by decide

theorem shortEscapes_printable : ∀ p ∈ shortEscapes, 0x20 ≤ p.1 ∧ p.1 ≠ 0x75 := by decide

theorem hexValue_printable {digit : UInt8} {v : ℕ} (h : hexValue digit = some v) : 0x20 ≤ digit := by
  unfold hexValue at h
  simp only [UInt8.le_iff_toNat_le] at h ⊢
  split at h
  · simp_all; omega
  · split at h
    · simp_all; omega
    · simp_all; omega

theorem IsChar.printable {c : List UInt8} {v : ℕ} (h : IsChar c v) : ∀ b ∈ c, 0x20 ≤ b := by
  have hbackslash : (0x20 : UInt8) ≤ backslash := by decide
  cases h with
  | raw b hcontrol => simpa using hcontrol
  | short letter v h => simpa using ⟨hbackslash, (shortEscapes_printable _ h).1⟩
  | unit d₁ d₂ d₃ d₄ v₁ v₂ v₃ v₄ h₁ h₂ h₃ h₄ =>
    simpa using ⟨hbackslash, hexValue_printable h₁, hexValue_printable h₂, hexValue_printable h₃,
      hexValue_printable h₄⟩

/-- No token holds a control byte. -/
theorem IsChars.printable {text : List UInt8} {vs : List ℕ} (h : IsChars text vs) : ∀ b ∈ text, 0x20 ≤ b := by
  induction h with
  | nil => simp
  | cons hc _ ih =>
    intro b hb
    rcases List.mem_append.mp hb with hb | hb
    · exact hc.printable b hb
    · exact ih b hb

/-- The characters of a text written character by character. -/
theorem IsChars.of_flatMap {α : Type*} {write : α → List UInt8} {value : α → ℕ}
    (h : ∀ a, IsChar (write a) (value a)) (as : List α) : IsChars (as.flatMap write) (as.map value) := by
  induction as with
  | nil => exact IsChars.nil
  | cons a as ih =>
    rw [List.flatMap_cons, List.map_cons]
    exact IsChars.cons (h a) ih

/-- The first byte of a character does not close the string. -/
theorem IsChar.not_quote {c : List UInt8} {v : ℕ} (h : IsChar c v) {text rest : List UInt8} :
    c ++ text ≠ quote :: rest := by
  have hbackslash : backslash ≠ quote := by decide
  intro heq
  cases h with
  | raw b _ hquote _ => exact hquote (List.cons.inj heq).1
  | short => exact hbackslash (List.cons.inj heq).1
  | unit => exact hbackslash (List.cons.inj heq).1

/-- Which character a text starts with is determined. -/
theorem IsChar.unique {c c' text text' : List UInt8} {v v' : ℕ} (h : IsChar c v) (h' : IsChar c' v')
    (heq : c ++ text = c' ++ text') : v = v' ∧ text = text' := by
  cases h with
  | raw b hcontrol hquote hbackslash =>
    cases h' with
    | raw => simp_all
    | short => simp_all
    | unit => simp_all
  | short letter _ hl =>
    cases h' with
    | raw => simp_all
    | short letter' _ hl' =>
      simp only [List.cons_append, List.nil_append, List.cons.injEq, true_and] at heq
      exact ⟨shortEscapes_unique _ hl _ hl' heq.1, heq.2⟩
    | unit =>
      simp only [List.cons_append, List.nil_append, List.cons.injEq, true_and] at heq
      exact absurd heq.1 (shortEscapes_printable _ hl).2
  | unit d₁ d₂ d₃ d₄ v₁ v₂ v₃ v₄ h₁ h₂ h₃ h₄ =>
    cases h' with
    | raw => simp_all
    | short letter _ hl =>
      simp only [List.cons_append, List.nil_append, List.cons.injEq, true_and] at heq
      exact absurd heq.1.symm (shortEscapes_printable _ hl).2
    | unit e₁ e₂ e₃ e₄ w₁ w₂ w₃ w₄ g₁ g₂ g₃ g₄ =>
      simp only [List.cons_append, List.nil_append, List.cons.injEq, true_and] at heq
      obtain ⟨rfl, rfl, rfl, rfl, hrest⟩ := heq
      simp_all

/-- Two readings of one text up to a closing quote are the same. -/
theorem IsChars.unique {text text' rest rest' : List UInt8} {vs vs' : List ℕ} (h : IsChars text vs)
    (h' : IsChars text' vs') (heq : text ++ quote :: rest = text' ++ quote :: rest') : vs = vs' ∧ rest = rest' := by
  induction h generalizing text' vs' with
  | nil =>
    cases h' with
    | nil => exact ⟨rfl, (List.cons.inj heq).2⟩
    | cons hc' _ =>
      rw [List.append_assoc] at heq
      exact absurd heq.symm hc'.not_quote
  | cons hc _ ih =>
    rw [List.append_assoc] at heq
    cases h' with
    | nil => exact absurd heq hc.not_quote
    | cons hc' htext' =>
      rw [List.append_assoc] at heq
      obtain ⟨hv, hrest⟩ := hc.unique hc' heq
      obtain ⟨hvs, hend⟩ := ih htext' hrest
      exact ⟨by rw [hv, hvs], hend⟩

/-- At most one token starts a text: its values and what follows it are determined. -/
theorem IsString.unique {token token' rest rest' : List UInt8} {vs vs' : List ℕ} (h : IsString token vs)
    (h' : IsString token' vs') (heq : token ++ rest = token' ++ rest') : vs = vs' ∧ rest = rest' := by
  cases h with
  | quoted h =>
    cases h' with
    | quoted h' =>
      apply h.unique h'
      simpa using heq

/-- An encoding of byte strings as string tokens, safe whatever follows it: the token found
is the whole one, and it reads as the bytes. -/
structure Faithful (encode : List UInt8 → List UInt8) : Prop where
  token : ∀ s, IsString (quote :: (encode s ++ [quote])) (s.map UInt8.toNat)
  only : ∀ s after token rest vs, IsString token vs → token ++ rest = quote :: (encode s ++ [quote]) ++ after →
    token = quote :: (encode s ++ [quote]) ∧ rest = after ∧ vs = s.map UInt8.toNat
  printable : ∀ s, ∀ b ∈ encode s, 0x20 ≤ b
  injective : Function.Injective encode
  append : ∀ s t, encode (s ++ t) = encode s ++ encode t

/-- Writing every byte as a character of that value is faithful. -/
theorem faithful_flatMap {write : UInt8 → List UInt8} (h : ∀ b, IsChar (write b) b.toNat) :
    Faithful fun s => s.flatMap write := by
  have htoken : ∀ s : List UInt8, IsString (quote :: (s.flatMap write ++ [quote])) (s.map UInt8.toNat) :=
    fun s => IsString.quoted (IsChars.of_flatMap h s)
  constructor
  · exact htoken
  · intro s after token rest vs hvs heq
    obtain ⟨hvalues, hrest⟩ := hvs.unique (htoken s) heq
    rw [hrest] at heq
    exact ⟨List.append_cancel_right heq, hrest, hvalues⟩
  · intro s
    exact (IsChars.of_flatMap h s).printable
  · intro s t heq
    have hquoted : quote :: (s.flatMap write ++ [quote]) = quote :: (t.flatMap write ++ [quote]) :=
      congrArg (fun text => quote :: (text ++ [quote])) heq
    have hvalues := ((htoken s).unique (htoken t) (congrArg (· ++ []) hquoted)).1
    exact List.map_injective_iff.mpr (fun a b hab => UInt8.toNat_inj.mp hab) hvalues
  · intro s t
    exact List.flatMap_append

end Foundation.JsonString
