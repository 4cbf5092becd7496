import SmartParking.Foundation.JsonString

/-! # The texts of JSON

The grammar of JSON over bytes, UTF-8 or not, for any choice of number tokens and string
bodies. A tree keeps both as they are written. `IsValue D n` are the values whose containers
nest at most `n` deep. A text that a value starts has only one reading.
-/
namespace Foundation.JsonText
open JsonString

def comma : UInt8 := 0x2C
def colon : UInt8 := 0x3A
def openBracket : UInt8 := 0x5B
def closeBracket : UInt8 := 0x5D
def openBrace : UInt8 := 0x7B
def closeBrace : UInt8 := 0x7D

def spaces : List UInt8 := [0x20, 0x09, 0x0D, 0x0A]
def digitChars : List UInt8 := [0x30, 0x31, 0x32, 0x33, 0x34, 0x35, 0x36, 0x37, 0x38, 0x39]

/-- The digits, `+`, `-`, `.`, `E` and `e`. -/
def numberChars : List UInt8 := digitChars ++ [0x2B, 0x2D, 0x2E, 0x45, 0x65]

def nullText : List UInt8 := [0x6E, 0x75, 0x6C, 0x6C]
def trueText : List UInt8 := [0x74, 0x72, 0x75, 0x65]
def falseText : List UInt8 := [0x66, 0x61, 0x6C, 0x73, 0x65]
def boolText (b : Bool) : List UInt8 := if b then trueText else falseText

def quoted (body : List UInt8) : List UInt8 := quote :: (body ++ [quote])

inductive Tree
  | null
  | bool (b : Bool)
  | number (token : List UInt8)
  | string (body : List UInt8)
  | array (items : List Tree)
  | object (members : List (List UInt8 × Tree))

/-- No quote ends the body before its end: quotes come after a backslash. -/
inductive Enclosed : List UInt8 → Prop
  | nil : Enclosed []
  | raw {b : UInt8} {body : List UInt8} (hquote : b ≠ quote) (hbackslash : b ≠ backslash) (h : Enclosed body) :
      Enclosed (b :: body)
  | escape (letter : UInt8) {body : List UInt8} (h : Enclosed body) : Enclosed (backslash :: letter :: body)

/-- Which number tokens and which string bodies there are. -/
structure Dialect where
  IsNumber : List UInt8 → Prop
  IsBody : List UInt8 → Prop
  number_ne_nil : ∀ token, IsNumber token → token ≠ []
  number_chars : ∀ token, IsNumber token → ∀ b ∈ token, b ∈ numberChars
  body_enclosed : ∀ body, IsBody body → Enclosed body

def IsBlank (w : List UInt8) : Prop := ∀ b ∈ w, b ∈ spaces

section Grammar
variable (D : Dialect) {α : Type*}

inductive IsLeaf : List UInt8 → Tree → Prop
  | null : IsLeaf nullText .null
  | bool (b : Bool) : IsLeaf (boolText b) (.bool b)
  | number {token : List UInt8} (h : D.IsNumber token) : IsLeaf token (.number token)
  | string {body : List UInt8} (h : D.IsBody body) : IsLeaf (quoted body) (.string body)

/-- Something with blanks around it. -/
inductive Padded (P : List UInt8 → α → Prop) : List UInt8 → α → Prop
  | mk {w text w' : List UInt8} {a : α} (hw : IsBlank w) (h : P text a) (hw' : IsBlank w') :
      Padded P (w ++ (text ++ w')) a

/-- One or more things with commas between them. -/
inductive Listed (P : List UInt8 → α → Prop) : List UInt8 → List α → Prop
  | one {text : List UInt8} {a : α} (h : P text a) : Listed P text [a]
  | cons {text rest : List UInt8} {a : α} {as : List α} (h : P text a) (hrest : Listed P rest as) :
      Listed P (text ++ comma :: rest) (a :: as)

/-- A key, a colon and a value. -/
inductive IsMember (P : List UInt8 → Tree → Prop) : List UInt8 → List UInt8 × Tree → Prop
  | mk {key w w' text : List UInt8} {t : Tree} (hkey : D.IsBody key) (hw : IsBlank w) (hw' : IsBlank w')
      (h : P text t) : IsMember P (quoted key ++ (w ++ colon :: (w' ++ text))) (key, t)

inductive IsContainer (P : List UInt8 → Tree → Prop) : List UInt8 → Tree → Prop
  | emptyArray {w : List UInt8} (hw : IsBlank w) :
      IsContainer P (openBracket :: (w ++ [closeBracket])) (.array [])
  | array {text : List UInt8} {items : List Tree} (h : Listed (Padded P) text items) :
      IsContainer P (openBracket :: (text ++ [closeBracket])) (.array items)
  | emptyObject {w : List UInt8} (hw : IsBlank w) :
      IsContainer P (openBrace :: (w ++ [closeBrace])) (.object [])
  | object {text : List UInt8} {members : List (List UInt8 × Tree)} (h : Listed (Padded (IsMember D P)) text members) :
      IsContainer P (openBrace :: (text ++ [closeBrace])) (.object members)

def IsValue : ℕ → List UInt8 → Tree → Prop
  | 0 => IsLeaf D
  | n + 1 => fun text t => IsLeaf D text t ∨ IsContainer D (IsValue n) text t

/-- A whole text. -/
def IsDocument (n : ℕ) : List UInt8 → Tree → Prop := Padded (IsValue D n)

end Grammar

section Monotone
variable {D D' : Dialect} {α β : Type*} {P Q : List UInt8 → α → Prop}

theorem Padded.imp (h : ∀ text a, P text a → Q text a) {text : List UInt8} {a : α} (hp : Padded P text a) :
    Padded Q text a := by
  cases hp with
  | mk hw hp hw' => exact Padded.mk hw (h _ _ hp) hw'

theorem Listed.imp {text : List UInt8} {as : List α} (h : ∀ text, ∀ a ∈ as, P text a → Q text a)
    (hp : Listed P text as) : Listed Q text as := by
  induction hp with
  | one hp => exact Listed.one (h _ _ List.mem_cons_self hp)
  | cons hp _ ih =>
    exact Listed.cons (h _ _ List.mem_cons_self hp) (ih fun text a ha => h text a (List.mem_cons_of_mem _ ha))

theorem IsMember.imp (hbody : ∀ body, D.IsBody body → D'.IsBody body) {P Q : List UInt8 → Tree → Prop}
    (h : ∀ text t, P text t → Q text t) (text : List UInt8) (m : List UInt8 × Tree) (hm : IsMember D P text m) :
    IsMember D' Q text m := by
  cases hm with
  | mk hkey hw hw' hp => exact IsMember.mk (hbody _ hkey) hw hw' (h _ _ hp)

theorem IsContainer.imp (hbody : ∀ body, D.IsBody body → D'.IsBody body) {P Q : List UInt8 → Tree → Prop}
    (h : ∀ text t, P text t → Q text t) {text : List UInt8} {t : Tree} (hc : IsContainer D P text t) :
    IsContainer D' Q text t := by
  cases hc with
  | emptyArray hw => exact IsContainer.emptyArray hw
  | array hitems => exact IsContainer.array (hitems.imp fun _ _ _ hp => hp.imp h)
  | emptyObject hw => exact IsContainer.emptyObject hw
  | object hmembers => exact IsContainer.object (hmembers.imp fun _ _ _ hm => hm.imp (IsMember.imp hbody h))

theorem IsLeaf.value {text : List UInt8} {t : Tree} (h : IsLeaf D text t) (n : ℕ) : IsValue D n text t := by
  cases n with
  | zero => exact h
  | succ n => exact Or.inl h

theorem IsValue.succ {n : ℕ} {text : List UInt8} {t : Tree} (h : IsValue D n text t) :
    IsValue D (n + 1) text t := by
  induction n generalizing text t with
  | zero => exact Or.inl h
  | succ n ih =>
    rcases h with h | h
    · exact Or.inl h
    · exact Or.inr (h.imp (fun _ hbody => hbody) fun _ _ hp => ih hp)

/-- Deeper nesting only allows more. -/
theorem IsValue.mono {n m : ℕ} (hle : n ≤ m) {text : List UInt8} {t : Tree} (h : IsValue D n text t) :
    IsValue D m text t := by
  induction hle with
  | refl => exact h
  | step _ ih => exact ih.succ

end Monotone

section Reading
variable {D : Dialect} {α : Type*} {P : List UInt8 → α → Prop}

/-- The text does not start with a byte from `C`. -/
def Avoids (C s : List UInt8) : Prop := ∀ b ∈ s.head?, b ∉ C

theorem avoids_cons {C l : List UInt8} {b : UInt8} : Avoids C (b :: l) ↔ b ∉ C := by simp [Avoids]

/-- Two texts that start with a longest run of bytes from `C` start with the same run. -/
theorem run_cancel {C w v s s' : List UInt8} (hw : ∀ b ∈ w, b ∈ C) (hv : ∀ b ∈ v, b ∈ C)
    (hs : Avoids C s) (hs' : Avoids C s') (h : w ++ s = v ++ s') : w = v ∧ s = s' := by
  induction w generalizing v with
  | nil =>
    cases v with
    | nil => exact ⟨rfl, h⟩
    | cons b v =>
      have hhead : b ∈ s.head? := by simp [show s = b :: (v ++ s') from h]
      exact absurd (hv b List.mem_cons_self) (hs b hhead)
  | cons b w ih =>
    cases v with
    | nil =>
      have hhead : b ∈ s'.head? := by simp [show s' = b :: (w ++ s) from h.symm]
      exact absurd (hw b List.mem_cons_self) (hs' b hhead)
    | cons b' v =>
      obtain ⟨rfl, hrest⟩ := List.cons.inj h
      obtain ⟨rfl, hs⟩ := ih (fun c hc => hw c (List.mem_cons_of_mem _ hc))
        (fun c hc => hv c (List.mem_cons_of_mem _ hc)) hrest
      exact ⟨rfl, hs⟩

/-- An enclosed body ends at the first quote that can end it. -/
theorem Enclosed.unique {body body' s s' : List UInt8} (h : Enclosed body) (h' : Enclosed body')
    (heq : body ++ quote :: s = body' ++ quote :: s') : body = body' ∧ s = s' := by
  have hne : backslash ≠ quote := by decide
  induction h generalizing body' with
  | nil =>
    cases h' with
    | nil => exact ⟨rfl, (List.cons.inj heq).2⟩
    | raw hquote => exact absurd (List.cons.inj heq).1.symm hquote
    | escape => exact absurd (List.cons.inj heq).1.symm hne
  | raw hquote hbackslash _ ih =>
    cases h' with
    | nil => exact absurd (List.cons.inj heq).1 hquote
    | raw _ _ h' =>
      obtain ⟨rfl, hrest⟩ := List.cons.inj heq
      obtain ⟨rfl, hs⟩ := ih h' hrest
      exact ⟨rfl, hs⟩
    | escape => exact absurd (List.cons.inj heq).1 hbackslash
  | escape letter _ ih =>
    cases h' with
    | nil => exact absurd (List.cons.inj heq).1 hne
    | raw _ hbackslash => exact absurd (List.cons.inj heq).1.symm hbackslash
    | escape letter' h' =>
      simp only [List.cons_append, List.cons.injEq, true_and] at heq
      obtain ⟨rfl, hrest⟩ := heq
      obtain ⟨rfl, hs⟩ := ih h' hrest
      exact ⟨rfl, hs⟩

/-- The bytes that no value and no key starts with. -/
def stops : List UInt8 := spaces ++ [comma, colon, closeBracket, closeBrace]

/-- No number goes on in the text. -/
def EndsNumber : List UInt8 → Prop := Avoids numberChars

/-- Neither a number nor blanks go on in the text. -/
def EndsValue (rest : List UInt8) : Prop := EndsNumber rest ∧ Avoids spaces rest

/-- What starts a text is determined, and so is what follows it. -/
def Determined (ends : List UInt8 → Prop) (P : List UInt8 → α → Prop) : Prop :=
  ∀ ⦃text text' rest rest' : List UInt8⦄ ⦃a a' : α⦄, P text a → P text' a' → ends rest → ends rest' →
    text ++ rest = text' ++ rest' → a = a' ∧ rest = rest'

/-- It is clear from the first byte that something starts. -/
def Solid (P : List UInt8 → α → Prop) : Prop :=
  ∀ ⦃text : List UInt8⦄ ⦃a : α⦄, P text a → ∃ b l, b ∉ stops ∧ text = b :: l

theorem spaces_stops : ∀ b ∈ spaces, b ∈ stops := by decide

theorem spaces_numberChars : ∀ b ∈ spaces, b ∉ numberChars := by decide

theorem not_space {b : UInt8} (h : b ∉ stops) : b ∉ spaces := fun hb => h (spaces_stops b hb)

theorem endsNumber_blank {w rest : List UInt8} (hw : IsBlank w) (h : EndsNumber rest) : EndsNumber (w ++ rest) := by
  cases w with
  | nil => exact h
  | cons b w => exact avoids_cons.mpr (spaces_numberChars b (hw b List.mem_cons_self))

theorem IsMember.solid {P : List UInt8 → Tree → Prop} : Solid (IsMember D P) := by
  rintro _ _ ⟨-, -, -, -⟩
  exact ⟨quote, _, by decide, by rw [quoted, List.cons_append]⟩

theorem Padded.determined (hsolid : Solid P) (hP : Determined EndsNumber P) : Determined EndsValue (Padded P) := by
  rintro _ _ rest rest' a a' ⟨hw, h, hw'⟩ ⟨hv, h', hv'⟩ ⟨hnumber, hspace⟩ ⟨hnumber', hspace'⟩ heq
  obtain ⟨b, l, hb, rfl⟩ := hsolid h
  obtain ⟨b', l', hb', rfl⟩ := hsolid h'
  simp only [List.append_assoc, List.cons_append] at heq
  obtain ⟨-, heq⟩ := run_cancel hw hv (avoids_cons.mpr (not_space hb)) (avoids_cons.mpr (not_space hb')) heq
  obtain ⟨ha, heq⟩ := hP h h' (endsNumber_blank hw' hnumber) (endsNumber_blank hv' hnumber')
    (by simpa using heq)
  exact ⟨ha, (run_cancel hw' hv' hspace hspace' heq).2⟩

theorem IsMember.determined {P : List UInt8 → Tree → Prop} (hsolid : Solid P) (hP : Determined EndsNumber P) :
    Determined EndsNumber (IsMember D P) := by
  rintro _ _ rest rest' _ _ ⟨hkey, hw, hv, h⟩ ⟨hkey', hw', hv', h'⟩ hends hends' heq
  have hcolon : colon ∉ spaces := by decide
  obtain ⟨b, l, hb, rfl⟩ := hsolid h
  obtain ⟨b', l', hb', rfl⟩ := hsolid h'
  simp only [quoted, List.append_assoc, List.cons_append, List.nil_append, List.cons.injEq, true_and] at heq
  obtain ⟨rfl, hafter⟩ := (D.body_enclosed _ hkey).unique (D.body_enclosed _ hkey') heq
  obtain ⟨-, hblank⟩ := run_cancel hw hw' (avoids_cons.mpr hcolon) (avoids_cons.mpr hcolon) hafter
  obtain ⟨-, hvalue⟩ := run_cancel hv hv' (avoids_cons.mpr (not_space hb)) (avoids_cons.mpr (not_space hb'))
    (List.cons.inj hblank).2
  obtain ⟨rfl, hrest⟩ := hP h h' hends hends' hvalue
  exact ⟨rfl, hrest⟩

/-- The bytes that close a list of things. -/
def IsClosing (c : UInt8) : Prop := c = closeBracket ∨ c = closeBrace

theorem IsClosing.endsValue {c : UInt8} (hc : IsClosing c) (rest : List UInt8) : EndsValue (c :: rest) := by
  rcases hc with rfl | rfl
  · exact ⟨avoids_cons.mpr (by decide), avoids_cons.mpr (by decide)⟩
  · exact ⟨avoids_cons.mpr (by decide), avoids_cons.mpr (by decide)⟩

theorem endsValue_comma (rest : List UInt8) : EndsValue (comma :: rest) :=
  ⟨avoids_cons.mpr (by decide), avoids_cons.mpr (by decide)⟩

theorem IsClosing.ne_comma {c : UInt8} (hc : IsClosing c) : c ≠ comma := by
  rcases hc with rfl | rfl <;> decide

theorem IsClosing.ne_zero {c : UInt8} (hc : IsClosing c) : c ≠ 0 := by
  rcases hc with rfl | rfl <;> decide

theorem IsClosing.stops {c : UInt8} (hc : IsClosing c) : c ∈ stops := by
  rcases hc with rfl | rfl <;> decide

theorem Listed.determined (hP : Determined EndsValue P) {c : UInt8} (hc : IsClosing c)
    {text text' rest rest' : List UInt8} {as as' : List α} (h : Listed P text as) (h' : Listed P text' as')
    (heq : text ++ c :: rest = text' ++ c :: rest') : as = as' ∧ rest = rest' := by
  induction h generalizing text' as' with
  | one h =>
    cases h' with
    | one h' =>
      obtain ⟨rfl, hrest⟩ := hP h h' (hc.endsValue rest) (hc.endsValue rest') heq
      exact ⟨rfl, (List.cons.inj hrest).2⟩
    | cons h' _ =>
      rw [List.append_assoc] at heq
      obtain ⟨-, hrest⟩ := hP h h' (hc.endsValue rest) (endsValue_comma _) heq
      exact absurd (List.cons.inj hrest).1 hc.ne_comma
  | cons h _ ih =>
    rw [List.append_assoc] at heq
    cases h' with
    | one h' =>
      obtain ⟨-, hrest⟩ := hP h h' (endsValue_comma _) (hc.endsValue rest') heq
      exact absurd (List.cons.inj hrest).1.symm hc.ne_comma
    | cons h' hrest' =>
      rw [List.append_assoc] at heq
      obtain ⟨rfl, heq⟩ := hP h h' (endsValue_comma _) (endsValue_comma _) heq
      obtain ⟨rfl, hrest⟩ := ih hrest' (List.cons.inj heq).2
      exact ⟨rfl, hrest⟩

theorem Listed.solid (hP : Solid P) {text : List UInt8} {as : List α} (h : Listed (Padded P) text as) :
    ∃ w b l, IsBlank w ∧ b ∉ stops ∧ text = w ++ b :: l := by
  cases h with
  | one h =>
    obtain ⟨hw, h, -⟩ := h
    obtain ⟨b, l, hb, rfl⟩ := hP h
    exact ⟨_, b, _, hw, hb, by rw [List.cons_append]⟩
  | cons h _ =>
    obtain ⟨hw, h, -⟩ := h
    obtain ⟨b, l, hb, rfl⟩ := hP h
    exact ⟨_, b, _, hw, hb, by simp only [List.append_assoc, List.cons_append]; rfl⟩

/-- A list that has something in it is not blank. -/
theorem Listed.not_blank (hP : Solid P) {c : UInt8} (hc : IsClosing c) {w text rest rest' : List UInt8}
    {as : List α} (hw : IsBlank w) (h : Listed (Padded P) text as) : w ++ c :: rest ≠ text ++ c :: rest' := by
  intro heq
  obtain ⟨v, b, l, hv, hb, rfl⟩ := h.solid hP
  rw [List.append_assoc, List.cons_append] at heq
  obtain ⟨-, heq⟩ := run_cancel hw hv (hc.endsValue rest).2 (avoids_cons.mpr (not_space hb)) heq
  obtain rfl := (List.cons.inj heq).1
  exact hb hc.stops

theorem IsContainer.determined {P : List UInt8 → Tree → Prop} (hsolid : Solid P) (hP : Determined EndsNumber P)
    {text text' rest rest' : List UInt8} {t t' : Tree} (h : IsContainer D P text t) (h' : IsContainer D P text' t')
    (heq : text ++ rest = text' ++ rest') : t = t' ∧ rest = rest' := by
  have hbracket : IsClosing closeBracket := Or.inl rfl
  have hbrace : IsClosing closeBrace := Or.inr rfl
  have hne : openBracket ≠ openBrace := by decide
  have hitems := Padded.determined hsolid hP
  have hmembers := Padded.determined IsMember.solid (IsMember.determined (D := D) hsolid hP)
  cases h with
  | emptyArray hw =>
    cases h' with
    | emptyArray hw' =>
      simp only [List.append_assoc, List.cons_append, List.nil_append, List.cons.injEq, true_and] at heq
      obtain ⟨-, hrest⟩ := run_cancel hw hw' (avoids_cons.mpr (by decide)) (avoids_cons.mpr (by decide)) heq
      exact ⟨rfl, (List.cons.inj hrest).2⟩
    | array h' =>
      simp only [List.append_assoc, List.cons_append, List.nil_append, List.cons.injEq, true_and] at heq
      exact absurd heq (h'.not_blank hsolid hbracket hw)
    | emptyObject => exact absurd (List.cons.inj heq).1 hne
    | object => exact absurd (List.cons.inj heq).1 hne
  | array h =>
    cases h' with
    | emptyArray hw' =>
      simp only [List.append_assoc, List.cons_append, List.nil_append, List.cons.injEq, true_and] at heq
      exact absurd heq.symm (h.not_blank hsolid hbracket hw')
    | array h' =>
      simp only [List.append_assoc, List.cons_append, List.nil_append, List.cons.injEq, true_and] at heq
      obtain ⟨rfl, hrest⟩ := h.determined hitems hbracket h' heq
      exact ⟨rfl, hrest⟩
    | emptyObject => exact absurd (List.cons.inj heq).1 hne
    | object => exact absurd (List.cons.inj heq).1 hne
  | emptyObject hw =>
    cases h' with
    | emptyArray => exact absurd (List.cons.inj heq).1.symm hne
    | array => exact absurd (List.cons.inj heq).1.symm hne
    | emptyObject hw' =>
      simp only [List.append_assoc, List.cons_append, List.nil_append, List.cons.injEq, true_and] at heq
      obtain ⟨-, hrest⟩ := run_cancel hw hw' (avoids_cons.mpr (by decide)) (avoids_cons.mpr (by decide)) heq
      exact ⟨rfl, (List.cons.inj hrest).2⟩
    | object h' =>
      simp only [List.append_assoc, List.cons_append, List.nil_append, List.cons.injEq, true_and] at heq
      exact absurd heq (h'.not_blank IsMember.solid hbrace hw)
  | object h =>
    cases h' with
    | emptyArray => exact absurd (List.cons.inj heq).1.symm hne
    | array => exact absurd (List.cons.inj heq).1.symm hne
    | emptyObject hw' =>
      simp only [List.append_assoc, List.cons_append, List.nil_append, List.cons.injEq, true_and] at heq
      exact absurd heq.symm (h.not_blank IsMember.solid hbrace hw')
    | object h' =>
      simp only [List.append_assoc, List.cons_append, List.nil_append, List.cons.injEq, true_and] at heq
      obtain ⟨rfl, hrest⟩ := h.determined hmembers hbrace h' heq
      exact ⟨rfl, hrest⟩

theorem numberChars_start : ∀ b ∈ numberChars, b ∉ stops ∧ b ≠ openBracket ∧ b ≠ openBrace ∧ b ≠ 0x6E ∧
    b ≠ 0x74 ∧ b ≠ 0x66 ∧ b ≠ quote := by decide

theorem IsLeaf.start {text : List UInt8} {t : Tree} (h : IsLeaf D text t) :
    ∃ b l, text = b :: l ∧ b ∉ stops ∧ b ≠ openBracket ∧ b ≠ openBrace := by
  cases h with
  | null => exact ⟨_, _, rfl, by decide⟩
  | bool b => cases b <;> exact ⟨_, _, rfl, by decide⟩
  | number h =>
    obtain ⟨b, l, rfl⟩ := List.exists_cons_of_ne_nil (D.number_ne_nil _ h)
    obtain ⟨hstop, hbracket, hbrace, -⟩ := numberChars_start b (D.number_chars _ h b List.mem_cons_self)
    exact ⟨b, l, rfl, hstop, hbracket, hbrace⟩
  | string => exact ⟨_, _, rfl, by decide⟩

theorem IsContainer.start {P : List UInt8 → Tree → Prop} {text : List UInt8} {t : Tree}
    (h : IsContainer D P text t) : ∃ b l, text = b :: l ∧ b ∉ stops ∧ (b = openBracket ∨ b = openBrace) := by
  cases h <;> exact ⟨_, _, rfl, by decide⟩

theorem IsValue.solid (n : ℕ) : Solid (IsValue D n) := by
  intro text t h
  cases n with
  | zero =>
    obtain ⟨b, l, rfl, hb, -⟩ := IsLeaf.start h
    exact ⟨b, l, hb, rfl⟩
  | succ n =>
    rcases h with h | h
    · obtain ⟨b, l, rfl, hb, -⟩ := h.start
      exact ⟨b, l, hb, rfl⟩
    · obtain ⟨b, l, rfl, hb, -⟩ := h.start
      exact ⟨b, l, hb, rfl⟩

/-- A number token is the longest run of number characters. -/
theorem number_start {token text rest rest' : List UInt8} (h : D.IsNumber token) (h' : text ≠ [])
    (heq : token ++ rest = text ++ rest') : ∃ b l, text = b :: l ∧ b ∈ numberChars := by
  obtain ⟨b, l, rfl⟩ := List.exists_cons_of_ne_nil (D.number_ne_nil _ h)
  obtain ⟨b', l', rfl⟩ := List.exists_cons_of_ne_nil h'
  obtain rfl := (List.cons.inj heq).1
  exact ⟨b, l', rfl, D.number_chars _ h b List.mem_cons_self⟩

theorem IsLeaf.determined : Determined EndsNumber (IsLeaf D) := by
  intro text text' rest rest' t t' h h' hends hends' heq
  cases h with
  | null =>
    cases h' with
    | null => exact ⟨rfl, List.append_cancel_left heq⟩
    | bool b => cases b <;> simp [nullText, boolText, trueText, falseText] at heq
    | number h' =>
      obtain ⟨b, l, hb, hmem⟩ := number_start h' (by decide) heq.symm
      obtain rfl := (List.cons.inj hb).1
      exact absurd hmem (by decide)
    | string => simp [nullText, quoted, quote] at heq
  | bool b =>
    cases h' with
    | null => cases b <;> simp [nullText, boolText, trueText, falseText] at heq
    | bool b' =>
      cases b <;> cases b' <;> simp_all [boolText, trueText, falseText]
    | number h' =>
      obtain ⟨c, l, hc, hmem⟩ := number_start h' (by cases b <;> decide) heq.symm
      cases b <;> (obtain rfl := (List.cons.inj hc).1; exact absurd hmem (by decide))
    | string => cases b <;> simp [boolText, trueText, falseText, quoted, quote] at heq
  | number h =>
    cases h' with
    | null =>
      obtain ⟨b, l, hb, hmem⟩ := number_start h (by decide) heq
      obtain rfl := (List.cons.inj hb).1
      exact absurd hmem (by decide)
    | bool b =>
      obtain ⟨c, l, hc, hmem⟩ := number_start h (by cases b <;> decide) heq
      cases b <;> (obtain rfl := (List.cons.inj hc).1; exact absurd hmem (by decide))
    | number h' =>
      obtain ⟨rfl, hrest⟩ := run_cancel (D.number_chars _ h) (D.number_chars _ h') hends hends' heq
      exact ⟨rfl, hrest⟩
    | string =>
      obtain ⟨b, l, hb, hmem⟩ := number_start h (by simp [quoted]) heq
      obtain rfl := (List.cons.inj hb).1
      exact absurd hmem (by decide)
  | string h =>
    cases h' with
    | null => simp [nullText, quoted, quote] at heq
    | bool b => cases b <;> simp [boolText, trueText, falseText, quoted, quote] at heq
    | number h' =>
      obtain ⟨b, l, hb, hmem⟩ := number_start h' (by simp [quoted]) heq.symm
      obtain rfl := (List.cons.inj hb).1
      exact absurd hmem (by decide)
    | string h' =>
      simp only [quoted, List.append_assoc, List.cons_append, List.nil_append, List.cons.injEq, true_and] at heq
      obtain ⟨rfl, hrest⟩ := (D.body_enclosed _ h).unique (D.body_enclosed _ h') heq
      exact ⟨rfl, hrest⟩

theorem IsValue.determined (n : ℕ) : Determined EndsNumber (IsValue D n) := by
  induction n with
  | zero => exact IsLeaf.determined
  | succ n ih =>
    intro text text' rest rest' t t' h h' hends hends' heq
    rcases h with h | h
    · rcases h' with h' | h'
      · exact IsLeaf.determined h h' hends hends' heq
      · obtain ⟨b, l, rfl, -, hbracket, hbrace⟩ := h.start
        obtain ⟨b', l', rfl, -, hopen⟩ := h'.start
        obtain rfl := (List.cons.inj heq).1
        exact absurd hopen (by simp [hbracket, hbrace])
    · rcases h' with h' | h'
      · obtain ⟨b, l, rfl, -, hbracket, hbrace⟩ := h'.start
        obtain ⟨b', l', rfl, -, hopen⟩ := h.start
        obtain rfl := (List.cons.inj heq).1
        exact absurd hopen (by simp [hbracket, hbrace])
      · exact h.determined (IsValue.solid n) ih h' heq

/-- The dialect that every other one is part of. -/
def widest : Dialect where
  IsNumber token := token ≠ [] ∧ ∀ b ∈ token, b ∈ numberChars
  IsBody := Enclosed
  number_ne_nil _ h := h.1
  number_chars _ h := h.2
  body_enclosed _ h := h

theorem IsLeaf.imp {D D' : Dialect} (hnumber : ∀ token, D.IsNumber token → D'.IsNumber token)
    (hbody : ∀ body, D.IsBody body → D'.IsBody body) {text : List UInt8} {t : Tree} (h : IsLeaf D text t) :
    IsLeaf D' text t := by
  cases h with
  | null => exact IsLeaf.null
  | bool b => exact IsLeaf.bool b
  | number h => exact IsLeaf.number (hnumber _ h)
  | string h => exact IsLeaf.string (hbody _ h)

theorem IsValue.imp {D D' : Dialect} (hnumber : ∀ token, D.IsNumber token → D'.IsNumber token)
    (hbody : ∀ body, D.IsBody body → D'.IsBody body) {n : ℕ} {text : List UInt8} {t : Tree}
    (h : IsValue D n text t) : IsValue D' n text t := by
  induction n generalizing text t with
  | zero => exact IsLeaf.imp hnumber hbody h
  | succ n ih =>
    rcases h with h | h
    · exact Or.inl (h.imp hnumber hbody)
    · exact Or.inr (h.imp hbody fun _ _ hp => ih hp)

theorem IsDocument.widest {D : Dialect} {n : ℕ} {text : List UInt8} {t : Tree} (h : IsDocument D n text t)
    {m : ℕ} (hle : n ≤ m) : IsDocument widest m text t := by
  have hnumber : ∀ token, D.IsNumber token → JsonText.widest.IsNumber token :=
    fun token ht => ⟨D.number_ne_nil token ht, D.number_chars token ht⟩
  exact Padded.imp (fun _ _ hv => (hv.imp hnumber D.body_enclosed).mono hle) h

/-- A text has at most one reading, in whatever dialect and however deep its containers nest. -/
theorem IsDocument.unique {D D' : Dialect} {n m : ℕ} {text : List UInt8} {t t' : Tree} (h : IsDocument D n text t)
    (h' : IsDocument D' m text t') : t = t' := by
  have hends : EndsValue [] := ⟨by simp [EndsNumber, Avoids], by simp [Avoids]⟩
  exact (Padded.determined (IsValue.solid _) (IsValue.determined _) (h.widest (Nat.le_max_left n m))
    (h'.widest (Nat.le_max_right n m)) hends hends rfl).1

end Reading

end Foundation.JsonText
