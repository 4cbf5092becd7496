import SmartParking.Foundation.JsonText

/-! # Trees and their texts

Which dialect a text is in, and how deep it nests, can be read off its tree. Which bytes a
text is made of depends on the bodies of its strings only.
-/
namespace Foundation.JsonText
open JsonString
variable {D D' : Dialect} {α : Type*} {P Q : List UInt8 → α → Prop}

/-- The tokens of the tree are of the dialect, and its containers nest at most so deep. -/
def Tree.Fits (D : Dialect) : ℕ → Tree → Prop
  | _, .null => True
  | _, .bool _ => True
  | _, .number token => D.IsNumber token
  | _, .string body => D.IsBody body
  | 0, .array _ => False
  | n + 1, .array items => ∀ t ∈ items, t.Fits D n
  | 0, .object _ => False
  | n + 1, .object members => ∀ m ∈ members, D.IsBody m.1 ∧ m.2.Fits D n

theorem Tree.fits_object {n : ℕ} {members : List (List UInt8 × Tree)} :
    (Tree.object members).Fits D (n + 1) ↔ ∀ m ∈ members, D.IsBody m.1 ∧ m.2.Fits D n := Iff.rfl

/-- A tree that fits two dialects fits a third one that has what both have. -/
theorem Tree.Fits.and {D'' : Dialect} (hnumber : ∀ token, D.IsNumber token → D'.IsNumber token → D''.IsNumber token)
    (hbody : ∀ body, D.IsBody body → D'.IsBody body → D''.IsBody body) {n m : ℕ} {t : Tree} (h : t.Fits D n)
    (h' : t.Fits D' m) : t.Fits D'' m := by
  induction m generalizing n t with
  | zero =>
    cases t with
    | null => trivial
    | bool => trivial
    | number => cases n <;> exact hnumber _ h h'
    | string => cases n <;> exact hbody _ h h'
    | array => exact h'
    | object => exact h'
  | succ m ih =>
    cases t with
    | null => trivial
    | bool => trivial
    | number => cases n <;> exact hnumber _ h h'
    | string => cases n <;> exact hbody _ h h'
    | array items =>
      cases n with
      | zero => exact h.elim
      | succ n => exact fun t ht => ih (h t ht) (h' t ht)
    | object members =>
      cases n with
      | zero => exact h.elim
      | succ n =>
        intro member hmember
        exact ⟨hbody _ (h _ hmember).1 (h' _ hmember).1, ih (h _ hmember).2 (h' _ hmember).2⟩

theorem Listed.forall_mem {R : α → Prop} (h : ∀ text a, P text a → R a) {text : List UInt8} {as : List α}
    (hl : Listed P text as) : ∀ a ∈ as, R a := by
  induction hl with
  | one hp => simpa using h _ _ hp
  | cons hp _ ih => exact List.forall_mem_cons.mpr ⟨h _ _ hp, ih⟩

theorem IsLeaf.fits {text : List UInt8} {t : Tree} (h : IsLeaf D text t) (n : ℕ) : t.Fits D n := by
  cases h with
  | null => cases n <;> trivial
  | bool b => cases n <;> trivial
  | number h => cases n <;> exact h
  | string h => cases n <;> exact h

theorem IsValue.fits {n : ℕ} {text : List UInt8} {t : Tree} (h : IsValue D n text t) : t.Fits D n := by
  induction n generalizing text t with
  | zero => exact IsLeaf.fits h 0
  | succ n ih =>
    rcases h with h | h
    · exact h.fits _
    cases h with
    | emptyArray => exact fun t ht => absurd ht List.not_mem_nil
    | array h => exact h.forall_mem fun _ _ hp => by cases hp with | mk _ hv _ => exact ih hv
    | emptyObject => exact fun m hm => absurd hm List.not_mem_nil
    | object h =>
      refine h.forall_mem ?_
      rintro _ _ ⟨-, ⟨hkey, -, -, hv⟩, -⟩
      exact ⟨hkey, ih hv⟩

theorem IsLeaf.retype {text : List UInt8} {t : Tree} (h : IsLeaf D text t) {n : ℕ} (hfits : t.Fits D' n) :
    IsLeaf D' text t := by
  cases h with
  | null => exact IsLeaf.null
  | bool b => exact IsLeaf.bool b
  | number h => cases n <;> exact IsLeaf.number hfits
  | string h => cases n <;> exact IsLeaf.string hfits

theorem Padded.imp_value {text : List UInt8} {a : α} (h : Padded P text a) (hpq : ∀ text, P text a → Q text a) :
    Padded Q text a := by
  cases h with
  | mk hw hp hw' => exact Padded.mk hw (hpq _ hp) hw'

/-- A text in one dialect is in another one when its tree is. -/
theorem IsValue.retype {n m : ℕ} {text : List UInt8} {t : Tree} (h : IsValue D n text t) (hfits : t.Fits D' m) :
    IsValue D' m text t := by
  induction n generalizing m text t with
  | zero => exact (IsLeaf.retype h hfits).value m
  | succ n ih =>
    rcases h with h | h
    · exact (h.retype hfits).value m
    cases m with
    | zero => cases h <;> exact hfits.elim
    | succ m =>
      right
      cases h with
      | emptyArray hw => exact IsContainer.emptyArray hw
      | array h =>
        exact IsContainer.array (h.imp fun _ t ht hp => hp.imp_value fun _ hv => ih hv (hfits t ht))
      | emptyObject hw => exact IsContainer.emptyObject hw
      | object h =>
        refine IsContainer.object (h.imp fun _ member hmember hp => hp.imp_value ?_)
        rintro _ ⟨-, hw, hw', hv⟩
        exact IsMember.mk (hfits _ hmember).1 hw hw' (ih hv (hfits _ hmember).2)

theorem IsDocument.retype {n m : ℕ} {text : List UInt8} {t : Tree} (h : IsDocument D n text t)
    (hfits : t.Fits D' m) : IsDocument D' m text t := Padded.imp_value h fun _ hv => hv.retype hfits

theorem IsDocument.fits {n : ℕ} {text : List UInt8} {t : Tree} (h : IsDocument D n text t) : t.Fits D n := by
  cases h with
  | mk _ hv _ => exact hv.fits

/-- The bytes of a text outside its strings. -/
def plainBytes : List UInt8 :=
  spaces ++ numberChars ++ nullText ++ trueText ++ falseText ++
    [quote, comma, colon, openBracket, closeBracket, openBrace, closeBrace]

section Bytes
variable {B : UInt8 → Prop}

/-- All bytes of the texts of `P` are in `B`. -/
def Bytes (B : UInt8 → Prop) (P : List UInt8 → α → Prop) : Prop :=
  ∀ ⦃text : List UInt8⦄ ⦃a : α⦄, P text a → ∀ b ∈ text, B b

theorem bytes_padded (hplain : ∀ b ∈ plainBytes, B b) (hP : Bytes B P) : Bytes B (Padded P) := by
  have hspaces : ∀ b ∈ spaces, b ∈ plainBytes := by decide
  rintro _ _ ⟨hw, hp, hw'⟩
  simp only [List.forall_mem_append]
  exact ⟨fun b hb => hplain b (hspaces b (hw b hb)), hP hp, fun b hb => hplain b (hspaces b (hw' b hb))⟩

theorem bytes_listed (hplain : ∀ b ∈ plainBytes, B b) (hP : Bytes B P) : Bytes B (Listed P) := by
  intro text as h
  induction h with
  | one hp => exact hP hp
  | cons hp _ ih =>
    simp only [List.forall_mem_append, List.forall_mem_cons]
    exact ⟨hP hp, hplain _ (by decide), ih⟩

theorem bytes_quoted (hplain : ∀ b ∈ plainBytes, B b) {body : List UInt8} (hbody : ∀ b ∈ body, B b) :
    ∀ b ∈ quoted body, B b := by
  have hquote : B quote := hplain _ (by decide)
  simp only [quoted, List.forall_mem_append, List.forall_mem_cons]
  exact ⟨hquote, hbody, hquote, by simp⟩

theorem bytes_value (hplain : ∀ b ∈ plainBytes, B b) (hbody : ∀ body, D.IsBody body → ∀ b ∈ body, B b) (n : ℕ) :
    Bytes B (IsValue D n) := by
  have hleaf : Bytes B (IsLeaf D) := by
    intro text t h
    cases h with
    | null => exact fun b hb => hplain b (by revert b; decide)
    | bool b =>
      cases b with
      | false => exact fun b hb => hplain b (by revert b; decide)
      | true => exact fun b hb => hplain b (by revert b; decide)
    | number h =>
      have hchars : ∀ b ∈ numberChars, b ∈ plainBytes := by decide
      exact fun b hb => hplain b (hchars b (D.number_chars _ h b hb))
    | string h => exact bytes_quoted hplain (hbody _ h)
  have hopen : B openBracket ∧ B closeBracket ∧ B openBrace ∧ B closeBrace :=
    ⟨hplain _ (by decide), hplain _ (by decide), hplain _ (by decide), hplain _ (by decide)⟩
  have hspaces : ∀ w, IsBlank w → ∀ b ∈ w, B b := by
    have hmem : ∀ b ∈ spaces, b ∈ plainBytes := by decide
    exact fun w hw b hb => hplain b (hmem b (hw b hb))
  induction n with
  | zero => exact hleaf
  | succ n ih =>
    intro text t h
    rcases h with h | h
    · exact hleaf h
    have hmember : Bytes B (IsMember D (IsValue D n)) := by
      rintro _ _ ⟨hkey, hw, hw', hv⟩
      simp only [List.forall_mem_append, List.forall_mem_cons]
      exact ⟨bytes_quoted hplain (hbody _ hkey), hspaces _ hw, hplain _ (by decide), hspaces _ hw', ih hv⟩
    cases h with
    | emptyArray hw => simpa [or_imp, forall_and] using ⟨hopen.1, hspaces _ hw, hopen.2.1⟩
    | array h =>
      have hinner := bytes_listed hplain (bytes_padded hplain ih) h
      simpa [or_imp, forall_and] using ⟨hopen.1, hinner, hopen.2.1⟩
    | emptyObject hw => simpa [or_imp, forall_and] using ⟨hopen.2.2.1, hspaces _ hw, hopen.2.2.2⟩
    | object h =>
      have hinner := bytes_listed hplain (bytes_padded hplain hmember) h
      simpa [or_imp, forall_and] using ⟨hopen.2.2.1, hinner, hopen.2.2.2⟩

/-- The bytes of a document are those of its strings and plain ones. -/
theorem IsDocument.bytes (hplain : ∀ b ∈ plainBytes, B b) (hbody : ∀ body, D.IsBody body → ∀ b ∈ body, B b) {n : ℕ}
    {text : List UInt8} {t : Tree} (h : IsDocument D n text t) : ∀ b ∈ text, B b :=
  bytes_padded hplain (bytes_value hplain hbody n) h

end Bytes

end Foundation.JsonText
