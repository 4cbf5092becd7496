import SmartParking.Foundation.JsonTree

/-! # Writing JSON

Texts that are put together from the texts of their parts, with commas between them. A tree
is written without blanks, and what is written reads as the tree.
-/
namespace Foundation.JsonText
open JsonString
variable {D : Dialect} {α : Type*} {P : List UInt8 → α → Prop} {n : ℕ}

def joined : List (List UInt8) → List UInt8
  | [] => []
  | [text] => text
  | text :: text' :: texts => text ++ comma :: joined (text' :: texts)

theorem isBlank_nil : IsBlank [] := by simp [IsBlank]

theorem padded {text : List UInt8} {a : α} (h : P text a) : Padded P text a := by
  have hpadded := Padded.mk isBlank_nil h isBlank_nil
  rwa [List.append_nil, List.nil_append] at hpadded

theorem listed_joined {texts : List (List UInt8)} {a : α} {as : List α}
    (h : List.Forall₂ P texts (a :: as)) : Listed P (joined texts) (a :: as) := by
  induction as generalizing a texts with
  | nil =>
    obtain ⟨text, texts, ha, hnil, rfl⟩ := List.forall₂_cons_right_iff.mp h
    obtain rfl := List.forall₂_nil_right_iff.mp hnil
    exact Listed.one ha
  | cons a' as ih =>
    obtain ⟨text, texts, ha, hrest, rfl⟩ := List.forall₂_cons_right_iff.mp h
    obtain ⟨text', texts, -, -, rfl⟩ := List.forall₂_cons_right_iff.mp hrest
    exact Listed.cons ha (ih hrest)

theorem isValue_array {texts : List (List UInt8)} {items : List Tree}
    (h : List.Forall₂ (Padded (IsValue D n)) texts items) :
    IsValue D (n + 1) (openBracket :: (joined texts ++ [closeBracket])) (.array items) := by
  right
  cases h with
  | nil => exact IsContainer.emptyArray isBlank_nil
  | cons h hrest => exact IsContainer.array (listed_joined (List.Forall₂.cons h hrest))

theorem isValue_object {texts : List (List UInt8)} {members : List (List UInt8 × Tree)}
    (h : List.Forall₂ (Padded (IsMember D (IsValue D n))) texts members) :
    IsValue D (n + 1) (openBrace :: (joined texts ++ [closeBrace])) (.object members) := by
  right
  cases h with
  | nil => exact IsContainer.emptyObject isBlank_nil
  | cons h hrest => exact IsContainer.object (listed_joined (List.Forall₂.cons h hrest))

/-- A member with blanks between its colon and its value. -/
def memberText (key blank text : List UInt8) : List UInt8 := quoted key ++ colon :: (blank ++ text)

theorem isMember_memberText {P : List UInt8 → Tree → Prop} {key blank text : List UInt8} {t : Tree}
    (hkey : D.IsBody key) (hblank : IsBlank blank) (h : P text t) :
    IsMember D P (memberText key blank text) (key, t) :=
  IsMember.mk hkey isBlank_nil hblank h

mutual

/-- The text of a tree, without blanks. -/
def write : Tree → List UInt8
  | .null => nullText
  | .bool b => boolText b
  | .number token => token
  | .string body => quoted body
  | .array items => openBracket :: (joined (writeItems items) ++ [closeBracket])
  | .object members => openBrace :: (joined (writeMembers members) ++ [closeBrace])

def writeItems : List Tree → List (List UInt8)
  | [] => []
  | t :: items => write t :: writeItems items

def writeMembers : List (List UInt8 × Tree) → List (List UInt8)
  | [] => []
  | (key, t) :: members => memberText key [] (write t) :: writeMembers members

end

theorem writeItems_eq (items : List Tree) : writeItems items = items.map write := by
  induction items with
  | nil => rw [writeItems, List.map_nil]
  | cons t items ih => rw [writeItems, ih, List.map_cons]

theorem writeMembers_eq (members : List (List UInt8 × Tree)) :
    writeMembers members = members.map fun m => memberText m.1 [] (write m.2) := by
  induction members with
  | nil => rw [writeMembers, List.map_nil]
  | cons m members ih => rw [writeMembers, ih, List.map_cons]

theorem forall₂_map_self {β : Type*} {R : β → α → Prop} {f : α → β} {as : List α} (h : ∀ a ∈ as, R (f a) a) :
    List.Forall₂ R (as.map f) as := by
  rw [List.forall₂_map_left_iff]
  exact List.forall₂_same.mpr h

/-- What is written for a tree of a dialect is a value of the dialect. -/
theorem write_isValue {t : Tree} (h : t.Fits D n) : IsValue D n (write t) t := by
  induction n generalizing t with
  | zero =>
    cases t with
    | null => exact IsLeaf.null
    | bool b => exact IsLeaf.bool b
    | number => exact IsLeaf.number h
    | string => exact IsLeaf.string h
    | array => exact h.elim
    | object => exact h.elim
  | succ n ih =>
    cases t with
    | null => exact IsLeaf.null.value _
    | bool b => exact (IsLeaf.bool b).value _
    | number => exact IsLeaf.value (IsLeaf.number h) _
    | string => exact IsLeaf.value (IsLeaf.string h) _
    | array items =>
      rw [write, writeItems_eq]
      exact isValue_array (forall₂_map_self fun t ht => padded (ih (h t ht)))
    | object members =>
      rw [write, writeMembers_eq]
      refine isValue_object (forall₂_map_self ?_)
      intro m hm
      exact padded (isMember_memberText (h m hm).1 isBlank_nil (ih (h m hm).2))

end Foundation.JsonText
