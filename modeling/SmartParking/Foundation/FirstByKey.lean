import Mathlib.Data.List.Basic
import Mathlib.Data.List.Nodup

/-! # First occurrences by key

The elements of a list that no earlier element shares its key with, in their order.
-/
namespace Foundation.FirstByKey
variable {α κ : Type*} [DecidableEq κ] (key : α → κ)

def firstBy : List α → List α
  | [] => []
  | a :: l => a :: (firstBy l).filter (fun b => key b ≠ key a)

theorem firstBy_sublist (l : List α) : (firstBy key l).Sublist l := by
  induction l with
  | nil => exact List.Sublist.refl _
  | cons a l ih => exact (List.filter_sublist.trans ih).cons_cons a

/-- An element is kept exactly when the first element with its key is the element itself. -/
theorem mem_firstBy {l : List α} {a : α} :
    a ∈ firstBy key l ↔ l.find? (fun b => key b = key a) = some a := by
  induction l with
  | nil => simp [firstBy]
  | cons b l ih =>
    by_cases hkey : key b = key a
    · simp [firstBy, hkey, eq_comm]
    · have hne : a ≠ b := fun heq => hkey (congrArg key heq.symm)
      have hkey' : key a ≠ key b := fun heq => hkey heq.symm
      simp [firstBy, hkey, hne, ih, hkey']

theorem mem_map_firstBy {l : List α} {k : κ} : k ∈ (firstBy key l).map key ↔ k ∈ l.map key := by
  induction l with
  | nil => simp [firstBy]
  | cons a l ih =>
    simp only [firstBy, List.map_cons, List.mem_cons, ← ih, List.mem_map, List.mem_filter, decide_eq_true_eq]
    constructor
    · rintro (h | ⟨b, ⟨hb, -⟩, h⟩)
      · exact Or.inl h
      · exact Or.inr ⟨b, hb, h⟩
    · rintro (h | ⟨b, hb, h⟩)
      · exact Or.inl h
      · by_cases hk : k = key a
        · exact Or.inl hk
        · exact Or.inr ⟨b, ⟨hb, h ▸ hk⟩, h⟩

theorem nodup_firstBy (l : List α) : ((firstBy key l).map key).Nodup := by
  induction l with
  | nil => exact List.nodup_nil
  | cons a l ih =>
    rw [firstBy, List.map_cons, List.nodup_cons]
    constructor
    · simp
    · exact ih.sublist (List.filter_sublist.map key)

/-- One element more is kept exactly when its key is new. -/
theorem firstBy_concat (l : List α) (a : α) :
    firstBy key (l ++ [a]) = if key a ∈ l.map key then firstBy key l else firstBy key l ++ [a] := by
  induction l with
  | nil => simp [firstBy]
  | cons b l ih =>
    rw [List.cons_append, firstBy, ih]
    by_cases hb : key a = key b
    · have hmem : key a ∈ (b :: l).map key := by rw [List.map_cons, hb]; exact List.mem_cons_self
      rw [if_pos hmem]
      split
      · rfl
      · rw [List.filter_append]
        simp [firstBy, hb]
    · by_cases hl : key a ∈ l.map key
      · have hmem : key a ∈ (b :: l).map key := List.mem_cons_of_mem _ hl
        rw [if_pos hl, if_pos hmem, firstBy]
      · have hmem : key a ∉ (b :: l).map key := by
          rw [List.map_cons, List.mem_cons]
          exact not_or.mpr ⟨hb, hl⟩
        rw [if_neg hl, if_neg hmem, List.filter_append]
        simp [firstBy, hb]

end Foundation.FirstByKey
