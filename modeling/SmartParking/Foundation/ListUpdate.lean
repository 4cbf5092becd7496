import Mathlib.Data.List.Basic

/-! # Updates at a position of a list

How `List.modify` meets appending, and when it changes nothing.
-/
namespace Foundation.ListUpdate
variable {α : Type*} {f : α → α}

theorem modify_append_left {l : List α} {i : ℕ} (h : i < l.length) (more : List α) :
    (l ++ more).modify i f = l.modify i f ++ more := by
  apply List.ext_getElem?
  intro j
  rw [List.getElem?_modify]
  by_cases hj : j < l.length
  · rw [List.getElem?_append_left hj, List.getElem?_append_left (by simpa using hj), List.getElem?_modify]
  · have hij : i ≠ j := by omega
    rw [List.getElem?_append_right (by omega), List.getElem?_append_right (by simpa using hj)]
    simp [hij]

theorem modify_append_last (l : List α) (a : α) : (l ++ [a]).modify l.length f = l ++ [f a] := by
  induction l with
  | nil => rfl
  | cons b l ih => simp [ih]

theorem modify_fixed {l : List α} {i : ℕ} {a : α} (h : l[i]? = some a) (hf : f a = a) :
    l.modify i f = l := by
  apply List.ext_getElem?
  intro j
  rw [List.getElem?_modify]
  by_cases hij : i = j
  · subst hij
    simp [h, hf]
  · simp [hij]

theorem map_modify {β : Type*} {g : α → β} {f' : β → β} {l : List α} {i : ℕ}
    (h : ∀ a, l[i]? = some a → g (f a) = f' (g a)) : (l.modify i f).map g = (l.map g).modify i f' := by
  apply List.ext_getElem?
  intro j
  simp only [List.getElem?_map, List.getElem?_modify]
  by_cases hij : i = j
  · subst hij
    cases hl : l[i]? with
    | none => simp
    | some a => simp [h a hl]
  · simp [hij]

/-- An update that `g` does not see. -/
theorem map_modify_of_eq {β : Type*} {g : α → β} (h : ∀ a, g (f a) = g a) (l : List α) (i : ℕ) :
    (l.modify i f).map g = l.map g := by
  have hmap : (l.modify i f).map g = (l.map g).modify i id := map_modify (fun a _ => h a)
  rw [hmap, List.modify_id]

/-- Around the element a position names, every update there looks alike. -/
theorem modify_split {l : List α} {i : ℕ} {a : α} (h : l[i]? = some a) :
    ∃ pre post, l = pre ++ a :: post ∧ ∀ f : α → α, l.modify i f = pre ++ f a :: post := by
  obtain ⟨hi, rfl⟩ := List.getElem?_eq_some_iff.mp h
  refine ⟨l.take i, l.drop (i + 1), ?_, fun f => List.modify_eq_take_cons_drop hi⟩
  rw [List.getElem_cons_drop, List.take_append_drop]

end Foundation.ListUpdate
