import Mathlib.Data.List.Basic

/-! # Loops that can fail

A loop whose steps may have no value. Nested loops are one loop over all elements, and a
loop has a value as long as its state leaves room for the elements still to come.
-/
namespace Foundation.CheckedLoop
variable {α β S : Type*}

theorem foldlM_flatMap (f : S → β → Option S) (g : α → List β) (l : List α) (s : S) :
    (l.flatMap g).foldlM f s = l.foldlM (fun s a => (g a).foldlM f s) s := by
  induction l generalizing s with
  | nil => rfl
  | cons a l ih =>
    rw [List.flatMap_cons, List.foldlM_append, List.foldlM_cons]
    simp only [ih]

/-- `Fits l s` says that the state leaves room for the elements of `l`. -/
theorem foldlM_of_fits {f : S → α → Option S} {g : S → α → S} {Fits : List α → S → Prop}
    (hstep : ∀ a l s, Fits (a :: l) s → f s a = some (g s a) ∧ Fits l (g s a)) {l : List α} {s : S}
    (h : Fits l s) : l.foldlM f s = some (l.foldl g s) := by
  induction l generalizing s with
  | nil => rfl
  | cons a l ih =>
    obtain ⟨hvalue, hfits⟩ := hstep a l s h
    rw [List.foldlM_cons, hvalue, List.foldl_cons]
    exact ih hfits

end Foundation.CheckedLoop
