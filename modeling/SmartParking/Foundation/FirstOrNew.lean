import Mathlib.Data.List.Basic

/-! # Update or append

The first element of a list that passes a test is updated, and where there is none a new
element is updated and appended. The update can fail.
-/
namespace Foundation.FirstOrNew
variable {α : Type*} (test : α → Bool) (f : α → Option α) (new : α)

def updateFirst : List α → Option (List α)
  | [] => (f new).map fun a => [a]
  | a :: as => if test a then (f a).map fun a => a :: as else (updateFirst as).map fun as => a :: as

theorem updateFirst_of_pass {pre : List α} (hpre : ∀ b ∈ pre, test b = false) {a : α} (ha : test a = true)
    (post : List α) :
    updateFirst test f new (pre ++ a :: post) = (f a).map fun a => pre ++ a :: post := by
  induction pre with
  | nil => rw [List.nil_append, updateFirst, if_pos ha]; rfl
  | cons b pre ih =>
    obtain ⟨hb, hpre⟩ := List.forall_mem_cons.mp hpre
    rw [List.cons_append, updateFirst, hb, if_neg Bool.false_ne_true, ih hpre, Option.map_map]
    rfl

theorem updateFirst_of_fail {as : List α} (h : ∀ a ∈ as, test a = false) :
    updateFirst test f new as = (f new).map fun a => as ++ [a] := by
  induction as with
  | nil => rfl
  | cons a as ih =>
    obtain ⟨ha, has⟩ := List.forall_mem_cons.mp h
    rw [updateFirst, ha, if_neg Bool.false_ne_true, ih has, Option.map_map]
    rfl

end Foundation.FirstOrNew
