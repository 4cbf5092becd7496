import Mathlib.Order.Defs.LinearOrder
import Mathlib.Data.Nat.Notation

/-! # The least candidate

Candidates are numbered from 1 on, and 0 stands for none. The least one of two kinds of
candidates is the lesser of the least ones of each.
-/
namespace Foundation.LeastCandidate
variable {α : Type*} {Candidate Other : ℕ → α → Prop} {a b : ℕ × α}

/-- The lesser of two answers, where the first one stays if they have the same number. -/
def lesser (a b : ℕ × α) : ℕ × α := if b.1 ≠ 0 ∧ (a.1 = 0 ∨ b.1 < a.1) then b else a

/-- The answer is a candidate with the least number, or there is none. -/
structure Finds (Candidate : ℕ → α → Prop) (a : ℕ × α) : Prop where
  sound : a.1 ≠ 0 → Candidate a.1 a.2
  least : ∀ n x, Candidate n x → a.1 ≠ 0 ∧ a.1 ≤ n

theorem finds_none (x : α) (h : ∀ n x, ¬ Candidate n x) : Finds Candidate (0, x) :=
  ⟨fun hne => absurd rfl hne, fun n x hx => absurd hx (h n x)⟩

theorem Finds.congr (h : Finds Candidate a) (hiff : ∀ n x, Candidate n x ↔ Other n x) : Finds Other a :=
  ⟨fun hne => (hiff _ _).mp (h.sound hne), fun n x hx => h.least n x ((hiff n x).mpr hx)⟩

theorem Finds.lesser (h : Finds Candidate a) (h' : Finds Other b) :
    Finds (fun n x => Candidate n x ∨ Other n x) (lesser a b) := by
  unfold LeastCandidate.lesser
  split
  · next hb =>
    refine ⟨fun hne => Or.inr (h'.sound hne), ?_⟩
    rintro n x (hx | hx)
    · have hleast := h.least n x hx
      exact ⟨hb.1, by omega⟩
    · exact h'.least n x hx
  · next hb =>
    refine ⟨fun hne => Or.inl (h.sound hne), ?_⟩
    rintro n x (hx | hx)
    · exact h.least n x hx
    · have hleast := h'.least n x hx
      by_cases hzero : a.1 = 0
      · exact absurd ⟨hleast.1, Or.inl hzero⟩ hb
      · refine ⟨hzero, ?_⟩
        by_contra hlt
        exact hb ⟨hleast.1, Or.inr (by omega)⟩

theorem Finds.eq_zero_iff (h : Finds Candidate a) : a.1 = 0 ↔ ∀ n x, ¬ Candidate n x := by
  constructor
  · exact fun hzero n x hx => (h.least n x hx).1 hzero
  · intro hnone
    by_contra hne
    exact hnone _ _ (h.sound hne)

end Foundation.LeastCandidate
