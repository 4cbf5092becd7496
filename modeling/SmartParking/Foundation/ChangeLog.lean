import Mathlib.Logic.Function.Basic
import Mathlib.Data.List.Basic

/-! # Change logs

A memory holds a value at each place. A log, the most recent change first, leads from one
memory to another when each change found what it says it found. Replaying the log gives
the memory it leads to, the changes of each place form a chain, and the latest change can
be reverted.
-/
namespace Foundation.ChangeLog
variable {P V : Type*} [DecidableEq P]

structure Change (P V : Type*) where
  place : P
  before : V
  after : V

def Change.apply (c : Change P V) (m : P → V) : P → V := Function.update m c.place c.after

def Change.revert (c : Change P V) (m : P → V) : P → V := Function.update m c.place c.before

inductive Leads (m₀ : P → V) : List (Change P V) → (P → V) → Prop
  | start : Leads m₀ [] m₀
  | push {log m} (c : Change P V) (hbefore : m c.place = c.before) (h : Leads m₀ log m) :
      Leads m₀ (c :: log) (c.apply m)

/-- The changes lead from one value to another, each from the value the one before it left. -/
def Linked : V → List (Change P V) → V → Prop
  | first, [], last => first = last
  | first, c :: log, last => c.after = last ∧ Linked first log c.before

variable {m₀ m : P → V} {log : List (Change P V)} {c : Change P V}

theorem Leads.replay_eq (h : Leads m₀ log m) : log.foldr Change.apply m₀ = m := by
  induction h with
  | start => rfl
  | push c _ _ ih => rw [List.foldr_cons, ih]

theorem Leads.linked (h : Leads m₀ log m) (p : P) :
    Linked (m₀ p) (log.filter (fun c => c.place = p)) (m p) := by
  induction h with
  | start => rfl
  | push c hbefore _ ih =>
    rw [List.filter_cons]
    by_cases hp : c.place = p
    · subst hp
      rw [if_pos (decide_eq_true rfl), Change.apply, Function.update_self]
      exact ⟨rfl, hbefore ▸ ih⟩
    · rw [if_neg (by simpa using hp), Change.apply, Function.update_of_ne (Ne.symm hp)]
      exact ih

theorem Leads.revert (h : Leads m₀ (c :: log) m) : Leads m₀ log (c.revert m) ∧ m c.place = c.after := by
  cases h with
  | push _ hbefore h =>
    constructor
    · rw [Change.revert, Change.apply, Function.update_idem, ← hbefore, Function.update_eq_self]
      exact h
    · rw [Change.apply, Function.update_self]

/-- Places no change is about may be given any values, in both memories alike. -/
theorem Leads.extend (h : Leads m₀ log m) (K : P → Prop) [DecidablePred K] (hK : ∀ c ∈ log, K c.place)
    (e : P → V) : Leads (fun p => if K p then m₀ p else e p) log (fun p => if K p then m p else e p) := by
  induction h with
  | start => exact Leads.start
  | @push log m c hbefore _ ih =>
    have hplace : K c.place := hK c List.mem_cons_self
    have hrest := ih (fun c' hc' => hK c' (List.mem_cons_of_mem c hc'))
    have happly : (fun p => if K p then c.apply m p else e p) = c.apply (fun p => if K p then m p else e p) := by
      funext p
      by_cases hp : p = c.place
      · subst hp
        rw [if_pos hplace, Change.apply, Change.apply, Function.update_self, Function.update_self]
      · rw [Change.apply, Change.apply, Function.update_of_ne hp, Function.update_of_ne hp]
    rw [happly]
    apply Leads.push c _ hrest
    rw [if_pos hplace]
    exact hbefore

end Foundation.ChangeLog
