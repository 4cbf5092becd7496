import SmartParking.Foundation.Runs

/-! # Exchanges

A machine that answers some of the inputs that arrive and takes no notice of the others. What
one answer does to a part of the state, all answers of a run do one after the other.
-/
namespace Foundation.Exchanges
variable {S T I O : Type*} (step : S → I → Option (O × S))

/-- The state after an input. -/
def next (s : S) (i : I) : S :=
  match step s i with
  | some (_, s') => s'
  | none => s

/-- The inputs that are answered, with their answers. -/
def exchanges : S → List I → List (I × O)
  | _, [] => []
  | s, i :: is =>
    match step s i with
    | some (o, s') => (i, o) :: exchanges s' is
    | none => exchanges s is

/-- The state after all inputs. -/
def final (s : S) (is : List I) : S := Runs.run (next step) s is

variable {step} {inv : S → Prop}

theorem next_of_some {s s' : S} {i : I} {o : O} (h : step s i = some (o, s')) : next step s i = s' := by
  rw [next, h]

theorem inv_next (hstep : ∀ s i o s', inv s → step s i = some (o, s') → inv s') {s : S} (hs : inv s) (i : I) :
    inv (next step s i) := by
  cases h : step s i with
  | none =>
    rw [next, h]
    exact hs
  | some r =>
    rw [next_of_some h]
    exact hstep s i r.1 r.2 hs h

/-- What every answer keeps, a run keeps. -/
theorem inv_final (hstep : ∀ s i o s', inv s → step s i = some (o, s') → inv s') {s : S} (hs : inv s) (is : List I) :
    inv (final step s is) := by
  have hnext : ∀ s i, True → inv s → inv (next step s i) := fun _ i _ h => inv_next hstep h i
  exact Runs.run_invariant (next step) hnext (fun _ _ => trivial) hs

end Foundation.Exchanges
