import Mathlib.Data.List.Basic
import Mathlib.Data.List.Infix

/-! # Runs of a deterministic transition system

A system is a step function on states. A property of runs is stated over the
prefixes of a list of operations, so that a statement about every state of a run
and one about every step of it can be compared with each other.
-/
namespace Foundation.Runs
variable {S T O P : Type*} (step : S → O → S)

def run (s : S) (ops : List O) : S := ops.foldl step s

@[simp] theorem run_nil (s : S) : run step s [] = s := rfl
@[simp] theorem run_cons (s : S) (o : O) (ops : List O) :
    run step s (o :: ops) = run step (step s o) ops := rfl
@[simp] theorem run_append (s : S) (ops rest : List O) :
    run step s (ops ++ rest) = run step (run step s ops) rest := List.foldl_append

theorem run_invariant {I : S → Prop} {A : O → Prop} (hstep : ∀ s o, A o → I s → I (step s o))
    {s : S} {ops : List O} (hops : ∀ o ∈ ops, A o) (hs : I s) : I (run step s ops) := by
  induction ops generalizing s with
  | nil => exact hs
  | cons o rest ih =>
    have ho : I (step s o) := hstep s o (hops o List.mem_cons_self) hs
    exact ih (fun o' ho' => hops o' (List.mem_cons_of_mem _ ho')) ho

/-- `Q` holds of every state the run passes through, the first one included. -/
def EveryState (Q : S → Prop) (s : S) (ops : List O) : Prop :=
  ∀ pre, pre <+: ops → Q (run step s pre)

/-- `C` holds of every step of the run, at the state it is taken in. -/
def EveryStep (C : S → O → Prop) (s : S) (ops : List O) : Prop :=
  ∀ pre o, pre ++ [o] <+: ops → C (run step s pre) o

theorem everyState_nil {Q : S → Prop} {s : S} : EveryState step Q s [] ↔ Q s := by
  constructor
  · intro h
    exact h [] (List.prefix_refl _)
  · intro h pre hpre
    rw [List.prefix_nil.mp hpre]
    exact h

theorem everyState_cons {Q : S → Prop} {s : S} {o : O} {ops : List O} :
    EveryState step Q s (o :: ops) ↔ Q s ∧ EveryState step Q (step s o) ops := by
  constructor
  · intro h
    refine ⟨h [] (List.nil_prefix), ?_⟩
    intro pre hpre
    exact h (o :: pre) (List.cons_prefix_cons.mpr ⟨rfl, hpre⟩)
  · rintro ⟨hs, h⟩ pre hpre
    cases pre with
    | nil => exact hs
    | cons a pre =>
      obtain ⟨rfl, hrest⟩ := List.cons_prefix_cons.mp hpre
      exact h pre hrest

/-- A step-by-step simulation from the good states lifts to the runs that stay good. -/
theorem run_simulation {step' : T → P → T} (abs : S → T) (label : O → P) {Q : S → Prop}
    (hsim : ∀ s o, Q s → abs (step s o) = step' (abs s) (label o)) {s : S} {ops : List O}
    (h : EveryState step Q s ops) : abs (run step s ops) = run step' (abs s) (ops.map label) := by
  induction ops generalizing s with
  | nil => rfl
  | cons o rest ih =>
    obtain ⟨hs, hrest⟩ := (everyState_cons step).mp h
    rw [run_cons, ih hrest, hsim s o hs, List.map_cons, run_cons]

theorem everyStep_nil {C : S → O → Prop} {s : S} : EveryStep step C s [] := by
  intro pre o h
  have := List.prefix_nil.mp h
  simp at this

theorem everyStep_cons {C : S → O → Prop} {s : S} {o : O} {ops : List O} :
    EveryStep step C s (o :: ops) ↔ C s o ∧ EveryStep step C (step s o) ops := by
  constructor
  · intro h
    refine ⟨h [] o (List.cons_prefix_cons.mpr ⟨rfl, List.nil_prefix⟩), ?_⟩
    intro pre o' hpre
    exact h (o :: pre) o' (List.cons_prefix_cons.mpr ⟨rfl, hpre⟩)
  · rintro ⟨hc, h⟩ pre o' hpre
    cases pre with
    | nil =>
      obtain ⟨rfl, -⟩ := List.cons_prefix_cons.mp hpre
      exact hc
    | cons a pre =>
      obtain ⟨rfl, hrest⟩ := List.cons_prefix_cons.mp hpre
      exact h pre o' hrest

/-- Where `C` is exactly what an admissible step from a good state needs to reach a good
state, the admissible runs that stay good are exactly those whose steps all meet `C`. -/
theorem everyState_iff_of_everyStep {I Q : S → Prop} {A C : S → O → Prop}
    (hI : ∀ s o, A s o → I s → I (step s o))
    (hQ : ∀ s o, A s o → I s → Q s → (Q (step s o) ↔ C s o))
    {s : S} {ops : List O} (hops : EveryStep step A s ops) (hs : I s) (hq : Q s) :
    EveryState step Q s ops ↔ EveryStep step C s ops := by
  induction ops generalizing s with
  | nil => simp only [everyState_nil, hq, everyStep_nil]
  | cons o rest ih =>
    obtain ⟨ho, hrest⟩ := (everyStep_cons step).mp hops
    rw [everyState_cons, everyStep_cons]
    constructor
    · rintro ⟨-, h⟩
      have hq' : Q (step s o) := h [] List.nil_prefix
      exact ⟨(hQ s o ho hs hq).mp hq', (ih hrest (hI s o ho hs) hq').mp h⟩
    · rintro ⟨hc, h⟩
      have hq' : Q (step s o) := (hQ s o ho hs hq).mpr hc
      exact ⟨hq, (ih hrest (hI s o ho hs) hq').mpr h⟩

/-- The case of operations that are admissible whatever the state. -/
theorem everyState_iff_everyStep {I Q : S → Prop} {C : S → O → Prop} {A : O → Prop}
    (hI : ∀ s o, A o → I s → I (step s o))
    (hQ : ∀ s o, A o → I s → Q s → (Q (step s o) ↔ C s o))
    {s : S} {ops : List O} (hops : ∀ o ∈ ops, A o) (hs : I s) (hq : Q s) :
    EveryState step Q s ops ↔ EveryStep step C s ops := by
  have hadmissible : EveryStep step (fun _ o => A o) s ops := by
    intro pre o hpre
    exact hops o (hpre.subset (List.mem_append_right _ (List.mem_singleton_self o)))
  exact everyState_iff_of_everyStep step hI hQ hadmissible hs hq

/-- A reflexive and transitive relation that every step of a run respects links
any state of the run to every later one. -/
theorem everyStep_related {R : S → S → Prop} (hrefl : ∀ s, R s s)
    (htrans : ∀ a b c, R a b → R b c → R a c) {s : S} {ops : List O}
    (h : EveryStep step (fun s o => R s (step s o)) s ops) : R s (run step s ops) := by
  induction ops generalizing s with
  | nil => exact hrefl s
  | cons o rest ih =>
    obtain ⟨ho, hrest⟩ := (everyStep_cons step).mp h
    exact htrans _ _ _ ho (ih hrest)

/-- A ghost value that any step can extend to one that fits the next state, without losing
what it says of this one, extends to one value that fits every state of a run. -/
theorem exists_everyState_of_extends {G : Type*} {I : G → S → Prop} {E : S → G → G → Prop}
    (hrefl : ∀ s g, E s g g) (htrans : ∀ s g₁ g₂ g₃, E s g₁ g₂ → E s g₂ g₃ → E s g₁ g₃)
    (hkeep : ∀ s g g', I g s → E s g g' → I g' s)
    (hmono : ∀ s o g g₁ g₂, I g s → E (step s o) g₁ g₂ → E s g₁ g₂)
    (hstep : ∀ s o g, I g s → ∃ g', E s g g' ∧ I g' (step s o))
    {s : S} {g : G} (hs : I g s) (ops : List O) : ∃ g', E s g g' ∧ EveryState step (I g') s ops := by
  induction ops generalizing s g with
  | nil => exact ⟨g, hrefl s g, (everyState_nil step).mpr hs⟩
  | cons o rest ih =>
    obtain ⟨g₁, hext, hnext⟩ := hstep s o g hs
    obtain ⟨g₂, hext', hrun⟩ := ih hnext
    have hall : E s g g₂ := htrans s g g₁ g₂ hext (hmono s o g g₁ g₂ hs hext')
    exact ⟨g₂, hall, (everyState_cons step).mpr ⟨hkeep s g g₂ hs hall, hrun⟩⟩

variable {step}

theorem EveryStep.of_prefix {C : S → O → Prop} {s : S} {ops ops' : List O}
    (h : EveryStep step C s ops') (hp : ops <+: ops') : EveryStep step C s ops :=
  fun pre o hpre => h pre o (hpre.trans hp)

theorem EveryStep.suffix {C : S → O → Prop} {s : S} {pre rest : List O}
    (h : EveryStep step C s (pre ++ rest)) : EveryStep step C (run step s pre) rest := by
  intro mid o hmid
  rw [← run_append]
  exact h (pre ++ mid) o (by rw [List.append_assoc]; exact (List.prefix_append_right_inj pre).mpr hmid)

/-- The relation is kept between any two states of a run exactly when every step
keeps it. -/
theorem everyStep_related_iff {R : S → S → Prop} (hrefl : ∀ s, R s s)
    (htrans : ∀ a b c, R a b → R b c → R a c) {s : S} {ops : List O} :
    EveryStep step (fun s o => R s (step s o)) s ops ↔
      ∀ pre mid, pre ++ mid <+: ops → R (run step s pre) (run step s (pre ++ mid)) := by
  constructor
  · intro h pre mid hpre
    rw [run_append]
    exact everyStep_related step hrefl htrans (h.of_prefix hpre).suffix
  · intro h pre o hpre
    simpa using h pre [o] hpre

end Foundation.Runs
