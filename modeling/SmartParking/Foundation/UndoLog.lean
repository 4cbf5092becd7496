import Mathlib.Data.List.Basic
import SmartParking.Foundation.Runs

/-! # Undo logs

A log is a stack of records, the most recent one first. Restoring a record writes
back what it saved; unwinding pops and restores. A run may also extend the memory
between two records (a cell is added that no record mentions yet), so the memory
found after unwinding is the old one with those extensions applied to it.
-/
namespace Foundation.UndoLog
variable {R M : Type*} (restore : R → M → M)

def unwind : ℕ → List R → M → List R × M
  | 0, log, m => (log, m)
  | _ + 1, [], m => ([], m)
  | k + 1, r :: log, m => unwind k log (restore r m)

/-- Restore every record of a log, the most recent one first. -/
def replay (log : List R) (m : M) : M := log.foldl (fun m r => restore r m) m

@[simp] theorem replay_nil (m : M) : replay restore [] m = m := rfl
@[simp] theorem replay_cons (r : R) (log : List R) (m : M) :
    replay restore (r :: log) m = replay restore log (restore r m) := rfl

theorem unwind_eq (k : ℕ) (log : List R) (m : M) :
    unwind restore k log m = (log.drop k, replay restore (log.take k) m) := by
  induction k generalizing log m with
  | zero => simp [unwind]
  | succ k ih =>
    cases log with
    | nil => simp [unwind]
    | cons r log => simp [unwind, ih]

theorem unwind_pushed (pushed log : List R) (m : M) :
    unwind restore pushed.length (pushed ++ log) m = (log, replay restore pushed m) := by
  rw [unwind_eq, List.drop_left, List.take_left]

/-- Unwinding in two goes is unwinding in one. -/
theorem unwind_add (j k : ℕ) (log : List R) (m : M) :
    unwind restore (j + k) log m =
      unwind restore k (unwind restore j log m).1 (unwind restore j log m).2 := by
  rw [unwind_eq, unwind_eq, unwind_eq, List.drop_drop, List.take_add]
  simp only [replay, List.foldl_append]

/-- An operation that acts on the memory once it has recorded what it will overwrite. -/
def push {O : Type*} (record : O → M → R) (act : O → M → M) (s : List R × M) (o : O) : List R × M :=
  (record o s.2 :: s.1, act o s.2)

/-- Where every record undoes its operation, unwinding goes back to any earlier moment of a run. -/
theorem unwind_run {O : Type*} {record : O → M → R} {act : O → M → M}
    (hrestore : ∀ o m, restore (record o m) (act o m) = m) (m₀ : M) (ops : List O) (k : ℕ) :
    unwind restore k (Runs.run (push record act) ([], m₀) ops).1 (Runs.run (push record act) ([], m₀) ops).2 =
      Runs.run (push record act) ([], m₀) (ops.take (ops.length - k)) := by
  induction k generalizing ops with
  | zero =>
    rw [Nat.sub_zero, List.take_length]
    rfl
  | succ k ih =>
    cases ops using List.reverseRecOn with
    | nil => rw [List.take_nil, Runs.run_nil, unwind]
    | append_singleton ops o =>
      rw [Runs.run_append, Runs.run_cons, Runs.run_nil, push, unwind, hrestore, ih, List.length_append,
        List.length_singleton, Nat.add_sub_add_right, List.take_append_of_le_length (Nat.sub_le _ _)]

theorem length_run_push {O : Type*} (record : O → M → R) (act : O → M → M) (m₀ : M) (ops : List O) :
    (Runs.run (push record act) ([], m₀) ops).1.length = ops.length := by
  induction ops using List.reverseRecOn with
  | nil => rfl
  | append_singleton ops o ih =>
    rw [Runs.run_append, Runs.run_cons, Runs.run_nil, push, List.length_cons, ih, List.length_append,
      List.length_singleton]

/-- What a record needs of the memory it is restored in, and which extensions of
the memory do not disturb it. -/
structure Extensible (Valid : R → M → Prop) (Ext : (M → M) → Prop) : Prop where
  comm : ∀ {e r m}, Ext e → Valid r m → restore r (e m) = e (restore r m)
  valid_ext : ∀ {e r m}, Ext e → Valid r m → Valid r (e m)
  valid_restore : ∀ {q r m}, Valid q (restore r m) ↔ Valid q m

variable {Valid : R → M → Prop} {Ext : (M → M) → Prop}

/-- `Recorded m₀ pushed m target`: a run from `m₀` pushed these records and reached
`m`, and the extensions it made turn `m₀` into `target`. A recorded step may change
the memory at will, as long as restoring its record gives the memory back. -/
inductive Recorded (Valid : R → M → Prop) (Ext : (M → M) → Prop) (m₀ : M) :
    List R → M → M → Prop
  | start : Recorded Valid Ext m₀ [] m₀ m₀
  | extend {pushed m target} (e : M → M) (he : Ext e) (h : Recorded Valid Ext m₀ pushed m target) :
      Recorded Valid Ext m₀ pushed (e m) (e target)
  | record {pushed m target m'} (r : R) (e : M → M) (he : Ext e) (hr : Valid r m')
      (hm : restore r m' = e m) (h : Recorded Valid Ext m₀ pushed m target) :
      Recorded Valid Ext m₀ (r :: pushed) m' (e target)

variable {restore}

theorem Recorded.valid (hx : Extensible restore Valid Ext) {m₀ m target : M} {pushed : List R}
    (h : Recorded restore Valid Ext m₀ pushed m target) : ∀ r ∈ pushed, Valid r m := by
  induction h with
  | start => simp
  | extend e he _ ih => exact fun r hr => hx.valid_ext he (ih r hr)
  | record r e he hr hm _ ih =>
    intro q hq
    rcases List.mem_cons.mp hq with rfl | hq
    · exact hr
    · have hv : Valid q (e _) := hx.valid_ext he (ih q hq)
      exact hx.valid_restore.mp (hm ▸ hv)

theorem Extensible.replay_ext (hx : Extensible restore Valid Ext) {e : M → M} (he : Ext e)
    {log : List R} {m : M} (hv : ∀ r ∈ log, Valid r m) :
    replay restore log (e m) = e (replay restore log m) := by
  induction log generalizing m with
  | nil => rfl
  | cons r log ih =>
    rw [replay_cons, replay_cons, hx.comm he (hv r List.mem_cons_self)]
    exact ih (fun q hq => hx.valid_restore.mpr (hv q (List.mem_cons_of_mem _ hq)))

/-- Restoring everything a run recorded undoes all but its extensions. -/
theorem Recorded.replay_eq (hx : Extensible restore Valid Ext) {m₀ m target : M} {pushed : List R}
    (h : Recorded restore Valid Ext m₀ pushed m target) : replay restore pushed m = target := by
  induction h with
  | start => rfl
  | extend e he h ih => rw [hx.replay_ext he (h.valid hx), ih]
  | record r e he hr hm h ih => rw [replay_cons, hm, hx.replay_ext he (h.valid hx), ih]

end Foundation.UndoLog
