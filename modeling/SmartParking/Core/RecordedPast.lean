import Mathlib.Algebra.BigOperators.Group.List.Basic
import Mathlib.Algebra.Order.BigOperators.Group.List
import Mathlib.Logic.Function.Basic
import SmartParking.Core.RollbackManager

/-! # Operations recorded by a rollback manager

A rollback manager of its own, over any slots and requests. Each operation records what it
is about to overwrite, so rolling back leads to the states before the latest operations.
-/
namespace SmartParking
open Foundation Foundation.UndoLog
variable {σ ρ : Type*}

/-- The objects that pointers to slots and to requests lead to. -/
structure Heap (σ ρ : Type*) where
  slots : σ → ParkingSlot
  requests : ρ → ParkingRequest

def Heap.access [DecidableEq σ] [DecidableEq ρ] : Access σ ρ (Heap σ ρ) where
  setIsAvailable m slot isAvailable :=
    { m with slots := Function.update m.slots slot ((m.slots slot).setIsAvailable isAvailable) }
  setCurrentState m request state :=
    { m with requests := Function.update m.requests request ((m.requests request).setCurrentState state) }

/-- One operation: the two pointers, the values set, and the values recorded for a pointer
that is null. -/
structure Operation (σ ρ : Type*) where
  slot : Option σ
  request : Option ρ
  isAvailable : Bool
  state : ParkingRequest.State
  unusedAvailability : Bool
  unusedState : ParkingRequest.State
  deriving DecidableEq, Repr

namespace Operation

def previousAvailability (operation : Operation σ ρ) (m : Heap σ ρ) : Bool :=
  match operation.slot with
  | some slot => (m.slots slot).isAvailable
  | none => operation.unusedAvailability

def previousState (operation : Operation σ ρ) (m : Heap σ ρ) : ParkingRequest.State :=
  match operation.request with
  | some request => (m.requests request).currentState
  | none => operation.unusedState

variable [DecidableEq σ] [DecidableEq ρ]

def write (operation : Operation σ ρ) (m : Heap σ ρ) : Heap σ ρ :=
  let m := match operation.slot with
    | some slot => Heap.access.setIsAvailable m slot operation.isAvailable
    | none => m
  match operation.request with
  | some request => Heap.access.setCurrentState m request operation.state
  | none => m

def perform (s : RollbackManager σ ρ × Heap σ ρ) (operation : Operation σ ρ) : RollbackManager σ ρ × Heap σ ρ :=
  (s.1.recordAllocation operation.slot (operation.previousAvailability s.2) operation.request
    (operation.previousState s.2), operation.write s.2)

end Operation

variable [DecidableEq σ] [DecidableEq ρ]

/-- One call of `rollback`. -/
def rollbackCall (s : RollbackManager σ ρ × Heap σ ρ) (k : ℤ) : RollbackManager σ ρ × Heap σ ρ :=
  s.1.rollback Heap.access k s.2

/-- A new manager, and then the operations. -/
def performAll (m₀ : Heap σ ρ) (operations : List (Operation σ ρ)) : RollbackManager σ ρ × Heap σ ρ :=
  Runs.run Operation.perform (⟨[]⟩, m₀) operations

/-- The state is that before the last `min k n` of the `n` operations, and the history keeps
the oldest records. -/
structure Restored (m₀ : Heap σ ρ) (operations : List (Operation σ ρ)) (k : ℕ)
    (after : RollbackManager σ ρ × Heap σ ρ) : Prop where
  slots : ∀ p, after.2.slots p =
    (performAll m₀ (operations.take (operations.length - min k operations.length))).2.slots p
  requests : ∀ r, after.2.requests r =
    (performAll m₀ (operations.take (operations.length - min k operations.length))).2.requests r
  history : after.1.history = (performAll m₀ operations).1.history.drop (min k operations.length)
  length : after.1.history.length = operations.length - min k operations.length

/-- The record an operation makes. -/
def Operation.record (operation : Operation σ ρ) (m : Heap σ ρ) : AllocationRecord σ ρ :=
  ⟨operation.slot, operation.previousAvailability m, operation.request, operation.previousState m⟩

theorem setIsAvailable_restores (m : Heap σ ρ) (slot : σ) (b : Bool) :
    Heap.access.setIsAvailable (Heap.access.setIsAvailable m slot b) slot (m.slots slot).isAvailable = m := by
  obtain ⟨slots, requests⟩ := m
  simp only [Heap.access, Function.update_self, Function.update_idem, ParkingSlot.setIsAvailable_setIsAvailable,
    ParkingSlot.setIsAvailable_self rfl, Function.update_eq_self]

theorem setCurrentState_restores (m : Heap σ ρ) (request : ρ) (state : ParkingRequest.State) :
    Heap.access.setCurrentState (Heap.access.setCurrentState m request state) request
      (m.requests request).currentState = m := by
  obtain ⟨slots, requests⟩ := m
  have hback : ((requests request).setCurrentState state).setCurrentState (requests request).currentState =
      requests request := rfl
  simp only [Heap.access, Function.update_self, Function.update_idem, hback, Function.update_eq_self]

/-- Restoring the record of an operation undoes it; a null part is skipped both times. -/
theorem restore_record (operation : Operation σ ρ) (m : Heap σ ρ) :
    (operation.record m).restore Heap.access (operation.write m) = m := by
  obtain ⟨slot, request, isAvailable, state, unusedAvailability, unusedState⟩ := operation
  cases slot with
  | none =>
    cases request with
    | none => rfl
    | some request => exact setCurrentState_restores m request state
  | some slot =>
    cases request with
    | none => exact setIsAvailable_restores m slot isAvailable
    | some request =>
      -- the writes to the slot and those to the request do not meet
      calc
        _ = Heap.access.setCurrentState (Heap.access.setCurrentState (Heap.access.setIsAvailable
              (Heap.access.setIsAvailable m slot isAvailable) slot (m.slots slot).isAvailable) request state)
              request (m.requests request).currentState := rfl
        _ = Heap.access.setCurrentState (Heap.access.setCurrentState m request state)
              request (m.requests request).currentState := by rw [setIsAvailable_restores]
        _ = m := setCurrentState_restores m request state

/-- The manager and the heap are a log and a memory that the operations push onto. -/
theorem performAll_eq (m₀ : Heap σ ρ) (operations : List (Operation σ ρ)) :
    performAll m₀ operations =
      (⟨(Runs.run (push Operation.record Operation.write) ([], m₀) operations).1⟩,
        (Runs.run (push Operation.record Operation.write) ([], m₀) operations).2) := by
  unfold performAll
  induction operations using List.reverseRecOn with
  | nil => rfl
  | append_singleton operations operation ih =>
    rw [Runs.run_append, Runs.run_cons, Runs.run_nil, ih, Runs.run_append, Runs.run_cons, Runs.run_nil]
    rfl

/-- Rolling back by several calls unwinds as many records as the calls ask for together. -/
theorem run_rollbackCall (s : RollbackManager σ ρ × Heap σ ρ) {ks : List ℤ} (hks : ∀ k ∈ ks, 0 ≤ k) :
    Runs.run rollbackCall s ks =
      (⟨(unwind (AllocationRecord.restore Heap.access) ks.sum.toNat s.1.history s.2).1⟩,
        (unwind (AllocationRecord.restore Heap.access) ks.sum.toNat s.1.history s.2).2) := by
  induction ks generalizing s with
  | nil => rfl
  | cons k ks ih =>
    have hk : 0 ≤ k := hks k List.mem_cons_self
    have hrest : ∀ x ∈ ks, 0 ≤ x := fun x hx => hks x (List.mem_cons_of_mem k hx)
    have hsum : (k :: ks).sum.toNat = k.toNat + ks.sum.toNat := by
      rw [List.sum_cons, Int.toNat_add hk (List.sum_nonneg hrest)]
    rw [Runs.run_cons, ih _ hrest, hsum, unwind_add, rollbackCall, RollbackManager.rollback,
      RollbackManager.rollbackLoop_eq_unwind]

/-- A call whose argument is not positive changes nothing. -/
theorem rollbackCall_of_nonpos (s : RollbackManager σ ρ × Heap σ ρ) {k : ℤ} (hk : k ≤ 0) : rollbackCall s k = s := by
  have hzero : k.toNat = 0 := by omega
  rw [rollbackCall, RollbackManager.rollback, RollbackManager.rollbackLoop_eq_unwind, hzero, unwind]

/-- Whatever was recorded, and however a rollback of `k` is split into calls, the past is
restored. -/
theorem rollback_restores (m₀ : Heap σ ρ) (operations : List (Operation σ ρ)) (k : ℕ) (ks : List ℤ)
    (hks : ∀ x ∈ ks, 0 ≤ x) (hsum : ks.sum = k) :
    Restored m₀ operations k (Runs.run rollbackCall (performAll m₀ operations) ks) ∧
      ∀ x ≤ 0, ∀ s : RollbackManager σ ρ × Heap σ ρ, rollbackCall s x = s := by
  refine ⟨?_, fun x hx s => rollbackCall_of_nonpos s hx⟩
  have hcount : operations.length - k = operations.length - min k operations.length := by omega
  have hlength : (Runs.run (push Operation.record Operation.write) ([], m₀) operations).1.length = operations.length :=
    length_run_push Operation.record Operation.write m₀ operations
  have hafter := run_rollbackCall (performAll m₀ operations) hks
  rw [hsum, Int.toNat_natCast] at hafter
  have hunwound := unwind_run (AllocationRecord.restore Heap.access) restore_record m₀ operations k
  have hpast : (Runs.run rollbackCall (performAll m₀ operations) ks).2 =
      (performAll m₀ (operations.take (operations.length - min k operations.length))).2 := by
    rw [hafter, performAll_eq, performAll_eq, ← hcount, ← hunwound]
  have hhistory : (Runs.run rollbackCall (performAll m₀ operations) ks).1.history =
      (performAll m₀ operations).1.history.drop k := by
    rw [hafter, unwind_eq]
  have hn : (performAll m₀ operations).1.history.length = operations.length := by
    rw [performAll_eq, hlength]
  have hdrop : (performAll m₀ operations).1.history.drop k =
      (performAll m₀ operations).1.history.drop (min k operations.length) := by
    rcases Nat.le_total k operations.length with hk | hk
    · rw [Nat.min_eq_left hk]
    · rw [Nat.min_eq_right hk, List.drop_eq_nil_of_le (hn.trans_le hk), List.drop_eq_nil_of_le hn.le]
  constructor
  · intro p
    rw [hpast]
  · intro r
    rw [hpast]
  · rw [hhistory, hdrop]
  · rw [hhistory, List.length_drop, hn, hcount]

/-- Two operations on one slot, the second with no request, rolled back by three calls. -/
theorem rollback_restores_twice_recorded :
    Restored (⟨fun _ => ⟨3, 1, true⟩, fun _ => ⟨7, "LEA-1", 3, 0, .requested⟩⟩ : Heap Bool Bool)
      [⟨some true, some false, false, .allocated, true, .requested⟩,
        ⟨some true, none, true, .released, true, .cancelled⟩] 2
      (Runs.run rollbackCall (performAll ⟨fun _ => ⟨3, 1, true⟩, fun _ => ⟨7, "LEA-1", 3, 0, .requested⟩⟩
        [⟨some true, some false, false, .allocated, true, .requested⟩,
          ⟨some true, none, true, .released, true, .cancelled⟩]) [1, 0, 1]) :=
  (rollback_restores _ _ 2 [1, 0, 1] (by decide) (by decide)).1

end SmartParking
