import SmartParking.Core.Requests
import SmartParking.Foundation.UndoLog

/-! # The rollback manager

`RollBackManager.cpp`, generic in what a pointer to a slot (`σ`) and to a request
(`ρ`) is and in the memory (`M`) these pointers reach. The stack is a list with its
top first, and a null pointer is `none`.
-/
namespace SmartParking
open Foundation.UndoLog
variable {σ ρ M : Type*}

structure AllocationRecord (σ ρ : Type*) where
  slot : Option σ
  previousAvailability : Bool
  request : Option ρ
  previousRequestState : ParkingRequest.State
  deriving DecidableEq, Repr

/-- The two writes made through recorded pointers. -/
structure Access (σ ρ M : Type*) where
  setIsAvailable : M → σ → Bool → M
  setCurrentState : M → ρ → ParkingRequest.State → M

/-- The body of the loop of `rollback`, after `history.pop()`. -/
def AllocationRecord.restore (access : Access σ ρ M) (record : AllocationRecord σ ρ) (m : M) : M :=
  let m := match record.slot with
    | some slot => access.setIsAvailable m slot record.previousAvailability
    | none => m
  match record.request with
  | some request => access.setCurrentState m request record.previousRequestState
  | none => m

structure RollbackManager (σ ρ : Type*) where
  history : List (AllocationRecord σ ρ)
  deriving DecidableEq, Repr

namespace RollbackManager

def recordAllocation (manager : RollbackManager σ ρ) (slot : Option σ) (previousAvailability : Bool)
    (request : Option ρ) (previousRequestState : ParkingRequest.State) : RollbackManager σ ρ :=
  ⟨⟨slot, previousAvailability, request, previousRequestState⟩ :: manager.history⟩

def rollbackLoop (access : Access σ ρ M) :
    ℤ → List (AllocationRecord σ ρ) → M → List (AllocationRecord σ ρ) × M
  | _, [], m => ([], m)
  | k, record :: history, m =>
    if 0 < k then rollbackLoop access (k - 1) history (record.restore access m)
    else (record :: history, m)

def rollback (access : Access σ ρ M) (manager : RollbackManager σ ρ) (k : ℤ) (m : M) :
    RollbackManager σ ρ × M :=
  let (history, m) := rollbackLoop access k manager.history m
  (⟨history⟩, m)

/-- The loop unwinds `k` records, and none when `k` is not positive. -/
theorem rollbackLoop_eq_unwind (access : Access σ ρ M) (k : ℤ) (history : List (AllocationRecord σ ρ))
    (m : M) :
    rollbackLoop access k history m = unwind (AllocationRecord.restore access) k.toNat history m := by
  induction history generalizing k m with
  | nil =>
    unfold rollbackLoop
    cases k.toNat <;> rfl
  | cons record history ih =>
    unfold rollbackLoop
    by_cases hk : 0 < k
    · have hsucc : k.toNat = (k - 1).toNat + 1 := by omega
      rw [if_pos hk, hsucc, unwind, ih]
    · have hzero : k.toNat = 0 := by omega
      rw [if_neg hk, hzero, unwind]

theorem rollback_one_nil (access : Access σ ρ M) (m : M) :
    (⟨[]⟩ : RollbackManager σ ρ).rollback access 1 m = (⟨[]⟩, m) := rfl

/-- Rolling back once pops the top record and restores it. -/
theorem rollback_one_cons (access : Access σ ρ M) (record : AllocationRecord σ ρ)
    (history : List (AllocationRecord σ ρ)) (m : M) :
    (⟨record :: history⟩ : RollbackManager σ ρ).rollback access 1 m =
      (⟨history⟩, record.restore access m) := by
  simp only [rollback, rollbackLoop_eq_unwind]
  rfl

end RollbackManager

end SmartParking
