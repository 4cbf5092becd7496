import SmartParking.Core.Slots

/-! # Parking requests and vehicles

`ParkingRequest.cpp` and `Vehicle.cpp`. A refused transition returns `false` after
writing a line to `std::cerr` and leaves the request as it was: it is the `error`
case of `changeState`, with that line.
-/
namespace SmartParking

structure Vehicle where
  vehicleId : String
  preferredZone : ℤ
  deriving DecidableEq, Repr

inductive ParkingRequest.State
  | requested
  | allocated
  | occupied
  | released
  | cancelled
  deriving DecidableEq, Repr

/-- `static_cast<int>` of the enumeration. -/
def ParkingRequest.State.toInt : ParkingRequest.State → ℤ
  | requested => 0
  | allocated => 1
  | occupied => 2
  | released => 3
  | cancelled => 4

structure ParkingRequest where
  requestId : ℤ
  vehicleId : String
  requestedZone : ℤ
  requestTime : ℤ
  currentState : ParkingRequest.State
  deriving DecidableEq, Repr

namespace ParkingRequest

def setCurrentState (request : ParkingRequest) (state : State) : ParkingRequest :=
  { request with currentState := state }

@[simp] theorem setCurrentState_currentState (request : ParkingRequest) (state : State) :
    (request.setCurrentState state).currentState = state := rfl

/-- The `switch` of `changeState`. -/
def isValid (currentState newState : State) : Bool :=
  match currentState with
  | .requested => newState == .allocated || newState == .cancelled
  | .allocated => newState == .occupied || newState == .cancelled
  | .occupied => newState == .released
  | .released | .cancelled => false

def changeState (request : ParkingRequest) (newState : State) : Except String ParkingRequest :=
  if isValid request.currentState newState then .ok (request.setCurrentState newState)
  else .error s!"Invalid state transition from {request.currentState.toInt} to {newState.toInt}\n"

theorem changeState_eq_ok_iff {request request' : ParkingRequest} {newState : State} :
    request.changeState newState = .ok request' ↔
      isValid request.currentState newState = true ∧ request' = request.setCurrentState newState := by
  unfold changeState
  split
  · rename_i h
    simp [h, eq_comm]
  · rename_i h
    simp [h]

/-- The states no transition leaves. -/
def State.isTerminal (state : State) : Bool := state == .released || state == .cancelled

theorem isTerminal_iff_stuck (state : State) :
    state.isTerminal = true ↔ ∀ newState, isValid state newState = false := by
  cases state with
  | requested => simpa [State.isTerminal, isValid] using ⟨State.allocated, by simp⟩
  | allocated => simpa [State.isTerminal, isValid] using ⟨State.occupied, by simp⟩
  | occupied => simp [State.isTerminal, isValid]
  | released => simp [State.isTerminal, isValid]
  | cancelled => simp [State.isTerminal, isValid]

end ParkingRequest

open ParkingRequest Foundation.ListUpdate

def stateAt? (requests : List ParkingRequest) (i : ℕ) : Option State :=
  requests[i]?.map (·.currentState)

/-- `p->setCurrentState(state)` for the pointer `p` to the request at a position. -/
def setCurrentState (requests : List ParkingRequest) (i : ℕ) (state : State) : List ParkingRequest :=
  requests.modify i (·.setCurrentState state)

@[simp] theorem length_setCurrentState (requests : List ParkingRequest) (i : ℕ) (state : State) :
    (setCurrentState requests i state).length = requests.length := List.length_modify ..

theorem stateAt?_setCurrentState (requests : List ParkingRequest) (i j : ℕ) (state : State) :
    stateAt? (setCurrentState requests i state) j =
      if i = j then (stateAt? requests j).map (fun _ => state) else stateAt? requests j := by
  simp only [stateAt?, setCurrentState, List.getElem?_modify]
  by_cases h : i = j <;> cases requests[j]? <;> simp [h]

theorem setCurrentState_append {requests : List ParkingRequest} {i : ℕ} (h : i < requests.length)
    (more : List ParkingRequest) (state : State) :
    setCurrentState (requests ++ more) i state = setCurrentState requests i state ++ more :=
  modify_append_left h more

theorem setCurrentState_last (requests : List ParkingRequest) (request : ParkingRequest) (state : State) :
    setCurrentState (requests ++ [request]) requests.length state =
      requests ++ [request.setCurrentState state] := modify_append_last requests request

theorem stateAt?_append_left {requests : List ParkingRequest} {i : ℕ} (h : i < requests.length)
    (more : List ParkingRequest) : stateAt? (requests ++ more) i = stateAt? requests i := by
  simp only [stateAt?, List.getElem?_append_left h]

theorem stateAt?_lt {requests : List ParkingRequest} {i : ℕ} {state : State}
    (h : stateAt? requests i = some state) : i < requests.length := by
  obtain ⟨r, hr, -⟩ := Option.map_eq_some_iff.mp h
  exact (List.getElem?_eq_some_iff.mp hr).1

end SmartParking
