import SmartParking.Core.AllocationEngine
import SmartParking.Core.RollbackManager
import SmartParking.Foundation.Runs

/-! # The parking system

`ParkingSystem.cpp`. Here a recorded pointer denotes the slot or the request it was
taken from: a slot is its path, a request its position in `requests`. What happens to
the pointers themselves when a vector grows is the subject of the memory model.
-/
namespace SmartParking
open Foundation.UndoLog ParkingRequest

structure ParkingSystem where
  zones : List Zone
  vehicles : List Vehicle
  requests : List ParkingRequest
  rollbackManager : RollbackManager SlotRef ℕ
  deriving DecidableEq, Repr

namespace ParkingSystem

def new : ParkingSystem := ⟨[], [], [], ⟨[]⟩⟩

abbrev Record := AllocationRecord SlotRef ℕ

def history (ps : ParkingSystem) : List Record := ps.rollbackManager.history

def access : Access SlotRef ℕ (List Zone × List ParkingRequest) where
  setIsAvailable m slot isAvailable := (SmartParking.setIsAvailable m.1 slot isAvailable, m.2)
  setCurrentState m request state := (m.1, SmartParking.setCurrentState m.2 request state)

def addZone (ps : ParkingSystem) (zone : Zone) : ParkingSystem :=
  { ps with zones := ps.zones ++ [zone] }

/-- The `find_if` and `emplace_back` at the start of `requestParking`. -/
def registerVehicle (vehicles : List Vehicle) (vehicleId : String) (requestedZoneId : ℤ) : List Vehicle :=
  if vehicles.any (·.vehicleId == vehicleId) then vehicles
  else vehicles ++ [⟨vehicleId, requestedZoneId⟩]

def requestParking (ps : ParkingSystem) (vehicleId : String) (requestedZoneId : ℤ) :
    ℤ × ParkingSystem :=
  let ps := { ps with vehicles := registerVehicle ps.vehicles vehicleId requestedZoneId }
  let requestId := toInt ps.requests.length
  let request : ParkingRequest := ⟨requestId, vehicleId, requestedZoneId, 0, .requested⟩
  if ps.zones.isEmpty then (-1, ps)
  else
    match AllocationEngine.allocateSlot requestedZoneId ps.zones (toInt ps.zones.length) with
    | none => (-1, ps)
    | some slot =>
      let prevAvailability := (slotAt? ps.zones slot).any (·.isAvailable)
      let prevState := request.currentState
      let zones := SmartParking.setIsAvailable ps.zones slot false
      -- the answer of `changeState` is not looked at
      let request := (request.changeState .allocated).toOption.getD request
      let requests := ps.requests ++ [request]
      let rollbackManager := ps.rollbackManager.recordAllocation (some slot) prevAvailability
        (some (requests.length - 1)) prevState
      (requestId, { ps with zones, requests, rollbackManager })

def rollback (ps : ParkingSystem) (k : ℤ) : ParkingSystem :=
  let (rollbackManager, zones, requests) := ps.rollbackManager.rollback access k (ps.zones, ps.requests)
  { ps with zones, requests, rollbackManager }

/-- The range check on a request id and the indexing that follows it. -/
def lookup (ps : ParkingSystem) (requestId : ℤ) : Option ParkingRequest :=
  if requestId < 0 ∨ requestId ≥ toInt ps.requests.length then none
  else ps.requests[requestId.toNat]?

/-- What `cancelRequest` and `releaseSlot` share: refuse some states, make the
transition to `newState`, then roll back one record. -/
def closeRequest (refuses : State → Bool) (newState : State) (ps : ParkingSystem) (requestId : ℤ) :
    Bool × ParkingSystem :=
  match ps.lookup requestId with
  | none => (false, ps)
  | some request =>
    if refuses request.currentState then (false, ps)
    else
      match request.changeState newState with
      | .error _ => (false, ps)
      | .ok request => (true, { ps with requests := ps.requests.set requestId.toNat request }.rollback 1)

def cancelRefuses (current : State) : Bool := current == .released || current == .cancelled

def cancelRequest : ParkingSystem → ℤ → Bool × ParkingSystem := closeRequest cancelRefuses .cancelled

def releaseRefuses (state : State) : Bool := state != .allocated && state != .occupied

def releaseSlot : ParkingSystem → ℤ → Bool × ParkingSystem := closeRequest releaseRefuses .released

inductive Op
  | addZone (zone : Zone)
  | requestParking (vehicleId : String) (requestedZoneId : ℤ)
  | cancelRequest (requestId : ℤ)
  | releaseSlot (requestId : ℤ)
  deriving DecidableEq, Repr

def step (ps : ParkingSystem) : Op → ParkingSystem
  | .addZone zone => ps.addZone zone
  | .requestParking vehicleId requestedZoneId => (ps.requestParking vehicleId requestedZoneId).2
  | .cancelRequest requestId => (ps.cancelRequest requestId).2
  | .releaseSlot requestId => (ps.releaseSlot requestId).2

def run (ops : List Op) : ParkingSystem := Foundation.Runs.run step new ops

/-- The slot a call of `requestParking` takes, if it takes one. -/
def slotFor (ps : ParkingSystem) (requestedZoneId : ℤ) : Option SlotRef :=
  AllocationEngine.allocateSlot requestedZoneId ps.zones (toInt ps.zones.length)

theorem slotFor_sound {ps : ParkingSystem} {requestedZoneId : ℤ} {p : SlotRef}
    (h : ps.slotFor requestedZoneId = some p) :
    ∃ slot, slotAt? ps.zones p = some slot ∧ slot.isAvailable = true :=
  AllocationEngine.allocateSlot_sound h

theorem requestParking_none {ps : ParkingSystem} {vehicleId : String} {requestedZoneId : ℤ}
    (h : ps.slotFor requestedZoneId = none) :
    ps.requestParking vehicleId requestedZoneId =
      (-1, { ps with vehicles := registerVehicle ps.vehicles vehicleId requestedZoneId }) := by
  unfold slotFor at h
  unfold requestParking
  by_cases hz : ps.zones.isEmpty
  · simp only [hz, if_true]
  · simp only [hz, h]
    rfl

/-- A call that finds a slot takes it, stores the request as allocated and records
what both were before. -/
theorem requestParking_some {ps : ParkingSystem} {vehicleId : String} {requestedZoneId : ℤ}
    {p : SlotRef} (h : ps.slotFor requestedZoneId = some p) :
    ps.requestParking vehicleId requestedZoneId =
      (toInt ps.requests.length,
        { zones := SmartParking.setIsAvailable ps.zones p false
          vehicles := registerVehicle ps.vehicles vehicleId requestedZoneId
          requests := ps.requests ++
            [⟨toInt ps.requests.length, vehicleId, requestedZoneId, 0, .allocated⟩]
          rollbackManager := ⟨⟨some p, true, some ps.requests.length, .requested⟩ :: ps.history⟩ }) := by
  obtain ⟨slot, hslot, havail⟩ := slotFor_sound h
  have hz : ps.zones.isEmpty = false := by
    cases hzones : ps.zones with
    | nil => simp [hzones, slotAt?] at hslot
    | cons => rfl
  unfold slotFor at h
  unfold requestParking
  simp only [hz, h, hslot, Option.any_some, havail]
  simp [RollbackManager.recordAllocation, changeState, isValid, history, Except.toOption,
    ParkingRequest.setCurrentState]

theorem rollback_one_nil (ps : ParkingSystem) (h : ps.history = []) : ps.rollback 1 = ps := by
  obtain ⟨zones, vehicles, requests, ⟨history⟩⟩ := ps
  obtain rfl : history = [] := h
  rw [rollback, RollbackManager.rollback_one_nil]

theorem rollback_one_cons (ps : ParkingSystem) {p : SlotRef} {i : ℕ} {b : Bool} {state : State}
    {rest : List Record} (h : ps.history = ⟨some p, b, some i, state⟩ :: rest) :
    ps.rollback 1 =
      { ps with
        zones := SmartParking.setIsAvailable ps.zones p b
        requests := SmartParking.setCurrentState ps.requests i state
        rollbackManager := ⟨rest⟩ } := by
  obtain ⟨zones, vehicles, requests, ⟨history⟩⟩ := ps
  obtain rfl : history = ⟨some p, b, some i, state⟩ :: rest := h
  rw [rollback, RollbackManager.rollback_one_cons]
  rfl

theorem lookup_eq_some_iff {ps : ParkingSystem} {requestId : ℤ} {request : ParkingRequest} :
    ps.lookup requestId = some request ↔
      ∃ i : ℕ, requestId = i ∧ (i : ℤ) < toInt ps.requests.length ∧ ps.requests[i]? = some request := by
  unfold lookup
  constructor
  · intro h
    split at h
    · contradiction
    · rename_i hrange
      exact ⟨requestId.toNat, by omega, by omega, h⟩
  · rintro ⟨i, rfl, hi, hget⟩
    rw [if_neg (by omega)]
    simpa using hget

/-- `requestId` passes the checks of an operation that refuses some states and then
asks for a transition. -/
def Accepts (refuses : State → Bool) (newState : State) (ps : ParkingSystem) (requestId : ℤ) : Prop :=
  ∃ i : ℕ, requestId = i ∧ (i : ℤ) < toInt ps.requests.length ∧
    ∃ state, stateAt? ps.requests i = some state ∧ refuses state = false ∧ isValid state newState = true

theorem closeRequest_refused {refuses : State → Bool} {newState : State} {ps : ParkingSystem}
    {requestId : ℤ} (h : ¬ Accepts refuses newState ps requestId) :
    closeRequest refuses newState ps requestId = (false, ps) := by
  unfold closeRequest
  cases hl : ps.lookup requestId with
  | none => rfl
  | some request =>
    obtain ⟨i, rfl, hi, hget⟩ := lookup_eq_some_iff.mp hl
    cases hr : refuses request.currentState with
    | true => simp [hr]
    | false =>
      have hv : isValid request.currentState newState = false := by
        by_contra hv
        exact h ⟨i, rfl, hi, request.currentState, by simp [stateAt?, hget], hr, by simpa using hv⟩
      simp [hr, changeState, hv]

theorem closeRequest_accepted {refuses : State → Bool} {newState : State} {ps : ParkingSystem}
    {requestId : ℤ} (h : Accepts refuses newState ps requestId) :
    closeRequest refuses newState ps requestId =
      (true, { ps with
        requests := SmartParking.setCurrentState ps.requests requestId.toNat newState }.rollback 1) := by
  obtain ⟨i, rfl, hi, state, hstate, hr, hv⟩ := h
  obtain ⟨request, hget, rfl⟩ := Option.map_eq_some_iff.mp hstate
  have hl : ps.lookup i = some request := lookup_eq_some_iff.mpr ⟨i, rfl, hi, hget⟩
  have hset : ps.requests.set i (request.setCurrentState newState) =
      SmartParking.setCurrentState ps.requests i newState := by
    unfold SmartParking.setCurrentState
    apply List.ext_getElem?
    intro j
    rw [List.getElem?_set', List.getElem?_modify]
    by_cases hj : i = j
    · subst hj
      simp [hget]
    · simp [hj]
  have hchange : request.changeState newState = .ok (request.setCurrentState newState) :=
    changeState_eq_ok_iff.mpr ⟨hv, rfl⟩
  rw [closeRequest, hl]
  simp only [hr, hchange, Int.toNat_natCast, hset, Bool.false_eq_true, if_false]

end ParkingSystem

end SmartParking
