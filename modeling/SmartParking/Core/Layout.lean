import SmartParking.Core.RollbackManager
import SmartParking.Core.ParkingSystem

/-! # Layouts

What of the stored data no cancellation, release or rollback can change: of the
zones all but the availability of the slots, of a request all but its state.
-/
namespace SmartParking
open Foundation.ListUpdate ParkingRequest ParkingSystem

def ParkingSlot.layout (slot : ParkingSlot) : ParkingSlot := slot.setIsAvailable true

def ParkingArea.layout (area : ParkingArea) : ParkingArea :=
  { area with slots := area.slots.map ParkingSlot.layout }

/-- The zone with every slot available. -/
def Zone.layout (zone : Zone) : Zone :=
  { zone with parkingAreas := zone.parkingAreas.map ParkingArea.layout }

@[simp] theorem Zone.layout_zoneId (zone : Zone) : zone.layout.zoneId = zone.zoneId := rfl

/-- What a request was stored under. -/
def ParkingRequest.label (request : ParkingRequest) : ℤ × String × ℤ :=
  (request.requestId, request.vehicleId, request.requestedZone)

theorem Zone.layout_modifySlot (zone : Zone) (area slot : ℕ) (b : Bool) :
    (zone.modifySlot area slot (·.setIsAvailable b)).layout = zone.layout := by
  have hslot : ∀ s : ParkingSlot, (s.setIsAvailable b).layout = s.layout := fun _ => rfl
  have harea : ∀ a : ParkingArea,
      ParkingArea.layout { a with slots := a.slots.modify slot (·.setIsAvailable b) } = a.layout := by
    intro a
    rw [ParkingArea.layout, map_modify_of_eq hslot, ParkingArea.layout]
  rw [Zone.layout, Zone.modifySlot, map_modify_of_eq harea, Zone.layout]

theorem map_layout_setIsAvailable (zones : List Zone) (p : SlotRef) (b : Bool) :
    (setIsAvailable zones p b).map Zone.layout = zones.map Zone.layout :=
  map_modify_of_eq (fun zone => zone.layout_modifySlot p.area p.slot b) zones p.zone

theorem getElem?_setIsAvailable_self {zones : List Zone} {p : SlotRef} {zone : Zone}
    (h : zones[p.zone]? = some zone) (b : Bool) :
    (setIsAvailable zones p b)[p.zone]? = some (zone.modifySlot p.area p.slot (·.setIsAvailable b)) := by
  rw [setIsAvailable, List.getElem?_modify_eq, h]
  rfl

theorem getElem?_setIsAvailable_ne {zones : List Zone} {p : SlotRef} {j : ℕ} (h : p.zone ≠ j) (b : Bool) :
    (setIsAvailable zones p b)[j]? = zones[j]? := List.getElem?_modify_ne _ _ h

theorem map_zoneId_setIsAvailable (zones : List Zone) (p : SlotRef) (b : Bool) :
    (setIsAvailable zones p b).map Zone.zoneId = zones.map Zone.zoneId := by
  have hid : ∀ zone : Zone,
      (zone.modifySlot p.area p.slot (·.setIsAvailable b)).zoneId = zone.zoneId := fun _ => rfl
  exact map_modify_of_eq hid zones p.zone

theorem map_label_setCurrentState (requests : List ParkingRequest) (i : ℕ) (state : State) :
    (setCurrentState requests i state).map label = requests.map label := by
  have hlabel : ∀ request : ParkingRequest, (request.setCurrentState state).label = request.label :=
    fun _ => rfl
  exact map_modify_of_eq hlabel requests i

/-- The stored data of two states differ in availability and request states alone. -/
structure SameLayout (before after : ParkingSystem) : Prop where
  zones : after.zones.map Zone.layout = before.zones.map Zone.layout
  requests : after.requests.map label = before.requests.map label
  vehicles : after.vehicles = before.vehicles

theorem SameLayout.refl (ps : ParkingSystem) : SameLayout ps ps := ⟨rfl, rfl, rfl⟩

theorem SameLayout.trans {a b c : ParkingSystem} (h : SameLayout a b) (h' : SameLayout b c) :
    SameLayout a c :=
  ⟨h'.zones.trans h.zones, h'.requests.trans h.requests, h'.vehicles.trans h.vehicles⟩

/-- Restoring any record keeps the layout. -/
theorem restore_layout (record : Record) (m : List Zone × List ParkingRequest) :
    ((record.restore access m).1.map Zone.layout = m.1.map Zone.layout) ∧
      ((record.restore access m).2.map label = m.2.map label) := by
  obtain ⟨slot, previousAvailability, request, previousRequestState⟩ := record
  cases slot with
  | none =>
    cases request with
    | none => exact ⟨rfl, rfl⟩
    | some i => exact ⟨rfl, map_label_setCurrentState m.2 i previousRequestState⟩
  | some p =>
    have hzones := map_layout_setIsAvailable m.1 p previousAvailability
    cases request with
    | none => exact ⟨hzones, rfl⟩
    | some i => exact ⟨hzones, map_label_setCurrentState m.2 i previousRequestState⟩

theorem rollbackLoop_layout (k : ℤ) (history : List Record) (m : List Zone × List ParkingRequest) :
    ((RollbackManager.rollbackLoop access k history m).2.1.map Zone.layout = m.1.map Zone.layout) ∧
      ((RollbackManager.rollbackLoop access k history m).2.2.map label = m.2.map label) := by
  induction history generalizing k m with
  | nil => exact ⟨rfl, rfl⟩
  | cons record history ih =>
    unfold RollbackManager.rollbackLoop
    split
    · obtain ⟨hzones, hrequests⟩ := restore_layout record m
      obtain ⟨hzones', hrequests'⟩ := ih (k - 1) (record.restore access m)
      exact ⟨hzones'.trans hzones, hrequests'.trans hrequests⟩
    · exact ⟨rfl, rfl⟩

theorem sameLayout_rollback (ps : ParkingSystem) (k : ℤ) : SameLayout ps (ps.rollback k) := by
  obtain ⟨hzones, hrequests⟩ := rollbackLoop_layout k ps.history (ps.zones, ps.requests)
  exact ⟨hzones, hrequests, rfl⟩

theorem sameLayout_closeRequest (refuses : State → Bool) (newState : State) (ps : ParkingSystem)
    (requestId : ℤ) : SameLayout ps (closeRequest refuses newState ps requestId).2 := by
  by_cases h : Accepts refuses newState ps requestId
  · rw [closeRequest_accepted h]
    refine SameLayout.trans ?_ (sameLayout_rollback _ 1)
    exact ⟨rfl, map_label_setCurrentState ps.requests requestId.toNat newState, rfl⟩
  · rw [closeRequest_refused h]
    exact SameLayout.refl ps

theorem sameLayout_cancelRequest (ps : ParkingSystem) (requestId : ℤ) :
    SameLayout ps (ps.cancelRequest requestId).2 := sameLayout_closeRequest cancelRefuses .cancelled ps requestId

theorem sameLayout_releaseSlot (ps : ParkingSystem) (requestId : ℤ) :
    SameLayout ps (ps.releaseSlot requestId).2 := sameLayout_closeRequest releaseRefuses .released ps requestId

theorem requestParking_map_layout (ps : ParkingSystem) (vehicleId : String) (requestedZoneId : ℤ) :
    (ps.requestParking vehicleId requestedZoneId).2.zones.map Zone.layout = ps.zones.map Zone.layout := by
  cases hslot : ps.slotFor requestedZoneId with
  | none => rw [requestParking_none hslot]
  | some p =>
    rw [requestParking_some hslot]
    exact map_layout_setIsAvailable ps.zones p false

end SmartParking
