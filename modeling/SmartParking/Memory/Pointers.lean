import SmartParking.Core.ParkingSystem
import SmartParking.Foundation.Buffer

/-! # The parking system with its pointers

The same program over vectors that reallocate. A slot pointer leads into the `slots`
vector of one area, a request pointer into `requests`. Copying a zone gives each of
its vectors a buffer of its own, and moving one keeps the buffers of its vectors.
-/
namespace SmartParking.Memory
open Foundation.Buffer ParkingRequest
open ParkingSystem (Op Record registerVehicle cancelRefuses releaseRefuses)

structure Area where
  areaId : ℤ
  slots : Vec ParkingSlot
  deriving DecidableEq, Repr

structure Zone where
  zoneId : ℤ
  parkingAreas : Vec Area
  deriving DecidableEq, Repr

structure SlotPtr where
  zone : ℕ
  area : ℕ
  ref : Ref
  deriving DecidableEq, Repr

structure System where
  zones : Vec Zone
  vehicles : List Vehicle
  requests : Vec ParkingRequest
  rollbackManager : RollbackManager SlotPtr Ref
  deriving DecidableEq, Repr

def Area.copy (area : ParkingArea) : Area := ⟨area.areaId, Vec.ofList area.slots⟩

def Zone.copy (zone : SmartParking.Zone) : Zone :=
  ⟨zone.zoneId, Vec.ofList (zone.parkingAreas.map Area.copy)⟩

def Area.erase (area : Area) : ParkingArea := ⟨area.areaId, area.slots.items⟩

def Zone.erase (zone : Zone) : SmartParking.Zone := ⟨zone.zoneId, zone.parkingAreas.items.map Area.erase⟩

/-- The slot a pointer was taken from. -/
def SlotPtr.erase (ptr : SlotPtr) : SlotRef := ⟨ptr.zone, ptr.area, ptr.ref.index⟩

def eraseRecord (record : AllocationRecord SlotPtr Ref) : Record :=
  ⟨record.slot.map SlotPtr.erase, record.previousAvailability, record.request.map (·.index),
    record.previousRequestState⟩

def areaAt? (zones : Vec Zone) (zone area : ℕ) : Option Area :=
  zones.items[zone]?.bind (fun z => z.parkingAreas.items[area]?)

/-- The address of a slot. -/
def slotPtr (zones : Vec Zone) (p : SlotRef) : Option SlotPtr :=
  (areaAt? zones p.zone p.area).map (fun a => ⟨p.zone, p.area, a.slots.ref p.slot⟩)

def getIsAvailable (zones : Vec Zone) (ptr : SlotPtr) : Bool :=
  (areaAt? zones ptr.zone ptr.area).any (fun a => (a.slots.read ptr.ref).any (·.isAvailable))

def Zone.setIsAvailable (zone : Zone) (ptr : SlotPtr) (isAvailable : Bool) : Zone :=
  { zone with
    parkingAreas := zone.parkingAreas.modify ptr.area
      (fun a => { a with slots := a.slots.write ptr.ref (·.setIsAvailable isAvailable) }) }

def setIsAvailable (zones : Vec Zone) (ptr : SlotPtr) (isAvailable : Bool) : Vec Zone :=
  zones.modify ptr.zone (·.setIsAvailable ptr isAvailable)

def access : Access SlotPtr Ref (Vec Zone × Vec ParkingRequest) where
  setIsAvailable m slot isAvailable := (Memory.setIsAvailable m.1 slot isAvailable, m.2)
  setCurrentState m request state := (m.1, m.2.write request (·.setCurrentState state))

namespace System

def new : System := ⟨Vec.empty, [], Vec.empty, ⟨[]⟩⟩

def history (ms : System) : List (AllocationRecord SlotPtr Ref) := ms.rollbackManager.history

/-- The values alone, every pointer replaced by what it was taken from. -/
def erase (ms : System) : ParkingSystem where
  zones := ms.zones.items.map Zone.erase
  vehicles := ms.vehicles
  requests := ms.requests.items
  rollbackManager := ⟨ms.history.map eraseRecord⟩

variable (policy : GrowthPolicy)

def addZone (ms : System) (zone : SmartParking.Zone) : System :=
  { ms with zones := ms.zones.push policy (Zone.copy zone) }

def requestParking (ms : System) (vehicleId : String) (requestedZoneId : ℤ) : ℤ × System :=
  let ms := { ms with vehicles := registerVehicle ms.vehicles vehicleId requestedZoneId }
  let requestId := toInt ms.requests.items.length
  let request : ParkingRequest := ⟨requestId, vehicleId, requestedZoneId, 0, .requested⟩
  if ms.zones.items.isEmpty then (-1, ms)
  else
    match (ms.erase.slotFor requestedZoneId).bind (slotPtr ms.zones) with
    | none => (-1, ms)
    | some slot =>
      let prevAvailability := getIsAvailable ms.zones slot
      let prevState := request.currentState
      let zones := setIsAvailable ms.zones slot false
      let request := (request.changeState .allocated).toOption.getD request
      let requests := ms.requests.push policy request
      let rollbackManager := ms.rollbackManager.recordAllocation (some slot) prevAvailability
        (some requests.backRef) prevState
      (requestId, { ms with zones, requests, rollbackManager })

def rollback (ms : System) (k : ℤ) : System :=
  let (rollbackManager, zones, requests) := ms.rollbackManager.rollback access k (ms.zones, ms.requests)
  { ms with zones, requests, rollbackManager }

def closeRequest (refuses : State → Bool) (newState : State) (ms : System) (requestId : ℤ) : Bool × System :=
  match ms.erase.lookup requestId with
  | none => (false, ms)
  | some request =>
    if refuses request.currentState then (false, ms)
    else
      match request.changeState newState with
      | .error _ => (false, ms)
      | .ok request => (true, { ms with requests := ms.requests.set requestId.toNat request }.rollback 1)

def cancelRequest : System → ℤ → Bool × System := closeRequest cancelRefuses .cancelled

def releaseSlot : System → ℤ → Bool × System := closeRequest releaseRefuses .released

def step (ms : System) : Op → System
  | .addZone zone => ms.addZone policy zone
  | .requestParking vehicleId requestedZoneId => (ms.requestParking policy vehicleId requestedZoneId).2
  | .cancelRequest requestId => (ms.cancelRequest requestId).2
  | .releaseSlot requestId => (ms.releaseSlot requestId).2

end System

theorem Area.erase_copy (area : ParkingArea) : (Area.copy area).erase = area := rfl

theorem Zone.erase_copy (zone : SmartParking.Zone) : (Zone.copy zone).erase = zone := by
  have harea : Area.erase ∘ Area.copy = id := funext Area.erase_copy
  simp only [Zone.copy, Zone.erase, Vec.items_ofList, List.map_map, harea, List.map_id]

theorem slotAt?_erase (zones : Vec Zone) (p : SlotRef) :
    slotAt? (zones.items.map Zone.erase) p =
      (areaAt? zones p.zone p.area).bind (fun a => a.slots.items[p.slot]?) := by
  simp only [slotAt?, areaAt?, SmartParking.Zone.slotAt?, List.getElem?_map]
  cases zones.items[p.zone]? with
  | none => rfl
  | some z =>
    simp only [Option.map_some, Option.bind_some, Zone.erase, List.getElem?_map]
    cases z.parkingAreas.items[p.area]? with
    | none => rfl
    | some a => rfl

end SmartParking.Memory
