import SmartParking.Foundation.JsonOutput
import SmartParking.Server.Dashboard
import SmartParking.Server.RawRequests

/-! # The bodies of the answers

What `handleGetZones`, `handleGetZoneDetail`, `handleGetRequests` and `handleGetDashboard`
write, byte by byte. A body has no value where a count overflows. The members of a request
that its class does not have are what `view` says.
-/
namespace SmartParking.Server
open Foundation Foundation.JsonText Foundation.JsonNumber Foundation.OutputStream
open Foundation.JsonString (quote)

def writeZone (out : OutputStream) (zone : Zone) : Option OutputStream := do
  let (total, occupied) ← countZone (0, 0) zone
  let ut ← roundPercent occupied total
  let out := out.write (ascii "\x7b")
  let out := ((out.write (ascii "\"id\":")).writeInt zone.zoneId).write (ascii ",")
  let out := ((out.write (ascii "\"name\":\"Zone ")).writeInt zone.zoneId).write (ascii "\",")
  let out := ((out.write (ascii "\"capacity\":")).writeInt total).write (ascii ",")
  let out := ((out.write (ascii "\"occupiedSlots\":")).writeInt occupied).write (ascii ",")
  let out := (out.write (ascii "\"utilization\":")).writeInt ut
  some (out.write (ascii "\x7d"))

def zonesText (ps : ParkingSystem) : Option (List UInt8) := do
  let out := OutputStream.new.write (ascii "\x7b\"zones\":[")
  let (out, _) ← ps.zones.foldlM (turn writeZone) (out, true)
  some (out.write (ascii "]\x7d")).text

/-- The members of a request that the handlers read and its class does not have. -/
structure Allocation where
  licensePlate : List UInt8
  allocatedZoneId : ℤ
  allocatedSlotId : ℤ
  deriving DecidableEq, Repr

section View
variable (view : ParkingRequest → Allocation) (charIsSigned : Bool)

/-- The loop over the requests, for the vehicle in a slot. -/
def occupant (ps : ParkingSystem) (zone : Zone) (slot : ParkingSlot) : List UInt8 :=
  let isOcc := !slot.isAvailable
  if isOcc then
    match ps.requests.find? (fun req => (view req).allocatedZoneId == zone.zoneId &&
        (view req).allocatedSlotId == slot.slotId &&
        (req.currentState == .allocated || req.currentState == .occupied)) with
    | some req => (view req).licensePlate
    | none => []
  else []

def writeSlot (ps : ParkingSystem) (zone : Zone) (out : OutputStream) (slot : ParkingSlot) : Option OutputStream :=
  let isOcc := !slot.isAvailable
  let vehicleId := occupant view ps zone slot
  let out := out.write (ascii "\x7b")
  let out := ((out.write (ascii "\"id\":")).writeInt slot.slotId).write (ascii ",")
  let out := (out.write (ascii "\"occupied\":")).write (if isOcc then ascii "true" else ascii "false")
  let out := out.write (ascii ",")
  let out := out.write (ascii "\"vehicle\": \x7b")
  let out := ((out.write (ascii "\"vehicleId\": \"")).write (jsonEscape charIsSigned vehicleId)).write (ascii "\",")
  let out := out.write (ascii "\"ownerName\": \"Guest\"")
  some ((out.write (ascii "\x7d")).write (ascii "\x7d"))

def zoneText (ps : ParkingSystem) (zone : Zone) : Option (List UInt8) := do
  let out := OutputStream.new.write (ascii "\x7b")
  let out := ((out.write (ascii "\"id\":")).writeInt zone.zoneId).write (ascii ",")
  let out := ((out.write (ascii "\"name\":\"Zone ")).writeInt zone.zoneId).write (ascii "\",")
  let out := out.write (ascii "\"slots\":[")
  let (out, _) ← zone.parkingAreas.foldlM
    (fun state area => area.slots.foldlM (turn (writeSlot view charIsSigned ps zone)) state) (out, true)
  some (out.write (ascii "]\x7d")).text

/-- The `switch` over the state of a request. -/
def statusText : ParkingRequest.State → List UInt8
  | .requested => ascii "REQUESTED"
  | .allocated => ascii "ALLOCATED"
  | .occupied => ascii "OCCUPIED"
  | .cancelled => ascii "CANCELLED"
  | .released => ascii "RELEASED"

def writeRequest (out : OutputStream) (req : ParkingRequest) : Option OutputStream :=
  let status := statusText req.currentState
  let out := out.write (ascii "\x7b")
  let out := ((out.write (ascii "\"id\":")).writeInt req.requestId).write (ascii ",")
  let out := ((out.write (ascii "\"vehicleId\":\"")).write
    (jsonEscape charIsSigned (view req).licensePlate)).write (ascii "\",")
  let out := ((out.write (ascii "\"zoneId\":")).writeInt (view req).allocatedZoneId).write (ascii ",")
  let out := ((out.write (ascii "\"slotNumber\":")).writeInt (view req).allocatedSlotId).write (ascii ",")
  let out := ((out.write (ascii "\"status\":\"")).write status).write (ascii "\",")
  let out := out.write (ascii "\"timestamp\":\"Recently\"")
  some (out.write (ascii "\x7d"))

def requestsText (ps : ParkingSystem) : Option (List UInt8) := do
  let out := OutputStream.new.write (ascii "\x7b\"requests\":[")
  let (out, _) ← ps.requests.foldlM (turn (writeRequest view charIsSigned)) (out, true)
  some (out.write (ascii "]\x7d")).text

end View

def dashboardText (ps : ParkingSystem) : Option (List UInt8) := do
  let totalZones := toInt ps.zones.length
  let (totalSlots, occupiedSlots) ← ps.zones.foldlM countZone (0, 0)
  let activeRequests ← ps.requests.foldlM countActive 0
  let utilization ← roundPercent occupiedSlots totalSlots
  let out := OutputStream.new.write (ascii "\x7b")
  let out := ((out.write (ascii "\"totalZones\": ")).writeInt totalZones).write (ascii ", ")
  let out := ((out.write (ascii "\"occupiedSlots\": ")).writeInt occupiedSlots).write (ascii ", ")
  let out := ((out.write (ascii "\"activeRequests\": ")).writeInt activeRequests).write (ascii ", ")
  let out := (out.write (ascii "\"utilization\": ")).writeInt utilization
  some (out.write (ascii "\x7d")).text

/-- The `newId` of `handleCreateRequest`, as it is written. -/
def createdText (newId : ℤ) : List UInt8 :=
  let out := ((OutputStream.new.write (ascii "\x7b\"id\": ")).writeInt newId).write (ascii ", \"requestId\": ")
  ((out.writeInt newId).write (ascii "\x7d")).text

end SmartParking.Server
