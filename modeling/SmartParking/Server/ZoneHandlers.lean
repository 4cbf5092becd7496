import SmartParking.Core.Layout
import SmartParking.Server.Handlers

/-! # The zone handlers

`seedDemo`, `handleGetZones`, `handleGetZoneDetail` and `handleCreateZone` of
`Server.cpp`. What the first two write as JSON is kept as data, less the occupant of a
slot, which is read from members the request class does not have.
-/
namespace SmartParking
open Foundation.ListUpdate

/-- The slots that the loop over the areas and the loop over their slots visit. -/
def Zone.slots (zone : Zone) : List ParkingSlot := zone.parkingAreas.flatMap (·.slots)

def Zone.occupied (zone : Zone) : ℕ := zone.slots.countP (!·.isAvailable)

theorem Zone.occupied_le (zone : Zone) : zone.occupied ≤ zone.slots.length := List.countP_le_length

namespace Server
open ParkingRequest ParkingSystem

/-- What a handler answers: a status code, and what it writes if it writes anything. -/
structure Answer (α : Type) where
  code : ℕ
  body : Option α
  deriving DecidableEq, Repr

/-- `addParkingSlot(ParkingSlot(i, zoneId))` for `i` from 1 to `n`. -/
def addParkingSlots (area : ParkingArea) (zoneId : ℤ) (n : ℕ) : ParkingArea :=
  (List.range n).foldl (fun area (i : ℕ) => area.addParkingSlot (.new (i + 1) zoneId)) area

def seedDemo (ps : ParkingSystem) : ParkingSystem :=
  let z1 := (Zone.new 1).addParkingArea (addParkingSlots (.new 1) 1 7)
  let ps := ps.addZone z1
  let z2 := (Zone.new 2).addParkingArea (addParkingSlots (.new 1) 2 6)
  let ps := ps.addZone z2
  let ps := (ps.requestParking "ALI-123" 1).2
  let ps := (ps.requestParking "SHZ-789" 1).2
  (ps.requestParking "VIS-456" 2).2

/-- The value of an `int` computation, which has none when it leaves the range. -/
def signed (n : ℤ) : Option ℤ := if -2 ^ 31 ≤ n ∧ n < 2 ^ 31 then some n else none

def roundPercent (numerator denominator : ℤ) : Option ℤ :=
  if denominator ≤ 0 then some 0
  else do
    let product ← signed (numerator * 100)
    let sum ← signed (product + denominator.tdiv 2)
    signed (sum.tdiv denominator)

/-- An entry of the zone list, with no value where counting or rounding overflows. -/
structure ZoneEntry where
  id : ℤ
  name : String
  capacity : Option ℤ
  occupiedSlots : Option ℤ
  utilization : Option ℤ
  deriving DecidableEq, Repr

def zoneEntry (zone : Zone) : ZoneEntry :=
  let total := signed zone.slots.length
  let occupied := signed zone.occupied
  ⟨zone.zoneId, s!"Zone {zone.zoneId}", total, occupied, do roundPercent (← occupied) (← total)⟩

theorem signed_eq_some_iff {m n : ℕ} : signed n = some (m : ℤ) ↔ n = m ∧ n < 2 ^ 31 := by
  unfold signed
  split
  · rw [Option.some_inj]
    omega
  · simp only [reduceCtorEq, false_iff]
    omega

def handleGetZones (ps : ParkingSystem) : Answer (List ZoneEntry) := ⟨200, some (ps.zones.map zoneEntry)⟩

structure SlotEntry where
  id : ℤ
  occupied : Bool
  deriving DecidableEq, Repr

structure ZoneDetail where
  id : ℤ
  name : String
  slots : List SlotEntry
  deriving DecidableEq, Repr

def zoneDetail (zone : Zone) : ZoneDetail :=
  ⟨zone.zoneId, s!"Zone {zone.zoneId}", zone.slots.map (fun slot => ⟨slot.slotId, !slot.isAvailable⟩)⟩

def handleGetZoneDetail (ps : ParkingSystem) (id : ℤ) : Answer ZoneDetail :=
  match ps.zones.find? (·.zoneId == id) with
  | some zone => ⟨200, some (zoneDetail zone)⟩
  | none => ⟨404, none⟩

structure AreaBody where
  areaId : ℤ
  slots : ℤ
  deriving DecidableEq, Repr

/-- The fields `handleCreateZone` reads; a body need not have `areas`. -/
structure CreateZoneBody where
  id : ℤ
  areas : Option (List AreaBody)
  deriving DecidableEq, Repr

def addArea (z : Zone) (areaJson : AreaBody) : Zone :=
  let areaId := narrow areaJson.areaId
  let slots := narrow areaJson.slots
  z.addParkingArea (addParkingSlots (.new areaId) areaId slots.toNat)

def handleCreateZone (x : Option CreateZoneBody) (ps : ParkingSystem) : Response × ParkingSystem :=
  match x with
  | none => (.ofBody 400 "Invalid JSON", ps)
  | some body =>
    let id := narrow body.id
    let z := (body.areas.getD []).foldl addArea (.new id)
    (.ofCode 201, ps.addZone z)

/-- The two kinds of POST request the server takes. -/
inductive Post
  | createZone (x : Option CreateZoneBody)
  | createRequest (x : Option CreateBody)
  deriving DecidableEq, Repr

def serve (ps : ParkingSystem) : Post → ParkingSystem
  | .createZone x => (handleCreateZone x ps).2
  | .createRequest x => (handleCreateRequest x ps).2

/-- The state the server starts with. -/
def seeded : ParkingSystem := seedDemo ParkingSystem.new

theorem addParkingSlots_eq (area : ParkingArea) (zoneId : ℤ) (n : ℕ) :
    addParkingSlots area zoneId n =
      { area with slots := area.slots ++ (List.range n).map (fun i : ℕ => .new (i + 1) zoneId) } := by
  unfold addParkingSlots
  induction List.range n generalizing area with
  | nil => simp
  | cons i l ih =>
    rw [List.foldl_cons, ih]
    simp [ParkingArea.addParkingSlot]

def AreaBody.count (areaJson : AreaBody) : ℕ := (narrow areaJson.slots).toNat

/-- The area that is made of one element of `areas`. -/
def AreaBody.area (areaJson : AreaBody) : ParkingArea where
  areaId := narrow areaJson.areaId
  slots := (List.range areaJson.count).map (fun i : ℕ => .new (i + 1) (narrow areaJson.areaId))

/-- The zone that is made of a body. -/
def CreateZoneBody.zone (body : CreateZoneBody) : Zone where
  zoneId := narrow body.id
  parkingAreas := (body.areas.getD []).map AreaBody.area

theorem addArea_eq (z : Zone) (areaJson : AreaBody) : addArea z areaJson = z.addParkingArea areaJson.area := by
  rw [addArea, addParkingSlots_eq]
  rfl

theorem foldl_addArea (z : Zone) (areas : List AreaBody) :
    areas.foldl addArea z = { z with parkingAreas := z.parkingAreas ++ areas.map AreaBody.area } := by
  induction areas generalizing z with
  | nil => simp
  | cons a l ih => simp [ih, addArea_eq, Zone.addParkingArea]

theorem serve_createZone (ps : ParkingSystem) (body : CreateZoneBody) :
    serve ps (.createZone (some body)) = ps.addZone body.zone := by
  rw [serve, handleCreateZone, foldl_addArea]
  rfl

theorem serve_createRequest (ps : ParkingSystem) (body : CreateBody) :
    serve ps (.createRequest (some body)) =
      (ps.requestParking body.vehicleId (narrow body.requestedZoneId)).2 := rfl

def CreateZoneBody.slotCount (body : CreateZoneBody) : ℕ := ((body.areas.getD []).map AreaBody.count).sum

@[simp] theorem CreateZoneBody.zone_zoneId (body : CreateZoneBody) : body.zone.zoneId = narrow body.id := rfl

theorem CreateZoneBody.length_slots (body : CreateZoneBody) : body.zone.slots.length = body.slotCount := by
  rw [Zone.slots, List.length_flatMap, zone, List.map_map, slotCount]
  congr 2
  funext areaJson
  rw [Function.comp_apply, AreaBody.area, List.length_map, List.length_range]

theorem CreateZoneBody.mem_slots {body : CreateZoneBody} {slot : ParkingSlot} (h : slot ∈ body.zone.slots) :
    slot.isAvailable = true := by
  obtain ⟨area, harea, hslot⟩ := List.mem_flatMap.mp h
  obtain ⟨areaJson, -, rfl⟩ := List.mem_map.mp harea
  obtain ⟨i, -, rfl⟩ := List.mem_map.mp hslot
  rfl

theorem CreateZoneBody.occupied_zone (body : CreateZoneBody) : body.zone.occupied = 0 := by
  apply List.countP_eq_zero.mpr
  intro slot hslot
  simp [mem_slots hslot]

end Server

end SmartParking
