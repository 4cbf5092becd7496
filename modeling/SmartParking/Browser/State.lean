import SmartParking.Foundation.FirstFit
import SmartParking.Foundation.ListUpdate
import SmartParking.Foundation.Runs

/-! # The state container of the browser demo

`frontend/scripts/state.js`. The references `findZone` and `findSlot` return are
modelled by positions next to the object found there; `null` and `undefined` are `none`.
-/
namespace SmartParking.Browser
open Foundation.FirstFit Foundation.ListUpdate

/-- What successive calls of `uuid` return: never the same value twice. -/
structure UuidSource where
  value : ℕ → String
  distinct : ∀ {i j}, value i = value j → i = j

instance : Inhabited UuidSource where
  default :=
    { value := fun n => String.ofList (List.replicate n 'u')
      distinct := fun h => by simpa using congrArg String.length h }

structure Vehicle where
  id : String
  ownerName : String
  plate : String
  deriving DecidableEq, Repr

structure Slot where
  id : String
  number : ℕ
  vehicle : Option Vehicle
  deriving DecidableEq, Repr

structure Zone where
  id : String
  name : String
  slots : List Slot
  deriving DecidableEq, Repr

inductive ActionType
  | allocate
  | deallocate
  deriving DecidableEq, Repr

structure AllocationAction where
  type : ActionType
  zoneId : String
  slotId : String
  vehicleBefore : Option Vehicle
  vehicleAfter : Option Vehicle
  deriving DecidableEq, Repr

/-- The variables of the container. The top of `history` comes first, and `issued`
counts the calls of `uuid`. -/
structure State where
  zones : List Zone
  history : List AllocationAction
  activeZoneId : Option String
  issued : ℕ
  deriving DecidableEq, Repr

namespace State

def new : State := ⟨[], [], none, 0⟩

end State

/-- What a reference to a slot object denotes. -/
structure SlotRef where
  zone : ℕ
  slot : ℕ
  deriving DecidableEq, Repr

def Slot.setVehicle (slot : Slot) (vehicle : Option Vehicle) : Slot := { slot with vehicle := vehicle }

/-- `slots[i].vehicle = vehicle`. -/
def setSlotVehicle (slots : List Slot) (i : ℕ) (vehicle : Option Vehicle) : List Slot :=
  slots.modify i (·.setVehicle vehicle)

/-- `slot.vehicle = vehicle` for a reference to a slot of the zones. -/
def setVehicle (zones : List Zone) (p : SlotRef) (vehicle : Option Vehicle) : List Zone :=
  zones.modify p.zone (fun zone => { zone with slots := setSlotVehicle zone.slots p.slot vehicle })

def findZone (zones : List Zone) (id : String) : Option (ℕ × Zone) := findRef (fun z => z.id == id) zones

def findSlot (zone : Zone) (slotId : String) : Option (ℕ × Slot) := findRef (fun s => s.id == slotId) zone.slots

/-- A string that JavaScript takes for true. -/
def truthy (s : Option String) : Option String := s.filter (fun s => s != "")

variable (uuid : UuidSource)

/-- The slots a loop up to `count` builds, when `issued` uuids have been given out. -/
def buildSlots (issued : ℕ) (count : ℤ) : List Slot :=
  (List.range count.toNat).map (fun i => ⟨uuid.value (issued + i), i + 1, none⟩)

namespace State

def bootstrapDemoData (s : State) : State :=
  if 0 < s.zones.length then s
  else
    let n := s.issued
    let slotsA := buildSlots uuid (n + 1) 8
    let slotsB := buildSlots uuid (n + 10) 6
    let slotsA := setSlotVehicle slotsA 1 (some ⟨uuid.value (n + 16), "Ali Haider", "ALI-123"⟩)
    let slotsA := setSlotVehicle slotsA 3 (some ⟨uuid.value (n + 17), "Shahzeb", "SHZ-789"⟩)
    let slotsB := setSlotVehicle slotsB 0 (some ⟨uuid.value (n + 18), "Campus Visitor", "VIS-456"⟩)
    let zoneA : Zone := ⟨uuid.value n, "Zone A - Main Entrance", slotsA⟩
    let zoneB : Zone := ⟨uuid.value (n + 9), "Zone B - Faculty", slotsB⟩
    { s with zones := [zoneA, zoneB], activeZoneId := some zoneA.id, issued := n + 19 }

def addZone (s : State) (name : String) (slotCount : ℤ) : Zone × State :=
  let zone : Zone := ⟨uuid.value s.issued, name, buildSlots uuid (s.issued + 1) slotCount⟩
  (zone, { s with
    zones := s.zones ++ [zone]
    activeZoneId := if (truthy s.activeZoneId).isNone then some zone.id else s.activeZoneId
    issued := s.issued + 1 + slotCount.toNat })

def setActiveZone (s : State) (id : String) : State := { s with activeZoneId := some id }

structure Allocation where
  zoneId : String
  slotId : String
  vehicle : Vehicle
  deriving DecidableEq, Repr

/-- The slot `allocateVehicle` aims at. -/
def targetSlot (zone : Zone) (preferredSlotId : Option String) : Option (ℕ × Slot) :=
  match truthy preferredSlotId with
  | some slotId => findSlot zone slotId
  | none => findRef (fun s => s.vehicle.isNone) zone.slots

def allocateVehicle (s : State) (zoneId ownerName plate : String) (preferredSlotId : Option String) :
    Option Allocation × State :=
  match findZone s.zones zoneId with
  | none => (none, s)
  | some (i, zone) =>
    match targetSlot zone preferredSlotId with
    | none => (none, s)
    | some (j, slot) =>
      if slot.vehicle.isSome then (none, s)
      else
        let vehicle : Vehicle := ⟨uuid.value s.issued, ownerName, plate⟩
        let before := slot.vehicle
        (some ⟨zoneId, slot.id, vehicle⟩, { s with
          zones := setVehicle s.zones ⟨i, j⟩ (some vehicle)
          history := ⟨.allocate, zoneId, slot.id, before, some vehicle⟩ :: s.history
          issued := s.issued + 1 })

def deallocateVehicle (s : State) (zoneId slotId : String) : Bool × State :=
  match findZone s.zones zoneId with
  | none => (false, s)
  | some (i, zone) =>
    match findSlot zone slotId with
    | none => (false, s)
    | some (j, slot) =>
      if slot.vehicle.isNone then (false, s)
      else
        let before := slot.vehicle
        (true, { s with
          zones := setVehicle s.zones ⟨i, j⟩ none
          history := ⟨.deallocate, zoneId, slotId, before, none⟩ :: s.history })

/-- `last` is popped before the zone and the slot it names are looked for. -/
def undoLast (s : State) : Option (String × String) × State :=
  match s.history with
  | [] => (none, s)
  | last :: history =>
    let s := { s with history }
    match findZone s.zones last.zoneId with
    | none => (none, s)
    | some (i, zone) =>
      match findSlot zone last.slotId with
      | none => (none, s)
      | some (j, slot) =>
        (some (zone.id, slot.id), { s with zones := setVehicle s.zones ⟨i, j⟩ last.vehicleBefore })

/-- The calls that undo nothing. -/
inductive Call
  | bootstrapDemoData
  | addZone (name : String) (slotCount : ℤ)
  | setActiveZone (id : String)
  | allocateVehicle (zoneId ownerName plate : String) (preferredSlotId : Option String)
  | deallocateVehicle (zoneId slotId : String)
  deriving DecidableEq, Repr

def call (s : State) : Call → State
  | .bootstrapDemoData => s.bootstrapDemoData uuid
  | .addZone name slotCount => (s.addZone uuid name slotCount).2
  | .setActiveZone id => s.setActiveZone id
  | .allocateVehicle zoneId ownerName plate preferredSlotId =>
    (s.allocateVehicle uuid zoneId ownerName plate preferredSlotId).2
  | .deallocateVehicle zoneId slotId => (s.deallocateVehicle zoneId slotId).2

inductive Op
  | call (c : Call)
  | undoLast
  deriving DecidableEq, Repr

def step (s : State) : Op → State
  | .call c => s.call uuid c
  | .undoLast => s.undoLast.2

/-- The state a list of operations leads to. -/
def run (ops : List Op) : State := Foundation.Runs.run (step uuid) new ops

end State

end SmartParking.Browser
