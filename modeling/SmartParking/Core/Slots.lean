import Mathlib.Algebra.Group.Nat.Defs
import Mathlib.Algebra.Ring.Int.Defs
import Mathlib.Tactic.Common
import SmartParking.Foundation.FirstFit
import SmartParking.Foundation.ListUpdate

/-! # Slots, areas and zones

`ParkingSlot.cpp`, `ParkingArea.cpp` and `Zone.cpp`. A `ParkingSlot*` is modelled by
the path to the slot it was taken from: positions of the zone, of the area in the
zone and of the slot in the area. An `int` is an `ℤ`; only `static_cast<int>` of a
size can wrap, and it is modelled as such.
-/
namespace SmartParking
open Foundation.FirstFit Foundation.ListUpdate

/-- `static_cast<int>` of a `std::size_t`, on 32 bits. -/
def toInt (n : ℕ) : ℤ := (n : ℤ).bmod (2 ^ 32)

/-- The conversion keeps exactly the sizes an `int` can hold. -/
theorem toInt_eq_self_iff {n : ℕ} : toInt n = n ↔ n < 2 ^ 31 := by
  unfold toInt Int.bmod
  dsimp only
  split <;> omega

theorem toInt_eq {n : ℕ} (h : n < 2 ^ 31) : toInt n = n := toInt_eq_self_iff.mpr h

/-- Two sizes are converted to the same `int` exactly when they are equal modulo 2^32. -/
theorem toInt_eq_toInt_iff {m n : ℕ} : toInt m = toInt n ↔ m % 2 ^ 32 = n % 2 ^ 32 := by
  unfold toInt Int.bmod
  dsimp only
  split <;> split <;> omega

structure ParkingSlot where
  slotId : ℤ
  zoneId : ℤ
  isAvailable : Bool
  deriving DecidableEq, Repr

def ParkingSlot.new (slotId zoneId : ℤ) : ParkingSlot := ⟨slotId, zoneId, true⟩

def ParkingSlot.setIsAvailable (slot : ParkingSlot) (isAvailable : Bool) : ParkingSlot :=
  { slot with isAvailable := isAvailable }

@[simp] theorem ParkingSlot.setIsAvailable_isAvailable (slot : ParkingSlot) (b : Bool) :
    (slot.setIsAvailable b).isAvailable = b := rfl
@[simp] theorem ParkingSlot.setIsAvailable_setIsAvailable (slot : ParkingSlot) (b c : Bool) :
    (slot.setIsAvailable b).setIsAvailable c = slot.setIsAvailable c := rfl
theorem ParkingSlot.setIsAvailable_self {slot : ParkingSlot} {b : Bool} (h : slot.isAvailable = b) :
    slot.setIsAvailable b = slot := by subst h; rfl

structure ParkingArea where
  areaId : ℤ
  slots : List ParkingSlot
  deriving DecidableEq, Repr

def ParkingArea.new (areaId : ℤ) : ParkingArea := ⟨areaId, []⟩

def ParkingArea.addParkingSlot (area : ParkingArea) (slot : ParkingSlot) : ParkingArea :=
  { area with slots := area.slots ++ [slot] }

def ParkingArea.getFirstAvailableSlot (area : ParkingArea) : Option ℕ :=
  area.slots.findIdx? (·.isAvailable)

structure Zone where
  zoneId : ℤ
  parkingAreas : List ParkingArea
  deriving DecidableEq, Repr

def Zone.new (zoneId : ℤ) : Zone := ⟨zoneId, []⟩

def Zone.addParkingArea (zone : Zone) (area : ParkingArea) : Zone :=
  { zone with parkingAreas := zone.parkingAreas ++ [area] }

def Zone.findAvailableSlotInZone (zone : Zone) : Option (ℕ × ℕ) :=
  firstSome ParkingArea.getFirstAvailableSlot zone.parkingAreas

/-- What a `ParkingSlot*` into the zone list denotes. -/
structure SlotRef where
  zone : ℕ
  area : ℕ
  slot : ℕ
  deriving DecidableEq, Repr

def Zone.slotAt? (zone : Zone) (area slot : ℕ) : Option ParkingSlot :=
  zone.parkingAreas[area]?.bind (fun a => a.slots[slot]?)

def slotAt? (zones : List Zone) (p : SlotRef) : Option ParkingSlot :=
  zones[p.zone]?.bind (fun z => z.slotAt? p.area p.slot)

def Zone.modifySlot (zone : Zone) (area slot : ℕ) (f : ParkingSlot → ParkingSlot) : Zone :=
  { zone with
    parkingAreas := zone.parkingAreas.modify area (fun a => { a with slots := a.slots.modify slot f }) }

/-- `p->setIsAvailable(isAvailable)` for a pointer `p` into the zone list. -/
def setIsAvailable (zones : List Zone) (p : SlotRef) (isAvailable : Bool) : List Zone :=
  zones.modify p.zone (fun z => z.modifySlot p.area p.slot (·.setIsAvailable isAvailable))

theorem Zone.slotAt?_modifySlot (zone : Zone) (area slot area' slot' : ℕ)
    (f : ParkingSlot → ParkingSlot) :
    (zone.modifySlot area slot f).slotAt? area' slot' =
      if area = area' ∧ slot = slot' then (zone.slotAt? area' slot').map f
      else zone.slotAt? area' slot' := by
  simp only [Zone.slotAt?, Zone.modifySlot, List.getElem?_modify]
  cases zone.parkingAreas[area']? with
  | none => simp
  | some a =>
    by_cases ha : area = area'
    · simp only [ha, Option.map_eq_map, Option.map_some, Option.bind_some, if_true,
        List.getElem?_modify, true_and]
      cases a.slots[slot']? with
      | none => simp
      | some s => by_cases hs : slot = slot' <;> simp [hs]
    · simp [ha]

/-- The availability write reaches the slot it names and no other. -/
theorem slotAt?_setIsAvailable (zones : List Zone) (p q : SlotRef) (b : Bool) :
    slotAt? (setIsAvailable zones p b) q =
      if p = q then (slotAt? zones q).map (·.setIsAvailable b) else slotAt? zones q := by
  obtain ⟨pz, pa, ps⟩ := p
  obtain ⟨qz, qa, qs⟩ := q
  simp only [slotAt?, setIsAvailable, List.getElem?_modify]
  cases zones[qz]? with
  | none => simp
  | some z =>
    by_cases hz : pz = qz
    · simp [hz, Zone.slotAt?_modifySlot]
    · simp [hz]

@[simp] theorem length_setIsAvailable (zones : List Zone) (p : SlotRef) (b : Bool) :
    (setIsAvailable zones p b).length = zones.length := List.length_modify ..

theorem slotAt?_zone_lt {zones : List Zone} {p : SlotRef} {slot : ParkingSlot}
    (h : slotAt? zones p = some slot) : p.zone < zones.length := by
  obtain ⟨z, hz, -⟩ := Option.bind_eq_some_iff.mp h
  exact (List.getElem?_eq_some_iff.mp hz).1

theorem slotAt?_append_left {zones : List Zone} {p : SlotRef} (h : p.zone < zones.length)
    (more : List Zone) : slotAt? (zones ++ more) p = slotAt? zones p := by
  simp only [slotAt?, List.getElem?_append_left h]

theorem slotAt?_append_right {zones : List Zone} {p : SlotRef} (h : zones.length ≤ p.zone)
    (more : List Zone) :
    slotAt? (zones ++ more) p = slotAt? more { p with zone := p.zone - zones.length } := by
  simp only [slotAt?, List.getElem?_append_right h]

theorem setIsAvailable_append {zones : List Zone} {p : SlotRef} (h : p.zone < zones.length)
    (more : List Zone) (b : Bool) :
    setIsAvailable (zones ++ more) p b = setIsAvailable zones p b ++ more := modify_append_left h more

theorem setIsAvailable_setIsAvailable (zones : List Zone) (p : SlotRef) (b c : Bool) :
    setIsAvailable (setIsAvailable zones p b) p c = setIsAvailable zones p c := by
  unfold setIsAvailable
  rw [List.modify_modify_eq]
  congr 1
  funext z
  simp only [Function.comp_apply, Zone.modifySlot, List.modify_modify_eq]
  congr 2
  funext a
  simp only [Function.comp_apply, List.modify_modify_eq]
  rfl

/-- Writing back the availability a slot has changes nothing. -/
theorem setIsAvailable_self {zones : List Zone} {p : SlotRef} {slot : ParkingSlot}
    (h : slotAt? zones p = some slot) : setIsAvailable zones p slot.isAvailable = zones := by
  obtain ⟨z, hz, hslot⟩ := Option.bind_eq_some_iff.mp h
  obtain ⟨a, ha, hs⟩ := Option.bind_eq_some_iff.mp hslot
  have harea : { a with slots := a.slots.modify p.slot (·.setIsAvailable slot.isAvailable) } = a := by
    rw [modify_fixed hs (ParkingSlot.setIsAvailable_self rfl)]
  have hzone : z.modifySlot p.area p.slot (·.setIsAvailable slot.isAvailable) = z := by
    unfold Zone.modifySlot
    rw [modify_fixed ha harea]
  exact modify_fixed hz hzone

theorem ParkingArea.getFirstAvailableSlot_sound {area : ParkingArea} {i : ℕ}
    (h : area.getFirstAvailableSlot = some i) :
    ∃ slot, area.slots[i]? = some slot ∧ slot.isAvailable = true := by
  obtain ⟨hi, havail, -⟩ := List.findIdx?_eq_some_iff_getElem.mp h
  exact ⟨area.slots[i], List.getElem?_eq_getElem hi, havail⟩

theorem Zone.findAvailableSlotInZone_sound {zone : Zone} {area slot : ℕ}
    (h : zone.findAvailableSlotInZone = some (area, slot)) :
    ∃ s, zone.slotAt? area slot = some s ∧ s.isAvailable = true := by
  obtain ⟨a, ha, hslot⟩ := firstSome_sound h
  obtain ⟨s, hs, havail⟩ := ParkingArea.getFirstAvailableSlot_sound hslot
  exact ⟨s, by simp [Zone.slotAt?, ha, hs], havail⟩

end SmartParking
