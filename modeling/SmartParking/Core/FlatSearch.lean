import SmartParking.Core.AllocationEngine

/-! # The allocation engine as one flat search

The engine nests three loops and makes two passes. What it computes is a search
through one list of slots: those of the zones with the requested id, then the others.
-/
namespace SmartParking
open Foundation.FirstFit

/-- The slots of a zone, area by area, each with its path. -/
def Zone.places (zone : Zone) (i : ℕ) : List (SlotRef × ParkingSlot) :=
  zone.parkingAreas.zipIdx.flatMap
    (fun (area, j) => area.slots.zipIdx.map (fun (slot, k) => (⟨i, j, k⟩, slot)))

/-- The slots of the zones that pass a test, zone by zone. -/
def places (test : Zone → Bool) (zones : List Zone) : List (SlotRef × ParkingSlot) :=
  (zones.zipIdx.filter (fun (zone, _) => test zone)).flatMap (fun (zone, i) => zone.places i)

def searchOrder (requestedZoneId : ℤ) (zones : List Zone) : List (SlotRef × ParkingSlot) :=
  places (·.zoneId == requestedZoneId) zones ++ places (·.zoneId != requestedZoneId) zones

theorem Zone.mem_places {zone : Zone} {i : ℕ} {p : SlotRef} {slot : ParkingSlot} :
    (p, slot) ∈ zone.places i ↔ p.zone = i ∧ zone.slotAt? p.area p.slot = some slot := by
  simp only [Zone.places, List.mem_flatMap, List.mem_map, Prod.exists, List.mk_mem_zipIdx_iff_getElem?,
    Zone.slotAt?, Option.bind_eq_some_iff]
  constructor
  · rintro ⟨area, j, harea, slot', k, hslot, heq⟩
    obtain ⟨rfl, rfl⟩ := Prod.mk.inj heq
    exact ⟨rfl, area, harea, hslot⟩
  · rintro ⟨rfl, area, harea, hslot⟩
    exact ⟨area, p.area, harea, slot, p.slot, hslot, rfl⟩

theorem mem_places {test : Zone → Bool} {zones : List Zone} {p : SlotRef} {slot : ParkingSlot} :
    (p, slot) ∈ places test zones ↔
      ∃ zone, zones[p.zone]? = some zone ∧ test zone = true ∧ zone.slotAt? p.area p.slot = some slot := by
  simp only [places, List.mem_flatMap, List.mem_filter, Prod.exists, List.mk_mem_zipIdx_iff_getElem?,
    Zone.mem_places]
  constructor
  · rintro ⟨zone, i, ⟨hzone, htest⟩, rfl, hslot⟩
    exact ⟨zone, hzone, htest, hslot⟩
  · rintro ⟨zone, hzone, htest, hslot⟩
    exact ⟨zone, p.zone, ⟨hzone, htest⟩, rfl, hslot⟩

/-- The order lists every slot of the zones, and nothing else. -/
theorem mem_searchOrder {requestedZoneId : ℤ} {zones : List Zone} {p : SlotRef} {slot : ParkingSlot} :
    (p, slot) ∈ searchOrder requestedZoneId zones ↔ slotAt? zones p = some slot := by
  simp only [searchOrder, List.mem_append, mem_places, slotAt?, Option.bind_eq_some_iff]
  constructor
  · rintro (⟨zone, hzone, -, hslot⟩ | ⟨zone, hzone, -, hslot⟩)
    · exact ⟨zone, hzone, hslot⟩
    · exact ⟨zone, hzone, hslot⟩
  · rintro ⟨zone, hzone, hslot⟩
    by_cases hid : zone.zoneId = requestedZoneId
    · exact Or.inl ⟨zone, hzone, by simp [hid], hslot⟩
    · exact Or.inr ⟨zone, hzone, by simp [hid], hslot⟩

theorem ParkingArea.getFirstAvailableSlot_eq (area : ParkingArea) :
    area.getFirstAvailableSlot = (area.slots.zipIdx.find? (·.1.isAvailable)).map (·.2) := by
  unfold getFirstAvailableSlot
  rw [List.findIdx?_eq_fst_find?_zipIdx]

theorem Zone.findAvailableSlotInZone_eq (zone : Zone) (i : ℕ) :
    zone.findAvailableSlotInZone.map (fun q => (⟨i, q.1, q.2⟩ : SlotRef)) =
      ((zone.places i).find? (·.2.isAvailable)).map (·.1) := by
  rw [Zone.findAvailableSlotInZone, firstSome_eq_findSome?, Zone.places, List.find?_flatMap,
    List.map_findSome?, List.map_findSome?]
  congr 1
  funext q
  simp only [Function.comp_apply, ParkingArea.getFirstAvailableSlot_eq, List.find?_map, Option.map_map]
  rfl

namespace AllocationEngine

theorem searchPass_eq_find? (requestedZoneId : ℤ) (requested : Bool) (zones : List Zone) :
    (searchPass requestedZoneId requested zones).map (fun q => (⟨q.1, q.2.1, q.2.2⟩ : SlotRef)) =
      ((places (fun zone => (zone.zoneId == requestedZoneId) == requested) zones).find?
        (·.2.isAvailable)).map (·.1) := by
  rw [searchPass, firstSome_eq_findSome?, places, List.find?_flatMap, findSome?_filter,
    List.map_findSome?, List.map_findSome?]
  congr 1
  funext q
  simp only [Function.comp_apply, beq_iff_eq]
  split
  · rw [← Zone.findAvailableSlotInZone_eq, Option.map_map]
    rfl
  · rfl

/-- Without the guards on an empty array: there is nothing to search in it. -/
theorem allocateSlot_all (requestedZoneId : ℤ) (zones : List Zone) :
    allocateSlot requestedZoneId zones zones.length =
      ((searchPass requestedZoneId true zones).or (searchPass requestedZoneId false zones)).map
        (fun q => ⟨q.1, q.2.1, q.2.2⟩) := by
  unfold allocateSlot
  cases zones with
  | nil => rfl
  | cons zone zones =>
    rw [if_neg (by simp), Int.toNat_natCast, List.take_length]

theorem allocateSlot_eq_find? (requestedZoneId : ℤ) (zones : List Zone) :
    allocateSlot requestedZoneId zones zones.length =
      ((searchOrder requestedZoneId zones).find? (·.2.isAvailable)).map (·.1) := by
  have hfalse : (fun zone : Zone => (zone.zoneId == requestedZoneId) == false) =
      (·.zoneId != requestedZoneId) := by
    funext zone
    cases h : zone.zoneId == requestedZoneId <;> simp [bne, h]
  have htrue : (fun zone : Zone => (zone.zoneId == requestedZoneId) == true) =
      (·.zoneId == requestedZoneId) := by
    funext zone
    cases h : zone.zoneId == requestedZoneId <;> rfl
  rw [allocateSlot_all, Option.map_or, searchPass_eq_find?, searchPass_eq_find?, htrue, hfalse,
    ← Option.map_or, searchOrder, List.find?_append]

/-- `allocateSlot` is a first-fit search through the slots in search order. -/
theorem allocateSlot_flat (requestedZoneId : ℤ) (zones : List Zone) :
    allocateSlot requestedZoneId zones zones.length =
        ((searchOrder requestedZoneId zones).find? (·.2.isAvailable)).map (·.1) ∧
      (allocateSlot requestedZoneId zones zones.length = none ↔
        ∀ q ∈ searchOrder requestedZoneId zones, q.2.isAvailable = false) := by
  refine ⟨allocateSlot_eq_find? requestedZoneId zones, ?_⟩
  rw [allocateSlot_eq_find?, Option.map_eq_none_iff, List.find?_eq_none]
  simp only [Bool.not_eq_true]

end AllocationEngine

end SmartParking
