import SmartParking.Core.FlatSearch
import SmartParking.Core.ParkingSystem

/-! # One call of `requestParking`

What a call answers and what it does to the zones, the requests, the records and the
vehicles, in any state. Only whether some slot is free decides between its two exits.
-/
namespace SmartParking
open ParkingRequest ParkingSystem

/-- Some slot of some area of some zone is available. -/
def HasFree (zones : List Zone) : Prop := ∃ p slot, slotAt? zones p = some slot ∧ slot.isAvailable = true

def HasFreeIn (zones : List Zone) (zoneId : ℤ) : Prop :=
  ∃ (p : SlotRef) (zone : Zone) (slot : ParkingSlot), zones[p.zone]? = some zone ∧ zone.zoneId = zoneId ∧
    zone.slotAt? p.area p.slot = some slot ∧ slot.isAvailable = true

/-- The slot `p` went from available to taken, and no other slot changed. -/
structure TakesOnly (before after : List Zone) (p : SlotRef) : Prop where
  took : ∃ slot, slotAt? before p = some slot ∧ slot.isAvailable = true ∧
    slotAt? after p = some (slot.setIsAvailable false)
  others : ∀ q, q ≠ p → slotAt? after q = slotAt? before q
  written : after = setIsAvailable before p false

theorem takesOnly_setIsAvailable {zones : List Zone} {p : SlotRef} {slot : ParkingSlot}
    (hslot : slotAt? zones p = some slot) (havail : slot.isAvailable = true) :
    TakesOnly zones (setIsAvailable zones p false) p := by
  constructor
  · refine ⟨slot, hslot, havail, ?_⟩
    rw [slotAt?_setIsAvailable, if_pos rfl, hslot, Option.map_some]
  · intro q hq
    rw [slotAt?_setIsAvailable, if_neg (Ne.symm hq)]
  · rfl

namespace ParkingSystem
variable {ps : ParkingSystem} {vehicleId : String} {requestedZoneId : ℤ}

theorem slotFor_eq_find? (hzones : ps.zones.length < 2 ^ 31) (requestedZoneId : ℤ) :
    ps.slotFor requestedZoneId =
      ((searchOrder requestedZoneId ps.zones).find? (·.2.isAvailable)).map (·.1) := by
  rw [slotFor, toInt_eq hzones, AllocationEngine.allocateSlot_eq_find?]

theorem slotFor_eq_none_iff (hzones : ps.zones.length < 2 ^ 31) :
    ps.slotFor requestedZoneId = none ↔ ¬ HasFree ps.zones := by
  rw [slotFor_eq_find? hzones, Option.map_eq_none_iff, List.find?_eq_none]
  constructor
  · rintro h ⟨p, slot, hslot, havail⟩
    exact h (p, slot) (mem_searchOrder.mpr hslot) havail
  · rintro h ⟨p, slot⟩ hmem havail
    exact h ⟨p, slot, mem_searchOrder.mp hmem, havail⟩

/-- A slot outside the requested zones is taken only when these have none left. -/
theorem slotFor_prefers (hzones : ps.zones.length < 2 ^ 31) {p : SlotRef}
    (h : ps.slotFor requestedZoneId = some p) (hfree : HasFreeIn ps.zones requestedZoneId) :
    ∃ zone, ps.zones[p.zone]? = some zone ∧ zone.zoneId = requestedZoneId := by
  rw [slotFor_eq_find? hzones, searchOrder, List.find?_append] at h
  obtain ⟨q, zone, slot, hzone, hid, hslot, havail⟩ := hfree
  have hmem : (q, slot) ∈ places (·.zoneId == requestedZoneId) ps.zones :=
    mem_places.mpr ⟨zone, hzone, beq_iff_eq.mpr hid, hslot⟩
  obtain ⟨found, hfound⟩ : ∃ found,
      (places (·.zoneId == requestedZoneId) ps.zones).find? (·.2.isAvailable) = some found :=
    Option.isSome_iff_exists.mp (List.find?_isSome.mpr ⟨(q, slot), hmem, havail⟩)
  rw [hfound, Option.some_or, Option.map_some] at h
  obtain rfl := Option.some.inj h
  obtain ⟨zone', hzone', htest, -⟩ := mem_places.mp (List.mem_of_find?_eq_some hfound)
  exact ⟨zone', hzone', beq_iff_eq.mp htest⟩

theorem requestParking_vehicles (ps : ParkingSystem) (vehicleId : String) (requestedZoneId : ℤ) :
    (ps.requestParking vehicleId requestedZoneId).2.vehicles =
      registerVehicle ps.vehicles vehicleId requestedZoneId := by
  cases hslot : ps.slotFor requestedZoneId with
  | none => rw [requestParking_none hslot]
  | some p => rw [requestParking_some hslot]

theorem registerVehicle_known {vehicles : List Vehicle} (h : ∃ v ∈ vehicles, v.vehicleId = vehicleId)
    (zoneId : ℤ) : registerVehicle vehicles vehicleId zoneId = vehicles := by
  have hany : vehicles.any (·.vehicleId == vehicleId) = true := by simpa using h
  rw [registerVehicle, if_pos hany]

theorem registerVehicle_new {vehicles : List Vehicle} (h : ¬ ∃ v ∈ vehicles, v.vehicleId = vehicleId)
    (zoneId : ℤ) : registerVehicle vehicles vehicleId zoneId = vehicles ++ [⟨vehicleId, zoneId⟩] := by
  have hany : ¬ vehicles.any (·.vehicleId == vehicleId) = true := by simpa using h
  rw [registerVehicle, if_neg hany]

/-- All that a call which finds a slot does. -/
structure Parked (before after : ParkingSystem) (answer : ℤ) (vehicleId : String) (requestedZoneId : ℤ)
    (p : SlotRef) : Prop where
  answered : answer = before.requests.length
  zones : TakesOnly before.zones after.zones p
  preferred : HasFreeIn before.zones requestedZoneId →
    ∃ zone, before.zones[p.zone]? = some zone ∧ zone.zoneId = requestedZoneId
  requests : after.requests = before.requests ++ [⟨answer, vehicleId, requestedZoneId, 0, .allocated⟩]
  history : after.history = ⟨some p, true, some before.requests.length, .requested⟩ :: before.history

/-- All that a call which finds no slot does, the vehicles apart. -/
structure TurnedAway (before after : ParkingSystem) (answer : ℤ) : Prop where
  answered : answer = -1
  zones : after.zones = before.zones
  requests : after.requests = before.requests
  history : after.history = before.history

theorem requestParking_parked (hzones : ps.zones.length < 2 ^ 31) (hrequests : ps.requests.length < 2 ^ 31)
    (vehicleId : String) {p : SlotRef} (hslot : ps.slotFor requestedZoneId = some p) :
    Parked ps (ps.requestParking vehicleId requestedZoneId).2
      (ps.requestParking vehicleId requestedZoneId).1 vehicleId requestedZoneId p := by
  obtain ⟨slot, hget, havail⟩ := slotFor_sound hslot
  rw [requestParking_some hslot, toInt_eq hrequests]
  exact ⟨rfl, takesOnly_setIsAvailable hget havail, slotFor_prefers hzones hslot, rfl, rfl⟩

theorem requestParking_turnedAway (vehicleId : String) (hslot : ps.slotFor requestedZoneId = none) :
    TurnedAway ps (ps.requestParking vehicleId requestedZoneId).2
      (ps.requestParking vehicleId requestedZoneId).1 := by
  rw [requestParking_none hslot]
  exact ⟨rfl, rfl, rfl, rfl⟩

theorem requestParking_answer_iff (hzones : ps.zones.length < 2 ^ 31)
    (hrequests : ps.requests.length < 2 ^ 31) (vehicleId : String) (requestedZoneId : ℤ) :
    (ps.requestParking vehicleId requestedZoneId).1 = -1 ↔ ¬ HasFree ps.zones := by
  rw [← slotFor_eq_none_iff hzones]
  cases hslot : ps.slotFor requestedZoneId with
  | none => exact iff_of_true (requestParking_turnedAway vehicleId hslot).answered rfl
  | some p =>
    have hanswer := (requestParking_parked hzones hrequests vehicleId hslot).answered
    apply iff_of_false
    · omega
    · exact Option.some_ne_none p

/-- The whole behaviour of `requestParking`. -/
theorem requestParking_complete (ps : ParkingSystem) (hzones : ps.zones.length < 2 ^ 31 - 1)
    (hrequests : ps.requests.length < 2 ^ 31 - 1) (vehicleId : String) (requestedZoneId : ℤ) :
    ((ps.requestParking vehicleId requestedZoneId).1 = -1 ↔ ¬ HasFree ps.zones) ∧
      (¬ HasFree ps.zones → TurnedAway ps (ps.requestParking vehicleId requestedZoneId).2
        (ps.requestParking vehicleId requestedZoneId).1) ∧
      (HasFree ps.zones → ∃ p, Parked ps (ps.requestParking vehicleId requestedZoneId).2
        (ps.requestParking vehicleId requestedZoneId).1 vehicleId requestedZoneId p) ∧
      ((∃ v ∈ ps.vehicles, v.vehicleId = vehicleId) →
        (ps.requestParking vehicleId requestedZoneId).2.vehicles = ps.vehicles) ∧
      ((¬ ∃ v ∈ ps.vehicles, v.vehicleId = vehicleId) →
        (ps.requestParking vehicleId requestedZoneId).2.vehicles =
          ps.vehicles ++ [⟨vehicleId, requestedZoneId⟩]) := by
  have hz : ps.zones.length < 2 ^ 31 := by omega
  have hr : ps.requests.length < 2 ^ 31 := by omega
  have hvehicles := requestParking_vehicles ps vehicleId requestedZoneId
  refine ⟨requestParking_answer_iff hz hr vehicleId requestedZoneId, ?_, ?_, ?_, ?_⟩
  · intro hfree
    exact requestParking_turnedAway vehicleId ((slotFor_eq_none_iff hz).mpr hfree)
  · intro hfree
    cases hslot : ps.slotFor requestedZoneId with
    | none => exact absurd hfree ((slotFor_eq_none_iff hz).mp hslot)
    | some p => exact ⟨p, requestParking_parked hz hr vehicleId hslot⟩
  · intro hknown
    rw [hvehicles, registerVehicle_known hknown]
  · intro hnew
    rw [hvehicles, registerVehicle_new hnew]

/-- One free slot, in another zone than the requested one. -/
theorem requestParking_complete_other_zone :
    ∃ p, Parked ⟨[⟨7, [⟨1, [⟨1, 7, true⟩]⟩]⟩], [], [], ⟨[]⟩⟩
      (requestParking ⟨[⟨7, [⟨1, [⟨1, 7, true⟩]⟩]⟩], [], [], ⟨[]⟩⟩ "v" 8).2 0 "v" 8 p :=
  (requestParking_complete ⟨[⟨7, [⟨1, [⟨1, 7, true⟩]⟩]⟩], [], [], ⟨[]⟩⟩ (by decide) (by decide) "v" 8).2.2.1
    ⟨⟨0, 0, 0⟩, ⟨1, 7, true⟩, rfl, rfl⟩

end ParkingSystem

end SmartParking
