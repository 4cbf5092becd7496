import SmartParking.Core.Slots

/-! # The allocation engine

`AllocateEngine.cpp`. The array is passed with a count, so only its first
`zoneCount` zones are searched; a null pointer is the empty list.
-/
namespace SmartParking.AllocationEngine
open Foundation.FirstFit

/-- The loop of one pass: the zones the pass looks at are those with the given
answer to `getZoneId() == requestedZoneId`. -/
def searchPass (requestedZoneId : ℤ) (requested : Bool) (zones : List Zone) : Option (ℕ × ℕ × ℕ) :=
  firstSome (fun zone =>
    if (zone.zoneId == requestedZoneId) = requested then zone.findAvailableSlotInZone else none) zones

def allocateSlot (requestedZoneId : ℤ) (zones : List Zone) (zoneCount : ℤ) : Option SlotRef :=
  if zones.isEmpty ∨ zoneCount ≤ 0 then none
  else
    let zones := zones.take zoneCount.toNat
    ((searchPass requestedZoneId true zones).or (searchPass requestedZoneId false zones)).map
      (fun (zone, area, slot) => ⟨zone, area, slot⟩)

theorem searchPass_sound {requestedZoneId : ℤ} {requested : Bool} {zones : List Zone} {i j k : ℕ}
    (h : searchPass requestedZoneId requested zones = some (i, j, k)) :
    ∃ slot, slotAt? zones ⟨i, j, k⟩ = some slot ∧ slot.isAvailable = true := by
  obtain ⟨zone, hzone, hprobe⟩ := firstSome_sound h
  split at hprobe
  · obtain ⟨slot, hslot, havail⟩ := Zone.findAvailableSlotInZone_sound hprobe
    exact ⟨slot, by simp [slotAt?, hzone, hslot], havail⟩
  · contradiction

/-- Whatever the engine returns points to a slot that is available. -/
theorem allocateSlot_sound {requestedZoneId : ℤ} {zones : List Zone} {zoneCount : ℤ} {p : SlotRef}
    (h : allocateSlot requestedZoneId zones zoneCount = some p) :
    ∃ slot, slotAt? zones p = some slot ∧ slot.isAvailable = true := by
  unfold allocateSlot at h
  split at h
  · contradiction
  · obtain ⟨⟨i, j, k⟩, hpass, rfl⟩ := Option.map_eq_some_iff.mp h
    have hfound : ∃ slot, slotAt? (zones.take zoneCount.toNat) ⟨i, j, k⟩ = some slot ∧
        slot.isAvailable = true := by
      rcases Option.or_eq_some_iff.mp hpass with hpass | ⟨-, hpass⟩
      · exact searchPass_sound hpass
      · exact searchPass_sound hpass
    obtain ⟨slot, hslot, havail⟩ := hfound
    have hi : i < (zones.take zoneCount.toNat).length := slotAt?_zone_lt hslot
    refine ⟨slot, ?_, havail⟩
    rw [← List.take_append_drop zoneCount.toNat zones, slotAt?_append_left hi]
    exact hslot

end SmartParking.AllocationEngine
