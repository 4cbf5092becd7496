import SmartParking.System.Closing

/-! # The rollback history as a ledger of occupancy

What the representation by a ledger says about slots: the history records exactly
the slots taken since they were added, and no slot is booked twice.
-/
namespace SmartParking.Audit
open Foundation ParkingRequest ParkingSystem

variable {a : Audit} {l : Ledger ℕ SlotRef}

/-- The slots that were available in the zone passed to `addZone` and are not now. -/
def takenSlots (a : Audit) : Set SlotRef :=
  {p | availability a.added p = some true ∧ availability a.system.zones p = some false}

structure ExactLedger (a : Audit) : Prop where
  slots_nodup : (a.system.history.map (·.slot)).Nodup
  saved : ∀ record ∈ a.system.history,
    record.previousAvailability = true ∧ record.previousRequestState = .requested
  requests_nodup : (a.system.history.map (·.request)).Nodup
  requests_stored : ∀ record ∈ a.system.history,
    ∃ i, record.request = some i ∧ i < a.system.requests.length
  slots_recorded : ∀ record ∈ a.system.history, ∃ p, record.slot = some p
  slots_exact : ∀ p, some p ∈ a.system.history.map (·.slot) ↔ p ∈ a.takenSlots
  depth : a.takenSlots.ncard = a.system.history.length

theorem Represents.places_eq (h : Represents a l) : a.takenSlots = l.places := by
  ext p
  constructor
  · rintro ⟨hadded, hnow⟩
    by_contra hp
    rw [availability, h.free hp] at hnow
    rw [availability, hnow] at hadded
    simp at hadded
  · intro hp
    obtain ⟨slot, hadded, havail, hnow⟩ := h.taken hp
    exact ⟨by simp [availability, hadded, havail], by simp [availability, hnow]⟩

theorem Represents.mem_recorded_slots (h : Represents a l) {p : SlotRef} :
    some p ∈ a.system.history.map (·.slot) ↔ p ∈ l.places := by
  rw [h.history, List.map_map]
  constructor
  · intro hmem
    obtain ⟨⟨i, q⟩, hq, heq⟩ := List.mem_map.mp hmem
    obtain rfl : q = p := Option.some.inj heq
    exact ⟨i, hq⟩
  · rintro ⟨i, hi⟩
    exact List.mem_map.mpr ⟨(i, p), hi, rfl⟩

theorem Represents.exactLedger (h : Represents a l) : ExactLedger a where
  slots_nodup := by
    have hmap : a.system.history.map (·.slot) = (l.entries.map Prod.snd).map some := by
      rw [h.history, List.map_map, List.map_map]
      rfl
    rw [hmap]
    exact l.places_nodup.map (Option.some_injective _)
  saved record hmem := by
    rw [h.history] at hmem
    obtain ⟨⟨i, p⟩, -, rfl⟩ := List.mem_map.mp hmem
    exact ⟨rfl, rfl⟩
  requests_nodup := by
    have hmap : a.system.history.map (·.request) = (l.entries.map Prod.fst).map some := by
      rw [h.history, List.map_map, List.map_map]
      rfl
    rw [hmap]
    exact l.holders_nodup.map (Option.some_injective _)
  requests_stored record hmem := by
    rw [h.history] at hmem
    obtain ⟨⟨i, p⟩, hip, rfl⟩ := List.mem_map.mp hmem
    exact ⟨i, rfl, h.holder_lt ⟨p, hip⟩⟩
  slots_recorded record hmem := by
    rw [h.history] at hmem
    obtain ⟨⟨i, p⟩, -, rfl⟩ := List.mem_map.mp hmem
    exact ⟨p, rfl⟩
  slots_exact p := by rw [h.mem_recorded_slots, h.places_eq]
  depth := by rw [h.places_eq, Ledger.ncard_places, h.history, List.length_map]

/-- After any run the history is an exact ledger of occupancy. -/
theorem history_exactLedger (ops : List Op) : ExactLedger (run ops) := by
  obtain ⟨l, hl⟩ := represents_run ops
  exact hl.exactLedger

def activeStates : List State := [.allocated, .occupied]

/-- Every active request has its slot, and no two share one. -/
def NoDoubleBooking (a : Audit) : Prop :=
  (∀ i, a.system.InState i activeStates →
    ∃ p, AssignedTo a i p ∧ availability a.system.zones p = some false) ∧
  (∀ i j p, a.system.InState i activeStates → a.system.InState j activeStates → i ≠ j →
    AssignedTo a i p → ¬ AssignedTo a j p)

theorem Represents.active_entry (h : Represents a l) {i : ℕ} (hi : a.system.InState i activeStates) :
    ∃ p, (i, p) ∈ l.entries ∧ AssignedTo a i p ∧ availability a.system.zones p = some false := by
  obtain ⟨state, hactive, hstate⟩ := hi
  have hholder : i ∈ l.holders := by
    rcases h.state hstate with ⟨-, hmem⟩ | ⟨rfl, -⟩ | rfl
    · exact hmem
    · simp [activeStates] at hactive
    · simp [activeStates] at hactive
  obtain ⟨p, hp⟩ := hholder
  obtain ⟨slot, -, -, hnow⟩ := h.taken ⟨i, hp⟩
  exact ⟨p, hp, h.assigned hp, by simp [availability, hnow]⟩

theorem Represents.noDoubleBooking (h : Represents a l) : NoDoubleBooking a := by
  constructor
  · intro i hi
    obtain ⟨p, -, hassigned, hnow⟩ := h.active_entry hi
    exact ⟨p, hassigned, hnow⟩
  · intro i j p hi hj hne hip hjp
    obtain ⟨q, hq, hiq, -⟩ := h.active_entry hi
    obtain ⟨q', hq', hjq', -⟩ := h.active_entry hj
    obtain rfl : p = q := Option.some.inj (hip.symm.trans hiq)
    obtain rfl : p = q' := Option.some.inj (hjp.symm.trans hjq')
    exact hne (l.holder_unique hq hq')

/-- No run books a slot twice, whatever the zones looked like when they were added. -/
theorem run_noDoubleBooking (ops : List Op) : NoDoubleBooking (run ops) := by
  obtain ⟨l, hl⟩ := represents_run ops
  exact hl.noDoubleBooking

end SmartParking.Audit
