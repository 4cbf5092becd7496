import Mathlib.Tactic.Common
import SmartParking.Browser.History

/-! # Snapshots

`getSnapshot` of `state.js`. The cars it counts are those the zones were created with and
those of the allocations in the history, less those of the deallocations.
-/
namespace SmartParking.Browser
open Foundation Foundation.ListUpdate

/-- The copies are the values themselves. -/
structure Snapshot where
  zones : List Zone
  totalZones : ℕ
  parkedCars : ℕ
  freeSlots : ℕ
  activeZoneId : Option String
  deriving DecidableEq, Repr

/-- The body of the two loops. -/
def countSlot (counts : ℕ × ℕ) (slot : Slot) : ℕ × ℕ :=
  if slot.vehicle.isSome then (counts.1 + 1, counts.2) else (counts.1, counts.2 + 1)

def State.getSnapshot (s : State) : Snapshot :=
  let (parkedCars, freeSlots) := s.zones.foldl (fun counts zone => zone.slots.foldl countSlot counts) (0, 0)
  ⟨s.zones, s.zones.length, parkedCars, freeSlots, s.activeZoneId⟩

def allSlots (zones : List Zone) : List Slot := zones.flatMap Zone.slots

def parked (zones : List Zone) : ℕ := (allSlots zones).countP (·.vehicle.isSome)

def free (zones : List Zone) : ℕ := (allSlots zones).countP (·.vehicle.isNone)

def entries (type : ActionType) (history : List AllocationAction) : ℕ := history.countP (·.type == type)

variable {uuid : UuidSource} {s s' : State} {made new zones : List Zone} {p : SlotRef} {slot : Slot}
  {action last : AllocationAction}

theorem foldl_countSlot (slots : List Slot) (counts : ℕ × ℕ) : slots.foldl countSlot counts =
    (counts.1 + slots.countP (·.vehicle.isSome), counts.2 + slots.countP (·.vehicle.isNone)) := by
  induction slots generalizing counts with
  | nil => rfl
  | cons slot slots ih =>
    rw [List.foldl_cons, ih, countSlot, List.countP_cons, List.countP_cons]
    cases slot.vehicle <;> simp <;> omega

theorem getSnapshot_eq (s : State) :
    s.getSnapshot = ⟨s.zones, s.zones.length, parked s.zones, free s.zones, s.activeZoneId⟩ := by
  have hloop : s.zones.foldl (fun counts zone => zone.slots.foldl countSlot counts) (0, 0) =
      (parked s.zones, free s.zones) := by
    rw [← List.foldl_flatMap, foldl_countSlot, Nat.zero_add, Nat.zero_add]
    rfl
  rw [State.getSnapshot, hloop]

theorem parked_add_free (zones : List Zone) : parked zones + free zones = (allSlots zones).length := by
  have hneg : ∀ slot : Slot, slot.vehicle.isNone = !slot.vehicle.isSome := fun slot => by cases slot.vehicle <;> rfl
  rw [parked, free, List.length_eq_countP_add_countP (p := fun slot : Slot => slot.vehicle.isSome)]
  simp only [hneg, decide_not, Bool.decide_eq_true]

theorem parked_append (zones new : List Zone) : parked (zones ++ new) = parked zones + parked new := by
  rw [parked, allSlots, List.flatMap_append, List.countP_append]
  rfl

def one (vehicle : Option Vehicle) : ℕ := if vehicle.isSome then 1 else 0

/-- Around a slot, the slots of the zones are what they are. -/
theorem allSlots_split (h : slotAt? zones p = some slot) :
    ∃ pre post, ∀ vehicle, allSlots zones = pre ++ slot :: post ∧
      allSlots (setVehicle zones p vehicle) = pre ++ slot.setVehicle vehicle :: post := by
  obtain ⟨zone, hzone, hslot⟩ := Option.bind_eq_some_iff.mp h
  obtain ⟨pre, post, hzones, hmodify⟩ := modify_split hzone
  obtain ⟨pre', post', hslots, hmodify'⟩ := modify_split hslot
  refine ⟨allSlots pre ++ pre', post' ++ allSlots post, fun vehicle => ?_⟩
  constructor
  · rw [hzones, allSlots, List.flatMap_append, List.flatMap_cons, hslots]
    simp [allSlots]
  · rw [setVehicle, hmodify, allSlots, List.flatMap_append, List.flatMap_cons]
    dsimp only
    rw [setSlotVehicle, hmodify']
    simp [allSlots]

theorem parked_setVehicle (h : slotAt? zones p = some slot) (vehicle : Option Vehicle) :
    parked (setVehicle zones p vehicle) + one slot.vehicle = parked zones + one vehicle := by
  obtain ⟨pre, post, hsplit⟩ := allSlots_split h
  obtain ⟨hold, hnew⟩ := hsplit vehicle
  rw [parked, parked, hold, hnew, List.countP_append, List.countP_append, List.countP_cons, List.countP_cons]
  have hset : (slot.setVehicle vehicle).vehicle = vehicle := rfl
  rw [hset, one, one]
  omega

theorem length_allSlots_layout (h : made.map Zone.layout = zones.map Zone.layout) :
    (allSlots made).length = (allSlots zones).length := by
  have hlength : ∀ zones : List Zone, (allSlots zones).length = (allSlots (zones.map Zone.layout)).length := by
    intro zones
    rw [allSlots, allSlots, List.flatMap_map, List.length_flatMap, List.length_flatMap]
    congr 2
    funext zone
    exact (List.length_map _).symm
  rw [hlength, h, ← hlength]

/-- The cars in the slots are accounted for by the zones as created and the history. -/
def Accounted (made : List Zone) (s : State) : Prop :=
  parked s.zones + entries .deallocate s.history = parked made + entries .allocate s.history

theorem entries_cons (type : ActionType) (action : AllocationAction) (history : List AllocationAction) :
    entries type (action :: history) = entries type history + if action.type == type then 1 else 0 := List.countP_cons

/-- What an entry adds to the cars and what it adds to the two counts. -/
theorem AllocationAction.Switches.one (h : action.Switches) :
    Browser.one action.vehicleBefore + (if action.type == .allocate then 1 else 0) =
      Browser.one action.vehicleAfter + if action.type == .deallocate then 1 else 0 := by
  unfold AllocationAction.Switches at h
  cases htype : action.type with
  | allocate =>
    simp only [htype] at h
    obtain ⟨hbefore, v, hafter⟩ := h
    rw [hbefore, hafter]
    rfl
  | deallocate =>
    simp only [htype] at h
    obtain ⟨⟨v, hbefore⟩, hafter⟩ := h
    rw [hbefore, hafter]
    rfl

theorem Accounted.grows (h : Accounted made s) (hg : Grows uuid s s' new) : Accounted (made ++ new) s' := by
  rw [Accounted] at h ⊢
  rw [hg.zones, hg.history, parked_append, parked_append]
  omega

theorem Accounted.writes (h : Accounted made s) (hw : Writes uuid s s' p action) : Accounted made s' := by
  obtain ⟨slot, hslot, hbefore⟩ := hw.before
  have hparked := parked_setVehicle hslot action.vehicleAfter
  have hswitches := hw.fits.switches.one
  rw [hbefore] at hswitches
  rw [Accounted] at h ⊢
  rw [hw.zones, hw.history, entries_cons, entries_cons]
  omega

theorem Accounted.undoes (h : Accounted made s) (hs : Sound uuid s) (hlogs : Logs made s) (hu : Undoes s s' p last) :
    Accounted made s' := by
  obtain ⟨slot, hslot⟩ := exists_slotAt? hu.name
  have hleads := hlogs.leads
  rw [hu.history, List.map_cons] at hleads
  have hafter : slot.vehicle = last.vehicleAfter := (hs.distinct.occupant_eq hu.name hslot).symm.trans hleads.revert.2
  have hparked := parked_setVehicle hslot last.vehicleBefore
  have hswitches := (hlogs.switches last (hu.history ▸ List.mem_cons_self)).one
  rw [hafter] at hparked
  rw [Accounted, hu.history, entries_cons, entries_cons] at h
  rw [Accounted, hu.zones]
  omega

theorem accounted_run (uuid : UuidSource) (ops : List State.Op) :
    Accounted (created (State.step uuid) State.new ops) (State.run uuid ops) := by
  have hboth : Logs (created (State.step uuid) State.new ops) (State.run uuid ops) ∧
      Accounted (created (State.step uuid) State.new ops) (State.run uuid ops) := by
    refine run_created (P := fun made s => Logs made s ∧ Accounted made s) ⟨logs_run uuid [], rfl⟩ ?_ ?_ ?_ ops
    · exact fun made s s' new hs h hg => ⟨h.1.grows hs hg, h.2.grows hg⟩
    · exact fun made s s' p action hs h hw => ⟨h.1.writes hs hw, h.2.writes hw⟩
    · exact fun made s s' p last hs h hu => ⟨h.1.undoes hs hu, h.2.undoes hs h.1 hu⟩
  exact hboth.2

/-- What a snapshot counts. -/
structure Counts (made : List Zone) (s : State) : Prop where
  slots : s.getSnapshot.parkedCars + s.getSnapshot.freeSlots = (allSlots s.zones).length
  created : (allSlots s.zones).length = (allSlots made).length
  cars : s.getSnapshot.parkedCars + entries .deallocate s.history = parked made + entries .allocate s.history

/-- After any calls a snapshot accounts for every slot and every car. -/
theorem getSnapshot_run (uuid : UuidSource) (ops : List State.Op) :
    Counts (created (State.step uuid) State.new ops) (State.run uuid ops) := by
  constructor
  · rw [getSnapshot_eq]
    exact parked_add_free _
  · exact (length_allSlots_layout (logs_run uuid ops).layout).symm
  · rw [getSnapshot_eq]
    exact accounted_run uuid ops

end SmartParking.Browser
