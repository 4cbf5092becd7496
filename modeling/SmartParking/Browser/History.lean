import SmartParking.Browser.Undo
import SmartParking.Foundation.ChangeLog

/-! # The history as a log of the occupancy

The occupancy maps the name of a slot to the vehicle parked there. The history leads from
the occupancy at creation to the present one, so its entries on each slot form a chain and
undoing an entry takes away no other vehicle than the one it brought.
-/
namespace SmartParking.Browser
open Foundation Foundation.ChangeLog

def AllocationAction.name (action : AllocationAction) : Name := (action.zoneId, action.slotId)

/-- The entry as a change of the occupancy. -/
def AllocationAction.change (action : AllocationAction) : Change Name (Option Vehicle) :=
  ⟨action.name, action.vehicleBefore, action.vehicleAfter⟩

/-- An allocation goes from no vehicle to a vehicle, a deallocation from one to none. -/
def AllocationAction.Switches (action : AllocationAction) : Prop :=
  match action.type with
  | .allocate => action.vehicleBefore = none ∧ ∃ v, action.vehicleAfter = some v
  | .deallocate => (∃ v, action.vehicleBefore = some v) ∧ action.vehicleAfter = none

/-- The history of `s` leads from the zones as they were created to those of `s`. -/
structure Logs (made : List Zone) (s : State) : Prop where
  layout : made.map Zone.layout = s.zones.map Zone.layout
  switches : ∀ action ∈ s.history, action.Switches
  leads : Leads (occupant made) (s.history.map AllocationAction.change) (occupant s.zones)

variable {uuid : UuidSource} {s s' : State} {made new zones : List Zone} {p : SlotRef}
  {action last : AllocationAction}

theorem Fits.switches {issued issued' : ℕ} (h : Fits uuid issued issued' action) : action.Switches := by
  unfold Fits at h
  unfold AllocationAction.Switches
  cases htype : action.type with
  | allocate =>
    simp only [htype] at h
    obtain ⟨hbefore, -, v, hafter, -⟩ := h
    exact ⟨hbefore, v, hafter⟩
  | deallocate =>
    simp only [htype] at h
    exact ⟨h.1, h.2.1⟩

theorem map_id_of_layout (h : made.map Zone.layout = zones.map Zone.layout) :
    made.map Zone.id = zones.map Zone.id := by
  rw [← map_id_layout made, h, map_id_layout]

theorem mem_map_id_of_nameAt? {name : Name} (h : nameAt? zones p = some name) : name.1 ∈ zones.map Zone.id := by
  obtain ⟨zone, slot, hzone, -, rfl⟩ := nameAt?_eq_some_iff.mp h
  exact List.mem_map.mpr ⟨zone, List.mem_of_getElem? hzone, rfl⟩

theorem Logs.grows (h : Logs made s) (hs : Sound uuid s) (hg : Grows uuid s s' new) : Logs (made ++ new) s' where
  layout := by rw [hg.zones, List.map_append, List.map_append, h.layout]
  switches := by
    rw [hg.history]
    exact h.switches
  leads := by
    have hnamed : ∀ c ∈ s.history.map AllocationAction.change, c.place.1 ∈ s.zones.map Zone.id := by
      intro c hc
      obtain ⟨action, haction, rfl⟩ := List.mem_map.mp hc
      obtain ⟨p, hp⟩ := hs.named action haction
      exact mem_map_id_of_nameAt? hp
    have hextend := h.leads.extend (fun name => name.1 ∈ s.zones.map Zone.id) hnamed (occupant new)
    have hmade : occupant (made ++ new) =
        fun name => if name.1 ∈ s.zones.map Zone.id then occupant made name else occupant new name := by
      funext name
      rw [occupant_append, map_id_of_layout h.layout]
    have hnow : occupant (s.zones ++ new) =
        fun name => if name.1 ∈ s.zones.map Zone.id then occupant s.zones name else occupant new name := by
      funext name
      rw [occupant_append]
    rw [hg.history, hg.zones, hmade, hnow]
    exact hextend

theorem Logs.writes (h : Logs made s) (hs : Sound uuid s) (hw : Writes uuid s s' p action) : Logs made s' where
  layout := by rw [hw.zones, layout_setVehicle, h.layout]
  switches := by
    intro action' haction'
    rw [hw.history] at haction'
    rcases List.mem_cons.mp haction' with rfl | haction'
    · exact hw.fits.switches
    · exact h.switches action' haction'
  leads := by
    obtain ⟨slot, hslot, hbefore⟩ := hw.before
    have hoccupant : occupant s.zones action.name = action.vehicleBefore := by
      rw [hbefore]
      exact hs.distinct.occupant_eq hw.name hslot
    rw [hw.history, hw.zones, hs.distinct.occupant_setVehicle hw.name]
    exact h.leads.push action.change hoccupant

theorem Logs.undoes (h : Logs made s) (hs : Sound uuid s) (hu : Undoes s s' p last) : Logs made s' where
  layout := by rw [hu.zones, layout_setVehicle, h.layout]
  switches := by
    intro action haction
    exact h.switches action (hu.history ▸ List.mem_cons_of_mem _ haction)
  leads := by
    have hleads := h.leads
    rw [hu.history, List.map_cons] at hleads
    rw [hu.zones, hs.distinct.occupant_setVehicle hu.name]
    exact hleads.revert.1

theorem run_snoc (uuid : UuidSource) (ops : List State.Op) (op : State.Op) :
    State.run uuid (ops ++ [op]) = (State.run uuid ops).step uuid op := by
  rw [State.run, Runs.run_append, Runs.run_cons, Runs.run_nil, State.run]

/-- What relates the zones as created to a state holds after a run, if it is kept by all that
a step can do. -/
theorem run_created {P : List Zone → State → Prop} (hnew : P [] State.new)
    (hgrows : ∀ made s s' new, Sound uuid s → P made s → Grows uuid s s' new → P (made ++ new) s')
    (hwrites : ∀ made s s' p action, Sound uuid s → P made s → Writes uuid s s' p action → P made s')
    (hundoes : ∀ made s s' p last, Sound uuid s → P made s → Undoes s s' p last → P made s') (ops : List State.Op) :
    P (created (State.step uuid) State.new ops) (State.run uuid ops) := by
  induction ops using List.reverseRecOn with
  | nil => exact hnew
  | append_singleton ops op ih =>
    have hs : Sound uuid (State.run uuid ops) := (sound_new uuid).run ops
    rw [created_snoc, run_snoc, ← State.run]
    rcases step_cases hs op with ⟨new, hg⟩ | ⟨p, action, hw⟩ | ⟨p, last, hu⟩
    · rw [hg.drop_eq]
      exact hgrows _ _ _ new hs ih hg
    · rw [hw.drop_eq, List.append_nil]
      exact hwrites _ _ _ p action hs ih hw
    · rw [hu.drop_eq, List.append_nil]
      exact hundoes _ _ _ p last hs ih hu

/-- Every state of a run is logged from the zones the run created. -/
theorem logs_run (uuid : UuidSource) (ops : List State.Op) :
    Logs (created (State.step uuid) State.new ops) (State.run uuid ops) :=
  run_created ⟨rfl, fun _ h => absurd h List.not_mem_nil, Leads.start⟩ (fun _ _ _ _ hs h hg => h.grows hs hg)
    (fun _ _ _ _ _ hs h hw => h.writes hs hw) (fun _ _ _ _ _ hs h hu => h.undoes hs hu) ops

/-- The history names slots only, its entries on each slot lead from what the slot held at
creation to what it holds now, and undoing takes no vehicle but the one last allocated. -/
structure ValidHistory (made : List Zone) (s : State) : Prop where
  names : ∀ action ∈ s.history, ∃ zone ∈ s.zones, zone.id = action.zoneId ∧
    ∃ slot ∈ zone.slots, slot.id = action.slotId
  switches : ∀ action ∈ s.history, action.Switches
  chain : ∀ p slot name, slotAt? s.zones p = some slot → nameAt? s.zones p = some name →
    ∃ slot₀, slotAt? made p = some slot₀ ∧ nameAt? made p = some name ∧
      Linked slot₀.vehicle ((s.history.filter (fun a => a.name = name)).map AllocationAction.change) slot.vehicle
  replay : (s.history.map AllocationAction.change).foldr Change.apply (occupant made) = occupant s.zones
  undo : ∀ name v, occupant s.zones name = some v → occupant s.undoLast.2.zones name ≠ some v →
    ∃ last rest, s.history = last :: rest ∧ last.type = .allocate ∧ last.name = name ∧
      last.vehicleAfter = some v

theorem Sound.names (hs : Sound uuid s) (haction : action ∈ s.history) :
    ∃ zone ∈ s.zones, zone.id = action.zoneId ∧ ∃ slot ∈ zone.slots, slot.id = action.slotId := by
  obtain ⟨p, hp⟩ := hs.named action haction
  obtain ⟨zone, slot, hzone, hslot, hname⟩ := nameAt?_eq_some_iff.mp hp
  obtain ⟨hzid, hsid⟩ := Prod.mk.inj hname
  exact ⟨zone, List.mem_of_getElem? hzone, hzid, slot, List.mem_of_getElem? hslot, hsid⟩

theorem Logs.chain (h : Logs made s) (hs : Sound uuid s) {slot : Slot} {name : Name}
    (hslot : slotAt? s.zones p = some slot) (hname : nameAt? s.zones p = some name) :
    ∃ slot₀, slotAt? made p = some slot₀ ∧ nameAt? made p = some name ∧
      Linked slot₀.vehicle ((s.history.filter (fun a => a.name = name)).map AllocationAction.change)
        slot.vehicle := by
  have hmade : nameAt? made p = some name := by
    rw [← nameAt?_layout, h.layout, nameAt?_layout]
    exact hname
  have hdistinct : Distinct made := by
    rw [← distinct_layout, h.layout, distinct_layout]
    exact hs.distinct
  obtain ⟨slot₀, hslot₀⟩ := exists_slotAt? hmade
  have hlinked := h.leads.linked name
  rw [hdistinct.occupant_eq hmade hslot₀, hs.distinct.occupant_eq hname hslot, List.filter_map] at hlinked
  exact ⟨slot₀, hslot₀, hmade, hlinked⟩

theorem Logs.undo (h : Logs made s) (hs : Sound uuid s) {name : Name} {v : Vehicle}
    (hv : occupant s.zones name = some v) (hgone : occupant s.undoLast.2.zones name ≠ some v) :
    ∃ last rest, s.history = last :: rest ∧ last.type = .allocate ∧ last.name = name ∧
      last.vehicleAfter = some v := by
  cases hhistory : s.history with
  | nil =>
    rw [State.undoLast_nil hhistory] at hgone
    exact absurd hv hgone
  | cons last rest =>
    obtain ⟨p, hname, hundo⟩ := State.undoLast_cons hs hhistory
    rw [hundo, hs.distinct.occupant_setVehicle hname] at hgone
    by_cases hn : name = (last.zoneId, last.slotId)
    · subst hn
      have hleads := h.leads
      rw [hhistory, List.map_cons] at hleads
      have hafter : last.vehicleAfter = some v := hleads.revert.2.symm.trans hv
      have hswitches := h.switches last (hhistory ▸ List.mem_cons_self)
      refine ⟨last, rest, rfl, ?_, rfl, hafter⟩
      cases htype : last.type with
      | allocate => rfl
      | deallocate =>
        simp only [AllocationAction.Switches, htype, hafter, reduceCtorEq, and_false] at hswitches
    · rw [Function.update_of_ne hn] at hgone
      exact absurd hv hgone

/-- In every reachable state the history is a valid log of the occupancy. -/
theorem history_valid (uuid : UuidSource) (ops : List State.Op) :
    ValidHistory (created (State.step uuid) State.new ops) (State.run uuid ops) := by
  have hs : Sound uuid (State.run uuid ops) := (sound_new uuid).run ops
  have h := logs_run uuid ops
  constructor
  · intro action haction
    exact hs.names haction
  · exact h.switches
  · intro p slot name hslot hname
    exact h.chain hs hslot hname
  · exact h.leads.replay_eq
  · intro name v hv hgone
    exact h.undo hs hv hgone

end SmartParking.Browser
