import SmartParking.Browser.Effects

/-! # When the operations of the browser succeed, and what they change

The two operations that move vehicles, in every state that calls lead to. The slots of a
zone are numbered in their order, so the first free slot is the one with the lowest number.
-/
namespace SmartParking.Browser
open Foundation Foundation.FirstFit Foundation.ListUpdate

/-- The numbers of the slots of each zone increase. -/
def Numbered (zones : List Zone) : Prop := ∀ zone ∈ zones, (zone.slots.map Slot.number).Pairwise (· < ·)

/-- Why `allocateVehicle` answers `null`. -/
def AllocationRefused (s : State) (zoneId : String) (preferredSlotId : Option String) : Prop :=
  (∀ zone ∈ s.zones, zone.id ≠ zoneId) ∨
    ∃ zone ∈ s.zones, zone.id = zoneId ∧
      ((∃ slotId, preferredSlotId = some slotId ∧ slotId ≠ "" ∧
          ((∀ slot ∈ zone.slots, slot.id ≠ slotId) ∨
            ∃ slot ∈ zone.slots, slot.id = slotId ∧ slot.vehicle ≠ none)) ∨
        ((preferredSlotId = none ∨ preferredSlotId = some "") ∧ ∀ slot ∈ zone.slots, slot.vehicle ≠ none))

/-- Why `deallocateVehicle` answers `false`. -/
def DeallocationRefused (s : State) (zoneId slotId : String) : Prop :=
  (∀ zone ∈ s.zones, zone.id ≠ zoneId) ∨
    ∃ zone ∈ s.zones, zone.id = zoneId ∧
      ((∀ slot ∈ zone.slots, slot.id ≠ slotId) ∨ ∃ slot ∈ zone.slots, slot.id = slotId ∧ slot.vehicle = none)

/-- The slot at `p` now holds `vehicle`, one entry was appended, and nothing else changed. -/
structure ChangesSlot (s s' : State) (p : SlotRef) (slot : Slot) (vehicle : Option Vehicle)
    (action : AllocationAction) : Prop where
  before : slotAt? s.zones p = some slot
  after : slotAt? s'.zones p = some (slot.setVehicle vehicle)
  only : ∀ q, slotAt? s'.zones q ≠ slotAt? s.zones q ↔ q = p
  layout : s'.zones.map Zone.layout = s.zones.map Zone.layout
  history : s'.history = action :: s.history
  activeZoneId : s'.activeZoneId = s.activeZoneId

/-- A new vehicle went into an empty slot of the zone: the preferred one, or else the free
one with the lowest number. -/
structure Allocates (uuid : UuidSource) (s s' : State) (zoneId ownerName plate : String)
    (preferredSlotId : Option String) (allocation : State.Allocation) (p : SlotRef) (zone : Zone) (slot : Slot) :
    Prop where
  found : s.zones[p.zone]? = some zone ∧ zone.id = zoneId
  empty : slot.vehicle = none
  answer : allocation = ⟨zoneId, slot.id, ⟨uuid.value s.issued, ownerName, plate⟩⟩
  changes : ChangesSlot s s' p slot (some allocation.vehicle)
    ⟨.allocate, zoneId, slot.id, none, some allocation.vehicle⟩
  preferred : ∀ slotId, preferredSlotId = some slotId → slotId ≠ "" → slot.id = slotId
  lowest : preferredSlotId = none ∨ preferredSlotId = some "" →
    ∀ free ∈ zone.slots, free.vehicle = none → free = slot ∨ slot.number < free.number

/-- The vehicle left the slot named. -/
structure Deallocates (s s' : State) (zoneId slotId : String) (p : SlotRef) (zone : Zone) (slot : Slot)
    (vehicle : Vehicle) : Prop where
  found : s.zones[p.zone]? = some zone ∧ zone.id = zoneId
  named : slot.id = slotId
  occupied : slot.vehicle = some vehicle
  changes : ChangesSlot s s' p slot none ⟨.deallocate, zoneId, slotId, some vehicle, none⟩

/-- Both operations fail exactly for the reasons above and then change nothing; otherwise they
change one slot. -/
structure ExactOperations (uuid : UuidSource) (s : State) : Prop where
  allocate_none : ∀ zoneId ownerName plate preferredSlotId,
    (s.allocateVehicle uuid zoneId ownerName plate preferredSlotId).1 = none ↔
      AllocationRefused s zoneId preferredSlotId
  allocate_unchanged : ∀ zoneId ownerName plate preferredSlotId,
    (s.allocateVehicle uuid zoneId ownerName plate preferredSlotId).1 = none →
      (s.allocateVehicle uuid zoneId ownerName plate preferredSlotId).2 = s
  allocate_some : ∀ zoneId ownerName plate preferredSlotId allocation,
    (s.allocateVehicle uuid zoneId ownerName plate preferredSlotId).1 = some allocation →
      ∃ p zone slot, Allocates uuid s (s.allocateVehicle uuid zoneId ownerName plate preferredSlotId).2
        zoneId ownerName plate preferredSlotId allocation p zone slot
  deallocate_false : ∀ zoneId slotId,
    (s.deallocateVehicle zoneId slotId).1 = false ↔ DeallocationRefused s zoneId slotId
  deallocate_unchanged : ∀ zoneId slotId,
    (s.deallocateVehicle zoneId slotId).1 = false → (s.deallocateVehicle zoneId slotId).2 = s
  deallocate_true : ∀ zoneId slotId, (s.deallocateVehicle zoneId slotId).1 = true →
    ∃ p zone slot vehicle, Deallocates s (s.deallocateVehicle zoneId slotId).2 zoneId slotId p zone slot vehicle

variable {uuid : UuidSource} {s : State} {zones : List Zone} {zone : Zone} {slot : Slot} {p : SlotRef}

theorem pairwise_number_buildSlots (issued : ℕ) (count : ℤ) :
    ((buildSlots uuid issued count).map Slot.number).Pairwise (· < ·) := by
  have hnumbers : (buildSlots uuid issued count).map Slot.number = (List.range count.toNat).map (· + 1) := by
    rw [buildSlots, List.map_map]
    rfl
  rw [hnumbers]
  exact List.pairwise_lt_range.map _ (fun _ _ h => Nat.succ_lt_succ h)

theorem map_number_setSlotVehicle (slots : List Slot) (i : ℕ) (vehicle : Option Vehicle) :
    (setSlotVehicle slots i vehicle).map Slot.number = slots.map Slot.number := by
  have hnumber : ∀ slot : Slot, (slot.setVehicle vehicle).number = slot.number := fun _ => rfl
  exact map_modify_of_eq hnumber slots i

theorem numbered_demoZones (n : ℕ) : Numbered (demoZones uuid n) := by
  intro zone hzone
  rcases List.mem_pair.mp hzone with rfl | rfl
  · simp only [map_number_setSlotVehicle, pairwise_number_buildSlots]
  · simp only [map_number_setSlotVehicle, pairwise_number_buildSlots]

theorem Numbered.setVehicle (h : Numbered zones) (p : SlotRef) (vehicle : Option Vehicle) :
    Numbered (setVehicle zones p vehicle) := by
  have hnumbers : (Browser.setVehicle zones p vehicle).map (fun zone => zone.slots.map Slot.number) =
      zones.map (fun zone => zone.slots.map Slot.number) :=
    map_modify_of_eq (fun zone => map_number_setSlotVehicle zone.slots p.slot vehicle) zones p.zone
  intro zone hzone
  have hmem : zone.slots.map Slot.number ∈ zones.map (fun zone => zone.slots.map Slot.number) := by
    rw [← hnumbers]
    exact List.mem_map_of_mem hzone
  obtain ⟨zone', hzone', heq⟩ := List.mem_map.mp hmem
  rw [← heq]
  exact h zone' hzone'

theorem Numbered.step (hs : Sound uuid s) (h : Numbered s.zones) (op : State.Op) :
    Numbered (s.step uuid op).zones := by
  cases op with
  | call c =>
    rw [State.step]
    cases c with
    | bootstrapDemoData =>
      by_cases hempty : s.zones = []
      · rw [State.call, State.bootstrapDemoData_of_empty uuid hempty]
        exact numbered_demoZones s.issued
      · rw [State.call, State.bootstrapDemoData, if_pos (List.length_pos_iff.mpr hempty)]
        exact h
    | addZone name slotCount =>
      intro zone hzone
      rcases List.mem_append.mp hzone with hzone | hzone
      · exact h zone hzone
      · rw [List.mem_singleton.mp hzone]
        exact pairwise_number_buildSlots (s.issued + 1) slotCount
    | setActiveZone id => exact h
    | allocateVehicle zoneId ownerName plate preferredSlotId =>
      rw [State.call]
      rcases State.allocateVehicle_cases uuid s zoneId ownerName plate preferredSlotId with
        heq | ⟨p, action, allocation, hwrites, -⟩
      · rw [heq]
        exact h
      · rw [hwrites.zones]
        exact h.setVehicle p _
    | deallocateVehicle zoneId slotId =>
      rw [State.call]
      rcases State.deallocateVehicle_cases uuid s zoneId slotId with heq | ⟨p, action, hwrites, -⟩
      · rw [heq]
        exact h
      · rw [hwrites.zones]
        exact h.setVehicle p _
  | undoLast =>
    rw [State.step]
    rcases undo_cases hs with heq | ⟨p, last, hundoes, -⟩
    · rw [heq]
      exact h
    · rw [hundoes.zones]
      exact h.setVehicle p _

theorem sound_numbered_run (uuid : UuidSource) (ops : List State.Op) :
    Sound uuid (State.run uuid ops) ∧ Numbered (State.run uuid ops).zones := by
  have hstep : ∀ s op, True → Sound uuid s ∧ Numbered s.zones →
      Sound uuid (State.step uuid s op) ∧ Numbered (State.step uuid s op).zones :=
    fun _ op _ h => ⟨h.1.step op, h.2.step h.1 op⟩
  have hnew : Numbered State.new.zones := fun _ h => absurd h List.not_mem_nil
  exact Runs.run_invariant (State.step uuid) hstep (fun _ _ => trivial) ⟨sound_new uuid, hnew⟩

theorem truthy_eq_some_iff {preferredSlotId : Option String} {slotId : String} :
    truthy preferredSlotId = some slotId ↔ preferredSlotId = some slotId ∧ slotId ≠ "" := by
  rw [truthy, Option.filter_eq_some_iff, bne_iff_ne]

theorem truthy_eq_none_iff {preferredSlotId : Option String} :
    truthy preferredSlotId = none ↔ preferredSlotId = none ∨ preferredSlotId = some "" := by
  cases preferredSlotId with
  | none => simp [truthy]
  | some slotId => simp [truthy]

/-- The search for a free slot fails when every slot is occupied. -/
theorem firstFree_refused_iff (slots : List Slot) :
    (∀ j slot, findRef (fun s => s.vehicle.isNone) slots = some (j, slot) → slot.vehicle ≠ none) ↔
      ∀ slot ∈ slots, slot.vehicle ≠ none := by
  constructor
  · intro hrefused slot hslot hempty
    cases hfind : findRef (fun s : Slot => s.vehicle.isNone) slots with
    | none => simpa [hempty] using findRef_eq_none_iff.mp hfind slot hslot
    | some found =>
      obtain ⟨j, free⟩ := found
      exact hrefused j free hfind (by simpa using (findRef_sound hfind).2)
  · intro hoccupied j slot hfind
    exact hoccupied slot (List.mem_of_getElem? (findRef_sound hfind).1)

/-- Where no two slots share an id: why the slot aimed at is missing or occupied. -/
theorem targetSlot_refused_iff (h : (zone.slots.map Slot.id).Nodup) {preferredSlotId : Option String} :
    (∀ j slot, State.targetSlot zone preferredSlotId = some (j, slot) → slot.vehicle ≠ none) ↔
      (∃ slotId, preferredSlotId = some slotId ∧ slotId ≠ "" ∧
          ((∀ slot ∈ zone.slots, slot.id ≠ slotId) ∨
            ∃ slot ∈ zone.slots, slot.id = slotId ∧ slot.vehicle ≠ none)) ∨
        ((preferredSlotId = none ∨ preferredSlotId = some "") ∧ ∀ slot ∈ zone.slots, slot.vehicle ≠ none) := by
  rw [← truthy_eq_none_iff, State.targetSlot]
  cases htruthy : truthy preferredSlotId with
  | some slotId =>
    obtain ⟨hsome, hne⟩ := truthy_eq_some_iff.mp htruthy
    have hslot := absent_or_iff h slotId (fun slot => slot.vehicle ≠ none)
    constructor
    · intro hrefused
      exact Or.inl ⟨slotId, hsome, hne, hslot.mpr hrefused⟩
    · rintro (⟨slotId', hsome', -, hrefused⟩ | ⟨hnone, -⟩)
      · obtain rfl : slotId = slotId' := Option.some.inj (hsome.symm.trans hsome')
        exact hslot.mp hrefused
      · cases hnone
  | none =>
    have hfree := firstFree_refused_iff zone.slots
    constructor
    · intro hrefused
      exact Or.inr ⟨rfl, hfree.mp hrefused⟩
    · rintro (⟨slotId, hsome, hne, -⟩ | ⟨-, hoccupied⟩)
      · rw [truthy_eq_some_iff.mpr ⟨hsome, hne⟩] at htruthy
        cases htruthy
      · exact hfree.mpr hoccupied

/-- A slot that has the lowest position among the free ones has the lowest number. -/
theorem lowest_of_findRef (h : (zone.slots.map Slot.number).Pairwise (· < ·)) {j : ℕ}
    (hfind : findRef (fun s => s.vehicle.isNone) zone.slots = some (j, slot)) :
    ∀ free ∈ zone.slots, free.vehicle = none → free = slot ∨ slot.number < free.number := by
  intro free hfree hnone
  obtain ⟨i, hi⟩ := List.mem_iff_getElem?.mp hfree
  have hj := (findRef_sound hfind).1
  have hle : j ≤ i := findRef_first hfind hi (by simp [hnone])
  rcases Nat.eq_or_lt_of_le hle with rfl | hlt
  · exact Or.inl (Option.some.inj (hi.symm.trans hj))
  · right
    obtain ⟨hilt, rfl⟩ := List.getElem?_eq_some_iff.mp hi
    obtain ⟨hjlt, rfl⟩ := List.getElem?_eq_some_iff.mp hj
    have hlt' := List.pairwise_iff_getElem.mp h j i (by simpa using hjlt) (by simpa using hilt) hlt
    simpa using hlt'

theorem changesSlot_setVehicle {s' : State} {vehicle : Option Vehicle} {action : AllocationAction}
    (hslot : slotAt? s.zones p = some slot) (hne : slot.vehicle ≠ vehicle)
    (hzones : s'.zones = setVehicle s.zones p vehicle) (hhistory : s'.history = action :: s.history)
    (hactive : s'.activeZoneId = s.activeZoneId) : ChangesSlot s s' p slot vehicle action where
  before := hslot
  after := by rw [hzones, slotAt?_setVehicle, if_pos rfl, hslot, Option.map_some]
  only := by
    intro q
    rw [hzones, slotAt?_setVehicle]
    by_cases hq : p = q
    · have hwritten : slot.setVehicle vehicle ≠ slot := fun heq => hne (congrArg Slot.vehicle heq).symm
      rw [if_pos hq, ← hq, hslot, Option.map_some]
      simp [hwritten]
    · simp [hq, eq_comm]
  layout := by rw [hzones, layout_setVehicle]
  history := hhistory
  activeZoneId := hactive

theorem allocateVehicle_allocates (hs : Numbered s.zones) {zoneId ownerName plate : String}
    {preferredSlotId : Option String} {i j : ℕ} (hzone : findZone s.zones zoneId = some (i, zone))
    (htarget : State.targetSlot zone preferredSlotId = some (j, slot)) (hempty : slot.vehicle = none) :
    Allocates uuid s
      { s with
        zones := setVehicle s.zones ⟨i, j⟩ (some ⟨uuid.value s.issued, ownerName, plate⟩)
        history := ⟨.allocate, zoneId, slot.id, none, some ⟨uuid.value s.issued, ownerName, plate⟩⟩ :: s.history
        issued := s.issued + 1 }
      zoneId ownerName plate preferredSlotId ⟨zoneId, slot.id, ⟨uuid.value s.issued, ownerName, plate⟩⟩ ⟨i, j⟩ zone
      slot := by
  obtain ⟨hget, hid⟩ := findRef_sound hzone
  have hslot : slotAt? s.zones ⟨i, j⟩ = some slot := (nameAt?_of_found hzone (State.targetSlot_sound htarget)).2
  have hne : slot.vehicle ≠ some ⟨uuid.value s.issued, ownerName, plate⟩ := by
    rw [hempty]
    exact (Option.some_ne_none _).symm
  unfold State.targetSlot at htarget
  constructor
  · exact ⟨hget, beq_iff_eq.mp hid⟩
  · exact hempty
  · rfl
  · exact changesSlot_setVehicle hslot hne rfl rfl rfl
  · intro slotId hsome hnonempty
    rw [truthy_eq_some_iff.mpr ⟨hsome, hnonempty⟩] at htarget
    exact beq_iff_eq.mp (findRef_sound htarget).2
  · intro habsent
    rw [truthy_eq_none_iff.mpr habsent] at htarget
    exact lowest_of_findRef (hs zone (List.mem_of_getElem? hget)) htarget

theorem deallocateVehicle_deallocates {zoneId slotId : String} {i j : ℕ} {v : Vehicle}
    (hzone : findZone s.zones zoneId = some (i, zone)) (hfind : findSlot zone slotId = some (j, slot))
    (hv : slot.vehicle = some v) :
    Deallocates s
      { s with
        zones := setVehicle s.zones ⟨i, j⟩ none
        history := ⟨.deallocate, zoneId, slotId, some v, none⟩ :: s.history }
      zoneId slotId ⟨i, j⟩ zone slot v := by
  obtain ⟨hget, hid⟩ := findRef_sound hzone
  obtain ⟨hgets, hids⟩ := findRef_sound hfind
  have hslot : slotAt? s.zones ⟨i, j⟩ = some slot := (nameAt?_of_found hzone hgets).2
  have hne : slot.vehicle ≠ none := by
    rw [hv]
    exact Option.some_ne_none v
  exact ⟨⟨hget, beq_iff_eq.mp hid⟩, beq_iff_eq.mp hids, hv, changesSlot_setVehicle hslot hne rfl rfl rfl⟩

theorem allocationRefused_iff (h : Distinct s.zones) {zoneId : String} {preferredSlotId : Option String} :
    AllocationRefused s zoneId preferredSlotId ↔
      ∀ i zone, findZone s.zones zoneId = some (i, zone) →
        ∀ j slot, State.targetSlot zone preferredSlotId = some (j, slot) → slot.vehicle ≠ none := by
  rw [AllocationRefused, absent_or_iff h.zoneIds]
  refine forall_congr' fun i => forall_congr' fun zone => forall_congr' fun hzone => ?_
  have hmem : zone ∈ s.zones := List.mem_of_getElem? (findRef_sound hzone).1
  exact (targetSlot_refused_iff (h.slotIds zone hmem)).symm

theorem deallocationRefused_iff (h : Distinct s.zones) {zoneId slotId : String} :
    DeallocationRefused s zoneId slotId ↔
      ∀ i zone, findZone s.zones zoneId = some (i, zone) →
        ∀ j slot, findSlot zone slotId = some (j, slot) → slot.vehicle = none := by
  rw [DeallocationRefused, absent_or_iff h.zoneIds]
  refine forall_congr' fun i => forall_congr' fun zone => forall_congr' fun hzone => ?_
  have hmem : zone ∈ s.zones := List.mem_of_getElem? (findRef_sound hzone).1
  exact absent_or_iff (h.slotIds zone hmem) slotId (fun slot => slot.vehicle = none)

theorem exactOperations (hs : Sound uuid s) (hn : Numbered s.zones) : ExactOperations uuid s where
  allocate_none := by
    intro zoneId ownerName plate preferredSlotId
    rw [allocationRefused_iff hs.distinct]
    rcases State.allocateVehicle_inv uuid s zoneId ownerName plate preferredSlotId with
      ⟨hrefused, heq⟩ | ⟨i, zone, j, slot, hzone, htarget, hempty, heq⟩
    · rw [heq]
      exact iff_of_true rfl hrefused
    · rw [heq]
      exact iff_of_false (Option.some_ne_none _) (fun hrefused => hrefused i zone hzone j slot htarget hempty)
  allocate_unchanged := by
    intro zoneId ownerName plate preferredSlotId hnone
    rcases State.allocateVehicle_inv uuid s zoneId ownerName plate preferredSlotId with
      ⟨-, heq⟩ | ⟨i, zone, j, slot, -, -, -, heq⟩
    · rw [heq]
    · rw [heq] at hnone
      cases hnone
  allocate_some := by
    intro zoneId ownerName plate preferredSlotId allocation hsome
    rcases State.allocateVehicle_inv uuid s zoneId ownerName plate preferredSlotId with
      ⟨-, heq⟩ | ⟨i, zone, j, slot, hzone, htarget, hempty, heq⟩
    · rw [heq] at hsome
      cases hsome
    · rw [heq] at hsome ⊢
      obtain rfl := Option.some.inj hsome
      exact ⟨_, zone, slot, allocateVehicle_allocates hn hzone htarget hempty⟩
  deallocate_false := by
    intro zoneId slotId
    rw [deallocationRefused_iff hs.distinct]
    rcases State.deallocateVehicle_inv s zoneId slotId with
      ⟨hrefused, heq⟩ | ⟨i, zone, j, slot, v, hzone, hfind, hv, heq⟩
    · rw [heq]
      exact iff_of_true rfl hrefused
    · have hoccupied : slot.vehicle ≠ none := by
        rw [hv]
        exact Option.some_ne_none v
      rw [heq]
      exact iff_of_false Bool.true_eq_false.mp (fun hrefused => hoccupied (hrefused i zone hzone j slot hfind))
  deallocate_unchanged := by
    intro zoneId slotId hfalse
    rcases State.deallocateVehicle_inv s zoneId slotId with ⟨-, heq⟩ | ⟨i, zone, j, slot, v, -, -, -, heq⟩
    · rw [heq]
    · rw [heq] at hfalse
      cases hfalse
  deallocate_true := by
    intro zoneId slotId htrue
    rcases State.deallocateVehicle_inv s zoneId slotId with ⟨-, heq⟩ | ⟨i, zone, j, slot, v, hzone, hfind, hv, heq⟩
    · rw [heq] at htrue
      cases htrue
    · rw [heq]
      exact ⟨_, zone, slot, v, deallocateVehicle_deallocates hzone hfind hv⟩

/-- In every state that calls lead to, the operations fail for the reasons named, and otherwise
change the one slot they should. -/
theorem operations_exact (uuid : UuidSource) (ops : List State.Op) : ExactOperations uuid (State.run uuid ops) := by
  obtain ⟨hs, hn⟩ := sound_numbered_run uuid ops
  exact exactOperations hs hn

end SmartParking.Browser
