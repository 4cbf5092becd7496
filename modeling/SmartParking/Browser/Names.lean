import SmartParking.Browser.State

/-! # Names of slots

A slot is named by the ids of its zone and of itself. As long as no two zones, and no two
slots of a zone, share an id, a name resolves to the one slot that has it. Names depend
on the layout of the zones alone, which parking does not change.
-/
namespace SmartParking.Browser
open Foundation.FirstFit Foundation.ListUpdate

abbrev Name := String × String

def slotAt? (zones : List Zone) (p : SlotRef) : Option Slot := zones[p.zone]?.bind (fun z => z.slots[p.slot]?)

def nameAt? (zones : List Zone) (p : SlotRef) : Option Name :=
  zones[p.zone]?.bind (fun z => z.slots[p.slot]?.map (fun s => (z.id, s.id)))

def Slot.layout (slot : Slot) : Slot := slot.setVehicle none

/-- The zone with every slot empty. -/
def Zone.layout (zone : Zone) : Zone := { zone with slots := zone.slots.map Slot.layout }

/-- No two zones share an id, and no two slots of a zone. -/
structure Distinct (zones : List Zone) : Prop where
  zoneIds : (zones.map Zone.id).Nodup
  slotIds : ∀ zone ∈ zones, (zone.slots.map Slot.id).Nodup

/-- What the slot of a name holds. -/
def occupant (zones : List Zone) (name : Name) : Option Vehicle :=
  (findZone zones name.1).bind (fun q => (findSlot q.2 name.2).bind (fun r => r.2.vehicle))

/-- The slot that looking up a zone and a slot of it ends at. -/
def resolve (zones : List Zone) (name : Name) : Option SlotRef :=
  (findZone zones name.1).bind (fun q => (findSlot q.2 name.2).map (fun r => ⟨q.1, r.1⟩))

variable {zones new : List Zone} {p q : SlotRef} {slot : Slot} {name : Name}

theorem nameAt?_eq_some_iff :
    nameAt? zones p = some name ↔
      ∃ zone slot, zones[p.zone]? = some zone ∧ zone.slots[p.slot]? = some slot ∧ (zone.id, slot.id) = name := by
  simp only [nameAt?, Option.bind_eq_some_iff, Option.map_eq_some_iff]
  constructor
  · rintro ⟨zone, hzone, slot, hslot, hname⟩
    exact ⟨zone, slot, hzone, hslot, hname⟩
  · rintro ⟨zone, slot, hzone, hslot, hname⟩
    exact ⟨zone, hzone, slot, hslot, hname⟩

theorem exists_slotAt? (h : nameAt? zones p = some name) : ∃ slot, slotAt? zones p = some slot := by
  obtain ⟨zone, slot, hzone, hslot, -⟩ := nameAt?_eq_some_iff.mp h
  exact ⟨slot, by rw [slotAt?, hzone, Option.bind_some, hslot]⟩

theorem exists_nameAt? (h : slotAt? zones p = some slot) : ∃ name, nameAt? zones p = some name := by
  obtain ⟨zone, hzone, hslot⟩ := Option.bind_eq_some_iff.mp h
  exact ⟨(zone.id, slot.id), nameAt?_eq_some_iff.mpr ⟨zone, slot, hzone, hslot, rfl⟩⟩

/-- The loops `findZone` and `findSlot` make find the slot that has the name. -/
theorem Distinct.findZone_iff (h : Distinct zones) {i : ℕ} {zone : Zone} {id : String} :
    findZone zones id = some (i, zone) ↔ zones[i]? = some zone ∧ zone.id = id := findRef_key_iff h.zoneIds

theorem Distinct.findSlot_iff (h : Distinct zones) {i j : ℕ} {zone : Zone} (hzone : zones[i]? = some zone)
    {id : String} : findSlot zone id = some (j, slot) ↔ zone.slots[j]? = some slot ∧ slot.id = id :=
  findRef_key_iff (h.slotIds zone (List.mem_of_getElem? hzone))

theorem Distinct.nameAt?_inj (h : Distinct zones) (hp : nameAt? zones p = some name)
    (hq : nameAt? zones q = some name) : p = q := by
  obtain ⟨zone, slot, hzone, hslot, rfl⟩ := nameAt?_eq_some_iff.mp hp
  obtain ⟨zone', slot', hzone', hslot', heq⟩ := nameAt?_eq_some_iff.mp hq
  obtain ⟨hzid, hsid⟩ := Prod.mk.inj heq
  have hfound := h.findZone_iff.mpr ⟨hzone, rfl⟩
  rw [h.findZone_iff.mpr ⟨hzone', hzid⟩] at hfound
  obtain ⟨hi, rfl⟩ := Prod.mk.inj (Option.some.inj hfound)
  have hfound' := (h.findSlot_iff hzone).mpr ⟨hslot, rfl⟩
  rw [(h.findSlot_iff hzone).mpr ⟨hslot', hsid⟩] at hfound'
  obtain ⟨hj, -⟩ := Prod.mk.inj (Option.some.inj hfound')
  obtain ⟨pz, ps⟩ := p
  obtain ⟨qz, qs⟩ := q
  dsimp only at hi hj
  rw [hi, hj]

theorem Distinct.occupant_eq (h : Distinct zones) (hname : nameAt? zones p = some name)
    (hslot : slotAt? zones p = some slot) : occupant zones name = slot.vehicle := by
  obtain ⟨zone, slot', hzone, hslot', rfl⟩ := nameAt?_eq_some_iff.mp hname
  rw [slotAt?, hzone, Option.bind_some, hslot'] at hslot
  obtain rfl := Option.some.inj hslot
  rw [occupant, h.findZone_iff.mpr ⟨hzone, rfl⟩, Option.bind_some,
    (h.findSlot_iff hzone).mpr ⟨hslot', rfl⟩, Option.bind_some]

theorem Distinct.resolve_eq (h : Distinct zones) (hname : nameAt? zones p = some name) :
    resolve zones name = some p := by
  obtain ⟨zone, slot, hzone, hslot, rfl⟩ := nameAt?_eq_some_iff.mp hname
  rw [resolve, h.findZone_iff.mpr ⟨hzone, rfl⟩, Option.bind_some, (h.findSlot_iff hzone).mpr ⟨hslot, rfl⟩,
    Option.map_some]

/-- A name that no slot has holds nothing. -/
theorem occupant_unnamed (h : ∀ p, nameAt? zones p ≠ some name) : occupant zones name = none := by
  unfold occupant
  cases hz : findZone zones name.1 with
  | none => rfl
  | some found =>
    obtain ⟨i, zone⟩ := found
    obtain ⟨hzone, hzid⟩ := findRef_sound hz
    rw [Option.bind_some]
    cases hs : findSlot zone name.2 with
    | none => rfl
    | some found' =>
      obtain ⟨j, slot⟩ := found'
      obtain ⟨hslot, hsid⟩ := findRef_sound hs
      have hname : (zone.id, slot.id) = name := by
        rw [beq_iff_eq.mp hzid, beq_iff_eq.mp hsid]
      exact absurd (nameAt?_eq_some_iff.mpr ⟨zone, slot, hzone, hslot, hname⟩) (h ⟨i, j⟩)

theorem layout_setVehicle (zones : List Zone) (p : SlotRef) (vehicle : Option Vehicle) :
    (setVehicle zones p vehicle).map Zone.layout = zones.map Zone.layout := by
  have hslot : ∀ slot : Slot, (slot.setVehicle vehicle).layout = slot.layout := fun _ => rfl
  have hzone : ∀ zone : Zone,
      Zone.layout { zone with slots := setSlotVehicle zone.slots p.slot vehicle } = zone.layout := by
    intro zone
    rw [Zone.layout, setSlotVehicle, map_modify_of_eq hslot, Zone.layout]
  exact map_modify_of_eq hzone zones p.zone

theorem nameAt?_layout (zones : List Zone) (p : SlotRef) : nameAt? (zones.map Zone.layout) p = nameAt? zones p := by
  simp only [nameAt?, List.getElem?_map]
  cases zones[p.zone]? with
  | none => rfl
  | some zone =>
    simp only [Option.map_some, Option.bind_some, Zone.layout, List.getElem?_map, Option.map_map]
    rfl

theorem resolve_layout (zones : List Zone) (name : Name) :
    resolve (zones.map Zone.layout) name = resolve zones name := by
  have hzone : findZone (zones.map Zone.layout) name.1 =
      (findZone zones name.1).map (fun q => (q.1, q.2.layout)) := findRef_map (fun _ => rfl) zones
  have hslot : ∀ zone : Zone, findSlot zone.layout name.2 =
      (findSlot zone name.2).map (fun r => (r.1, r.2.layout)) := fun zone => findRef_map (fun _ => rfl) zone.slots
  rw [resolve, hzone, Option.bind_map, resolve]
  congr 1
  funext q
  rw [Function.comp_apply, hslot, Option.map_map]
  rfl

theorem map_id_layout (zones : List Zone) : (zones.map Zone.layout).map Zone.id = zones.map Zone.id := by
  rw [List.map_map]
  rfl

theorem distinct_layout (zones : List Zone) : Distinct (zones.map Zone.layout) ↔ Distinct zones := by
  have hids := map_id_layout zones
  have hslots : ∀ zone : Zone, zone.layout.slots.map Slot.id = zone.slots.map Slot.id := by
    intro zone
    rw [Zone.layout, List.map_map]
    rfl
  constructor
  · intro h
    exact ⟨hids ▸ h.zoneIds, fun zone hzone => hslots zone ▸ h.slotIds _ (List.mem_map_of_mem hzone)⟩
  · intro h
    refine ⟨hids ▸ h.zoneIds, ?_⟩
    intro zone' hzone'
    obtain ⟨zone, hzone, rfl⟩ := List.mem_map.mp hzone'
    exact hslots zone ▸ h.slotIds zone hzone

theorem nameAt?_setVehicle (zones : List Zone) (p q : SlotRef) (vehicle : Option Vehicle) :
    nameAt? (setVehicle zones p vehicle) q = nameAt? zones q := by
  rw [← nameAt?_layout, layout_setVehicle, nameAt?_layout]

theorem map_id_setVehicle (zones : List Zone) (p : SlotRef) (vehicle : Option Vehicle) :
    (setVehicle zones p vehicle).map Zone.id = zones.map Zone.id := by
  have hid : ∀ zone : Zone,
      Zone.id { zone with slots := setSlotVehicle zone.slots p.slot vehicle } = zone.id := fun _ => rfl
  exact map_modify_of_eq hid zones p.zone

theorem resolve_setVehicle (zones : List Zone) (p : SlotRef) (vehicle : Option Vehicle) (name : Name) :
    resolve (setVehicle zones p vehicle) name = resolve zones name := by
  rw [← resolve_layout, layout_setVehicle, resolve_layout]

theorem Distinct.setVehicle (h : Distinct zones) (p : SlotRef) (vehicle : Option Vehicle) :
    Distinct (setVehicle zones p vehicle) := by
  rw [← distinct_layout, layout_setVehicle, distinct_layout]
  exact h

theorem slotAt?_setVehicle (zones : List Zone) (p q : SlotRef) (vehicle : Option Vehicle) :
    slotAt? (Browser.setVehicle zones p vehicle) q =
      if p = q then (slotAt? zones q).map (·.setVehicle vehicle) else slotAt? zones q := by
  obtain ⟨pz, ps⟩ := p
  obtain ⟨qz, qs⟩ := q
  simp only [slotAt?, Browser.setVehicle, List.getElem?_modify]
  cases zones[qz]? with
  | none => simp
  | some zone =>
    by_cases hz : pz = qz
    · simp only [hz, Option.map_eq_map, Option.map_some, Option.bind_some, if_true, setSlotVehicle,
        List.getElem?_modify, SlotRef.mk.injEq, true_and]
      cases zone.slots[qs]? with
      | none => simp
      | some slot => by_cases hs : ps = qs <;> simp [hs]
    · simp [hz]

/-- Writing a vehicle changes what its name holds, and nothing else. -/
theorem Distinct.occupant_setVehicle (h : Distinct zones) (hname : nameAt? zones p = some name)
    (vehicle : Option Vehicle) :
    occupant (Browser.setVehicle zones p vehicle) = Function.update (occupant zones) name vehicle := by
  have h' := h.setVehicle p vehicle
  obtain ⟨slot, hslot⟩ := exists_slotAt? hname
  funext name'
  by_cases hn : name' = name
  · subst hn
    have hnow : slotAt? (Browser.setVehicle zones p vehicle) p = some (slot.setVehicle vehicle) := by
      rw [slotAt?_setVehicle, if_pos rfl, hslot, Option.map_some]
    rw [Function.update_self, h'.occupant_eq ((nameAt?_setVehicle zones p p vehicle).trans hname) hnow]
    rfl
  · rw [Function.update_of_ne hn]
    by_cases hex : ∃ q, nameAt? zones q = some name'
    · obtain ⟨q, hq⟩ := hex
      obtain ⟨slot', hslot'⟩ := exists_slotAt? hq
      have hpq : p ≠ q := by
        rintro rfl
        exact hn (Option.some.inj (hq.symm.trans hname))
      have hnow : slotAt? (Browser.setVehicle zones p vehicle) q = some slot' := by
        rw [slotAt?_setVehicle, if_neg hpq, hslot']
      rw [h'.occupant_eq ((nameAt?_setVehicle zones p q vehicle).trans hq) hnow, h.occupant_eq hq hslot']
    · have hnone : ∀ q, nameAt? zones q ≠ some name' := fun q hq => hex ⟨q, hq⟩
      rw [occupant_unnamed hnone, occupant_unnamed]
      intro q
      rw [nameAt?_setVehicle]
      exact hnone q

theorem zone_lt_of_nameAt? (h : nameAt? zones p = some name) : p.zone < zones.length := by
  obtain ⟨zone, slot, hzone, -, -⟩ := nameAt?_eq_some_iff.mp h
  exact (List.getElem?_eq_some_iff.mp hzone).1

theorem nameAt?_append_left (h : p.zone < zones.length) (new : List Zone) :
    nameAt? (zones ++ new) p = nameAt? zones p := by
  simp only [nameAt?, List.getElem?_append_left h]

theorem slotAt?_append_left (h : p.zone < zones.length) (new : List Zone) :
    slotAt? (zones ++ new) p = slotAt? zones p := by
  simp only [slotAt?, List.getElem?_append_left h]

theorem slotAt?_append_right (h : zones.length ≤ p.zone) (new : List Zone) :
    slotAt? (zones ++ new) p = slotAt? new ⟨p.zone - zones.length, p.slot⟩ := by
  simp only [slotAt?, List.getElem?_append_right h]

theorem setVehicle_append (h : p.zone < zones.length) (new : List Zone) (vehicle : Option Vehicle) :
    setVehicle (zones ++ new) p vehicle = setVehicle zones p vehicle ++ new := modify_append_left h new

theorem resolve_append_left (h : resolve zones name = some p) (new : List Zone) :
    resolve (zones ++ new) name = some p ∧ p.zone < zones.length := by
  obtain ⟨q, hzone, hslot⟩ := Option.bind_eq_some_iff.mp h
  obtain ⟨r, hr, rfl⟩ := Option.map_eq_some_iff.mp hslot
  constructor
  · have hzone' : findZone (zones ++ new) name.1 = some q := firstSome_append_left hzone new
    rw [resolve, hzone', Option.bind_some, hr, Option.map_some]
  · exact (List.getElem?_eq_some_iff.mp (findRef_sound hzone).1).1

@[simp] theorem length_setVehicle (zones : List Zone) (p : SlotRef) (vehicle : Option Vehicle) :
    (setVehicle zones p vehicle).length = zones.length := List.length_modify ..

theorem setVehicle_setVehicle (zones : List Zone) (p : SlotRef) (v w : Option Vehicle) :
    setVehicle (setVehicle zones p v) p w = setVehicle zones p w := by
  unfold setVehicle
  rw [List.modify_modify_eq]
  congr 1
  funext zone
  simp only [Function.comp_apply, setSlotVehicle, List.modify_modify_eq]
  rfl

/-- Writing back the vehicle a slot has changes nothing. -/
theorem setVehicle_self (h : slotAt? zones p = some slot) : setVehicle zones p slot.vehicle = zones := by
  obtain ⟨zone, hzone, hslot⟩ := Option.bind_eq_some_iff.mp h
  have hslots : setSlotVehicle zone.slots p.slot slot.vehicle = zone.slots := modify_fixed hslot rfl
  have hfixed : { zone with slots := setSlotVehicle zone.slots p.slot slot.vehicle } = zone := by rw [hslots]
  exact modify_fixed hzone hfixed

/-- The old zones hide the new ones from names that begin with an old zone's id. -/
theorem occupant_append (zones new : List Zone) (name : Name) :
    occupant (zones ++ new) name =
      if name.1 ∈ zones.map Zone.id then occupant zones name else occupant new name := by
  unfold occupant findZone
  by_cases hid : name.1 ∈ zones.map Zone.id
  · rw [if_pos hid]
    cases hfind : findRef (fun z => z.id == name.1) zones with
    | none =>
      obtain ⟨zone, hzone, heq⟩ := List.mem_map.mp hid
      have hne := findRef_eq_none_iff.mp hfind zone hzone
      simp [heq] at hne
    | some found => rw [findRef, firstSome_append_left hfind]
  · rw [if_neg hid]
    have hnone : findRef (fun z => z.id == name.1) zones = none := by
      apply findRef_eq_none_iff.mpr
      intro zone hzone
      rw [beq_eq_false_iff_ne]
      intro heq
      exact hid (List.mem_map.mpr ⟨zone, hzone, heq⟩)
    rw [findRef, firstSome_append_right hnone, Option.bind_map]
    rfl

end SmartParking.Browser
