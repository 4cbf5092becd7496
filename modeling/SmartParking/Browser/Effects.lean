import Mathlib.Data.List.Nodup
import SmartParking.Browser.Names

/-! # What a step of the browser state can do

A call appends zones whose ids are new, or writes one slot and pushes an entry that names
it; an undo writes back what the latest entry saved. Every id comes from `uuid`, so the
names stay distinct and every entry keeps naming a slot.
-/
namespace SmartParking.Browser
open Foundation Foundation.FirstFit Foundation.ListUpdate

variable (uuid : UuidSource)

/-- The value came out of the calls of `uuid` from number `a` up to number `b`. -/
def IssuedBetween (a b : ℕ) (id : String) : Prop := ∃ k, a ≤ k ∧ k < b ∧ id = uuid.value k

def occupantAt (zones : List Zone) (p : SlotRef) : Option Vehicle := (slotAt? zones p).bind Slot.vehicle

/-- Zones built while the numbers from `a` up to `b` were given out. -/
structure Minted (a b : ℕ) (new : List Zone) : Prop where
  le : a ≤ b
  distinct : Distinct new
  zoneIds : ∀ zone ∈ new, IssuedBetween uuid a b zone.id
  vehicleIds : ∀ p v, occupantAt new p = some v → IssuedBetween uuid a b v.id
  vehicleInj : ∀ p q v w, occupantAt new p = some v → occupantAt new q = some w → v.id = w.id → p = q

/-- The zones grew by `new`. -/
structure Grows (s s' : State) (new : List Zone) : Prop where
  zones : s'.zones = s.zones ++ new
  history : s'.history = s.history
  minted : Minted uuid s.issued s'.issued new

/-- An entry goes from no vehicle to a new one, or from a vehicle to none. -/
def Fits (issued issued' : ℕ) (action : AllocationAction) : Prop :=
  match action.type with
  | .allocate => action.vehicleBefore = none ∧ issued' = issued + 1 ∧
      ∃ v, action.vehicleAfter = some v ∧ v.id = uuid.value issued
  | .deallocate => (∃ v, action.vehicleBefore = some v) ∧ action.vehicleAfter = none ∧ issued' = issued

/-- The slot at `p` was written and the write recorded. -/
structure Writes (s s' : State) (p : SlotRef) (action : AllocationAction) : Prop where
  name : nameAt? s.zones p = some (action.zoneId, action.slotId)
  before : ∃ slot, slotAt? s.zones p = some slot ∧ action.vehicleBefore = slot.vehicle
  zones : s'.zones = setVehicle s.zones p action.vehicleAfter
  history : s'.history = action :: s.history
  fits : Fits uuid s.issued s'.issued action

/-- The latest entry was taken back. -/
structure Undoes (s s' : State) (p : SlotRef) (last : AllocationAction) : Prop where
  history : s.history = last :: s'.history
  name : nameAt? s.zones p = some (last.zoneId, last.slotId)
  zones : s'.zones = setVehicle s.zones p last.vehicleBefore
  issued : s'.issued = s.issued

/-- The ids of the zones are distinct and were given out, and every entry names a slot. -/
structure Sound (s : State) : Prop where
  distinct : Distinct s.zones
  zoneIds : ∀ id ∈ s.zones.map Zone.id, IssuedBetween uuid 0 s.issued id
  named : ∀ action ∈ s.history, ∃ p, nameAt? s.zones p = some (action.zoneId, action.slotId)

theorem sound_new : Sound uuid State.new where
  distinct := ⟨List.nodup_nil, fun _ h => absurd h List.not_mem_nil⟩
  zoneIds _ h := absurd h List.not_mem_nil
  named _ h := absurd h List.not_mem_nil

variable {uuid} {s s' : State} {new : List Zone} {p : SlotRef} {action : AllocationAction}

theorem IssuedBetween.mono {a b a' b' : ℕ} {id : String} (h : IssuedBetween uuid a b id) (ha : a' ≤ a)
    (hb : b ≤ b') : IssuedBetween uuid a' b' id := by
  obtain ⟨k, hak, hkb, rfl⟩ := h
  exact ⟨k, by omega, by omega, rfl⟩

/-- Ids given out before and after a moment differ. -/
theorem IssuedBetween.ne {a b c : ℕ} {id id' : String} (h : IssuedBetween uuid a b id)
    (h' : IssuedBetween uuid b c id') : id ≠ id' := by
  obtain ⟨k, -, hkb, rfl⟩ := h
  obtain ⟨k', hbk', -, rfl⟩ := h'
  intro heq
  have := uuid.distinct heq
  omega

theorem map_id_buildSlots (issued : ℕ) (count : ℤ) :
    (buildSlots uuid issued count).map Slot.id =
      (List.range count.toNat).map (fun i => uuid.value (issued + i)) := by
  rw [buildSlots, List.map_map]
  rfl

theorem nodup_buildSlots (issued : ℕ) (count : ℤ) :
    ((buildSlots uuid issued count).map Slot.id).Nodup := by
  rw [map_id_buildSlots]
  apply List.nodup_range.map
  intro i j h
  have := uuid.distinct h
  omega

theorem map_id_setSlotVehicle (slots : List Slot) (i : ℕ) (vehicle : Option Vehicle) :
    (setSlotVehicle slots i vehicle).map Slot.id = slots.map Slot.id := by
  have hid : ∀ slot : Slot, (slot.setVehicle vehicle).id = slot.id := fun _ => rfl
  exact map_modify_of_eq hid slots i

/-- What the slots of one zone hold. -/
def vehicleAt (slots : List Slot) (j : ℕ) : Option Vehicle := slots[j]?.bind Slot.vehicle

theorem vehicleAt_buildSlots (issued : ℕ) (count : ℤ) (j : ℕ) :
    vehicleAt (buildSlots uuid issued count) j = none := by
  rw [vehicleAt, buildSlots, List.getElem?_map]
  cases (List.range count.toNat)[j]? <;> rfl

theorem vehicleAt_setSlotVehicle {slots : List Slot} {i j : ℕ} {vehicle : Option Vehicle} {v : Vehicle}
    (h : vehicleAt (setSlotVehicle slots i vehicle) j = some v) :
    i = j ∧ vehicle = some v ∨ vehicleAt slots j = some v := by
  rw [vehicleAt, setSlotVehicle, List.getElem?_modify] at h
  cases hj : slots[j]? with
  | none => simp [hj] at h
  | some slot =>
    by_cases hij : i = j
    · simp only [hj, hij, Option.map_eq_map, Option.map_some, Option.bind_some, if_true, Slot.setVehicle] at h
      exact Or.inl ⟨hij, h⟩
    · simp only [hj, hij, Option.map_eq_map, Option.map_some, Option.bind_some, if_false] at h
      exact Or.inr (by simpa only [vehicleAt, hj, Option.bind_some] using h)

theorem occupantAt_eq_vehicleAt {zones : List Zone} {p : SlotRef} {v : Vehicle}
    (h : occupantAt zones p = some v) :
    ∃ zone, zones[p.zone]? = some zone ∧ vehicleAt zone.slots p.slot = some v := by
  rw [occupantAt, slotAt?, Option.bind_assoc] at h
  exact Option.bind_eq_some_iff.mp h

theorem minted_addZone (issued : ℕ) (name : String) (slotCount : ℤ) :
    Minted uuid issued (issued + 1 + slotCount.toNat)
      [⟨uuid.value issued, name, buildSlots uuid (issued + 1) slotCount⟩] := by
  have hempty : ∀ p v, occupantAt
      [(⟨uuid.value issued, name, buildSlots uuid (issued + 1) slotCount⟩ : Zone)] p ≠ some v := by
    intro p v h
    obtain ⟨zone, hzone, hv⟩ := occupantAt_eq_vehicleAt h
    rw [List.mem_singleton.mp (List.mem_of_getElem? hzone), vehicleAt_buildSlots] at hv
    contradiction
  constructor
  · omega
  · refine ⟨List.nodup_singleton _, ?_⟩
    intro zone hzone
    rw [List.mem_singleton.mp hzone]
    exact nodup_buildSlots (issued + 1) slotCount
  · intro zone hzone
    rw [List.mem_singleton.mp hzone]
    exact ⟨issued, by omega, by omega, rfl⟩
  · intro p v h
    exact absurd h (hempty p v)
  · intro p q v w h
    exact absurd h (hempty p v)

/-- The zones of the demo data, made when `n` uuids had been given out. -/
def demoZones (uuid : UuidSource) (n : ℕ) : List Zone :=
  [⟨uuid.value n, "Zone A - Main Entrance", setSlotVehicle (setSlotVehicle (buildSlots uuid (n + 1) 8) 1
      (some ⟨uuid.value (n + 16), "Ali Haider", "ALI-123"⟩)) 3
      (some ⟨uuid.value (n + 17), "Shahzeb", "SHZ-789"⟩)⟩,
    ⟨uuid.value (n + 9), "Zone B - Faculty", setSlotVehicle (buildSlots uuid (n + 10) 6) 0
      (some ⟨uuid.value (n + 18), "Campus Visitor", "VIS-456"⟩)⟩]

/-- Three vehicles are parked in the demo zones, each under an id of its own. -/
theorem occupantAt_demoZones {n : ℕ} {p : SlotRef} {v : Vehicle} (h : occupantAt (demoZones uuid n) p = some v) :
    p = ⟨0, 1⟩ ∧ v.id = uuid.value (n + 16) ∨ p = ⟨0, 3⟩ ∧ v.id = uuid.value (n + 17) ∨
      p = ⟨1, 0⟩ ∧ v.id = uuid.value (n + 18) := by
  obtain ⟨zone, hzone, hv⟩ := occupantAt_eq_vehicleAt h
  obtain ⟨i, j⟩ := p
  match i, hzone with
  | 0, hzone =>
    obtain rfl := Option.some.inj hzone
    rcases vehicleAt_setSlotVehicle hv with ⟨rfl, heq⟩ | hv
    · exact Or.inr (Or.inl ⟨rfl, by rw [← Option.some.inj heq]⟩)
    · rcases vehicleAt_setSlotVehicle hv with ⟨rfl, heq⟩ | hv
      · exact Or.inl ⟨rfl, by rw [← Option.some.inj heq]⟩
      · rw [vehicleAt_buildSlots] at hv
        contradiction
  | 1, hzone =>
    obtain rfl := Option.some.inj hzone
    rcases vehicleAt_setSlotVehicle hv with ⟨rfl, heq⟩ | hv
    · exact Or.inr (Or.inr ⟨rfl, by rw [← Option.some.inj heq]⟩)
    · rw [vehicleAt_buildSlots] at hv
      contradiction
  | i + 2, hzone => simp [demoZones] at hzone

theorem minted_demoZones (uuid : UuidSource) (n : ℕ) : Minted uuid n (n + 19) (demoZones uuid n) := by
  constructor
  · omega
  · constructor
    · rw [demoZones, List.map_cons, List.map_singleton, List.nodup_cons, List.mem_singleton]
      refine ⟨?_, List.nodup_singleton _⟩
      intro heq
      have := uuid.distinct heq
      omega
    · intro zone hzone
      rcases List.mem_pair.mp hzone with rfl | rfl
      · rw [map_id_setSlotVehicle, map_id_setSlotVehicle]
        exact nodup_buildSlots (n + 1) 8
      · rw [map_id_setSlotVehicle]
        exact nodup_buildSlots (n + 10) 6
  · intro zone hzone
    rcases List.mem_pair.mp hzone with rfl | rfl
    · exact ⟨n, by omega, by omega, rfl⟩
    · exact ⟨n + 9, by omega, by omega, rfl⟩
  · intro p v h
    rcases occupantAt_demoZones h with ⟨-, hid⟩ | ⟨-, hid⟩ | ⟨-, hid⟩
    · exact ⟨n + 16, by omega, by omega, hid⟩
    · exact ⟨n + 17, by omega, by omega, hid⟩
    · exact ⟨n + 18, by omega, by omega, hid⟩
  · intro p q v w hp hq hid
    rcases occupantAt_demoZones hp with ⟨rfl, hv⟩ | ⟨rfl, hv⟩ | ⟨rfl, hv⟩ <;>
      rcases occupantAt_demoZones hq with ⟨rfl, hw⟩ | ⟨rfl, hw⟩ | ⟨rfl, hw⟩ <;>
      first
        | rfl
        | exact absurd (uuid.distinct (hv.symm.trans (hid.trans hw))) (by omega)

theorem minted_nil (uuid : UuidSource) (n : ℕ) : Minted uuid n n [] where
  le := Nat.le_refl n
  distinct := ⟨List.nodup_nil, fun _ h => absurd h List.not_mem_nil⟩
  zoneIds _ h := absurd h List.not_mem_nil
  vehicleIds _ _ h := by simp [occupantAt, slotAt?] at h
  vehicleInj _ _ _ _ h := by simp [occupantAt, slotAt?] at h

/-- A step that touches neither zones nor history grows the zones by nothing. -/
theorem grows_nil (hzones : s'.zones = s.zones) (hhistory : s'.history = s.history) (hissued : s'.issued = s.issued) :
    Grows uuid s s' [] where
  zones := by rw [hzones, List.append_nil]
  history := hhistory
  minted := by
    rw [hissued]
    exact minted_nil uuid s.issued

theorem nameAt?_of_found {zones : List Zone} {i j : ℕ} {zone : Zone} {slot : Slot} {id : String}
    (hzone : findZone zones id = some (i, zone)) (hslot : zone.slots[j]? = some slot) :
    nameAt? zones ⟨i, j⟩ = some (id, slot.id) ∧ slotAt? zones ⟨i, j⟩ = some slot := by
  obtain ⟨hget, hid⟩ := findRef_sound hzone
  constructor
  · exact nameAt?_eq_some_iff.mpr ⟨zone, slot, hget, hslot, by rw [beq_iff_eq.mp hid]⟩
  · rw [slotAt?, hget, Option.bind_some, hslot]

namespace State

theorem targetSlot_sound {zone : Zone} {preferredSlotId : Option String} {j : ℕ} {slot : Slot}
    (h : targetSlot zone preferredSlotId = some (j, slot)) : zone.slots[j]? = some slot := by
  unfold targetSlot at h
  split at h
  · exact (findRef_sound h).1
  · exact (findRef_sound h).1

/-- What `allocateVehicle` does: nothing unless the slot it aims at is there and empty. -/
theorem allocateVehicle_inv (uuid : UuidSource) (s : State) (zoneId ownerName plate : String)
    (preferredSlotId : Option String) :
    ((∀ i zone, findZone s.zones zoneId = some (i, zone) →
        ∀ j slot, targetSlot zone preferredSlotId = some (j, slot) → slot.vehicle ≠ none) ∧
      s.allocateVehicle uuid zoneId ownerName plate preferredSlotId = (none, s)) ∨
    ∃ i zone j slot, findZone s.zones zoneId = some (i, zone) ∧
      targetSlot zone preferredSlotId = some (j, slot) ∧ slot.vehicle = none ∧
      s.allocateVehicle uuid zoneId ownerName plate preferredSlotId =
        (some ⟨zoneId, slot.id, ⟨uuid.value s.issued, ownerName, plate⟩⟩, { s with
          zones := setVehicle s.zones ⟨i, j⟩ (some ⟨uuid.value s.issued, ownerName, plate⟩)
          history := ⟨.allocate, zoneId, slot.id, none, some ⟨uuid.value s.issued, ownerName, plate⟩⟩ :: s.history
          issued := s.issued + 1 }) := by
  cases hzone : findZone s.zones zoneId with
  | none => exact Or.inl ⟨by simp, by simp only [allocateVehicle, hzone]⟩
  | some found =>
    obtain ⟨i, zone⟩ := found
    cases htarget : targetSlot zone preferredSlotId with
    | none =>
      exact Or.inl ⟨by simp [htarget], by simp only [allocateVehicle, hzone, htarget]⟩
    | some found' =>
      obtain ⟨j, slot⟩ := found'
      cases hv : slot.vehicle with
      | some v =>
        exact Or.inl ⟨by simp [htarget, hv], by simp [allocateVehicle, hzone, htarget, hv]⟩
      | none =>
        refine Or.inr ⟨i, zone, j, slot, rfl, htarget, hv, ?_⟩
        simp only [allocateVehicle, hzone, htarget, hv, Option.isSome_none, Bool.false_eq_true, if_false]

theorem deallocateVehicle_inv (s : State) (zoneId slotId : String) :
    ((∀ i zone, findZone s.zones zoneId = some (i, zone) →
        ∀ j slot, findSlot zone slotId = some (j, slot) → slot.vehicle = none) ∧
      s.deallocateVehicle zoneId slotId = (false, s)) ∨
    ∃ i zone j slot v, findZone s.zones zoneId = some (i, zone) ∧ findSlot zone slotId = some (j, slot) ∧
      slot.vehicle = some v ∧
      s.deallocateVehicle zoneId slotId =
        (true, { s with
          zones := setVehicle s.zones ⟨i, j⟩ none
          history := ⟨.deallocate, zoneId, slotId, some v, none⟩ :: s.history }) := by
  cases hzone : findZone s.zones zoneId with
  | none => exact Or.inl ⟨by simp, by simp only [deallocateVehicle, hzone]⟩
  | some found =>
    obtain ⟨i, zone⟩ := found
    cases hfind : findSlot zone slotId with
    | none =>
      exact Or.inl ⟨by simp [hfind], by simp only [deallocateVehicle, hzone, hfind]⟩
    | some found' =>
      obtain ⟨j, slot⟩ := found'
      cases hv : slot.vehicle with
      | none =>
        exact Or.inl ⟨by simp [hfind, hv], by simp [deallocateVehicle, hzone, hfind, hv]⟩
      | some v =>
        refine Or.inr ⟨i, zone, j, slot, v, rfl, hfind, hv, ?_⟩
        simp only [deallocateVehicle, hzone, hfind, hv, Option.isNone_some, Bool.false_eq_true, if_false]

theorem allocateVehicle_cases (uuid : UuidSource) (s : State) (zoneId ownerName plate : String)
    (preferredSlotId : Option String) :
    s.allocateVehicle uuid zoneId ownerName plate preferredSlotId = (none, s) ∨
      ∃ p action allocation, Writes uuid s (s.allocateVehicle uuid zoneId ownerName plate preferredSlotId).2 p action ∧
        (s.allocateVehicle uuid zoneId ownerName plate preferredSlotId).1 = some allocation := by
  rcases allocateVehicle_inv uuid s zoneId ownerName plate preferredSlotId with
    ⟨-, heq⟩ | ⟨i, zone, j, slot, hzone, htarget, hv, heq⟩
  · exact Or.inl heq
  · obtain ⟨hname, hslot⟩ := nameAt?_of_found hzone (targetSlot_sound htarget)
    rw [heq]
    exact Or.inr ⟨⟨i, j⟩, _, _, ⟨hname, ⟨slot, hslot, hv.symm⟩, rfl, rfl, rfl, rfl, _, rfl, rfl⟩, rfl⟩

theorem deallocateVehicle_cases (uuid : UuidSource) (s : State) (zoneId slotId : String) :
    s.deallocateVehicle zoneId slotId = (false, s) ∨
      ∃ p action, Writes uuid s (s.deallocateVehicle zoneId slotId).2 p action ∧
        (s.deallocateVehicle zoneId slotId).1 = true := by
  rcases deallocateVehicle_inv s zoneId slotId with ⟨-, heq⟩ | ⟨i, zone, j, slot, v, hzone, hfind, hv, heq⟩
  · exact Or.inl heq
  · obtain ⟨hget, hid⟩ := findRef_sound hfind
    obtain ⟨hname, hslot⟩ := nameAt?_of_found hzone hget
    rw [beq_iff_eq.mp hid] at hname
    rw [heq]
    exact Or.inr ⟨⟨i, j⟩, _, ⟨hname, ⟨slot, hslot, hv.symm⟩, rfl, rfl, ⟨v, rfl⟩, rfl, rfl⟩, rfl⟩

/-- Whether the call is an `allocateVehicle` or `deallocateVehicle` that succeeds. -/
def succeeds (uuid : UuidSource) (s : State) : Call → Bool
  | .allocateVehicle zoneId ownerName plate preferredSlotId =>
    (s.allocateVehicle uuid zoneId ownerName plate preferredSlotId).1.isSome
  | .deallocateVehicle zoneId slotId => (s.deallocateVehicle zoneId slotId).1
  | _ => false

theorem bootstrapDemoData_of_empty (uuid : UuidSource) {s : State} (h : s.zones = []) :
    s.bootstrapDemoData uuid =
      { s with
        zones := demoZones uuid s.issued
        activeZoneId := some (uuid.value s.issued)
        issued := s.issued + 19 } := by
  rw [bootstrapDemoData, if_neg (by simp [h])]
  rfl

/-- A call writes one slot when it succeeds as an allocation or deallocation, and
otherwise at most adds zones. -/
theorem call_cases (uuid : UuidSource) (s : State) (c : Call) :
    (s.succeeds uuid c = false ∧ ∃ new, Grows uuid s (s.call uuid c) new) ∨
      (s.succeeds uuid c = true ∧ ∃ p action, Writes uuid s (s.call uuid c) p action) := by
  cases c with
  | bootstrapDemoData =>
    refine Or.inl ⟨rfl, ?_⟩
    by_cases hempty : s.zones = []
    · rw [call, bootstrapDemoData_of_empty uuid hempty]
      exact ⟨_, by rw [hempty, List.nil_append], rfl, minted_demoZones uuid s.issued⟩
    · have hpos : 0 < s.zones.length := List.length_pos_iff.mpr hempty
      rw [call, bootstrapDemoData, if_pos hpos]
      exact ⟨[], grows_nil rfl rfl rfl⟩
  | addZone name slotCount => exact Or.inl ⟨rfl, _, rfl, rfl, minted_addZone s.issued name slotCount⟩
  | setActiveZone id => exact Or.inl ⟨rfl, [], grows_nil rfl rfl rfl⟩
  | allocateVehicle zoneId ownerName plate preferredSlotId =>
    rcases allocateVehicle_cases uuid s zoneId ownerName plate preferredSlotId with
      heq | ⟨p, action, allocation, hwrites, hsome⟩
    · refine Or.inl ⟨by rw [succeeds, heq]; rfl, [], ?_⟩
      rw [call, heq]
      exact grows_nil rfl rfl rfl
    · exact Or.inr ⟨by rw [succeeds, hsome]; rfl, p, action, hwrites⟩
  | deallocateVehicle zoneId slotId =>
    rcases deallocateVehicle_cases uuid s zoneId slotId with heq | ⟨p, action, hwrites, htrue⟩
    · refine Or.inl ⟨by rw [succeeds, heq], [], ?_⟩
      rw [call, heq]
      exact grows_nil rfl rfl rfl
    · exact Or.inr ⟨by rw [succeeds, htrue], p, action, hwrites⟩

theorem undoLast_nil {s : State} (h : s.history = []) : s.undoLast = (none, s) := by
  unfold undoLast
  rw [h]

/-- The latest entry names a slot, so undoing it writes that slot. -/
theorem undoLast_cons {s : State} (hs : Sound uuid s) {last : AllocationAction} {rest : List AllocationAction}
    (h : s.history = last :: rest) :
    ∃ p, nameAt? s.zones p = some (last.zoneId, last.slotId) ∧
      s.undoLast = (some (last.zoneId, last.slotId),
        { s with zones := setVehicle s.zones p last.vehicleBefore, history := rest }) := by
  obtain ⟨p, hp⟩ := hs.named last (h ▸ List.mem_cons_self)
  obtain ⟨zone, slot, hzone, hslot, hname⟩ := nameAt?_eq_some_iff.mp hp
  obtain ⟨hzid, hsid⟩ := Prod.mk.inj hname
  refine ⟨p, hp, ?_⟩
  unfold undoLast
  rw [h]
  simp only [hs.distinct.findZone_iff.mpr ⟨hzone, hzid⟩, (hs.distinct.findSlot_iff hzone).mpr ⟨hslot, hsid⟩,
    hzid, hsid]

end State

theorem undo_cases (hs : Sound uuid s) :
    s.undoLast = (none, s) ∨ ∃ p last, Undoes s s.undoLast.2 p last ∧ s.undoLast.1 ≠ none := by
  cases h : s.history with
  | nil => exact Or.inl (State.undoLast_nil h)
  | cons last rest =>
    obtain ⟨p, hname, heq⟩ := State.undoLast_cons hs h
    rw [heq]
    exact Or.inr ⟨p, last, ⟨h, hname, rfl, rfl⟩, Option.some_ne_none _⟩

/-- Everything a step can do. -/
theorem step_cases (hs : Sound uuid s) (op : State.Op) :
    (∃ new, Grows uuid s (s.step uuid op) new) ∨ (∃ p action, Writes uuid s (s.step uuid op) p action) ∨
      ∃ p last, Undoes s (s.step uuid op) p last := by
  cases op with
  | call c =>
    rcases s.call_cases uuid c with ⟨-, hgrows⟩ | ⟨-, hwrites⟩
    · exact Or.inl hgrows
    · exact Or.inr (Or.inl hwrites)
  | undoLast =>
    rcases undo_cases hs with heq | ⟨p, last, hundoes, -⟩
    · refine Or.inl ⟨[], ?_⟩
      rw [State.step, heq]
      exact grows_nil rfl rfl rfl
    · exact Or.inr (Or.inr ⟨p, last, hundoes⟩)

theorem Fits.issued_le {issued issued' : ℕ} (h : Fits uuid issued issued' action) : issued ≤ issued' := by
  unfold Fits at h
  split at h
  · obtain ⟨-, rfl, -⟩ := h
    exact Nat.le_succ issued
  · obtain ⟨-, -, rfl⟩ := h
    exact Nat.le_refl issued'

theorem Grows.sound (h : Grows uuid s s' new) (hs : Sound uuid s) : Sound uuid s' where
  distinct := by
    rw [h.zones]
    constructor
    · rw [List.map_append, List.nodup_append]
      refine ⟨hs.distinct.zoneIds, h.minted.distinct.zoneIds, ?_⟩
      intro id hid id' hid'
      obtain ⟨zone, hzone, rfl⟩ := List.mem_map.mp hid'
      exact (hs.zoneIds id hid).ne (h.minted.zoneIds zone hzone)
    · intro zone hzone
      rcases List.mem_append.mp hzone with hzone | hzone
      · exact hs.distinct.slotIds zone hzone
      · exact h.minted.distinct.slotIds zone hzone
  zoneIds := by
    intro id hid
    rw [h.zones, List.map_append] at hid
    rcases List.mem_append.mp hid with hid | hid
    · exact (hs.zoneIds id hid).mono (Nat.le_refl 0) h.minted.le
    · obtain ⟨zone, hzone, rfl⟩ := List.mem_map.mp hid
      exact (h.minted.zoneIds zone hzone).mono (Nat.zero_le _) (Nat.le_refl _)
  named := by
    intro action haction
    rw [h.history] at haction
    obtain ⟨p, hp⟩ := hs.named action haction
    refine ⟨p, ?_⟩
    rw [h.zones, nameAt?_append_left (zone_lt_of_nameAt? hp)]
    exact hp

/-- Writing a slot keeps the names, so a state stays sound if its entries name slots. -/
theorem Sound.setVehicle (hs : Sound uuid s) {vehicle : Option Vehicle}
    (hzones : s'.zones = Browser.setVehicle s.zones p vehicle) (hissued : s.issued ≤ s'.issued)
    (hnamed : ∀ action ∈ s'.history, ∃ q, nameAt? s.zones q = some (action.zoneId, action.slotId)) :
    Sound uuid s' where
  distinct := by
    rw [hzones]
    exact hs.distinct.setVehicle p vehicle
  zoneIds := by
    rw [hzones, map_id_setVehicle]
    exact fun id hid => (hs.zoneIds id hid).mono (Nat.le_refl 0) hissued
  named := by
    intro action haction
    obtain ⟨q, hq⟩ := hnamed action haction
    refine ⟨q, ?_⟩
    rw [hzones, nameAt?_setVehicle]
    exact hq

theorem Writes.sound (h : Writes uuid s s' p action) (hs : Sound uuid s) : Sound uuid s' := by
  apply hs.setVehicle h.zones h.fits.issued_le
  intro action' haction'
  rw [h.history] at haction'
  rcases List.mem_cons.mp haction' with rfl | haction'
  · exact ⟨p, h.name⟩
  · exact hs.named action' haction'

theorem Undoes.sound {last : AllocationAction} (h : Undoes s s' p last) (hs : Sound uuid s) : Sound uuid s' := by
  apply hs.setVehicle h.zones h.issued.ge
  intro action haction
  exact hs.named action (h.history ▸ List.mem_cons_of_mem _ haction)

theorem Sound.step (hs : Sound uuid s) (op : State.Op) : Sound uuid (s.step uuid op) := by
  rcases step_cases hs op with ⟨new, h⟩ | ⟨p, action, h⟩ | ⟨p, last, h⟩
  · exact h.sound hs
  · exact h.sound hs
  · exact h.sound hs

theorem Sound.run (hs : Sound uuid s) (ops : List State.Op) : Sound uuid (Runs.run (State.step uuid) s ops) := by
  have hstep : ∀ s op, True → Sound uuid s → Sound uuid (State.step uuid s op) := fun _ op _ h => h.step op
  exact Runs.run_invariant (State.step uuid) hstep (fun _ _ => trivial) hs

end SmartParking.Browser
