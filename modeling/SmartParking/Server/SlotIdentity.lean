import SmartParking.Server.ZoneHandlers

/-! # What identifies a slot

A slot is addressed by the id of its zone and its own number, and carries the id of a
zone. `handleCreateZone` numbers the slots of each area from 1 and hands them the id of
their area, so both depend on what is posted. Neither depends on who is parked, as a
recorded pointer is taken to denote what it was taken from.
-/
namespace SmartParking
open Foundation ParkingSystem

/-- The pairs by which the slots of a zone are looked up. -/
def Zone.addresses (zone : Zone) : List (ℤ × ℤ) := zone.slots.map (fun slot => (zone.zoneId, slot.slotId))

def addresses (zones : List Zone) : List (ℤ × ℤ) := zones.flatMap Zone.addresses

theorem Zone.slots_layout (zone : Zone) : zone.layout.slots = zone.slots.map ParkingSlot.layout := by
  rw [Zone.slots, Zone.layout, List.flatMap_map, Zone.slots, List.map_flatMap]
  rfl

theorem Zone.addresses_layout (zone : Zone) : zone.layout.addresses = zone.addresses := by
  rw [Zone.addresses, Zone.slots_layout, List.map_map]
  rfl

theorem addresses_map_layout (zones : List Zone) : addresses (zones.map Zone.layout) = addresses zones := by
  rw [addresses, List.flatMap_map, addresses]
  congr 1
  funext zone
  exact zone.addresses_layout

theorem addresses_append (zones : List Zone) (zone : Zone) :
    addresses (zones ++ [zone]) = addresses zones ++ zone.addresses := by
  rw [addresses, List.flatMap_append, List.flatMap_singleton, addresses]

theorem fst_of_mem_addresses {zone : Zone} {a : ℤ × ℤ} (h : a ∈ zone.addresses) : a.1 = zone.zoneId := by
  obtain ⟨slot, -, rfl⟩ := List.mem_map.mp h
  rfl

/-- Every zone that has a slot has one with the number 1. -/
def StartsAtOne (zones : List Zone) : Prop :=
  ∀ zone ∈ zones, zone.addresses ≠ [] → (zone.zoneId, 1) ∈ zone.addresses

theorem startsAtOne_map_layout (zones : List Zone) : StartsAtOne (zones.map Zone.layout) ↔ StartsAtOne zones := by
  simp only [StartsAtOne, List.forall_mem_map, Zone.addresses_layout, Zone.layout_zoneId]

/-- Every slot of the zone carries the zone's id. -/
def Zone.KnowsZone (zone : Zone) : Prop :=
  ∀ area ∈ zone.parkingAreas, ∀ slot ∈ area.slots, slot.zoneId = zone.zoneId

instance (zone : Zone) : Decidable zone.KnowsZone := List.decidableBAll _ _

theorem Zone.knowsZone_layout (zone : Zone) : zone.layout.KnowsZone ↔ zone.KnowsZone := by
  simp only [Zone.KnowsZone, Zone.layout, ParkingArea.layout, List.forall_mem_map]
  rfl

namespace Server

theorem serve_createRequest_layout (ps : ParkingSystem) (x : Option CreateBody) :
    (serve ps (.createRequest x)).zones.map Zone.layout = ps.zones.map Zone.layout := by
  cases x with
  | none => rfl
  | some body => exact requestParking_map_layout ps body.vehicleId (narrow body.requestedZoneId)

/-- The addresses of the slots 1 to `n` of a zone. -/
def addressesUpTo (id : ℤ) (n : ℕ) : List (ℤ × ℤ) := (List.range n).map (fun i : ℕ => (id, (i : ℤ) + 1))

theorem one_mem_addressesUpTo (id : ℤ) {n : ℕ} (h : 0 < n) : (id, 1) ∈ addressesUpTo id n :=
  List.mem_map.mpr ⟨0, List.mem_range.mpr h, rfl⟩

theorem nodup_addressesUpTo (id : ℤ) (n : ℕ) : (addressesUpTo id n).Nodup := by
  apply List.nodup_range.map
  intro i j h
  have hsnd := congrArg Prod.snd h
  dsimp only at hsnd
  omega

theorem CreateZoneBody.addresses_zone (body : CreateZoneBody) :
    body.zone.addresses = (body.areas.getD []).flatMap (fun a => addressesUpTo (narrow body.id) a.count) := by
  rw [Zone.addresses, Zone.slots, zone, List.flatMap_map, List.map_flatMap]
  congr 1
  funext areaJson
  rw [AreaBody.area, List.map_map]
  rfl

/-- Two areas that both have slots both have a slot 1. -/
theorem nodup_areas_iff (id : ℤ) (areas : List AreaBody) :
    (areas.flatMap (fun a => addressesUpTo id a.count)).Nodup ↔
      (areas.filter (fun a => 0 < a.count)).length ≤ 1 := by
  induction areas with
  | nil => simp
  | cons a areas ih =>
    rw [List.flatMap_cons, List.filter_cons]
    by_cases ha : 0 < a.count
    · rw [if_pos (decide_eq_true ha), List.nodup_append, List.length_cons]
      constructor
      · rintro ⟨-, -, hdisjoint⟩
        have hnone : areas.filter (fun a => 0 < a.count) = [] := by
          apply List.filter_eq_nil_iff.mpr
          intro b hb hpos
          have hmem : (id, 1) ∈ areas.flatMap (fun a => addressesUpTo id a.count) :=
            List.mem_flatMap.mpr ⟨b, hb, one_mem_addressesUpTo id (of_decide_eq_true hpos)⟩
          exact hdisjoint _ (one_mem_addressesUpTo id ha) _ hmem rfl
        rw [hnone, List.length_nil]
      · intro hlength
        have hnone : areas.filter (fun a => 0 < a.count) = [] := List.length_eq_zero_iff.mp (by omega)
        have hempty : areas.flatMap (fun a => addressesUpTo id a.count) = [] := by
          apply List.flatMap_eq_nil_iff.mpr
          intro b hb
          have hzero : b.count = 0 := by simpa using List.filter_eq_nil_iff.mp hnone b hb
          rw [hzero]
          rfl
        rw [hempty]
        refine ⟨nodup_addressesUpTo id a.count, List.nodup_nil, ?_⟩
        intro x hx y hy
        exact absurd hy List.not_mem_nil
    · have hzero : a.count = 0 := by omega
      rw [if_neg (by simpa using hzero), hzero, ← ih]
      rfl

/-- At most one area of the body has slots, and if one has, no zone with the id of the
body has any yet. -/
def AddsAddresses (ps : ParkingSystem) (body : CreateZoneBody) : Prop :=
  ((body.areas.getD []).filter (fun a => 0 < a.count)).length ≤ 1 ∧
    (0 < body.slotCount → ∀ zone ∈ ps.zones, zone.zoneId = narrow body.id → zone.slots = [])

def KeepsAddresses (ps : ParkingSystem) : Post → Prop
  | .createZone none => True
  | .createZone (some body) => AddsAddresses ps body
  | .createRequest _ => True

theorem CreateZoneBody.addresses_zone_ne_nil {body : CreateZoneBody} (h : body.zone.addresses ≠ []) :
    0 < body.slotCount ∧ (narrow body.id, 1) ∈ body.zone.addresses := by
  obtain ⟨address, hmem⟩ := List.exists_mem_of_ne_nil _ h
  constructor
  · rw [← body.length_slots]
    obtain ⟨slot, hslot, -⟩ := List.mem_map.mp hmem
    exact List.length_pos_of_mem hslot
  · rw [addresses_zone] at hmem ⊢
    obtain ⟨a, ha, hin⟩ := List.mem_flatMap.mp hmem
    obtain ⟨i, hi, -⟩ := List.mem_map.mp hin
    have hpos : 0 < a.count := by
      have := List.mem_range.mp hi
      omega
    exact List.mem_flatMap.mpr ⟨a, ha, one_mem_addressesUpTo _ hpos⟩

variable {ps : ParkingSystem}

theorem startsAtOne_serve (h : StartsAtOne ps.zones) (post : Post) : StartsAtOne (serve ps post).zones := by
  cases post with
  | createZone x =>
    cases x with
    | none => exact h
    | some body =>
      rw [serve_createZone]
      intro zone hzone hne
      rcases List.mem_append.mp hzone with hzone | hzone
      · exact h zone hzone hne
      · rw [List.mem_singleton.mp hzone] at hne ⊢
        exact (CreateZoneBody.addresses_zone_ne_nil hne).2
  | createRequest x => rw [← startsAtOne_map_layout, serve_createRequest_layout, startsAtOne_map_layout]; exact h

/-- The new addresses miss the old ones exactly when the zone is empty or its id has no
slots yet. -/
theorem disjoint_addresses_iff (h : StartsAtOne ps.zones) (body : CreateZoneBody) :
    (∀ a ∈ addresses ps.zones, ∀ b ∈ body.zone.addresses, a ≠ b) ↔
      (0 < body.slotCount → ∀ zone ∈ ps.zones, zone.zoneId = narrow body.id → zone.slots = []) := by
  constructor
  · intro hdisjoint hpos zone hzone hid
    by_contra hslots
    have hold : (zone.zoneId, 1) ∈ zone.addresses := by
      apply h zone hzone
      rw [Zone.addresses, Ne, List.map_eq_nil_iff]
      exact hslots
    have hne : body.zone.addresses ≠ [] := by
      rw [Zone.addresses, Ne, List.map_eq_nil_iff, ← List.length_eq_zero_iff, body.length_slots]
      omega
    have hnew := (CreateZoneBody.addresses_zone_ne_nil hne).2
    rw [hid] at hold
    exact hdisjoint _ (List.mem_flatMap.mpr ⟨zone, hzone, hold⟩) _ hnew rfl
  · intro hfresh a ha b hb heq
    have hne : body.zone.addresses ≠ [] := List.ne_nil_of_mem hb
    have hpos := (CreateZoneBody.addresses_zone_ne_nil hne).1
    obtain ⟨zone, hzone, hmem⟩ := List.mem_flatMap.mp ha
    have hid : zone.zoneId = narrow body.id := by
      rw [← fst_of_mem_addresses hmem, heq, fst_of_mem_addresses hb, body.zone_zoneId]
    rw [Zone.addresses, hfresh hpos zone hzone hid] at hmem
    exact absurd hmem List.not_mem_nil

theorem nodup_addresses_serve_iff (h : StartsAtOne ps.zones) (hnodup : (addresses ps.zones).Nodup)
    (post : Post) : (addresses (serve ps post).zones).Nodup ↔ KeepsAddresses ps post := by
  cases post with
  | createZone x =>
    cases x with
    | none => exact iff_of_true hnodup trivial
    | some body =>
      rw [serve_createZone, ParkingSystem.addZone, addresses_append, List.nodup_append,
        disjoint_addresses_iff h, body.addresses_zone, nodup_areas_iff]
      exact and_iff_right hnodup
  | createRequest x =>
    rw [← addresses_map_layout, serve_createRequest_layout, addresses_map_layout]
    exact iff_of_true hnodup trivial

/-- No two slots share an address in any state of a run exactly when every request of the
run keeps it so. -/
theorem addresses_nodup_iff (posts : List Post) :
    Runs.EveryState serve (fun ps => (addresses ps.zones).Nodup) seeded posts ↔
      Runs.EveryStep serve KeepsAddresses seeded posts := by
  have hinv : ∀ ps post, True → StartsAtOne ps.zones → StartsAtOne (serve ps post).zones :=
    fun _ post _ h => startsAtOne_serve h post
  have hstep : ∀ ps post, True → StartsAtOne ps.zones → (addresses ps.zones).Nodup →
      ((addresses (serve ps post).zones).Nodup ↔ KeepsAddresses ps post) :=
    fun _ post _ h hnodup => nodup_addresses_serve_iff h hnodup post
  exact Runs.everyState_iff_everyStep serve hinv hstep (fun _ _ => trivial)
    (by unfold StartsAtOne; decide) (by decide)

/-- One zone with two areas of one slot each. -/
def twoAreas : List Post := [.createZone (some ⟨3, some [⟨1, 1⟩, ⟨2, 1⟩]⟩)]

theorem addresses_repeat :
    ¬ Runs.EveryState serve (fun ps => (addresses ps.zones).Nodup) seeded twoAreas := by
  intro h
  have hnodup := h twoAreas (List.prefix_refl _)
  revert hnodup
  decide

/-- What can happen to the zones of a running server and its parking system. -/
inductive Event
  | createZone (x : Option CreateZoneBody)
  | requestParking (vehicleId : String) (requestedZoneId : ℤ)
  | cancelRequest (requestId : ℤ)
  | releaseSlot (requestId : ℤ)
  deriving DecidableEq, Repr

def handle (ps : ParkingSystem) : Event → ParkingSystem
  | .createZone x => (handleCreateZone x ps).2
  | .requestParking vehicleId requestedZoneId => (ps.requestParking vehicleId requestedZoneId).2
  | .cancelRequest requestId => (ps.cancelRequest requestId).2
  | .releaseSlot requestId => (ps.releaseSlot requestId).2

/-- Every slot carries the id of its zone, and so does the one an allocation finds. -/
def SlotsKnowZone (ps : ParkingSystem) : Prop :=
  (∀ zone ∈ ps.zones, zone.KnowsZone) ∧
    ∀ (requestedZoneId : ℤ) (p : SlotRef) (zone : Zone) (slot : ParkingSlot),
      ps.slotFor requestedZoneId = some p → ps.zones[p.zone]? = some zone →
      zone.slotAt? p.area p.slot = some slot → slot.zoneId = zone.zoneId

/-- Every area of the body that has slots has the id of the zone. -/
def AreasNameZone (body : CreateZoneBody) : Prop :=
  ∀ a ∈ body.areas.getD [], 0 < a.count → narrow a.areaId = narrow body.id

def KeepsZoneIds (_ps : ParkingSystem) : Event → Prop
  | .createZone (some body) => AreasNameZone body
  | _ => True

theorem slotsKnowZone_iff (ps : ParkingSystem) : SlotsKnowZone ps ↔ ∀ zone ∈ ps.zones, zone.KnowsZone := by
  constructor
  · exact And.left
  · intro h
    refine ⟨h, ?_⟩
    intro requestedZoneId p zone slot _ hzone hslot
    obtain ⟨area, harea, hget⟩ := Option.bind_eq_some_iff.mp hslot
    exact h zone (List.mem_of_getElem? hzone) area (List.mem_of_getElem? harea) slot
      (List.mem_of_getElem? hget)

theorem slotsKnowZone_congr {ps after : ParkingSystem}
    (h : after.zones.map Zone.layout = ps.zones.map Zone.layout) : SlotsKnowZone after ↔ SlotsKnowZone ps := by
  have hlayout : ∀ zones : List Zone,
      (∀ zone ∈ zones, zone.KnowsZone) ↔ ∀ zone ∈ zones.map Zone.layout, zone.KnowsZone := by
    intro zones
    simp only [List.forall_mem_map, Zone.knowsZone_layout]
  rw [slotsKnowZone_iff, slotsKnowZone_iff, hlayout after.zones, h, ← hlayout ps.zones]

theorem knowsZone_zone_iff (body : CreateZoneBody) : body.zone.KnowsZone ↔ AreasNameZone body := by
  simp only [Zone.KnowsZone, CreateZoneBody.zone, AreaBody.area, List.forall_mem_map]
  constructor
  · intro h a ha hpos
    exact h a ha 0 (List.mem_range.mpr hpos)
  · intro h a ha i hi
    have hlt := List.mem_range.mp hi
    exact h a ha (by omega)

theorem slotsKnowZone_handle_iff (h : SlotsKnowZone ps) (event : Event) :
    SlotsKnowZone (handle ps event) ↔ KeepsZoneIds ps event := by
  cases event with
  | createZone x =>
    cases x with
    | none => exact iff_of_true h trivial
    | some body =>
      have hserve : handle ps (.createZone (some body)) = ps.addZone body.zone := serve_createZone ps body
      rw [slotsKnowZone_iff] at h ⊢
      rw [hserve, KeepsZoneIds, ← knowsZone_zone_iff]
      simp only [ParkingSystem.addZone, List.mem_append, List.mem_singleton, or_imp, forall_and, forall_eq]
      exact and_iff_right h
  | requestParking vehicleId requestedZoneId =>
    have hlayout := requestParking_map_layout ps vehicleId requestedZoneId
    exact iff_of_true ((slotsKnowZone_congr hlayout).mpr h) trivial
  | cancelRequest requestId =>
    have hlayout := (sameLayout_cancelRequest ps requestId).zones
    exact iff_of_true ((slotsKnowZone_congr hlayout).mpr h) trivial
  | releaseSlot requestId =>
    have hlayout := (sameLayout_releaseSlot ps requestId).zones
    exact iff_of_true ((slotsKnowZone_congr hlayout).mpr h) trivial

/-- Every slot carries the id of its zone in every state of a run exactly when every
event of the run keeps it so. -/
theorem slots_know_zone_iff (events : List Event) :
    Runs.EveryState handle SlotsKnowZone seeded events ↔ Runs.EveryStep handle KeepsZoneIds seeded events := by
  have hstep : ∀ ps event, True → True → SlotsKnowZone ps →
      (SlotsKnowZone (handle ps event) ↔ KeepsZoneIds ps event) :=
    fun _ event _ _ h => slotsKnowZone_handle_iff h event
  have hseeded : SlotsKnowZone seeded := (slotsKnowZone_iff seeded).mpr (by decide)
  exact Runs.everyState_iff_everyStep handle (fun _ _ _ _ => trivial) hstep (fun _ _ => trivial) trivial hseeded

/-- A zone whose only area has another id than the zone. -/
def otherAreaId : List Event := [.createZone (some ⟨3, some [⟨1, 1⟩]⟩)]

theorem slot_carries_area_id : ¬ Runs.EveryState handle SlotsKnowZone seeded otherAreaId := by
  intro h
  have hknows := (slotsKnowZone_iff _).mp (h otherAreaId (List.prefix_refl _))
  revert hknows
  decide

end Server

end SmartParking
