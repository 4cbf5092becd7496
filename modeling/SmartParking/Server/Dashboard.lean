import SmartParking.Foundation.CheckedLoop
import SmartParking.Server.RoundPercent

/-! # The two dashboards

`handleGetDashboard` counts the slots itself. `loadDashboard` of `app.js` adds up the zone
list. What else `loadDashboard` does with the page is left out.
-/
namespace SmartParking.Server
open Foundation.CheckedLoop ParkingRequest

/-- The body of the innermost loop: a counter that overflows has no value. -/
def countSlot (counts : ℤ × ℤ) (slot : ParkingSlot) : Option (ℤ × ℤ) := do
  let totalSlots ← signed (counts.1 + 1)
  let occupiedSlots ← if !slot.isAvailable then signed (counts.2 + 1) else some counts.2
  some (totalSlots, occupiedSlots)

def countArea (counts : ℤ × ℤ) (area : ParkingArea) : Option (ℤ × ℤ) := area.slots.foldlM countSlot counts

def countZone (counts : ℤ × ℤ) (zone : Zone) : Option (ℤ × ℤ) := zone.parkingAreas.foldlM countArea counts

def countActive (activeRequests : ℤ) (req : ParkingRequest) : Option ℤ :=
  if req.currentState == .requested || req.currentState == .allocated then signed (activeRequests + 1)
  else some activeRequests

structure Dashboard where
  totalZones : ℤ
  occupiedSlots : Option ℤ
  activeRequests : Option ℤ
  utilization : Option ℤ
  deriving DecidableEq, Repr

def handleGetDashboard (ps : ParkingSystem) : Answer Dashboard :=
  let counts := ps.zones.foldlM countZone (0, 0)
  ⟨200, some ⟨toInt ps.zones.length, counts.map (·.2), ps.requests.foldlM countActive 0,
    do let (totalSlots, occupiedSlots) ← counts; roundPercent occupiedSlots totalSlots⟩⟩

/-- The members of a zone that `loadDashboard` reads; `none` is `undefined`. -/
structure ZoneData where
  capacity : Option ℤ
  totalSlots : Option ℤ
  occupiedSlots : Option ℤ
  deriving DecidableEq, Repr

/-- An array of zones, or an object that may have one under `zones`. -/
inductive ZonesData
  | array (zones : List ZoneData)
  | object (zones : Option (List ZoneData))
  deriving DecidableEq, Repr

def ZonesData.zones : ZonesData → List ZoneData
  | array zones => zones
  | object zones => zones.getD []

/-- A number that JavaScript takes for true. -/
def truthy (x : Option ℤ) : Option ℤ := x.filter (· != 0)

structure Stats where
  totalZones : ℕ
  occupiedSlots : ℤ
  totalSlots : ℤ
  activeRequests : ℕ
  utilization : ℤ
  deriving DecidableEq, Repr

def addStats (totals : ℤ × ℤ) (zone : ZoneData) : ℤ × ℤ :=
  let capacity := ((truthy zone.capacity).or (truthy zone.totalSlots)).getD 0
  let occupied := (truthy zone.occupiedSlots).getD 0
  (totals.1 + capacity, totals.2 + occupied)

/-- The numbers shown, from the two fetched answers. `statuses` are those of the requests,
and are missing when fetching them throws. -/
def loadDashboard (zonesData : ZonesData) (statuses : Option (List String)) : Stats :=
  let zones := zonesData.zones
  let (totalSlots, occupiedSlots) := zones.foldl addStats (0, 0)
  let activeRequests := (statuses.getD []).countP (fun status => status == "REQUESTED" || status == "ALLOCATED")
  let utilization := if 0 < totalSlots then round ((occupiedSlots / totalSlots : ℚ) * 100) else 0
  ⟨zones.length, occupiedSlots, totalSlots, activeRequests, utilization⟩

/-- What the frontend reads of an entry, which is written once all its numbers have values. -/
def ZoneEntry.data (entry : ZoneEntry) : Option ZoneData := do
  let capacity ← entry.capacity
  let occupiedSlots ← entry.occupiedSlots
  let _ ← entry.utilization
  some ⟨some capacity, none, some occupiedSlots⟩

def zonesData (ps : ParkingSystem) : Option ZonesData := do
  let entries ← (handleGetZones ps).body
  let zones ← entries.mapM ZoneEntry.data
  some (.object (some zones))

/-- The slots of a system, in the order the loops visit them. -/
def allSlots (zones : List Zone) : List ParkingSlot := zones.flatMap Zone.slots

variable {ps : ParkingSystem} {zones : List Zone}

theorem foldlM_countZone (counts : ℤ × ℤ) (zones : List Zone) :
    zones.foldlM countZone counts = (allSlots zones).foldlM countSlot counts := by
  rw [allSlots, foldlM_flatMap]
  congr 1
  funext counts zone
  rw [Zone.slots, foldlM_flatMap]
  rfl

def tally (counts : ℤ × ℤ) (slot : ParkingSlot) : ℤ × ℤ :=
  (counts.1 + 1, if !slot.isAvailable then counts.2 + 1 else counts.2)

/-- The slots still to come can be counted. -/
def HasRoom (slots : List ParkingSlot) (counts : ℤ × ℤ) : Prop :=
  0 ≤ counts.2 ∧ counts.2 ≤ counts.1 ∧ counts.1 + slots.length < 2 ^ 31

theorem foldl_tally (slots : List ParkingSlot) (counts : ℤ × ℤ) :
    slots.foldl tally counts = (counts.1 + slots.length, counts.2 + slots.countP (!·.isAvailable)) := by
  induction slots generalizing counts with
  | nil => simp
  | cons slot slots ih =>
    rw [List.foldl_cons, ih, List.length_cons, List.countP_cons, tally, Prod.mk.injEq]
    dsimp only
    split
    · push_cast
      omega
    · push_cast
      omega

theorem countSlot_of_hasRoom (slot : ParkingSlot) (slots : List ParkingSlot) (counts : ℤ × ℤ)
    (h : HasRoom (slot :: slots) counts) :
    countSlot counts slot = some (tally counts slot) ∧ HasRoom slots (tally counts slot) := by
  obtain ⟨hpos, hle, hlt⟩ := h
  rw [List.length_cons] at hlt
  push_cast at hlt
  constructor
  · rw [countSlot, tally, signed_of_lt (by omega) (by omega)]
    split
    · rw [signed_of_lt (by omega) (by omega)]
      rfl
    · rfl
  · unfold HasRoom tally
    dsimp only
    split <;> omega

/-- As long as the slots can be counted, the counters end at their numbers. -/
theorem foldlM_countZone_eq (h : (allSlots zones).length < 2 ^ 31) :
    zones.foldlM countZone (0, 0) =
      some (((allSlots zones).length : ℤ), ((allSlots zones).countP (!·.isAvailable) : ℤ)) := by
  have hroom : HasRoom (allSlots zones) (0, 0) := by
    refine ⟨Int.le_refl 0, Int.le_refl 0, ?_⟩
    dsimp only
    omega
  rw [foldlM_countZone, foldlM_of_fits countSlot_of_hasRoom hroom, foldl_tally, zero_add, zero_add]

theorem allSlots_cons (zone : Zone) (zones : List Zone) : allSlots (zone :: zones) = zone.slots ++ allSlots zones :=
  List.flatMap_cons ..

/-- The number that stands in for a falsy one is the falsy one itself. -/
theorem getD_truthy (n : ℤ) : (truthy (some n)).getD 0 = n := by
  by_cases h : n = 0
  · subst h
    rfl
  · simp [truthy, Option.filter, h]

/-- The totals the frontend adds up are those of the slots. -/
theorem foldl_addStats (totals : ℤ × ℤ) (zones : List Zone) :
    (zones.map (fun zone => (⟨some zone.slots.length, none, some zone.occupied⟩ : ZoneData))).foldl addStats totals =
      (totals.1 + (allSlots zones).length, totals.2 + (allSlots zones).countP (!·.isAvailable)) := by
  induction zones generalizing totals with
  | nil => simp [allSlots]
  | cons zone zones ih =>
    rw [List.map_cons, List.foldl_cons, ih, allSlots_cons, List.length_append, List.countP_append, addStats,
      Prod.mk.injEq]
    dsimp only
    have hcapacity : (truthy (some (zone.slots.length : ℤ))).or (truthy none) =
        truthy (some (zone.slots.length : ℤ)) := Option.or_none
    rw [hcapacity, getD_truthy, getD_truthy, Zone.occupied]
    push_cast
    omega

/-- An entry is written when the percentage of its zone can be computed. -/
theorem data_zoneEntry {zone : Zone} (h : zone.slots.length ≤ 21000000) :
    (zoneEntry zone).data = some ⟨some zone.slots.length, none, some zone.occupied⟩ := by
  have hle := zone.occupied_le
  have hpercent : ∃ percent, roundPercent zone.occupied zone.slots.length = some percent := by
    rcases Nat.eq_zero_or_pos zone.slots.length with hzero | hpos
    · rw [hzero]
      exact ⟨0, roundPercent_zero _⟩
    · exact ⟨_, roundPercent_fits (by omega) (by omega) (by omega)⟩
  obtain ⟨percent, hpercent⟩ := hpercent
  rw [ZoneEntry.data, zoneEntry]
  dsimp only
  rw [signed_of_lt (by omega) (by omega), signed_of_lt (by omega) (by omega)]
  dsimp only [Option.bind_eq_bind, Option.bind_some]
  rw [hpercent]
  rfl

theorem mapM_data (h : (allSlots zones).length ≤ 21000000) :
    (zones.map zoneEntry).mapM ZoneEntry.data =
      some (zones.map (fun zone => (⟨some zone.slots.length, none, some zone.occupied⟩ : ZoneData))) := by
  induction zones with
  | nil => rfl
  | cons zone zones ih =>
    rw [allSlots_cons, List.length_append] at h
    rw [List.map_cons, List.mapM_cons, data_zoneEntry (by omega), ih (by omega)]
    rfl

/-- The frontend's numbers are those of `handleGetDashboard`. -/
def DashboardsAgree (ps : ParkingSystem) : Prop :=
  ∃ answer dashboard, zonesData ps = some answer ∧ handleGetDashboard ps = ⟨200, some dashboard⟩ ∧
    ∀ statuses,
      ((loadDashboard answer statuses).totalZones : ℤ) = dashboard.totalZones ∧
      some (loadDashboard answer statuses).occupiedSlots = dashboard.occupiedSlots ∧
      some (loadDashboard answer statuses).utilization = dashboard.utilization

theorem loadDashboard_totalZones (zones : List ZoneData) (statuses : Option (List String)) :
    (loadDashboard (.object (some zones)) statuses).totalZones = zones.length := rfl

theorem loadDashboard_occupiedSlots (zones : List ZoneData) (statuses : Option (List String)) :
    (loadDashboard (.object (some zones)) statuses).occupiedSlots = (zones.foldl addStats (0, 0)).2 := rfl

theorem loadDashboard_utilization (zones : List ZoneData) (statuses : Option (List String)) :
    (loadDashboard (.object (some zones)) statuses).utilization =
      if 0 < (zones.foldl addStats (0, 0)).1 then
        round (((zones.foldl addStats (0, 0)).2 / (zones.foldl addStats (0, 0)).1 : ℚ) * 100)
      else 0 := rfl

/-- What the frontend shows of a system whose slots can be counted. -/
theorem loadDashboard_zonesData (h : (allSlots ps.zones).length ≤ 21000000) :
    ∃ answer, zonesData ps = some answer ∧ ∀ statuses,
      (loadDashboard answer statuses).totalZones = ps.zones.length ∧
      (loadDashboard answer statuses).occupiedSlots = (allSlots ps.zones).countP (!·.isAvailable) ∧
      some (loadDashboard answer statuses).utilization =
        roundPercent ((allSlots ps.zones).countP (!·.isAvailable)) (allSlots ps.zones).length := by
  refine ⟨.object (some (ps.zones.map (fun zone => ⟨some zone.slots.length, none, some zone.occupied⟩))), ?_, ?_⟩
  · rw [zonesData, handleGetZones]
    dsimp only [Option.bind_eq_bind, Option.bind_some]
    rw [mapM_data h]
    rfl
  · intro statuses
    have htotals := foldl_addStats (0, 0) ps.zones
    dsimp only at htotals
    rw [zero_add, zero_add] at htotals
    have hcount : (allSlots ps.zones).countP (!·.isAvailable) ≤ (allSlots ps.zones).length := List.countP_le_length
    rw [loadDashboard_totalZones, loadDashboard_occupiedSlots, loadDashboard_utilization, htotals]
    refine ⟨List.length_map .., rfl, ?_⟩
    dsimp only
    rcases Nat.eq_zero_or_pos (allSlots ps.zones).length with hzero | hpos
    · rw [hzero, if_neg (by omega)]
      rfl
    · rw [if_pos (by omega), roundPercent_fits (by omega) (by omega) (by omega)]
      congr 2
      ring

theorem handleGetDashboard_eq (ps : ParkingSystem) (h : (allSlots ps.zones).length < 2 ^ 31) :
    ∃ activeRequests, handleGetDashboard ps =
      ⟨200, some ⟨toInt ps.zones.length, some ((allSlots ps.zones).countP (!·.isAvailable)), activeRequests,
        roundPercent ((allSlots ps.zones).countP (!·.isAvailable)) (allSlots ps.zones).length⟩⟩ := by
  refine ⟨ps.requests.foldlM countActive 0, ?_⟩
  rw [handleGetDashboard, foldlM_countZone_eq h]
  rfl

/-- All that can set the dashboards apart is the conversion of the number of zones. -/
theorem dashboardsAgree_iff_toInt (h : (allSlots ps.zones).length ≤ 21000000) :
    DashboardsAgree ps ↔ toInt ps.zones.length = ps.zones.length := by
  obtain ⟨answer, hanswer, hshown⟩ := loadDashboard_zonesData h
  obtain ⟨activeRequests, hdashboard⟩ := handleGetDashboard_eq ps (by omega)
  constructor
  · rintro ⟨answer', dashboard, hanswer', hdashboard', hagree⟩
    obtain rfl := Option.some.inj (hanswer.symm.trans hanswer')
    obtain rfl : _ = dashboard := by simpa using hdashboard.symm.trans hdashboard'
    have htotal := (hagree none).1
    rw [(hshown none).1] at htotal
    dsimp only at htotal
    exact htotal.symm
  · intro hzones
    refine ⟨answer, _, hanswer, hdashboard, ?_⟩
    intro statuses
    obtain ⟨htotal, hoccupied, hutilization⟩ := hshown statuses
    refine ⟨?_, ?_, hutilization⟩
    · rw [htotal, hzones]
    · rw [hoccupied]

/-- The two dashboards agree for at most 21000000 slots, as long as the zones can be counted
in an `int`. -/
theorem dashboards_agree_iff (ps : ParkingSystem) (h : (allSlots ps.zones).length ≤ 21000000) :
    DashboardsAgree ps ↔ ps.zones.length < 2 ^ 31 := by
  rw [dashboardsAgree_iff_toInt h, toInt_eq_self_iff]

theorem dashboards_agree_seeded : DashboardsAgree seeded :=
  (dashboards_agree_iff seeded (by decide)).mpr (by decide)

/-- A system of zones without slots. -/
def emptyZones (n : ℕ) : ParkingSystem := { ParkingSystem.new with zones := List.replicate n (.new 1) }

theorem allSlots_emptyZones (n : ℕ) : allSlots (emptyZones n).zones = [] := by
  apply List.flatMap_eq_nil_iff.mpr
  intro zone hzone
  rw [List.eq_of_mem_replicate hzone]
  rfl

/-- With 2^31 zones the server answers a negative number of zones. -/
theorem dashboards_disagree :
    (allSlots (emptyZones (2 ^ 31)).zones).length ≤ 21000000 ∧ ¬ DashboardsAgree (emptyZones (2 ^ 31)) := by
  have hslots : (allSlots (emptyZones (2 ^ 31)).zones).length ≤ 21000000 := by
    rw [allSlots_emptyZones, List.length_nil]
    omega
  refine ⟨hslots, ?_⟩
  rw [dashboardsAgree_iff_toInt hslots, toInt_eq_self_iff, emptyZones, List.length_replicate]
  omega

end SmartParking.Server
