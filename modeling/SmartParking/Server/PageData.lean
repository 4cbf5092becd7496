import Mathlib.Data.List.Nodup
import SmartParking.Server.Booking
import SmartParking.Server.ReplyTrees

/-! # What the pages show

What `app.js` reads of an answer, from its bytes on. The numbers that `loadDashboard` computes
from two answers are those that `handleGetDashboard` writes into a third one.
-/
namespace SmartParking.Server
open Foundation Foundation.JsonText Foundation.JsonNumber Foundation.ListMaps ParkingSystem
open Foundation.JsonString (readChars IsChars IsRaw isChars_raw)

/-- A member of an object. Of two members with one key the last one counts. -/
def field (t : Tree) (key : String) : Option Tree :=
  match t with
  | .object members =>
    (members.reverse.find? fun m => readChars m.1 == some ((ascii key).map UInt8.toNat)).map Prod.snd
  | _ => none

def integerField (t : Tree) (key : String) : Option ℤ :=
  match field t key with
  | some (.number token) => integerValue token
  | _ => none

def itemsField (t : Tree) (key : String) : Option (List Tree) :=
  match field t key with
  | some (.array items) => some items
  | _ => none

def readZone (zone : Tree) : ZoneData :=
  ⟨integerField zone "capacity", integerField zone "totalSlots", integerField zone "occupiedSlots"⟩

/-- `Array.isArray(zonesData) ? zonesData : (zonesData?.zones || [])`. -/
def readZones : Tree → ZonesData
  | .array items => .array (items.map readZone)
  | zonesData => .object ((itemsField zonesData "zones").map (·.map readZone))

/-- The status of a request, byte by byte. -/
def readStatus (request : Tree) : String :=
  match field request "status" with
  | some (.string body) => String.ofList (((readChars body).getD []).map Char.ofNat)
  | _ => ""

/-- `Array.isArray(data) ? data : (data?.key || [])`. -/
def readList (data : Tree) (key : String) : List Tree :=
  match data with
  | .array items => items
  | data => (itemsField data key).getD []

/-- Keys that are written as they are read, and are told apart. -/
def PlainKeys (keys : List (List UInt8)) : Prop := keys.Nodup ∧ ∀ key ∈ keys, ∀ b ∈ key, IsRaw b

instance (keys : List (List UInt8)) : Decidable (PlainKeys keys) := instDecidableAnd

section Fields
variable {members : List (List UInt8 × Tree)} {key : String} {t : Tree}

theorem PlainKeys.eq_iff (h : PlainKeys (members.map Prod.fst)) {m : List UInt8 × Tree} (hm : m ∈ members)
    (text : List UInt8) : readChars m.1 = some (text.map UInt8.toNat) ↔ m.1 = text := by
  have hraw := h.2 m.1 (List.mem_map_of_mem hm)
  have hinjective : Function.Injective UInt8.toNat := fun _ _ heq => UInt8.toNat_inj.mp heq
  rw [(isChars_raw hraw).readChars, Option.some_inj, (List.map_injective_iff.mpr hinjective).eq_iff]

theorem field_of_mem (h : PlainKeys (members.map Prod.fst)) (hm : (ascii key, t) ∈ members) :
    field (.object members) key = some t := by
  rw [field]
  cases hfind : members.reverse.find? fun m => readChars m.1 == some ((ascii key).map UInt8.toNat) with
  | none =>
    have habsent := List.find?_eq_none.mp hfind (ascii key, t) (List.mem_reverse.mpr hm)
    simp [(h.eq_iff hm (ascii key)).mpr rfl] at habsent
  | some m =>
    have hmem : m ∈ members := List.mem_reverse.mp (List.mem_of_find?_eq_some hfind)
    have hkey : m.1 = ascii key := (h.eq_iff hmem (ascii key)).mp (by simpa using List.find?_some hfind)
    rw [List.inj_on_of_nodup_map h.1 hmem hm hkey, Option.map_some]

theorem field_of_absent (h : PlainKeys (members.map Prod.fst)) (habsent : ascii key ∉ members.map Prod.fst) :
    field (.object members) key = none := by
  rw [field, Option.map_eq_none_iff, List.find?_eq_none]
  intro m hm
  have hmem := List.mem_reverse.mp hm
  rw [beq_iff_eq, h.eq_iff hmem]
  intro hkey
  exact habsent (hkey ▸ List.mem_map_of_mem hmem)

theorem integerField_of_mem {n : ℤ} (h : PlainKeys (members.map Prod.fst)) (hm : (ascii key, integerTree n) ∈ members) :
    integerField (.object members) key = some n := by
  rw [integerField, field_of_mem h hm]
  exact integerValue_integerText n

theorem integerField_of_absent (h : PlainKeys (members.map Prod.fst)) (habsent : ascii key ∉ members.map Prod.fst) :
    integerField (.object members) key = none := by rw [integerField, field_of_absent h habsent]

end Fields

theorem itemsField_listing {key : String} (items : List Tree) (hkey : PlainKeys [ascii key]) :
    itemsField (.object [(ascii key, .array items)]) key = some items := by
  have hfield : field (.object [(ascii key, .array items)]) key = some (.array items) :=
    field_of_mem hkey List.mem_cons_self
  rw [itemsField, hfield]

theorem readList_listing {key : String} (items : List Tree) (hkey : PlainKeys [ascii key]) :
    readList (.object [(ascii key, .array items)]) key = items := by
  unfold readList
  dsimp only
  rw [itemsField_listing items hkey, Option.getD_some]

theorem readZone_entry (zoneId capacity occupiedSlots utilization : ℤ) :
    readZone (.object (entryMembers zoneId capacity occupiedSlots utilization)) =
      ⟨some capacity, none, some occupiedSlots⟩ := by
  have hkeys : PlainKeys ((entryMembers zoneId capacity occupiedSlots utilization).map Prod.fst) := by
    rw [entryMembers]
    simp only [List.map_cons, List.map_nil]
    decide
  have htotal : ascii "totalSlots" ∉ (entryMembers zoneId capacity occupiedSlots utilization).map Prod.fst := by
    rw [entryMembers]
    simp only [List.map_cons, List.map_nil]
    decide
  have hcapacity : integerField (.object (entryMembers zoneId capacity occupiedSlots utilization)) "capacity" =
      some capacity := integerField_of_mem hkeys (by simp [entryMembers])
  have hoccupied : integerField (.object (entryMembers zoneId capacity occupiedSlots utilization)) "occupiedSlots" =
      some occupiedSlots := integerField_of_mem hkeys (by simp [entryMembers])
  rw [readZone, hcapacity, hoccupied, integerField_of_absent hkeys htotal]

/-- The members of an entry that the page does not read have no say in what it reads. -/
theorem data_eq_readZone (entry : ZoneEntry) : entry.data = (entryTree entry).map readZone := by
  rw [ZoneEntry.data, entryTree]
  cases entry.capacity with
  | none => rfl
  | some capacity =>
    cases entry.occupiedSlots with
    | none => rfl
    | some occupiedSlots =>
      cases entry.utilization with
      | none => rfl
      | some utilization =>
        simp only [Option.bind_eq_bind, Option.bind_some, Option.map_some, readZone_entry]

/-- The page gets of the zone list what it was modelled to get. -/
theorem readZones_zonesTree (ps : ParkingSystem) : zonesData ps = (zonesTree ps).map readZones := by
  have hkey : PlainKeys [ascii "zones"] := by decide
  have hdata : (ps.zones.map zoneEntry).mapM ZoneEntry.data =
      ((ps.zones.map zoneEntry).mapM entryTree).map (List.map readZone) := by
    rw [← mapM_map_some, ← funext data_eq_readZone]
  rw [zonesData, handleGetZones, zonesTree]
  simp only [Option.bind_eq_bind, Option.bind_some, hdata]
  cases (ps.zones.map zoneEntry).mapM entryTree with
  | none => rfl
  | some items => simp only [Option.map_some, Option.bind_some, readZones, itemsField_listing items hkey]

/-- The zone list of a system whose slots can be counted is written. -/
theorem zonesText_of_le (ps : ParkingSystem) (h : (allSlots ps.zones).length ≤ 21000000) :
    ∃ body t, zonesText ps = some body ∧ Reads body t ∧ zonesData ps = some (readZones t) := by
  obtain ⟨answer, hanswer, -⟩ := loadDashboard_zonesData h
  have hdata := hanswer
  rw [readZones_zonesTree] at hanswer
  obtain ⟨t, htree, rfl⟩ := Option.map_eq_some_iff.mp hanswer
  have hbody : zonesText ps = some (write t) := by rw [zonesText_eq, htree, Option.map_some]
  exact ⟨write t, t, hbody, IsValue.reads (write_isValue (fits_zonesTree htree)), hdata⟩

section View
variable (view : ParkingRequest → Allocation) (charIsSigned : Bool)

theorem readList_requestsTree (ps : ParkingSystem) :
    readList (requestsTree view charIsSigned ps) "requests" = ps.requests.map (requestTree view charIsSigned) :=
  readList_listing _ (by decide)

/-- The members of a request that the pages tell vehicles and states by. -/
theorem field_requestTree (req : ParkingRequest) :
    field (requestTree view charIsSigned req) "vehicleId" =
        some (.string (jsonEscape charIsSigned (view req).licensePlate)) ∧
      field (requestTree view charIsSigned req) "status" = some (.string (statusText req.currentState)) := by
  have hkeys : PlainKeys [ascii "id", ascii "vehicleId", ascii "zoneId", ascii "slotNumber", ascii "status",
    ascii "timestamp"] := by decide
  rw [requestTree]
  exact ⟨field_of_mem hkeys (by simp), field_of_mem hkeys (by simp)⟩

/-- A request is active for the page when it is for the server. -/
theorem readStatus_requestTree (req : ParkingRequest) :
    (readStatus (requestTree view charIsSigned req) == "REQUESTED" ||
      readStatus (requestTree view charIsSigned req) == "ALLOCATED") =
    (req.currentState == .requested || req.currentState == .allocated) := by
  rw [readStatus, (field_requestTree view charIsSigned req).2]
  dsimp only
  rw [(isChars_statusText req.currentState).readChars, Option.getD_some]
  cases req.currentState <;> decide

/-- The page computes what the dashboard's answer has. -/
structure SameNumbers (stats : Stats) (dashboard : Tree) : Prop where
  totalZones : integerField dashboard "totalZones" = some (stats.totalZones : ℤ)
  occupiedSlots : integerField dashboard "occupiedSlots" = some stats.occupiedSlots
  activeRequests : integerField dashboard "activeRequests" = some (stats.activeRequests : ℤ)
  utilization : integerField dashboard "utilization" = some stats.utilization

theorem countP_readStatus (requests : List ParkingRequest) :
    ((requests.map (requestTree view charIsSigned)).map readStatus).countP
      (fun status => status == "REQUESTED" || status == "ALLOCATED") = requests.countP isActive := by
  simp only [List.map_map, List.countP_map, Function.comp_def, readStatus_requestTree]
  rfl

def statMembers (stats : Stats) : List (List UInt8 × Tree) :=
  [(ascii "totalZones", integerTree stats.totalZones), (ascii "occupiedSlots", integerTree stats.occupiedSlots),
    (ascii "activeRequests", integerTree stats.activeRequests), (ascii "utilization", integerTree stats.utilization)]

theorem sameNumbers_statMembers (stats : Stats) : SameNumbers stats (.object (statMembers stats)) := by
  have hkeys : PlainKeys ((statMembers stats).map Prod.fst) := by
    rw [statMembers]
    simp only [List.map_cons, List.map_nil]
    decide
  constructor <;> exact integerField_of_mem hkeys (by simp [statMembers])

/-- What the server puts into its dashboard is what the page would compute. -/
theorem dashboardMembers_stats {ps : ParkingSystem} {answer : ZonesData}
    (hslots : (allSlots ps.zones).length ≤ 21000000) (hzones : ps.zones.length < 2 ^ 31)
    (hrequests : ps.requests.length < 2 ^ 31) (hanswer : zonesData ps = some answer)
    {statuses : List String}
    (hstatuses : statuses.countP (fun status => status == "REQUESTED" || status == "ALLOCATED") =
      ps.requests.countP isActive) :
    (handleGetDashboard ps).body.bind dashboardMembers = some (statMembers (loadDashboard answer (some statuses))) := by
  obtain ⟨answer', hanswer', hshown⟩ := loadDashboard_zonesData hslots
  obtain rfl := Option.some.inj (hanswer.symm.trans hanswer')
  obtain ⟨htotal, hoccupied, hutilization⟩ := hshown (some statuses)
  have hactive : (loadDashboard answer (some statuses)).activeRequests = ps.requests.countP isActive := hstatuses
  rw [handleGetDashboard, foldlM_countZone_eq (by omega), foldlM_countActive hrequests, toInt_eq hzones, statMembers,
    htotal, hoccupied, hactive]
  simp only [Option.map_some, Option.bind_eq_bind, Option.bind_some, dashboardMembers, ← hutilization]

/-- The dashboard page shows the numbers of `handleGetDashboard`, from the bytes of the other
two answers. -/
theorem dashboard_shown (view : ParkingRequest → Allocation) (charIsSigned : Bool) (ps : ParkingSystem)
    (hslots : (allSlots ps.zones).length ≤ 21000000) (hzones : ps.zones.length < 2 ^ 31)
    (hrequests : ps.requests.length < 2 ^ 31) :
    ∃ zonesBody requestsBody dashboardBody zones requests dashboard,
      zonesText ps = some zonesBody ∧ requestsText view charIsSigned ps = some requestsBody ∧
      dashboardText ps = some dashboardBody ∧
      Reads zonesBody zones ∧ Reads requestsBody requests ∧ Reads dashboardBody dashboard ∧
      SameNumbers (loadDashboard (readZones zones) (some ((readList requests "requests").map readStatus)))
        dashboard := by
  obtain ⟨zonesBody, zones, hzonesText, hzonesReads, hzonesData⟩ := zonesText_of_le ps hslots
  obtain ⟨requestsBody, hrequestsText, hrequestsReads⟩ := reads_requestsText view charIsSigned ps
  have hmembers := dashboardMembers_stats hslots hzones hrequests hzonesData
    (countP_readStatus view charIsSigned ps.requests)
  have hdashboardText : dashboardText ps = some (spacedText (statMembers (loadDashboard (readZones zones)
      (some ((ps.requests.map (requestTree view charIsSigned)).map readStatus))))) := by
    rw [dashboardText_eq, hmembers, Option.map_some]
  obtain ⟨dashboard, members, hdashboard, hdashboardMembers, hdashboardReads⟩ := reads_dashboardText hdashboardText
  rw [hdashboard, Option.bind_some, hdashboardMembers] at hmembers
  obtain rfl := Option.some.inj hmembers
  refine ⟨_, _, _, _, _, _, hzonesText, hrequestsText, hdashboardText, hzonesReads, hrequestsReads, hdashboardReads, ?_⟩
  rw [readList_requestsTree]
  exact sameNumbers_statMembers _

/-- The dashboard of the server as it starts. -/
theorem dashboard_shown_seeded :
    ∃ zonesBody requestsBody dashboardBody zones requests dashboard,
      zonesText seeded = some zonesBody ∧
      requestsText (fun req => ⟨ascii req.vehicleId, 1, 1⟩) true seeded = some requestsBody ∧
      dashboardText seeded = some dashboardBody ∧
      Reads zonesBody zones ∧ Reads requestsBody requests ∧ Reads dashboardBody dashboard ∧
      SameNumbers (loadDashboard (readZones zones) (some ((readList requests "requests").map readStatus))) dashboard :=
  dashboard_shown (fun req => ⟨ascii req.vehicleId, 1, 1⟩) true seeded (by decide) (by decide) (by decide)

end View

end SmartParking.Server
