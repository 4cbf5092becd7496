import SmartParking.Core.Layout
import SmartParking.Foundation.FirstByKey

/-! # The stored data as a log of the calls

A run is read as a log: the zones passed to `addZone`, and the calls of
`requestParking` with what each answered. The zones, the requests and the vehicles
of the system are that log, up to slot availability and request states, as a recorded
pointer is taken to denote what it was taken from.
-/
namespace SmartParking
open Foundation Foundation.FirstByKey ParkingRequest ParkingSystem

structure Call where
  vehicleId : String
  requestedZoneId : ℤ
  answer : ℤ
  deriving DecidableEq, Repr

def Call.succeeded (call : Call) : Bool := call.answer != -1

def Call.label (call : Call) : ℤ × String × ℤ := (call.answer, call.vehicleId, call.requestedZoneId)

def Call.vehicle (call : Call) : Vehicle := ⟨call.vehicleId, call.requestedZoneId⟩

def callOf (ps : ParkingSystem) : Op → Option Call
  | .requestParking vehicleId requestedZoneId =>
    some ⟨vehicleId, requestedZoneId, (ps.requestParking vehicleId requestedZoneId).1⟩
  | _ => none

/-- The calls of `requestParking` of a run, in order. -/
def calls (ps : ParkingSystem) : List Op → List Call
  | [] => []
  | op :: ops => (callOf ps op).toList ++ calls (ps.step op) ops

def addedZone : Op → Option Zone
  | .addZone zone => some zone
  | _ => none

/-- The system stores exactly what the log says. -/
structure Logged (ps : ParkingSystem) (added : List Zone) (log : List Call) : Prop where
  zones : ps.zones.map Zone.layout = added.map Zone.layout
  requests : ps.requests.map label = (log.filter Call.succeeded).map Call.label
  requestIds : ∀ (i : ℕ) (request : ParkingRequest), ps.requests[i]? = some request → request.requestId = i
  vehicles : ps.vehicles = firstBy Vehicle.vehicleId (log.map Call.vehicle)

theorem logged_new : Logged ParkingSystem.new [] [] := ⟨rfl, rfl, fun _ _ h => by simp [new] at h, rfl⟩

variable {ps after : ParkingSystem} {added : List Zone} {log : List Call}

theorem Logged.sameLayout (h : Logged ps added log) (hsame : SameLayout ps after) : Logged after added log where
  zones := hsame.zones.trans h.zones
  requests := hsame.requests.trans h.requests
  requestIds := by
    intro i request hget
    have hlabel : (ps.requests.map label)[i]? = some request.label := by
      rw [← hsame.requests, List.getElem?_map, hget, Option.map_some]
    rw [List.getElem?_map] at hlabel
    obtain ⟨before, hbefore, heq⟩ := Option.map_eq_some_iff.mp hlabel
    have hid : before.requestId = request.requestId := congrArg Prod.fst heq
    rw [← hid]
    exact h.requestIds i before hbefore
  vehicles := hsame.vehicles.trans h.vehicles

theorem Logged.addZone (h : Logged ps added log) (zone : Zone) :
    Logged (ps.addZone zone) (added ++ [zone]) log where
  zones := by
    rw [ParkingSystem.addZone, List.map_append, List.map_append, h.zones]
  requests := h.requests
  requestIds := h.requestIds
  vehicles := h.vehicles

theorem Logged.registerVehicle (h : Logged ps added log) (call : Call) :
    registerVehicle ps.vehicles call.vehicleId call.requestedZoneId =
      firstBy Vehicle.vehicleId ((log ++ [call]).map Call.vehicle) := by
  have hknown : ps.vehicles.any (·.vehicleId == call.vehicleId) = true ↔
      call.vehicleId ∈ (log.map Call.vehicle).map Vehicle.vehicleId := by
    rw [← mem_map_firstBy, ← h.vehicles, List.any_eq_true, List.mem_map]
    simp only [beq_iff_eq]
  rw [List.map_append, List.map_singleton, firstBy_concat, ParkingSystem.registerVehicle, ← h.vehicles]
  exact if_congr hknown rfl rfl

theorem Logged.requestParking_none (h : Logged ps added log) (vehicleId : String) {requestedZoneId : ℤ}
    (hslot : ps.slotFor requestedZoneId = none) :
    Logged (ps.requestParking vehicleId requestedZoneId).2 added
      (log ++ [⟨vehicleId, requestedZoneId, (ps.requestParking vehicleId requestedZoneId).1⟩]) := by
  rw [ParkingSystem.requestParking_none hslot]
  constructor
  · exact h.zones
  · have hfailed : Call.succeeded ⟨vehicleId, requestedZoneId, -1⟩ = false := rfl
    rw [List.filter_append, List.filter_singleton, hfailed]
    simpa using h.requests
  · exact h.requestIds
  · exact h.registerVehicle ⟨vehicleId, requestedZoneId, -1⟩

theorem Logged.requestParking_some (h : Logged ps added log) (vehicleId : String) {requestedZoneId : ℤ}
    {p : SlotRef} (hslot : ps.slotFor requestedZoneId = some p) (hlen : ps.requests.length < 2 ^ 31) :
    Logged (ps.requestParking vehicleId requestedZoneId).2 added
      (log ++ [⟨vehicleId, requestedZoneId, (ps.requestParking vehicleId requestedZoneId).1⟩]) := by
  rw [ParkingSystem.requestParking_some hslot, toInt_eq hlen]
  constructor
  · exact (map_layout_setIsAvailable ps.zones p false).trans h.zones
  · have hne : (ps.requests.length : ℤ) ≠ -1 := by omega
    have hsucceeded : Call.succeeded ⟨vehicleId, requestedZoneId, ps.requests.length⟩ = true :=
      bne_iff_ne.mpr hne
    rw [List.filter_append, List.filter_singleton, hsucceeded, List.map_append, List.map_append, h.requests]
    rfl
  · intro i request hget
    by_cases hi : i < ps.requests.length
    · rw [List.getElem?_append_left hi] at hget
      exact h.requestIds i request hget
    · have hlt := (List.getElem?_eq_some_iff.mp hget).1
      rw [List.length_append, List.length_singleton] at hlt
      obtain rfl : i = ps.requests.length := by omega
      rw [List.getElem?_concat_length] at hget
      rw [← Option.some.inj hget]
  · exact h.registerVehicle ⟨vehicleId, requestedZoneId, ps.requests.length⟩

theorem requests_length_le_step (ps : ParkingSystem) (op : Op) :
    ps.requests.length ≤ (ps.step op).requests.length := by
  cases op with
  | addZone zone => exact Nat.le_refl _
  | requestParking vehicleId requestedZoneId =>
    cases hslot : ps.slotFor requestedZoneId with
    | none => rw [step, ParkingSystem.requestParking_none hslot]
    | some p =>
      rw [step, ParkingSystem.requestParking_some hslot, List.length_append]
      omega
  | cancelRequest requestId =>
    have hlen := congrArg List.length (sameLayout_cancelRequest ps requestId).requests
    rw [List.length_map, List.length_map] at hlen
    exact hlen.ge
  | releaseSlot requestId =>
    have hlen := congrArg List.length (sameLayout_releaseSlot ps requestId).requests
    rw [List.length_map, List.length_map] at hlen
    exact hlen.ge

theorem requests_length_le_run (ps : ParkingSystem) (ops : List Op) :
    ps.requests.length ≤ (Runs.run step ps ops).requests.length := by
  induction ops generalizing ps with
  | nil => exact Nat.le_refl _
  | cons op ops ih => exact (requests_length_le_step ps op).trans (ih (ps.step op))

/-- One operation extends the log by what it added or called. -/
theorem Logged.step (h : Logged ps added log) (op : Op) (hlen : ps.requests.length < 2 ^ 31) :
    Logged (ps.step op) (added ++ (addedZone op).toList) (log ++ (callOf ps op).toList) := by
  cases op with
  | addZone zone =>
    have hadd : Logged (ps.step (.addZone zone)) (added ++ [zone]) log := h.addZone zone
    simpa only [addedZone, callOf, Option.toList_some, Option.toList_none, List.append_nil] using hadd
  | requestParking vehicleId requestedZoneId =>
    have hadded : added ++ (addedZone (.requestParking vehicleId requestedZoneId)).toList = added :=
      List.append_nil added
    rw [hadded]
    cases hslot : ps.slotFor requestedZoneId with
    | none => exact h.requestParking_none vehicleId hslot
    | some p => exact h.requestParking_some vehicleId hslot hlen
  | cancelRequest requestId =>
    have hsame : Logged (ps.step (.cancelRequest requestId)) added log :=
      h.sameLayout (sameLayout_cancelRequest ps requestId)
    simpa only [addedZone, callOf, Option.toList_none, List.append_nil] using hsame
  | releaseSlot requestId =>
    have hsame : Logged (ps.step (.releaseSlot requestId)) added log :=
      h.sameLayout (sameLayout_releaseSlot ps requestId)
    simpa only [addedZone, callOf, Option.toList_none, List.append_nil] using hsame

theorem Logged.run (h : Logged ps added log) (ops : List Op)
    (hlen : (Runs.run ParkingSystem.step ps ops).requests.length < 2 ^ 31) :
    Logged (Runs.run ParkingSystem.step ps ops) (added ++ ops.filterMap addedZone) (log ++ calls ps ops) := by
  induction ops generalizing ps added log with
  | nil => simpa [calls] using h
  | cons op ops ih =>
    have hps : ps.requests.length < 2 ^ 31 :=
      (requests_length_le_run ps (op :: ops)).trans_lt hlen
    have hrest := ih (h.step op hps) hlen
    rw [List.append_assoc, List.append_assoc] at hrest
    have hadded : (op :: ops).filterMap addedZone = (addedZone op).toList ++ ops.filterMap addedZone := by
      rw [List.filterMap_cons]
      cases addedZone op <;> rfl
    rw [hadded]
    exact hrest

/-- The stored data is the log of the run, and no cancellation or release touches it. -/
theorem run_logged (ops : List Op) (hlen : (ParkingSystem.run ops).requests.length < 2 ^ 31) :
    Logged (ParkingSystem.run ops) (ops.filterMap addedZone) (calls ParkingSystem.new ops) ∧
      ((ParkingSystem.run ops).vehicles.map Vehicle.vehicleId).Nodup ∧
      (ParkingSystem.run ops).vehicles.Sublist ((calls ParkingSystem.new ops).map Call.vehicle) ∧
      (∀ vehicle, vehicle ∈ (ParkingSystem.run ops).vehicles ↔
        ((calls ParkingSystem.new ops).map Call.vehicle).find?
          (fun v => v.vehicleId = vehicle.vehicleId) = some vehicle) ∧
      ∀ requestId,
        SameLayout (ParkingSystem.run ops) ((ParkingSystem.run ops).cancelRequest requestId).2 ∧
        SameLayout (ParkingSystem.run ops) ((ParkingSystem.run ops).releaseSlot requestId).2 := by
  have h := logged_new.run ops hlen
  rw [List.nil_append, List.nil_append] at h
  refine ⟨h, ?_, ?_, ?_, ?_⟩
  · exact h.vehicles ▸ nodup_firstBy Vehicle.vehicleId _
  · exact h.vehicles ▸ firstBy_sublist Vehicle.vehicleId _
  · intro vehicle
    have hvehicles : (ParkingSystem.run ops).vehicles = _ := h.vehicles
    rw [hvehicles, mem_firstBy]
  · intro requestId
    exact ⟨sameLayout_cancelRequest _ requestId, sameLayout_releaseSlot _ requestId⟩

/-- One slot, two vehicles: the second is turned away, the first one's request is cancelled. -/
def oneSlotRun : List Op :=
  [.addZone ⟨1, [⟨1, [.new 1 1]⟩]⟩, .requestParking "ALI-123" 1, .requestParking "SHZ-789" 2, .cancelRequest 0]

theorem run_logged_oneSlotRun :
    Logged (ParkingSystem.run oneSlotRun) (oneSlotRun.filterMap addedZone)
      (calls ParkingSystem.new oneSlotRun) := (run_logged oneSlotRun (by decide)).1

end SmartParking
