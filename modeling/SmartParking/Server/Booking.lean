import SmartParking.Server.Dashboard
import SmartParking.Server.RawRequests
import SmartParking.Server.ZoneAgreement

/-! # What the server has booked

The server adds zones and parks vehicles, but no route cancels or releases. So whatever it
is sent, every request it stores stays allocated and there is one taken slot for each. Its
two statistics, the dashboard and the analytics, count the same.
-/
namespace SmartParking
open Foundation Foundation.ListUpdate ParkingRequest ParkingSystem

namespace Server

def occupiedSlots (zones : List Zone) : ℕ := (allSlots zones).countP (!·.isAvailable)

theorem occupiedSlots_append (zones more : List Zone) :
    occupiedSlots (zones ++ more) = occupiedSlots zones + occupiedSlots more := by
  rw [occupiedSlots, allSlots, List.flatMap_append, List.countP_append]
  rfl

theorem occupiedSlots_singleton (zone : Zone) : occupiedSlots [zone] = zone.occupied := by
  rw [occupiedSlots, allSlots, List.flatMap_singleton]
  rfl

theorem occupiedSlots_cons (zone : Zone) (zones : List Zone) :
    occupiedSlots (zone :: zones) = zone.occupied + occupiedSlots zones := by
  rw [← occupiedSlots_singleton zone, ← occupiedSlots_append]
  rfl

/-- Taking a free slot makes one more occupied. -/
theorem occupiedSlots_take {zones : List Zone} {p : SlotRef} {slot : ParkingSlot}
    (h : slotAt? zones p = some slot) (havail : slot.isAvailable = true) :
    occupiedSlots (setIsAvailable zones p false) = occupiedSlots zones + 1 := by
  obtain ⟨zone, hzone, hslot⟩ := Option.bind_eq_some_iff.mp h
  obtain ⟨pre, post, hzones, hmodify⟩ := modify_split hzone
  have htaken := Zone.occupied_take hslot havail
  rw [setIsAvailable, hmodify, occupiedSlots_append, occupiedSlots_cons, htaken, hzones, occupiedSlots_append,
    occupiedSlots_cons]
  omega

/-- There is one taken slot for each stored request, and each is allocated. -/
structure Booked (ps : ParkingSystem) : Prop where
  taken : occupiedSlots ps.zones = ps.requests.length
  allocated : ∀ request ∈ ps.requests, request.currentState = .allocated

theorem Booked.requestParking {ps : ParkingSystem} (h : Booked ps) (vehicleId : String) (requestedZoneId : ℤ) :
    Booked (ps.requestParking vehicleId requestedZoneId).2 := by
  cases hslot : ps.slotFor requestedZoneId with
  | none =>
    rw [requestParking_none hslot]
    exact ⟨h.taken, h.allocated⟩
  | some p =>
    obtain ⟨slot, hget, havail⟩ := slotFor_sound hslot
    rw [requestParking_some hslot]
    constructor
    · have htaken := occupiedSlots_take hget havail
      dsimp only
      rw [htaken, h.taken, List.length_append, List.length_singleton]
    · intro request hrequest
      rcases List.mem_append.mp hrequest with hold | hnew
      · exact h.allocated request hold
      · rw [List.mem_singleton.mp hnew]

theorem Booked.serve {ps : ParkingSystem} (h : Booked ps) (post : Post) : Booked (serve ps post) := by
  rcases post with (_ | body) | (_ | body)
  · exact h
  · rw [serve_createZone]
    refine ⟨?_, h.allocated⟩
    rw [ParkingSystem.addZone, occupiedSlots_append, occupiedSlots_singleton, body.occupied_zone]
    exact h.taken
  · exact h
  · exact h.requestParking body.vehicleId (narrow body.requestedZoneId)

theorem Booked.receive {ps : ParkingSystem} (h : Booked ps) (lookup : Crow.Lookup) (u : ℤ) (raw : RawPost) :
    Booked (receive lookup u ps raw).2 := by
  rw [Server.receive]
  cases raw.post lookup u with
  | none => exact h
  | some post =>
    dsimp only
    rw [respond_snd]
    exact h.serve post

theorem booked_seeded : Booked seeded := ⟨by decide, by decide⟩

structure Utilization where
  totalRequests : ℕ
  successRate : ℤ
  averageDuration : ℤ
  deriving DecidableEq, Repr

def handleAnalyticsUtilization (ps : ParkingSystem) : Answer Utilization := ⟨200, some ⟨ps.requests.length, 92, 45⟩⟩

def isActive (req : ParkingRequest) : Bool := req.currentState == .requested || req.currentState == .allocated

/-- The requests still to come can be counted. -/
def HasActiveRoom (requests : List ParkingRequest) (activeRequests : ℤ) : Prop :=
  0 ≤ activeRequests ∧ activeRequests + requests.length < 2 ^ 31

theorem countActive_of_hasActiveRoom (req : ParkingRequest) (requests : List ParkingRequest) (activeRequests : ℤ)
    (h : HasActiveRoom (req :: requests) activeRequests) :
    countActive activeRequests req = some (if isActive req then activeRequests + 1 else activeRequests) ∧
      HasActiveRoom requests (if isActive req then activeRequests + 1 else activeRequests) := by
  obtain ⟨hpos, hlt⟩ := h
  rw [List.length_cons, Nat.cast_succ] at hlt
  have hactive : (req.currentState == .requested || req.currentState == .allocated) = isActive req := rfl
  rw [countActive, hactive]
  cases isActive req with
  | false => exact ⟨rfl, hpos, by omega⟩
  | true =>
    have hvalue : signed (activeRequests + 1) = some (activeRequests + 1) := signed_of_lt (by omega) (by omega)
    exact ⟨hvalue, by omega, by omega⟩

theorem foldl_active (requests : List ParkingRequest) (activeRequests : ℤ) :
    requests.foldl (fun n req => if isActive req then n + 1 else n) activeRequests =
      activeRequests + requests.countP isActive := by
  induction requests generalizing activeRequests with
  | nil => simp
  | cons req requests ih =>
    rw [List.foldl_cons, ih, List.countP_cons]
    split
    · push_cast
      omega
    · omega

theorem foldlM_countActive {requests : List ParkingRequest} (h : requests.length < 2 ^ 31) :
    requests.foldlM countActive 0 = some (requests.countP isActive : ℤ) := by
  have hroom : HasActiveRoom requests 0 := ⟨Int.le_refl 0, by omega⟩
  rw [CheckedLoop.foldlM_of_fits countActive_of_hasActiveRoom hroom, foldl_active, zero_add]

/-- The statistics of a booked system whose slots can be counted. -/
theorem Booked.statistics {ps : ParkingSystem} (h : Booked ps) (hslots : (allSlots ps.zones).length < 2 ^ 31) :
    ∃ dashboard utilization, handleGetDashboard ps = ⟨200, some dashboard⟩ ∧
      handleAnalyticsUtilization ps = ⟨200, some utilization⟩ ∧
      dashboard.occupiedSlots = some (utilization.totalRequests : ℤ) ∧
      dashboard.activeRequests = some (utilization.totalRequests : ℤ) := by
  have hle : (allSlots ps.zones).countP (!·.isAvailable) ≤ (allSlots ps.zones).length := List.countP_le_length
  have htaken : (allSlots ps.zones).countP (!·.isAvailable) = ps.requests.length := h.taken
  have hall : ∀ req ∈ ps.requests, isActive req = true := fun req hreq => by
    rw [isActive, h.allocated req hreq]
    rfl
  have hactive : ps.requests.foldlM countActive 0 = some (ps.requests.length : ℤ) := by
    rw [foldlM_countActive (by omega), List.countP_eq_length.mpr hall]
  refine ⟨_, _, rfl, rfl, ?_, hactive⟩
  dsimp only
  rw [foldlM_countZone_eq hslots, htaken]
  rfl

end Server

end SmartParking
