import SmartParking.System.Audit

/-! # Undoing the latest allocations

Between two rollbacks the system only grows: zones are added, requests are stored, and
every slot taken is on record. Rolling back as many records as slots were taken gives
back the state the calls started in, together with what they added to it.
-/
namespace SmartParking.ParkingSystem
open Foundation Foundation.UndoLog ParkingRequest

/-- The calls that undo nothing. -/
inductive Growth
  | addZone (zone : Zone)
  | requestParking (vehicleId : String) (requestedZoneId : ℤ)
  deriving DecidableEq, Repr

def Growth.toOp : Growth → Op
  | addZone zone => .addZone zone
  | requestParking vehicleId requestedZoneId => .requestParking vehicleId requestedZoneId

def Growth.zones : Growth → List Zone
  | addZone zone => [zone]
  | requestParking _ _ => []

def grow (s : ParkingSystem) (calls : List Growth) : ParkingSystem :=
  Runs.run step s (calls.map Growth.toOp)

def addedZones (calls : List Growth) : List Zone := calls.flatMap Growth.zones

/-- Whether the call is a `requestParking` that takes a slot. -/
def succeeds (s : ParkingSystem) : Growth → Bool
  | .addZone _ => false
  | .requestParking _ requestedZoneId => (s.slotFor requestedZoneId).isSome

def successes : ParkingSystem → List Growth → ℕ
  | _, [] => 0
  | s, call :: rest => (s.succeeds call).toNat + successes (s.step call.toOp) rest

theorem grow_snoc (s : ParkingSystem) (calls : List Growth) (call : Growth) :
    s.grow (calls ++ [call]) = (s.grow calls).step call.toOp := by
  simp only [grow, List.map_append, List.map_cons, List.map_nil, Runs.run_append, Runs.run_cons,
    Runs.run_nil]

theorem successes_snoc (s : ParkingSystem) (calls : List Growth) (call : Growth) :
    s.successes (calls ++ [call]) = s.successes calls + ((s.grow calls).succeeds call).toNat := by
  induction calls generalizing s with
  | nil => simp [successes, grow]
  | cons first rest ih =>
    rw [List.cons_append, successes, successes, ih, grow, grow, List.map_cons, Runs.run_cons]
    omega

def memory (ps : ParkingSystem) : List Zone × List ParkingRequest := (ps.zones, ps.requests)

def RecordValid (record : Record) (m : List Zone × List ParkingRequest) : Prop :=
  ∃ p i, record.slot = some p ∧ record.request = some i ∧ p.zone < m.1.length ∧ i < m.2.length

def Appends (e : List Zone × List ParkingRequest → List Zone × List ParkingRequest) : Prop :=
  ∃ zones requests, ∀ m, e m = (m.1 ++ zones, m.2 ++ requests)

theorem restore_eq (p : SlotRef) (b : Bool) (i : ℕ) (state : State) (m : List Zone × List ParkingRequest) :
    AllocationRecord.restore access ⟨some p, b, some i, state⟩ m =
      (SmartParking.setIsAvailable m.1 p b, SmartParking.setCurrentState m.2 i state) := rfl

/-- A recorded pointer keeps denoting the same slot or request when more are appended. -/
theorem restore_extensible : Extensible (AllocationRecord.restore access) RecordValid Appends where
  comm := by
    rintro e ⟨_, b, _, state⟩ m ⟨zones, requests, he⟩ ⟨p, i, rfl, rfl, hp, hi⟩
    rw [he, he, restore_eq, restore_eq]
    simp only [setIsAvailable_append hp, setCurrentState_append hi]
  valid_ext := by
    rintro e record m ⟨zones, requests, he⟩ ⟨p, i, hslot, hrequest, hp, hi⟩
    refine ⟨p, i, hslot, hrequest, ?_, ?_⟩
    · rw [he, List.length_append]
      omega
    · rw [he, List.length_append]
      omega
  valid_restore := by
    intro q record m
    obtain ⟨slot, b, request, state⟩ := record
    unfold RecordValid AllocationRecord.restore access
    cases slot <;> cases request <;> simp

theorem rollback_pushed {ps : ParkingSystem} {pushed log : List Record} (h : ps.history = pushed ++ log) :
    ps.rollback pushed.length =
      { ps with
        zones := (replay (AllocationRecord.restore access) pushed ps.memory).1
        requests := (replay (AllocationRecord.restore access) pushed ps.memory).2
        rollbackManager := ⟨log⟩ } := by
  obtain ⟨zones, vehicles, requests, ⟨history⟩⟩ := ps
  obtain rfl : history = pushed ++ log := h
  simp only [rollback, RollbackManager.rollback, RollbackManager.rollbackLoop_eq_unwind,
    Int.toNat_natCast, unwind_pushed, memory]

/-- What the calls left behind: the records they pushed, and the requests as they were
when these records were made. -/
structure Grown (s : ParkingSystem) (calls : List Growth) (pushed : List Record)
    (fresh : List ParkingRequest) : Prop where
  history : (s.grow calls).history = pushed ++ s.history
  pushed_length : pushed.length = s.successes calls
  fresh_length : fresh.length = s.successes calls
  fresh_state : ∀ request ∈ fresh, request.currentState = .requested
  recorded : Recorded (AllocationRecord.restore access) RecordValid Appends s.memory pushed
    (s.grow calls).memory (s.zones ++ addedZones calls, s.requests ++ fresh)

theorem addedZones_snoc (calls : List Growth) (call : Growth) :
    addedZones (calls ++ [call]) = addedZones calls ++ call.zones := by
  simp [addedZones]

theorem restore_requestParking_some {ps : ParkingSystem} (vehicleId : String) {requestedZoneId : ℤ}
    {p : SlotRef} (hslot : ps.slotFor requestedZoneId = some p) :
    AllocationRecord.restore access ⟨some p, true, some ps.requests.length, .requested⟩
        (ps.requestParking vehicleId requestedZoneId).2.memory =
      (ps.zones, ps.requests ++
        [⟨toInt ps.requests.length, vehicleId, requestedZoneId, 0, .requested⟩]) := by
  obtain ⟨slot, hp, havail⟩ := slotFor_sound hslot
  have hzones : SmartParking.setIsAvailable ps.zones p true = ps.zones := by
    have hself := setIsAvailable_self hp
    rwa [havail] at hself
  rw [requestParking_some hslot, memory, restore_eq]
  simp only [setIsAvailable_setIsAvailable, hzones, setCurrentState_last, ParkingRequest.setCurrentState]

theorem Grown.addZone {s : ParkingSystem} {calls : List Growth} {pushed : List Record}
    {fresh : List ParkingRequest} (h : Grown s calls pushed fresh) (zone : Zone) :
    Grown s (calls ++ [.addZone zone]) pushed fresh := by
  have hsuccesses : s.successes (calls ++ [.addZone zone]) = s.successes calls := successes_snoc _ _ _
  have hext := Recorded.extend (fun m => (m.1 ++ [zone], m.2)) ⟨[zone], [], by simp⟩ h.recorded
  constructor
  · rw [grow_snoc]
    exact h.history
  · rw [hsuccesses, h.pushed_length]
  · rw [hsuccesses, h.fresh_length]
  · exact h.fresh_state
  · rw [grow_snoc, addedZones_snoc, ← List.append_assoc]
    exact hext

theorem Grown.requestParking_none {s : ParkingSystem} {calls : List Growth} {pushed : List Record}
    {fresh : List ParkingRequest} (h : Grown s calls pushed fresh) (vehicleId : String)
    {requestedZoneId : ℤ} (hslot : (s.grow calls).slotFor requestedZoneId = none) :
    Grown s (calls ++ [.requestParking vehicleId requestedZoneId]) pushed fresh := by
  have hsuccesses : s.successes (calls ++ [.requestParking vehicleId requestedZoneId]) =
      s.successes calls := by simp [successes_snoc, succeeds, hslot]
  have hstep : s.grow (calls ++ [.requestParking vehicleId requestedZoneId]) = { s.grow calls with
      vehicles := registerVehicle (s.grow calls).vehicles vehicleId requestedZoneId } := by
    simp only [grow_snoc, Growth.toOp, step, ParkingSystem.requestParking_none hslot]
  constructor
  · rw [hstep]
    exact h.history
  · rw [hsuccesses, h.pushed_length]
  · rw [hsuccesses, h.fresh_length]
  · exact h.fresh_state
  · rw [hstep, addedZones_snoc, Growth.zones, List.append_nil]
    exact h.recorded

theorem Grown.requestParking_some {s : ParkingSystem} {calls : List Growth} {pushed : List Record}
    {fresh : List ParkingRequest} (h : Grown s calls pushed fresh) (vehicleId : String)
    {requestedZoneId : ℤ} {p : SlotRef} (hslot : (s.grow calls).slotFor requestedZoneId = some p) :
    Grown s (calls ++ [.requestParking vehicleId requestedZoneId])
      (⟨some p, true, some (s.grow calls).requests.length, .requested⟩ :: pushed)
      (fresh ++ [⟨toInt (s.grow calls).requests.length, vehicleId, requestedZoneId, 0, .requested⟩]) := by
  have hsuccesses : s.successes (calls ++ [.requestParking vehicleId requestedZoneId]) =
      s.successes calls + 1 := by simp [successes_snoc, succeeds, hslot]
  have hrestore := restore_requestParking_some vehicleId hslot
  have hstep : s.grow (calls ++ [.requestParking vehicleId requestedZoneId]) =
      ((s.grow calls).requestParking vehicleId requestedZoneId).2 := grow_snoc _ _ _
  constructor
  · rw [hstep, ParkingSystem.requestParking_some hslot, List.cons_append, ← h.history]
    rfl
  · rw [hsuccesses, List.length_cons, h.pushed_length]
  · rw [hsuccesses, List.length_append, h.fresh_length]
    rfl
  · intro request hrequest
    rcases List.mem_append.mp hrequest with hrequest | hrequest
    · exact h.fresh_state request hrequest
    · rw [List.mem_singleton.mp hrequest]
  · obtain ⟨slot, hp, -⟩ := slotFor_sound hslot
    have hvalid : RecordValid ⟨some p, true, some (s.grow calls).requests.length, .requested⟩
        ((s.grow calls).requestParking vehicleId requestedZoneId).2.memory := by
      refine ⟨p, _, rfl, rfl, ?_, ?_⟩
      · simpa [memory, ParkingSystem.requestParking_some hslot] using slotAt?_zone_lt hp
      · simp [memory, ParkingSystem.requestParking_some hslot]
    have happends : Appends (fun m => (m.1, m.2 ++
        [⟨toInt (s.grow calls).requests.length, vehicleId, requestedZoneId, 0, .requested⟩])) :=
      ⟨[], _, fun m => by rw [List.append_nil]⟩
    have hrecord := Recorded.record _ _ happends hvalid hrestore h.recorded
    rw [hstep, addedZones_snoc, Growth.zones, List.append_nil, ← List.append_assoc]
    exact hrecord

theorem exists_grown (s : ParkingSystem) (calls : List Growth) :
    ∃ pushed fresh, Grown s calls pushed fresh := by
  induction calls using List.reverseRecOn with
  | nil =>
    refine ⟨[], [], rfl, rfl, rfl, by simp, ?_⟩
    simpa [grow, addedZones, memory] using Recorded.start
  | append_singleton calls call ih =>
    obtain ⟨pushed, fresh, h⟩ := ih
    cases call with
    | addZone zone => exact ⟨_, _, h.addZone zone⟩
    | requestParking vehicleId requestedZoneId =>
      cases hslot : (s.grow calls).slotFor requestedZoneId with
      | none => exact ⟨_, _, h.requestParking_none vehicleId hslot⟩
      | some p => exact ⟨_, _, h.requestParking_some vehicleId hslot⟩

/-- All that growing and rolling back leaves: the zones as they were added, and the
new requests, none of which has its slot any more. -/
theorem rollback_grow (s : ParkingSystem) (calls : List Growth) :
    ∃ fresh, fresh.length = s.successes calls ∧ (∀ request ∈ fresh, request.currentState = .requested) ∧
      (s.grow calls).rollback (s.successes calls) =
        { s.grow calls with
          zones := s.zones ++ addedZones calls
          requests := s.requests ++ fresh
          rollbackManager := s.rollbackManager } := by
  obtain ⟨pushed, fresh, h⟩ := exists_grown s calls
  refine ⟨fresh, h.fresh_length, h.fresh_state, ?_⟩
  have hreplay := h.recorded.replay_eq restore_extensible
  rw [← h.pushed_length, rollback_pushed h.history, hreplay]
  rfl

/-- Rolling back as many allocations as the calls made undoes exactly these. -/
structure Undone (s : ParkingSystem) (calls : List Growth) (after : ParkingSystem) : Prop where
  old_slots : ∀ p, p.zone < s.zones.length → slotAt? after.zones p = slotAt? s.zones p
  new_slots : ∀ p, s.zones.length ≤ p.zone →
    slotAt? after.zones p = slotAt? (addedZones calls) { p with zone := p.zone - s.zones.length }
  history : after.history = s.history
  old_states : ∀ i < s.requests.length, stateAt? after.requests i = stateAt? s.requests i
  new_states : ∀ i, s.requests.length ≤ i → i < s.requests.length + s.successes calls →
    stateAt? after.requests i = some .requested
  no_more : after.requests.length = s.requests.length + s.successes calls

theorem rollback_undone (s : ParkingSystem) (calls : List Growth) :
    Undone s calls ((s.grow calls).rollback (s.successes calls)) := by
  obtain ⟨fresh, hlength, hstate, heq⟩ := rollback_grow s calls
  rw [heq]
  constructor
  · exact fun p hp => slotAt?_append_left hp _
  · exact fun p hp => slotAt?_append_right hp _
  · rfl
  · exact fun i hi => stateAt?_append_left hi _
  · intro i hle hlt
    have hi : i - s.requests.length < fresh.length := by omega
    simp only [stateAt?, List.getElem?_append_right hle, List.getElem?_eq_getElem hi, Option.map_some,
      hstate _ (List.getElem_mem hi)]
  · simp [hlength]

end SmartParking.ParkingSystem
