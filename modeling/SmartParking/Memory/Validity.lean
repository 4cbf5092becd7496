import SmartParking.Memory.Pointers
import SmartParking.System.Audit
import Mathlib.Data.List.Forall2

/-! # When the recorded pointers are valid

A run is observed through one history variable, the slot and the request each record
on the stack was made for. Slots stay where their zone was copied to, so the recorded
slot pointers never dangle; requests move whenever their vector has to grow.
-/
namespace SmartParking.Memory
open Foundation Foundation.Buffer ParkingRequest
open ParkingSystem (Op registerVehicle slotFor_sound)

variable {policy : GrowthPolicy} {ms ms' : System} {zones : Vec Zone} {requests : Vec ParkingRequest}

/-- The pointer leads into the buffer its area uses now. -/
def SlotPtr.Live (ptr : SlotPtr) (zones : Vec Zone) : Prop :=
  ∃ area, areaAt? zones ptr.zone ptr.area = some area ∧ ptr.ref.Live area.slots

theorem areaAt?_setIsAvailable (zones : Vec Zone) (ptr : SlotPtr) (b : Bool) (z a : ℕ) :
    areaAt? (setIsAvailable zones ptr b) z a = (areaAt? zones z a).map (fun area =>
      if ptr.zone = z ∧ ptr.area = a then { area with slots := area.slots.write ptr.ref (·.setIsAvailable b) }
      else area) := by
  simp only [areaAt?, setIsAvailable, Vec.items_modify, List.getElem?_modify]
  cases zones.items[z]? with
  | none => rfl
  | some zone =>
    by_cases hz : ptr.zone = z
    · simp only [hz, Option.map_eq_map, Option.map_some, Option.bind_some, if_true,
        Zone.setIsAvailable, Vec.items_modify, List.getElem?_modify, true_and]
    · simp [hz]

@[simp] theorem live_setIsAvailable (zones : Vec Zone) (ptr q : SlotPtr) (b : Bool) :
    q.Live (setIsAvailable zones ptr b) ↔ q.Live zones := by
  simp only [SlotPtr.Live, areaAt?_setIsAvailable]
  cases areaAt? zones q.zone q.area with
  | none => simp
  | some area => by_cases h : ptr.zone = q.zone ∧ ptr.area = q.area <;> simp [h]

/-- A zone that is added, and the move of the zones before it, disturb no slot pointer. -/
theorem live_pushZone {ptr : SlotPtr} (h : ptr.Live zones) (zone : Zone) : ptr.Live (zones.push policy zone) := by
  obtain ⟨area, harea, hlive⟩ := h
  refine ⟨area, ?_, hlive⟩
  obtain ⟨z, hz, ha⟩ := Option.bind_eq_some_iff.mp harea
  have hlt := (List.getElem?_eq_some_iff.mp hz).1
  rw [areaAt?, Vec.items_push, List.getElem?_append_left hlt]
  exact harea

theorem slotPtr_of_slotFor {requestedZoneId : ℤ} {p : SlotRef} (h : ms.erase.slotFor requestedZoneId = some p) :
    ∃ ptr, slotPtr ms.zones p = some ptr ∧ ptr.Live ms.zones ∧ ptr.erase = p ∧
      getIsAvailable ms.zones ptr = true := by
  obtain ⟨slot, hslot, havail⟩ := slotFor_sound h
  rw [System.erase, slotAt?_erase] at hslot
  obtain ⟨area, harea, hitem⟩ := Option.bind_eq_some_iff.mp hslot
  have hlt := (List.getElem?_eq_some_iff.mp hitem).1
  refine ⟨⟨p.zone, p.area, area.slots.ref p.slot⟩, ?_, ⟨area, harea, rfl, hlt⟩, rfl, ?_⟩
  · simp [slotPtr, harea]
  · simp [getIsAvailable, harea, Vec.read, Vec.ref, hitem, havail]

namespace System

theorem requestParking_none {vehicleId : String} {requestedZoneId : ℤ}
    (h : ms.erase.slotFor requestedZoneId = none) :
    ms.requestParking policy vehicleId requestedZoneId =
      (-1, { ms with vehicles := registerVehicle ms.vehicles vehicleId requestedZoneId }) := by
  unfold requestParking
  by_cases hz : ms.zones.items.isEmpty
  · simp only [hz, if_true]
  · have h' : ({ ms with vehicles := registerVehicle ms.vehicles vehicleId requestedZoneId } :
        System).erase.slotFor requestedZoneId = none := h
    simp only [hz, h', Option.bind_none]
    rfl

theorem requestParking_some {vehicleId : String} {requestedZoneId : ℤ} {p : SlotRef} {ptr : SlotPtr}
    (h : ms.erase.slotFor requestedZoneId = some p) (hptr : slotPtr ms.zones p = some ptr)
    (havail : getIsAvailable ms.zones ptr = true) :
    ms.requestParking policy vehicleId requestedZoneId =
      (toInt ms.requests.items.length,
        { zones := setIsAvailable ms.zones ptr false
          vehicles := registerVehicle ms.vehicles vehicleId requestedZoneId
          requests := ms.requests.push policy
            ⟨toInt ms.requests.items.length, vehicleId, requestedZoneId, 0, .allocated⟩
          rollbackManager := ⟨⟨some ptr, true, some (ms.requests.push policy
            ⟨toInt ms.requests.items.length, vehicleId, requestedZoneId, 0, .allocated⟩).backRef,
            .requested⟩ :: ms.history⟩ }) := by
  have hz : ms.zones.items.isEmpty = false := by
    cases hzones : ms.zones.items with
    | nil => simp [slotPtr, areaAt?, hzones] at hptr
    | cons => rfl
  have h' : ({ ms with vehicles := registerVehicle ms.vehicles vehicleId requestedZoneId } :
      System).erase.slotFor requestedZoneId = some p := h
  unfold requestParking
  simp only [hz, h', Option.bind_some, hptr, havail]
  simp [RollbackManager.recordAllocation, changeState, isValid, history, Except.toOption,
    ParkingRequest.setCurrentState]

theorem rollback_one_nil (h : ms.history = []) : ms.rollback 1 = ms := by
  obtain ⟨zones, vehicles, requests, ⟨history⟩⟩ := ms
  obtain rfl : history = [] := h
  rw [rollback, RollbackManager.rollback_one_nil]

theorem rollback_one_cons {record : AllocationRecord SlotPtr Ref} {rest : List (AllocationRecord SlotPtr Ref)}
    (h : ms.history = record :: rest) :
    ms.rollback 1 =
      { ms with
        zones := (record.restore access (ms.zones, ms.requests)).1
        requests := (record.restore access (ms.zones, ms.requests)).2
        rollbackManager := ⟨rest⟩ } := by
  obtain ⟨zones, vehicles, requests, ⟨history⟩⟩ := ms
  obtain rfl : history = record :: rest := h
  rw [rollback, RollbackManager.rollback_one_cons]

end System

@[simp] theorem live_restore_slot (record : AllocationRecord SlotPtr Ref) (m : Vec Zone × Vec ParkingRequest)
    (ptr : SlotPtr) : ptr.Live (record.restore access m).1 ↔ ptr.Live m.1 := by
  unfold AllocationRecord.restore access
  cases record.slot <;> cases record.request <;> simp

@[simp] theorem live_restore_request (record : AllocationRecord SlotPtr Ref)
    (m : Vec Zone × Vec ParkingRequest) (ref : Ref) : ref.Live (record.restore access m).2 ↔ ref.Live m.2 := by
  unfold AllocationRecord.restore access
  cases record.slot <;> cases record.request <;> simp

/-- The step may pop records, and moves nothing that a pointer leads to. -/
structure Keeps (ms ms' : System) : Prop where
  history : ∃ k, ms'.history = ms.history.drop k
  slots : ∀ ptr : SlotPtr, ptr.Live ms.zones → ptr.Live ms'.zones
  requests : ∀ ref : Ref, ref.Live ms.requests → ref.Live ms'.requests

theorem keeps_refl (ms : System) : Keeps ms ms := ⟨⟨0, rfl⟩, fun _ h => h, fun _ h => h⟩

theorem keeps_rollback_one (ms : System) : Keeps ms (ms.rollback 1) := by
  cases h : ms.history with
  | nil =>
    rw [System.rollback_one_nil h]
    exact keeps_refl ms
  | cons record rest =>
    rw [System.rollback_one_cons h]
    refine ⟨⟨1, ?_⟩, ?_, ?_⟩
    · rw [h]
      rfl
    · exact fun ptr hptr => (live_restore_slot record _ ptr).mpr hptr
    · exact fun ref href => (live_restore_request record _ ref).mpr href

theorem keeps_closeRequest (refuses : State → Bool) (newState : State) (ms : System) (requestId : ℤ) :
    Keeps ms (ms.closeRequest refuses newState requestId).2 := by
  unfold System.closeRequest
  split
  · exact keeps_refl ms
  · split
    · exact keeps_refl ms
    · split
      · exact keeps_refl ms
      · rename_i request _
        have h := keeps_rollback_one { ms with requests := ms.requests.set requestId.toNat request }
        exact ⟨h.history, h.slots, fun ref href => h.requests ref (Vec.live_set.mpr href)⟩

/-- A system with, for each record on the stack, the slot and the request it was made for. -/
structure Tracked where
  system : System
  owners : List (SlotRef × ℕ)
  deriving DecidableEq, Repr

namespace Tracked

def new : Tracked := ⟨System.new, []⟩

def step (policy : GrowthPolicy) (t : Tracked) (op : Op) : Tracked where
  system := t.system.step policy op
  owners := match op with
    | .requestParking _ requestedZoneId =>
      ((t.system.erase.slotFor requestedZoneId).map (·, t.system.requests.items.length)).toList ++ t.owners
    | _ => t.owners.drop (t.owners.length - (t.system.step policy op).history.length)

def run (policy : GrowthPolicy) (ops : List Op) : Tracked := Runs.run (step policy) new ops

variable {t : Tracked}

/-- The record holds a live pointer to the slot it was made for. -/
def SlotPoints (zones : Vec Zone) (record : AllocationRecord SlotPtr Ref) (owner : SlotRef × ℕ) : Prop :=
  ∃ ptr, record.slot = some ptr ∧ ptr.Live zones ∧ ptr.erase = owner.1

def RequestPoints (requests : Vec ParkingRequest) (record : AllocationRecord SlotPtr Ref)
    (owner : SlotRef × ℕ) : Prop :=
  ∃ ref, record.request = some ref ∧ ref.Live requests ∧ ref.index = owner.2

def SlotsValid (t : Tracked) : Prop := List.Forall₂ (SlotPoints t.system.zones) t.system.history t.owners

def RequestsValid (t : Tracked) : Prop :=
  List.Forall₂ (RequestPoints t.system.requests) t.system.history t.owners

/-- Every record holds live pointers to the slot and the request it was made for. -/
def Valid (t : Tracked) : Prop := SlotsValid t ∧ RequestsValid t

theorem forall₂_kept {R R' : AllocationRecord SlotPtr Ref → SlotRef × ℕ → Prop}
    {history history' : List (AllocationRecord SlotPtr Ref)} {owners : List (SlotRef × ℕ)}
    (h : List.Forall₂ R history owners) (himp : ∀ record owner, R record owner → R' record owner) {k : ℕ}
    (hk : history' = history.drop k) :
    List.Forall₂ R' history' (owners.drop (owners.length - history'.length)) := by
  have hlength := h.length_eq
  have hdrop : owners.drop (owners.length - history'.length) = owners.drop k := by
    rw [hk, List.length_drop, hlength]
    by_cases hle : k ≤ owners.length
    · rw [Nat.sub_sub_self hle]
    · rw [List.drop_of_length_le (by omega), List.drop_of_length_le (by omega)]
  rw [hdrop, hk]
  exact List.forall₂_drop k (h.imp himp)

theorem SlotPoints.mono {record : AllocationRecord SlotPtr Ref} {owner : SlotRef × ℕ} {zones zones' : Vec Zone}
    (hlive : ∀ ptr : SlotPtr, ptr.Live zones → ptr.Live zones') (h : SlotPoints zones record owner) :
    SlotPoints zones' record owner := by
  obtain ⟨ptr, hslot, hptr, howner⟩ := h
  exact ⟨ptr, hslot, hlive ptr hptr, howner⟩

theorem RequestPoints.mono {record : AllocationRecord SlotPtr Ref} {owner : SlotRef × ℕ}
    {requests requests' : Vec ParkingRequest} (hlive : ∀ ref : Ref, ref.Live requests → ref.Live requests')
    (h : RequestPoints requests record owner) : RequestPoints requests' record owner := by
  obtain ⟨ref, hrequest, href, howner⟩ := h
  exact ⟨ref, hrequest, hlive ref href, howner⟩

/-- The step is a `requestParking` that takes a slot. -/
def Takes (ms : System) (op : Op) : Prop :=
  ∃ vehicleId requestedZoneId p, op = .requestParking vehicleId requestedZoneId ∧
    ms.erase.slotFor requestedZoneId = some p

theorem slotFor_eq_none {vehicleId : String} {requestedZoneId : ℤ}
    (h : ¬ Takes ms (.requestParking vehicleId requestedZoneId)) : ms.erase.slotFor requestedZoneId = none := by
  apply Option.eq_none_iff_forall_ne_some.mpr
  intro p hp
  exact h ⟨vehicleId, requestedZoneId, p, rfl, hp⟩

theorem keeps_step {op : Op} (hop : ¬ Takes ms op) : Keeps ms (ms.step policy op) := by
  cases op with
  | addZone zone => exact ⟨⟨0, rfl⟩, fun ptr h => live_pushZone h _, fun ref h => h⟩
  | requestParking vehicleId requestedZoneId =>
    rw [System.step, System.requestParking_none (slotFor_eq_none hop)]
    exact ⟨⟨0, rfl⟩, fun ptr h => h, fun ref h => h⟩
  | cancelRequest requestId => exact keeps_closeRequest _ _ ms requestId
  | releaseSlot requestId => exact keeps_closeRequest _ _ ms requestId

theorem step_owners_kept {op : Op} (hop : ¬ Takes t.system op)
    (hlength : t.owners.length = t.system.history.length) :
    (t.step policy op).owners = t.owners.drop (t.owners.length - (t.step policy op).system.history.length) := by
  cases op with
  | addZone zone => rfl
  | requestParking vehicleId requestedZoneId =>
    have hslot := slotFor_eq_none hop
    have hhistory : (t.step policy (.requestParking vehicleId requestedZoneId)).system.history =
        t.system.history := by
      simp only [step, System.step, System.requestParking_none hslot]
      rfl
    rw [hhistory, hlength, Nat.sub_self, List.drop_zero]
    simp only [step, hslot, Option.map_none, Option.toList_none, List.nil_append]
  | cancelRequest requestId => rfl
  | releaseSlot requestId => rfl

theorem forall₂_step {op : Op} {R R' : AllocationRecord SlotPtr Ref → SlotRef × ℕ → Prop}
    (hop : ¬ Takes t.system op) (h : List.Forall₂ R t.system.history t.owners)
    (himp : ∀ record owner, R record owner → R' record owner) :
    List.Forall₂ R' (t.step policy op).system.history (t.step policy op).owners := by
  have hkeeps : Keeps t.system (t.step policy op).system := keeps_step hop
  obtain ⟨k, hk⟩ := hkeeps.history
  rw [step_owners_kept hop h.length_eq.symm]
  exact forall₂_kept h himp hk

theorem step_requestParking_some (policy : GrowthPolicy) (vehicleId : String) {requestedZoneId : ℤ}
    {p : SlotRef} (hslot : t.system.erase.slotFor requestedZoneId = some p) :
    ∃ ptr request, ptr.Live t.system.zones ∧ ptr.erase = p ∧
      t.step policy (.requestParking vehicleId requestedZoneId) =
        { system :=
            { zones := setIsAvailable t.system.zones ptr false
              vehicles := registerVehicle t.system.vehicles vehicleId requestedZoneId
              requests := t.system.requests.push policy request
              rollbackManager := ⟨⟨some ptr, true, some (t.system.requests.push policy request).backRef,
                .requested⟩ :: t.system.history⟩ }
          owners := (p, t.system.requests.items.length) :: t.owners } := by
  obtain ⟨ptr, hptr, hlive, herase, havail⟩ := slotPtr_of_slotFor hslot
  refine ⟨ptr, ⟨toInt t.system.requests.items.length, vehicleId, requestedZoneId, 0, .allocated⟩,
    hlive, herase, ?_⟩
  simp only [step, System.step, System.requestParking_some hslot hptr havail, hslot, Option.map_some,
    Option.toList_some, List.singleton_append]

/-- Whether the request vector has to grow while records are on the stack. -/
def Reallocates (ms : System) (op : Op) : Prop := Takes ms op ∧ ms.requests.isFull ∧ ms.history ≠ []

theorem slotsValid_step (t : Tracked) (op : Op) (h : SlotsValid t) : SlotsValid (t.step policy op) := by
  by_cases hop : Takes t.system op
  · obtain ⟨vehicleId, requestedZoneId, p, rfl, hslot⟩ := hop
    obtain ⟨ptr, request, hlive, herase, hstep⟩ :=
      step_requestParking_some policy vehicleId hslot
    have hmono : ∀ q : SlotPtr, q.Live t.system.zones → q.Live (setIsAvailable t.system.zones ptr false) :=
      fun q hq => (live_setIsAvailable _ _ _ _).mpr hq
    rw [SlotsValid, hstep]
    refine List.Forall₂.cons ⟨ptr, rfl, hmono ptr hlive, herase⟩ ?_
    exact h.imp (fun record owner => SlotPoints.mono hmono)
  · exact forall₂_step hop h (fun record owner => SlotPoints.mono (keeps_step hop).slots)

/-- A push keeps the records valid exactly when the buffer has room or there are none. -/
theorem requestPoints_push_iff (policy : GrowthPolicy) {requests : Vec ParkingRequest}
    {history : List (AllocationRecord SlotPtr Ref)} {owners : List (SlotRef × ℕ)}
    (h : List.Forall₂ (RequestPoints requests) history owners) (request : ParkingRequest) :
    List.Forall₂ (RequestPoints (requests.push policy request)) history owners ↔
      (requests.isFull → history = []) := by
  cases h with
  | nil => simp
  | cons hhead hrest =>
    constructor
    · intro hpushed hfull
      obtain ⟨ref, hrequest, href, -⟩ := hhead
      obtain ⟨ref', hrequest', href', -⟩ := (List.forall₂_cons.mp hpushed).1
      obtain rfl : ref = ref' := Option.some.inj (hrequest.symm.trans hrequest')
      exact absurd hfull ((Vec.live_push_iff href request).mp href')
    · intro hroom
      have hfull : ¬ requests.isFull := by
        intro hfull
        have hnil := hroom hfull
        contradiction
      have hmono : ∀ ref : Ref, ref.Live requests → ref.Live (requests.push policy request) :=
        fun ref href => (Vec.live_push_iff href request).mpr hfull
      exact (List.Forall₂.cons hhead hrest).imp (fun record owner => RequestPoints.mono hmono)

/-- The request pointers stay valid exactly when the step does not reallocate. -/
theorem requestsValid_step_iff (policy : GrowthPolicy) (t : Tracked) (op : Op) (h : RequestsValid t) :
    RequestsValid (t.step policy op) ↔ ¬ Reallocates t.system op := by
  by_cases hop : Takes t.system op
  · obtain ⟨vehicleId, requestedZoneId, p, rfl, hslot⟩ := id hop
    obtain ⟨ptr, request, hlive, herase, hstep⟩ := step_requestParking_some policy vehicleId hslot
    have hnew : RequestPoints (t.system.requests.push policy request)
        ⟨some ptr, true, some (t.system.requests.push policy request).backRef, .requested⟩
        (p, t.system.requests.items.length) :=
      ⟨_, rfl, Vec.live_backRef_push _ _, Vec.backRef_push_index _ _⟩
    have hold := requestPoints_push_iff policy h request
    simp only [Reallocates, hop, true_and, not_and, not_not]
    rw [RequestsValid, hstep]
    constructor
    · intro hvalid
      exact hold.mp (List.forall₂_cons.mp hvalid).2
    · intro hroom
      exact List.Forall₂.cons hnew (hold.mpr hroom)
  · have hkept : RequestsValid (t.step policy op) :=
      forall₂_step hop h (fun record owner => RequestPoints.mono (keeps_step hop).requests)
    exact iff_of_true hkept (fun hreallocates => hop hreallocates.1)

theorem slotsValid_new : SlotsValid new := List.Forall₂.nil

theorem requestsValid_new : RequestsValid new := List.Forall₂.nil

/-- No run makes a recorded slot pointer dangle. -/
theorem run_slotsValid (policy : GrowthPolicy) (ops : List Op) : SlotsValid (run policy ops) :=
  Runs.run_invariant (step policy) (fun t op (_ : True) h => slotsValid_step t op h)
    (fun _ _ => trivial) slotsValid_new

/-- Every record of every state of a run holds valid pointers exactly when the request
vector never grows while a record is on the stack. -/
theorem run_valid_iff (policy : GrowthPolicy) (ops : List Op) :
    Runs.EveryState (step policy) Valid new ops ↔
      Runs.EveryStep (step policy) (fun t op => ¬ Reallocates t.system op) new ops := by
  refine Runs.everyState_iff_everyStep (step policy) (fun t op (_ : True) h => slotsValid_step t op h) ?_
    (fun _ _ => trivial) slotsValid_new ⟨slotsValid_new, requestsValid_new⟩
  intro t op _ hslots hvalid
  have hslots' : SlotsValid (t.step policy op) := slotsValid_step t op hslots
  have hrequests := requestsValid_step_iff policy t op hvalid.2
  exact ⟨fun h => hrequests.mp h.2, fun h => ⟨hslots', hrequests.mpr h⟩⟩

/-- The second request of two moves the first one, and its record keeps the old address. -/
theorem not_valid_twoParked : ¬ Runs.EveryState (step doubling) Valid new Audit.twoParked := by
  intro hvalid
  have hlast := (hvalid _ (List.prefix_refl _)).2
  have hhistory : (Runs.run (step doubling) new Audit.twoParked).system.history =
      [⟨some ⟨0, 0, ⟨0, 1⟩⟩, true, some ⟨2, 1⟩, .requested⟩,
        ⟨some ⟨0, 0, ⟨0, 0⟩⟩, true, some ⟨1, 0⟩, .requested⟩] := by decide
  have howners : (Runs.run (step doubling) new Audit.twoParked).owners = [(⟨0, 0, 1⟩, 1), (⟨0, 0, 0⟩, 0)] := by
    decide
  have hgeneration : (Runs.run (step doubling) new Audit.twoParked).system.requests.generation = 2 := by
    decide
  rw [RequestsValid, hhistory, howners] at hlast
  obtain ⟨ref, hrequest, href, -⟩ := (List.forall₂_cons.mp (List.forall₂_cons.mp hlast).2).1
  obtain rfl : (⟨1, 0⟩ : Ref) = ref := Option.some.inj hrequest
  have hstale := href.1
  rw [hgeneration] at hstale
  contradiction

end Tracked

end SmartParking.Memory
