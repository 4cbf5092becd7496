import SmartParking.Memory.Validity

/-! # Valid pointers denote what they were taken from

As long as the record on top of the stack holds live pointers, the system with
pointers does what the system does in which a recorded pointer denotes its slot and
its request. So a run whose states are all valid is a run of that system.
-/
namespace SmartParking.Memory
open Foundation Foundation.Buffer Foundation.ListUpdate ParkingRequest
open ParkingSystem (Op Record)

variable {policy : GrowthPolicy} {ms : System} {zones : Vec Zone} {requests : Vec ParkingRequest}

/-- A write through a live slot pointer changes the flag of the slot it was taken from. -/
theorem erase_setIsAvailable {ptr : SlotPtr} (h : ptr.Live zones) (b : Bool) :
    (setIsAvailable zones ptr b).items.map Zone.erase =
      SmartParking.setIsAvailable (zones.items.map Zone.erase) ptr.erase b := by
  obtain ⟨area, harea, hlive⟩ := h
  obtain ⟨zone, hzone, harea⟩ := Option.bind_eq_some_iff.mp harea
  apply map_modify
  intro zone' hzone'
  obtain rfl : zone = zone' := Option.some.inj (hzone.symm.trans hzone')
  simp only [Zone.setIsAvailable, Zone.erase, SmartParking.Zone.modifySlot, Vec.items_modify]
  congr 1
  apply map_modify
  intro area' harea'
  obtain rfl : area = area' := Option.some.inj (harea.symm.trans harea')
  simp only [Area.erase, Vec.items_write hlive]
  rfl

def RecordLive (ms : System) (record : AllocationRecord SlotPtr Ref) : Prop :=
  ∃ ptr ref, record.slot = some ptr ∧ ptr.Live ms.zones ∧ record.request = some ref ∧ ref.Live ms.requests

def TopLive (ms : System) : Prop := ∀ record ∈ ms.history.head?, RecordLive ms record

theorem erase_rollback_one (h : TopLive ms) : (ms.rollback 1).erase = ms.erase.rollback 1 := by
  cases hhistory : ms.history with
  | nil =>
    have herase : ms.erase.history = [] := by
      rw [System.erase, ParkingSystem.history, hhistory, List.map_nil]
    rw [System.rollback_one_nil hhistory, ParkingSystem.rollback_one_nil _ herase]
  | cons record rest =>
    obtain ⟨ptr, ref, hslot, hptr, hrequest, href⟩ := h record (by simp [hhistory])
    obtain ⟨slot, b, request, state⟩ := record
    obtain rfl : slot = some ptr := hslot
    obtain rfl : request = some ref := hrequest
    have herase : ms.erase.history =
        ⟨some ptr.erase, b, some ref.index, state⟩ :: rest.map eraseRecord := by
      rw [System.erase, ParkingSystem.history, hhistory, List.map_cons]
      rfl
    rw [System.rollback_one_cons hhistory, ParkingSystem.rollback_one_cons _ herase]
    have hzones := erase_setIsAvailable hptr b
    have hrequests : (ms.requests.write ref (·.setCurrentState state)).items =
        ms.requests.items.modify ref.index (·.setCurrentState state) := Vec.items_write href
    simp only [System.erase, AllocationRecord.restore, access, hzones, hrequests]
    rfl

theorem erase_closeRequest (refuses : State → Bool) (newState : State) (h : TopLive ms) (requestId : ℤ) :
    (ms.closeRequest refuses newState requestId).2.erase =
      (ms.erase.closeRequest refuses newState requestId).2 := by
  unfold System.closeRequest ParkingSystem.closeRequest
  cases ms.erase.lookup requestId with
  | none => rfl
  | some request =>
    cases hr : refuses request.currentState with
    | true => simp [hr]
    | false =>
      cases hc : request.changeState newState with
      | error message => simp [hr, hc]
      | ok request' =>
        have htop : TopLive { ms with requests := ms.requests.set requestId.toNat request' } := by
          intro record hrecord
          obtain ⟨ptr, ref, hslot, hptr, hrequest, href⟩ := h record hrecord
          exact ⟨ptr, ref, hslot, hptr, hrequest, Vec.live_set.mpr href⟩
        have hrollback := erase_rollback_one htop
        simp only [hr, hc, Bool.false_eq_true, if_false]
        exact hrollback

theorem erase_step (h : TopLive ms) (op : Op) : (ms.step policy op).erase = ms.erase.step op := by
  cases op with
  | addZone zone =>
    simp only [System.step, System.addZone, System.erase, Vec.items_push, List.map_append, List.map_cons,
      List.map_nil, Zone.erase_copy]
    rfl
  | requestParking vehicleId requestedZoneId =>
    cases hslot : ms.erase.slotFor requestedZoneId with
    | none =>
      rw [System.step, System.requestParking_none hslot, ParkingSystem.step,
        ParkingSystem.requestParking_none hslot]
      rfl
    | some p =>
      obtain ⟨ptr, hptr, hlive, rfl, havail⟩ := slotPtr_of_slotFor hslot
      have hzones := erase_setIsAvailable hlive false
      rw [System.step, System.requestParking_some hslot hptr havail, ParkingSystem.step,
        ParkingSystem.requestParking_some hslot]
      simp only [System.erase, hzones, Vec.items_push, System.history, List.map_cons, eraseRecord,
        Option.map_some, Vec.backRef_push_index]
      rfl
  | cancelRequest requestId => exact erase_closeRequest _ _ h requestId
  | releaseSlot requestId => exact erase_closeRequest _ _ h requestId

theorem Tracked.Valid.topLive {t : Tracked} (h : t.Valid) : TopLive t.system := by
  intro record hrecord
  obtain ⟨rest, hhistory⟩ : ∃ rest, t.system.history = record :: rest := by
    cases hhistory : t.system.history with
    | nil => simp [hhistory] at hrecord
    | cons first rest =>
      rw [hhistory] at hrecord
      obtain rfl : first = record := Option.some.inj hrecord
      exact ⟨rest, rfl⟩
  obtain ⟨hslots, hrequests⟩ := h
  rw [Tracked.SlotsValid, hhistory] at hslots
  rw [Tracked.RequestsValid, hhistory] at hrequests
  obtain ⟨owner, owners, ⟨ptr, hslot, hptr, -⟩, -, howners⟩ := List.forall₂_cons_left_iff.mp hslots
  obtain ⟨owner', owners', ⟨ref, hrequest, href, -⟩, -, -⟩ := List.forall₂_cons_left_iff.mp hrequests
  exact ⟨ptr, ref, hslot, hptr, hrequest, href⟩

/-- A run of the system with pointers that stays valid is a run of the system in which
they denote what they were taken from. -/
theorem run_refines {ops : List Op} (h : Runs.EveryState (Tracked.step policy) Tracked.Valid Tracked.new ops) :
    (Tracked.run policy ops).system.erase = ParkingSystem.run ops := by
  have hstep : ∀ t op, Tracked.Valid t →
      (Tracked.step policy t op).system.erase = t.system.erase.step (id op) :=
    fun t op hvalid => erase_step hvalid.topLive op
  have hrun := Runs.run_simulation (Tracked.step policy) (fun t => t.system.erase) id hstep h
  rw [List.map_id] at hrun
  exact hrun

/-- The two records that are popped here are live, though the first two are not. -/
example : (Tracked.run doubling (Audit.fourParked ++ [.cancelRequest 2, .cancelRequest 3])).system.erase =
    ParkingSystem.run (Audit.fourParked ++ [.cancelRequest 2, .cancelRequest 3]) := by decide

end SmartParking.Memory
