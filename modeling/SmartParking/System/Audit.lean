import SmartParking.Core.ParkingSystem
import SmartParking.Foundation.Ledger

/-! # Audited runs and their ledger

A run is observed through two history variables: the zones as they were passed to
`addZone`, and for each stored request the slot that `requestParking` took for it.
The state of the system is then represented by a ledger whose holders are requests
and whose places are slots; its entries are the records of the rollback history. A recorded
pointer is taken to denote what it was taken from.
-/
namespace SmartParking
open Foundation ParkingRequest ParkingSystem

structure Audit where
  system : ParkingSystem
  added : List Zone
  assigned : List SlotRef
  deriving DecidableEq, Repr

def availability (zones : List Zone) (p : SlotRef) : Option Bool :=
  (slotAt? zones p).map (·.isAvailable)

def ParkingSystem.InState (ps : ParkingSystem) (i : ℕ) (states : List State) : Prop :=
  ∃ state ∈ states, stateAt? ps.requests i = some state

/-- `requestId` names a stored request in one of the given states. -/
def ParkingSystem.Names (ps : ParkingSystem) (requestId : ℤ) (states : List State) : Prop :=
  ∃ i : ℕ, requestId = i ∧ ps.InState i states

namespace Audit

def new : Audit := ⟨ParkingSystem.new, [], []⟩

def step (a : Audit) (op : Op) : Audit where
  system := a.system.step op
  added := match op with
    | .addZone zone => a.added ++ [zone]
    | _ => a.added
  assigned := match op with
    | .requestParking _ requestedZoneId => a.assigned ++ (a.system.slotFor requestedZoneId).toList
    | _ => a.assigned

def run (ops : List Op) : Audit := Runs.run step new ops

/-- The history variables do not influence the run. -/
theorem run_system (ops : List Op) : (run ops).system = ParkingSystem.run ops := by
  have hstep : ∀ a op, True → (step a op).system = ParkingSystem.step a.system (id op) := fun _ _ _ => rfl
  have hall : Runs.EveryState step (fun _ => True) new ops := fun _ _ => trivial
  have hrun := Runs.run_simulation step Audit.system id hstep hall
  rw [List.map_id] at hrun
  exact hrun

/-- One zone of two slots, and two vehicles that take them. -/
def twoParked : List Op :=
  [.addZone ⟨1, [⟨1, [.new 1 1, .new 2 1]⟩]⟩, .requestParking "ALI-123" 1, .requestParking "SHZ-789" 1]

/-- One zone of four slots, and four vehicles that take them. -/
def fourParked : List Op :=
  [.addZone ⟨1, [⟨1, [.new 1 1, .new 2 1, .new 3 1, .new 4 1]⟩]⟩, .requestParking "A" 1, .requestParking "B" 1,
    .requestParking "C" 1, .requestParking "D" 1]

def AssignedTo (a : Audit) (i : ℕ) (p : SlotRef) : Prop := a.assigned[i]? = some p

/-- The record `requestParking` makes when request `i` takes the slot `p`. -/
def recordOf : ℕ × SlotRef → Record
  | (i, p) => ⟨some p, true, some i, .requested⟩

structure Represents (a : Audit) (l : Ledger ℕ SlotRef) : Prop where
  history : a.system.history = l.entries.map recordOf
  assigned : ∀ {i p}, (i, p) ∈ l.entries → a.assigned[i]? = some p
  assigned_length : a.assigned.length = a.system.requests.length
  zones_length : a.system.zones.length = a.added.length
  taken : ∀ {p}, p ∈ l.places → ∃ slot, slotAt? a.added p = some slot ∧ slot.isAvailable = true ∧
    slotAt? a.system.zones p = some (slot.setIsAvailable false)
  free : ∀ {p}, p ∉ l.places → slotAt? a.system.zones p = slotAt? a.added p
  state : ∀ {i state}, stateAt? a.system.requests i = some state →
    state = .allocated ∧ i ∈ l.holders ∨ state = .requested ∧ i ∉ l.holders ∨ state = .cancelled

theorem represents_new : Represents new Ledger.empty where
  history := rfl
  assigned h := by simp at h
  assigned_length := rfl
  zones_length := rfl
  taken h := by
    obtain ⟨i, hi⟩ := h
    simp at hi
  free _ := rfl
  state h := by simp [new, ParkingSystem.new, stateAt?] at h

variable {a : Audit} {l : Ledger ℕ SlotRef}

theorem Represents.history_nil (h : Represents a l) (hl : l.entries = []) : a.system.history = [] := by
  rw [h.history, hl, List.map_nil]

theorem Represents.history_cons (h : Represents a l) {i : ℕ} {p : SlotRef} {rest : List (ℕ × SlotRef)}
    (hl : l.entries = (i, p) :: rest) :
    a.system.history = ⟨some p, true, some i, .requested⟩ :: rest.map recordOf := by
  rw [h.history, hl, List.map_cons, recordOf]

theorem Represents.holder_lt (h : Represents a l) {i : ℕ} (hi : i ∈ l.holders) :
    i < a.system.requests.length := by
  obtain ⟨p, hp⟩ := hi
  rw [← h.assigned_length]
  exact (List.getElem?_eq_some_iff.mp (h.assigned hp)).1

theorem Represents.not_mem_places (h : Represents a l) {p : SlotRef} {slot : ParkingSlot}
    (hp : slotAt? a.system.zones p = some slot) (havail : slot.isAvailable = true) : p ∉ l.places := by
  intro hmem
  obtain ⟨slot', -, -, hslot⟩ := h.taken hmem
  rw [hslot] at hp
  have heq : slot'.setIsAvailable false = slot := Option.some.inj hp
  rw [← heq] at havail
  simp at havail

theorem Represents.addZone (h : Represents a l) (zone : Zone) : Represents (a.step (.addZone zone)) l where
  history := h.history
  assigned := h.assigned
  assigned_length := h.assigned_length
  zones_length := by simp [step, ParkingSystem.step, ParkingSystem.addZone, h.zones_length]
  taken hp := by
    obtain ⟨slot, hadded, havail, hnow⟩ := h.taken hp
    refine ⟨slot, ?_, havail, ?_⟩
    · exact (slotAt?_append_left (slotAt?_zone_lt hadded) [zone]).trans hadded
    · exact (slotAt?_append_left (slotAt?_zone_lt hnow) [zone]).trans hnow
  free {p} hp := by
    have hfree := h.free hp
    simp only [step, ParkingSystem.step, ParkingSystem.addZone]
    by_cases hz : p.zone < a.added.length
    · rw [slotAt?_append_left hz, slotAt?_append_left (h.zones_length ▸ hz), hfree]
    · have hz' : a.added.length ≤ p.zone := Nat.le_of_not_lt hz
      rw [slotAt?_append_right hz', slotAt?_append_right (h.zones_length ▸ hz'), h.zones_length]
  state := h.state

theorem step_requestParking_none {vehicleId : String} {requestedZoneId : ℤ}
    (hslot : a.system.slotFor requestedZoneId = none) :
    a.step (.requestParking vehicleId requestedZoneId) =
      { a with system :=
        { a.system with
          vehicles := registerVehicle a.system.vehicles vehicleId requestedZoneId } } := by
  simp only [step, ParkingSystem.step, ParkingSystem.requestParking_none hslot, hslot,
    Option.toList_none, List.append_nil]

theorem step_requestParking_some {vehicleId : String} {requestedZoneId : ℤ} {p : SlotRef}
    (hslot : a.system.slotFor requestedZoneId = some p) :
    a.step (.requestParking vehicleId requestedZoneId) =
      { a with
        system :=
          { zones := setIsAvailable a.system.zones p false
            vehicles := registerVehicle a.system.vehicles vehicleId requestedZoneId
            requests := a.system.requests ++
              [⟨toInt a.system.requests.length, vehicleId, requestedZoneId, 0, .allocated⟩]
            rollbackManager := ⟨recordOf (a.system.requests.length, p) :: a.system.history⟩ }
        assigned := a.assigned ++ [p] } := by
  simp only [step, ParkingSystem.step, ParkingSystem.requestParking_some hslot, hslot,
    Option.toList_some, recordOf]

theorem Represents.requestParking_none (h : Represents a l) {requestedZoneId : ℤ} {vehicleId : String}
    (hslot : a.system.slotFor requestedZoneId = none) :
    Represents (a.step (.requestParking vehicleId requestedZoneId)) l := by
  rw [step_requestParking_none hslot]
  exact ⟨h.history, h.assigned, h.assigned_length, h.zones_length, h.taken, h.free, h.state⟩

/-- A call that takes a slot enters the new request and the slot in the ledger. -/
theorem Represents.requestParking_some (h : Represents a l) (vehicleId : String) {requestedZoneId : ℤ}
    {p : SlotRef} (hslot : a.system.slotFor requestedZoneId = some p) :
    ∃ hr hp, Represents (a.step (.requestParking vehicleId requestedZoneId))
      (l.take a.system.requests.length p hr hp) := by
  obtain ⟨slot, hnow, havail⟩ := slotFor_sound hslot
  have hr : a.system.requests.length ∉ l.holders := fun hmem => (h.holder_lt hmem).false
  have hp : p ∉ l.places := h.not_mem_places hnow havail
  refine ⟨hr, hp, ?_⟩
  rw [step_requestParking_some hslot]
  constructor
  · exact congrArg (recordOf (a.system.requests.length, p) :: ·) h.history
  · intro i q hmem
    rcases List.mem_cons.mp hmem with heq | hmem
    · obtain ⟨rfl, rfl⟩ := Prod.mk.inj heq
      simp [← h.assigned_length]
    · have hi := (List.getElem?_eq_some_iff.mp (h.assigned hmem)).1
      exact (List.getElem?_append_left hi).trans (h.assigned hmem)
  · simp [h.assigned_length]
  · simp [h.zones_length]
  · intro q hq
    rw [Ledger.places_take] at hq
    rcases Set.mem_insert_iff.mp hq with rfl | hq
    · refine ⟨slot, (h.free hp).symm.trans hnow, havail, ?_⟩
      simp [slotAt?_setIsAvailable, hnow]
    · obtain ⟨slot', hadded, havail', hnow'⟩ := h.taken hq
      have hne : p ≠ q := fun heq => hp (heq ▸ hq)
      exact ⟨slot', hadded, havail', by simp [slotAt?_setIsAvailable, hne, hnow']⟩
  · intro q hq
    rw [Ledger.places_take, Set.mem_insert_iff, not_or] at hq
    simp [slotAt?_setIsAvailable, Ne.symm hq.1, h.free hq.2]
  · intro i state hstate
    rw [Ledger.holders_take]
    by_cases hi : i < a.system.requests.length
    · rw [stateAt?_append_left hi] at hstate
      have hne : i ≠ a.system.requests.length := hi.ne
      simpa [hne] using h.state hstate
    · have hlen := stateAt?_lt hstate
      simp only [List.length_append, List.length_singleton] at hlen
      obtain rfl : i = a.system.requests.length := by omega
      left
      exact ⟨by simpa [stateAt?, eq_comm] using hstate, Set.mem_insert _ _⟩

end Audit

end SmartParking
