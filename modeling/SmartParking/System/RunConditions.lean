import SmartParking.System.CallEffects

/-! # The runs that keep a property

Popping the record of another request can strand a slot and can bring a cancelled
request back. For each of the two properties the steps that break it are named, and
a run keeps the property exactly when it has no such step. A recorded pointer is taken to
denote what it was taken from.
-/
namespace SmartParking.Audit
open Foundation ParkingRequest ParkingSystem

variable {a : Audit} {l : Ledger ℕ SlotRef}

/-- Every unavailable slot is the slot of an active request. -/
def NoLeak (a : Audit) : Prop :=
  ∀ p, availability a.system.zones p = some false → ∃ i, AssignedTo a i p ∧ a.system.InState i activeStates

def AllAvailable (zones : List Zone) : Prop :=
  ∀ p slot, slotAt? zones p = some slot → slot.isAvailable = true

/-- `addZone` is only given zones whose slots are all available. -/
def AddsAvailable : Op → Prop
  | .addZone zone => AllAvailable [zone]
  | _ => True

theorem allAvailable_of_mem {zones : List Zone}
    (h : ∀ zone ∈ zones, ∀ area ∈ zone.parkingAreas, ∀ slot ∈ area.slots, slot.isAvailable = true) :
    AllAvailable zones := by
  intro p slot hp
  obtain ⟨zone, hzone, hget⟩ := Option.bind_eq_some_iff.mp hp
  obtain ⟨area, harea, hslot⟩ := Option.bind_eq_some_iff.mp hget
  exact h zone (List.mem_of_getElem? hzone) area (List.mem_of_getElem? harea) slot (List.mem_of_getElem? hslot)

theorem allAvailable_append {zones more : List Zone} (h : AllAvailable zones) (h' : AllAvailable more) :
    AllAvailable (zones ++ more) := by
  intro p slot hp
  by_cases hz : p.zone < zones.length
  · exact h p slot ((slotAt?_append_left hz more).symm.trans hp)
  · exact h' _ slot ((slotAt?_append_right (Nat.le_of_not_lt hz) more).symm.trans hp)

/-- Without slots that came unavailable, nothing is leaked exactly when every request
on record is still allocated. -/
theorem Represents.noLeak_iff (h : Represents a l) (hadded : AllAvailable a.added) :
    NoLeak a ↔ ∀ i ∈ l.holders, stateAt? a.system.requests i = some .allocated := by
  constructor
  · rintro hleak i ⟨p, hp⟩
    obtain ⟨slot, -, -, hnow⟩ := h.taken ⟨i, hp⟩
    obtain ⟨j, hassigned, hactive⟩ := hleak p (by simp [availability, hnow])
    obtain ⟨q, hq, hassigned', -⟩ := h.active_entry hactive
    obtain rfl : p = q := Option.some.inj (hassigned.symm.trans hassigned')
    obtain rfl : i = j := l.holder_unique hp hq
    obtain ⟨state, hmem, hstate⟩ := hactive
    rcases h.state hstate with ⟨rfl, -⟩ | ⟨rfl, -⟩ | rfl
    · exact hstate
    · simp [activeStates] at hmem
    · simp [activeStates] at hmem
  · intro hholders p hp
    have hplace : p ∈ l.places := by
      by_contra hnot
      rw [availability, h.free hnot] at hp
      obtain ⟨slot, hslot, hfalse⟩ := Option.map_eq_some_iff.mp hp
      have htrue := hadded p slot hslot
      rw [htrue] at hfalse
      contradiction
    obtain ⟨i, hi⟩ := hplace
    exact ⟨i, h.assigned hi, .allocated, by simp [activeStates], hholders i ⟨p, hi⟩⟩

/-- The step cancels an allocated request while the latest record is another one's:
the slot freed is not its own. -/
def StrandsSlot (ps : ParkingSystem) : Op → Prop
  | .cancelRequest requestId => ps.Names requestId [.allocated] ∧ PopsForeignRecord ps requestId
  | _ => False

theorem Represents.stateAt?_cancel_cons (h : Represents a l) {i j : ℕ} {p : SlotRef}
    {rest : List (ℕ × SlotRef)} (hacc : CancelAccepts a.system i) (hl : l.entries = (j, p) :: rest) (x : ℕ) :
    stateAt? (a.step (.cancelRequest i)).system.requests x =
      if j = x then (stateAt? a.system.requests x).map (fun _ => .requested)
      else if i = x then (stateAt? a.system.requests x).map (fun _ => .cancelled)
      else stateAt? a.system.requests x := by
  rw [step_cancelRequest, h.cancelRequest_cons hacc hl]
  simp only [stateAt?_setCurrentState]
  by_cases hj : j = x
  · subst hj
    by_cases hi : i = j <;> simp [hi, Function.comp_def]
  · simp [hj]

theorem Represents.noLeak_cancel_iff (h : Represents a l) (hadded : AllAvailable a.added) {i : ℕ}
    (hacc : CancelAccepts a.system i) (hleak : NoLeak a) :
    NoLeak (a.step (.cancelRequest i)) ↔ ¬ StrandsSlot a.system (.cancelRequest i) := by
  have hholders := (h.noLeak_iff hadded).mp hleak
  have hadded' : AllAvailable (a.step (.cancelRequest i)).added := by
    rw [step_cancelRequest]
    exact hadded
  cases hl : l.entries with
  | nil =>
    have hnone : NoLeak (a.step (.cancelRequest i)) := by
      refine ((h.cancel_nil hacc hl).noLeak_iff hadded').mpr ?_
      rintro x ⟨p, hp⟩
      simp [hl] at hp
    exact iff_of_true hnone (fun hstrands => h.not_popsForeignRecord_nil hl i hstrands.2)
  | cons entry rest =>
    obtain ⟨j, p⟩ := entry
    have hafter := (h.cancel_cons hacc hl).noLeak_iff hadded'
    have hstateAt := h.stateAt?_cancel_cons hacc hl
    rw [hafter, Ledger.holders_pop hl]
    simp only [StrandsSlot, h.popsForeignRecord_iff hacc hl, names_natCast, inState_singleton]
    constructor
    · rintro hstates ⟨hallocated, hne⟩
      have hi : i ∈ l.holders := h.mem_holders_of_allocated hallocated
      have hstate := hstates i ⟨hi, fun heq => hne heq.symm⟩
      rw [hstateAt, if_neg hne, if_pos rfl, hallocated] at hstate
      simp at hstate
    · rintro hnot x ⟨hx, hxj⟩
      have hne : j ≠ x := fun heq => hxj heq.symm
      have hix : i ≠ x := by
        rintro rfl
        exact hnot ⟨hholders i hx, hne⟩
      rw [hstateAt, if_neg hne, if_neg hix]
      exact hholders x hx

def Sound (a : Audit) : Prop := (∃ l, Represents a l) ∧ AllAvailable a.added

theorem sound_step (a : Audit) (op : Op) (hop : AddsAvailable op) (h : Sound a) : Sound (a.step op) := by
  obtain ⟨⟨l, hl⟩, hadded⟩ := h
  refine ⟨hl.step op, ?_⟩
  cases op with
  | addZone zone => exact allAvailable_append hadded hop
  | requestParking vehicleId requestedZoneId => exact hadded
  | cancelRequest requestId => exact hadded
  | releaseSlot requestId => exact hadded

theorem noLeak_step_iff (a : Audit) (op : Op) (hop : AddsAvailable op) (h : Sound a) (hleak : NoLeak a) :
    NoLeak (a.step op) ↔ ¬ StrandsSlot a.system op := by
  obtain ⟨⟨l, hl⟩, hadded⟩ := h
  have hholders := (hl.noLeak_iff hadded).mp hleak
  cases op with
  | addZone zone =>
    have hadded' : AllAvailable (a.step (.addZone zone)).added := allAvailable_append hadded hop
    exact iff_of_true (((hl.addZone zone).noLeak_iff hadded').mpr hholders) id
  | requestParking vehicleId requestedZoneId =>
    refine iff_of_true ?_ id
    cases hslot : a.system.slotFor requestedZoneId with
    | none =>
      refine ((hl.requestParking_none hslot).noLeak_iff hadded).mpr ?_
      rw [step_requestParking_none hslot]
      exact hholders
    | some p =>
      obtain ⟨hr, hp, h'⟩ := hl.requestParking_some vehicleId hslot
      refine (h'.noLeak_iff hadded).mpr ?_
      rw [Ledger.holders_take, step_requestParking_some hslot]
      intro i hi
      rcases Set.mem_insert_iff.mp hi with rfl | hi
      · simp [stateAt?]
      · exact (stateAt?_append_left (hl.holder_lt hi) _).trans (hholders i hi)
  | cancelRequest requestId =>
    by_cases hacc : CancelAccepts a.system requestId
    · obtain ⟨i, rfl, -⟩ := id hacc
      exact hl.noLeak_cancel_iff hadded hacc hleak
    · rw [step_cancelRequest_refused hacc]
      exact iff_of_true hleak (fun hstrands => hacc hstrands.2.1)
  | releaseSlot requestId =>
    rw [hl.step_releaseSlot]
    exact iff_of_true hleak id

theorem sound_new : Sound new :=
  ⟨⟨_, represents_new⟩, fun p slot hp => by simp [new, slotAt?] at hp⟩

theorem noLeak_new : NoLeak new := by
  intro p hp
  simp [new, ParkingSystem.new, availability, slotAt?] at hp

/-- A run over free zones leaks no slot in any of its states exactly when no cancel of
an allocated request in it pops the record of another request. -/
theorem run_noLeak_iff (ops : List Op) (hops : ∀ op ∈ ops, AddsAvailable op) :
    Runs.EveryState step NoLeak new ops ↔
      Runs.EveryStep step (fun a op => ¬ StrandsSlot a.system op) new ops :=
  Runs.everyState_iff_everyStep step sound_step noLeak_step_iff hops sound_new noLeak_new

theorem addsAvailable_twoParked : ∀ op ∈ twoParked, AddsAvailable op := by
  intro op hop
  simp only [twoParked, List.mem_cons, List.not_mem_nil, or_false] at hop
  rcases hop with rfl | rfl | rfl
  · exact allAvailable_of_mem (by decide)
  · trivial
  · trivial

theorem noLeak_twoParked : Runs.EveryState step NoLeak new twoParked := by
  refine (run_noLeak_iff twoParked addsAvailable_twoParked).mpr ?_
  intro pre op hpre hstrands
  have hop : op ∈ twoParked := hpre.mem (by simp)
  simp only [twoParked, List.mem_cons, List.not_mem_nil, or_false] at hop
  rcases hop with rfl | rfl | rfl <;> exact hstrands

/-- Cancelling the first of two parked vehicles frees the slot of the second one, and
no request is left to give the first slot back. -/
theorem leak_twoParked :
    ¬ Runs.EveryState step NoLeak new (twoParked ++ [.cancelRequest 0]) := by
  intro hnoleak
  have hlast := hnoleak _ (List.prefix_refl _)
  obtain ⟨i, hassigned, state, hactive, hstate⟩ := hlast ⟨0, 0, 0⟩ (by decide)
  have hslots : (Runs.run step new (twoParked ++ [.cancelRequest 0])).assigned = [⟨0, 0, 0⟩, ⟨0, 0, 1⟩] := by
    decide
  have hcancelled : stateAt? (Runs.run step new (twoParked ++ [.cancelRequest 0])).system.requests 0 =
      some .cancelled := by decide
  rw [AssignedTo, hslots] at hassigned
  have hi : i = 0 := by
    rcases i with _ | _ | i
    · rfl
    · simp at hassigned
    · simp at hassigned
  rw [hi, hcancelled] at hstate
  obtain rfl : State.cancelled = state := Option.some.inj hstate
  simp [activeStates] at hactive

/-- A request that is cancelled or released in some state of the run is so in every
later one, where no cancel or release of it is accepted. -/
def Absorbing (ops : List Op) : Prop :=
  ∀ pre mid, pre ++ mid <+: ops → ∀ (i : ℕ) (state : State), state.isTerminal = true →
    stateAt? (run pre).system.requests i = some state →
    stateAt? (run (pre ++ mid)).system.requests i = some state ∧
      ((run (pre ++ mid)).system.cancelRequest i).1 = false ∧
      ((run (pre ++ mid)).system.releaseSlot i).1 = false

def TerminalKept (a a' : Audit) : Prop :=
  ∀ (i : ℕ) (state : State), state.isTerminal = true →
    stateAt? a.system.requests i = some state → stateAt? a'.system.requests i = some state

theorem terminalKept_refl (a : Audit) : TerminalKept a a := fun _ _ _ h => h

theorem terminalKept_trans (a b c : Audit) (hab : TerminalKept a b) (hbc : TerminalKept b c) :
    TerminalKept a c := fun i state ht h => hbc i state ht (hab i state ht h)

/-- A request in a terminal state has no transition, whatever is refused first. -/
theorem closeRequest_terminal {refuses : State → Bool} {newState : State} {ps : ParkingSystem} {i : ℕ}
    {state : State} (ht : state.isTerminal = true) (h : stateAt? ps.requests i = some state) :
    closeRequest refuses newState ps i = (false, ps) := by
  apply closeRequest_refused
  rintro ⟨j, hij, -, state', hstate', -, hvalid⟩
  obtain rfl : i = j := Int.ofNat_inj.mp hij
  obtain rfl : state = state' := Option.some.inj (h.symm.trans hstate')
  rw [(isTerminal_iff_stuck state).mp ht newState] at hvalid
  contradiction

theorem absorbing_iff_terminalKept (ops : List Op) :
    Absorbing ops ↔ ∀ pre mid, pre ++ mid <+: ops → TerminalKept (run pre) (run (pre ++ mid)) := by
  constructor
  · intro h pre mid hpre i state ht hi
    exact (h pre mid hpre i state ht hi).1
  · intro h pre mid hpre i state ht hi
    have hlater := h pre mid hpre i state ht hi
    refine ⟨hlater, ?_, ?_⟩
    · rw [cancelRequest, closeRequest_terminal ht hlater]
    · rw [releaseSlot, closeRequest_terminal ht hlater]

/-- The step is an accepted cancel that pops the record of a request in a terminal
state, whose old state it writes back. -/
def Resurrects (ps : ParkingSystem) : Op → Prop
  | .cancelRequest requestId => CancelAccepts ps requestId ∧
      ∃ record rest i, ps.history = record :: rest ∧ record.request = some i ∧
        ps.InState i [.released, .cancelled]
  | _ => False

theorem inState_terminal {ps : ParkingSystem} {i : ℕ} :
    ps.InState i [.released, .cancelled] ↔
      ∃ state : State, state.isTerminal = true ∧ stateAt? ps.requests i = some state := by
  simp [ParkingSystem.InState, State.isTerminal]

theorem Represents.resurrects_iff (h : Represents a l) {i j : ℕ} {p : SlotRef}
    {rest : List (ℕ × SlotRef)} (hacc : CancelAccepts a.system i) (hl : l.entries = (j, p) :: rest) :
    Resurrects a.system (.cancelRequest i) ↔ a.system.InState j [.released, .cancelled] := by
  have hhist := h.history_cons hl
  constructor
  · rintro ⟨-, record, rest', x, heq, hrequest, hx⟩
    rw [hhist] at heq
    obtain ⟨rfl, -⟩ := List.cons.inj heq
    obtain rfl : j = x := Option.some.inj hrequest
    exact hx
  · intro hj
    exact ⟨hacc, _, _, j, hhist, rfl, hj⟩

theorem Represents.terminalKept_cancel_iff (h : Represents a l) {i : ℕ} (hacc : CancelAccepts a.system i) :
    TerminalKept a (a.step (.cancelRequest i)) ↔ ¬ Resurrects a.system (.cancelRequest i) := by
  have hopen : ∀ x state, state.isTerminal = true → stateAt? a.system.requests x = some state → i ≠ x := by
    rintro x state ht hx rfl
    obtain ⟨j, hij, -, hj⟩ := cancelAccepts_iff.mp hacc
    obtain rfl : i = j := Int.ofNat_inj.mp hij
    rcases hj with hj | hj <;> rw [hj] at hx <;> cases hx <;> cases ht
  cases hl : l.entries with
  | nil =>
    have hkept : TerminalKept a (a.step (.cancelRequest i)) := by
      intro x state ht hx
      rw [step_cancelRequest, h.cancelRequest_nil hacc hl]
      simp only [stateAt?_setCurrentState, if_neg (hopen x state ht hx)]
      exact hx
    refine iff_of_true hkept ?_
    rintro ⟨-, record, rest, x, heq, -⟩
    rw [h.history_nil hl] at heq
    cases heq
  | cons entry rest =>
    obtain ⟨j, p⟩ := entry
    rw [h.resurrects_iff hacc hl, inState_terminal]
    have hstateAt := h.stateAt?_cancel_cons hacc hl
    constructor
    · rintro hkept ⟨state, ht, hj⟩
      have hlater := hkept j state ht hj
      rw [hstateAt, if_pos rfl, hj, Option.map_some] at hlater
      obtain rfl : State.requested = state := Option.some.inj hlater
      cases ht
    · intro hnot x state ht hx
      have hne : j ≠ x := by
        rintro rfl
        exact hnot ⟨state, ht, hx⟩
      rw [hstateAt, if_neg hne, if_neg (hopen x state ht hx)]
      exact hx

theorem Represents.terminalKept_step_iff (h : Represents a l) (op : Op) :
    TerminalKept a (a.step op) ↔ ¬ Resurrects a.system op := by
  cases op with
  | addZone zone => exact iff_of_true (terminalKept_refl a) id
  | requestParking vehicleId requestedZoneId =>
    refine iff_of_true ?_ id
    intro i state ht hi
    cases hslot : a.system.slotFor requestedZoneId with
    | none =>
      rw [step_requestParking_none hslot]
      exact hi
    | some p =>
      rw [step_requestParking_some hslot]
      exact (stateAt?_append_left (stateAt?_lt hi) _).trans hi
  | cancelRequest requestId =>
    by_cases hacc : CancelAccepts a.system requestId
    · obtain ⟨i, rfl, -⟩ := id hacc
      exact h.terminalKept_cancel_iff hacc
    · rw [step_cancelRequest_refused hacc]
      exact iff_of_true (terminalKept_refl a) (fun hresurrects => hacc hresurrects.1)
  | releaseSlot requestId =>
    rw [h.step_releaseSlot]
    exact iff_of_true (terminalKept_refl a) id

/-- Terminal states are absorbing in a run exactly when no step of it pops the record
of a request that has reached one. -/
theorem run_absorbing_iff (ops : List Op) :
    Absorbing ops ↔ Runs.EveryStep step (fun a op => ¬ Resurrects a.system op) new ops := by
  rw [absorbing_iff_terminalKept]
  have hkept : Runs.EveryStep step (fun a op => TerminalKept a (step a op)) new ops ↔ _ :=
    Runs.everyStep_related_iff terminalKept_refl terminalKept_trans
  refine hkept.symm.trans ?_
  constructor
  · intro h pre op hpre
    obtain ⟨l, hl⟩ := represents_run pre
    exact (hl.terminalKept_step_iff op).mp (h pre op hpre)
  · intro h pre op hpre
    obtain ⟨l, hl⟩ := represents_run pre
    exact (hl.terminalKept_step_iff op).mpr (h pre op hpre)

/-- Of four parked vehicles the third is cancelled, which pops the record of the fourth, and
then the fourth, which pops the record of the third and brings its request back. -/
theorem not_absorbing_fourParked : ¬ Absorbing (fourParked ++ [.cancelRequest 2, .cancelRequest 3]) := by
  intro habsorbing
  have hpre : (fourParked ++ [.cancelRequest 2]) ++ [.cancelRequest 3] <+:
      fourParked ++ [.cancelRequest 2, .cancelRequest 3] := List.prefix_refl _
  have hkept := habsorbing _ _ hpre 2 .cancelled rfl (by decide)
  exact absurd hkept.1 (by decide)

end SmartParking.Audit
