import SmartParking.System.Occupancy

/-! # Effects of one cancel or release

Both operations undo the latest allocation still on record instead of the one of
their own request. What a call does to its request, to its slot and to the others is
therefore decided by whose record is on top. A recorded pointer is taken to denote what it
was taken from.
-/
namespace SmartParking.Audit
open Foundation ParkingRequest ParkingSystem

variable {a : Audit} {l : Ledger ℕ SlotRef}

theorem Represents.holder_state (h : Represents a l) {i : ℕ} (hi : i ∈ l.holders) :
    stateAt? a.system.requests i = some .allocated ∨ stateAt? a.system.requests i = some .cancelled := by
  have hlt := h.holder_lt hi
  have hstate : stateAt? a.system.requests i = some a.system.requests[i].currentState := by
    simp [stateAt?, hlt]
  rw [hstate]
  rcases h.state hstate with ⟨heq, -⟩ | ⟨-, hnot⟩ | heq
  · exact Or.inl (congrArg some heq)
  · exact absurd hi hnot
  · exact Or.inr (congrArg some heq)

theorem Represents.mem_holders_of_allocated (h : Represents a l) {i : ℕ}
    (hi : stateAt? a.system.requests i = some .allocated) : i ∈ l.holders := by
  rcases h.state hi with ⟨-, hmem⟩ | ⟨heq, -⟩ | heq
  · exact hmem
  · contradiction
  · contradiction

theorem Represents.not_mem_holders_of_requested (h : Represents a l) {i : ℕ}
    (hi : stateAt? a.system.requests i = some .requested) : i ∉ l.holders := by
  rcases h.state hi with ⟨heq, -⟩ | ⟨-, hnot⟩ | heq
  · contradiction
  · exact hnot
  · contradiction

/-- `requestId` is cancelled while the latest record is that of another request. -/
def PopsForeignRecord (ps : ParkingSystem) (requestId : ℤ) : Prop :=
  CancelAccepts ps requestId ∧
    ∃ record rest, ps.history = record :: rest ∧ record.request ≠ some requestId.toNat

theorem Represents.popsForeignRecord_iff (h : Represents a l) {i j : ℕ} {p : SlotRef}
    {rest : List (ℕ × SlotRef)} (hi : CancelAccepts a.system i) (hl : l.entries = (j, p) :: rest) :
    PopsForeignRecord a.system i ↔ j ≠ i := by
  have hhist := h.history_cons hl
  constructor
  · rintro ⟨-, record, rest', heq, hne⟩ rfl
    rw [hhist] at heq
    obtain ⟨rfl, -⟩ := List.cons.inj heq
    exact hne rfl
  · intro hne
    refine ⟨hi, _, _, hhist, ?_⟩
    intro heq
    exact hne (Option.some.inj heq)

theorem Represents.not_popsForeignRecord_nil (h : Represents a l) (hl : l.entries = []) (requestId : ℤ) :
    ¬ PopsForeignRecord a.system requestId := by
  rintro ⟨-, record, rest, heq, -⟩
  rw [h.history_nil hl] at heq
  contradiction

/-- The call changed the state of no other request than `requestId`, and the
availability of no other slot than one assigned to it. -/
def Isolated (a : Audit) (requestId : ℤ) (after : ParkingSystem) : Prop :=
  (∀ i : ℕ, (i : ℤ) ≠ requestId → stateAt? after.requests i = stateAt? a.system.requests i) ∧
  (∀ p, (∀ i : ℕ, (i : ℤ) = requestId → ¬ AssignedTo a i p) →
    availability after.zones p = availability a.system.zones p)

theorem isolated_refl (a : Audit) (requestId : ℤ) : Isolated a requestId a.system :=
  ⟨fun _ _ => rfl, fun _ _ => rfl⟩

theorem stateAt?_cancelled_ne {requests : List ParkingRequest} {i x : ℕ} (hx : (x : ℤ) ≠ i) :
    stateAt? (setCurrentState requests i .cancelled) x = stateAt? requests x := by
  have hne : i ≠ x := fun heq => hx (congrArg Int.ofNat heq.symm)
  rw [stateAt?_setCurrentState, if_neg hne]

theorem Represents.isolated_cancel_iff (h : Represents a l) (requestId : ℤ) :
    Isolated a requestId (a.system.cancelRequest requestId).2 ↔ ¬ PopsForeignRecord a.system requestId := by
  by_cases hacc : CancelAccepts a.system requestId
  · obtain ⟨i, rfl, -⟩ := id hacc
    cases hl : l.entries with
    | nil =>
      rw [h.cancelRequest_nil hacc hl]
      have hnot := h.not_popsForeignRecord_nil hl i
      exact ⟨fun _ => hnot, fun _ => ⟨fun x hx => stateAt?_cancelled_ne hx, fun _ _ => rfl⟩⟩
    | cons entry rest =>
      obtain ⟨j, p⟩ := entry
      rw [h.cancelRequest_cons hacc hl, h.popsForeignRecord_iff hacc hl, not_not]
      constructor
      · rintro ⟨hstates, -⟩
        by_contra hne
        -- the request on record loses its state
        have hj : j ∈ l.holders := ⟨p, by simp [hl]⟩
        have hsame := hstates j (fun heq => hne (Int.ofNat_inj.mp heq))
        rw [stateAt?_setCurrentState, if_pos rfl,
          stateAt?_cancelled_ne (fun heq => hne (Int.ofNat_inj.mp heq))] at hsame
        rcases h.holder_state hj with hstate | hstate
        · simp [hstate] at hsame
        · simp [hstate] at hsame
      · rintro rfl
        refine ⟨fun x hx => ?_, fun q hq => ?_⟩
        · have hne : j ≠ x := fun heq => hx (congrArg Int.ofNat heq.symm)
          rw [stateAt?_setCurrentState, if_neg hne, stateAt?_cancelled_ne hx]
        · have hassigned : AssignedTo a j p := h.assigned (by simp [hl])
          have hne : p ≠ q := fun heq => hq j rfl (heq ▸ hassigned)
          simp only [availability, slotAt?_setIsAvailable, if_neg hne]
  · rw [cancelRequest_refused hacc]
    exact ⟨fun _ hpops => hacc hpops.1, fun _ => isolated_refl a requestId⟩

/-- In every reachable state and for every id, cancel and release are isolated exactly
when the cancel does not pop the record of another request. -/
theorem cancel_release_isolated_iff (ops : List Op) (requestId : ℤ) :
    (Isolated (run ops) requestId ((run ops).system.cancelRequest requestId).2 ∧
      Isolated (run ops) requestId ((run ops).system.releaseSlot requestId).2) ↔
    ¬ PopsForeignRecord (run ops).system requestId := by
  obtain ⟨l, h⟩ := represents_run ops
  rw [h.releaseSlot_eq, h.isolated_cancel_iff]
  exact and_iff_left (isolated_refl _ _)

/-- Cancelling the first of two parked vehicles sends the second one's request back. -/
theorem cancel_not_isolated_twoParked :
    ¬ (Isolated (run twoParked) 0 ((run twoParked).system.cancelRequest 0).2 ∧
      Isolated (run twoParked) 0 ((run twoParked).system.releaseSlot 0).2) := by
  rintro ⟨⟨hstates, -⟩, -⟩
  have hsame := hstates 1 (by decide)
  exact absurd hsame (by decide)

/-- What a cancel is for: it succeeds on open requests, ends them and frees their slot. -/
structure CancelEffect (a : Audit) (requestId : ℤ) : Prop where
  answer : (a.system.cancelRequest requestId).1 = true ↔
    a.system.Names requestId [.requested, .allocated]
  cancelled : (a.system.cancelRequest requestId).1 = true →
    (a.system.cancelRequest requestId).2.Names requestId [.cancelled]
  freed : (a.system.cancelRequest requestId).1 = true → a.system.Names requestId [.allocated] →
    ∀ (i : ℕ) (p : SlotRef), requestId = i → AssignedTo a i p →
      availability (a.system.cancelRequest requestId).2.zones p = some true
  refused : (a.system.cancelRequest requestId).1 = false →
    (a.system.cancelRequest requestId).2 = a.system

theorem names_natCast {ps : ParkingSystem} {i : ℕ} {states : List State} :
    ps.Names i states ↔ ps.InState i states := by
  constructor
  · rintro ⟨j, hij, h⟩
    obtain rfl : i = j := Int.ofNat_inj.mp hij
    exact h
  · exact fun h => ⟨i, rfl, h⟩

theorem inState_singleton {ps : ParkingSystem} {i : ℕ} {state : State} :
    ps.InState i [state] ↔ stateAt? ps.requests i = some state := by
  simp [ParkingSystem.InState]

theorem inState_open {ps : ParkingSystem} {i : ℕ} :
    ps.InState i [.requested, .allocated] ↔
      stateAt? ps.requests i = some .requested ∨ stateAt? ps.requests i = some .allocated := by
  simp [ParkingSystem.InState]

/-- On an allocated request a cancel never does all it is for: popping its own record
undoes the new state, popping another one leaves its slot taken. -/
theorem Represents.not_cancelEffect_of_allocated (h : Represents a l) {i : ℕ}
    (hi : stateAt? a.system.requests i = some .allocated) : ¬ CancelEffect a i := by
  intro heffect
  have htrue : (a.system.cancelRequest i).1 = true :=
    heffect.answer.mpr (names_natCast.mpr (inState_open.mpr (Or.inr hi)))
  have hacc : CancelAccepts a.system i := by
    by_contra hacc
    simp [cancelRequest_refused hacc] at htrue
  have hcancelled := inState_singleton.mp (names_natCast.mp (heffect.cancelled htrue))
  obtain ⟨q, hq⟩ := h.mem_holders_of_allocated hi
  have hfreed := heffect.freed htrue (names_natCast.mpr (inState_singleton.mpr hi)) i q rfl (h.assigned hq)
  cases hl : l.entries with
  | nil => simp [hl] at hq
  | cons entry rest =>
    obtain ⟨j, p⟩ := entry
    rw [h.cancelRequest_cons hacc hl] at hcancelled hfreed
    by_cases hji : j = i
    · subst hji
      rw [stateAt?_setCurrentState, if_pos rfl] at hcancelled
      obtain ⟨-, -, heq⟩ := Option.map_eq_some_iff.mp hcancelled
      cases heq
    · have hne : p ≠ q := by
        rintro rfl
        exact hji (l.holder_unique (by simp [hl]) hq)
      obtain ⟨slot, -, -, hnow⟩ := h.taken ⟨i, hq⟩
      simp only [availability, slotAt?_setIsAvailable, if_neg hne, hnow] at hfreed
      simp at hfreed

theorem Represents.cancelEffect_of_requested (h : Represents a l) {i : ℕ}
    (hi : stateAt? a.system.requests i = some .requested) (hlt : (i : ℤ) < toInt a.system.requests.length) :
    CancelEffect a i := by
  have hacc : CancelAccepts a.system i := cancelAccepts_iff.mpr ⟨i, rfl, hlt, Or.inl hi⟩
  have hnames : a.system.Names i [.requested, .allocated] :=
    names_natCast.mpr (inState_open.mpr (Or.inl hi))
  have hnot : ¬ a.system.Names i [.allocated] := by
    rw [names_natCast, inState_singleton, hi]
    simp
  have hdone : (a.system.cancelRequest i).1 = true ∧
      stateAt? (a.system.cancelRequest i).2.requests i = some .cancelled := by
    cases hl : l.entries with
    | nil =>
      rw [h.cancelRequest_nil hacc hl]
      exact ⟨rfl, by simp [stateAt?_setCurrentState, hi]⟩
    | cons entry rest =>
      obtain ⟨j, p⟩ := entry
      have hne : j ≠ i := by
        rintro rfl
        exact h.not_mem_holders_of_requested hi ⟨p, by simp [hl]⟩
      rw [h.cancelRequest_cons hacc hl]
      exact ⟨rfl, by simp [stateAt?_setCurrentState, hi, hne]⟩
  exact {
    answer := iff_of_true hdone.1 hnames
    cancelled := fun _ => names_natCast.mpr (inState_singleton.mpr hdone.2)
    freed := fun _ hallocated => absurd hallocated hnot
    refused := fun hfalse => absurd (hdone.1.symm.trans hfalse) (by simp) }

theorem names_open_iff {ps : ParkingSystem} {requestId : ℤ} :
    ps.Names requestId [.requested, .allocated] ↔
      ps.Names requestId [.requested] ∨ ps.Names requestId [.allocated] := by
  constructor
  · rintro ⟨i, rfl, hi⟩
    rcases inState_open.mp hi with hi | hi
    · exact Or.inl (names_natCast.mpr (inState_singleton.mpr hi))
    · exact Or.inr (names_natCast.mpr (inState_singleton.mpr hi))
  · rintro (⟨i, rfl, hi⟩ | ⟨i, rfl, hi⟩)
    · exact names_natCast.mpr (inState_open.mpr (Or.inl (inState_singleton.mp hi)))
    · exact names_natCast.mpr (inState_open.mpr (Or.inr (inState_singleton.mp hi)))

/-- A cancel of anything else is refused. -/
theorem cancelEffect_of_not_open {requestId : ℤ} (h : ¬ a.system.Names requestId [.requested, .allocated]) :
    CancelEffect a requestId := by
  have hacc : ¬ CancelAccepts a.system requestId := by
    intro hacc
    obtain ⟨i, rfl, -, hi⟩ := cancelAccepts_iff.mp hacc
    exact h (names_natCast.mpr (inState_open.mpr hi))
  have hrefused := cancelRequest_refused hacc
  constructor
  · rw [hrefused]
    exact iff_of_false (by simp) h
  · simp [hrefused]
  · simp [hrefused]
  · simp [hrefused]

/-- In every reachable state, a cancel has its whole effect exactly when its request
is not allocated; an id beyond `static_cast<int>(requests.size())` is refused. -/
theorem cancelEffect_iff (ops : List Op) (requestId : ℤ) :
    CancelEffect (run ops) requestId ↔
      ¬ (run ops).system.Names requestId [.allocated] ∧
      ((run ops).system.Names requestId [.requested] →
        requestId < toInt (run ops).system.requests.length) := by
  obtain ⟨l, h⟩ := represents_run ops
  constructor
  · intro heffect
    constructor
    · rintro ⟨i, rfl, hi⟩
      exact h.not_cancelEffect_of_allocated (inState_singleton.mp hi) heffect
    · intro hrequested
      have htrue := heffect.answer.mpr (names_open_iff.mpr (Or.inl hrequested))
      by_contra hlt
      have hacc : ¬ CancelAccepts (run ops).system requestId := by
        rintro ⟨j, hij, hj, -⟩
        exact hlt (hij ▸ hj)
      simp [cancelRequest_refused hacc] at htrue
  · rintro ⟨hallocated, hrange⟩
    by_cases hrequested : (run ops).system.Names requestId [.requested]
    · obtain ⟨i, rfl, hi⟩ := id hrequested
      exact h.cancelEffect_of_requested (inState_singleton.mp hi) (hrange hrequested)
    · apply cancelEffect_of_not_open
      intro hopen
      rcases names_open_iff.mp hopen with hopen | hopen
      · exact hrequested hopen
      · exact hallocated hopen

/-- Cancelling the only parked vehicle leaves its request in state `REQUESTED`. -/
theorem not_cancelEffect_twoParked : ¬ CancelEffect (run (twoParked.take 2)) 0 := by
  intro heffect
  have hcancelled := names_natCast.mp (heffect.cancelled (by decide))
  exact absurd (inState_singleton.mp hcancelled) (by decide)

/-- What a release is for: every parked vehicle can leave, and nothing else changes. -/
structure ReleaseEffect (a : Audit) (requestId : ℤ) : Prop where
  leaves : a.system.Names requestId activeStates →
    (a.system.releaseSlot requestId).1 = true ∧
    (a.system.releaseSlot requestId).2.Names requestId [.released] ∧
    ∀ (i : ℕ) (p : SlotRef), requestId = i → AssignedTo a i p →
      availability (a.system.releaseSlot requestId).2.zones p = some true
  refused : ¬ a.system.Names requestId activeStates →
    a.system.releaseSlot requestId = (false, a.system)

/-- No reachable state lets a vehicle leave: release has its effect exactly on the ids
that have nothing to release. -/
theorem releaseEffect_iff (ops : List Op) (requestId : ℤ) :
    ReleaseEffect (run ops) requestId ↔ ¬ (run ops).system.Names requestId activeStates := by
  obtain ⟨l, h⟩ := represents_run ops
  have hrefused := h.releaseSlot_eq requestId
  constructor
  · intro heffect hactive
    have htrue := (heffect.leaves hactive).1
    simp [hrefused] at htrue
  · intro hinactive
    exact ⟨fun hactive => absurd hactive hinactive, fun _ => hrefused⟩

theorem not_releaseEffect_twoParked : ¬ ReleaseEffect (run twoParked) 0 := by
  intro heffect
  have hactive : (run twoParked).system.Names 0 activeStates :=
    names_natCast.mpr ⟨.allocated, by decide, by decide⟩
  exact absurd (heffect.leaves hactive).1 (by decide)

end SmartParking.Audit
