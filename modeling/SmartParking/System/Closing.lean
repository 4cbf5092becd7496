import SmartParking.System.Audit

/-! # What cancelling and releasing do to the ledger

Both operations pop the latest entry of the ledger, whoever holds it. Releasing asks
for a transition that only an occupied request has, and none is ever occupied.
-/
namespace SmartParking.Audit
open Foundation ParkingRequest ParkingSystem

variable {a : Audit} {l : Ledger ℕ SlotRef}

/-- `cancelRequest(requestId)` gets past its checks. -/
abbrev CancelAccepts (ps : ParkingSystem) (requestId : ℤ) : Prop :=
  Accepts cancelRefuses .cancelled ps requestId

theorem cancelAccepts_iff {ps : ParkingSystem} {requestId : ℤ} :
    CancelAccepts ps requestId ↔ ∃ i : ℕ, requestId = i ∧ (i : ℤ) < toInt ps.requests.length ∧
      (stateAt? ps.requests i = some .requested ∨ stateAt? ps.requests i = some .allocated) := by
  constructor
  · rintro ⟨i, rfl, hi, state, hstate, hr, hv⟩
    refine ⟨i, rfl, hi, ?_⟩
    cases state with
    | requested => exact Or.inl hstate
    | allocated => exact Or.inr hstate
    | occupied => simp [isValid] at hv
    | released => simp [isValid] at hv
    | cancelled => simp [isValid] at hv
  · rintro ⟨i, rfl, hi, hstate | hstate⟩
    · exact ⟨i, rfl, hi, .requested, hstate, rfl, rfl⟩
    · exact ⟨i, rfl, hi, .allocated, hstate, rfl, rfl⟩

theorem Represents.not_releaseAccepts (h : Represents a l) (requestId : ℤ) :
    ¬ Accepts releaseRefuses .released a.system requestId := by
  rintro ⟨i, -, -, state, hstate, -, hv⟩
  rcases h.state hstate with ⟨rfl, -⟩ | ⟨rfl, -⟩ | rfl <;> simp [isValid] at hv

theorem Represents.releaseSlot_eq (h : Represents a l) (requestId : ℤ) :
    a.system.releaseSlot requestId = (false, a.system) :=
  closeRequest_refused (h.not_releaseAccepts requestId)

theorem Represents.cancelRequest_nil (h : Represents a l) {i : ℕ} (hi : CancelAccepts a.system i)
    (hl : l.entries = []) :
    a.system.cancelRequest i =
      (true, { a.system with requests := setCurrentState a.system.requests i .cancelled }) := by
  have hroll := rollback_one_nil
    { a.system with requests := setCurrentState a.system.requests i .cancelled } (h.history_nil hl)
  rw [cancelRequest, closeRequest_accepted hi, Int.toNat_natCast, hroll]

/-- The request and the slot of the latest entry are written back, not those of `i`. -/
theorem Represents.cancelRequest_cons (h : Represents a l) {i j : ℕ} {p : SlotRef}
    {rest : List (ℕ × SlotRef)} (hi : CancelAccepts a.system i) (hl : l.entries = (j, p) :: rest) :
    a.system.cancelRequest i =
      (true, { a.system with
        zones := setIsAvailable a.system.zones p true
        requests := setCurrentState (setCurrentState a.system.requests i .cancelled) j .requested
        rollbackManager := ⟨rest.map recordOf⟩ }) := by
  have hroll := rollback_one_cons
    { a.system with requests := setCurrentState a.system.requests i .cancelled } (h.history_cons hl)
  rw [cancelRequest, closeRequest_accepted hi, Int.toNat_natCast, hroll]

theorem step_cancelRequest (requestId : ℤ) :
    a.step (.cancelRequest requestId) = { a with system := (a.system.cancelRequest requestId).2 } := rfl

theorem Represents.cancel_nil (h : Represents a l) {i : ℕ} (hi : CancelAccepts a.system i)
    (hl : l.entries = []) : Represents (a.step (.cancelRequest i)) l := by
  rw [step_cancelRequest, h.cancelRequest_nil hi hl]
  constructor
  · exact h.history
  · exact h.assigned
  · simpa using h.assigned_length
  · exact h.zones_length
  · exact h.taken
  · exact h.free
  · intro x state hstate
    rw [stateAt?_setCurrentState] at hstate
    split at hstate
    · obtain ⟨-, -, rfl⟩ := Option.map_eq_some_iff.mp hstate
      exact Or.inr (Or.inr rfl)
    · exact h.state hstate

/-- Popping the latest entry frees its slot, whichever request was cancelled. -/
theorem Represents.cancel_cons (h : Represents a l) {i j : ℕ} {p : SlotRef}
    {rest : List (ℕ × SlotRef)} (hi : CancelAccepts a.system i) (hl : l.entries = (j, p) :: rest) :
    Represents (a.step (.cancelRequest i)) l.pop := by
  have htail : l.pop.entries = rest := congrArg List.tail hl
  rw [step_cancelRequest, h.cancelRequest_cons hi hl]
  constructor
  · rw [htail]
    rfl
  · intro x q hmem
    rw [htail] at hmem
    exact h.assigned (hl ▸ List.mem_cons_of_mem _ hmem)
  · simpa using h.assigned_length
  · simpa using h.zones_length
  · intro q hq
    rw [Ledger.places_pop hl] at hq
    obtain ⟨slot, hadded, havail, hnow⟩ := h.taken hq.1
    have hne : p ≠ q := fun heq => hq.2 heq.symm
    exact ⟨slot, hadded, havail, by simp [slotAt?_setIsAvailable, hne, hnow]⟩
  · intro q hq
    rw [Ledger.places_pop hl] at hq
    by_cases hpq : p = q
    · subst hpq
      have hp : p ∈ l.places := ⟨j, by simp [hl]⟩
      obtain ⟨slot, hadded, havail, hnow⟩ := h.taken hp
      have hslot : slot.setIsAvailable true = slot := ParkingSlot.setIsAvailable_self havail
      rw [slotAt?_setIsAvailable, if_pos rfl, hnow, Option.map_some,
        ParkingSlot.setIsAvailable_setIsAvailable, hslot]
      exact hadded.symm
    · have hq' : q ∉ l.places := fun hmem => hq ⟨hmem, fun heq => hpq heq.symm⟩
      simp only [slotAt?_setIsAvailable, if_neg hpq]
      exact h.free hq'
  · intro x state hstate
    rw [Ledger.holders_pop hl]
    rw [stateAt?_setCurrentState, stateAt?_setCurrentState] at hstate
    by_cases hx : j = x
    · subst hx
      rw [if_pos rfl] at hstate
      obtain ⟨-, -, rfl⟩ := Option.map_eq_some_iff.mp hstate
      exact Or.inr (Or.inl ⟨rfl, fun hmem => hmem.2 rfl⟩)
    · rw [if_neg hx] at hstate
      split at hstate
      · obtain ⟨-, -, rfl⟩ := Option.map_eq_some_iff.mp hstate
        exact Or.inr (Or.inr rfl)
      · rcases h.state hstate with ⟨rfl, hmem⟩ | ⟨rfl, hmem⟩ | rfl
        · exact Or.inl ⟨rfl, hmem, fun heq => hx heq.symm⟩
        · exact Or.inr (Or.inl ⟨rfl, fun hmem' => hmem hmem'.1⟩)
        · exact Or.inr (Or.inr rfl)

theorem cancelRequest_refused {ps : ParkingSystem} {requestId : ℤ} (h : ¬ CancelAccepts ps requestId) :
    ps.cancelRequest requestId = (false, ps) := closeRequest_refused h

theorem step_cancelRequest_refused {requestId : ℤ} (h : ¬ CancelAccepts a.system requestId) :
    a.step (.cancelRequest requestId) = a := by rw [step_cancelRequest, cancelRequest_refused h]

theorem Represents.step_releaseSlot (h : Represents a l) (requestId : ℤ) :
    a.step (.releaseSlot requestId) = a := by
  simp only [Audit.step, ParkingSystem.step, h.releaseSlot_eq]

theorem Represents.step (h : Represents a l) (op : Op) : ∃ l', Represents (a.step op) l' := by
  cases op with
  | addZone zone => exact ⟨l, h.addZone zone⟩
  | requestParking vehicleId requestedZoneId =>
    cases hslot : a.system.slotFor requestedZoneId with
    | none => exact ⟨l, h.requestParking_none hslot⟩
    | some p =>
      obtain ⟨hr, hp, h'⟩ := h.requestParking_some vehicleId hslot
      exact ⟨_, h'⟩
  | cancelRequest requestId =>
    by_cases hacc : CancelAccepts a.system requestId
    · obtain ⟨i, rfl, -⟩ := id hacc
      cases hl : l.entries with
      | nil => exact ⟨l, h.cancel_nil hacc hl⟩
      | cons entry rest => exact ⟨l.pop, h.cancel_cons hacc hl⟩
    · exact ⟨l, (step_cancelRequest_refused hacc).symm ▸ h⟩
  | releaseSlot requestId => exact ⟨l, (h.step_releaseSlot requestId).symm ▸ h⟩

/-- Every state a run reaches is represented by a ledger. -/
theorem represents_run (ops : List Op) : ∃ l, Represents (run ops) l := by
  have hstep : ∀ a op, True → (∃ l, Represents a l) → ∃ l, Represents (Audit.step a op) l :=
    fun a op _ ⟨l, hl⟩ => hl.step op
  exact Runs.run_invariant Audit.step hstep (fun _ _ => trivial) ⟨_, represents_new⟩

end SmartParking.Audit
