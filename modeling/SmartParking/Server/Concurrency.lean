import Mathlib.Logic.Function.Basic
import SmartParking.Server.ZoneHandlers

/-! # Concurrent creations

Any number of `handleCreateRequest` handlers on one parking system. A handler calls
`requestParking` in one atomic step and reads the last request in another; between the
two, the others may take theirs. A schedule lists whose turn it is.
-/
namespace SmartParking.Server
open Foundation ParkingRequest ParkingSystem

/-- Where a handler is. `own` is what its call returned, and `position` where the request
of the call was stored. -/
inductive Phase
  | waiting
  | called (own : ℤ) (position : ℕ)
  | answered (own : ℤ) (position : ℕ) (answer : ℤ)
  deriving DecidableEq, Repr

structure Concurrent (H : Type) where
  system : ParkingSystem
  phase : H → Phase

variable {H : Type} [DecidableEq H] (body : H → CreateBody)

def Concurrent.start (ps : ParkingSystem) : Concurrent H := ⟨ps, fun _ => .waiting⟩

/-- `ps.requests.back().requestId`, or 0. -/
def lastId (ps : ParkingSystem) : ℤ :=
  match ps.requests.getLast? with
  | some request => request.requestId
  | none => 0

/-- The call of one handler. -/
def callFor (s : Concurrent H) (h : H) : ℤ × ParkingSystem :=
  s.system.requestParking (body h).vehicleId (narrow (body h).requestedZoneId)

/-- One atomic step of one handler. -/
def advance (s : Concurrent H) (h : H) : Concurrent H :=
  match s.phase h with
  | .waiting =>
    let (own, system) := callFor body s h
    ⟨system, Function.update s.phase h (.called own s.system.requests.length)⟩
  | .called own position => { s with phase := Function.update s.phase h (.answered own position (lastId s.system)) }
  | .answered _ _ _ => s

/-- A handler that is not interrupted does what `handleCreateRequest` does. -/
theorem advance_advance (ps : ParkingSystem) (h : H) :
    ∃ own answer, Runs.run (advance body) (.start ps) [h, h] =
        ⟨(handleCreateRequest (some (body h)) ps).2,
          Function.update (fun _ => .waiting) h (.answered own ps.requests.length answer)⟩ ∧
      (handleCreateRequest (some (body h)) ps).1 = .ofBody 201 (createdBody answer) := by
  refine ⟨(callFor body (.start ps) h).1, lastId (callFor body (.start ps) h).2, ?_, rfl⟩
  simp only [Runs.run_cons, Runs.run_nil, advance, Concurrent.start, Function.update_self,
    Function.update_idem]
  rfl

/-- A handler that calls gets a request: its call does not return -1. -/
def CallSucceeds (s : Concurrent H) (h : H) : Prop := s.phase h = .waiting → (callFor body s h).1 ≠ -1

/-- Every answer so far is the id the handler's own call returned, and no two are equal. -/
def OwnIds (s : Concurrent H) : Prop :=
  (∀ h own position answer, s.phase h = .answered own position answer → answer = own) ∧
    ∀ h h' own own' position position' answer answer', s.phase h = .answered own position answer →
      s.phase h' = .answered own' position' answer' → h ≠ h' → answer ≠ answer'

/-- A handler that answers finds its own request last, and no handler that has answered
had a request of the same id: the positions are compared modulo 2^32. -/
def OwnIsLast (s : Concurrent H) (h : H) : Prop :=
  match s.phase h with
  | .called _ position =>
    (s.system.requests.length - 1) % 2 ^ 32 = position % 2 ^ 32 ∧
      ∀ h' own' position' answer', s.phase h' = .answered own' position' answer' →
        position' % 2 ^ 32 ≠ position % 2 ^ 32
  | _ => True

/-- The handler has called, and its call returned `own` and stored its request at `position`. -/
def HasCalled (s : Concurrent H) (h : H) (own : ℤ) (position : ℕ) : Prop :=
  s.phase h = .called own position ∨ ∃ answer, s.phase h = .answered own position answer

/-- Once a handler has called, the requests end with one that has the id of its position,
and every handler was given the id of its own. -/
structure Consistent (s : Concurrent H) : Prop where
  own : ∀ h own position, HasCalled s h own position → own = toInt position
  last : ∀ h own position, HasCalled s h own position →
    lastId s.system = toInt (s.system.requests.length - 1)

omit [DecidableEq H] in
theorem consistent_start (ps : ParkingSystem) : Consistent (Concurrent.start ps : Concurrent H) := by
  have hnot : ∀ h own position, ¬ HasCalled (Concurrent.start ps : Concurrent H) h own position := by
    rintro h own position (hphase | ⟨answer, hphase⟩)
    · exact Phase.noConfusion hphase
    · exact Phase.noConfusion hphase
  exact ⟨fun h own position hc => absurd hc (hnot h own position),
    fun h own position hc => absurd hc (hnot h own position)⟩

variable {body} {s : Concurrent H} {h : H}

/-- What a call that succeeds leaves behind. -/
theorem advance_waiting (hphase : s.phase h = .waiting) (hcall : (callFor body s h).1 ≠ -1) :
    ∃ request, advance body s h =
        ⟨(callFor body s h).2, Function.update s.phase h
          (.called (toInt s.system.requests.length) s.system.requests.length)⟩ ∧
      (callFor body s h).2.requests = s.system.requests ++ [request] ∧
      request.requestId = toInt s.system.requests.length := by
  obtain ⟨p, hslot⟩ := slotFor_of_answer hcall
  have hrequest : callFor body s h = _ := requestParking_some hslot
  refine ⟨⟨toInt s.system.requests.length, (body h).vehicleId, narrow (body h).requestedZoneId, 0, .allocated⟩,
    ?_, ?_, ?_⟩
  · simp only [advance, hphase, hrequest]
  · rw [hrequest]
  · dsimp only

theorem lastId_append {ps after : ParkingSystem} {request : ParkingRequest}
    (hrequests : after.requests = ps.requests ++ [request]) : lastId after = request.requestId := by
  rw [lastId, hrequests, List.getLast?_append, List.getLast?_singleton, Option.some_or]

theorem consistent_advance (hs : Consistent s) (hcall : CallSucceeds body s h) :
    Consistent (advance body s h) := by
  cases hphase : s.phase h with
  | waiting =>
    obtain ⟨request, hadvance, hrequests, hid⟩ := advance_waiting hphase (hcall hphase)
    rw [hadvance]
    constructor
    · intro h' own position hc
      by_cases hh : h' = h
      · subst hh
        simp only [HasCalled, Function.update_self, Phase.called.injEq, reduceCtorEq, exists_false, or_false] at hc
        rw [← hc.1, ← hc.2]
      · simp only [HasCalled, Function.update_of_ne hh] at hc
        exact hs.own h' own position hc
    · intro _ _ _ _
      rw [lastId_append hrequests, hid, hrequests, List.length_append, List.length_singleton, Nat.add_sub_cancel]
  | called own₀ position₀ =>
    have hold : ∀ h' own position, HasCalled (advance body s h) h' own position → HasCalled s h' own position := by
      intro h' own position hc
      simp only [advance, hphase, HasCalled] at hc ⊢
      by_cases hh : h' = h
      · subst hh
        simp only [Function.update_self, Phase.answered.injEq, reduceCtorEq, false_or] at hc
        obtain ⟨answer, rfl, rfl, -⟩ := hc
        exact Or.inl hphase
      · rwa [Function.update_of_ne hh] at hc
    have hsystem : (advance body s h).system = s.system := by simp only [advance, hphase]
    constructor
    · intro h' own position hc
      exact hs.own h' own position (hold h' own position hc)
    · intro h' own position hc
      rw [hsystem]
      exact hs.last h' own position (hold h' own position hc)
  | answered own₀ position₀ answer₀ =>
    have hsame : advance body s h = s := by simp only [advance, hphase]
    rw [hsame]
    exact hs

omit [DecidableEq H] in
/-- A step that answers nothing leaves the answers as they are. -/
theorem ownIds_congr {s' : Concurrent H}
    (hsame : ∀ h own position answer,
      s'.phase h = .answered own position answer ↔ s.phase h = .answered own position answer) :
    OwnIds s' ↔ OwnIds s := by
  simp only [OwnIds, hsame]

/-- One answer more is right when it is the id of the handler's own call and new. -/
theorem ownIds_answer_iff (hids : OwnIds s) {own answer : ℤ} {position : ℕ}
    (hphase : s.phase h = .called own position) :
    OwnIds ⟨s.system, Function.update s.phase h (.answered own position answer)⟩ ↔
      answer = own ∧ ∀ h' own' position' answer', s.phase h' = .answered own' position' answer' →
        answer' ≠ answer := by
  have hother : ∀ {h' own' position' answer'}, s.phase h' = .answered own' position' answer' → h' ≠ h := by
    rintro h' own' position' answer' hanswered rfl
    rw [hphase] at hanswered
    exact Phase.noConfusion hanswered
  constructor
  · rintro ⟨hown, hnew⟩
    refine ⟨hown h own position answer (Function.update_self ..), ?_⟩
    intro h' own' position' answer' hanswered
    have hne := hother hanswered
    exact hnew h' h own' own position' position answer' answer
      ((Function.update_of_ne hne _ _).trans hanswered) (Function.update_self ..) hne
  · rintro ⟨rfl, hnew⟩
    constructor
    · intro h' own' position' answer' hanswered
      by_cases hh : h' = h
      · subst hh
        simp only [Function.update_self, Phase.answered.injEq] at hanswered
        rw [← hanswered.1, ← hanswered.2.2]
      · simp only [Function.update_of_ne hh] at hanswered
        exact hids.1 h' own' position' answer' hanswered
    · intro h₁ h₂ own₁ own₂ position₁ position₂ answer₁ answer₂ hanswered₁ hanswered₂ hne
      by_cases hh₁ : h₁ = h
      · subst hh₁
        simp only [Function.update_of_ne (Ne.symm hne)] at hanswered₂
        simp only [Function.update_self, Phase.answered.injEq] at hanswered₁
        rw [← hanswered₁.2.2]
        exact (hnew h₂ own₂ position₂ answer₂ hanswered₂).symm
      · simp only [Function.update_of_ne hh₁] at hanswered₁
        by_cases hh₂ : h₂ = h
        · subst hh₂
          simp only [Function.update_self, Phase.answered.injEq] at hanswered₂
          rw [← hanswered₂.2.2]
          exact hnew h₁ own₁ position₁ answer₁ hanswered₁
        · simp only [Function.update_of_ne hh₂] at hanswered₂
          exact hids.2 h₁ h₂ own₁ own₂ position₁ position₂ answer₁ answer₂ hanswered₁ hanswered₂ hne

theorem ownIds_advance_iff (hs : Consistent s) (hids : OwnIds s) (hcall : CallSucceeds body s h) :
    OwnIds (advance body s h) ↔ OwnIsLast s h := by
  cases hphase : s.phase h with
  | waiting =>
    obtain ⟨request, hadvance, -, -⟩ := advance_waiting hphase (hcall hphase)
    have hsame : ∀ h' own position answer, (advance body s h).phase h' = .answered own position answer ↔
        s.phase h' = .answered own position answer := by
      intro h' own position answer
      rw [hadvance]
      by_cases hh : h' = h
      · subst hh
        simp only [Function.update_self, hphase, reduceCtorEq]
      · simp only [Function.update_of_ne hh]
    rw [ownIds_congr hsame]
    exact iff_of_true hids (by simp only [OwnIsLast, hphase])
  | called own position =>
    have hcalled : HasCalled s h own position := Or.inl hphase
    have hown := hs.own h own position hcalled
    have hlast := hs.last h own position hcalled
    have hadvance : advance body s h =
        ⟨s.system, Function.update s.phase h (.answered own position (lastId s.system))⟩ := by
      simp only [advance, hphase]
    rw [hadvance, ownIds_answer_iff hids hphase, hlast]
    simp only [OwnIsLast, hphase]
    rw [hown, toInt_eq_toInt_iff]
    apply and_congr_right
    intro hmod
    constructor
    · intro hnew h' own' position' answer' hanswered heq
      apply hnew h' own' position' answer' hanswered
      rw [hids.1 h' own' position' answer' hanswered, hs.own h' own' position' (Or.inr ⟨answer', hanswered⟩),
        toInt_eq_toInt_iff, hmod]
      exact heq
    · intro hnew h' own' position' answer' hanswered heq
      apply hnew h' own' position' answer' hanswered
      rw [hids.1 h' own' position' answer' hanswered, hs.own h' own' position' (Or.inr ⟨answer', hanswered⟩),
        toInt_eq_toInt_iff, hmod] at heq
      exact heq
  | answered own position answer =>
    have hsame : advance body s h = s := by simp only [advance, hphase]
    rw [hsame]
    exact iff_of_true hids (by simp only [OwnIsLast, hphase])

omit [DecidableEq H] in
theorem ownIds_start (ps : ParkingSystem) : OwnIds (Concurrent.start ps : Concurrent H) := by
  constructor
  · intro h own position answer hanswered
    exact Phase.noConfusion hanswered
  · intro h h' own own' position position' answer answer' hanswered
    exact Phase.noConfusion hanswered

/-- In a schedule whose calls all succeed, the handlers answer their own ids exactly when
each of them finds its own request last. -/
theorem own_ids_iff (body : H → CreateBody) (ps : ParkingSystem) (schedule : List H)
    (hcalls : Runs.EveryStep (advance body) (CallSucceeds body) (.start ps) schedule) :
    Runs.EveryState (advance body) OwnIds (.start ps) schedule ↔
      Runs.EveryStep (advance body) OwnIsLast (.start ps) schedule :=
  Runs.everyState_iff_of_everyStep (advance body) (fun _ _ hcall hs => consistent_advance hs hcall)
    (fun _ _ hcall hs hids => ownIds_advance_iff hs hids hcall) hcalls (consistent_start ps) (ownIds_start ps)

/-- Two clients of the demo zones. -/
def twoBodies : Bool → CreateBody
  | false => ⟨"AAA-1", 1⟩
  | true => ⟨"BBB-2", 2⟩

instance (s : Concurrent Bool) (h : Bool) : Decidable (CallSucceeds twoBodies s h) :=
  inferInstanceAs (Decidable (_ → _))

/-- One client after the other. -/
theorem own_ids_iff_sequential :
    Runs.EveryState (advance twoBodies) OwnIds (.start seeded) [false, false, true, true] ↔
      Runs.EveryStep (advance twoBodies) OwnIsLast (.start seeded) [false, false, true, true] :=
  own_ids_iff twoBodies seeded [false, false, true, true]
    (by simp only [Runs.everyStep_cons, Runs.everyStep_nil]; decide)

/-- The second client calls before the first one reads its id back. -/
theorem own_ids_mixed :
    Runs.EveryStep (advance twoBodies) (CallSucceeds twoBodies) (.start seeded) [false, true, false] ∧
      ¬ Runs.EveryState (advance twoBodies) OwnIds (.start seeded) [false, true, false] := by
  constructor
  · simp only [Runs.everyStep_cons, Runs.everyStep_nil]
    decide
  · intro hids
    have hfirst := (hids [false, true, false] (List.prefix_refl _)).1 false 3 3 4 (by decide)
    omega

end SmartParking.Server
