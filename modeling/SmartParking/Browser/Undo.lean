import Mathlib.Logic.Function.Iterate
import SmartParking.Browser.Effects
import SmartParking.Foundation.UndoLog

/-! # Undoing in the browser state

The history is an undo log over the zones: each entry saves what its slot held, and
appending zones disturbs no entry. Undoing as many steps as calls succeeded gives back
the zones and the history of before, with the zones added since as they were created.
-/
namespace SmartParking.Browser
open Foundation Foundation.UndoLog

/-- What `undoLast` does to the zones with the entry it popped. -/
def restore (action : AllocationAction) (zones : List Zone) : List Zone :=
  match resolve zones (action.zoneId, action.slotId) with
  | some p => setVehicle zones p action.vehicleBefore
  | none => zones

def Resolves (action : AllocationAction) (zones : List Zone) : Prop :=
  ∃ p, resolve zones (action.zoneId, action.slotId) = some p

def Appends (e : List Zone → List Zone) : Prop := ∃ new, ∀ zones, e zones = zones ++ new

theorem restore_eq {action : AllocationAction} {zones : List Zone} {p : SlotRef}
    (h : resolve zones (action.zoneId, action.slotId) = some p) :
    restore action zones = setVehicle zones p action.vehicleBefore := by
  rw [restore, h]

theorem resolve_restore (action : AllocationAction) (zones : List Zone) (name : Name) :
    resolve (restore action zones) name = resolve zones name := by
  unfold restore
  split
  · exact resolve_setVehicle ..
  · rfl

/-- An entry that resolves keeps resolving to the same slot when zones are appended. -/
theorem restore_extensible : Extensible restore Resolves Appends where
  comm := by
    rintro e action zones ⟨new, he⟩ ⟨p, hp⟩
    obtain ⟨hp', hlt⟩ := resolve_append_left hp new
    rw [he, he, restore_eq hp, restore_eq hp', setVehicle_append hlt]
  valid_ext := by
    rintro e action zones ⟨new, he⟩ ⟨p, hp⟩
    rw [he]
    exact ⟨p, (resolve_append_left hp new).1⟩
  valid_restore := by
    intro action' action zones
    simp only [Resolves, resolve_restore]

/-- The zones that the steps of a run add, each as it is when it is added. -/
def created {O : Type} (step : State → O → State) : State → List O → List Zone
  | _, [] => []
  | s, o :: ops => (step s o).zones.drop s.zones.length ++ created step (step s o) ops

theorem created_snoc {O : Type} (step : State → O → State) (s : State) (ops : List O) (o : O) :
    created step s (ops ++ [o]) = created step s ops ++
      (step (Runs.run step s ops) o).zones.drop (Runs.run step s ops).zones.length := by
  induction ops generalizing s with
  | nil => simp only [List.nil_append, created, List.append_nil, Runs.run_nil]
  | cons o' ops ih =>
    rw [List.cons_append, created, ih, created, List.append_assoc, Runs.run_cons]

variable {uuid : UuidSource} {s s' : State} {new : List Zone} {p : SlotRef} {action : AllocationAction}

theorem Grows.drop_eq (h : Grows uuid s s' new) : s'.zones.drop s.zones.length = new := by
  rw [h.zones, List.drop_left]

theorem drop_setVehicle (zones : List Zone) (p : SlotRef) (vehicle : Option Vehicle) :
    (setVehicle zones p vehicle).drop zones.length = [] := by
  apply List.drop_eq_nil_of_le
  rw [length_setVehicle]

theorem Writes.drop_eq (h : Writes uuid s s' p action) : s'.zones.drop s.zones.length = [] := by
  rw [h.zones, drop_setVehicle]

theorem Undoes.drop_eq {last : AllocationAction} (h : Undoes s s' p last) : s'.zones.drop s.zones.length = [] := by
  rw [h.zones, drop_setVehicle]

/-- Restoring the entry of a write undoes the write. -/
theorem Writes.restore_eq (h : Writes uuid s s' p action) (hs : Sound uuid s) :
    Resolves action s'.zones ∧ restore action s'.zones = s.zones := by
  have hp : resolve s'.zones (action.zoneId, action.slotId) = some p := by
    rw [h.zones, resolve_setVehicle]
    exact hs.distinct.resolve_eq h.name
  obtain ⟨slot, hslot, hbefore⟩ := h.before
  refine ⟨⟨p, hp⟩, ?_⟩
  rw [Browser.restore_eq hp, h.zones, setVehicle_setVehicle, hbefore, setVehicle_self hslot]

namespace State

/-- The number of allocations and deallocations that succeed. -/
def successes (uuid : UuidSource) : State → List Call → ℕ
  | _, [] => 0
  | s, c :: calls => (s.succeeds uuid c).toNat + successes uuid (s.call uuid c) calls

theorem successes_snoc (s : State) (calls : List Call) (c : Call) :
    s.successes uuid (calls ++ [c]) =
      s.successes uuid calls + ((Runs.run (call uuid) s calls).succeeds uuid c).toNat := by
  induction calls generalizing s with
  | nil => simp only [List.nil_append, successes, Runs.run_nil, Nat.add_zero, Nat.zero_add]
  | cons first rest ih =>
    rw [List.cons_append, successes, ih, successes, Runs.run_cons]
    omega

/-- What the calls left behind: the entries they pushed, on record in order. -/
structure Recording (uuid : UuidSource) (s : State) (calls : List Call) (pushed : List AllocationAction) : Prop where
  history : (Runs.run (call uuid) s calls).history = pushed ++ s.history
  length : pushed.length = s.successes uuid calls
  recorded : Recorded restore Resolves Appends s.zones pushed (Runs.run (call uuid) s calls).zones
    (s.zones ++ created (call uuid) s calls)

theorem sound_calls (hs : Sound uuid s) (calls : List Call) : Sound uuid (Runs.run (call uuid) s calls) := by
  have hstep : ∀ s c, True → Sound uuid s → Sound uuid (call uuid s c) := fun _ c _ h => h.step (.call c)
  exact Runs.run_invariant (call uuid) hstep (fun _ _ => trivial) hs

theorem exists_recording (hs : Sound uuid s) (calls : List Call) : ∃ pushed, Recording uuid s calls pushed := by
  induction calls using List.reverseRecOn with
  | nil => exact ⟨[], rfl, rfl, by rw [created, List.append_nil]; exact Recorded.start⟩
  | append_singleton calls c ih =>
    obtain ⟨pushed, h⟩ := ih
    have ht := sound_calls hs calls
    rcases call_cases uuid (Runs.run (call uuid) s calls) c with ⟨hfalse, new, hg⟩ | ⟨htrue, p, action, hw⟩
    · refine ⟨pushed, ?_, ?_, ?_⟩
      · rw [Runs.run_append, Runs.run_cons, Runs.run_nil, hg.history, h.history]
      · rw [successes_snoc, hfalse, h.length]
        rfl
      · rw [Runs.run_append, Runs.run_cons, Runs.run_nil, created_snoc, hg.drop_eq, hg.zones, ← List.append_assoc]
        exact h.recorded.extend (· ++ new) ⟨new, fun _ => rfl⟩
    · obtain ⟨hresolves, hrestore⟩ := hw.restore_eq ht
      refine ⟨action :: pushed, ?_, ?_, ?_⟩
      · rw [Runs.run_append, Runs.run_cons, Runs.run_nil, hw.history, h.history, List.cons_append]
      · rw [successes_snoc, htrue, List.length_cons, h.length]
        rfl
      · rw [Runs.run_append, Runs.run_cons, Runs.run_nil, created_snoc, hw.drop_eq, List.append_nil]
        exact h.recorded.record action id ⟨[], fun zones => (List.append_nil zones).symm⟩ hresolves hrestore

def undo (s : State) : State := s.undoLast.2

/-- Undoing the entries of a sound state one by one replays them on the zones. -/
theorem undo_iterate {t : State} (ht : Sound uuid t) {pushed log : List AllocationAction}
    (h : t.history = pushed ++ log) :
    (∀ k < pushed.length, (undo^[k] t).undoLast.1 ≠ none) ∧
      undo^[pushed.length] t = { t with zones := replay restore pushed t.zones, history := log } := by
  induction pushed generalizing t with
  | nil =>
    constructor
    · intro k hk
      exact absurd hk (Nat.not_lt_zero k)
    · obtain ⟨zones, history, activeZoneId, issued⟩ := t
      obtain rfl : history = log := h
      rfl
  | cons last pushed ih =>
    rw [List.cons_append] at h
    obtain ⟨p, hname, hundo⟩ := undoLast_cons ht h
    have hrestore := restore_eq (ht.distinct.resolve_eq hname)
    have hsound : Sound uuid (undo t) := ht.step .undoLast
    have hstep : undo t = { t with zones := restore last t.zones, history := pushed ++ log } := by
      rw [undo, hundo, hrestore]
    obtain ⟨hanswers, hzones⟩ := ih hsound (by rw [hstep])
    constructor
    · intro k hk
      cases k with
      | zero =>
        rw [Function.iterate_zero, id_eq, hundo]
        exact Option.some_ne_none _
      | succ k =>
        rw [Function.iterate_succ_apply]
        exact hanswers k (by simpa using hk)
    · rw [List.length_cons, Function.iterate_succ_apply, hzones, hstep]
      rfl

theorem layout_replay (log : List AllocationAction) (zones : List Zone) :
    (replay restore log zones).map Zone.layout = zones.map Zone.layout := by
  induction log generalizing zones with
  | nil => rfl
  | cons action log ih =>
    rw [replay_cons, ih, restore]
    split
    · exact layout_setVehicle ..
    · rfl

/-- Undoing is exact: from any reachable state, any calls and then as many undos as calls
succeeded. -/
theorem undo_exact (uuid : UuidSource) (ops : List Op) (calls : List Call) :
    (∀ k < (run uuid ops).successes uuid calls,
      (undo^[k] (Runs.run (call uuid) (run uuid ops) calls)).undoLast.1 ≠ none) ∧
    undo^[(run uuid ops).successes uuid calls] (Runs.run (call uuid) (run uuid ops) calls) =
      { Runs.run (call uuid) (run uuid ops) calls with
        zones := (run uuid ops).zones ++ created (call uuid) (run uuid ops) calls
        history := (run uuid ops).history } ∧
    ((run uuid ops).zones ++ created (call uuid) (run uuid ops) calls).map Zone.layout =
      (Runs.run (call uuid) (run uuid ops) calls).zones.map Zone.layout := by
  have hs : Sound uuid (run uuid ops) := (sound_new uuid).run ops
  obtain ⟨pushed, h⟩ := exists_recording hs calls
  have hreplay := h.recorded.replay_eq restore_extensible
  obtain ⟨hanswers, hundone⟩ := undo_iterate (sound_calls hs calls) h.history
  rw [← h.length]
  refine ⟨hanswers, ?_, ?_⟩
  · rw [hundone, hreplay]
  · rw [← hreplay, layout_replay]

end State

end SmartParking.Browser
