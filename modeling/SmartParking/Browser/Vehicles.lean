import SmartParking.Browser.Effects

/-! # Every vehicle has one slot

Each vehicle carries an id that one call of `uuid` gave out, so a map from the numbers of
those calls to slots can say where a vehicle belongs. The vehicles in the slots and the
copies in the history all keep to one such map, which grows as ids are given out and
never changes for an id given out before.
-/
namespace SmartParking.Browser
open Foundation Foundation.ListUpdate

/-- The vehicle got its id from one of the first `n` calls of `uuid`, and the slot that
belongs to that call is `p`. -/
def AtHome (uuid : UuidSource) (home : ℕ → SlotRef) (n : ℕ) (p : SlotRef) (v : Vehicle) : Prop :=
  ∃ k < n, v.id = uuid.value k ∧ home k = p

/-- Every vehicle in a slot or saved in an entry is at home there. -/
structure Homed (uuid : UuidSource) (home : ℕ → SlotRef) (s : State) : Prop where
  sound : Sound uuid s
  parked : ∀ p v, occupantAt s.zones p = some v → AtHome uuid home s.issued p v
  saved : ∀ action ∈ s.history, ∃ p, nameAt? s.zones p = some (action.zoneId, action.slotId) ∧
    ∀ v, action.vehicleBefore = some v ∨ action.vehicleAfter = some v → AtHome uuid home s.issued p v

/-- The maps agree on the ids given out so far. -/
def Agree (s : State) (home home' : ℕ → SlotRef) : Prop := ∀ k < s.issued, home' k = home k

variable {uuid : UuidSource} {home home' : ℕ → SlotRef} {s s' : State} {zones new : List Zone} {p q : SlotRef}
  {action last : AllocationAction} {v w : Vehicle} {n n' : ℕ}

theorem AtHome.mono (h : AtHome uuid home n p v) (hn : n ≤ n') (hhome : ∀ k < n, home' k = home k) :
    AtHome uuid home' n' p v := by
  obtain ⟨k, hk, hid, rfl⟩ := h
  exact ⟨k, by omega, hid, hhome k hk⟩

/-- One id has one home. -/
theorem AtHome.unique (hv : AtHome uuid home n p v) (hw : AtHome uuid home n' q w) (h : v.id = w.id) : p = q := by
  obtain ⟨k, -, hk, rfl⟩ := hv
  obtain ⟨k', -, hk', rfl⟩ := hw
  have heq : k = k' := uuid.distinct (hk.symm.trans (h.trans hk'))
  rw [heq]

theorem Homed.of_agree (h : Homed uuid home s) (hhome : Agree s home home') : Homed uuid home' s where
  sound := h.sound
  parked p v hv := (h.parked p v hv).mono (Nat.le_refl _) hhome
  saved := by
    intro action haction
    obtain ⟨p, hp, hsaved⟩ := h.saved action haction
    exact ⟨p, hp, fun v hv => (hsaved v hv).mono (Nat.le_refl _) hhome⟩

theorem occupantAt_setVehicle {slot : Slot} (h : slotAt? zones p = some slot) (vehicle : Option Vehicle) :
    occupantAt (setVehicle zones p vehicle) = Function.update (occupantAt zones) p vehicle := by
  funext q
  by_cases hq : q = p
  · rw [hq, Function.update_self, occupantAt, slotAt?_setVehicle, if_pos rfl, h, Option.map_some,
      Option.bind_some]
    rfl
  · rw [Function.update_of_ne hq, occupantAt, slotAt?_setVehicle, if_neg (Ne.symm hq), occupantAt]

/-- Where the zones built in one call hold a vehicle, its id decides the slot. -/
theorem Minted.exists_homes {a b : ℕ} (h : Minted uuid a b new) :
    ∃ f : ℕ → SlotRef, ∀ p v k, occupantAt new p = some v → v.id = uuid.value k → f k = p := by
  have hone : ∀ k, ∃ q, ∀ p v, occupantAt new p = some v → v.id = uuid.value k → q = p := by
    intro k
    by_cases hex : ∃ q v, occupantAt new q = some v ∧ v.id = uuid.value k
    · obtain ⟨q, w, hw, hid⟩ := hex
      exact ⟨q, fun p v hv hid' => h.vehicleInj q p w v hw hv (hid.trans hid'.symm)⟩
    · exact ⟨⟨0, 0⟩, fun p v hv hid => absurd ⟨p, v, hv, hid⟩ hex⟩
  choose f hf using hone
  exact ⟨f, fun p v k => hf k p v⟩

theorem Grows.homed (h : Homed uuid home s) (hg : Grows uuid s s' new) :
    ∃ home', Agree s home home' ∧ Homed uuid home' s' := by
  obtain ⟨f, hf⟩ := hg.minted.exists_homes
  have hle : s.issued ≤ s'.issued := hg.minted.le
  refine ⟨fun k => if k < s.issued then home k else ⟨s.zones.length + (f k).zone, (f k).slot⟩, ?_, ?_⟩
  · intro k hk
    exact if_pos hk
  · refine ⟨hg.sound h.sound, ?_, ?_⟩
    · intro p v hv
      rw [hg.zones, occupantAt] at hv
      by_cases hp : p.zone < s.zones.length
      · rw [slotAt?_append_left hp] at hv
        exact (h.parked p v hv).mono hle (fun k hk => if_pos hk)
      · have hp' : s.zones.length ≤ p.zone := Nat.le_of_not_lt hp
        rw [slotAt?_append_right hp'] at hv
        obtain ⟨k, hak, hkb, hid⟩ := hg.minted.vehicleIds _ v hv
        refine ⟨k, hkb, hid, ?_⟩
        obtain ⟨pz, ps⟩ := p
        simp only [if_neg (Nat.not_lt.mpr hak), hf _ v k hv hid, Nat.add_sub_cancel' hp']
    · intro action haction
      rw [hg.history] at haction
      obtain ⟨p, hp, hsaved⟩ := h.saved action haction
      refine ⟨p, ?_, fun v hv => (hsaved v hv).mono hle (fun k hk => if_pos hk)⟩
      rw [hg.zones, nameAt?_append_left (zone_lt_of_nameAt? hp)]
      exact hp

/-- Writing a slot keeps every vehicle at home if the vehicle written is at home there. -/
theorem Homed.setVehicle (h : Homed uuid home s) (hsound : Sound uuid s') {name : Name} {vehicle : Option Vehicle}
    (hname : nameAt? s.zones p = some name) (hzones : s'.zones = Browser.setVehicle s.zones p vehicle)
    (hissued : s.issued ≤ s'.issued) (hhome : Agree s home home')
    (hvehicle : ∀ v, vehicle = some v → AtHome uuid home' s'.issued p v)
    (hsaved : ∀ action ∈ s'.history, action ∈ s.history ∨ (action.zoneId, action.slotId) = name ∧
      ∀ v, action.vehicleBefore = some v ∨ action.vehicleAfter = some v → AtHome uuid home' s'.issued p v) :
    Homed uuid home' s' := by
  refine ⟨hsound, ?_, ?_⟩
  · intro q v hv
    obtain ⟨slot, hslot⟩ := exists_slotAt? hname
    rw [hzones, occupantAt_setVehicle hslot] at hv
    by_cases hq : q = p
    · rw [hq, Function.update_self] at hv
      rw [hq]
      exact hvehicle v hv
    · rw [Function.update_of_ne hq] at hv
      exact (h.parked q v hv).mono hissued hhome
  · intro action haction
    rw [hzones]
    rcases hsaved action haction with hold | ⟨hthis, hnew⟩
    · obtain ⟨q, hq, hat⟩ := h.saved action hold
      exact ⟨q, (nameAt?_setVehicle ..).trans hq, fun v hv => (hat v hv).mono hissued hhome⟩
    · exact ⟨p, (nameAt?_setVehicle ..).trans (hthis ▸ hname), hnew⟩

/-- The vehicle an allocation brings gets the slot it is put in as its home. -/
theorem Writes.homed (h : Homed uuid home s) (hw : Writes uuid s s' p action) :
    ∃ home', Agree s home home' ∧ Homed uuid home' s' := by
  obtain ⟨slot, hslot, hbefore⟩ := hw.before
  have hle : s.issued ≤ s'.issued := hw.fits.issued_le
  have hagree : Agree s home (Function.update home s.issued p) := by
    intro k hk
    exact Function.update_of_ne (Nat.ne_of_lt hk) p home
  have hold : ∀ v, action.vehicleBefore = some v → AtHome uuid home s.issued p v := by
    intro v hv
    apply h.parked p v
    rw [occupantAt, hslot, Option.bind_some, ← hbefore, hv]
  have hnew : ∀ v, action.vehicleAfter = some v → AtHome uuid (Function.update home s.issued p) s'.issued p v := by
    intro v hv
    have hfits := hw.fits
    unfold Fits at hfits
    split at hfits
    · obtain ⟨-, hissued, v', hafter, hid⟩ := hfits
      obtain rfl := Option.some.inj (hafter.symm.trans hv)
      exact ⟨s.issued, by omega, hid, Function.update_self ..⟩
    · rw [hfits.2.1] at hv
      contradiction
  refine ⟨Function.update home s.issued p, hagree, ?_⟩
  apply h.setVehicle (hw.sound h.sound) hw.name hw.zones hle hagree hnew
  intro action' haction'
  rw [hw.history] at haction'
  rcases List.mem_cons.mp haction' with rfl | haction'
  · refine Or.inr ⟨rfl, ?_⟩
    rintro v (hv | hv)
    · exact (hold v hv).mono hle hagree
    · exact hnew v hv
  · exact Or.inl haction'

/-- The vehicle an undo brings back is the one its entry saved for that slot. -/
theorem Undoes.homed (h : Homed uuid home s) (hu : Undoes s s' p last) : Homed uuid home s' := by
  obtain ⟨q, hq, hsaved⟩ := h.saved last (hu.history ▸ List.mem_cons_self)
  obtain rfl : p = q := h.sound.distinct.nameAt?_inj hu.name hq
  apply h.setVehicle (hu.sound h.sound) hu.name hu.zones hu.issued.ge (fun _ _ => rfl)
  · intro v hv
    rw [hu.issued]
    exact hsaved v (Or.inl hv)
  · intro action haction
    exact Or.inl (hu.history ▸ List.mem_cons_of_mem _ haction)

theorem Homed.step (h : Homed uuid home s) (op : State.Op) :
    ∃ home', Agree s home home' ∧ Homed uuid home' (s.step uuid op) := by
  rcases step_cases h.sound op with ⟨new, hg⟩ | ⟨p, action, hw⟩ | ⟨p, last, hu⟩
  · exact hg.homed h
  · exact hw.homed h
  · exact ⟨home, fun _ _ => rfl, hu.homed h⟩

/-- The numbers given out and the names of the slots are never taken back. -/
structure Extends (s s' : State) : Prop where
  issued : s.issued ≤ s'.issued
  names : ∀ p name, nameAt? s.zones p = some name → nameAt? s'.zones p = some name

theorem Sound.step_extends (hs : Sound uuid s) (op : State.Op) : Extends s (s.step uuid op) := by
  rcases step_cases hs op with ⟨new, hg⟩ | ⟨p, action, hw⟩ | ⟨p, last, hu⟩
  · refine ⟨hg.minted.le, ?_⟩
    intro q name hq
    rw [hg.zones, nameAt?_append_left (zone_lt_of_nameAt? hq)]
    exact hq
  · refine ⟨hw.fits.issued_le, ?_⟩
    intro q name hq
    rw [hw.zones, nameAt?_setVehicle]
    exact hq
  · refine ⟨hu.issued.ge, ?_⟩
    intro q name hq
    rw [hu.zones, nameAt?_setVehicle]
    exact hq

/-- One map says where the vehicles of all states of a run belong. -/
theorem exists_homes (uuid : UuidSource) (ops : List State.Op) :
    ∃ home, Runs.EveryState (State.step uuid) (Homed uuid home) State.new ops := by
  have hnew : Homed uuid (fun _ => ⟨0, 0⟩) State.new := by
    refine ⟨sound_new uuid, ?_, ?_⟩
    · intro p v hv
      simp [State.new, occupantAt, slotAt?] at hv
    · intro action haction
      exact absurd haction List.not_mem_nil
  have hrefl : ∀ s home, Agree s home home := fun _ _ _ _ => rfl
  have htrans : ∀ s h₁ h₂ h₃, Agree s h₁ h₂ → Agree s h₂ h₃ → Agree s h₁ h₃ := by
    intro s h₁ h₂ h₃ h h' k hk
    rw [h' k hk, h k hk]
  have hmono : ∀ s op home h₁ h₂, Homed uuid home s → Agree (s.step uuid op) h₁ h₂ → Agree s h₁ h₂ := by
    intro s op home h₁ h₂ h hagree k hk
    exact hagree k (Nat.lt_of_lt_of_le hk (h.sound.step_extends op).issued)
  obtain ⟨home, -, h⟩ := Runs.exists_everyState_of_extends (State.step uuid) hrefl htrans
    (fun _ _ _ h ha => h.of_agree ha) hmono (fun _ op _ h => h.step op) hnew ops
  exact ⟨home, h⟩

theorem Extends.refl (s : State) : Extends s s := ⟨Nat.le_refl _, fun _ _ h => h⟩

theorem Extends.trans {s'' : State} (h : Extends s s') (h' : Extends s' s'') : Extends s s'' :=
  ⟨Nat.le_trans h.issued h'.issued, fun p name hp => h'.names p name (h.names p name hp)⟩

theorem run_extends (uuid : UuidSource) (ops rest : List State.Op) :
    Extends (State.run uuid ops) (State.run uuid (ops ++ rest)) := by
  have hstep : Runs.EveryStep (State.step uuid) (fun s op => Extends s (s.step uuid op)) State.new (ops ++ rest) := by
    intro pre op _
    exact ((sound_new uuid).run pre).step_extends op
  exact (Runs.everyStep_related_iff Extends.refl (fun _ _ _ h h' => h.trans h')).mp hstep ops rest (List.prefix_refl _)

/-- A slot keeps its name from one moment of a run to any other where it holds a vehicle. -/
theorem nameAt?_stable {ops pre pre' : List State.Op} (hpre : pre <+: ops) (hpre' : pre' <+: ops)
    (hv : occupantAt (State.run uuid pre).zones p = some v)
    (hw : occupantAt (State.run uuid pre').zones p = some w) :
    nameAt? (State.run uuid pre).zones p = nameAt? (State.run uuid pre').zones p := by
  have hnamed : ∀ zones v, occupantAt zones p = some v → ∃ name, nameAt? zones p = some name := by
    intro zones v hv
    obtain ⟨slot, hslot, -⟩ := Option.bind_eq_some_iff.mp hv
    exact exists_nameAt? hslot
  obtain ⟨name, hname⟩ := hnamed _ _ hv
  obtain ⟨name', hname'⟩ := hnamed _ _ hw
  rcases List.prefix_or_prefix_of_prefix hpre hpre' with ⟨rest, rfl⟩ | ⟨rest, rfl⟩
  · rw [hname, (run_extends uuid pre rest).names p name hname]
  · rw [hname', (run_extends uuid pre' rest).names p name' hname']

/-- A vehicle is never parked twice: in every state of a run each vehicle id is in at most
one slot, and it is in the same slot in every other state of the run that has it. -/
theorem vehicle_keeps_slot (uuid : UuidSource) (ops : List State.Op) :
    (∀ pre, pre <+: ops → ∀ p q v w, occupantAt (State.run uuid pre).zones p = some v →
      occupantAt (State.run uuid pre).zones q = some w → v.id = w.id → p = q) ∧
    ∀ pre pre', pre <+: ops → pre' <+: ops → ∀ p q v w,
      occupantAt (State.run uuid pre).zones p = some v → occupantAt (State.run uuid pre').zones q = some w →
        v.id = w.id → p = q ∧ nameAt? (State.run uuid pre).zones p = nameAt? (State.run uuid pre').zones q := by
  obtain ⟨home, h⟩ := exists_homes uuid ops
  constructor
  · intro pre hpre p q v w hv hw hid
    exact ((h pre hpre).parked p v hv).unique ((h pre hpre).parked q w hw) hid
  · intro pre pre' hpre hpre' p q v w hv hw hid
    obtain rfl := ((h pre hpre).parked p v hv).unique ((h pre' hpre').parked q w hw) hid
    exact ⟨rfl, nameAt?_stable hpre hpre' hv hw⟩

/-- An undo brings a vehicle back under its old id. -/
example : occupantAt (State.run default [.call (.addZone "A" 2), .call (.allocateVehicle "" "Ali" "ALI-123" none),
    .call (.deallocateVehicle "" "u"), .undoLast]).zones ⟨0, 0⟩ = some ⟨"uuu", "Ali", "ALI-123"⟩ := by
  decide

end SmartParking.Browser
