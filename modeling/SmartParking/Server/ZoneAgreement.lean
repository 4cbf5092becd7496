import SmartParking.Server.ZoneHandlers

/-! # Agreement of the zone list and the zone detail

The list has an entry for each position, the detail is that of the first zone with the
id. They agree as long as the zones that share an id have the same numbers of slots and
of occupied slots.
-/
namespace SmartParking
open Foundation Foundation.ListUpdate ParkingSystem

/-- Writing the availability of one slot, in terms of the slots of the whole zone. -/
theorem Zone.slots_modifySlot {zone : Zone} {area slot : ℕ} {s : ParkingSlot}
    (h : zone.slotAt? area slot = some s) :
    ∃ pre post, zone.slots = pre ++ s :: post ∧
      ∀ f, (zone.modifySlot area slot f).slots = pre ++ f s :: post := by
  obtain ⟨a, ha, hs⟩ := Option.bind_eq_some_iff.mp h
  obtain ⟨pre, post, hareas, hmodify⟩ := modify_split ha
  obtain ⟨pre', post', hslots, hmodify'⟩ := modify_split hs
  refine ⟨pre.flatMap (·.slots) ++ pre', post' ++ post.flatMap (·.slots), ?_, ?_⟩
  · rw [Zone.slots, hareas, List.flatMap_append, List.flatMap_cons, hslots]
    simp only [List.append_assoc, List.cons_append]
  · intro f
    rw [Zone.slots, Zone.modifySlot, hmodify, List.flatMap_append, List.flatMap_cons, hmodify']
    simp only [List.append_assoc, List.cons_append]

theorem Zone.length_slots_take {zone : Zone} {area slot : ℕ} {s : ParkingSlot}
    (h : zone.slotAt? area slot = some s) (b : Bool) :
    (zone.modifySlot area slot (·.setIsAvailable b)).slots.length = zone.slots.length := by
  obtain ⟨pre, post, hslots, hmodify⟩ := Zone.slots_modifySlot h
  rw [hmodify, hslots, List.length_append, List.length_append, List.length_cons, List.length_cons]

theorem Zone.occupied_take {zone : Zone} {area slot : ℕ} {s : ParkingSlot}
    (h : zone.slotAt? area slot = some s) (havail : s.isAvailable = true) :
    (zone.modifySlot area slot (·.setIsAvailable false)).occupied = zone.occupied + 1 := by
  obtain ⟨pre, post, hslots, hmodify⟩ := Zone.slots_modifySlot h
  rw [Zone.occupied, Zone.occupied, hmodify, hslots, List.countP_append, List.countP_append,
    List.countP_cons, List.countP_cons, ParkingSlot.setIsAvailable_isAvailable, havail]
  simp only [Bool.not_false, Bool.not_true, if_true, Bool.false_eq_true, if_false]
  omega

namespace Server

/-- Every entry of the zone list has a detail with as many slots, and as many occupied
ones, as the entry says. -/
def Agree (ps : ParkingSystem) : Prop :=
  ∀ entry ∈ (handleGetZones ps).body.getD [], ∃ detail,
    handleGetZoneDetail ps entry.id = ⟨200, some detail⟩ ∧
    entry.capacity = some (detail.slots.length : ℤ) ∧
    entry.occupiedSlots = some (detail.slots.countP (·.occupied) : ℤ)

/-- The detail of `first` says what the entry of `zone` says. -/
def SameCounts (first zone : Zone) : Prop :=
  zone.slots.length = first.slots.length ∧ zone.slots.length < 2 ^ 31 ∧ zone.occupied = first.occupied

instance (first zone : Zone) : Decidable (SameCounts first zone) :=
  inferInstanceAs (Decidable (_ ∧ _ ∧ _))

/-- The first zone with the id of `zone`. -/
def firstLike (zones : List Zone) (zone : Zone) : Zone := (zones.find? (·.zoneId == zone.zoneId)).getD zone

theorem countP_zoneDetail (zone : Zone) : (zoneDetail zone).slots.countP (·.occupied) = zone.occupied := by
  rw [zoneDetail, List.countP_map]
  rfl

theorem find?_eq_firstLike {zones : List Zone} {zone : Zone} (h : zone ∈ zones) :
    zones.find? (·.zoneId == zone.zoneId) = some (firstLike zones zone) := by
  unfold firstLike
  cases hfind : zones.find? (·.zoneId == zone.zoneId) with
  | some first => rfl
  | none => exact absurd (beq_self_eq_true zone.zoneId) (List.find?_eq_none.mp hfind zone h)

theorem agree_iff (ps : ParkingSystem) :
    Agree ps ↔ ∀ zone ∈ ps.zones, SameCounts (firstLike ps.zones zone) zone := by
  simp only [Agree, handleGetZones, Option.getD_some, List.forall_mem_map, zoneEntry]
  have hdetail : ∀ zone ∈ ps.zones, handleGetZoneDetail ps zone.zoneId =
      ⟨200, some (zoneDetail (firstLike ps.zones zone))⟩ := by
    intro zone hzone
    rw [handleGetZoneDetail, find?_eq_firstLike hzone]
  constructor
  · intro h zone hzone
    obtain ⟨detail, heq, hlength, hoccupied⟩ := h zone hzone
    rw [hdetail zone hzone] at heq
    obtain rfl : zoneDetail (firstLike ps.zones zone) = detail := by simpa using heq
    rw [countP_zoneDetail, signed_eq_some_iff] at hoccupied
    rw [zoneDetail, List.length_map, signed_eq_some_iff] at hlength
    exact ⟨hlength.1, hlength.2, hoccupied.1⟩
  · intro h zone hzone
    obtain ⟨hlength, hlt, hoccupied⟩ := h zone hzone
    refine ⟨_, hdetail zone hzone, ?_, ?_⟩
    · rw [zoneDetail, List.length_map, signed_eq_some_iff]
      exact ⟨hlength, hlt⟩
    · rw [countP_zoneDetail, signed_eq_some_iff]
      exact ⟨hoccupied, zone.occupied_le.trans_lt hlt⟩

/-- One more zone: its entry has to fit the first zone with its id, or itself. -/
theorem agree_addZone {ps : ParkingSystem} (h : Agree ps) (zone : Zone) :
    Agree (ps.addZone zone) ↔ SameCounts (firstLike ps.zones zone) zone := by
  rw [agree_iff] at h ⊢
  have hold : ∀ old ∈ ps.zones, firstLike (ps.zones ++ [zone]) old = firstLike ps.zones old := by
    intro old hmem
    rw [firstLike, List.find?_append, find?_eq_firstLike hmem, Option.some_or, Option.getD_some]
  have hnew : firstLike (ps.zones ++ [zone]) zone = firstLike ps.zones zone := by
    rw [firstLike, List.find?_append, firstLike]
    cases ps.zones.find? (·.zoneId == zone.zoneId) <;> simp
  constructor
  · intro hagree
    rw [← hnew]
    exact hagree zone (List.mem_append_right _ (List.mem_singleton_self zone))
  · intro hsame old hmem
    rcases List.mem_append.mp hmem with hmem | hmem
    · rw [addZone, hold old hmem]
      exact h old hmem
    · rw [List.mem_singleton.mp hmem, addZone, hnew]
      exact hsame

/-- The position of the first zone with an id depends on the ids of the zones alone. -/
theorem findIdx?_setIsAvailable (zones : List Zone) (p : SlotRef) (b : Bool) (id : ℤ) :
    (setIsAvailable zones p b).findIdx? (·.zoneId == id) = zones.findIdx? (·.zoneId == id) := by
  have hfind : ∀ l : List Zone, l.findIdx? (·.zoneId == id) = (l.map Zone.zoneId).findIdx? (· == id) := by
    intro l
    rw [List.findIdx?_map]
    rfl
  rw [hfind, hfind, map_zoneId_setIsAvailable]

/-- The agreement in terms of positions. -/
theorem agree_iff_at (ps : ParkingSystem) :
    Agree ps ↔ ∀ (j i : ℕ) (zone first : Zone), ps.zones[j]? = some zone →
      ps.zones.findIdx? (·.zoneId == zone.zoneId) = some i → ps.zones[i]? = some first →
      SameCounts first zone := by
  rw [agree_iff]
  constructor
  · intro h j i zone first hj hi hfirst
    have hmem := List.mem_of_getElem? hj
    have hfind := find?_eq_firstLike hmem
    rw [List.find?_eq_bind_findIdx?_getElem?, hi, Option.bind_some, hfirst] at hfind
    rw [Option.some.inj hfind]
    exact h zone hmem
  · intro h zone hmem
    obtain ⟨j, hj⟩ := List.mem_iff_getElem?.mp hmem
    have hfind := find?_eq_firstLike hmem
    rw [List.find?_eq_bind_findIdx?_getElem?] at hfind
    obtain ⟨i, hi, hfirst⟩ := Option.bind_eq_some_iff.mp hfind
    exact h j i zone _ hj hi hfirst

theorem exists_findIdx? {zones : List Zone} {j : ℕ} {zone : Zone} (h : zones[j]? = some zone) :
    ∃ i first, zones.findIdx? (·.zoneId == zone.zoneId) = some i ∧ zones[i]? = some first ∧
      first.zoneId = zone.zoneId := by
  have hfind := find?_eq_firstLike (List.mem_of_getElem? h)
  have hid := List.find?_some hfind
  rw [List.find?_eq_bind_findIdx?_getElem?] at hfind
  obtain ⟨i, hi, hfirst⟩ := Option.bind_eq_some_iff.mp hfind
  exact ⟨i, _, hi, hfirst, beq_iff_eq.mp hid⟩

/-- No other zone has the id of the one at position `k`. -/
def SoleZone (zones : List Zone) (k : ℕ) : Prop :=
  ∀ (j : ℕ) (zone zone' : Zone), zones[k]? = some zone → zones[j]? = some zone' →
    zone'.zoneId = zone.zoneId → j = k

variable {ps after : ParkingSystem} {p : SlotRef} {slot : ParkingSlot}

theorem agree_of_sole (h : Agree ps) (hslot : slotAt? ps.zones p = some slot)
    (hafter : after.zones = setIsAvailable ps.zones p false)
    (hsole : SoleZone ps.zones p.zone) : Agree after := by
  obtain ⟨zone, hzone, hget⟩ := Option.bind_eq_some_iff.mp hslot
  rw [agree_iff_at] at h ⊢
  rw [hafter]
  intro j i zone' first hj hi hfirst
  rw [findIdx?_setIsAvailable] at hi
  by_cases hjk : p.zone = j
  · subst hjk
    rw [getElem?_setIsAvailable_self hzone] at hj
    obtain rfl := Option.some.inj hj
    obtain ⟨i', first', hi', hfirst', hid⟩ := exists_findIdx? hzone
    obtain rfl : i = i' := Option.some.inj (hi.symm.trans hi')
    obtain rfl : i = p.zone := hsole i zone first' hzone hfirst' hid
    rw [getElem?_setIsAvailable_self hzone] at hfirst
    obtain rfl := Option.some.inj hfirst
    refine ⟨rfl, ?_, rfl⟩
    rw [Zone.length_slots_take hget]
    exact (h p.zone p.zone zone zone hzone hi hzone).2.1
  · rw [getElem?_setIsAvailable_ne hjk] at hj
    have hik : p.zone ≠ i := by
      rintro rfl
      obtain ⟨i', first', hi', hfirst', hid⟩ := exists_findIdx? hj
      obtain rfl : p.zone = i' := Option.some.inj (hi.symm.trans hi')
      exact hjk (hsole j first' zone' hfirst' hj hid.symm).symm
    rw [getElem?_setIsAvailable_ne hik] at hfirst
    exact h j i zone' first hj hi hfirst

theorem sole_of_agree (h : Agree ps) (hslot : slotAt? ps.zones p = some slot)
    (havail : slot.isAvailable = true) (hafter : after.zones = setIsAvailable ps.zones p false)
    (hagree : Agree after) : SoleZone ps.zones p.zone := by
  intro j zone zone' hzone hj hid
  obtain ⟨zone₀, hzone₀, hget⟩ := Option.bind_eq_some_iff.mp hslot
  obtain rfl : zone₀ = zone := Option.some.inj (hzone₀.symm.trans hzone)
  have htaken := Zone.occupied_take hget havail
  rw [agree_iff_at] at h hagree
  rw [hafter] at hagree
  obtain ⟨i, first, hi, hfirst, -⟩ := exists_findIdx? hzone
  have hi' : (setIsAvailable ps.zones p false).findIdx? (·.zoneId == zone₀.zoneId) = some i := by
    rw [findIdx?_setIsAvailable, hi]
  have hk := getElem?_setIsAvailable_self hzone false
  by_contra hne
  by_cases hik : p.zone = i
  · -- the first zone now counts one more than the other
    subst hik
    obtain rfl : zone₀ = first := Option.some.inj (hzone.symm.trans hfirst)
    have hbefore := (h j p.zone zone' zone₀ hj (hid ▸ hi) hzone).2.2
    have hj' := (getElem?_setIsAvailable_ne (Ne.symm hne) false).trans hj
    have hafter := (hagree j p.zone zone' _ hj' (hid ▸ hi') hk).2.2
    rw [htaken] at hafter
    omega
  · have hbefore := (h p.zone i zone₀ first hzone hi hfirst).2.2
    have hafter := (hagree p.zone i _ first hk hi' ((getElem?_setIsAvailable_ne hik false).trans hfirst)).2.2
    rw [htaken] at hafter
    omega

/-- The zone a body asks for is the first with its id and its slots can be counted, or
it has as many slots as the first one, and that has none occupied. -/
def CreatesAgreeing (ps : ParkingSystem) (body : CreateZoneBody) : Prop :=
  match ps.zones.find? (·.zoneId == narrow body.id) with
  | some first => body.slotCount = first.slots.length ∧ first.occupied = 0
  | none => body.slotCount < 2 ^ 31

/-- A slot that is taken for `zoneId` lies in a zone that shares its id with no other. -/
def TakesInSoleZone (ps : ParkingSystem) (zoneId : ℤ) : Prop :=
  ∀ p, ps.slotFor zoneId = some p → SoleZone ps.zones p.zone

def KeepsAgreement (ps : ParkingSystem) : Post → Prop
  | .createZone none => True
  | .createZone (some body) => CreatesAgreeing ps body
  | .createRequest none => True
  | .createRequest (some body) => TakesInSoleZone ps (narrow body.requestedZoneId)

/-- In an agreeing state the slots of every zone can be counted. -/
theorem Agree.find?_length_lt (h : Agree ps) {id : ℤ} {first : Zone}
    (hfirst : ps.zones.find? (·.zoneId == id) = some first) : first.slots.length < 2 ^ 31 :=
  ((agree_iff ps).mp h first (List.mem_of_find?_eq_some hfirst)).2.1

theorem Agree.sameCounts_zone_iff (h : Agree ps) (body : CreateZoneBody) :
    SameCounts (firstLike ps.zones body.zone) body.zone ↔ CreatesAgreeing ps body := by
  unfold CreatesAgreeing firstLike SameCounts
  rw [CreateZoneBody.zone_zoneId, CreateZoneBody.length_slots, CreateZoneBody.occupied_zone]
  cases hfind : ps.zones.find? (·.zoneId == narrow body.id) with
  | some first =>
    have hlt := h.find?_length_lt hfind
    rw [Option.getD_some]
    dsimp only
    omega
  | none =>
    rw [Option.getD_none, CreateZoneBody.length_slots, CreateZoneBody.occupied_zone]
    dsimp only
    omega

/-- A step from an agreeing state reaches one exactly when it keeps the agreement. -/
theorem agree_serve_iff (h : Agree ps) (post : Post) : Agree (serve ps post) ↔ KeepsAgreement ps post := by
  cases post with
  | createZone x =>
    cases x with
    | none => exact iff_of_true h trivial
    | some body =>
      rw [serve_createZone, agree_addZone h, h.sameCounts_zone_iff]
      rfl
  | createRequest x =>
    cases x with
    | none => exact iff_of_true h trivial
    | some body =>
      rw [serve_createRequest, KeepsAgreement, TakesInSoleZone]
      cases hslot : ps.slotFor (narrow body.requestedZoneId) with
      | none =>
        rw [requestParking_none hslot]
        exact iff_of_true h (fun p hp => nomatch hp)
      | some p =>
        obtain ⟨slot, hget, havail⟩ := slotFor_sound hslot
        rw [requestParking_some hslot]
        constructor
        · intro hagree q hq
          obtain rfl := Option.some.inj hq
          exact sole_of_agree h hget havail rfl hagree
        · intro hsole
          exact agree_of_sole h hget rfl (hsole p rfl)

theorem agree_seeded : Agree seeded := (agree_iff seeded).mpr (by decide)

/-- The zone list and the zone detail agree in every state of a run exactly when every
request of the run keeps the agreement. -/
theorem zones_agree_iff (posts : List Post) :
    Runs.EveryState serve Agree seeded posts ↔ Runs.EveryStep serve KeepsAgreement seeded posts := by
  have hstep : ∀ ps post, True → True → Agree ps → (Agree (serve ps post) ↔ KeepsAgreement ps post) :=
    fun _ post _ _ h => agree_serve_iff h post
  exact Runs.everyState_iff_everyStep serve (fun _ _ _ _ => trivial) hstep (fun _ _ => trivial) trivial
    agree_seeded

/-- A second zone 1, with one slot. -/
def secondZoneOne : List Post := [.createZone (some ⟨1, some [⟨1, 1⟩]⟩)]

theorem zones_disagree : ¬ Runs.EveryState serve Agree seeded secondZoneOne := by
  intro h
  have hagree := (agree_iff _).mp (h secondZoneOne (List.prefix_refl _))
  revert hagree
  decide

end Server

end SmartParking
