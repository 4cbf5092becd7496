import SmartParking.Core.Layout
import SmartParking.Foundation.ListMaps
import SmartParking.System.RequestParking

/-! # Calls one after another

A row of calls of `requestParking` with nothing between them. As many succeed as there are
free slots, the first ones, whatever zones they ask for. Calls for one zone take the free
slots in search order.
-/
namespace SmartParking
open Foundation Foundation.ListMaps ParkingRequest

/-- The paths in search order, which is the order of the layout. -/
def paths (requestedZoneId : ℤ) (zones : List Zone) : List SlotRef := (searchOrder requestedZoneId zones).map Prod.fst

def isFree (zones : List Zone) (p : SlotRef) : Bool := (slotAt? zones p).any (·.isAvailable)

/-- The free slots in search order. -/
def freePaths (requestedZoneId : ℤ) (zones : List Zone) : List SlotRef :=
  (paths requestedZoneId zones).filter (isFree zones)

theorem zipIdx_map {α β : Type} (f : α → β) (l : List α) (n : ℕ) :
    (l.map f).zipIdx n = (l.zipIdx n).map fun q => (f q.1, q.2) := by
  rw [List.zipIdx_map]
  rfl

theorem Zone.places_layout (zone : Zone) (i : ℕ) :
    (zone.layout.places i).map Prod.fst = (zone.places i).map Prod.fst := by
  rw [Zone.places, Zone.places, Zone.layout, List.map_flatMap, List.map_flatMap, zipIdx_map, List.flatMap_map]
  congr 1
  funext q
  obtain ⟨area, j⟩ := q
  rw [ParkingArea.layout, List.map_map, List.map_map, zipIdx_map, List.map_map]
  rfl

theorem places_layout (test : Zone → Bool) (h : ∀ zone : Zone, test zone.layout = test zone) (zones : List Zone) :
    (places test (zones.map Zone.layout)).map Prod.fst = (places test zones).map Prod.fst := by
  rw [places, places, zipIdx_map, List.filter_map, List.map_flatMap, List.map_flatMap, List.flatMap_map]
  have htest : (fun q : Zone × ℕ => test q.1) ∘ (fun q : Zone × ℕ => (q.1.layout, q.2)) = fun q => test q.1 := by
    funext q
    exact h q.1
  rw [htest]
  congr 1
  funext q
  exact q.1.places_layout q.2

theorem paths_layout (requestedZoneId : ℤ) (zones : List Zone) :
    paths requestedZoneId (zones.map Zone.layout) = paths requestedZoneId zones := by
  rw [paths, paths, searchOrder, searchOrder, List.map_append, List.map_append, places_layout _ (fun _ => rfl),
    places_layout _ (fun _ => rfl)]

theorem paths_setIsAvailable (requestedZoneId : ℤ) (zones : List Zone) (p : SlotRef) (b : Bool) :
    paths requestedZoneId (setIsAvailable zones p b) = paths requestedZoneId zones := by
  rw [← paths_layout, map_layout_setIsAvailable, paths_layout]

theorem isFree_setIsAvailable (zones : List Zone) (p q : SlotRef) :
    isFree (setIsAvailable zones p false) q = (isFree zones q && q != p) := by
  rw [isFree, slotAt?_setIsAvailable, isFree]
  by_cases h : p = q
  · subst h
    cases slotAt? zones p <;> simp
  · have hne : (q != p) = true := by simpa using Ne.symm h
    rw [if_neg h, hne, Bool.and_true]

theorem freePaths_setIsAvailable (requestedZoneId : ℤ) (zones : List Zone) (p : SlotRef) :
    freePaths requestedZoneId (setIsAvailable zones p false) = (freePaths requestedZoneId zones).filter (· != p) := by
  rw [freePaths, paths_setIsAvailable, freePaths, List.filter_filter]
  congr 1
  funext q
  rw [isFree_setIsAvailable, Bool.and_comm]

theorem freePaths_eq (requestedZoneId : ℤ) (zones : List Zone) : freePaths requestedZoneId zones =
    ((searchOrder requestedZoneId zones).filter (·.2.isAvailable)).map Prod.fst := by
  rw [freePaths, paths, List.filter_map]
  congr 1
  apply List.filter_congr
  rintro ⟨p, slot⟩ hmem
  rw [Function.comp_apply, isFree, mem_searchOrder.mp hmem, Option.any_some]

theorem Zone.nodup_places (zone : Zone) (i : ℕ) : ((zone.places i).map Prod.fst).Nodup := by
  rw [Zone.places, List.map_flatMap]
  refine nodup_flatMap_indexed SlotRef.area (nodup_map_snd_zipIdx _) ?_ ?_
  · rintro ⟨area, j⟩
    have hpaths : (area.slots.zipIdx.map fun q => ((⟨i, j, q.2⟩ : SlotRef), q.1)).map Prod.fst =
        (area.slots.zipIdx.map Prod.snd).map fun k => (⟨i, j, k⟩ : SlotRef) := by
      rw [List.map_map, List.map_map]
      rfl
    dsimp only
    rw [hpaths]
    exact (nodup_map_snd_zipIdx _).map fun k k' h => congrArg SlotRef.slot h
  · rintro ⟨area, j⟩ p hp
    simp only [List.map_map, List.mem_map] at hp
    obtain ⟨q, -, rfl⟩ := hp
    rfl

theorem nodup_places (test : Zone → Bool) (zones : List Zone) : ((places test zones).map Prod.fst).Nodup := by
  rw [places, List.map_flatMap]
  refine nodup_flatMap_indexed SlotRef.zone ?_ (fun q => q.1.nodup_places q.2) ?_
  · exact (nodup_map_snd_zipIdx zones).sublist (List.filter_sublist.map Prod.snd)
  · rintro ⟨zone, i⟩ p hp
    obtain ⟨⟨p, slot⟩, hmem, rfl⟩ := List.mem_map.mp hp
    exact (Zone.mem_places.mp hmem).1

/-- No slot comes up twice in the search order. -/
theorem nodup_paths (requestedZoneId : ℤ) (zones : List Zone) : (paths requestedZoneId zones).Nodup := by
  rw [paths, searchOrder, List.map_append, List.nodup_append]
  refine ⟨nodup_places _ zones, nodup_places _ zones, ?_⟩
  rintro p hp q hq rfl
  obtain ⟨⟨p, slot⟩, hmem, rfl⟩ := List.mem_map.mp hp
  obtain ⟨⟨p', slot'⟩, hmem', rfl⟩ := List.mem_map.mp hq
  obtain ⟨zone, hzone, htest, -⟩ := mem_places.mp hmem
  obtain ⟨zone', hzone', htest', -⟩ := mem_places.mp hmem'
  obtain rfl := Option.some.inj (hzone.symm.trans hzone')
  simp_all

/-- The free slots, in whatever order. -/
def freeCount (zones : List Zone) : ℕ := (places (fun _ => true) zones).countP (·.2.isAvailable)

theorem length_freePaths (requestedZoneId : ℤ) (zones : List Zone) :
    (freePaths requestedZoneId zones).length = freeCount zones := by
  have hsplit : (searchOrder requestedZoneId zones).Perm (places (fun _ => true) zones) := by
    rw [searchOrder, places, places, places, ← List.flatMap_append, List.filter_true]
    exact (List.filter_append_perm (fun q => q.1.zoneId == requestedZoneId) zones.zipIdx).flatMap_right _
  rw [freePaths_eq, List.length_map, ← List.countP_eq_length_filter, freeCount]
  exact hsplit.countP_eq _

theorem mem_freePaths {requestedZoneId : ℤ} {zones : List Zone} {p : SlotRef} :
    p ∈ freePaths requestedZoneId zones ↔ isFree zones p = true := by
  rw [freePaths, List.mem_filter]
  refine and_iff_right_of_imp ?_
  intro h
  rw [isFree, Option.any_eq_true] at h
  obtain ⟨slot, hslot, -⟩ := h
  exact List.mem_map.mpr ⟨(p, slot), mem_searchOrder.mpr hslot, rfl⟩

theorem nodup_freePaths (requestedZoneId : ℤ) (zones : List Zone) : (freePaths requestedZoneId zones).Nodup :=
  (nodup_paths requestedZoneId zones).filter _

/-- Taking a free slot leaves one less. -/
theorem freeCount_setIsAvailable {zones : List Zone} {p : SlotRef} (h : isFree zones p = true) :
    freeCount (setIsAvailable zones p false) + 1 = freeCount zones := by
  have hmem : p ∈ freePaths 0 zones := mem_freePaths.mpr h
  rw [← length_freePaths 0, freePaths_setIsAvailable, ← length_freePaths 0,
    ← (nodup_freePaths 0 zones).erase_eq_filter p, List.length_erase_of_mem hmem]
  have hpos := List.length_pos_of_mem hmem
  omega

namespace ParkingSystem

theorem slotFor_eq_head? {ps : ParkingSystem} (hzones : ps.zones.length < 2 ^ 31) (requestedZoneId : ℤ) :
    ps.slotFor requestedZoneId = (freePaths requestedZoneId ps.zones).head? := by
  rw [slotFor_eq_find? hzones, freePaths_eq, List.head?_map, List.head?_filter]

/-- Calls with nothing between them, and what they answer. -/
def requestAll (ps : ParkingSystem) : List (String × ℤ) → List ℤ × ParkingSystem
  | [] => ([], ps)
  | (vehicleId, requestedZoneId) :: calls =>
    let (answer, ps) := ps.requestParking vehicleId requestedZoneId
    let (answers, ps) := ps.requestAll calls
    (answer :: answers, ps)

theorem requestAll_cons (ps : ParkingSystem) (call : String × ℤ) (calls : List (String × ℤ)) :
    ps.requestAll (call :: calls) = ((ps.requestParking call.1 call.2).1 ::
      ((ps.requestParking call.1 call.2).2.requestAll calls).1,
      ((ps.requestParking call.1 call.2).2.requestAll calls).2) := rfl

/-- A call with no free slot answers -1 and keeps what is counted here. -/
theorem requestParking_full {ps : ParkingSystem} (hzones : ps.zones.length < 2 ^ 31) (hfree : freeCount ps.zones = 0)
    (vehicleId : String) (requestedZoneId : ℤ) :
    (ps.requestParking vehicleId requestedZoneId).1 = -1 ∧
      (ps.requestParking vehicleId requestedZoneId).2.zones = ps.zones ∧
      (ps.requestParking vehicleId requestedZoneId).2.requests = ps.requests ∧
      (ps.requestParking vehicleId requestedZoneId).2.history = ps.history := by
  have hnil : freePaths requestedZoneId ps.zones = [] := by
    rw [← List.length_eq_zero_iff, length_freePaths, hfree]
  have hslot : ps.slotFor requestedZoneId = none := by rw [slotFor_eq_head? hzones, hnil, List.head?_nil]
  rw [requestParking_none hslot]
  exact ⟨rfl, rfl, rfl, rfl⟩

/-- A call with a free slot takes the first one in search order. -/
theorem requestParking_first {ps : ParkingSystem} (hzones : ps.zones.length < 2 ^ 31)
    (hrequests : ps.requests.length < 2 ^ 31) (vehicleId : String) {requestedZoneId : ℤ} {p : SlotRef}
    {rest : List SlotRef} (hfree : freePaths requestedZoneId ps.zones = p :: rest) :
    (ps.requestParking vehicleId requestedZoneId).1 = ps.requests.length ∧
      (ps.requestParking vehicleId requestedZoneId).2.zones = setIsAvailable ps.zones p false ∧
      (ps.requestParking vehicleId requestedZoneId).2.requests.length = ps.requests.length + 1 ∧
      (ps.requestParking vehicleId requestedZoneId).2.history =
        ⟨some p, true, some ps.requests.length, .requested⟩ :: ps.history := by
  have hslot : ps.slotFor requestedZoneId = some p := by rw [slotFor_eq_head? hzones, hfree, List.head?_cons]
  rw [requestParking_some hslot, toInt_eq hrequests]
  exact ⟨rfl, rfl, by simp, rfl⟩

theorem requestParking_length_zones (ps : ParkingSystem) (vehicleId : String) (requestedZoneId : ℤ) :
    (ps.requestParking vehicleId requestedZoneId).2.zones.length = ps.zones.length := by
  have hlayout := congrArg List.length (requestParking_map_layout ps vehicleId requestedZoneId)
  rwa [List.length_map, List.length_map] at hlayout

/-- As many calls succeed as there are free slots, and these are the first ones. -/
theorem requestAll_answers (ps : ParkingSystem) (calls : List (String × ℤ)) (hzones : ps.zones.length < 2 ^ 31)
    (hrequests : ps.requests.length + calls.length < 2 ^ 31) :
    (ps.requestAll calls).1 = (List.range calls.length).map
        (fun i : ℕ => if i < freeCount ps.zones then (ps.requests.length : ℤ) + i else -1) ∧
      freeCount (ps.requestAll calls).2.zones = freeCount ps.zones - calls.length ∧
      (ps.requestAll calls).2.requests.length = ps.requests.length + min calls.length (freeCount ps.zones) := by
  induction calls generalizing ps with
  | nil => simp [requestAll]
  | cons call calls ih =>
    rw [List.length_cons] at hrequests
    have hlength := requestParking_length_zones ps call.1 call.2
    rw [requestAll_cons, List.length_cons, List.range_succ_eq_map, List.map_cons, List.map_map]
    rcases Nat.eq_zero_or_pos (freeCount ps.zones) with hnone | hsome
    · obtain ⟨hanswer, hsame, hstored, -⟩ := requestParking_full hzones hnone call.1 call.2
      obtain ⟨hanswers, hfree, hcount⟩ := ih (ps.requestParking call.1 call.2).2 (by omega) (by rw [hstored]; omega)
      rw [hsame, hnone] at hanswers hfree hcount
      rw [hstored] at hanswers hcount
      refine ⟨?_, by rw [hfree]; omega, by rw [hcount]; omega⟩
      rw [hanswer, hanswers, hnone]
      simp [Function.comp_def]
    · obtain ⟨p, rest, hpaths⟩ := List.exists_cons_of_length_pos (length_freePaths call.2 ps.zones ▸ hsome)
      obtain ⟨hanswer, htaken, hstored, -⟩ := requestParking_first hzones (by omega) call.1 hpaths
      obtain ⟨hanswers, hfree, hcount⟩ := ih (ps.requestParking call.1 call.2).2 (by omega) (by rw [hstored]; omega)
      have hless : freeCount (setIsAvailable ps.zones p false) + 1 = freeCount ps.zones :=
        freeCount_setIsAvailable (mem_freePaths.mp (hpaths ▸ List.mem_cons_self))
      rw [htaken] at hanswers hfree hcount
      rw [hstored] at hanswers hcount
      refine ⟨?_, by rw [hfree]; omega, by rw [hcount]; omega⟩
      rw [hanswer, hanswers, if_pos hsome, Nat.cast_zero, add_zero]
      dsimp only
      congr 1
      apply List.map_congr_left
      intro i _
      rw [Function.comp_apply]
      push_cast
      split <;> split <;> omega

/-- Two calls for the only slot. -/
theorem requestAll_answers_oneSlot :
    ((ParkingSystem.new.addZone ⟨1, [⟨1, [.new 1 1]⟩]⟩).requestAll [("LEA-1", 1), ("LEA-2", 2)]).1 = [0, -1] := by
  have hfree : freeCount (ParkingSystem.new.addZone ⟨1, [⟨1, [.new 1 1]⟩]⟩).zones = 1 := by decide
  have hanswers := (requestAll_answers (ParkingSystem.new.addZone ⟨1, [⟨1, [.new 1 1]⟩]⟩)
    [("LEA-1", 1), ("LEA-2", 2)] (by decide) (by decide)).1
  rw [hfree] at hanswers
  rw [hanswers]
  rfl

/-- Calls for one zone take the free slots in search order. -/
theorem requestAll_order (ps : ParkingSystem) (vehicleIds : List String) (requestedZoneId : ℤ)
    (hzones : ps.zones.length < 2 ^ 31) (hrequests : ps.requests.length + vehicleIds.length < 2 ^ 31) :
    (ps.requestAll (vehicleIds.map (·, requestedZoneId))).2.history.map (·.slot) =
        (((freePaths requestedZoneId ps.zones).take vehicleIds.length).map some).reverse ++
          ps.history.map (·.slot) ∧
      freePaths requestedZoneId (ps.requestAll (vehicleIds.map (·, requestedZoneId))).2.zones =
        (freePaths requestedZoneId ps.zones).drop vehicleIds.length := by
  induction vehicleIds generalizing ps with
  | nil => simp [requestAll]
  | cons vehicleId vehicleIds ih =>
    rw [List.length_cons] at hrequests
    have hlength := requestParking_length_zones ps vehicleId requestedZoneId
    rw [List.map_cons, requestAll_cons, List.length_cons]
    cases hpaths : freePaths requestedZoneId ps.zones with
    | nil =>
      have hnone : freeCount ps.zones = 0 := by rw [← length_freePaths requestedZoneId, hpaths, List.length_nil]
      obtain ⟨-, hsame, hstored, hhistory⟩ := requestParking_full hzones hnone vehicleId requestedZoneId
      obtain ⟨hslots, hfree⟩ := ih (ps.requestParking vehicleId requestedZoneId).2 (by omega) (by rw [hstored]; omega)
      rw [hsame, hpaths] at hslots hfree
      rw [hhistory] at hslots
      exact ⟨by simpa using hslots, by simpa using hfree⟩
    | cons p rest =>
      obtain ⟨-, htaken, hstored, hhistory⟩ := requestParking_first hzones (by omega) vehicleId hpaths
      obtain ⟨hslots, hfree⟩ := ih (ps.requestParking vehicleId requestedZoneId).2 (by omega) (by rw [hstored]; omega)
      have hnodup := nodup_freePaths requestedZoneId ps.zones
      have hrest : freePaths requestedZoneId (setIsAvailable ps.zones p false) = rest := by
        rw [freePaths_setIsAvailable, ← hnodup.erase_eq_filter p, hpaths, List.erase_cons_head]
      rw [htaken, hrest] at hslots hfree
      rw [hhistory] at hslots
      refine ⟨?_, by simpa using hfree⟩
      rw [hslots]
      simp

/-- A call for the second of two zones takes the slot of that zone. -/
theorem requestAll_order_twoZones :
    freePaths 2 ((ParkingSystem.new.addZone ⟨1, [⟨1, [.new 1 1]⟩]⟩).addZone ⟨2, [⟨1, [.new 1 2]⟩]⟩ |>.requestAll
      (["LEA-1"].map (·, 2))).2.zones = [⟨0, 0, 0⟩] := by
  have hpaths : freePaths 2 ((ParkingSystem.new.addZone ⟨1, [⟨1, [.new 1 1]⟩]⟩).addZone ⟨2, [⟨1, [.new 1 2]⟩]⟩).zones =
      [⟨1, 0, 0⟩, ⟨0, 0, 0⟩] := by decide
  rw [(requestAll_order _ ["LEA-1"] 2 (by decide) (by decide)).2, hpaths]
  rfl

end ParkingSystem

end SmartParking
