import Mathlib.Data.Rat.Floor
import SmartParking.Browser.Snapshot

/-! # The page of the browser demo

`app.js` and `ui.js` under `frontend/scripts`: what the last rendering left on the page, the
forms that are open, and what the events do. The document may lack any of the elements that
are looked up in it. Styles, sounds and animations are left out.
-/
namespace SmartParking.Browser

inductive View
  | dashboard
  | zones
  | zoneDetail
  deriving DecidableEq, Repr

/-- What is looked up in the document. -/
inductive Element
  | statTotalZones | statParkedCars | statFreeSlots
  | zonesList
  | zoneDetailName | zoneDetailSlots | zoneDetailFree | slotsGrid
  | modalBackdrop | modalTitle | modalForm
  | navLink (view : View) | btnBackToZones | btnAddZone | btnAddVehicle | btnUndo
  | view (view : View)
  deriving DecidableEq, Repr

/-- The elements that the document has. -/
abbrev Document := Element → Bool

namespace Document

def hasStats (document : Document) : Bool :=
  document .statTotalZones && document .statParkedCars && document .statFreeSlots

def hasDetail (document : Document) : Bool :=
  document .zoneDetailName && document .zoneDetailSlots && document .zoneDetailFree && document .slotsGrid

def hasModal (document : Document) : Bool :=
  document .modalBackdrop && document .modalTitle && document .modalForm

end Document

/-- What `renderDashboardStats` writes. -/
structure Stats where
  totalZones : ℕ
  parkedCars : ℕ
  freeSlots : ℕ
  deriving DecidableEq, Repr

/-- What `renderZonesList` makes of a zone. -/
structure Card where
  zoneId : String
  title : String
  totalSlots : ℕ
  free : ℕ
  occupied : ℕ
  miniCars : ℕ
  deriving DecidableEq, Repr

/-- A tile of the grid, with the owner and the plate of a car. -/
structure Tile where
  slotId : String
  number : ℕ
  car : Option (String × String)
  deriving DecidableEq, Repr

/-- What `renderZoneDetail` writes. -/
structure Detail where
  name : String
  totalSlots : ℕ
  free : ℕ
  tiles : List Tile
  deriving DecidableEq, Repr

/-- A listener that `openModal` has added to the form, with the zone it was opened for. -/
inductive Listener
  | addZone
  | allocateVehicle (zoneId : String)
  deriving DecidableEq, Repr

/-- What has been written has no value as long as nothing has. -/
structure Page where
  parkingState : State
  stats : Option Stats
  cards : Option (List Card)
  detail : Option Detail
  view : Option View
  listeners : List Listener
  isModalOpen : Bool
  deriving DecidableEq, Repr

/-- The fields that are in the form. -/
structure FormData where
  zoneName : Option String
  slotCount : Option String
  ownerName : Option String
  plate : Option String
  slotId : Option String
  deriving DecidableEq, Repr

def renderDashboardStats (snapshot : Snapshot) : Stats :=
  ⟨snapshot.totalZones, snapshot.parkedCars, snapshot.freeSlots⟩

def occupiedSlots (zone : Zone) : ℕ := (zone.slots.filter (·.vehicle.isSome)).length

def renderCard (zone : Zone) : Card :=
  let totalSlots := zone.slots.length
  let occupied := occupiedSlots zone
  ⟨zone.id, zone.name, totalSlots, totalSlots - occupied, occupied, min occupied 4⟩

def renderZonesList (zones : List Zone) : List Card := zones.map renderCard

def renderTile (slot : Slot) : Tile := ⟨slot.id, slot.number, slot.vehicle.map fun v => (v.ownerName, v.plate)⟩

def renderZoneDetail (zone : Zone) : Detail :=
  let totalSlots := zone.slots.length
  ⟨zone.name, totalSlots, totalSlots - occupiedSlots zone, zone.slots.map renderTile⟩

def activeZone (snapshot : Snapshot) : Option Zone :=
  (truthy snapshot.activeZoneId).bind fun id => snapshot.zones.find? (fun z => z.id == id)

namespace Page

section Document
variable (document : Document)

/-- No view is active where the one to be shown is missing. -/
def switchView (page : Page) (view : View) : Page :=
  { page with view := if document (.view view) then some view else none }

def render (page : Page) (preferredView : View) : Page :=
  let snapshot := page.parkingState.getSnapshot
  let page := { page with
    stats := if document.hasStats then some (renderDashboardStats snapshot) else page.stats
    cards := if document .zonesList then some (renderZonesList snapshot.zones) else page.cards
    -- without an active zone the old detail stays where it is
    detail := if document.hasDetail then ((activeZone snapshot).map renderZoneDetail).or page.detail else page.detail }
  page.switchView document preferredView

variable (uuid : UuidSource) (trim : String → String) (number : String → Option ℚ)

/-- `String(formData.get(...) || "").trim()`. -/
def textOf (field : Option String) : String := trim ((truthy field).getD "")

/-- The callbacks that `bindAddZone` and `bindAddVehicle` give to `openModal`. -/
def onSubmit (data : FormData) (page : Page) : Listener → Page
  | .addZone =>
    let zoneName := textOf trim data.zoneName
    let slotCountRaw : Option ℚ := match truthy data.slotCount with
      | some text => number text
      | none => some 0
    let slotCount := slotCountRaw.getD 0
    if zoneName = "" ∨ slotCount ≤ 0 then page
    else render document { page with parkingState := (page.parkingState.addZone uuid zoneName ⌊slotCount⌋).2 } .zones
  | .allocateVehicle zoneId =>
    let ownerName := textOf trim data.ownerName
    let plate := textOf trim data.plate
    let preferredSlotId := truthy (some (textOf trim data.slotId))
    if ownerName = "" then page
    else
      let plate := if plate = "" then "N/A" else plate
      match page.parkingState.allocateVehicle uuid zoneId ownerName plate preferredSlotId with
      | (none, s) => { page with parkingState := s }
      | (some _, s) => render document { page with parkingState := s } .zoneDetail

/-- What the user does. -/
inductive Event
  | navigate (view : View)
  | back
  | clickCard (i : ℕ)
  | clickCar
  | openAddZone
  | openAddVehicle
  | cancel
  | clickBackdrop
  | submit (data : FormData)
  | undo
  deriving DecidableEq, Repr

def openModal (page : Page) (listener : Listener) : Page :=
  if document.hasModal then { page with listeners := page.listeners ++ [listener], isModalOpen := true } else page

/-- What an event does. Nothing happens to an element that is missing. -/
def step (page : Page) : Event → Page
  | .navigate view =>
    if document (.navLink view) && (view == .dashboard || view == .zones) then page.switchView document view else page
  | .back => if document .btnBackToZones then page.switchView document .zones else page
  | .clickCard i =>
    match page.cards.bind (·[i]?) with
    | some card => render document { page with parkingState := page.parkingState.setActiveZone card.zoneId } .zoneDetail
    | none => page
  | .clickCar => page
  | .openAddZone => if document .btnAddZone then page.openModal document .addZone else page
  | .openAddVehicle =>
    if document .btnAddVehicle then
      match activeZone page.parkingState.getSnapshot with
      | some zone => page.openModal document (.allocateVehicle zone.id)
      | none => page
    else page
  | .cancel =>
    if page.isModalOpen then { page with listeners := page.listeners.dropLast, isModalOpen := false } else page
  | .clickBackdrop => if page.isModalOpen then { page with listeners := [], isModalOpen := false } else page
  -- a submitted form stays open, and every listener that was added gets the data
  | .submit data =>
    if page.isModalOpen then page.listeners.foldl (onSubmit document uuid trim number data) page else page
  | .undo =>
    if document .btnUndo then
      match page.parkingState.undoLast with
      | (none, s) => { page with parkingState := s }
      | (some _, s) => render document { page with parkingState := s } .zones
    else page

/-- The page before anything is rendered. -/
def blank (s : State) : Page := ⟨s, none, none, none, none, [], false⟩

def init : Page := render document (blank (State.new.bootstrapDemoData uuid)) .dashboard

def run (events : List Event) : Page := Foundation.Runs.run (step document uuid trim number) (init document uuid) events

end Document

end Page

variable {document : Document} {uuid : UuidSource} {s s' : State} {page : Page}

/-- The active zone is one of the zones. -/
def HasActive (s : State) : Prop := ∃ id, s.activeZoneId = some id ∧ id ∈ s.zones.map Zone.id

/-- There is a car for every entry of the history, and three more. -/
structure Tallied (s : State) : Prop where
  allocations : ∀ action ∈ s.history, action.type = .allocate
  cars : parked s.zones = 3 + s.history.length

/-- What the page relies on about the state. -/
structure Healthy (uuid : UuidSource) (s : State) : Prop where
  reachable : ∃ ops, s = State.run uuid ops
  tallied : Tallied s
  active : HasActive s

theorem Healthy.sound (h : Healthy uuid s) : Sound uuid s := by
  obtain ⟨ops, rfl⟩ := h.reachable
  exact (sound_new uuid).run ops

theorem Healthy.step_reachable (h : Healthy uuid s) (op : State.Op) : ∃ ops, s.step uuid op = State.run uuid ops := by
  obtain ⟨ops, rfl⟩ := h.reachable
  exact ⟨ops ++ [op], (run_snoc uuid ops op).symm⟩

theorem parked_buildSlots (name id : String) (issued : ℕ) (count : ℤ) :
    parked [⟨id, name, buildSlots uuid issued count⟩] = 0 := by
  rw [parked, allSlots, List.flatMap_singleton, List.countP_eq_zero]
  intro slot hslot
  obtain ⟨i, -, rfl⟩ := List.mem_map.mp hslot
  simp

theorem Healthy.addZone (h : Healthy uuid s) (name : String) (slotCount : ℤ) :
    Healthy uuid (s.addZone uuid name slotCount).2 where
  reachable := h.step_reachable (.call (.addZone name slotCount))
  tallied := by
    refine ⟨h.tallied.allocations, ?_⟩
    rw [State.addZone, parked_append, parked_buildSlots, Nat.add_zero]
    exact h.tallied.cars
  active := by
    obtain ⟨id, hid, hmem⟩ := h.active
    rw [HasActive, State.addZone]
    simp only [List.map_append, List.map_cons, List.map_nil]
    split
    · exact ⟨_, rfl, List.mem_append_right _ List.mem_cons_self⟩
    · exact ⟨id, hid, List.mem_append_left _ hmem⟩

theorem Healthy.setActiveZone (h : Healthy uuid s) {id : String} (hid : id ∈ s.zones.map Zone.id) :
    Healthy uuid (s.setActiveZone id) where
  reachable := h.step_reachable (.call (.setActiveZone id))
  tallied := ⟨h.tallied.allocations, h.tallied.cars⟩
  active := ⟨id, rfl, hid⟩

/-- An allocation brings one car and one entry, or does nothing. -/
theorem Healthy.allocateVehicle (h : Healthy uuid s) (zoneId ownerName plate : String)
    (preferredSlotId : Option String) :
    Healthy uuid (s.allocateVehicle uuid zoneId ownerName plate preferredSlotId).2 := by
  have hreachable := h.step_reachable (.call (.allocateVehicle zoneId ownerName plate preferredSlotId))
  rw [State.step, State.call] at hreachable
  rcases State.allocateVehicle_inv uuid s zoneId ownerName plate preferredSlotId with
    ⟨-, heq⟩ | ⟨i, zone, j, slot, hzone, htarget, hempty, heq⟩
  · rw [heq]
    exact h
  · obtain ⟨-, hslot⟩ := nameAt?_of_found hzone (State.targetSlot_sound htarget)
    have hparked := parked_setVehicle hslot (some ⟨uuid.value s.issued, ownerName, plate⟩)
    rw [heq] at hreachable ⊢
    refine ⟨hreachable, ⟨List.forall_mem_cons.mpr ⟨rfl, h.tallied.allocations⟩, ?_⟩, ?_⟩
    · have hcars := h.tallied.cars
      rw [hempty] at hparked
      dsimp only [one, Option.isSome_some, Option.isSome_none] at hparked
      simp only [if_true, Bool.false_eq_true, if_false] at hparked
      dsimp only
      rw [List.length_cons]
      omega
    · obtain ⟨id, hid, hmem⟩ := h.active
      exact ⟨id, hid, by rwa [map_id_setVehicle]⟩

theorem activeZoneId_undoLast (s : State) : s.undoLast.2.activeZoneId = s.activeZoneId := by
  unfold State.undoLast
  split
  · rfl
  · dsimp only
    split
    · rfl
    · split <;> rfl

/-- An undo takes one entry and its car, or does nothing. -/
theorem Healthy.undoLast (h : Healthy uuid s) : Healthy uuid s.undoLast.2 := by
  have hreachable := h.step_reachable .undoLast
  rw [State.step] at hreachable
  rcases undo_cases h.sound with heq | ⟨p, last, hundoes, -⟩
  · rw [heq]
    exact h
  · obtain ⟨ops, rfl⟩ := h.reachable
    have hafter := (accounted_run uuid ops).undoes h.sound (logs_run uuid ops) hundoes
    have hbefore := accounted_run uuid ops
    rw [Accounted, hundoes.history, entries_cons, entries_cons] at hbefore
    have hlast := h.tallied.allocations last (hundoes.history ▸ List.mem_cons_self)
    have hcars := h.tallied.cars
    rw [hundoes.history, List.length_cons] at hcars
    rw [Accounted] at hafter
    rw [hlast] at hbefore
    refine ⟨hreachable, ⟨?_, ?_⟩, ?_⟩
    · exact fun action haction => h.tallied.allocations action (hundoes.history ▸ List.mem_cons_of_mem _ haction)
    · have hone : (if (ActionType.allocate == ActionType.allocate) = true then 1 else 0) = 1 := rfl
      have hzero : (if (ActionType.allocate == ActionType.deallocate) = true then 1 else 0) = 0 := rfl
      omega
    · obtain ⟨id, hid, hmem⟩ := h.active
      exact ⟨id, (activeZoneId_undoLast _).trans hid, by rwa [hundoes.zones, map_id_setVehicle]⟩

/-- Three cars are parked when the page is loaded. -/
theorem healthy_bootstrap (uuid : UuidSource) : Healthy uuid (State.new.bootstrapDemoData uuid) := by
  rw [State.bootstrapDemoData_of_empty uuid rfl]
  refine ⟨⟨[.call .bootstrapDemoData], ?_⟩, ⟨fun _ h => absurd h List.not_mem_nil, ?_⟩, ?_⟩
  · exact (State.bootstrapDemoData_of_empty uuid rfl).symm
  · rfl
  · exact ⟨_, rfl, List.mem_cons_self⟩

/-- Where it can be written, the page shows the state as it is. -/
structure Fresh (document : Document) (page : Page) : Prop where
  stats : page.stats = if document.hasStats then some (renderDashboardStats page.parkingState.getSnapshot) else none
  cards : page.cards = if document .zonesList then some (renderZonesList page.parkingState.zones) else none
  detail : ∃ zone ∈ page.parkingState.zones, page.parkingState.activeZoneId = some zone.id ∧
    page.detail = if document.hasDetail then some (renderZoneDetail zone) else none

/-- The active zone is found, as its id was given out by `uuid`. -/
theorem Healthy.activeZone (h : Healthy uuid s) (huuid : ∀ n, uuid.value n ≠ "") :
    ∃ zone ∈ s.zones, s.activeZoneId = some zone.id ∧ Browser.activeZone s.getSnapshot = some zone := by
  obtain ⟨id, hid, hmem⟩ := h.active
  obtain ⟨n, -, -, hvalue⟩ := h.sound.zoneIds id hmem
  have htruthy : truthy s.activeZoneId = some id := by
    rw [hid, truthy, hvalue]
    simp [huuid n]
  obtain ⟨zone, hzone, hzoneId⟩ := List.mem_map.mp hmem
  rw [Browser.activeZone, getSnapshot_eq]
  dsimp only
  rw [htruthy, Option.bind_some]
  cases hfind : s.zones.find? fun z => z.id == id with
  | none =>
    have habsent := List.find?_eq_none.mp hfind zone hzone
    simp [hzoneId] at habsent
  | some found =>
    have hfound : found.id = id := by simpa using List.find?_some hfind
    exact ⟨found, List.mem_of_find?_eq_some hfind, by rw [hid, hfound], rfl⟩

/-- What can be written has been, and nothing else. -/
structure Written (document : Document) (page : Page) : Prop where
  stats : document.hasStats = false → page.stats = none
  cards : document .zonesList = false → page.cards = none
  detail : document.hasDetail = false → page.detail = none

theorem Fresh.written (h : Fresh document page) : Written document page := by
  obtain ⟨zone, -, -, hdetail⟩ := h.detail
  constructor
  · exact fun hmissing => by rw [h.stats, hmissing]; rfl
  · exact fun hmissing => by rw [h.cards, hmissing]; rfl
  · exact fun hmissing => by rw [hdetail, hmissing]; rfl

/-- Rendering brings the page up to date. -/
theorem fresh_render (h : Healthy uuid page.parkingState) (huuid : ∀ n, uuid.value n ≠ "")
    (hwritten : Written document page) (view : View) : Fresh document (page.render document view) := by
  obtain ⟨zone, hzone, hid, hactive⟩ := h.activeZone huuid
  rw [Page.render, Page.switchView]
  refine ⟨?_, ?_, zone, hzone, hid, ?_⟩
  · cases hhas : document.hasStats with
    | true => rfl
    | false => exact hwritten.stats hhas
  · cases hhas : document .zonesList with
    | true =>
      dsimp only
      rw [getSnapshot_eq]
      rfl
    | false => exact hwritten.cards hhas
  · cases hhas : document.hasDetail with
    | true =>
      dsimp only
      rw [hactive]
      rfl
    | false => exact hwritten.detail hhas

structure UpToDate (document : Document) (uuid : UuidSource) (page : Page) : Prop where
  healthy : Healthy uuid page.parkingState
  fresh : Fresh document page

theorem upToDate_render {view : View} (huuid : ∀ n, uuid.value n ≠ "") (h : Healthy uuid page.parkingState)
    (hwritten : Written document page) : UpToDate document uuid (page.render document view) :=
  ⟨h, fresh_render h huuid hwritten view⟩

/-- What is drawn depends neither on the view nor on the form. -/
theorem UpToDate.frame (h : UpToDate document uuid page) (view : Option View) (listeners : List Listener)
    (isModalOpen : Bool) : UpToDate document uuid
      { page with view := view, listeners := listeners, isModalOpen := isModalOpen } :=
  ⟨h.healthy, h.fresh.stats, h.fresh.cards, h.fresh.detail⟩

theorem UpToDate.switchView (h : UpToDate document uuid page) (view : View) :
    UpToDate document uuid (page.switchView document view) := h.frame _ _ _

theorem UpToDate.openModal (h : UpToDate document uuid page) (listener : Listener) :
    UpToDate document uuid (page.openModal document listener) := by
  rw [Page.openModal]
  split
  · exact h.frame _ _ _
  · exact h

section Events
variable {trim : String → String} {number : String → Option ℚ}

theorem UpToDate.onSubmit (huuid : ∀ n, uuid.value n ≠ "") (h : UpToDate document uuid page) (data : FormData)
    (listener : Listener) : UpToDate document uuid (page.onSubmit document uuid trim number data listener) := by
  have hwritten := h.fresh.written
  cases listener with
  | addZone =>
    rw [Page.onSubmit]
    refine iteInduction (motive := UpToDate document uuid) (fun _ => h) fun _ => ?_
    exact upToDate_render huuid (h.healthy.addZone _ _) ⟨hwritten.stats, hwritten.cards, hwritten.detail⟩
  | allocateVehicle zoneId =>
    rw [Page.onSubmit]
    dsimp only
    split
    · exact h
    · generalize (if Page.textOf trim data.plate = "" then "N/A" else Page.textOf trim data.plate) = plate
      generalize Page.textOf trim data.ownerName = ownerName
      generalize truthy (some (Page.textOf trim data.slotId)) = preferredSlotId
      have hhealthy := h.healthy.allocateVehicle zoneId ownerName plate preferredSlotId
      rcases State.allocateVehicle_inv uuid page.parkingState zoneId ownerName plate preferredSlotId with
        ⟨-, heq⟩ | ⟨i, zone, j, slot, -, -, -, heq⟩
      · rw [heq]
        exact h
      · rw [heq] at hhealthy ⊢
        exact upToDate_render huuid hhealthy ⟨hwritten.stats, hwritten.cards, hwritten.detail⟩

theorem UpToDate.foldl_onSubmit (huuid : ∀ n, uuid.value n ≠ "") (h : UpToDate document uuid page) (data : FormData)
    (listeners : List Listener) :
    UpToDate document uuid (listeners.foldl (Page.onSubmit document uuid trim number data) page) := by
  induction listeners generalizing page with
  | nil => exact h
  | cons listener listeners ih => exact ih (h.onSubmit huuid data listener)

/-- Every event leaves the page up to date. -/
theorem UpToDate.step (huuid : ∀ n, uuid.value n ≠ "") (h : UpToDate document uuid page) (event : Page.Event) :
    UpToDate document uuid (page.step document uuid trim number event) := by
  have hwritten := h.fresh.written
  cases event with
  | navigate view =>
    rw [Page.step]
    split
    · exact h.switchView view
    · exact h
  | back =>
    rw [Page.step]
    split
    · exact h.switchView .zones
    · exact h
  | clickCard i =>
    rw [Page.step]
    cases hcard : page.cards.bind (·[i]?) with
    | none => exact h
    | some card =>
      obtain ⟨cards, hcards, hcard⟩ := Option.bind_eq_some_iff.mp hcard
      have hmem := List.mem_of_getElem? hcard
      rw [h.fresh.cards, Option.ite_none_right_eq_some, Option.some_inj] at hcards
      rw [← hcards.2] at hmem
      obtain ⟨zone, hzone, rfl⟩ := List.mem_map.mp hmem
      exact upToDate_render huuid (h.healthy.setActiveZone (List.mem_map_of_mem hzone))
        ⟨hwritten.stats, hwritten.cards, hwritten.detail⟩
  | clickCar => exact h
  | openAddZone =>
    rw [Page.step]
    split
    · exact h.openModal .addZone
    · exact h
  | openAddVehicle =>
    rw [Page.step]
    split
    · split
      · exact h.openModal _
      · exact h
    · exact h
  | cancel =>
    rw [Page.step]
    split
    · exact h.frame _ _ _
    · exact h
  | clickBackdrop =>
    rw [Page.step]
    split
    · exact h.frame _ _ _
    · exact h
  | submit data =>
    rw [Page.step]
    split
    · exact h.foldl_onSubmit huuid data page.listeners
    · exact h
  | undo =>
    rw [Page.step]
    split
    · have hhealthy := h.healthy.undoLast
      rcases undo_cases h.healthy.sound with heq | ⟨p, last, -, hsome⟩
      · rw [heq]
        exact h
      · cases hundo : page.parkingState.undoLast with
        | mk undone s =>
          rw [hundo] at hhealthy hsome
          obtain ⟨names, rfl⟩ := Option.ne_none_iff_exists'.mp hsome
          exact upToDate_render huuid hhealthy ⟨hwritten.stats, hwritten.cards, hwritten.detail⟩
    · exact h

theorem upToDate_run (huuid : ∀ n, uuid.value n ≠ "") (events : List Page.Event) :
    UpToDate document uuid (Page.run document uuid trim number events) := by
  have hstep : ∀ page event, True → UpToDate document uuid page →
      UpToDate document uuid (page.step document uuid trim number event) := fun _ event _ h => h.step huuid event
  have hinit : UpToDate document uuid (Page.init document uuid) :=
    upToDate_render huuid (healthy_bootstrap uuid) ⟨fun _ => rfl, fun _ => rfl, fun _ => rfl⟩
  exact Foundation.Runs.run_invariant _ hstep (fun _ _ => trivial) hinit

end Events

theorem sum_occupied (zones : List Zone) : ((renderZonesList zones).map Card.occupied).sum = parked zones := by
  rw [renderZonesList, List.map_map, parked, allSlots, List.countP_flatMap]
  congr 2
  funext zone
  exact (List.countP_eq_length_filter).symm

theorem free_renderCard (zone : Zone) : (renderCard zone).free = zone.slots.countP (·.vehicle.isNone) := by
  have hsplit := parked_add_free [zone]
  rw [parked, free, allSlots, List.flatMap_singleton] at hsplit
  rw [renderCard, occupiedSlots, ← List.countP_eq_length_filter]
  dsimp only
  omega

theorem sum_free (zones : List Zone) : ((renderZonesList zones).map Card.free).sum = free zones := by
  rw [renderZonesList, List.map_map, free, allSlots, List.countP_flatMap]
  congr 2
  funext zone
  exact free_renderCard zone

/-- The page shows the state as it is, its numbers agree, and there is an allocation to undo
for every car but the first three. -/
structure Consistent (document : Document) (page : Page) : Prop where
  fresh : Fresh document page
  parked : ∀ cards ∈ page.cards, ∀ stats ∈ page.stats, (cards.map Card.occupied).sum = stats.parkedCars
  free : ∀ cards ∈ page.cards, ∀ stats ∈ page.stats, (cards.map Card.free).sum = stats.freeSlots
  undoable : ∀ stats ∈ page.stats, stats.parkedCars = 3 + page.parkingState.history.length

/-- Whatever the user does, and whichever elements the document has, the page is consistent. -/
theorem page_consistent (document : Document) (uuid : UuidSource) (trim : String → String) (number : String → Option ℚ)
    (huuid : ∀ n, uuid.value n ≠ "") (events : List Page.Event) :
    Consistent document (Page.run document uuid trim number events) := by
  have h : UpToDate document uuid (Page.run document uuid trim number events) := upToDate_run huuid events
  have hcards : ∀ cards ∈ (Page.run document uuid trim number events).cards,
      cards = renderZonesList (Page.run document uuid trim number events).parkingState.zones := by
    intro cards hmem
    rw [Option.mem_def, h.fresh.cards, Option.ite_none_right_eq_some, Option.some_inj] at hmem
    exact hmem.2.symm
  have hstats : ∀ stats ∈ (Page.run document uuid trim number events).stats, stats =
      renderDashboardStats (Page.run document uuid trim number events).parkingState.getSnapshot := by
    intro stats hmem
    rw [Option.mem_def, h.fresh.stats, Option.ite_none_right_eq_some, Option.some_inj] at hmem
    exact hmem.2.symm
  simp only [getSnapshot_eq] at hstats
  constructor
  · exact h.fresh
  · intro cards hcardsMem stats hstatsMem
    rw [hcards cards hcardsMem, hstats stats hstatsMem, sum_occupied]
    rfl
  · intro cards hcardsMem stats hstatsMem
    rw [hcards cards hcardsMem, hstats stats hstatsMem, sum_free]
    rfl
  · intro stats hstatsMem
    rw [hstats stats hstatsMem]
    exact h.healthy.tallied.cars

/-- Ids that are not empty. -/
def tally : UuidSource where
  value n := String.ofList (List.replicate (n + 1) 'u')
  distinct h := by simpa using congrArg String.length h

/-- In a document that has every element, a vehicle is parked in the second zone and taken
back. -/
theorem page_consistent_undo : Consistent (fun _ => true) (Page.run (fun _ => true) tally id (fun _ => none)
    [.clickCard 1, .openAddVehicle, .submit ⟨none, none, some "Lea", none, some ""⟩, .clickBackdrop, .undo]) := by
  have hvalue : ∀ n, tally.value n ≠ "" := fun n h => by simpa [tally] using congrArg String.length h
  exact page_consistent (fun _ => true) tally id (fun _ => none) hvalue _

end SmartParking.Browser
