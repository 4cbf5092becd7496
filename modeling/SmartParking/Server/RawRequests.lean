import SmartParking.Crow.Access
import SmartParking.Foundation.ListMaps
import SmartParking.Server.JsonEscape
import SmartParking.Server.ZoneHandlers

/-! # Requests as they arrive

`handleCreateZone` and `handleCreateRequest` from the bytes of the request's body on. A body
that cannot be parsed is refused by the handler. A field that is missing or of another type
makes an accessor throw, and Crow's exception handler answers with 500.
-/
namespace SmartParking.Server
open Foundation Foundation.JsonText Foundation.ListMaps ParkingSystem

/-- A `std::string` is the `String` whose characters are its bytes. -/
def ofBytes (text : List UInt8) : String := String.ofList (text.map fun b => Char.ofNat b.toNat)

section Decode
-- `u` is what a variable holds that is not initialised
variable (lookup : Crow.Lookup) (u : ℤ)

/-- `t[key].i()`. -/
def intField (t : Tree) (key : String) : Option ℤ := do
  Crow.i u (← Crow.member lookup t (ascii key))

def areaBody (areaJson : Tree) : Option AreaBody := do
  let areaId ← intField lookup u areaJson "areaId"
  let slots ← intField lookup u areaJson "slots"
  some ⟨areaId, slots⟩

/-- What `handleCreateZone` reads of the body. -/
def createZoneBody (x : Tree) : Option CreateZoneBody := do
  let id ← intField lookup u x "id"
  if Crow.has lookup x (ascii "areas") then
    let areas ← Crow.elements (← Crow.member lookup x (ascii "areas"))
    let areas ← areas.mapM (areaBody lookup u)
    some ⟨id, some areas⟩
  else some ⟨id, none⟩

/-- What `handleCreateRequest` reads of the body. -/
def createBody (x : Tree) : Option CreateBody := do
  let vid ← Crow.s (← Crow.member lookup x (ascii "vehicleId"))
  let zoneId ← intField lookup u x "requestedZoneId"
  some ⟨ofBytes vid, zoneId⟩

/-- A POST request with its body. -/
inductive RawPost
  | zones (body : List UInt8)
  | requests (body : List UInt8)
  deriving DecidableEq, Repr

def RawPost.body : RawPost → List UInt8
  | zones body => body
  | requests body => body

/-- The request the handlers see, if no accessor throws. -/
def RawPost.post : RawPost → Option Post
  | zones body =>
    match Crow.load body with
    | none => some (.createZone none)
    | some x => (createZoneBody lookup u x).map fun body => .createZone (some body)
  | requests body =>
    match Crow.load body with
    | none => some (.createRequest none)
    | some x => (createBody lookup u x).map fun body => .createRequest (some body)

def respond (ps : ParkingSystem) : Post → Response × ParkingSystem
  | .createZone x => handleCreateZone x ps
  | .createRequest x => handleCreateRequest x ps

/-- What a route answers and does, with what `default_exception_handler` answers. -/
def receive (ps : ParkingSystem) (raw : RawPost) : Response × ParkingSystem :=
  match raw.post lookup u with
  | none => (.ofCode 500, ps)
  | some post => respond ps post

/-- The operations of the parking system that a request comes down to. -/
def RawPost.ops (raw : RawPost) : List Op :=
  match raw.post lookup u with
  | some (.createZone (some body)) => [.addZone body.zone]
  | some (.createRequest (some body)) => [.requestParking body.vehicleId (narrow body.requestedZoneId)]
  | _ => []

variable {lookup u}

theorem respond_snd (ps : ParkingSystem) (post : Post) : (respond ps post).2 = serve ps post := by
  cases post <;> rfl

/-- The body is no JSON, not even for Crow. -/
def Unparsable (raw : RawPost) : Prop := ∀ t, ¬ IsDocument Crow.dialect 5000 (Crow.cString raw.body) t

theorem unparsable_iff (raw : RawPost) : Unparsable raw ↔ Crow.load raw.body = none := by
  rw [Option.eq_none_iff_forall_ne_some]
  exact forall_congr' fun t => (Crow.load_eq_some_iff raw.body t).not.symm

/-- The member is a number, or a string to read one from. -/
def HasNumber (lookup : Crow.Lookup) (t : Tree) (key : String) : Prop :=
  ∃ text, Crow.member lookup t (ascii key) = some (.number text) ∨
    Crow.member lookup t (ascii key) = some (.string text)

def HasString (lookup : Crow.Lookup) (t : Tree) (key : String) : Prop :=
  ∃ text, Crow.member lookup t (ascii key) = some (.string text)

/-- There are no areas, or they can be listed and each has its two numbers. -/
def HasAreas (lookup : Crow.Lookup) (t : Tree) : Prop :=
  ∀ areas, Crow.member lookup t (ascii "areas") = some areas →
    ∃ items, Crow.elements areas = some items ∧
      ∀ area ∈ items, HasNumber lookup area "areaId" ∧ HasNumber lookup area "slots"

/-- The fields that the route needs are there. -/
def HasFields (lookup : Crow.Lookup) (t : Tree) : RawPost → Prop
  | .zones _ => HasNumber lookup t "id" ∧ HasAreas lookup t
  | .requests _ => HasString lookup t "vehicleId" ∧ HasNumber lookup t "requestedZoneId"

theorem isSome_i (t : Tree) :
    (Crow.i u t).isSome = true ↔ ∃ text, t = .number text ∨ t = .string text := by
  cases t <;> simp [Crow.i]

theorem intField_isSome (t : Tree) (key : String) :
    (intField lookup u t key).isSome = true ↔ HasNumber lookup t key := by
  rw [intField, HasNumber]
  cases Crow.member lookup t (ascii key) with
  | none => simp
  | some v =>
    rw [Option.bind_eq_bind, Option.bind_some, isSome_i]
    simp only [Option.some_inj]

theorem areaBody_isSome (t : Tree) : (areaBody lookup u t).isSome = true ↔
    HasNumber lookup t "areaId" ∧ HasNumber lookup t "slots" := by
  rw [← intField_isSome (u := u), ← intField_isSome (u := u), areaBody]
  cases intField lookup u t "areaId" <;> cases intField lookup u t "slots" <;> simp

theorem createZoneBody_isSome (t : Tree) :
    (createZoneBody lookup u t).isSome = true ↔ HasNumber lookup t "id" ∧ HasAreas lookup t := by
  rw [← intField_isSome (u := u), createZoneBody, HasAreas, Crow.has]
  cases intField lookup u t "id" with
  | none => simp
  | some id =>
    rw [Option.bind_eq_bind, Option.bind_some]
    cases Crow.member lookup t (ascii "areas") with
    | none => simp
    | some areas =>
      have hitems : ∀ items : List Tree, (items.mapM (areaBody lookup u)).isSome = true ↔
          ∀ area ∈ items, HasNumber lookup area "areaId" ∧ HasNumber lookup area "slots" := by
        intro items
        simp only [isSome_mapM, areaBody_isSome]
      simp only [Option.isSome_some, if_true, Option.bind_eq_bind, Option.bind_some, true_and, Option.some_inj,
        forall_eq', ← hitems]
      cases helements : Crow.elements areas with
      | none => simp
      | some items => cases hareas : items.mapM (areaBody lookup u) <;> simp [hareas]

theorem createBody_isSome (t : Tree) : (createBody lookup u t).isSome = true ↔
    HasString lookup t "vehicleId" ∧ HasNumber lookup t "requestedZoneId" := by
  rw [← intField_isSome (u := u), createBody, HasString]
  cases Crow.member lookup t (ascii "vehicleId") with
  | none => simp
  | some v => cases v <;> cases intField lookup u t "requestedZoneId" <;> simp [Crow.s]

/-- What a posted body is answered with, and that nothing is done for a bad one. -/
structure Answered (lookup : Crow.Lookup) (u : ℤ) (ps : ParkingSystem) (raw : RawPost) : Prop where
  unparsable : (receive lookup u ps raw).1.code = 400 ↔ Unparsable raw
  incomplete : (receive lookup u ps raw).1.code = 500 ↔
    ∃ t, IsDocument Crow.dialect 5000 (Crow.cString raw.body) t ∧ ¬ HasFields lookup t raw
  created : (receive lookup u ps raw).1.code = 201 ↔
    ∃ t, IsDocument Crow.dialect 5000 (Crow.cString raw.body) t ∧ HasFields lookup t raw
  unchanged : (receive lookup u ps raw).1.code ≠ 201 → (receive lookup u ps raw).2 = ps

variable (lookup u)

theorem receive_unparsable (ps : ParkingSystem) {raw : RawPost} (h : Crow.load raw.body = none) :
    (receive lookup u ps raw).1.code = 400 ∧ (receive lookup u ps raw).2 = ps := by
  cases raw with
  | zones body =>
    have hload : Crow.load body = none := h
    simp [receive, RawPost.post, hload, respond, handleCreateZone, Response.ofBody]
  | requests body =>
    have hload : Crow.load body = none := h
    simp [receive, RawPost.post, hload, respond, handleCreateRequest, Response.ofCode]

theorem receive_parsed (ps : ParkingSystem) {raw : RawPost} {t : Tree} (h : Crow.load raw.body = some t) :
    (HasFields lookup t raw → (receive lookup u ps raw).1.code = 201) ∧
      (¬ HasFields lookup t raw → (receive lookup u ps raw).1.code = 500 ∧ (receive lookup u ps raw).2 = ps) := by
  cases raw with
  | zones body =>
    have hload : Crow.load body = some t := h
    rw [HasFields, ← createZoneBody_isSome (u := u), receive, RawPost.post, hload]
    cases hbody : createZoneBody lookup u t <;> simp [hbody, respond, handleCreateZone, Response.ofCode]
  | requests body =>
    have hload : Crow.load body = some t := h
    rw [HasFields, ← createBody_isSome (u := u), receive, RawPost.post, hload]
    cases hbody : createBody lookup u t <;> simp [hbody, respond, handleCreateRequest, Response.ofCode, Response.ofBody]

theorem receive_answered (ps : ParkingSystem) (raw : RawPost) : Answered lookup u ps raw := by
  cases hload : Crow.load raw.body with
  | none =>
    obtain ⟨hcode, hstate⟩ := receive_unparsable lookup u ps hload
    have hunparsable := (unparsable_iff raw).mpr hload
    constructor
    · exact iff_of_true hcode hunparsable
    · exact iff_of_false (by omega) fun ⟨t, ht, _⟩ => hunparsable t ht
    · exact iff_of_false (by omega) fun ⟨t, ht, _⟩ => hunparsable t ht
    · exact fun _ => hstate
  | some t =>
    have hdocument := (Crow.load_eq_some_iff raw.body t).mp hload
    have hsome : ∀ P : Tree → Prop, (∃ t', IsDocument Crow.dialect 5000 (Crow.cString raw.body) t' ∧ P t') ↔ P t := by
      intro P
      constructor
      · rintro ⟨t', ht', hP⟩
        rwa [hdocument.unique ht']
      · exact fun hP => ⟨t, hdocument, hP⟩
    obtain ⟨hfields, hmissing⟩ := receive_parsed lookup u ps hload
    have hparsable : ¬ Unparsable raw := fun h => h t hdocument
    by_cases hhas : HasFields lookup t raw
    · have hcode := hfields hhas
      constructor
      · exact iff_of_false (by omega) hparsable
      · exact iff_of_false (by omega) fun h => (hsome _).mp h hhas
      · exact iff_of_true hcode ((hsome _).mpr hhas)
      · exact fun hne => absurd hcode hne
    · obtain ⟨hcode, hstate⟩ := hmissing hhas
      constructor
      · exact iff_of_false (by omega) hparsable
      · exact iff_of_true hcode ((hsome _).mpr hhas)
      · exact iff_of_false (by omega) fun h => hhas ((hsome _).mp h)
      · exact fun _ => hstate

end Decode

end SmartParking.Server
