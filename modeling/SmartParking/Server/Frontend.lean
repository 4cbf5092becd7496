import SmartParking.Server.Handlers

/-! # The create-then-allocate sequence of the frontend

`apiFetch` and `allocateVehicleToZone` of `app.js`, run against the two handlers. The
browser's JSON parser and `trim` are parameters. The loading overlay, and the reload
of the zones after the success message, are left out.
-/
namespace SmartParking.Server
open ParkingSystem

inductive Json
  | null
  | bool (b : Bool)
  | number (n : ℤ)
  | string (s : String)
  | object (fields : List (String × Json))

namespace Json

def truthy : Json → Bool
  | null => false
  | bool b => b
  | number n => n != 0
  | string s => s != ""
  | object _ => true

/-- A member of an object; `none` is `undefined`. -/
def member : Json → String → Option Json
  | object fields, key => (fields.find? (·.1 == key)).map (·.2)
  | _, _ => none

def render : Json → String
  | null => "null"
  | bool b => toString b
  | number n => toString n
  | string s => s
  | object _ => "[object Object]"

end Json

inductive Data
  | json (value : Json)
  | text (body : String)

inductive Toast
  | error (message : String)
  | success (message : String)
  deriving DecidableEq, Repr

namespace Data

/-- `data?.message || data || ...` for an answer that is not ok. -/
def errorMsg (status : ℕ) : Data → String
  | json value =>
    match (value.member "message").filter Json.truthy with
    | some message => message.render
    | none => if value.truthy then value.render else s!"Request failed: {status}"
  | text body => if body = "" then s!"Request failed: {status}" else body

/-- `request.id || request.requestId`, when it is truthy. -/
def requestId : Data → Option Json
  | json value => ((value.member "id").filter Json.truthy).or ((value.member "requestId").filter Json.truthy)
  | text _ => none

end Data

def backendUnreachable : String :=
  "Backend unreachable: http://localhost:8080/api. Start the C++ server on localhost:8080 " ++
    "(and confirm /api/zones loads in browser)."

def includesJson (contentType : String) : Bool := decide ("application/json".toList <:+: contentType.toList)

variable (parse : String → Option Json) (trim : String → String)

/-- The toasts that are shown and the data, which is missing when the call throws. -/
def apiFetch (response : Response) : List Toast × Option Data :=
  let contentType := response.getHeader "content-type"
  let data := if contentType.any includesJson then (parse response.body).map Data.json
    else some (.text response.body)
  match data with
  | none => ([.error backendUnreachable], none)
  | some data =>
    if response.code < 200 ∨ 300 ≤ response.code then
      ([.error (data.errorMsg response.code), .error backendUnreachable], none)
    else ([], some data)

/-- The `<int>` of the route that `/parking/requests/${requestId}/allocate` matches. -/
def routeId : Json → Option ℤ
  | .number n => some n
  | .string s => s.toInt?
  | _ => none

def allocateVehicleToZone (zoneId : ℤ) (vehicleId : Option String) (ps : ParkingSystem) :
    List Toast × ParkingSystem :=
  match vehicleId with
  | none => ([], ps)
  | some vehicleId =>
    if vehicleId = "" then ([], ps)
    else
      let (response, ps) := handleCreateRequest (some ⟨trim vehicleId, zoneId⟩) ps
      match apiFetch parse (afterHandle response) with
      | (toasts, none) => (toasts, ps)
      | (toasts, some (.json .null)) => (toasts, ps)
      | (toasts, some request) =>
        match request.requestId with
        | none => (toasts ++ [.error "Request created but ID missing"], ps)
        | some requestId =>
          let (response, ps) := match routeId requestId with
            | some id => handleAllocateRequest id ps
            | none => (.ofCode 404, ps)
          match apiFetch parse (afterHandle response) with
          | (more, none) => (toasts ++ more, ps)
          | (more, some _) => (toasts ++ more ++ [.success "Vehicle allocated successfully!"], ps)

/-- The middleware adds no content type. -/
theorem getHeader_afterHandle (code : ℕ) (body : String) :
    (afterHandle (.ofBody code body)).getHeader "content-type" = none := by
  unfold afterHandle
  rw [Response.getHeader_setHeader_of_ne _ _ (by decide), Response.getHeader_setHeader_of_ne _ _ (by decide),
    Response.getHeader_setHeader_of_ne _ _ (by decide), Response.getHeader_setHeader_of_ne _ _ (by decide)]
  rfl

theorem apiFetch_created (newId : ℤ) :
    apiFetch parse (afterHandle (.ofBody 201 (createdBody newId))) = ([], some (.text (createdBody newId))) := by
  have hheader := getHeader_afterHandle 201 (createdBody newId)
  simp only [apiFetch, hheader, Option.any_none, Bool.false_eq_true, if_false, afterHandle_code, afterHandle_body]
  simp [Response.ofBody]

theorem handleCreateRequest_answer (body : CreateBody) (ps : ParkingSystem) :
    ∃ newId, (handleCreateRequest (some body) ps).1 = .ofBody 201 (createdBody newId) := ⟨_, rfl⟩

/-- The sequence ends before the allocate call: the text has no `id`. -/
theorem allocateVehicleToZone_missing (zoneId : ℤ) {vehicleId : String} (h : vehicleId ≠ "") (ps : ParkingSystem) :
    allocateVehicleToZone parse trim zoneId (some vehicleId) ps =
      ([.error "Request created but ID missing"], (handleCreateRequest (some ⟨trim vehicleId, zoneId⟩) ps).2) := by
  obtain ⟨newId, hanswer⟩ := handleCreateRequest_answer ⟨trim vehicleId, zoneId⟩ ps
  simp [allocateVehicleToZone, h, hanswer, apiFetch_created, Data.requestId]

theorem allocateVehicleToZone_cancelled (zoneId : ℤ) {vehicleId : Option String}
    (h : vehicleId = none ∨ vehicleId = some "") (ps : ParkingSystem) :
    allocateVehicleToZone parse trim zoneId vehicleId ps = ([], ps) := by
  rcases h with rfl | rfl
  · rfl
  · simp [allocateVehicleToZone]

/-- An acknowledged request is real: what the answers of the two handlers would have to mean. -/
structure AcknowledgedIsReal (ps : ParkingSystem) (body : CreateBody) : Prop where
  stored : ∀ r, AnswersCreated (handleCreateRequest (some body) ps).1 r →
    Stored ps (handleCreateRequest (some body) ps).2 r body.vehicleId
  refused : (ps.requestParking body.vehicleId (narrow body.requestedZoneId)).1 = -1 →
    (handleCreateRequest (some body) ps).1.code ≠ 201
  allocated : ∀ r, (handleAllocateRequest r ps).1.code = 200 → ps.Names r [.allocated]

/-- With one request stored and a slot free, the allocate call accepts the id of a second
request. -/
theorem not_acknowledgedIsReal_oneParked :
    ¬ AcknowledgedIsReal (ParkingSystem.run (Audit.twoParked.take 2)) ⟨"VIS-456", 1⟩ := by
  intro hreal
  obtain ⟨i, hi, state, -, hstate⟩ := hreal.allocated 1 rfl
  obtain rfl : 1 = i := Int.ofNat_inj.mp hi
  have hnone : stateAt? (ParkingSystem.run (Audit.twoParked.take 2)).requests 1 = none := by decide
  rw [hnone] at hstate
  contradiction

/-- What the answers do mean: a request that got a slot is stored under the id of the
answer, and the allocate call is a mock. The user is told that the id is missing, also when
the vehicle was parked, and is never told of a success. -/
structure Acknowledgement (ps : ParkingSystem) (body : CreateBody) : Prop where
  stored : (ps.requestParking body.vehicleId (narrow body.requestedZoneId)).1 ≠ -1 →
    ∃ r, r = (ps.requestParking body.vehicleId (narrow body.requestedZoneId)).1 ∧
      AnswersCreated (handleCreateRequest (some body) ps).1 r ∧
      Stored ps (handleCreateRequest (some body) ps).2 r body.vehicleId
  mocked : ∀ r, handleAllocateRequest r ps = (.ofCode 200, ps)
  missing : ∀ (parse : String → Option Json) (trim : String → String) (zoneId : ℤ) (vehicleId : String),
    vehicleId ≠ "" → trim vehicleId = body.vehicleId → zoneId = body.requestedZoneId →
    allocateVehicleToZone parse trim zoneId (some vehicleId) ps =
      ([.error "Request created but ID missing"], (handleCreateRequest (some body) ps).2)
  unreported : ∀ (parse : String → Option Json) (trim : String → String) (zoneId : ℤ) (vehicleId : Option String)
    (message : String), .success message ∉ (allocateVehicleToZone parse trim zoneId vehicleId ps).1

theorem handlers_acknowledgement (ops : List Op) (body : CreateBody) :
    Acknowledgement (ParkingSystem.run ops) body := by
  constructor
  · intro hanswer
    exact ⟨_, rfl, handleCreateRequest_stored hanswer⟩
  · exact fun r => rfl
  · rintro parse trim zoneId vehicleId hne hvehicle rfl
    rw [allocateVehicleToZone_missing parse trim body.requestedZoneId hne, hvehicle]
  · intro parse trim zoneId vehicleId message hsuccess
    by_cases hcancelled : vehicleId = none ∨ vehicleId = some ""
    · rw [allocateVehicleToZone_cancelled parse trim zoneId hcancelled] at hsuccess
      contradiction
    · obtain ⟨text, rfl⟩ := Option.ne_none_iff_exists'.mp fun h => hcancelled (Or.inl h)
      rw [allocateVehicleToZone_missing parse trim zoneId fun h => hcancelled (Or.inr (congrArg some h))] at hsuccess
      simp at hsuccess

end SmartParking.Server
