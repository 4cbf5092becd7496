import SmartParking.System.Audit

/-! # The request handlers

`handleCreateRequest` and `handleAllocateRequest` of `Server.cpp`, with the headers the
CORS middleware adds. A body is what the JSON parser returns for it: nothing, or the
two fields a well-formed body has.
-/
namespace SmartParking.Server
open ParkingRequest ParkingSystem

structure Response where
  code : ℕ
  headers : List (String × String)
  body : String
  deriving DecidableEq, Repr

def Response.ofCode (code : ℕ) : Response := ⟨code, [], ""⟩

/-- `crow::response(code, body)`, which sets no header. -/
def Response.ofBody (code : ℕ) (body : String) : Response := ⟨code, [], body⟩

def sameName (name name' : String) : Bool := name.toList.map Char.toLower == name'.toList.map Char.toLower

def Response.setHeader (response : Response) (name value : String) : Response :=
  { response with headers := response.headers.filter (fun h => !sameName h.1 name) ++ [(name, value)] }

def Response.getHeader (response : Response) (name : String) : Option String :=
  (response.headers.find? (fun h => sameName h.1 name)).map (·.2)

/-- Setting a header leaves those of other names alone. -/
theorem Response.getHeader_setHeader_of_ne (response : Response) {name other : String} (value : String)
    (h : sameName name other = false) :
    (response.setHeader name value).getHeader other = response.getHeader other := by
  have hkept : ∀ q : String × String, sameName q.1 other = true → sameName q.1 name = false := by
    intro q hq
    rw [sameName, beq_iff_eq] at hq
    rw [sameName, hq, beq_eq_false_iff_ne]
    rw [sameName, beq_eq_false_iff_ne] at h
    exact h.symm
  have hfilter : (response.headers.filter (fun q => !sameName q.1 name)).find? (fun q => sameName q.1 other) =
      response.headers.find? (fun q => sameName q.1 other) := by
    rw [List.find?_filter]
    congr 1
    funext q
    cases hq : sameName q.1 other with
    | false => simp
    | true => simp [hkept q hq]
  rw [getHeader, setHeader, List.find?_append, hfilter, List.find?_singleton, h]
  simp [getHeader]

/-- `CorsMiddleware::after_handle`. -/
def afterHandle (response : Response) : Response :=
  (((response.setHeader "Access-Control-Allow-Origin" "*").setHeader
    "Access-Control-Allow-Methods" "GET, POST, PUT, DELETE, OPTIONS").setHeader
    "Access-Control-Allow-Headers" "Content-Type, Authorization").setHeader
    "Access-Control-Max-Age" "3600"

@[simp] theorem afterHandle_code (response : Response) : (afterHandle response).code = response.code := rfl
@[simp] theorem afterHandle_body (response : Response) : (afterHandle response).body = response.body := rfl

structure CreateBody where
  vehicleId : String
  requestedZoneId : ℤ
  deriving DecidableEq, Repr

/-- The `int` that an `int64_t` is narrowed to. -/
def narrow (n : ℤ) : ℤ := n.bmod (2 ^ 32)

def createdBody (newId : ℤ) : String := s!"\x7b\"id\": {newId}, \"requestId\": {newId}\x7d"

def handleCreateRequest (x : Option CreateBody) (ps : ParkingSystem) : Response × ParkingSystem :=
  match x with
  | none => (.ofCode 400, ps)
  | some body =>
    let vid := body.vehicleId
    let zoneId := narrow body.requestedZoneId
    -- the id is converted to `bool` and not looked at
    let (_result, ps) := ps.requestParking vid zoneId
    let newId := match ps.requests.getLast? with
      | some request => request.requestId
      | none => 0
    (.ofBody 201 (createdBody newId), ps)

def handleAllocateRequest (_id : ℤ) (ps : ParkingSystem) : Response × ParkingSystem := (.ofCode 200, ps)

/-- This call stored a request with id `r` of the vehicle `v`, and it is allocated. -/
def Stored (before after : ParkingSystem) (r : ℤ) (v : String) : Prop :=
  ∃ request, after.requests = before.requests ++ [request] ∧ request.requestId = r ∧
    request.vehicleId = v ∧ request.currentState = .allocated

def AnswersCreated (response : Response) (r : ℤ) : Prop := response.code = 201 ∧ response.body = createdBody r

theorem slotFor_of_answer {ps : ParkingSystem} {vehicleId : String} {requestedZoneId : ℤ}
    (h : (ps.requestParking vehicleId requestedZoneId).1 ≠ -1) : ∃ p, ps.slotFor requestedZoneId = some p := by
  cases hslot : ps.slotFor requestedZoneId with
  | none =>
    rw [requestParking_none hslot] at h
    exact absurd rfl h
  | some p => exact ⟨p, rfl⟩

/-- When a slot was found, the request that is acknowledged is the one this call stored. -/
theorem handleCreateRequest_stored {ps : ParkingSystem} {body : CreateBody}
    (h : (ps.requestParking body.vehicleId (narrow body.requestedZoneId)).1 ≠ -1) :
    AnswersCreated (handleCreateRequest (some body) ps).1
        (ps.requestParking body.vehicleId (narrow body.requestedZoneId)).1 ∧
      Stored ps (handleCreateRequest (some body) ps).2
        (ps.requestParking body.vehicleId (narrow body.requestedZoneId)).1 body.vehicleId := by
  obtain ⟨p, hslot⟩ := slotFor_of_answer h
  have hrequest : ps.requestParking body.vehicleId (narrow body.requestedZoneId) = _ :=
    requestParking_some hslot
  simp only [handleCreateRequest, hrequest, List.getLast?_append, List.getLast?_singleton, Option.some_or]
  refine ⟨⟨rfl, rfl⟩, ⟨toInt ps.requests.length, body.vehicleId, narrow body.requestedZoneId, 0, .allocated⟩, ?_⟩
  simp only [and_self]

end SmartParking.Server
