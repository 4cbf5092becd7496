import SmartParking.Foundation.JsonChars
import SmartParking.Foundation.JsonWrite
import SmartParking.Server.RawRequests

/-! # The bodies the frontend sends

`handleNewRequest`, `allocateVehicleToZone` and `handleCreateZone` of `app.js` post the text
that `JSON.stringify` makes of an object, encoded in UTF-8, if the form is complete. What the
server reads is what the frontend meant, and a number that `parseInt` does not find is refused.
-/
namespace SmartParking.Server
open Foundation Foundation.JsonText Foundation.JsonString
open Foundation.JsonNumber hiding IsNumber

/-- The bytes of a string of JavaScript that has no lone surrogates. -/
def utf8 (text : String) : List UInt8 := text.toList.flatMap String.utf8EncodeChar

def lowerHexDigit (n : ℕ) : UInt8 := if n < 10 then UInt8.ofNat (0x30 + n) else UInt8.ofNat (0x57 + n)

/-- What `JSON.stringify` makes of a character. -/
def stringifyChar (c : Char) : List UInt8 :=
  if c.toNat = 0x08 then [0x5C, 0x62]
  else if c.toNat = 0x09 then [0x5C, 0x74]
  else if c.toNat = 0x0A then [0x5C, 0x6E]
  else if c.toNat = 0x0C then [0x5C, 0x66]
  else if c.toNat = 0x0D then [0x5C, 0x72]
  else if c.toNat = 0x22 then [0x5C, 0x22]
  else if c.toNat = 0x5C then [0x5C, 0x5C]
  else if c.toNat < 0x20 then [0x5C, 0x75, 0x30, 0x30, lowerHexDigit (c.toNat / 16), lowerHexDigit (c.toNat % 16)]
  else String.utf8EncodeChar c

def stringifyText (text : String) : List UInt8 := text.toList.flatMap stringifyChar

def stringify (text : String) : Tree := .string (stringifyText text)

/-- A number that is an integer, or `NaN`, which is written as `null`. -/
def stringifyNumber : Option ℤ → Tree
  | some n => .number (integerText n)
  | none => .null

/-- The body of a new request. -/
def requestBody (vehicleId : String) (requestedZoneId : Option ℤ) : Tree :=
  .object [(ascii "vehicleId", stringify vehicleId), (ascii "requestedZoneId", stringifyNumber requestedZoneId)]

structure AreaInput where
  areaId : Option ℤ
  slots : Option ℤ
  deriving DecidableEq, Repr

def areaTree (area : AreaInput) : Tree :=
  .object [(ascii "areaId", stringifyNumber area.areaId), (ascii "slots", stringifyNumber area.slots)]

/-- The body of a new zone. `zoneId` is the text in the form. -/
def zoneBody (parseInt : String → Option ℤ) (zoneId : String) (areas : List AreaInput) : Tree :=
  .object [(ascii "id", stringifyNumber (parseInt zoneId)), (ascii "name", stringify s!"Zone {zoneId}"),
    (ascii "areas", .array (areas.map areaTree))]

/-- The numbers of a form are exact and written without an exponent. -/
def Exact (number : Option ℤ) : Prop := ∀ n ∈ number, -2 ^ 53 < n ∧ n < 2 ^ 53

section Lookups
variable (lookup : Crow.Lookup) (u : ℤ)

variable {lookup u}

/-- What a row of the form stands for. -/
def AreaInput.area (input : AreaInput) : Option AreaBody := do
  let areaId ← input.areaId
  let slots ← input.slots
  some ⟨areaId, slots⟩

def AreaInput.Exact (input : AreaInput) : Prop := Server.Exact input.areaId ∧ Server.Exact input.slots

/-- What the form for a zone stands for. -/
def zoneMeant (id : Option ℤ) (areas : List AreaInput) : Option CreateZoneBody := do
  let id ← id
  let areas ← areas.mapM AreaInput.area
  some ⟨id, some areas⟩

/-- What is posted, with the numbers that the fields of a form are parsed to. -/
inductive Payload
  | zone (zoneId : String) (areas : List AreaInput)
  | request (vehicleId : String) (requestedZoneId : Option ℤ)
  deriving DecidableEq, Repr

variable (parseInt : String → Option ℤ)

/-- What `apiFetch` posts for the payload. -/
def Payload.raw : Payload → RawPost
  | zone zoneId areas => .zones (write (zoneBody parseInt zoneId areas))
  | request vehicleId requestedZoneId => .requests (write (requestBody vehicleId requestedZoneId))

/-- What the user asks for, if every number is one. -/
def Payload.meant : Payload → Option Post
  | zone zoneId areas => (zoneMeant (parseInt zoneId) areas).map fun body => .createZone (some body)
  | request vehicleId requestedZoneId =>
    requestedZoneId.map fun n => .createRequest (some ⟨ofBytes (utf8 vehicleId), n⟩)

/-- What a payload is answered and does, if the server reads what it means. -/
def submit (ps : ParkingSystem) (payload : Payload) : Response × ParkingSystem :=
  match payload.meant parseInt with
  | none => (.ofCode 500, ps)
  | some post => respond ps post

/-- The numbers of the payload are exact in JavaScript. -/
def Payload.Exact : Payload → Prop
  | zone zoneId areas => Server.Exact (parseInt zoneId) ∧ ∀ input ∈ areas, input.Exact
  | request _ requestedZoneId => Server.Exact requestedZoneId

variable {parseInt}

end Lookups

/-- A form as the user leaves it, with the rows for the areas of a zone, and what `prompt`
returns on a zone's card. -/
inductive Form
  | createZone (zoneId : String) (areaItems : List (String × String))
  | newRequest (vehicleId requestedZoneId : String)
  | allocateVehicle (zoneId : ℤ) (vehicleId : Option String)
  deriving DecidableEq, Repr

section Forms
variable (trim : String → String) (parseInt : String → Option ℤ)

/-- What is posted for a form. The handlers return before that if a field is empty or there is
no row. -/
def Form.payload : Form → Option Payload
  | createZone zoneId areaItems =>
    if zoneId = "" ∨ areaItems.length = 0 then none
    else some (.zone zoneId (areaItems.map fun inputs => ⟨parseInt inputs.1, parseInt inputs.2⟩))
  | newRequest vehicleId requestedZoneId =>
    if vehicleId = "" ∨ requestedZoneId = "" then none
    else some (.request (trim vehicleId) (parseInt requestedZoneId))
  | allocateVehicle zoneId vehicleId =>
    match vehicleId with
    | none => none
    | some vehicleId => if vehicleId = "" then none else some (.request (trim vehicleId) (some zoneId))

/-- The numbers that are posted for the form are exact in JavaScript. -/
def Form.Exact (form : Form) : Prop := ∀ payload ∈ form.payload trim parseInt, payload.Exact parseInt

end Forms

end SmartParking.Server
