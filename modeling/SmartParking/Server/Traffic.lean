import Mathlib.Logic.Function.Basic
import SmartParking.Crow.Connection
import SmartParking.Foundation.Exchanges
import SmartParking.Server.Routes

/-! # Messages to the server

The handlers as the routes call them, `CorsMiddleware`, and messages that arrive on any number
of connections and are handled one after the other. Nothing but the two `POST` routes changes
what is stored.
-/
namespace SmartParking.Server
open Crow Foundation Foundation.Exchanges Foundation.JsonText ParkingSystem

def corsHeaders : List (String × String) :=
  [("Access-Control-Allow-Origin", "*"), ("Access-Control-Allow-Methods", "GET, POST, PUT, DELETE, OPTIONS"),
    ("Access-Control-Allow-Headers", "Content-Type, Authorization"), ("Access-Control-Max-Age", "3600")]

/-- `CorsMiddleware`. -/
def corsMiddleware : Middleware where
  beforeHandle message res :=
    if message.method = .options then
      ((Res.setHeaders { res with code := 200 } corsHeaders).setHeader "Content-Type"
        "application/json; charset=utf-8").finish
    else res
  afterHandle message res := if message.method = .options then res else res.setHeaders corsHeaders

/-- To what a handler has returned, the middleware does what `afterHandle` does. -/
theorem afterHandle_ofResponse {message : Message} (h : message.method ≠ .options) (response : Response) :
    corsMiddleware.afterHandle message (.ofResponse response) = .ofResponse (afterHandle response) := if_neg h

/-- A response with a body of JSON. -/
def jsonRes (code : ℕ) : Res := (Res.ofCode code).setHeader "Content-Type" "application/json"

section Serve
variable {D : Type} (strtod : List UInt8 → Option (D × List UInt8))
  -- the headers of a file below `static/`, by what the url has after that
  (files : List UInt8 → Option (List (String × String)))
  (lookup : Lookup) (u : ℤ)

/-- What a handler makes of the response and does. -/
def runHandler (ps : ParkingSystem) (handler : Handler) (params : RoutingParams D) (body : List UInt8) (res : Res) :
    Res × ParkingSystem :=
  let id := narrow (params.intParams.headD 0)
  match handler with
  | .getZones => (jsonRes (handleGetZones ps).code, ps)
  | .createZone =>
    let (response, ps) := receive lookup u ps (.zones body)
    (.ofResponse response, ps)
  | .getZoneDetail =>
    let code := (handleGetZoneDetail ps id).code
    (if code = 200 then jsonRes code else .ofCode code, ps)
  | .getDashboard =>
    let code := (handleGetDashboard ps).code
    ((Res.ofCode code).setHeader "Content-Type" "application/json; charset=utf-8", ps)
  | .getRequests => (jsonRes 200, ps)
  | .createRequest =>
    let (response, ps) := receive lookup u ps (.requests body)
    (.ofResponse response, ps)
  | .allocateRequest =>
    let (response, ps) := handleAllocateRequest id ps
    (.ofResponse response, ps)
  | .analyticsUtilization => (jsonRes (handleAnalyticsUtilization ps).code, ps)
  | .analyticsCancellations => (jsonRes 200, ps)
  | .staticFile =>
    match files (params.stringParams.headD []) with
    | some headers => ({ res with code := 200, headers := res.headers ++ headers }, ps)
    | none => ({ res with code := 404 }, ps)

/-- The connections of the server, and what it stores. -/
structure Net where
  connections : ℕ → Connection
  ps : ParkingSystem

def Net.start : Net := ⟨fun _ => .new, seeded⟩

/-- A message arrives on one of the connections. -/
def Net.deliver (net : Net) (arrival : ℕ × Message) : Option (Written × Net) := do
  let (written, connection, ps) ← (net.connections arrival.1).receive corsMiddleware strtod app
    (runHandler files lookup u) net.ps arrival.2
  some (written, ⟨Function.update net.connections arrival.1 connection, ps⟩)

/-- The server after all messages. -/
def Net.run (arrivals : List (ℕ × Message)) : Net := final (Net.deliver strtod files lookup u) .start arrivals

/-- The messages that are answered. A connection may be closed before. -/
def answered (arrivals : List (ℕ × Message)) : List Message :=
  (exchanges (Net.deliver strtod files lookup u) .start arrivals).map fun x => x.1.2

end Serve

/-- The message is answered before its headers are read. -/
def Early (D : Type) (message : Message) : Prop :=
  message.method = .options ∨ message.method = .head ∧ ¬ Fits D .get message.url

section Reply
variable {D : Type} {strtod : List UInt8 → Option (D × List UInt8)}
  (files : List UInt8 → Option (List (String × String))) (lookup : Lookup) (u : ℤ)

/-- How a message is answered: with which code, whether with CORS headers, and with which
parking system after it. -/
inductive Reply (ps : ParkingSystem) (message : Message) : ℕ → Bool → ParkingSystem → Prop
  | options (h : message.method = .options) (hurl : message.url = ascii "/*" ∨ ∃ method, Fits D method message.url) :
    Reply ps message 204 false ps
  | noOptions (h : message.method = .options)
      (hurl : ¬ (message.url = ascii "/*" ∨ ∃ method, Fits D method message.url)) : Reply ps message 404 false ps
  | noHead (h : message.method = .head) (hget : ¬ Fits D .get message.url) : Reply ps message 404 true ps
  | noHost (hearly : ¬ Early D message) (hhost : message.isInvalidRequest = true) : Reply ps message 400 false ps
  | handled (handler : Handler) (params : RoutingParams D) (hoptions : message.method ≠ .options)
      (hhost : message.isInvalidRequest = false) (hmethod : handler.method = served message.method)
      (htakes : handler.Takes message.url params) :
    Reply ps message (runHandler files lookup u ps handler params message.body .new).1.code true
      (runHandler files lookup u ps handler params message.body .new).2
  | notAllowed (hoptions : message.method ≠ .options) (hhead : message.method ≠ .head)
      (hhost : message.isInvalidRequest = false) (hnone : ¬ Fits D message.method message.url)
      (hother : ∃ method, Fits D method message.url) :
    Reply ps message (if message.expectsContinue then 200 else 405) true ps
  | notFound (hoptions : message.method ≠ .options) (hhead : message.method ≠ .head)
      (hhost : message.isInvalidRequest = false) (hnone : ¬ ∃ method, Fits D method message.url) :
    Reply ps message (if message.expectsContinue then 200 else 404) true ps

/-- Either every CORS header is there once, or none is. -/
def CorsIs (cors : Bool) (headers : List (String × String)) : Prop :=
  ∀ header ∈ corsHeaders, named headers header.1 = if cors then [header] else []

theorem CorsIs.write {cors : Bool} {res : Res} (h : CorsIs cors res.headers) (addKeepAlive : Bool) :
    CorsIs cors (res.write addKeepAlive).headers := by
  intro header hmem
  have hconnection : ∀ header ∈ corsHeaders, named [("Connection", "Keep-Alive")] header.1 = [] := by decide
  rw [Res.write, named, List.filter_append, ← named, ← named, h header hmem]
  cases addKeepAlive with
  | false => exact List.append_nil _
  | true => exact (congrArg _ (hconnection header hmem)).trans (List.append_nil _)

theorem corsIs_afterHandle {message : Message} (h : message.method ≠ .options) (res : Res) :
    CorsIs true (corsMiddleware.afterHandle message res).headers := by
  have hdistinct : corsHeaders.Pairwise fun header later => sameName later.1 header.1 = false := by decide
  have hafter : corsMiddleware.afterHandle message res = res.setHeaders corsHeaders := if_neg h
  rw [hafter]
  exact Res.named_setHeaders res hdistinct

theorem corsIs_allow (allow : String) : CorsIs false [("Allow", allow)] := by
  have hallow : ∀ header ∈ corsHeaders, sameName "Allow" header.1 = false := by decide
  intro header hmem
  rw [named, List.filter_singleton, hallow header hmem]
  rfl

theorem code_afterHandle (message : Message) (res : Res) :
    (corsMiddleware.afterHandle message res).code = res.code := by
  rw [corsMiddleware]
  dsimp only
  split <;> rfl

/-- The code and the effect of a handler do not depend on the response it gets. -/
theorem runHandler_res (ps : ParkingSystem) (handler : Handler) (params : RoutingParams D) (body : List UInt8)
    (res : Res) :
    (runHandler files lookup u ps handler params body res).1.code =
        (runHandler files lookup u ps handler params body .new).1.code ∧
      (runHandler files lookup u ps handler params body res).2 =
        (runHandler files lookup u ps handler params body .new).2 := by
  cases handler with
  | staticFile =>
    rw [runHandler, runHandler]
    cases files (params.stringParams.headD []) <;> exact ⟨rfl, rfl⟩
  | getZones | createZone | getZoneDetail | getDashboard | getRequests | createRequest | allocateRequest
  | analyticsUtilization | analyticsCancellations => exact ⟨rfl, rfl⟩

variable {files lookup u}

/-- The codes of the handlers. -/
def handlerCodes : List ℕ := [200, 201, 400, 404, 500]

theorem code_receive (ps : ParkingSystem) (raw : RawPost) : (receive lookup u ps raw).1.code ∈ handlerCodes := by
  cases hload : Crow.load raw.body with
  | none => simp [(receive_unparsable lookup u ps hload).1, handlerCodes]
  | some t =>
    obtain ⟨hfields, hmissing⟩ := receive_parsed lookup u ps hload
    by_cases hhas : HasFields lookup t raw
    · simp [hfields hhas, handlerCodes]
    · simp [(hmissing hhas).1, handlerCodes]

theorem code_runHandler (ps : ParkingSystem) (handler : Handler) (params : RoutingParams D) (body : List UInt8) :
    (runHandler files lookup u ps handler params body .new).1.code ∈ handlerCodes := by
  have hok : 200 ∈ handlerCodes := by decide
  have hnotFound : 404 ∈ handlerCodes := by decide
  cases handler with
  | createZone => exact code_receive ps (.zones body)
  | createRequest => exact code_receive ps (.requests body)
  | getZoneDetail =>
    rw [runHandler, handleGetZoneDetail]
    cases ps.zones.find? fun zone => zone.zoneId == narrow (params.intParams.headD 0) with
    | none => exact hnotFound
    | some zone => exact hok
  | staticFile =>
    rw [runHandler]
    cases files (params.stringParams.headD []) with
    | none => exact hnotFound
    | some headers => exact hok
  | getZones | getDashboard | getRequests | allocateRequest | analyticsUtilization | analyticsCancellations => exact hok

theorem write_code {res : Res} (h : res.code ∈ statusCodes) (addKeepAlive : Bool) :
    (res.write addKeepAlive).code = res.code := if_pos h

theorem statusCodes_handler : ∀ code ∈ handlerCodes, code ∈ statusCodes := by decide

variable (files lookup u)

/-- What becomes of a message on a connection: it is answered as it should be. -/
def Replied (ps : ParkingSystem) (message : Message) (r : Option (Written × Connection × ParkingSystem)) : Prop :=
  ∃ written connection cors ps', r = some (written, connection, ps') ∧
    Reply (D := D) files lookup u ps message written.code cors ps' ∧ CorsIs cors written.headers

variable {files lookup u} {connection : Connection} {ps : ParkingSystem} {message : Message}

/-- What the router answers at once, with the headers that the middleware gives it. -/
theorem replied_done {code : ℕ} {allow : Option String} {cors : Bool} (hcode : code ∈ statusCodes)
    (hinitial : app.handleInitial strtod message.method message.url = .done code allow)
    (hcors : ∀ res, CorsIs cors
      (corsMiddleware.afterHandle message (Connection.applyInitial (.done (D := D) code allow) res)).headers)
    (hreply : Reply (D := D) files lookup u ps message code cors ps) : Replied (D := D) files lookup u ps message
    (connection.serve corsMiddleware strtod app (runHandler files lookup u) ps message) := by
  have hafter : (corsMiddleware.afterHandle message
      (Connection.applyInitial (.done (D := D) code allow) connection.res)).code = code := code_afterHandle _ _
  refine ⟨_, _, cors, ps, Connection.serve_done hinitial, ?_, (hcors _).write _⟩
  rwa [write_code (by rwa [hafter]), hafter]

theorem replied_options (h : message.method = .options) : Replied (D := D) files lookup u ps message
    (connection.serve corsMiddleware strtod app (runHandler files lookup u) ps message) := by
  obtain ⟨allow, hinitial⟩ : ∃ allow, app.handleInitial strtod .options message.url = .done _ allow :=
    handleInitial_options routes_wellformed validate_routes message.url
  have hcors : ∀ code res, CorsIs false
      (corsMiddleware.afterHandle message (Connection.applyInitial (.done (D := D) code allow) res)).headers := by
    intro code res
    have hafter : ∀ res, corsMiddleware.afterHandle message res = res := fun _ => if_pos h
    rw [hafter]
    cases allow with
    | none => exact fun _ _ => rfl
    | some allow => exact corsIs_allow allow
  have hany : (message.url = ascii "/*" ∨
      (httpMethods.any fun method => (answer strtod (rulesOf routes method) message.url).isSome) = true) ↔
      (message.url = ascii "/*" ∨ ∃ method, Fits D method message.url) := or_congr_right any_answer_iff
  rw [← h] at hinitial
  by_cases hurl : message.url = ascii "/*" ∨ ∃ method, Fits D method message.url
  · rw [if_pos (hany.mpr hurl)] at hinitial
    exact replied_done (by decide) hinitial (hcors 204) (.options h hurl)
  · rw [if_neg (hany.not.mpr hurl)] at hinitial
    exact replied_done (by decide) hinitial (hcors 404) (.noOptions h hurl)

theorem replied_noHead (h : message.method = .head) (hget : ¬ Fits D .get message.url) :
    Replied (D := D) files lookup u ps message
      (connection.serve corsMiddleware strtod app (runHandler files lookup u) ps message) := by
  have hinitial : app.handleInitial strtod message.method message.url = .done 404 none := by
    rw [h]
    exact handleInitial_head routes_wellformed validate_routes (answer_eq_none_iff.mpr (not_fits_head _))
      (answer_eq_none_iff.mpr hget)
  have hoptions : message.method ≠ .options := by
    rw [h]
    decide
  exact replied_done (by decide) hinitial (fun _ => corsIs_afterHandle hoptions _) (.noHead h hget)

/-- A message whose headers are read. -/
theorem not_done (hearly : ¬ Early D message) (code : ℕ) (allow : Option String) :
    app.handleInitial strtod message.method message.url ≠ .done code allow := by
  obtain ⟨hoptions, hhead⟩ := not_or.mp hearly
  intro hdone
  by_cases hfits : Fits D (served message.method) message.url
  · obtain ⟨handler, params, hmethod, htakes⟩ := hfits
    have hroute := route_of_takes strtod hoptions hmethod htakes
    rw [Router.route, hdone, Router.handle] at hroute
    contradiction
  · have hnotHead : message.method ≠ .head := fun h => hhead ⟨h, by rwa [h] at hfits⟩
    have hserved : served message.method = message.method := if_neg hnotHead
    rw [hserved] at hfits
    have hnone : answer strtod (rulesOf routes message.method) message.url = none := answer_eq_none_iff.mpr hfits
    rw [handleInitial_catchAll routes_wellformed validate_routes hnotHead hoptions hnone] at hdone
    contradiction

theorem replied_noHost (hearly : ¬ Early D message) (hhost : message.isInvalidRequest = true) :
    Replied (D := D) files lookup u ps message
      (connection.serve corsMiddleware strtod app (runHandler files lookup u) ps message) := by
  obtain ⟨connection', hserve⟩ : ∃ connection',
      connection.serve corsMiddleware strtod app (runHandler files lookup u) ps message =
        some ((Res.ofCode 400).write message.keepAlive, connection', ps) :=
    Connection.serve_invalid (not_done hearly) hhost
  have hcors : CorsIs false (Res.ofCode 400).headers := fun _ _ => rfl
  exact ⟨_, _, false, ps, hserve, .noHost hearly hhost, hcors.write _⟩

/-- What the router makes of a message gets the headers of the middleware. -/
theorem replied_of_respond (hready : connection.Ready) (hearly : ¬ Early D message)
    (hhost : message.isInvalidRequest = false) {res : Res} {ps' : ParkingSystem} (hcode : res.code ∈ statusCodes)
    (hrespond : Connection.respond app (runHandler files lookup u) ps message
      (app.handleInitial strtod message.method message.url)
      (connection.routedRes message (app.handleInitial strtod message.method message.url)) = some (res, ps'))
    (hreply : Reply (D := D) files lookup u ps message res.code true ps') : Replied (D := D) files lookup u ps message
      (connection.serve corsMiddleware strtod app (runHandler files lookup u) ps message) := by
  obtain ⟨hoptions, -⟩ := not_or.mp hearly
  have hbefore : ∀ res, corsMiddleware.beforeHandle message res = res := fun _ => if_neg hoptions
  obtain ⟨connection', hserve⟩ := Connection.serve_handled (not_done hearly) hhost hready hbefore hrespond
  have hafter : (corsMiddleware.afterHandle message res.finish).code = res.code := code_afterHandle _ _
  refine ⟨_, _, true, ps', hserve, ?_, (corsIs_afterHandle hoptions _).write _⟩
  rwa [write_code (by rwa [hafter]), hafter]

theorem replied_handled (hready : connection.Ready) (hearly : ¬ Early D message)
    (hhost : message.isInvalidRequest = false) (hfits : Fits D (served message.method) message.url) :
    Replied (D := D) files lookup u ps message
      (connection.serve corsMiddleware strtod app (runHandler files lookup u) ps message) := by
  obtain ⟨hoptions, -⟩ := not_or.mp hearly
  obtain ⟨handler, params, hmethod, htakes⟩ := hfits
  have hroute := route_of_takes strtod hoptions hmethod htakes
  rw [Router.route] at hroute
  generalize hrouted : connection.routedRes message (app.handleInitial strtod message.method message.url) = routed
  obtain ⟨hcode, heffect⟩ := runHandler_res files lookup u ps handler params message.body routed
  have hrespond : Connection.respond app (runHandler files lookup u) ps message
      (app.handleInitial strtod message.method message.url)
      (connection.routedRes message (app.handleInitial strtod message.method message.url)) =
        some (runHandler files lookup u ps handler params message.body routed) := by
    rw [Connection.respond, hroute, hrouted]
  generalize runHandler files lookup u ps handler params message.body routed = reply at hcode heffect hrespond
  refine replied_of_respond hready hearly hhost ?_ hrespond ?_
  · rw [hcode]
    exact statusCodes_handler _ (code_runHandler ps handler params message.body)
  · rw [hcode, heffect]
    exact .handled handler params hoptions hhost hmethod htakes

theorem replied_catchAll (hready : connection.Ready) (hearly : ¬ Early D message)
    (hhost : message.isInvalidRequest = false) (hnone : ¬ Fits D (served message.method) message.url) :
    Replied (D := D) files lookup u ps message
      (connection.serve corsMiddleware strtod app (runHandler files lookup u) ps message) := by
  obtain ⟨hoptions, hhead⟩ := not_or.mp hearly
  have hnotHead : message.method ≠ .head := fun h => hhead ⟨h, by rwa [h] at hnone⟩
  have hserved : served message.method = message.method := if_neg hnotHead
  rw [hserved] at hnone
  have hanswer : answer strtod (rulesOf routes message.method) message.url = none := answer_eq_none_iff.mpr hnone
  have hinitial := handleInitial_catchAll routes_wellformed validate_routes hnotHead hoptions hanswer
  have hrespond : ∀ res, Connection.respond app (runHandler files lookup u) ps message
      (app.handleInitial strtod message.method message.url) res = some (res, ps) := by
    intro res
    rw [hinitial]
    rfl
  have hrouted : (connection.routedRes message (app.handleInitial strtod message.method message.url)).code =
      if message.expectsContinue then 200
      else if httpMethods.any fun method => (answer strtod (rulesOf routes method) message.url).isSome then 405
      else 404 := by
    rw [Connection.routedRes, hinitial]
    split <;> rfl
  refine replied_of_respond hready hearly hhost ?_ (hrespond _) ?_
  · rw [hrouted]
    split_ifs <;> decide
  · rw [hrouted]
    by_cases hother : ∃ method, Fits D method message.url
    · rw [if_pos (any_answer_iff.mpr hother)]
      exact .notAllowed hoptions hnotHead hhost hnone hother
    · rw [if_neg (any_answer_iff.not.mpr hother)]
      exact .notFound hoptions hnotHead hhost hother

variable (strtod files lookup u ps message) in
/-- Every message on an open connection is answered as it should be. -/
theorem replied (hready : connection.Ready) (hopen : connection.closeConnection = false) :
    Replied (D := D) files lookup u ps message
      (connection.receive corsMiddleware strtod app (runHandler files lookup u) ps message) := by
  rw [Connection.receive, hopen, if_neg Bool.false_ne_true]
  by_cases hearly : Early D message
  · rcases hearly with hoptions | ⟨hhead, hget⟩
    · exact replied_options hoptions
    · exact replied_noHead hhead hget
  cases hhost : message.isInvalidRequest with
  | true => exact replied_noHost hearly hhost
  | false =>
    by_cases hfits : Fits D (served message.method) message.url
    · exact replied_handled hready hearly hhost hfits
    · exact replied_catchAll hready hearly hhost hfits

end Reply

/-- The body that a `POST` route gets of a message. -/
def posted (message : Message) : Option RawPost :=
  if message.isInvalidRequest then none
  else if message.method = .post ∧ message.url = ascii "/api/zones" then some (.zones message.body)
  else if message.method = .post ∧ message.url = ascii "/api/parking/requests" then some (.requests message.body)
  else none

section Effect
variable {D : Type} {files : List UInt8 → Option (List (String × String))} {lookup : Lookup} {u : ℤ}
  {ps ps' : ParkingSystem} {message : Message} {code : ℕ} {cors : Bool}

/-- Without a handler for a `POST` request no body is read. -/
theorem posted_eq_none (h : message.method = .post → ¬ Fits D .post message.url) : posted message = none := by
  have hzone : ¬ (message.method = .post ∧ message.url = ascii "/api/zones") :=
    fun ⟨hmethod, hurl⟩ => h hmethod ⟨.createZone, .empty, rfl, hurl, rfl⟩
  have hrequest : ¬ (message.method = .post ∧ message.url = ascii "/api/parking/requests") :=
    fun ⟨hmethod, hurl⟩ => h hmethod ⟨.createRequest, .empty, rfl, hurl, rfl⟩
  rw [posted, if_neg hzone, if_neg hrequest, ite_self]

theorem eq_post_of_served {method : HTTPMethod} (h : .post = served method) : method = .post := by
  unfold served at h
  split at h
  · contradiction
  · exact h.symm

/-- A handler does what the body that is posted to it does. -/
theorem runHandler_snd (ps : ParkingSystem) {handler : Handler} {params : RoutingParams D}
    (hhost : message.isInvalidRequest = false) (hmethod : handler.method = served message.method)
    (htakes : handler.Takes message.url params) (res : Res) :
    (runHandler files lookup u ps handler params message.body res).2 =
      match posted message with
      | some raw => (receive lookup u ps raw).2
      | none => ps := by
  have hvalid : ¬ message.isInvalidRequest = true := by
    rw [hhost]
    exact Bool.false_ne_true
  have hother : handler.method ≠ .post → posted message = none := by
    refine fun hne => posted_eq_none (D := D) fun hpost => ?_
    rw [hpost] at hmethod
    exact absurd hmethod hne
  cases handler with
  | createZone =>
    rw [posted, if_neg hvalid, if_pos ⟨eq_post_of_served hmethod, htakes.1⟩]
    rfl
  | createRequest =>
    have hurl : message.url ≠ ascii "/api/zones" := by
      rw [htakes.1]
      decide
    rw [posted, if_neg hvalid, if_neg fun h => hurl h.2, if_pos ⟨eq_post_of_served hmethod, htakes.1⟩]
    rfl
  | staticFile =>
    rw [hother (by decide), runHandler]
    cases files (params.stringParams.headD []) <;> rfl
  | getZones | getZoneDetail | getDashboard | getRequests | allocateRequest | analyticsUtilization
  | analyticsCancellations => rw [hother (by decide)]; rfl

/-- An answer comes with the effect of the body that is posted, if there is one. -/
theorem Reply.effect (h : Reply (D := D) files lookup u ps message code cors ps') :
    ps' = match posted message with
      | some raw => (receive lookup u ps raw).2
      | none => ps := by
  cases h with
  | options h | noOptions h | noHead h =>
    rw [posted_eq_none (D := D) fun hpost => by rw [h] at hpost; contradiction]
  | noHost hearly hhost => rw [posted, if_pos hhost]
  | handled handler params hoptions hhost hmethod htakes => exact runHandler_snd ps hhost hmethod htakes .new
  | notAllowed hoptions hhead hhost hnone => rw [posted_eq_none (D := D) fun hpost => by rwa [hpost] at hnone]
  | notFound hoptions hhead hhost hnone =>
    rw [posted_eq_none (D := D) fun _ hfits => hnone ⟨.post, hfits⟩]

theorem Reply.booked (h : Reply (D := D) files lookup u ps message code cors ps') (hbooked : Booked ps) :
    Booked ps' := by
  rw [h.effect]
  cases posted message with
  | none => exact hbooked
  | some raw => exact hbooked.receive lookup u raw

end Effect

section Run
variable {D : Type} {strtod : List UInt8 → Option (D × List UInt8)}
  {files : List UInt8 → Option (List (String × String))} {lookup : Lookup} {u : ℤ} {net : Net}

/-- Every connection is ready for a message. -/
def Net.Ready (net : Net) : Prop := ∀ i, (net.connections i).Ready

theorem ready_start : Net.start.Ready := fun _ => Connection.ready_new

variable (strtod files lookup u) in
/-- What becomes of a message that arrives: there is no answer on a closed connection, and on
any other one it is answered as it should be, and the other connections stay. -/
structure Served (net : Net) (i : ℕ) (message : Message) : Prop where
  closed : (net.connections i).closeConnection = true → net.deliver strtod files lookup u (i, message) = none
  replied : (net.connections i).closeConnection = false → ∃ written net' cors,
    net.deliver strtod files lookup u (i, message) = some (written, net') ∧
    Reply (D := D) files lookup u net.ps message written.code cors net'.ps ∧ CorsIs cors written.headers ∧
    ∀ j ≠ i, net'.connections j = net.connections j

theorem Net.Ready.served (h : net.Ready) (i : ℕ) (message : Message) : Served strtod files lookup u net i message := by
  constructor
  · intro hclosed
    rw [Net.deliver, Connection.receive, hclosed]
    rfl
  · intro hopen
    obtain ⟨written, connection, cors, ps', hreceive, hreply, hcors⟩ :=
      replied strtod files lookup u net.ps message (h i) hopen
    refine ⟨written, ⟨Function.update net.connections i connection, ps'⟩, cors, ?_, hreply, hcors, fun j hj => ?_⟩
    · rw [Net.deliver, hreceive]
      rfl
    · exact Function.update_of_ne hj _ _

/-- An answer leaves every connection ready, and is one that the message should get. -/
theorem Net.Ready.deliver (h : net.Ready) {arrival : ℕ × Message} {written : Written} {net' : Net}
    (hdeliver : net.deliver strtod files lookup u arrival = some (written, net')) :
    net'.Ready ∧ ∃ cors, Reply (D := D) files lookup u net.ps arrival.2 written.code cors net'.ps := by
  rw [Net.deliver, Option.bind_eq_bind, Option.bind_eq_some_iff] at hdeliver
  obtain ⟨⟨written', connection, ps'⟩, hreceive, heq⟩ := hdeliver
  obtain ⟨rfl, rfl⟩ := Prod.mk.inj (Option.some.inj heq)
  cases hopen : (net.connections arrival.1).closeConnection with
  | true =>
    rw [Connection.receive, hopen] at hreceive
    contradiction
  | false =>
    obtain ⟨written, connection', cors, ps'', hreplied, hreply, -⟩ :=
      replied strtod files lookup u net.ps arrival.2 (h arrival.1) hopen
    rw [hreceive, Option.some_inj, Prod.mk.injEq, Prod.mk.injEq] at hreplied
    obtain ⟨rfl, -, rfl⟩ := hreplied
    refine ⟨fun j => ?_, cors, hreply⟩
    rw [Connection.receive, hopen, if_neg Bool.false_ne_true] at hreceive
    by_cases hj : j = arrival.1
    · subst hj
      dsimp only
      rw [Function.update_self]
      exact Connection.ready_serve hreceive
    · dsimp only
      rw [Function.update_of_ne hj]
      exact h j

end Run

section Main
variable {D : Type} (strtod : List UInt8 → Option (D × List UInt8))
  (files : List UInt8 → Option (List (String × String))) (lookup : Lookup) (u : ℤ) (arrivals : List (ℕ × Message))

theorem booked_run : Booked (Net.run strtod files lookup u arrivals).ps := by
  have hstep : ∀ (net : Net) arrival written (net' : Net), net.Ready ∧ Booked net.ps →
      net.deliver strtod files lookup u arrival = some (written, net') → net'.Ready ∧ Booked net'.ps := by
    rintro net arrival written net' ⟨h, hbooked⟩ hdeliver
    obtain ⟨hready, cors, hreply⟩ := h.deliver hdeliver
    exact ⟨hready, hreply.booked hbooked⟩
  exact (inv_final hstep ⟨ready_start, booked_seeded⟩ arrivals).2

/-- After any messages there is one taken slot for each stored request, and the dashboard
counts as many occupied slots and active requests as the analytics count requests. -/
theorem statistics_requests (hslots : (allSlots (Net.run strtod files lookup u arrivals).ps.zones).length < 2 ^ 31) :
    ∃ dashboard utilization, handleGetDashboard (Net.run strtod files lookup u arrivals).ps = ⟨200, some dashboard⟩ ∧
      handleAnalyticsUtilization (Net.run strtod files lookup u arrivals).ps = ⟨200, some utilization⟩ ∧
      occupiedSlots (Net.run strtod files lookup u arrivals).ps.zones = utilization.totalRequests ∧
      dashboard.occupiedSlots = some (utilization.totalRequests : ℤ) ∧
      dashboard.activeRequests = some (utilization.totalRequests : ℤ) := by
  have hbooked := booked_run strtod files lookup u arrivals
  obtain ⟨dashboard, utilization, hdashboard, hutilization, hoccupied, hactive⟩ := hbooked.statistics hslots
  refine ⟨dashboard, utilization, hdashboard, hutilization, ?_, hoccupied, hactive⟩
  obtain rfl := Option.some.inj (Answer.mk.inj hutilization).2
  exact hbooked.taken

/-- The statistics of the server as it starts. -/
theorem statistics_requests_none :
    ∃ dashboard utilization,
      handleGetDashboard (Net.run (D := ℕ) (fun _ => none) (fun _ => none) .first 0 []).ps = ⟨200, some dashboard⟩ ∧
      handleAnalyticsUtilization (Net.run (D := ℕ) (fun _ => none) (fun _ => none) .first 0 []).ps =
        ⟨200, some utilization⟩ ∧
      occupiedSlots (Net.run (D := ℕ) (fun _ => none) (fun _ => none) .first 0 []).ps.zones =
        utilization.totalRequests ∧
      dashboard.occupiedSlots = some (utilization.totalRequests : ℤ) ∧
      dashboard.activeRequests = some (utilization.totalRequests : ℤ) := by
  have hslots : (allSlots Net.start.ps.zones).length < 2 ^ 31 := by decide
  exact statistics_requests (D := ℕ) (fun _ => none) (fun _ => none) .first 0 [] hslots

end Main

end SmartParking.Server
