import SmartParking.Crow.Router
import SmartParking.Server.RawRequests

/-! # A connection of Crow

`Connection` of `http_connection.h` for an app with one middleware, with what it needs of
`parser.h` and `http_response.h`: the codes and headers that are written for the messages of
a connection. Bodies are left out, and so is what Crow writes about them. Every read has
bytes of one message only, a url comes in one piece, and no timer or error of the socket ends
a connection.
-/
namespace SmartParking.Crow
open Server

/-- The `response` of a connection. -/
structure Res where
  code : ℕ
  headers : List (String × String)
  completed : Bool
  deriving DecidableEq, Repr

/-- The headers of a name. -/
def named (headers : List (String × String)) (name : String) : List (String × String) :=
  headers.filter fun h => sameName h.1 name

namespace Res

def ofCode (code : ℕ) : Res := ⟨code, [], false⟩

/-- What `clear` leaves. -/
def new : Res := .ofCode 200

def ofResponse (r : Response) : Res := ⟨r.code, r.headers, false⟩

def setHeader (res : Res) (name value : String) : Res :=
  { res with headers := res.headers.filter (fun h => !sameName h.1 name) ++ [(name, value)] }

/-- What `end` does before it calls the handler. -/
def finish (res : Res) : Res := { res with completed := true }

variable (res : Res) {name other : String}

/-- A header that is set is there once. -/
theorem named_setHeader (value : String) : named (res.setHeader name value).headers name = [(name, value)] := by
  have hold : (res.headers.filter fun q => !sameName q.1 name).filter (fun q => sameName q.1 name) = [] := by
    rw [List.filter_filter, List.filter_eq_nil_iff]
    intro q _
    rw [Bool.and_not_self]
    exact Bool.false_ne_true
  have hname : sameName name name = true := by rw [sameName, beq_self_eq_true]
  rw [named, setHeader, List.filter_append, hold, List.filter_singleton, hname]
  rfl

/-- Setting a header leaves those of other names alone. -/
theorem named_setHeader_of_ne (value : String) (h : sameName name other = false) :
    named (res.setHeader name value).headers other = named res.headers other := by
  have hkept : ∀ q ∈ res.headers, (sameName q.1 other && !sameName q.1 name) = sameName q.1 other := by
    intro q _
    cases hq : sameName q.1 other with
    | false => rfl
    | true =>
      rw [sameName, beq_iff_eq] at hq
      rw [sameName, beq_eq_false_iff_ne] at h
      have hname : sameName q.1 name = false := by rw [sameName, hq, beq_eq_false_iff_ne]; exact h.symm
      rw [hname]
      rfl
  rw [named, setHeader, List.filter_append, List.filter_filter, List.filter_singleton, h, List.filter_congr hkept]
  exact List.append_nil _

def setHeaders (headers : List (String × String)) : Res :=
  headers.foldl (fun res header => res.setHeader header.1 header.2) res

theorem named_setHeaders_of_ne {headers : List (String × String)}
    (h : ∀ header ∈ headers, sameName header.1 other = false) :
    named (res.setHeaders headers).headers other = named res.headers other := by
  induction headers generalizing res with
  | nil => rfl
  | cons header headers ih =>
    obtain ⟨hhead, htail⟩ := List.forall_mem_cons.mp h
    rw [setHeaders, List.foldl_cons, ← setHeaders, ih _ htail, named_setHeader_of_ne _ _ hhead]

/-- Headers of different names that are set one after the other are there once each. -/
theorem named_setHeaders {headers : List (String × String)}
    (h : headers.Pairwise fun header later => sameName later.1 header.1 = false) :
    ∀ header ∈ headers, named (res.setHeaders headers).headers header.1 = [header] := by
  induction headers generalizing res with
  | nil => exact fun _ hmem => absurd hmem List.not_mem_nil
  | cons header headers ih =>
    obtain ⟨hhead, htail⟩ := List.pairwise_cons.mp h
    rw [List.forall_mem_cons]
    refine ⟨?_, fun later hmem => ih (res.setHeader header.1 header.2) htail later hmem⟩
    rw [setHeaders, List.foldl_cons, ← setHeaders, named_setHeaders_of_ne _ hhead, named_setHeader]

end Res

/-- A message as the parser hands it over, with the flags of its `Connection` header. It asks
for no upgrade, as `CONNECT` does. -/
structure Message where
  method : HTTPMethod
  noUpgrade : method ≠ .connect
  rawUrl : List UInt8
  version : ℕ × ℕ
  headers : List (String × String)
  flagKeepAlive : Bool
  flagClose : Bool
  body : List UInt8
  deriving DecidableEq, Repr

namespace Message

/-- The url ends where the query starts, unless that is at 0. -/
def url (message : Message) : List UInt8 :=
  if message.rawUrl.head? = some 0x3F then message.rawUrl else message.rawUrl.takeWhile (· != 0x3F)

def keepAlive (message : Message) : Bool :=
  if message.version = (1, 0) then message.flagKeepAlive else decide (message.version = (1, 1))

def closeConnection (message : Message) : Bool :=
  if message.version = (1, 0) then !message.flagKeepAlive
  else if message.version = (1, 1) then message.flagClose
  else false

def expectsContinue (message : Message) : Bool :=
  decide (message.version = (1, 1)) && (named message.headers "expect").head?.map (·.2) == some "100-continue"

def isInvalidRequest (message : Message) : Bool :=
  decide (message.version = (1, 1)) && (named message.headers "host").isEmpty

end Message

/-- A middleware, with what its two functions make of the response. -/
structure Middleware where
  beforeHandle : Message → Res → Res
  afterHandle : Message → Res → Res

/-- The codes that have a line. -/
def statusCodes : List ℕ :=
  [100, 101, 200, 201, 202, 203, 204, 205, 206, 300, 301, 302, 303, 304, 307, 308, 400, 401, 403, 404, 405, 406, 407,
    409, 410, 413, 415, 416, 417, 428, 429, 451, 500, 501, 502, 503, 504, 506]

/-- What is written to the socket. -/
structure Written where
  code : ℕ
  headers : List (String × String)
  deriving DecidableEq, Repr

/-- `write_header_into_buffer`. -/
def Res.write (res : Res) (addKeepAlive : Bool) : Written :=
  let code := if res.code ∈ statusCodes then res.code else 500
  let keepAlive := if addKeepAlive then [("Connection", "Keep-Alive")] else []
  ⟨code, res.headers ++ keepAlive⟩

structure Connection where
  res : Res
  needToCallAfterHandlers : Bool
  addKeepAlive : Bool
  closeConnection : Bool
  deriving DecidableEq, Repr

namespace Connection

def new : Connection := ⟨.new, false, false, false⟩

variable {σ H D : Type} (middleware : Middleware) (strtod : List UInt8 → Option (D × List UInt8)) (router : Router H)
  (run : σ → H → RoutingParams D → List UInt8 → Res → Res × σ)

/-- What is written, and the connection after it. -/
def completeRequest (connection : Connection) (message : Message) : Written × Connection :=
  let res := if connection.needToCallAfterHandlers then middleware.afterHandle message connection.res
    else connection.res
  (res.write connection.addKeepAlive, { connection with res := .new, needToCallAfterHandlers := false })

/-- `middleware_call_helper`. -/
def callMiddleware (message : Message) (res : Res) : Res :=
  let res := middleware.beforeHandle message res
  if res.completed then middleware.afterHandle message res else res

/-- The router's `handle`, up to the call of `end`. A code is there already. -/
def respond (state : σ) (message : Message) (initial : Initial D) (res : Res) : Option (Res × σ) :=
  match router.handle message.url initial with
  | .handler handler params => some (run state handler params message.body res)
  | .code _ => some (res, state)
  | .redirect location => some (⟨301, [("Location", ofBytes location)], false⟩, state)
  | .corrupted => none

/-- `handle`. Where the router throws, nothing is written. -/
def handle (connection : Connection) (state : σ) (message : Message) (initial : Initial D) :
    Option (Written × Connection × σ) :=
  let connection := { connection with
    addKeepAlive := message.keepAlive, closeConnection := message.closeConnection, needToCallAfterHandlers := false }
  if message.isInvalidRequest then
    let (written, connection) := completeRequest middleware { connection with res := .ofCode 400 } message
    some (written, connection, state)
  else
    let res := callMiddleware middleware message connection.res
    if res.completed then
      let (written, connection) := completeRequest middleware { connection with res := res } message
      some (written, connection, state)
    else do
      let (res, state) ← respond router run state message initial res
      let (written, connection) :=
        completeRequest middleware { connection with res := res.finish, needToCallAfterHandlers := true } message
      -- the header is set after the response was written, so it is there for the next one
      let res := if connection.addKeepAlive then connection.res.setHeader "connection" "Keep-Alive" else connection.res
      some (written, { connection with res := res }, state)

/-- What `handle_initial` does to the response. -/
def applyInitial (initial : Initial D) (res : Res) : Res :=
  match initial with
  | .found _ _ _ _ => res
  | .catchAll code => { res with code := code }
  | .done code allow =>
    let headers := match allow with
      | some allow => [("Allow", allow)]
      | none => []
    Res.finish ⟨code, headers, false⟩

/-- `handle_header`. Writing that the client may go on clears the response. -/
def handleHeader (connection : Connection) (message : Message) : Connection :=
  if message.expectsContinue then { connection with res := .new } else connection

/-- What is done for a message: `handle_url`, `handle_header` and `handle`. After a response
that `handle_url` has completed, the parser is in error and the connection is closed. -/
def serve (connection : Connection) (state : σ) (message : Message) : Option (Written × Connection × σ) :=
  let initial := router.handleInitial strtod message.method message.url
  let connection := { connection with res := applyInitial initial connection.res }
  match initial with
  | .done _ _ =>
    let (written, connection) :=
      completeRequest middleware { connection with needToCallAfterHandlers := true } message
    some (written, { connection with closeConnection := true }, state)
  | initial => handle middleware router run (handleHeader connection message) state message initial

/-- What is done for a message that arrives. -/
def receive (connection : Connection) (state : σ) (message : Message) : Option (Written × Connection × σ) :=
  if connection.closeConnection then none
  else serve middleware strtod router run connection state message

/-- A connection between two messages. -/
structure Ready (connection : Connection) : Prop where
  completed : connection.res.completed = false
  needToCallAfterHandlers : connection.needToCallAfterHandlers = false

theorem ready_new : Ready .new := ⟨rfl, rfl⟩

variable {middleware strtod router run} {connection : Connection} {state : σ} {message : Message}

theorem ready_handle {initial : Initial D} {r : Written × Connection × σ}
    (h : handle middleware router run connection state message initial = some r) : r.2.1.Ready := by
  rw [handle] at h
  dsimp only at h
  split at h
  · obtain rfl := Option.some.inj h
    exact ⟨rfl, rfl⟩
  split at h
  · obtain rfl := Option.some.inj h
    exact ⟨rfl, rfl⟩
  · simp only [Option.bind_eq_bind, Option.bind_eq_some_iff, Option.some_inj] at h
    obtain ⟨⟨res, state'⟩, -, rfl⟩ := h
    refine ⟨?_, rfl⟩
    dsimp only
    split <;> rfl

/-- A connection is ready again after every message. -/
theorem ready_serve {r : Written × Connection × σ}
    (h : serve middleware strtod router run connection state message = some r) : r.2.1.Ready := by
  rw [serve] at h
  dsimp only at h
  split at h
  · obtain rfl := Option.some.inj h
    exact ⟨rfl, rfl⟩
  · exact ready_handle h

/-- A message that is answered as soon as its url is known. -/
theorem serve_done {code : ℕ} {allow : Option String}
    (h : router.handleInitial strtod message.method message.url = .done code allow) :
    serve middleware strtod router run connection state message =
      some ((middleware.afterHandle message (applyInitial (.done (D := D) code allow) connection.res)).write
        connection.addKeepAlive, { connection with
          res := .new, needToCallAfterHandlers := false, closeConnection := true }, state) := by
  rw [serve, h]
  rfl

variable (hdone : ∀ code allow, router.handleInitial strtod message.method message.url ≠ .done code allow)

include hdone in
/-- Any other message goes on to `handle`. -/
theorem serve_eq_handle : serve middleware strtod router run connection state message =
    handle middleware router run
      (handleHeader { connection with
        res := applyInitial (router.handleInitial strtod message.method message.url) connection.res } message)
      state message (router.handleInitial strtod message.method message.url) := by
  rw [serve]
  dsimp only
  split
  · next code allow heq => exact absurd heq (hdone code allow)
  · rfl

include hdone in
theorem serve_invalid (hinvalid : message.isInvalidRequest = true) :
    ∃ connection', serve middleware strtod router run connection state message =
      some ((Res.ofCode 400).write message.keepAlive, connection', state) := by
  rw [serve_eq_handle hdone, handle]
  dsimp only
  rw [if_pos hinvalid]
  exact ⟨_, rfl⟩

/-- The response that the router gets. -/
def routedRes (connection : Connection) (message : Message) (initial : Initial D) : Res :=
  if message.expectsContinue then .new else applyInitial initial connection.res

include hdone in
/-- A message that the middleware does nothing about is handled. -/
theorem serve_handled (hvalid : message.isInvalidRequest = false) (hready : connection.Ready)
    (hbefore : ∀ res, middleware.beforeHandle message res = res) {res : Res} {state' : σ}
    (hrespond : respond router run state message (router.handleInitial strtod message.method message.url)
      (routedRes connection message (router.handleInitial strtod message.method message.url)) = some (res, state')) :
    ∃ connection', serve middleware strtod router run connection state message =
      some ((middleware.afterHandle message res.finish).write message.keepAlive, connection', state') := by
  rw [serve_eq_handle hdone, handle]
  dsimp only
  have hres : (handleHeader { connection with
      res := applyInitial (router.handleInitial strtod message.method message.url) connection.res } message).res =
      routedRes connection message (router.handleInitial strtod message.method message.url) := by
    rw [handleHeader, routedRes]
    split <;> rfl
  have hcompleted : (routedRes connection message
      (router.handleInitial strtod message.method message.url)).completed = false := by
    rw [routedRes]
    split
    · rfl
    · cases hinitial : router.handleInitial strtod message.method message.url with
      | found | catchAll => exact hready.completed
      | done code allow => exact absurd hinitial (hdone code allow)
  rw [if_neg (by rw [hvalid]; exact Bool.false_ne_true), hres, callMiddleware, hbefore]
  rw [hcompleted, if_neg Bool.false_ne_true, if_neg (by rw [hcompleted]; exact Bool.false_ne_true), hrespond]
  exact ⟨_, rfl⟩

end Connection

end SmartParking.Crow
