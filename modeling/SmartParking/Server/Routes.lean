import SmartParking.Crow.Routing
import SmartParking.Crow.UrlParameters
import SmartParking.Server.Booking

/-! # The routes of the server

The routes that `main` registers, and the one that `run` adds for the files below `static/`.
A url is for one handler of a method at most, and the router finds it.
-/
namespace SmartParking.Server
open Crow Foundation Foundation.JsonText
open Foundation.JsonNumber hiding IsNumber

inductive Handler
  | getZones | createZone | getZoneDetail | getDashboard | getRequests | createRequest | allocateRequest
  | analyticsUtilization | analyticsCancellations | staticFile
  deriving DecidableEq, Repr

def routes : List (Rule Handler) :=
  [⟨.get, ascii "/api/zones", .getZones⟩, ⟨.post, ascii "/api/zones", .createZone⟩,
    ⟨.get, ascii "/api/zones/<int>", .getZoneDetail⟩, ⟨.get, ascii "/api/dashboard", .getDashboard⟩,
    ⟨.get, ascii "/api/parking/requests", .getRequests⟩, ⟨.post, ascii "/api/parking/requests", .createRequest⟩,
    ⟨.put, ascii "/api/parking/requests/<int>/allocate", .allocateRequest⟩,
    ⟨.get, ascii "/api/analytics/zones/utilization", .analyticsUtilization⟩,
    ⟨.get, ascii "/api/analytics/cancellations", .analyticsCancellations⟩,
    ⟨.get, ascii "/static/<path>", .staticFile⟩]

theorem routes_wellformed : ∀ rule ∈ routes, rule.Wellformed := by
  simp only [routes, List.forall_mem_cons]
  refine ⟨?_, ?_, ?_, ?_, ?_, ?_, ?_, ?_, ?_, ?_, fun rule hrule => absurd hrule List.not_mem_nil⟩ <;>
    exact ⟨by decide, by decide, by decide⟩

theorem routes_apart (method : HTTPMethod) : Apart routes method := by
  rw [Apart]
  cases method <;> decide +kernel

/-- The router of the app, which can be built. -/
def app : Router Handler := (Router.validate routes).get (validate_isSome routes_wellformed routes_apart)

theorem validate_routes : Router.validate routes = some app := (Option.some_get _).symm

/-- Every handler has a route. -/
theorem exists_route (handler : Handler) : ∃ rule ∈ routes, rule.handler = handler := by
  cases handler <;> simp [routes]

def Handler.method : Handler → HTTPMethod
  | createZone => .post
  | createRequest => .post
  | allocateRequest => .put
  | _ => .get

variable {D : Type}

/-- The urls that a handler is for, with the parameters it gets. -/
def Handler.Takes (url : List UInt8) (params : RoutingParams D) : Handler → Prop
  | getZones => url = ascii "/api/zones" ∧ params = .empty
  | createZone => url = ascii "/api/zones" ∧ params = .empty
  | getZoneDetail => ∃ text n, url = ascii "/api/zones/" ++ text ∧ IsIntText text n ∧
      params = { RoutingParams.empty with intParams := [n] }
  | getDashboard => url = ascii "/api/dashboard" ∧ params = .empty
  | getRequests => url = ascii "/api/parking/requests" ∧ params = .empty
  | createRequest => url = ascii "/api/parking/requests" ∧ params = .empty
  | allocateRequest => ∃ text n, url = ascii "/api/parking/requests/" ++ text ++ ascii "/allocate" ∧ IsIntText text n ∧
      params = { RoutingParams.empty with intParams := [n] }
  | analyticsUtilization => url = ascii "/api/analytics/zones/utilization" ∧ params = .empty
  | analyticsCancellations => url = ascii "/api/analytics/cancellations" ∧ params = .empty
  | staticFile => ∃ path, url = ascii "/static/" ++ path ∧ path ≠ [] ∧
      params = { RoutingParams.empty with stringParams := [path] }

section Match
variable {strtod : List UInt8 → Option (D × List UInt8)} {url : List UInt8} {params : RoutingParams D}

/-- A rule matches the urls of its handler. -/
theorem matchUrl_routes : ∀ rule ∈ routes,
    (matchUrl strtod rule.rule url = some params ↔ rule.handler.Takes url params) := by
  have hzone : pieces 0 (ascii "/api/zones/<int>") =
      some ((ascii "/api/zones/").map .byte ++ .param .int :: ([] : List UInt8).map .byte) := by decide
  have hallocate : pieces 0 (ascii "/api/parking/requests/<int>/allocate") =
      some ((ascii "/api/parking/requests/").map .byte ++ .param .int :: (ascii "/allocate").map .byte) := by decide
  have hslash : Avoids digitChars (ascii "/allocate") := avoids_cons.mpr (by decide)
  simp only [routes, List.forall_mem_cons]
  refine ⟨matchUrl_literal (by decide), matchUrl_literal (by decide), ?_, matchUrl_literal (by decide),
    matchUrl_literal (by decide), matchUrl_literal (by decide), matchUrl_int hallocate hslash,
    matchUrl_literal (by decide), matchUrl_literal (by decide), matchUrl_path (by decide),
    fun rule hrule => absurd hrule List.not_mem_nil⟩
  have hmatch : matchUrl strtod (ascii "/api/zones/<int>") url = some params ↔ _ :=
    matchUrl_int hzone (by simp [Avoids])
  simp only [List.append_nil] at hmatch
  exact hmatch

/-- Without the characters that an integer can have, and without what stands for a path. -/
def skeleton (url : List UInt8) : List UInt8 :=
  if (ascii "/static/").isPrefixOf url then ascii "/static/"
  else url.filter fun c => !(isDigit c || c == 0x2B || c == 0x2D)

def Handler.skeleton : Handler → List UInt8
  | getZones => ascii "/api/zones"
  | createZone => ascii "/api/zones"
  | getZoneDetail => ascii "/api/zones/"
  | getDashboard => ascii "/api/dashboard"
  | getRequests => ascii "/api/parking/requests"
  | createRequest => ascii "/api/parking/requests"
  | allocateRequest => ascii "/api/parking/requests//allocate"
  | analyticsUtilization => ascii "/api/analytics/zones/utilization"
  | analyticsCancellations => ascii "/api/analytics/cancellations"
  | staticFile => ascii "/static/"

theorem filter_isIntText {text : List UInt8} {n : ℤ} (h : IsIntText text n) :
    text.filter (fun c => !(isDigit c || c == 0x2B || c == 0x2D)) = [] := by
  have hdigits : ∀ ds, AllDigits ds → ∀ c ∈ ds, isDigit c = true :=
    fun ds hds c hc => (isDigit_iff c).mpr (hds c hc)
  refine List.filter_eq_nil_iff.mpr fun c hc => ?_
  cases h.1 with
  | unsigned hne hds => simp [hdigits _ hds c hc]
  | plus hne hds =>
    rcases List.mem_cons.mp hc with rfl | hc
    · decide
    · simp [hdigits _ hds c hc]
  | minus hne hds =>
    rcases List.mem_cons.mp hc with rfl | hc
    · decide
    · simp [hdigits _ hds c hc]

theorem Handler.Takes.skeleton {handler : Handler} (h : handler.Takes url params) :
    Server.skeleton url = handler.skeleton := by
  cases handler with
  | getZoneDetail =>
    obtain ⟨text, n, rfl, htext, -⟩ := h
    have hprefix : (ascii "/static/").isPrefixOf (ascii "/api/zones/" ++ text) = false := rfl
    rw [Server.skeleton, hprefix, if_neg Bool.false_ne_true, List.filter_append, filter_isIntText htext]
    decide
  | allocateRequest =>
    obtain ⟨text, n, rfl, htext, -⟩ := h
    have hprefix : (ascii "/static/").isPrefixOf (ascii "/api/parking/requests/" ++ text ++ ascii "/allocate") =
        false := rfl
    rw [Server.skeleton, hprefix, if_neg Bool.false_ne_true, List.filter_append, List.filter_append,
      filter_isIntText htext]
    decide
  | staticFile =>
    obtain ⟨path, rfl, -, -⟩ := h
    exact if_pos (List.isPrefixOf_iff_prefix.mpr (List.prefix_append _ _))
  | getZones | createZone | getDashboard | getRequests | createRequest | analyticsUtilization
  | analyticsCancellations =>
    obtain ⟨rfl, -⟩ := h
    decide

theorem Handler.Takes.unique {handler : Handler} {params' : RoutingParams D} (h : handler.Takes url params)
    (h' : handler.Takes url params') : params = params' := by
  cases handler with
  | getZoneDetail =>
    obtain ⟨text, n, rfl, htext, rfl⟩ := h
    obtain ⟨text', n', heq, htext', rfl⟩ := h'
    obtain rfl := List.append_cancel_left heq
    rw [htext.1.unique htext'.1]
  | allocateRequest =>
    obtain ⟨text, n, rfl, htext, rfl⟩ := h
    obtain ⟨text', n', heq, htext', rfl⟩ := h'
    obtain rfl := List.append_cancel_left (List.append_cancel_right heq)
    rw [htext.1.unique htext'.1]
  | staticFile =>
    obtain ⟨path, rfl, -, rfl⟩ := h
    obtain ⟨path', heq, -, rfl⟩ := h'
    rw [List.append_cancel_left heq]
  | getZones | createZone | getDashboard | getRequests | createRequest | analyticsUtilization
  | analyticsCancellations =>
    rw [h.2, h'.2]

/-- A url is for one handler of a method at most. -/
theorem Handler.eq_of_takes {handler handler' : Handler} {params' : RoutingParams D}
    (hmethod : handler.method = handler'.method) (h : handler.Takes url params) (h' : handler'.Takes url params') :
    handler = handler' := by
  have hskeleton := congrArg List.length (h.skeleton.symm.trans h'.skeleton)
  have hkeys : (routes.map fun rule => (rule.handler.method, rule.handler.skeleton.length)).Nodup := by decide
  obtain ⟨rule, hrule, rfl⟩ := exists_route handler
  obtain ⟨rule', hrule', rfl⟩ := exists_route handler'
  rw [List.inj_on_of_nodup_map hkeys hrule hrule' (Prod.ext hmethod hskeleton)]

theorem mem_rulesOf {method : HTTPMethod} {rule : Rule Handler} :
    rule ∈ rulesOf routes method ↔ rule ∈ routes ∧ rule.handler.method = method := by
  have hmethod : ∀ rule ∈ routes, rule.method = rule.handler.method := by
    simp only [routes, List.forall_mem_cons]
    refine ⟨rfl, rfl, rfl, rfl, rfl, rfl, rfl, rfl, rfl, rfl, fun rule hrule => absurd hrule List.not_mem_nil⟩
  rw [rulesOf, List.mem_filter, decide_eq_true_eq]
  exact and_congr_right fun hrule => by rw [hmethod rule hrule]

/-- The rule that is found is the one whose handler takes the url. -/
theorem firstMatch_routes {method : HTTPMethod} {handler : Handler} :
    firstMatch strtod (rulesOf routes method) url = some (handler, params) ↔
      handler.method = method ∧ handler.Takes url params := by
  have hsound : ∀ r, firstMatch strtod (rulesOf routes method) url = some r →
      r.1.method = method ∧ r.1.Takes url r.2 := by
    intro r hmatch
    obtain ⟨rule, hrule, hsome⟩ := List.exists_of_findSome?_eq_some hmatch
    obtain ⟨hmem, hmethod⟩ := mem_rulesOf.mp hrule
    obtain ⟨params, hparams, rfl⟩ := Option.map_eq_some_iff.mp hsome
    exact ⟨hmethod, (matchUrl_routes rule hmem).mp hparams⟩
  refine ⟨hsound (handler, params), ?_⟩
  rintro ⟨hmethod, htakes⟩
  obtain ⟨rule, hrule, rfl⟩ := exists_route handler
  have hown : matchUrl strtod rule.rule url = some params := (matchUrl_routes rule hrule).mpr htakes
  cases hmatch : firstMatch strtod (rulesOf routes method) url with
  | none =>
    have hnone := List.findSome?_eq_none_iff.mp hmatch rule (mem_rulesOf.mpr ⟨hrule, hmethod⟩)
    rw [hown] at hnone
    contradiction
  | some r =>
    obtain ⟨hmethod', htakes'⟩ := hsound r hmatch
    have hhandler := Handler.eq_of_takes (hmethod'.trans hmethod.symm) htakes' htakes
    rw [← hhandler] at htakes
    rw [Option.some_inj, ← hhandler, htakes.unique htakes']

/-- No route ends in a slash. -/
theorem answer_routes (method : HTTPMethod) (url : List UInt8) : answer strtod (rulesOf routes method) url =
    (firstMatch strtod (rulesOf routes method) url).map fun r => .handler r.1 r.2 := by
  have hslash : ∀ rule ∈ routes, rule.redirected = [] := by
    simp only [routes, List.forall_mem_cons]
    refine ⟨rfl, rfl, rfl, rfl, rfl, rfl, rfl, rfl, rfl, rfl, fun rule hrule => absurd hrule List.not_mem_nil⟩
  refine if_neg ?_
  rw [isRedirected, List.any_eq_true]
  rintro ⟨rule, hrule, hany⟩
  rw [hslash rule (mem_rulesOf.mp hrule).1] at hany
  exact Bool.false_ne_true hany

/-- Some handler of the method is for the url. -/
def Fits (D : Type) (method : HTTPMethod) (url : List UInt8) : Prop :=
  ∃ (handler : Handler) (params : RoutingParams D), handler.method = method ∧ handler.Takes url params

theorem answer_eq_none_iff {method : HTTPMethod} :
    answer strtod (rulesOf routes method) url = none ↔ ¬ Fits D method url := by
  rw [answer_routes, Option.map_eq_none_iff, Option.eq_none_iff_forall_ne_some]
  constructor
  · rintro hnone ⟨handler, params, hmethod, htakes⟩
    exact hnone _ (firstMatch_routes.mpr ⟨hmethod, htakes⟩)
  · rintro hnone ⟨handler, params⟩ hmatch
    obtain ⟨hmethod, htakes⟩ := firstMatch_routes.mp hmatch
    exact hnone ⟨handler, params, hmethod, htakes⟩

theorem any_answer_iff :
    (httpMethods.any fun method => (answer strtod (rulesOf routes method) url).isSome) = true ↔
      ∃ method, Fits D method url := by
  simp only [List.any_eq_true, Option.isSome_iff_ne_none, ne_eq, answer_eq_none_iff, not_not]
  exact ⟨fun ⟨method, _, hfits⟩ => ⟨method, hfits⟩, fun ⟨method, hfits⟩ => ⟨method, mem_httpMethods method, hfits⟩⟩

/-- No route is registered for `HEAD`. -/
theorem not_fits_head (url : List UInt8) : ¬ Fits D .head url := by
  rintro ⟨handler, params, hmethod, -⟩
  cases handler <;> contradiction

/-- A `HEAD` request is served as a `GET` request. -/
def served (method : HTTPMethod) : HTTPMethod := if method = .head then .get else method

variable (strtod) in
/-- A handler that is for a request gets it. -/
theorem route_of_takes {method : HTTPMethod} {handler : Handler} (hoptions : method ≠ .options)
    (hmethod : handler.method = served method) (htakes : handler.Takes url params) :
    app.route strtod method url = .handler handler params := by
  have hanswer : answer strtod (rulesOf routes (served method)) url = some (.handler handler params) := by
    rw [answer_routes, firstMatch_routes.mpr ⟨hmethod, htakes⟩]
    rfl
  rw [route_eq routes_wellformed validate_routes]
  by_cases hhead : method = .head
  · subst hhead
    have hget : answer strtod (rulesOf routes .get) url = some (.handler handler params) := hanswer
    rw [routeByRules, answer_eq_none_iff.mpr (not_fits_head url), hget]
    rfl
  · have hserved : served method = method := if_neg hhead
    rw [hserved] at hanswer
    rw [routeByRules_eq hhead hoptions, hanswer]
    rfl

end Match

end SmartParking.Server
