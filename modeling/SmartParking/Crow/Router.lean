import SmartParking.Crow.TrieRules

/-! # Crow's router

The `Router` of Crow's `routing.h`, for rules with one method each and without blueprints,
catch-all rules and upgrades. Building it throws where a trie cannot be built.
-/
namespace SmartParking.Crow
open Foundation.LeastCandidate Server

inductive HTTPMethod
  | delete | get | head | post | put | connect | options | trace | patch | purge | copy | lock | mkCol | move
  | propfind | proppatch | search | unlock | bind | rebind | unbind | acl | report | mkActivity | checkout | merge
  | mSearch | notify | subscribe | unsubscribe | mkCalendar | link | unlink | source
  deriving DecidableEq, Repr

/-- The methods and their names, in the order of the enumeration. -/
def methodStrings : List (HTTPMethod × String) :=
  [(.delete, "DELETE"), (.get, "GET"), (.head, "HEAD"), (.post, "POST"), (.put, "PUT"), (.connect, "CONNECT"),
    (.options, "OPTIONS"), (.trace, "TRACE"), (.patch, "PATCH"), (.purge, "PURGE"), (.copy, "COPY"), (.lock, "LOCK"),
    (.mkCol, "MKCOL"), (.move, "MOVE"), (.propfind, "PROPFIND"), (.proppatch, "PROPPATCH"), (.search, "SEARCH"),
    (.unlock, "UNLOCK"), (.bind, "BIND"), (.rebind, "REBIND"), (.unbind, "UNBIND"), (.acl, "ACL"),
    (.report, "REPORT"), (.mkActivity, "MKACTIVITY"), (.checkout, "CHECKOUT"), (.merge, "MERGE"),
    (.mSearch, "M-SEARCH"), (.notify, "NOTIFY"), (.subscribe, "SUBSCRIBE"), (.unsubscribe, "UNSUBSCRIBE"),
    (.mkCalendar, "MKCALENDAR"), (.link, "LINK"), (.unlink, "UNLINK"), (.source, "SOURCE")]

def httpMethods : List HTTPMethod := methodStrings.map (·.1)

theorem mem_httpMethods (method : HTTPMethod) : method ∈ httpMethods := by cases method <;> decide

structure Rule (H : Type) where
  method : HTTPMethod
  rule : List UInt8
  handler : H

/-- The handlers by their index, where nothing is at 0 and 1, and the trie. -/
structure PerMethod (H : Type) where
  rules : List (Option H)
  trie : Node

variable {H : Type}

def PerMethod.new : PerMethod H := ⟨[none, none], .new⟩

def ruleSpecialRedirectSlash : ℕ := 1

def hasTrailingSlash (rule : List UInt8) : Bool := decide (1 < rule.length) && rule.getLast? == some 0x2F

/-- `internal_add_rule_object`, for the method of the rule. -/
def PerMethod.addRule (perMethod : PerMethod H) (rule : List UInt8) (handler : H) : Option (PerMethod H) := do
  let rules := perMethod.rules ++ [some handler]
  let trie ← perMethod.trie.add rule (rules.length - 1)
  if hasTrailingSlash rule then
    let trie ← trie.add rule.dropLast ruleSpecialRedirectSlash
    some ⟨rules, trie⟩
  else some ⟨rules, trie⟩

/-- `per_methods_`. -/
structure Router (H : Type) where
  perMethods : HTTPMethod → PerMethod H

def Router.new : Router H := ⟨fun _ => .new⟩

def Router.addRule (router : Router H) (rule : Rule H) : Option (Router H) := do
  let perMethod ← (router.perMethods rule.method).addRule rule.rule rule.handler
  some ⟨fun method => if method = rule.method then perMethod else router.perMethods method⟩

/-- The last loop of `validate`. -/
def Router.validateTries (router : Router H) : Option (Router H) :=
  if httpMethods.all fun method => (router.perMethods method).trie.isSimpleNode then
    some ⟨fun method =>
      let perMethod := router.perMethods method
      { perMethod with trie := { perMethod.trie with children := optimizeNodes perMethod.trie.children } }⟩
  else none

def Router.validate (allRules : List (Rule H)) : Option (Router H) := do
  let router ← allRules.foldlM Router.addRule .new
  router.validateTries

section Handle
variable {D : Type} (strtod : List UInt8 → Option (D × List UInt8)) (router : Router H)

def Router.find (method : HTTPMethod) (url : List UInt8) : ℕ × RoutingParams D :=
  (router.perMethods method).trie.find strtod url .empty

/-- What `handle_initial` leaves: a rule to be handled, an error that a catch-all rule could
handle, or an answer that is complete. -/
inductive Initial (D : Type)
  | found (method : HTTPMethod) (ruleIndex : ℕ) (params : RoutingParams D) (skipBody : Bool)
  | catchAll (code : ℕ)
  | done (code : ℕ) (allow : Option String)
  deriving Repr

def allowed (test : HTTPMethod → Bool) : String :=
  methodStrings.foldl (fun allow x => if test x.1 && x.1 != .head then allow ++ ", " ++ x.2 else allow) "OPTIONS, HEAD"

def Router.handleInitial (method : HTTPMethod) (url : List UInt8) : Initial D :=
  match method with
  | .head =>
    let found := router.find strtod .head url
    if found.1 ≠ 0 then .found .head found.1 found.2 true
    else
      let found := router.find strtod .get url
      if found.1 ≠ 0 then .found .get found.1 found.2 true
      else .done 404 none
  | .options =>
    if url = ascii "/*" then
      .done 204 (some (allowed fun m => !(router.perMethods m).trie.children.isEmpty))
    else if httpMethods.any fun m => (router.find strtod m url).1 != 0 then
      .done 204 (some (allowed fun m => (router.find strtod m url).1 != 0))
    else .done 404 none
  | method =>
    let found := router.find strtod method url
    if found.1 ≠ 0 then .found method found.1 found.2 false
    else if httpMethods.any fun m => (router.find strtod m url).1 != 0 then .catchAll 405
    else .catchAll 404

/-- How a request ends: in a handler, or with an answer of the router. The exception of a
corrupted trie is an outcome of its own. -/
inductive Outcome (H D : Type)
  | handler (handler : H) (params : RoutingParams D)
  | code (code : ℕ)
  | redirect (location : List UInt8)
  | corrupted
  deriving Repr

def Router.handle (url : List UInt8) : Initial D → Outcome H D
  | .found method ruleIndex params _ =>
    match (router.perMethods method).rules[ruleIndex]? with
    | none => .corrupted
    | some rule =>
      if ruleIndex = ruleSpecialRedirectSlash then .redirect (url ++ [0x2F])
      else
        match rule with
        | some handler => .handler handler params
        | none => .corrupted
  | .catchAll code => .code code
  | .done code _ => .code code

def Router.route (method : HTTPMethod) (url : List UInt8) : Outcome H D :=
  router.handle url (router.handleInitial strtod method url)

end Handle

end SmartParking.Crow
