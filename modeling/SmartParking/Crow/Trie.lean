import SmartParking.Crow.Json
import SmartParking.Foundation.FirstOrNew
import SmartParking.Foundation.JsonInteger
import SmartParking.Foundation.LeastCandidate
import SmartParking.Server.JsonEscape

/-! # Crow's trie

The `Trie` of Crow's `routing.h`, without blueprints. It is built with one character or one
parameter to a node, then every only child that can be is merged into its parent, and so it
is searched. What `strtod` makes of a text is a parameter.
-/
namespace SmartParking.Crow
open Foundation.FirstOrNew Foundation.JsonNumber Foundation.LeastCandidate Server

inductive ParamType
  | int | uint | double | string | path
  deriving DecidableEq, Repr

structure Node where
  ruleIndex : ℕ
  key : List UInt8
  param : Option ParamType
  children : List Node

def Node.new : Node := ⟨0, [], none, []⟩

/-- What `add` reads of a url at a time. -/
inductive Piece
  | byte (c : UInt8)
  | param (type : ParamType)
  deriving DecidableEq, Repr

def paramTraits : List (ParamType × String) :=
  [(.int, "<int>"), (.uint, "<uint>"), (.double, "<float>"), (.double, "<double>"), (.string, "<str>"),
    (.string, "<string>"), (.path, "<path>")]

/-- The pieces of a url. The loop of `add` does not get past a tag that is no parameter. The
first `skip` characters are what is left of a tag. -/
def pieces : ℕ → List UInt8 → Option (List Piece)
  | _, [] => some []
  | skip + 1, _ :: url => pieces skip url
  | 0, c :: url =>
    if c = 0x3C then do
      let x ← paramTraits.find? fun x => (ascii x.2).isPrefixOf (c :: url)
      let rest ← pieces (x.2.length - 1) url
      some (.param x.1 :: rest)
    else do
      let rest ← pieces 0 url
      some (.byte c :: rest)

/-- The child that `add` goes on with. -/
def Piece.isAt : Piece → Node → Bool
  | byte c, child => child.key.headD 0 == c
  | param type, child => child.param == some type

def Piece.newNode : Piece → Node
  | byte c => { Node.new with key := [c] }
  | param type => { Node.new with param := some type }

/-- What `add` does from a node on. It throws where there is a handler already. -/
def Node.insert (ruleIndex : ℕ) : List Piece → Node → Option Node
  | [], node => if node.ruleIndex ≠ 0 then none else some { node with ruleIndex := ruleIndex }
  | piece :: rest, node => do
    let children ← updateFirst piece.isAt (Node.insert ruleIndex rest) piece.newNode node.children
    some { node with children := children }

def Node.add (head : Node) (url : List UInt8) (ruleIndex : ℕ) : Option Node := do
  let pieces ← pieces 0 url
  head.insert ruleIndex pieces

def Node.isSimpleNode (node : Node) : Bool :=
  node.ruleIndex == 0 && decide (node.children.length < 2) && node.param == none &&
    node.children.all fun child => child.param == none

mutual

/-- `optimizeNode`, where `key` is the key of the node after those of the nodes that were
merged with it. -/
def optimizeNode (key : List UInt8) : Node → Node
  | ⟨ruleIndex, _, param, children⟩ =>
    match children with
    | [] => ⟨ruleIndex, key, param, []⟩
    | child :: rest =>
      if Node.isSimpleNode ⟨ruleIndex, key, param, child :: rest⟩ then optimizeNode (key ++ child.key) child
      else ⟨ruleIndex, key, param, optimizeNode child.key child :: optimizeNodes rest⟩

def optimizeNodes : List Node → List Node
  | [] => []
  | child :: children => optimizeNode child.key child :: optimizeNodes children

end

/-- `validate`, which throws where the head is not simple. -/
def Node.validate (head : Node) : Option Node :=
  if head.isSimpleNode then some { head with children := optimizeNodes head.children } else none

section Find
variable {D : Type} (strtod : List UInt8 → Option (D × List UInt8))

/-- `routing_params`. -/
structure RoutingParams (D : Type) where
  intParams : List ℤ
  uintParams : List ℕ
  doubleParams : List D
  stringParams : List (List UInt8)
  deriving DecidableEq, Repr

def RoutingParams.empty : RoutingParams D := ⟨[], [], [], []⟩

/-- The digits that `strtoll` reads after the sign, and what comes after them. -/
def scanDigits (data : List UInt8) : Option (ℕ × List UInt8) :=
  if data.takeWhile isDigit = [] then none else some (digitsValue (data.takeWhile isDigit), data.dropWhile isDigit)

/-- What `strtoll` reads from a sign or a digit on. -/
def scanSigned (data : List UInt8) : Option (ℤ × List UInt8) :=
  if data.headD 0 = 0x2D then (scanDigits data.tail).map fun r => (-r.1, r.2)
  else if data.headD 0 = 0x2B then (scanDigits data.tail).map fun r => ((r.1 : ℤ), r.2)
  else (scanDigits data).map fun r => ((r.1 : ℤ), r.2)

/-- What a parameter takes of a url: what `params` become, and the rest of the url. -/
def ParamType.take (type : ParamType) (url : List UInt8) (params : RoutingParams D) :
    Option (RoutingParams D × List UInt8) :=
  let c := url.headD 0
  match type with
  | int => do
    if isDigit c || c == 0x2B || c == 0x2D then
      let (value, rest) ← scanSigned url
      if -2 ^ 63 ≤ value ∧ value < 2 ^ 63 then
        some ({ params with intParams := params.intParams ++ [value] }, rest)
      else none
    else none
  | uint => do
    if isDigit c || c == 0x2B then
      let (value, rest) ← scanSigned url
      if value < 2 ^ 64 then some ({ params with uintParams := params.uintParams ++ [value.toNat] }, rest)
      else none
    else none
  | double => do
    if isDigit c || c == 0x2B || c == 0x2D || c == 0x2E then
      let (value, rest) ← strtod url
      some ({ params with doubleParams := params.doubleParams ++ [value] }, rest)
    else none
  | string =>
    if url.takeWhile (· != 0x2F) ≠ [] then
      some ({ params with stringParams := params.stringParams ++ [url.takeWhile (· != 0x2F)] },
        url.dropWhile (· != 0x2F))
    else none
  | path => if url ≠ [] then some ({ params with stringParams := params.stringParams ++ [url] }, []) else none

/-- What a child takes of a url. -/
def Node.take (child : Node) (url : List UInt8) (params : RoutingParams D) :
    Option (RoutingParams D × List UInt8) :=
  match child.param with
  | some type => type.take strtod url params
  | none => if child.key.isPrefixOf url then some (params, url.drop child.key.length) else none

mutual

/-- `find`, for the rest of the url and the parameters found so far. -/
def Node.find : Node → List UInt8 → RoutingParams D → ℕ × RoutingParams D
  | ⟨ruleIndex, _, _, children⟩, url, params =>
    if url = [] then (ruleIndex, params) else findChildren children url params (0, .empty)

/-- The loop over the children. -/
def findChildren : List Node → List UInt8 → RoutingParams D → ℕ × RoutingParams D → ℕ × RoutingParams D
  | [], _, _, found => found
  | child :: children, url, params, found =>
    match child.take strtod url params with
    | some (params', rest) => findChildren children url params (lesser found (child.find rest params'))
    | none => findChildren children url params found

end

end Find

end SmartParking.Crow
