import Mathlib.Data.List.Basic

/-!
# Request classification

`request_spec.cpp` and the cost table of `limits.cpp`: a path is stripped of its query, completed
to a full wire path, split into segments and classified into a rate-limit bucket and a mutation
kind, and its token cost is looked up.
-/

namespace HftBot

inductive Method
  | get | post | put | delete
deriving DecidableEq, Repr

inductive BucketKind
  | read | write
deriving DecidableEq, Repr

/-- What an order-ish request mutates. -/
inductive MutationKind
  | none | createOrder | cancelOrder | amendOrder | orderGroup | quote
deriving DecidableEq, Repr

/-! ### Paths -/

/-- The wire prefix every path of the API carries. -/
def kWirePrefix : List Char := "/trade-api/v2".toList

/-- The nonempty parts between slashes; `segs` here and `split_segments` in `limits.cpp`. -/
def segs (path : List Char) : List (List Char) :=
  (path.splitOn '/').filter fun s => !s.isEmpty

def hasSeg (s : List (List Char)) (want : String) : Bool := s.contains want.toList

/-- The path up to its query string. -/
def stripQuery (path : List Char) : List Char := path.takeWhile (· ≠ '?')

def normalizeEndpointPath (rawPath : List Char) : List Char :=
  let p := stripQuery rawPath
  if kWirePrefix.isPrefixOf p then p
  else kWirePrefix ++ (if p.head? = some '/' then [] else ['/']) ++ p

def stripWirePrefix (wirePath : List Char) : List Char :=
  if kWirePrefix.isPrefixOf wirePath then wirePath.drop kWirePrefix.length else wirePath

/-! ### Classification -/

def classify (method : Method) (normalizedPath : List Char) : BucketKind × MutationKind :=
  let s := segs normalizedPath
  if hasSeg s "order_groups" then (.write, .orderGroup)
  else if hasSeg s "rfqs" || hasSeg s "quotes" then (.write, .quote)
  else if hasSeg s "orders" then
    if hasSeg s "batched" then (.write, .orderGroup)
    else if hasSeg s "amend" || hasSeg s "decrease" then (.write, .amendOrder)
    else
      match method with
      | .delete => (.write, .cancelOrder)
      | .post   => (.write, .createOrder)
      | .put    => (.write, .createOrder)
      | .get    => (.read, .none)
  else if hasSeg s "block_trades" ∧ method ≠ .get then (.write, .none)
  else (.read, .none)

/-! ### Endpoint costs -/

/-- A cost for a full wire path, which may be a template. -/
structure EndpointCost where
  method : Method
  path   : List Char
  cost   : Int
deriving DecidableEq, Repr

structure EndpointCostTable where
  defaultCost : Int := 10
  overrides   : List EndpointCost := []
  fromServer  : Bool := false
deriving DecidableEq, Repr

/-- `:order_id` and `{ticker}` both stand for exactly one segment. -/
def segIsParam (s : List Char) : Bool :=
  s.head? = some ':' ||
    (decide (2 ≤ s.length) && s.head? = some (Char.ofNat 123) && s.getLast? = some (Char.ofNat 125))

/-- A segment that starts with `*` matches all remaining ones, at least one. -/
def matchSegments : List (List Char) → List (List Char) → Bool
  | [], ps           => ps.isEmpty
  | _ :: _, []       => false
  | t :: ts, p :: ps =>
    if t.head? = some '*' then true
    else if segIsParam t || t = p then matchSegments ts ps
    else false

def templateMatch (tmpl path : List Char) : Bool := matchSegments (segs tmpl) (segs path)

namespace EndpointCostTable

/-- An exact entry wins over a template, a template over the default. -/
def costFor (costs : EndpointCostTable) (method : Method) (wirePath : List Char) : Int :=
  match costs.overrides.find? fun e => e.method = method && e.path = wirePath with
  | some e => e.cost
  | none   =>
    match costs.overrides.find? fun e => e.method = method && templateMatch e.path wirePath with
    | some e => e.cost
    | none   => costs.defaultCost

end EndpointCostTable

/-! ### Request specification -/

structure RequestSpec where
  method              : Method
  rawPath             : List Char
  normalizedPath      : List Char
  bucket              : BucketKind
  costTokens          : Int
  mutation            : MutationKind
  idempotencyRequired : Bool
deriving DecidableEq, Repr

def makeRequestSpec (method : Method) (rawPath : List Char) (costs : EndpointCostTable) :
    RequestSpec :=
  let normalizedPath := normalizeEndpointPath rawPath
  let (bucket, mutation) := classify method normalizedPath
  { method, rawPath, normalizedPath, bucket, mutation
    costTokens := costs.costFor method normalizedPath
    idempotencyRequired := mutation = .createOrder }

end HftBot
