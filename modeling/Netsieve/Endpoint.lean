import Netsieve.Ip
import Netsieve.Text.Inspect

/-!
# `Netsieve.Endpoint`: an address and a port

A node is reached at an endpoint. Its text is the address, a colon and the port;
a long address stands in brackets, because it has colons of its own. Endpoints are
ordered by address and then by port.

A set of endpoints, like a set of ids, is kept as the ascending list of its members, so
that two sets with the same members are the same list and are shown the same way.
`Ascending.ofList` builds that list by insertion; what it keeps of the input is its
members, not their order or how often they occur.
-/

set_option autoImplicit false

/-! ## Ascending lists without repeats -/

namespace Netsieve.Ascending

variable {α : Type}

/-- Puts `a` at its place; a member that compares equal stays as it is. -/
def insert (cmp : α → α → Ordering) (a : α) : List α → List α
  | [] => [a]
  | b :: bs =>
    match cmp a b with
    | .lt => a :: b :: bs
    | .eq => b :: bs
    | .gt => b :: insert cmp a bs

/-- The distinct members of a list in ascending order. -/
def ofList (cmp : α → α → Ordering) (as : List α) : List α :=
  as.foldl (fun sorted a => insert cmp a sorted) []

end Netsieve.Ascending

/-! ## Endpoints -/

namespace Netsieve

/-- An IP address and a port. -/
structure Endpoint where
  ip : Ip
  port : UInt16
  deriving DecidableEq

namespace Endpoint

/-- The text of an endpoint. -/
def text (e : Endpoint) : List Char :=
  match e.ip with
  | .v4 .. => e.ip.text ++ ':' :: Decimal.digits e.port.toNat
  | .v6 _ => '[' :: e.ip.text ++ ']' :: ':' :: Decimal.digits e.port.toNat

/-- The text of an endpoint as a string. -/
def toString (e : Endpoint) : String :=
  String.ofList e.text

/-- The diagnostic text of an endpoint, in which the address has no quotes. -/
def inspect (e : Endpoint) : List Char :=
  Inspect.record "AddressAndPort"
    [("address", e.ip.text), ("port", Inspect.nat e.port.toNat)]

/-- Orders endpoints by address and then by port. -/
def order (a b : Endpoint) : Ordering :=
  (a.ip.order b.ip).then (compare a.port.toNat b.port.toNat)

/-- The distinct endpoints of a list in ascending order. -/
def sorted (es : List Endpoint) : List Endpoint :=
  Ascending.ofList order es

/-- How each endpoint of a list compares with the next one. -/
def neighbourOrders (es : List Endpoint) : List Ordering :=
  List.zipWith order es (es.drop 1)

end Endpoint

end Netsieve
