import Netsieve.Endpoint
import Netsieve.Ip.Parser
import Netsieve.Json.Parser
import Netsieve.Json.Printer
import Netsieve.Json.Record

/-!
# `Netsieve.Endpoint.Codec`: endpoints from text and as JSON

`parse` is more liberal than the printer: brackets may stand around a short
address, and a long one may go without them, in which case its last colon is the
separator. It looks at the separators first, at the address next and at the port
last, and the error it gives is the first one it meets in that order.

As JSON an endpoint is a record of the address as text and the port as a number. The
address is read by the same reader that takes it from a person, so every literal
is accepted, and written in its one printed form.
-/

set_option autoImplicit false

namespace Netsieve

/-! ## Endpoints from text -/

/-- Why a text is no endpoint. -/
inductive EndpointError where
  /-- The part for the address is no address, or its bracket is not closed. -/
  | invalidIp
  | invalidPort
  /-- There is no colon in front of a port. -/
  | missingPort
  deriving DecidableEq

namespace EndpointError

/-- What a person is told. -/
def message : EndpointError → String
  | .invalidIp => "invalid IP address"
  | .invalidPort => "invalid port number"
  | .missingPort => "missing port separator"

end EndpointError

namespace Endpoint

/-- Leaves out one plus sign in front. -/
def dropPlus : List Char → List Char
  | '+' :: cs => cs
  | cs => cs

/-- Reads a port: one or more digits after an optional plus sign, at most 65535. -/
def port? (cs : List Char) : Option UInt16 :=
  match Decimal.read? (dropPlus cs) with
  | some n => if n ≤ 65535 then some (UInt16.ofNat n) else none
  | none => none

/-- Finds the part for the address and the part for the port. -/
def separate : List Char → Except EndpointError (List Char × List Char)
  -- Inside brackets colons belong to the address.
  | '[' :: rest =>
    match Split.atFirst? ']' rest with
    | none => .error .invalidIp
    | some (ip, ':' :: port) => .ok (ip, port)
    | some _ => .error .missingPort
  | cs =>
    -- Without brackets the last colon is in front of the port.
    match Split.atLast? ':' cs with
    | none => .error .missingPort
    | some parts => .ok parts

/-- Reads the two parts, the address before the port. -/
def ofParts (ip port : List Char) : Except EndpointError Endpoint :=
  match Ip.read? ip with
  | none => .error .invalidIp
  | some ip =>
    match port? port with
    | none => .error .invalidPort
    | some port => .ok ⟨ip, port⟩

/-- Reads an endpoint from its characters. -/
def ofText (cs : List Char) : Except EndpointError Endpoint :=
  match separate cs with
  | .error e => .error e
  | .ok (ip, port) => ofParts ip port

/-- Reads an endpoint. -/
def parse (s : String) : Except EndpointError Endpoint :=
  ofText s.toList

end Endpoint

/-! ## Endpoints as JSON -/

/-- The JSON form of an address. -/
def Ip.toJson (ip : Ip) : Json :=
  Json.ofText ip.text

/-- Reads an address from JSON. -/
def Ip.ofJson? (v : Json) : Option Ip :=
  v.text?.bind Ip.read?

namespace Endpoint

/-- The names of the fields. -/
def fieldNames : List (List Char) :=
  ["address".toList, "port".toList]

/-- The JSON form of an endpoint. -/
def toJson (e : Endpoint) : Json :=
  Json.object [("address", e.ip.toJson), ("port", Json.ofNat e.port.toNat)]

/-- Reads an endpoint from JSON. -/
def ofJson? (v : Json) : Option Endpoint :=
  match v.record? fieldNames with
  | some [ip, port] =>
    match Json.required? Ip.ofJson? ip, Json.required? Json.uint16? port with
    | some ip, some port => some ⟨ip, port⟩
    | _, _ => none
  | _ => none

/-- Reads an endpoint from JSON text. -/
def decode? (s : String) : Option Endpoint :=
  (Json.parse? s).bind ofJson?

/-- The JSON text of an endpoint. -/
def encode (e : Endpoint) : String :=
  e.toJson.toString

end Endpoint

end Netsieve
