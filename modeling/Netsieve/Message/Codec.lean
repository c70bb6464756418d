import Netsieve.Endpoint.Codec
import Netsieve.Message
import Netsieve.Text.Inspect

/-!
# `Netsieve.Message.Codec`: messages as text and as JSON

For people a message shows its six fields, the payload as a byte literal. As JSON it
is a record of the same fields. The payload is written as an array of bytes and may
also be read from a string; the origin may be missing.
-/

set_option autoImplicit false

namespace Netsieve.Message

/-- The diagnostic text of a message. -/
def inspect (m : Message) : List Char :=
  Inspect.record "Message"
    [("verb", Inspect.nat m.verb.toNat), ("bytes", ByteLiteral.inspect m.payload),
      ("id", Inspect.nat m.id.toNat), ("version", Inspect.nat m.version.toNat),
      ("from", Inspect.option Endpoint.inspect m.origin),
      ("from_port", Inspect.nat m.fromPort.toNat)]

/-- The names of the fields. -/
def fieldNames : List (List Char) :=
  ["verb".toList, "bytes".toList, "id".toList, "version".toList, "from".toList,
    "from_port".toList]

/-- The JSON form of a message. -/
def toJson (m : Message) : Json :=
  Json.object
    [("verb", Json.ofNat m.verb.toNat),
      ("bytes", .arr (m.payload.map fun b => Json.ofNat b.toNat)),
      ("id", Json.ofNat m.id.toNat), ("version", Json.ofNat m.version.toNat),
      ("from", Json.ofOption Endpoint.toJson m.origin),
      ("from_port", Json.ofNat m.fromPort.toNat)]

/-- Reads a message from JSON. -/
def ofJson? (v : Json) : Option Message :=
  match v.record? fieldNames with
  | some [verb, payload, id, version, origin, fromPort] => do
    let verb ← Json.required? Json.uint32? verb
    let payload ← Json.required? Json.bytes? payload
    let id ← Json.required? Json.uint64? id
    let version ← Json.required? Json.uint32? version
    let origin ← Json.optional? Endpoint.ofJson? origin
    let fromPort ← Json.required? Json.uint16? fromPort
    some { verb, payload, id, version, origin, fromPort }
  | _ => none

/-- Reads a message from JSON text. -/
def decode? (s : String) : Option Message :=
  (Json.parse? s).bind ofJson?

/-- The JSON text of a message. -/
def encode (m : Message) : String :=
  m.toJson.toString

end Netsieve.Message
