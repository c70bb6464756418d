import Netsieve.Json.Parser
import Netsieve.Json.Printer
import Netsieve.Json.Record

/-!
# `Netsieve.Direction`: the two sides of a transfer

A message passes the sender's rules on its way out and the receiver's rules on its
way in. A direction has two spellings: `name` in prose and events, `variant` where
it stands as a value.
-/

set_option autoImplicit false

namespace Netsieve

/-- Which side of a transfer is meant. -/
inductive Direction where
  /-- The receiving node, before it takes a message. -/
  | inbound
  /-- The sending node, before a message leaves it. -/
  | outbound
  deriving DecidableEq

namespace Direction

/-- Rules are about the sending side unless they say otherwise. -/
instance : Inhabited Direction := ⟨.outbound⟩

/-- The inbound direction for `true`, the outbound one for `false`. -/
def ofInbound (inbound : Bool) : Direction :=
  if inbound then .inbound else .outbound

/-- Whether this is the inbound direction. -/
def isInbound : Direction → Bool
  | .inbound => true
  | .outbound => false

/-- The direction in prose. -/
def name : Direction → String
  | .inbound => "inbound"
  | .outbound => "outbound"

/-- The direction as a value. -/
def variant : Direction → List Char
  | .inbound => "Inbound".toList
  | .outbound => "Outbound".toList

/-- The diagnostic text of a direction. -/
def inspect (d : Direction) : List Char :=
  d.variant

/-- The JSON form of a direction. -/
def toJson (d : Direction) : Json :=
  Json.ofText d.variant

/-- Reads a direction from JSON. -/
def ofJson? (v : Json) : Option Direction :=
  match v.tagged? with
  | some (name, carried) =>
    if Json.carriesNothing carried then
      if name = inbound.variant then some .inbound
      else if name = outbound.variant then some .outbound
      else none
    else none
  | none => none

/-- Reads a direction from JSON text. -/
def decode? (s : String) : Option Direction :=
  (Json.parse? s).bind ofJson?

/-- The JSON text of a direction. -/
def encode (d : Direction) : String :=
  d.toJson.toString

end Direction

end Netsieve
