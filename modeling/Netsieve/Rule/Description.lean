import Netsieve.Json.Parser
import Netsieve.Json.Printer
import Netsieve.Json.Record
import Netsieve.Rule

/-!
# `Netsieve.Rule.Description`: what can be told about a rule

A description is plain data: it can be printed, sent as JSON and read back. Of a
content predicate it only tells that there is one, and of a delay the whole
milliseconds, if they are fixed.
-/

set_option autoImplicit false

namespace Netsieve

/-- What a rule does, as far as it can be told. -/
inductive ActionSummary where
  | drop
  /-- It delays messages, by so many milliseconds unless a supplier computes them. -/
  | delay (millis : Option UInt64)
  deriving DecidableEq

/-- What can be told about a rule. -/
structure Description where
  id : UInt64
  direction : Direction
  /-- The verbs, unless there is no limit. -/
  verbs : Option (List UInt32)
  /-- The senders, unless there is no limit. -/
  senders : Option (List UInt32)
  /-- The receivers, unless there is no limit. -/
  receivers : Option (List UInt32)
  /-- Whether there is a content predicate. -/
  hasContent : Bool
  /-- What the rule does. -/
  action : ActionSummary
  /-- Whether the rule is switched on. -/
  enabled : Bool
  deriving DecidableEq

namespace ActionSummary

/-- What can be told about an action. A delay that has too many milliseconds is
told as the greatest number of them. -/
def ofAction {S : Type} : Action S → ActionSummary
  | .drop => .drop
  | .delay (.fixed d) => .delay (some (UInt64.ofNat (min d.floorMillis 18446744073709551615)))
  | .delay (.computed _) => .delay none

/-- The diagnostic text. -/
def inspect : ActionSummary → List Char
  | .drop => "Drop".toList
  | .delay millis =>
    Inspect.record "Delay"
      [("millis", Inspect.option (fun (n : UInt64) => Inspect.nat n.toNat) millis)]

/-- The JSON form. -/
def toJson : ActionSummary → Json
  | .drop => Json.ofText "drop".toList
  | .delay millis =>
    Json.object
      [("delay", Json.object
        [("millis", Json.ofOption (fun (n : UInt64) => Json.ofNat n.toNat) millis)])]

/-- Reads what a delay carries from JSON. -/
def millisOfJson? (v : Json) : Option (Option UInt64) :=
  match v.record? ["millis".toList] with
  | some [millis] => Json.optional? Json.uint64? millis
  | _ => none

/-- Reads an action from JSON. -/
def ofJson? (v : Json) : Option ActionSummary :=
  match v.tagged? with
  | some (name, carried) =>
    if name = "drop".toList then
      if Json.carriesNothing carried then some .drop else none
    else if name = "delay".toList then
      match carried with
      | some v => (millisOfJson? v).map .delay
      | none => none
    else none
  | none => none

/-- Reads an action from JSON text. -/
def decode? (s : String) : Option ActionSummary :=
  (Json.parse? s).bind ofJson?

/-- The JSON text of an action. -/
def encode (a : ActionSummary) : String :=
  a.toJson.toString

end ActionSummary

/-- What can be told about a rule that is switched on or off. -/
def Rule.describe {P S : Type} (r : Rule P S) (enabled : Bool) : Description where
  id := r.id
  direction := r.direction
  verbs := r.verbs.members?
  senders := r.senders.members?
  receivers := r.receivers.members?
  hasContent := r.content.isSome
  action := .ofAction r.action
  enabled

namespace Description

/-- The diagnostic text of ids. -/
def inspectIds (ids : Option (List UInt32)) : List Char :=
  Inspect.option (fun ids => Inspect.list (ids.map fun (id : UInt32) => Inspect.nat id.toNat)) ids

/-- The diagnostic text of a description. -/
def inspect (d : Description) : List Char :=
  Inspect.record "FilterDescription"
    [("id", Inspect.nat d.id.toNat), ("direction", d.direction.inspect),
      ("verbs", inspectIds d.verbs), ("from", inspectIds d.senders),
      ("to", inspectIds d.receivers), ("content_predicate", Inspect.bool d.hasContent),
      ("action", d.action.inspect), ("enabled", Inspect.bool d.enabled)]

/-- The names of the fields. -/
def fieldNames : List (List Char) :=
  ["id".toList, "direction".toList, "verbs".toList, "from".toList, "to".toList,
    "content_predicate".toList, "action".toList, "enabled".toList]

/-- The JSON form of ids. -/
def idsToJson (ids : Option (List UInt32)) : Json :=
  Json.ofOption (fun ids => .arr (ids.map fun (id : UInt32) => Json.ofNat id.toNat)) ids

/-- The JSON form of a description. -/
def toJson (d : Description) : Json :=
  Json.object
    [("id", Json.ofNat d.id.toNat), ("direction", d.direction.toJson),
      ("verbs", idsToJson d.verbs), ("from", idsToJson d.senders),
      ("to", idsToJson d.receivers), ("content_predicate", .bool d.hasContent),
      ("action", d.action.toJson), ("enabled", .bool d.enabled)]

/-- Reads a description from JSON. -/
def ofJson? (v : Json) : Option Description :=
  match v.record? fieldNames with
  | some [id, direction, verbs, senders, receivers, hasContent, action, enabled] => do
    let id ← Json.required? Json.uint64? id
    let direction ← Json.required? Direction.ofJson? direction
    let verbs ← Json.optional? (Json.list? Json.uint32?) verbs
    let senders ← Json.optional? (Json.list? Json.uint32?) senders
    let receivers ← Json.optional? (Json.list? Json.uint32?) receivers
    let hasContent ← Json.required? Json.bool? hasContent
    let action ← Json.required? ActionSummary.ofJson? action
    let enabled ← Json.required? Json.bool? enabled
    some { id, direction, verbs, senders, receivers, hasContent, action, enabled }
  | _ => none

/-- Reads a description from JSON text. -/
def decode? (s : String) : Option Description :=
  (Json.parse? s).bind ofJson?

/-- The JSON text of a description. -/
def encode (d : Description) : String :=
  d.toJson.toString

end Description

end Netsieve
