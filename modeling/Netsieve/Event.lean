import Netsieve.Direction
import Netsieve.Network
import Netsieve.Rule

/-!
# `Netsieve.Event`: what a debugging log tells

Engines and networks tell what they do, in the order they do it. An event is kept
as what happened; its severity, its text and its fields follow from that.
-/

set_option autoImplicit false

namespace Netsieve

/-- Something that is worth a line in the log. -/
inductive Event where
  | ruleRegistered (rule : String)
  /-- So many rules were taken out of force. -/
  | rulesReset (cleared : Nat)
  | ruleSwitched (rule : UInt64) (on : Bool)
  /-- A rule decided about a message. -/
  | messageFiltered (rule : UInt64) (direction : Direction) (e : Envelope) (verdict : Verdict)
  | nodeRegistered (id : NodeId) (address : Endpoint)
  | sinkInstalled
  /-- The sink was taken away. -/
  | sinkCleared
  | messageDropped (e : Envelope) (direction : Direction)
  /-- A message is about to be handed to the sink or to an inbox. -/
  | delivering (e : Envelope) (sink : Bool)
  /-- A late message found the inbox closed. -/
  | deliveryFailed (e : Envelope) (error : Refusal)
  /-- A direct delivery found no node. -/
  | nobodyAt (address : Endpoint)
  deriving DecidableEq

namespace Event

/-- How much an event matters. -/
inductive Severity where
  | trace
  | debug
  | warn
  deriving DecidableEq

/-- The value of a field. -/
inductive Value where
  | nat (n : Nat)
  | bool (b : Bool)
  | text (s : String)
  deriving DecidableEq

/-- The name of a severity. -/
def Severity.name : Severity → String
  | .trace => "TRACE"
  | .debug => "DEBUG"
  | .warn => "WARN"

/-- How much an event matters. -/
def severity : Event → Severity
  | .delivering .. => .trace
  | .deliveryFailed .. => .warn
  | _ => .debug

/-- What an event is called. -/
def message : Event → String
  | .ruleRegistered _ => "message filter registered"
  | .rulesReset _ => "message filters reset"
  | .ruleSwitched _ true => "filter enabled"
  | .ruleSwitched _ false => "filter disabled"
  | .messageFiltered .. => "message filtered"
  | .nodeRegistered .. => "node registered"
  | .sinkInstalled => "message sink installed"
  | .sinkCleared => "message sink cleared"
  | .messageDropped .. => "message dropped"
  | .delivering .. => "delivering message"
  | .deliveryFailed .. => "delayed delivery failed"
  | .nobodyAt _ => "no node for direct delivery"

/-- Who sends to whom. -/
def transferFields (e : Envelope) : List (String × Value) :=
  [("from", .nat e.sender.toNat), ("to", .nat e.receiver.toNat)]

/-- The fields of an event. -/
def fields : Event → List (String × Value)
  | .ruleRegistered rule => [("filter", .text rule)]
  | .rulesReset cleared => [("cleared", .nat cleared)]
  | .ruleSwitched rule _ => [("filter", .nat rule.toNat)]
  | .messageFiltered rule direction e verdict =>
    [("filter", .nat rule.toNat), ("direction", .text direction.name)] ++ transferFields e
      ++ [("verb", .nat e.message.verb.toNat), ("id", .nat e.message.id.toNat),
        ("verdict", .text (String.ofList verdict.inspect))]
  | .nodeRegistered id address =>
    [("node", .nat id.toNat), ("address", .text address.toString)]
  | .sinkInstalled => []
  | .sinkCleared => []
  | .messageDropped e direction =>
    transferFields e
      ++ [("verb", .nat e.message.verb.toNat), ("direction", .text direction.name)]
  | .delivering e sink =>
    transferFields e ++ [("verb", .nat e.message.verb.toNat), ("sink", .bool sink)]
  | .deliveryFailed e error => transferFields e ++ [("error", .text error.message)]
  | .nobodyAt address => [("to", .text address.toString)]

end Event

end Netsieve
