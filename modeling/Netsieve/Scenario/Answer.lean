import Netsieve.Endpoint.Codec
import Netsieve.Timeline

/-!
# `Netsieve.Scenario.Answer`: what a scenario is told

Every step has an answer. A step that cannot be carried out has one too: the
reason (`Failure`). Beside the answers there is a log of the callbacks that ran,
because much of what matters about rules is when they ask and how often.
-/

set_option autoImplicit false

namespace Netsieve.Scenario

/-- Why a step was not carried out. -/
inductive Failure where
  /-- A text is no endpoint. -/
  | endpoint (error : EndpointError)
  | network (error : Refusal)
  /-- A name stands for nothing. -/
  | noSuchName
  deriving DecidableEq

/-- What can be seen of a network. -/
structure NetworkInfo where
  nodes : List (NodeId × Endpoint)
  latency : Latency
  /-- How many rules are in force. -/
  rules : Nat
  text : String

/-- The answer to a step. -/
inductive Answer where
  | done
  /-- A rule was not registered, because it does nothing. -/
  | discarded
  /-- A registered rule, with its text if that was asked for. -/
  | handle (id : UInt64) (direction : Direction) (enabled : Bool) (text : Option String)
  | decision (verdict : Verdict)
  | flag (value : Bool)
  /-- Verdicts by sender and receiver. -/
  | matrix (rows : List (List Verdict))
  /-- A number of rules. -/
  | size (n : Nat)
  | descriptions (ds : List Description)
  | text (s : String)
  /-- What can be seen of a network. -/
  | network (info : NetworkInfo)
  | node (id : NodeId)
  /-- Where a node is. -/
  | address (a : Option Endpoint)
  | owner (id : Option NodeId)
  /-- What became of a message. -/
  | delivery (d : Delivery)
  /-- A message, if there was one. -/
  | envelope (e : Option Envelope)
  | envelopes (es : List Envelope)
  | clock (now : Nat)
  /-- What came of waiting, and the time. -/
  | reception (r : Reception) (now : Nat)
  /-- The step was not carried out. -/
  | failed (reason : Failure)

/-- A line in the log of callbacks. -/
inductive LogEntry where
  /-- The predicate of a rule was called. -/
  | tested (rule : String) (e : Envelope)
  | supplied (rule : String) (e : Envelope)
  /-- A draft was shown. -/
  | draft (text : String)
  /-- A sink was called. -/
  | accepted (address : Endpoint) (e : Envelope)
  /-- A sink delivered a message directly, if its network was still there. -/
  | reinjected (delivered : Option Bool)
  /-- A callback performed a step. -/
  | nested (answer : Answer)

end Netsieve.Scenario
