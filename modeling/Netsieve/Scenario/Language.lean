import Netsieve.Endpoint.Codec
import Netsieve.Network.Latency
import Netsieve.Rule.Draft

/-!
# `Netsieve.Scenario.Language`: what a scenario can say

A scenario is a list of steps. Its callbacks are written in the same language: a
condition stands for a content predicate, a plan for a delay supplier and a
reaction for a sink. Each of them can perform steps when it is called, so the
four types refer to each other.

Addresses stay texts until a step runs, because a text that is no address is that
step's answer.
-/

set_option autoImplicit false

namespace Netsieve.Scenario

/-- A message as a scenario writes it. Attributes that are given are set in the
order of the fields. -/
structure MessageSpec where
  verb : UInt32
  payload : List UInt8
  id : Option UInt64 := none
  version : Option UInt32 := none
  /-- The origin, if given, as text. -/
  origin : Option String := none
  fromPort : Option UInt16 := none

namespace MessageSpec

/-- The changes that the given attributes ask for, once the origin is read. -/
def setters (spec : MessageSpec) (origin : Option Endpoint) : List Message.Setter :=
  (spec.id.map .id).toList ++ (spec.version.map .version).toList
    ++ (origin.map .origin).toList ++ (spec.fromPort.map .fromPort).toList

/-- The message, unless its origin is no endpoint. -/
def build (spec : MessageSpec) : Except EndpointError Message := do
  let origin ← spec.origin.mapM Endpoint.parse
  pure ((Message.new spec.verb spec.payload).applyAll (spec.setters origin))

end MessageSpec

/-- A transfer as a scenario writes it. -/
structure TransferSpec where
  sender : NodeId
  receiver : NodeId
  message : MessageSpec

/-- The coefficients of a delay in milliseconds that grows with a message. -/
structure Linear where
  base : UInt64 := 0
  /-- For each unit of the sender's id. -/
  perSender : UInt64 := 0
  /-- For each unit of the receiver's id. -/
  perReceiver : UInt64 := 0
  /-- For each byte of the payload. -/
  perByte : UInt64 := 0
  /-- For each unit of the message's id. -/
  perId : UInt64 := 0

mutual

/-- A content predicate. -/
inductive Condition where
  | const (value : Bool)
  | payloadIs (bytes : List UInt8)
  | payloadStarts (bytes : List UInt8)
  | payloadContains (bytes : List UInt8)
  /-- The payload has at least so many bytes. -/
  | payloadAtLeast (n : Nat)
  | verbIs (n : Nat)
  | idModulo (modulus remainder : Nat)
  | versionAtLeast (n : Nat)
  | originIs (text : Option String)
  | fromPortIs (n : Nat)
  | senderIs (n : Nat)
  | receiverIs (n : Nat)
  /-- The sender's id is less than the receiver's. -/
  | senderBelowReceiver
  /-- Fewer calls came before than this. -/
  | callBelow (n : Nat)
  /-- The number of calls that came before leaves this remainder. -/
  | callModulo (modulus remainder : Nat)
  | negation (of : Condition)
  /-- All of them, as far as the first that does not hold. -/
  | all (of : List Condition)
  /-- Some of them, as far as the first that holds. -/
  | any (of : List Condition)
  | panic (text : String)
  /-- An engine permits the transfer, or the one back. -/
  | permitted (engine : String) (direction : Direction) (swap : Bool)
  | perform (steps : List Step) (following : Condition)

/-- A delay supplier. -/
inductive Plan where
  | const (delay : Duration)
  /-- A delay that grows with the message. -/
  | linear (coefficients : Linear)
  /-- One after the other, and the last one from then on. -/
  | sequence (delays : List Duration)
  | choose (test : Condition) (yes no : Plan)
  | panic (text : String)
  | perform (steps : List Step) (following : Plan)

/-- A sink. -/
inductive Reaction where
  /-- Takes the message and does nothing. -/
  | keep
  /-- Delivers the message directly, to this address or to its own. -/
  | reinject (address : Option String)
  | panic (text : String)
  | perform (test : Option Condition) (steps : List Step)

/-- A part of a rule, or a look at the draft so far. -/
inductive Link where
  | direction (inbound : Bool)
  | senders (ids : List UInt32)
  | receivers (ids : List UInt32)
  | content (condition : Condition)
  /-- A look at the draft. -/
  | shown

/-- A step of a scenario. -/
inductive Step where
  | addEngine (name : String)
  | aliasEngine (engine name : String)
  /-- Registers a rule, unless there is no action. -/
  | addRule (name engine : String) (verbs : Option (List UInt32)) (chain : List Link)
    (action : Option (Action Plan))
  | startDraft (name engine : String) (verbs : Option (List UInt32)) (chain : List Link)
  | extendDraft (name : String) (chain : List Link)
  /-- Continues a draft and registers it, unless there is no action. -/
  | finishDraft (name : String) (chain : List Link) (action : Option (Action Plan))
  /-- Switches a rule on and off, and shows it. -/
  | useHandle (name : String) (calls : List Bool) (withText : Bool)
  /-- Decides about a transfer. -/
  | evaluate (engine : String) (direction : Direction) (transfer : TransferSpec)
  /-- Asks whether a transfer may go on. -/
  | permit (engine : String) (direction : Direction) (transfer : TransferSpec)
  /-- Decides about a message between any two of some nodes. -/
  | matrix (engine : String) (direction : Direction) (nodes : List NodeId)
    (message : MessageSpec)
  /-- Takes all rules out of force. -/
  | reset (engine : String)
  | size (engine : String)
  | describe (engine : String)
  | inspect (engine : String)
  | addNetwork (network engine : String) (latency : Latency)
  | aliasNetwork (network name : String)
  /-- Takes a name of a network out of use. -/
  | dropNetwork (network : String)
  | networkEngine (network name : String)
  | networkInfo (network : String)
  /-- Registers a node and keeps its inbox. -/
  | addNode (network : String) (id : NodeId) (address : String) (inbox : Option String)
  | addressOf (network : String) (id : NodeId)
  /-- Asks which node is there. -/
  | ownerOf (network : String) (address : String)
  | send (network : String) (transfer : TransferSpec)
  /-- Delivers a message directly. -/
  | deliver (network : String) (address : String) (transfer : TransferSpec)
  | setSink (network : String) (reaction : Reaction)
  /-- Takes the sink away. -/
  | clearSink (network : String)
  /-- Gives up an inbox. -/
  | dropInbox (inbox : String)
  /-- Takes a message that is there. -/
  | tryReceive (inbox : String)
  /-- Takes all messages that are there. -/
  | drain (inbox : String)

end

/-- What a scenario does at its top level, where time can pass as well. -/
inductive Act where
  | step (s : Step)
  /-- Lets so many milliseconds pass. -/
  | advance (ms : Nat)
  /-- Waits so many milliseconds for a message. -/
  | receive (inbox : String) (ms : Nat)

end Netsieve.Scenario
