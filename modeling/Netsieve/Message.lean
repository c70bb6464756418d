import Netsieve.Endpoint

/-!
# `Netsieve.Message`: what nodes send each other

A message has a verb that says what kind it is, a payload, and four attributes
that start out empty: an id, a protocol version, the endpoint it comes from and
the port it was sent from. Attributes are set one at a time, and the last value
wins. Two of them are tied: setting the origin also sets the port to the origin's
port, while setting the port leaves the origin as it is.

`Setter` is one such change as a value, so that a sequence of them can be stated
and run (`applyAll`, `history`).

An envelope is a message on its way. Rules, suppliers and sinks all look at the same
thing: who sends, who receives and what. `reversed` is the way back, which a
predicate may want to ask about.
-/

set_option autoImplicit false

namespace Netsieve

/-- A message. -/
structure Message where
  /-- The kind of message. -/
  verb : UInt32
  /-- The bytes it carries. -/
  payload : List UInt8
  /-- The number that tells it from other messages. -/
  id : UInt64 := 0
  /-- The protocol version it was written with. -/
  version : UInt32 := 0
  /-- The endpoint it comes from, if known. -/
  origin : Option Endpoint := none
  /-- The port it was sent from. -/
  fromPort : UInt16 := 0
  deriving DecidableEq

namespace Message

/-- A message with no attribute set. -/
def new (verb : UInt32) (payload : List UInt8) : Message :=
  { verb, payload }

/-- Sets the id. -/
def withId (m : Message) (id : UInt64) : Message :=
  { m with id }

/-- Sets the version. -/
def withVersion (m : Message) (version : UInt32) : Message :=
  { m with version }

/-- Sets the origin, and the port to the origin's. -/
def withOrigin (m : Message) (origin : Endpoint) : Message :=
  { m with origin := some origin, fromPort := origin.port }

/-- Sets the port. -/
def withFromPort (m : Message) (fromPort : UInt16) : Message :=
  { m with fromPort }

/-- A change of one attribute. -/
inductive Setter where
  | id (value : UInt64)
  | version (value : UInt32)
  /-- Sets the origin, and with it the port. -/
  | origin (value : Endpoint)
  /-- Sets the port alone. -/
  | fromPort (value : UInt16)
  deriving DecidableEq

/-- Makes one change. -/
def apply (m : Message) : Setter → Message
  | .id value => m.withId value
  | .version value => m.withVersion value
  | .origin value => m.withOrigin value
  | .fromPort value => m.withFromPort value

/-- Makes changes in order. -/
def applyAll (m : Message) (setters : List Setter) : Message :=
  setters.foldl apply m

/-- The message before the changes and after each of them. -/
def history (m : Message) : List Setter → List Message
  | [] => [m]
  | s :: rest => m :: history (m.apply s) rest

end Message

/-! ## A message on its way -/

/-- The number of a node. -/
abbrev NodeId := UInt32

/-- A message between two nodes. -/
structure Envelope where
  sender : NodeId
  receiver : NodeId
  message : Message
  deriving DecidableEq

namespace Envelope

/-- The same message the other way round. -/
def reversed (e : Envelope) : Envelope :=
  { e with sender := e.receiver, receiver := e.sender }

end Envelope

end Netsieve
