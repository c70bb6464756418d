import Netsieve.Endpoint
import Netsieve.Message
import Netsieve.Network.Latency

/-!
# `Netsieve.Network`: nodes and their inboxes

A network is a registry of nodes, each with an endpoint of its own and an inbox.
Nodes are kept by ascending id and never leave. What can end is an inbox: once its
owner has given it up, messages for it are refused, while the node keeps its id
and its endpoint.

A network may refuse what is asked of it (`Refusal`), and says why.

The functions here are the part of a network that concerns nobody else. A change
is a new network, and `none` or an error means that nothing has changed. How a
message gets through the rules to an inbox is in `Netsieve.Delivery`.
-/

set_option autoImplicit false

namespace Netsieve

/-- Why a network refuses an operation. -/
inductive Refusal where
  | unknownNode (id : NodeId)
  | duplicateNode (id : NodeId)
  | duplicateAddress (address : Endpoint) (owner : NodeId)
  /-- A message would be late and nothing makes time pass. -/
  | noRuntime
  /-- The receiver has given up its inbox. -/
  | inboxClosed (id : NodeId)
  deriving DecidableEq

namespace Refusal

/-- What a person is told. -/
def message : Refusal → String
  | .unknownNode id => "unknown node: " ++ String.ofList (Decimal.digits id.toNat)
  | .duplicateNode id =>
    "node " ++ String.ofList (Decimal.digits id.toNat) ++ " is already registered"
  | .duplicateAddress address owner =>
    "address " ++ address.toString ++ " is already used by node "
      ++ String.ofList (Decimal.digits owner.toNat)
  | .noRuntime => "delayed delivery requires a tokio runtime"
  | .inboxClosed id => "inbox of node " ++ String.ofList (Decimal.digits id.toNat) ++ " is closed"

end Refusal

/-- The number of an engine among those of a world. -/
structure EngineRef where
  index : Nat
  deriving DecidableEq

/-- Where a node finds its messages. -/
inductive Inbox where
  /-- Its owner holds it. The oldest message comes first. -/
  | opened (queue : List Envelope)
  /-- Its owner has given it up. -/
  | closed
  deriving DecidableEq

namespace Inbox

/-- The messages that wait, oldest first. -/
def queue : Inbox → List Envelope
  | .opened queue => queue
  | .closed => []

/-- Adds a message at the end, unless the inbox is closed. -/
def push? (e : Envelope) : Inbox → Option Inbox
  | .opened queue => some (.opened (queue ++ [e]))
  | .closed => none

/-- Takes the oldest message. -/
def pop? : Inbox → Option (Envelope × Inbox)
  | .opened (e :: queue) => some (e, .opened queue)
  | _ => none

/-- Takes all messages. -/
def emptied : Inbox → Inbox
  | .opened _ => .opened []
  | .closed => .closed

end Inbox

/-- A registered node. -/
structure Node where
  id : NodeId
  /-- Where it is reached. -/
  address : Endpoint
  inbox : Inbox
  deriving DecidableEq

/-- A network, with sinks of type `K`. -/
structure Network (K : Type) where
  /-- The engine whose rules its messages pass. -/
  engine : EngineRef
  latency : Latency
  /-- Its nodes, by ascending id. -/
  nodes : List Node := []
  /-- What takes messages instead of the inboxes, if anything does. -/
  sink : Option K := none

namespace Network

variable {K : Type}

instance : Inhabited (Network K) := ⟨⟨⟨0⟩, default, [], none⟩⟩

/-- The node with an id. -/
def node? (n : Network K) (id : NodeId) : Option Node :=
  n.nodes.find? (·.id = id)

/-- The node at an endpoint. -/
def nodeAt? (n : Network K) (address : Endpoint) : Option Node :=
  n.nodes.find? (·.address = address)

/-- The ids of all nodes, ascending. -/
def ids (n : Network K) : List NodeId :=
  n.nodes.map Node.id

/-- How many nodes there are. -/
def size (n : Network K) : Nat :=
  n.nodes.length

/-- The endpoint of a node. -/
def address? (n : Network K) (id : NodeId) : Option Endpoint :=
  (n.node? id).map Node.address

/-- The node at an endpoint, by its id. -/
def owner? (n : Network K) (address : Endpoint) : Option NodeId :=
  (n.nodeAt? address).map Node.id

/-- Puts a node at its place among others. -/
def insertNode (node : Node) : List Node → List Node
  | [] => [node]
  | other :: rest =>
    if node.id < other.id then node :: other :: rest else other :: insertNode node rest

/-- Registers a node. The id is looked at before the endpoint. -/
def register (n : Network K) (id : NodeId) (address : Endpoint) :
    Except Refusal (Network K) :=
  match n.node? id with
  | some _ => .error (.duplicateNode id)
  | none =>
    match n.nodeAt? address with
    | some owner => .error (.duplicateAddress address owner.id)
    | none => .ok { n with nodes := insertNode ⟨id, address, .opened []⟩ n.nodes }

/-- Changes the inbox of a node. -/
def setInbox (n : Network K) (id : NodeId) (inbox : Inbox) : Network K :=
  { n with nodes := n.nodes.map fun node => if node.id = id then { node with inbox } else node }

/-- The inbox of a node; a node that is not there has a closed one. -/
def inbox (n : Network K) (id : NodeId) : Inbox :=
  match n.node? id with
  | some node => node.inbox
  | none => .closed

/-- Puts a message into the inbox of a node. -/
def enqueue? (n : Network K) (id : NodeId) (e : Envelope) : Option (Network K) :=
  -- A closed inbox takes nothing, and then there is no changed network.
  ((n.inbox id).push? e).map fun inbox => n.setInbox id inbox

/-- Takes the oldest message out of the inbox of a node. -/
def dequeue? (n : Network K) (id : NodeId) : Option (Envelope × Network K) :=
  ((n.inbox id).pop?).map fun (e, inbox) => (e, n.setInbox id inbox)

/-- Gives up the inbox of a node, and the messages in it. -/
def closeInbox (n : Network K) (id : NodeId) : Network K :=
  n.setInbox id .closed

/-- Takes all messages out of the inbox of a node. -/
def emptyInbox (n : Network K) (id : NodeId) : Network K :=
  n.setInbox id (n.inbox id).emptied

/-- The diagnostic text of a network whose engine has so many rules. -/
def inspect (n : Network K) (rules : Nat) : List Char :=
  Inspect.openRecord "SimNetwork"
    [("nodes", Inspect.list (n.ids.map fun id => Inspect.nat id.toNat)),
      ("config", n.latency.inspect), ("filters", Inspect.nat rules)]

end Network

end Netsieve
