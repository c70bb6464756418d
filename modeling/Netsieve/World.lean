import Netsieve.Engine
import Netsieve.Event
import Netsieve.Network
import Netsieve.Table

/-!
# `Netsieve.World`: everything that is shared

Engines and networks are shared by whoever has a reference to them, so they live
in one place, and a reference is a position in it. Beside them the world holds the
clock, the deliveries that are on their way, the log of events, and a memory that
belongs to the callbacks alone.

Predicates, suppliers and sinks are callbacks. A `Signature` names the types that
stand for them, and `Callbacks` says what they do. A callback may do anything to
the world: register rules, reset an engine, send further messages. It may also
panic, and then what it did before stays done. `Run` is the type of such programs.
-/

set_option autoImplicit false

namespace Netsieve

/-- The number of a network among those of a world. -/
structure NetworkRef where
  index : Nat
  deriving DecidableEq

/-- The types that stand for callbacks, and the memory they share. -/
structure Signature where
  Predicate : Type
  Supplier : Type
  Sink : Type
  Memory : Type

/-- A delivery on its way. -/
structure Pending where
  /-- When it arrives, in milliseconds. -/
  due : Nat
  /-- The network it is sent through. -/
  network : NetworkRef
  /-- Where the receiver is reached. -/
  address : Endpoint
  envelope : Envelope
  deriving DecidableEq

/-- Everything that is shared. -/
structure World (σ : Signature) where
  engines : Table (Engine σ.Predicate σ.Supplier) := {}
  networks : Table (Network σ.Sink) := {}
  /-- The time, in milliseconds. -/
  clock : Nat := 0
  /-- The deliveries on their way, in the order they were sent. -/
  pending : List Pending := []
  /-- Whether time can pass, so that a delivery can be late. -/
  hasRuntime : Bool := false
  /-- What has happened, the latest last. -/
  events : Array Event := #[]
  /-- What the callbacks remember. -/
  memory : σ.Memory

/-- The end of a program by a panic. -/
structure Panic where
  text : String
  deriving DecidableEq

/-- A program that changes the world and may panic. -/
abbrev Run (σ : Signature) : Type → Type :=
  EStateM Panic (World σ)

/-- What callbacks do. -/
structure Callbacks (σ : Signature) where
  test : σ.Predicate → Envelope → Run σ Bool
  supply : σ.Supplier → Envelope → Run σ Duration
  /-- Hands a message for an endpoint to a sink. -/
  accept : σ.Sink → Endpoint → Envelope → Run σ Unit

namespace World

variable {σ : Signature}

/-- The engine behind a reference. -/
def engine (w : World σ) (ref : EngineRef) : Engine σ.Predicate σ.Supplier :=
  w.engines.get ref.index

/-- Replaces an engine. -/
def setEngine (w : World σ) (ref : EngineRef) (e : Engine σ.Predicate σ.Supplier) : World σ :=
  { w with engines := w.engines.set ref.index e }

/-- Adds an engine without rules. -/
def addEngine (w : World σ) : EngineRef × World σ :=
  (⟨w.engines.size⟩, { w with engines := w.engines.push default })

/-- The network behind a reference. -/
def network (w : World σ) (ref : NetworkRef) : Network σ.Sink :=
  w.networks.get ref.index

/-- Replaces a network. -/
def setNetwork (w : World σ) (ref : NetworkRef) (n : Network σ.Sink) : World σ :=
  { w with networks := w.networks.set ref.index n }

/-- Adds a network without nodes. -/
def addNetwork (w : World σ) (engine : EngineRef) (latency : Latency) :
    NetworkRef × World σ :=
  (⟨w.networks.size⟩, { w with networks := w.networks.push { engine, latency } })

/-- Adds an event to the log. -/
def record (w : World σ) (event : Event) : World σ :=
  { w with events := w.events.push event }

/-- The engine that is put in place is there. -/
@[simp] theorem engine_setEngine_self (w : World σ) (ref : EngineRef)
    (e : Engine σ.Predicate σ.Supplier) : (w.setEngine ref e).engine ref = e := by
  simp [engine, setEngine]

/-- Putting one engine in place leaves the others alone. -/
@[simp] theorem engine_setEngine_of_ne (w : World σ) {ref other : EngineRef}
    (e : Engine σ.Predicate σ.Supplier) (h : ref ≠ other) :
    (w.setEngine ref e).engine other = w.engine other := by
  have apart : ref.index ≠ other.index := fun same =>
    h (by cases ref; cases other; exact congrArg EngineRef.mk same)
  simp [engine, setEngine, apart]

/-- The network that is put in place is there. -/
@[simp] theorem network_setNetwork_self (w : World σ) (ref : NetworkRef) (n : Network σ.Sink) :
    (w.setNetwork ref n).network ref = n := by
  simp [network, setNetwork]

/-- Putting one network in place leaves the others alone. -/
@[simp] theorem network_setNetwork_of_ne (w : World σ) {ref other : NetworkRef}
    (n : Network σ.Sink) (h : ref ≠ other) :
    (w.setNetwork ref n).network other = w.network other := by
  have apart : ref.index ≠ other.index := fun same =>
    h (by cases ref; cases other; exact congrArg NetworkRef.mk same)
  simp [network, setNetwork, apart]

/-- A recorded event does not matter to engines. -/
@[simp] theorem engine_record (w : World σ) (event : Event) (ref : EngineRef) :
    (w.record event).engine ref = w.engine ref :=
  rfl

/-- A recorded event does not matter to networks. -/
@[simp] theorem network_record (w : World σ) (event : Event) (ref : NetworkRef) :
    (w.record event).network ref = w.network ref :=
  rfl

/-- A new network has no nodes and no sink. -/
theorem network_addNetwork (w : World σ) (engine : EngineRef) (latency : Latency) :
    (w.addNetwork engine latency).2.network (w.addNetwork engine latency).1
      = { engine, latency } := by
  show (w.networks.push { engine, latency }).get w.networks.size = _
  rw [Table.get_push, if_pos rfl]

end World

/-- Adds an event to the log. -/
def emit {σ : Signature} (event : Event) : Run σ Unit :=
  modify (World.record · event)

/-- Ends the program. -/
def panic {σ : Signature} {α : Type} (text : String) : Run σ α :=
  throw ⟨text⟩

/-- Runs a program and forgets a panic. -/
def isolated {σ : Signature} (program : Run σ Unit) : Run σ Unit := fun w =>
  match program w with
  | .ok _ w => .ok () w
  | .error _ w => .ok () w

end Netsieve
