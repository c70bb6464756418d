import Netsieve.Duration
import Netsieve.Evaluation

/-!
# `Netsieve.Delivery`: from a sender to a receiver

`NetworkRef.send` is the way of a message through a network: both nodes have to be
known, the outbound rules have to let it out and the inbound rules have to let it
in. If it takes no time, it is handed over before `send` returns. Otherwise it is
put on its way, which only works if time can pass; that is found out last, when
both chains have already run.

What hands a message over is `handOver`, now or later. It looks for a sink at that
moment. `deliver` is the way around all this: straight into the inbox at an
endpoint.

A scripted network reads its clock in whole milliseconds since its start, and what
is due after a delay arrives at the first such moment at which the delay is over.
Nothing is waited for longer than thirty years. What is due after a longer delay
arrives when they are over. In any case it arrives later than now
(`Clock.lt_arrival`).
-/

set_option autoImplicit false

namespace Netsieve

namespace Clock

/-- The longest wait: thirty years of 365 days, in milliseconds. -/
def longestWait : Nat := 30 * 365 * 24 * 60 * 60 * 1000

/-- The moment at which something arrives that is due after a delay. -/
def arrival (now : Nat) (delay : Duration) : Nat :=
  now + min delay.ceilMillis longestWait

/-- Whatever takes time arrives later than now. -/
theorem lt_arrival {now : Nat} {delay : Duration} (h : delay.isZero = false) :
    now < arrival now delay := by
  have some_time : 0 < delay.toNanos := by
    rcases Nat.eq_zero_or_pos delay.toNanos with none | some
    · have zero : delay = .zero := Duration.eq_of_toNanos_eq none
      subst zero
      cases h
    · exact some
  unfold arrival Duration.ceilMillis longestWait
  omega

end Clock

variable {σ : Signature}

/-- What became of a message that was sent. -/
inductive Delivery where
  /-- It was handed over. -/
  | delivered
  /-- It is on its way and will take so long. -/
  | delayed (delay : Duration)
  | dropped (direction : Direction)
  deriving DecidableEq

namespace NetworkRef

/-- Hands a message over, to the sink if there is one and to the inbox of the
receiver otherwise. -/
def handOver (cb : Callbacks σ) (network : NetworkRef) (address : Endpoint) (e : Envelope) :
    Run σ (Except Refusal Unit) := do
  let sink := ((← get).network network).sink
  -- The note comes first, so that it stands before anything a sink adds.
  emit (.delivering e sink.isSome)
  match sink with
  | some sink =>
    cb.accept sink address e
    pure (.ok ())
  | none =>
    match ((← get).network network).enqueue? e.receiver e with
    | some changed =>
      modify (·.setNetwork network changed)
      pure (.ok ())
    | none => pure (.error (.inboxClosed e.receiver))

/-- The delay that the rules of one direction ask for, unless they drop the
message. -/
def consult (cb : Callbacks σ) (engine : EngineRef) (direction : Direction) (e : Envelope) :
    Run σ (Option Duration) := do
  let verdict ← engine.evaluate cb direction e
  -- The rule has noted its verdict already. A drop is noted once more, as the fate of the
  -- message.
  if !verdict.permits then emit (.messageDropped e direction)
  pure verdict.wait?

/-- Puts a message on its way, if time can pass. -/
def schedule (network : NetworkRef) (address : Endpoint) (e : Envelope) (delay : Duration) :
    Run σ (Except Refusal Delivery) := do
  let w ← get
  -- Without a runtime the message is refused, though both directions have permitted it.
  if w.hasRuntime then
    let parcel : Pending := ⟨Clock.arrival w.clock delay, network, address, e⟩
    set { w with pending := w.pending ++ [parcel] }
    pure (.ok (.delayed delay))
  else pure (.error .noRuntime)

/-- Hands over or puts on its way a message that both directions permit. -/
def forward (cb : Callbacks σ) (network : NetworkRef) (address : Endpoint) (e : Envelope)
    (delay : Duration) : Run σ (Except Refusal Delivery) := do
  -- A message without any delay needs no runtime.
  if delay.isZero then
    let outcome ← network.handOver cb address e
    pure (outcome.map fun _ => .delivered)
  else network.schedule address e delay

/-- Sends a message. -/
def send (cb : Callbacks σ) (network : NetworkRef) (e : Envelope) :
    Run σ (Except Refusal Delivery) := do
  -- The nodes, the engine and the latency are read once. What the callbacks change of them
  -- comes too late for this message.
  let n := (← get).network network
  -- Both ends are looked up before any rule is asked, the sender first.
  match n.node? e.sender, n.node? e.receiver with
  | none, _ => pure (.error (.unknownNode e.sender))
  | some _, none => pure (.error (.unknownNode e.receiver))
  | some _, some target =>
    match ← consult cb n.engine .outbound e with
    | none => pure (.ok (.dropped .outbound))
    -- Rules of the other direction are asked only if these permit the message.
    | some outbound =>
      match ← consult cb n.engine .inbound e with
      | none => pure (.ok (.dropped .inbound))
      | some inbound =>
        network.forward cb target.address e (n.latency.total outbound inbound)

/-- Puts a message straight into the inbox at an endpoint, and tells whether that
was possible. -/
def deliver (network : NetworkRef) (address : Endpoint) (e : Envelope) : Run σ Bool := do
  -- No rule is asked, no time passes, and a sink is not told.
  let n := (← get).network network
  match n.nodeAt? address with
  | none =>
    emit (.nobodyAt address)
    pure false
  | some node =>
    match n.enqueue? node.id e with
    | some changed =>
      modify (·.setNetwork network changed)
      pure true
    | none => pure false

/-- Registers a node. -/
def register (network : NetworkRef) (id : NodeId) (address : Endpoint) :
    Run σ (Except Refusal Unit) := do
  match ((← get).network network).register id address with
  | .error e => pure (.error e)
  | .ok changed =>
    modify (·.setNetwork network changed)
    emit (.nodeRegistered id address)
    pure (.ok ())

/-- Installs a sink, in place of another if there is one. -/
def setSink (network : NetworkRef) (sink : σ.Sink) : Run σ Unit := do
  modify fun w => w.setNetwork network { w.network network with sink := some sink }
  emit .sinkInstalled

/-- Takes the sink away. -/
def clearSink (network : NetworkRef) : Run σ Unit := do
  modify fun w => w.setNetwork network { w.network network with sink := none }
  emit .sinkCleared

end NetworkRef

end Netsieve
