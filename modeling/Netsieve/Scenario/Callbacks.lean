import Netsieve.Scenario.Perform

/-!
# `Netsieve.Scenario.Callbacks`: what conditions, plans and reactions do

A condition, a plan or a reaction is carried out by recursion on how it is
written, given what the callbacks do that its steps may bring about. `callbacks`
ties the knot: at depth `n + 1` they are carried out with those of depth `n`. A
scenario in which callbacks call each other more than `maxDepth` deep has no end
that anybody waits for, and is stopped by a panic.
-/

set_option autoImplicit false

namespace Netsieve.Scenario

/-- Whether one list of bytes stands somewhere in another. -/
def containsBytes (part : List UInt8) : List UInt8 → Bool
  | [] => part.isEmpty
  | b :: bs => part.isPrefixOf (b :: bs) || containsBytes part bs

/-- Whether a number leaves this remainder; there is none for the modulus zero. -/
def leaves (n modulus remainder : Nat) : Program Bool :=
  if modulus = 0 then panic "attempt to calculate the remainder with a divisor of zero"
  else pure (n % modulus = remainder)

/-- Whether an engine permits a transfer. -/
def permitted (cb : Callbacks script) (engine : String) (direction : Direction) (e : Envelope) :
    Program Bool := do
  match (← stage).engines.get? engine with
  | some engine => engine.permit cb direction e
  | none => pure false

namespace Condition

mutual

/-- Whether a condition holds for a transfer, at the call that so many came
before. -/
def holds (cb : Callbacks script) (call : Nat) (e : Envelope) : Condition → Program Bool
  | .const value => pure value
  | .payloadIs bytes => pure (e.message.payload = bytes)
  | .payloadStarts bytes => pure (bytes.isPrefixOf e.message.payload)
  | .payloadContains bytes => pure (containsBytes bytes e.message.payload)
  | .payloadAtLeast n => pure (n ≤ e.message.payload.length)
  | .verbIs n => pure (e.message.verb.toNat = n)
  | .idModulo modulus remainder => leaves e.message.id.toNat modulus remainder
  | .versionAtLeast n => pure (n ≤ e.message.version.toNat)
  | .originIs text => pure (e.message.origin.map Endpoint.toString = text)
  | .fromPortIs n => pure (e.message.fromPort.toNat = n)
  | .senderIs n => pure (e.sender.toNat = n)
  | .receiverIs n => pure (e.receiver.toNat = n)
  | .senderBelowReceiver => pure (e.sender < e.receiver)
  | .callBelow n => pure (call < n)
  | .callModulo modulus remainder => leaves call modulus remainder
  | .negation of => do
    let value ← holds cb call e of
    pure (!value)
  | .all of => allHold cb call e of
  | .any of => anyHolds cb call e of
  | .panic text => Netsieve.panic text
  | .permitted engine direction swap =>
    Scenario.permitted cb engine direction (if swap then e.reversed else e)
  | .perform steps following => do
    Step.performAll cb steps
    holds cb call e following

/-- Whether all conditions hold, as far as the first that does not. -/
def allHold (cb : Callbacks script) (call : Nat) (e : Envelope) : List Condition → Program Bool
  | [] => pure true
  | c :: cs => do
    if ← holds cb call e c then allHold cb call e cs else pure false

/-- Whether some condition holds, as far as the first that does. -/
def anyHolds (cb : Callbacks script) (call : Nat) (e : Envelope) : List Condition → Program Bool
  | [] => pure false
  | c :: cs => do
    if ← holds cb call e c then pure true else anyHolds cb call e cs

end

end Condition

namespace Linear

/-- The delay for a transfer. It stops at the greatest number of milliseconds. -/
def delay (l : Linear) (e : Envelope) : Duration :=
  let ms := l.base.toNat + l.perSender.toNat * e.sender.toNat
    + l.perReceiver.toNat * e.receiver.toNat + l.perByte.toNat * e.message.payload.length
    + l.perId.toNat * e.message.id.toNat
  Duration.ofMillis (UInt64.ofNat (min ms 18446744073709551615))

end Linear

namespace Plan

/-- The delay at the call that so many came before. -/
def nth (delays : List Duration) (call : Nat) : Duration :=
  delays.getD (min call (delays.length - 1)) Duration.zero

/-- The delay of a plan for a transfer. -/
def delay (cb : Callbacks script) (call : Nat) (e : Envelope) : Plan → Program Duration
  | .const d => pure d
  | .linear coefficients => pure (coefficients.delay e)
  | .sequence delays => pure (nth delays call)
  | .choose test yes no => do
    if ← test.holds cb call e then delay cb call e yes else delay cb call e no
  | .panic text => Netsieve.panic text
  | .perform steps following => do
    Step.performAll cb steps
    delay cb call e following

end Plan

namespace Reaction

/-- Delivers a message directly, if its network still has its name. -/
def reinjectInto (network : String) (address : Endpoint) (e : Envelope) :
    Program (Option Bool) := do
  match (← stage).networks.get? network with
  | some ref =>
    let delivered ← ref.deliver address e
    pure (some delivered)
  | none => pure none

/-- What a reaction does with a message for an endpoint. -/
def take (cb : Callbacks script) (network : String) (address : Endpoint) (e : Envelope) :
    Reaction → Program Unit
  | .keep => pure ()
  | .reinject none => do
    log (.reinjected (← reinjectInto network address e))
  | .reinject (some text) =>
    match Endpoint.parse text with
    | .ok address => do
      log (.reinjected (← reinjectInto network address e))
    | .error _ => log (.reinjected none)
  | .panic text => Netsieve.panic text
  | .perform test steps => do
    let wanted ← match test with
      | none => pure true
      | some test => test.holds cb 0 e
    if wanted then Step.performAll cb steps

end Reaction

/-- What a predicate, a supplier and a sink do, given what the callbacks do that
their steps may bring about. -/
def callbacksOver (inner : Callbacks script) : Callbacks script where
  test predicate e := do
    -- The call is counted and logged before anything can fail.
    let call ← countCall predicate.counter
    log (.tested predicate.rule e)
    predicate.condition.holds inner call e
  supply supplier e := do
    let call ← countCall supplier.counter
    log (.supplied supplier.rule e)
    supplier.plan.delay inner call e
  accept sink address e := do
    log (.accepted address e)
    sink.reaction.take inner sink.network address e

/-- What callbacks do that are nested too deep. -/
def exhausted : Callbacks script where
  test _ _ := panic "callbacks are nested too deep"
  supply _ _ := panic "callbacks are nested too deep"
  accept _ _ _ := panic "callbacks are nested too deep"

/-- The callbacks of a scenario, to a depth. -/
def callbacks : Nat → Callbacks script
  | 0 => exhausted
  | depth + 1 =>
    { test := fun predicate e => (callbacksOver (callbacks depth)).test predicate e
      supply := fun supplier e => (callbacksOver (callbacks depth)).supply supplier e
      accept := fun sink address e => (callbacksOver (callbacks depth)).accept sink address e }

/-- How deep callbacks can be nested. -/
def maxDepth : Nat := 10000

end Netsieve.Scenario
