import Netsieve.Delivery

/-!
# `Netsieve.Timeline`: time passes

Time passes in whole milliseconds, and only when somebody asks for it. On the way
it stops at every moment at which a delivery is due (`nextDue?`). All deliveries of
that moment are made in the order they were sent (`deliverDue`), and those they
give rise to are due later, so the next stop is always further on. That is why
`advanceFrom` ends, whatever the callbacks do.

Deliveries do not disturb each other: a panic in one of them is forgotten, and one
that finds the inbox closed only leaves a line in the log.
-/

set_option autoImplicit false

namespace Netsieve

variable {σ : Signature}

namespace Pending

/-- Makes a delivery. -/
def arrive (cb : Callbacks σ) (p : Pending) : Run σ Unit := do
  match ← p.network.handOver cb p.address p.envelope with
  | .ok _ => pure ()
  | .error error => emit (.deliveryFailed p.envelope error)

end Pending

/-- The first moment after `now` and up to `limit` at which a delivery is due. -/
def nextDue? (now limit : Nat) (pending : List Pending) :
    Option { due // now < due ∧ due ≤ limit } :=
  pending.foldl (fun best p =>
    if h : now < p.due ∧ p.due ≤ limit then
      match best with
      | none => some ⟨p.due, h⟩
      | some due => if p.due < due.1 then some ⟨p.due, h⟩ else some due
    else best) none

/-- Makes all deliveries that are due, in the order they were sent. -/
def deliverDue (cb : Callbacks σ) (now : Nat) : Run σ Unit := do
  let w ← get
  -- What is due is taken out first. Whatever the sinks send on the way is due later, or has
  -- arrived already.
  set { w with clock := now, pending := w.pending.filter fun p => now < p.due }
  (w.pending.filter fun p => p.due ≤ now).forM fun p => isolated (p.arrive cb)

/-- Lets time pass from `now` to `limit`. -/
def advanceFrom (cb : Callbacks σ) (now limit : Nat) : Run σ Unit := fun w =>
  match nextDue? now limit w.pending with
  | none => .ok () { w with clock := limit }
  -- The clock goes from moment to moment, as each may add deliveries for later ones.
  | some ⟨due, _⟩ =>
    match deliverDue cb due w with
    | .ok _ w => advanceFrom cb due limit w
    | .error p w => .error p w
termination_by limit - now
decreasing_by omega

/-- Lets so many milliseconds pass. -/
def advance (cb : Callbacks σ) (ms : Nat) : Run σ Unit := do
  let w ← get
  advanceFrom cb w.clock (w.clock + ms)

/-- What came of waiting for a message. -/
inductive Reception where
  | received (e : Envelope)
  /-- Nothing, and nothing can come any more. -/
  | closed
  | timeout
  deriving DecidableEq

/-- A last look into an inbox, when the time is over. -/
def lastLook (network : NetworkRef) (id : NodeId) : Run σ Reception := fun w =>
  match (w.network network).dequeue? id with
  | some (e, changed) => .ok (.received e) (w.setNetwork network changed)
  | none => .ok .timeout w

/-- Waits from `now` to `limit` for a message in an inbox. Waiting ends when a
message is there, or when the network is no longer `held` and no delivery on its
way keeps it, or when the time is over. A message that arrives at the very end is
still received, but a network that is gone only then has not been noticed. -/
def receiveFrom (cb : Callbacks σ) (held : World σ → Bool) (network : NetworkRef) (id : NodeId)
    (now limit : Nat) : Run σ Reception := fun w =>
  match (w.network network).dequeue? id with
  | some (e, changed) => .ok (.received e) (w.setNetwork network changed)
  -- Nothing waits. It is of use to go on only as long as something may still come.
  | none =>
    if !held w && w.pending.all fun p => p.network ≠ network then .ok .closed w
    else
      match nextDue? now limit w.pending with
      | none => .ok .timeout { w with clock := limit }
      | some ⟨due, _⟩ =>
        match deliverDue cb due w with
        | .ok _ w =>
          if due < limit then receiveFrom cb held network id due limit w
          else lastLook network id w
        | .error p w => .error p w
termination_by limit - now
decreasing_by omega

/-- Waits so many milliseconds for a message in an inbox. -/
def receive (cb : Callbacks σ) (held : World σ → Bool) (network : NetworkRef) (id : NodeId)
    (ms : Nat) : Run σ Reception := do
  let w ← get
  receiveFrom cb held network id w.clock (w.clock + ms)

end Netsieve
