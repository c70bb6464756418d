import Netsieve.Proofs.Delivery.Trail
import Netsieve.Proofs.Operation

/-!
# `Netsieve.Proofs.Delivery.Tally`: accounts of what happens in a run

Some things add up while messages are sent and time passes: the changes of an engine, the
nodes that are registered with a network. Networks contribute nothing to them when they put
messages into inboxes or on their way. What is contributed comes from the callbacks that run
meanwhile, `Operation.visits`, and from some operations themselves.

A `Tally` relates two worlds by a list of contributions. If it adds up, allows for what
networks do, and knows what each visit contributes, then it knows what each operation
contributes by its visits (`Tally.send`, `Tally.advance`), and what a whole run does
(`Tally.run`).
-/

set_option autoImplicit false

namespace Netsieve

variable {σ : Signature} {β : Type}

/-- The callbacks that are run in the course of an operation. -/
def Operation.visits (cb : Callbacks σ) (w : World σ) : Operation σ → List (Visit σ)
  | .send network e => network.visits cb e w
  | .advance ms => (Operation.late cb w (.advance ms)).flatMap Handover.visits
  | _ => []

/-- An account that adds up and to which networks contribute nothing of their own.

- `trans`: what is contributed first comes first;
- `idle`: time passes, parcels are put on their way, something is noted in the log;
- `inboxes`: messages are put into an inbox or taken out of it, or it is given up;
- `visit`: a callback is run. -/
structure Tally (cb : Callbacks σ) (R : World σ → List β → World σ → Prop)
    (visited : Visit σ → List β) : Prop where
  trans : ∀ {a b c first second}, R a first b → R b second c → R a (first ++ second) c
  idle : ∀ {w w'}, World.Idle w w' → R w [] w'
  inboxes : ∀ (w : World σ) network id inbox,
    R w [] (w.setNetwork network ((w.network network).setInbox id inbox))
  visit : ∀ visit : Visit σ, R visit.before (visited visit) (visit.after cb)

namespace Tally

variable {cb : Callbacks σ} {R : World σ → List β → World σ → Prop}
  {visited : Visit σ → List β} (tally : Tally cb R visited)
include tally

/-- To contribute nothing is a relation that can be chained. -/
theorem frame : Frame fun w w' => R w [] w' where
  refl w := tally.idle (World.Idle.frame.refl w)
  trans first second := tally.trans first second
  record w event := tally.idle (World.Idle.frame.record w event)

/-- A trail contributes what its visits contribute. -/
theorem trail {w w' : World σ} {visits : List (Visit σ)} (trail : Trail cb w visits w') :
    R w (visits.flatMap visited) w' := by
  induction trail with
  | done => exact tally.frame.refl _
  | record event _ ih => exact tally.trans (tally.frame.record _ event) ih
  | visit _ ih => exact tally.trans (tally.visit _) ih

/-- What follows a trail and contributes nothing can be left out. -/
theorem followed {w here w' : World σ} {visits : List (Visit σ)}
    (trail : Trail cb w visits here) (rest : R here [] w') : R w (visits.flatMap visited) w' :=
  List.append_nil (visits.flatMap visited) ▸ tally.trans (tally.trail trail) rest

/-- A handover is tallied by its visits. -/
theorem handover (h : Handover σ) : R h.before (h.visits.flatMap visited) (h.after cb) := by
  obtain ⟨here, trail, ends⟩ := trail_handOver cb h
  refine tally.followed trail ?_
  unfold Handover.after
  generalize h.outcome cb = outcome at ends ⊢
  cases ends with
  | nothing same => exact same ▸ tally.frame.refl here
  | queued id inbox => exact tally.inboxes here _ id inbox

/-- A send is tallied by its visits. -/
theorem send (network : NetworkRef) (e : Envelope) (w : World σ) :
    R w ((network.visits cb e w).flatMap visited) (worldAfter (network.send cb e) w) := by
  obtain ⟨here, trail, ends⟩ := trail_send cb network e w
  refine tally.followed trail ?_
  unfold worldAfter
  generalize network.send cb e w = outcome at ends ⊢
  cases ends with
  | nothing same => exact same ▸ tally.frame.refl here
  | queued id inbox => exact tally.inboxes here network id inbox
  | departed delay p later => exact tally.idle ⟨rfl, rfl, rfl, rfl⟩

/-- Handovers one after the other are tallied by their visits, in that order. -/
theorem linked {hs : List (Handover σ)} {w w' : World σ} (linked : Handover.Linked cb w hs w') :
    R w ((hs.flatMap Handover.visits).flatMap visited) w' := by
  induction hs generalizing w with
  | nil => exact tally.idle linked
  | cons h rest ih =>
    obtain ⟨before, linked⟩ := linked
    have first := tally.trans (tally.idle before) (tally.handover h)
    rw [List.flatMap_cons, List.flatMap_append]
    exact tally.trans first (ih linked)

/-- The passage of time is tallied by the visits of the parcels that arrive. -/
theorem advance (ms : Nat) (w : World σ) :
    R w ((Operation.visits cb w (.advance ms)).flatMap visited)
      (Operation.perform cb w (.advance ms)) :=
  tally.linked (linked_advance cb ms w)

/-- A direct delivery visits nothing. -/
theorem deliver (network : NetworkRef) (address : Endpoint) (e : Envelope) (w : World σ) :
    R w [] (Operation.perform cb w (.deliver network address e)) :=
  leads_deliver network tally.frame tally.inboxes address e w

/-- Taking a message out of an inbox visits nothing. -/
theorem take (network : NetworkRef) (id : NodeId) (w : World σ) :
    R w [] (w.take network id) := by
  unfold World.take
  split
  · next e changed taken =>
    obtain ⟨rest, -, rfl⟩ := Network.dequeue?_eq_some taken
    exact tally.inboxes w network id _
  · exact tally.frame.refl w

/-- Giving up an inbox visits nothing. -/
theorem close (network : NetworkRef) (id : NodeId) (w : World σ) :
    R w [] (Operation.perform cb w (.close network id)) :=
  tally.inboxes w network id .closed

/-- A run contributes what its operations contribute, one after the other. -/
theorem run {told : World σ → Operation σ → List β}
    (each : ∀ w op, R w (told w op) (Operation.perform cb w op)) (w : World σ)
    (ops : List (Operation σ)) : R w (collect cb told w ops) (Netsieve.run cb w ops) := by
  induction ops generalizing w with
  | nil => exact tally.frame.refl w
  | cons op rest ih => exact tally.trans (each w op) (ih (op.perform cb w))

end Tally

end Netsieve
