import Netsieve.Proofs.Enrollment

/-!
# `Netsieve.Proofs.Delivery.Direct`: straight into an inbox

`NetworkRef.deliver` looks for the node at an endpoint and puts a message into its inbox. It
does not ask for whom the message is. In a tidy network an endpoint has one node, so it makes
no difference that the node is found by its endpoint and its inbox by its id.

* `directDelivery_of_tidy`: what a direct delivery does in a tidy network, and when it answers
  what. If it succeeds, the message is `Placed`, and nothing else has happened.
* `deliver_direct`: so it does this in every network that can be reached.
-/

set_option autoImplicit false

namespace Netsieve

variable {σ : Signature}

/-- No callback is run between two worlds: nothing is added to any account of what predicates,
suppliers and sinks do. -/
def World.Unvisited (w left : World σ) : Prop :=
  ∀ (cb : Callbacks σ) (β : Type) (R : World σ → List β → World σ → Prop)
    (visited : Visit σ → List β), Tally cb R visited → R w [] left

/-- What a direct delivery answers and does.

- `answers`: it always answers;
- `succeeds`: it succeeds exactly if a node is there with an open inbox, whoever the message is
  for;
- `placed`: then the one node that is there gets the message;
- `refused`: otherwise it does nothing. If nobody is there, that is noted in the log;
- `silent`: in neither case is a callback run. -/
structure DirectDelivery (network : NetworkRef) (address : Endpoint) (e : Envelope) (w : World σ) :
    Prop where
  answers : ∃ answer left, network.deliver address e w = .ok answer left
  succeeds : (∃ left, network.deliver address e w = .ok true left) ↔
    ∃ node ∈ (w.network network).nodes, node.address = address ∧
      ∃ queue, node.inbox = .opened queue
  placed : ∀ left, network.deliver address e w = .ok true left →
    ∃ node ∈ (w.network network).nodes, node.address = address ∧
      (∀ other ∈ (w.network network).nodes, other.address = address → other = node) ∧
      Placed network node.id e w left
  refused : ∀ left, network.deliver address e w = .ok false left →
    left = w ∨ left = w.record (.nobodyAt address)
  silent : ∀ answer left, network.deliver address e w = .ok answer left → World.Unvisited w left

/-! ## In a tidy network -/

section Tidy

variable {network : NetworkRef} {w : World σ}

/-- The inbox of a node of a tidy network is found by its id. -/
theorem Network.Tidy.box?_of_mem {K : Type} {n : Network K} (tidy : n.Tidy) {node : Node}
    (there : node ∈ n.nodes) : n.box? node.id = some node.inbox := by
  rw [Network.box?, tidy.node?_of_mem there, Option.map_some]

/-- No two nodes of a tidy network are reached at the same endpoint. -/
theorem Network.Tidy.eq_of_address {K : Type} {n : Network K} (tidy : n.Tidy)
    {node other : Node} (there : node ∈ n.nodes) (known : other ∈ n.nodes)
    (same : other.address = node.address) : other = node := by
  have found := tidy.nodeAt?_of_mem known
  rw [same, tidy.nodeAt?_of_mem there] at found
  exact (Option.some.inj found).symm

/-- A direct delivery runs no callback. -/
theorem unvisited_deliver {address : Endpoint} {e : Envelope} {answer : Bool} {left : World σ}
    (ends : network.deliver address e w = .ok answer left) : World.Unvisited w left := by
  intro cb β R visited tally
  have kept := tally.deliver network address e w
  rwa [Operation.perform, worldAfter_of_ok ends] at kept

/-- A delivery that answers no and does nothing is in order if nobody there has an open inbox. -/
theorem directDelivery_of_refused {address : Endpoint} {e : Envelope} {here : World σ}
    (ends : network.deliver address e w = .ok false here)
    (nothing : here = w ∨ here = w.record (.nobodyAt address))
    (closed : ∀ node ∈ (w.network network).nodes, node.address = address →
      ∀ queue, node.inbox ≠ .opened queue) : DirectDelivery network address e w where
  answers := ⟨false, here, ends⟩
  succeeds := by
    rw [ends]
    constructor
    · rintro ⟨left, ⟨⟩⟩
    · rintro ⟨node, there, reached, queue, opened⟩
      exact absurd opened (closed node there reached queue)
  placed := by
    rw [ends]
    rintro left ⟨⟩
  refused := by
    rw [ends]
    rintro left ⟨⟩
    exact nothing
  silent _ _ := unvisited_deliver

/-- What a direct delivery does in a tidy network. -/
theorem directDelivery_of_tidy (tidy : (w.network network).Tidy) (address : Endpoint)
    (e : Envelope) : DirectDelivery network address e w := by
  have ends := deliver_ends network address e w
  generalize answer : network.deliver address e w = outcome at ends
  cases ends with
  | nobody empty =>
    have nobody : ∀ node ∈ (w.network network).nodes, node.address ≠ address := by
      simpa [Network.nodeAt?] using empty
    refine directDelivery_of_refused answer (.inr rfl) fun node there reached => ?_
    exact absurd reached (nobody node there)
  | @lost node found closed =>
    obtain ⟨there, reached⟩ := Network.mem_of_nodeAt? found
    -- In a tidy registry any node at the endpoint is the one that was found, and that one
    -- has a closed inbox.
    refine directDelivery_of_refused answer (.inl rfl) fun other known same queue opened => ?_
    have box := tidy.box?_of_mem known
    rw [opened, tidy.eq_of_address there known (same.trans reached.symm)] at box
    cases box.symm.trans closed
  | @queued node left found placed =>
    obtain ⟨there, reached⟩ := Network.mem_of_nodeAt? found
    obtain ⟨queue, box, -⟩ := placed.appended
    -- `placed` speaks of the inbox under the id. In a tidy registry that is the inbox of
    -- the node.
    have opened : node.inbox = .opened queue :=
      Option.some.inj ((tidy.box?_of_mem there).symm.trans box)
    exact {
      answers := ⟨_, _, answer⟩
      succeeds := ⟨fun _ => ⟨node, there, reached, queue, opened⟩, fun _ => ⟨_, answer⟩⟩
      placed := by
        rw [answer]
        rintro left ⟨⟩
        refine ⟨node, there, reached, fun other known same => ?_, placed⟩
        exact tidy.eq_of_address there known (same.trans reached.symm)
      refused := by
        rw [answer]
        rintro left ⟨⟩
      silent := fun _ _ => unvisited_deliver }

end Tidy

/-- A direct delivery puts a message into the inbox at an endpoint, or does nothing.

Let a network be added to a world. Whatever is done with it and with everything else, and
whatever callbacks do meanwhile that does nothing to ids and endpoints but register nodes: a
direct delivery always answers. It succeeds exactly if a node is registered at the endpoint
and its inbox is open. Then this one node gets the message as the last in its queue, also
if the message names another node as its receiver, and all else is as it was. Otherwise
nothing has happened. In neither case is a predicate, a supplier or a sink run. This goes for
the worlds after a run and for those in the middle of an operation. -/
theorem deliver_direct (cb : Callbacks σ) (w : World σ) (engine : EngineRef) (latency : Latency)
    (enrollment : cb.Enrollment (w.addNetwork engine latency).1) :
    let network := (w.addNetwork engine latency).1
    let start := (w.addNetwork engine latency).2
    (∀ ops address e, DirectDelivery network address e (run cb start ops)) ∧
    ∀ v, network.Enrolled start v → ∀ address e, DirectDelivery network address e v := by
  intro network start
  have bare : (start.network network).Tidy := by
    rw [World.network_addNetwork w engine latency]
    exact ⟨.nil, .nil⟩
  have reached : ∀ v, network.Enrolled start v → ∀ address e,
      DirectDelivery network address e v := by
    rintro v ⟨entries, enrolls⟩ address e
    exact directDelivery_of_tidy (enrolls.tidy bare) address e
  exact ⟨fun ops => reached _ ⟨_, enrolls_run enrollment start ops⟩, reached⟩

/-! ## A message that is left with another node than its receiver -/

namespace Misdirected

open Steady (signature callbacks letter)
open Enrolling (place)

/-- These callbacks register nobody. -/
def account : callbacks.Enrollment ⟨0⟩ where
  entries _ := []
  enrolls visit := by
    obtain ⟨⟨_ | _, before⟩⟩ | ⟨sink, address, e, before⟩ := visit
    · exact .kept rfl
    · exact .kept rfl
    · exact .kept rfl

/-- A world with an engine that drops every message. -/
def base : World signature where
  engines := ⟨#[Engine.register {} (Steady.rule .any (some true) .drop 0).toRuleSpec]⟩
  memory := []

/-- Three nodes are registered, a sink is installed, and node 1 gives up its inbox. -/
def world : World signature :=
  run callbacks (base.addNetwork ⟨0⟩ ⟨.zero, .zero⟩).2
    [.register ⟨0⟩ 1 (place 1), .register ⟨0⟩ 2 (place 2), .register ⟨0⟩ 3 (place 3),
      .setSink ⟨0⟩ (), .close ⟨0⟩ 1]

/-- Node 3 gets a letter for node 2, and there is no way to node 1. Nobody was asked. -/
theorem deliver_direct_misdirected :
    (∃ left, NetworkRef.deliver ⟨0⟩ (place 3) letter world = .ok true left ∧
      (left.network ⟨0⟩).box? 3 = some (.opened [letter]) ∧
      (left.network ⟨0⟩).box? letter.receiver = some (.opened []) ∧
      left.memory = world.memory) ∧
    ∃ left, NetworkRef.deliver ⟨0⟩ (place 1) letter world = .ok false left ∧
      (left = world ∨ left = world.record (.nobodyAt (place 1))) := by
  obtain ⟨direct, -⟩ := deliver_direct callbacks base ⟨0⟩ ⟨.zero, .zero⟩ account
  have third : DirectDelivery ⟨0⟩ (place 3) letter world := direct _ _ _
  have first : DirectDelivery ⟨0⟩ (place 1) letter world := direct _ _ _
  constructor
  · obtain ⟨left, ends⟩ := third.succeeds.mpr
      ⟨⟨3, place 3, .opened []⟩, .tail _ (.tail _ (.head _)), rfl, [], rfl⟩
    obtain ⟨node, there, reached, unique, placed⟩ := third.placed left ends
    -- Which node is at the endpoint is told by `unique`, and not by running the delivery.
    have same : node = ⟨3, place 3, .opened []⟩ :=
      (unique _ (.tail _ (.tail _ (.head _))) rfl).symm
    subst same
    obtain ⟨queue, before, after⟩ := placed.appended
    cases before
    refine ⟨left, ends, after, placed.inboxes 2 (by decide), ?_⟩
    rw [placed.world]
  · obtain ⟨answer, left, ends⟩ := first.answers
    cases answer with
    | false => exact ⟨left, ends, first.refused left ends⟩
    | true =>
      -- Had it been placed, the inbox of node 1 would be open.
      obtain ⟨node, -, -, unique, placed⟩ := first.placed left ends
      have same : ⟨1, place 1, .closed⟩ = node := unique _ (.head _) rfl
      subst same
      obtain ⟨queue, opened, -⟩ := placed.appended
      cases opened

end Misdirected

end Netsieve
