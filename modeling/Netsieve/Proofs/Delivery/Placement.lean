import Mathlib.Data.List.Forall2
import Netsieve.Proofs.Network.Roster
import Netsieve.World

/-!
# `Netsieve.Proofs.Delivery.Placement`: a message is put into an inbox

Whatever hands a message over, now or later, with or without the rules, ends at an inbox.
`Placed` says what that means for the inbox and for all else that there is.

* `Placed.setInbox`: a message that is put at the end of an open inbox is placed there.
* `Placed.eq_setInbox`: `Placed` leaves nothing open. There is one world in which a message is
  placed, the one with that inbox changed.
* `placed_of_enqueue?`, `enqueue?_of_placed`: putting a message into an inbox places it.
-/

set_option autoImplicit false

namespace Netsieve

variable {σ : Signature}

/-- A message has been put at the end of the inbox of a node, and nothing else has happened.

- `appended`: the inbox is open, and what was in it is still there, with the message behind it;
- `inboxes`: what other nodes find in their inboxes is what it was;
- `roster`: the same nodes are there at the same endpoints;
- `alike`: if nodes should share the id, they share the inbox;
- `others`: each node with another id is as it was, at its place;
- `rest`: nothing but nodes has changed in the network, so that its engine, its latency and its
  sink are the same;
- `networks`, `size`: nor have the other networks, and there is no new one;
- `world`: nor has anything else, be it engines, the clock, what is on its way, the log or what
  callbacks remember. -/
structure Placed (network : NetworkRef) (id : NodeId) (e : Envelope) (w left : World σ) :
    Prop where
  appended : ∃ queue, (w.network network).box? id = some (.opened queue) ∧
    (left.network network).box? id = some (.opened (queue ++ [e]))
  inboxes : ∀ other, other ≠ id →
    (left.network network).box? other = (w.network network).box? other
  roster : (left.network network).roster = (w.network network).roster
  alike : ∀ node ∈ (left.network network).nodes, node.id = id →
    (left.network network).box? id = some node.inbox
  others : List.Forall₂ (fun before after => before.id ≠ id → after = before)
    (w.network network).nodes (left.network network).nodes
  rest : left.network network
    = { w.network network with nodes := (left.network network).nodes }
  networks : ∀ other, other ≠ network → left.network other = w.network other
  size : left.networks.size = w.networks.size
  world : left = { w with networks := left.networks }

namespace Placed

variable {network : NetworkRef} {id : NodeId} {e : Envelope} {w left : World σ}

/-- A network in which a node has an inbox is one of those that were added to the world. -/
theorem lt_size_of_box? {inbox : Inbox} (box : (w.network network).box? id = some inbox) :
    network.index < w.networks.size := by
  rcases Nat.lt_or_ge network.index w.networks.size with inside | beyond
  · exact inside
  · -- Beyond the table there is the default network, which has no nodes.
    rw [World.network, Table.get_of_size_le _ beyond] at box
    cases box

/-- A message that is put at the end of an open inbox is put there and nowhere else. -/
theorem setInbox {queue : List Envelope}
    (box : (w.network network).box? id = some (.opened queue)) (e : Envelope) :
    Placed network id e w (w.setNetwork network
      ((w.network network).setInbox id (.opened (queue ++ [e])))) := by
  -- The inbox afterwards is the one that was set, because there was one before.
  have own := Network.box?_setInbox_self (w.network network) id (.opened (queue ++ [e]))
  rw [box, Option.map_some] at own
  exact {
    appended := ⟨queue, box, by rw [World.network_setNetwork_self, own]⟩
    inboxes := fun other apart => by
      rw [World.network_setNetwork_self, Network.box?_setInbox_of_ne _ _ apart]
    roster := by rw [World.network_setNetwork_self, Network.roster_setInbox]
    alike := fun node there named => by
      rw [World.network_setNetwork_self] at there ⊢
      obtain ⟨before, -, rfl⟩ := List.mem_map.mp there
      rw [own]
      split
      · rfl
      · next apart => rw [if_neg apart] at named; exact absurd named apart
    others := by
      rw [World.network_setNetwork_self]
      refine List.forall₂_map_right_iff.mpr (List.forall₂_same.mpr fun node _ apart => ?_)
      exact if_neg apart
    rest := by
      rw [World.network_setNetwork_self]
      rfl
    networks := fun other apart => World.network_setNetwork_of_ne w _ apart.symm
    size := by
      have inside := lt_size_of_box? box
      rw [World.setNetwork, Table.size_set]
      omega
    world := rfl }

/-- If only the nodes with an id have changed, and they in nothing but their inbox, then that
inbox was set. -/
theorem nodes_eq_map {before after : List Node} {inbox : Inbox}
    (others : List.Forall₂ (fun before after => before.id ≠ id → after = before) before after)
    (roster : after.map (fun node => (node.id, node.address))
      = before.map fun node => (node.id, node.address))
    (alike : ∀ node ∈ after, node.id = id → node.inbox = inbox) :
    after = before.map fun node => if node.id = id then { node with inbox } else node := by
  induction others with
  | nil => rfl
  | @cons node node' before after kept _ ih =>
    obtain ⟨entry, entries⟩ := List.cons.inj roster
    rw [List.map_cons, ← ih entries fun other there => alike other (List.mem_cons_of_mem _ there)]
    congr 1
    split
    · next named =>
      -- All fields of the node are told: id and endpoint by the roster, the inbox by
      -- `alike`.
      obtain ⟨sameId, sameAddress⟩ := Prod.mk.inj entry
      have filled := alike node' List.mem_cons_self (sameId.trans named)
      cases node'
      cases filled
      cases sameId
      cases sameAddress
      rfl
    · next apart => exact kept apart

/-- There is one world in which a message is placed: the one in which the inbox was set to what
was in it with the message behind it. -/
theorem eq_setInbox (placed : Placed network id e w left) :
    ∃ queue, (w.network network).box? id = some (.opened queue) ∧
      left = w.setNetwork network
        ((w.network network).setInbox id (.opened (queue ++ [e]))) := by
  obtain ⟨queue, box, box'⟩ := placed.appended
  refine ⟨queue, box, ?_⟩
  have nodes := nodes_eq_map placed.others placed.roster fun node there named =>
    Option.some.inj ((placed.alike node there named).symm.trans box')
  have changed : left.network network
      = (w.network network).setInbox id (.opened (queue ++ [e])) := by
    rw [placed.rest, nodes, Network.setInbox]
  have inside := lt_size_of_box? box
  -- The tables agree at every position and are of the same size, so they are equal.
  have networks : left.networks = w.networks.set network.index
      ((w.network network).setInbox id (.opened (queue ++ [e]))) := by
    refine Table.eq_of_get ?_ fun i => ?_
    · rw [placed.size, Table.size_set]
      omega
    · by_cases same : i = network.index
      · subst same
        rw [Table.get_set_self, ← changed]
        rfl
      · have apart : (⟨i⟩ : NetworkRef) ≠ network := fun equal => same (congrArg (·.index) equal)
        rw [Table.get_set_of_ne _ _ (Ne.symm same)]
        exact placed.networks ⟨i⟩ apart
  rw [placed.world, networks]
  rfl

end Placed

/-! ## What is done with an inbox -/

section Enqueue

variable {network : NetworkRef} {id : NodeId} {e : Envelope} {w left : World σ}

/-- A message that was put into an inbox is placed. -/
theorem placed_of_enqueue? {changed : Network σ.Sink}
    (put : (w.network network).enqueue? id e = some changed) :
    Placed network id e w (w.setNetwork network changed) := by
  obtain ⟨queue, box, rfl⟩ := Network.enqueue?_eq_some put
  exact .setInbox box e

/-- Wherever a message can be placed it is put. -/
theorem enqueue?_of_placed (placed : Placed network id e w left) :
    ∃ changed, (w.network network).enqueue? id e = some changed ∧
      left = w.setNetwork network changed := by
  obtain ⟨queue, box, rfl⟩ := placed.eq_setInbox
  refine ⟨_, ?_, rfl⟩
  rw [Network.enqueue?, Network.inbox_eq, box]
  rfl

end Enqueue

end Netsieve
