import Netsieve.Proofs.Network.Registry

/-!
# `Netsieve.Proofs.Network.Roster`: a network knows whom it has admitted

`Network.Enrolls` says that a network has become another one by registrations that were
accepted, with the list of these, and by what does not concern ids and endpoints. A network
that was tidy then still is, and its roster is the old one and the new entries, in the order
of the ids (`Enrolls.tidy`, `Enrolls.roster_perm`).

* `Tidy.listing`: what a tidy network answers about its nodes follows from its roster. The
  two lookups, by id and by endpoint, are inverse to each other.
* `register_of_known`, `register_of_taken`, `register_of_free`: what it answers to a
  registration.
-/

set_option autoImplicit false

namespace Netsieve.Network

variable {K : Type}

/-- The nodes with their endpoints, by ascending id. -/
def roster (n : Network K) : List (NodeId × Endpoint) :=
  n.nodes.map fun node => (node.id, node.address)

/-- What a network answers about its nodes is what these registrations have entered.

- `ascending`: the ids are given in order, each once;
- `ids`, `size`: they are those that were registered, and no other;
- `address?`: a node is reached where it was registered;
- `owner?`: the lookups are inverse to each other;
- `apart`: no two nodes have the same endpoint. -/
structure Listing (n : Network K) (entries : List (NodeId × Endpoint)) : Prop where
  ascending : n.ids.Pairwise (· < ·)
  ids : n.ids.Perm (entries.map Prod.fst)
  size : n.size = entries.length
  address? : ∀ id address, n.address? id = some address ↔ (id, address) ∈ entries
  owner? : ∀ id address, n.owner? address = some id ↔ n.address? id = some address
  apart : ∀ id other address, n.address? id = some address →
    n.address? other = some address → id = other

/-! ## The roster and the lookups -/

/-- The roster has the nodes with the endpoints at which they are reached. -/
theorem houses_iff_mem_roster (n : Network K) (id : NodeId) (address : Endpoint) :
    n.Houses id address ↔ (id, address) ∈ n.roster := by
  simp [Houses, roster]

/-- The ids of the roster are those of the network. -/
theorem map_fst_roster (n : Network K) : n.roster.map Prod.fst = n.ids := by
  simp [roster, ids]

/-- In a tidy registry a node is looked up at the one endpoint where it is reached. -/
theorem Tidy.address?_eq_some_iff {n : Network K} (tidy : n.Tidy) (id : NodeId)
    (address : Endpoint) : n.address? id = some address ↔ n.Houses id address := by
  constructor
  · intro found
    obtain ⟨node, there, rfl⟩ := Option.map_eq_some_iff.mp found
    exact houses_of_node? there
  · rintro ⟨node, there, rfl, rfl⟩
    rw [Network.address?, tidy.node?_of_mem there, Option.map_some]

/-- In a tidy registry an endpoint is looked up to the one node that is reached there. -/
theorem Tidy.owner?_eq_some_iff {n : Network K} (tidy : n.Tidy) (id : NodeId)
    (address : Endpoint) : n.owner? address = some id ↔ n.Houses id address := by
  constructor
  · intro found
    obtain ⟨node, there, rfl⟩ := Option.map_eq_some_iff.mp found
    obtain ⟨mem, reached⟩ := mem_of_nodeAt? there
    exact ⟨node, mem, rfl, reached⟩
  · rintro ⟨node, there, rfl, rfl⟩
    rw [Network.owner?, tidy.nodeAt?_of_mem there, Option.map_some]

/-- A tidy network answers as its roster says. -/
theorem Tidy.listing {n : Network K} (tidy : n.Tidy) {entries : List (NodeId × Endpoint)}
    (perm : n.roster.Perm entries) : n.Listing entries where
  ascending := List.pairwise_map.mpr tidy.ids
  ids := by
    rw [← map_fst_roster]
    exact perm.map Prod.fst
  size := by rw [← perm.length_eq, roster, List.length_map, Network.size]
  address? id address := by
    rw [tidy.address?_eq_some_iff, houses_iff_mem_roster, perm.mem_iff]
  owner? id address := by rw [tidy.owner?_eq_some_iff, tidy.address?_eq_some_iff]
  apart id other address first second := by
    rw [tidy.address?_eq_some_iff, ← tidy.owner?_eq_some_iff] at first second
    exact Option.some.inj (first.symm.trans second)

/-! ## Registrations -/

/-- The ids are those under which a node is found. -/
theorem mem_ids_iff (n : Network K) (id : NodeId) : id ∈ n.ids ↔ (n.node? id).isSome = true := by
  simp [ids, node?, List.find?_isSome]

section Register

variable {n : Network K} {id : NodeId} {address : Endpoint}

/-- An id that is taken is refused, whatever the endpoint. -/
theorem register_of_known (known : id ∈ n.ids) :
    n.register id address = .error (.duplicateNode id) := by
  obtain ⟨node, found⟩ := Option.isSome_iff_exists.mp ((mem_ids_iff n id).mp known)
  simp only [register, found]

/-- An endpoint that is taken is refused with its owner, if the id is new. -/
theorem register_of_taken (unknown : id ∉ n.ids) {owner : NodeId}
    (taken : n.owner? address = some owner) :
    n.register id address = .error (.duplicateAddress address owner) := by
  rw [mem_ids_iff, Option.not_isSome_iff_eq_none] at unknown
  obtain ⟨node, found, rfl⟩ := Option.map_eq_some_iff.mp taken
  simp only [register, unknown, found]

/-- A new id with a new endpoint is accepted. -/
theorem register_of_free (unknown : id ∉ n.ids) (free : n.owner? address = none) :
    n.register id address
      = .ok { n with nodes := insertNode ⟨id, address, .opened []⟩ n.nodes } := by
  rw [mem_ids_iff, Option.not_isSome_iff_eq_none] at unknown
  have nobody : n.nodeAt? address = none := Option.map_eq_none_iff.mp free
  simp only [register, unknown, nobody]

end Register

/-! ## A change of an inbox -/

/-- Setting an inbox leaves the roster alone. -/
theorem roster_setInbox (n : Network K) (id : NodeId) (inbox : Inbox) :
    (n.setInbox id inbox).roster = n.roster := by
  unfold roster setInbox
  rw [List.map_map]
  refine List.map_congr_left fun node _ => ?_
  by_cases same : node.id = id <;> simp [same]

/-- Setting an inbox leaves every endpoint alone. -/
theorem address?_setInbox (n : Network K) (id other : NodeId) (inbox : Inbox) :
    (n.setInbox id inbox).address? other = n.address? other := by
  unfold address?
  rw [node?_setInbox, Option.map_map]
  congr 1
  funext node
  by_cases same : node.id = id <;> simp [same]

/-! ## Whom a network has admitted -/

/-- A network has become another one by these registrations and by what does not concern
ids and endpoints.

- `kept`: something else has changed than the nodes;
- `inbox`: an inbox has changed;
- `admitted`: a registration was accepted;
- `trans`: the one after the other. -/
inductive Enrolls : Network K → List (NodeId × Endpoint) → Network K → Prop where
  | kept {n n' : Network K} (nodes : n'.nodes = n.nodes) : Enrolls n [] n'
  | inbox (n : Network K) (id : NodeId) (inbox : Inbox) : Enrolls n [] (n.setInbox id inbox)
  | admitted {n n' : Network K} {id : NodeId} {address : Endpoint}
      (registers : n.register id address = .ok n') : Enrolls n [(id, address)] n'
  | trans {n here n' : Network K} {first second : List (NodeId × Endpoint)}
      (before : Enrolls n first here) (after : Enrolls here second n') :
      Enrolls n (first ++ second) n'

namespace Enrolls

variable {n n' : Network K} {entries : List (NodeId × Endpoint)}

/-- Registrations keep a registry tidy. -/
theorem tidy (h : Enrolls n entries n') (tidy : n.Tidy) : n'.Tidy := by
  induction h with
  | kept nodes => exact ⟨nodes ▸ tidy.ids, nodes ▸ tidy.addresses⟩
  | inbox n id inbox => exact tidy.setInbox inbox
  | admitted registers => exact tidy.register registers
  | trans _ _ first second => exact second (first tidy)

/-- The new entries are added to the roster, and none leaves it. -/
theorem roster_perm (h : Enrolls n entries n') : n'.roster.Perm (n.roster ++ entries) := by
  induction h with
  | kept nodes =>
    rw [List.append_nil, roster, nodes, roster]
  | inbox n id inbox =>
    rw [List.append_nil, roster_setInbox]
  | admitted registers =>
    exact ((perm_register registers).map _).trans (List.perm_append_singleton _ _).symm
  | trans _ _ first second =>
    rw [← List.append_assoc]
    exact second.trans (first.append_right _)

/-- A node that is there stays, and is reached where it was. -/
theorem houses (h : Enrolls n entries n') {id : NodeId} {address : Endpoint}
    (there : n.Houses id address) : n'.Houses id address := by
  rw [houses_iff_mem_roster] at there ⊢
  exact h.roster_perm.mem_iff.mpr (List.mem_append_left _ there)

end Enrolls

end Netsieve.Network
