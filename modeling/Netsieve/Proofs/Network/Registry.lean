import Netsieve.Proofs.Network.Box

/-!
# `Netsieve.Proofs.Network.Registry`: every node has an id and an endpoint of its own

The registry of a network is tidy if its nodes stand in the order of their ids and no two of
them have the same endpoint (`Network.Tidy`). Then a node is found by its id and by its
endpoint alike (`Tidy.node?_of_mem`, `Tidy.nodeAt?_of_mem`). A new network is tidy, and
registering nodes and using inboxes keep it so (`Tidy.register`, `Tidy.setInbox`).

A node that is registered is there for good, and so is its endpoint (`Network.Houses`).
-/

set_option autoImplicit false

namespace Netsieve.Network

variable {K : Type}

/-- Nodes are kept by ascending id, and no two of them are reached at the same endpoint. -/
structure Tidy (n : Network K) : Prop where
  ids : n.nodes.Pairwise fun node later => node.id < later.id
  addresses : n.nodes.Pairwise fun node later => node.address ≠ later.address

/-- A node with this id is reached at this endpoint. -/
def Houses (n : Network K) (id : NodeId) (address : Endpoint) : Prop :=
  ∃ node ∈ n.nodes, node.id = id ∧ node.address = address

/-- No inbox is closed. -/
def Opened (n : Network K) : Prop :=
  ∀ node ∈ n.nodes, ∃ queue, node.inbox = .opened queue

/-! ## Looking up nodes -/

/-- Of nodes that differ in something each is the first that is like it in this. -/
theorem find?_of_pairwise {β : Type} [DecidableEq β] {key : Node → β} {nodes : List Node}
    (apart : nodes.Pairwise fun node later => key node ≠ key later) {node : Node}
    (there : node ∈ nodes) : (nodes.find? fun other => key other = key node) = some node := by
  induction nodes with
  | nil => cases there
  | cons first rest ih =>
    obtain ⟨different, apart⟩ := List.pairwise_cons.mp apart
    rcases List.mem_cons.mp there with rfl | there
    · simp
    · rw [List.find?_cons_of_neg (by simpa using different node there), ih apart there]

/-- Every node of a tidy registry is found by its id. -/
theorem Tidy.node?_of_mem {n : Network K} (tidy : n.Tidy) {node : Node} (there : node ∈ n.nodes) :
    n.node? node.id = some node :=
  find?_of_pairwise (tidy.ids.imp UInt32.ne_of_lt) there

/-- Every node of a tidy registry is found at its endpoint. -/
theorem Tidy.nodeAt?_of_mem {n : Network K} (tidy : n.Tidy) {node : Node}
    (there : node ∈ n.nodes) : n.nodeAt? node.address = some node :=
  find?_of_pairwise tidy.addresses there

/-- What is found by an id is a node with that id. -/
theorem mem_of_node? {n : Network K} {id : NodeId} {node : Node} (found : n.node? id = some node) :
    node ∈ n.nodes ∧ node.id = id :=
  ⟨List.mem_of_find?_eq_some found, by simpa using List.find?_some found⟩

/-- What is found at an endpoint is a node that is reached there. -/
theorem mem_of_nodeAt? {n : Network K} {address : Endpoint} {node : Node}
    (found : n.nodeAt? address = some node) : node ∈ n.nodes ∧ node.address = address :=
  ⟨List.mem_of_find?_eq_some found, by simpa using List.find?_some found⟩

/-- A node that is found by its id is reached at its endpoint. -/
theorem houses_of_node? {n : Network K} {id : NodeId} {node : Node}
    (found : n.node? id = some node) : n.Houses id node.address :=
  ⟨node, (mem_of_node? found).1, (mem_of_node? found).2, rfl⟩

/-! ## A new node -/

/-- Putting a node in adds it and keeps the others. -/
theorem insertNode_perm (node : Node) (nodes : List Node) :
    (insertNode node nodes).Perm (node :: nodes) := by
  induction nodes with
  | nil => exact .refl _
  | cons other rest ih =>
    unfold insertNode
    split
    · exact .refl _
    · exact (ih.cons other).trans (.swap node other rest)

/-- A new node stands at its place. -/
theorem pairwise_insertNode {node : Node} {nodes : List Node}
    (ids : nodes.Pairwise fun node later => node.id < later.id)
    (new : ∀ other ∈ nodes, other.id ≠ node.id) :
    (insertNode node nodes).Pairwise fun node later => node.id < later.id := by
  induction nodes with
  | nil => exact List.pairwise_singleton _ _
  | cons other rest ih =>
    obtain ⟨least, ids⟩ := List.pairwise_cons.mp ids
    unfold insertNode
    split
    · next first =>
      refine List.pairwise_cons.mpr ⟨fun later there => ?_, List.pairwise_cons.mpr ⟨least, ids⟩⟩
      rcases List.mem_cons.mp there with rfl | there
      · exact first
      · exact UInt32.lt_trans first (least later there)
    · -- The new node comes after this one, and so do all that follow.
      next last =>
      have before : other.id < node.id :=
        UInt32.lt_of_le_of_ne (UInt32.not_lt.mp last) (new other List.mem_cons_self)
      refine List.pairwise_cons.mpr ⟨fun later there => ?_, ?_⟩
      · rcases List.mem_cons.mp ((insertNode_perm node rest).mem_iff.mp there) with rfl | there
        · exact before
        · exact least later there
      · exact ih ids fun third there => new third (List.mem_cons_of_mem other there)

/-- A registration that is not refused adds one node with an empty inbox. -/
theorem register_ok {n changed : Network K} {id : NodeId} {address : Endpoint}
    (h : n.register id address = .ok changed) :
    n.node? id = none ∧ n.nodeAt? address = none ∧
      changed = { n with nodes := insertNode ⟨id, address, .opened []⟩ n.nodes } := by
  unfold register at h
  cases found : n.node? id with
  | some node => simp [found] at h
  | none =>
    cases owner : n.nodeAt? address with
    | some node => simp [found, owner] at h
    | none =>
      simp only [found, owner, Except.ok.injEq] at h
      exact ⟨rfl, rfl, h.symm⟩

section Register

variable {n changed : Network K} {id : NodeId} {address : Endpoint}
  (registers : n.register id address = .ok changed)
include registers

/-- A registration adds its node, with an empty inbox, and keeps the others. -/
theorem perm_register : changed.nodes.Perm (⟨id, address, .opened []⟩ :: n.nodes) := by
  obtain ⟨-, -, rfl⟩ := register_ok registers
  exact insertNode_perm _ _

/-- A registration leaves the registry tidy, because id and endpoint are new. -/
theorem Tidy.register (tidy : n.Tidy) : changed.Tidy where
  ids := by
    obtain ⟨unknown, -, rfl⟩ := register_ok registers
    refine pairwise_insertNode tidy.ids fun other there => ?_
    simpa using List.find?_eq_none.mp unknown other there
  addresses := by
    obtain ⟨-, free, -⟩ := register_ok registers
    refine (perm_register registers).symm.pairwise ?_ fun h => Ne.symm h
    refine List.pairwise_cons.mpr ⟨fun other there => ?_, tidy.addresses⟩
    simpa [eq_comm] using List.find?_eq_none.mp free other there

/-- A new node has an open inbox. -/
theorem Opened.register (opened : n.Opened) : changed.Opened := by
  intro node there
  rcases List.mem_cons.mp ((perm_register registers).mem_iff.mp there) with rfl | there
  · exact ⟨[], rfl⟩
  · exact opened node there

/-- No node leaves or moves when another one is registered. -/
theorem Houses.register {other : NodeId} {place : Endpoint} (houses : n.Houses other place) :
    changed.Houses other place := by
  obtain ⟨node, there, named, reached⟩ := houses
  exact ⟨node, (perm_register registers).mem_iff.mpr (List.mem_cons_of_mem _ there), named, reached⟩

end Register

/-! ## A change of an inbox -/

section SetInbox

variable {n : Network K} {id : NodeId}

/-- Inboxes do not matter to whether a registry is tidy. -/
theorem Tidy.setInbox (tidy : n.Tidy) (inbox : Inbox) : (n.setInbox id inbox).Tidy where
  ids := by
    refine List.pairwise_map.mpr (tidy.ids.imp fun {node later} before => ?_)
    split <;> split <;> exact before
  addresses := by
    refine List.pairwise_map.mpr (tidy.addresses.imp fun {node later} apart => ?_)
    split <;> split <;> exact apart

/-- An inbox that is set to a queue is open. -/
theorem Opened.setInbox (opened : n.Opened) (queue : List Envelope) :
    (n.setInbox id (.opened queue)).Opened := by
  intro node there
  obtain ⟨other, known, rfl⟩ := List.mem_map.mp there
  split
  · exact ⟨queue, rfl⟩
  · exact opened other known

/-- No node leaves or moves when an inbox is set. -/
theorem Houses.setInbox {other : NodeId} {place : Endpoint} (houses : n.Houses other place)
    (inbox : Inbox) : (n.setInbox id inbox).Houses other place := by
  obtain ⟨node, there, named, reached⟩ := houses
  refine ⟨_, List.mem_map_of_mem there, ?_⟩
  split <;> exact ⟨named, reached⟩

/-- If no inbox is closed, a message can be put into that of every node. -/
theorem Opened.enqueue?_eq (tidy : n.Tidy) (opened : n.Opened) {node : Node}
    (there : node ∈ n.nodes) (e : Envelope) :
    ∃ queue, n.enqueue? node.id e = some (n.setInbox node.id (.opened (queue ++ [e]))) := by
  obtain ⟨queue, inbox⟩ := opened node there
  refine ⟨queue, ?_⟩
  rw [Network.enqueue?, Network.inbox, tidy.node?_of_mem there]
  show (node.inbox.push? e).map _ = _
  rw [inbox]
  rfl

end SetInbox

end Netsieve.Network
