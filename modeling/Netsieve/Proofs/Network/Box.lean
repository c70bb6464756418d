import Netsieve.Network

/-!
# `Netsieve.Proofs.Network.Box`: what becomes of the inbox of one node

`Network.box?` looks at one id of a network: no node may have it, and otherwise there is
the inbox of the node. The operations of a network are told by what they do to the boxes
of all ids.

`BoxStep` is the account of one box over any stretch of time: all that was in it or was
posted to it was taken out of it or is still there, in the same order. That is only lost
when the inbox is closed, and a closed inbox stays closed. Such accounts add up
(`BoxStep.trans`).
-/

set_option autoImplicit false

namespace Netsieve

namespace Network

variable {K : Type}

/-- The inbox of the node with an id, if there is one. -/
def box? (n : Network K) (id : NodeId) : Option Inbox :=
  (n.node? id).map Node.inbox

/-- The inbox of a node that is not there counts as closed. -/
theorem inbox_eq (n : Network K) (id : NodeId) : n.inbox id = (n.box? id).getD .closed := by
  unfold inbox box?
  cases n.node? id <;> rfl

/-- There is an inbox exactly where there is a node. -/
theorem box?_isSome (n : Network K) (id : NodeId) : (n.box? id).isSome = (n.node? id).isSome := by
  unfold box?
  rw [Option.isSome_map]

/-- A node that is found at its endpoint is found by its id. -/
theorem box?_of_nodeAt? {n : Network K} {address : Endpoint} {node : Node}
    (there : n.nodeAt? address = some node) : (n.box? node.id).isSome = true := by
  rw [box?_isSome, node?, List.find?_isSome]
  exact ⟨node, List.mem_of_find?_eq_some there, decide_eq_true rfl⟩

/-! ## A change of one inbox -/

/-- Setting an inbox changes the node that has it, and nothing about the others. -/
theorem node?_setInbox (n : Network K) (id other : NodeId) (inbox : Inbox) :
    (n.setInbox id inbox).node? other
      = (n.node? other).map fun node => if node.id = id then { node with inbox } else node := by
  unfold node? setInbox
  rw [List.find?_map]
  have same_id : ((fun node : Node => decide (node.id = other)) ∘
      fun node => if node.id = id then { node with inbox } else node)
      = fun node => decide (node.id = other) := by
    funext node
    by_cases h : node.id = id <;> simp [h]
  rw [same_id]

/-- The node at an endpoint stays there when an inbox is set. -/
theorem nodeAt?_setInbox (n : Network K) (id : NodeId) (inbox : Inbox) (address : Endpoint) :
    (n.setInbox id inbox).nodeAt? address
      = (n.nodeAt? address).map fun node => if node.id = id then { node with inbox } else node := by
  unfold nodeAt? setInbox
  rw [List.find?_map]
  have same_address : ((fun node : Node => decide (node.address = address)) ∘
      fun node => if node.id = id then { node with inbox } else node)
      = fun node => decide (node.address = address) := by
    funext node
    by_cases h : node.id = id <;> simp [h]
  rw [same_address]

/-- Changing an inbox leaves it to the nodes where they are reached. -/
theorem owner?_setInbox (n : Network K) (id : NodeId) (inbox : Inbox) (address : Endpoint) :
    (n.setInbox id inbox).owner? address = n.owner? address := by
  unfold owner?
  rw [nodeAt?_setInbox]
  cases n.nodeAt? address with
  | none => rfl
  | some node => by_cases h : node.id = id <;> simp [h]

/-- The inbox that is set is the one found afterwards, if there is such a node. -/
theorem box?_setInbox_self (n : Network K) (id : NodeId) (inbox : Inbox) :
    (n.setInbox id inbox).box? id = (n.box? id).map fun _ => inbox := by
  unfold box?
  rw [node?_setInbox]
  cases found : n.node? id with
  | none => rfl
  | some node =>
    have named : node.id = id := by simpa using List.find?_some found
    simp [named]

/-- Setting one inbox leaves every other one alone. -/
theorem box?_setInbox_of_ne (n : Network K) {id other : NodeId} (inbox : Inbox)
    (h : other ≠ id) : (n.setInbox id inbox).box? other = n.box? other := by
  unfold box?
  rw [node?_setInbox]
  cases found : n.node? other with
  | none => rfl
  | some node =>
    have named : node.id = other := by simpa using List.find?_some found
    simp [named, h]

/-- A message is put at the end of an open inbox. -/
theorem enqueue?_eq_some {n changed : Network K} {id : NodeId} {e : Envelope}
    (h : n.enqueue? id e = some changed) :
    ∃ queue, n.box? id = some (.opened queue) ∧
      changed = n.setInbox id (.opened (queue ++ [e])) := by
  unfold enqueue? at h
  rw [inbox_eq] at h
  cases box : n.box? id with
  | none => simp [box, Inbox.push?] at h
  | some inbox =>
    cases inbox with
    | opened queue => exact ⟨queue, rfl, by simpa [box, Inbox.push?] using h.symm⟩
    | closed => simp [box, Inbox.push?] at h

/-- A message is turned away if there is no node or if its inbox is closed. -/
theorem enqueue?_eq_none {n : Network K} {id : NodeId} {e : Envelope}
    (h : n.enqueue? id e = none) : n.box? id = none ∨ n.box? id = some .closed := by
  unfold enqueue? at h
  rw [inbox_eq] at h
  cases box : n.box? id with
  | none => exact .inl rfl
  | some inbox =>
    cases inbox with
    | opened queue => simp [box, Inbox.push?] at h
    | closed => exact .inr rfl

/-- Nothing can be put into an inbox that is closed or not there. -/
theorem enqueue?_of_closed {n : Network K} {id : NodeId} {e : Envelope}
    (h : n.box? id = none ∨ n.box? id = some .closed) : n.enqueue? id e = none := by
  rw [enqueue?, inbox_eq]
  rcases h with box | box <;> rw [box] <;> rfl

/-- A message is taken from the front of an open inbox. -/
theorem dequeue?_eq_some {n changed : Network K} {id : NodeId} {e : Envelope}
    (h : n.dequeue? id = some (e, changed)) :
    ∃ rest, n.box? id = some (.opened (e :: rest)) ∧
      changed = n.setInbox id (.opened rest) := by
  unfold dequeue? at h
  rw [inbox_eq] at h
  -- Only an open inbox that holds something gives an envelope.
  cases box : n.box? id with
  | none => simp [box, Inbox.pop?] at h
  | some inbox =>
    cases inbox with
    | closed => simp [box, Inbox.pop?] at h
    | opened queue =>
      cases queue with
      | nil => simp [box, Inbox.pop?] at h
      | cons first rest =>
        simp only [box, Option.getD_some, Inbox.pop?, Option.map_some, Option.some.injEq,
          Prod.mk.injEq] at h
        obtain ⟨rfl, rfl⟩ := h
        exact ⟨rest, rfl, rfl⟩

/-! ## A new node -/

/-- A node that is put in is found by its id, if the id is new. -/
theorem find?_insertNode_self {node : Node} {nodes : List Node}
    (new : nodes.find? (·.id = node.id) = none) :
    (insertNode node nodes).find? (·.id = node.id) = some node := by
  induction nodes with
  | nil => simp [insertNode]
  | cons other rest ih =>
    have apart : ¬ other.id = node.id := by
      simpa using List.find?_eq_none.mp new other List.mem_cons_self
    rw [List.find?_cons_of_neg (by simpa using apart)] at new
    unfold insertNode
    split
    · simp
    · rw [List.find?_cons_of_neg (by simpa using apart), ih new]

/-- Putting a node in does not hide any other one. -/
theorem find?_insertNode_of_ne {node : Node} {id : NodeId} (h : node.id ≠ id)
    (nodes : List Node) :
    (insertNode node nodes).find? (·.id = id) = nodes.find? (·.id = id) := by
  induction nodes with
  | nil => simp [insertNode, h]
  | cons other rest ih =>
    unfold insertNode
    split
    · rw [List.find?_cons_of_neg (by simpa using h)]
    · rw [List.find?_cons, List.find?_cons, ih]

/-- A registration brings an empty inbox about for a new id, and leaves all others alone. -/
theorem register_eq_ok {n changed : Network K} {id : NodeId} {address : Endpoint}
    (h : n.register id address = .ok changed) :
    n.box? id = none ∧ changed.box? id = some (.opened []) ∧
      ∀ other, other ≠ id → changed.box? other = n.box? other := by
  unfold register at h
  cases found : n.node? id with
  | some node => simp [found] at h
  | none =>
    cases owner : n.nodeAt? address with
    | some node => simp [found, owner] at h
    | none =>
      simp only [found, owner, Except.ok.injEq] at h
      subst h
      refine ⟨by simp [box?, found], ?_, fun other apart => ?_⟩
      · unfold box? node?
        rw [@find?_insertNode_self ⟨id, address, .opened []⟩ n.nodes found]
        rfl
      · unfold box? node?
        rw [@find?_insertNode_of_ne ⟨id, address, .opened []⟩ other (Ne.symm apart)]

end Network

/-! ## The account of a box -/

/-- What was posted to a box and what was taken out of it, between two states of it.

- `absent`: there is still no node, and nothing was posted to it;
- `born`: the node was registered meanwhile;
- `kept`: the inbox is still open;
- `shut`: the inbox is closed. -/
inductive BoxStep (posted taken : List Envelope) : Option Inbox → Option Inbox → Prop where
  | absent (nothing : posted = []) (untouched : taken = []) : BoxStep posted taken none none
  | born {queue : List Envelope} (all : taken ++ queue = posted) :
      BoxStep posted taken none (some (.opened queue))
  | kept {queue queue' : List Envelope} (all : taken ++ queue' = queue ++ posted) :
      BoxStep posted taken (some (.opened queue)) (some (.opened queue'))
  | shut {box : Option Inbox} : BoxStep posted taken box (some .closed)

namespace BoxStep

/-- Nothing has happened to an inbox that is the same. -/
theorem refl (box : Option Inbox) : BoxStep [] [] box box := by
  rcases box with _ | _ | _
  · exact .absent rfl rfl
  · exact .kept (List.append_nil _).symm
  · exact .shut

/-- What is posted and taken first comes before what is posted and taken next. -/
theorem trans {posted posted' taken taken' : List Envelope} {a b c : Option Inbox}
    (first : BoxStep posted taken a b) (second : BoxStep posted' taken' b c) :
    BoxStep (posted ++ posted') (taken ++ taken') a c := by
  -- An inbox that is closed has been forgotten. Otherwise the second step tells which first
  -- steps are possible.
  cases second with
  | shut => exact .shut
  | absent nothing untouched =>
    cases first with
    | absent nothing' untouched' => exact .absent (by simp [*]) (by simp [*])
  | born all =>
    cases first with
    | absent nothing untouched => exact .born (by simp [*])
  | kept all =>
    cases first with
    | born all' =>
      refine .born ?_
      rw [List.append_assoc, all, ← List.append_assoc, all']
    | kept all' =>
      refine .kept ?_
      rw [List.append_assoc, all, ← List.append_assoc, all', List.append_assoc]

/-- A node does not go away. -/
theorem isSome {posted taken : List Envelope} {a b : Option Inbox}
    (h : BoxStep posted taken a b) (there : a.isSome = true) : b.isSome = true := by
  cases h with
  | absent => exact there
  | born => rfl
  | kept => rfl
  | shut => rfl

/-- What was taken out of a box that is open now, and what waits in it, is what was in it
and what was posted to it. -/
theorem account {posted taken queue : List Envelope} {box : Option Inbox}
    (h : BoxStep posted taken box (some (.opened queue))) :
    taken ++ queue = (box.getD .closed).queue ++ posted := by
  cases h with
  | born all => exact all
  | kept all => exact all

end BoxStep

end Netsieve
