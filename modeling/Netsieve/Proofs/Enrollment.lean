import Netsieve.Proofs.Delivery.Tally
import Netsieve.Proofs.Network.Roster

/-!
# `Netsieve.Proofs.Enrollment`: who is registered with a network

Nodes are registered by operations and by callbacks, and nothing else adds one. With an
account of what callbacks register (`Callbacks.Enrollment`) every run has a list of the
registrations that were accepted, and a network that was new knows these nodes and no other.

* `Admission`: what a registration answers at any moment, and what it does.
* `enrolls_run`: a run does nothing to the ids and endpoints of a network but register nodes.
* `run_registry`: so after every run the lookups of a network are inverse to each other, every
  registration is answered by what was registered before, and no node ever leaves.
-/

set_option autoImplicit false

namespace Netsieve

variable {σ : Signature}

/-! ## One registration -/

/-- A node has been added to a network, with an empty inbox, and nothing else has happened. -/
structure Admitted (network : NetworkRef) (id : NodeId) (address : Endpoint)
    (w left : World σ) : Prop where
  nodes : (left.network network).nodes.Perm
    (⟨id, address, .opened []⟩ :: (w.network network).nodes)
  rest : left = (w.setNetwork network
    { w.network network with nodes := (left.network network).nodes }).record
      (.nodeRegistered id address)

/-- What registering a node with a network answers, and what it does.

- `known`: an id that is there already is refused, whether or not the endpoint is taken;
- `taken`: the endpoint of another node is refused with that node, if the id is new;
- `free`: if both are new, the node is registered;
- `refused`: a registration that is refused does nothing;
- `admitted`: one that is accepted adds the node, and does nothing else. -/
structure Admission (network : NetworkRef) (id : NodeId) (address : Endpoint) (w : World σ) :
    Prop where
  known : (∃ left, network.register id address w = .ok (.error (.duplicateNode id)) left) ↔
    id ∈ (w.network network).ids
  taken : ∀ owner, (∃ left, network.register id address w
      = .ok (.error (.duplicateAddress address owner)) left) ↔
    id ∉ (w.network network).ids ∧ (w.network network).owner? address = some owner
  free : (∃ left, network.register id address w = .ok (.ok ()) left) ↔
    id ∉ (w.network network).ids ∧ (w.network network).owner? address = none
  refused : ∀ refusal left, network.register id address w = .ok (.error refusal) left → left = w
  admitted : ∀ left, network.register id address w = .ok (.ok ()) left →
    Admitted network id address w left

/-- A registration answers what the network answers. -/
theorem register_of_error {network : NetworkRef} {id : NodeId} {address : Endpoint}
    {w : World σ} {refusal : Refusal}
    (refused : (w.network network).register id address = .error refusal) :
    network.register id address w = .ok (.error refusal) w := by
  simp only [NetworkRef.register, get_then, refused]
  rfl

/-- A registration that the registry accepts is answered by success and noted. -/
theorem register_of_ok {network : NetworkRef} {id : NodeId} {address : Endpoint}
    {w : World σ} {changed : Network σ.Sink}
    (accepted : (w.network network).register id address = .ok changed) :
    network.register id address w
      = .ok (.ok ()) ((w.setNetwork network changed).record (.nodeRegistered id address)) := by
  simp only [NetworkRef.register, get_then, accepted]
  rfl

/-- An accepted registration adds its node and does nothing else. -/
theorem admitted_of_ok {network : NetworkRef} {id : NodeId} {address : Endpoint} {w : World σ}
    {changed : Network σ.Sink}
    (accepted : (w.network network).register id address = .ok changed) :
    Admitted network id address w
      ((w.setNetwork network changed).record (.nodeRegistered id address)) where
  nodes := by
    rw [World.network_record, World.network_setNetwork_self]
    exact Network.perm_register accepted
  rest := by
    obtain ⟨-, -, rfl⟩ := Network.register_ok accepted
    rw [World.network_record, World.network_setNetwork_self]

/-- A registration is answered by whether the id, and then the endpoint, is new. -/
theorem admission (network : NetworkRef) (id : NodeId) (address : Endpoint) (w : World σ) :
    Admission network id address w := by
  -- The id is looked at before the endpoint, so a known id decides alone.
  by_cases known : id ∈ (w.network network).ids
  · have refused : (w.network network).register id address = .error (.duplicateNode id) :=
      Network.register_of_known known
    have answer := register_of_error refused
    exact {
      known := by simp [answer, known]
      taken := by simp [answer, known]
      free := by simp [answer, known]
      refused := by simp +contextual [answer]
      admitted := by simp [answer] }
  · cases owner : (w.network network).owner? address with
    | some owner' =>
      have answer := register_of_error (Network.register_of_taken known owner)
      exact {
        known := by simp [answer, known]
        taken := by simp [answer, known, owner]
        free := by simp [answer, owner]
        refused := by simp +contextual [answer]
        admitted := by simp [answer] }
    | none =>
      have accepted := Network.register_of_free known owner
      have answer := register_of_ok accepted
      exact {
        known := by simp [answer, known]
        taken := by simp [answer, owner]
        free := by simp [answer, known, owner]
        refused := by simp [answer]
        admitted := by
          intro left ends
          rw [answer] at ends
          exact (EStateM.Result.ok.inj ends).2 ▸ admitted_of_ok accepted }

/-! ## An account of all registrations -/

/-- What happens to another network is nothing to this one. -/
theorem enrolls_setNetwork {w : World σ} {other : NetworkRef} {changed : Network σ.Sink}
    {entries : List (NodeId × Endpoint)} (enrolls : (w.network other).Enrolls entries changed)
    (network : NetworkRef) :
    (w.network network).Enrolls (if other = network then entries else [])
      ((w.setNetwork other changed).network network) := by
  split
  · next same =>
    subst same
    rwa [World.network_setNetwork_self]
  · next apart =>
    rw [World.network_setNetwork_of_ne w changed apart]
    exact .kept rfl

/-- What registers nobody with any network registers nobody with this one. -/
theorem enrolls_setNetwork_nil {w : World σ} {other : NetworkRef} {changed : Network σ.Sink}
    (enrolls : (w.network other).Enrolls [] changed) (network : NetworkRef) :
    (w.network network).Enrolls [] ((w.setNetwork other changed).network network) :=
  ite_self (c := other = network) ([] : List (NodeId × Endpoint)) ▸
    enrolls_setNetwork enrolls network

/-- A sink registers nobody. -/
theorem enrolls_setSink (w : World σ) (other : NetworkRef) (sink : Option σ.Sink)
    (network : NetworkRef) :
    (w.network network).Enrolls []
      ((w.setNetwork other { w.network other with sink }).network network) := by
  have kept : (w.network other).Enrolls [] { w.network other with sink } := .kept rfl
  exact enrolls_setNetwork_nil kept network

/-- Between two worlds nothing has happened to the ids and endpoints of a network but
registrations. -/
def NetworkRef.Enrolled (network : NetworkRef) (w w' : World σ) : Prop :=
  ∃ entries, (w.network network).Enrolls entries (w'.network network)

/-- An account of the nodes that callbacks register with a network.

- `entries`: the registrations that a callback makes and that are accepted, in order;
- `enrolls`: a callback makes these and no other. -/
structure Callbacks.Enrollment (cb : Callbacks σ) (network : NetworkRef) where
  entries : Visit σ → List (NodeId × Endpoint)
  enrolls : ∀ visit : Visit σ, (visit.before.network network).Enrolls (entries visit)
    ((visit.after cb).network network)

section Run

variable {cb : Callbacks σ} {network : NetworkRef} (enrollment : cb.Enrollment network)

/-- The registration that was asked for, if it is accepted. -/
def NetworkRef.accepted (network : NetworkRef) (id : NodeId) (address : Endpoint)
    (w : World σ) : List (NodeId × Endpoint) :=
  match network.register id address w with
  | .ok (.ok _) _ => [(id, address)]
  | _ => []

/-- The accepted registrations of an operation. -/
def Operation.enrolled (w : World σ) (op : Operation σ) : List (NodeId × Endpoint) :=
  match op with
  | .register other id address => if other = network then other.accepted id address w else []
  | op => (op.visits cb w).flatMap enrollment.entries

/-- The accepted registrations of a run, in order. -/
abbrev enrolledBy (w : World σ) (ops : List (Operation σ)) : List (NodeId × Endpoint) :=
  collect cb (Operation.enrolled enrollment) w ops

/-- Registrations add up, and networks make none of their own. -/
theorem tally_enrolls : Tally cb (fun w entries w' =>
    (w.network network).Enrolls entries (w'.network network)) enrollment.entries where
  trans := .trans
  idle := by
    intro w w' still
    rw [World.network, World.network, still.networks]
    exact .kept rfl
  inboxes w other id inbox := enrolls_setNetwork_nil (.inbox _ id inbox) network
  visit := enrollment.enrolls

/-- Registering a node enrols it if it is accepted, and leaves every other network alone. -/
theorem enrolls_register (other : NetworkRef) (id : NodeId) (address : Endpoint) (w : World σ) :
    (w.network network).Enrolls (if other = network then other.accepted id address w else [])
      ((worldAfter (other.register id address) w).network network) := by
  cases answer : (w.network other).register id address with
  | error refusal =>
    have ends := register_of_error answer
    have nobody : other.accepted id address w = [] := by rw [NetworkRef.accepted, ends]
    rw [worldAfter_of_ok ends, nobody, ite_self]
    exact .kept rfl
  | ok changed =>
    have ends := register_of_ok answer
    have entered : other.accepted id address w = [(id, address)] := by
      rw [NetworkRef.accepted, ends]
    rw [worldAfter_of_ok ends, entered]
    exact enrolls_setNetwork (.admitted answer) network

/-- An operation enrols what it registers, and what the callbacks register that it brings
about. -/
theorem enrolls_operation (w : World σ) (op : Operation σ) :
    (w.network network).Enrolls (op.enrolled enrollment w)
      ((op.perform cb w).network network) := by
  have tally := tally_enrolls enrollment
  cases op with
  | register other id address => exact enrolls_register other id address w
  | send other e => exact tally.send other e w
  | advance ms => exact tally.advance ms w
  | deliver other address e => exact tally.deliver other address e w
  | take other id => exact tally.take other id w
  | close other id => exact tally.close other id w
  | setSink other sink => exact enrolls_setSink w other (some sink) network
  | clearSink other => exact enrolls_setSink w other none network
  | alter engine step =>
    -- The change of an engine leaves the networks alone, whatever it notes.
    obtain ⟨event, ends⟩ := change_eq engine step w
    rw [Operation.perform, worldAfter_of_ok ends]
    exact .kept rfl

/-- A run enrols what its operations enrol, in order. -/
theorem enrolls_run (w : World σ) (ops : List (Operation σ)) :
    (w.network network).Enrolls (enrolledBy enrollment w ops)
      ((run cb w ops).network network) :=
  (tally_enrolls enrollment).run (enrolls_operation enrollment) w ops

/-- The registry of a network is in order, with these registrations.

- `listing`: its lookups answer what was registered, and are inverse to each other;
- `admission`: it answers a registration by what is registered;
- `closing`: to give up an inbox is nothing to the lookups;
- `lasting`: whatever is done next, no node leaves or moves. -/
structure InOrder (cb : Callbacks σ) (network : NetworkRef)
    (entries : List (NodeId × Endpoint)) (w : World σ) : Prop where
  listing : (w.network network).Listing entries
  admission : ∀ id address, Admission network id address w
  closing : ∀ id, let closed := (Operation.perform cb w (.close network id)).network network
    closed.ids = (w.network network).ids ∧
    (∀ other, closed.address? other = (w.network network).address? other) ∧
    ∀ address, closed.owner? address = (w.network network).owner? address
  lasting : ∀ more id address, (w.network network).address? id = some address →
    ((run cb w more).network network).address? id = some address

include enrollment in
/-- A tidy network is in order, with the entries of its roster. -/
theorem inOrder_of_tidy {w : World σ} (tidy : (w.network network).Tidy)
    {entries : List (NodeId × Endpoint)} (perm : (w.network network).roster.Perm entries) :
    InOrder cb network entries w where
  listing := tidy.listing perm
  admission id address := admission network id address w
  closing id := by
    have closed : (Operation.perform cb w (.close network id)).network network
        = (w.network network).setInbox id .closed := World.network_setNetwork_self w network _
    rw [closed]
    refine ⟨?_, fun other => Network.address?_setInbox _ id other .closed,
      fun address => Network.owner?_setInbox _ id .closed address⟩
    rw [← Network.map_fst_roster, Network.roster_setInbox, Network.map_fst_roster]
  lasting more id address there := by
    -- Whatever is done next enrols nodes at most, and no node is ever taken out.
    have enrolls := enrolls_run enrollment w more
    rw [(enrolls.tidy tidy).address?_eq_some_iff]
    exact enrolls.houses ((tidy.address?_eq_some_iff id address).mp there)

end Run

/-- The registry of a network is in order after every run.

Let a network be added to a world. Then whatever is done with it and with everything else,
and whatever callbacks do meanwhile that does nothing to ids and endpoints but register
nodes, the network knows the nodes whose registration was accepted, each where it was
registered, and no other. Looking up an id and looking up an endpoint are inverse to each
other. A registration is refused for its id if this is there, else for its endpoint if that
is taken, by the node that is found there, and otherwise it adds the node and does nothing
else. No node ever leaves, also if its inbox is given up. -/
theorem run_registry (cb : Callbacks σ) (w : World σ) (engine : EngineRef) (latency : Latency)
    (enrollment : cb.Enrollment (w.addNetwork engine latency).1) (ops : List (Operation σ)) :
    InOrder cb (w.addNetwork engine latency).1
      (enrolledBy enrollment (w.addNetwork engine latency).2 ops)
      (run cb (w.addNetwork engine latency).2 ops) := by
  have enrolls := enrolls_run enrollment (w.addNetwork engine latency).2 ops
  have bare := World.network_addNetwork w engine latency
  have tidy : ((w.addNetwork engine latency).2.network (w.addNetwork engine latency).1).Tidy := by
    rw [bare]
    exact ⟨.nil, .nil⟩
  have perm := enrolls.roster_perm
  rw [bare] at perm
  exact inOrder_of_tidy enrollment (enrolls.tidy tidy) perm

/-! ## A sink that registers a node -/

namespace Enrolling

open Steady (signature letter)

/-- The endpoint of a node. -/
def place (port : UInt16) : Endpoint := ⟨.v4 127 0 0 1, port⟩

/-- Whoever is handed a message registers node 3. -/
def callbacks : Callbacks signature :=
  { Steady.callbacks with
    accept := fun _ _ _ => do
      let _ ← NetworkRef.register ⟨0⟩ 3 (place 3)
      pure () }

/-- The account of these callbacks. -/
def account : callbacks.Enrollment ⟨0⟩ where
  entries
    | .asked _ => []
    | .handed _ _ _ before => NetworkRef.accepted ⟨0⟩ 3 (place 3) before
  enrolls visit := by
    obtain ⟨⟨_ | _, before⟩⟩ | ⟨sink, address, e, before⟩ := visit
    · exact .kept rfl
    · exact .kept rfl
    · have ends : (Visit.handed sink address e before).after callbacks
          = worldAfter (NetworkRef.register ⟨0⟩ 3 (place 3)) before := by
        show worldAfter (NetworkRef.register ⟨0⟩ 3 (place 3) >>= fun _ => pure ()) before = _
        unfold worldAfter
        cases answer : NetworkRef.register ⟨0⟩ 3 (place 3) before with
        | ok said left => rw [bind_of_ok answer]; rfl
        | error p left => rw [bind_of_error answer]; rfl
      rw [ends]
      exact enrolls_register ⟨0⟩ 3 (place 3) before

/-- Node 2 is registered before node 1, which asks for its endpoint first. Then node 1 sends
node 2 a message, and gives up its inbox. -/
def ops : List (Operation signature) :=
  [.register ⟨0⟩ 2 (place 2), .register ⟨0⟩ 1 (place 2), .register ⟨0⟩ 1 (place 1),
    .setSink ⟨0⟩ (), .send ⟨0⟩ letter, .close ⟨0⟩ 1]

/-- Three registrations were accepted, the last of them in the middle of an operation. -/
theorem run_registry_enrolling :
    let bare := (({ memory := [] } : World signature).addNetwork ⟨0⟩ ⟨.zero, .zero⟩).2
    InOrder callbacks ⟨0⟩ [(2, place 2), (1, place 1), (3, place 3)] (run callbacks bare ops) :=
  run_registry callbacks { memory := [] } ⟨0⟩ ⟨.zero, .zero⟩ account ops

end Enrolling

end Netsieve
