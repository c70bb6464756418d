import Netsieve.Proofs.Delivery.Decision
import Netsieve.Proofs.Evaluation.Agreement
import Netsieve.Proofs.Network.Registry
import Netsieve.Proofs.Operation

/-!
# `Netsieve.Proofs.Mirror`: a sink that delivers directly makes no difference

A sink that does nothing but put every message straight into the inbox at its endpoint is
not to be noticed. Two worlds that differ in such a sink and in the log of events are run
side by side (`World.Mirrors`). In one of them a message goes to the inbox of its receiver,
in the other one to the inbox of whoever is at the endpoint that the receiver had when it was
sent. That is the same node, since no two nodes have the same endpoint and no node ever
leaves (`World.Ready`).

* `agrees_handOver`: handing over a message does the same with and without the sink.
* `agrees_send`, `agrees_advanceFrom`: so do sending and the passing of time.
* `run_mirror`: so does a whole run, whose operations have the same answers.
-/

set_option autoImplicit false

namespace Netsieve

variable {σ : Signature}

/-! ## A network with a sink -/

namespace Network

variable {K : Type} (n : Network K) (sink : K)

/-- The same network with a sink. -/
def withSink : Network K :=
  { n with sink := some sink }

/-- A sink does not matter to a registration. -/
theorem register_withSink (id : NodeId) (address : Endpoint) :
    (n.withSink sink).register id address
      = (n.register id address).map fun changed => changed.withSink sink := by
  have known : (n.withSink sink).node? id = n.node? id := rfl
  have owner : (n.withSink sink).nodeAt? address = n.nodeAt? address := rfl
  unfold register
  rw [known, owner]
  cases n.node? id with
  | some _ => rfl
  | none => cases n.nodeAt? address <;> rfl

/-- A sink does not matter to what is put into an inbox. -/
theorem enqueue?_withSink (id : NodeId) (e : Envelope) :
    (n.withSink sink).enqueue? id e
      = (n.enqueue? id e).map fun changed => changed.withSink sink := by
  show ((n.inbox id).push? e).map _ = _
  unfold enqueue?
  cases (n.inbox id).push? e <;> rfl

/-- A sink does not matter to what is taken out of an inbox. -/
theorem dequeue?_withSink (id : NodeId) :
    (n.withSink sink).dequeue? id
      = (n.dequeue? id).map fun (e, changed) => (e, changed.withSink sink) := by
  show ((n.inbox id).pop?).map _ = _
  unfold dequeue?
  cases (n.inbox id).pop? <;> rfl

end Network

/-! ## Worlds that differ in a sink -/

namespace World

/-- Two worlds differ in that a network has a sink in one of them, and in the log of events. -/
structure Mirrors (network : NetworkRef) (sink : σ.Sink) (w w' : World σ) : Prop where
  engines : w'.engines = w.engines
  clock : w'.clock = w.clock
  pending : w'.pending = w.pending
  runtime : w'.hasRuntime = w.hasRuntime
  memory : w'.memory = w.memory
  width : w'.networks.size = w.networks.size
  bare : (w.network network).sink = none
  here : w'.network network = (w.network network).withSink sink
  others : ∀ other, other ≠ network → w'.network other = w.network other

/-- The registry of a network is tidy and no inbox is closed. All that is on its way is sent
through this network, and to the endpoint of its receiver. -/
structure Ready (network : NetworkRef) (w : World σ) : Prop where
  tidy : (w.network network).Tidy
  opened : (w.network network).Opened
  parcels : ∀ p ∈ w.pending, p.network = network ∧
    (w.network network).Houses p.envelope.receiver p.address

/-- Two worlds mirror each other and are ready, and all nodes of a network as it was are
still there. -/
structure Paired (network : NetworkRef) (sink : σ.Sink) (past : Network σ.Sink)
    (w w' : World σ) : Prop where
  mirrors : Mirrors network sink w w'
  ready : w.Ready network
  stays : ∀ id address, past.Houses id address → (w.network network).Houses id address

variable {network : NetworkRef} {sink : σ.Sink} {past : Network σ.Sink} {w w' v v' : World σ}

namespace Mirrors

variable (h : Mirrors network sink w w')
include h

/-- The engines are the same. -/
theorem engine (ref : EngineRef) : w'.engine ref = w.engine ref := by
  rw [World.engine, h.engines, World.engine]

/-- What is recorded in either world does not matter. -/
theorem record (event event' : Event) :
    Mirrors network sink (w.record event) (w'.record event') :=
  ⟨h.engines, h.clock, h.pending, h.runtime, h.memory, h.width, h.bare, h.here, h.others⟩

/-- The network is replaced in both worlds. -/
theorem setNetwork {n : Network σ.Sink} (bare : n.sink = none) :
    Mirrors network sink (w.setNetwork network n) (w'.setNetwork network (n.withSink sink)) where
  engines := h.engines
  clock := h.clock
  pending := h.pending
  runtime := h.runtime
  memory := h.memory
  width := by
    show (w'.networks.set network.index _).size = (w.networks.set network.index _).size
    rw [Table.size_set, Table.size_set, h.width]
  bare := by rwa [network_setNetwork_self]
  here := by rw [network_setNetwork_self, network_setNetwork_self]
  others other apart := by
    rw [network_setNetwork_of_ne _ _ apart.symm, network_setNetwork_of_ne _ _ apart.symm,
      h.others other apart]

end Mirrors

namespace Paired

/-- The two worlds are paired as of now. -/
theorem now (h : Paired network sink past w w') :
    Paired network sink (w.network network) w w' :=
  ⟨h.mirrors, h.ready, fun _ _ there => there⟩

/-- Worlds that are paired since a later time are paired since an earlier one. -/
theorem since (h : Paired network sink past w w')
    (later : Paired network sink (w.network network) v v') : Paired network sink past v v' :=
  ⟨later.mirrors, later.ready, fun id address there =>
    later.stays id address (h.stays id address there)⟩

variable (h : Paired network sink past w w')
include h

/-- What is recorded in either world does not matter. -/
theorem record (event event' : Event) :
    Paired network sink past (w.record event) (w'.record event') :=
  ⟨h.mirrors.record event event', ⟨h.ready.tidy, h.ready.opened, h.ready.parcels⟩, h.stays⟩

/-- Nothing has happened to networks and to what is on its way. -/
theorem of_aloof (mirrors : Mirrors network sink v v') (aloof : Aloof w v) :
    Paired network sink past v v' := by
  have same : v.network network = w.network network := network_of_aloof aloof network
  refine ⟨mirrors, ⟨same ▸ h.ready.tidy, same ▸ h.ready.opened, ?_⟩, same ▸ h.stays⟩
  rw [aloof.calm.pending, same]
  exact h.ready.parcels

/-- The network is replaced by one in which every node is where it was. -/
theorem setNetwork {n : Network σ.Sink} (bare : n.sink = none) (tidy : n.Tidy)
    (opened : n.Opened)
    (kept : ∀ id address, (w.network network).Houses id address → n.Houses id address) :
    Paired network sink past (w.setNetwork network n)
      (w'.setNetwork network (n.withSink sink)) where
  mirrors := h.mirrors.setNetwork bare
  ready := by
    refine ⟨by rwa [network_setNetwork_self], by rwa [network_setNetwork_self], fun p there => ?_⟩
    obtain ⟨through, houses⟩ := h.ready.parcels p there
    rw [network_setNetwork_self]
    exact ⟨through, kept _ _ houses⟩
  stays id address there := by
    rw [network_setNetwork_self]
    exact kept id address (h.stays id address there)

/-- An inbox is filled or emptied. -/
theorem setInbox (id : NodeId) (queue : List Envelope) :
    Paired network sink past
      (w.setNetwork network ((w.network network).setInbox id (.opened queue)))
      (w'.setNetwork network (((w.network network).setInbox id (.opened queue)).withSink sink)) :=
  h.setNetwork h.mirrors.bare (h.ready.tidy.setInbox _) (h.ready.opened.setInbox queue)
    fun _ _ houses => houses.setInbox _

/-- A message can be put into the inbox of every node, in both worlds. -/
theorem enqueue? {node : Node} (there : node ∈ (w.network network).nodes) (e : Envelope) :
    ∃ queue, (w.network network).enqueue? node.id e
        = some ((w.network network).setInbox node.id (.opened (queue ++ [e]))) ∧
      (w'.network network).enqueue? node.id e
        = some (((w.network network).setInbox node.id (.opened (queue ++ [e]))).withSink sink) := by
  obtain ⟨queue, put⟩ := h.ready.opened.enqueue?_eq h.ready.tidy there e
  refine ⟨queue, put, ?_⟩
  rw [h.mirrors.here, Network.enqueue?_withSink, put]
  rfl

/-- The same node is found at an endpoint. -/
theorem nodeAt? (address : Endpoint) :
    (w'.network network).nodeAt? address = (w.network network).nodeAt? address := by
  rw [h.mirrors.here]
  rfl

/-- An engine is replaced. -/
theorem setEngine (ref : EngineRef) (e : Engine σ.Predicate σ.Supplier) :
    Paired network sink past (w.setEngine ref e) (w'.setEngine ref e) := by
  obtain ⟨engines, clock, pending, runtime, memory, width, bare, here, others⟩ := h.mirrors
  refine ⟨⟨?_, clock, pending, runtime, memory, width, bare, here, others⟩, ?_, h.stays⟩
  · show w'.engines.set ref.index e = w.engines.set ref.index e
    rw [engines]
  · exact ⟨h.ready.tidy, h.ready.opened, h.ready.parcels⟩

/-- A moment has come, and some of what was on its way still is. -/
theorem reach (now : Nat) {rest rest' : List Pending} (same : rest' = rest)
    (fewer : ∀ p ∈ rest, p ∈ w.pending) :
    Paired network sink past { w with clock := now, pending := rest }
      { w' with clock := now, pending := rest' } := by
  obtain ⟨engines, -, -, runtime, memory, width, bare, here, others⟩ := h.mirrors
  refine ⟨⟨engines, rfl, same, runtime, memory, width, bare, here, others⟩, ?_, h.stays⟩
  exact ⟨h.ready.tidy, h.ready.opened, fun p there => h.ready.parcels p (fewer p there)⟩

/-- One more message is put on its way. -/
theorem post {p : Pending} (through : p.network = network)
    (houses : past.Houses p.envelope.receiver p.address) :
    Paired network sink past { w with pending := w.pending ++ [p] }
      { w' with pending := w'.pending ++ [p] } := by
  obtain ⟨engines, clock, pending, runtime, memory, width, bare, here, others⟩ := h.mirrors
  refine ⟨⟨engines, clock, ?_, runtime, memory, width, bare, here, others⟩, ?_, h.stays⟩
  · show w'.pending ++ [p] = w.pending ++ [p]
    rw [pending]
  · refine ⟨h.ready.tidy, h.ready.opened, List.forall_mem_append.mpr ⟨h.ready.parcels, ?_⟩⟩
    rintro p (_ | ⟨_, ⟨⟩⟩)
    exact ⟨through, h.stays _ _ houses⟩

end Paired

end World

open World (Mirrors Paired)

/-! ## Callbacks and the sink -/

/-- Predicates and suppliers have nothing to do with networks, and go neither by the log of events
nor by whether the network has this sink. The sink puts every message straight into the inbox at
its endpoint. -/
structure Callbacks.Reinjects (cb : Callbacks σ) (network : NetworkRef) (sink : σ.Sink) :
    Prop where
  aloof : cb.Within World.Aloof
  blind : Callbacks.Agree (Mirrors network sink) cb cb
  accept : ∀ address e, cb.accept sink address e = do
    let _ ← network.deliver address e
    pure ()

section Reinjects

variable {cb : Callbacks σ} {network : NetworkRef} {sink : σ.Sink} {past : Network σ.Sink}

/-- If worlds mirror each other after a program that leaves networks alone, they are paired. -/
theorem agrees_of_aloof {α : Type} {program : Run σ α}
    (blind : Agrees (Mirrors network sink) program program) (aloof : Leads World.Aloof program) :
    Agrees (Paired network sink past) program program := by
  intro w w' same
  have ends := blind w w' same.mirrors
  have kept := aloof w
  unfold worldAfter at kept
  generalize program w = outcome, program w' = outcome' at ends kept
  cases ends with
  | ok a left => exact .ok a (same.of_aloof left kept)
  | error p left => exact .error p (same.of_aloof left kept)

/-- Programs whose ends are paired with where they began are paired with what was before. -/
theorem agrees_of_now {α : Type} {program program' : Run σ α}
    (h : ∀ w w', Paired network sink past w w' →
      Outcome.Matches (Paired network sink (w.network network)) (program w) (program' w')) :
    Agrees (Paired network sink past) program program' := by
  intro w w' same
  have ends := h w w' same
  generalize program w = outcome, program' w' = outcome' at ends
  cases ends with
  | ok a left => exact .ok a (same.since left)
  | error p left => exact .error p (same.since left)

/-- Evaluations do not see a sink. -/
theorem World.Paired.sight (ref : EngineRef) :
    Sight (Paired network sink past) ref fun _ => True where
  rules same := by rw [same.mirrors.engine ref]
  inForce _ _ _ := trivial
  flags same _ _ := by rw [same.mirrors.engine ref]
  record event same := same.record event event

/-! ## What does not ask callbacks -/

/-- A registration ends in the same way in both worlds. -/
theorem agrees_register (id : NodeId) (address : Endpoint) :
    Agrees (Paired network sink past) (network.register id address)
      (network.register id address : Run σ _) := by
  intro w w' same
  simp only [NetworkRef.register, get_then, same.mirrors.here, Network.register_withSink]
  cases registers : (w.network network).register id address with
  | error refusal => exact .ok _ same
  | ok changed =>
    have bare : changed.sink = none := by
      obtain ⟨-, -, rfl⟩ := Network.register_ok registers
      exact same.mirrors.bare
    refine .ok _ (Paired.record ?_ _ _)
    exact same.setNetwork bare (same.ready.tidy.register registers)
      (same.ready.opened.register registers) fun _ _ houses => houses.register registers

/-- A direct delivery ends in the same way in both worlds. -/
theorem agrees_deliver (address : Endpoint) (e : Envelope) :
    Agrees (Paired network sink past) (network.deliver address e)
      (network.deliver address e : Run σ _) := by
  intro w w' same
  simp only [NetworkRef.deliver, get_then, same.nodeAt? address]
  cases found : (w.network network).nodeAt? address with
  | none => exact .ok _ (same.record _ _)
  | some node =>
    obtain ⟨queue, put, put'⟩ := same.enqueue? (Network.mem_of_nodeAt? found).1 e
    simp only [put, put']
    exact .ok _ (same.setInbox node.id _)

/-- The change of an engine ends in the same way in both worlds. -/
theorem agrees_alter (ref : EngineRef) (change : Engine.Change σ.Predicate σ.Supplier) :
    Agrees (Paired network sink past) (ref.change change) (ref.change change) := by
  intro w w' same
  obtain ⟨event, ends⟩ := change_eq ref change w
  obtain ⟨event', ends'⟩ := change_eq ref change w'
  rw [ends, ends', same.mirrors.engine ref]
  exact .ok () ((same.setEngine ref _).record event event')

/-! ## Sending -/

variable (reinjects : cb.Reinjects network sink)
include reinjects

/-- A chain says the same in both worlds. -/
theorem agrees_consult (engine : EngineRef) (direction : Direction) (e : Envelope) :
    Agrees (Paired network sink past) (NetworkRef.consult cb engine direction e)
      (NetworkRef.consult cb engine direction e) := by
  have agree : Callbacks.Agree (Paired network sink past) cb cb :=
    ⟨fun p e => agrees_of_aloof (reinjects.blind.test p e) (reinjects.aloof.test p e),
      fun s e => agrees_of_aloof (reinjects.blind.supply s e) (reinjects.aloof.supply s e)⟩
  refine .bind (agrees_evaluate (Paired.sight engine) agree direction e) ?_
  intro verdict
  cases verdict.permits with
  | true => exact .pure _
  | false => exact .bind (fun _ _ same => .ok () (same.record _ _)) fun _ => .pure _

/-- A message for a node that has long been there is put into the inbox of this node, with and
without the sink. -/
theorem agrees_handOver {e : Envelope} {address : Endpoint}
    (houses : past.Houses e.receiver address) :
    Agrees (Paired network sink past) (network.handOver cb address e)
      (network.handOver cb address e) := by
  intro w w' same
  obtain ⟨node, there, named, reached⟩ := same.stays _ _ houses
  obtain ⟨queue, put, put'⟩ := same.enqueue? there e
  -- The sink looks for the node at the endpoint, and there is no other one.
  have found : (w'.network network).nodeAt? address = some node :=
    (same.nodeAt? address).trans (reached ▸ same.ready.tidy.nodeAt?_of_mem there)
  have installed : (w'.network network).sink = some sink := by
    rw [same.mirrors.here]
    rfl
  have taken : cb.accept sink address e (w'.record (.delivering e true))
      = .ok () ((w'.record (.delivering e true)).setNetwork network
        (((w.network network).setInbox node.id (.opened (queue ++ [e]))).withSink sink)) := by
    rw [reinjects.accept]
    exact bind_of_ok (deliver_of_node network found put')
  rw [named] at put
  rw [handOver_of_open same.mirrors.bare put, handOver_of_sink installed, bind_of_ok taken, named]
  exact .ok _ ((same.record _ _).setInbox e.receiver _)

/-- A message is forwarded in the same way in both worlds, since the sink puts it where it
would go without. -/
theorem agrees_forward {e : Envelope} {address : Endpoint}
    (houses : past.Houses e.receiver address) (delay : Duration) :
    Agrees (Paired network sink past) (network.forward cb address e delay)
      (network.forward cb address e delay) := by
  cases prompt : delay.isZero with
  | true =>
    unfold NetworkRef.forward
    rw [prompt]
    exact .bind (agrees_handOver reinjects houses) fun outcome => .pure _
  | false =>
    intro w w' same
    cases runtime : w.hasRuntime with
    | true =>
      -- Both networks read the same clock, so that they schedule the same delivery.
      have arrival : Clock.arrival w'.clock delay = Clock.arrival w.clock delay := by
        rw [same.mirrors.clock]
      rw [forward_of_runtime prompt runtime,
        forward_of_runtime prompt (same.mirrors.runtime.trans runtime), arrival]
      exact .ok _ (same.post rfl houses)
    | false =>
      rw [forward_of_frozen prompt runtime,
        forward_of_frozen prompt (same.mirrors.runtime.trans runtime)]
      exact .ok _ same

/-- Sending does the same with and without the sink. -/
theorem agrees_send (e : Envelope) :
    Agrees (Paired network sink past) (network.send cb e) (network.send cb e) := by
  refine agrees_of_now fun w w' same => ?_
  -- All that sending reads of its network is the same with the sink and without.
  have seen : ∀ id, (w'.network network).node? id = (w.network network).node? id := by
    intro id
    rw [same.mirrors.here]
    rfl
  have engine : (w'.network network).engine = (w.network network).engine := by
    rw [same.mirrors.here]
    rfl
  have latency : (w'.network network).latency = (w.network network).latency := by
    rw [same.mirrors.here]
    rfl
  simp only [NetworkRef.send, get_then, seen, engine, latency]
  cases (w.network network).node? e.sender with
  | none => exact .ok _ same.now
  | some sender =>
    cases receives : (w.network network).node? e.receiver with
    | none => exact .ok _ same.now
    | some target =>
      -- The receiver is known, so that later deliveries find its inbox by its address.
      have houses := Network.houses_of_node? receives
      refine Agrees.bind (agrees_consult reinjects _ _ e) (fun outbound => ?_) w w' same.now
      cases outbound with
      | none => exact .pure _
      | some outbound =>
        refine .bind (agrees_consult reinjects _ _ e) fun inbound => ?_
        cases inbound with
        | none => exact .pure _
        | some inbound => exact agrees_forward reinjects houses _

/-! ## Time that passes -/

/-- A parcel arrives in the same way in both worlds. -/
theorem agrees_arrive {p : Pending} (through : p.network = network)
    (houses : past.Houses p.envelope.receiver p.address) :
    Agrees (Paired network sink past) (p.arrive cb) (p.arrive cb) := by
  subst through
  refine .bind (agrees_handOver reinjects houses) fun outcome => ?_
  cases outcome with
  | ok _ => exact .pure ()
  | error refusal => exact fun _ _ same => .ok () (same.record _ _)

/-- What is due is delivered in the same way in both worlds. -/
theorem agrees_deliverDue (now : Nat) :
    Agrees (Paired network sink past) (deliverDue cb now) (deliverDue cb now) := by
  refine agrees_of_now fun w w' same => ?_
  show Outcome.Matches _
    ((List.forM (w.pending.filter fun p => p.due ≤ now) fun p => isolated (p.arrive cb))
      (w.reach now))
    ((List.forM (w'.pending.filter fun p => p.due ≤ now) fun p => isolated (p.arrive cb))
      (w'.reach now))
  -- Both worlds have the same parcels pending, so that the same ones are due.
  have reached : Paired network sink (w.network network) (w.reach now) (w'.reach now) :=
    same.now.reach now (by rw [same.mirrors.pending])
      fun p there => (List.mem_filter.mp there).1
  rw [same.mirrors.pending]
  refine Agrees.forM (fun p there => ?_) _ _ reached
  obtain ⟨through, houses⟩ := same.ready.parcels p (List.mem_filter.mp there).1
  exact (agrees_arrive reinjects through houses).isolated

/-- The passing of time does the same with and without the sink. -/
theorem agrees_advanceFrom (now limit : Nat) :
    Agrees (Paired network sink past) (advanceFrom cb now limit) (advanceFrom cb now limit) := by
  intro w w' same
  -- By induction on the moments at which something is due.
  induction now, w using late.induct cb limit generalizing w' with
  | case1 now w found =>
    rw [advanceFrom_of_none cb found, advanceFrom_of_none cb (same.mirrors.pending ▸ found)]
    exact .ok () (same.reach limit same.mirrors.pending fun _ there => there)
  | case2 now w due inside found ih =>
    have found' : nextDue? now limit w'.pending = some ⟨due, inside⟩ :=
      same.mirrors.pending ▸ found
    have batch := agrees_deliverDue reinjects due w w' same
    rw [deliverDue_eq, deliverDue_eq] at batch
    rw [advanceFrom_of_some cb found, advanceFrom_of_some cb found']
    cases batch with
    | ok _ left => exact ih _ left

end Reinjects

/-! ## Whole runs -/

/-- What a program answers: its value, or the panic that came instead. -/
def Outcome.answer {α : Type} : Outcome σ α → Except Panic α
  | .ok a _ => .ok a
  | .error p _ => .error p

/-- What an operation answers.

- `registered`, `sent`, `delivered`: the answer, or the panic that came instead;
- `took`: what was taken out of an inbox. -/
inductive Reply where
  | registered (answer : Except Panic (Except Refusal Unit))
  | sent (answer : Except Panic (Except Refusal Delivery))
  | delivered (answer : Except Panic Bool)
  | took (oldest : Option Envelope)

namespace Operation

/-- The answer to an operation, if it has one. -/
def reply? (cb : Callbacks σ) (w : World σ) : Operation σ → Option Reply
  | .register network id address =>
    some (.registered (Outcome.answer (network.register id address w)))
  | .send network e => some (.sent (Outcome.answer (network.send cb e w)))
  | .deliver network address e =>
    some (.delivered (Outcome.answer (network.deliver address e w)))
  | .take network id => some (.took (((w.network network).dequeue? id).map Prod.fst))
  | _ => none

/-- The answers to a row of operations, one after the other. -/
def replies (cb : Callbacks σ) (w : World σ) (ops : List (Operation σ)) : List (Option Reply) :=
  collect cb (fun w op => [op.reply? cb w]) w ops

/-- Time passes, an engine is changed, or something is done to this network, but neither to its
sink nor so that an inbox is closed. -/
def Plain (network : NetworkRef) : Operation σ → Prop
  | .register other _ _ => other = network
  | .send other _ => other = network
  | .deliver other _ _ => other = network
  | .take other _ => other = network
  | .advance _ => True
  | .alter _ _ => True
  | .setSink _ _ => False
  | .clearSink _ => False
  | .close _ _ => False

end Operation

open Operation (replies)

section Run

variable {cb : Callbacks σ} {network : NetworkRef} {sink : σ.Sink} {past : Network σ.Sink}
  {w w' : World σ}

/-- Outcomes that match have the same answer. -/
theorem answer_matches {α : Type} {R : World σ → World σ → Prop} {outcome outcome' : Outcome σ α}
    (h : Outcome.Matches R outcome outcome') :
    Outcome.answer outcome' = Outcome.answer outcome := by
  cases h <;> rfl

/-- The same message is taken out of an inbox in both worlds. -/
theorem paired_take (same : Paired network sink past w w') (id : NodeId) :
    ((w'.network network).dequeue? id).map Prod.fst
        = ((w.network network).dequeue? id).map Prod.fst ∧
      Paired network sink past (w.take network id) (w'.take network id) := by
  unfold World.take
  rw [same.mirrors.here, Network.dequeue?_withSink]
  cases found : (w.network network).dequeue? id with
  | none => exact ⟨rfl, same⟩
  | some oldest =>
    obtain ⟨rest, -, changed⟩ := Network.dequeue?_eq_some found
    refine ⟨rfl, ?_⟩
    show Paired network sink past (w.setNetwork network oldest.2)
      (w'.setNetwork network (oldest.2.withSink sink))
    rw [changed]
    exact same.setInbox id rest

variable (reinjects : cb.Reinjects network sink)
include reinjects

/-- An operation has the same answer with and without the sink, and leaves paired worlds. -/
theorem paired_perform (same : Paired network sink past w w') {op : Operation σ}
    (plain : op.Plain network) :
    op.reply? cb w' = op.reply? cb w ∧
      Paired network sink past (op.perform cb w) (op.perform cb w') := by
  cases op with
  | register other id address =>
    cases plain
    have ends := agrees_register id address w w' same
    exact ⟨congrArg (some ∘ Reply.registered) (answer_matches ends), world_matches ends⟩
  | send other e =>
    cases plain
    have ends := agrees_send reinjects e w w' same
    exact ⟨congrArg (some ∘ Reply.sent) (answer_matches ends), world_matches ends⟩
  | deliver other address e =>
    cases plain
    have ends := agrees_deliver address e w w' same
    exact ⟨congrArg (some ∘ Reply.delivered) (answer_matches ends), world_matches ends⟩
  | take other id =>
    cases plain
    have ends := paired_take same id
    exact ⟨congrArg (some ∘ Reply.took) ends.1, ends.2⟩
  | advance ms =>
    refine ⟨rfl, ?_⟩
    rw [perform_advance_eq, perform_advance_eq, same.mirrors.clock]
    exact world_matches (agrees_advanceFrom reinjects w.clock (w.clock + ms) w w' same)
  | alter engine change =>
    exact ⟨rfl, world_matches (agrees_alter engine change w w' same)⟩
  | setSink => exact plain.elim
  | clearSink => exact plain.elim
  | close => exact plain.elim

/-- A row of operations has the same answers with and without the sink, and leaves paired
worlds. -/
theorem paired_run {ops : List (Operation σ)} (plain : ∀ op ∈ ops, op.Plain network)
    (same : Paired network sink past w w') :
    replies cb w' ops = replies cb w ops ∧
      Paired network sink past (run cb w ops) (run cb w' ops) := by
  induction ops generalizing w w' with
  | nil => exact ⟨rfl, same⟩
  | cons op rest ih =>
    obtain ⟨reply, left⟩ := paired_perform reinjects same (plain op List.mem_cons_self)
    have later : ∀ other ∈ rest, other.Plain network := fun other there =>
      plain other (List.mem_cons_of_mem op there)
    obtain ⟨others, ends⟩ := ih later left
    refine ⟨?_, ends⟩
    show op.reply? cb w' :: replies cb (op.perform cb w') rest
      = op.reply? cb w :: replies cb (op.perform cb w) rest
    rw [reply, others]

end Run

/-- A new network and the same with a sink are paired. -/
theorem paired_setSink {w : World σ} {network : NetworkRef} {engine : EngineRef}
    {latency : Latency} (there : network.index < w.networks.size)
    (new : w.network network = { engine, latency }) (quiet : w.pending = []) (sink : σ.Sink) :
    Paired network sink (w.network network) w (worldAfter (network.setSink sink) w) where
  mirrors := by
    refine ⟨rfl, rfl, rfl, rfl, rfl, ?_, by rw [new], ?_, fun other apart => ?_⟩
    · show (w.networks.set network.index _).size = w.networks.size
      rw [Table.size_set, Nat.max_eq_left there]
    · exact World.network_setNetwork_self w network _
    · exact World.network_setNetwork_of_ne w _ apart.symm
  ready := by
    refine ⟨?_, ?_, by simp [quiet]⟩
    · rw [new]
      exact ⟨List.Pairwise.nil, List.Pairwise.nil⟩
    · rw [new]
      exact fun _ nobody => nomatch nobody
  stays _ _ there := there

/-- A sink that delivers directly is not to be noticed. Take a new network, and the same one in
which such a sink is installed before anything else happens. Whatever is done to both of them,
as long as no sink is exchanged and no inbox closed, has the same answers. At any time they
have the same nodes with the same messages in their inboxes, and the same is on its way. -/
theorem run_mirror (cb : Callbacks σ) {w : World σ} (quiet : w.pending = []) (engine : EngineRef)
    (latency : Latency) (sink : σ.Sink)
    (reinjects : cb.Reinjects (w.addNetwork engine latency).1 sink) {ops : List (Operation σ)}
    (plain : ∀ op ∈ ops, op.Plain (w.addNetwork engine latency).1) :
    let network := (w.addNetwork engine latency).1
    let bare := (w.addNetwork engine latency).2
    let sunk := worldAfter (network.setSink sink) bare
    replies cb sunk ops = replies cb bare ops ∧
    ∀ first rest, ops = first ++ rest →
      ((run cb sunk first).network network).nodes = ((run cb bare first).network network).nodes ∧
      (run cb sunk first).pending = (run cb bare first).pending := by
  intro network bare sunk
  have inside : network.index < bare.networks.size := by
    show w.networks.size < (w.networks.push _).size
    rw [Table.size_push]
    exact Nat.lt_succ_self _
  -- At first both networks are empty, and nothing is pending.
  have start : Paired network sink (bare.network network) bare sunk :=
    paired_setSink inside (World.network_addNetwork w engine latency) quiet sink
  refine ⟨(paired_run reinjects plain start).1, fun first rest split => ?_⟩
  have early : ∀ op ∈ first, op.Plain network := fun op there =>
    plain op (split ▸ List.mem_append_left rest there)
  obtain ⟨-, now⟩ := paired_run reinjects early start
  refine ⟨?_, now.mirrors.pending⟩
  rw [now.mirrors.here]
  rfl

/-! ## Messages that arrive through a sink -/

namespace Mirrored

open Steady (signature)

/-- Predicates and suppliers note their calls and give their answers. The sink delivers every
message to the first network. -/
def callbacks : Callbacks signature :=
  { Steady.callbacks with
    accept := fun _ address e => do
      let _ ← NetworkRef.deliver ⟨0⟩ address e
      pure () }

/-- The sink of these callbacks re-injects everything. -/
theorem callbacks_reinjects : callbacks.Reinjects ⟨0⟩ () where
  aloof := ⟨Steady.callbacks_aloof.test, Steady.callbacks_aloof.supply⟩
  blind := by
    constructor
    · intro answer e w w' same
      refine .ok answer { same with memory := ?_ }
      show w'.memory ++ _ = w.memory ++ _
      rw [same.memory]
    · intro answer e w w' same
      refine .ok answer { same with memory := ?_ }
      show w'.memory ++ _ = w.memory ++ _
      rw [same.memory]
  accept _ _ := rfl

/-- A world with an engine and without networks. -/
def world : World signature where
  engines := ⟨#[{}]⟩
  hasRuntime := true
  memory := []

/-- A message from node 1 to node 2. -/
def letter (verb : UInt32) : Envelope := ⟨1, 2, Message.new verb []⟩

/-- The first message takes no time, and the second one is on its way for five milliseconds.
Before it arrives, a third one is delivered directly and the first one is taken out. -/
def ops : List (Operation signature) :=
  [.register ⟨0⟩ 1 ⟨.v4 127 0 0 1, 1⟩, .register ⟨0⟩ 2 ⟨.v4 127 0 0 2, 1⟩, .send ⟨0⟩ (letter 1),
    .alter ⟨0⟩ (.register
      (Steady.rule .any (some true) (.delay (.computed (.ofMillis 5))) 0).toRuleSpec),
    .send ⟨0⟩ (letter 2), .deliver ⟨0⟩ ⟨.v4 127 0 0 2, 1⟩ (letter 3), .take ⟨0⟩ 2, .advance 5]

/-- With the sink the first message is in the inbox, too, and the second one arrives as it would
without. -/
theorem run_mirror_mirrored :
    let bare := (world.addNetwork ⟨0⟩ ⟨.zero, .ofSecs 60⟩).2
    let sunk := worldAfter (NetworkRef.setSink ⟨0⟩ ()) bare
    world.pending = [] ∧ callbacks.Reinjects ⟨0⟩ () ∧ (∀ op ∈ ops, op.Plain ⟨0⟩) ∧
    replies callbacks sunk ops
      = [some (.registered (.ok (.ok ()))), some (.registered (.ok (.ok ()))),
        some (.sent (.ok (.ok .delivered))), none,
        some (.sent (.ok (.ok (.delayed (.ofMillis 5))))), some (.delivered (.ok true)),
        some (.took (some (letter 1))), none] ∧
    ((run callbacks sunk ops).network ⟨0⟩).nodes = ((run callbacks bare ops).network ⟨0⟩).nodes ∧
    (run callbacks sunk ops).pending = (run callbacks bare ops).pending := by
  intro bare sunk
  have plain : ∀ op ∈ ops, op.Plain ⟨0⟩ := by
    intro op there
    simp only [ops, List.mem_cons, List.not_mem_nil, or_false] at there
    rcases there with rfl | rfl | rfl | rfl | rfl | rfl | rfl | rfl <;> trivial
  obtain ⟨answers, always⟩ :=
    run_mirror callbacks (rfl : world.pending = []) ⟨0⟩ ⟨.zero, .ofSecs 60⟩ () callbacks_reinjects
      plain
  have whole := always ops [] (List.append_nil ops).symm
  exact ⟨rfl, callbacks_reinjects, plain, answers.trans rfl, whole.1, whole.2⟩

end Mirrored

end Netsieve
