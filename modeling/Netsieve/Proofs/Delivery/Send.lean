import Netsieve.Proofs.Delivery.Placement
import Netsieve.Proofs.Delivery.Ruling

/-!
# `Netsieve.Proofs.Delivery.Send`: how sending and handing over can end

`HandOverEnds` lists the ways in which handing over a message can end: with the sink
that is installed, in the inbox of the receiver, or nowhere, since that is closed.
`SendEnds` does so for sending. What the predicates and suppliers do that are asked on
the way is left open: they lead to some world that they can lead to (`Consulted`).
`DeliverEnds` and `RegisterEnds` are about direct deliveries and new nodes.

What follows about messages is read off these lists (`handOver_ends`, `send_ends`), and
not off the programs. First of all, sending keeps to every relation that its callbacks
keep to, if that allows for what can become of inboxes and for parcels that are put on
their way (`leads_send`).
-/

set_option autoImplicit false

namespace Netsieve

variable {σ : Signature}

/-- Nothing but predicates and suppliers can have been at work between two worlds: the
two are related by all that these keep to. -/
def Consulted (cb : Callbacks σ) (w w' : World σ) : Prop :=
  ∀ R, Frame R → cb.Within R → R w w'

namespace Consulted

variable {cb : Callbacks σ}

/-- Nothing asked is nothing changed. -/
theorem refl (w : World σ) : Consulted cb w w :=
  fun _ frame _ => frame.refl w

/-- Questions one after the other are questions. -/
theorem trans {a b c : World σ} (first : Consulted cb a b) (second : Consulted cb b c) :
    Consulted cb a c :=
  fun R frame within => frame.trans (first R frame within) (second R frame within)

/-- An evaluation asks the callbacks and does nothing else to the world. -/
theorem of_evaluate {engine : EngineRef} {direction : Direction} {e : Envelope} {w : World σ}
    {outcome : Outcome σ Verdict} (answer : engine.evaluate cb direction e w = outcome) :
    Consulted cb w (Outcome.world outcome) := by
  subst answer
  exact fun _ frame within => leads_evaluate frame within engine direction e w

/-- An event may be recorded between two questions. -/
theorem record {w here : World σ} (asked : Consulted cb w here) (event : Event) :
    Consulted cb w (here.record event) :=
  fun R frame within => frame.trans (asked R frame within) (frame.record here event)

end Consulted

section Ends

variable (cb : Callbacks σ) (network : NetworkRef) (e : Envelope)

/-- How handing over a message can end.

- `taken`, `spilt`: if a sink is installed, it gets the message, and may panic;
- `queued`: if there is none, the message is put into the inbox of its receiver;
- `lost`: if that is closed, or there is no such node, the message goes nowhere.

In any case the log says first that the message is being handed over, and whether to a sink. -/
inductive HandOverEnds (address : Endpoint) (w : World σ) :
    Outcome σ (Except Refusal Unit) → Prop where
  | taken {sink : σ.Sink} {w' : World σ} (installed : (w.network network).sink = some sink)
      (takes : cb.accept sink address e (w.record (.delivering e true)) = .ok () w') :
      HandOverEnds address w (.ok (.ok ()) w')
  | spilt {sink : σ.Sink} {p : Panic} {w' : World σ}
      (installed : (w.network network).sink = some sink)
      (takes : cb.accept sink address e (w.record (.delivering e true)) = .error p w') :
      HandOverEnds address w (.error p w')
  | queued {left : World σ} (bare : (w.network network).sink = none)
      (placed : Placed network e.receiver e (w.record (.delivering e false)) left) :
      HandOverEnds address w (.ok (.ok ()) left)
  | lost (bare : (w.network network).sink = none)
      (closed : (w.network network).box? e.receiver = none ∨
        (w.network network).box? e.receiver = some .closed) :
      HandOverEnds address w
        (.ok (.error (.inboxClosed e.receiver)) (w.record (.delivering e false)))

variable {cb} {network} {e} {address : Endpoint} {w : World σ}

/-- A sink gets the message, after that has been noted. -/
theorem handOver_of_sink {sink : σ.Sink} (installed : (w.network network).sink = some sink) :
    network.handOver cb address e w
      = (cb.accept sink address e >>= fun _ => pure (.ok ())) (w.record (.delivering e true)) := by
  simp only [NetworkRef.handOver, get_then, emit_then, installed]
  rfl

/-- Without a sink the message is put into the inbox of its receiver. -/
theorem handOver_of_open {changed : Network σ.Sink} (bare : (w.network network).sink = none)
    (put : (w.network network).enqueue? e.receiver e = some changed) :
    network.handOver cb address e w
      = .ok (.ok ()) ((w.record (.delivering e false)).setNetwork network changed) := by
  simp only [NetworkRef.handOver, get_then, emit_then, bare, World.network_record, put]
  rfl

/-- Without a sink the answer is that the inbox is closed, if the message cannot be put there. -/
theorem handOver_of_closed (bare : (w.network network).sink = none)
    (closed : (w.network network).enqueue? e.receiver e = none) :
    network.handOver cb address e w
      = .ok (.error (.inboxClosed e.receiver)) (w.record (.delivering e false)) := by
  simp only [NetworkRef.handOver, get_then, emit_then, bare, World.network_record, closed]
  rfl

variable (cb) (network) (e) (address) (w)

/-- Handing over a message ends in one of the ways that there are. -/
theorem handOver_ends :
    HandOverEnds cb network e address w (network.handOver cb address e w) := by
  -- A sink comes first. The inbox is looked at only without one.
  cases installed : (w.network network).sink with
  | some sink =>
    rw [handOver_of_sink installed]
    cases takes : cb.accept sink address e (w.record (.delivering e true)) with
    | ok _ w' =>
      rw [bind_of_ok takes]
      exact .taken installed takes
    | error p w' =>
      rw [bind_of_error takes]
      exact .spilt installed takes
  | none =>
    cases put : (w.network network).enqueue? e.receiver e with
    | some changed =>
      rw [handOver_of_open installed put]
      exact .queued installed (placed_of_enqueue? put)
    | none =>
      rw [handOver_of_closed installed put]
      exact .lost installed (Network.enqueue?_eq_none put)

variable {cb} {network} {e} {address} {w}

/-- No two ways of handing over a message are open at once. -/
theorem HandOverEnds.eq {outcome : Outcome σ (Except Refusal Unit)}
    (ends : HandOverEnds cb network e address w outcome) :
    network.handOver cb address e w = outcome := by
  cases ends with
  | taken installed takes =>
    rw [handOver_of_sink installed, bind_of_ok takes]
    rfl
  | spilt installed takes => rw [handOver_of_sink installed, bind_of_error takes]
  | queued bare placed =>
    obtain ⟨changed, put, rfl⟩ := enqueue?_of_placed placed
    exact handOver_of_open bare put
  | lost bare closed => exact handOver_of_closed bare (Network.enqueue?_of_closed closed)

variable (network) (e) (address)

/-- Handing over keeps to what sinks keep to, if that allows for changes of inboxes. -/
theorem leads_handOver {R : World σ → World σ → Prop} (frame : Frame R)
    (accept : ∀ sink address e, Leads R (cb.accept sink address e))
    (inboxes : ∀ (w : World σ) network id inbox,
      R w (w.setNetwork network ((w.network network).setInbox id inbox))) :
    Leads R (network.handOver cb address e) := by
  intro w
  have ends := handOver_ends cb network e address w
  unfold worldAfter
  generalize network.handOver cb address e w = outcome at ends
  cases ends with
  | taken installed takes => exact frame.trans (frame.record w _) ((accept _ _ _).of_ok takes)
  | spilt installed takes => exact frame.trans (frame.record w _) ((accept _ _ _).of_error takes)
  | queued bare placed =>
    obtain ⟨queue, -, rfl⟩ := placed.eq_setInbox
    exact frame.trans (frame.record w _) (inboxes (w.record _) network _ _)
  | lost bare closed => exact frame.record w _

end Ends

/-! ## Sending -/

/-- A parcel that is handed over, and the world `before` that. -/
structure Handover (σ : Signature) where
  parcel : Pending
  before : World σ

/-- The outcome of a handover. -/
def Handover.outcome (cb : Callbacks σ) (h : Handover σ) : Outcome σ (Except Refusal Unit) :=
  h.parcel.network.handOver cb h.parcel.address h.parcel.envelope h.before

/-- The world in which a handover ends. -/
def Handover.after (cb : Callbacks σ) (h : Handover σ) : World σ :=
  Outcome.world (h.outcome cb)

namespace NetworkRef

variable (cb : Callbacks σ) (network : NetworkRef) (e : Envelope)

/-- The handover that sending a message makes before it returns, if it makes one. -/
def prompt (w : World σ) : List (Handover σ) :=
  match network.route cb e w with
  | .ok (.ok (address, delay)) here =>
    if delay.isZero then [⟨⟨here.clock, network, address, e⟩, here⟩] else []
  | _ => []

end NetworkRef

section Send

variable {cb : Callbacks σ} {network : NetworkRef} {e : Envelope}

/-- Nothing but predicates and suppliers is at work until a message has met its ruling. -/
theorem Ruled.consulted {β : Type}
    {asks : EngineRef → Direction → Envelope → World σ → Outcome σ Verdict → List β → Prop}
    (sound : ∀ {engine direction e w outcome items}, asks engine direction e w outcome items →
      engine.evaluate cb direction e w = outcome)
    {w : World σ} {ruling : Ruling σ} {items : List β}
    (ruled : Ruled asks network e w ruling items) :
    Consulted cb w (Outcome.world (ruling.routed e w)) := by
  have asked {engine direction e w outcome items}
      (h : asks engine direction e w outcome items) : Consulted cb w (Outcome.world outcome) :=
    .of_evaluate (sound h)
  cases ruled with
  | unknownSender missing => exact .refl w
  | unknownReceiver known missing => exact .refl w
  | heldBack nodes leaves => exact (asked leaves).record _
  | outboundPanic nodes leaves => exact asked leaves
  | keptOut nodes leaves waits enters => exact ((asked leaves).trans (asked enters)).record _
  | inboundPanic nodes leaves waits enters => exact (asked leaves).trans (asked enters)
  | permitted nodes leaves waits enters => exact (asked leaves).trans (asked enters)

/-- The handover that follows a ruling: there is one if the message is permitted and takes no
time. -/
def Ruling.prompted (network : NetworkRef) (e : Envelope) : Ruling σ → List (Handover σ)
  | .permitted target total here =>
    if total.isZero then [⟨⟨here.clock, network, target.address, e⟩, here⟩] else []
  | _ => []

/-- A message that takes no time is handed over in the world where both chains have let it
pass. -/
theorem prompted_of_zero {target : Node} {total : Duration} {here : World σ}
    (takes : total.isZero = true) : (Ruling.permitted target total here).prompted network e
      = [⟨⟨here.clock, network, target.address, e⟩, here⟩] :=
  if_pos takes

/-- A message that takes time is not handed over while it is sent. -/
theorem prompted_of_slow {target : Node} {total : Duration} {here : World σ}
    (takes : total.isZero = false) :
    (Ruling.permitted target total here).prompted network e = [] :=
  if_neg (Bool.eq_false_iff.mp takes)

/-- The handover that sending a message makes is told by the ruling that the message meets. -/
theorem prompt_of_route {ruling : Ruling σ} {w : World σ}
    (way : network.route cb e w = ruling.routed e w) :
    network.prompt cb e w = ruling.prompted network e := by
  rw [NetworkRef.prompt, way]
  cases ruling <;> rfl

/-- What the rules of a direction answer, with nothing collected. -/
def EngineRef.Answers (cb : Callbacks σ) (engine : EngineRef) (direction : Direction)
    (e : Envelope) (w : World σ) (outcome : Outcome σ Verdict) (_ : List Empty) : Prop :=
  engine.evaluate cb direction e w = outcome

/-- What sending answers for what handing over has answered. -/
def handedOver : Outcome σ (Except Refusal Unit) → Outcome σ (Except Refusal Delivery)
  | .ok (.ok _) w => .ok (.ok .delivered) w
  | .ok (.error refusal) w => .ok (.error refusal) w
  | .error p w => .error p w

/-- How a handover is answered does not change where it ends. -/
theorem world_handedOver (outcome : Outcome σ (Except Refusal Unit)) :
    Outcome.world (handedOver outcome) = Outcome.world outcome := by
  rcases outcome with ⟨_ | _, _⟩ | ⟨_, _⟩ <;> rfl

/-- What is handed over at once is never answered as delayed. -/
theorem handedOver_ne_delayed (outcome : Outcome σ (Except Refusal Unit)) (delay : Duration)
    (w : World σ) : handedOver outcome ≠ .ok (.ok (.delayed delay)) w := by
  rcases outcome with ⟨_ | _, _⟩ | ⟨_, _⟩ <;> simp [handedOver]

variable (cb network e)

/-- How sending a message can end, and which handovers it makes.

- `unknown`: the sender or the receiver is not there;
- `dropped`, `broken`: a rule drops the message, or a predicate or a supplier panics;
- `handed`: the message takes no time and is handed over;
- `late`, `stranded`: it takes time, and is put on its way if time can pass. -/
inductive SendEnds (w : World σ) :
    Outcome σ (Except Refusal Delivery) → List (Handover σ) → Prop where
  | unknown {id : NodeId} (party : id = e.sender ∨ id = e.receiver)
      (missing : (w.network network).node? id = none) :
      SendEnds w (.ok (.error (.unknownNode id)) w) []
  | dropped {direction : Direction} {here : World σ} (asked : Consulted cb w here) :
      SendEnds w (.ok (.ok (.dropped direction)) here) []
  | broken {p : Panic} {here : World σ} (asked : Consulted cb w here) :
      SendEnds w (.error p here) []
  | handed {target : Node} {here : World σ}
      (receiver : (w.network network).node? e.receiver = some target)
      (asked : Consulted cb w here) :
      SendEnds w
        (handedOver (Handover.outcome cb ⟨⟨here.clock, network, target.address, e⟩, here⟩))
        [⟨⟨here.clock, network, target.address, e⟩, here⟩]
  | late {target : Node} {here : World σ} {delay : Duration}
      (receiver : (w.network network).node? e.receiver = some target)
      (asked : Consulted cb w here) (takes : delay.isZero = false)
      (runtime : here.hasRuntime = true) :
      SendEnds w (.ok (.ok (.delayed delay))
        { here with
          pending := here.pending
            ++ [⟨Clock.arrival here.clock delay, network, target.address, e⟩] }) []
  | stranded {here : World σ} (asked : Consulted cb w here)
      (frozen : here.hasRuntime = false) :
      SendEnds w (.ok (.error .noRuntime) here) []

variable {cb network e}

/-- Without a delay, forwarding is handing over. -/
theorem forward_of_zero {address : Endpoint} {delay : Duration} (h : delay.isZero = true)
    (w : World σ) :
    network.forward cb address e delay w
      = handedOver (Handover.outcome cb ⟨⟨w.clock, network, address, e⟩, w⟩) := by
  unfold NetworkRef.forward Handover.outcome
  rw [h]
  show (network.handOver cb address e >>= fun _ => _ : Run σ _) w = _
  cases answer : network.handOver cb address e w with
  | ok said w' =>
    rw [bind_of_ok answer]
    cases said <;> rfl
  | error p w' =>
    rw [bind_of_error answer]
    rfl

/-- With a delay, forwarding puts a parcel at the end of those on their way. -/
theorem forward_of_runtime {address : Endpoint} {delay : Duration} {w : World σ}
    (h : delay.isZero = false) (runtime : w.hasRuntime = true) :
    network.forward cb address e delay w = .ok (.ok (.delayed delay))
      { w with pending := w.pending ++ [⟨Clock.arrival w.clock delay, network, address, e⟩] } := by
  unfold NetworkRef.forward
  rw [h]
  show (if w.hasRuntime then _ else _ : Run σ _) w = _
  rw [if_pos runtime]
  rfl

/-- With a delay and nothing to wait with, forwarding is refused and changes nothing. -/
theorem forward_of_frozen {address : Endpoint} {delay : Duration} {w : World σ}
    (h : delay.isZero = false) (frozen : w.hasRuntime = false) :
    network.forward cb address e delay w = .ok (.error .noRuntime) w := by
  unfold NetworkRef.forward
  rw [h]
  show (if w.hasRuntime then _ else _ : Run σ _) w = _
  rw [frozen]
  rfl

variable (cb network e)

/-- Sending a message ends in one of the ways that there are. -/
theorem send_ends (w : World σ) :
    SendEnds cb network e w (network.send cb e w) (network.prompt cb e w) := by
  -- Nothing has to be collected here: it is enough that every question has an answer.
  obtain ⟨ruling, items, ruled⟩ : ∃ ruling items, Ruled (EngineRef.Answers cb) network e w ruling
      items := exists_ruled (fun _ _ _ _ => ⟨_, [], rfl⟩) network e w
  have way : network.route cb e w = ruling.routed e w := ruled.route_eq id
  have asked : Consulted cb w (Outcome.world (ruling.routed e w)) := ruled.consulted id
  rw [send_eq, prompt_of_route way]
  cases ruling with
  | unknown id =>
    obtain ⟨party, missing, -⟩ := ruled.missing
    rw [bind_of_ok way]
    exact .unknown party missing
  | dropped direction here =>
    rw [bind_of_ok way]
    exact .dropped asked
  | panicked p here =>
    rw [bind_of_error way]
    exact .broken asked
  | permitted target total here =>
    rw [bind_of_ok way]
    -- Both directions permit the message, and the rest depends on whether it takes time.
    show SendEnds cb network e w (network.forward cb target.address e total here) _
    cases takes : total.isZero with
    | true =>
      rw [forward_of_zero takes, prompted_of_zero takes]
      exact .handed ruled.receiver asked
    | false =>
      rw [prompted_of_slow takes]
      cases runtime : here.hasRuntime with
      | true =>
        rw [forward_of_runtime takes runtime]
        exact .late ruled.receiver asked takes runtime
      | false =>
        rw [forward_of_frozen takes runtime]
        exact .stranded asked runtime

variable {cb network e}

/-- A message that is answered to be delayed was put on its way once both directions had permitted
it, and it was not handed over. -/
theorem late_of_delayed {w v : World σ} {delay : Duration}
    (answer : network.send cb e w = .ok (.ok (.delayed delay)) v) :
    ∃ target here, (w.network network).node? e.receiver = some target ∧ Consulted cb w here ∧
      network.prompt cb e w = [] ∧
      v = { here with pending :=
        here.pending ++ [⟨Clock.arrival here.clock delay, network, target.address, e⟩] } := by
  -- Of all the ways in which sending ends, only the delayed delivery answers this.
  have ends := send_ends cb network e w
  generalize network.send cb e w = outcome, network.prompt cb e w = hs at ends answer
  cases ends with
  | unknown => cases answer
  | dropped => cases answer
  | broken => cases answer
  | stranded => cases answer
  | handed => exact absurd answer (handedOver_ne_delayed _ _ _)
  | @late target here d receiver asked takes runtime =>
    cases answer
    exact ⟨target, here, receiver, asked, rfl, rfl⟩

variable (network e)

/-- Sending keeps to what callbacks keep to, if that allows for changes of inboxes and for
parcels that are put on their way. -/
theorem leads_send {R : World σ → World σ → Prop} (frame : Frame R) (obeys : cb.Obeys R)
    (inboxes : ∀ (w : World σ) network id inbox,
      R w (w.setNetwork network ((w.network network).setInbox id inbox)))
    (departs : ∀ (w : World σ) (p : Pending), w.clock < p.due →
      R w { w with pending := w.pending ++ [p] }) :
    Leads R (network.send cb e) := by
  intro w
  have ends := send_ends cb network e w
  unfold worldAfter
  generalize network.send cb e w = outcome, network.prompt cb e w = hs at ends
  -- Whatever case it is, asking the rules keeps to the relation.
  have consulted : ∀ {here}, Consulted cb w here → R w here :=
    fun asked => asked R frame obeys.within
  cases ends with
  | unknown party missing => exact frame.refl w
  | dropped asked => exact consulted asked
  | broken asked => exact consulted asked
  | stranded asked frozen => exact consulted asked
  | @handed target here receiver asked =>
    rw [world_handedOver]
    exact frame.trans (consulted asked)
      (leads_handOver network e target.address frame obeys.accept inboxes here)
  | @late target here delay receiver asked takes runtime =>
    exact frame.trans (consulted asked) (departs here _ (Clock.lt_arrival takes))

end Send

/-! ## Direct delivery and registration -/

section Direct

variable (network : NetworkRef)

/-- How putting a message straight into the inbox at an endpoint can end.

- `nobody`: no node is there, which is noted;
- `queued`: the message is put into the inbox of the node that is there;
- `lost`: the inbox of that node is closed, and nothing happens. -/
inductive DeliverEnds (address : Endpoint) (e : Envelope) (w : World σ) :
    Outcome σ Bool → Prop where
  | nobody (empty : (w.network network).nodeAt? address = none) :
      DeliverEnds address e w (.ok false (w.record (.nobodyAt address)))
  | queued {node : Node} {left : World σ}
      (there : (w.network network).nodeAt? address = some node)
      (placed : Placed network node.id e w left) :
      DeliverEnds address e w (.ok true left)
  | lost {node : Node} (there : (w.network network).nodeAt? address = some node)
      (closed : (w.network network).box? node.id = some .closed) :
      DeliverEnds address e w (.ok false w)

/-- A direct delivery ends in one of the ways that there are. -/
theorem deliver_ends (address : Endpoint) (e : Envelope) (w : World σ) :
    DeliverEnds network address e w (network.deliver address e w) := by
  rw [NetworkRef.deliver, get_then]
  cases there : (w.network network).nodeAt? address with
  | none => exact .nobody there
  | some node =>
    dsimp only
    cases put : (w.network network).enqueue? node.id e with
    | some changed => exact .queued there (placed_of_enqueue? put)
    | none =>
      refine .lost there ((Network.enqueue?_eq_none put).resolve_left fun missing => ?_)
      have known := Network.box?_of_nodeAt? there
      rw [missing] at known
      cases known

/-- A direct delivery to a node with an open inbox puts the message there. -/
theorem deliver_of_node {address : Endpoint} {e : Envelope} {w : World σ} {node : Node}
    {changed : Network σ.Sink} (there : (w.network network).nodeAt? address = some node)
    (put : (w.network network).enqueue? node.id e = some changed) :
    network.deliver address e w = .ok true (w.setNetwork network changed) := by
  simp only [NetworkRef.deliver, get_then, there, put]
  rfl

/-- How registering a node can end.

- `refused`: the id or the endpoint is taken, and nothing happens;
- `registered`: the node is there from now on, which is noted. -/
inductive RegisterEnds (id : NodeId) (address : Endpoint) (w : World σ) :
    Outcome σ (Except Refusal Unit) → Prop where
  | refused {refusal : Refusal}
      (answer : (w.network network).register id address = .error refusal) :
      RegisterEnds id address w (.ok (.error refusal) w)
  | registered {changed : Network σ.Sink}
      (answer : (w.network network).register id address = .ok changed) :
      RegisterEnds id address w
        (.ok (.ok ()) ((w.setNetwork network changed).record (.nodeRegistered id address)))

/-- Registering a node ends in one of the ways that there are. -/
theorem register_ends (id : NodeId) (address : Endpoint) (w : World σ) :
    RegisterEnds network id address w (network.register id address w) := by
  rw [NetworkRef.register, get_then]
  cases answer : (w.network network).register id address with
  | error refusal => exact .refused answer
  | ok changed => exact .registered answer

variable {R : World σ → World σ → Prop} (frame : Frame R)
include frame

/-- A direct delivery keeps to what allows for changes of inboxes. -/
theorem leads_deliver (inboxes : ∀ (w : World σ) network id inbox,
      R w (w.setNetwork network ((w.network network).setInbox id inbox)))
    (address : Endpoint) (e : Envelope) :
    Leads R (network.deliver address e : Run σ Bool) := by
  intro w
  have ends := deliver_ends network address e w
  unfold worldAfter
  generalize network.deliver address e w = outcome at ends
  cases ends with
  | nobody empty => exact frame.record w _
  | queued there placed =>
    obtain ⟨queue, -, rfl⟩ := placed.eq_setInbox
    exact inboxes w network _ _
  | lost there closed => exact frame.refl w

/-- Registering a node keeps to what allows for new nodes. -/
theorem leads_register (nodes : ∀ (w : World σ) (network : NetworkRef) id address changed,
      (w.network network).register id address = .ok changed → R w (w.setNetwork network changed))
    (id : NodeId) (address : Endpoint) :
    Leads R (network.register id address : Run σ (Except Refusal Unit)) := by
  intro w
  have ends := register_ends network id address w
  unfold worldAfter
  generalize network.register id address w = outcome at ends
  cases ends with
  | refused answer => exact frame.refl w
  | registered answer => exact frame.trans (nodes w network id address _ answer) (frame.record _ _)

end Direct

end Netsieve
