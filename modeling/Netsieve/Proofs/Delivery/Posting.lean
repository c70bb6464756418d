import Netsieve.Proofs.Network.Box
import Netsieve.Proofs.Timeline.Passage

/-!
# `Netsieve.Proofs.Delivery.Posting`: what handing over puts into inboxes

A handover goes to the sink that is installed at its moment, or to the inbox of the
receiver. A sink may put messages into inboxes directly, so with a sink too inboxes can
change. `Callbacks.Modest` is about callbacks that do nothing else to networks: predicates
and suppliers leave them alone, and a sink makes direct deliveries that it can account
for.

`Posting` is a message that belongs into an inbox, and `Fed` says that between two worlds
all boxes are accounted for by a row of postings. `fed_handOver` and `fed_linked` give the
postings of one handover and of those that follow each other while time passes.
-/

set_option autoImplicit false

namespace Netsieve

variable {σ : Signature}

/-- A message that belongs into the inbox of a node of a network. -/
structure Posting where
  network : NetworkRef
  receiver : NodeId
  envelope : Envelope
  deriving DecidableEq

/-- The messages that were posted to one inbox. -/
def postedTo (network : NetworkRef) (id : NodeId) (ps : List Posting) : List Envelope :=
  (ps.filter fun p => p.network = network ∧ p.receiver = id).map Posting.envelope

/-- What several postings put into one inbox is put there in their order. -/
theorem postedTo_append (network : NetworkRef) (id : NodeId) (ps ps' : List Posting) :
    postedTo network id (ps ++ ps') = postedTo network id ps ++ postedTo network id ps' := by
  unfold postedTo
  rw [List.filter_append, List.map_append]

/-- A posting puts its envelope into the inbox it is for. -/
theorem postedTo_self (network : NetworkRef) (id : NodeId) (e : Envelope) :
    postedTo network id [⟨network, id, e⟩] = [e] := by
  simp [postedTo]

/-- A posting puts nothing into any other inbox. -/
theorem postedTo_of_ne {network other : NetworkRef} {id receiver : NodeId} (e : Envelope)
    (h : other = network → receiver ≠ id) : postedTo network id [⟨other, receiver, e⟩] = [] := by
  simpa [postedTo] using h

namespace World

/-- The inbox of a node of a network, if the node is there. -/
def box (w : World σ) (network : NetworkRef) (id : NodeId) : Option Inbox :=
  (w.network network).box? id

/-- The inboxes are part of the networks and of nothing else. -/
theorem box_of_networks {w w' : World σ} (h : w'.networks = w.networks) (network : NetworkRef)
    (id : NodeId) : w'.box network id = w.box network id := by
  unfold box World.network
  rw [h]

end World

/-! ## Accounts of all boxes -/

/-- Between two worlds messages were posted to inboxes, and nothing else happened to the
boxes of nodes and to their endpoints. -/
structure Fed (w w' : World σ) (ps : List Posting) : Prop where
  boxes : ∀ network id,
    BoxStep (postedTo network id ps) [] (w.box network id) (w'.box network id)
  owners : ∀ network address,
    (w'.network network).owner? address = (w.network network).owner? address

namespace Fed

/-- Where the networks stay the same, nothing has been posted. -/
theorem of_networks {w w' : World σ} (h : w'.networks = w.networks) : Fed w w' [] := by
  refine ⟨fun network id => ?_, fun network address => ?_⟩
  · rw [World.box_of_networks h]
    exact .refl _
  · unfold World.network
    rw [h]

/-- Postings one after the other add up. -/
theorem trans {a b c : World σ} {ps ps' : List Posting} (first : Fed a b ps)
    (second : Fed b c ps') : Fed a c (ps ++ ps') := by
  refine ⟨fun network id => ?_, fun network address => ?_⟩
  · rw [postedTo_append]
    exact (first.boxes network id).trans (second.boxes network id)
  · rw [second.owners, first.owners]

/-- A message that is placed was posted to its inbox, and nothing else was. -/
theorem of_placed {w left : World σ} {network : NetworkRef} {id : NodeId} {e : Envelope}
    (placed : Placed network id e w left) : Fed w left [⟨network, id, e⟩] := by
  refine ⟨fun other receiver => ?_, fun other address => ?_⟩
  · by_cases here : other = network
    · subst here
      by_cases self : receiver = id
      · subst self
        obtain ⟨queue, before, after⟩ := placed.appended
        rw [postedTo_self, World.box, World.box, before, after]
        exact .kept rfl
      · rw [postedTo_of_ne e fun _ => Ne.symm self, World.box, World.box,
          placed.inboxes receiver self]
        exact .refl _
    · rw [postedTo_of_ne e fun same => absurd same.symm here, World.box, World.box,
        placed.networks other here]
      exact .refl _
  · by_cases here : other = network
    · subst here
      obtain ⟨queue, -, rfl⟩ := placed.eq_setInbox
      rw [World.network_setNetwork_self, Network.owner?_setInbox]
    · rw [placed.networks other here]

/-- Trying to put a message into an inbox that is closed. -/
theorem of_closed {w : World σ} {network : NetworkRef} {id : NodeId} (e : Envelope)
    (box : w.box network id = some .closed) : Fed w w [⟨network, id, e⟩] := by
  refine ⟨fun other receiver => ?_, fun _ _ => rfl⟩
  by_cases self : network = other ∧ receiver = id
  · obtain ⟨rfl, rfl⟩ := self
    rw [box]
    exact .shut
  · rw [postedTo_of_ne e fun same other => self ⟨same, other.symm⟩]
    exact .refl _

end Fed

/-! ## Direct deliveries -/

/-- A message that is to be put straight into the inbox at an endpoint. -/
structure Direct where
  network : NetworkRef
  address : Endpoint
  envelope : Envelope

namespace Direct

/-- The world after a direct delivery. -/
def perform (w : World σ) (d : Direct) : World σ :=
  worldAfter (d.network.deliver d.address d.envelope : Run σ Bool) w

/-- Where the message belongs, if there is a node. -/
def postings (w : World σ) (d : Direct) : List Posting :=
  match (w.network d.network).owner? d.address with
  | some id => [⟨d.network, id, d.envelope⟩]
  | none => []

end Direct

/-- A direct delivery feeds what its postings say. -/
theorem fed_direct (w : World σ) (d : Direct) : Fed w (d.perform w) (d.postings w) := by
  have ends := deliver_ends d.network d.address d.envelope w
  unfold Direct.perform worldAfter Direct.postings Network.owner?
  generalize d.network.deliver d.address d.envelope w = outcome at ends
  cases ends with
  | nobody empty =>
    rw [empty]
    exact .of_networks rfl
  | queued there placed =>
    rw [there]
    exact .of_placed placed
  | lost there closed =>
    rw [there]
    exact .of_closed d.envelope closed

/-- Several direct deliveries feed what their postings say, in their order. -/
theorem fed_directs (w : World σ) (ds : List Direct) :
    Fed w (ds.foldl Direct.perform w) (ds.flatMap (Direct.postings w)) := by
  induction ds generalizing w with
  | nil => exact .of_networks rfl
  | cons d rest ih =>
    have first := fed_direct w d
    have same : Direct.postings (d.perform w) = Direct.postings w := by
      funext other
      unfold Direct.postings
      rw [first.owners]
    have others := ih (d.perform w)
    rw [same] at others
    exact first.trans others

/-! ## Callbacks that leave networks alone, and sinks that deliver directly -/

namespace World

/-- The networks are the same, no time has passed, and what is on its way is the same. -/
structure Aloof (w w' : World σ) : Prop where
  networks : w'.networks = w.networks
  calm : Calm w w'

/-- Staying away from the networks can be chained and does not look at the log. -/
theorem Aloof.frame : Frame (Aloof (σ := σ)) where
  refl w := ⟨rfl, Calm.frame.refl w⟩
  trans first second :=
    ⟨second.networks.trans first.networks, Calm.frame.trans first.calm second.calm⟩
  record w event := ⟨rfl, Calm.frame.record w event⟩

end World

/-- Predicates and suppliers have nothing to do with networks, and all that sinks do to
networks are direct deliveries. The account of a sink has these deliveries in order.

- `reinjects`: what a sink delivers directly;
- `within`: predicates and suppliers leave networks alone;
- `calm`: sinks put nothing on its way;
- `networks`: sinks do nothing else to networks. -/
structure Callbacks.Modest (cb : Callbacks σ) where
  reinjects : σ.Sink → Endpoint → Envelope → World σ → List Direct
  within : cb.Within World.Aloof
  calm : ∀ sink address e, Leads World.Calm (cb.accept sink address e)
  networks : ∀ sink address e w, (worldAfter (cb.accept sink address e) w).networks
    = ((reinjects sink address e w).foldl Direct.perform w).networks

namespace Callbacks.Modest

variable {cb : Callbacks σ} (modest : cb.Modest)
include modest

/-- Modest callbacks put parcels on their way at most. -/
theorem lawful : cb.Lawful where
  within :=
    ⟨fun predicate e w => .of_calm (modest.within.test predicate e w).calm,
      fun supplier e w => .of_calm (modest.within.supply supplier e w).calm⟩
  accept sink address e w := .of_calm (modest.calm sink address e w)

/-- Consulting the two chains leaves the networks alone if the callbacks are modest. -/
theorem aloof_consulted {w here : World σ} (asked : Consulted cb w here) : World.Aloof w here :=
  asked _ World.Aloof.frame modest.within

end Callbacks.Modest

namespace Handover

variable {cb : Callbacks σ} (modest : cb.Modest)

/-- The messages that a handover puts into inboxes: the one handed over, unless there is a
sink, and otherwise those that the sink delivers. -/
def postings (h : Handover σ) : List Posting :=
  match (h.before.network h.parcel.network).sink with
  | none => [⟨h.parcel.network, h.parcel.envelope.receiver, h.parcel.envelope⟩]
  | some sink =>
    (modest.reinjects sink h.parcel.address h.parcel.envelope
      (h.before.record (.delivering h.parcel.envelope true))).flatMap (Direct.postings h.before)

end Handover

section Fed

variable {cb : Callbacks σ} (modest : cb.Modest)

/-- A sink that is modest feeds exactly what it re-injects. -/
theorem fed_accept (sink : σ.Sink) (address : Endpoint) (e : Envelope) (w : World σ) :
    Fed w (worldAfter (cb.accept sink address e) w)
      ((modest.reinjects sink address e w).flatMap (Direct.postings w)) := by
  have last : Fed _ (worldAfter (cb.accept sink address e) w) [] :=
    .of_networks (modest.networks sink address e w)
  have whole := (fed_directs w (modest.reinjects sink address e w)).trans last
  rw [List.append_nil] at whole
  exact whole

/-- Handing a parcel over feeds its postings: the one to its own inbox, or those of the
sink. -/
theorem fed_handOver (h : Handover σ)
    (known : (h.before.box h.parcel.network h.parcel.envelope.receiver).isSome = true) :
    Fed h.before (h.after cb) (h.postings modest) := by
  have ends : HandOverEnds cb h.parcel.network h.parcel.envelope h.parcel.address h.before
      (h.outcome cb) := handOver_ends _ _ _ _ _
  unfold Handover.after Handover.postings
  generalize h.outcome cb = outcome at ends
  have logged : ∀ seen, Fed h.before
      (h.before.record (.delivering h.parcel.envelope seen)) [] := fun _ => .of_networks rfl
  -- Whether the sink returns or panics, it has fed what it re-injects.
  have accepted := fun sink : σ.Sink => (logged true).trans
    (fed_accept modest sink h.parcel.address h.parcel.envelope _)
  cases ends with
  | taken installed takes =>
    rw [installed]
    exact worldAfter_of_ok takes ▸ accepted _
  | spilt installed takes =>
    rw [installed]
    exact worldAfter_of_error takes ▸ accepted _
  | queued bare placed =>
    rw [bare]
    exact (logged false).trans (.of_placed placed)
  | lost bare closed =>
    rw [bare]
    -- The receiver is there, so it is the closed inbox that has turned the message away.
    have box : h.before.box h.parcel.network h.parcel.envelope.receiver = some .closed := by
      refine closed.resolve_left fun missing => ?_
      rw [World.box, missing] at known
      cases known
    exact (Fed.of_closed h.parcel.envelope box).trans (logged false)

/-- Handovers that follow each other put their postings into inboxes one after the other. -/
theorem fed_linked {w w' : World σ} {hs : List (Handover σ)}
    (linked : Handover.Linked cb w hs w')
    (known : ∀ h ∈ hs, (w.box h.parcel.network h.parcel.envelope.receiver).isSome = true) :
    Fed w w' (hs.flatMap (Handover.postings modest)) := by
  induction hs generalizing w with
  | nil => exact .of_networks linked.networks
  | cons h rest ih =>
    obtain ⟨idle, linked⟩ := linked
    have same : h.before.box h.parcel.network h.parcel.envelope.receiver = w.box _ _ :=
      World.box_of_networks idle.networks _ _
    have first : Fed w (h.after cb) (h.postings modest) := by
      refine (Fed.of_networks idle.networks).trans (fed_handOver modest h ?_)
      rw [same]
      exact known h List.mem_cons_self
    refine first.trans (ih linked fun other hother => ?_)
    exact (first.boxes _ _).isSome (known other (List.mem_cons_of_mem _ hother))

variable {network : NetworkRef} {e : Envelope}

/-- Sending a message puts into inboxes what its handover does, if there is one. -/
theorem fed_send (w : World σ) :
    Fed w (worldAfter (network.send cb e) w)
      ((network.prompt cb e w).flatMap (Handover.postings modest)) := by
  have ends := send_ends cb network e w
  unfold worldAfter
  generalize network.send cb e w = outcome, network.prompt cb e w = hs at ends
  -- Modest callbacks leave the networks alone until the message is handed over.
  have untouched : ∀ {here}, Consulted cb w here → Fed w here [] :=
    fun asked => .of_networks (modest.aloof_consulted asked).networks
  cases ends with
  | unknown party missing => exact .of_networks rfl
  | dropped asked => exact untouched asked
  | broken asked => exact untouched asked
  | stranded asked frozen => exact untouched asked
  | late receiver asked takes runtime => exact (untouched asked).trans (.of_networks rfl)
  | @handed target here receiver asked =>
    -- The receiver was looked up before the rules were asked, and it is still there.
    have known : (here.box network e.receiver).isSome = true := by
      rw [World.box_of_networks (modest.aloof_consulted asked).networks, World.box,
        Network.box?_isSome, receiver]
      rfl
    have fed := fed_handOver modest ⟨⟨here.clock, network, target.address, e⟩, here⟩ known
    rw [world_handedOver, List.flatMap_singleton]
    exact (untouched asked).trans fed

end Fed

end Netsieve
