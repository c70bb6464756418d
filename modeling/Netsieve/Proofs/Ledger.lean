import Netsieve.Proofs.Delivery.Posting
import Netsieve.Proofs.Operation

/-!
# `Netsieve.Proofs.Ledger`: no message is lost, doubled or sent astray

Messages reach inboxes on four ways: handed over at once, handed over later, put there by
a sink, or delivered directly. `Ledger` keeps the account of a whole run: what every
sending has led to, what was handed over and to which place, and what every inbox has got
and given out. `run_ledger` says that the account comes out even for every run.
-/

set_option autoImplicit false

namespace Netsieve

variable {σ : Signature}

/-- The message that is taken next out of an inbox, if one is there. -/
def World.oldest (w : World σ) (network : NetworkRef) (id : NodeId) : List Envelope :=
  ((w.network network).dequeue? id).toList.map Prod.fst

/-- The parcel that is promised if sending a message ends so. -/
def NetworkRef.promise (network : NetworkRef) (e : Envelope) (w : World σ) :
    Outcome σ (Except Refusal Delivery) → List Pending
  | .ok (.ok (.delayed delay)) _ =>
    ((w.network network).address? e.receiver).toList.map fun address =>
      ⟨Clock.arrival w.clock delay, network, address, e⟩
  | _ => []

namespace Operation

variable (cb : Callbacks σ)

/-- The handovers that an operation makes. -/
def handovers (w : World σ) : Operation σ → List (Handover σ)
  | .send network e => network.prompt cb e w
  | .advance ms => late cb w (.advance ms)
  | _ => []

/-- The parcel that an operation promises to hand over later, if it is a sending that has
answered so. -/
def promised (w : World σ) : Operation σ → List Pending
  | .send network e => network.promise e w (network.send cb e w)
  | _ => []

/-- What an operation takes out of the inbox of a node. -/
def taken (network : NetworkRef) (id : NodeId) (w : World σ) : Operation σ → List Envelope
  | .take other receiver =>
    if other = network ∧ receiver = id then w.oldest network id else []
  | _ => []

variable {cb}

/-- What an operation puts into inboxes. -/
def postings (modest : cb.Modest) (w : World σ) : Operation σ → List Posting
  | .deliver network address e => Direct.postings w ⟨network, address, e⟩
  | op => (op.handovers cb w).flatMap (Handover.postings modest)

end Operation

/-! ## What sending leads to -/

section Send

variable {cb : Callbacks σ} (modest : cb.Modest) {network : NetworkRef} {e : Envelope}
  {w v : World σ}
include modest

/-- A handover to modest callbacks puts nothing on its way. -/
theorem calm_handOver (h : Handover σ) : World.Calm h.before (h.after cb) :=
  leads_handOver h.parcel.network h.parcel.envelope h.parcel.address World.Calm.frame
    modest.calm (fun _ _ _ _ => ⟨rfl, rfl⟩) h.before

/-- A message that was delivered was handed over, once, before sending it returned. -/
theorem prompt_of_delivered (answer : network.send cb e w = .ok (.ok .delivered) v) :
    ∃ target here, (w.network network).node? e.receiver = some target ∧
      Consulted cb w here ∧
      network.prompt cb e w = [⟨⟨w.clock, network, target.address, e⟩, here⟩] ∧
      v = Handover.after cb ⟨⟨w.clock, network, target.address, e⟩, here⟩ ∧
      v.pending = w.pending := by
  -- Of all the ways in which sending ends, only the handover answers this.
  have ends := send_ends cb network e w
  generalize network.send cb e w = outcome, network.prompt cb e w = hs at ends answer
  cases ends with
  | unknown => cases answer
  | dropped => cases answer
  | broken => cases answer
  | stranded => cases answer
  | late => cases answer
  | @handed target here receiver asked =>
    -- Modest callbacks leave the clock alone, so that the handover is made at the time of
    -- the sending.
    have aloof := modest.aloof_consulted asked
    rw [aloof.calm.clock] at answer ⊢
    have after : v = Handover.after cb ⟨⟨w.clock, network, target.address, e⟩, here⟩ := by
      rw [Handover.after, ← world_handedOver, answer]
      rfl
    refine ⟨target, here, receiver, asked, rfl, after, ?_⟩
    rw [after, (calm_handOver modest _).pending]
    exact aloof.calm.pending

/-- A message that was delayed was put on its way, once, and nothing else has happened. -/
theorem pending_of_delayed {delay : Duration}
    (answer : network.send cb e w = .ok (.ok (.delayed delay)) v) :
    ∃ target, (w.network network).node? e.receiver = some target ∧
      network.prompt cb e w = [] ∧ v.networks = w.networks ∧
      v.pending = w.pending ++ [⟨Clock.arrival w.clock delay, network, target.address, e⟩] := by
  obtain ⟨target, here, receiver, asked, prompt, rfl⟩ := late_of_delayed answer
  have aloof := modest.aloof_consulted asked
  refine ⟨target, receiver, prompt, aloof.networks, ?_⟩
  rw [aloof.calm.pending, aloof.calm.clock]

/-- A message that was dropped or refused has gone nowhere. -/
theorem nothing_of_refused {answer : Except Refusal Delivery}
    (refused : answer ≠ .ok .delivered ∧ ∀ delay, answer ≠ .ok (.delayed delay))
    (ends : network.send cb e w = .ok answer v) :
    v.networks = w.networks ∧ v.pending = w.pending ∧
      ∀ h ∈ network.prompt cb e w, (h.before.network network).sink = none := by
  have cases_of := send_ends cb network e w
  generalize network.send cb e w = outcome, network.prompt cb e w = hs at cases_of ends
  have aloof : ∀ {here}, Consulted cb w here → World.Aloof w here := modest.aloof_consulted
  cases cases_of with
  | unknown =>
    cases ends
    exact ⟨rfl, rfl, by simp⟩
  | dropped asked =>
    cases ends
    exact ⟨(aloof asked).networks, (aloof asked).calm.pending, by simp⟩
  | broken => cases ends
  | stranded asked =>
    cases ends
    exact ⟨(aloof asked).networks, (aloof asked).calm.pending, by simp⟩
  | late =>
    cases ends
    exact absurd rfl (refused.2 _)
  | @handed target here receiver asked =>
    -- A handover answers with a refusal only if it finds a closed inbox.
    have handing : HandOverEnds cb network e target.address here
        (Handover.outcome cb ⟨⟨here.clock, network, target.address, e⟩, here⟩) :=
      handOver_ends _ _ _ _ _
    generalize Handover.outcome cb ⟨⟨here.clock, network, target.address, e⟩, here⟩ = outcome
      at handing ends
    cases handing with
    | taken =>
      cases ends
      exact absurd rfl refused.1
    | spilt => cases ends
    | queued =>
      cases ends
      exact absurd rfl refused.1
    | lost bare closed =>
      cases ends
      refine ⟨(aloof asked).networks, (aloof asked).calm.pending, fun h hh => ?_⟩
      rw [List.mem_singleton.mp hh]
      exact bare

/-- Sending puts what it promises on its way, and nothing else. -/
theorem pending_send : (worldAfter (network.send cb e) w).pending
    = w.pending ++ network.promise e w (network.send cb e w) := by
  have ends := send_ends cb network e w
  unfold worldAfter
  generalize network.send cb e w = outcome, network.prompt cb e w = hs at ends
  have aloof : ∀ {here}, Consulted cb w here → World.Aloof w here := modest.aloof_consulted
  cases ends with
  | unknown => exact (List.append_nil _).symm
  | dropped asked => exact (aloof asked).calm.pending.trans (List.append_nil _).symm
  | broken asked => exact (aloof asked).calm.pending.trans (List.append_nil _).symm
  | stranded asked => exact (aloof asked).calm.pending.trans (List.append_nil _).symm
  -- A message that is handed over at once promises nothing. A modest sink schedules nothing
  -- either.
  | @handed target here receiver asked =>
    have nothing : ∀ outcome, network.promise e w (handedOver outcome) = [] := by
      intro outcome
      rcases outcome with ⟨_ | _, _⟩ | ⟨_, _⟩ <;> rfl
    have calm := calm_handOver modest ⟨⟨here.clock, network, target.address, e⟩, here⟩
    rw [nothing, world_handedOver, List.append_nil]
    exact calm.pending.trans (aloof asked).calm.pending
  | @late target here delay receiver asked takes runtime =>
    show here.pending ++ _ = w.pending ++ _
    rw [(aloof asked).calm.pending, (aloof asked).calm.clock, NetworkRef.promise,
      Network.address?, receiver]
    rfl

/-- What is put on its way is what was promised. -/
theorem sent_eq_promised (op : Operation σ) (w : World σ) :
    op.sent cb w = op.promised cb w := by
  have nothing : ∀ {v}, v.pending = w.pending → w.added v = [] := fun same =>
    World.added_of_pending (by rw [same, List.append_nil])
  cases op with
  -- Only sending schedules a delivery.
  | send network e => exact World.added_of_pending (pending_send modest)
  | advance ms =>
    refine List.flatMap_eq_nil_iff.mpr fun h _ => ?_
    exact World.added_of_calm (calm_handOver modest h)
  | register network id address => exact nothing (calm_register network id address w).pending
  | deliver network address e => exact nothing (calm_deliver network address e w).pending
  | setSink network sink => exact nothing (calm_setSink network sink w).pending
  | clearSink network => exact nothing (calm_clearSink network w).pending
  | take network id => exact nothing (calm_take network id w).pending
  | close network id => exact nothing rfl
  | alter engine change => exact nothing (calm_change engine change w).pending

end Send

/-! ## The boxes of a run -/

namespace World

/-- The receivers of all that is on its way are there. -/
def Known (w : World σ) : Prop :=
  ∀ p ∈ w.pending, (w.box p.network p.envelope.receiver).isSome = true

/-- What is promised has a receiver. -/
theorem known_of_promise {w : World σ} {network : NetworkRef} {e : Envelope}
    {outcome : Outcome σ (Except Refusal Delivery)} {p : Pending}
    (hp : p ∈ network.promise e w outcome) :
    (w.box p.network p.envelope.receiver).isSome = true := by
  unfold NetworkRef.promise at hp
  split at hp
  · obtain ⟨address, found, rfl⟩ := List.mem_map.mp hp
    unfold Network.address? at found
    rw [Option.mem_toList, Option.map_eq_some_iff] at found
    obtain ⟨node, found, -⟩ := found
    rw [box, Network.box?_isSome, found]
    rfl
  · cases hp

/-- The inboxes of a network that is put in place are its own. -/
theorem box_setNetwork_self (w : World σ) (network : NetworkRef) (n : Network σ.Sink)
    (id : NodeId) : (w.setNetwork network n).box network id = n.box? id := by
  rw [box, network_setNetwork_self]

/-- Putting one network in place leaves the inboxes of the others alone. -/
theorem box_setNetwork_of_ne (w : World σ) {network other : NetworkRef} (n : Network σ.Sink)
    (id : NodeId) (h : network ≠ other) :
    (w.setNetwork network n).box other id = w.box other id := by
  rw [box, network_setNetwork_of_ne w n h, box]

end World

section Boxes

variable {w : World σ} {network other : NetworkRef} {id receiver : NodeId}

/-- A change of one network is accounted for by what it does to the boxes of that one. -/
theorem boxStep_setNetwork {n : Network σ.Sink} {taken : List Envelope}
    (there : network = other →
      BoxStep [] taken ((w.network network).box? receiver) (n.box? receiver))
    (elsewhere : network ≠ other → taken = []) :
    BoxStep [] taken (w.box other receiver) ((w.setNetwork network n).box other receiver) := by
  by_cases here : network = other
  · subst here
    rw [World.box_setNetwork_self]
    exact there rfl
  · rw [elsewhere here, World.box_setNetwork_of_ne w n receiver here]
    exact .refl _

/-- A registration at most brings an empty inbox about. -/
theorem boxStep_register (address : Endpoint) :
    BoxStep [] [] (w.box other receiver)
      ((worldAfter (network.register id address : Run σ _) w).box other receiver) := by
  have ends := register_ends network id address w
  unfold worldAfter
  generalize network.register id address w = outcome at ends
  cases ends with
  | refused => exact .refl _
  | @registered changed answer =>
    obtain ⟨before, after, others⟩ := Network.register_eq_ok answer
    refine boxStep_setNetwork (fun _ => ?_) fun _ => rfl
    -- The new node has a new inbox. All others stay as they are.
    by_cases self : receiver = id
    · rw [self, before, after]
      exact .born rfl
    · rw [others receiver self]
      exact .refl _

/-- What is taken out of an inbox is the oldest message in it. -/
theorem boxStep_take :
    BoxStep [] (if network = other ∧ id = receiver then w.oldest other receiver else [])
      (w.box other receiver) ((w.take network id).box other receiver) := by
  unfold World.take World.oldest
  cases found : (w.network network).dequeue? id with
  | none =>
    by_cases here : network = other ∧ id = receiver
    · obtain ⟨rfl, rfl⟩ := here
      rw [if_pos ⟨rfl, rfl⟩, found]
      exact .refl _
    · rw [if_neg here]
      exact .refl _
  | some pair =>
    obtain ⟨e, changed⟩ := pair
    obtain ⟨rest, box, rfl⟩ := Network.dequeue?_eq_some found
    refine boxStep_setNetwork (fun same => ?_) fun apart => if_neg fun both => apart both.1
    subst same
    -- The oldest envelope leaves the inbox that is read. All others stay as they are.
    by_cases self : receiver = id
    · subst self
      rw [if_pos ⟨rfl, rfl⟩, found, Network.box?_setInbox_self, box]
      exact .kept (List.append_nil _).symm
    · rw [if_neg fun both => self both.2.symm, Network.box?_setInbox_of_ne _ _ self]
      exact .refl _

/-- To give up an inbox closes it and leaves the others alone. -/
theorem boxStep_close :
    BoxStep [] [] (w.box other receiver)
      ((w.setNetwork network ((w.network network).closeInbox id)).box other receiver) := by
  refine boxStep_setNetwork (fun _ => ?_) fun _ => rfl
  unfold Network.closeInbox
  by_cases self : receiver = id
  · subst self
    rw [Network.box?_setInbox_self]
    cases (w.network network).box? receiver with
    | none => exact .refl none
    | some _ => exact .shut
  · rw [Network.box?_setInbox_of_ne _ _ self]
    exact .refl _

/-- Where the networks stay the same, nothing happens to any inbox. -/
theorem boxStep_of_networks {w' : World σ} (same : w'.networks = w.networks) :
    BoxStep [] [] (w.box other receiver) (w'.box other receiver) := by
  rw [World.box_of_networks same]
  exact .refl _

end Boxes

/-! ## The account of a run -/

section Run

variable {cb : Callbacks σ} (modest : cb.Modest)
include modest

/-- What is handed over while time passes was on its way before. -/
theorem parcel_mem_of_late {w : World σ} (early : w.Early) (ms : Nat) {h : Handover σ}
    (hh : h ∈ Operation.late cb w (.advance ms)) : h.parcel ∈ w.pending := by
  have schedule := onSchedule_perform modest.lawful (.advance ms) early
  have nothing : Operation.sent cb w (.advance ms) = [] :=
    sent_eq_promised modest (.advance ms) w
  have arrivals := schedule.arrivals
  rw [nothing, List.append_nil] at arrivals
  have listed : h.parcel ∈ timetable (w.pending.filter _) := arrivals ▸ List.mem_map_of_mem hh
  exact (List.mem_filter.mp ((timetable_perm _).mem_iff.mp listed)).1

/-- Every operation accounts for every box. -/
theorem boxStep_perform (op : Operation σ) {w : World σ} (early : w.Early) (known : w.Known)
    (network : NetworkRef) (id : NodeId) :
    BoxStep (postedTo network id (op.postings modest w)) (op.taken network id w)
      (w.box network id) ((op.perform cb w).box network id) := by
  cases op with
  | send other e => exact (fed_send modest w).boxes network id
  | advance ms =>
    exact (fed_linked modest (linked_advance cb ms w) fun h hh =>
      known _ (parcel_mem_of_late modest early ms hh)).boxes network id
  | deliver other address e => exact (fed_direct w ⟨other, address, e⟩).boxes network id
  | register other receiver address => exact boxStep_register address
  | setSink other sink => exact boxStep_setNetwork (fun _ => .refl _) fun _ => rfl
  | clearSink other => exact boxStep_setNetwork (fun _ => .refl _) fun _ => rfl
  | take other receiver => exact boxStep_take
  | close other receiver => exact boxStep_close
  | alter engine change => exact boxStep_of_networks (by cases change <;> rfl)

/-- An operation leaves every receiver of a parcel registered. -/
theorem known_perform (op : Operation σ) {w : World σ} (early : w.Early) (known : w.Known) :
    (op.perform cb w).Known := by
  intro p hp
  have schedule := onSchedule_perform modest.lawful op early
  rw [schedule.pending, sent_eq_promised modest] at hp
  refine (boxStep_perform modest op early known p.network p.envelope.receiver).isSome ?_
  rcases List.mem_append.mp (List.mem_filter.mp hp).1 with hp | hp
  · exact known p hp
  · -- Only a sending promises something, and its receiver is there.
    cases op with
    | send network e => exact World.known_of_promise hp
    | _ => cases hp

/-- What a run does to an inbox is what its postings and takings do, in their order. -/
theorem boxStep_run (ops : List (Operation σ)) {w : World σ} (early : w.Early) (known : w.Known)
    (network : NetworkRef) (id : NodeId) :
    BoxStep (postedTo network id (collect cb (Operation.postings modest) w ops))
      (collect cb (Operation.taken network id) w ops) (w.box network id)
      ((run cb w ops).box network id) := by
  induction ops generalizing w with
  | nil => exact .refl _
  | cons op rest ih =>
    have first := boxStep_perform modest op early known network id
    have next := ih (onSchedule_perform modest.lawful op early).early
      (known_perform modest op early known)
    rw [collect, collect, postedTo_append]
    exact first.trans next

/-- The account of a run.

- `delivered`: a message whose sending has answered that it is delivered was handed over,
  once, before that, and nothing was put on its way;
- `delayed`: a message whose sending has answered that it is delayed was put on its way,
  once, and nothing was handed over;
- `refused`: a message whose sending has answered anything else got into no inbox, was not
  put on its way, and no sink has got it;
- `linked`: while time passes nothing happens but handovers, one after the other;
- `once`: each delayed message is still on its way or was handed over since, and only
  once;
- `places`: each handover has one place: the sink that is installed then, or else the
  inbox of the receiver, or nothing if that is closed;
- `boxes`: what an open inbox has given out and what waits in it is, in this order, what
  was in it and what was posted to it. -/
structure Ledger (w : World σ) (ops : List (Operation σ)) : Prop where
  delivered : ∀ first network e rest v, ops = first ++ .send network e :: rest →
    network.send cb e (run cb w first) = .ok (.ok .delivered) v →
    ∃ target here, ((run cb w first).network network).node? e.receiver = some target ∧
      Consulted cb (run cb w first) here ∧
      network.prompt cb e (run cb w first)
        = [⟨⟨(run cb w first).clock, network, target.address, e⟩, here⟩] ∧
      v = Handover.after cb ⟨⟨(run cb w first).clock, network, target.address, e⟩, here⟩ ∧
      v.pending = (run cb w first).pending
  delayed : ∀ first network e rest delay v, ops = first ++ .send network e :: rest →
    network.send cb e (run cb w first) = .ok (.ok (.delayed delay)) v →
    ∃ target, ((run cb w first).network network).node? e.receiver = some target ∧
      network.prompt cb e (run cb w first) = [] ∧
      v.networks = (run cb w first).networks ∧
      v.pending = (run cb w first).pending
        ++ [⟨(run cb w first).clock + min ((delay.toNanos + 999999) / 1000000) 946080000000,
          network, target.address, e⟩]
  refused : ∀ first network e rest answer v, ops = first ++ .send network e :: rest →
    network.send cb e (run cb w first) = .ok answer v →
    answer ≠ .ok .delivered ∧ (∀ delay, answer ≠ .ok (.delayed delay)) →
    v.networks = (run cb w first).networks ∧ v.pending = (run cb w first).pending ∧
      ∀ h ∈ network.prompt cb e (run cb w first), (h.before.network network).sink = none
  linked : ∀ first ms rest, ops = first ++ .advance ms :: rest →
    Handover.Linked cb (run cb w first) (Operation.handovers cb (run cb w first) (.advance ms))
      (run cb w (first ++ [.advance ms]))
  once : ((runLate cb w ops).map Handover.parcel ++ (run cb w ops).pending).Perm
    (w.pending ++ collect cb (Operation.promised cb) w ops)
  places : ∀ h ∈ collect cb (Operation.handovers cb) w ops,
    HandOverEnds cb h.parcel.network h.parcel.envelope h.parcel.address h.before (h.outcome cb)
  boxes : ∀ network id queue, (run cb w ops).box network id = some (.opened queue) →
    collect cb (Operation.taken network id) w ops ++ queue
      = ((w.box network id).getD .closed).queue
        ++ postedTo network id (collect cb (Operation.postings modest) w ops)

end Run

/-- The account of every run comes out even, if what is on its way at the start is due
later and known to its networks. Nothing has to be on its way. -/
theorem run_ledger {cb : Callbacks σ} (modest : cb.Modest) (w : World σ) (early : w.Early)
    (known : w.Known) (ops : List (Operation σ)) : Ledger modest w ops where
  delivered := by
    rintro first network e rest v - answer
    exact prompt_of_delivered modest answer
  delayed := by
    rintro first network e rest delay v - answer
    exact pending_of_delayed modest answer
  refused := by
    rintro first network e rest answer v - ends refused
    exact nothing_of_refused modest refused ends
  linked := by
    rintro first ms rest -
    rw [run_append]
    exact linked_advance cb ms (run cb w first)
  once := by
    -- What is sent is what has been promised. All of it is delivered or pending in the end.
    have promises : Operation.sent cb = Operation.promised cb := by
      funext w op
      exact sent_eq_promised modest op w
    have schedule := onSchedule_run modest.lawful ops early
    unfold runSent at schedule
    rw [promises] at schedule
    exact schedule.perm
  places h _ := handOver_ends cb h.parcel.network h.parcel.envelope h.parcel.address h.before
  boxes network id queue opened := by
    have step := boxStep_run modest ops early known network id
    rw [opened] at step
    exact step.account

/-! ## Sinks that deliver directly -/

namespace Reinjecting

/-- Sinks that note what they get, and may then deliver it directly to an endpoint. -/
abbrev signature : Signature where
  Predicate := Unit
  Supplier := Duration
  Sink := Option Endpoint
  Memory := List Envelope

/-- What a sink delivers. -/
def deliveries (sink : Option Endpoint) (e : Envelope) : List Direct :=
  sink.toList.map fun address => ⟨⟨0⟩, address, e⟩

/-- Every predicate says yes, and a supplier answers itself. -/
def callbacks : Callbacks signature where
  test _ _ := pure true
  supply answer _ := pure answer
  accept sink _ e := fun w =>
    let w := (deliveries sink e).foldl Direct.perform w
    .ok () { w with memory := w.memory ++ [e] }

/-- Direct deliveries put nothing on its way. -/
theorem calm_directs (ds : List Direct) (w : World signature) :
    World.Calm w (ds.foldl Direct.perform w) := by
  induction ds generalizing w with
  | nil => exact World.Calm.frame.refl w
  | cons d rest ih =>
    exact World.Calm.frame.trans (calm_deliver d.network d.address d.envelope w) (ih _)

/-- The account of these sinks. -/
def modest : callbacks.Modest where
  reinjects sink _ e _ := deliveries sink e
  within := ⟨fun _ _ w => World.Aloof.frame.refl w, fun _ _ w => World.Aloof.frame.refl w⟩
  calm sink _ e w :=
    ⟨(calm_directs (deliveries sink e) w).clock, (calm_directs (deliveries sink e) w).pending⟩
  networks _ _ _ _ := rfl

/-- A network without nodes in which every message takes so many milliseconds. -/
def world (ms : UInt64) : World signature where
  engines := ⟨#[{}]⟩
  networks := ⟨#[{ engine := ⟨0⟩, latency := ⟨.ofMillis ms, .ofSecs 60⟩ }]⟩
  hasRuntime := true
  memory := []

/-- The endpoint of a node. -/
def endpoint (id : UInt8) : Endpoint := ⟨.v4 127 0 0 id, 1⟩

/-- A message from node 1 to node 2. -/
def letter (verb : UInt32) : Envelope := ⟨1, 2, Message.new verb []⟩

/-- Nothing is late in a world in which nothing is on its way. -/
theorem world_early (ms : UInt64) : (world ms).Early :=
  fun _ none => nomatch none

/-- In a world in which nothing is on its way, no receiver is missing. -/
theorem world_known (ms : UInt64) : (world ms).Known :=
  fun _ none => nomatch none

/-- Messages on three ways to two inboxes, one of which is given up in the end. -/
theorem run_ledger_reinjecting :
    (world 5).Early ∧ (world 5).Known ∧
      Ledger modest (world 5)
        [.register ⟨0⟩ 1 (endpoint 1), .register ⟨0⟩ 2 (endpoint 2), .send ⟨0⟩ (letter 1),
          .send ⟨0⟩ (letter 2), .advance 4, .deliver ⟨0⟩ (endpoint 2) (letter 3), .advance 1,
          .take ⟨0⟩ 2, .send ⟨0⟩ (letter 4), .setSink ⟨0⟩ (some (endpoint 1)), .advance 7,
          .clearSink ⟨0⟩, .alter ⟨0⟩ .reset, .close ⟨0⟩ 2] :=
  ⟨world_early 5, world_known 5, run_ledger modest (world 5) (world_early 5) (world_known 5) _⟩

end Reinjecting

end Netsieve
