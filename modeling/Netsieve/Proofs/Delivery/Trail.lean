import Netsieve.Proofs.Delivery.Decision

/-!
# `Netsieve.Proofs.Delivery.Trail`: the callbacks that run while a message is sent

Sending a message and handing it over run callbacks: predicates and suppliers are asked, and
perhaps a sink gets the message. `NetworkRef.visits` and `Handover.visits` are these in their
order, each with the world in which it runs. A `Trail` says that nothing but certain visits
lies between two worlds, apart from notes in the log.

* `trail_send`: apart from its visits, sending at most puts a message into an inbox or on its
  way.
* `trail_send_of_fails`: if it ends in a refusal, a drop or a panic, it does not even do that,
  and its visits are all that has happened.
-/

set_option autoImplicit false

namespace Netsieve

variable {σ : Signature}

/-- A callback that is run, and the world in which that happens.

- `asked`: a predicate or a supplier is asked;
- `handed`: a sink is handed a message for an endpoint. -/
inductive Visit (σ : Signature) where
  | asked (made : Made σ)
  | handed (sink : σ.Sink) (address : Endpoint) (e : Envelope) (before : World σ)

namespace Visit

/-- The world in which a callback is run. -/
def before : Visit σ → World σ
  | .asked made => made.before
  | .handed _ _ _ before => before

/-- The world that it leaves behind. -/
def after (cb : Callbacks σ) : Visit σ → World σ
  | .asked made => made.after cb
  | .handed sink address e before => worldAfter (cb.accept sink address e) before

end Visit

/-- These visits, one after the other, are all that lies between two worlds, but for notes in the
log. -/
inductive Trail (cb : Callbacks σ) : World σ → List (Visit σ) → World σ → Prop where
  | done {w : World σ} : Trail cb w [] w
  | record {w w' : World σ} {visits : List (Visit σ)} (event : Event)
      (rest : Trail cb (w.record event) visits w') : Trail cb w visits w'
  | visit {visit : Visit σ} {visits : List (Visit σ)} {w' : World σ}
      (rest : Trail cb (visit.after cb) visits w') :
      Trail cb visit.before (visit :: visits) w'

namespace Trail

variable {cb : Callbacks σ} {R : World σ → World σ → Prop} {w here w' : World σ}
  {visits others : List (Visit σ)}

/-- Trails one after the other make one trail. -/
theorem trans (first : Trail cb w visits here) (second : Trail cb here others w') :
    Trail cb w (visits ++ others) w' := by
  induction first with
  | done => exact second
  | record event _ ih => exact .record event (ih second)
  | visit _ ih => exact .visit (ih second)

/-- One visit is a trail. -/
theorem single (visit : Visit σ) : Trail cb visit.before [visit] (visit.after cb) :=
  .visit .done

/-- What the visits keep to is kept to. -/
theorem related (h : Trail cb w visits w') (frame : Frame R)
    (kept : ∀ visit ∈ visits, R visit.before (visit.after cb)) : R w w' := by
  induction h with
  | done => exact frame.refl _
  | record event _ ih => exact frame.trans (frame.record _ event) (ih kept)
  | @visit visit visits w' _ ih =>
    refine frame.trans (kept visit List.mem_cons_self) (ih fun other there => ?_)
    exact kept other (List.mem_cons_of_mem visit there)

/-- Calls of predicates and suppliers are visits. -/
theorem of_course {calls : List (Made σ)} (course : Course cb w calls w') :
    Trail cb w (calls.map .asked) w' := by
  induction course with
  | done => exact .done
  | record event _ ih => exact .record event ih
  | @call w w' call calls _ ih => exact (single (.asked ⟨call, w⟩)).trans ih

end Trail

/-! ## The way of a message as far as the rules -/

/-- What a direction answers, and the calls that it makes, each with the world in which that
happens. -/
structure EngineRef.Makes (cb : Callbacks σ) (engine : EngineRef) (direction : Direction)
    (e : Envelope) (w : World σ) (outcome : Outcome σ Verdict) (calls : List (Made σ)) :
    Prop where
  ends : engine.evaluate cb direction e w = outcome
  made : engine.calls cb direction e w = calls

open EngineRef (Makes)

/-- The calls that the way of a message takes. The inbound rules are asked only if the outbound
ones permit the message. -/
def NetworkRef.calls (cb : Callbacks σ) (network : NetworkRef) (e : Envelope) (w : World σ) :
    List (Made σ) :=
  match (w.network network).node? e.sender, (w.network network).node? e.receiver with
  | some _, some _ =>
    (w.network network).engine.calls cb .outbound e w ++
      match NetworkRef.consult cb (w.network network).engine .outbound e w with
      | .ok (some _) here => (w.network network).engine.calls cb .inbound e here
      | _ => []
  | _, _ => []

section Route

variable {cb : Callbacks σ} {network : NetworkRef} {e : Envelope} {w : World σ}
  {ruling : Ruling σ} {calls : List (Made σ)}

/-- The calls on the way of a message are those that its ruling takes. -/
theorem Ruled.calls_eq (ruled : Ruled (Makes cb) network e w ruling calls) :
    network.calls cb e w = calls := by
  -- `calls` asks again what `Ruled` has already told. Each case is what these answers make
  -- of it.
  unfold NetworkRef.calls
  cases ruled with
  | unknownSender missing => rw [missing]
  | unknownReceiver known missing => rw [known, missing]
  | heldBack nodes leaves =>
    rw [nodes.sender, nodes.receiver, leaves.made, consult_of_drop leaves.ends]
    exact List.append_nil _
  | outboundPanic nodes leaves =>
    rw [nodes.sender, nodes.receiver, leaves.made, consult_of_error leaves.ends]
    exact List.append_nil _
  | keptOut nodes leaves waits enters =>
    rw [nodes.sender, nodes.receiver, leaves.made, consult_of_waits leaves.ends waits,
      ← enters.made]
  | inboundPanic nodes leaves waits enters =>
    rw [nodes.sender, nodes.receiver, leaves.made, consult_of_waits leaves.ends waits,
      ← enters.made]
  | permitted nodes leaves waits enters =>
    rw [nodes.sender, nodes.receiver, leaves.made, consult_of_waits leaves.ends waits,
      ← enters.made]

/-- Every message meets a ruling, with the calls that this takes. -/
theorem ruled_calls (cb : Callbacks σ) (network : NetworkRef) (e : Envelope) (w : World σ) :
    ∃ ruling, Ruled (Makes cb) network e w ruling (network.calls cb e w) := by
  obtain ⟨ruling, calls, ruled⟩ : ∃ ruling calls, Ruled (Makes cb) network e w ruling calls :=
    exists_ruled (fun _ _ _ _ => ⟨_, _, rfl, rfl⟩) network e w
  exact ⟨ruling, ruled.calls_eq ▸ ruled⟩

/-- Between two worlds lie the calls of a direction that is asked. -/
theorem course_makes {engine : EngineRef} {direction : Direction} {outcome : Outcome σ Verdict}
    (makes : Makes cb engine direction e w outcome calls) :
    Course cb w calls (Outcome.world outcome) := by
  rw [← makes.ends, ← makes.made]
  exact course_evaluate cb engine direction e w

/-- The calls are all that lies on the way of a message. -/
theorem course_ruled (ruled : Ruled (Makes cb) network e w ruling calls) :
    Course cb w calls (Outcome.world (ruling.routed e w)) := by
  cases ruled with
  | unknownSender missing => exact .done
  | unknownReceiver known missing => exact .done
  | heldBack nodes leaves => exact (course_makes leaves).noted _
  | outboundPanic nodes leaves => exact course_makes leaves
  | keptOut nodes leaves waits enters =>
    exact ((course_makes leaves).trans (course_makes enters)).noted _
  | inboundPanic nodes leaves waits enters =>
    exact (course_makes leaves).trans (course_makes enters)
  | permitted nodes leaves waits enters =>
    exact (course_makes leaves).trans (course_makes enters)

end Route

/-! ## The whole way -/

/-- The sink that is run in a handover, if one is installed. -/
def Handover.visits (h : Handover σ) : List (Visit σ) :=
  match (h.before.network h.parcel.network).sink with
  | some sink =>
    [.handed sink h.parcel.address h.parcel.envelope
      (h.before.record (.delivering h.parcel.envelope true))]
  | none => []

/-- The callbacks that are run while a message is sent. -/
def NetworkRef.visits (cb : Callbacks σ) (network : NetworkRef) (e : Envelope) (w : World σ) :
    List (Visit σ) :=
  (network.calls cb e w).map .asked ++ (network.prompt cb e w).flatMap Handover.visits

/-- What a handover does after its visits.

- `nothing`: nothing is done;
- `queued`: the message is put into an inbox. -/
inductive HandedOver (network : NetworkRef) (here : World σ) :
    Outcome σ (Except Refusal Unit) → Prop where
  | nothing {outcome : Outcome σ (Except Refusal Unit)} (same : Outcome.world outcome = here) :
      HandedOver network here outcome
  | queued (id : NodeId) (inbox : Inbox) : HandedOver network here
      (.ok (.ok ()) (here.setNetwork network ((here.network network).setInbox id inbox)))

/-- What sending does after its visits.

- `nothing`: nothing is done;
- `queued`: the message is put into an inbox;
- `departed`: the message is put on its way. -/
inductive Forwarded (network : NetworkRef) (here : World σ) :
    Outcome σ (Except Refusal Delivery) → Prop where
  | nothing {outcome : Outcome σ (Except Refusal Delivery)} (same : Outcome.world outcome = here) :
      Forwarded network here outcome
  | queued (id : NodeId) (inbox : Inbox) : Forwarded network here
      (.ok (.ok .delivered) (here.setNetwork network ((here.network network).setInbox id inbox)))
  | departed (delay : Duration) (p : Pending) (later : here.clock < p.due) :
      Forwarded network here
        (.ok (.ok (.delayed delay)) { here with pending := here.pending ++ [p] })

section Whole

variable {cb : Callbacks σ} {network : NetworkRef} {e : Envelope} {w : World σ}

/-- Apart from its visits, a handover at most puts the message into an inbox. -/
theorem trail_handOver (cb : Callbacks σ) (h : Handover σ) :
    ∃ here, Trail cb h.before h.visits here ∧
      HandedOver h.parcel.network here (h.outcome cb) := by
  have ends := handOver_ends cb h.parcel.network h.parcel.envelope h.parcel.address h.before
  unfold Handover.visits Handover.outcome
  generalize h.parcel.network.handOver cb h.parcel.address h.parcel.envelope h.before
    = outcome at ends
  cases ends with
  | @taken sink w' installed takes =>
    rw [installed]
    refine ⟨w', .record (.delivering h.parcel.envelope true) ?_, .nothing rfl⟩
    rw [← worldAfter_of_ok takes]
    exact .single (.handed sink _ _ _)
  | @spilt sink p w' installed takes =>
    rw [installed]
    refine ⟨w', .record (.delivering h.parcel.envelope true) ?_, .nothing rfl⟩
    rw [← worldAfter_of_error takes]
    exact .single (.handed sink _ _ _)
  | queued bare placed =>
    rw [bare]
    -- No callback runs. What is left is the world with the changed inbox.
    obtain ⟨queue, -, rfl⟩ := placed.eq_setInbox
    exact ⟨h.before.record _, .record _ .done, .queued _ _⟩
  | lost bare closed =>
    rw [bare]
    exact ⟨h.before.record _, .record _ .done, .nothing rfl⟩

/-- Apart from its visits, sending at most puts the message into an inbox or on its way. -/
theorem trail_send (cb : Callbacks σ) (network : NetworkRef) (e : Envelope) (w : World σ) :
    ∃ here, Trail cb w (network.visits cb e w) here ∧
      Forwarded network here (network.send cb e w) := by
  obtain ⟨ruling, ruled⟩ := ruled_calls cb network e w
  -- The trail starts with the calls of the rules. A handover adds the visit of the sink,
  -- and a parcel adds nothing.
  have calls := Trail.of_course (course_ruled ruled)
  have way := ruled.route_eq Makes.ends
  rw [send_eq, NetworkRef.visits, prompt_of_route way]
  cases ruling with
  | unknown id =>
    rw [bind_of_ok way]
    exact ⟨w, (List.append_nil _).symm ▸ calls, .nothing rfl⟩
  | dropped direction here =>
    rw [bind_of_ok way]
    exact ⟨_, (List.append_nil _).symm ▸ calls, .nothing rfl⟩
  | panicked p here =>
    rw [bind_of_error way]
    exact ⟨here, (List.append_nil _).symm ▸ calls, .nothing rfl⟩
  | permitted target total here =>
    rw [bind_of_ok way]
    show ∃ last, Trail cb w (_ ++ _) last ∧
      Forwarded network last (network.forward cb target.address e total here)
    cases takes : total.isZero with
    | true =>
      obtain ⟨last, handed, ends⟩ :=
        trail_handOver cb ⟨⟨here.clock, network, target.address, e⟩, here⟩
      rw [forward_of_zero takes, prompted_of_zero takes, List.flatMap_singleton]
      refine ⟨last, calls.trans handed, ?_⟩
      generalize Handover.outcome cb _ = outcome at ends ⊢
      cases ends with
      | nothing same => exact .nothing ((world_handedOver _).trans same)
      | queued id inbox => exact .queued id inbox
    | false =>
      rw [prompted_of_slow takes, List.flatMap_nil, List.append_nil]
      refine ⟨here, calls, ?_⟩
      cases runtime : here.hasRuntime with
      | true =>
        rw [forward_of_runtime takes runtime]
        exact .departed total _ (Clock.lt_arrival takes)
      | false =>
        rw [forward_of_frozen takes runtime]
        exact .nothing rfl

/-- Sending has failed: the message was refused or dropped, or a callback has panicked. -/
inductive Fails : Outcome σ (Except Refusal Delivery) → Prop where
  | refused (refusal : Refusal) (left : World σ) : Fails (.ok (.error refusal) left)
  | dropped (direction : Direction) (left : World σ) : Fails (.ok (.ok (.dropped direction)) left)
  | panicked (p : Panic) (left : World σ) : Fails (.error p left)

/-- If sending fails, its visits are all that has happened. -/
theorem trail_send_of_fails (fails : Fails (network.send cb e w)) :
    Trail cb w (network.visits cb e w) (worldAfter (network.send cb e) w) := by
  obtain ⟨here, trail, ends⟩ := trail_send cb network e w
  unfold worldAfter
  generalize network.send cb e w = outcome at ends fails
  cases ends with
  | nothing same => rwa [same]
  | queued => cases fails
  | departed => cases fails

end Whole

end Netsieve
