import Netsieve.Proofs.Chronicle
import Netsieve.Proofs.Delivery.Log
import Netsieve.Proofs.Ledger

/-!
# `Netsieve.Proofs.Journal`: the log of a run

The log of a run is put together from the notes of networks and engines and from what the
callbacks note. `World.seen` is a view of the log, such as the notes about what has become of
messages (`Event.fate?`). If it is known what each callback adds to a view
(`Visit.Adds`), then it is known what whole operations add. So the events of a run can be
counted, whatever the callbacks do: they may panic, and they may send messages.

* `seen_advance`: what deliveries add that are made later.
* `seen_deeds`: what a run adds about the fates of messages: one note for each sending that
  has answered that its message is dropped, and one for each handover.
* `log_tells`: both of this, and the log of a single message.
-/

set_option autoImplicit false

namespace Netsieve

open EngineRef (Makes)

variable {σ : Signature} {β : Type}

/-- What can become of a message.

- `dropped`: the rules of a direction drop it;
- `dispatched`: it is handed over, to a sink or to an inbox. -/
inductive Fate where
  | dropped (e : Envelope) (direction : Direction)
  | dispatched (e : Envelope) (sink : Bool)
  deriving DecidableEq

/-- What an event tells about the fate of a message, if it does. -/
def Event.fate? : Event → Option Fate
  | .messageDropped e direction => some (.dropped e direction)
  | .delivering e sink => some (.dispatched e sink)
  | _ => none

/-- A view of the log. -/
def World.seen (view : Event → Option β) (w : World σ) : List β :=
  w.events.toList.filterMap view

/-- An event that is recorded is seen last, if the view shows it. -/
theorem seen_record (view : Event → Option β) (w : World σ) (event : Event) :
    (w.record event).seen view = w.seen view ++ (view event).toList := by
  have one : [event].filterMap view = (view event).toList := by cases h : view event <;> simp [h]
  rw [← one, World.seen, World.seen, ← List.filterMap_append, World.record, Array.toList_push]

/-- An event that the view leaves out is not seen. -/
theorem seen_record_of_none {view : Event → Option β} {event : Event} (h : view event = none)
    (w : World σ) : (w.record event).seen view = w.seen view := by
  rw [seen_record, h, Option.toList_none, List.append_nil]

/-- What a callback adds to a view of the log. -/
def Visit.Adds (cb : Callbacks σ) (view : Event → Option β) (visited : Visit σ → List β)
    (visit : Visit σ) : Prop :=
  (visit.after cb).seen view = visit.before.seen view ++ visited visit

/-- A discreet callback adds nothing. -/
theorem Visit.Discreet.adds {cb : Callbacks σ} {visit : Visit σ} (h : visit.Discreet cb)
    (view : Event → Option β) : visit.Adds cb view fun _ => [] := by
  have quiet : (visit.after cb).events = visit.before.events := by
    cases h with
    | test answer | supply answer | accept answer =>
      show (worldAfter _ _).events = _
      rw [worldAfter_of_ok answer]
      rfl
  rw [Visit.Adds, World.seen, quiet, List.append_nil, World.seen]

/-! ## Deliveries that are made later -/

section Late

variable (cb : Callbacks σ) (view : Event → Option β) (visited : Visit σ → List β)

/-- What a handover adds to a view of the log: its note, and what the sink adds. -/
def Handover.adds (h : Handover σ) : List β :=
  (view h.note).toList ++ h.visits.flatMap visited

/-- What a delivery adds that is made later. If it fails, that is noted. -/
def Handover.addsLate (h : Handover σ) : List β :=
  h.adds view visited ++
    match h.outcome cb with
    | .ok (.error error) _ => (view (.deliveryFailed h.parcel.envelope error)).toList
    | _ => []

variable {cb view visited}

/-- A handover adds its note and what the sink adds. -/
theorem seen_handover {h : Handover σ} (adds : ∀ visit ∈ h.visits, visit.Adds cb view visited) :
    (h.after cb).seen view = h.before.seen view ++ h.adds view visited := by
  have ends : HandOverEnds cb h.parcel.network h.parcel.envelope h.parcel.address h.before
      (h.outcome cb) := handOver_ends _ _ _ _ _
  have noted : ∀ sink, sink = (h.before.network h.parcel.network).sink.isSome →
      (h.before.record (.delivering h.parcel.envelope sink)).seen view
        = h.before.seen view ++ (view h.note).toList := by
    rintro _ rfl
    exact seen_record view h.before h.note
  -- Only a handover to a sink runs a callback. What the sink adds comes after the note,
  -- also when it fails or panics.
  have handed : ∀ {sink w'}, (h.before.network h.parcel.network).sink = some sink →
      worldAfter (cb.accept sink h.parcel.address h.parcel.envelope)
        (h.before.record (.delivering h.parcel.envelope true)) = w' →
      w'.seen view = h.before.seen view ++ h.adds view visited := by
    rintro sink _ installed rfl
    have run : h.visits = [.handed sink h.parcel.address h.parcel.envelope
        (h.before.record (.delivering h.parcel.envelope true))] := by
      rw [Handover.visits, installed]
    have sink_adds := adds _ (run ▸ List.mem_singleton_self _)
    rw [Handover.adds, run, List.flatMap_singleton, ← List.append_assoc,
      ← noted true (by rw [installed]; rfl)]
    exact sink_adds
  -- A handover to an inbox adds its note and nothing else.
  have alone : (h.before.network h.parcel.network).sink = none →
      (h.before.record (.delivering h.parcel.envelope false)).seen view
        = h.before.seen view ++ h.adds view visited := by
    intro bare
    have nobody : h.visits = [] := by rw [Handover.visits, bare]
    rw [Handover.adds, nobody, List.flatMap_nil, List.append_nil,
      noted false (by rw [bare]; rfl)]
  unfold Handover.after
  generalize h.outcome cb = outcome at ends
  cases ends with
  | taken installed takes => exact handed installed (worldAfter_of_ok takes)
  | spilt installed takes => exact handed installed (worldAfter_of_error takes)
  | queued bare placed =>
    obtain ⟨queue, -, rfl⟩ := placed.eq_setInbox
    exact alone bare
  | lost bare closed => exact alone bare

/-- An arrival adds what its handover adds, and a note if that fails. -/
theorem seen_arrive {p : Pending} {w : World σ}
    (adds : ∀ visit ∈ Handover.visits ⟨p, w⟩, visit.Adds cb view visited) :
    (worldAfter (p.arrive cb) w).seen view
      = w.seen view ++ Handover.addsLate cb view visited ⟨p, w⟩ := by
  have handed := seen_handover adds
  rw [worldAfter_arrive, Handover.addsLate, ← List.append_assoc, ← handed, Handover.after]
  rcases Handover.outcome cb ⟨p, w⟩ with ⟨refusal | _, left⟩ | ⟨panic, left⟩
  · exact seen_record view left _
  · exact (List.append_nil _).symm
  · -- A panic leaves no room for the note that the delivery has failed.
    exact (List.append_nil _).symm

/-- Arrivals one after the other add what each of them adds, in that order. -/
theorem seen_arriveAll {ps : List Pending} {w : World σ}
    (adds : ∀ h ∈ handovers cb ps w, ∀ visit ∈ h.visits, visit.Adds cb view visited) :
    (arriveAll cb ps w).seen view
      = w.seen view ++ (handovers cb ps w).flatMap (Handover.addsLate cb view visited) := by
  induction ps generalizing w with
  | nil => exact (List.append_nil _).symm
  | cons p rest ih =>
    rw [handovers] at adds ⊢
    have others := ih fun h there => adds h (List.mem_cons_of_mem _ there)
    rw [arriveAll, others, seen_arrive (adds _ List.mem_cons_self), List.flatMap_cons,
      List.append_assoc]

/-- The passage of time adds what the late handovers add, in that order. -/
theorem seen_advanceFrom {now limit : Nat} {w : World σ}
    (adds : ∀ h ∈ late cb now limit w, ∀ visit ∈ h.visits, visit.Adds cb view visited) :
    (worldAfter (advanceFrom cb now limit) w).seen view
      = w.seen view ++ (late cb now limit w).flatMap (Handover.addsLate cb view visited) := by
  induction now, w using late.induct cb limit with
  | case1 now w found =>
    rw [worldAfter_of_ok (advanceFrom_of_none cb found), late_of_none cb found]
    exact (List.append_nil _).symm
  | case2 now w due inside found ih =>
    rw [late_of_some cb found] at adds ⊢
    have moment : (w.pass cb due).seen view = w.seen view
        ++ (w.passing cb due).flatMap (Handover.addsLate cb view visited) :=
      seen_arriveAll fun h there => adds h (List.mem_append_left _ there)
    have others := ih fun h there => adds h (List.mem_append_right _ there)
    rw [worldAfter, advanceFrom_of_some cb found, ← worldAfter, others, moment, List.flatMap_append,
      List.append_assoc]

/-- What is added while time passes is added by the deliveries that are made, in their order. -/
theorem seen_advance {ms : Nat} {w : World σ}
    (adds : ∀ visit ∈ Operation.visits cb w (.advance ms), visit.Adds cb view visited) :
    (Operation.perform cb w (.advance ms)).seen view = w.seen view
      ++ (Operation.late cb w (.advance ms)).flatMap (Handover.addsLate cb view visited) :=
  seen_advanceFrom fun h there visit run => adds visit (List.mem_flatMap.mpr ⟨h, there, run⟩)

/-- What the log tells about a delivery that is made later: the note that the message is handed
over, and that this has failed if there is no sink and the inbox is closed. -/
def Handover.told (h : Handover σ) : List Event :=
  h.note ::
    match (h.before.network h.parcel.network).sink,
      (h.before.network h.parcel.network).inbox h.parcel.envelope.receiver with
    | none, .closed =>
      [.deliveryFailed h.parcel.envelope (.inboxClosed h.parcel.envelope.receiver)]
    | _, _ => []

/-- The full log has just this about a delivery to a discreet sink or to an inbox. -/
theorem addsLate_of_discreet {h : Handover σ} (discreet : ∀ visit ∈ h.visits, visit.Discreet cb) :
    h.addsLate cb some (fun _ => []) = h.told := by
  obtain ⟨answer, left, ends, handed, -⟩ := handed_outcome discreet
  -- A discreet sink adds nothing, so that only the note of the handover is left.
  have silent : h.adds some (fun _ => []) = [h.note] := by
    simp [Handover.adds]
  rw [Handover.addsLate, silent, ends, Handover.told, List.singleton_append]
  cases handed with
  | taken place =>
    rcases place with installed | ⟨queue, opened⟩
    · obtain ⟨sink, installed⟩ := Option.isSome_iff_exists.mp installed
      rw [installed]
    · rw [opened]
      cases (h.before.network h.parcel.network).sink <;> rfl
  | lost bare closed =>
    rw [bare, closed]
    rfl

end Late

/-! ## The fates of messages -/

section Fates

variable {cb : Callbacks σ} {visited : Visit σ → List Fate} {w w' : World σ}

/-- The direction whose rules have dropped a message, if sending it has ended so. -/
def Outcome.dropped? : Outcome σ (Except Refusal Delivery) → Option Direction
  | .ok (.ok (.dropped direction)) _ => some direction
  | _ => none

/-- Calls one after the other add what each of them adds. -/
theorem seen_runs {calls : List (Made σ)} {ended : Option Panic}
    (runs : Made.Runs cb w calls ended w')
    (adds : ∀ made ∈ calls, Visit.Adds cb Event.fate? visited (.asked made)) :
    w'.seen Event.fate? = w.seen Event.fate? ++ (calls.map .asked).flatMap visited := by
  induction runs with
  | done => exact (List.append_nil _).symm
  | @returned w w' call calls ended _ _ ih =>
    rw [ih fun made there => adds made (List.mem_cons_of_mem _ there), List.map_cons,
      List.flatMap_cons, ← List.append_assoc]
    exact congrArg (· ++ _) (adds _ List.mem_cons_self)
  | panicked =>
    rw [List.map_singleton, List.flatMap_singleton]
    exact adds _ List.mem_cons_self

/-- An evaluation notes nothing about the fate of a message. Its callbacks may. -/
theorem seen_evaluate {engine : EngineRef} {direction : Direction} {e : Envelope}
    (adds : ∀ made ∈ engine.calls cb direction e w,
      Visit.Adds cb Event.fate? visited (.asked made)) :
    (worldAfter (engine.evaluate cb direction e) w).seen Event.fate?
      = w.seen Event.fate? ++ ((engine.calls cb direction e w).map .asked).flatMap visited := by
  -- The calls of an evaluation are those of the scan and those of the rule that it has
  -- found.
  have scan := runs_firstMatch cb engine direction e (w.engine engine).rules w
  unfold EngineRef.calls at adds ⊢
  unfold worldAfter at scan
  cases search : engine.firstMatch cb direction e (w.engine engine).rules w with
  | error p left =>
    rw [search] at scan adds
    rw [List.append_nil] at adds ⊢
    rw [worldAfter_of_error (evaluate_of_broken cb engine direction e search)]
    exact seen_runs scan adds
  | ok found left =>
    rw [search] at scan adds
    cases found with
    | none =>
      rw [List.append_nil] at adds ⊢
      rw [worldAfter_of_ok (evaluate_of_none cb engine direction e search)]
      exact seen_runs scan adds
    | some rule =>
      have decision := runs_verdict cb e rule left
      unfold worldAfter at decision
      have both := scan.append decision
      cases decides : rule.verdict cb e left with
      | error p here =>
        rw [decides] at both
        rw [worldAfter_of_error (evaluate_of_undecided cb engine direction e search decides)]
        exact seen_runs both adds
      | ok verdict here =>
        rw [decides] at both
        rw [worldAfter_of_ok (evaluate_of_some cb engine direction e search decides),
          seen_record_of_none rfl]
        exact seen_runs both adds

/-- What is added to the fates of messages by a direction that is asked is added by its calls. -/
theorem seen_makes {engine : EngineRef} {direction : Direction} {e : Envelope}
    {outcome : Outcome σ Verdict} {calls : List (Made σ)}
    (makes : Makes cb engine direction e w outcome calls)
    (adds : ∀ made ∈ calls, Visit.Adds cb Event.fate? visited (.asked made)) :
    (Outcome.world outcome).seen Event.fate?
      = w.seen Event.fate? ++ (calls.map .asked).flatMap visited := by
  obtain ⟨ends, made⟩ := makes
  subst ends
  subst made
  exact seen_evaluate adds

/-- If both directions are asked, the calls of the first add first. -/
theorem seen_both {engine : EngineRef} {e : Envelope} {verdict : Verdict} {here : World σ}
    {outcome : Outcome σ Verdict} {out into : List (Made σ)}
    (leaves : Makes cb engine .outbound e w (.ok verdict here) out)
    (enters : Makes cb engine .inbound e here outcome into)
    (adds : ∀ made ∈ out ++ into, Visit.Adds cb Event.fate? visited (.asked made)) :
    (Outcome.world outcome).seen Event.fate?
      = w.seen Event.fate? ++ ((out ++ into).map .asked).flatMap visited := by
  obtain ⟨first, second⟩ := List.forall_mem_append.mp adds
  have outbound : here.seen Event.fate?
      = w.seen Event.fate? ++ (out.map .asked).flatMap visited := seen_makes leaves first
  rw [seen_makes enters second, outbound, List.map_append, List.flatMap_append, List.append_assoc]

/-- Until a message meets its ruling, only its calls add to the fates of messages. -/
theorem seen_ruled {network : NetworkRef} {e : Envelope} {ruling : Ruling σ}
    {calls : List (Made σ)} (ruled : Ruled (Makes cb) network e w ruling calls)
    (adds : ∀ made ∈ calls, Visit.Adds cb Event.fate? visited (.asked made)) :
    (ruling.here w).seen Event.fate?
      = w.seen Event.fate? ++ (calls.map .asked).flatMap visited := by
  cases ruled with
  | unknownSender missing => exact (List.append_nil _).symm
  | unknownReceiver known missing => exact (List.append_nil _).symm
  | heldBack nodes leaves => exact seen_makes leaves adds
  | outboundPanic nodes leaves => exact seen_makes leaves adds
  | keptOut nodes leaves waits enters => exact seen_both leaves enters adds
  | inboundPanic nodes leaves waits enters => exact seen_both leaves enters adds
  | permitted nodes leaves waits enters => exact seen_both leaves enters adds

/-- What sending notes about the fates of messages: what predicates and suppliers do, that the
message is dropped if sending it answers so, and its handover if it is handed over before
sending returns. -/
def NetworkRef.fates (cb : Callbacks σ) (visited : Visit σ → List Fate) (network : NetworkRef)
    (e : Envelope) (w : World σ) : List Fate :=
  ((network.calls cb e w).map .asked).flatMap visited
    ++ (Outcome.dropped? (network.send cb e w)).toList.map (.dropped e)
    ++ (network.prompt cb e w).flatMap (Handover.adds Event.fate? visited)

/-- Behind the rules nothing is dropped. -/
theorem dropped?_forward (cb : Callbacks σ) (network : NetworkRef) (address : Endpoint)
    (e : Envelope) (delay : Duration) (w : World σ) :
    Outcome.dropped? (network.forward cb address e delay w) = none := by
  have handed : ∀ outcome, Outcome.dropped? (handedOver (σ := σ) outcome) = none := by
    rintro (⟨_ | _, _⟩ | ⟨_, _⟩) <;> rfl
  cases takes : delay.isZero with
  | true => rw [forward_of_zero takes, handed]
  | false =>
    cases runtime : w.hasRuntime with
    | true => rw [forward_of_runtime takes runtime]; rfl
    | false => rw [forward_of_frozen takes runtime]; rfl

/-- Behind the rules only a handover is noted. -/
theorem seen_forward {network : NetworkRef} {target : Node} {e : Envelope} {total : Duration}
    (adds : ∀ h ∈ (Ruling.permitted target total w).prompted network e, ∀ visit ∈ h.visits,
      visit.Adds cb Event.fate? visited) :
    (worldAfter (network.forward cb target.address e total) w).seen Event.fate?
      = w.seen Event.fate? ++ ((Ruling.permitted target total w).prompted network e).flatMap
          (Handover.adds Event.fate? visited) := by
  unfold worldAfter
  cases takes : total.isZero with
  | true =>
    rw [prompted_of_zero takes] at adds ⊢
    rw [forward_of_zero takes, world_handedOver, List.flatMap_singleton]
    exact seen_handover (adds _ (List.mem_singleton_self _))
  | false =>
    rw [prompted_of_slow takes, List.flatMap_nil, List.append_nil]
    cases runtime : w.hasRuntime with
    | true => rw [forward_of_runtime takes runtime]; rfl
    | false => rw [forward_of_frozen takes runtime]; rfl

/-- What sending a message adds to the fates of messages. -/
theorem seen_send {network : NetworkRef} {e : Envelope}
    (adds : ∀ visit ∈ network.visits cb e w, visit.Adds cb Event.fate? visited) :
    (worldAfter (network.send cb e) w).seen Event.fate?
      = w.seen Event.fate? ++ network.fates cb visited e w := by
  obtain ⟨ruling, ruled⟩ := ruled_calls cb network e w
  have way := ruled.route_eq Makes.ends
  obtain ⟨asking, handing⟩ := List.forall_mem_append.mp adds
  have asked := seen_ruled ruled fun made there => asking _ (List.mem_map_of_mem there)
  have handed : ∀ h ∈ network.prompt cb e w, ∀ visit ∈ h.visits,
      visit.Adds cb Event.fate? visited :=
    fun h there visit run => handing visit (List.mem_flatMap.mpr ⟨h, there, run⟩)
  rw [prompt_of_route way] at handed
  rw [NetworkRef.fates, worldAfter, send_eq, prompt_of_route way, ← List.append_assoc,
    ← List.append_assoc, ← asked]
  -- What is told before the ruling is accounted for by now. Only a drop is noted with it,
  -- and only a permitted message is handed over.
  cases ruling with
  | unknown id =>
    rw [bind_of_ok way]
    exact ((List.append_nil _).trans (List.append_nil _)).symm
  | dropped direction here =>
    rw [bind_of_ok way]
    exact (seen_record _ here _).trans (List.append_nil _).symm
  | panicked p here =>
    rw [bind_of_error way]
    exact ((List.append_nil _).trans (List.append_nil _)).symm
  | permitted target total here =>
    rw [bind_of_ok way]
    -- A message that is forwarded is never answered to be dropped.
    show (worldAfter (network.forward cb target.address e total) here).seen _ = here.seen _
      ++ (Outcome.dropped? (network.forward cb target.address e total here)).toList.map _ ++ _
    rw [dropped?_forward, Option.toList_none, List.map_nil, List.append_nil]
    exact seen_forward handed

end Fates

/-! ## Runs -/

namespace Deed

variable (cb : Callbacks σ)

/-- What comes together in a row of deeds, one after the other. -/
def collect (what : World σ → Deed σ → List β) (w : World σ) : List (Deed σ) → List β
  | [] => []
  | deed :: rest => what w deed ++ collect what (deed.perform cb w) rest

/-- The callbacks that are run in the course of a deed. -/
def visits (w : World σ) : Deed σ → List (Visit σ)
  | .operate op => op.visits cb w
  | .use (.evaluate engine direction e) => (engine.calls cb direction e w).map .asked
  | .use _ => []

/-- What a deed notes about the fates of messages. Only messages that are sent have one. -/
def fates (visited : Visit σ → List Fate) (w : World σ) : Deed σ → List Fate
  | .operate (.send network e) => network.fates cb visited e w
  | .operate (.advance ms) =>
    (Operation.late cb w (.advance ms)).flatMap (Handover.adds Event.fate? visited)
  | .use (.evaluate engine direction e) =>
    ((engine.calls cb direction e w).map .asked).flatMap visited
  | _ => []

/-- The direction in which a message was dropped, if the deed is a sending that has answered
so. -/
def dropped (w : World σ) : Deed σ → List Direction
  | .operate (.send network e) => (Outcome.dropped? (network.send cb e w)).toList
  | _ => []

/-- The handovers that a deed makes. -/
def handovers (w : World σ) : Deed σ → List (Handover σ)
  | .operate op => op.handovers cb w
  | .use _ => []

end Deed

section Run

variable {cb : Callbacks σ} {visited : Visit σ → List Fate} {w : World σ}

/-- Changing an engine tells nothing about messages. -/
theorem seen_change (engine : EngineRef) (step : Engine.Change σ.Predicate σ.Supplier)
    (w : World σ) :
    (worldAfter (engine.change step) w).seen Event.fate? = w.seen Event.fate? := by
  cases step with
  | register | reset | switch => exact seen_record_of_none rfl _

/-- A later delivery that fails has the fate of a message that is handed over. -/
theorem addsLate_fate (h : Handover σ) :
    h.addsLate cb Event.fate? visited = h.adds Event.fate? visited := by
  unfold Handover.addsLate
  rcases h.outcome cb with ⟨_ | _, _⟩ | ⟨_, _⟩ <;> exact List.append_nil _

/-- Networks tell nothing about the fates of messages but when they are sent or handed over. -/
theorem seen_operation {op : Operation σ}
    (adds : ∀ visit ∈ op.visits cb w, visit.Adds cb Event.fate? visited) :
    (op.perform cb w).seen Event.fate?
      = w.seen Event.fate? ++ Deed.fates cb visited w (.operate op) := by
  cases op with
  | send network e => exact seen_send adds
  | advance ms =>
    rw [seen_advance adds, Deed.fates]
    exact congrArg (fun each => _ ++ List.flatMap each _) (funext addsLate_fate)
  -- The other operations note events that tell nothing about the fate of a message.
  | register network id address =>
    have ends := register_ends network id address w
    refine Eq.trans ?_ (List.append_nil _).symm
    show (Outcome.world (network.register id address w)).seen Event.fate? = _
    generalize network.register id address w = outcome at ends
    cases ends with
    | refused => rfl
    | registered => exact seen_record_of_none rfl _
  | deliver network address e =>
    have ends := deliver_ends network address e w
    refine Eq.trans ?_ (List.append_nil _).symm
    show (Outcome.world (network.deliver address e w)).seen Event.fate? = _
    generalize network.deliver address e w = outcome at ends
    cases ends with
    | nobody => exact seen_record_of_none rfl w
    | queued there placed =>
      obtain ⟨queue, -, rfl⟩ := placed.eq_setInbox
      rfl
    | lost => rfl
  | setSink | clearSink =>
    exact (seen_record_of_none rfl _).trans (List.append_nil _).symm
  | take network id =>
    refine Eq.trans ?_ (List.append_nil _).symm
    show (w.take network id).seen Event.fate? = _
    unfold World.take
    split <;> rfl
  | close => exact (List.append_nil _).symm
  | alter engine step => exact (seen_change engine step w).trans (List.append_nil _).symm

/-- A deed adds what it says about the fates of messages, and nothing else. -/
theorem seen_deed {deed : Deed σ}
    (adds : ∀ visit ∈ deed.visits cb w, visit.Adds cb Event.fate? visited) :
    (deed.perform cb w).seen Event.fate? = w.seen Event.fate? ++ deed.fates cb visited w := by
  rcases deed with op | ⟨engine, step⟩ | ⟨engine, direction, e⟩ | _ | _ | _
  · exact seen_operation adds
  · exact (seen_change engine step w).trans (List.append_nil _).symm
  · exact seen_evaluate fun made there => adds _ (List.mem_map_of_mem there)
  all_goals exact (List.append_nil _).symm

/-- A run adds what its deeds add, one after the other. -/
theorem seen_deeds {deeds : List (Deed σ)}
    (adds : ∀ visit ∈ Deed.collect cb (Deed.visits cb) w deeds,
      visit.Adds cb Event.fate? visited) :
    (Deed.run cb w deeds).seen Event.fate?
      = w.seen Event.fate? ++ Deed.collect cb (Deed.fates cb visited) w deeds := by
  induction deeds generalizing w with
  | nil => exact (List.append_nil _).symm
  | cons deed rest ih =>
    have first := seen_deed fun visit there => adds visit (List.mem_append_left _ there)
    have others := ih fun visit there => adds visit (List.mem_append_right _ there)
    rw [Deed.collect, ← List.append_assoc, ← first]
    exact others

end Run

/-! ## Counting -/

/-- Whether an event tells that a message is dropped. -/
def Event.isDropped : Event → Bool
  | .messageDropped .. => true
  | _ => false

/-- Whether an event tells that a message is handed over. -/
def Event.isDelivering : Event → Bool
  | .delivering .. => true
  | _ => false

namespace Fate

/-- Whether the message is dropped. -/
def isDropped : Fate → Bool
  | .dropped .. => true
  | .dispatched .. => false

end Fate

section Counting

variable {cb : Callbacks σ} {visited : Visit σ → List Fate} {w : World σ}

/-- Handovers drop nothing, and each of them notes itself. The rest is due to sinks. -/
theorem countP_handovers (visited : Visit σ → List Fate) (hs : List (Handover σ)) :
    (hs.flatMap (Handover.adds Event.fate? visited)).countP Fate.isDropped
        = ((hs.flatMap Handover.visits).flatMap visited).countP Fate.isDropped ∧
      (hs.flatMap (Handover.adds Event.fate? visited)).countP (!Fate.isDropped ·)
        = hs.length
          + ((hs.flatMap Handover.visits).flatMap visited).countP (!Fate.isDropped ·) := by
  induction hs with
  | nil => exact ⟨rfl, rfl⟩
  | cons h rest ih =>
    obtain ⟨drops, handovers⟩ := ih
    have itself : (h.adds Event.fate? visited).countP Fate.isDropped
          = (h.visits.flatMap visited).countP Fate.isDropped ∧
        (h.adds Event.fate? visited).countP (!Fate.isDropped ·)
          = (h.visits.flatMap visited).countP (!Fate.isDropped ·) + 1 :=
      ⟨List.countP_cons_of_neg Bool.false_ne_true, List.countP_cons_of_pos rfl⟩
    simp only [List.flatMap_cons, List.flatMap_append, List.countP_append, List.length_cons,
      drops, handovers, itself]
    exact ⟨trivial, by omega⟩

/-- A deed drops what it answers to have dropped, and dispatches what it hands over. The rest is
due to its callbacks. -/
theorem countP_fates (w : World σ) (deed : Deed σ) :
    (deed.fates cb visited w).countP Fate.isDropped
        = (deed.dropped cb w).length + ((deed.visits cb w).flatMap visited).countP Fate.isDropped ∧
      (deed.fates cb visited w).countP (!Fate.isDropped ·)
        = (deed.handovers cb w).length
          + ((deed.visits cb w).flatMap visited).countP (!Fate.isDropped ·) := by
  -- Most deeds note nothing of their own.
  have alone : ∀ list : List Fate, list.countP Fate.isDropped = 0 + list.countP Fate.isDropped ∧
      list.countP (!Fate.isDropped ·) = 0 + list.countP (!Fate.isDropped ·) :=
    fun _ => ⟨(Nat.zero_add _).symm, (Nat.zero_add _).symm⟩
  rcases deed with op | use
  · cases op with
    | send network e =>
      obtain ⟨drops, handovers⟩ := countP_handovers visited (network.prompt cb e w)
      -- The answer that a message is dropped comes with one note, any other answer with
      -- none.
      have own : ((Outcome.dropped? (network.send cb e w)).toList.map (Fate.dropped e)).countP
            Fate.isDropped = (Outcome.dropped? (network.send cb e w)).toList.length ∧
          ((Outcome.dropped? (network.send cb e w)).toList.map (Fate.dropped e)).countP
            (!Fate.isDropped ·) = 0 := by
        cases Outcome.dropped? (network.send cb e w) <;> exact ⟨rfl, rfl⟩
      simp only [Deed.fates, NetworkRef.fates, Deed.dropped, Deed.handovers, Operation.handovers,
        Deed.visits, Operation.visits, NetworkRef.visits, List.flatMap_append, List.countP_append,
        drops, handovers, own]
      constructor <;> omega
    | advance ms =>
      obtain ⟨drops, handovers⟩ := countP_handovers visited (Operation.late cb w (.advance ms))
      exact ⟨drops.trans (Nat.zero_add _).symm, handovers⟩
    | _ => exact alone []
  · cases use with
    | evaluate engine direction e =>
      exact alone (((engine.calls cb direction e w).map Visit.asked).flatMap visited)
    | _ => exact alone []

/-- A run adds as many events of a kind as its deeds do themselves, and those that its callbacks
add. -/
theorem countP_run {isKind : Event → Bool} {kind : Fate → Bool} {what : World σ → Deed σ → List β}
    (same : ∀ event, isKind event = (event.fate?.map kind).getD false)
    (each : ∀ w deed, (Deed.fates cb visited w deed).countP kind
      = (what w deed).length + ((Deed.visits cb w deed).flatMap visited).countP kind)
    {deeds : List (Deed σ)} (adds : ∀ visit ∈ Deed.collect cb (Deed.visits cb) w deeds,
      visit.Adds cb Event.fate? visited) :
    (Deed.run cb w deeds).events.toList.countP isKind
      = w.events.toList.countP isKind + ((Deed.collect cb what w deeds).length
        + ((Deed.collect cb (Deed.visits cb) w deeds).flatMap visited).countP kind) := by
  -- The events of this kind are counted among the fates, which the deeds account for.
  have view : ∀ w : World σ, w.events.toList.countP isKind = (w.seen Event.fate?).countP kind := by
    intro w
    rw [World.seen, List.countP_filterMap, funext same]
  have sum : ∀ w, (Deed.collect cb (Deed.fates cb visited) w deeds).countP kind
      = (Deed.collect cb what w deeds).length
        + ((Deed.collect cb (Deed.visits cb) w deeds).flatMap visited).countP kind := by
    -- The counts hold of any deeds. What the callbacks add is of no matter here.
    clear adds
    induction deeds with
    | nil => exact fun _ => rfl
    | cons deed rest ih =>
      intro w
      simp only [Deed.collect, List.countP_append, List.length_append, List.flatMap_append, each,
        ih]
      omega
  rw [view, view, seen_deeds adds, List.countP_append, sum]

end Counting

/-! ## What the log tells -/

/-- What the log of networks and engines tells, for any callbacks.

- `sends`: sending a message with discreet callbacks returns. The log has grown by what
  the table says that there is to tell: the rules that have decided, a drop, a handover;
- `advances`: while time passes, it grows by what there is to tell about the deliveries
  that are made, in their order;
- `fates`: in a run in which callbacks do what they want, it grows by what they add about
  the fates of messages, and by one note for each drop that is answered and one for each
  handover;
- `counts`: so there are as many notes of drops as such answers, and as many notes of
  handovers as handovers, apart from what callbacks add: where they send messages, this
  holds in turn. -/
structure LogTells (cb : Callbacks σ) : Prop where
  sends : ∀ network e w, (∀ visit ∈ network.visits cb e w, visit.Discreet cb) →
    ∃ answer told left, network.send cb e w = .ok answer left ∧
      SendLog cb network e w answer told (network.prompt cb e w) ∧
      left.events.toList = w.events.toList ++ told
  advances : ∀ ms w, (∀ visit ∈ Operation.visits cb w (.advance ms), visit.Discreet cb) →
    (Operation.perform cb w (.advance ms)).events.toList = w.events.toList
      ++ (Operation.late cb w (.advance ms)).flatMap Handover.told
  fates : ∀ w deeds (visited : Visit σ → List Fate),
    (∀ visit ∈ Deed.collect cb (Deed.visits cb) w deeds, visit.Adds cb Event.fate? visited) →
    (Deed.run cb w deeds).seen Event.fate?
      = w.seen Event.fate? ++ Deed.collect cb (Deed.fates cb visited) w deeds
  counts : ∀ w deeds (visited : Visit σ → List Fate),
    (∀ visit ∈ Deed.collect cb (Deed.visits cb) w deeds, visit.Adds cb Event.fate? visited) →
    (Deed.run cb w deeds).events.toList.countP Event.isDropped
        = w.events.toList.countP Event.isDropped
          + ((Deed.collect cb (Deed.dropped cb) w deeds).length
            + ((Deed.collect cb (Deed.visits cb) w deeds).flatMap visited).countP
              Fate.isDropped) ∧
      (Deed.run cb w deeds).events.toList.countP Event.isDelivering
        = w.events.toList.countP Event.isDelivering
          + ((Deed.collect cb (Deed.handovers cb) w deeds).length
            + ((Deed.collect cb (Deed.visits cb) w deeds).flatMap visited).countP
              (!Fate.isDropped ·))

/-- The log tells what has become of messages. -/
theorem log_tells (cb : Callbacks σ) : LogTells cb where
  sends _ _ _ := sendLog_send
  advances ms w discreet := by
    -- The full log is the view in which every event tells.
    have full : ∀ w : World σ, w.seen some = w.events.toList := fun w => List.filterMap_some
    have seen := seen_advance fun visit there => (discreet visit there).adds some
    rw [full, full] at seen
    rw [seen]
    refine congrArg (w.events.toList ++ ·) (List.flatMap_congr fun h there => ?_)
    exact addsLate_of_discreet fun visit run =>
      discreet visit (List.mem_flatMap.mpr ⟨h, there, run⟩)
  fates _ _ _ := seen_deeds
  counts _ _ _ adds :=
    ⟨countP_run (by rintro (_ | _ | _ | _ | _ | _ | _ | _ | _ | _ | _) <;> rfl)
        (fun w deed => (countP_fates w deed).1) adds,
      countP_run (by rintro (_ | _ | _ | _ | _ | _ | _ | _ | _ | _ | _) <;> rfl)
        (fun w deed => (countP_fates w deed).2) adds⟩

/-! ## A sink that sends messages on -/

namespace Relaying

open Steady (signature letter)

/-- Predicates and suppliers always answer the same. A sink sends messages on over network 1. -/
def callbacks : Callbacks signature :=
  { Steady.callbacks with
    accept := fun _ _ e => do
      let _ ← NetworkRef.send Steady.callbacks ⟨1⟩ e
      pure () }

/-- A network of two nodes. -/
def network (engine : EngineRef) (sink : Option Unit) : Network Unit where
  engine := engine
  latency := ⟨.zero, .ofSecs 60⟩
  nodes := [⟨1, ⟨.v4 127 0 0 1, 1⟩, .opened []⟩, ⟨2, ⟨.v4 127 0 0 2, 1⟩, .opened []⟩]
  sink := sink

/-- Two networks of the same two nodes. The first has a sink, an outbound rule that delays
messages by two seconds and an inbound rule that lets them wait no longer. The second drops all
messages, on their way in. -/
def world : World signature where
  engines := ⟨#[
    { rules := [Steady.rule .any (some true) (.delay (.computed (.ofSecs 2))) 0,
        { Steady.rule .any none (.delay (.fixed .zero)) 1 with direction := .inbound }]
      flags := #[true, true] },
    { rules := [{ Steady.rule .any none .drop 0 with direction := .inbound }]
      flags := #[true] }]⟩
  networks := ⟨#[network ⟨0⟩ (some ()), network ⟨1⟩ none]⟩
  hasRuntime := true
  memory := []

/-- A letter is sent over the first network. When this has no rules any more, it is sent again,
and then over the second network. -/
def deeds : List (Deed signature) :=
  [.operate (.send ⟨0⟩ letter), .operate (.alter ⟨0⟩ .reset), .operate (.send ⟨0⟩ letter),
    .operate (.send ⟨1⟩ letter)]

/-- What the sink adds about the fates of messages is what its sending adds. -/
def visited : Visit signature → List Fate
  | .asked _ => []
  | .handed _ _ e before => NetworkRef.fates Steady.callbacks (fun _ => []) ⟨1⟩ e before

/-- These callbacks note nothing. -/
theorem discreet_steady (visit : Visit signature) : visit.Discreet Steady.callbacks := by
  rcases visit with ⟨_ | _, before⟩ | _
  · exact .test rfl
  · exact .supply rfl
  · exact .accept rfl

/-- The predicates and suppliers note nothing. -/
theorem discreet_asked (made : Made signature) : Visit.Discreet callbacks (.asked made) := by
  rcases made with ⟨_ | _, before⟩
  · exact .test rfl
  · exact .supply rfl

/-- The sink adds what its own sending adds. -/
theorem adds_visited (visit : Visit signature) : visit.Adds callbacks Event.fate? visited := by
  cases visit with
  | asked made => exact (discreet_asked made).adds _
  | handed sink address e before =>
    have sent : (worldAfter (NetworkRef.send Steady.callbacks ⟨1⟩ e) before).seen Event.fate? = _ :=
      seen_send fun visit _ => (discreet_steady visit).adds Event.fate?
    refine Eq.trans ?_ sent
    show (worldAfter (NetworkRef.send Steady.callbacks ⟨1⟩ e >>= fun _ => pure ()) before).seen _
      = _
    unfold worldAfter
    cases answer : NetworkRef.send Steady.callbacks ⟨1⟩ e before with
    | ok said left => rw [bind_of_ok answer]; rfl
    | error panic left => rw [bind_of_error answer]; rfl

/-- First the two rules note that they have decided. In the end two letters are dropped, and one
of them has been handed to the sink before. -/
theorem log_tells_relaying :
    (∀ visit ∈ NetworkRef.visits callbacks ⟨0⟩ letter world, visit.Discreet callbacks) ∧
    (∃ answer told left, NetworkRef.send callbacks ⟨0⟩ letter world = .ok answer left ∧
      SendLog callbacks ⟨0⟩ letter world answer told
        (NetworkRef.prompt callbacks ⟨0⟩ letter world) ∧
      left.events.toList = world.events.toList ++ told ∧
      told = [.messageFiltered 0 .outbound letter (.delay (.ofSecs 2)),
        .messageFiltered 1 .inbound letter (.delay .zero)]) ∧
    (Deed.run callbacks world deeds).events.toList.countP Event.isDropped = 2 ∧
    (Deed.run callbacks world deeds).events.toList.countP Event.isDelivering = 1 := by
  have discreet : ∀ visit ∈ NetworkRef.visits callbacks ⟨0⟩ letter world,
      visit.Discreet callbacks := by
    -- The letter is delayed, so that only the predicates and suppliers run.
    have waits : NetworkRef.prompt callbacks ⟨0⟩ letter world = [] := rfl
    intro visit there
    rw [NetworkRef.visits, waits, List.flatMap_nil, List.append_nil] at there
    obtain ⟨made, -, rfl⟩ := List.mem_map.mp there
    exact discreet_asked made
  have tells := log_tells callbacks
  obtain ⟨answer, told, left, sends, log, events⟩ := tells.sends ⟨0⟩ letter world discreet
  obtain ⟨drops, handovers⟩ := tells.counts world deeds visited fun visit _ => adds_visited visit
  refine ⟨discreet, ⟨answer, told, left, sends, log, events, ?_⟩, drops.trans rfl,
    handovers.trans rfl⟩
  have noted : (worldAfter (NetworkRef.send callbacks ⟨0⟩ letter) world).events.toList
      = world.events.toList ++ told := by
    rw [worldAfter_of_ok sends]
    exact events
  exact noted.symm

end Relaying

end Netsieve
