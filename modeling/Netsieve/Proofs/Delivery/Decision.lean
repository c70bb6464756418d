import Netsieve.Proofs.Delivery.Posting
import Netsieve.Proofs.Evaluation.Course

/-!
# `Netsieve.Proofs.Delivery.Decision`: what sending answers, case by case

`Decision` is the table of sending: one row for every case, with the answer, the world that
is left behind, and the calls of predicates and suppliers that were made. How far a message
gets with the rules is told by `Ruled`, where each direction is asked as `Asked` says. The
conditions are about the nodes, the sink and the inbox as they were when the message was
sent, as long as predicates and suppliers leave the networks alone.

* `send_decision`: sending does what one of the rows says, and no two rows say different
  things. A log of the calls grows by those of the row.
-/

set_option autoImplicit false

namespace Netsieve

variable {σ : Signature}

/-! ## The table -/

/-- What one direction is asked.

- `ends`: how the evaluation ends;
- `made`: the calls that it makes, each of them once;
- `whose`: all of them are calls of rules of that direction. -/
structure Asked (cb : Callbacks σ) (engine : EngineRef) (direction : Direction) (e : Envelope)
    (w : World σ) (outcome : Outcome σ Verdict) (calls : List (Call σ)) : Prop where
  ends : engine.evaluate cb direction e w = outcome
  made : (engine.calls cb direction e w).map Made.call = calls
  whose : ∀ call ∈ calls, call.Belongs direction e (w.engine engine).rules

section Table

variable (cb : Callbacks σ) (network : NetworkRef) (e : Envelope) (w : World σ)

/-- What sending answers, which world it leaves, and which calls it makes.

- `unknown`: a node is not there, and nothing happens;
- `dropped`: a rule drops the message, which is noted;
- `broken`: a callback of a rule panics;
- `taken`, `spilt`: the message takes no time, and a sink is installed. It gets the message, and
  may panic;
- `queued`: the message takes no time, there is no sink, and the inbox of the receiver is open.
  It is placed there;
- `lost`: likewise, but the inbox is closed;
- `late`: the message takes time, and time can pass. One parcel is put on its way, which is due
  when that time is over: in so many milliseconds, rounded up, but not later than after thirty
  years of 365 days;
- `stranded`: the message takes time, which cannot pass. -/
inductive Decision : Outcome σ (Except Refusal Delivery) → List (Call σ) → Prop where
  | unknown {id : NodeId} {calls : List (Call σ)}
      (ruled : Ruled (Asked cb) network e w (.unknown id) calls) :
      Decision (.ok (.error (.unknownNode id)) w) calls
  | dropped {direction : Direction} {here : World σ} {calls : List (Call σ)}
      (ruled : Ruled (Asked cb) network e w (.dropped direction here) calls) :
      Decision (.ok (.ok (.dropped direction)) (here.record (.messageDropped e direction))) calls
  | broken {p : Panic} {here : World σ} {calls : List (Call σ)}
      (ruled : Ruled (Asked cb) network e w (.panicked p here) calls) :
      Decision (.error p here) calls
  | taken {target : Node} {there left : World σ} {calls : List (Call σ)} {sink : σ.Sink}
      (ruled : Ruled (Asked cb) network e w (.permitted target .zero there) calls)
      (installed : (w.network network).sink = some sink)
      (takes : cb.accept sink target.address e (there.record (.delivering e true)) = .ok () left) :
      Decision (.ok (.ok .delivered) left) calls
  | spilt {target : Node} {there left : World σ} {calls : List (Call σ)} {sink : σ.Sink}
      {p : Panic} (ruled : Ruled (Asked cb) network e w (.permitted target .zero there) calls)
      (installed : (w.network network).sink = some sink)
      (takes : cb.accept sink target.address e (there.record (.delivering e true))
        = .error p left) :
      Decision (.error p left) calls
  | queued {target : Node} {there left : World σ} {calls : List (Call σ)} {queue : List Envelope}
      (ruled : Ruled (Asked cb) network e w (.permitted target .zero there) calls)
      (bare : (w.network network).sink = none) (opened : target.inbox = .opened queue)
      (placed : Placed network e.receiver e (there.record (.delivering e false)) left) :
      Decision (.ok (.ok .delivered) left) calls
  | lost {target : Node} {there : World σ} {calls : List (Call σ)}
      (ruled : Ruled (Asked cb) network e w (.permitted target .zero there) calls)
      (bare : (w.network network).sink = none) (closed : target.inbox = .closed) :
      Decision (.ok (.error (.inboxClosed e.receiver)) (there.record (.delivering e false))) calls
  | late {target : Node} {total : Duration} {there : World σ} {calls : List (Call σ)}
      (ruled : Ruled (Asked cb) network e w (.permitted target total there) calls)
      (slow : total ≠ .zero) (runtime : there.hasRuntime = true) :
      Decision (.ok (.ok (.delayed total)) { there with
        pending := w.pending ++
          [⟨w.clock + min ((total.toNanos + 999999) / 1000000) 946080000000, network,
            target.address, e⟩] }) calls
  | stranded {target : Node} {total : Duration} {there : World σ} {calls : List (Call σ)}
      (ruled : Ruled (Asked cb) network e w (.permitted target total there) calls)
      (slow : total ≠ .zero) (frozen : there.hasRuntime = false) :
      Decision (.ok (.error .noRuntime) there) calls

end Table

/-! ## A row tells what sending does -/

section Rows

variable {cb : Callbacks σ} {network : NetworkRef} {e : Envelope} {w : World σ}

/-- Whatever a direction is asked, it answers, and its rules make the calls. -/
theorem asked_evaluate (cb : Callbacks σ) (engine : EngineRef) (direction : Direction)
    (e : Envelope) (w : World σ) :
    Asked cb engine direction e w (engine.evaluate cb direction e w)
      ((engine.calls cb direction e w).map Made.call) := by
  refine ⟨rfl, rfl, fun call called => ?_⟩
  obtain ⟨made, there, rfl⟩ := List.mem_map.mp called
  exact belongs_of_mem_calls there

/-- Every message meets a ruling, with the calls that both directions make for it. -/
theorem ruled_asked (cb : Callbacks σ) (network : NetworkRef) (e : Envelope) (w : World σ) :
    ∃ ruling calls, Ruled (Asked cb) network e w ruling calls :=
  exists_ruled (fun engine direction e w => ⟨_, _, asked_evaluate cb engine direction e w⟩)
    network e w

/-- The way of a message ends as its ruling says. -/
theorem route_of_asked {ruling : Ruling σ} {calls : List (Call σ)}
    (ruled : Ruled (Asked cb) network e w ruling calls) :
    network.route cb e w = ruling.routed e w :=
  ruled.route_eq Asked.ends

/-- A world with the same networks has the same network behind each reference. -/
theorem network_of_aloof {here : World σ} (h : World.Aloof w here) (ref : NetworkRef) :
    here.network ref = w.network ref := by
  rw [World.network, h.networks, World.network]

/-- A message that is permitted and takes no time is handed over. -/
theorem send_of_prompt {target : Node} {there : World σ} {calls : List (Call σ)}
    {outcome : Outcome σ (Except Refusal Unit)}
    (ruled : Ruled (Asked cb) network e w (.permitted target .zero there) calls)
    (ends : HandOverEnds cb network e target.address there outcome) :
    network.send cb e w = handedOver outcome := by
  have prompt : Duration.zero.isZero = true := rfl
  rw [send_eq, bind_of_ok (route_of_asked ruled)]
  show network.forward cb target.address e .zero there = _
  rw [forward_of_zero prompt, Handover.outcome, ends.eq]

variable (aloof : cb.Within World.Aloof)
include aloof

/-- Until a message is permitted, the networks, the time and what is on its way stay as they
are. -/
theorem aloof_of_permitted {target : Node} {total : Duration} {there : World σ}
    {calls : List (Call σ)}
    (ruled : Ruled (Asked cb) network e w (.permitted target total there) calls) :
    World.Aloof w there :=
  ruled.consulted Asked.ends World.Aloof World.Aloof.frame aloof

/-- The inbox of the receiver is as it was when the message was sent. -/
theorem box?_of_permitted {target : Node} {total : Duration} {there : World σ}
    {calls : List (Call σ)}
    (ruled : Ruled (Asked cb) network e w (.permitted target total there) calls) :
    (there.network network).box? e.receiver = some target.inbox := by
  rw [network_of_aloof (aloof_of_permitted aloof ruled), Network.box?, ruled.receiver,
    Option.map_some]

/-- Sending does what a row of the table says, if its conditions hold. -/
theorem send_of_decision {outcome : Outcome σ (Except Refusal Delivery)} {calls : List (Call σ)}
    (h : Decision cb network e w outcome calls) : network.send cb e w = outcome := by
  cases h with
  | unknown ruled => exact (send_eq w).trans (bind_of_ok (route_of_asked ruled))
  | dropped ruled => exact (send_eq w).trans (bind_of_ok (route_of_asked ruled))
  | broken ruled => exact (send_eq w).trans (bind_of_error (route_of_asked ruled))
  | taken ruled installed takes =>
    -- The table tells the sink as it was when the message was sent, and the handover finds
    -- the same one, because the rules have left the networks alone.
    rw [← network_of_aloof (aloof_of_permitted aloof ruled)] at installed
    exact send_of_prompt ruled (.taken installed takes)
  | spilt ruled installed takes =>
    rw [← network_of_aloof (aloof_of_permitted aloof ruled)] at installed
    exact send_of_prompt ruled (.spilt installed takes)
  | queued ruled bare opened placed =>
    rw [← network_of_aloof (aloof_of_permitted aloof ruled)] at bare
    exact send_of_prompt ruled (.queued bare placed)
  | lost ruled bare closed =>
    -- The same goes for the inbox.
    have box := box?_of_permitted aloof ruled
    rw [closed] at box
    rw [← network_of_aloof (aloof_of_permitted aloof ruled)] at bare
    exact send_of_prompt ruled (.lost bare (.inr box))
  | @late target total there calls ruled slow runtime =>
    -- The parcel counts from the moment of sending, and the rules take no time.
    have kept := (aloof_of_permitted aloof ruled).calm
    have takes : total.isZero = false := Bool.eq_false_iff.mpr (mt Duration.isZero_iff.mp slow)
    rw [send_eq, bind_of_ok (route_of_asked ruled), ← kept.pending, ← kept.clock]
    exact forward_of_runtime takes runtime
  | @stranded target total there calls ruled slow frozen =>
    have takes : total.isZero = false := Bool.eq_false_iff.mpr (mt Duration.isZero_iff.mp slow)
    rw [send_eq, bind_of_ok (route_of_asked ruled)]
    exact forward_of_frozen takes frozen

/-! ## There is a row for every case -/

/-- If both directions permit the message, the rest of the table covers what can become of
it. -/
theorem decision_of_permitted {target : Node} {total : Duration} {there : World σ}
    {calls : List (Call σ)}
    (ruled : Ruled (Asked cb) network e w (.permitted target total there) calls) :
    ∃ outcome, Decision cb network e w outcome calls := by
  -- Without a delay the sink and then the inbox decide, as they were when the message was
  -- sent. With one it matters only whether time can pass.
  by_cases slow : total = .zero
  · subst slow
    cases installed : (w.network network).sink with
    | some sink =>
      cases takes : cb.accept sink target.address e (there.record (.delivering e true)) with
      | ok _ w' => exact ⟨_, .taken ruled installed takes⟩
      | error p w' => exact ⟨_, .spilt ruled installed takes⟩
    | none =>
      cases inbox : target.inbox with
      | opened queue =>
        have box : ((there.record (.delivering e false)).network network).box? e.receiver
            = some (.opened queue) := by
          rw [World.network_record, box?_of_permitted aloof ruled, inbox]
        exact ⟨_, .queued ruled installed inbox (.setInbox box e)⟩
      | closed => exact ⟨_, .lost ruled installed inbox⟩
  · cases runtime : there.hasRuntime with
    | true => exact ⟨_, .late ruled slow runtime⟩
    | false => exact ⟨_, .stranded ruled slow runtime⟩

variable (network e w)

/-- Whatever there is to send, there is a row for it. -/
theorem exists_decision : ∃ outcome calls, Decision cb network e w outcome calls := by
  obtain ⟨ruling, calls, ruled⟩ := ruled_asked cb network e w
  cases ruling with
  | unknown id => exact ⟨_, calls, .unknown ruled⟩
  | dropped direction here => exact ⟨_, calls, .dropped ruled⟩
  | panicked p here => exact ⟨_, calls, .broken ruled⟩
  | permitted target total there =>
    obtain ⟨outcome, row⟩ := decision_of_permitted aloof ruled
    exact ⟨outcome, calls, row⟩

end Rows

/-! ## The calls of a row -/

/-- A log of calls that is left alone by what else there is to sending: sinks, inboxes and
parcels. -/
structure Callbacks.Notes (cb : Callbacks σ) (log : World σ → List (Call σ)) : Prop
    extends cb.Logs log where
  accept : ∀ sink address e w, log (worldAfter (cb.accept sink address e) w) = log w
  networks : ∀ (w : World σ) network changed, log (w.setNetwork network changed) = log w
  pending : ∀ (w : World σ) parcels, log { w with pending := parcels } = log w

section Notes

variable {cb : Callbacks σ} {network : NetworkRef} {e : Envelope} {w : World σ}
  {log : World σ → List (Call σ)} (notes : cb.Notes log)
include notes

/-- A log grows by the calls of a direction that is asked. -/
theorem log_asked {engine : EngineRef} {direction : Direction} {outcome : Outcome σ Verdict}
    {calls : List (Call σ)} (asked : Asked cb engine direction e w outcome calls) :
    log (Outcome.world outcome) = log w ++ calls := by
  rw [← asked.ends, ← asked.made]
  exact log_course notes.toLogs (course_evaluate cb engine direction e w)

/-- If both directions are asked, it grows by the calls of the first and then of the second. -/
theorem log_both {engine : EngineRef} {verdict : Verdict} {here : World σ}
    {outcome : Outcome σ Verdict} {out into : List (Call σ)}
    (leaves : Asked cb engine .outbound e w (.ok verdict here) out)
    (enters : Asked cb engine .inbound e here outcome into) :
    log (Outcome.world outcome) = log w ++ (out ++ into) := by
  have first : log here = log w ++ out := log_asked notes leaves
  rw [log_asked notes enters, first, List.append_assoc]

/-- Until a message has met its ruling, a log grows by the calls that this took. -/
theorem log_ruled {ruling : Ruling σ} {calls : List (Call σ)}
    (ruled : Ruled (Asked cb) network e w ruling calls) :
    log (Outcome.world (ruling.routed e w)) = log w ++ calls := by
  cases ruled with
  | unknownSender missing => exact (List.append_nil _).symm
  | unknownReceiver known missing => exact (List.append_nil _).symm
  | heldBack nodes leaves => exact (notes.record _ _).trans (log_asked notes leaves)
  | outboundPanic nodes leaves => exact log_asked notes leaves
  | keptOut nodes leaves waits enters =>
    exact (notes.record _ _).trans (log_both notes leaves enters)
  | inboundPanic nodes leaves waits enters => exact log_both notes leaves enters
  | permitted nodes leaves waits enters => exact log_both notes leaves enters

/-- A log grows by the calls of the row. -/
theorem log_decision {outcome : Outcome σ (Except Refusal Delivery)} {calls : List (Call σ)}
    (h : Decision cb network e w outcome calls) :
    log (Outcome.world outcome) = log w ++ calls := by
  cases h with
  | unknown ruled => exact log_ruled notes ruled
  | dropped ruled => exact log_ruled notes ruled
  | broken ruled => exact log_ruled notes ruled
  | @taken target there left calls sink ruled installed takes =>
    have before : log there = log w ++ calls := log_ruled notes ruled
    show log left = _
    rw [← worldAfter_of_ok takes, notes.accept, notes.record, before]
  | @spilt target there left calls sink p ruled installed takes =>
    have before : log there = log w ++ calls := log_ruled notes ruled
    show log left = _
    rw [← worldAfter_of_error takes, notes.accept, notes.record, before]
  | @queued target there left calls queue ruled bare opened placed =>
    have before : log there = log w ++ calls := log_ruled notes ruled
    -- `placed` tells the world only by what it answers, and the log needs the world itself.
    obtain ⟨filled, -, rfl⟩ := placed.eq_setInbox
    show log (World.setNetwork _ _ _) = _
    rw [notes.networks, notes.record, before]
  | lost ruled bare closed => exact (notes.record _ _).trans (log_ruled notes ruled)
  | @late target total there calls ruled slow runtime =>
    exact (notes.pending there _).trans (log_ruled notes ruled)
  | stranded ruled slow frozen => exact log_ruled notes ruled

end Notes

/-! ## Sending -/

/-- Sending does what the table says, as long as predicates and suppliers leave the networks
alone.

There is a row for every case, and no two rows differ in what they say. A sender that is
not there comes before a receiver that is not there, and both before any rule is asked.
Each direction is asked once at most, the inbound one after the outbound one and only if
that permits the message: a log of the calls grows by the calls of the row. The waits of
both directions make up the total delay, where no rule asks for none. A message without
delay is handed over before sending returns, to the sink if there is one and to the inbox
otherwise, and the answer is that the inbox is closed exactly if it is and there is no
sink. A message with a delay is put on its way once, if time can pass. -/
theorem send_decision (cb : Callbacks σ) (aloof : cb.Within World.Aloof) (network : NetworkRef)
    (e : Envelope) (w : World σ) :
    (∃ calls, Decision cb network e w (network.send cb e w) calls) ∧
    ∀ outcome calls, Decision cb network e w outcome calls →
      network.send cb e w = outcome ∧
      ∀ log, cb.Notes log → log (worldAfter (network.send cb e) w) = log w ++ calls := by
  -- The rows are functional: each says what sending answers. So one row that applies is all
  -- that has to be found.
  have rows : ∀ outcome calls, Decision cb network e w outcome calls →
      network.send cb e w = outcome := fun _ _ row => send_of_decision aloof row
  constructor
  · obtain ⟨outcome, calls, row⟩ := exists_decision network e w aloof
    refine ⟨calls, ?_⟩
    rw [rows outcome calls row]
    exact row
  · intro outcome calls row
    refine ⟨rows outcome calls row, fun log notes => ?_⟩
    rw [worldAfter, rows outcome calls row]
    exact log_decision notes row

/-! ## A message that is sent with callbacks that always answer the same -/

namespace Steady

/-- These callbacks have nothing to do with networks. -/
theorem callbacks_aloof : callbacks.Within World.Aloof :=
  ⟨fun _ _ _ => ⟨rfl, rfl, rfl⟩, fun _ _ _ => ⟨rfl, rfl, rfl⟩⟩

/-- What they remember is a log of their calls. -/
theorem callbacks_notes : callbacks.Notes calls where
  toLogs := callbacks_logs
  accept _ _ _ _ := rfl
  networks _ _ _ := rfl
  pending _ _ := rfl

/-- A network of two nodes, with an outbound rule that delays messages for so long, and two
inbound rules of which one says no and the other one lets messages wait no longer. -/
def office (wait : Duration) (inbox : Inbox) : World signature where
  engines := ⟨#[
    { rules := [{ rule .any (some false) .drop 0 with direction := .inbound },
        rule .any (some true) (.delay (.computed wait)) 1,
        { rule .any none (.delay (.fixed .zero)) 2 with direction := .inbound }]
      flags := #[true, true, true] }]⟩
  networks := ⟨#[
    { engine := ⟨0⟩
      latency := ⟨.zero, .ofSecs 60⟩
      nodes := [⟨1, ⟨.v4 127 0 0 1, 1⟩, .opened []⟩, ⟨2, ⟨.v4 127 0 0 2, 1⟩, inbox⟩] }]⟩
  hasRuntime := true
  memory := []

/-- A letter that is delayed by two seconds is put on its way. One that is delayed by no time is
in the inbox before sending it returns, or the inbox is closed. The outbound rule was asked first,
and its supplier before the inbound rules. -/
theorem send_decision_steady :
    callbacks.Within World.Aloof ∧
    (∃ left called, Decision callbacks ⟨0⟩ letter (office (.ofSecs 2) (.opened []))
        (.ok (.ok (.delayed (.ofSecs 2))) left) called ∧
      calls left = calls (office (.ofSecs 2) (.opened [])) ++ called ∧
      called = [.test true letter, .supply (.ofSecs 2) letter, .test false letter] ∧
      left.pending = [⟨2000, ⟨0⟩, ⟨.v4 127 0 0 2, 1⟩, letter⟩]) ∧
    (∃ left called, Decision callbacks ⟨0⟩ letter (office .zero (.opened []))
        (.ok (.ok .delivered) left) called ∧
      (left.network ⟨0⟩).box? 2 = some (.opened [letter]) ∧ left.pending = []) ∧
    ∃ left called, Decision callbacks ⟨0⟩ letter (office .zero .closed)
        (.ok (.error (.inboxClosed 2)) left) called ∧
      (left.network ⟨0⟩).box? 2 = some .closed := by
  have table (w : World signature) := send_decision callbacks callbacks_aloof ⟨0⟩ letter w
  refine ⟨callbacks_aloof, ?_, ?_, ?_⟩
  · obtain ⟨⟨called, row⟩, rows⟩ := table (office (.ofSecs 2) (.opened []))
    obtain ⟨-, logged⟩ := rows _ _ row
    have grown := logged calls callbacks_notes
    -- The memory can be computed. What the table says of the calls then follows from the
    -- log.
    have same : [.test true letter, .supply (.ofSecs 2) letter, .test false letter] = called :=
      grown
    exact ⟨_, called, row, grown, same.symm, rfl⟩
  · obtain ⟨⟨called, row⟩, -⟩ := table (office .zero (.opened []))
    exact ⟨_, called, row, rfl, rfl⟩
  · obtain ⟨⟨called, row⟩, -⟩ := table (office .zero .closed)
    exact ⟨_, called, row, rfl⟩

end Steady

end Netsieve
