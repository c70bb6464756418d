import Netsieve.Proofs.Operation
import Netsieve.Proofs.Scenario.Upkeep

/-!
# `Netsieve.Proofs.Schedule`: delayed messages arrive on time

What has to be handed over in a run, when and in which order, depends on nothing but the
moments at which messages were sent and their delays. `Timely` collects what that means,
and `run_timely` says that it holds of every run: whatever rules are registered, switched
or reset after a message was sent, whatever becomes of other deliveries, and wherever the
run stops while time passes.

A message arrives when its delay is over, rounded up to whole milliseconds, but not later
than after thirty years. So it is not true that a message always takes as long as sending
it has answered (`arrives_before_delay`).
-/

set_option autoImplicit false

namespace Netsieve

variable {σ : Signature}

/-! ## What is sent -/

/-- A message that is to arrive later is the last one that is put on its way before
sending it returns. -/
theorem added_send {cb : Callbacks σ} (lawful : cb.Lawful) {network : NetworkRef} {e : Envelope}
    {w v : World σ} {delay : Duration}
    (answer : network.send cb e w = .ok (.ok (.delayed delay)) v) :
    ∃ target nested, (w.network network).node? e.receiver = some target ∧
      w.added v = nested ++ [⟨Clock.arrival w.clock delay, network, target.address, e⟩] := by
  obtain ⟨target, here, receiver, asked, -, rfl⟩ := late_of_delayed answer
  -- The callbacks may have sent messages themselves. Those are scheduled first.
  have before : World.Extends w here := asked _ World.Extends.frame lawful.within
  refine ⟨target, w.added here, receiver, World.added_of_pending ?_⟩
  rw [before.pending, before.clock, List.append_assoc]

/-! ## What a run hands over -/

/-- The delayed messages of a run arrive on time.

- `clock`: the clock moves by as much time as is let pass, and nothing keeps it from that;
- `sent`: a message whose sending has answered that it takes some time is put on its way,
  and it is due when that time is over, in whole milliseconds and within thirty years;
- `schedule`: what was put on its way is handed over in the order of due times, and in the
  order in which it was sent for the same time, each at the moment at which it is due;
  what is due later is still on its way;
- `once`: everything that is due by now was handed over as often as it was sent, and
  nothing else was;
- `inOrder`: of two parcels that are due by now the one sent first was handed over first,
  unless it was due later;
- `places`: each of them went to the sink that was installed at that moment, or else to
  the inbox of the receiver;
- `linked`: while time passes nothing happens but these handovers, one after the other;
- `split`: it does not matter whether time passes at once or with a stop. -/
structure Timely (cb : Callbacks σ) (w : World σ) (ops : List (Operation σ)) : Prop where
  clock : (run cb w ops).clock = w.clock + Operation.elapsed ops
  sent : ∀ first network e rest delay v, ops = first ++ .send network e :: rest →
    network.send cb e (run cb w first) = .ok (.ok (.delayed delay)) v →
    ∃ target nested, ((run cb w first).network network).node? e.receiver = some target ∧
      runSent cb w ops = runSent cb w first ++ nested
        ++ ⟨(run cb w first).clock + min ((delay.toNanos + 999999) / 1000000) 946080000000,
            network, target.address, e⟩
          :: runSent cb v rest
  schedule : OnSchedule w (run cb w ops) (runLate cb w ops) (runSent cb w ops)
  once : ∀ p, ((runLate cb w ops).map Handover.parcel).count p
    = if p.due ≤ (run cb w ops).clock then (w.pending ++ runSent cb w ops).count p else 0
  inOrder : ∀ p q, [p, q].Sublist (w.pending ++ runSent cb w ops) → p.due ≤ q.due →
    q.due ≤ (run cb w ops).clock → [p, q].Sublist ((runLate cb w ops).map Handover.parcel)
  places : ∀ h ∈ runLate cb w ops, HandOverEnds cb h.parcel.network h.parcel.envelope
    h.parcel.address h.before (h.outcome cb)
  linked : ∀ first ms rest, ops = first ++ .advance ms :: rest →
    Handover.Linked cb (run cb w first) (Operation.late cb (run cb w first) (.advance ms))
      (run cb w (first ++ [.advance ms]))
  split : ∀ first m n rest, ops = first ++ .advance m :: .advance n :: rest →
    run cb w ops = run cb w (first ++ .advance (m + n) :: rest) ∧
      runLate cb w ops = runLate cb w (first ++ .advance (m + n) :: rest) ∧
      runSent cb w ops = runSent cb w (first ++ .advance (m + n) :: rest)

section Timely

variable {cb : Callbacks σ} {w : World σ} {ops : List (Operation σ)}

/-- Where a message is sent in a run, it is put on its way between what was sent before
and what is sent afterwards. -/
theorem runSent_send (lawful : cb.Lawful) {first rest : List (Operation σ)}
    {network : NetworkRef} {e : Envelope} {delay : Duration} {v : World σ}
    (answer : network.send cb e (run cb w first) = .ok (.ok (.delayed delay)) v) :
    ∃ target nested, ((run cb w first).network network).node? e.receiver = some target ∧
      runSent cb w (first ++ .send network e :: rest) = runSent cb w first ++ nested
        ++ ⟨Clock.arrival (run cb w first).clock delay, network, target.address, e⟩
          :: runSent cb v rest := by
  obtain ⟨target, nested, receiver, added⟩ := added_send lawful answer
  have next : Operation.perform cb (run cb w first) (.send network e) = v :=
    worldAfter_of_ok answer
  have sent : Operation.sent cb (run cb w first) (.send network e)
      = nested ++ [⟨Clock.arrival (run cb w first).clock delay, network, target.address, e⟩] := by
    rw [← added, ← next]
    rfl
  refine ⟨target, nested, receiver, ?_⟩
  unfold runSent
  rw [collect_append, collect, sent, next]
  simp only [List.append_assoc, List.cons_append, List.nil_append]

/-- A parcel was handed over as often as it was sent, once it is due. -/
theorem OnSchedule.count_parcel {w' : World σ} {hs : List (Handover σ)} {sent : List Pending}
    (h : OnSchedule w w' hs sent) (p : Pending) :
    (hs.map Handover.parcel).count p
      = if p.due ≤ w'.clock then (w.pending ++ sent).count p else 0 := by
  rw [h.arrivals, (timetable_perm _).count_eq]
  by_cases due : p.due ≤ w'.clock
  · rw [if_pos due, List.count_filter (by simpa using due)]
  · rw [if_neg due, List.count_eq_zero]
    intro hp
    exact due (of_decide_eq_true (List.mem_filter.mp hp).2)

/-- Of two parcels that are due the one sent first was handed over first, unless it was due
later. -/
theorem OnSchedule.pair_sublist {w' : World σ} {hs : List (Handover σ)} {sent : List Pending}
    (h : OnSchedule w w' hs sent) {p q : Pending} (order : [p, q].Sublist (w.pending ++ sent))
    (before : p.due ≤ q.due) (due : q.due ≤ w'.clock) :
    [p, q].Sublist (hs.map Handover.parcel) := by
  rw [h.arrivals]
  refine pair_sublist_timetable ?_ before
  have both : [p, q].filter (fun p => p.due ≤ w'.clock) = [p, q] := by
    simp [due, Nat.le_trans before due]
  rw [← both]
  exact order.filter _

/-- In the middle of a run too, time can pass at once or in two parts. -/
theorem run_advance_add (cb : Callbacks σ) (w : World σ) (first : List (Operation σ)) (m n : Nat)
    (rest : List (Operation σ)) :
    run cb w (first ++ .advance m :: .advance n :: rest)
        = run cb w (first ++ .advance (m + n) :: rest) ∧
      runLate cb w (first ++ .advance m :: .advance n :: rest)
        = runLate cb w (first ++ .advance (m + n) :: rest) ∧
      runSent cb w (first ++ .advance m :: .advance n :: rest)
        = runSent cb w (first ++ .advance (m + n) :: rest) := by
  obtain ⟨whole, late_whole⟩ := advance_add cb m n (run cb w first)
  -- What is sent on the way is sent by the sinks that take the deliveries.
  have sent_whole : Operation.sent cb (run cb w first) (.advance (m + n))
      = Operation.sent cb (run cb w first) (.advance m)
        ++ Operation.sent cb (Operation.perform cb (run cb w first) (.advance m)) (.advance n) := by
    unfold Operation.sent
    simp only [late_whole, List.flatMap_append]
  refine ⟨?_, ?_, ?_⟩
  · rw [run_append, run_append, run_cons, run_cons, run_cons, whole]
  · unfold runLate
    rw [collect_append, collect_append]
    simp only [collect, whole, late_whole, List.append_assoc]
  · unfold runSent
    rw [collect_append, collect_append]
    simp only [collect, whole, sent_whole, List.append_assoc]

/-- Delayed messages arrive on time in every run that starts before anything that is on
its way is due. -/
theorem run_timely (cb : Callbacks σ) (lawful : cb.Lawful) (w : World σ) (early : w.Early)
    (ops : List (Operation σ)) : Timely cb w ops where
  clock := clock_run lawful ops w
  sent := by
    rintro first network e rest delay v rfl answer
    exact runSent_send lawful answer
  schedule := onSchedule_run lawful ops early
  once := (onSchedule_run lawful ops early).count_parcel
  inOrder _ _ := (onSchedule_run lawful ops early).pair_sublist
  places h _ := handOver_ends cb h.parcel.network h.parcel.envelope h.parcel.address h.before
  linked := by
    rintro first ms rest -
    rw [run_append]
    exact linked_advance cb ms (run cb w first)
  split := by
    rintro first m n rest rfl
    exact run_advance_add cb w first m n rest

end Timely

/-! ## Two nodes of a scenario -/

namespace Scenario

/-- A message from node 1 to node 2. -/
def letter (verb : UInt32) : Envelope := ⟨1, 2, Message.new verb []⟩

/-- A network of two nodes in which every message takes so many milliseconds. -/
def pair (ms : UInt64) : World script where
  engines := ⟨#[{}]⟩
  networks := ⟨#[
    { engine := ⟨0⟩
      latency := ⟨.ofMillis ms, .ofSecs 60⟩
      nodes := [⟨1, ⟨.v4 127 0 0 1, 1⟩, .opened []⟩, ⟨2, ⟨.v4 127 0 0 2, 1⟩, .opened []⟩] }]⟩
  hasRuntime := true
  memory := {}

/-- Nothing is on its way in this world yet. -/
theorem pair_early (ms : UInt64) : (pair ms).Early :=
  fun _ none => nomatch none

/-- Two messages on their way, a sink that panics at one of them, and a closed inbox. -/
theorem run_timely_pair :
    (callbacks maxDepth).Lawful ∧ (pair 5).Early ∧
      Timely (callbacks maxDepth) (pair 5)
        [.send ⟨0⟩ (letter 1), .setSink ⟨0⟩ ⟨"net", .panic "full"⟩, .advance 3,
          .send ⟨0⟩ (letter 2), .advance 2, .clearSink ⟨0⟩, .close ⟨0⟩ 2, .alter ⟨0⟩ .reset,
          .advance 4] :=
  ⟨callbacks_lawful maxDepth, pair_early 5,
    run_timely (callbacks maxDepth) (callbacks_lawful maxDepth) (pair 5) (pair_early 5) _⟩

/-- What is on its way after one message was sent that takes more than thirty years. -/
def parcel : Pending := ⟨946080000000, ⟨0⟩, ⟨.v4 127 0 0 2, 1⟩, letter 1⟩

/-- A message is handed over after thirty years, though sending it has answered that it
takes a millisecond longer. -/
theorem arrives_before_delay :
    ∃ delay v, NetworkRef.send (callbacks maxDepth) ⟨0⟩ (letter 1) (pair 946080000001)
        = .ok (.ok (.delayed delay)) v ∧
      (pair 946080000001).clock + delay.ceilMillis = 946080000001 ∧
      (runLate (callbacks maxDepth) v [.advance 946080000000]).map
        (fun h => (h.parcel.envelope, h.before.clock)) = [(letter 1, 946080000000)] := by
  refine ⟨.ofMillis 946080000001, { pair 946080000001 with pending := [parcel] },
    by rfl, by decide, ?_⟩
  have due : nextDue? 0 946080000000 [parcel] = some ⟨946080000000, by decide⟩ := by decide +kernel
  unfold runLate
  rw [collect, collect, List.append_nil]
  show (late (callbacks maxDepth) 0 946080000000
    { pair 946080000001 with pending := [parcel] }).map _ = _
  rw [late_of_some (callbacks maxDepth) due, late_of_none (callbacks maxDepth) (by decide +kernel)]
  rfl

end Scenario

end Netsieve
