import Netsieve.Proofs.Timeline.Passage

/-!
# `Netsieve.Proofs.Operation`: everything that is done to networks and engines

A run is a row of operations, in any order: nodes are registered, messages are sent or
put into inboxes directly, sinks come and go, time passes, messages are taken out of
inboxes, inboxes are given up, engines change. An operation that panics has done what it
did before that, and the run goes on.

`runLate` and `runSent` collect what happened on the way: which parcels were handed over
by the passing of time, and which were put on their way. `onSchedule_run` says that all
of a run is on schedule.
-/

set_option autoImplicit false

namespace Netsieve

variable {σ : Signature}

/-- Something that is done to a network or to an engine.

- `register`: a node is registered;
- `send`: a message is sent;
- `deliver`: a message is put straight into the inbox at an endpoint;
- `setSink`: a sink is installed;
- `clearSink`: the sink is taken away;
- `advance`: so many milliseconds pass;
- `take`: the oldest message is taken out of the inbox of a node;
- `close`: the inbox of a node is given up;
- `alter`: an engine is changed. -/
inductive Operation (σ : Signature) where
  | register (network : NetworkRef) (id : NodeId) (address : Endpoint)
  | send (network : NetworkRef) (e : Envelope)
  | deliver (network : NetworkRef) (address : Endpoint) (e : Envelope)
  | setSink (network : NetworkRef) (sink : σ.Sink)
  | clearSink (network : NetworkRef)
  | advance (ms : Nat)
  | take (network : NetworkRef) (id : NodeId)
  | close (network : NetworkRef) (id : NodeId)
  | alter (engine : EngineRef) (change : Engine.Change σ.Predicate σ.Supplier)

/-- The world after the oldest message was taken out of an inbox. -/
def World.take (w : World σ) (network : NetworkRef) (id : NodeId) : World σ :=
  match (w.network network).dequeue? id with
  | some (_, changed) => w.setNetwork network changed
  | none => w

/-- Taking a message out of an inbox puts nothing on its way. -/
theorem calm_take (network : NetworkRef) (id : NodeId) (w : World σ) :
    World.Calm w (w.take network id) := by
  unfold World.take
  split <;> exact ⟨rfl, rfl⟩

namespace Operation

variable (cb : Callbacks σ)

/-- The world after an operation. -/
def perform (w : World σ) : Operation σ → World σ
  | .register network id address => worldAfter (network.register id address) w
  | .send network e => worldAfter (network.send cb e) w
  | .deliver network address e => worldAfter (network.deliver address e) w
  | .setSink network sink => worldAfter (network.setSink sink) w
  | .clearSink network => worldAfter network.clearSink w
  | .advance ms => worldAfter (Netsieve.advance cb ms) w
  | .take network id => w.take network id
  | .close network id => w.setNetwork network ((w.network network).closeInbox id)
  | .alter engine change => worldAfter (engine.change change) w

/-- What is handed over because time passes. -/
def late (w : World σ) : Operation σ → List (Handover σ)
  | .advance ms => Netsieve.late cb w.clock (w.clock + ms) w
  | _ => []

/-- What is put on its way in the course of an operation. -/
def sent (w : World σ) (op : Operation σ) : List Pending :=
  match op with
  | .advance _ => (op.late cb w).flatMap (Handover.sent cb)
  | _ => w.added (op.perform cb w)

/-- By how much an operation moves the clock. -/
def duration : Operation σ → Nat
  | .advance ms => ms
  | _ => 0

/-- By how much a row of operations moves the clock. -/
def elapsed : List (Operation σ) → Nat
  | [] => 0
  | op :: rest => op.duration + elapsed rest

end Operation

section Run

variable (cb : Callbacks σ)

/-- The world after a row of operations. -/
def run (w : World σ) (ops : List (Operation σ)) : World σ :=
  ops.foldl (Operation.perform cb) w

/-- What comes together in a run, one operation after the other. -/
def collect {β : Type} (what : World σ → Operation σ → List β) (w : World σ) :
    List (Operation σ) → List β
  | [] => []
  | op :: rest => what w op ++ collect what (op.perform cb w) rest

/-- What is handed over in a run because time passes. -/
abbrev runLate (w : World σ) (ops : List (Operation σ)) : List (Handover σ) :=
  collect cb (Operation.late cb) w ops

/-- What is put on its way in a run, in the order it was sent. -/
abbrev runSent (w : World σ) (ops : List (Operation σ)) : List Pending :=
  collect cb (Operation.sent cb) w ops

/-- A run starts with its first operation. -/
theorem run_cons (w : World σ) (op : Operation σ) (rest : List (Operation σ)) :
    run cb w (op :: rest) = run cb (op.perform cb w) rest :=
  rfl

/-- A run of two rows is the second one after the first. -/
theorem run_append (w : World σ) (first rest : List (Operation σ)) :
    run cb w (first ++ rest) = run cb (run cb w first) rest :=
  List.foldl_append

/-- What comes together in two rows is what comes together in one and then in the other. -/
theorem collect_append {β : Type} (what : World σ → Operation σ → List β) (w : World σ)
    (first rest : List (Operation σ)) :
    collect cb what w (first ++ rest)
      = collect cb what w first ++ collect cb what (run cb w first) rest := by
  induction first generalizing w with
  | nil => rfl
  | cons op first ih =>
    rw [List.cons_append, collect, ih, collect, List.append_assoc]
    rfl

/-! ## Time that passes -/

/-- Letting time pass means to deliver what falls due until then, in order. -/
theorem perform_advance_eq (ms : Nat) (w : World σ) :
    Operation.perform cb w (.advance ms)
      = worldAfter (advanceFrom cb w.clock (w.clock + ms)) w :=
  rfl

/-- So many milliseconds later the clock shows as many more. -/
theorem clock_advance (ms : Nat) (w : World σ) :
    (Operation.perform cb w (.advance ms)).clock = w.clock + ms := by
  obtain ⟨w', ends, clock, -⟩ := advanceFrom_eq cb w.clock (w.clock + ms) w
  rw [perform_advance_eq, worldAfter_of_ok ends, clock]

/-- While time passes nothing happens but that parcels are handed over. -/
theorem linked_advance (ms : Nat) (w : World σ) :
    Handover.Linked cb w (Operation.late cb w (.advance ms))
      (Operation.perform cb w (.advance ms)) := by
  obtain ⟨w', ends, -, linked⟩ := advanceFrom_eq cb w.clock (w.clock + ms) w
  rw [perform_advance_eq, worldAfter_of_ok ends]
  exact linked

/-- Time can pass at once or in two parts. -/
theorem advance_add (m n : Nat) (w : World σ) :
    Operation.perform cb w (.advance (m + n))
        = Operation.perform cb (Operation.perform cb w (.advance m)) (.advance n) ∧
      Operation.late cb w (.advance (m + n)) = Operation.late cb w (.advance m)
        ++ Operation.late cb (Operation.perform cb w (.advance m)) (.advance n) := by
  have stop : (Operation.perform cb w (.advance m)).clock = w.clock + m := clock_advance cb m w
  obtain ⟨whole, late_whole⟩ := advanceFrom_split cb (Nat.le_add_right w.clock m)
    (Nat.add_le_add_left (Nat.le_add_right m n) w.clock) w
  constructor
  · rw [perform_advance_eq cb n, perform_advance_eq, worldAfter, whole, stop, Nat.add_assoc]
    rfl
  · show late cb w.clock (w.clock + (m + n)) w
      = late cb w.clock (w.clock + m) w ++ late cb _ (_ + n) _
    rw [late_whole, stop, Nat.add_assoc]
    rfl

/-! ## One operation after the other is on schedule -/

variable {cb} (lawful : cb.Lawful)
include lawful

/-- An operation lets time pass, or it takes no time and at most puts something on its
way. -/
theorem perform_cases (op : Operation σ) (w : World σ) :
    (∃ ms, op = .advance ms) ∨
    (World.Extends w (op.perform cb w) ∧ op.late cb w = [] ∧
      op.sent cb w = w.added (op.perform cb w) ∧ op.duration = 0) := by
  cases op with
  | advance ms => exact .inl ⟨ms, rfl⟩
  | send network e => exact .inr ⟨extends_send lawful network e w, rfl, rfl, rfl⟩
  | register network id address =>
    exact .inr ⟨.of_calm (calm_register network id address w), rfl, rfl, rfl⟩
  | deliver network address e =>
    exact .inr ⟨.of_calm (calm_deliver network address e w), rfl, rfl, rfl⟩
  | setSink network sink => exact .inr ⟨.of_calm (calm_setSink network sink w), rfl, rfl, rfl⟩
  | clearSink network => exact .inr ⟨.of_calm (calm_clearSink network w), rfl, rfl, rfl⟩
  | take network id => exact .inr ⟨.of_calm (calm_take network id w), rfl, rfl, rfl⟩
  | close network id => exact .inr ⟨.of_calm ⟨rfl, rfl⟩, rfl, rfl, rfl⟩
  | alter engine change => exact .inr ⟨.of_calm (calm_change engine change w), rfl, rfl, rfl⟩

/-- An operation moves the clock by its duration, whatever else it does. -/
theorem clock_perform (op : Operation σ) (w : World σ) :
    (op.perform cb w).clock = w.clock + op.duration := by
  rcases perform_cases lawful op w with ⟨ms, rfl⟩ | ⟨extends_op, -, -, none⟩
  · exact clock_advance cb ms w
  · rw [extends_op.clock, none, Nat.add_zero]

/-- A run moves the clock by the durations of its operations. -/
theorem clock_run (ops : List (Operation σ)) (w : World σ) :
    (run cb w ops).clock = w.clock + Operation.elapsed ops := by
  induction ops generalizing w with
  | nil => rfl
  | cons op rest ih => rw [run_cons, ih, clock_perform lawful, Operation.elapsed, Nat.add_assoc]

/-- Every operation is on schedule. -/
theorem onSchedule_perform (op : Operation σ) {w : World σ} (early : w.Early) :
    OnSchedule w (op.perform cb w) (op.late cb w) (op.sent cb w) := by
  rcases perform_cases lawful op w with ⟨ms, rfl⟩ | ⟨extends_op, nothing, sent, -⟩
  · exact onSchedule_advance lawful ms early
  · rw [nothing, sent]
    exact .of_extends extends_op early

/-- In a run parcels are handed over as they fall due. -/
theorem onSchedule_run (ops : List (Operation σ)) {w : World σ} (early : w.Early) :
    OnSchedule w (run cb w ops) (runLate cb w ops) (runSent cb w ops) := by
  induction ops generalizing w with
  | nil => exact .refl early
  | cons op rest ih =>
    have first := onSchedule_perform lawful op early
    exact first.trans (ih first.early)

end Run

end Netsieve
