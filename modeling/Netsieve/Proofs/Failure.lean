import Netsieve.Proofs.Delivery.Trail

/-!
# `Netsieve.Proofs.Failure`: what fails does no harm

Sending a message can fail in many ways, and so can evaluations, registrations and direct
deliveries. Some of these failures come late, when callbacks have already run. `Harmless`
says what all of them have in common: apart from what these callbacks did, everything is as
it was before.

* `runs_panic`: an evaluation panics with the first call that panics.
* `failures_harmless`: failures are harmless in every world.
-/

set_option autoImplicit false

namespace Netsieve

variable {σ : Signature} {cb : Callbacks σ}

/-! ## Panics of calls -/

/-- If calls end with a panic, it is that of the last one, and all others have returned. -/
theorem runs_panic {w v : World σ} {calls : List (Made σ)} {p : Panic}
    (runs : Made.Runs cb w calls (some p) v) :
    ∃ earlier last, calls = earlier ++ [last] ∧ (∀ made ∈ earlier, made.panic? cb = none) ∧
      last.panic? cb = some p ∧ v = last.after cb := by
  generalize broken : some p = ended at runs
  induction runs with
  | done => cases broken
  | @returned w v call calls ended returns _ ih =>
    obtain ⟨earlier, last, rfl, others, panics, left⟩ := ih broken
    refine ⟨⟨call, w⟩ :: earlier, last, rfl, fun made there => ?_, panics, left⟩
    rcases List.mem_cons.mp there with rfl | there
    · exact returns
    · exact others made there
  | @panicked w call q panics =>
    cases broken
    exact ⟨[], ⟨call, w⟩, rfl, fun made there => absurd there List.not_mem_nil, panics, rfl⟩

/-- If one of the calls panics, that is what they end with. -/
theorem runs_of_panic {w v : World σ} {calls : List (Made σ)} {ended : Option Panic}
    (runs : Made.Runs cb w calls ended v) {made : Made σ} (there : made ∈ calls) {p : Panic}
    (panics : made.panic? cb = some p) : ended = some p := by
  induction runs with
  | done => cases there
  | returned returns _ ih =>
    rcases List.mem_cons.mp there with rfl | there
    · rw [returns] at panics
      cases panics
    · exact ih there
  | panicked broken =>
    rw [List.mem_singleton.mp there] at panics
    exact broken.symm.trans panics

/-! ## Nodes that are not there -/

/-- Only if a node is not there does sending answer that it is unknown. -/
theorem missing_of_unknown {network : NetworkRef} {e : Envelope} {w v : World σ} {id : NodeId}
    (answer : network.send cb e w = .ok (.error (.unknownNode id)) v) :
    (w.network network).node? e.sender = none ∨ (w.network network).node? e.receiver = none := by
  have ends := send_ends cb network e w
  generalize network.send cb e w = outcome, network.prompt cb e w = hs at ends answer
  cases ends with
  | unknown party missing =>
    rcases party with rfl | rfl
    · exact .inl missing
    · exact .inr missing
  | dropped => cases answer
  | broken => cases answer
  | late => cases answer
  | stranded => cases answer
  | @handed target here receiver asked =>
    -- A handover refuses nothing but a message for a closed inbox.
    have handed := handOver_ends cb network e target.address here
    unfold Handover.outcome at answer
    generalize network.handOver cb target.address e here = outcome at handed answer
    cases handed <;> cases answer

/-- If a node is not there, sending says so, whatever the callbacks are: none of them runs. -/
theorem send_of_missing {network : NetworkRef} {e : Envelope} {w : World σ}
    (missing : (w.network network).node? e.sender = none ∨
      (w.network network).node? e.receiver = none) :
    ∃ id, ∀ cb : Callbacks σ, network.send cb e w = .ok (.error (.unknownNode id)) w ∧
      network.visits cb e w = [] := by
  obtain ⟨id, ruled⟩ := ruled_of_missing missing
  refine ⟨id, fun cb => ?_⟩
  have way := (ruled (EngineRef.Makes cb)).route_eq EngineRef.Makes.ends
  rw [send_eq, bind_of_ok way, NetworkRef.visits, (ruled _).calls_eq, prompt_of_route way]
  exact ⟨rfl, rfl⟩

/-! ## All failures -/

/-- The engines with all their rules and flags, the networks with all nodes, inboxes and sinks,
and what is on its way are as they were. -/
structure World.Intact (w w' : World σ) : Prop where
  engines : w'.engines = w.engines
  networks : w'.networks = w.networks
  pending : w'.pending = w.pending

/-- `Intact` can be chained and does not look at the log. -/
theorem World.Intact.frame : Frame (World.Intact (σ := σ)) where
  refl _ := ⟨rfl, rfl, rfl⟩
  trans first second := ⟨second.engines.trans first.engines, second.networks.trans first.networks,
    second.pending.trans first.pending⟩
  record _ _ := ⟨rfl, rfl, rfl⟩

/-- Whatever fails in a world does no harm.

- `unknown`: to send a message from or to a node that is not there runs no callback, so it
  does not matter what the callbacks are, and nothing happens;
- `sends`: if sending ends with a refusal, a drop or a panic, the callbacks that ran are
  all that has happened, one after the other, apart from notes in the log;
- `kept`: so every relation that these keep to is kept to;
- `intact`: in particular nothing is changed if they change nothing;
- `evaluations`: if an evaluation panics, that is the panic of the last of its calls. All
  calls before that have returned, and the world is left as the last one has left it;
- `panics`: if a call panics, the evaluation does;
- `later`: what comes after that meets the world as these calls have left it, which is the
  same world if they change nothing;
- `registrations`: to register a node in vain does nothing;
- `deliveries`: to deliver a message directly in vain does nothing, but that a note is
  left if nobody is there. -/
structure Harmless (cb : Callbacks σ) (w : World σ) : Prop where
  unknown : ∀ (network : NetworkRef) e id v,
    network.send cb e w = .ok (.error (.unknownNode id)) v →
    v = w ∧ ∀ cb' : Callbacks σ, network.send cb' e w = .ok (.error (.unknownNode id)) w ∧
      network.visits cb' e w = []
  sends : ∀ (network : NetworkRef) e, Fails (network.send cb e w) →
    Trail cb w (network.visits cb e w) (worldAfter (network.send cb e) w)
  kept : ∀ (network : NetworkRef) e, Fails (network.send cb e w) → ∀ R, Frame R →
    (∀ visit ∈ network.visits cb e w, R visit.before (visit.after cb)) →
    R w (worldAfter (network.send cb e) w)
  intact : ∀ (network : NetworkRef) e, Fails (network.send cb e w) →
    (∀ visit ∈ network.visits cb e w, World.Intact visit.before (visit.after cb)) →
    World.Intact w (worldAfter (network.send cb e) w)
  evaluations : ∀ (engine : EngineRef) direction e p v,
    engine.evaluate cb direction e w = .error p v →
    Made.Runs cb w (engine.calls cb direction e w) (some p) v ∧
    ∃ earlier last, engine.calls cb direction e w = earlier ++ [last] ∧
      (∀ made ∈ earlier, made.panic? cb = none) ∧ last.panic? cb = some p ∧ v = last.after cb
  panics : ∀ (engine : EngineRef) direction e, ∀ made ∈ engine.calls cb direction e w,
    ∀ p, made.panic? cb = some p → ∃ v, engine.evaluate cb direction e w = .error p v
  later : ∀ (engine : EngineRef) direction e p v,
    engine.evaluate cb direction e w = .error p v →
    v = (engine.calls cb direction e w).foldl (fun here made => Made.after cb ⟨made.call, here⟩) w ∧
    ((∀ made ∈ engine.calls cb direction e w, made.after cb = made.before) → v = w)
  registrations : ∀ (network : NetworkRef) id address refusal v,
    network.register id address w = .ok (.error refusal) v → v = w
  deliveries : ∀ (network : NetworkRef) address e v,
    network.deliver address e w = .ok false v → v = w ∨ v = w.record (.nobodyAt address)

/-- Calls leave the world to which they lead one after the other. -/
theorem foldl_runs {w v : World σ} {calls : List (Made σ)} {ended : Option Panic}
    (runs : Made.Runs cb w calls ended v) :
    v = calls.foldl (fun here made => Made.after cb ⟨made.call, here⟩) w := by
  induction runs with
  | done => rfl
  | returned _ _ ih => exact ih
  | panicked _ => rfl

/-- Calls that change nothing leave the world as it was. -/
theorem same_of_runs {w v : World σ} {calls : List (Made σ)} {ended : Option Panic}
    (runs : Made.Runs cb w calls ended v)
    (still : ∀ made ∈ calls, made.after cb = made.before) : v = w := by
  induction runs with
  | done => rfl
  | @returned w v call calls ended _ _ ih =>
    have first : Made.after cb ⟨call, w⟩ = w := still ⟨call, w⟩ List.mem_cons_self
    exact (ih fun made there => still made (List.mem_cons_of_mem _ there)).trans first
  | @panicked w call p _ => exact still ⟨call, w⟩ List.mem_cons_self

/-- If an evaluation panics, so do its calls. -/
theorem runs_of_evaluate {engine : EngineRef} {direction : Direction} {e : Envelope} {p : Panic}
    {w v : World σ} (broken : engine.evaluate cb direction e w = .error p v) :
    Made.Runs cb w (engine.calls cb direction e w) (some p) v := by
  obtain ⟨ended, here, runs, ends⟩ := runs_evaluate cb engine direction e w
  rw [broken] at ends
  cases ends with
  | panicked => exact runs

/-- If a call of an evaluation panics, so does the evaluation. -/
theorem evaluate_of_panic {engine : EngineRef} {direction : Direction} {e : Envelope} {p : Panic}
    {w : World σ} {made : Made σ} (there : made ∈ engine.calls cb direction e w)
    (panics : made.panic? cb = some p) : ∃ v, engine.evaluate cb direction e w = .error p v := by
  obtain ⟨ended, here, runs, ends⟩ := runs_evaluate cb engine direction e w
  have broken := runs_of_panic runs there panics
  generalize engine.evaluate cb direction e w = outcome at ends
  cases ends with
  | panicked q =>
    cases broken
    exact ⟨here, rfl⟩
  | unmatched => cases broken
  | decided => cases broken

/-- Failures are harmless.

Whether sending ends because a node is not there, a rule drops the message, time cannot pass
or an inbox is closed, or because a predicate, a supplier or a sink panics: what the callbacks
did that ran is all that has happened to nodes, inboxes, sinks, engines and parcels. An
evaluation passes on the first panic and asks nobody after that. Registering a node in vain
and delivering a message directly in vain change nothing. -/
theorem failures_harmless (cb : Callbacks σ) (w : World σ) : Harmless cb w where
  unknown network e id v answer := by
    obtain ⟨other, ends⟩ := send_of_missing (missing_of_unknown answer)
    -- What is answered for any callbacks is answered for these.
    have same := (ends cb).1
    rw [answer] at same
    cases same
    exact ⟨rfl, ends⟩
  sends _ _ fails := trail_send_of_fails fails
  kept _ _ fails _ frame kept := (trail_send_of_fails fails).related frame kept
  intact _ _ fails kept := (trail_send_of_fails fails).related World.Intact.frame kept
  evaluations _ _ _ _ _ broken := ⟨runs_of_evaluate broken, runs_panic (runs_of_evaluate broken)⟩
  panics _ _ _ _ there _ panics := evaluate_of_panic there panics
  later _ _ _ _ _ broken :=
    ⟨foldl_runs (runs_of_evaluate broken), same_of_runs (runs_of_evaluate broken)⟩
  registrations network id address refusal v answer := by
    have ends := register_ends network id address w
    rw [answer] at ends
    cases ends
    rfl
  deliveries network address e v answer := by
    have ends := deliver_ends network address e w
    rw [answer] at ends
    cases ends with
    | nobody empty => exact .inr rfl
    | lost there closed => exact .inl rfl

/-! ## Callbacks that panic -/

namespace Failing

open Steady (signature letter)

/-- A predicate that says no and one that panics, and sinks that panic. -/
def callbacks : Callbacks signature where
  test answers _ := if answers then pure false else panic "no answer"
  supply delay _ := pure delay
  accept _ _ _ := panic "full"

/-- Two nodes with a sink, and an engine with a rule that says no, one that panics and one
that comes too late. -/
def world : World signature where
  engines := ⟨#[
    { rules := [Steady.rule .any (some true) .drop 0, Steady.rule .any (some false) .drop 1,
        Steady.rule .any (some true) .drop 2]
      flags := #[true, true, true] }]⟩
  networks := ⟨#[
    { engine := ⟨0⟩
      latency := ⟨.zero, .ofSecs 60⟩
      nodes := [⟨1, ⟨.v4 127 0 0 1, 1⟩, .opened []⟩, ⟨2, ⟨.v4 127 0 0 2, 1⟩, .opened []⟩]
      sink := some () }]⟩
  memory := []

/-- The same nodes and sink, and an engine without rules. -/
def unruled : World signature :=
  { world with engines := ⟨#[{}]⟩ }

/-- None of these callbacks changes anything. -/
theorem after_eq (made : Made signature) : made.after callbacks = made.before := by
  obtain ⟨⟨answers, _⟩ | _, before⟩ := made
  · cases answers <;> rfl
  · rfl

/-- None of these callbacks does anything to engines, networks or parcels. -/
theorem intact_after (visit : Visit signature) :
    World.Intact visit.before (visit.after callbacks) := by
  cases visit with
  | asked made =>
    show World.Intact made.before (made.after callbacks)
    rw [after_eq made]
    exact World.Intact.frame.refl made.before
  | handed sink address e before => exact World.Intact.frame.refl before

/-- The panic of the second predicate is passed on, the third one is not asked, and what comes
later meets the world as it was. Without rules the message goes through, and the panic of the
sink does no harm either. -/
theorem failures_harmless_failing :
    (∃ p v, EngineRef.evaluate callbacks ⟨0⟩ .outbound letter world = .error p v ∧ v = world) ∧
    (EngineRef.calls callbacks ⟨0⟩ .outbound letter world).map Made.call
      = [.test true letter, .test false letter] ∧
    World.Intact world (worldAfter (NetworkRef.send callbacks ⟨0⟩ letter) world) ∧
    World.Intact unruled (worldAfter (NetworkRef.send callbacks ⟨0⟩ letter) unruled) := by
  have breaks : EngineRef.evaluate callbacks ⟨0⟩ .outbound letter world
      = .error ⟨"no answer"⟩ world := rfl
  have sends : Fails (NetworkRef.send callbacks ⟨0⟩ letter world) :=
    .panicked ⟨"no answer"⟩ world
  have spills : Fails (NetworkRef.send callbacks ⟨0⟩ letter unruled) :=
    .panicked ⟨"full"⟩ (unruled.record (.delivering letter true))
  have harmless := failures_harmless callbacks world
  exact ⟨⟨_, _, breaks, (harmless.later _ _ _ _ _ breaks).2 fun made _ => after_eq made⟩, rfl,
    harmless.intact _ _ sends fun visit _ => intact_after visit,
    (failures_harmless callbacks unruled).intact _ _ spills fun visit _ => intact_after visit⟩

end Failing

end Netsieve
