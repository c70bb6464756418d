import Netsieve.Proofs.Delivery.Tally
import Netsieve.Proofs.Replay

/-!
# `Netsieve.Proofs.Chronicle`: what a run of operations does to an engine

Networks do nothing to engines of their own. What an operation changes about an engine is
what the callbacks change that run in its course, unless the operation itself is a change.
So with an account of all callbacks (`Callbacks.FullAccount`) every run has a chronicle: the
changes of the engine in their order, whoever made them.

* `engine_operations`: after a run an engine is what its chronicle has made of it.
* `engine_deeds`: the same for runs in which engines are also asked and looked at.
-/

set_option autoImplicit false

namespace Netsieve

variable {σ : Signature}

/-- An account of what all callbacks do to an engine.

- `accepted`: the changes that a sink makes;
- `accepted_eq`: a sink makes these changes and no other. -/
structure Callbacks.FullAccount (cb : Callbacks σ) (engine : EngineRef) extends
    cb.Account engine where
  accepted : σ.Sink → Endpoint → Envelope → World σ →
    List (Engine.Change σ.Predicate σ.Supplier)
  accepted_eq : ∀ sink address e w, (worldAfter (cb.accept sink address e) w).engine engine
    = (w.engine engine).applyAll (accepted sink address e w)

section Account

variable {cb : Callbacks σ} {engine : EngineRef} (account : cb.FullAccount engine)

/-- The changes that a callback makes when it is run. -/
def Callbacks.FullAccount.visited : Visit σ → List (Engine.Change σ.Predicate σ.Supplier)
  | .asked made => account.made made
  | .handed sink address e before => account.accepted sink address e before

/-- The changes that an operation makes to an engine. -/
def Operation.changes (w : World σ) (op : Operation σ) :
    List (Engine.Change σ.Predicate σ.Supplier) :=
  match op with
  | .alter other step => if other = engine then [step] else []
  | op => (op.visits cb w).flatMap account.visited

/-- The changes that a run makes to an engine, in order. -/
abbrev chronicle (w : World σ) (ops : List (Operation σ)) :
    List (Engine.Change σ.Predicate σ.Supplier) :=
  collect cb (Operation.changes account) w ops

/-! ## From visits to operations -/

/-- A visit changes the engine by the changes it stands for in the account. -/
theorem engine_visit (visit : Visit σ) :
    (visit.after cb).engine engine
      = (visit.before.engine engine).applyAll (account.visited visit) := by
  cases visit with
  | asked made => exact engine_after account.toAccount made
  | handed sink address e before => exact account.accepted_eq sink address e before

/-- The changes of an engine add up, and networks make none. -/
theorem tally_engine : Tally cb (fun w changes w' => w'.engine engine
    = (w.engine engine).applyAll changes) account.visited where
  trans first second := by rw [second, first, Engine.applyAll_append]
  idle := by
    intro w w' still
    rw [World.engine, still.engines]
    rfl
  inboxes _ _ _ _ := rfl
  visit := engine_visit account

/-- The engines are as they were. -/
def World.KeepsEngines (w w' : World σ) : Prop :=
  w'.engines = w.engines

/-- Keeping the engines can be chained and does not look at the log. -/
theorem World.KeepsEngines.frame : Frame (World.KeepsEngines (σ := σ)) where
  refl _ := rfl
  trans first second := second.trans first
  record _ _ := rfl

/-- An operation changes the engine by what the account says of it, and by nothing else. -/
theorem engine_operation (op : Operation σ) (w : World σ) :
    (op.perform cb w).engine engine
      = (w.engine engine).applyAll (op.changes account w) := by
  have tally := tally_engine account
  cases op with
  | send network e => exact tally.send network e w
  | advance ms => exact tally.advance ms w
  | deliver network address e => exact tally.deliver network address e w
  | take network id => exact tally.take network id w
  | close network id => exact tally.close network id w
  | alter other step => exact Use.engine_perform account.toAccount (.change other step) w
  | register network id address =>
    -- A registration is about a network. No engine hears of it.
    have kept : World.KeepsEngines w ((Operation.register network id address).perform cb w) :=
      leads_register network World.KeepsEngines.frame (fun _ _ _ _ _ _ => rfl) id address w
    rw [World.engine, kept]
    rfl
  | setSink | clearSink => rfl

/-- After a run an engine is what its chronicle has made of it. -/
theorem engine_operations (ops : List (Operation σ)) (w : World σ) :
    (run cb w ops).engine engine = (w.engine engine).applyAll (chronicle account w ops) :=
  (tally_engine account).run (fun w op => engine_operation account op w) w ops

/-! ## Runs in which engines are also asked -/

/-- Something that is done to networks or engines, or with an engine. -/
inductive Deed (σ : Signature) where
  | operate (op : Operation σ)
  | use (use : Use σ)

namespace Deed

/-- The world after a deed. -/
def perform (cb : Callbacks σ) (w : World σ) : Deed σ → World σ
  | .operate op => op.perform cb w
  | .use step => step.perform cb w

/-- The world after a row of deeds. -/
def run (cb : Callbacks σ) (w : World σ) (deeds : List (Deed σ)) : World σ :=
  deeds.foldl (perform cb) w

/-- The changes that a deed makes to an engine. -/
def changes (w : World σ) : Deed σ → List (Engine.Change σ.Predicate σ.Supplier)
  | .operate op => op.changes account w
  | .use step => step.changes account.toAccount w

/-- The changes that a row of deeds makes to an engine, in order. -/
def history (w : World σ) : List (Deed σ) → List (Engine.Change σ.Predicate σ.Supplier)
  | [] => []
  | deed :: rest => deed.changes account w ++ history (deed.perform cb w) rest

/-- After a row of deeds an engine is what their history has made of it. -/
theorem engine_deeds (deeds : List (Deed σ)) (w : World σ) :
    (run cb w deeds).engine engine = (w.engine engine).applyAll (history account w deeds) := by
  have one : ∀ (deed : Deed σ) (w : World σ), (deed.perform cb w).engine engine
      = (w.engine engine).applyAll (deed.changes account w) := by
    rintro (op | step) w
    · exact engine_operation account op w
    · exact Use.engine_perform account.toAccount step w
  induction deeds generalizing w with
  | nil => rfl
  | cons deed rest ih =>
    show (run cb (deed.perform cb w) rest).engine engine = _
    rw [ih, one, history, Engine.applyAll_append]

end Deed

end Account

end Netsieve
