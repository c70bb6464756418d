import Netsieve.Proofs.Evaluation.Frame

/-!
# `Netsieve.Proofs.Engine.Change`: what can be done to an engine

An engine changes in three ways: a rule is registered, all rules are taken out of
force, a rule is switched. `Change` is one of them as a value, so that what happened
to an engine can be written down and applied again (`applyAll`).

The programs that use an engine make exactly these changes (`engine_change`). What
callbacks do to an engine can therefore be told as changes as well: an `Account` does so
for every call. Callbacks have one as soon as they change an engine in no other way
(`Callbacks.Within.account`).
-/

set_option autoImplicit false

namespace Netsieve

namespace Engine

/-- A change of an engine.

- `register`: a rule is registered;
- `reset`: all rules are taken out of force;
- `switch`: a rule is switched on or off. -/
inductive Change (P S : Type) where
  | register (spec : RuleSpec P S)
  | reset
  | switch (rule : Rule P S) (on : Bool)

variable {P S : Type}

/-- Makes one change. -/
def apply (engine : Engine P S) : Change P S → Engine P S
  | .register spec => engine.register spec
  | .reset => engine.reset
  | .switch rule on => engine.switch rule on

/-- Makes changes in order. -/
def applyAll (engine : Engine P S) (changes : List (Change P S)) : Engine P S :=
  changes.foldl apply engine

/-- Changes one after the other are made in that order. -/
theorem applyAll_append (engine : Engine P S) (first second : List (Change P S)) :
    engine.applyAll (first ++ second) = (engine.applyAll first).applyAll second :=
  List.foldl_append

end Engine

variable {σ : Signature}

/-- Makes a change of an engine. -/
def EngineRef.change (engine : EngineRef) :
    Engine.Change σ.Predicate σ.Supplier → Run σ Unit
  | .register spec => do
    let _ ← engine.register spec
  | .reset => engine.reset
  | .switch rule on => RuleHandle.switch ⟨engine, rule⟩ on

/-- The program that makes a change puts the changed engine in its place, and logs that. -/
theorem change_eq (engine : EngineRef) (change : Engine.Change σ.Predicate σ.Supplier)
    (w : World σ) :
    ∃ event, engine.change change w
      = .ok () ((w.setEngine engine ((w.engine engine).apply change)).record event) := by
  cases change <;> exact ⟨_, rfl⟩

/-- The program that makes a change leaves an engine to which the change was applied. -/
theorem engine_change (engine : EngineRef) (change : Engine.Change σ.Predicate σ.Supplier)
    (w : World σ) :
    (worldAfter (engine.change change) w).engine engine = (w.engine engine).apply change := by
  obtain ⟨event, ends⟩ := change_eq engine change w
  rw [worldAfter_of_ok ends, World.engine_record, World.engine_setEngine_self]

/-- Between two worlds an engine has changed, if at all, by changes. -/
def EngineRef.Changed (engine : EngineRef) (w w' : World σ) : Prop :=
  ∃ changes, w'.engine engine = (w.engine engine).applyAll changes

namespace EngineRef.Changed

variable {engine : EngineRef}

/-- An engine that is the same has been changed by nothing. -/
theorem of_same {w w' : World σ} (same : w'.engine engine = w.engine engine) :
    engine.Changed w w' :=
  ⟨[], same⟩

/-- Being changed by changes alone can be chained and does not look at the log. -/
theorem frame : Frame (@Changed σ engine) where
  refl _ := of_same rfl
  trans := by
    rintro a b c ⟨first, hfirst⟩ ⟨second, hsecond⟩
    exact ⟨first ++ second, by rw [hsecond, hfirst, Engine.applyAll_append]⟩
  record _ _ := of_same rfl

/-- A change of any engine is a change of this one, or leaves it as it was. -/
theorem of_change (other : EngineRef) (change : Engine.Change σ.Predicate σ.Supplier) :
    Leads engine.Changed (other.change change : Run σ Unit) := by
  intro w
  by_cases same : other = engine
  · subst same
    exact ⟨[change], engine_change other change w⟩
  · refine of_same ?_
    cases change <;> exact World.engine_setEngine_of_ne w _ same

end EngineRef.Changed

/-! ## Callbacks that use an engine -/

/-- An account of what callbacks do to an engine: for every call, in whatever world it is
made, the changes it makes, in order.

- `tested`: the changes that a predicate makes;
- `supplied`: the changes that a supplier makes;
- `tested_eq`: a predicate makes these changes and no other;
- `supplied_eq`: a supplier makes these changes and no other. -/
structure Callbacks.Account (cb : Callbacks σ) (engine : EngineRef) where
  tested : σ.Predicate → Envelope → World σ → List (Engine.Change σ.Predicate σ.Supplier)
  supplied : σ.Supplier → Envelope → World σ → List (Engine.Change σ.Predicate σ.Supplier)
  tested_eq : ∀ predicate e w, (worldAfter (cb.test predicate e) w).engine engine
    = (w.engine engine).applyAll (tested predicate e w)
  supplied_eq : ∀ supplier e w, (worldAfter (cb.supply supplier e) w).engine engine
    = (w.engine engine).applyAll (supplied supplier e w)

/-- There is an account of callbacks that change an engine by changes at most. -/
noncomputable def Callbacks.Within.account {cb : Callbacks σ} {engine : EngineRef}
    (within : cb.Within engine.Changed) : cb.Account engine where
  tested predicate e w := Classical.choose (within.test predicate e w)
  supplied supplier e w := Classical.choose (within.supply supplier e w)
  tested_eq predicate e w := Classical.choose_spec (within.test predicate e w)
  supplied_eq supplier e w := Classical.choose_spec (within.supply supplier e w)

end Netsieve
