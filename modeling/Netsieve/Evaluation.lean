import Netsieve.World

/-!
# `Netsieve.Evaluation`: the first rule that matches decides

`EngineRef.evaluate` goes through the rules that were in force when it started and
stops at the first that applies. A rule applies if it is switched on when its turn
comes, its direction and scopes fit, and its predicate, if it has one, says so;
each of these is only looked at if those before it hold. Then the rule's action is
the verdict. Without such a rule the message is delivered.

Predicates and suppliers may use the same engine while all this goes on. They do
not change which rules are gone through, because that list is taken once. They can
switch rules that are still to come, because flags are looked up in the world.
-/

set_option autoImplicit false

namespace Netsieve

variable {σ : Signature}

/-- A registered rule and the engine it belongs to. -/
structure RuleHandle (P S : Type) where
  engine : EngineRef
  rule : Rule P S

namespace RuleHandle

/-- Switches the rule on or off. -/
def switch (h : RuleHandle σ.Predicate σ.Supplier) (on : Bool) : Run σ Unit := do
  modify fun w => w.setEngine h.engine ((w.engine h.engine).switch h.rule on)
  emit (.ruleSwitched h.rule.id on)

/-- Whether the rule is switched on. -/
def isEnabled (h : RuleHandle σ.Predicate σ.Supplier) (w : World σ) : Bool :=
  (w.engine h.engine).isEnabled h.rule

/-- The diagnostic text of a handle. -/
def inspect (h : RuleHandle σ.Predicate σ.Supplier) (w : World σ) : List Char :=
  Inspect.record "FilterHandle" [("filter", h.rule.inspect (h.isEnabled w))]

end RuleHandle

namespace Rule

/-- Whether a rule of an engine applies to a transfer. -/
def applies (cb : Callbacks σ) (engine : EngineRef) (rule : Rule σ.Predicate σ.Supplier)
    (direction : Direction) (e : Envelope) : Run σ Bool := do
  -- The flag is read when it is the turn of the rule, as a predicate before may have
  -- switched it.
  let w ← get
  if (w.engine engine).isEnabled rule && rule.inScope direction e then
    match rule.content with
    | none => pure true
    | some predicate => cb.test predicate e
  else pure false

/-- What a rule decides about a message. -/
def verdict (cb : Callbacks σ) (rule : Rule σ.Predicate σ.Supplier) (e : Envelope) :
    Run σ Verdict :=
  match rule.action with
  | .drop => pure .drop
  | .delay (.fixed d) => pure (.delay d)
  | .delay (.computed supplier) => do
    let d ← cb.supply supplier e
    pure (.delay d)

end Rule

namespace EngineRef

/-- The first rule of a list that applies. -/
def firstMatch (cb : Callbacks σ) (engine : EngineRef) (direction : Direction) (e : Envelope) :
    List (Rule σ.Predicate σ.Supplier) → Run σ (Option (Rule σ.Predicate σ.Supplier))
  | [] => pure none
  | rule :: rest => do
    if ← rule.applies cb engine direction e then pure (some rule)
    else firstMatch cb engine direction e rest

/-- Decides about one transfer. -/
def evaluate (cb : Callbacks σ) (engine : EngineRef) (direction : Direction) (e : Envelope) :
    Run σ Verdict := do
  -- The chain is taken as it is now. What callbacks change of it concerns later
  -- evaluations.
  let w ← get
  match ← engine.firstMatch cb direction e (w.engine engine).rules with
  | none => pure .deliver
  | some rule =>
    let verdict ← rule.verdict cb e
    emit (.messageFiltered rule.id direction e verdict)
    pure verdict

/-- Whether a transfer may go on. -/
def permit (cb : Callbacks σ) (engine : EngineRef) (direction : Direction) (e : Envelope) :
    Run σ Bool := do
  let verdict ← engine.evaluate cb direction e
  pure verdict.permits

/-- Registers a rule. -/
def register (engine : EngineRef) (spec : RuleSpec σ.Predicate σ.Supplier) :
    Run σ (RuleHandle σ.Predicate σ.Supplier) := do
  -- The id of the new rule is told by how many rules there have ever been.
  let before := (← get).engine engine
  let rule := before.nextRule spec
  modify (·.setEngine engine (before.register spec))
  emit (.ruleRegistered (String.ofList (rule.inspect true)))
  pure ⟨engine, rule⟩

/-- Takes all rules out of force. -/
def reset (engine : EngineRef) : Run σ Unit := do
  let before := (← get).engine engine
  modify (·.setEngine engine before.reset)
  emit (.rulesReset before.size)

end EngineRef

end Netsieve
