import Netsieve.Delivery
import Netsieve.Proofs.Program

/-!
# `Netsieve.Proofs.Evaluation.Frame`: an evaluation does what its callbacks do

Of its own an evaluation only writes to the log. So whatever relation its callbacks keep
to, it keeps to as well.
-/

set_option autoImplicit false

namespace Netsieve

variable {σ : Signature} {R : World σ → World σ → Prop} {cb : Callbacks σ}

/-- The predicates and suppliers keep to a relation. -/
structure Callbacks.Within (cb : Callbacks σ) (R : World σ → World σ → Prop) : Prop where
  test : ∀ predicate e, Leads R (cb.test predicate e)
  supply : ∀ supplier e, Leads R (cb.supply supplier e)

/-- All callbacks keep to a relation. -/
structure Callbacks.Obeys (cb : Callbacks σ) (R : World σ → World σ → Prop) : Prop where
  within : cb.Within R
  accept : ∀ sink address e, Leads R (cb.accept sink address e)

variable (frame : Frame R) (within : cb.Within R)
include frame within

/-- Whether a rule applies is found out by its predicate alone. -/
theorem leads_applies (engine : EngineRef) (rule : Rule σ.Predicate σ.Supplier)
    (direction : Direction) (e : Envelope) : Leads R (rule.applies cb engine direction e) := by
  refine Leads.get_bind fun w => ?_
  split
  · cases rule.content with
    | none => exact frame.refl w
    | some predicate => exact within.test predicate e w
  · exact frame.refl w

/-- What a rule decides is found out by its supplier alone. -/
theorem leads_verdict (rule : Rule σ.Predicate σ.Supplier) (e : Envelope) :
    Leads R (rule.verdict cb e) := by
  unfold Rule.verdict
  cases rule.action with
  | drop => exact Leads.pure frame _
  | delay source =>
    cases source with
    | fixed d => exact Leads.pure frame _
    | computed supplier =>
      exact Leads.bind frame (within.supply supplier e) fun d => Leads.pure frame _

/-- A scan does what its predicates do, and nothing else. -/
theorem leads_firstMatch (engine : EngineRef) (direction : Direction) (e : Envelope)
    (rules : List (Rule σ.Predicate σ.Supplier)) :
    Leads R (engine.firstMatch cb direction e rules) := by
  induction rules with
  | nil => exact Leads.pure frame _
  | cons rule rest ih =>
    refine Leads.bind frame (leads_applies frame within engine rule direction e) ?_
    intro applies
    cases applies with
    | false => exact ih
    | true => exact Leads.pure frame _

/-- An evaluation does what its predicates and its supplier do, and leaves a note. -/
theorem leads_evaluate (engine : EngineRef) (direction : Direction) (e : Envelope) :
    Leads R (engine.evaluate cb direction e) := by
  refine Leads.get_bind fun w => ?_
  refine Leads.bind frame (leads_firstMatch frame within engine direction e _) ?_ w
  intro found
  cases found with
  | none => exact Leads.pure frame _
  | some rule =>
    refine Leads.bind frame (leads_verdict frame within rule e) fun verdict => ?_
    exact Leads.bind frame (Leads.emit frame _) fun _ => Leads.pure frame _

end Netsieve
