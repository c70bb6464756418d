import Netsieve.Proofs.Engine.History
import Netsieve.Proofs.Evaluation.FirstMatch

/-!
# `Netsieve.Proofs.Evaluation.Agreement`: what an evaluation does not look at

Two worlds resemble each other if they differ at most in the flags of rules that a reset
has taken out of force, and in the log of events (`World.Resembles`). Programs agree if in
worlds that resemble each other they end in the same way and leave such worlds (`Agrees`).

* `agrees_evaluate`: evaluations agree as soon as their callbacks do, if related worlds look
  the same to them (`Sight`). Of its own an evaluation does not look at the flag of a rule
  that is no longer in force (`Resembles.sight`).
* `agrees_change`, `Resembles.switch`: changes of engines agree, and switching such a rule
  in one world keeps it like the other one.
-/

set_option autoImplicit false

namespace Netsieve

variable {σ : Signature} {α β : Type}

/-- Two worlds differ at most in the log of events and in the flags that an engine has for
rules with serials below a bound, which are not in force. -/
structure World.Resembles (engine : EngineRef) (bound : Nat) (w w' : World σ) : Prop where
  engines : (w.engine engine).Alike bound (w'.engine engine)
  others : ∀ other, other ≠ engine → w'.engine other = w.engine other
  width : w'.engines.size = w.engines.size
  networks : w'.networks = w.networks
  clock : w'.clock = w.clock
  pending : w'.pending = w.pending
  runtime : w'.hasRuntime = w.hasRuntime
  memory : w'.memory = w.memory

/-- Two programs end in the same way, and leave worlds that a relation relates. -/
inductive Outcome.Matches (R : World σ → World σ → Prop) : Outcome σ α → Outcome σ α → Prop where
  | ok (a : α) {w w' : World σ} (left : R w w') : Matches R (.ok a w) (.ok a w')
  | error (p : Panic) {w w' : World σ} (left : R w w') : Matches R (.error p w) (.error p w')

/-- Two programs that end in the same way leave related worlds. -/
theorem world_matches {R : World σ → World σ → Prop} {outcome outcome' : Outcome σ α}
    (h : Outcome.Matches R outcome outcome') :
    R (Outcome.world outcome) (Outcome.world outcome') := by
  cases h with
  | ok a left => exact left
  | error p left => exact left

/-- From worlds that a relation relates two programs end in the same way. -/
def Agrees (R : World σ → World σ → Prop) (program program' : Run σ α) : Prop :=
  ∀ w w', R w w' → Outcome.Matches R (program w) (program' w')

namespace Agrees

variable {R : World σ → World σ → Prop}

/-- To answer at once is the same from related worlds. -/
theorem pure (a : α) : Agrees R (Pure.pure a : Run σ α) (Pure.pure a) :=
  fun _ _ same => .ok a same

/-- Programs that agree step by step agree. -/
theorem bind {first first' : Run σ α} {next next' : α → Run σ β} (hfirst : Agrees R first first')
    (hnext : ∀ a, Agrees R (next a) (next' a)) :
    Agrees R (first >>= next) (first' >>= next') := by
  intro w w' same
  have start := hfirst w w' same
  generalize ends : first w = outcome, ends' : first' w' = outcome' at start
  cases start with
  | ok a left =>
    rw [bind_of_ok ends, bind_of_ok ends']
    exact hnext a _ _ left
  | error p left =>
    rw [bind_of_error ends, bind_of_error ends']
    exact .error p left

/-- Programs that agree still do so if their panics are forgotten. -/
theorem isolated {program program' : Run σ Unit} (h : Agrees R program program') :
    Agrees R (isolated program) (isolated program') := by
  intro w w' same
  have ends := h w w' same
  unfold Netsieve.isolated
  generalize program w = outcome, program' w' = outcome' at ends
  cases ends with
  | ok _ left => exact .ok () left
  | error _ left => exact .ok () left

/-- Loops over the same list agree if their bodies do. -/
theorem forM {β : Type} {program program' : β → Run σ Unit} {bs : List β}
    (h : ∀ b ∈ bs, Agrees R (program b) (program' b)) :
    Agrees R (bs.forM program) (bs.forM program') := by
  induction bs with
  | nil => exact .pure ()
  | cons b rest ih =>
    refine .bind (h b List.mem_cons_self) fun _ => ?_
    exact ih fun other there => h other (List.mem_cons_of_mem b there)

end Agrees

namespace World.Resembles

variable {engine : EngineRef} {bound : Nat} {w w' : World σ}

/-- A world resembles itself. -/
theorem refl (recent : (w.engine engine).Recent bound) : Resembles engine bound w w :=
  ⟨.refl recent, fun _ _ => rfl, rfl, rfl, rfl, rfl, rfl, rfl⟩

/-- Entries in the log make no difference. -/
theorem record (h : Resembles engine bound w w') (event event' : Event) :
    Resembles engine bound (w.record event) (w'.record event') :=
  ⟨h.engines, h.others, h.width, h.networks, h.clock, h.pending, h.runtime, h.memory⟩

/-- Worlds that resemble each other have the same rules in force, in all engines. -/
theorem rules (h : Resembles engine bound w w') (ref : EngineRef) :
    (w'.engine ref).rules = (w.engine ref).rules := by
  by_cases same : ref = engine
  · rw [same, h.engines.rules]
  · rw [h.others ref same]

/-- A rule is on or off in both worlds, unless it is no longer in force. -/
theorem isEnabled (h : Resembles engine bound w w') {ref : EngineRef}
    {rule : Rule σ.Predicate σ.Supplier} (recent : ref = engine → bound ≤ rule.serial) :
    (w'.engine ref).isEnabled rule = (w.engine ref).isEnabled rule := by
  by_cases same : ref = engine
  · rw [same, h.engines.flags rule (recent same)]
  · rw [h.others ref same]

end World.Resembles

/-! ## Evaluations -/

/-- Two sets of callbacks agree. With themselves they do so if they do not look at the flags
of rules that are no longer in force. -/
structure Callbacks.Agree (R : World σ → World σ → Prop) (cb cb' : Callbacks σ) : Prop where
  test : ∀ predicate e, Agrees R (cb.test predicate e) (cb'.test predicate e)
  supply : ∀ supplier e, Agrees R (cb.supply supplier e) (cb'.supply supplier e)

section Evaluation

/-- Worlds that a relation relates look the same to an evaluation that asks an engine: the
rules in force are the same, and so are the flags of the rules that can come up. Entries in
the log make no difference. -/
structure Sight (R : World σ → World σ → Prop) (ref : EngineRef)
    (comesUp : Rule σ.Predicate σ.Supplier → Prop) : Prop where
  rules : ∀ {w w'}, R w w' → (w'.engine ref).rules = (w.engine ref).rules
  inForce : ∀ {w w'}, R w w' → ∀ rule ∈ (w.engine ref).rules, comesUp rule
  flags : ∀ {w w'}, R w w' → ∀ rule, comesUp rule →
    (w'.engine ref).isEnabled rule = (w.engine ref).isEnabled rule
  record : ∀ {w w'} event, R w w' → R (w.record event) (w'.record event)

variable {R : World σ → World σ → Prop} {ref : EngineRef}
  {comesUp : Rule σ.Predicate σ.Supplier → Prop} (sight : Sight R ref comesUp)
  {cb cb' : Callbacks σ} (agree : Callbacks.Agree R cb cb') (direction : Direction) (e : Envelope)
include agree

/-- What a rule decides agrees if the suppliers do. -/
theorem agrees_verdict (rule : Rule σ.Predicate σ.Supplier) :
    Agrees R (rule.verdict cb e) (rule.verdict cb' e) := by
  unfold Rule.verdict
  cases rule.action with
  | drop => exact .pure _
  | delay source =>
    cases source with
    | fixed d => exact .pure _
    | computed supplier => exact .bind (agree.supply supplier e) fun d => .pure _

include sight

/-- Whether a rule applies agrees if the predicates do and its flag is in sight. -/
theorem agrees_applies {rule : Rule σ.Predicate σ.Supplier} (known : comesUp rule) :
    Agrees R (rule.applies cb ref direction e) (rule.applies cb' ref direction e) := by
  intro w w' same
  -- The scopes are part of the rule itself, and its flag is in sight.
  have open_same : rule.isOpen ref direction e w' = rule.isOpen ref direction e w := by
    rw [Rule.isOpen, Rule.isOpen, sight.flags same rule known]
  cases opened : rule.isOpen ref direction e w with
  | false =>
    rw [applies_of_not_open cb ref direction e opened,
      applies_of_not_open cb' ref direction e (open_same.trans opened)]
    exact .ok false same
  | true =>
    have opened' := open_same.trans opened
    cases content : rule.content with
    | none =>
      rw [applies_of_no_content cb ref direction e opened content,
        applies_of_no_content cb' ref direction e opened' content]
      exact .ok true same
    | some predicate =>
      rw [applies_of_content cb ref direction e opened content,
        applies_of_content cb' ref direction e opened' content]
      exact agree.test predicate e w w' same

/-- A scan agrees if all its rules are in sight. -/
theorem agrees_firstMatch {rules : List (Rule σ.Predicate σ.Supplier)}
    (known : ∀ rule ∈ rules, comesUp rule) :
    Agrees R (ref.firstMatch cb direction e rules) (ref.firstMatch cb' direction e rules) := by
  induction rules with
  | nil => exact .pure _
  | cons rule rest ih =>
    refine .bind (agrees_applies sight agree direction e (known rule List.mem_cons_self)) ?_
    intro applies
    cases applies with
    | false => exact ih fun other there => known other (List.mem_cons_of_mem rule there)
    | true => exact .pure _

/-- Evaluations agree if their callbacks do. -/
theorem agrees_evaluate :
    Agrees R (ref.evaluate cb direction e) (ref.evaluate cb' direction e) := by
  intro w w' same
  have scan := agrees_firstMatch sight agree direction e (sight.inForce same)
  show Outcome.Matches _ ((ref.firstMatch cb direction e (w.engine ref).rules >>= _) w)
    ((ref.firstMatch cb' direction e (w'.engine ref).rules >>= _) w')
  rw [sight.rules same]
  refine Agrees.bind scan (fun found => ?_) w w' same
  cases found with
  | none => exact .pure _
  | some rule =>
    refine .bind (agrees_verdict agree e rule) fun verdict => ?_
    exact .bind (fun _ _ same => .ok () (sight.record _ same)) fun _ => .pure _

end Evaluation

/-- Worlds that resemble each other look the same to evaluations: no rule that is no longer in
force comes up. -/
theorem World.Resembles.sight (engine : EngineRef) (bound : Nat) (ref : EngineRef) :
    Sight (σ := σ) (Resembles engine bound) ref
      fun rule => ref = engine → bound ≤ rule.serial where
  rules same := same.rules ref
  inForce same := by
    rintro rule there rfl
    exact same.engines.recent.rules rule there
  flags same _ recent := same.isEnabled recent
  record event same := same.record event event

/-! ## Changes -/

section Changes

open World (Resembles)

variable {engine : EngineRef} {bound : Nat} {w w' : World σ}

namespace World.Resembles

/-- Worlds go on resembling each other if an engine is replaced in both of them, by such that
are alike or by the same. -/
theorem setEngine (h : Resembles engine bound w w') {ref : EngineRef}
    {e e' : Engine σ.Predicate σ.Supplier} (alike : ref = engine → e.Alike bound e')
    (same : ref ≠ engine → e' = e) :
    Resembles engine bound (w.setEngine ref e) (w'.setEngine ref e') where
  engines := by
    by_cases here : ref = engine
    · rw [here, World.engine_setEngine_self, World.engine_setEngine_self]
      exact alike here
    · rw [World.engine_setEngine_of_ne _ _ here, World.engine_setEngine_of_ne _ _ here]
      exact h.engines
  others other different := by
    by_cases here : ref = other
    · rw [here, World.engine_setEngine_self, World.engine_setEngine_self]
      exact same (here ▸ different)
    · rw [World.engine_setEngine_of_ne _ _ here, World.engine_setEngine_of_ne _ _ here,
        h.others other different]
  width := by
    show (w'.engines.set ref.index e').size = (w.engines.set ref.index e).size
    rw [Table.size_set, Table.size_set, h.width]
  networks := h.networks
  clock := h.clock
  pending := h.pending
  runtime := h.runtime
  memory := h.memory

/-- Worlds go on resembling each other if a rule that is no longer in force is switched in one
of them. -/
theorem switch (h : Resembles engine bound w w') {rule : Rule σ.Predicate σ.Supplier}
    (old : rule.serial < bound) (on : Bool) :
    Resembles engine bound w (worldAfter (engine.change (.switch rule on)) w') := by
  obtain ⟨event, ends⟩ := change_eq engine (.switch rule on) w'
  -- There is a rule with a lower serial, so the engine has flags and is one of the table.
  -- Switching in it does not make the table longer.
  have inside : engine.index < w'.engines.size := by
    by_contra beyond
    have nothing : w'.engine engine = default :=
      Table.get_of_size_le w'.engines (Nat.le_of_not_lt beyond)
    have flagless : (w'.engine engine).flags.size = 0 := by
      rw [nothing]
      rfl
    have known := h.engines.recent.count
    rw [← h.engines.count, flagless] at known
    omega
  rw [worldAfter_of_ok ends]
  refine ⟨?_, fun other different => ?_, ?_, h.networks, h.clock, h.pending, h.runtime, h.memory⟩
  · rw [World.engine_record, World.engine_setEngine_self]
    exact h.engines.switch_of_lt old on
  · rw [World.engine_record, World.engine_setEngine_of_ne _ _ different.symm,
      h.others other different]
  · show (w'.engines.set engine.index _).size = w.engines.size
    rw [Table.size_set, ← h.width]
    omega

end World.Resembles

/-- Changes agree. -/
theorem agrees_change (ref : EngineRef) (change : Engine.Change σ.Predicate σ.Supplier) :
    Agrees (Resembles engine bound) (ref.change change) (ref.change change) := by
  intro w w' same
  obtain ⟨event, ends⟩ := change_eq ref change w
  obtain ⟨event', ends'⟩ := change_eq ref change w'
  rw [ends, ends']
  refine .ok () ((same.setEngine (fun here => ?_) fun elsewhere => ?_).record event event')
  · rw [here]
    exact same.engines.apply change
  · rw [same.others ref elsewhere]

end Changes

end Netsieve
