import Netsieve.Proofs.Evaluation.FirstMatch

/-!
# `Netsieve.Proofs.Evaluation.Exchange`: rules whose order does not matter

If predicates and suppliers answer by the message alone (`Callbacks.Answers`), an evaluation
decides by the chain of an engine: the contents of its rules in order, each with its flag
(`Engine.chain`). It makes no difference which numbers the rules have.

* `evaluate_answers`: the first rule of the chain that matches decides.
* `verdict_exchange`: two neighbours can be exchanged if they never both match, or decide the
  same (`Independent`).
* `evaluate_exchange`: so chains that differ in such neighbours decide alike, and a chain of
  rules that all drop messages drops what at least one of them matches, in any order.
-/

set_option autoImplicit false

namespace Netsieve

/-! ## Chains and scopes -/

section Chain

variable {P S : Type}

/-- The contents of the rules in force, in order, each with its flag. -/
def Engine.chain (engine : Engine P S) : List (RuleSpec P S × Bool) :=
  engine.rules.map fun rule => (rule.toRuleSpec, engine.isEnabled rule)

/-- Whether direction, verb, sender and receiver fit. -/
def RuleSpec.inScope (spec : RuleSpec P S) (direction : Direction) (e : Envelope) : Bool :=
  ({ spec with serial := 0 } : Rule P S).inScope direction e

/-- No id is inside both limits. -/
def Scope.Disjoint (scope other : Scope) : Prop :=
  ∀ id, scope.contains id = true → other.contains id = false

/-- Without a limit only the empty set is disjoint. -/
theorem Scope.disjoint_any (other : Scope) : Disjoint .any other ↔ other = .only [] := by
  cases other with
  | any => simp [Disjoint, contains]
  | only ids => simp [Disjoint, contains, List.eq_nil_iff_forall_not_mem]

/-- Two rules never both match, or they decide the same. -/
inductive RuleSpec.Independent (spec other : RuleSpec P S) : Prop where
  | directions (apart : spec.direction ≠ other.direction)
  | verbs (apart : spec.verbs.Disjoint other.verbs)
  | senders (apart : spec.senders.Disjoint other.senders)
  | receivers (apart : spec.receivers.Disjoint other.receivers)
  | drops (first : spec.action = .drop) (second : other.action = .drop)
  | delays (d : Duration) (first : spec.action = .delay (.fixed d))
      (second : other.action = .delay (.fixed d))

/-- A rule fits a transfer if all four of its limits do. -/
theorem RuleSpec.inScope_iff (spec : RuleSpec P S) (direction : Direction) (e : Envelope) :
    spec.inScope direction e = true ↔
      spec.direction = direction ∧ spec.verbs.contains e.message.verb = true ∧
        spec.senders.contains e.sender = true ∧ spec.receivers.contains e.receiver = true := by
  simp [inScope, Rule.inScope, and_assoc]

/-- Independent rules that have a message in their scope do the same with it. -/
theorem RuleSpec.Independent.action_eq {spec other : RuleSpec P S} (h : Independent spec other)
    {direction : Direction} {e : Envelope} (first : spec.inScope direction e = true)
    (second : other.inScope direction e = true) : spec.action = other.action := by
  rw [inScope_iff] at first second
  obtain ⟨direction₁, verb₁, sender₁, receiver₁⟩ := first
  obtain ⟨direction₂, verb₂, sender₂, receiver₂⟩ := second
  cases h with
  | directions apart => exact absurd (direction₁.trans direction₂.symm) apart
  | verbs apart => exact absurd verb₂ (by simp [apart _ verb₁])
  | senders apart => exact absurd sender₂ (by simp [apart _ sender₁])
  | receivers apart => exact absurd receiver₂ (by simp [apart _ receiver₁])
  | drops first second => exact first.trans second.symm
  | delays d first second => exact first.trans second.symm

end Chain

/-! ## Deciding by the chain -/

variable {σ : Signature}

/-- Predicates and suppliers answer by the message alone, and leave an engine alone.

- `grants`: what a predicate says about a message;
- `waits`: how long a supplier lets a message wait;
- `test`: it says so whenever it is asked;
- `supply`: it lets it wait so long whenever it is asked. -/
structure Callbacks.Answers (cb : Callbacks σ) (engine : EngineRef) where
  grants : σ.Predicate → Envelope → Bool
  waits : σ.Supplier → Envelope → Duration
  test : ∀ predicate e w, ∃ left, cb.test predicate e w = .ok (grants predicate e) left ∧
    left.engine engine = w.engine engine
  supply : ∀ supplier e w, ∃ left, cb.supply supplier e w = .ok (waits supplier e) left ∧
    left.engine engine = w.engine engine

namespace Callbacks.Answers

variable {cb : Callbacks σ} {engine : EngineRef} (answers : cb.Answers engine)

/-- A rule is on, a message is in its scope, and its predicate, if it has one, says yes. -/
structure Matches (direction : Direction) (e : Envelope)
    (rule : RuleSpec σ.Predicate σ.Supplier × Bool) : Prop where
  on : rule.2 = true
  direction : rule.1.direction = direction
  verb : rule.1.verbs.contains e.message.verb = true
  sender : rule.1.senders.contains e.sender = true
  receiver : rule.1.receivers.contains e.receiver = true
  content : ∀ predicate, rule.1.content = some predicate → answers.grants predicate e = true

/-- Whether a rule matches. -/
def matches? (direction : Direction) (e : Envelope)
    (rule : RuleSpec σ.Predicate σ.Supplier × Bool) : Bool :=
  rule.2 && rule.1.inScope direction e && rule.1.content.all fun p => answers.grants p e

/-- `matches?` decides `Matches`. -/
theorem matches?_iff (direction : Direction) (e : Envelope)
    (rule : RuleSpec σ.Predicate σ.Supplier × Bool) :
    answers.matches? direction e rule = true ↔ answers.Matches direction e rule := by
  rw [matches?, Bool.and_eq_true, Bool.and_eq_true, RuleSpec.inScope_iff, Option.all_eq_true]
  constructor
  · rintro ⟨⟨on, direction, verb, sender, receiver⟩, content⟩
    exact ⟨on, direction, verb, sender, receiver, content⟩
  · rintro ⟨on, direction, verb, sender, receiver, content⟩
    exact ⟨⟨on, direction, verb, sender, receiver⟩, content⟩

/-- What an action decides about a message. -/
def decision (e : Envelope) : Action σ.Supplier → Verdict
  | .drop => .drop
  | .delay (.fixed d) => .delay d
  | .delay (.computed supplier) => .delay (answers.waits supplier e)

/-- What a chain decides: the first rule that matches. -/
def verdict (direction : Direction) (e : Envelope)
    (chain : List (RuleSpec σ.Predicate σ.Supplier × Bool)) : Verdict :=
  match chain.find? (answers.matches? direction e) with
  | some rule => answers.decision e rule.1.action
  | none => .deliver

/-! ## The first rule of the chain that matches -/

/-- Whether a rule applies is what its flag, its scope and the answer of its predicate say. -/
theorem applies_eq (direction : Direction) (e : Envelope)
    (rule : Rule σ.Predicate σ.Supplier) (w : World σ) :
    ∃ left, rule.applies cb engine direction e w
        = .ok (answers.matches? direction e
          (rule.toRuleSpec, (w.engine engine).isEnabled rule)) left ∧
      left.engine engine = w.engine engine := by
  have matched : answers.matches? direction e
      (rule.toRuleSpec, (w.engine engine).isEnabled rule)
      = (rule.isOpen engine direction e w && rule.content.all fun p => answers.grants p e) := rfl
  rw [matched]
  cases opened : rule.isOpen engine direction e w with
  | false => exact ⟨w, applies_of_not_open cb engine direction e opened, rfl⟩
  | true =>
    cases content : rule.content with
    | none => exact ⟨w, applies_of_no_content cb engine direction e opened content, rfl⟩
    | some predicate =>
      rw [applies_of_content cb engine direction e opened content]
      exact answers.test predicate e w

/-- A scan finds the first rule of the list that matches. -/
theorem firstMatch_eq (direction : Direction) (e : Envelope)
    (rules : List (Rule σ.Predicate σ.Supplier)) (w : World σ) :
    ∃ left, engine.firstMatch cb direction e rules w
        = .ok (rules.find? fun rule => answers.matches? direction e
          (rule.toRuleSpec, (w.engine engine).isEnabled rule)) left := by
  induction rules generalizing w with
  | nil => exact ⟨w, rfl⟩
  | cons rule rest ih =>
    obtain ⟨here, applies, same⟩ := answers.applies_eq direction e rule w
    rw [EngineRef.firstMatch, bind_of_ok applies, List.find?_cons]
    cases answers.matches? direction e (rule.toRuleSpec, (w.engine engine).isEnabled rule) with
    | true => exact ⟨here, rfl⟩
    | false =>
      obtain ⟨left, ends⟩ := ih here
      rw [same] at ends
      exact ⟨left, ends⟩

/-- A rule decides what its action and the answer of its supplier say. -/
theorem verdict_eq (e : Envelope) (rule : Rule σ.Predicate σ.Supplier) (w : World σ) :
    ∃ left, rule.verdict cb e w = .ok (answers.decision e rule.action) left := by
  have decides := verdict_decides cb e rule w
  generalize rule.verdict cb e w = outcome at decides
  cases decides with
  | drop acts => exact ⟨w, by rw [acts, decision]⟩
  | fixed acts => exact ⟨w, by rw [acts, decision]⟩
  | @computed supplier d w' acts answer =>
    obtain ⟨left, waits, -⟩ := answers.supply supplier e w
    cases answer.symm.trans waits
    exact ⟨_, by rw [acts, decision]⟩
  | @broken supplier p w' acts answer =>
    obtain ⟨left, waits, -⟩ := answers.supply supplier e w
    cases answer.symm.trans waits

/-- An evaluation decides by the chain of the engine. -/
theorem evaluate_eq (direction : Direction) (e : Envelope) (w : World σ) :
    ∃ left, engine.evaluate cb direction e w
      = .ok (answers.verdict direction e (w.engine engine).chain) left := by
  obtain ⟨here, scan⟩ := answers.firstMatch_eq direction e (w.engine engine).rules w
  have scanned : (w.engine engine).chain.find? (answers.matches? direction e)
      = ((w.engine engine).rules.find? fun rule => answers.matches? direction e
          (rule.toRuleSpec, (w.engine engine).isEnabled rule)).map fun rule =>
        (rule.toRuleSpec, (w.engine engine).isEnabled rule) := List.find?_map
  rw [verdict, scanned]
  generalize (w.engine engine).rules.find? _ = hit at scan ⊢
  cases hit with
  | none => exact ⟨here, evaluate_of_none cb engine direction e scan⟩
  | some rule =>
    obtain ⟨left, decides⟩ := answers.verdict_eq e rule here
    exact ⟨_, evaluate_of_some cb engine direction e scan decides⟩

/-! ## Chains in another order -/

/-- Independent neighbours can be exchanged. -/
theorem verdict_exchange {rule other : RuleSpec σ.Predicate σ.Supplier × Bool}
    (independent : rule.1.Independent other.1) (direction : Direction) (e : Envelope)
    (before after : List (RuleSpec σ.Predicate σ.Supplier × Bool)) :
    answers.verdict direction e (before ++ other :: rule :: after)
      = answers.verdict direction e (before ++ rule :: other :: after) := by
  have inScope : ∀ {rule : RuleSpec σ.Predicate σ.Supplier × Bool},
      answers.matches? direction e rule = true → rule.1.inScope direction e = true := by
    intro rule matched
    rw [matches?, Bool.and_eq_true, Bool.and_eq_true] at matched
    exact matched.1.2
  unfold verdict
  rw [List.find?_append, List.find?_append]
  cases before.find? (answers.matches? direction e) with
  | some hit => rfl
  | none =>
    -- Only if both match it could make a difference which comes first.
    rw [Option.none_or, Option.none_or, List.find?_cons, List.find?_cons, List.find?_cons,
      List.find?_cons]
    cases first : answers.matches? direction e rule with
    | false => rfl
    | true =>
      cases second : answers.matches? direction e other with
      | false => rfl
      | true =>
        show answers.decision e other.1.action = answers.decision e rule.1.action
        rw [independent.action_eq (inScope first) (inScope second)]

/-- A chain of rules that drop messages drops what at least one of them matches. -/
theorem verdict_of_drops {chain : List (RuleSpec σ.Predicate σ.Supplier × Bool)}
    (drops : ∀ rule ∈ chain, rule.1.action = .drop) (direction : Direction) (e : Envelope) :
    ((∃ rule ∈ chain, answers.Matches direction e rule) ∧
      answers.verdict direction e chain = .drop) ∨
    ((¬ ∃ rule ∈ chain, answers.Matches direction e rule) ∧
      answers.verdict direction e chain = .deliver) := by
  unfold verdict
  cases found : chain.find? (answers.matches? direction e) with
  | some rule =>
    have there := List.mem_of_find?_eq_some found
    have matched := (answers.matches?_iff direction e rule).mp (List.find?_some found)
    refine .inl ⟨⟨rule, there, matched⟩, ?_⟩
    show answers.decision e rule.1.action = .drop
    rw [drops rule there, decision]
  | none =>
    refine .inr ⟨fun ⟨rule, there, matched⟩ => ?_, rfl⟩
    exact List.find?_eq_none.mp found rule there ((answers.matches?_iff _ _ rule).mpr matched)

end Callbacks.Answers

/-- Rules that are independent of each other can be exchanged.

Let predicates and suppliers answer by the message alone. Then two engines whose chains
differ in that two independent neighbours are exchanged decide alike about every message: if
these two never have a message in common, or both drop messages, or both delay them by the
same fixed time. A limit that is absent is disjoint from the empty set only. If all rules of
an engine drop messages, then every engine with the same rules in whatever order drops a
message if at least one of them matches it, and delivers it otherwise. It does not permit
what a rule that is on and of the direction asked for has in its verbs, senders and receivers
and in its predicate, and it permits everything else. -/
theorem evaluate_exchange (cb : Callbacks σ) (engine : EngineRef) (answers : cb.Answers engine)
    (w w' : World σ) :
    (∀ before rule other after, (w.engine engine).chain = before ++ rule :: other :: after →
      (w'.engine engine).chain = before ++ other :: rule :: after →
      rule.1.Independent other.1 → ∀ direction e, ∃ verdict left left',
        engine.evaluate cb direction e w = .ok verdict left ∧
        engine.evaluate cb direction e w' = .ok verdict left') ∧
    (∀ scope, Scope.Disjoint .any scope ↔ scope = .only []) ∧
    ((∀ rule ∈ (w.engine engine).chain, rule.1.action = .drop) →
      (w.engine engine).chain.Perm (w'.engine engine).chain → ∀ direction e,
      let covered := ∃ rule ∈ (w.engine engine).chain, answers.Matches direction e rule
      (∃ left, (covered ∧ engine.evaluate cb direction e w' = .ok .drop left) ∨
        (¬ covered ∧ engine.evaluate cb direction e w' = .ok .deliver left)) ∧
      ∃ left, (covered ∧ engine.permit cb direction e w' = .ok false left) ∨
        (¬ covered ∧ engine.permit cb direction e w' = .ok true left)) := by
  refine ⟨fun before rule other after first second independent direction e => ?_,
    Scope.disjoint_any, fun drops perm direction e => ?_⟩
  · obtain ⟨left, ends⟩ := answers.evaluate_eq direction e w
    obtain ⟨left', ends'⟩ := answers.evaluate_eq direction e w'
    rw [first] at ends
    rw [second, answers.verdict_exchange independent] at ends'
    exact ⟨_, left, left', ends, ends'⟩
  · obtain ⟨left, ends⟩ := answers.evaluate_eq direction e w'
    -- Both chains have the same members, so they agree about what drops and about what is
    -- covered.
    have drops' : ∀ rule ∈ (w'.engine engine).chain, rule.1.action = .drop :=
      fun rule there => drops rule (perm.mem_iff.mpr there)
    have same : (∃ rule ∈ (w.engine engine).chain, answers.Matches direction e rule) ↔
        ∃ rule ∈ (w'.engine engine).chain, answers.Matches direction e rule :=
      exists_congr fun rule => and_congr_left fun _ => perm.mem_iff
    rw [same]
    rcases answers.verdict_of_drops drops' direction e with ⟨covered, decides⟩ | ⟨free, decides⟩
    · rw [decides] at ends
      exact ⟨⟨left, .inl ⟨covered, ends⟩⟩, left, .inl ⟨covered, permit_of_ok ends⟩⟩
    · rw [decides] at ends
      exact ⟨⟨left, .inr ⟨free, ends⟩⟩, left, .inr ⟨free, permit_of_ok ends⟩⟩

/-! ## Rules that are registered in another order -/

namespace Exchanged

open Steady (signature callbacks letter)

/-- Predicates and suppliers that go by their answers. -/
def answers : callbacks.Answers ⟨0⟩ where
  grants answer _ := answer
  waits answer _ := answer
  test _ _ _ := ⟨_, rfl, rfl⟩
  supply _ _ _ := ⟨_, rfl, rfl⟩

/-- A rule that delays messages with verb 7. -/
def slow : RuleSpec Bool Duration :=
  (Steady.rule (.only [7]) none (.delay (.computed (.ofSecs 1))) 0).toRuleSpec

/-- A rule that drops messages with other verbs. -/
def strict : RuleSpec Bool Duration :=
  (Steady.rule (.only [8, 9]) none .drop 0).toRuleSpec

/-- A rule that drops messages that its predicate picks. -/
def picky : RuleSpec Bool Duration :=
  (Steady.rule .any (some true) .drop 0).toRuleSpec

/-- A world in which these rules were registered one after the other. -/
def world (specs : List (RuleSpec Bool Duration)) : World signature where
  engines := ⟨#[specs.foldl Engine.register {}]⟩
  memory := []

/-- The two rules are about different verbs. -/
theorem slow_independent_strict : slow.Independent strict :=
  .verbs fun id seven => by
    have named : id = 7 := by simpa [slow, Steady.rule, Scope.contains] using seven
    rw [named]
    rfl

/-- A message with verb 7 is delayed whichever of two rules comes first, and dropped by two
rules in either order. -/
theorem evaluate_exchange_exchanged :
    slow.Independent strict ∧
    (∀ rule ∈ ((world [strict, picky]).engine ⟨0⟩).chain, rule.1.action = .drop) ∧
    (∃ left left',
      EngineRef.evaluate callbacks ⟨0⟩ .outbound letter (world [slow, strict])
        = .ok (.delay (.ofSecs 1)) left ∧
      EngineRef.evaluate callbacks ⟨0⟩ .outbound letter (world [strict, slow])
        = .ok (.delay (.ofSecs 1)) left') ∧
    ∃ left, EngineRef.permit callbacks ⟨0⟩ .outbound letter (world [picky, strict])
      = .ok false left := by
  have drops : ∀ rule ∈ ((world [strict, picky]).engine ⟨0⟩).chain, rule.1.action = .drop := by
    intro rule there
    have known : rule ∈ [(strict, true), (picky, true)] := there
    simp only [List.mem_cons, List.not_mem_nil, or_false] at known
    rcases known with rfl | rfl <;> rfl
  obtain ⟨exchange, -, -⟩ :=
    evaluate_exchange callbacks ⟨0⟩ answers (world [slow, strict]) (world [strict, slow])
  obtain ⟨verdict, left, left', ends, ends'⟩ := exchange [] (slow, true) (strict, true) [] rfl rfl
    slow_independent_strict .outbound letter
  cases ends
  obtain ⟨-, -, drop⟩ :=
    evaluate_exchange callbacks ⟨0⟩ answers (world [strict, picky]) (world [picky, strict])
  obtain ⟨-, there, permitted⟩ := drop drops (.swap _ _ _) .outbound letter
  refine ⟨slow_independent_strict, drops, ⟨_, _, rfl, ends'⟩, there, ?_⟩
  rcases permitted with ⟨-, ends⟩ | ⟨free, -⟩
  · exact ends
  · -- The picky rule matches, so the message is covered.
    have matched : answers.Matches .outbound letter (picky, true) :=
      ⟨rfl, rfl, rfl, rfl, rfl, by rintro _ ⟨⟩; rfl⟩
    exact absurd ⟨(picky, true), .tail _ (.head _), matched⟩ free

end Exchanged

end Netsieve
