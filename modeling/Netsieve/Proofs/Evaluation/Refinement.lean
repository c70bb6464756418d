import Netsieve.Proofs.Evaluation.Exchange
import Netsieve.Proofs.Restoration

/-!
# `Netsieve.Proofs.Evaluation.Refinement`: a new rule speaks for what was still delivered

Registering puts a rule at the end of a chain, and an evaluation reads the chain from its
beginning. So if its predicates and suppliers answer by the message alone, a new rule can
decide only about messages that no rule before it decides about. Predicates and suppliers of
other engines may do what they like (`Callbacks.Tame`).

* `chain_register`: registering appends to the chain and switches nothing in it.
* `verdict_of_prefix`: what a chain has decided stays decided when it goes on.
* `verdict_register`: what a new rule makes of a verdict (`Refined`).
* `Tame.evaluate_eq`: an engine of tame rules decides by its chain.
* `evaluate_refines`: so in a run that only registers rules, what is decided about a message
  changes at most once, from delivering it to something else.
-/

set_option autoImplicit false

namespace Netsieve

/-! ## Registering appends to a chain -/

namespace Engine

variable {P S : Type}

/-- Registering a rule switches no other: one that is not registered yet counts as on. -/
theorem isEnabled_register (engine : Engine P S) (spec : RuleSpec P S) (rule : Rule P S) :
    (engine.register spec).isEnabled rule = engine.isEnabled rule := by
  rcases Nat.lt_or_ge rule.serial engine.flags.size with known | new
  · exact isEnabled_register_of_lt engine spec known
  · have on : (engine.register spec).isEnabled rule = true :=
      isEnabled_apply_of_size_le new (.register spec)
    have off : engine.reset.isEnabled rule = true := isEnabled_apply_of_size_le new .reset
    rw [on, ← isEnabled_reset, off]

/-- Registering appends a rule to the chain, switched on. -/
theorem chain_register (engine : Engine P S) (spec : RuleSpec P S) :
    (engine.register spec).chain = engine.chain ++ [(spec, true)] := by
  have older : (engine.rules.map fun rule =>
      (rule.toRuleSpec, (engine.register spec).isEnabled rule)) = engine.chain := by
    refine List.map_congr_left fun rule _ => ?_
    rw [isEnabled_register]
  rw [chain, rules_register, List.map_append, older, List.map_singleton,
    isEnabled_register_nextRule]
  rfl

/-- Changes that only register rules append them to the chain, switched on. -/
theorem chain_applyAll {p : RuleSpec P S → Prop} (engine : Engine P S)
    {changes : List (Change P S)}
    (registers : ∀ change ∈ changes, ∃ spec, change = .register spec ∧ p spec) :
    ∃ specs : List (RuleSpec P S), (∀ spec ∈ specs, p spec) ∧
      (engine.applyAll changes).chain = engine.chain ++ specs.map fun spec => (spec, true) := by
  induction changes generalizing engine with
  | nil => exact ⟨[], List.forall_mem_nil _, (List.append_nil _).symm⟩
  | cons change rest ih =>
    obtain ⟨spec, rfl, first⟩ := registers change List.mem_cons_self
    obtain ⟨specs, others, appends⟩ := ih (engine.register spec) fun later there =>
      registers later (List.mem_cons_of_mem _ there)
    refine ⟨spec :: specs, List.forall_mem_cons.mpr ⟨first, others⟩, ?_⟩
    show ((engine.register spec).applyAll rest).chain = _
    rw [appends, chain_register, List.append_assoc]
    rfl

end Engine

variable {σ : Signature} {cb : Callbacks σ} {engine : EngineRef}

/-! ## What a longer chain decides -/

namespace Callbacks.Answers

variable (answers : cb.Answers engine)

/-- What registering a rule makes of the verdict about a message.

- `settled`: some rule has decided already, and it still decides;
- `matched`: no rule has decided, and the new one matches;
- `free`: no rule has decided, and the new one does not match either. -/
inductive Refined (direction : Direction) (e : Envelope)
    (spec : RuleSpec σ.Predicate σ.Supplier) : Verdict → Verdict → Prop where
  | settled {verdict : Verdict} (decided : verdict ≠ .deliver) :
      Refined direction e spec verdict verdict
  | matched (fits : answers.Matches direction e (spec, true)) :
      Refined direction e spec .deliver (answers.decision e spec.action)
  | free (misses : ¬ answers.Matches direction e (spec, true)) :
      Refined direction e spec .deliver .deliver

/-- No action delivers a message at once. -/
theorem decision_ne_deliver (e : Envelope) (action : Action σ.Supplier) :
    answers.decision e action ≠ .deliver := by
  cases action with
  | drop => exact Verdict.noConfusion
  | delay source =>
    cases source with
    | fixed d => exact Verdict.noConfusion
    | computed supplier => exact Verdict.noConfusion

variable (direction : Direction) (e : Envelope)

/-- A chain delivers a message if none of its rules matches it. -/
theorem verdict_eq_deliver_iff (chain : List (RuleSpec σ.Predicate σ.Supplier × Bool)) :
    answers.verdict direction e chain = .deliver ↔
      chain.find? (answers.matches? direction e) = none := by
  unfold verdict
  cases chain.find? (answers.matches? direction e) with
  | none => exact iff_of_true rfl rfl
  | some rule => exact iff_of_false (answers.decision_ne_deliver e _) (Option.some_ne_none rule)

/-- A chain that goes on is asked further only about what its beginning delivers. -/
theorem verdict_append (chain more : List (RuleSpec σ.Predicate σ.Supplier × Bool)) :
    answers.verdict direction e (chain ++ more)
      = if answers.verdict direction e chain = .deliver
        then answers.verdict direction e more else answers.verdict direction e chain := by
  split
  · next delivered =>
    rw [verdict_eq_deliver_iff] at delivered
    rw [verdict, List.find?_append, delivered, Option.none_or]
    rfl
  · next decided =>
    obtain ⟨rule, found⟩ := Option.ne_none_iff_exists'.mp
      (mt (answers.verdict_eq_deliver_iff direction e chain).mpr decided)
    rw [verdict, List.find?_append, found, Option.some_or, verdict, found]

/-- What a chain has decided stays decided when it goes on. -/
theorem verdict_of_prefix {chain longer : List (RuleSpec σ.Predicate σ.Supplier × Bool)}
    (goes : chain <+: longer) (decided : answers.verdict direction e chain ≠ .deliver) :
    answers.verdict direction e longer = answers.verdict direction e chain := by
  obtain ⟨more, rfl⟩ := goes
  rw [verdict_append, if_neg decided]

/-- What a new rule at the end of a chain makes of its verdict. -/
theorem verdict_register (chain : List (RuleSpec σ.Predicate σ.Supplier × Bool))
    (spec : RuleSpec σ.Predicate σ.Supplier) :
    answers.Refined direction e spec (answers.verdict direction e chain)
      (answers.verdict direction e (chain ++ [(spec, true)])) := by
  rw [verdict_append]
  split
  · next delivered =>
    rw [delivered, verdict, List.find?_singleton]
    cases fits : answers.matches? direction e (spec, true) with
    | true => exact .matched ((answers.matches?_iff direction e _).mp fits)
    | false =>
      refine .free fun matched => ?_
      rw [(answers.matches?_iff direction e _).mpr matched] at fits
      exact Bool.noConfusion fits
  · next decided => exact .settled decided

end Callbacks.Answers

/-! ## Rules that are tame -/

/-- What some predicates and suppliers answer by the message alone, while they leave an engine
alone. What the others do is left open.

- `predicates`, `suppliers`: those that do so;
- `grants`, `waits`: what such a predicate says about a message, and how long such a
  supplier lets it wait;
- `test`: the predicate says so whenever it is asked;
- `supply`: the supplier lets it wait so long whenever it is asked. -/
structure Callbacks.Tame (cb : Callbacks σ) (engine : EngineRef) where
  predicates : σ.Predicate → Prop
  suppliers : σ.Supplier → Prop
  grants : σ.Predicate → Envelope → Bool
  waits : σ.Supplier → Envelope → Duration
  test : ∀ predicate, predicates predicate → ∀ e w, ∃ left,
    cb.test predicate e w = .ok (grants predicate e) left ∧ left.engine engine = w.engine engine
  supply : ∀ supplier, suppliers supplier → ∀ e w, ∃ left,
    cb.supply supplier e w = .ok (waits supplier e) left ∧ left.engine engine = w.engine engine

/-- If all predicates and suppliers answer by the message alone, they are tame. -/
def Callbacks.Answers.tame (answers : cb.Answers engine) : cb.Tame engine where
  predicates _ := True
  suppliers _ := True
  grants := answers.grants
  waits := answers.waits
  test predicate _ := answers.test predicate
  supply supplier _ := answers.supply supplier

namespace Callbacks.Tame

variable (tame : cb.Tame engine)

/-- The predicate and the supplier of a rule, if it has them, are tame. -/
structure Covers (spec : RuleSpec σ.Predicate σ.Supplier) : Prop where
  content : ∀ predicate, spec.content = some predicate → tame.predicates predicate
  action : ∀ supplier, spec.action = .delay (.computed supplier) → tame.suppliers supplier

open Classical in
/-- The same callbacks, except that what is not tame is replaced: it gives the answer that is
noted for a message and does nothing else. So what is known of callbacks all of which answer by
the message alone can be used for engines that never ask the others. -/
noncomputable def callbacks : Callbacks σ where
  test predicate e :=
    if tame.predicates predicate then cb.test predicate e else pure (tame.grants predicate e)
  supply supplier e :=
    if tame.suppliers supplier then cb.supply supplier e else pure (tame.waits supplier e)
  accept := cb.accept

/-- All of these answer by the message alone. -/
noncomputable def answers : tame.callbacks.Answers engine where
  grants := tame.grants
  waits := tame.waits
  test predicate e w := by
    unfold callbacks
    dsimp only
    split
    · next known => exact tame.test predicate known e w
    · exact ⟨w, rfl, rfl⟩
  supply supplier e w := by
    unfold callbacks
    dsimp only
    split
    · next known => exact tame.supply supplier known e w
    · exact ⟨w, rfl, rfl⟩

variable {tame} (direction : Direction) (e : Envelope)

/-- For a rule that is covered it makes no difference that other callbacks are replaced. -/
theorem Covers.applies_eq {rule : Rule σ.Predicate σ.Supplier}
    (covers : tame.Covers rule.toRuleSpec) :
    rule.applies tame.callbacks engine direction e = rule.applies cb engine direction e := by
  unfold Rule.applies
  cases content : rule.content with
  | none => rfl
  | some predicate =>
    have same : tame.callbacks.test predicate e = cb.test predicate e :=
      if_pos (covers.content predicate content)
    simp only [same]

/-- What a covered rule decides does not depend on the callbacks that are replaced. -/
theorem Covers.verdict_eq {rule : Rule σ.Predicate σ.Supplier}
    (covers : tame.Covers rule.toRuleSpec) :
    rule.verdict tame.callbacks e = rule.verdict cb e := by
  unfold Rule.verdict
  cases action : rule.action with
  | drop => rfl
  | delay source =>
    cases source with
    | fixed d => rfl
    | computed supplier =>
      have same : tame.callbacks.supply supplier e = cb.supply supplier e :=
        if_pos (covers.action supplier action)
      simp only [same]

/-- A scan of covered rules never meets the callbacks that are replaced. -/
theorem firstMatch_eq {rules : List (Rule σ.Predicate σ.Supplier)}
    (covered : ∀ rule ∈ rules, tame.Covers rule.toRuleSpec) :
    engine.firstMatch tame.callbacks direction e rules
      = engine.firstMatch cb direction e rules := by
  induction rules with
  | nil => rfl
  | cons rule rest ih =>
    have later := ih fun other there => covered other (List.mem_cons_of_mem rule there)
    have first := (covered rule List.mem_cons_self).applies_eq direction e
    rw [EngineRef.firstMatch, EngineRef.firstMatch, later, first]

/-- In an engine of tame rules the other callbacks are not asked. -/
theorem evaluate_callbacks {w : World σ}
    (covered : ∀ rule ∈ (w.engine engine).rules, tame.Covers rule.toRuleSpec) :
    engine.evaluate tame.callbacks direction e w = engine.evaluate cb direction e w := by
  -- The scans are the same. The rule that was found is one of those in force, so its
  -- decision is the same as well.
  have scan := congrFun (firstMatch_eq direction e covered) w
  cases ends : engine.firstMatch cb direction e (w.engine engine).rules w with
  | error p left =>
    rw [evaluate_of_broken cb engine direction e ends,
      evaluate_of_broken _ engine direction e (scan.trans ends)]
  | ok found left =>
    cases found with
    | none =>
      rw [evaluate_of_none cb engine direction e ends,
        evaluate_of_none _ engine direction e (scan.trans ends)]
    | some rule =>
      have there := (inScope_of_firstMatch ends).1
      have same := congrFun ((covered rule there).verdict_eq e) left
      cases decides : rule.verdict cb e left with
      | ok verdict w' =>
        rw [evaluate_of_some cb engine direction e ends decides,
          evaluate_of_some _ engine direction e (scan.trans ends) (same.trans decides)]
      | error p w' =>
        rw [evaluate_of_undecided cb engine direction e ends decides,
          evaluate_of_undecided _ engine direction e (scan.trans ends) (same.trans decides)]

variable (tame)

/-- All rules of a chain are tame. -/
def CoversAll (chain : List (RuleSpec σ.Predicate σ.Supplier × Bool)) : Prop :=
  ∀ rule ∈ chain, tame.Covers rule.1

variable {tame}

/-- An engine of tame rules decides by its chain. -/
theorem evaluate_eq {w : World σ} (covered : tame.CoversAll (w.engine engine).chain) :
    ∃ left, engine.evaluate cb direction e w
      = .ok (tame.answers.verdict direction e (w.engine engine).chain) left := by
  obtain ⟨left, ends⟩ := tame.answers.evaluate_eq direction e w
  rw [evaluate_callbacks direction e fun rule there =>
    covered _ (List.mem_map_of_mem there)] at ends
  exact ⟨left, ends⟩

end Callbacks.Tame

/-! ## Runs that only register rules -/

namespace Deed

/-- What an evaluation answers before each deed of a row, and after the last. -/
def findings (cb : Callbacks σ) (engine : EngineRef) (direction : Direction) (e : Envelope)
    (w : World σ) (deeds : List (Deed σ)) : List Finding :=
  (deeds.scanl (perform cb) w).map fun here =>
    .ofOutcome (engine.evaluate cb direction e here)

variable (tame : cb.Tame engine) (account : cb.FullAccount engine)

/-- A row of deeds does nothing to an engine but register tame rules. -/
def OnlyRegister (w : World σ) (deeds : List (Deed σ)) : Prop :=
  ∀ change ∈ history account w deeds, ∃ spec, change = .register spec ∧ tame.Covers spec

variable {tame account} {w : World σ} {deed : Deed σ} {deeds rest : List (Deed σ)}

/-- Where all deeds only register, the first one does. -/
theorem OnlyRegister.head (h : OnlyRegister tame account w (deed :: rest)) :
    OnlyRegister tame account w [deed] := by
  intro change there
  rw [history, history, List.append_nil] at there
  exact h change (List.mem_append_left _ there)

/-- Where all deeds only register, the later ones do. -/
theorem OnlyRegister.tail (h : OnlyRegister tame account w (deed :: rest)) :
    OnlyRegister tame account (deed.perform cb w) rest :=
  fun change there => h change (List.mem_append_right _ there)

variable (covered : tame.CoversAll (w.engine engine).chain)
include covered

/-- Deeds that only register tame rules leave a chain as the beginning of a longer one, which is
tame. -/
theorem OnlyRegister.chain_run (h : OnlyRegister tame account w deeds) :
    (w.engine engine).chain <+: ((run cb w deeds).engine engine).chain ∧
      tame.CoversAll ((run cb w deeds).engine engine).chain := by
  obtain ⟨specs, tamed, appends⟩ := Engine.chain_applyAll (w.engine engine) h
  rw [engine_deeds account, appends]
  refine ⟨List.prefix_append _ _, fun rule there => ?_⟩
  rcases List.mem_append.mp there with old | new
  · exact covered rule old
  · obtain ⟨spec, known, rfl⟩ := List.mem_map.mp new
    exact tamed spec known

/-- So does the first of them. -/
theorem OnlyRegister.chain_perform (h : OnlyRegister tame account w (deed :: rest)) :
    (w.engine engine).chain <+: ((deed.perform cb w).engine engine).chain ∧
      tame.CoversAll ((deed.perform cb w).engine engine).chain := by
  have first := h.head.chain_run covered
  exact first

variable (direction : Direction) (e : Envelope)

/-- Without a deed there is one evaluation, and it finds what the chain decides. -/
theorem findings_nil : findings cb engine direction e w []
    = [.decided (.ok (tame.answers.verdict direction e (w.engine engine).chain))] := by
  obtain ⟨left, ends⟩ := tame.evaluate_eq direction e covered
  rw [findings, List.scanl_nil, List.map_singleton, ends]
  rfl

/-- An evaluation before the first deed finds what the chain then decides. -/
theorem findings_cons (deed : Deed σ) (rest : List (Deed σ)) :
    findings cb engine direction e w (deed :: rest)
      = .decided (.ok (tame.answers.verdict direction e (w.engine engine).chain))
        :: findings cb engine direction e (deed.perform cb w) rest := by
  obtain ⟨left, ends⟩ := tame.evaluate_eq direction e covered
  rw [findings, List.scanl_cons, List.map_cons, ends]
  rfl

/-- Once a message is not delivered, every later answer about it is the same. -/
theorem OnlyRegister.findings_of_decided (h : OnlyRegister tame account w deeds)
    (decided : tame.answers.verdict direction e (w.engine engine).chain ≠ .deliver) :
    findings cb engine direction e w deeds = List.replicate (deeds.length + 1)
      (.decided (.ok (tame.answers.verdict direction e (w.engine engine).chain))) := by
  induction deeds generalizing w with
  | nil => exact findings_nil covered direction e
  | cons deed rest ih =>
    obtain ⟨goes, tamed⟩ := h.chain_perform covered
    have same : tame.answers.verdict direction e ((deed.perform cb w).engine engine).chain
        = tame.answers.verdict direction e (w.engine engine).chain :=
      tame.answers.verdict_of_prefix direction e goes decided
    rw [findings_cons covered, ih tamed h.tail (same ▸ decided), same]
    rfl

/-- In deeds that only register tame rules the answers about a message change at most once. -/
theorem OnlyRegister.findings_eq_replicate (h : OnlyRegister tame account w deeds) :
    ∃ before after verdict, findings cb engine direction e w deeds
      = List.replicate before (.decided (.ok .deliver))
        ++ List.replicate after (.decided (.ok verdict)) := by
  -- As long as no rule decides, a new rule may. Once one has, the verdict stays, and the
  -- rest of the row repeats it.
  by_cases delivered : tame.answers.verdict direction e (w.engine engine).chain = .deliver
  · induction deeds generalizing w with
    | nil => exact ⟨1, 0, .deliver, by rw [findings_nil covered, delivered]; rfl⟩
    | cons deed rest ih =>
      obtain ⟨-, tamed⟩ := h.chain_perform covered
      rw [findings_cons covered, delivered]
      by_cases still :
          tame.answers.verdict direction e ((deed.perform cb w).engine engine).chain = .deliver
      · obtain ⟨before, after, verdict, row⟩ := ih tamed h.tail still
        exact ⟨before + 1, after, verdict, by rw [row]; rfl⟩
      · exact ⟨1, _, _, by rw [h.tail.findings_of_decided tamed direction e still]; rfl⟩
  · refine ⟨0, deeds.length + 1, tame.answers.verdict direction e (w.engine engine).chain, ?_⟩
    rw [h.findings_of_decided covered direction e delivered, List.replicate_zero,
      List.nil_append]

end Deed

/-- A new rule speaks only for what was still delivered.

Let the predicates and suppliers of an engine answer by the message alone, in whatever state
the engine is, and let another such rule be registered. If a message was dropped or delayed
before, the same is decided about it afterwards. If it was delivered, it gets what the action
of the new rule says if this rule matches it, and is delivered otherwise. So in a run in which
nothing happens to the engine but that such rules are registered, whatever else happens, the
answers about a message are at first that it is delivered, and from some point on always the
same. What is dropped is not rescued by a rule that comes later and delays it, and what is
delayed is not stopped by one that drops it. -/
theorem evaluate_refines (cb : Callbacks σ) (engine : EngineRef) (tame : cb.Tame engine)
    (account : cb.FullAccount engine) (w : World σ)
    (covered : tame.CoversAll (w.engine engine).chain) :
    (∀ spec, tame.Covers spec → ∀ direction e, ∃ before after left left',
      engine.evaluate cb direction e w = .ok before left ∧
      engine.evaluate cb direction e (worldAfter (engine.register spec) w) = .ok after left' ∧
      tame.answers.Refined direction e spec before after) ∧
    ∀ deeds, Deed.OnlyRegister tame account w deeds → ∀ direction e,
      (∃ before after verdict, Deed.findings cb engine direction e w deeds
        = List.replicate before (.decided (.ok .deliver))
          ++ List.replicate after (.decided (.ok verdict))) ∧
      ∀ verdict left, engine.evaluate cb direction e w = .ok verdict left →
        verdict ≠ .deliver →
        ∃ left', engine.evaluate cb direction e (Deed.run cb w deeds) = .ok verdict left' := by
  refine ⟨fun spec new direction e => ?_, fun deeds only direction e =>
    ⟨only.findings_eq_replicate covered direction e, fun verdict left ends decided => ?_⟩⟩
  · -- The new rule comes last in the chain, so it is asked only where no other one has
    -- decided.
    have registered : ((worldAfter (engine.register spec) w).engine engine).chain
        = (w.engine engine).chain ++ [(spec, true)] :=
      (congrArg Engine.chain (engine_change engine (.register spec) w)).trans
        (Engine.chain_register _ spec)
    have tamed : tame.CoversAll
        ((worldAfter (engine.register spec) w).engine engine).chain := by
      rw [registered]
      exact List.forall_mem_append.mpr ⟨covered, List.forall_mem_singleton.mpr new⟩
    obtain ⟨left, ends⟩ := tame.evaluate_eq direction e covered
    obtain ⟨left', ends'⟩ := tame.evaluate_eq direction e tamed
    rw [registered] at ends'
    exact ⟨_, _, left, left', ends, ends', tame.answers.verdict_register direction e _ spec⟩
  · obtain ⟨_, now⟩ := tame.evaluate_eq direction e covered
    cases now.symm.trans ends
    -- The chain of the later world begins with that of the earlier one, which has decided
    -- already.
    obtain ⟨goes, tamed⟩ := only.chain_run covered
    obtain ⟨left', later⟩ := tame.evaluate_eq direction e tamed
    rw [tame.answers.verdict_of_prefix direction e goes decided] at later
    exact ⟨left', later⟩

/-! ## A delay that comes before a wall -/

namespace Refining

open Steady (signature callbacks letter)
open Exchanged (answers slow strict picky)
open Retelling (account)

/-- An engine whose only rule does not match the letter. -/
def world : World signature :=
  Exchanged.world [strict]

/-- A rule that delays the letter comes before one that drops it. -/
def deeds : List (Deed signature) :=
  [.use (.change ⟨0⟩ (.register slow)), .use (.evaluate ⟨0⟩ .outbound letter),
    .operate (.alter ⟨0⟩ (.register picky))]

/-- All rules of the engine are tame: its predicates and suppliers all are. -/
theorem covered : answers.tame.CoversAll (world.engine ⟨0⟩).chain :=
  fun _ _ => ⟨fun _ _ => trivial, fun _ _ => trivial⟩

/-- The letter is delivered, then delayed, and it goes on being delayed. -/
theorem evaluate_refines_delayed :
    answers.tame.CoversAll (world.engine ⟨0⟩).chain ∧
    answers.tame.Covers slow ∧
    Deed.OnlyRegister answers.tame account world deeds ∧
    Deed.findings callbacks ⟨0⟩ .outbound letter world deeds
      = .decided (.ok .deliver) :: List.replicate 3 (.decided (.ok (.delay (.ofSecs 1)))) ∧
    (∃ before after verdict, Deed.findings callbacks ⟨0⟩ .outbound letter world deeds
      = List.replicate before (.decided (.ok .deliver))
        ++ List.replicate after (.decided (.ok verdict))) ∧
    answers.tame.answers.Refined .outbound letter slow .deliver (.delay (.ofSecs 1)) := by
  have known : answers.tame.Covers slow := ⟨fun _ _ => trivial, fun _ _ => trivial⟩
  have only : Deed.OnlyRegister answers.tame account world deeds := by
    intro change there
    -- The history of these deeds can be computed.
    have change_eq : change ∈ [.register slow, .register picky] := there
    simp only [List.mem_cons, List.not_mem_nil, or_false] at change_eq
    rcases change_eq with rfl | rfl
    · exact ⟨_, rfl, known⟩
    · exact ⟨_, rfl, fun _ _ => trivial, fun _ _ => trivial⟩
  obtain ⟨refined, run⟩ :=
    evaluate_refines callbacks ⟨0⟩ answers.tame account world covered
  obtain ⟨before, after, left, left', first, second, between⟩ :=
    refined slow known .outbound letter
  cases first
  cases second
  exact ⟨covered, known, only, rfl, (run deeds only .outbound letter).1, between⟩

end Refining

end Netsieve
