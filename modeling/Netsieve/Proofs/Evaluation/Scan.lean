import Netsieve.Proofs.Scenario.Upkeep

/-!
# `Netsieve.Proofs.Evaluation.Scan`: an evaluation goes through the rules turn by turn

Predicates and suppliers may use the engine that is just being asked. So a rule can
meet another engine than the one the evaluation started with, and what an evaluation
decides can only be told along its way. `Turn` is one rule's turn on that way: the
world in which the scan gets to the rule and the world in which it leaves it. A turn
is a miss, a hit or a panic (`Misses`, `Hits`, `Breaks`), and which of them depends on
the flag in the world of the turn. In a scan every turn starts in the world that the
turn before it has left (`Linked`).

* `firstMatch_scan`: every scan of a list of rules is a row of misses that follows the
  list from its first rule on, and ends at the end of the list, with a hit or with a
  panic.
* `evaluate_reentrant`: an evaluation scans the rules that were in force when it
  started, whatever its callbacks do to the engine, and the first hit decides. Of its
  own it changes nothing but the log: the engine it leaves is the engine it found with
  the changes of its callbacks, in the order of the calls.
-/

set_option autoImplicit false

namespace Netsieve

variable {σ : Signature}

/-- One rule's turn in a scan.

- `reached`: the world in which the scan gets to the rule;
- `left`: the world in which the scan leaves the rule. -/
structure Turn (σ : Signature) where
  rule : Rule σ.Predicate σ.Supplier
  reached : World σ
  left : World σ

namespace Rule

/-- Whether a rule is switched on in a world, and direction, verb, sender and receiver
fit. Only then is its predicate asked. -/
def isOpen (engine : EngineRef) (direction : Direction) (e : Envelope)
    (rule : Rule σ.Predicate σ.Supplier) (w : World σ) : Bool :=
  (w.engine engine).isEnabled rule && rule.inScope direction e

end Rule

namespace Turn

/-- Every turn starts in the world that the turn before it has left. -/
def Linked : World σ → List (Turn σ) → World σ → Prop
  | w, [], w' => w' = w
  | w, t :: rest, w' => t.reached = w ∧ Linked t.left rest w'

variable (cb : Callbacks σ) (engine : EngineRef) (direction : Direction) (e : Envelope)

/-- The rule does not apply. Either it is not open, and nothing is asked, or its
predicate says no. -/
def Misses (t : Turn σ) : Prop :=
  (t.rule.isOpen engine direction e t.reached = false ∧ t.left = t.reached) ∨
  (t.rule.isOpen engine direction e t.reached = true ∧
    ∃ predicate, t.rule.content = some predicate ∧
      cb.test predicate e t.reached = .ok false t.left)

/-- The rule applies. It is open, and has no predicate or one that says yes. -/
def Hits (t : Turn σ) : Prop :=
  t.rule.isOpen engine direction e t.reached = true ∧
    ((t.rule.content = none ∧ t.left = t.reached) ∨
      ∃ predicate, t.rule.content = some predicate ∧
        cb.test predicate e t.reached = .ok true t.left)

/-- The rule is open and its predicate panics. -/
def Breaks (p : Panic) (t : Turn σ) : Prop :=
  t.rule.isOpen engine direction e t.reached = true ∧
    ∃ predicate, t.rule.content = some predicate ∧
      cb.test predicate e t.reached = .error p t.left

end Turn

/-! ## The scan of a list of rules -/

section Scan

variable (cb : Callbacks σ) (engine : EngineRef) (direction : Direction) (e : Envelope)

/-- A rule that is not open does not apply. -/
theorem applies_of_not_open {rule : Rule σ.Predicate σ.Supplier} {w : World σ}
    (h : rule.isOpen engine direction e w = false) :
    rule.applies cb engine direction e w = .ok false w := by
  show (if rule.isOpen engine direction e w = true then _ else _ : Run σ Bool) w = _
  rw [h]
  rfl

/-- An open rule without a predicate applies. -/
theorem applies_of_no_content {rule : Rule σ.Predicate σ.Supplier} {w : World σ}
    (h : rule.isOpen engine direction e w = true) (bare : rule.content = none) :
    rule.applies cb engine direction e w = .ok true w := by
  show (if rule.isOpen engine direction e w = true then _ else _ : Run σ Bool) w = _
  rw [h, bare]
  rfl

/-- An open rule with a predicate does what the predicate does. -/
theorem applies_of_content {rule : Rule σ.Predicate σ.Supplier} {w : World σ}
    {predicate : σ.Predicate} (h : rule.isOpen engine direction e w = true)
    (asks : rule.content = some predicate) :
    rule.applies cb engine direction e w = cb.test predicate e w := by
  show (if rule.isOpen engine direction e w = true then _ else _ : Run σ Bool) w = _
  rw [h, asks]
  rfl

/-- A turn is a miss, a hit or a panic. -/
theorem applies_cases (rule : Rule σ.Predicate σ.Supplier) (w : World σ) :
    (∃ left, rule.applies cb engine direction e w = .ok false left ∧
      Turn.Misses cb engine direction e ⟨rule, w, left⟩) ∨
    (∃ left, rule.applies cb engine direction e w = .ok true left ∧
      Turn.Hits cb engine direction e ⟨rule, w, left⟩) ∨
    (∃ p left, rule.applies cb engine direction e w = .error p left ∧
      Turn.Breaks cb engine direction e p ⟨rule, w, left⟩) := by
  -- A predicate is asked only if the rule is open and has one.
  cases h : rule.isOpen engine direction e w with
  | false => exact .inl ⟨w, applies_of_not_open cb engine direction e h, .inl ⟨h, rfl⟩⟩
  | true =>
    cases asks : rule.content with
    | none =>
      exact .inr (.inl ⟨w, applies_of_no_content cb engine direction e h asks, h,
        .inl ⟨asks, rfl⟩⟩)
    | some predicate =>
      rw [applies_of_content cb engine direction e h asks]
      cases answer : cb.test predicate e w with
      | ok said left =>
        cases said with
        | false => exact .inl ⟨left, rfl, .inr ⟨h, predicate, asks, answer⟩⟩
        | true => exact .inr (.inl ⟨left, rfl, h, .inr ⟨predicate, asks, answer⟩⟩)
      | error p left => exact .inr (.inr ⟨p, left, rfl, h, predicate, asks, answer⟩)

/-- How a scan of a list of rules can end, once it has passed over some of them.

- `unmatched`: at the end of the list;
- `hit`: with a rule that applies;
- `broken`: with a rule whose predicate panics. -/
inductive ScanEnds (here : World σ) : List (Rule σ.Predicate σ.Supplier) →
    Outcome σ (Option (Rule σ.Predicate σ.Supplier)) → Prop where
  | unmatched : ScanEnds here [] (.ok none here)
  | hit {rule : Rule σ.Predicate σ.Supplier} {rest : List (Rule σ.Predicate σ.Supplier)}
      {left : World σ} (hits : Turn.Hits cb engine direction e ⟨rule, here, left⟩) :
      ScanEnds here (rule :: rest) (.ok (some rule) left)
  | broken {rule : Rule σ.Predicate σ.Supplier} {rest : List (Rule σ.Predicate σ.Supplier)}
      {left : World σ} {p : Panic}
      (breaks : Turn.Breaks cb engine direction e p ⟨rule, here, left⟩) :
      ScanEnds here (rule :: rest) (.error p left)

/-- A scan passes over the rules of a list in their order, from the first one on, and
ends as `ScanEnds` says. -/
theorem firstMatch_scan (rules : List (Rule σ.Predicate σ.Supplier)) (w : World σ) :
    ∃ (passed : List (Turn σ)) (ahead : List (Rule σ.Predicate σ.Supplier)) (here : World σ),
      rules = passed.map Turn.rule ++ ahead ∧ Turn.Linked w passed here ∧
      (∀ t ∈ passed, t.Misses cb engine direction e) ∧
      ScanEnds cb engine direction e here ahead
        (EngineRef.firstMatch cb engine direction e rules w) := by
  induction rules generalizing w with
  | nil => exact ⟨[], [], w, rfl, rfl, by simp, .unmatched⟩
  | cons rule rest ih =>
    rcases applies_cases cb engine direction e rule w with
      ⟨left, applies, misses⟩ | ⟨left, applies, hits⟩ | ⟨p, left, applies, breaks⟩
    · -- The scan passes over this rule, and goes on in the world that the turn has left.
      obtain ⟨passed, ahead, here, covers, linked, missed, ends⟩ := ih left
      refine ⟨⟨rule, w, left⟩ :: passed, ahead, here, ?_, ⟨rfl, linked⟩, ?_, ?_⟩
      · rw [covers]
        rfl
      · intro t ht
        rcases List.mem_cons.mp ht with rfl | ht
        · exact misses
        · exact missed t ht
      · rw [EngineRef.firstMatch, bind_of_ok applies]
        exact ends
    · -- The scan stops at this rule.
      refine ⟨[], rule :: rest, w, rfl, rfl, by simp, ?_⟩
      rw [EngineRef.firstMatch, bind_of_ok applies]
      exact .hit hits
    · refine ⟨[], rule :: rest, w, rfl, rfl, by simp, ?_⟩
      rw [EngineRef.firstMatch, bind_of_error applies]
      exact .broken breaks

end Scan

/-! ## What the callbacks of a scan do to the engine -/

section Reentrant

variable {cb : Callbacks σ} {engine : EngineRef}

/-- The changes made at one turn: those of the rule's predicate, if it is asked. -/
def Callbacks.Account.turn (account : cb.Account engine) (direction : Direction) (e : Envelope)
    (t : Turn σ) : List (Engine.Change σ.Predicate σ.Supplier) :=
  match t.rule.content with
  | some predicate =>
    if t.rule.isOpen engine direction e t.reached then account.tested predicate e t.reached
    else []
  | none => []

/-- The changes made when a rule decides: those of its supplier, if it has one. -/
def Callbacks.Account.decision (account : cb.Account engine)
    (rule : Rule σ.Predicate σ.Supplier) (e : Envelope) (w : World σ) :
    List (Engine.Change σ.Predicate σ.Supplier) :=
  match rule.action with
  | .delay (.computed supplier) => account.supplied supplier e w
  | _ => []

variable (account : cb.Account engine) (direction : Direction) (e : Envelope)

/-- At a turn at which nothing is asked, nothing is changed. -/
theorem turn_of_quiet {t : Turn σ}
    (h : t.rule.isOpen engine direction e t.reached = false ∨ t.rule.content = none) :
    account.turn direction e t = [] := by
  unfold Callbacks.Account.turn
  rcases h with closed | bare
  · rw [closed]
    cases t.rule.content <;> rfl
  · rw [bare]

/-- At a turn at which a predicate is asked, its changes are made. -/
theorem turn_of_asked {t : Turn σ} {predicate : σ.Predicate}
    (h : t.rule.isOpen engine direction e t.reached = true)
    (asks : t.rule.content = some predicate) :
    account.turn direction e t = account.tested predicate e t.reached := by
  unfold Callbacks.Account.turn
  rw [asks, h]
  rfl

/-- A turn leaves the engine with the changes made at it. -/
theorem engine_turn {t : Turn σ}
    (h : t.Misses cb engine direction e ∨ t.Hits cb engine direction e ∨
      ∃ p, t.Breaks cb engine direction e p) :
    t.left.engine engine
      = (t.reached.engine engine).applyAll (account.turn direction e t) := by
  -- Either nothing is asked at the turn, or there is a call that the account knows.
  have quiet : (t.rule.isOpen engine direction e t.reached = false ∨ t.rule.content = none) →
      t.left = t.reached → t.left.engine engine
        = (t.reached.engine engine).applyAll (account.turn direction e t) := by
    intro nothing same
    rw [turn_of_quiet account direction e nothing, same]
    rfl
  have asked : ∀ predicate, t.rule.isOpen engine direction e t.reached = true →
      t.rule.content = some predicate → worldAfter (cb.test predicate e) t.reached = t.left →
      t.left.engine engine
        = (t.reached.engine engine).applyAll (account.turn direction e t) := by
    intro predicate opened asks ends
    rw [turn_of_asked account direction e opened asks, ← account.tested_eq, ends]
  rcases h with (⟨closed, same⟩ | ⟨opened, predicate, asks, ends⟩) |
      ⟨opened, ⟨bare, same⟩ | ⟨predicate, asks, ends⟩⟩ | ⟨p, opened, predicate, asks, ends⟩
  · exact quiet (.inl closed) same
  · exact asked predicate opened asks (worldAfter_of_ok ends)
  · exact quiet (.inr bare) same
  · exact asked predicate opened asks (worldAfter_of_ok ends)
  · exact asked predicate opened asks (worldAfter_of_error ends)

/-- Turns that are linked leave the engine with the changes made at them, in order. -/
theorem engine_linked {passed : List (Turn σ)} {w here : World σ}
    (linked : Turn.Linked w passed here)
    (missed : ∀ t ∈ passed, t.Misses cb engine direction e) :
    here.engine engine
      = (w.engine engine).applyAll (passed.flatMap (account.turn direction e)) := by
  induction passed generalizing w with
  | nil =>
    have same : here = w := linked
    rw [same]
    rfl
  | cons t rest ih =>
    obtain ⟨starts, linked⟩ := linked
    rw [ih linked fun t ht => missed t (List.mem_cons_of_mem _ ht),
      engine_turn account direction e (.inl (missed t List.mem_cons_self)), starts,
      List.flatMap_cons, Engine.applyAll_append]

end Reentrant

/-! ## What an evaluation decides -/

section Evaluation

variable (cb : Callbacks σ) (e : Envelope)

/-- What a rule decides about a message: its action, with the answer of its supplier if
it has one.

- `drop`: it drops the message;
- `fixed`: it delays the message by a fixed time;
- `computed`: it delays the message by the time that its supplier gives;
- `broken`: its supplier panics. -/
inductive Decides (rule : Rule σ.Predicate σ.Supplier) (w : World σ) :
    Outcome σ Verdict → Prop where
  | drop (acts : rule.action = .drop) : Decides rule w (.ok .drop w)
  | fixed {d : Duration} (acts : rule.action = .delay (.fixed d)) :
      Decides rule w (.ok (.delay d) w)
  | computed {supplier : σ.Supplier} {d : Duration} {w' : World σ}
      (acts : rule.action = .delay (.computed supplier))
      (answer : cb.supply supplier e w = .ok d w') : Decides rule w (.ok (.delay d) w')
  | broken {supplier : σ.Supplier} {p : Panic} {w' : World σ}
      (acts : rule.action = .delay (.computed supplier))
      (answer : cb.supply supplier e w = .error p w') : Decides rule w (.error p w')

/-- A rule decides by its action. -/
theorem verdict_decides (rule : Rule σ.Predicate σ.Supplier) (w : World σ) :
    Decides cb e rule w (rule.verdict cb e w) := by
  unfold Rule.verdict
  cases acts : rule.action with
  | drop => exact .drop acts
  | delay source =>
    cases source with
    | fixed d => exact .fixed acts
    | computed supplier =>
      cases answer : cb.supply supplier e w with
      | ok d w' =>
        show Decides cb e rule w
          ((cb.supply supplier e >>= fun d => pure (Verdict.delay d)) w)
        rw [bind_of_ok answer]
        exact .computed acts answer
      | error p w' =>
        show Decides cb e rule w
          ((cb.supply supplier e >>= fun d => pure (Verdict.delay d)) w)
        rw [bind_of_error answer]
        exact .broken acts answer

variable {cb} {engine : EngineRef} (account : cb.Account engine) (direction : Direction)

/-- A decision leaves the engine with the changes of the supplier. -/
theorem engine_decision {rule : Rule σ.Predicate σ.Supplier} {w : World σ}
    {outcome : Outcome σ Verdict} (h : Decides cb e rule w outcome) :
    (Outcome.world outcome).engine engine
      = (w.engine engine).applyAll (account.decision rule e w) := by
  unfold Callbacks.Account.decision
  cases h with
  | drop acts =>
    rw [acts]
    rfl
  | fixed acts =>
    rw [acts]
    rfl
  | computed acts answer =>
    rw [acts, ← worldAfter_of_ok answer]
    exact account.supplied_eq _ _ _
  | broken acts answer =>
    rw [acts, ← worldAfter_of_error answer]
    exact account.supplied_eq _ _ _

/-- How an evaluation ends that has passed over all rules but those still ahead, and
which changes of the engine are made at the end.

- `unmatched`: no rule is left, and the message is delivered;
- `decided`: the next rule applies and decides;
- `undecided`: the next rule applies, and its supplier panics;
- `broken`: the predicate of the next rule panics. -/
inductive EvaluationEnds (here : World σ) : List (Rule σ.Predicate σ.Supplier) →
    Outcome σ Verdict → List (Engine.Change σ.Predicate σ.Supplier) → Prop where
  | unmatched : EvaluationEnds here [] (.ok .deliver here) []
  | decided {rule : Rule σ.Predicate σ.Supplier} {rest : List (Rule σ.Predicate σ.Supplier)}
      {left w' : World σ} {verdict : Verdict}
      (hits : Turn.Hits cb engine direction e ⟨rule, here, left⟩)
      (decides : Decides cb e rule left (.ok verdict w')) :
      EvaluationEnds here (rule :: rest)
        (.ok verdict (w'.record (.messageFiltered rule.id direction e verdict)))
        (account.turn direction e ⟨rule, here, left⟩ ++ account.decision rule e left)
  | undecided {rule : Rule σ.Predicate σ.Supplier}
      {rest : List (Rule σ.Predicate σ.Supplier)} {left w' : World σ} {p : Panic}
      (hits : Turn.Hits cb engine direction e ⟨rule, here, left⟩)
      (decides : Decides cb e rule left (.error p w')) :
      EvaluationEnds here (rule :: rest) (.error p w')
        (account.turn direction e ⟨rule, here, left⟩ ++ account.decision rule e left)
  | broken {rule : Rule σ.Predicate σ.Supplier} {rest : List (Rule σ.Predicate σ.Supplier)}
      {left : World σ} {p : Panic}
      (breaks : Turn.Breaks cb engine direction e p ⟨rule, here, left⟩) :
      EvaluationEnds here (rule :: rest) (.error p left)
        (account.turn direction e ⟨rule, here, left⟩)

end Evaluation

section Course

variable (cb : Callbacks σ) (engine : EngineRef) (direction : Direction) (e : Envelope)
  {w : World σ}

/-- Without a rule that applies the message is delivered. -/
theorem evaluate_of_none {here : World σ}
    (h : EngineRef.firstMatch cb engine direction e (w.engine engine).rules w = .ok none here) :
    engine.evaluate cb direction e w = .ok .deliver here := by
  show (EngineRef.firstMatch cb engine direction e (w.engine engine).rules >>= _) w = _
  rw [bind_of_ok h]
  rfl

/-- The rule that applies decides, and its decision is logged. -/
theorem evaluate_of_some {rule : Rule σ.Predicate σ.Supplier} {left w' : World σ}
    {verdict : Verdict}
    (h : EngineRef.firstMatch cb engine direction e (w.engine engine).rules w
      = .ok (some rule) left)
    (decides : rule.verdict cb e left = .ok verdict w') :
    engine.evaluate cb direction e w
      = .ok verdict (w'.record (.messageFiltered rule.id direction e verdict)) := by
  show (EngineRef.firstMatch cb engine direction e (w.engine engine).rules >>= _) w = _
  rw [bind_of_ok h]
  show (rule.verdict cb e >>= _) left = _
  rw [bind_of_ok decides]
  rfl

/-- If the rule that applies cannot decide, the evaluation ends there. -/
theorem evaluate_of_undecided {rule : Rule σ.Predicate σ.Supplier} {left w' : World σ}
    {p : Panic}
    (h : EngineRef.firstMatch cb engine direction e (w.engine engine).rules w
      = .ok (some rule) left)
    (decides : rule.verdict cb e left = .error p w') :
    engine.evaluate cb direction e w = .error p w' := by
  show (EngineRef.firstMatch cb engine direction e (w.engine engine).rules >>= _) w = _
  rw [bind_of_ok h]
  show (rule.verdict cb e >>= _) left = _
  rw [bind_of_error decides]

/-- If a predicate panics, the evaluation ends there. -/
theorem evaluate_of_broken {left : World σ} {p : Panic}
    (h : EngineRef.firstMatch cb engine direction e (w.engine engine).rules w
      = .error p left) :
    engine.evaluate cb direction e w = .error p left := by
  show (EngineRef.firstMatch cb engine direction e (w.engine engine).rules >>= _) w = _
  rw [bind_of_error h]

variable {cb} {engine} (account : cb.Account engine)

/-- The end of a scan is the end of the evaluation that scans. -/
theorem evaluate_ends {here : World σ} {ahead : List (Rule σ.Predicate σ.Supplier)}
    (ends : ScanEnds cb engine direction e here ahead
      (EngineRef.firstMatch cb engine direction e (w.engine engine).rules w)) :
    ∃ changes, EvaluationEnds e account direction here ahead
      (engine.evaluate cb direction e w) changes := by
  generalize found : EngineRef.firstMatch cb engine direction e (w.engine engine).rules w
    = outcome at ends
  cases ends with
  | unmatched =>
    rw [evaluate_of_none cb engine direction e found]
    exact ⟨[], .unmatched⟩
  | @hit rule rest left hits =>
    have decides := verdict_decides cb e rule left
    cases verdict : rule.verdict cb e left with
    | ok said w' =>
      rw [verdict] at decides
      rw [evaluate_of_some cb engine direction e found verdict]
      exact ⟨_, .decided hits decides⟩
    | error p w' =>
      rw [verdict] at decides
      rw [evaluate_of_undecided cb engine direction e found verdict]
      exact ⟨_, .undecided hits decides⟩
  | broken breaks =>
    rw [evaluate_of_broken cb engine direction e found]
    exact ⟨_, .broken breaks⟩

/-- The end of an evaluation leaves the engine with the changes made there. -/
theorem engine_evaluationEnds {here : World σ} {ahead : List (Rule σ.Predicate σ.Supplier)}
    {outcome : Outcome σ Verdict} {changes : List (Engine.Change σ.Predicate σ.Supplier)}
    (ends : EvaluationEnds e account direction here ahead outcome changes) :
    (Outcome.world outcome).engine engine = (here.engine engine).applyAll changes := by
  cases ends with
  | unmatched => rfl
  | @decided rule rest left w' verdict hits decides =>
    have after : w'.engine engine = _ := engine_decision e account decides
    -- The changes of the predicate come first and those of the supplier next.
    have asked : left.engine engine = _ :=
      engine_turn account direction e (.inr (.inl hits))
    show (w'.record _).engine engine = _
    rw [World.engine_record, after, asked, Engine.applyAll_append]
  | @undecided rule rest left w' p hits decides =>
    have after : w'.engine engine = _ := engine_decision e account decides
    have asked : left.engine engine = _ :=
      engine_turn account direction e (.inr (.inl hits))
    show w'.engine engine = _
    rw [after, asked, Engine.applyAll_append]
  | broken breaks => exact engine_turn account direction e (.inr (.inr ⟨_, breaks⟩))

/-- An evaluation whose callbacks use the engine themselves.

It goes through the rules that were in force when it started, in their order: the rules
it passes over and those still ahead when it ends make up that list, whatever has been
registered or reset meanwhile. The turns of the rules it passes over are linked, so each
rule is open or not by its flag as the callbacks before it have left it. `EvaluationEnds`
tells how the first rule that applies decides, or which callback panics, in the world
that the scan has reached there. In any case the engine is left as it was found, with
the changes of the callbacks that were called, in the order of the calls. -/
theorem evaluate_reentrant (cb : Callbacks σ) (engine : EngineRef) (account : cb.Account engine)
    (direction : Direction) (e : Envelope) (w : World σ) :
    ∃ (passed : List (Turn σ)) (ahead : List (Rule σ.Predicate σ.Supplier)) (here : World σ)
      (changes : List (Engine.Change σ.Predicate σ.Supplier)),
      (w.engine engine).rules = passed.map Turn.rule ++ ahead ∧
      Turn.Linked w passed here ∧
      (∀ t ∈ passed, t.Misses cb engine direction e) ∧
      EvaluationEnds e account direction here ahead (engine.evaluate cb direction e w)
        changes ∧
      (worldAfter (engine.evaluate cb direction e) w).engine engine
        = (w.engine engine).applyAll
            (passed.flatMap (account.turn direction e) ++ changes) := by
  -- The rules are those of the first world, whatever is done to the engine meanwhile.
  obtain ⟨passed, ahead, here, covers, linked, missed, scan⟩ :=
    firstMatch_scan cb engine direction e (w.engine engine).rules w
  obtain ⟨changes, ends⟩ := evaluate_ends direction e account scan
  refine ⟨passed, ahead, here, changes, covers, linked, missed, ends, ?_⟩
  have finally_eq : (worldAfter (engine.evaluate cb direction e) w).engine engine = _ :=
    engine_evaluationEnds direction e account ends
  rw [finally_eq, engine_linked account direction e linked missed, Engine.applyAll_append]

end Course

/-! ## A predicate that uses its own engine -/

namespace Scenario

/-- A condition that takes all rules of the main engine out of force, registers one that
would drop everything, and switches off the rule named `second`. In the end it says no. -/
def meddles : Condition :=
  .perform [.reset "main", .addRule "last" "main" none [] (some .drop),
    .useHandle "second" [false] false] (.const false)

/-- A rule about everything that is outbound. -/
def everything (content : Option Predicate) (action : Action Supplier) (serial : Nat) :
    Rule Predicate Supplier where
  direction := .outbound
  verbs := .any
  senders := .any
  receivers := .any
  content := content
  action := action
  serial := serial

/-- An engine with a rule that meddles, one that drops everything and one that delays. -/
def meddled : World script where
  engines := ⟨#[
    { rules := [everything (some ⟨"first", 0, meddles⟩) .drop 0, everything none .drop 1,
        everything none (.delay (.fixed (.ofSecs 1))) 2]
      flags := #[true, true, true] }]⟩
  memory :=
    { engines := Names.insert {} "main" ⟨0⟩
      handles := Names.insert {} "second" ⟨⟨0⟩, everything none .drop 1⟩
      counters := #[0] }

/-- A message from node 1 to node 2. -/
def note : Envelope := ⟨1, 2, Message.new 7 []⟩

/-- The third rule decides, though it is no longer in force then: the first one says no,
the second one was switched off, and the new one is not looked at. -/
theorem evaluate_reentrant_meddling :
    (∃ (passed : List (Turn script)) (ahead : List (Rule Predicate Supplier))
      (here : World script) (changes : List (Engine.Change Predicate Supplier)),
      (meddled.engine ⟨0⟩).rules = passed.map Turn.rule ++ ahead ∧
      Turn.Linked meddled passed here ∧
      (∀ t ∈ passed, t.Misses (callbacks maxDepth) ⟨0⟩ .outbound note) ∧
      EvaluationEnds note (callbacksAccount maxDepth ⟨0⟩) .outbound here ahead
        (EngineRef.evaluate (callbacks maxDepth) ⟨0⟩ .outbound note meddled) changes ∧
      (worldAfter (EngineRef.evaluate (callbacks maxDepth) ⟨0⟩ .outbound note) meddled).engine ⟨0⟩
        = (meddled.engine ⟨0⟩).applyAll
            (passed.flatMap ((callbacksAccount maxDepth ⟨0⟩).turn .outbound note) ++ changes)) ∧
    (∃ w', EngineRef.evaluate (callbacks maxDepth) ⟨0⟩ .outbound note meddled
      = .ok (.delay (.ofSecs 1)) w') ∧
    (worldAfter (EngineRef.evaluate (callbacks maxDepth) ⟨0⟩ .outbound note) meddled).engine ⟨0⟩
      = ⟨[everything none .drop 3], #[true, false, true, true]⟩ :=
  ⟨evaluate_reentrant (callbacks maxDepth) ⟨0⟩ (callbacksAccount maxDepth ⟨0⟩) .outbound note
      meddled,
    ⟨_, rfl⟩, rfl⟩

end Scenario

end Netsieve
