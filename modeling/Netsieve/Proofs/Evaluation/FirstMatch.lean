import Netsieve.Proofs.Evaluation.Scan

/-!
# `Netsieve.Proofs.Evaluation.FirstMatch`: one rule decides, and who is asked for it

As long as predicates leave the engine alone (`Callbacks.Keeps`), every rule of a scan
meets the engine that the evaluation started with. Then a rule is open or not from the
start, and the way of a scan can be told without its turns: the open rules are asked one
after the other until one of them grants (`Denied`, `Grants`).

* `evaluate_firstMatch`: the first open rule that grants decides, and without one the
  message is delivered. The callbacks that are called are the predicates of the open
  rules up to the one that decides, and then its supplier.

Callbacks can be told apart only by what they do to the world. So which of them are
called is stated for any log in which every call leaves an entry (`Callbacks.Logs`).
-/

set_option autoImplicit false

namespace Netsieve

variable {σ : Signature}

/-- A call of a callback about a message. -/
inductive Call (σ : Signature) where
  | test (predicate : σ.Predicate) (e : Envelope)
  | supply (supplier : σ.Supplier) (e : Envelope)

/-- Whatever predicates do, they leave an engine alone. Nothing is asked of suppliers: one is
called only when it is settled which rule decides. -/
structure Callbacks.Keeps (cb : Callbacks σ) (engine : EngineRef) : Prop where
  test : ∀ predicate e w, (worldAfter (cb.test predicate e) w).engine engine = w.engine engine

/-- Every call of a predicate or a supplier leaves an entry in a log, and nothing that an
engine does of its own is found there. -/
structure Callbacks.Logs (cb : Callbacks σ) (log : World σ → List (Call σ)) : Prop where
  test : ∀ predicate e w, log (worldAfter (cb.test predicate e) w) = log w ++ [.test predicate e]
  supply : ∀ supplier e w,
    log (worldAfter (cb.supply supplier e) w) = log w ++ [.supply supplier e]
  record : ∀ (w : World σ) event, log (w.record event) = log w

/-! ## Rules that are asked in turn -/

section Asking

variable (cb : Callbacks σ) (e : Envelope)

/-- All rules of a list have predicates, which say no one after the other.

- `nil`: there is nobody to ask;
- `cons`: the first one says no, and then the others do. -/
inductive Denied : World σ → List (Rule σ.Predicate σ.Supplier) → World σ → Prop where
  | nil {w : World σ} : Denied w [] w
  | cons {rule : Rule σ.Predicate σ.Supplier} {rest : List (Rule σ.Predicate σ.Supplier)}
      {predicate : σ.Predicate} {w left w' : World σ} (asks : rule.content = some predicate)
      (answer : cb.test predicate e w = .ok false left) (denied : Denied left rest w') :
      Denied w (rule :: rest) w'

/-- A rule has no predicate, or one that says yes.

- `bare`: there is no predicate to ask;
- `asked`: the predicate says yes. -/
inductive Grants (rule : Rule σ.Predicate σ.Supplier) : World σ → World σ → Prop where
  | bare {w : World σ} (bare : rule.content = none) : Grants rule w w
  | asked {predicate : σ.Predicate} {w left : World σ} (asks : rule.content = some predicate)
      (answer : cb.test predicate e w = .ok true left) : Grants rule w left

/-- The calls in which the rules of a list are asked. -/
def Call.asked (rules : List (Rule σ.Predicate σ.Supplier)) : List (Call σ) :=
  rules.filterMap fun rule => rule.content.map fun predicate => .test predicate e

/-- The calls that the decision of a rule takes. -/
def Call.supplied (rule : Rule σ.Predicate σ.Supplier) : List (Call σ) :=
  match rule.action with
  | .delay (.computed supplier) => [.supply supplier e]
  | _ => []

variable {cb} {e}

/-- The rules of two lists are asked one list after the other. -/
theorem asked_append (first second : List (Rule σ.Predicate σ.Supplier)) :
    Call.asked e (first ++ second) = Call.asked e first ++ Call.asked e second :=
  List.filterMap_append

/-- A rule with a predicate takes one call. -/
theorem asked_of_content {rule : Rule σ.Predicate σ.Supplier} {predicate : σ.Predicate}
    (asks : rule.content = some predicate) :
    Call.asked (σ := σ) e [rule] = [.test predicate e] := by
  simp [Call.asked, asks]

/-- A rule without a predicate takes no call. -/
theorem asked_of_no_content {rule : Rule σ.Predicate σ.Supplier} (bare : rule.content = none) :
    Call.asked (σ := σ) e [rule] = [] := by
  simp [Call.asked, bare]

variable {log : World σ → List (Call σ)}

/-- Every rule that denies has been asked once, in the order of the list. -/
theorem log_denied (logs : cb.Logs log) {rules : List (Rule σ.Predicate σ.Supplier)}
    {w w' : World σ} (h : Denied cb e w rules w') : log w' = log w ++ Call.asked e rules := by
  induction h with
  | nil => exact (List.append_nil _).symm
  | @cons rule rest predicate w left w' asks answer denied ih =>
    have call : log left = log w ++ [.test predicate e] := by
      rw [← worldAfter_of_ok answer, logs.test]
    have split : Call.asked e (rule :: rest) = Call.asked e [rule] ++ Call.asked e rest :=
      asked_append [rule] rest
    rw [ih, call, split, asked_of_content asks, List.append_assoc]

/-- A rule that grants has been asked once, if it has a predicate. -/
theorem log_grants (logs : cb.Logs log) {rule : Rule σ.Predicate σ.Supplier} {w left : World σ}
    (h : Grants cb e rule w left) : log left = log w ++ Call.asked e [rule] := by
  cases h with
  | bare bare => rw [asked_of_no_content bare, List.append_nil]
  | asked asks answer => rw [asked_of_content asks, ← worldAfter_of_ok answer, logs.test]

/-- A rule that decides calls its supplier once, if it has one. -/
theorem log_decides (logs : cb.Logs log) {rule : Rule σ.Predicate σ.Supplier} {w : World σ}
    {outcome : Outcome σ Verdict} (h : Decides cb e rule w outcome) :
    log (Outcome.world outcome) = log w ++ Call.supplied e rule := by
  unfold Call.supplied
  cases h with
  | drop acts =>
    rw [acts]
    exact (List.append_nil _).symm
  | fixed acts =>
    rw [acts]
    exact (List.append_nil _).symm
  | computed acts answer =>
    rw [acts, ← worldAfter_of_ok answer]
    exact logs.supply _ _ _
  | broken acts answer =>
    rw [acts, ← worldAfter_of_error answer]
    exact logs.supply _ _ _

/-- A rule permits a message unless it drops it. -/
theorem permits_decides {rule : Rule σ.Predicate σ.Supplier} {w w' : World σ} {verdict : Verdict}
    (h : Decides cb e rule w (.ok verdict w')) :
    verdict.permits = false ↔ rule.action = .drop := by
  cases h with
  | drop acts => simp [Verdict.permits, acts]
  | fixed acts => simp [Verdict.permits, acts]
  | computed acts => simp [Verdict.permits, acts]

end Asking

/-! ## The open rules of a scan -/

section Open

variable {cb : Callbacks σ} {engine : EngineRef} {direction : Direction} {e : Envelope}

/-- The open rules of a list. -/
def openRules (engine : EngineRef) (direction : Direction) (e : Envelope) (w : World σ)
    (rules : List (Rule σ.Predicate σ.Supplier)) : List (Rule σ.Predicate σ.Supplier) :=
  rules.filter fun rule => rule.isOpen engine direction e w

/-- Whether a rule is open depends on the engine alone. -/
theorem isOpen_congr {rule : Rule σ.Predicate σ.Supplier} {w w' : World σ}
    (same : w'.engine engine = w.engine engine) :
    rule.isOpen engine direction e w' = rule.isOpen engine direction e w := by
  unfold Rule.isOpen
  rw [same]

/-- A turn that misses denies if its rule is open, and does nothing otherwise. -/
theorem denied_of_misses {t : Turn σ} (h : t.Misses cb engine direction e) :
    Denied cb e t.reached (openRules engine direction e t.reached [t.rule]) t.left := by
  rcases h with ⟨closed, same⟩ | ⟨opened, predicate, asks, answer⟩
  · have nobody : openRules engine direction e t.reached [t.rule] = [] := by
      simp [openRules, closed]
    rw [nobody, same]
    exact .nil
  · have itself : openRules engine direction e t.reached [t.rule] = [t.rule] := by
      simp [openRules, opened]
    rw [itself]
    exact .cons asks answer .nil

/-- Rules that deny one list after the other deny as one list. -/
theorem Denied.trans {first second : List (Rule σ.Predicate σ.Supplier)} {w here w' : World σ}
    (h : Denied cb e w first here) (rest : Denied cb e here second w') :
    Denied cb e w (first ++ second) w' := by
  induction h with
  | nil => exact rest
  | cons asks answer denied ih => exact .cons asks answer (ih rest)

/-- A rule that does not apply leaves the engine alone if predicates do. -/
theorem engine_misses (keeps : cb.Keeps engine) {t : Turn σ}
    (h : t.Misses cb engine direction e) : t.left.engine engine = t.reached.engine engine := by
  rcases h with ⟨closed, same⟩ | ⟨opened, predicate, asks, answer⟩
  · rw [same]
  · rw [← worldAfter_of_ok answer, keeps.test]

/-- Linked turns that miss are denials by the rules that were open at the start. -/
theorem denied_of_linked (keeps : cb.Keeps engine) {passed : List (Turn σ)} {w here : World σ}
    (linked : Turn.Linked w passed here)
    (missed : ∀ t ∈ passed, t.Misses cb engine direction e) :
    Denied cb e w (openRules engine direction e w (passed.map Turn.rule)) here ∧
      here.engine engine = w.engine engine := by
  induction passed generalizing w with
  | nil =>
    have same : here = w := linked
    rw [same]
    exact ⟨.nil, rfl⟩
  | cons t rest ih =>
    obtain ⟨starts, linked⟩ := linked
    have misses : t.Misses cb engine direction e := missed t List.mem_cons_self
    -- Predicates leave the engine alone, so which rules are open is settled before the
    -- first turn. That is why a filter over the whole list can say it.
    have same : t.left.engine engine = w.engine engine := by
      rw [engine_misses keeps misses, starts]
    obtain ⟨denied, kept⟩ := ih linked fun t ht => missed t (List.mem_cons_of_mem _ ht)
    have open_same : openRules engine direction e t.left (rest.map Turn.rule)
        = openRules engine direction e w (rest.map Turn.rule) := by
      unfold openRules
      exact List.filter_congr fun rule _ => isOpen_congr same
    have first := denied_of_misses misses
    rw [starts] at first
    rw [open_same] at denied
    have both := first.trans denied
    rw [openRules, openRules, ← List.filter_append] at both
    exact ⟨both, kept.trans same⟩

end Open

/-! ## What decides -/

section FirstMatch

variable (cb : Callbacks σ) (engine : EngineRef) (direction : Direction) (e : Envelope)

/-- What becomes of an evaluation that starts with these rules in this world, what
becomes of the question whether the message is permitted, and which calls that takes.

- `unmatched`: all open rules deny, and the message is delivered;
- `decided`: the open rules before this one deny, and this one grants and decides;
- `undecided`: the open rules before this one deny, and this one grants, but its supplier
  panics;
- `broken`: the open rules before this one deny, and the predicate of this one panics. -/
inductive FirstMatch (w : World σ) (rules : List (Rule σ.Predicate σ.Supplier)) :
    Outcome σ Verdict → Outcome σ Bool → List (Call σ) → Prop where
  | unmatched {here : World σ}
      (denied : Denied cb e w (openRules engine direction e w rules) here) :
      FirstMatch w rules (.ok .deliver here) (.ok true here)
        (Call.asked e (openRules engine direction e w rules))
  | decided {before after : List (Rule σ.Predicate σ.Supplier)}
      {rule : Rule σ.Predicate σ.Supplier} {here left w' : World σ} {verdict : Verdict}
      {permitted : Bool} (place : rules = before ++ rule :: after)
      (denied : Denied cb e w (openRules engine direction e w before) here)
      (opened : rule.isOpen engine direction e w = true) (grants : Grants cb e rule here left)
      (decides : Decides cb e rule left (.ok verdict w'))
      (permits : permitted = false ↔ rule.action = .drop) :
      FirstMatch w rules
        (.ok verdict (w'.record (.messageFiltered rule.id direction e verdict)))
        (.ok permitted (w'.record (.messageFiltered rule.id direction e verdict)))
        (Call.asked e (openRules engine direction e w before ++ [rule])
          ++ Call.supplied e rule)
  | undecided {before after : List (Rule σ.Predicate σ.Supplier)}
      {rule : Rule σ.Predicate σ.Supplier} {here left w' : World σ} {p : Panic}
      (place : rules = before ++ rule :: after)
      (denied : Denied cb e w (openRules engine direction e w before) here)
      (opened : rule.isOpen engine direction e w = true) (grants : Grants cb e rule here left)
      (decides : Decides cb e rule left (.error p w')) :
      FirstMatch w rules (.error p w') (.error p w')
        (Call.asked e (openRules engine direction e w before ++ [rule])
          ++ Call.supplied e rule)
  | broken {before after : List (Rule σ.Predicate σ.Supplier)}
      {rule : Rule σ.Predicate σ.Supplier} {predicate : σ.Predicate} {here left : World σ}
      {p : Panic} (place : rules = before ++ rule :: after)
      (denied : Denied cb e w (openRules engine direction e w before) here)
      (opened : rule.isOpen engine direction e w = true)
      (asks : rule.content = some predicate)
      (answer : cb.test predicate e here = .error p left) :
      FirstMatch w rules (.error p left) (.error p left)
        (Call.asked e (openRules engine direction e w before ++ [rule]))

variable {cb} {engine} {direction} {e}

/-- A message is permitted if the verdict lets it pass. -/
theorem permit_of_ok {w w' : World σ} {verdict : Verdict}
    (h : engine.evaluate cb direction e w = .ok verdict w') :
    engine.permit cb direction e w = .ok verdict.permits w' := by
  rw [EngineRef.permit, bind_of_ok h]
  rfl

/-- Where an evaluation panics, the question for permission does. -/
theorem permit_of_error {w w' : World σ} {p : Panic}
    (h : engine.evaluate cb direction e w = .error p w') :
    engine.permit cb direction e w = .error p w' := by
  rw [EngineRef.permit, bind_of_error h]

/-- A rule that applies grants. -/
theorem grants_of_hits {t : Turn σ} (h : t.Hits cb engine direction e) :
    Grants cb e t.rule t.reached t.left := by
  obtain ⟨-, ⟨bare, same⟩ | ⟨predicate, asks, answer⟩⟩ := h
  · rw [same]
    exact .bare bare
  · exact .asked asks answer

/-- A log tells exactly the calls of an evaluation. -/
theorem log_firstMatch {log : World σ → List (Call σ)} (logs : cb.Logs log) {w : World σ}
    {rules : List (Rule σ.Predicate σ.Supplier)} {outcome : Outcome σ Verdict}
    {permission : Outcome σ Bool} {calls : List (Call σ)}
    (h : FirstMatch cb engine direction e w rules outcome permission calls) :
    log (Outcome.world outcome) = log w ++ calls := by
  cases h with
  | unmatched denied => exact log_denied logs denied
  | @decided before after rule here left w' verdict permitted place denied opened grants
      decides permits =>
    have said : log w' = log left ++ Call.supplied e rule := log_decides logs decides
    show log (w'.record _) = _
    rw [logs.record, said, log_grants logs grants, log_denied logs denied, asked_append]
    simp only [List.append_assoc]
  | @undecided before after rule here left w' p place denied opened grants decides =>
    have said : log w' = log left ++ Call.supplied e rule := log_decides logs decides
    show log w' = _
    rw [said, log_grants logs grants, log_denied logs denied, asked_append]
    simp only [List.append_assoc]
  | @broken before after rule predicate here left p place denied opened asks answer =>
    -- A predicate that panics has been called all the same.
    have said : log left = log here ++ [.test predicate e] := by
      rw [← worldAfter_of_error answer, logs.test]
    show log left = _
    rw [said, log_denied logs denied, asked_append, asked_of_content asks]
    simp only [List.append_assoc]

/-- The first open rule that grants decides.

The open rules are those that are switched on and whose direction and scopes fit. They
are asked in their order until one of them has no predicate or one that says yes, and
that rule decides by its action: it drops the message, or delays it by its fixed time or
by what its supplier answers. If all of them say no, the message is delivered. The
message is permitted unless the rule that decides drops it. A log of the calls grows by
the predicates of the open rules up to the one that decides, each asked once and about
this message, and by the supplier of that rule; rules that are not open or come later
are not asked. -/
theorem evaluate_firstMatch (cb : Callbacks σ) (engine : EngineRef) (keeps : cb.Keeps engine)
    (direction : Direction) (e : Envelope) (w : World σ) :
    ∃ calls, FirstMatch cb engine direction e w (w.engine engine).rules
        (engine.evaluate cb direction e w) (engine.permit cb direction e w) calls ∧
      ∀ log, cb.Logs log →
        log (worldAfter (engine.evaluate cb direction e) w) = log w ++ calls := by
  -- The scan has passed over some rules and has stopped at the next one. How it stopped
  -- decides the row.
  obtain ⟨passed, ahead, here, covers, linked, missed, scan⟩ :=
    firstMatch_scan cb engine direction e (w.engine engine).rules w
  obtain ⟨denied, kept⟩ := denied_of_linked keeps linked missed
  -- What a log has to show depends on the row only.
  suffices h : ∃ calls, FirstMatch cb engine direction e w (w.engine engine).rules
      (engine.evaluate cb direction e w) (engine.permit cb direction e w) calls by
    obtain ⟨calls, course⟩ := h
    exact ⟨calls, course, fun log logs => log_firstMatch logs course⟩
  generalize found : EngineRef.firstMatch cb engine direction e (w.engine engine).rules w
    = outcome at scan
  cases scan with
  | unmatched =>
    have evaluates := evaluate_of_none cb engine direction e found
    rw [evaluates, permit_of_ok evaluates, covers, List.append_nil]
    exact ⟨_, .unmatched denied⟩
  | @hit rule rest left hits =>
    -- `hits` is about the world in which the scan gets to the rule, and the row is about
    -- the first world.
    have opened : rule.isOpen engine direction e w = true :=
      (isOpen_congr kept).symm.trans hits.1
    have decides := verdict_decides cb e rule left
    cases verdict : rule.verdict cb e left with
    | ok said w' =>
      rw [verdict] at decides
      have evaluates := evaluate_of_some cb engine direction e found verdict
      rw [evaluates, permit_of_ok evaluates]
      exact ⟨_, .decided covers denied opened (grants_of_hits hits) decides
        (permits_decides decides)⟩
    | error p w' =>
      rw [verdict] at decides
      have evaluates := evaluate_of_undecided cb engine direction e found verdict
      rw [evaluates, permit_of_error evaluates]
      exact ⟨_, .undecided covers denied opened (grants_of_hits hits) decides⟩
  | @broken rule rest left p breaks =>
    obtain ⟨still, predicate, asks, answer⟩ := breaks
    have opened : rule.isOpen engine direction e w = true :=
      (isOpen_congr kept).symm.trans still
    have evaluates := evaluate_of_broken cb engine direction e found
    rw [evaluates, permit_of_error evaluates]
    exact ⟨_, .broken covers denied opened asks answer⟩

end FirstMatch

/-! ## Callbacks that always answer the same -/

namespace Steady

/-- Callbacks that go by their answers, and remember which of them were called. -/
abbrev signature : Signature where
  Predicate := Bool
  Supplier := Duration
  Sink := Unit
  Memory := List ((Bool ⊕ Duration) × Envelope)

/-- Each of them notes the call and gives its answer. -/
def callbacks : Callbacks signature where
  test answer e := fun w => .ok answer { w with memory := w.memory ++ [(.inl answer, e)] }
  supply answer e := fun w => .ok answer { w with memory := w.memory ++ [(.inr answer, e)] }
  accept _ _ _ := pure ()

/-- These callbacks do nothing but remember. -/
theorem callbacks_keeps (engine : EngineRef) : callbacks.Keeps engine :=
  ⟨fun _ _ _ => rfl⟩

/-- What was noted, as calls. -/
def calls (w : World signature) : List (Call signature) :=
  w.memory.map fun (answer, e) =>
    match answer with
    | .inl predicate => .test predicate e
    | .inr supplier => .supply supplier e

/-- What they remember is the log of their calls. -/
theorem callbacks_logs : callbacks.Logs calls where
  test predicate e w := by
    show List.map _ (w.memory ++ [(Sum.inl predicate, e)]) = _
    rw [List.map_append]
    rfl
  supply supplier e w := by
    show List.map _ (w.memory ++ [(Sum.inr supplier, e)]) = _
    rw [List.map_append]
    rfl
  record _ _ := rfl

/-- A message from node 1 to node 2. -/
def letter : Envelope := ⟨1, 2, Message.new 7 []⟩

/-- An outbound rule. -/
def rule (verbs : Scope) (content : Option Bool) (action : Action Duration) (serial : Nat) :
    Rule Bool Duration where
  direction := .outbound
  verbs := verbs
  senders := .any
  receivers := .any
  content := content
  action := action
  serial := serial

/-- An engine with a rule that is switched off, one that is out of scope, one that says
no, one that says yes and has a supplier, and one that comes too late. -/
def world : World signature where
  engines := ⟨#[
    { rules := [rule .any none .drop 0, rule (.only [8]) (some true) .drop 1,
        rule .any (some false) .drop 2,
        rule .any (some true) (.delay (.computed (.ofSecs 2))) 3, rule .any (some true) .drop 4]
      flags := #[false, true, true, true, true] }]⟩
  memory := []

/-- Of the five rules one says no, the next one says yes and its supplier is called. The others
are not asked. -/
theorem evaluate_firstMatch_steady :
    callbacks.Keeps ⟨0⟩ ∧ callbacks.Logs calls ∧
    (∃ called, FirstMatch callbacks ⟨0⟩ .outbound letter world (world.engine ⟨0⟩).rules
        (EngineRef.evaluate callbacks ⟨0⟩ .outbound letter world)
        (EngineRef.permit callbacks ⟨0⟩ .outbound letter world) called ∧
      ∀ log, callbacks.Logs log →
        log (worldAfter (EngineRef.evaluate callbacks ⟨0⟩ .outbound letter) world)
          = log world ++ called) ∧
    calls (worldAfter (EngineRef.evaluate callbacks ⟨0⟩ .outbound letter) world)
      = [.test false letter, .test true letter, .supply (.ofSecs 2) letter] :=
  ⟨callbacks_keeps ⟨0⟩, callbacks_logs,
    evaluate_firstMatch callbacks ⟨0⟩ (callbacks_keeps ⟨0⟩) .outbound letter world, rfl⟩

end Steady

end Netsieve
