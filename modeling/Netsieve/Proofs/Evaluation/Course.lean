import Netsieve.Proofs.Evaluation.FirstMatch

/-!
# `Netsieve.Proofs.Evaluation.Course`: the calls of an evaluation

An evaluation calls predicates and perhaps a supplier, and whatever happens meanwhile
is what these do. `EngineRef.calls` are its calls in their order, each with the world in
which it is made, and `Course` says that nothing but certain calls lies between two
worlds. It is not asked what the callbacks do: they may use any engine, and panic.

* `runs_evaluate`: an evaluation makes its calls one after the other and does nothing else,
  apart from a note in the log. A call that panics is the last one.
* `course_evaluate`: between the start and the end of an evaluation lie its calls.
* `engine_course`: so every engine has changed as an account of the callbacks says, be it
  the one that was asked or another one.
* `log_course`: and a log has grown by these calls.
* `belongs_of_mem_calls`: only rules that were in force, of the direction asked for and
  in scope, have their predicates and suppliers called.
-/

set_option autoImplicit false

namespace Netsieve

variable {σ : Signature}

/-- A call, and the world in which it is made. -/
structure Made (σ : Signature) where
  call : Call σ
  before : World σ

/-- The world that a call leaves behind. -/
def Made.after (cb : Callbacks σ) (made : Made σ) : World σ :=
  match made.call with
  | .test predicate e => worldAfter (cb.test predicate e) made.before
  | .supply supplier e => worldAfter (cb.supply supplier e) made.before

/-- The panic with which a program ends, if it does. -/
def Outcome.panic? {α : Type} : Outcome σ α → Option Panic
  | .ok _ _ => none
  | .error p _ => some p

/-- The panic with which a call ends, if it does. -/
def Made.panic? (cb : Callbacks σ) (made : Made σ) : Option Panic :=
  match made.call with
  | .test predicate e => Outcome.panic? (cb.test predicate e made.before)
  | .supply supplier e => Outcome.panic? (cb.supply supplier e made.before)

/-- Calls are made one after the other, each in the world that the one before has left, and
nothing else happens. A call that panics is the last one, and its panic is passed on. -/
inductive Made.Runs (cb : Callbacks σ) :
    World σ → List (Made σ) → Option Panic → World σ → Prop where
  | done {w : World σ} : Runs cb w [] none w
  | returned {w w' : World σ} {call : Call σ} {calls : List (Made σ)} {ended : Option Panic}
      (returns : Made.panic? cb ⟨call, w⟩ = none)
      (rest : Runs cb (Made.after cb ⟨call, w⟩) calls ended w') :
      Runs cb w (⟨call, w⟩ :: calls) ended w'
  | panicked {w : World σ} {call : Call σ} {p : Panic}
      (panics : Made.panic? cb ⟨call, w⟩ = some p) :
      Runs cb w [⟨call, w⟩] (some p) (Made.after cb ⟨call, w⟩)

/-- These calls, one after the other, are all that lies between two worlds, but for
entries in the log of events. -/
inductive Course (cb : Callbacks σ) : World σ → List (Made σ) → World σ → Prop where
  | done {w : World σ} : Course cb w [] w
  | record {w w' : World σ} {calls : List (Made σ)} (event : Event)
      (rest : Course cb (w.record event) calls w') : Course cb w calls w'
  | call {w w' : World σ} {call : Call σ} {calls : List (Made σ)}
      (rest : Course cb (Made.after cb ⟨call, w⟩) calls w') : Course cb w (⟨call, w⟩ :: calls) w'

section Course

variable {cb : Callbacks σ} {w here w' : World σ} {calls others : List (Made σ)}

/-- What lies between two worlds can be put together from two parts. -/
theorem Course.trans (first : Course cb w calls here) (second : Course cb here others w') :
    Course cb w (calls ++ others) w' := by
  induction first with
  | done => exact second
  | record event _ ih => exact .record event (ih second)
  | call _ ih => exact .call (ih second)

/-- What is noted after a course does not count. -/
theorem Course.noted (course : Course cb w calls here) (event : Event) :
    Course cb w calls (here.record event) :=
  List.append_nil calls ▸ course.trans (.record event .done)

/-- A call alone runs, whether it returns or panics. -/
theorem Made.Runs.single (call : Call σ) (w : World σ) :
    Made.Runs cb w [⟨call, w⟩] (Made.panic? cb ⟨call, w⟩) (Made.after cb ⟨call, w⟩) := by
  cases ends : Made.panic? cb ⟨call, w⟩ with
  | none => exact .returned ends .done
  | some p => exact .panicked ends

/-- After calls that have all returned, others run on. -/
theorem Made.Runs.append {ended : Option Panic} (first : Made.Runs cb w calls none here)
    (second : Made.Runs cb here others ended w') :
    Made.Runs cb w (calls ++ others) ended w' := by
  generalize nobody : none = panicked at first
  induction first with
  | done => exact second
  | returned returns _ ih => exact .returned returns (ih second nobody)
  | panicked _ => cases nobody

/-- Calls that run one after the other are all that lies between their two worlds. -/
theorem Course.of_runs {ended : Option Panic} (runs : Made.Runs cb w calls ended w') :
    Course cb w calls w' := by
  induction runs with
  | done => exact .done
  | returned _ _ ih => exact .call ih
  | panicked _ => exact .call .done

/-- A log grows by the calls. -/
theorem log_course {log : World σ → List (Call σ)} (logs : cb.Logs log)
    (course : Course cb w calls w') : log w' = log w ++ calls.map Made.call := by
  induction course with
  | done => exact (List.append_nil _).symm
  | record event _ ih => rw [ih, logs.record]
  | @call w w' call calls _ ih =>
    have entry : log (Made.after cb ⟨call, w⟩) = log w ++ [call] := by
      cases call with
      | test predicate e => exact logs.test predicate e w
      | supply supplier e => exact logs.supply supplier e w
    rw [ih, entry, List.map_cons, List.append_assoc]
    rfl

variable {engine : EngineRef} (account : cb.Account engine)

/-- The changes that a call makes, by an account. -/
def Callbacks.Account.made (made : Made σ) : List (Engine.Change σ.Predicate σ.Supplier) :=
  match made.call with
  | .test predicate e => account.tested predicate e made.before
  | .supply supplier e => account.supplied supplier e made.before

/-- A call changes the engine by the changes that the account gives it. -/
theorem engine_after (made : Made σ) :
    (made.after cb).engine engine = (made.before.engine engine).applyAll (account.made made) := by
  obtain ⟨call, before⟩ := made
  cases call with
  | test predicate e => exact account.tested_eq predicate e before
  | supply supplier e => exact account.supplied_eq supplier e before

/-- An engine has changed as the account says, call by call. -/
theorem engine_course (course : Course cb w calls w') :
    w'.engine engine = (w.engine engine).applyAll (calls.flatMap account.made) := by
  induction course with
  | done => rfl
  | record event _ ih => rw [ih, World.engine_record]
  | call _ ih => rw [ih, engine_after account, List.flatMap_cons, Engine.applyAll_append]

/-- A call meets an engine on which some of all changes have been made, the first ones. -/
theorem engine_before_course (course : Course cb w calls w') {made : Made σ}
    (there : made ∈ calls) :
    ∃ before, before <+: calls.flatMap account.made ∧
      made.before.engine engine = (w.engine engine).applyAll before := by
  induction course with
  | done => cases there
  | record event _ ih => exact ih there
  | @call w w' call calls _ ih =>
    rcases List.mem_cons.mp there with rfl | there
    · exact ⟨[], List.nil_prefix, rfl⟩
    · obtain ⟨before, first, met⟩ := ih there
      refine ⟨account.made ⟨call, w⟩ ++ before, ?_, ?_⟩
      · rw [List.flatMap_cons]
        exact (List.prefix_append_right_inj _).mpr first
      · rw [met, engine_after account, Engine.applyAll_append]

end Course

/-! ## The calls of an evaluation -/

section Calls

variable (cb : Callbacks σ) (engine : EngineRef) (direction : Direction) (e : Envelope)

/-- The call that a rule's turn takes: its predicate is asked if the rule is open. -/
def Rule.asks (rule : Rule σ.Predicate σ.Supplier) (w : World σ) : List (Made σ) :=
  if rule.isOpen engine direction e w then (Call.asked e [rule]).map (⟨·, w⟩) else []

/-- The call that a rule's decision takes. -/
def Rule.consults (rule : Rule σ.Predicate σ.Supplier) (w : World σ) : List (Made σ) :=
  (Call.supplied e rule).map (⟨·, w⟩)

namespace EngineRef

/-- The calls of a scan of a list of rules. -/
def scanCalls : List (Rule σ.Predicate σ.Supplier) → World σ → List (Made σ)
  | [], _ => []
  | rule :: rest, w =>
    rule.asks engine direction e w ++
      match rule.applies cb engine direction e w with
      | .ok false left => scanCalls rest left
      | _ => []

/-- The calls of an evaluation. -/
def calls (w : World σ) : List (Made σ) :=
  engine.scanCalls cb direction e (w.engine engine).rules w ++
    match engine.firstMatch cb direction e (w.engine engine).rules w with
    | .ok (some rule) left => rule.consults e left
    | _ => []

end EngineRef

/-- A rule's turn runs the call of its predicate, if it is open and has one. -/
theorem runs_applies (rule : Rule σ.Predicate σ.Supplier) (w : World σ) :
    Made.Runs cb w (rule.asks engine direction e w)
      (Outcome.panic? (rule.applies cb engine direction e w))
      (worldAfter (rule.applies cb engine direction e) w) := by
  unfold Rule.asks worldAfter
  cases opened : rule.isOpen engine direction e w with
  | false =>
    rw [applies_of_not_open cb engine direction e opened]
    exact .done
  | true =>
    cases content : rule.content with
    | none =>
      rw [asked_of_no_content content,
        applies_of_no_content cb engine direction e opened content]
      exact .done
    | some predicate =>
      rw [asked_of_content content, applies_of_content cb engine direction e opened content]
      exact .single (.test predicate e) w

/-- A rule's decision runs the call of its supplier, if it has one. -/
theorem runs_verdict (rule : Rule σ.Predicate σ.Supplier) (w : World σ) :
    Made.Runs cb w (rule.consults e w) (Outcome.panic? (rule.verdict cb e w))
      (worldAfter (rule.verdict cb e) w) := by
  have decides := verdict_decides cb e rule w
  unfold worldAfter Rule.consults Call.supplied
  generalize rule.verdict cb e w = outcome at decides
  cases decides with
  | drop acts =>
    rw [acts]
    exact .done
  | fixed acts =>
    rw [acts]
    exact .done
  | @computed supplier d w' acts answer =>
    rw [acts, ← worldAfter_of_ok answer]
    exact .returned (congrArg Outcome.panic? answer) .done
  | @broken supplier p w' acts answer =>
    rw [acts, ← worldAfter_of_error answer]
    exact .panicked (congrArg Outcome.panic? answer)

/-- A scan does nothing but make its calls. -/
theorem runs_firstMatch (rules : List (Rule σ.Predicate σ.Supplier)) (w : World σ) :
    Made.Runs cb w (engine.scanCalls cb direction e rules w)
      (Outcome.panic? (engine.firstMatch cb direction e rules w))
      (worldAfter (engine.firstMatch cb direction e rules) w) := by
  induction rules generalizing w with
  | nil => exact .done
  | cons rule rest ih =>
    -- The turn of the first rule comes first. If it applies or panics, no other rule is
    -- asked.
    have turn := runs_applies cb engine direction e rule w
    unfold EngineRef.scanCalls EngineRef.firstMatch worldAfter
    unfold worldAfter at turn
    cases applies : rule.applies cb engine direction e w with
    | error p left =>
      rw [bind_of_error applies, List.append_nil]
      rwa [applies] at turn
    | ok said left =>
      rw [applies] at turn
      rw [bind_of_ok applies]
      cases said with
      | true =>
        rw [List.append_nil]
        exact turn
      | false => exact turn.append (ih left)

/-- How an evaluation ends after its calls.

- `panicked`: with the panic of a call, and in the world that this has left;
- `unmatched`: without a rule that matches;
- `decided`: with a verdict, which is noted. -/
inductive Judged (here : World σ) : Option Panic → Outcome σ Verdict → Prop where
  | panicked (p : Panic) : Judged here (some p) (.error p here)
  | unmatched : Judged here none (.ok .deliver here)
  | decided (verdict : Verdict) (event : Event) :
      Judged here none (.ok verdict (here.record event))

/-- An evaluation does nothing but make its calls, apart from a note in the log. -/
theorem runs_evaluate (w : World σ) :
    ∃ ended here, Made.Runs cb w (engine.calls cb direction e w) ended here ∧
      Judged here ended (engine.evaluate cb direction e w) := by
  -- An evaluation is a scan and, if that has found a rule, its decision.
  have scan := runs_firstMatch cb engine direction e (w.engine engine).rules w
  unfold EngineRef.calls
  unfold worldAfter at scan
  cases found : engine.firstMatch cb direction e (w.engine engine).rules w with
  | error p left =>
    rw [found] at scan
    rw [evaluate_of_broken cb engine direction e found, List.append_nil]
    exact ⟨some p, left, scan, .panicked p⟩
  | ok rule left =>
    rw [found] at scan
    cases rule with
    | none =>
      rw [evaluate_of_none cb engine direction e found, List.append_nil]
      exact ⟨none, left, scan, .unmatched⟩
    | some rule =>
      have decision := runs_verdict cb e rule left
      unfold worldAfter at decision
      cases decides : rule.verdict cb e left with
      | error p w' =>
        rw [decides] at decision
        rw [evaluate_of_undecided cb engine direction e found decides]
        exact ⟨some p, w', scan.append decision, .panicked p⟩
      | ok verdict w' =>
        rw [decides] at decision
        rw [evaluate_of_some cb engine direction e found decides]
        exact ⟨none, w', scan.append decision, .decided verdict _⟩

/-- Between the start and the end of an evaluation lie its calls. -/
theorem course_evaluate (w : World σ) :
    Course cb w (engine.calls cb direction e w)
      (worldAfter (engine.evaluate cb direction e) w) := by
  obtain ⟨ended, here, runs, ends⟩ := runs_evaluate cb engine direction e w
  have course := Course.of_runs runs
  unfold worldAfter
  generalize engine.evaluate cb direction e w = outcome at ends
  cases ends with
  | panicked p => exact course
  | unmatched => exact course
  | decided verdict event => exact course.noted event

/-! ## Whose predicates and suppliers are called -/

/-- A call of the predicate or the supplier of a rule that fits a transfer. -/
def Call.Belongs (rules : List (Rule σ.Predicate σ.Supplier)) (call : Call σ) : Prop :=
  ∃ rule ∈ rules, rule.inScope direction e = true ∧
    (call ∈ Call.asked e [rule] ∨ call ∈ Call.supplied e rule)

variable {cb} {engine} {direction} {e}

/-- An open rule fits the transfer. -/
theorem inScope_of_isOpen {rule : Rule σ.Predicate σ.Supplier} {w : World σ}
    (h : rule.isOpen engine direction e w = true) : rule.inScope direction e = true := by
  unfold Rule.isOpen at h
  rw [Bool.and_eq_true] at h
  exact h.2

/-- A call that belongs to some rules belongs to more of them as well. -/
theorem Call.Belongs.of_subset {rules more : List (Rule σ.Predicate σ.Supplier)} {call : Call σ}
    (h : call.Belongs direction e rules) (part : rules ⊆ more) : call.Belongs direction e more := by
  obtain ⟨rule, there, scope, called⟩ := h
  exact ⟨rule, part there, scope, called⟩

/-- A rule's turn calls nothing but its own predicate, and only if the rule fits. -/
theorem belongs_of_mem_asks {rule : Rule σ.Predicate σ.Supplier} {w : World σ} {made : Made σ}
    (h : made ∈ rule.asks engine direction e w) : made.call.Belongs direction e [rule] := by
  unfold Rule.asks at h
  split at h
  · next opened =>
    obtain ⟨call, asked, rfl⟩ := List.mem_map.mp h
    exact ⟨rule, List.mem_singleton_self rule, inScope_of_isOpen opened, .inl asked⟩
  · cases h

/-- A scan calls nothing but the predicates of rules that fit. -/
theorem belongs_of_mem_scanCalls {rules : List (Rule σ.Predicate σ.Supplier)} {w : World σ}
    {made : Made σ} (h : made ∈ engine.scanCalls cb direction e rules w) :
    made.call.Belongs direction e rules := by
  induction rules generalizing w with
  | nil => cases h
  | cons rule rest ih =>
    rcases List.mem_append.mp h with turn | later
    · exact (belongs_of_mem_asks turn).of_subset (by simp)
    · split at later
      · exact (ih later).of_subset (List.subset_cons_self rule rest)
      · cases later

/-- The rule that a scan finds is one of its list and fits the transfer. -/
theorem inScope_of_firstMatch {rules : List (Rule σ.Predicate σ.Supplier)}
    {rule : Rule σ.Predicate σ.Supplier} {w left : World σ}
    (h : engine.firstMatch cb direction e rules w = .ok (some rule) left) :
    rule ∈ rules ∧ rule.inScope direction e = true := by
  obtain ⟨passed, ahead, here, rfl, -, -, ends⟩ := firstMatch_scan cb engine direction e rules w
  rw [h] at ends
  cases ends with
  | hit hits => exact ⟨by simp, inScope_of_isOpen hits.1⟩

/-- Every call of an evaluation is about its transfer, and of a rule that was in force when
it started, of its direction and in scope. -/
theorem belongs_of_mem_calls {w : World σ} {made : Made σ}
    (h : made ∈ engine.calls cb direction e w) :
    made.call.Belongs direction e (w.engine engine).rules := by
  rcases List.mem_append.mp h with scanned | decided
  · exact belongs_of_mem_scanCalls scanned
  · split at decided
    · next rule left found =>
      obtain ⟨there, scope⟩ := inScope_of_firstMatch found
      obtain ⟨call, supplied, rfl⟩ := List.mem_map.mp decided
      exact ⟨rule, there, scope, .inr supplied⟩
    · cases decided

end Calls

end Netsieve
