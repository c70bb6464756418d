import Netsieve.Proofs.Engine.Numbering
import Netsieve.Proofs.Engine.Selection
import Netsieve.Proofs.Evaluation.Agreement
import Netsieve.Proofs.Evaluation.Course

/-!
# `Netsieve.Proofs.Evaluation.Skip`: rules that are passed over

A rule is passed over for a transfer if it is switched off, or if its direction or one of
its scopes does not fit. An evaluation treats it like no rule at all. Its callbacks may
not: a predicate that asks the same engine about something else can meet the rule there.
So two engines are compared for callbacks that cannot tell them apart, that is, which do
the same in worlds that differ in nothing else (`World.Beside`).

* `indistinct_of_twins`: two engines whose rules for a transfer are the same, one by one,
  decide the same about it and call the same callbacks.
* `evaluate_skips`: so rules that are passed over can be deleted, the two directions do not
  depend on each other, and a rule that is switched off is like one that was never
  registered.
-/

set_option autoImplicit false

namespace Netsieve

variable {σ : Signature}

/-- Two worlds are the same, apart from one engine, and their logs of events are related. -/
structure World.Beside (logs : Array Event → Array Event → Prop) (ref : EngineRef)
    (engine engine' : Engine σ.Predicate σ.Supplier) (w w' : World σ) : Prop where
  here : w.engine ref = engine
  there : w'.engine ref = engine'
  others : ∀ other, other ≠ ref → w'.engine other = w.engine other
  width : w'.engines.size = w.engines.size
  networks : w'.networks = w.networks
  clock : w'.clock = w.clock
  pending : w'.pending = w.pending
  runtime : w'.hasRuntime = w.hasRuntime
  memory : w'.memory = w.memory
  events : logs w.events w'.events

/-- The worlds are still the same if something is noted in each. -/
theorem World.Beside.record {logs : Array Event → Array Event → Prop} {ref : EngineRef}
    {engine engine' : Engine σ.Predicate σ.Supplier} {w w' : World σ}
    (same : Beside logs ref engine engine' w w') {event event' : Event}
    (notes : logs (w.events.push event) (w'.events.push event')) :
    Beside logs ref engine engine' (w.record event) (w'.record event') :=
  { same with events := notes }

namespace Engine

variable {P S : Type}

/-- A rule of an engine is passed over for a transfer. -/
def Skips (engine : Engine P S) (direction : Direction) (e : Envelope) (rule : Rule P S) : Prop :=
  engine.isEnabled rule = false ∨ rule.direction ≠ direction ∨
    rule.verbs.contains e.message.verb = false ∨ rule.senders.contains e.sender = false ∨
    rule.receivers.contains e.receiver = false

/-- Whether a rule of an engine is switched on and its direction and scopes fit. -/
def opens (engine : Engine P S) (direction : Direction) (e : Envelope) (rule : Rule P S) : Bool :=
  engine.isEnabled rule && rule.inScope direction e

/-- The rules of an engine that are not passed over for a transfer. -/
def opened (engine : Engine P S) (direction : Direction) (e : Envelope) : List (Rule P S) :=
  engine.rules.filter (engine.opens direction e)

/-- A rule is passed over if it is not opened for the transfer. -/
theorem skips_iff {engine : Engine P S} {direction : Direction} {e : Envelope}
    {rule : Rule P S} :
    engine.Skips direction e rule ↔ engine.opens direction e rule = false := by
  simp only [Skips, opens, Rule.inScope, Bool.and_eq_false_iff, decide_eq_false_iff_not, ne_eq,
    or_assoc]

instance (engine : Engine P S) (direction : Direction) (e : Envelope) (rule : Rule P S) :
    Decidable (engine.Skips direction e rule) :=
  decidable_of_iff _ skips_iff.symm

/-- Callbacks that do the same whether the one engine or the other one stands behind a
reference make a decision about a transfer that is the same as well: the same verdict or the
same panic, after the same calls. -/
def Indistinct (cb : Callbacks σ) (logs : Array Event → Array Event → Prop) (ref : EngineRef)
    (direction : Direction) (e : Envelope) (engine engine' : Engine σ.Predicate σ.Supplier) :
    Prop :=
  Callbacks.Agree (World.Beside logs ref engine engine') cb cb →
    ∀ w w', World.Beside logs ref engine engine' w w' →
      Outcome.Matches (World.Beside logs ref engine engine')
        (ref.evaluate cb direction e w) (ref.evaluate cb direction e w') ∧
      (ref.calls cb direction e w').map Made.call = (ref.calls cb direction e w).map Made.call

end Engine

/-- Two rules have the same content, and notes about their decisions may stand in the logs. -/
structure Rule.Twin (logs : Array Event → Array Event → Prop)
    (rule rule' : Rule σ.Predicate σ.Supplier) : Prop where
  content : rule'.toRuleSpec = rule.toRuleSpec
  notes : ∀ direction e verdict {events events' : Array Event}, logs events events' →
    logs (events.push (.messageFiltered rule.id direction e verdict))
      (events'.push (.messageFiltered rule'.id direction e verdict))

/-- Two scans end in the same way: with rules of the same content, without a rule, or with the
same panic. -/
inductive Found (logs : Array Event → Array Event → Prop) (R : World σ → World σ → Prop) :
    Outcome σ (Option (Rule σ.Predicate σ.Supplier)) →
    Outcome σ (Option (Rule σ.Predicate σ.Supplier)) → Prop where
  | unmatched {w w' : World σ} (left : R w w') : Found logs R (.ok none w) (.ok none w')
  | hit {rule rule' : Rule σ.Predicate σ.Supplier} {w w' : World σ}
      (twin : Rule.Twin logs rule rule') (left : R w w') :
      Found logs R (.ok (some rule) w) (.ok (some rule') w')
  | broken (p : Panic) {w w' : World σ} (left : R w w') : Found logs R (.error p w) (.error p w')

/-! ## Scans -/

section Skip

variable (cb : Callbacks σ) (ref : EngineRef) (direction : Direction) (e : Envelope)

/-- A scan passes over rules that are not open. -/
theorem firstMatch_skip {skipped : List (Rule σ.Predicate σ.Supplier)} {w : World σ}
    (closed : ∀ rule ∈ skipped, rule.isOpen ref direction e w = false)
    (rest : List (Rule σ.Predicate σ.Supplier)) :
    ref.firstMatch cb direction e (skipped ++ rest) w = ref.firstMatch cb direction e rest w := by
  induction skipped with
  | nil => rfl
  | cons rule skipped ih =>
    have misses := applies_of_not_open cb ref direction e (closed rule List.mem_cons_self)
    rw [List.cons_append, EngineRef.firstMatch, bind_of_ok misses]
    exact ih fun other there => closed other (List.mem_cons_of_mem rule there)

/-- And calls nobody for them. -/
theorem scanCalls_skip {skipped : List (Rule σ.Predicate σ.Supplier)} {w : World σ}
    (closed : ∀ rule ∈ skipped, rule.isOpen ref direction e w = false)
    (rest : List (Rule σ.Predicate σ.Supplier)) :
    ref.scanCalls cb direction e (skipped ++ rest) w = ref.scanCalls cb direction e rest w := by
  induction skipped with
  | nil => rfl
  | cons rule skipped ih =>
    have shut := closed rule List.mem_cons_self
    have misses := applies_of_not_open cb ref direction e shut
    have nobody : rule.asks ref direction e w = [] := by simp [Rule.asks, shut]
    rw [List.cons_append, EngineRef.scanCalls, nobody, misses, List.nil_append]
    exact ih fun other there => closed other (List.mem_cons_of_mem rule there)

end Skip

/-! ## Two engines with the same rules for a transfer -/

section Twins

variable {cb : Callbacks σ} {logs : Array Event → Array Event → Prop} {ref : EngineRef}
  {direction : Direction} {e : Envelope} {engine engine' : Engine σ.Predicate σ.Supplier}
  {rule rule' : Rule σ.Predicate σ.Supplier} {w w' : World σ}

open World (Beside)

/-- Rules of the same content are asked by the same call. -/
theorem asked_twin (twin : Rule.Twin logs rule rule') :
    Call.asked e [rule'] = Call.asked e [rule] := by
  have asks : rule'.content = rule.content := congrArg RuleSpec.content twin.content
  simp only [Call.asked, List.filterMap_cons, asks]

/-- Rules of the same content decide by the same call. -/
theorem supplied_twin (twin : Rule.Twin logs rule rule') :
    Call.supplied e rule' = Call.supplied e rule := by
  have acts : rule'.action = rule.action := congrArg RuleSpec.action twin.content
  rw [Call.supplied, Call.supplied, acts]

/-- Rules of the same content decide the same. -/
theorem verdict_twin (twin : Rule.Twin logs rule rule') :
    rule'.verdict cb e = rule.verdict cb e := by
  have acts : rule'.action = rule.action := congrArg RuleSpec.action twin.content
  rw [Rule.verdict, Rule.verdict, acts]

/-- Calls that are made in one world are these calls. -/
theorem map_call_made (calls : List (Call σ)) (w : World σ) :
    (calls.map (Made.mk · w)).map Made.call = calls := by
  rw [List.map_map]
  exact List.map_id calls

/-- The turn of an open rule calls its predicate, if it has one. -/
theorem map_call_asks (opens : rule.isOpen ref direction e w = true) :
    (rule.asks ref direction e w).map Made.call = Call.asked e [rule] := by
  rw [Rule.asks, if_pos opens, map_call_made]

/-- The decision of a rule calls its supplier, if it has one. -/
theorem map_call_consults (rule : Rule σ.Predicate σ.Supplier) (w : World σ) :
    (rule.consults e w).map Made.call = Call.supplied e rule := by
  rw [Rule.consults, map_call_made]

/-- The one engine says which rules are open in the one world. -/
theorem isOpen_here (same : Beside logs ref engine engine' w w')
    (rule : Rule σ.Predicate σ.Supplier) :
    rule.isOpen ref direction e w = engine.opens direction e rule := by
  rw [Rule.isOpen, same.here, Engine.opens]

/-- The other engine says so in the other world. -/
theorem isOpen_there (same : Beside logs ref engine engine' w w')
    (rule : Rule σ.Predicate σ.Supplier) :
    rule.isOpen ref direction e w' = engine'.opens direction e rule := by
  rw [Rule.isOpen, same.there, Engine.opens]

/-- What the one engine passes over is not open in the one world. -/
theorem closed_here (same : Beside logs ref engine engine' w w')
    {skipped : List (Rule σ.Predicate σ.Supplier)}
    (shut : ∀ rule ∈ skipped, ¬ engine.opens direction e rule = true) :
    ∀ rule ∈ skipped, rule.isOpen ref direction e w = false := fun rule there =>
  (isOpen_here same rule).trans (Bool.eq_false_of_not_eq_true (shut rule there))

/-- What the other engine passes over is not open in the other world. -/
theorem closed_there (same : Beside logs ref engine engine' w w')
    {skipped : List (Rule σ.Predicate σ.Supplier)}
    (shut : ∀ rule ∈ skipped, ¬ engine'.opens direction e rule = true) :
    ∀ rule ∈ skipped, rule.isOpen ref direction e w' = false := fun rule there =>
  (isOpen_there same rule).trans (Bool.eq_false_of_not_eq_true (shut rule there))

section Agree

variable (agree : Callbacks.Agree (Beside logs ref engine engine') cb cb)
include agree

/-- Two open rules with the same content apply or not, whichever engine they are from. -/
theorem matches_applies (twin : Rule.Twin logs rule rule')
    (opens : rule.isOpen ref direction e w = true)
    (opens' : rule'.isOpen ref direction e w' = true)
    (same : Beside logs ref engine engine' w w') :
    Outcome.Matches (Beside logs ref engine engine') (rule.applies cb ref direction e w)
      (rule'.applies cb ref direction e w') := by
  have asks : rule'.content = rule.content := congrArg RuleSpec.content twin.content
  cases content : rule.content with
  | none =>
    rw [applies_of_no_content cb ref direction e opens content,
      applies_of_no_content cb ref direction e opens' (asks.trans content)]
    exact .ok true same
  | some predicate =>
    rw [applies_of_content cb ref direction e opens content,
      applies_of_content cb ref direction e opens' (asks.trans content)]
    exact agree.test predicate e w w' same

/-- Scans of two lists end in the same way and call the same callbacks if the rules that are not
passed over are the same, one by one. -/
theorem found_firstMatch {kept kept' : List (Rule σ.Predicate σ.Supplier)}
    (twins : List.Forall₂ (Rule.Twin logs) kept kept')
    {rules rules' : List (Rule σ.Predicate σ.Supplier)}
    (left : rules.filter (engine.opens direction e) = kept)
    (left' : rules'.filter (engine'.opens direction e) = kept')
    (same : Beside logs ref engine engine' w w') :
    Found logs (Beside logs ref engine engine') (ref.firstMatch cb direction e rules w)
      (ref.firstMatch cb direction e rules' w') ∧
    (ref.scanCalls cb direction e rules' w').map Made.call
      = (ref.scanCalls cb direction e rules w).map Made.call := by
  -- By induction on the rules that are left; what lies between them is skipped.
  induction twins generalizing rules rules' w w' with
  | nil =>
    have closed := closed_here same (List.filter_eq_nil_iff.mp left)
    have closed' := closed_there same (List.filter_eq_nil_iff.mp left')
    rw [← List.append_nil rules, ← List.append_nil rules', firstMatch_skip cb _ _ _ closed,
      firstMatch_skip cb _ _ _ closed', scanCalls_skip cb _ _ _ closed,
      scanCalls_skip cb _ _ _ closed']
    exact ⟨.unmatched same, rfl⟩
  | @cons rule rule' kept kept' twin twins ih =>
    -- Both scans pass over some rules first, and then these two have their turn.
    obtain ⟨skipped, rest, rfl, shut, opens, left⟩ := List.filter_eq_cons_iff.mp left
    obtain ⟨skipped', rest', rfl, shut', opens', left'⟩ := List.filter_eq_cons_iff.mp left'
    have closed := closed_here same shut
    have closed' := closed_there same shut'
    rw [firstMatch_skip cb _ _ _ closed, firstMatch_skip cb _ _ _ closed',
      scanCalls_skip cb _ _ _ closed, scanCalls_skip cb _ _ _ closed']
    have opens_here := (isOpen_here same rule).trans opens
    have opens_there := (isOpen_there same rule').trans opens'
    have turn := matches_applies agree twin opens_here opens_there same
    have asks : (rule'.asks ref direction e w').map Made.call
        = (rule.asks ref direction e w).map Made.call := by
      rw [map_call_asks opens_here, map_call_asks opens_there, asked_twin twin]
    unfold EngineRef.firstMatch EngineRef.scanCalls
    rw [List.map_append, List.map_append, asks]
    generalize applies : rule.applies cb ref direction e w = answer,
      applies' : rule'.applies cb ref direction e w' = answer' at turn
    cases turn with
    | error p here =>
      rw [bind_of_error applies, bind_of_error applies']
      exact ⟨.broken p here, rfl⟩
    | ok said here =>
      rw [bind_of_ok applies, bind_of_ok applies']
      cases said with
      | true => exact ⟨.hit twin here, rfl⟩
      | false =>
        obtain ⟨found, calls⟩ := ih left left' here
        exact ⟨found, congrArg _ calls⟩

/-- Two rules with the same content decide the same. -/
theorem matches_verdict (twin : Rule.Twin logs rule rule')
    (same : Beside logs ref engine engine' w w') :
    Outcome.Matches (Beside logs ref engine engine') (rule.verdict cb e w)
      (rule'.verdict cb e w') := by
  rw [verdict_twin twin]
  exact agrees_verdict agree e rule w w' same

end Agree

/-- Two engines decide the same if their rules that are not passed over are the same, one by
one. -/
theorem indistinct_of_twins
    (twins : List.Forall₂ (Rule.Twin logs) (engine.opened direction e)
      (engine'.opened direction e)) :
    engine.Indistinct cb logs ref direction e engine' := by
  intro agree w w' same
  -- The scans pass over the same rules, so they end alike. What follows is decided by
  -- twins.
  obtain ⟨found, calls⟩ := found_firstMatch agree twins rfl rfl same
  unfold EngineRef.calls
  rw [same.here, same.there, List.map_append, List.map_append, calls]
  generalize scan : ref.firstMatch cb direction e engine.rules w = outcome,
    scan' : ref.firstMatch cb direction e engine'.rules w' = outcome' at found
  -- An evaluation is told by the engine of its world, a scan by the list of rules.
  rw [← same.here] at scan
  rw [← same.there] at scan'
  cases found with
  | unmatched left =>
    rw [evaluate_of_none cb ref direction e scan, evaluate_of_none cb ref direction e scan']
    exact ⟨.ok _ left, rfl⟩
  | broken p left =>
    rw [evaluate_of_broken cb ref direction e scan, evaluate_of_broken cb ref direction e scan']
    exact ⟨.error p left, rfl⟩
  | @hit rule rule' here here' twin left =>
    refine ⟨?_, ?_⟩
    · have decides := matches_verdict agree (e := e) twin left
      generalize answer : rule.verdict cb e here = said,
        answer' : rule'.verdict cb e here' = said' at decides
      cases decides with
      | ok verdict noted =>
        rw [evaluate_of_some cb ref direction e scan answer,
          evaluate_of_some cb ref direction e scan' answer']
        exact .ok verdict (noted.record (twin.notes direction e verdict noted.events))
      | error p noted =>
        rw [evaluate_of_undecided cb ref direction e scan answer,
          evaluate_of_undecided cb ref direction e scan' answer']
        exact .error p noted
    · show _ ++ (rule'.consults e here').map Made.call = _ ++ (rule.consults e here).map Made.call
      rw [map_call_consults, map_call_consults, supplied_twin twin]

end Twins

/-! ## Rules that are deleted, or never registered -/

namespace Engine

section

variable {P S : Type} {engine engine' : Engine P S} {direction : Direction} {e : Envelope}

/-- An engine without certain rules. -/
def delete (engine : Engine P S) (gone : Rule P S → Bool) : Engine P S :=
  { engine with rules := engine.rules.filter fun rule => !gone rule }

/-- Deleting rules that are passed over leaves all others. -/
theorem opened_delete {gone : Rule P S → Bool}
    (skips : ∀ rule ∈ engine.rules, gone rule = true → engine.Skips direction e rule) :
    (engine.delete gone).opened direction e = engine.opened direction e := by
  show (engine.rules.filter fun rule => !gone rule).filter (engine.opens direction e) = _
  rw [List.filter_filter]
  refine List.filter_congr fun rule there => ?_
  cases deleted : gone rule with
  | false => rw [Bool.not_false, Bool.and_true]
  | true => rw [skips_iff.mp (skips rule there deleted), Bool.false_and]

/-- The contents of the rules of an engine that are not passed over for a transfer. -/
def contents (engine : Engine P S) (direction : Direction) (e : Envelope) :
    List (RuleSpec P S) :=
  (engine.opened direction e).map Rule.toRuleSpec

variable {kept : Nat → Prop} [DecidablePred kept]

/-- A rule that is left is passed over under its new number if it was before. -/
theorem Selects.opens (h : Selects kept engine engine') {rule : Rule P S}
    (left : kept rule.serial) :
    engine'.opens direction e (rule.renumber kept) = engine.opens direction e rule := by
  rw [Engine.opens, Engine.opens, h.flags rule left]
  rfl

/-- If only rules are missing that are passed over, all others have stayed what they were. -/
theorem Selects.contents (h : Selects kept engine engine')
    (skips : ∀ rule ∈ engine.rules, ¬ kept rule.serial → engine.Skips direction e rule) :
    engine'.contents direction e = engine.contents direction e := by
  have same : (engine.rules.filter fun rule => kept rule.serial).filter
        (engine'.opens direction e ∘ Rule.renumber kept)
      = engine.opened direction e := by
    rw [List.filter_filter]
    refine List.filter_congr fun rule there => ?_
    by_cases left : kept rule.serial
    · rw [Function.comp_apply, h.opens left, decide_eq_true left, Bool.and_true]
    · rw [skips_iff.mp (skips rule there left), decide_eq_false left, Bool.and_false]
  rw [Engine.contents, Engine.opened, h.rules, List.filter_map, same, List.map_map]
  rfl

/-- The rules of one direction are all that counts for it. -/
theorem contents_about (direction : Direction) (e : Envelope) (history : List (Change P S)) :
    (applyAll {} (about direction history)).contents direction e
      = (applyAll {} history).contents direction e := by
  refine (selects_applyAll _ history).contents fun rule there other => .inr (.inl fun same => ?_)
  refine other ?_
  rw [registered_getElem?_of_mem_rules there, Option.map_some, same]

/-- A rule that is switched off does not count. -/
theorem contents_never {history : List (Change P S)} {rule : Rule P S}
    (off : (applyAll {} history).isEnabled rule = false) (direction : Direction) (e : Envelope) :
    (applyAll {} (never rule.serial history)).contents direction e
      = (applyAll {} history).contents direction e := by
  refine (selects_applyAll _ history).contents fun other _ gone => .inl ?_
  rw [← off, isEnabled, isEnabled, not_not.mp gone]

end

variable {cb : Callbacks σ} {ref : EngineRef} {direction : Direction} {e : Envelope}
  {engine engine' : Engine σ.Predicate σ.Supplier}

/-- Two engines decide the same if their rules that are not passed over have the same
contents. -/
theorem indistinct_of_contents
    (same : engine'.contents direction e = engine.contents direction e) :
    engine.Indistinct cb (fun _ _ => True) ref direction e engine' := by
  refine indistinct_of_twins ?_
  have contents : List.Forall₂ Eq (engine'.contents direction e) (engine.contents direction e) :=
    List.forall₂_eq_eq_eq ▸ same
  rw [Engine.contents, Engine.contents, List.forall₂_map_left_iff,
    List.forall₂_map_right_iff] at contents
  refine contents.flip.imp fun rule rule' content => ⟨content, ?_⟩
  intros
  trivial

end Engine

/-- Rules that are passed over are like none, for callbacks that cannot tell the difference.

Let rules be deleted from an engine that a transfer passes over, be it that they are switched
off, or that their direction or one of their scopes does not fit. Then the same is decided
about the transfer, after the same calls in the same order, and the same events are logged.

It follows that the two directions do not depend on each other. Two histories may differ in the
rules of the other direction, in when they are registered and how they are switched: what is
decided and who is called is the same. And as long as a rule is switched off, that is what it
would be if the rule had never been registered, though later rules have other numbers then.

Of the callbacks it is asked that they do the same with the one engine as with the other one,
and so that they leave it as it is. One that asks the engine itself may well find a rule that
is passed over. -/
theorem evaluate_skips (cb : Callbacks σ) (ref : EngineRef) (direction : Direction)
    (e : Envelope) :
    (∀ (engine : Engine σ.Predicate σ.Supplier) gone,
      (∀ rule ∈ engine.rules, gone rule = true → engine.Skips direction e rule) →
      engine.Indistinct cb (· = ·) ref direction e (engine.delete gone)) ∧
    (∀ history history', Engine.about direction history' = Engine.about direction history →
      (Engine.applyAll {} history).Indistinct cb (fun _ _ => True) ref direction e
        (Engine.applyAll {} history')) ∧
    ∀ history rule, (Engine.applyAll {} history).isEnabled rule = false →
      (Engine.applyAll {} history).Indistinct cb (fun _ _ => True) ref direction e
        (Engine.applyAll {} (Engine.never rule.serial history)) := by
  refine ⟨fun engine gone skips => ?_, fun history history' same => ?_,
    fun history rule off => ?_⟩
  · refine indistinct_of_twins ?_
    rw [Engine.opened_delete skips]
    refine List.forall₂_same.mpr fun rule _ => ⟨rfl, ?_⟩
    rintro direction e verdict events _ rfl
    rfl
  · refine Engine.indistinct_of_contents ?_
    rw [← Engine.contents_about direction e history', same, Engine.contents_about]
  · exact Engine.indistinct_of_contents (Engine.contents_never off direction e)

/-- Another engine can be put in the place of one, and nothing else changes. -/
theorem World.beside_setEngine {logs : Array Event → Array Event → Prop} {ref : EngineRef}
    {w : World σ} (inside : ref.index < w.engines.size) (unchanged : logs w.events w.events)
    (engine' : Engine σ.Predicate σ.Supplier) :
    World.Beside logs ref (w.engine ref) engine' w (w.setEngine ref engine') where
  here := rfl
  there := World.engine_setEngine_self w ref engine'
  others _ different := World.engine_setEngine_of_ne w engine' different.symm
  width := by
    show (w.engines.set ref.index engine').size = w.engines.size
    rw [Table.size_set]
    omega
  networks := rfl
  clock := rfl
  pending := rfl
  runtime := rfl
  memory := rfl
  events := unchanged

/-! ## An engine most of whose rules are passed over -/

namespace Passed

open Steady (signature callbacks letter)

/-- Callbacks that always answer the same do not look at engines. -/
theorem callbacks_agree (logs : Array Event → Array Event → Prop) (ref : EngineRef)
    (engine engine' : Engine Bool Duration) :
    Callbacks.Agree (World.Beside logs ref engine engine') callbacks callbacks where
  test answer _ _ _ same := .ok answer { same with memory := by rw [same.memory] }
  supply answer _ _ _ same := .ok answer { same with memory := by rw [same.memory] }

/-- A rule that says no. -/
def denying : RuleSpec Bool Duration := (Steady.rule .any (some false) .drop 0).toRuleSpec

/-- A rule that drops everything that goes out. -/
def wall : Rule Bool Duration := Steady.rule .any none .drop 2

/-- A rule that drops everything that comes in. -/
def gate : Rule Bool Duration := { wall with direction := .inbound, serial := 1 }

/-- A rule that delays what goes out by its supplier. -/
def slowing : RuleSpec Bool Duration :=
  (Steady.rule .any none (.delay (.computed (.ofSecs 1))) 3).toRuleSpec

/-- Four rules are registered, and one is switched off. -/
def history : List (Engine.Change Bool Duration) :=
  [.register denying, .register gate.toRuleSpec, .register wall.toRuleSpec, .register slowing,
    .switch wall false]

/-- The same happens to the rules about what goes out, and something else to what comes in. -/
def history' : List (Engine.Change Bool Duration) :=
  [.register denying, .register wall.toRuleSpec, .register gate.toRuleSpec, .register slowing,
    .switch { gate with serial := 2 } false, .register gate.toRuleSpec,
    .switch { wall with serial := 1 } false]

/-- A world with this engine. -/
def world (engine : Engine Bool Duration) : World signature where
  engines := ⟨#[engine]⟩
  memory := []

/-- The message is delayed, and the rule that says no is asked before, whether the other two
rules are there or not. -/
theorem evaluate_skips_passed :
    let engine := Engine.applyAll {} history
    let gone := fun rule : Rule Bool Duration => rule.serial = 1 || rule.serial = 2
    let others := [engine.delete gone, Engine.applyAll {} history',
      Engine.applyAll {} (Engine.never wall.serial history)]
    (∀ rule ∈ engine.rules, gone rule = true → engine.Skips .outbound letter rule) ∧
    Engine.about .outbound history' = Engine.about .outbound history ∧
    engine.isEnabled wall = false ∧
    (∃ left, EngineRef.evaluate callbacks ⟨0⟩ .outbound letter (world engine)
      = .ok (.delay (.ofSecs 1)) left) ∧
    (EngineRef.calls callbacks ⟨0⟩ .outbound letter (world engine)).map Made.call
      = [.test false letter, .supply (.ofSecs 1) letter] ∧
    ∀ other ∈ others, ∃ logs,
      Outcome.Matches (World.Beside logs ⟨0⟩ engine other)
        (EngineRef.evaluate callbacks ⟨0⟩ .outbound letter (world engine))
        (EngineRef.evaluate callbacks ⟨0⟩ .outbound letter
          ((world engine).setEngine ⟨0⟩ other)) ∧
      (EngineRef.calls callbacks ⟨0⟩ .outbound letter
          ((world engine).setEngine ⟨0⟩ other)).map Made.call
        = (EngineRef.calls callbacks ⟨0⟩ .outbound letter (world engine)).map Made.call := by
  intro engine gone others
  -- The conditions are checked on the histories themselves. The callbacks agree in all three
  -- cases.
  have skips : ∀ rule ∈ engine.rules, gone rule = true → engine.Skips .outbound letter rule := by
    decide
  have same : Engine.about .outbound history' = Engine.about .outbound history := rfl
  have off : engine.isEnabled wall = false := rfl
  have inside : (EngineRef.mk 0).index < (world engine).engines.size := Nat.one_pos
  obtain ⟨deleted, independent, never⟩ := evaluate_skips callbacks ⟨0⟩ .outbound letter
  refine ⟨skips, same, off, ⟨_, rfl⟩, rfl, fun other there => ?_⟩
  simp only [others, List.mem_cons, List.not_mem_nil, or_false] at there
  rcases there with rfl | rfl | rfl
  · exact ⟨_, deleted engine gone skips (callbacks_agree _ _ _ _) _ _
      (World.beside_setEngine inside rfl _)⟩
  · exact ⟨_, independent history history' same (callbacks_agree _ _ _ _) _ _
      (World.beside_setEngine inside trivial _)⟩
  · exact ⟨_, never history wall off (callbacks_agree _ _ _ _) _ _
      (World.beside_setEngine inside trivial _)⟩

end Passed

/-! ## A predicate that asks its own engine -/

namespace Asking

/-- Callbacks that have no choice. -/
abbrev signature : Signature where
  Predicate := Unit
  Supplier := Unit
  Sink := Unit
  Memory := Unit

/-- A predicate that asks the first engine whether the answer may come in, to a depth. -/
def callbacks : Nat → Callbacks signature
  | 0 =>
    { test := fun _ _ => pure false
      supply := fun _ _ => pure Duration.zero
      accept := fun _ _ _ => pure () }
  | depth + 1 =>
    { test := fun _ e => EngineRef.permit (callbacks depth) ⟨0⟩ .inbound e.reversed
      supply := fun _ _ => pure Duration.zero
      accept := fun _ _ _ => pure () }

/-- It changes no engine. -/
theorem callbacks_keep (depth : Nat) (ref : EngineRef) :
    (callbacks depth).Within fun w w' => w'.engine ref = w.engine ref := by
  have frame : Frame fun w w' : World signature => w'.engine ref = w.engine ref :=
    { refl := fun _ => rfl
      trans := fun first second => second.trans first
      record := fun _ _ => rfl }
  induction depth with
  | zero => exact ⟨fun _ _ => Leads.pure frame _, fun _ _ => Leads.pure frame _⟩
  | succ depth ih =>
    refine ⟨fun _ e => ?_, fun _ _ => Leads.pure frame _⟩
    exact Leads.bind frame (leads_evaluate frame ih ⟨0⟩ .inbound e.reversed) fun verdict =>
      Leads.pure frame _

/-- A rule that drops everything in a direction that its predicate agrees to. -/
def rule (direction : Direction) (content : Option Unit) (serial : Nat) : Rule Unit Unit where
  direction := direction
  verbs := .any
  senders := .any
  receivers := .any
  content := content
  action := .drop
  serial := serial

/-- An engine with a rule that asks it, and one for what comes in. -/
def engine : Engine Unit Unit where
  rules := [rule .outbound (some ()) 0, rule .inbound none 1]
  flags := #[true, true]

/-- A world with this engine. -/
def world (engine : Engine Unit Unit) : World signature where
  engines := ⟨#[engine]⟩
  memory := ()

/-- What goes out is delivered because the rule for what comes in is there, though that one is
passed over, and is dropped if it is deleted. The predicate of the other rule finds it. -/
theorem evaluate_finds_skipped :
    let gone := fun rule : Rule Unit Unit => rule.direction = .inbound
    (∀ ref, (callbacks 1).Within fun w w' => w'.engine ref = w.engine ref) ∧
    (∀ rule ∈ engine.rules, gone rule → engine.Skips .outbound Steady.letter rule) ∧
    (∃ left, EngineRef.evaluate (callbacks 1) ⟨0⟩ .outbound Steady.letter (world engine)
      = .ok .deliver left) ∧
    ∃ left, EngineRef.evaluate (callbacks 1) ⟨0⟩ .outbound Steady.letter
        (world (engine.delete fun rule => gone rule)) = .ok .drop left :=
  ⟨callbacks_keep 1, by decide, ⟨_, rfl⟩, ⟨_, rfl⟩⟩

end Asking

end Netsieve
