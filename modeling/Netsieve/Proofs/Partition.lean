import Mathlib.Data.Set.Defs
import Netsieve.Proofs.Chronicle
import Netsieve.Proofs.Schedule

/-!
# `Netsieve.Proofs.Partition`: a wall between nodes stands

A wall is a rule that drops everything from some nodes to some others. It stands as long as
it is in force and on, and every rule of its direction before it in the chain drops messages
as well (`Engine.Stands`). New rules come after it, so only a reset or its own switch can
bring it down (`Engine.Change.Spares`).

* `firstMatch_of_on`: a scan of the rules up to the wall ends with a rule that drops the
  message or with a panic, whatever callbacks do meanwhile that spares the wall.
* `stopped_of_stands`: so no message goes through a network whose engine has the wall.
* `run_partition`: that is so for a whole run from the moment at which the wall was
  registered. What was on its way by then still arrives when it is due.
-/

set_option autoImplicit false

namespace Netsieve

/-! ## Walls -/

section Wall

variable {P S : Type}

/-- A rule drops every message from some nodes to some others. -/
structure RuleSpec.IsWall (spec : RuleSpec P S) (A B : Set NodeId) : Prop where
  drops : spec.action = .drop
  bare : spec.content = none
  verbs : spec.verbs = .any
  senders : ∀ id ∈ A, spec.senders.contains id = true
  receivers : ∀ id ∈ B, spec.receivers.contains id = true

/-- A wall fits every message between its two sides. -/
theorem RuleSpec.IsWall.inScope {rule : Rule P S} {A B : Set NodeId}
    (wall : rule.toRuleSpec.IsWall A B) {e : Envelope} (sender : e.sender ∈ A)
    (receiver : e.receiver ∈ B) : rule.inScope rule.direction e = true := by
  rw [Rule.inScope, wall.senders _ sender, wall.receivers _ receiver, wall.verbs]
  simp [Scope.contains]

namespace Engine

/-- A change neither takes the rule with a serial out of force nor switches it off. -/
def Change.Spares (serial : Nat) : Change P S → Prop
  | .register _ => True
  | .reset => False
  | .switch rule on => rule.serial = serial → on = true

/-- A rule is on. -/
structure On (rule : Rule P S) (engine : Engine P S) : Prop where
  known : rule.serial < engine.flags.size
  enabled : engine.isEnabled rule = true

/-- A rule is in force and on, and no rule of its direction before it does anything but drop
messages. -/
structure Stands (rule : Rule P S) (engine : Engine P S) : Prop extends On rule engine where
  place : ∃ before after, engine.rules = before ++ rule :: after ∧
    ∀ other ∈ before, other.direction = rule.direction → other.action = .drop

variable {rule : Rule P S} {engine : Engine P S}

/-- A change that spares a rule leaves it on. -/
theorem On.apply (h : On rule engine) {change : Change P S}
    (spares : change.Spares rule.serial) : On rule (engine.apply change) where
  known := by
    rw [size_flags_apply]
    exact Nat.lt_add_right _ h.known
  enabled := by
    rw [isEnabled_apply engine change h.known, h.enabled]
    -- Registering adds a flag, and a reset leaves the flags alone. Only switching this very
    -- rule could take it off.
    cases change with
    | register spec => rfl
    | reset => rfl
    | switch other on =>
      rw [Change.switched?]
      split
      · next same => exact spares same
      · rfl

/-- Changes that spare a rule leave it on. -/
theorem On.applyAll (h : On rule engine) {changes : List (Change P S)}
    (spared : ∀ change ∈ changes, change.Spares rule.serial) :
    On rule (engine.applyAll changes) :=
  List.foldlRecOn changes _ h fun _ on change there => on.apply (spared change there)

/-- A wall goes on standing if it is spared: new rules come after it. -/
theorem Stands.apply (h : Stands rule engine) {change : Change P S}
    (spares : change.Spares rule.serial) : Stands rule (engine.apply change) where
  toOn := h.toOn.apply spares
  place := by
    obtain ⟨before, after, place, ahead⟩ := h.place
    cases change with
    | register spec =>
      refine ⟨before, after ++ [engine.nextRule spec], ?_, ahead⟩
      show engine.rules ++ [engine.nextRule spec] = _
      rw [place, List.append_assoc, List.cons_append]
    | reset => exact spares.elim
    | switch other on => exact ⟨before, after, place, ahead⟩

/-- Changes that spare a wall leave it in its place. -/
theorem Stands.applyAll (h : Stands rule engine) {changes : List (Change P S)}
    (spared : ∀ change ∈ changes, change.Spares rule.serial) :
    Stands rule (engine.applyAll changes) :=
  List.foldlRecOn changes _ h fun _ stands change there => stands.apply (spared change there)

/-- A rule that is registered stands, if the rules of its direction before it do nothing but
drop messages. -/
theorem stands_register (engine : Engine P S) (spec : RuleSpec P S)
    (ahead : ∀ other ∈ engine.rules, other.direction = spec.direction → other.action = .drop) :
    Stands (engine.nextRule spec) (engine.register spec) where
  known := by
    rw [size_flags_register]
    exact Nat.lt_succ_self _
  enabled := isEnabled_register_nextRule engine spec
  place := ⟨engine.rules, [], rfl, ahead⟩

end Engine

end Wall

/-! ## A message that meets a wall -/

open Engine (Stands On)

section Meets

variable {σ : Signature} {cb : Callbacks σ} {engine : EngineRef}

/-- Calls spare a wall: none of them takes it out of force or switches it off. -/
def Callbacks.Account.Spares (account : cb.Account engine) (serial : Nat)
    (calls : List (Made σ)) : Prop :=
  ∀ change ∈ calls.flatMap account.made, change.Spares serial

variable (account : cb.Account engine) {rule : Rule σ.Predicate σ.Supplier} {e : Envelope}

/-- Calls spare a wall if the earlier and the later ones do. -/
theorem spares_append {serial : Nat} {first second : List (Made σ)}
    (h : account.Spares serial (first ++ second)) :
    account.Spares serial first ∧ account.Spares serial second := by
  unfold Callbacks.Account.Spares at h
  rw [List.flatMap_append] at h
  exact ⟨fun change there => h change (List.mem_append_left _ there),
    fun change there => h change (List.mem_append_right _ there)⟩

/-- A scan ends at a wall at the latest. It ends there or before with a rule that drops the
message, or with a panic. -/
theorem firstMatch_of_on (bare : rule.content = none) (drops : rule.action = .drop)
    (scope : rule.inScope rule.direction e = true)
    {before : List (Rule σ.Predicate σ.Supplier)} (after : List (Rule σ.Predicate σ.Supplier))
    (ahead : ∀ other ∈ before, other.direction = rule.direction → other.action = .drop)
    {w : World σ} (on : On rule (w.engine engine))
    (spared : account.Spares rule.serial
      (engine.scanCalls cb rule.direction e (before ++ rule :: after) w)) :
    (∃ hit left, hit.action = .drop ∧
      engine.firstMatch cb rule.direction e (before ++ rule :: after) w = .ok (some hit) left) ∨
    ∃ p left, engine.firstMatch cb rule.direction e (before ++ rule :: after) w
      = .error p left := by
  -- By induction on the rules that stand before the wall. Those of its direction drop as
  -- well.
  induction before generalizing w with
  | nil =>
    have opened : rule.isOpen engine rule.direction e w = true := by
      rw [Rule.isOpen, on.enabled, scope]
      rfl
    have applies := applies_of_no_content cb engine rule.direction e opened bare
    refine .inl ⟨rule, w, drops, ?_⟩
    rw [List.nil_append, EngineRef.firstMatch, bind_of_ok applies]
    rfl
  | cons other before ih =>
    have course := Course.of_runs (runs_applies cb engine rule.direction e other w)
    rw [List.cons_append, EngineRef.scanCalls] at spared
    rw [List.cons_append, EngineRef.firstMatch]
    rcases applies_cases cb engine rule.direction e other w with
      ⟨left, applies, misses⟩ | ⟨left, applies, hits⟩ | ⟨p, left, applies, breaks⟩
    · -- The wall is still on when the scan goes on after a rule that does not apply.
      obtain ⟨turn, rest⟩ := spares_append account spared
      rw [worldAfter_of_ok applies] at course
      rw [applies] at rest
      have still : On rule (left.engine engine) := by
        rw [engine_course account course]
        exact on.applyAll turn
      rw [bind_of_ok applies]
      exact ih (fun third there => ahead third (List.mem_cons_of_mem other there)) still rest
    · have direction : other.direction = rule.direction := by
        -- A rule that applies has the direction that is evaluated.
        have fits := inScope_of_isOpen hits.1
        simp only [Rule.inScope, Bool.and_eq_true, decide_eq_true_eq] at fits
        exact fits.1.1.1
      refine .inl ⟨other, left, ahead other List.mem_cons_self direction, ?_⟩
      rw [bind_of_ok applies]
      rfl
    · refine .inr ⟨p, left, ?_⟩
      rw [bind_of_error applies]

/-- The rules of the wall's direction do not permit the message. -/
theorem evaluate_of_stands {A B : Set NodeId} (wall : rule.toRuleSpec.IsWall A B)
    (sender : e.sender ∈ A) (receiver : e.receiver ∈ B) {w : World σ}
    (stands : Stands rule (w.engine engine))
    (spared : account.Spares rule.serial (engine.calls cb rule.direction e w)) {verdict : Verdict}
    {wait : Duration} (waits : verdict.Waits wait) (here : World σ) :
    engine.evaluate cb rule.direction e w ≠ .ok verdict here := by
  obtain ⟨before, after, place, ahead⟩ := stands.place
  rw [EngineRef.calls, place] at spared
  have scan := firstMatch_of_on account wall.bare wall.drops (wall.inScope sender receiver) after
    ahead stands.toOn (spares_append account spared).1
  rw [← place] at scan
  -- The scan ends at a rule that drops, or a callback panics.
  rcases scan with ⟨hit, left, drops, found⟩ | ⟨p, left, broken⟩
  · have decides : hit.verdict cb e left = .ok .drop left := by
      rw [Rule.verdict, drops]
      rfl
    rw [evaluate_of_some cb engine rule.direction e found decides]
    rintro ⟨⟩
    cases waits
  · rw [evaluate_of_broken cb engine rule.direction e broken]
    rintro ⟨⟩

end Meets

/-! ## A message that is stopped -/

section Stopped

variable {σ : Signature} {cb : Callbacks σ} {network : NetworkRef} {e : Envelope} {w : World σ}

/-- A message is not delivered, now or later: sending it ends when predicates and suppliers
have been asked, and nothing but that has happened.

- `answer`: it is dropped, or a node is not there, or a predicate or a supplier panics;
- `prompt`: nothing is handed over, to an inbox or to a sink;
- `trail`: nothing is put on its way, or done in any other way. -/
structure Stopped (cb : Callbacks σ) (network : NetworkRef) (e : Envelope) (w : World σ) :
    Prop where
  answer : (∃ direction left, network.send cb e w = .ok (.ok (.dropped direction)) left) ∨
    (∃ id, network.send cb e w = .ok (.error (.unknownNode id)) w) ∨
    ∃ p left, network.send cb e w = .error p left
  prompt : network.prompt cb e w = []
  trail : Trail cb w ((network.calls cb e w).map .asked)
    (worldAfter (network.send cb e) w)

/-- A message is stopped if its way does not lead to its receiver. -/
theorem stopped_of_ruling {ruling : Ruling σ} {calls : List (Made σ)}
    (ruled : Ruled (EngineRef.Makes cb) network e w ruling calls)
    (closed : ∀ target total there, ruling ≠ .permitted target total there) :
    Stopped cb network e w := by
  have way := ruled.route_eq EngineRef.Makes.ends
  -- The trail follows from the fact that nothing is handed over.
  suffices h : network.prompt cb e w = [] ∧ Fails (network.send cb e w) ∧
      ((∃ direction left, network.send cb e w = .ok (.ok (.dropped direction)) left) ∨
        (∃ id, network.send cb e w = .ok (.error (.unknownNode id)) w) ∨
        ∃ p left, network.send cb e w = .error p left) by
    obtain ⟨prompt, fails, answer⟩ := h
    have trail := trail_send_of_fails fails
    rw [NetworkRef.visits, prompt, List.flatMap_nil, List.append_nil] at trail
    exact ⟨answer, prompt, trail⟩
  rw [prompt_of_route way, send_eq]
  cases ruling with
  | unknown id =>
    rw [bind_of_ok way]
    exact ⟨rfl, .refused _ _, .inr (.inl ⟨_, rfl⟩)⟩
  | dropped direction here =>
    rw [bind_of_ok way]
    exact ⟨rfl, .dropped _ _, .inl ⟨_, _, rfl⟩⟩
  | panicked p here =>
    rw [bind_of_error way]
    exact ⟨rfl, .panicked _ _, .inr (.inr ⟨_, _, rfl⟩)⟩
  | permitted target total there => exact absurd rfl (closed target total there)

/-- A wall that stands in the engine of a network stops the messages it is about, as long as
the callbacks that are asked spare it. -/
theorem stopped_of_stands {engine : EngineRef} (account : cb.Account engine)
    {rule : Rule σ.Predicate σ.Supplier} {A B : Set NodeId} (wall : rule.toRuleSpec.IsWall A B)
    (sender : e.sender ∈ A) (receiver : e.receiver ∈ B)
    (through : (w.network network).engine = engine) (stands : Stands rule (w.engine engine))
    (spared : account.Spares rule.serial (network.calls cb e w)) : Stopped cb network e w := by
  obtain ⟨ruling, ruled⟩ := ruled_calls cb network e w
  refine stopped_of_ruling ruled ?_
  rintro target total there rfl
  generalize network.calls cb e w = calls at ruled spared
  cases ruled with
  | @permitted _ _ outbound inbound wait wait' _ here _ out into nodes leaves waits enters waits' =>
    rw [through] at leaves enters
    obtain ⟨before, during⟩ := spares_append account spared
    cases direction : rule.direction with
    | outbound =>
      have ends := leaves.ends
      rw [← leaves.made, ← direction] at before
      rw [← direction] at ends
      exact evaluate_of_stands account wall sender receiver stands before waits here ends
    | inbound =>
      -- The wall still stands when the inbound rules are asked.
      have course : Course cb w out here := course_makes leaves
      have still : Stands rule (here.engine engine) := by
        rw [engine_course account course]
        exact stands.applyAll before
      have ends := enters.ends
      rw [← enters.made, ← direction] at during
      rw [← direction] at ends
      exact evaluate_of_stands account wall sender receiver still during waits' there ends

end Stopped

/-! ## A run behind a wall -/

section Run

variable {σ : Signature} {cb : Callbacks σ} {engine : EngineRef}

/-- A run spares a wall if neither a callback nor an operation brings it down. -/
theorem spares_chronicle (account : cb.FullAccount engine) {serial : Nat}
    (visits : ∀ visit, ∀ change ∈ account.visited visit, change.Spares serial)
    {ops : List (Operation σ)}
    (alters : ∀ other change, .alter other change ∈ ops → change.Spares serial) (w : World σ) :
    ∀ change ∈ chronicle account w ops, change.Spares serial := by
  induction ops generalizing w with
  | nil => exact fun change there => absurd there List.not_mem_nil
  | cons op rest ih =>
    intro change there
    rcases List.mem_append.mp there with now | later
    · -- Most operations change engines only by their callbacks.
      have visited : change ∈ (op.visits cb w).flatMap account.visited → change.Spares serial := by
        intro there
        obtain ⟨visit, -, made⟩ := List.mem_flatMap.mp there
        exact visits visit change made
      cases op with
      | alter other step =>
        have single : change = step := by
          rw [Operation.changes] at now
          split at now
          · exact List.mem_singleton.mp now
          · cases now
        exact single ▸ alters other step List.mem_cons_self
      | register | send | deliver | setSink | clearSink | advance | take | close =>
        exact visited now
    · exact ih (fun other step there => alters other step (List.mem_cons_of_mem op there)) _
        change later

/-- What a run does until a message is sent, and the calls of sending it, are parts of the
chronicle. -/
theorem chronicle_send (account : cb.FullAccount engine) {w : World σ}
    {first rest : List (Operation σ)} {network : NetworkRef} {e : Envelope} {serial : Nat}
    (spared : ∀ change ∈ chronicle account w (first ++ .send network e :: rest),
      change.Spares serial) :
    (∀ change ∈ chronicle account w first, change.Spares serial) ∧
      account.toAccount.Spares serial (network.calls cb e (run cb w first)) := by
  unfold chronicle at spared
  rw [collect_append, collect] at spared
  refine ⟨fun change there => spared change (List.mem_append_left _ there), fun change there => ?_⟩
  refine spared change (List.mem_append_right _ (List.mem_append_left _ ?_))
  obtain ⟨made, called, changes⟩ := List.mem_flatMap.mp there
  have visited : Visit.asked made ∈ network.visits cb e (run cb w first) :=
    List.mem_append_left _ (List.mem_map_of_mem called)
  exact List.mem_flatMap.mpr ⟨.asked made, visited, changes⟩

/-- A wall is never pierced.

Let a rule be registered that drops everything from the nodes of a set to those of another
one, while the rules of its direction before it do nothing but drop messages as well, and
let nothing take it out of force or switch it off from then on. Then whatever else is done,
and whatever callbacks do, no message from the one set to the other gets through a network
with that engine: sending it is stopped. That goes for the messages that a run sends, and
for those that callbacks send in the middle of it. Whatever was on its way when the rule was
registered is still handed over at the moment at which it is due, if it was not due already
and callbacks do no more to parcels than to put them on their way. -/
theorem run_partition (cb : Callbacks σ) (account : cb.FullAccount engine)
    {A B : Set NodeId} {spec : RuleSpec σ.Predicate σ.Supplier} (wall : spec.IsWall A B)
    {old : Engine σ.Predicate σ.Supplier}
    (ahead : ∀ other ∈ old.rules, other.direction = spec.direction → other.action = .drop)
    {w : World σ} (registered : w.engine engine = old.register spec)
    {ops : List (Operation σ)}
    (spared : ∀ change ∈ chronicle account w ops, change.Spares (old.nextRule spec).serial) :
    (∀ first network e rest, ops = first ++ .send network e :: rest →
      ((run cb w first).network network).engine = engine → e.sender ∈ A → e.receiver ∈ B →
      Stopped cb network e (run cb w first)) ∧
    (∀ v passed, (∀ change ∈ passed, change.Spares (old.nextRule spec).serial) →
      v.engine engine = (w.engine engine).applyAll passed →
      ∀ network e, (v.network network).engine = engine → e.sender ∈ A → e.receiver ∈ B →
      account.toAccount.Spares (old.nextRule spec).serial (network.calls cb e v) →
      Stopped cb network e v) ∧
    (cb.Lawful → w.Early → ∀ p ∈ w.pending,
      ((runLate cb w ops).map Handover.parcel).count p
        = (if p.due ≤ (run cb w ops).clock then (w.pending ++ runSent cb w ops).count p else 0) ∧
      (p.due ≤ (run cb w ops).clock → ∃ h ∈ runLate cb w ops, h.parcel = p ∧
        h.before.clock = p.due ∧
        HandOverEnds cb p.network p.envelope p.address h.before (h.outcome cb))) := by
  -- What has been done before leaves the wall standing, so that it stops the message.
  have anywhere : ∀ v passed, (∀ change ∈ passed, change.Spares (old.nextRule spec).serial) →
      v.engine engine = (w.engine engine).applyAll passed →
      ∀ network e, (v.network network).engine = engine → e.sender ∈ A → e.receiver ∈ B →
      account.toAccount.Spares (old.nextRule spec).serial (network.calls cb e v) →
      Stopped cb network e v := by
    intro v passed before now network e through sender receiver during
    have stands : Stands (old.nextRule spec) (v.engine engine) := by
      rw [now, registered]
      exact (Engine.stands_register old spec ahead).applyAll before
    have here : (old.nextRule spec).toRuleSpec.IsWall A B := wall
    exact stopped_of_stands account.toAccount here sender receiver through stands during
  refine ⟨?_, anywhere, fun lawful early p waits => ?_⟩
  · rintro first network e rest rfl through sender receiver
    obtain ⟨before, during⟩ := chronicle_send account spared
    exact anywhere _ _ before (engine_operations account first w) network e through sender receiver
      during
  · -- What is on its way already never meets the rules again. It arrives when it is due.
    have schedule := onSchedule_run lawful ops early
    have counted := schedule.count_parcel p
    refine ⟨counted, fun due => ?_⟩
    have there : p ∈ (runLate cb w ops).map Handover.parcel := by
      rw [← List.count_pos_iff, counted, if_pos due, List.count_pos_iff]
      exact List.mem_append_left _ waits
    obtain ⟨h, late, rfl⟩ := List.mem_map.mp there
    exact ⟨h, late, rfl, schedule.punctual h late, handOver_ends cb _ _ _ _⟩

end Run

/-! ## Callbacks that register rules behind a wall -/

namespace Walled

open Steady (signature letter)

/-- A rule that delays every message. -/
def delaying : RuleSpec Bool Duration :=
  (Steady.rule .any none (.delay (.fixed (.ofSecs 1))) 0).toRuleSpec

/-- An inbound rule that drops what node 1 sends to node 2. -/
def wall : RuleSpec Bool Duration where
  direction := .inbound
  verbs := .any
  senders := .only [1]
  receivers := .only [2]
  content := none
  action := .drop

/-- Registers a rule that delays every message. -/
def registering : Run signature Unit :=
  EngineRef.change ⟨0⟩ (.register delaying)

/-- Predicates and sinks that register such a rule. -/
def callbacks : Callbacks signature where
  test answer _ := do
    registering
    pure answer
  supply answer _ := pure answer
  accept _ _ _ := registering

/-- To register a rule puts nothing on its way. -/
theorem extends_registering : Leads World.Extends registering :=
  fun w => .of_calm (calm_change _ _ w)

/-- These callbacks put nothing on its way. -/
theorem callbacks_lawful : callbacks.Lawful where
  within :=
    { test := fun _ _ => Leads.bind World.Extends.frame extends_registering fun _ =>
        Leads.pure World.Extends.frame _
      supply := fun _ _ => Leads.pure World.Extends.frame _ }
  accept _ _ _ := extends_registering

/-- To register a rule is one change of the engine. -/
theorem engine_registering (w : World signature) :
    (worldAfter registering w).engine ⟨0⟩ = (w.engine ⟨0⟩).applyAll [.register delaying] :=
  engine_change _ _ w

/-- The account of these callbacks. -/
def account : callbacks.FullAccount ⟨0⟩ where
  tested _ _ _ := [.register delaying]
  supplied _ _ _ := []
  accepted _ _ _ _ := [.register delaying]
  tested_eq _ _ w := engine_registering w
  supplied_eq _ _ _ := rfl
  accepted_eq _ _ _ w := engine_registering w

/-- An engine with a rule that asks a predicate about every message that is sent. -/
def old : Engine Bool Duration where
  rules := [Steady.rule .any (some false) .drop 0]
  flags := #[true]

/-- A message that was sent before there was a wall. -/
def parcel : Pending := ⟨5, ⟨0⟩, ⟨.v4 127 0 0 2, 1⟩, letter⟩

/-- The wall is registered while a message is on its way. -/
def world : World signature where
  engines := ⟨#[old.register wall]⟩
  networks := ⟨#[
    { engine := ⟨0⟩
      latency := ⟨.zero, .ofSecs 60⟩
      nodes := [⟨1, ⟨.v4 127 0 0 1, 1⟩, .opened []⟩, ⟨2, ⟨.v4 127 0 0 2, 1⟩, .opened []⟩] }]⟩
  pending := [parcel]
  hasRuntime := true
  memory := []

/-- Another rule is registered, a message is sent, and time passes. -/
def ops : List (Operation signature) :=
  [.alter ⟨0⟩ (.register delaying), .send ⟨0⟩ letter, .setSink ⟨0⟩ (), .advance 10]

/-- No change of this run takes the wall away or switches it off. -/
theorem ops_spare : ∀ change ∈ chronicle account world ops, change.Spares 1 := by
  refine spares_chronicle account (fun visit change there => ?_)
    (fun other change there => ?_) world
  · have registers : account.visited visit ⊆ [.register delaying] := by
      obtain ⟨⟨_ | _, _⟩⟩ | _ := visit
      · exact List.Subset.refl _
      · exact List.nil_subset _
      · exact List.Subset.refl _
    rw [List.mem_singleton.mp (registers there)]
    trivial
  · have registers : other = ⟨0⟩ ∧ change = .register delaying := by simpa [ops] using there
    rw [registers.2]
    trivial

/-- The rule is a wall between the two nodes. -/
theorem isWall_wall : wall.IsWall {1} {2} where
  drops := rfl
  bare := rfl
  verbs := rfl
  senders _ one := by rw [one]; rfl
  receivers _ two := by rw [two]; rfl

/-- The message that is sent is stopped by the wall, and the one before it arrives in time. -/
theorem run_partition_walled :
    callbacks.Lawful ∧ wall.IsWall {1} {2} ∧ world.Early ∧
    (∀ other ∈ old.rules, other.direction = wall.direction → other.action = .drop) ∧
    world.engine ⟨0⟩ = old.register wall ∧
    (∀ change ∈ chronicle account world ops, change.Spares 1) ∧
    Stopped callbacks ⟨0⟩ letter (run callbacks world [.alter ⟨0⟩ (.register delaying)]) ∧
    ∃ h ∈ runLate callbacks world ops, h.parcel = parcel ∧ h.before.clock = 5 := by
  have early : world.Early := by
    intro p waits
    rw [List.mem_singleton.mp waits]
    decide
  have ahead : ∀ other ∈ old.rules, other.direction = wall.direction → other.action = .drop := by
    intro other there _
    rw [List.mem_singleton.mp there]
    rfl
  obtain ⟨sends, -, arrives⟩ := run_partition callbacks account isWall_wall ahead
    (rfl : world.engine ⟨0⟩ = old.register wall) ops_spare
  -- Five milliseconds pass, and the parcel is due at this time.
  have due : parcel.due ≤ (run callbacks world ops).clock := by
    rw [clock_run callbacks_lawful]
    decide
  have there : parcel ∈ world.pending := List.mem_singleton_self parcel
  obtain ⟨h, late, here, now, -⟩ := (arrives callbacks_lawful early parcel there).2 due
  exact ⟨callbacks_lawful, isWall_wall, early, ahead, rfl, ops_spare,
    sends [.alter ⟨0⟩ (.register delaying)] ⟨0⟩ letter _ rfl rfl rfl rfl, h, late, here, now⟩

end Walled

end Netsieve
