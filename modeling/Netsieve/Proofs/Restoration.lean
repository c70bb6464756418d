import Netsieve.Proofs.Chronicle
import Netsieve.Proofs.Engine.Numbering
import Netsieve.Proofs.Rule.Draft

/-!
# `Netsieve.Proofs.Restoration`: an engine can be restored from its descriptions

The descriptions of an engine say in which order its rules are, what they are limited to, what
they do and whether they are on. What they do not say is what a content predicate says, and how
long a delay is that is computed. Of a delay that is not computed they give the whole
milliseconds. So an engine without predicates and computed delays is told by its descriptions
up to that.

* `replay_describe`: a new engine for which the descriptions are replayed has the same
  descriptions but for the ids, and decides in the same way but for parts of milliseconds.
-/

set_option autoImplicit false

namespace Netsieve

variable {P S : Type} {σ : Signature}

/-! ## What a description tells to do -/

namespace Description

/-- The draft that a rule starts with. -/
def start (d : Description) : Draft P :=
  match d.verbs with
  | none => .allVerbs
  | some verbs => .ofVerbs verbs

/-- The parts that the draft is given: the direction, and the limits of senders and receivers
if there are any. -/
def parts (d : Description) : List (RulePart P) :=
  .direction d.direction.isInbound ::
    ((d.senders.map .senders).toList ++ (d.receivers.map .receivers).toList)

/-- The action of the rule. A delay that is computed is not told. -/
def action? (d : Description) : Option (Action S) :=
  match d.action with
  | .drop => some .drop
  | .delay (some millis) => some (.delay (.fixed (.ofMillis millis)))
  | .delay none => none

end Description

namespace EngineRef

/-- Registers a rule as it is described, and switches it off if it is described as off. -/
def restore (engine : EngineRef) (d : Description) : Run σ Unit :=
  match d.start.giveAll d.parts, d.action? with
  | .ok draft, some action => do
    let handle ← engine.register (draft.finish action)
    if d.enabled then pure () else handle.switch false
  | .error misuse, _ => panic misuse.message
  | .ok _, none => panic "the delay is computed"

/-- Restores rules in order. -/
def replay (engine : EngineRef) (described : List Description) : Run σ Unit :=
  described.forM engine.restore

end EngineRef

namespace Description

/-- The draft that has all parts a description tells. -/
def draft (d : Description) : Draft P where
  verbs := (d.verbs.map Scope.ofList).getD .any
  direction := some d.direction
  senders := d.senders.map .ofList
  receivers := d.receivers.map .ofList

/-- No part is given twice. -/
theorem giveAll_parts (d : Description) : d.start.giveAll d.parts = .ok (d.draft : Draft P) := by
  have direction : Direction.ofInbound d.direction.isInbound = d.direction := by
    cases d.direction <;> rfl
  obtain ⟨id, _, verbs, senders, receivers, hasContent, action, enabled⟩ := d
  rw [draft, ← direction]
  cases verbs <;> cases senders <;> cases receivers <;> rfl

end Description

/-! ## Rules as they are told -/

/-- A duration in whole milliseconds, as far as a 64-bit number of them goes. -/
def Duration.told (d : Duration) : Duration :=
  .ofMillis (UInt64.ofNat (min d.floorMillis 18446744073709551615))

/-- A millisecond has a million nanoseconds. -/
theorem Duration.toNanos_ofMillis (ms : UInt64) : (ofMillis ms).toNanos = ms.toNat * 1000000 := by
  have small : ms.toNat % 1000 * 1000000 < 4294967296 := by omega
  have secs : (ms / 1000).toNat = ms.toNat / 1000 := UInt64.toNat_div ms 1000
  rw [toNanos, ofMillis, secs, UInt32.toNat_ofNat', Nat.mod_eq_of_lt small]
  omega

/-- A duration is told in whole milliseconds, rounded down and cut at the greatest number of
64 bits. -/
theorem Duration.toNanos_told (d : Duration) :
    d.told.toNanos = min d.floorMillis 18446744073709551615 * 1000000 := by
  have fits : min d.floorMillis 18446744073709551615 < 18446744073709551616 := by omega
  rw [told, toNanos_ofMillis, UInt64.toNat_ofNat', Nat.mod_eq_of_lt fits]

/-- An action with its delay, if it has a fixed one, in whole milliseconds. -/
def Action.told : Action S → Action S
  | .delay (.fixed d) => .delay (.fixed d.told)
  | action => action

namespace RuleSpec

/-- A rule with its delay, if it has a fixed one, in whole milliseconds. -/
def told (spec : RuleSpec P S) : RuleSpec P S :=
  { spec with action := spec.action.told }

/-- A rule without callbacks. -/
structure Bare (spec : RuleSpec P S) : Prop where
  content : spec.content = none
  fixed : ∀ supplier, spec.action ≠ .delay (.computed supplier)

end RuleSpec

/-- The description of a rule without callbacks tells the rule. -/
theorem Rule.finish_described {rule : Rule P S} (bare : rule.Bare) (orderly : rule.Orderly)
    (on : Bool) :
    ∃ action : Action S, (rule.describe on).action? = some action ∧
      (rule.describe on).draft.finish action = rule.told := by
  -- The draft restores each part of the rule, whatever the action.
  have finished : ∀ action : Action S,
      (rule.describe on).draft.finish action = { rule.toRuleSpec with action } := by
    intro action
    have verbs := Scope.ofList_members? orderly.verbs
    have senders := Scope.ofList_members? orderly.senders
    have receivers := Scope.ofList_members? orderly.receivers
    have limitless : (default : Scope) = .any := rfl
    simp only [Draft.finish, Description.draft, Rule.describe, verbs, bare.content]
    rw [limitless, senders, receivers]
    rfl
  cases acts : rule.action with
  | drop =>
    refine ⟨.drop, ?_, ?_⟩
    · simp [Description.action?, describe, acts, ActionSummary.ofAction]
    · rw [finished, RuleSpec.told, acts]
      rfl
  -- The delay is told in milliseconds. A computed one tells nothing, but the rule has none.
  | delay source =>
    cases source with
    | fixed d =>
      refine ⟨.delay (.fixed d.told), ?_, ?_⟩
      · simp [Description.action?, describe, acts, ActionSummary.ofAction, Duration.told]
      · rw [finished, RuleSpec.told, acts]
        rfl
    | computed supplier => exact absurd acts (bare.fixed supplier)

/-! ## A chain that is built up rule by rule -/

namespace Engine

/-- Adds a rule at the end of the chain, and switches it as told. -/
def add (engine : Engine P S) (spec : RuleSpec P S) (on : Bool) : Engine P S :=
  (engine.register spec).switch (engine.nextRule spec) on

/-- Adds rules in order. -/
def addAll (engine : Engine P S) (entries : List (RuleSpec P S × Bool)) : Engine P S :=
  entries.foldl (fun engine entry => engine.add entry.1 entry.2) engine

/-- What is told about each rule in force, with its flag. -/
def tellAll {α : Type} (engine : Engine P S) (tell : Rule P S → Bool → α) : List α :=
  engine.rules.map fun rule => tell rule (engine.isEnabled rule)

/-- Every rule in force has a flag. -/
def Flagged (engine : Engine P S) : Prop :=
  ∀ rule ∈ engine.rules, rule.serial < engine.flags.size

/-- An added rule has a flag of its own. -/
theorem size_flags_add (engine : Engine P S) (spec : RuleSpec P S) (on : Bool) :
    (engine.add spec on).flags.size = engine.flags.size + 1 := by
  rw [add, size_flags_switch, size_flags_register]

/-- If every rule in force has a flag, that holds with one more rule as well. -/
theorem flagged_add {engine : Engine P S} (h : engine.Flagged) (spec : RuleSpec P S) (on : Bool) :
    (engine.add spec on).Flagged := by
  intro rule there
  rw [size_flags_add]
  rcases List.mem_append.mp there with old | new
  · exact Nat.lt_succ_of_lt (h rule old)
  · rw [List.mem_singleton.mp new]
    exact Nat.lt_succ_self _

/-- About the rules that were there the same is told as before. -/
theorem tellAll_add {α : Type} {engine : Engine P S} (h : engine.Flagged) (spec : RuleSpec P S)
    (on : Bool) (tell : Rule P S → Bool → α) :
    (engine.add spec on).tellAll tell
      = engine.tellAll tell ++ [tell (engine.nextRule spec) on] := by
  have fresh : (engine.nextRule spec).serial < (engine.register spec).flags.size := by
    rw [size_flags_register]
    exact Nat.lt_succ_self _
  have new : (engine.add spec on).isEnabled (engine.nextRule spec) = on :=
    isEnabled_switch_self _ on fresh
  -- The new flag is none of the old ones, so that the old rules are told as before.
  have old : ∀ rule ∈ engine.rules,
      (engine.add spec on).isEnabled rule = engine.isEnabled rule := by
    intro rule there
    have known := h rule there
    have other : (engine.nextRule spec).serial ≠ rule.serial := Nat.ne_of_gt known
    rw [add, isEnabled_switch_of_ne _ on other, isEnabled_register_of_lt _ _ known]
  have rules : (engine.add spec on).rules = engine.rules ++ [engine.nextRule spec] := rfl
  rw [tellAll, rules, List.map_append, List.map_singleton, new, tellAll]
  congr 1
  exact List.map_congr_left fun rule there => by rw [old rule there]

/-- The last rule is added last. -/
theorem addAll_concat (engine : Engine P S) (entries : List (RuleSpec P S × Bool))
    (entry : RuleSpec P S × Bool) :
    engine.addAll (entries ++ [entry]) = (engine.addAll entries).add entry.1 entry.2 :=
  List.foldl_append

/-- An engine to which rules were added has a flag for each. -/
theorem size_flags_addAll (entries : List (RuleSpec P S × Bool)) :
    (addAll {} entries).flags.size = entries.length := by
  induction entries using List.reverseRecOn with
  | nil => rfl
  | append_singleton entries entry ih =>
    rw [addAll_concat, size_flags_add, ih, List.length_append, List.length_singleton]

/-- Every rule that was added has a flag. -/
theorem flagged_addAll (entries : List (RuleSpec P S × Bool)) : (addAll {} entries).Flagged := by
  induction entries using List.reverseRecOn with
  | nil => exact fun rule there => absurd there List.not_mem_nil
  | append_singleton entries entry ih =>
    rw [addAll_concat]
    exact flagged_add ih entry.1 entry.2

/-- A new engine to which rules are added numbers them from zero on, and each is switched as
told. -/
theorem tellAll_addAll {α : Type} (entries : List (RuleSpec P S × Bool))
    (tell : Rule P S → Bool → α) :
    (addAll {} entries).tellAll tell
      = entries.mapIdx fun i entry => tell { entry.1 with serial := i } entry.2 := by
  induction entries using List.reverseRecOn with
  | nil => rfl
  | append_singleton entries entry ih =>
    rw [addAll_concat, tellAll_add (flagged_addAll entries), ih, List.mapIdx_concat, nextRule,
      size_flags_addAll]

/-- The rules in force as they are told, and whether they are on. -/
def told (engine : Engine P S) : List (RuleSpec P S × Bool) :=
  engine.tellAll fun rule on => (rule.toRuleSpec.told, on)

end Engine

/-- An engine for which a description is replayed has the rule that it tells. -/
theorem EngineRef.restore_eq {rule : Rule σ.Predicate σ.Supplier} (bare : rule.Bare)
    (orderly : rule.Orderly) (on : Bool) (engine : EngineRef) (w : World σ) :
    ∃ left, engine.restore (rule.describe on) w = .ok () left ∧
      left.engine engine = (w.engine engine).add rule.told on := by
  obtain ⟨action, tells, finished⟩ := Rule.finish_described bare orderly on
  -- Restoring registers the rule, and switches it off if it is told to be.
  have restores : engine.restore (rule.describe on)
      = (do
        let handle ← engine.register rule.told
        if on then pure () else handle.switch false : Run σ Unit) := by
    rw [restore, Description.giveAll_parts, tells]
    simp only [finished]
    rfl
  rw [restores]
  cases on with
  -- A rule that has just been registered is on already.
  | true =>
    refine ⟨_, rfl, ?_⟩
    have already : ((w.engine engine).register rule.told).isEnabled
        ((w.engine engine).nextRule rule.told) = true :=
      Engine.isEnabled_register_nextRule _ _
    rw [World.engine_record, World.engine_setEngine_self, Engine.add, ← already,
      Engine.switch_isEnabled]
  | false =>
    refine ⟨_, rfl, ?_⟩
    rw [World.engine_record, World.engine_setEngine_self, World.engine_record,
      World.engine_setEngine_self]
    rfl

/-- An engine for which descriptions are replayed has the rules that they tell. -/
theorem EngineRef.replay_eq (on : Rule σ.Predicate σ.Supplier → Bool) (engine : EngineRef)
    {rules : List (Rule σ.Predicate σ.Supplier)}
    (h : ∀ rule ∈ rules, rule.Bare ∧ rule.Orderly) (w : World σ) :
    ∃ left, engine.replay (rules.map fun rule => rule.describe (on rule)) w = .ok () left ∧
      left.engine engine
        = (w.engine engine).addAll (rules.map fun rule => (rule.told, on rule)) := by
  induction rules generalizing w with
  | nil => exact ⟨w, rfl, rfl⟩
  | cons rule rest ih =>
    obtain ⟨bare, orderly⟩ := h rule List.mem_cons_self
    obtain ⟨between, restores, first⟩ := restore_eq bare orderly (on rule) engine w
    obtain ⟨left, replays, others⟩ :=
      ih (fun other there => h other (List.mem_cons_of_mem rule there)) between
    refine ⟨left, ?_, ?_⟩
    · show (engine.restore _ >>= fun _ => engine.replay _) w = _
      rw [bind_of_ok restores]
      exact replays
    · rw [others, first]
      rfl

/-! ## What an engine without callbacks decides -/

/-- The action of the first rule that is on and fits. -/
def Engine.decision? (engine : Engine P S) (direction : Direction) (e : Envelope) :
    Option (Action S) :=
  (engine.rules.find? fun rule => engine.isEnabled rule && rule.inScope direction e).map (·.action)

/-- What is decided by an action without callbacks, or without one. -/
inductive Settles : Option (Action S) → Verdict → Prop where
  | deliver : Settles none .deliver
  | drop : Settles (some .drop) .drop
  | delay (d : Duration) : Settles (some (.delay (.fixed d))) (.delay d)

/-- One verdict is the other one, as far as descriptions tell it: a delay in whole
milliseconds, rounded down, of which there are less than `2 ^ 64`. -/
inductive Verdict.Told : Verdict → Verdict → Prop where
  | deliver : Told .deliver .deliver
  | drop : Told .drop .drop
  | delay {d d' : Duration}
      (told : d'.toNanos = min d.floorMillis 18446744073709551615 * 1000000) :
      Told (.delay d) (.delay d')

section Evaluation

variable (cb : Callbacks σ) (engine : EngineRef) (direction : Direction) (e : Envelope)

/-- If no rule has a predicate, the first one that is open applies. -/
theorem firstMatch_of_bare {rules : List (Rule σ.Predicate σ.Supplier)}
    (bare : ∀ rule ∈ rules, rule.content = none) (w : World σ) :
    EngineRef.firstMatch cb engine direction e rules w
      = .ok (rules.find? fun rule => rule.isOpen engine direction e w) w := by
  induction rules with
  | nil => rfl
  | cons rule rest ih =>
    rw [EngineRef.firstMatch, List.find?_cons]
    cases opens : rule.isOpen engine direction e w with
    | true =>
      rw [bind_of_ok (applies_of_no_content cb engine direction e opens
        (bare rule List.mem_cons_self))]
      rfl
    | false =>
      rw [bind_of_ok (applies_of_not_open cb engine direction e opens)]
      exact ih fun other there => bare other (List.mem_cons_of_mem rule there)

variable {engine direction e}

/-- Without predicates an evaluation ends as the decision settles it. -/
theorem evaluate_of_settles {w : World σ}
    (bare : ∀ rule ∈ (w.engine engine).rules, rule.content = none) {verdict : Verdict}
    (settles : Settles ((w.engine engine).decision? direction e) verdict) :
    ∃ left, engine.evaluate cb direction e w = .ok verdict left := by
  -- Without predicates the scan finds the first open rule, and it leaves the world alone.
  have matched := firstMatch_of_bare cb engine direction e bare w
  have decision : (w.engine engine).decision? direction e
      = ((w.engine engine).rules.find? fun rule => rule.isOpen engine direction e w).map
        (·.action) := rfl
  rw [decision] at settles
  cases found : (w.engine engine).rules.find? fun rule => rule.isOpen engine direction e w with
  | none =>
    rw [found] at matched settles
    cases settles
    exact ⟨w, evaluate_of_none cb engine direction e matched⟩
  | some rule =>
    rw [found] at matched settles
    have decides : rule.verdict cb e w = .ok verdict w := by
      rw [Option.map_some] at settles
      unfold Rule.verdict
      generalize rule.action = action at settles ⊢
      cases settles <;> rfl
    exact ⟨_, evaluate_of_some cb engine direction e matched decides⟩

end Evaluation

/-! ## An engine and what is restored of it -/

/-- What is told about an action is told about it in whole milliseconds, too. -/
theorem ActionSummary.ofAction_told (action : Action S) :
    ofAction action.told = ofAction action := by
  unfold Action.told
  split
  · next d =>
    have whole : d.told.floorMillis = min d.floorMillis 18446744073709551615 := by
      rw [Duration.floorMillis, Duration.toNanos_told, Nat.mul_div_cancel _ (by decide)]
    rw [ofAction, ofAction, whole, Nat.min_assoc, Nat.min_self]
  · rfl

/-- A rule with the delay that is told is described like the rule, apart from its id. -/
theorem Rule.describe_told (rule : Rule P S) (serial : Nat) (on : Bool) :
    ({ rule.told with serial } : Rule P S).describe on
      = { rule.describe on with id := UInt64.ofNat serial } := by
  have action : ActionSummary.ofAction rule.action.told = .ofAction rule.action :=
    ActionSummary.ofAction_told rule.action
  simp only [describe, RuleSpec.told, action, id]

namespace Engine

/-- The restored engine has no predicates, either. -/
theorem content_told {engine : Engine P S} (bare : ∀ rule ∈ engine.rules, rule.content = none) :
    ∀ rule ∈ (addAll {} engine.told).rules, rule.content = none := by
  intro rule there
  have content : rule.content ∈ (addAll {} engine.told).tellAll fun rule _ => rule.content :=
    List.mem_map_of_mem there
  rw [tellAll_addAll] at content
  obtain ⟨i, inside, same⟩ := List.mem_mapIdx.mp content
  obtain ⟨original, known, entry⟩ := List.mem_map.mp (List.getElem_mem inside)
  rw [← same, ← entry]
  exact bare original known

/-- The restored engine has the same descriptions with new ids. -/
theorem describe_told (engine : Engine P S) :
    (addAll {} engine.told).describe
      = engine.describe.mapIdx fun i d => { d with id := UInt64.ofNat i } := by
  have descriptions : (addAll {} engine.told).describe
      = (addAll {} engine.told).tellAll Rule.describe := rfl
  rw [descriptions, tellAll_addAll]
  refine List.ext_getElem (by simp [told, tellAll, describe]) fun i _ _ => ?_
  simp [told, tellAll, describe, Rule.describe_told]

/-- What is decided depends on what is told about each rule, and on nothing else. -/
theorem decision?_eq (engine : Engine P S) (direction : Direction) (e : Envelope) :
    engine.decision? direction e
      = ((engine.tellAll fun rule on => (on && rule.inScope direction e, rule.action)).find?
        Prod.fst).map Prod.snd := by
  rw [tellAll, List.find?_map, Option.map_map]
  rfl

/-- The restored engine decides by the same rules. -/
theorem decision?_told (engine : Engine P S) (direction : Direction) (e : Envelope) :
    (addAll {} engine.told).decision? direction e
      = (engine.decision? direction e).map Action.told := by
  have same : (engine.told.mapIdx fun i entry =>
      (entry.2 && ({ entry.1 with serial := i } : Rule P S).inScope direction e, entry.1.action))
      = engine.rules.map fun rule =>
        (engine.isEnabled rule && rule.inScope direction e, rule.action.told) := by
    refine List.ext_getElem (by simp [told, tellAll]) fun i _ _ => ?_
    simp [told, tellAll, RuleSpec.told, Rule.inScope]
  rw [decision?_eq, tellAll_addAll, same, List.find?_map, Option.map_map, decision?,
    Option.map_map]
  rfl

end Engine

/-- An action in whole milliseconds settles what the action does, as far as it is told. -/
theorem Settles.told {action? : Option (Action S)} {verdict : Verdict}
    (h : Settles action? verdict) :
    ∃ verdict', Settles (action?.map Action.told) verdict' ∧ verdict.Told verdict' := by
  cases h with
  | deliver => exact ⟨.deliver, .deliver, .deliver⟩
  | drop => exact ⟨.drop, .drop, .drop⟩
  | delay d => exact ⟨.delay d.told, .delay d.told, .delay d.toNanos_told⟩

/-- A delay that is a whole number of milliseconds, and less than `2 ^ 64` of them, is told as
it is. -/
theorem Verdict.Told.eq_of_whole {verdict verdict' : Verdict} (h : verdict.Told verdict')
    (whole : ∀ d, verdict = .delay d →
      ∃ ms, ms < 18446744073709551616 ∧ d.toNanos = ms * 1000000) :
    verdict' = verdict := by
  cases h with
  | deliver => rfl
  | drop => rfl
  | @delay d d' told =>
    obtain ⟨ms, few, length⟩ := whole d rfl
    have floor : d.floorMillis = ms := by
      rw [Duration.floorMillis, length, Nat.mul_div_cancel _ (by decide)]
    have most : min ms 18446744073709551615 = ms := Nat.min_eq_left (by omega)
    rw [floor, most, ← length] at told
    rw [Duration.eq_of_toNanos_eq told]

namespace Engine

/-- The rules in force have no callbacks. -/
def Bare (engine : Engine P S) : Prop :=
  ∀ rule ∈ engine.rules, rule.Bare

/-- Without callbacks something is decided about every transfer, and by a rule in force if it is
a delay. -/
theorem settles_of_bare {engine : Engine P S} (bare : engine.Bare) (direction : Direction)
    (e : Envelope) :
    ∃ verdict, Settles (engine.decision? direction e) verdict ∧
      ∀ d, verdict = .delay d → ∃ rule ∈ engine.rules, rule.action = .delay (.fixed d) := by
  unfold decision?
  cases found : engine.rules.find? fun rule =>
      engine.isEnabled rule && rule.inScope direction e with
  | none => exact ⟨.deliver, .deliver, by simp⟩
  | some rule =>
    have there : rule ∈ engine.rules := List.mem_of_find?_eq_some found
    rw [Option.map_some]
    cases acts : rule.action with
    | drop => exact ⟨.drop, .drop, by simp⟩
    | delay source =>
      cases source with
      | fixed d =>
        refine ⟨.delay d, .delay d, ?_⟩
        rintro _ ⟨⟩
        exact ⟨rule, there, acts⟩
      | computed supplier => exact absurd acts ((bare rule there).fixed supplier)

end Engine

/-! ## An engine after a run -/

/-- The rules in force are among those that were registered. -/
theorem Engine.registered_of_mem_rules {history : List (Change P S)} {rule : Rule P S}
    (there : rule ∈ (applyAll {} history).rules) : rule.toRuleSpec ∈ registered history :=
  List.mem_of_getElem? (registered_getElem?_of_mem_rules there)

/-- An engine without callbacks is restored from its descriptions.

Take a new engine to which anything has been done, by operations or by callbacks, as long as
all its rules were drafted, and let the rules in force be without callbacks. If its descriptions
are replayed for another new engine, in whatever world, that goes well. The new engine then has
the same descriptions, with the ids 0, 1, 2 and so on. Both engines decide about every transfer,
and they decide the same, except that a delay is cut to whole milliseconds and to less than
`2 ^ 64` of them. If that is no cut for any rule, they decide exactly the same. -/
theorem replay_describe (cb : Callbacks σ) (w : World σ) (account : cb.FullAccount w.addEngine.1)
    (deeds : List (Deed σ)) :
    let engine := w.addEngine.1
    let now := Deed.run cb w.addEngine.2 deeds
    (∀ spec ∈ Engine.registered (Deed.history account w.addEngine.2 deeds), spec.Drafted) →
    (now.engine engine).Bare →
    ∀ (cb' : Callbacks σ) (v : World σ), ∃ after,
      v.addEngine.1.replay (now.engine engine).describe v.addEngine.2 = .ok () after ∧
      (after.engine v.addEngine.1).describe
        = (now.engine engine).describe.mapIdx (fun i d => { d with id := UInt64.ofNat i }) ∧
      ∀ direction e, ∃ verdict verdict' left left',
        engine.evaluate cb direction e now = .ok verdict left ∧
        v.addEngine.1.evaluate cb' direction e after = .ok verdict' left' ∧
        verdict.Told verdict' ∧
        ((∀ rule ∈ (now.engine engine).rules, ∀ d, rule.action = .delay (.fixed d) →
          ∃ ms, ms < 18446744073709551616 ∧ d.toNanos = ms * 1000000) → verdict' = verdict) := by
  intro engine now drafted bare cb' v
  -- Each rule of the engine was registered at some time, from a draft.
  have history : now.engine engine
      = Engine.applyAll {} (Deed.history account w.addEngine.2 deeds) := by
    rw [← engine_addEngine w]
    exact Deed.engine_deeds account deeds w.addEngine.2
  have plain : ∀ rule ∈ (now.engine engine).rules, rule.Bare ∧ rule.Orderly := by
    intro rule there
    refine ⟨bare rule there, RuleSpec.orderly_of_drafted (drafted _ ?_)⟩
    rw [history] at there
    exact Engine.registered_of_mem_rules there
  obtain ⟨after, replays, restored⟩ :=
    EngineRef.replay_eq (now.engine engine).isEnabled v.addEngine.1 plain v.addEngine.2
  -- What has been restored is the engine with its rules as they are told.
  have told : after.engine v.addEngine.1 = Engine.addAll {} (now.engine engine).told := by
    rw [restored, engine_addEngine]
    rfl
  refine ⟨after, replays, ?_, fun direction e => ?_⟩
  · rw [told]
    exact Engine.describe_told _
  · obtain ⟨verdict, settles, delayed⟩ := Engine.settles_of_bare bare direction e
    obtain ⟨verdict', settles', same⟩ := settles.told
    have asks : ∀ rule ∈ (now.engine engine).rules, rule.content = none :=
      fun rule there => (bare rule there).content
    have asks' : ∀ rule ∈ (after.engine v.addEngine.1).rules, rule.content = none :=
      told ▸ Engine.content_told asks
    rw [← Engine.decision?_told, ← told] at settles'
    obtain ⟨left, evaluates⟩ := evaluate_of_settles cb asks settles
    obtain ⟨left', evaluates'⟩ := evaluate_of_settles cb' asks' settles'
    refine ⟨verdict, verdict', left, left', evaluates, evaluates', same, fun whole => ?_⟩
    refine same.eq_of_whole fun d acts => ?_
    obtain ⟨rule, there, fixed⟩ := delayed d acts
    exact whole rule there d fixed

/-! ## A delay that is not told in full -/

namespace Retelling

open Steady (signature letter)

/-- What callbacks that only answer do to an engine. -/
def account : Steady.callbacks.FullAccount ⟨0⟩ where
  tested _ _ _ := []
  supplied _ _ _ := []
  accepted _ _ _ _ := []
  tested_eq _ _ _ := rfl
  supplied_eq _ _ _ := rfl
  accepted_eq _ _ _ _ := rfl

/-- One and a half milliseconds. -/
def wait : Duration := ⟨0, 1500000, by decide⟩

/-- A rule that drops all messages. -/
def dropping : RuleSpec Bool Duration := (Draft.allVerbs).finish .drop

/-- A rule that drops messages from nobody. -/
def idle : RuleSpec Bool Duration :=
  ({ verbs := .ofList [7, 5, 7], senders := some (.ofList []) } : Draft Bool).finish .drop

/-- A rule that holds back messages. -/
def delaying : RuleSpec Bool Duration :=
  (Draft.ofVerbs [7, 5, 7]).finish (.delay (.fixed wait))

/-- A rule that drops all messages is replaced by three others. The second one of them drops all
messages again, but it is switched off. In between the engine is asked, and a message is sent
through a network without nodes. -/
def deeds : List (Deed signature) :=
  [.use (.change ⟨0⟩ (.register dropping)), .operate (.alter ⟨0⟩ .reset),
    .use (.change ⟨0⟩ (.register idle)), .use (.evaluate ⟨0⟩ .outbound letter),
    .use (.change ⟨0⟩ (.register dropping)), .operate (.send ⟨0⟩ letter),
    .use (.change ⟨0⟩ (.register delaying)),
    .use (.change ⟨0⟩ (.switch { dropping with serial := 2 } false))]

/-- The world after these deeds. -/
def now : World signature :=
  Deed.run Steady.callbacks Clearing.world.addEngine.2 deeds

/-- All rules that were ever registered here were made from drafts. -/
theorem drafted_deeds :
    ∀ spec ∈ Engine.registered (Deed.history account Clearing.world.addEngine.2 deeds),
      spec.Drafted := by
  have specs : Engine.registered (Deed.history account Clearing.world.addEngine.2 deeds)
      = [dropping, idle, dropping, delaying] := rfl
  have nothing : ∀ draft : Draft Bool, draft.giveAll [] = .ok draft := fun _ => rfl
  have nobody : (Draft.ofVerbs [7, 5, 7] : Draft Bool).giveAll [.senders []]
      = .ok { verbs := .ofList [7, 5, 7], senders := some (.ofList []) } := rfl
  have drops : dropping.Drafted := .intro (.inl rfl) (nothing _) .drop
  have idles : idle.Drafted := .intro (.inr ⟨_, rfl⟩) nobody .drop
  have delays : delaying.Drafted := .intro (.inr ⟨_, rfl⟩) (nothing _) (.delay (.fixed wait))
  rw [specs]
  simp [drops, idles, delays]

/-- The rules in force have no callbacks. -/
theorem bare_now : (now.engine ⟨0⟩).Bare := by
  have rules : (now.engine ⟨0⟩).rules = [{ idle with serial := 1 }, { dropping with serial := 2 },
      { delaying with serial := 3 }] := rfl
  intro rule there
  rw [rules] at there
  simp only [List.mem_cons, List.not_mem_nil, or_false] at there
  rcases there with rfl | rfl | rfl <;> exact ⟨rfl, by rintro supplier ⟨⟩⟩

/-- The descriptions of the three rules in force. -/
def described : List Description :=
  [⟨1, .outbound, some [5, 7], some [], none, false, .drop, true⟩,
    ⟨2, .outbound, none, none, none, false, .drop, false⟩,
    ⟨3, .outbound, some [5, 7], none, none, false, .delay (some 1), true⟩]

/-- The descriptions of the rules in force, worked out. -/
theorem described_now : (now.engine ⟨0⟩).describe = described := by
  decide +kernel

/-- The rules are restored with new ids, and the letter is held back for one millisecond and
not for one and a half. -/
theorem replay_describe_retelling :
    (now.engine ⟨0⟩).describe = described ∧
    (∃ left, EngineRef.evaluate Steady.callbacks ⟨0⟩ .outbound letter now
      = .ok (.delay wait) left) ∧
    ∃ after, EngineRef.replay ⟨0⟩ described Clearing.world.addEngine.2 = .ok () after ∧
      (after.engine ⟨0⟩).describe
        = described.mapIdx (fun i d => { d with id := UInt64.ofNat i }) ∧
      ∃ left, EngineRef.evaluate Steady.callbacks ⟨0⟩ .outbound letter after
        = .ok (.delay (.ofMillis 1)) left := by
  have settles : Settles ((now.engine ⟨0⟩).decision? .outbound letter) (.delay wait) :=
    .delay wait
  obtain ⟨left, evaluates⟩ := evaluate_of_settles Steady.callbacks
    (fun rule there => (bare_now rule there).content) settles
  obtain ⟨after, replays, descriptions, decides⟩ :=
    replay_describe Steady.callbacks Clearing.world account deeds drafted_deeds bare_now
      Steady.callbacks Clearing.world
  refine ⟨described_now, ⟨left, evaluates⟩, after, described_now ▸ replays,
    described_now ▸ descriptions, ?_⟩
  obtain ⟨verdict, verdict', _, left', first, second, told, -⟩ := decides .outbound letter
  have same : EStateM.Result.ok (.delay wait) left = EStateM.Result.ok verdict _ :=
    evaluates.symm.trans first
  cases same
  cases told with
  | @delay _ d told =>
    have cut : d = .ofMillis 1 := Duration.eq_of_toNanos_eq told
    exact ⟨left', cut ▸ second⟩

end Retelling

end Netsieve
