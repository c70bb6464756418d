import Netsieve.Proofs.Program
import Netsieve.Proofs.Rule.Assembly
import Netsieve.Scenario.Callbacks

/-!
# `Netsieve.Proofs.Scenario.Composition`: steps that compose a rule

A rule of a scenario is composed by a chain of links, in one step or in several. `partsOf`
are the parts that links give; a link that shows the draft gives none. A step that composes a
rule does what comes of giving all parts of the chain so far (`Composed`): it keeps the draft
or gives it up, it registers the rule, or it panics. Only if it registers the rule it does
anything to an engine.

* `extendAll_eq`: links give their parts.
* `perform_composition`: what steps do that compose a rule.
-/

set_option autoImplicit false

namespace Netsieve.Scenario

/-! ## The parts of links -/

/-- The parts that links give, if so many counts were started before. -/
def partsOf (rule : String) : Nat → List Link → List (RulePart Predicate)
  | _, [] => []
  | counters, .direction inbound :: rest => .direction inbound :: partsOf rule counters rest
  | counters, .senders ids :: rest => .senders ids :: partsOf rule counters rest
  | counters, .receivers ids :: rest => .receivers ids :: partsOf rule counters rest
  | counters, .content condition :: rest =>
    .content ⟨rule, counters, condition⟩ :: partsOf rule (counters + 1) rest
  | counters, .shown :: rest => partsOf rule counters rest

/-- Links in another order give their parts in another order, if no kind is given twice. -/
theorem partsOf_perm (rule : String) {links links' : List Link} (perm : links.Perm links')
    (counters : Nat) (distinct : ((partsOf rule counters links).map RulePart.kind).Nodup) :
    (partsOf rule counters links).Perm (partsOf rule counters links') := by
  induction perm generalizing counters with
  | nil => exact .refl _
  | cons link _ ih =>
    cases link with
    | shown => exact ih counters distinct
    | content condition => exact (ih _ (List.nodup_cons.mp distinct).2).cons _
    | direction | senders | receivers => exact (ih _ (List.nodup_cons.mp distinct).2).cons _
  -- Two predicates would be numbered the other way round. But the kinds are distinct.
  | swap link link' rest =>
    cases link <;> cases link' <;> first
      | exact .refl _
      | exact .swap _ _ _
      | simp [partsOf, RulePart.kind, RulePart.entry, Draft.Entry.kind] at distinct
  -- The kinds of the list between are distinct as well.
  | trans first _ ih ih' =>
    have between := ih counters distinct
    exact between.trans (ih' counters ((between.map RulePart.kind).nodup_iff.mp distinct))

/-- What a program ends with that has given parts to a draft. -/
def given (w : World script) : Except Misuse (Draft Predicate) → Outcome script (Draft Predicate)
  | .ok draft => .ok draft w
  | .error misuse => .error ⟨misuse.message⟩ w

/-- A scenario gives a part as a draft takes it, and panics with the text of the misuse. -/
theorem give_eq (draft : Draft Predicate) (part : RulePart Predicate) (w : World script) :
    give draft part w = given w (draft.give part) := by
  unfold give
  cases draft.give part <;> rfl

/-- A link that gives a part comes first, and the others go on with its draft. -/
theorem extendAll_cons {rule : String} {draft : Draft Predicate} {link : Link}
    {rest : List Link} {w : World script} (memory : Stage) {part : RulePart Predicate}
    {parts : List (RulePart Predicate)}
    (gives : link.extend rule draft w = given { w with memory } (draft.give part))
    (others : ∀ draft, ∃ after : Stage, extendAll rule draft rest { w with memory }
      = given { w with memory := after } (Draft.giveAll draft parts)) :
    ∃ after : Stage, extendAll rule draft (link :: rest) w
      = given { w with memory := after } (draft.giveAll (part :: parts)) := by
  have first : extendAll rule draft (link :: rest) w
      = (link.extend rule draft >>= fun draft => extendAll rule draft rest) w := rfl
  rw [first, Draft.giveAll_cons]
  cases outcome : draft.give part with
  | error misuse =>
    rw [outcome] at gives
    exact ⟨memory, bind_of_error gives⟩
  | ok draft' =>
    rw [outcome] at gives
    obtain ⟨after, ends⟩ := others draft'
    exact ⟨after, (bind_of_ok gives).trans ends⟩

/-- Links give their parts, and apart from that they do nothing but remember. -/
theorem extendAll_eq (rule : String) (draft : Draft Predicate) (links : List Link)
    (w : World script) :
    ∃ memory : Stage, extendAll rule draft links w
      = given { w with memory } (draft.giveAll (partsOf rule w.memory.counters.size links)) := by
  induction links generalizing draft w with
  | nil => exact ⟨w.memory, rfl⟩
  | cons link rest ih =>
    cases link with
    | direction inbound =>
      exact extendAll_cons w.memory (give_eq draft _ w) fun draft => ih draft w
    | senders ids => exact extendAll_cons w.memory (give_eq draft _ w) fun draft => ih draft w
    | receivers ids => exact extendAll_cons w.memory (give_eq draft _ w) fun draft => ih draft w
    | content condition =>
      -- The count of the predicate is started before the predicate is given.
      let counted : Stage := { w.memory with counters := w.memory.counters.push 0 }
      have starts : newCounter w = .ok w.memory.counters.size { w with memory := counted } := rfl
      refine extendAll_cons counted ((bind_of_ok starts).trans (give_eq draft _ _)) fun draft => ?_
      have others := ih draft { w with memory := counted }
      rwa [Array.size_push] at others
    | shown =>
      let shown : Stage :=
        { w.memory with log := w.memory.log.push (.draft (String.ofList draft.inspect)) }
      exact ih draft { w with memory := shown }

/-! ## Finishing -/

/-- An action in use as that of a rule. -/
inductive InUse (rule : String) : Action Plan → Action Supplier → Prop where
  | drop : InUse rule .drop .drop
  | fixed (d : Duration) : InUse rule (.delay (.fixed d)) (.delay (.fixed d))
  | computed (plan : Plan) (counter : Nat) :
      InUse rule (.delay (.computed plan)) (.delay (.computed ⟨rule, counter, plan⟩))

/-- An action is brought into use, for which a supplier may get a counter. -/
theorem useAction_eq (rule : String) (action : Action Plan) (w : World script) :
    ∃ used memory, InUse rule action used ∧
      useAction rule action w = .ok used { w with memory } := by
  cases action with
  | drop => exact ⟨_, w.memory, .drop, rfl⟩
  | delay source =>
    cases source with
    | fixed d => exact ⟨_, w.memory, .fixed d, rfl⟩
    | computed plan => exact ⟨_, _, .computed plan w.memory.counters.size, rfl⟩

/-- A rule has been registered, and nothing else has happened but that the scenario remembers
it. -/
structure Registered (engine : EngineRef) (rule : Rule Predicate Supplier)
    (w left : World script) : Prop where
  appends : (w.engine engine).Appends rule (left.engine engine)
  others : ∀ other, other ≠ engine → left.engine other = w.engine other
  rest : left = { w with engines := left.engines, events := left.events, memory := left.memory }

/-- A draft that is finished with an action becomes a rule of its engine. -/
theorem finish_register (name : String) (engine : EngineRef) (draft : Draft Predicate)
    (action : Action Plan) (w : World script) :
    ∃ used rule left, InUse name action used ∧ rule.toRuleSpec = draft.finish used ∧
      Registered engine rule w left ∧
      finish name engine draft (some action) w
        = .ok (.handle rule.id rule.direction true none) left := by
  -- Finding the action may use up a supplier number, which the memory keeps.
  obtain ⟨used, memory, inUse, uses⟩ := useAction_eq name action w
  let rule := (w.engine engine).nextRule (draft.finish used)
  let changed := w.setEngine engine ((w.engine engine).register (draft.finish used))
  let handles := memory.handles.insert name ⟨engine, rule⟩
  let left : World script :=
    { changed.record (.ruleRegistered (String.ofList (rule.inspect true))) with
      memory := { memory with handles } }
  have now : left.engine engine = (w.engine engine).register (draft.finish used) :=
    World.engine_setEngine_self w engine _
  have on : (left.engine engine).isEnabled rule = true := by
    rw [now]
    exact Engine.isEnabled_register_nextRule _ _
  refine ⟨used, rule, left, inUse, rfl, ⟨?_, fun other apart => ?_, rfl⟩, ?_⟩
  · rw [now]
    exact Engine.appends_register _ _
  · exact World.engine_setEngine_of_ne w _ (Ne.symm apart)
  · refine (bind_of_ok uses).trans ?_
    show EStateM.Result.ok (Answer.handle rule.id rule.direction
      ((left.engine engine).isEnabled rule) none) left = _
    rw [on]

/-! ## Chains -/

/-- A chain of links so far.

- `name`: the name under which the draft and the rule are kept;
- `engine`: the engine that the rule is for;
- `verbs`: the verbs that it begins with;
- `parts`: the parts that its links give. -/
structure Chain where
  name : String
  engine : EngineRef
  verbs : Option (List UInt32)
  parts : List (RulePart Predicate)

/-- What is to become of a draft. -/
inductive Ending where
  | keep
  | discard
  | register (action : Action Plan)

/-- Without an action the draft is given up. -/
def Ending.ofAction? : Option (Action Plan) → Ending
  | none => discard
  | some action => register action

/-- A draft that is kept is what its chain has given. -/
def Chain.Kept (chain : Chain) (stage : Stage) : Prop :=
  ∃ draft, stage.drafts.get? chain.name = some (chain.engine, draft) ∧
    (Draft.begin chain.verbs).giveAll chain.parts = .ok draft

/-- A step begins a chain or continues it, and then this chain comes to this ending. -/
inductive Composes (w : World script) : Step → Chain → Ending → Prop where
  | addRule {name engine : String} {ref : EngineRef} (verbs : Option (List UInt32))
      (links : List Link) (action : Option (Action Plan))
      (known : w.memory.engines.get? engine = some ref) :
      Composes w (.addRule name engine verbs links action)
        ⟨name, ref, verbs, partsOf name w.memory.counters.size links⟩ (.ofAction? action)
  | startDraft {name engine : String} {ref : EngineRef} (verbs : Option (List UInt32))
      (links : List Link) (known : w.memory.engines.get? engine = some ref) :
      Composes w (.startDraft name engine verbs links)
        ⟨name, ref, verbs, partsOf name w.memory.counters.size links⟩ .keep
  | extendDraft {chain : Chain} (links : List Link) (kept : chain.Kept w.memory) :
      Composes w (.extendDraft chain.name links)
        { chain with
          parts := chain.parts ++ partsOf chain.name w.memory.counters.size links } .keep
  | finishDraft {chain : Chain} (links : List Link) (action : Option (Action Plan))
      (kept : chain.Kept w.memory) :
      Composes w (.finishDraft chain.name links action)
        { chain with
          parts := chain.parts ++ partsOf chain.name w.memory.counters.size links }
        (.ofAction? action)

/-- What a step does when giving all parts of a chain has come to a draft or to a misuse.

- `misused`: it panics with the misuse;
- `kept`: it keeps the draft;
- `discarded`: it gives the draft up;
- `registered`: it registers the rule that comes of the draft. -/
inductive Composed (w : World script) (chain : Chain) :
    Ending → Except Misuse (Draft Predicate) → Outcome script Answer → Prop where
  | misused {ending : Ending} (misuse : Misuse) (memory : Stage) :
      Composed w chain ending (.error misuse) (.error ⟨misuse.message⟩ { w with memory })
  | kept {draft : Draft Predicate} {memory : Stage}
      (there : memory.drafts.get? chain.name = some (chain.engine, draft)) :
      Composed w chain .keep (.ok draft) (.ok .done { w with memory })
  | discarded (draft : Draft Predicate) (memory : Stage) :
      Composed w chain .discard (.ok draft) (.ok .discarded { w with memory })
  | registered {draft : Draft Predicate} {action : Action Plan} {used : Action Supplier}
      {rule : Rule Predicate Supplier} {left : World script}
      (inUse : InUse chain.name action used) (content : rule.toRuleSpec = draft.finish used)
      (registers : Registered chain.engine rule w left) :
      Composed w chain (.register action) (.ok draft)
        (.ok (.handle rule.id rule.direction true none) left)

section Steps

variable {w : World script} {chain : Chain}

/-- A draft that is kept has nothing else done to it. -/
theorem composed_keep (memory : Stage) {draft : Draft Predicate} {links : List Link}
    {outcome : Except Misuse (Draft Predicate)}
    (comes : outcome = draft.giveAll (partsOf chain.name memory.counters.size links)) :
    Composed w chain .keep outcome
      ((extendAll chain.name draft links >>= keepDraft chain.name chain.engine)
        { w with memory }) := by
  obtain ⟨after, extended⟩ := extendAll_eq chain.name draft links { w with memory }
  rw [← comes] at extended
  cases outcome with
  | error misuse =>
    rw [bind_of_error extended]
    exact .misused misuse after
  | ok draft' =>
    rw [bind_of_ok extended]
    exact .kept (Names.get?_insert_self after.drafts chain.name (chain.engine, draft'))

/-- A draft that is finished becomes a rule, or is given up. -/
theorem composed_finish (memory : Stage) {draft : Draft Predicate} {links : List Link}
    {outcome : Except Misuse (Draft Predicate)} (action : Option (Action Plan))
    (comes : outcome = draft.giveAll (partsOf chain.name memory.counters.size links)) :
    Composed w chain (.ofAction? action) outcome
      ((extendAll chain.name draft links >>= fun draft =>
        finish chain.name chain.engine draft action) { w with memory }) := by
  obtain ⟨after, extended⟩ := extendAll_eq chain.name draft links { w with memory }
  rw [← comes] at extended
  cases outcome with
  | error misuse =>
    rw [bind_of_error extended]
    exact .misused misuse after
  | ok draft' =>
    rw [bind_of_ok extended]
    cases action with
    -- A chain without an action gives its draft away.
    | none => exact .discarded draft' after
    | some action =>
      obtain ⟨used, rule, left, inUse, content, registers, ends⟩ :=
        finish_register chain.name chain.engine draft' action { w with memory := after }
      dsimp only
      rw [ends]
      exact .registered inUse content ⟨registers.appends, registers.others, registers.rest⟩

/-- A chain goes on where it has come to. -/
theorem Chain.Kept.giveAll {draft : Draft Predicate}
    (gives : (Draft.begin chain.verbs).giveAll chain.parts = .ok draft)
    (more : List (RulePart Predicate)) :
    (Draft.begin chain.verbs).giveAll (chain.parts ++ more) = draft.giveAll more := by
  rw [Draft.giveAll_append, gives]
  rfl

/-- A scenario starts a draft as a draft begins. -/
theorem startDraft_eq (verbs : Option (List UInt32)) : startDraft verbs = Draft.begin verbs := by
  cases verbs <;> rfl

/-- A known name stands for its engine. -/
theorem withEngine_of_known {name : String} {ref : EngineRef}
    (known : w.memory.engines.get? name = some ref) (next : EngineRef → Program Answer) :
    withEngine name next w = next ref w := by
  have reads : stage w = .ok w.memory w := rfl
  rw [withEngine, bind_of_ok reads, known]

/-- A known name stands for its draft, which is then in hand no more. -/
theorem withDraft_of_known {name : String} {engine : EngineRef} {draft : Draft Predicate}
    (known : w.memory.drafts.get? name = some (engine, draft))
    (next : EngineRef → Draft Predicate → Program Answer) :
    withDraft name next w = next engine draft
      { w with memory := { w.memory with drafts := w.memory.drafts.erase name } } := by
  have reads : stage w = .ok w.memory w := rfl
  rw [withDraft, bind_of_ok reads, known]
  rfl

/-- A step that composes a rule does what comes of giving all parts of its chain. -/
theorem composed_of_composes (cb : Callbacks script) {step : Step} {ending : Ending}
    (composes : Composes w step chain ending) :
    Composed w chain ending ((Draft.begin chain.verbs).giveAll chain.parts)
      (step.perform cb w) := by
  cases composes with
  | addRule verbs links action known =>
    rw [Step.perform, withEngine_of_known known, startDraft_eq]
    exact composed_finish w.memory action rfl
  | startDraft verbs links known =>
    rw [Step.perform, withEngine_of_known known, startDraft_eq]
    exact composed_keep w.memory rfl
  | extendDraft links kept =>
    obtain ⟨draft, there, gives⟩ := kept
    rw [Step.perform, withDraft_of_known there]
    exact composed_keep _ (Chain.Kept.giveAll gives _)
  | finishDraft links action kept =>
    obtain ⟨draft, there, gives⟩ := kept
    rw [Step.perform, withDraft_of_known there]
    exact composed_finish _ action (Chain.Kept.giveAll gives _)

/-- Only a chain that comes to a rule does anything but be remembered. -/
theorem Composed.memory_only {ending : Ending} {outcome : Except Misuse (Draft Predicate)}
    {result : Outcome script Answer} (h : Composed w chain ending outcome result)
    (fails : (∀ action, ending ≠ .register action) ∨ ∃ misuse, outcome = .error misuse) :
    ∃ memory : Stage, Outcome.world result = { w with memory } := by
  cases h with
  | misused | discarded => exact ⟨_, rfl⟩
  | kept there => exact ⟨_, rfl⟩
  | registered inUse content registers =>
    rcases fails with other | ⟨misuse, ends⟩
    · exact absurd rfl (other _)
    · cases ends

end Steps

/-- Rules are what their chains give, in whatever order.

Whatever parts are given to a draft that begins with some verbs or with all of them: if no
kind of part is given twice, this comes to a draft, and the rule that is made of it with any
action says what was given. It is outbound and without limits where nothing was given, it is
about exactly the ids in the lists, and its description tells these in ascending order.
Registering it adds it to the end of the chain, switched on. Another order of the parts, or
of the ids in their lists, and repeated ids make no difference. If a kind is given twice, the
first part that is given again is a misuse, which for the direction tells the earlier one.

A step that composes a rule, alone or together with steps before it, does what comes of
giving all parts: it keeps the draft, gives it up or registers one rule, or it panics with
the misuse. In all cases but that of a registration it leaves every engine as it was. -/
theorem perform_composition (cb : Callbacks script) :
    (∀ {P : Type} (verbs : Option (List UInt32)) (parts : List (RulePart P)),
      Assembly verbs parts ((Draft.begin verbs).giveAll parts)) ∧
    (∀ rule counters links links', links.Perm links' →
      ((partsOf rule counters links).map RulePart.kind).Nodup →
      (partsOf rule counters links).Perm (partsOf rule counters links')) ∧
    ∀ {w : World script} {step : Step} {chain : Chain} {ending : Ending},
      Composes w step chain ending →
      Composed w chain ending ((Draft.begin chain.verbs).giveAll chain.parts)
        (step.perform cb w) ∧
      ((∀ action, ending ≠ .register action) ∨ ¬ (chain.parts.map RulePart.kind).Nodup →
        ∀ engine, (worldAfter (step.perform cb) w).engine engine = w.engine engine) := by
  refine ⟨assembly, fun rule counters links links' perm => partsOf_perm rule perm counters, ?_⟩
  intro w step chain ending composes
  have composed := composed_of_composes cb composes
  refine ⟨composed, fun fails engine => ?_⟩
  have misused : ¬ (chain.parts.map RulePart.kind).Nodup →
      ∃ misuse, (Draft.begin chain.verbs).giveAll chain.parts = .error misuse := fun repeats => by
    obtain ⟨-, -, -, earlier, -, -, -, -, ends⟩ :=
      (assembly chain.verbs chain.parts).repeated repeats
    exact ⟨earlier.misuse, ends⟩
  obtain ⟨memory, left⟩ := composed.memory_only (fails.imp_right misused)
  rw [worldAfter, left]
  rfl

/-! ## A rule that is composed in an unusual order -/

namespace Mixed

/-- A world with one engine, which is called main. -/
def world : World script where
  engines := ⟨#[{}]⟩
  memory := { engines := ({} : Names EngineRef).insert "main" ⟨0⟩ }

/-- Receivers in no order and one of them twice, then the direction, and no senders at all. -/
def links : List Link :=
  [.receivers [2, 1, 2], .direction true, .shown, .senders []]

/-- The step that registers the rule. -/
def step : Step :=
  .addRule "rule" "main" (some [7, 3, 7]) links (some .drop)

/-- The chain of this step. -/
def chain : Chain := ⟨"rule", ⟨0⟩, some [7, 3, 7], partsOf "rule" 0 links⟩

/-- The step composes the chain that its links give. -/
theorem composes : Composes world step chain (.register .drop) :=
  .addRule _ links _ (Names.get?_insert_self _ "main" _)

/-- One rule is registered, for the parts in this order and in another one. -/
theorem perform_composition_mixed :
    Composes world step chain (.register .drop) ∧
    (chain.parts.map RulePart.kind).Nodup ∧
    ∃ rule left, step.perform (callbacks maxDepth) world
        = .ok (.handle rule.id rule.direction true none) left ∧
      (left.engine ⟨0⟩).rules = [rule] ∧ rule.direction = .inbound ∧
      rule.verbs = .only [3, 7] ∧ rule.senders = .only [] ∧ rule.receivers = .only [1, 2] ∧
      (Draft.begin (some [3, 7])).giveAll [.senders [], .receivers [1, 2], .direction true]
        = (Draft.begin chain.verbs).giveAll chain.parts := by
  obtain ⟨assemblies, -, composing⟩ := perform_composition (callbacks maxDepth)
  obtain ⟨composed, -⟩ := composing composes
  have distinct : (chain.parts.map RulePart.kind).Nodup := by decide
  obtain ⟨draft, gives⟩ := (assemblies chain.verbs chain.parts).distinct distinct
  have follows := ((assemblies _ _).follows draft gives (.drop : Action Supplier) {}).1
  -- The senders come first now, and the receivers are named once and in another order.
  have moved : RulePart.Rearranged chain.parts
      [.senders [], .receivers [1, 2], .direction true] := by
    have last : chain.parts.Perm [.senders [], .receivers [2, 1, 2], .direction true] :=
      List.perm_append_singleton (RulePart.senders []) [.receivers [2, 1, 2], .direction true]
    have same : ∀ id : UInt32, id ∈ [2, 1, 2] ↔ id ∈ [1, 2] := by simp [or_comm]
    exact ⟨_, last,
      .cons (.senders fun _ => .rfl) (.cons (.receivers same) (.cons (.direction true) .nil))⟩
  have other := (assemblies _ _).rearranged draft gives (some [3, 7]) _ (.some (by simp)) moved
  rw [gives] at composed ⊢
  refine ⟨composes, distinct, ?_⟩
  generalize step.perform (callbacks maxDepth) world = result at composed
  cases composed with
  | @registered _ _ _ rule left inUse content registers =>
    cases inUse
    rw [← content] at follows
    exact ⟨rule, left, rfl, registers.appends.rules, follows.direction, follows.verbs,
      follows.senders, follows.receivers, other⟩

end Mixed

end Netsieve.Scenario
