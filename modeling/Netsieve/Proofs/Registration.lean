import Netsieve.Proofs.Engine.Numbering
import Netsieve.Proofs.Replay

/-!
# `Netsieve.Proofs.Registration`: ids are never used again

Rules are registered by whoever has an engine, and also by callbacks in the course of an
evaluation. Most of them start as drafts. A draft is no part of an engine: it can be given
up, or be lost because somebody gives it a part twice, and only when it is finished is a
rule registered. `Drafting` is what can be done with engines and drafts, in any order, and
`Bench` is what it is done to.

* `engine_met`: at any time, also in the middle of an evaluation, an engine is what the
  first changes of its history have made of it.
* `run_inOrder`: so its numbering is in order at any time.
-/

set_option autoImplicit false

namespace Netsieve

variable {σ : Signature}

/-! ## The worlds on the way -/

namespace Use

variable (cb : Callbacks σ)

/-- The calls of callbacks in the course of a use. -/
def calls (w : World σ) : Use σ → List (Made σ)
  | .evaluate engine direction e => engine.calls cb direction e w
  | _ => []

/-- The worlds between uses, and those in which callbacks are called. -/
def met (w : World σ) : List (Use σ) → List (World σ)
  | [] => [w]
  | use :: rest => w :: (use.calls cb w).map Made.before ++ met (use.perform cb w) rest

/-- The world after all uses is one of those that are met. -/
theorem run_mem_met (uses : List (Use σ)) (w : World σ) : run cb w uses ∈ met cb w uses := by
  induction uses generalizing w with
  | nil => exact List.mem_singleton_self w
  | cons use rest ih => exact List.mem_append_right _ (ih (use.perform cb w))

variable {cb} {engine : EngineRef} (account : cb.Account engine)

/-- In the world in which a callback is called, an engine has gone through a first part of
the changes of the use. -/
theorem engine_calls (use : Use σ) {w : World σ} {made : Made σ} (there : made ∈ use.calls cb w) :
    ∃ before, before <+: use.changes account w ∧
      made.before.engine engine = (w.engine engine).applyAll before := by
  cases use with
  | evaluate other direction e =>
    exact engine_before_course account (course_evaluate cb other direction e w) there
  | change | size | describe | inspect => cases there

/-- At any time an engine is what the first changes of its history have made of it. -/
theorem engine_met {uses : List (Use σ)} {w v : World σ} (there : v ∈ met cb w uses) :
    ∃ before, before <+: history account w uses ∧
      v.engine engine = (w.engine engine).applyAll before := by
  -- By induction on the uses. A world is met before a use, at one of its calls, or later.
  induction uses generalizing w with
  | nil =>
    rw [List.mem_singleton.mp there]
    exact ⟨[], List.nil_prefix, rfl⟩
  | cons use rest ih =>
    rcases List.mem_append.mp there with here | later
    · rcases List.mem_cons.mp here with rfl | during
      · exact ⟨[], List.nil_prefix, rfl⟩
      · obtain ⟨made, called, rfl⟩ := List.mem_map.mp during
        obtain ⟨before, first, met⟩ := engine_calls account use called
        exact ⟨before, first.trans (List.prefix_append _ _), met⟩
    · obtain ⟨before, first, met⟩ := ih later
      refine ⟨use.changes account w ++ before, ?_, ?_⟩
      · exact (List.prefix_append_right_inj _).mpr first
      · rw [met, engine_perform account, Engine.applyAll_append]

end Use

/-! ## Drafts -/

/-- A world, and the drafts of rules that somebody has in hand, each with the engine it is
for. -/
structure Bench (σ : Signature) where
  world : World σ
  drafts : List (EngineRef × Draft σ.Predicate) := []

/-- Something that is done with an engine or with a draft.

- `use`: an engine is used;
- `start`: a draft is started;
- `give`: a part is given to a draft. If the draft has it, that is a panic, and the draft
  is lost;
- `finish`: a draft is finished, and its rule is registered;
- `discard`: a draft is given up. -/
inductive Drafting (σ : Signature) where
  | use (use : Use σ)
  | start (engine : EngineRef) (draft : Draft σ.Predicate)
  | give (place : Nat) (part : RulePart σ.Predicate)
  | finish (place : Nat) (action : Action σ.Supplier)
  | discard (place : Nat)

namespace Drafting

variable (cb : Callbacks σ)

/-- The use of an engine that this is, if it is one. -/
def use? (b : Bench σ) : Drafting σ → Option (Use σ)
  | .use step => some step
  | .finish place action =>
    b.drafts[place]?.map fun (engine, draft) => .change engine (.register (draft.finish action))
  | _ => none

/-- The drafts that are in hand afterwards. -/
def drafts (b : Bench σ) : Drafting σ → List (EngineRef × Draft σ.Predicate)
  | .use _ => b.drafts
  | .start engine draft => b.drafts ++ [(engine, draft)]
  | .give place part =>
    match b.drafts[place]? with
    | some (engine, draft) =>
      match draft.give part with
      | .ok draft => b.drafts.set place (engine, draft)
      | .error _ => b.drafts.eraseIdx place
    | none => b.drafts
  | .finish place _ => b.drafts.eraseIdx place
  | .discard place => b.drafts.eraseIdx place

/-- Does it. -/
def perform (b : Bench σ) (step : Drafting σ) : Bench σ where
  world := Use.run cb b.world (step.use? b).toList
  drafts := step.drafts b

/-- What is left after a row of them. -/
def run (b : Bench σ) (steps : List (Drafting σ)) : Bench σ :=
  steps.foldl (perform cb) b

/-- The uses of engines among them. -/
def uses (b : Bench σ) : List (Drafting σ) → List (Use σ)
  | [] => []
  | step :: rest => (step.use? b).toList ++ uses (step.perform cb b) rest

/-- On a bench the world goes through the uses that the steps amount to. -/
theorem world_run (b : Bench σ) (steps : List (Drafting σ)) :
    (run cb b steps).world = Use.run cb b.world (uses cb b steps) := by
  induction steps generalizing b with
  | nil => rfl
  | cons step rest ih =>
    show (run cb (step.perform cb b) rest).world = _
    rw [ih]
    exact List.foldl_append.symm

/-- The uses of two rows of steps are those of one and then those of the other. -/
theorem uses_append (b : Bench σ) (first second : List (Drafting σ)) :
    uses cb b (first ++ second) = uses cb b first ++ uses cb (run cb b first) second := by
  induction first generalizing b with
  | nil => rfl
  | cons step rest ih =>
    rw [List.cons_append, uses, ih, uses, List.append_assoc]
    rfl

end Drafting

/-- Registering a rule gives a handle of the next rule of the engine. -/
theorem EngineRef.register_eq (engine : EngineRef) (spec : RuleSpec σ.Predicate σ.Supplier)
    (w : World σ) :
    ∃ left, engine.register spec w = .ok ⟨engine, (w.engine engine).nextRule spec⟩ left :=
  ⟨_, rfl⟩

/-- The ids of an engine are in order at any time.

Whatever is done to a new engine and with drafts, in whatever order, and whatever callbacks
change in the course of evaluations: in every world on the way, the middle of an evaluation
included, the engine is what the first changes of its history have made of it, and after
each of these its numbering is in order. A rule that is registered in such a world gets the
number of registrations so far as its id, which is greater than all ids before it. Whatever
is no use of an engine, like giving up a draft or giving it a part twice, does nothing to
the world and leaves no trace in the history. -/
theorem run_inOrder (cb : Callbacks σ) (w : World σ) (account : cb.Account w.addEngine.1)
    (drafts : List (EngineRef × Draft σ.Predicate)) (steps : List (Drafting σ)) :
    let engine := w.addEngine.1
    let start : Bench σ := ⟨w.addEngine.2, drafts⟩
    let uses := Drafting.uses cb start steps
    let history := Use.history account start.world uses
    (Engine.registered history).length < UInt64.size →
    (∀ before, before <+: history → Engine.InOrder before (Engine.applyAll {} before)) ∧
    (∀ v ∈ Use.met cb start.world uses, ∃ before, before <+: history ∧
      Engine.InOrder before (v.engine engine) ∧
      ∀ spec, ∃ rule left, engine.register spec v = .ok ⟨engine, rule⟩ left ∧
        Engine.issued {} (before ++ [.register spec]) = Engine.issued {} before ++ [rule] ∧
        rule.id.toNat = (Engine.registered before).length ∧
        ∀ other ∈ Engine.issued {} before, other.id < rule.id) ∧
    (Drafting.run cb start steps).world ∈ Use.met cb start.world uses ∧
    ∀ step : Drafting σ, step.use? (Drafting.run cb start steps) = none →
      (step.perform cb (Drafting.run cb start steps)).world
        = (Drafting.run cb start steps).world ∧
      Drafting.uses cb start (steps ++ [step]) = uses := by
  intro engine start uses history few
  -- There are less than 2 ^ 64 registrations in all, and so there are at any time before.
  have inOrder : ∀ before, before <+: history →
      Engine.InOrder before (Engine.applyAll {} before) := by
    rintro before ⟨after, whole⟩
    refine Engine.inOrder_applyAll (Nat.lt_of_le_of_lt ?_ few)
    rw [← whole, Engine.registered_append, List.length_append]
    exact Nat.le_add_right _ _
  refine ⟨inOrder, fun v there => ?_, ?_, fun step idle => ⟨?_, ?_⟩⟩
  · obtain ⟨before, first, met⟩ := Use.engine_met account there
    have now : v.engine engine = Engine.applyAll {} before := by
      rw [met, engine_addEngine]
    have order := inOrder before first
    refine ⟨before, first, now ▸ order, fun spec => ?_⟩
    obtain ⟨left, registers⟩ := engine.register_eq spec v
    rw [now] at registers
    exact ⟨_, left, registers, Engine.issued_snoc {} before spec, order.next spec,
      order.above spec⟩
  · rw [Drafting.world_run]
    exact Use.run_mem_met cb uses start.world
  · rw [Drafting.perform, idle]
    rfl
  · rw [Drafting.uses_append, Drafting.uses, idle]
    exact List.append_nil _

/-! ## A predicate that starts a chain anew -/

namespace Renewing

open Steady (signature letter)

/-- A rule whose predicate starts the chain anew. -/
def renewing : RuleSpec Bool Duration :=
  (Steady.rule .any (some true) .drop 0).toRuleSpec

/-- A rule for every message. -/
def plain : RuleSpec Bool Duration :=
  (Steady.rule .any none .drop 0).toRuleSpec

/-- A predicate that takes all rules of the first engine out of force and registers another
one before it says no. -/
def callbacks : Callbacks signature :=
  Clearing.callbacks (EngineRef.change ⟨0⟩ (.register plain))

/-- The account of these callbacks. -/
def account : callbacks.Account ⟨0⟩ where
  tested clears _ _ := if clears then [.reset, .register plain] else []
  supplied _ _ _ := []
  tested_eq clears e w := by
    cases clears with
    | true =>
      show (worldAfter (EngineRef.change ⟨0⟩ (.register plain))
        (worldAfter (EngineRef.change ⟨0⟩ .reset) w)).engine ⟨0⟩ = _
      rw [engine_change, engine_change]
      rfl
    | false => rfl
  supplied_eq _ _ _ := rfl

/-- One draft is finished, one is lost, and one is given up. In between an evaluation starts
the chain anew. -/
def steps : List (Drafting signature) :=
  [.start ⟨0⟩ .allVerbs, .give 0 (.direction true), .start ⟨0⟩ .allVerbs,
    .give 1 (.content true), .give 1 (.content true), .finish 0 .drop,
    .use (.change ⟨0⟩ (.register renewing)), .use (.evaluate ⟨0⟩ .outbound letter),
    .start ⟨0⟩ .allVerbs, .discard 0, .use (.change ⟨0⟩ (.register plain))]

/-- A bench with one engine and no drafts. -/
def start : Bench signature where
  world := Clearing.world.addEngine.2

/-- The history of the engine. -/
def history : List (Engine.Change Bool Duration) :=
  Use.history account start.world (Drafting.uses callbacks start steps)

/-- Four rules were registered in the course of these steps. -/
theorem length_history : (Engine.registered history).length = 4 :=
  rfl

/-- Four rules are registered, with the ids 0 to 3, and the last two of them are in force. -/
theorem run_inOrder_renewing :
    (Engine.registered history).length < UInt64.size ∧
    Engine.InOrder history (Engine.applyAll {} history) ∧
    ((Engine.issued {} history).map fun rule => rule.id.toNat) = List.range 4 ∧
    ((Drafting.run callbacks start steps).world.engine ⟨0⟩).rules.map Rule.serial = [2, 3] := by
  have few : (Engine.registered history).length < UInt64.size := by
    rw [length_history]
    decide
  obtain ⟨inOrder, -⟩ := run_inOrder callbacks Clearing.world account [] steps few
  have order : Engine.InOrder history (Engine.applyAll {} history) :=
    inOrder history List.prefix_rfl
  refine ⟨few, order, ?_, rfl⟩
  rw [order.counted, length_history]

end Renewing

end Netsieve
