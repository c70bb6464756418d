import Netsieve.Proofs.Evaluation.Agreement
import Netsieve.Proofs.Evaluation.Course

/-!
# `Netsieve.Proofs.Replay`: an engine is the replay of its history

A run is a row of uses of engines: they are changed, asked about transfers, and looked
at. What callbacks change in the course of an evaluation counts as well. The `history` of
an engine in a run has all changes of it in their order, whoever made them and through
whichever reference.

* `engine_run`: after a run an engine is what its history has made of it.
* `findings_padded`: if rules that are no longer in force are switched now and then, or by
  callbacks, that changes no answer.
* `run_replays`: what follows for an engine from its beginning.
-/

set_option autoImplicit false

namespace Netsieve

variable {σ : Signature}

/-- Something that is done with an engine.

- `change`: a rule is registered or switched, or all rules are taken out of force;
- `evaluate`: it is asked about a transfer;
- `size`: the rules in force are counted;
- `describe`: the rules in force are described;
- `inspect`: the diagnostic text is asked for. -/
inductive Use (σ : Signature) where
  | change (engine : EngineRef) (change : Engine.Change σ.Predicate σ.Supplier)
  | evaluate (engine : EngineRef) (direction : Direction) (e : Envelope)
  | size (engine : EngineRef)
  | describe (engine : EngineRef)
  | inspect (engine : EngineRef)

/-- What a use answers.

- `decided`: what was decided, or the panic that came instead;
- `counted`, `described`: the number of the rules in force, and their descriptions;
- `shown`: the diagnostic text. -/
inductive Finding where
  | decided (verdict : Except Panic Verdict)
  | counted (rules : Nat)
  | described (rules : List Description)
  | shown (text : List Char)

/-- What an evaluation answers. -/
def Finding.ofOutcome : Outcome σ Verdict → Finding
  | .ok verdict _ => .decided (.ok verdict)
  | .error p _ => .decided (.error p)

namespace Use

variable (cb : Callbacks σ)

/-- The world after a use. -/
def perform (w : World σ) : Use σ → World σ
  | .change engine step => worldAfter (engine.change step) w
  | .evaluate engine direction e => worldAfter (engine.evaluate cb direction e) w
  | _ => w

/-- The answer of a use, if it has one. -/
def finding? (w : World σ) : Use σ → Option Finding
  | .change _ _ => none
  | .evaluate engine direction e => some (.ofOutcome (engine.evaluate cb direction e w))
  | .size engine => some (.counted (w.engine engine).size)
  | .describe engine => some (.described (w.engine engine).describe)
  | .inspect engine => some (.shown (w.engine engine).inspect)

/-- The world after a row of uses. -/
def run (w : World σ) (uses : List (Use σ)) : World σ :=
  uses.foldl (perform cb) w

/-- The answers of a row of uses, in order. -/
def findings (w : World σ) : List (Use σ) → List Finding
  | [] => []
  | use :: rest => (use.finding? cb w).toList ++ findings (use.perform cb w) rest

variable {cb} {engine : EngineRef} (account : cb.Account engine)

/-- The changes that a use makes to an engine, by an account of the callbacks. -/
def changes (w : World σ) : Use σ → List (Engine.Change σ.Predicate σ.Supplier)
  | .change other step => if other = engine then [step] else []
  | .evaluate other direction e => (other.calls cb direction e w).flatMap account.made
  | _ => []

/-- The changes that a row of uses makes to an engine, in order. -/
def history (w : World σ) : List (Use σ) → List (Engine.Change σ.Predicate σ.Supplier)
  | [] => []
  | use :: rest => use.changes account w ++ history (use.perform cb w) rest

/-! ## The engine after a run -/

/-- A use changes an engine by what the account says of it. -/
theorem engine_perform (use : Use σ) (w : World σ) :
    (use.perform cb w).engine engine = (w.engine engine).applyAll (use.changes account w) := by
  cases use with
  | change other step =>
    obtain ⟨event, ends⟩ := change_eq other step w
    have after : perform cb w (.change other step) = _ := worldAfter_of_ok ends
    rw [after, World.engine_record, changes]
    split
    · next same =>
      rw [same, World.engine_setEngine_self]
      rfl
    · next different =>
      rw [World.engine_setEngine_of_ne _ _ different]
      rfl
  -- An evaluation changes the engine by its callbacks only.
  | evaluate other direction e =>
    exact engine_course account (course_evaluate cb other direction e w)
  | size | describe | inspect => rfl

/-- After a run an engine is what its history has made of it. -/
theorem engine_run (uses : List (Use σ)) (w : World σ) :
    (run cb w uses).engine engine = (w.engine engine).applyAll (history account w uses) := by
  induction uses generalizing w with
  | nil => rfl
  | cons use rest ih =>
    show (run cb (use.perform cb w) rest).engine engine = _
    rw [ih, engine_perform account, history, Engine.applyAll_append]

end Use

/-! ## Switching rules that are no longer in force -/

open World (Resembles)

/-- One row of uses is another one, and here and there a rule with a low serial is switched
as well. -/
inductive Padded (engine : EngineRef) (bound : Nat) : List (Use σ) → List (Use σ) → Prop where
  | nil : Padded engine bound [] []
  | use {uses padded : List (Use σ)} (use : Use σ) (rest : Padded engine bound uses padded) :
      Padded engine bound (use :: uses) (use :: padded)
  | switch {uses padded : List (Use σ)} {rule : Rule σ.Predicate σ.Supplier} (on : Bool)
      (old : rule.serial < bound) (rest : Padded engine bound uses padded) :
      Padded engine bound uses (.change engine (.switch rule on) :: padded)

section Padded

variable {engine : EngineRef} {bound : Nat} {cb cb' : Callbacks σ} {w w' : World σ}

/-- Outcomes that match are the same finding. -/
theorem ofOutcome_matches {R : World σ → World σ → Prop} {outcome outcome' : Outcome σ Verdict}
    (h : Outcome.Matches R outcome outcome') :
    Finding.ofOutcome outcome' = Finding.ofOutcome outcome := by
  cases h <;> rfl

/-- One use in two worlds that resemble each other has the same answer, and leaves two such
worlds. -/
theorem resembles_perform (agree : Callbacks.Agree (Resembles engine bound) cb cb')
    (same : Resembles engine bound w w') (use : Use σ) :
    use.finding? cb' w' = use.finding? cb w ∧
      Resembles engine bound (use.perform cb w) (use.perform cb' w') := by
  -- Of an engine that is only looked at, no more is told than of an engine like it.
  have look : ∀ {α : Type} (ref : EngineRef)
      (tell : Engine σ.Predicate σ.Supplier → α),
      (∀ e e' : Engine σ.Predicate σ.Supplier, e.Alike bound e' → tell e' = tell e) →
      tell (w'.engine ref) = tell (w.engine ref) := by
    intro α ref tell alike
    by_cases here : ref = engine
    · rw [here]
      exact alike _ _ same.engines
    · rw [same.others ref here]
  cases use with
  | change ref change =>
    exact ⟨rfl, world_matches (agrees_change ref change w w' same)⟩
  | evaluate ref direction e =>
    have ends := agrees_evaluate (Resembles.sight engine bound ref) agree direction e w w' same
    exact ⟨congrArg some (ofOutcome_matches ends), world_matches ends⟩
  | size ref =>
    exact ⟨look ref (fun e => some (Finding.counted e.size)) fun _ _ h => by rw [h.size], same⟩
  | describe ref =>
    exact ⟨look ref (fun e => some (Finding.described e.describe)) fun _ _ h => by rw [h.describe],
      same⟩
  | inspect ref =>
    exact ⟨look ref (fun e => some (Finding.shown e.inspect)) fun _ _ h => by rw [h.inspect], same⟩

/-- Switching rules that are no longer in force changes no answer. -/
theorem findings_padded (agree : Callbacks.Agree (Resembles engine bound) cb cb')
    {uses padded : List (Use σ)} (h : Padded engine bound uses padded)
    (same : Resembles engine bound w w') :
    Use.findings cb' w' padded = Use.findings cb w uses := by
  induction h generalizing w w' with
  | nil => rfl
  | use use _ ih =>
    obtain ⟨finding, left⟩ := resembles_perform agree same use
    rw [Use.findings, Use.findings, finding, ih left]
  | switch on old _ ih => exact ih (same.switch old on)

end Padded

/-! ## An engine from its beginning -/

/-- A new engine has no rules. -/
theorem engine_addEngine (w : World σ) : w.addEngine.2.engine w.addEngine.1 = {} := by
  show (w.engines.push default).get w.engines.size = {}
  rw [Table.get_push, if_pos rfl]
  rfl

/-- A new engine is at any time the replay of its history, whoever changed it.

The rules in force are those registered since the last reset, in that order and with their
contents, and each rule is on or off as it was last switched, by whatever handle, and on
if it never was (`Replays`). So switching off a rule that is on, and on again, restores
the engine, and two rules can be switched in either order. Once rules have been taken out
of force, switching them changes nothing that is found later: neither by the run itself,
where that is done between other uses, nor by callbacks in the course of evaluations. All
that is asked of callbacks for this is that they do not look at those flags themselves. -/
theorem run_replays (cb : Callbacks σ) (w : World σ) (account : cb.Account w.addEngine.1)
    (uses : List (Use σ)) :
    let engine := w.addEngine.1
    let history := Use.history account w.addEngine.2 uses
    let now := Use.run cb w.addEngine.2 uses
    Engine.Replays history (now.engine engine) ∧
    (∀ rule, (now.engine engine).isEnabled rule = true →
      (Use.run cb now [.change engine (.switch rule false),
        .change engine (.switch rule true)]).engine engine = now.engine engine) ∧
    (∀ (rule other : Rule σ.Predicate σ.Supplier) on on', rule.serial ≠ other.serial →
      (Use.run cb now [.change engine (.switch rule on),
          .change engine (.switch other on')]).engine engine
        = (Use.run cb now [.change engine (.switch other on'),
          .change engine (.switch rule on)]).engine engine) ∧
    ∀ before after, history = before ++ .reset :: after →
      ∀ cb', Callbacks.Agree (Resembles engine (Engine.registered before).length) cb cb' →
      ∀ later padded, Padded engine (Engine.registered before).length later padded →
        Use.findings cb' now padded = Use.findings cb now later := by
  intro engine history now
  -- The new engine is empty, so that it is the replay of its history.
  have replay : now.engine engine = Engine.applyAll {} history := by
    rw [← engine_addEngine w]
    exact Use.engine_run account uses w.addEngine.2
  -- Using a handle changes the engine as replaying the change does.
  have both : ∀ first second, (Use.run cb now [.change engine first,
      .change engine second]).engine engine = ((now.engine engine).apply first).apply second := by
    intro first second
    show (worldAfter (engine.change second) (worldAfter (engine.change first) now)).engine engine
      = _
    rw [engine_change, engine_change]
  refine ⟨?_, fun rule on => ?_, fun rule other on on' different => ?_, ?_⟩
  · rw [replay]
    exact Engine.replays_applyAll history
  · rw [both]
    show ((now.engine engine).switch rule false).switch rule true = now.engine engine
    rw [Engine.switch_switch, ← on, Engine.switch_isEnabled]
  · rw [both, both]
    exact Engine.switch_comm (now.engine engine) on on' different
  · intro before after split cb' agree later padded h
    -- After the reset, every rule has a serial number that was not known before.
    have recent : (now.engine engine).Recent (Engine.registered before).length := by
      rw [replay, split]
      exact Engine.recent_applyAll before after
    exact findings_padded agree h (.refl recent)

/-! ## A predicate that takes rules out of force -/

namespace Clearing

open Steady (signature letter)

/-- The rule that is registered first. -/
def first : Rule Bool Duration := Steady.rule .any (some true) .drop 0

/-- A predicate that answers with yes, and one that takes all rules of the first engine out
of force, does something more, and says no. -/
def callbacks (more : Run signature Unit) : Callbacks signature where
  test clears _ := if clears then do
      EngineRef.change ⟨0⟩ .reset
      more
      pure false
    else pure true
  supply answer _ := pure answer
  accept _ _ _ := pure ()

/-- The account of these callbacks if there is nothing more to do. -/
def account : (callbacks (pure ())).Account ⟨0⟩ where
  tested clears _ _ := if clears then [.reset] else []
  supplied _ _ _ := []
  tested_eq clears e w := by
    cases clears with
    | true => exact engine_change ⟨0⟩ .reset w
    | false => rfl
  supplied_eq _ _ _ := rfl

/-- It makes no difference if they switch off the first rule as well, once it is no longer in
force. -/
theorem callbacks_agree :
    Callbacks.Agree (Resembles ⟨0⟩ 2) (callbacks (pure ()))
      (callbacks (EngineRef.change ⟨0⟩ (.switch first false))) where
  test clears e := by
    cases clears with
    | false => exact .pure true
    | true =>
      refine .bind (agrees_change ⟨0⟩ .reset) fun _ => ?_
      refine .bind (fun w w' same => ?_) fun _ => .pure false
      obtain ⟨event, ends⟩ := change_eq ⟨0⟩ (.switch first false) w'
      have left := same.switch (show first.serial < 2 by decide) false
      rw [worldAfter_of_ok ends] at left
      rw [ends]
      exact .ok () left
  supply answer _ := .pure answer

/-- A world without engines. -/
def world : World signature where
  memory := []

/-- Two rules are registered, an evaluation takes them out of force, and one more rule is
registered. -/
def uses : List (Use signature) :=
  [.change ⟨0⟩ (.register first.toRuleSpec),
    .change ⟨0⟩ (.register (Steady.rule .any none .drop 1).toRuleSpec),
    .evaluate ⟨0⟩ .outbound letter,
    .change ⟨0⟩ (.register first.toRuleSpec)]

/-- The rule that is registered last. -/
def last : Rule Bool Duration := { first with serial := 2 }

/-- The last rule is the only one in force, and switching the first one, between uses or in an
evaluation, changes nothing that is found. -/
theorem run_replays_clearing :
    let now := Use.run (callbacks (pure ())) world.addEngine.2 uses
    let later : List (Use signature) := [.evaluate ⟨0⟩ .outbound letter, .size ⟨0⟩]
    Engine.Replays (Use.history account world.addEngine.2 uses) (now.engine ⟨0⟩) ∧
    now.engine ⟨0⟩ = ⟨[last], #[true, true, true]⟩ ∧
    (now.engine ⟨0⟩).isEnabled last = true ∧
    (Use.run (callbacks (pure ())) now [.change ⟨0⟩ (.switch last false),
      .change ⟨0⟩ (.switch last true)]).engine ⟨0⟩ = now.engine ⟨0⟩ ∧
    (Use.run (callbacks (pure ())) now [.change ⟨0⟩ (.switch first false),
        .change ⟨0⟩ (.switch last false)]).engine ⟨0⟩
      = (Use.run (callbacks (pure ())) now [.change ⟨0⟩ (.switch last false),
        .change ⟨0⟩ (.switch first false)]).engine ⟨0⟩ ∧
    Use.findings (callbacks (EngineRef.change ⟨0⟩ (.switch first false))) now
        (.change ⟨0⟩ (.switch first false) :: later)
      = Use.findings (callbacks (pure ())) now later := by
  intro now later
  obtain ⟨replays, restores, commutes, stale⟩ :=
    run_replays (callbacks (pure ())) world account uses
  refine ⟨replays, rfl, rfl, restores last rfl, commutes first last _ _ (by decide), ?_⟩
  refine stale [.register first.toRuleSpec,
    .register (Steady.rule .any none .drop 1).toRuleSpec] [.register first.toRuleSpec] rfl _
    callbacks_agree later _ ?_
  exact .switch false (by decide) (.use _ (.use _ .nil))

end Clearing

end Netsieve
