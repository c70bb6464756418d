import Netsieve.Proofs.Delivery.Traffic
import Netsieve.Scenario.Callbacks

/-!
# `Netsieve.Proofs.Scenario.Upkeep`: what callbacks of a scenario can do

A callback of a scenario can do everything that a scenario does between two moments: it
can register rules and nodes, send and deliver messages, change sinks and give up inboxes,
and bring other callbacks about. All this is made of a few changes of the world. `Upkeep`
says of a relation that it allows for each of them, and then all callbacks keep to it, to
every depth (`Upkeep.callbacks_obey`).

A step keeps to it if the callbacks do that it brings about (`leads_perform`). Conditions,
plans and reactions follow by recursion on how they are written, and the callbacks by
induction on the depth.

What is proved elsewhere about evaluations and deliveries is about all callbacks that put
parcels on their way at most (`Callbacks.Lawful`), or that do nothing to an engine but
change it (`Callbacks.Account`). The callbacks of a scenario are such callbacks, to every
depth.
-/

set_option autoImplicit false

namespace Netsieve.Scenario

/-- A relation that allows for all that a scenario does between two moments.

- `memory`: the scenario remembers something;
- `engines`: an engine is added;
- `networks`: a network is added;
- `changes`: an engine is changed;
- `nodes`: a node is registered;
- `inboxes`: messages are put into an inbox or taken out of it, or it is given up;
- `sinks`: a sink is installed or taken away;
- `departs`: a parcel is put on its way. -/
structure Upkeep (R : World script → World script → Prop) : Prop extends Frame R where
  memory : ∀ w memory, R w { w with memory }
  engines : ∀ w : World script, R w w.addEngine.2
  networks : ∀ (w : World script) engine latency, R w (w.addNetwork engine latency).2
  changes : ∀ (engine : EngineRef) change, Leads R (engine.change change : Program Unit)
  nodes : ∀ (w : World script) (network : NetworkRef) id address changed,
    (w.network network).register id address = .ok changed → R w (w.setNetwork network changed)
  inboxes : ∀ (w : World script) network id inbox,
    R w (w.setNetwork network ((w.network network).setInbox id inbox))
  sinks : ∀ (w : World script) network sink,
    R w (w.setNetwork network { w.network network with sink })
  departs : ∀ (w : World script) (p : Pending), w.clock < p.due →
    R w { w with pending := w.pending ++ [p] }

namespace Upkeep

variable {R : World script → World script → Prop} (upkeep : Upkeep R) {α β : Type}
include upkeep

/-! ## What steps are made of -/

/-- To answer at once does nothing. -/
theorem leads_pure (a : α) : Leads R (pure a : Program α) :=
  Leads.pure upkeep.toFrame a

/-- One program after the other keeps to what both keep to. -/
theorem leads_bind {first : Program α} {next : α → Program β} (hfirst : Leads R first)
    (hnext : ∀ a, Leads R (next a)) : Leads R (first >>= next) :=
  Leads.bind upkeep.toFrame hfirst hnext

/-- A panic does nothing to the world. -/
theorem leads_panic (text : String) : Leads R (panic text : Program α) :=
  fun w => upkeep.refl w

/-- To look at the world does nothing to it. -/
theorem leads_get : Leads R (get : Program (World script)) :=
  fun w => upkeep.refl w

/-- To look at what is remembered does nothing. -/
theorem leads_stage : Leads R stage :=
  fun w => upkeep.refl w

/-- To remember something touches the memory alone. -/
theorem leads_remember (change : Stage → Stage) : Leads R (remember change) :=
  fun w => upkeep.memory w _

/-- An entry in the log of the scenario is something remembered. -/
theorem leads_log (entry : LogEntry) : Leads R (log entry) :=
  upkeep.leads_remember _

/-- A new counter is something remembered. -/
theorem leads_newCounter : Leads R newCounter := by
  refine upkeep.leads_bind upkeep.leads_stage fun s => ?_
  exact upkeep.leads_bind (upkeep.leads_remember _) fun _ => upkeep.leads_pure _

/-- A counted call is something remembered. -/
theorem leads_countCall (counter : Nat) : Leads R (countCall counter) := by
  refine upkeep.leads_bind upkeep.leads_stage fun s => ?_
  exact upkeep.leads_bind (upkeep.leads_remember _) fun _ => upkeep.leads_pure _

/-- To give up an inbox touches that inbox alone. -/
theorem leads_closeInbox (inbox : InboxRef) : Leads R (closeInbox inbox) :=
  fun w => upkeep.inboxes w inbox.network inbox.id .closed

/-- To register a rule is one change of an engine. -/
theorem leads_register (engine : EngineRef) (spec : RuleSpec Predicate Supplier) :
    Leads R (engine.register spec : Program (RuleHandle Predicate Supplier)) :=
  fun w => upkeep.changes engine (.register spec) w

/-- To take all rules out of force is one change of an engine. -/
theorem leads_reset (engine : EngineRef) : Leads R (engine.reset : Program Unit) :=
  fun w => upkeep.changes engine .reset w

/-- To switch a rule is one change of an engine. -/
theorem leads_switch (handle : RuleHandle Predicate Supplier) (on : Bool) :
    Leads R (handle.switch on : Program Unit) :=
  fun w => upkeep.changes handle.engine (.switch handle.rule on) w

/-- A direct delivery touches an inbox, and otherwise leaves a note. -/
theorem leads_direct (network : NetworkRef) (address : Endpoint) (e : Envelope) :
    Leads R (network.deliver address e : Program Bool) :=
  leads_deliver network upkeep.toFrame upkeep.inboxes address e

/-- A loop keeps to what its body keeps to. -/
theorem leads_forM (items : List α) {each : α → Program Unit} (h : ∀ a, Leads R (each a)) :
    Leads R (items.forM each) := by
  induction items with
  | nil => exact upkeep.leads_pure _
  | cons a rest ih => exact upkeep.leads_bind (h a) fun _ => ih

/-- A loop with a state keeps to what its body keeps to. -/
theorem leads_foldlM (items : List β) {each : α → β → Program α}
    (h : ∀ a b, Leads R (each a b)) (a : α) : Leads R (items.foldlM each a) := by
  induction items generalizing a with
  | nil => exact upkeep.leads_pure _
  | cons b rest ih => exact upkeep.leads_bind (h a b) fun a => ih a

/-- A loop with results keeps to what its body keeps to. -/
theorem leads_mapM (items : List α) {each : α → Program β} (h : ∀ a, Leads R (each a)) :
    Leads R (items.mapM each) := by
  induction items with
  | nil => exact upkeep.leads_pure _
  | cons a rest ih =>
    rw [List.mapM_cons]
    refine upkeep.leads_bind (h a) fun b => ?_
    exact upkeep.leads_bind ih fun bs => upkeep.leads_pure _

/-! ## What names stand for -/

section Names

variable (name : String)

/-- A name that stands for no engine is answered, and nothing is done. -/
theorem leads_withEngine {next : EngineRef → Program Answer}
    (h : ∀ engine, Leads R (next engine)) : Leads R (withEngine name next) := by
  refine upkeep.leads_bind upkeep.leads_stage fun s => ?_
  split
  · exact h _
  · exact upkeep.leads_pure _

/-- A name that stands for no network is answered, and nothing is done. -/
theorem leads_withNetwork {next : NetworkRef → Program Answer}
    (h : ∀ network, Leads R (next network)) : Leads R (withNetwork name next) := by
  refine upkeep.leads_bind upkeep.leads_stage fun s => ?_
  split
  · exact h _
  · exact upkeep.leads_pure _

/-- A name that stands for no inbox is answered, and nothing is done. -/
theorem leads_withInbox {next : InboxRef → Program Answer}
    (h : ∀ inbox, Leads R (next inbox)) : Leads R (withInbox name next) := by
  refine upkeep.leads_bind upkeep.leads_stage fun s => ?_
  split
  · exact h _
  · exact upkeep.leads_pure _

/-- A draft is taken out of the memory before anything is done with it. -/
theorem leads_withDraft {next : EngineRef → Draft Predicate → Program Answer}
    (h : ∀ engine draft, Leads R (next engine draft)) : Leads R (withDraft name next) := by
  refine upkeep.leads_bind upkeep.leads_stage fun s => ?_
  split
  · exact upkeep.leads_bind (upkeep.leads_remember _) fun _ => h _ _
  · exact upkeep.leads_pure _

/-- A text that could not be read is answered, and nothing is done. -/
theorem leads_withRead {result : Except EndpointError α} {next : α → Program Answer}
    (h : ∀ a, Leads R (next a)) : Leads R (withRead result next) := by
  cases result with
  | ok a => exact h a
  | error _ => exact upkeep.leads_pure _

/-- A name for an engine is something remembered. -/
theorem leads_nameEngine (engine : EngineRef) : Leads R (nameEngine name engine) :=
  upkeep.leads_bind (upkeep.leads_remember _) fun _ => upkeep.leads_pure _

/-- A name for a network is something remembered. -/
theorem leads_nameNetwork (network : NetworkRef) : Leads R (nameNetwork name network) :=
  upkeep.leads_bind (upkeep.leads_remember _) fun _ => upkeep.leads_pure _

/-- A name for an inbox is remembered, and the inbox that had it is given up. -/
theorem leads_nameInbox (inbox : InboxRef) : Leads R (nameInbox name inbox) := by
  refine upkeep.leads_bind upkeep.leads_stage fun s => ?_
  split
  · exact upkeep.leads_bind (upkeep.leads_closeInbox _) fun _ => upkeep.leads_remember _
  · exact upkeep.leads_remember _

/-- A draft that is kept is something remembered. -/
theorem leads_keepDraft (engine : EngineRef) (draft : Draft Predicate) :
    Leads R (keepDraft name engine draft) :=
  upkeep.leads_bind (upkeep.leads_remember _) fun _ => upkeep.leads_pure _

end Names

/-! ## Drafts and handles -/

/-- A link gives a draft a part, for which it may take a counter, or shows the draft in the
log. -/
theorem leads_link (rule : String) (draft : Draft Predicate) (link : Link) :
    Leads R (link.extend rule draft) := by
  have given : ∀ part, Leads R (give draft part) := by
    intro part
    unfold give
    split
    · exact upkeep.leads_pure _
    · exact upkeep.leads_panic _
  cases link with
  | direction inbound => exact given _
  | senders ids => exact given _
  | receivers ids => exact given _
  | content condition => exact upkeep.leads_bind upkeep.leads_newCounter fun _ => given _
  | shown => exact upkeep.leads_bind (upkeep.leads_log _) fun _ => upkeep.leads_pure _

/-- Links one after the other do what each of them does. -/
theorem leads_extendAll (rule : String) (draft : Draft Predicate) (chain : List Link) :
    Leads R (extendAll rule draft chain) :=
  upkeep.leads_foldlM chain (upkeep.leads_link rule) draft

/-- To bring an action into use takes a counter at most. -/
theorem leads_useAction (rule : String) (action : Action Plan) :
    Leads R (useAction rule action) := by
  cases action with
  | drop => exact upkeep.leads_pure _
  | delay source =>
    cases source with
    | fixed d => exact upkeep.leads_pure _
    | computed plan =>
      exact upkeep.leads_bind upkeep.leads_newCounter fun _ => upkeep.leads_pure _

/-- An answer about a handle only looks at the world. -/
theorem leads_handleAnswer (handle : RuleHandle Predicate Supplier) (withText : Bool) :
    Leads R (handleAnswer handle withText) :=
  upkeep.leads_bind upkeep.leads_get fun _ => upkeep.leads_pure _

/-- To finish a draft registers its rule, and remembers the handle. -/
theorem leads_finish (name : String) (engine : EngineRef) (draft : Draft Predicate)
    (action : Option (Action Plan)) : Leads R (finish name engine draft action) := by
  cases action with
  | none => exact upkeep.leads_pure _
  | some action =>
    refine upkeep.leads_bind (upkeep.leads_useAction name action) fun action => ?_
    refine upkeep.leads_bind (upkeep.leads_register engine _) fun handle => ?_
    exact upkeep.leads_bind (upkeep.leads_remember _) fun _ => upkeep.leads_handleAnswer _ _

/-! ## Remainders and reinjection -/

/-- A remainder is worked out, or there is a panic because the modulus is zero. -/
theorem leads_leaves (n modulus remainder : Nat) : Leads R (leaves n modulus remainder) := by
  unfold leaves
  split
  · exact upkeep.leads_panic _
  · exact upkeep.leads_pure _

/-- Reinjection is a direct delivery, if the network is still known. -/
theorem leads_reinjectInto (network : String) (address : Endpoint) (e : Envelope) :
    Leads R (Reaction.reinjectInto network address e) := by
  refine upkeep.leads_bind upkeep.leads_stage fun s => ?_
  split
  · exact upkeep.leads_bind (upkeep.leads_direct _ address e) fun _ => upkeep.leads_pure _
  · exact upkeep.leads_pure _

/-! ## Steps -/

section Step

variable {cb : Callbacks script} (obeys : cb.Obeys R)
include obeys

/-- An evaluation does what predicates and suppliers do, and leaves a note. -/
theorem leads_evaluation (engine : EngineRef) (direction : Direction) (e : Envelope) :
    Leads R (engine.evaluate cb direction e) :=
  leads_evaluate upkeep.toFrame obeys.within engine direction e

/-- The question for permission does what the evaluation does. -/
theorem leads_permit (engine : EngineRef) (direction : Direction) (e : Envelope) :
    Leads R (engine.permit cb direction e) :=
  upkeep.leads_bind (upkeep.leads_evaluation obeys engine direction e) fun _ =>
    upkeep.leads_pure _

/-- Every step keeps to what callbacks keep to. -/
theorem leads_perform (step : Step) : Leads R (step.perform cb) := by
  -- Each step is made of parts that lead from world to world, and the relation is kept by
  -- each.
  cases step with
  | addEngine name =>
    refine Leads.get_bind fun w => ?_
    exact upkeep.trans (upkeep.engines w) (upkeep.leads_nameEngine name _ _)
  | aliasEngine engine name =>
    exact upkeep.leads_withEngine engine fun engine => upkeep.leads_nameEngine name engine
  | addRule name engine verbs chain action =>
    refine upkeep.leads_withEngine engine fun engine => ?_
    refine upkeep.leads_bind (upkeep.leads_extendAll name _ chain) fun draft => ?_
    exact upkeep.leads_finish name engine draft action
  | startDraft name engine verbs chain =>
    refine upkeep.leads_withEngine engine fun engine => ?_
    refine upkeep.leads_bind (upkeep.leads_extendAll name _ chain) fun draft => ?_
    exact upkeep.leads_keepDraft name engine draft
  | extendDraft name chain =>
    refine upkeep.leads_withDraft name fun engine draft => ?_
    refine upkeep.leads_bind (upkeep.leads_extendAll name draft chain) fun draft => ?_
    exact upkeep.leads_keepDraft name engine draft
  | finishDraft name chain action =>
    refine upkeep.leads_withDraft name fun engine draft => ?_
    refine upkeep.leads_bind (upkeep.leads_extendAll name draft chain) fun draft => ?_
    exact upkeep.leads_finish name engine draft action
  | useHandle name calls withText =>
    refine upkeep.leads_bind upkeep.leads_stage fun s => ?_
    split
    · refine upkeep.leads_bind (upkeep.leads_forM calls (upkeep.leads_switch _)) fun _ => ?_
      exact upkeep.leads_handleAnswer _ withText
    · exact upkeep.leads_pure _
  | evaluate engine direction transfer =>
    refine upkeep.leads_withRead fun message => upkeep.leads_withEngine engine fun engine => ?_
    exact upkeep.leads_bind (upkeep.leads_evaluation obeys engine direction _) fun _ =>
      upkeep.leads_pure _
  | permit engine direction transfer =>
    refine upkeep.leads_withRead fun message => upkeep.leads_withEngine engine fun engine => ?_
    exact upkeep.leads_bind (upkeep.leads_permit obeys engine direction _) fun _ =>
      upkeep.leads_pure _
  | matrix engine direction nodes message =>
    refine upkeep.leads_withRead fun message => upkeep.leads_withEngine engine fun engine => ?_
    refine upkeep.leads_bind (upkeep.leads_mapM nodes fun sender => ?_) fun _ =>
      upkeep.leads_pure _
    exact upkeep.leads_mapM nodes fun receiver =>
      upkeep.leads_evaluation obeys engine direction _
  | reset engine =>
    refine upkeep.leads_withEngine engine fun engine => ?_
    exact upkeep.leads_bind (upkeep.leads_reset engine) fun _ => upkeep.leads_pure _
  | size engine =>
    refine upkeep.leads_withEngine engine fun engine => ?_
    exact upkeep.leads_bind upkeep.leads_get fun _ => upkeep.leads_pure _
  | describe engine =>
    refine upkeep.leads_withEngine engine fun engine => ?_
    exact upkeep.leads_bind upkeep.leads_get fun _ => upkeep.leads_pure _
  | inspect engine =>
    refine upkeep.leads_withEngine engine fun engine => ?_
    exact upkeep.leads_bind upkeep.leads_get fun _ => upkeep.leads_pure _
  | addNetwork network engine latency =>
    refine upkeep.leads_withEngine engine fun engine => Leads.get_bind fun w => ?_
    exact upkeep.trans (upkeep.networks w engine latency)
      (upkeep.leads_nameNetwork network _ _)
  | aliasNetwork network name =>
    exact upkeep.leads_withNetwork network fun network => upkeep.leads_nameNetwork name network
  | dropNetwork network =>
    refine upkeep.leads_bind upkeep.leads_stage fun s => ?_
    exact upkeep.leads_bind (upkeep.leads_remember _) fun _ => upkeep.leads_pure _
  | networkEngine network name =>
    refine upkeep.leads_withNetwork network fun network => ?_
    exact upkeep.leads_bind upkeep.leads_get fun _ => upkeep.leads_nameEngine name _
  | networkInfo network =>
    refine upkeep.leads_withNetwork network fun network => ?_
    exact upkeep.leads_bind upkeep.leads_get fun _ => upkeep.leads_pure _
  | addNode network id address inbox =>
    refine upkeep.leads_withRead fun address => ?_
    refine upkeep.leads_withNetwork network fun network => ?_
    refine upkeep.leads_bind
      (Netsieve.leads_register network upkeep.toFrame upkeep.nodes id address) fun answer => ?_
    cases answer with
    | error refusal => exact upkeep.leads_pure _
    | ok _ =>
      exact upkeep.leads_bind (upkeep.leads_nameInbox _ _) fun _ => upkeep.leads_pure _
  | addressOf network id =>
    refine upkeep.leads_withNetwork network fun network => ?_
    exact upkeep.leads_bind upkeep.leads_get fun _ => upkeep.leads_pure _
  | ownerOf network address =>
    refine upkeep.leads_withRead fun address => ?_
    refine upkeep.leads_withNetwork network fun network => ?_
    exact upkeep.leads_bind upkeep.leads_get fun _ => upkeep.leads_pure _
  | send network transfer =>
    refine upkeep.leads_withRead fun message => ?_
    refine upkeep.leads_withNetwork network fun network => ?_
    refine upkeep.leads_bind
      (leads_send network _ upkeep.toFrame obeys upkeep.inboxes upkeep.departs) fun answer => ?_
    cases answer with
    | ok delivery => exact upkeep.leads_pure _
    | error refusal => exact upkeep.leads_pure _
  | deliver network address transfer =>
    refine upkeep.leads_withRead fun address => upkeep.leads_withRead fun message => ?_
    refine upkeep.leads_withNetwork network fun network => ?_
    exact upkeep.leads_bind (upkeep.leads_direct network address _) fun _ =>
      upkeep.leads_pure _
  | setSink network reaction =>
    refine upkeep.leads_withNetwork network fun network w => ?_
    exact upkeep.trans (upkeep.sinks w network _) (upkeep.record _ .sinkInstalled)
  | clearSink network =>
    refine upkeep.leads_withNetwork network fun network w => ?_
    exact upkeep.trans (upkeep.sinks w network none) (upkeep.record _ .sinkCleared)
  | dropInbox inbox =>
    refine upkeep.leads_bind upkeep.leads_stage fun s => ?_
    split
    · refine upkeep.leads_bind (upkeep.leads_closeInbox _) fun _ => ?_
      exact upkeep.leads_bind (upkeep.leads_remember _) fun _ => upkeep.leads_pure _
    · exact upkeep.leads_pure _
  | tryReceive inbox =>
    refine upkeep.leads_withInbox inbox fun inbox => Leads.get_bind fun w => ?_
    split
    · next e changed taken =>
      obtain ⟨rest, -, rfl⟩ := Network.dequeue?_eq_some taken
      exact upkeep.inboxes w inbox.network inbox.id _
    · exact upkeep.refl w
  | drain inbox =>
    exact upkeep.leads_withInbox inbox fun inbox w => upkeep.inboxes w inbox.network inbox.id _

/-- Steps one after the other keep to what each of them keeps to. -/
theorem leads_performAll (steps : List Step) : Leads R (Step.performAll cb steps) :=
  upkeep.leads_forM steps fun step =>
    upkeep.leads_bind (upkeep.leads_perform obeys step) fun _ => upkeep.leads_log _

end Step

/-! ## Conditions, plans and reactions -/

section Callback

variable {cb : Callbacks script} (obeys : cb.Obeys R)
include obeys

/-- A question for permission by name is an evaluation, if the engine is known. -/
theorem leads_permitted (engine : String) (direction : Direction) (e : Envelope) :
    Leads R (permitted cb engine direction e) := by
  refine upkeep.leads_bind upkeep.leads_stage fun s => ?_
  split
  · exact upkeep.leads_permit obeys _ direction e
  · exact upkeep.leads_pure _

end Callback

mutual

/-- A condition keeps to what the steps in it keep to. -/
theorem leads_holds {cb : Callbacks script} (obeys : cb.Obeys R) (call : Nat) (e : Envelope) :
    ∀ condition : Condition, Leads R (condition.holds cb call e)
  | .const _ | .payloadIs _ | .payloadStarts _ | .payloadContains _ | .payloadAtLeast _
  | .verbIs _ | .versionAtLeast _ | .originIs _ | .fromPortIs _ | .senderIs _ | .receiverIs _
  | .senderBelowReceiver | .callBelow _ => upkeep.leads_pure _
  | .idModulo modulus remainder => upkeep.leads_leaves _ modulus remainder
  | .callModulo modulus remainder => upkeep.leads_leaves _ modulus remainder
  | .negation of => upkeep.leads_bind (leads_holds obeys call e of) fun _ => upkeep.leads_pure _
  | .all of => leads_allHold obeys call e of
  | .any of => leads_anyHolds obeys call e of
  | .panic text => upkeep.leads_panic text
  | .permitted engine direction _ => upkeep.leads_permitted obeys engine direction _
  | .perform steps following =>
    upkeep.leads_bind (upkeep.leads_performAll obeys steps) fun _ =>
      leads_holds obeys call e following

/-- Conditions that must all hold are asked one after the other. -/
theorem leads_allHold {cb : Callbacks script} (obeys : cb.Obeys R) (call : Nat) (e : Envelope) :
    ∀ conditions : List Condition, Leads R (Condition.allHold cb call e conditions)
  | [] => upkeep.leads_pure _
  | c :: cs => by
    refine upkeep.leads_bind (leads_holds obeys call e c) fun value => ?_
    cases value with
    | true => exact leads_allHold obeys call e cs
    | false => exact upkeep.leads_pure _

/-- Conditions one of which must hold are asked one after the other. -/
theorem leads_anyHolds {cb : Callbacks script} (obeys : cb.Obeys R) (call : Nat) (e : Envelope) :
    ∀ conditions : List Condition, Leads R (Condition.anyHolds cb call e conditions)
  | [] => upkeep.leads_pure _
  | c :: cs => by
    refine upkeep.leads_bind (leads_holds obeys call e c) fun value => ?_
    cases value with
    | true => exact upkeep.leads_pure _
    | false => exact leads_anyHolds obeys call e cs

end

/-- A plan keeps to what the steps in it keep to. -/
theorem leads_delay {cb : Callbacks script} (obeys : cb.Obeys R) (call : Nat) (e : Envelope) :
    ∀ plan : Plan, Leads R (plan.delay cb call e)
  | .const _ | .linear _ | .sequence _ => upkeep.leads_pure _
  | .choose test yes no => by
    refine upkeep.leads_bind (upkeep.leads_holds obeys call e test) fun value => ?_
    cases value with
    | true => exact leads_delay obeys call e yes
    | false => exact leads_delay obeys call e no
  | .panic text => upkeep.leads_panic text
  | .perform steps following =>
    upkeep.leads_bind (upkeep.leads_performAll obeys steps) fun _ =>
      leads_delay obeys call e following

section Callback

variable {cb : Callbacks script} (obeys : cb.Obeys R)
include obeys

/-- A reaction keeps to what the steps in it keep to. -/
theorem leads_take (network : String) (address : Endpoint) (e : Envelope) (reaction : Reaction) :
    Leads R (reaction.take cb network address e) := by
  have reinjected : ∀ address, Leads R (do
      log (.reinjected (← Reaction.reinjectInto network address e))) := fun address =>
    upkeep.leads_bind (upkeep.leads_reinjectInto network address e) fun _ => upkeep.leads_log _
  cases reaction with
  | keep => exact upkeep.leads_pure _
  | reinject text =>
    cases text with
    | none => exact reinjected address
    | some text =>
      dsimp only [Reaction.take]
      split
      · exact reinjected _
      · exact upkeep.leads_log _
  | panic text => exact upkeep.leads_panic text
  -- Whether the steps are performed may depend on a test, which itself may run steps.
  | perform test steps =>
    have performed : ∀ wanted : Bool,
        Leads R (if wanted then Step.performAll cb steps else pure ()) := by
      intro wanted
      cases wanted with
      | true => exact upkeep.leads_performAll obeys steps
      | false => exact upkeep.leads_pure _
    cases test with
    | none => exact performed true
    | some test => exact upkeep.leads_bind (upkeep.leads_holds obeys 0 e test) performed

/-- Callbacks keep to what those keep to that their steps may bring about. -/
theorem callbacksOver_obey : (callbacksOver cb).Obeys R where
  within := by
    refine ⟨fun predicate e => ?_, fun supplier e => ?_⟩
    · refine upkeep.leads_bind (upkeep.leads_countCall _) fun call => ?_
      exact upkeep.leads_bind (upkeep.leads_log _) fun _ => upkeep.leads_holds obeys call e _
    · refine upkeep.leads_bind (upkeep.leads_countCall _) fun call => ?_
      exact upkeep.leads_bind (upkeep.leads_log _) fun _ => upkeep.leads_delay obeys call e _
  accept sink address e :=
    upkeep.leads_bind (upkeep.leads_log _) fun _ => upkeep.leads_take obeys sink.network address e _

end Callback

/-- Whatever the callbacks of a scenario do, and however deep they are nested, they keep to
every relation that allows for what a scenario does. -/
theorem callbacks_obey (depth : Nat) : (callbacks depth).Obeys R := by
  induction depth with
  | zero =>
    have exhausted : ∀ {α : Type}, Leads R (panic "callbacks are nested too deep" : Program α) :=
      upkeep.leads_panic _
    exact ⟨⟨fun _ _ => exhausted, fun _ _ => exhausted⟩, fun _ _ _ => exhausted⟩
  | succ depth ih =>
    have outer := upkeep.callbacksOver_obey ih
    exact ⟨⟨outer.within.test, outer.within.supply⟩, outer.accept⟩

end Upkeep

/-! ## The callbacks of a scenario keep to the rules -/

open World (Extends)

/-- Between two moments no time passes, and nothing leaves its way. -/
theorem extends_upkeep : Upkeep Extends where
  toFrame := Extends.frame
  memory _ _ := .of_same rfl rfl
  engines _ := .of_same rfl rfl
  networks _ _ _ := .of_same rfl rfl
  changes engine change w := .of_calm (calm_change engine change w)
  nodes _ _ _ _ _ _ := .of_same rfl rfl
  inboxes _ _ _ _ := .of_same rfl rfl
  sinks _ _ _ := .of_same rfl rfl
  departs w p later := by
    refine .of_pending rfl rfl fun q hq => ?_
    rw [List.mem_singleton.mp hq]
    exact later

/-- The callbacks of a scenario put parcels on their way at most. -/
theorem callbacks_lawful (depth : Nat) : (callbacks depth).Lawful :=
  extends_upkeep.callbacks_obey depth

/-- Between two moments an engine changes by changes at most. -/
theorem changed_upkeep (engine : EngineRef) : Upkeep engine.Changed where
  toFrame := EngineRef.Changed.frame
  memory _ _ := .of_same rfl
  -- A new engine has no rules, and what a reference to nothing means has none either.
  engines w := .of_same (Table.get_push_default w.engines engine.index)
  networks _ _ _ := .of_same rfl
  changes other change := EngineRef.Changed.of_change other change
  nodes _ _ _ _ _ _ := .of_same rfl
  inboxes _ _ _ _ := .of_same rfl
  sinks _ _ _ := .of_same rfl
  departs _ _ _ := .of_same rfl

/-- There is an account of what the callbacks of a scenario do to an engine. -/
noncomputable def callbacksAccount (depth : Nat) (engine : EngineRef) :
    (callbacks depth).Account engine :=
  ((changed_upkeep engine).callbacks_obey depth).within.account

end Netsieve.Scenario
