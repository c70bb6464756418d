import Netsieve.Scenario.Stage

/-!
# `Netsieve.Scenario.Perform`: performing a step

`Step.perform` carries out one step, given what the callbacks do. It does not look
into callbacks itself, which is why it needs no recursion: a rule is registered
with its condition as data, and a step inside that condition is performed when the
condition is called.

The addresses in a step are read before its names are looked up. A step in which
both are wrong is answered with what is wrong about the address.
-/

set_option autoImplicit false

namespace Netsieve.Scenario

/-- Gives one part to the draft of a rule; a misuse is a panic. -/
def give (draft : Draft Predicate) (part : RulePart Predicate) : Program (Draft Predicate) :=
  match draft.give part with
  | .ok draft => pure draft
  | .error misuse => panic misuse.message

namespace Link

/-- Continues the draft of a rule by one link. -/
def extend (rule : String) (draft : Draft Predicate) : Link → Program (Draft Predicate)
  | .direction inbound => give draft (.direction inbound)
  | .senders ids => give draft (.senders ids)
  | .receivers ids => give draft (.receivers ids)
  | .content condition => do
    let counter ← newCounter
    give draft (.content ⟨rule, counter, condition⟩)
  | .shown => do
    log (.draft (String.ofList draft.inspect))
    pure draft

end Link

/-- Continues the draft of a rule. -/
def extendAll (rule : String) (draft : Draft Predicate) (chain : List Link) :
    Program (Draft Predicate) :=
  chain.foldlM (Link.extend rule) draft

/-- The draft that a rule starts with. -/
def startDraft (verbs : Option (List UInt32)) : Draft Predicate :=
  match verbs with
  | none => .allVerbs
  | some verbs => .ofVerbs verbs

/-- The action of a rule, with its plan in use. -/
def useAction (rule : String) : Action Plan → Program (Action Supplier)
  | .drop => pure .drop
  | .delay (.fixed d) => pure (.delay (.fixed d))
  | .delay (.computed plan) => do
    let counter ← newCounter
    pure (.delay (.computed ⟨rule, counter, plan⟩))

/-- What can be seen of a handle. -/
def handleAnswer (h : RuleHandle Predicate Supplier) (withText : Bool) : Program Answer := do
  let w ← get
  let text := if withText then some (String.ofList (h.inspect w)) else none
  pure (.handle h.rule.id h.rule.direction (h.isEnabled w) text)

/-- Registers a rule and names its handle, unless there is no action. -/
def finish (name : String) (engine : EngineRef) (draft : Draft Predicate) :
    Option (Action Plan) → Program Answer
  | none => pure .discarded
  | some action => do
    -- The handle takes the name of the rule, in place of an older one if there is one.
    let action ← useAction name action
    let handle ← engine.register (draft.finish action)
    remember fun s => { s with handles := s.handles.insert name handle }
    handleAnswer handle false

/-- Takes the draft of a name out, and goes on with it. -/
def withDraft (name : String) (next : EngineRef → Draft Predicate → Program Answer) :
    Program Answer := do
  match (← stage).drafts.get? name with
  | some (engine, draft) =>
    -- The draft is used up, whatever becomes of it.
    remember fun s => { s with drafts := s.drafts.erase name }
    next engine draft
  | none => pure (.failed .noSuchName)

/-- Keeps a draft under a name. -/
def keepDraft (name : String) (engine : EngineRef) (draft : Draft Predicate) :
    Program Answer := do
  remember fun s => { s with drafts := s.drafts.insert name (engine, draft) }
  pure .done

/-- Gives a name to an engine. -/
def nameEngine (name : String) (engine : EngineRef) : Program Answer := do
  remember fun s => { s with engines := s.engines.insert name engine }
  pure .done

/-- Gives a name to a network. -/
def nameNetwork (name : String) (network : NetworkRef) : Program Answer := do
  remember fun s => { s with networks := s.networks.insert name network }
  pure .done

/-- What can be seen of a network. -/
def networkInfo (network : NetworkRef) : Program Answer := do
  let w ← get
  let n := w.network network
  let rules := (w.engine n.engine).size
  pure (.network
    { nodes := n.nodes.map fun node => (node.id, node.address)
      latency := n.latency
      rules
      text := String.ofList (n.inspect rules) })

/-- The name under which the inbox of a node is kept. -/
def inboxName (id : NodeId) (name : Option String) : String :=
  name.getD (String.ofList (Decimal.digits id.toNat))

namespace Step

/-- Carries out one step. -/
def perform (cb : Callbacks script) : Step → Program Answer
  | .addEngine name => do
    let (engine, w) := (← get).addEngine
    set w
    nameEngine name engine
  | .aliasEngine engine name => withEngine engine (nameEngine name)
  | .addRule name engine verbs chain action =>
    withEngine engine fun engine => do
      let draft ← extendAll name (Scenario.startDraft verbs) chain
      finish name engine draft action
  | .startDraft name engine verbs chain =>
    withEngine engine fun engine => do
      let draft ← extendAll name (Scenario.startDraft verbs) chain
      keepDraft name engine draft
  | .extendDraft name chain =>
    withDraft name fun engine draft => do
      let draft ← extendAll name draft chain
      keepDraft name engine draft
  | .finishDraft name chain action =>
    withDraft name fun engine draft => do
      let draft ← extendAll name draft chain
      finish name engine draft action
  | .useHandle name calls withText => do
    match (← stage).handles.get? name with
    | some handle =>
      calls.forM handle.switch
      handleAnswer handle withText
    | none => pure (.failed .noSuchName)
  | .evaluate engine direction transfer =>
    withTransfer transfer fun e => withEngine engine fun engine => do
      let verdict ← engine.evaluate cb direction e
      pure (.decision verdict)
  | .permit engine direction transfer =>
    withTransfer transfer fun e => withEngine engine fun engine => do
      let permitted ← engine.permit cb direction e
      pure (.flag permitted)
  | .matrix engine direction nodes message =>
    withRead message.build fun message => withEngine engine fun engine => do
      let rows ← nodes.mapM fun sender => nodes.mapM fun receiver =>
        engine.evaluate cb direction ⟨sender, receiver, message⟩
      pure (.matrix rows)
  | .reset engine =>
    withEngine engine fun engine => do
      engine.reset
      pure .done
  | .size engine =>
    withEngine engine fun engine => do
      pure (.size ((← get).engine engine).size)
  | .describe engine =>
    withEngine engine fun engine => do
      pure (.descriptions ((← get).engine engine).describe)
  | .inspect engine =>
    withEngine engine fun engine => do
      pure (.text (String.ofList ((← get).engine engine).inspect))
  | .addNetwork network engine latency =>
    withEngine engine fun engine => do
      let (ref, w) := (← get).addNetwork engine latency
      set w
      nameNetwork network ref
  | .aliasNetwork network name => withNetwork network (nameNetwork name)
  | .dropNetwork network => do
    let known := ((← stage).networks.get? network).isSome
    remember fun s => { s with networks := s.networks.erase network }
    pure (.flag known)
  | .networkEngine network name =>
    withNetwork network fun network => do
      nameEngine name ((← get).network network).engine
  | .networkInfo network => withNetwork network Scenario.networkInfo
  | .addNode network id address inbox =>
    withRead (Endpoint.parse address) fun address => withNetwork network fun network => do
      match ← network.register id address with
      | .error error => pure (.failed (.network error))
      | .ok _ =>
        nameInbox (inboxName id inbox) ⟨network, id⟩
        pure (.node id)
  | .addressOf network id =>
    withNetwork network fun network => do
      pure (.address (((← get).network network).address? id))
  | .ownerOf network address =>
    withRead (Endpoint.parse address) fun address => withNetwork network fun network => do
      pure (.owner (((← get).network network).owner? address))
  | .send network transfer =>
    withTransfer transfer fun e => withNetwork network fun network => do
      match ← network.send cb e with
      | .ok delivery => pure (.delivery delivery)
      | .error error => pure (.failed (.network error))
  | .deliver network address transfer =>
    withRead (Endpoint.parse address) fun address => withTransfer transfer fun e =>
      withNetwork network fun network => do
        let delivered ← network.deliver address e
        pure (.flag delivered)
  | .setSink network reaction =>
    withNetwork network fun ref => do
      ref.setSink ⟨network, reaction⟩
      pure .done
  | .clearSink network =>
    withNetwork network fun network => do
      network.clearSink
      pure .done
  | .dropInbox inbox => do
    match (← stage).inboxes.get? inbox with
    | some ref =>
      closeInbox ref
      remember fun s => { s with inboxes := s.inboxes.erase inbox }
      pure (.flag true)
    | none => pure (.flag false)
  | .tryReceive inbox =>
    withInbox inbox fun inbox => do
      match ((← get).network inbox.network).dequeue? inbox.id with
      | some (e, changed) =>
        modify (·.setNetwork inbox.network changed)
        pure (.envelope (some e))
      | none => pure (.envelope none)
  | .drain inbox =>
    withInbox inbox fun inbox => do
      let n := (← get).network inbox.network
      modify (·.setNetwork inbox.network (n.emptyInbox inbox.id))
      pure (.envelopes (n.inbox inbox.id).queue)

/-- Carries out steps inside a callback, and logs their answers. -/
def performAll (cb : Callbacks script) (steps : List Step) : Program Unit :=
  steps.forM fun step => do
    let answer ← step.perform cb
    log (.nested answer)

end Step

end Netsieve.Scenario
