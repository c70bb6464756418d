import Netsieve.Proofs.Evaluation.Frame
import Netsieve.Proofs.Network.Latency

/-!
# `Netsieve.Proofs.Delivery.Ruling`: the way of a message as far as the rules

To send a message is to look up both nodes, to ask the outbound rules and then the inbound
rules, and to hand the message over or put it on its way (`NetworkRef.route`, `send_eq`). A
`Ruling` is how the first part of this ends. `Ruled` lists all cases in the order in which
things are looked at. What it means to ask one direction is a parameter of it, together with
what is to be collected meanwhile: the calls of predicates and suppliers, or the notes in the
log, or nothing at all.

* `exists_ruled`: there is a case for every message, if there is an answer to each question.
* `Ruled.route_eq`: and the way of the message ends as the case says, if these are the answers
  of the rules.
-/

set_option autoImplicit false

namespace Netsieve

variable {σ : Signature}

/-! ## The table -/

/-- How long a verdict that permits a message holds it back: not at all, or for as long as a
rule asks for. There is none for a drop. -/
inductive Verdict.Waits : Verdict → Duration → Prop where
  | deliver : Waits .deliver .zero
  | delay (d : Duration) : Waits (.delay d) d

/-- How the way of a message ends as far as the rules. The worlds are those in which rules have
been asked, before anything is done about their answer.

- `unknown`: a node is not there, and no rule has been asked;
- `dropped`: a rule of this direction drops the message;
- `panicked`: a callback of a rule panics;
- `permitted`: the message goes to this node, and takes so long in total. -/
inductive Ruling (σ : Signature) where
  | unknown (id : NodeId)
  | dropped (direction : Direction) (here : World σ)
  | panicked (p : Panic) (here : World σ)
  | permitted (target : Node) (total : Duration) (here : World σ)

/-- The world in which a message meets its ruling: the one that the rules have left, if any were
asked. -/
def Ruling.here (w : World σ) : Ruling σ → World σ
  | .unknown _ => w
  | .dropped _ here => here
  | .panicked _ here => here
  | .permitted _ _ here => here

section Table

variable {β : Type}
  (asks : EngineRef → Direction → Envelope → World σ → Outcome σ Verdict → List β → Prop)
  (network : NetworkRef) (e : Envelope) (w : World σ)

/-- Both nodes are there. -/
structure Addressed (sender target : Node) : Prop where
  sender : (w.network network).node? e.sender = some sender
  receiver : (w.network network).node? e.receiver = some target

/-- Which ruling a message meets, and what is collected on the way.

- `unknownSender`, `unknownReceiver`: a node is not there. If neither is, it is the sender that
  is missed, and in no case is anything asked;
- `heldBack`, `outboundPanic`: the outbound rules drop the message, or one of them panics. The
  inbound rules are not asked;
- `keptOut`, `inboundPanic`: the outbound rules permit the message, and the inbound ones, which
  are asked in the world that the outbound ones have left, drop it or panic;
- `permitted`: both permit it. In nanoseconds it takes the base latency of the network and both
  waits, each of these as far as the limit of the network, and no more than the greatest
  duration. -/
inductive Ruled : Ruling σ → List β → Prop where
  | unknownSender (missing : (w.network network).node? e.sender = none) :
      Ruled (.unknown e.sender) []
  | unknownReceiver {sender : Node} (known : (w.network network).node? e.sender = some sender)
      (missing : (w.network network).node? e.receiver = none) :
      Ruled (.unknown e.receiver) []
  | heldBack {sender target : Node} {here : World σ} {out : List β}
      (nodes : Addressed network e w sender target)
      (leaves : asks (w.network network).engine .outbound e w (.ok .drop here) out) :
      Ruled (.dropped .outbound here) out
  | outboundPanic {sender target : Node} {p : Panic} {here : World σ} {out : List β}
      (nodes : Addressed network e w sender target)
      (leaves : asks (w.network network).engine .outbound e w (.error p here) out) :
      Ruled (.panicked p here) out
  | keptOut {sender target : Node} {outbound : Verdict} {wait : Duration} {here there : World σ}
      {out into : List β} (nodes : Addressed network e w sender target)
      (leaves : asks (w.network network).engine .outbound e w (.ok outbound here) out)
      (waits : outbound.Waits wait)
      (enters : asks (w.network network).engine .inbound e here (.ok .drop there) into) :
      Ruled (.dropped .inbound there) (out ++ into)
  | inboundPanic {sender target : Node} {outbound : Verdict} {wait : Duration} {p : Panic}
      {here there : World σ} {out into : List β} (nodes : Addressed network e w sender target)
      (leaves : asks (w.network network).engine .outbound e w (.ok outbound here) out)
      (waits : outbound.Waits wait)
      (enters : asks (w.network network).engine .inbound e here (.error p there) into) :
      Ruled (.panicked p there) (out ++ into)
  | permitted {sender target : Node} {outbound inbound : Verdict} {wait wait' total : Duration}
      {here there : World σ} {out into : List β} (nodes : Addressed network e w sender target)
      (leaves : asks (w.network network).engine .outbound e w (.ok outbound here) out)
      (waits : outbound.Waits wait)
      (enters : asks (w.network network).engine .inbound e here (.ok inbound there) into)
      (waits' : inbound.Waits wait')
      (length : total.toNanos
        = min Duration.max.toNanos ((w.network network).latency.sum wait wait')) :
      Ruled (.permitted target total there) (out ++ into)

end Table

/-! ## There is a case for every message -/

/-- A verdict drops a message or holds it back for some time. -/
theorem Verdict.drop_or_waits (verdict : Verdict) :
    verdict = .drop ∨ ∃ wait, verdict.Waits wait := by
  cases verdict with
  | drop => exact .inl rfl
  | deliver => exact .inr ⟨_, .deliver⟩
  | delay d => exact .inr ⟨_, .delay d⟩

/-- Every message meets a ruling, if every question has an answer. -/
theorem exists_ruled {β : Type}
    {asks : EngineRef → Direction → Envelope → World σ → Outcome σ Verdict → List β → Prop}
    (answers : ∀ engine direction e w, ∃ outcome items, asks engine direction e w outcome items)
    (network : NetworkRef) (e : Envelope) (w : World σ) :
    ∃ ruling items, Ruled asks network e w ruling items := by
  -- The cases are split in the order in which sending looks at things.
  cases known : (w.network network).node? e.sender with
  | none => exact ⟨_, _, .unknownSender known⟩
  | some sender =>
    cases receives : (w.network network).node? e.receiver with
    | none => exact ⟨_, _, .unknownReceiver known receives⟩
    | some target =>
      have nodes : Addressed network e w sender target := ⟨known, receives⟩
      obtain ⟨outbound, out, leaves⟩ := answers (w.network network).engine .outbound e w
      cases outbound with
      | error p here => exact ⟨_, _, .outboundPanic nodes leaves⟩
      | ok outbound here =>
        rcases outbound.drop_or_waits with rfl | ⟨wait, waits⟩
        · exact ⟨_, _, .heldBack nodes leaves⟩
        · obtain ⟨inbound, into, enters⟩ := answers (w.network network).engine .inbound e here
          cases inbound with
          | error p there => exact ⟨_, _, .inboundPanic nodes leaves waits enters⟩
          | ok inbound there =>
            rcases inbound.drop_or_waits with rfl | ⟨wait', waits'⟩
            · exact ⟨_, _, .keptOut nodes leaves waits enters⟩
            · have total := Latency.toNanos_total (w.network network).latency wait wait'
              exact ⟨_, _, .permitted nodes leaves waits enters waits' total⟩

/-- If a node is not there, the ruling says so, and does not depend on the rules. -/
theorem ruled_of_missing {network : NetworkRef} {e : Envelope} {w : World σ}
    (missing : (w.network network).node? e.sender = none ∨
      (w.network network).node? e.receiver = none) :
    ∃ id, ∀ {β : Type}
      (asks : EngineRef → Direction → Envelope → World σ → Outcome σ Verdict → List β → Prop),
      Ruled asks network e w (.unknown id) [] := by
  cases known : (w.network network).node? e.sender with
  | none => exact ⟨e.sender, fun _ => .unknownSender known⟩
  | some sender =>
    have away := missing.resolve_left fun none => nomatch known.symm.trans none
    exact ⟨e.receiver, fun _ => .unknownReceiver known away⟩

section Inversion

variable {β : Type}
  {asks : EngineRef → Direction → Envelope → World σ → Outcome σ Verdict → List β → Prop}
  {network : NetworkRef} {e : Envelope} {w : World σ} {items : List β}

/-- A node that is missed is one of the two, and nothing is asked without it. -/
theorem Ruled.missing {id : NodeId} (ruled : Ruled asks network e w (.unknown id) items) :
    (id = e.sender ∨ id = e.receiver) ∧ (w.network network).node? id = none ∧ items = [] := by
  cases ruled with
  | unknownSender missing => exact ⟨.inl rfl, missing, rfl⟩
  | unknownReceiver known missing => exact ⟨.inr rfl, missing, rfl⟩

/-- A message that is permitted goes to its receiver. -/
theorem Ruled.receiver {target : Node} {total : Duration} {there : World σ}
    (ruled : Ruled asks network e w (.permitted target total there) items) :
    (w.network network).node? e.receiver = some target := by
  cases ruled with
  | permitted nodes => exact nodes.receiver

end Inversion

/-! ## One consultation -/

section Consult

variable {cb : Callbacks σ} {engine : EngineRef} {direction : Direction} {e : Envelope}
  {w here : World σ}

/-- Rules that permit a message answer how long it has to wait. -/
theorem consult_of_waits {verdict : Verdict} {wait : Duration}
    (answer : engine.evaluate cb direction e w = .ok verdict here) (waits : verdict.Waits wait) :
    NetworkRef.consult cb engine direction e w = .ok (some wait) here := by
  rw [NetworkRef.consult, bind_of_ok answer]
  cases waits <;> rfl

/-- Rules that drop a message answer nothing, and note that. -/
theorem consult_of_drop (answer : engine.evaluate cb direction e w = .ok .drop here) :
    NetworkRef.consult cb engine direction e w
      = .ok none (here.record (.messageDropped e direction)) := by
  rw [NetworkRef.consult, bind_of_ok answer]
  rfl

/-- If a callback of a rule panics, so does the consultation. -/
theorem consult_of_error {p : Panic} (answer : engine.evaluate cb direction e w = .error p here) :
    NetworkRef.consult cb engine direction e w = .error p here := by
  rw [NetworkRef.consult, bind_of_error answer]

end Consult

/-! ## The way as far as the rules -/

namespace NetworkRef

variable (cb : Callbacks σ) (network : NetworkRef) (e : Envelope)

/-- The way of a message as far as the rules. It either ends there with an answer, or it is
known where the message goes and how long it takes. -/
def route : Run σ (Except (Except Refusal Delivery) (Endpoint × Duration)) := do
  let n := (← get).network network
  match n.node? e.sender, n.node? e.receiver with
  | none, _ => pure (.error (.error (.unknownNode e.sender)))
  | some _, none => pure (.error (.error (.unknownNode e.receiver)))
  | some _, some target =>
    match ← consult cb n.engine .outbound e with
    | none => pure (.error (.ok (.dropped .outbound)))
    | some outbound =>
      match ← consult cb n.engine .inbound e with
      | none => pure (.error (.ok (.dropped .inbound)))
      | some inbound => pure (.ok (target.address, n.latency.total outbound inbound))

/-- The rest of the way. -/
def follow : Except (Except Refusal Delivery) (Endpoint × Duration) →
    Run σ (Except Refusal Delivery)
  | .error answer => pure answer
  | .ok (address, delay) => network.forward cb address e delay

end NetworkRef

section Route

variable {cb : Callbacks σ} {network : NetworkRef} {e : Envelope}

/-- Sending is the way as far as the rules and then the rest of it. -/
theorem send_eq (w : World σ) :
    network.send cb e w = (network.route cb e >>= network.follow cb e) w := by
  -- The two programs are the same up to where `route` stops. From there they differ in the
  -- way they are bracketed, in each of the two directions.
  show (match (w.network network).node? e.sender, (w.network network).node? e.receiver with
    | none, _ => _ | some _, none => _ | some _, some _ => _ : Run σ _) w
    = ((match (w.network network).node? e.sender, (w.network network).node? e.receiver with
    | none, _ => _ | some _, none => _ | some _, some _ => _ : Run σ _) >>= network.follow cb e) w
  cases (w.network network).node? e.sender with
  | none => rfl
  | some _ =>
    cases (w.network network).node? e.receiver with
    | none => rfl
    | some target =>
      show (NetworkRef.consult cb (w.network network).engine .outbound e >>= _) w
        = ((NetworkRef.consult cb (w.network network).engine .outbound e >>= _) >>= _) w
      rw [bind_assoc]
      cases outbound : NetworkRef.consult cb (w.network network).engine .outbound e w with
      | error p here => rw [bind_of_error outbound, bind_of_error outbound]
      | ok verdict here =>
        rw [bind_of_ok outbound, bind_of_ok outbound]
        cases verdict with
        | none => rfl
        | some delay =>
          show (NetworkRef.consult cb (w.network network).engine .inbound e >>= _) here
            = ((NetworkRef.consult cb (w.network network).engine .inbound e >>= _) >>= _) here
          rw [bind_assoc]
          cases inbound : NetworkRef.consult cb (w.network network).engine .inbound e here with
          | error p there => rw [bind_of_error inbound, bind_of_error inbound]
          | ok verdict there =>
            rw [bind_of_ok inbound, bind_of_ok inbound]
            cases verdict <;> rfl

/-- How the way of a message ends with a ruling: a drop is noted, and nothing else is done. -/
def Ruling.routed (e : Envelope) (w : World σ) :
    Ruling σ → Outcome σ (Except (Except Refusal Delivery) (Endpoint × Duration))
  | .unknown id => .ok (.error (.error (.unknownNode id))) w
  | .dropped direction here =>
    .ok (.error (.ok (.dropped direction))) (here.record (.messageDropped e direction))
  | .panicked p here => .error p here
  | .permitted target total here => .ok (.ok (target.address, total)) here

variable {w : World σ}

section Nodes

variable {sender target : Node} (nodes : Addressed network e w sender target)
include nodes

/-- Between two nodes that are there the outbound rules are asked first. -/
theorem route_of_outbound {answer : Option Duration} {here : World σ}
    (leaves : NetworkRef.consult cb (w.network network).engine .outbound e w = .ok answer here) :
    network.route cb e w = (match answer with
      | none => pure (.error (.ok (.dropped .outbound)))
      | some outbound => do
        match ← NetworkRef.consult cb (w.network network).engine .inbound e with
        | none => pure (.error (.ok (.dropped .inbound)))
        | some inbound =>
          pure (.ok (target.address, (w.network network).latency.total outbound inbound)) :
        Run σ _) here := by
  rw [NetworkRef.route, get_then]
  -- Both lookups succeed, so only the last case of the match is left.
  simp only [nodes.sender, nodes.receiver]
  rw [bind_of_ok leaves]

/-- If asking the outbound rules panics, the way ends there. -/
theorem route_of_outbound_error {p : Panic} {here : World σ}
    (leaves : NetworkRef.consult cb (w.network network).engine .outbound e w = .error p here) :
    network.route cb e w = .error p here := by
  rw [NetworkRef.route, get_then]
  simp only [nodes.sender, nodes.receiver]
  rw [bind_of_error leaves]

end Nodes

/-- The way of a message ends as the ruling says, if what is asked are the rules. -/
theorem Ruled.route_eq {β : Type}
    {asks : EngineRef → Direction → Envelope → World σ → Outcome σ Verdict → List β → Prop}
    (sound : ∀ {engine direction e w outcome items}, asks engine direction e w outcome items →
      engine.evaluate cb direction e w = outcome)
    {ruling : Ruling σ} {items : List β} (ruled : Ruled asks network e w ruling items) :
    network.route cb e w = ruling.routed e w := by
  cases ruled with
  | unknownSender missing =>
    rw [NetworkRef.route, get_then]
    simp only [missing]
    rfl
  | unknownReceiver known missing =>
    rw [NetworkRef.route, get_then]
    simp only [known, missing]
    rfl
  | heldBack nodes leaves =>
    rw [route_of_outbound nodes (consult_of_drop (sound leaves))]
    rfl
  | outboundPanic nodes leaves =>
    rw [route_of_outbound_error nodes (consult_of_error (sound leaves))]
    rfl
  | keptOut nodes leaves waits enters =>
    rw [route_of_outbound nodes (consult_of_waits (sound leaves) waits)]
    exact bind_of_ok (consult_of_drop (sound enters))
  | inboundPanic nodes leaves waits enters =>
    rw [route_of_outbound nodes (consult_of_waits (sound leaves) waits)]
    exact bind_of_error (consult_of_error (sound enters))
  | permitted nodes leaves waits enters waits' length =>
    -- The total is the one that the length tells, for a duration is known by its
    -- nanoseconds.
    rw [route_of_outbound nodes (consult_of_waits (sound leaves) waits),
      Duration.eq_of_toNanos_eq (length.trans (Latency.toNanos_total _ _ _).symm)]
    exact bind_of_ok (consult_of_waits (sound enters) waits')

end Route

end Netsieve
