import Netsieve.Proofs.Delivery.Trail

/-!
# `Netsieve.Proofs.Delivery.Log`: what the log tells about one message

Whoever debugs a scripted network reads its log. This module says what stands there about a
message that is sent, case by case, if the callbacks that run meanwhile are discreet: they
return, and nobody but the callbacks themselves can tell that they were run
(`Visit.Discreet`). Nothing is said about callbacks that do not run.

* `judges_evaluate`: a chain notes the rule that has decided and what it has decided, or
  nothing if no rule matches.
* `sendLog_send`: the notes of a whole sending, beside its answer and the handover that it has
  made.
-/

set_option autoImplicit false

namespace Netsieve

variable {σ : Signature}

/-- A callback that returns and leaves everything but the memory of callbacks as it was. -/
inductive Visit.Discreet (cb : Callbacks σ) : Visit σ → Prop where
  | test {predicate : σ.Predicate} {e : Envelope} {w : World σ} {said : Bool} {memory : σ.Memory}
      (answer : cb.test predicate e w = .ok said { w with memory }) :
      Discreet cb (.asked ⟨.test predicate e, w⟩)
  | supply {supplier : σ.Supplier} {e : Envelope} {w : World σ} {d : Duration} {memory : σ.Memory}
      (answer : cb.supply supplier e w = .ok d { w with memory }) :
      Discreet cb (.asked ⟨.supply supplier e, w⟩)
  | accept {sink : σ.Sink} {address : Endpoint} {e : Envelope} {w : World σ} {memory : σ.Memory}
      (answer : cb.accept sink address e w = .ok () { w with memory }) :
      Discreet cb (.handed sink address e w)

/-- Between two worlds nothing has happened but that this was noted in the log, and what
callbacks remember. -/
structure World.Noted (w : World σ) (told : List Event) (w' : World σ) : Prop where
  engines : w'.engines = w.engines
  networks : w'.networks = w.networks
  clock : w'.clock = w.clock
  hasRuntime : w'.hasRuntime = w.hasRuntime
  events : w'.events.toList = w.events.toList ++ told

namespace World.Noted

variable {a b c w w' : World σ} {first second told : List Event}

/-- Nothing noted is nothing changed. -/
theorem refl (w : World σ) : Noted w [] w :=
  ⟨rfl, rfl, rfl, rfl, (List.append_nil _).symm⟩

/-- What is noted one after the other is noted in that order. -/
theorem trans (h : Noted a first b) (rest : Noted b second c) : Noted a (first ++ second) c := by
  refine ⟨rest.engines.trans h.engines, rest.networks.trans h.networks,
    rest.clock.trans h.clock, rest.hasRuntime.trans h.hasRuntime, ?_⟩
  rw [rest.events, h.events, List.append_assoc]

/-- What the callbacks remember is not noted. -/
theorem remember (w : World σ) (memory : σ.Memory) : Noted w [] { w with memory } :=
  ⟨rfl, rfl, rfl, rfl, (List.append_nil _).symm⟩

/-- A recorded event is noted last. -/
theorem record (h : Noted w told w') (event : Event) :
    Noted w (told ++ [event]) (w'.record event) :=
  h.trans ⟨rfl, rfl, rfl, rfl, Array.toList_push⟩

/-- Noting something leaves the engines alone. -/
theorem engine (h : Noted w told w') (ref : EngineRef) : w'.engine ref = w.engine ref := by
  rw [World.engine, h.engines, World.engine]

/-- Noting something leaves the networks alone. -/
theorem network (h : Noted w told w') (ref : NetworkRef) : w'.network ref = w.network ref := by
  rw [World.network, h.networks, World.network]

end World.Noted

open World (Noted)
open EngineRef (Makes)

/-! ## One chain of rules -/

section Chain

variable (cb : Callbacks σ) (engine : EngineRef) (direction : Direction) (e : Envelope)

/-- Which rule of a list is the first that matches, and the world that the search leaves.

- `nobody`: all open rules say no;
- `first`: the open rules before this one say no, and this one is open and grants. -/
inductive Picks (w : World σ) (rules : List (Rule σ.Predicate σ.Supplier)) :
    Option (Rule σ.Predicate σ.Supplier) → World σ → Prop where
  | nobody {here : World σ} (denied : Denied cb e w (openRules engine direction e w rules) here) :
      Picks w rules none here
  | first {before after : List (Rule σ.Predicate σ.Supplier)} {rule : Rule σ.Predicate σ.Supplier}
      {here left : World σ} (place : rules = before ++ rule :: after)
      (denied : Denied cb e w (openRules engine direction e w before) here)
      (opened : rule.isOpen engine direction e w = true) (grants : Grants cb e rule here left) :
      Picks w rules (some rule) left

/-- How a chain of rules judges, and what it notes.

- `unmatched`: if no rule matches, the message is delivered, and nothing is noted;
- `decided`: a rule decides by its action, and that is noted. -/
inductive Judges (w : World σ) : Outcome σ Verdict → List Event → Prop where
  | unmatched {here : World σ}
      (picks : Picks cb engine direction e w (w.engine engine).rules none here) :
      Judges w (.ok .deliver here) []
  | decided {rule : Rule σ.Predicate σ.Supplier} {left here : World σ} {verdict : Verdict}
      (picks : Picks cb engine direction e w (w.engine engine).rules (some rule) left)
      (decides : Decides cb e rule left (.ok verdict here)) :
      Judges w (.ok verdict (here.record (.messageFiltered rule.id direction e verdict)))
        [.messageFiltered rule.id direction e verdict]

variable {cb engine direction e} {w : World σ}

/-- A rule that is passed over does not change which rule is picked. -/
theorem Picks.cons {rule : Rule σ.Predicate σ.Supplier}
    {rules : List (Rule σ.Predicate σ.Supplier)} {found : Option (Rule σ.Predicate σ.Supplier)}
    {left here : World σ}
    (denied : Denied cb e w (openRules engine direction e w [rule]) left)
    (same : left.engine engine = w.engine engine)
    (h : Picks cb engine direction e left rules found here) :
    Picks cb engine direction e w (rule :: rules) found here := by
  -- Which rules are open is a matter of the engine, and asking one has not changed it. So
  -- `left` and `w` agree about all of them.
  have still : ∀ rules, openRules engine direction e left rules
      = openRules engine direction e w rules :=
    fun rules => List.filter_congr fun _ _ => isOpen_congr same
  have joined : ∀ rules, openRules engine direction e w (rule :: rules)
      = openRules engine direction e w [rule] ++ openRules engine direction e w rules :=
    fun rules => List.filter_append [rule] rules
  cases h with
  | nobody others =>
    rw [still] at others
    refine .nobody ?_
    rw [joined]
    exact denied.trans others
  | @first before after other here left place others opened grants =>
    rw [still] at others
    rw [isOpen_congr same] at opened
    have further : rule :: rules = (rule :: before) ++ other :: after :=
      congrArg (rule :: ·) place
    refine .first further ?_ opened grants
    rw [joined]
    exact denied.trans others

/-- The first rule of a list is picked if it is open and grants. -/
theorem Picks.head {rule : Rule σ.Predicate σ.Supplier} {left : World σ}
    (opened : rule.isOpen engine direction e w = true) (grants : Grants cb e rule w left)
    (rest : List (Rule σ.Predicate σ.Supplier)) :
    Picks cb engine direction e w (rule :: rest) (some rule) left := by
  have nobody : Denied cb e w (openRules engine direction e w []) w := .nil
  exact .first (rfl : rule :: rest = [] ++ rule :: rest) nobody opened grants

/-- A rule with a discreet predicate is passed over or picked, and notes nothing. -/
theorem passes_or_grants {rule : Rule σ.Predicate σ.Supplier}
    (discreet : ∀ made ∈ rule.asks engine direction e w, Visit.Discreet cb (.asked made)) :
    ∃ left, Noted w [] left ∧
      (rule.applies cb engine direction e w = .ok false left ∧
          Denied cb e w (openRules engine direction e w [rule]) left ∨
        rule.applies cb engine direction e w = .ok true left ∧
          rule.isOpen engine direction e w = true ∧ Grants cb e rule w left) := by
  cases opened : rule.isOpen engine direction e w with
  | false =>
    -- A rule that is not open is not asked, so the list of those that deny is empty.
    have nobody : openRules engine direction e w [rule] = [] := by simp [openRules, opened]
    refine ⟨w, .refl w, .inl ⟨applies_of_not_open cb engine direction e opened, ?_⟩⟩
    rw [nobody]
    exact .nil
  | true =>
    have itself : openRules engine direction e w [rule] = [rule] := by simp [openRules, opened]
    cases content : rule.content with
    | none =>
      exact ⟨w, .refl w, .inr ⟨applies_of_no_content cb engine direction e opened content, rfl,
        .bare content⟩⟩
    | some predicate =>
      have applies := applies_of_content cb engine direction e opened content
      -- The call is one of the turn, so it is discreet: it says yes or no, and does not
      -- panic.
      have called : ⟨.test predicate e, w⟩ ∈ rule.asks engine direction e w := by
        rw [Rule.asks, if_pos opened, asked_of_content content]
        exact List.mem_singleton_self _
      cases discreet _ called with
      | @test _ _ _ said memory answer =>
        refine ⟨_, .remember w memory, ?_⟩
        rw [answer] at applies
        cases said with
        | false =>
          refine .inl ⟨applies, ?_⟩
          rw [itself]
          exact .cons content answer .nil
        | true => exact .inr ⟨applies, rfl, .asked content answer⟩

/-- A search with discreet callbacks picks the first rule that matches, and notes nothing. -/
theorem picks_firstMatch {rules : List (Rule σ.Predicate σ.Supplier)}
    (discreet : ∀ made ∈ engine.scanCalls cb direction e rules w, Visit.Discreet cb (.asked made)) :
    ∃ found left, engine.firstMatch cb direction e rules w = .ok found left ∧
      Picks cb engine direction e w rules found left ∧ Noted w [] left := by
  induction rules generalizing w with
  | nil => exact ⟨none, w, rfl, .nobody .nil, .refl w⟩
  | cons rule rest ih =>
    unfold EngineRef.firstMatch
    unfold EngineRef.scanCalls at discreet
    obtain ⟨left, quiet, ⟨applies, denied⟩ | ⟨applies, opened, grants⟩⟩ :=
      passes_or_grants fun made there => discreet made (List.mem_append_left _ there)
    · -- The search goes on behind this rule.
      rw [applies] at discreet
      obtain ⟨found, here, search, picks, noted⟩ :=
        ih fun made there => discreet made (List.mem_append_right _ there)
      refine ⟨found, here, ?_, picks.cons denied (quiet.engine engine), quiet.trans noted⟩
      rw [bind_of_ok applies]
      exact search
    · -- The search ends here.
      refine ⟨some rule, left, ?_, .head opened grants rest, quiet⟩
      rw [bind_of_ok applies]
      rfl

/-- A rule with a discreet supplier decides, and notes nothing. -/
theorem decides_verdict {rule : Rule σ.Predicate σ.Supplier}
    (discreet : ∀ made ∈ rule.consults e w, Visit.Discreet cb (.asked made)) :
    ∃ verdict here, rule.verdict cb e w = .ok verdict here ∧
      Decides cb e rule w (.ok verdict here) ∧ Noted w [] here := by
  have decides := verdict_decides cb e rule w
  unfold Rule.consults Call.supplied at discreet
  generalize rule.verdict cb e w = outcome at decides ⊢
  cases decides with
  | drop acts => exact ⟨_, w, rfl, .drop acts, .refl w⟩
  | fixed acts => exact ⟨_, w, rfl, .fixed acts, .refl w⟩
  | computed acts answer =>
    rw [acts] at discreet
    cases discreet _ (List.mem_singleton_self _) with
    | supply answer' =>
      cases answer.symm.trans answer'
      exact ⟨_, _, rfl, .computed acts answer, .remember w _⟩
  | broken acts answer =>
    rw [acts] at discreet
    -- A supplier that is discreet does not panic.
    cases discreet _ (List.mem_singleton_self _) with
    | supply answer' => cases answer.symm.trans answer'

/-- A chain with discreet callbacks judges, and does nothing but note that. -/
theorem judges_of_makes {outcome : Outcome σ Verdict} {calls : List (Made σ)}
    (makes : Makes cb engine direction e w outcome calls)
    (discreet : ∀ made ∈ calls, Visit.Discreet cb (.asked made)) :
    ∃ verdict here told, outcome = .ok verdict here ∧
      Judges cb engine direction e w outcome told ∧ Noted w told here := by
  obtain ⟨ends, made⟩ := makes
  subst ends
  subst made
  unfold EngineRef.calls at discreet
  -- The calls are those of the search and then those of the rule that it has found. Both
  -- parts are discreet.
  obtain ⟨found, left, search, picks, quiet⟩ :=
    picks_firstMatch fun made there => discreet made (List.mem_append_left _ there)
  rw [search] at discreet
  cases found with
  | none =>
    rw [evaluate_of_none cb engine direction e search]
    exact ⟨_, left, _, rfl, .unmatched picks, quiet⟩
  | some rule =>
    obtain ⟨verdict, here, answer, decides, still⟩ :=
      decides_verdict fun made there => discreet made (List.mem_append_right _ there)
    rw [evaluate_of_some cb engine direction e search answer]
    exact ⟨_, _, _, rfl, .decided picks decides, (quiet.trans still).record _⟩

end Chain

/-! ## Handing over -/

section HandOver

variable {cb : Callbacks σ} {h : Handover σ}

/-- How a handover ends: somebody gets the message, be it the sink or the inbox (`taken`), or
there is no sink, the inbox is closed and nobody does (`lost`). -/
inductive Handed (h : Handover σ) : Except Refusal Unit → Prop where
  | taken (place : (h.before.network h.parcel.network).sink.isSome = true ∨
      ∃ queue, (h.before.network h.parcel.network).inbox h.parcel.envelope.receiver
        = .opened queue) : Handed h (.ok ())
  | lost (bare : (h.before.network h.parcel.network).sink = none)
      (closed : (h.before.network h.parcel.network).inbox h.parcel.envelope.receiver = .closed) :
      Handed h (.error (.inboxClosed h.parcel.envelope.receiver))

/-- The note that a message is about to be handed over. -/
def Handover.note (h : Handover σ) : Event :=
  .delivering h.parcel.envelope (h.before.network h.parcel.network).sink.isSome

/-- A handover to a discreet sink or to an inbox ends, and leaves its note. -/
theorem handed_outcome (discreet : ∀ visit ∈ h.visits, visit.Discreet cb) :
    ∃ answer left, h.outcome cb = .ok answer left ∧ Handed h answer ∧
      left.events.toList = h.before.events.toList ++ [h.note] := by
  have ends : HandOverEnds cb h.parcel.network h.parcel.envelope h.parcel.address h.before
      (h.outcome cb) := handOver_ends _ _ _ _ _
  unfold Handover.visits at discreet
  unfold Handover.note
  generalize h.outcome cb = outcome at ends
  cases ends with
  | taken installed takes =>
    rw [installed] at discreet
    cases discreet _ (List.mem_singleton_self _) with
    | accept answer =>
      cases takes.symm.trans answer
      rw [installed]
      exact ⟨_, _, rfl, .taken (.inl (by rw [installed]; rfl)), Array.toList_push⟩
  | spilt installed takes =>
    -- A sink that is discreet does not panic.
    rw [installed] at discreet
    cases discreet _ (List.mem_singleton_self _) with
    | accept answer => cases takes.symm.trans answer
  | queued bare placed =>
    obtain ⟨queue, box, rfl⟩ := placed.eq_setInbox
    rw [bare]
    refine ⟨_, _, rfl, .taken (.inr ⟨queue, ?_⟩), Array.toList_push⟩
    rw [World.network_record] at box
    rw [Network.inbox_eq, box]
    rfl
  | lost bare nowhere =>
    -- A node that is not there counts as one with a closed inbox.
    have closed : (h.before.network h.parcel.network).inbox h.parcel.envelope.receiver
        = .closed := by
      rw [Network.inbox_eq]
      rcases nowhere with box | box <;> rw [box] <;> rfl
    rw [bare]
    exact ⟨_, _, rfl, .lost bare closed, Array.toList_push⟩

end HandOver

/-! ## The whole way of a message -/

section Send

variable (cb : Callbacks σ) (network : NetworkRef) (e : Envelope) (w : World σ)

/-- What sending answers, what stands in the log about it, and the handover that it makes. Up to
the ruling that the message meets, the log tells how both chains judge (`Judges`).

- `unknown`: a node is not there, no chain is consulted, and nothing is noted;
- `dropped`: a chain drops the message, which is noted last;
- `delivered`: the message takes no time and is handed over, with a note whether there is a sink;
- `lost`: it is handed over likewise, but there is no sink and the inbox is closed;
- `delayed`: it takes time, and is not handed over now;
- `stranded`: it takes time, which cannot pass. -/
inductive SendLog : Except Refusal Delivery → List Event → List (Handover σ) → Prop where
  | unknown {id : NodeId} (ruled : Ruled (Judges cb) network e w (.unknown id) []) :
      SendLog (.error (.unknownNode id)) [] []
  | dropped {direction : Direction} {here : World σ} {told : List Event}
      (ruled : Ruled (Judges cb) network e w (.dropped direction here) told) :
      SendLog (.ok (.dropped direction)) (told ++ [.messageDropped e direction]) []
  | delivered {target : Node} {there : World σ} {told : List Event}
      (ruled : Ruled (Judges cb) network e w (.permitted target .zero there) told)
      (place : (w.network network).sink.isSome = true ∨
        ∃ queue, (w.network network).inbox e.receiver = .opened queue) :
      SendLog (.ok .delivered) (told ++ [.delivering e (w.network network).sink.isSome])
        [⟨⟨w.clock, network, target.address, e⟩, there⟩]
  | lost {target : Node} {there : World σ} {told : List Event}
      (ruled : Ruled (Judges cb) network e w (.permitted target .zero there) told)
      (bare : (w.network network).sink = none)
      (closed : (w.network network).inbox e.receiver = .closed) :
      SendLog (.error (.inboxClosed e.receiver))
        (told ++ [.delivering e (w.network network).sink.isSome])
        [⟨⟨w.clock, network, target.address, e⟩, there⟩]
  | delayed {target : Node} {total : Duration} {there : World σ} {told : List Event}
      (ruled : Ruled (Judges cb) network e w (.permitted target total there) told)
      (slow : total ≠ .zero) (runtime : w.hasRuntime = true) :
      SendLog (.ok (.delayed total)) told []
  | stranded {target : Node} {total : Duration} {there : World σ} {told : List Event}
      (ruled : Ruled (Judges cb) network e w (.permitted target total there) told)
      (slow : total ≠ .zero) (frozen : w.hasRuntime = false) : SendLog (.error .noRuntime) told []

variable {cb network e w}

/-- If all callbacks on the way of a message are discreet, the chains that are asked judge. When
the message meets its ruling, nothing has happened but what they have noted. -/
theorem ruled_judges {ruling : Ruling σ} {calls : List (Made σ)}
    (ruled : Ruled (Makes cb) network e w ruling calls)
    (discreet : ∀ made ∈ calls, Visit.Discreet cb (.asked made)) :
    ∃ told, Ruled (Judges cb) network e w ruling told ∧ Noted w told (ruling.here w) ∧
      ∀ p here, ruling ≠ .panicked p here := by
  cases ruled with
  | unknownSender missing => exact ⟨[], .unknownSender missing, .refl w, nofun⟩
  | unknownReceiver known missing => exact ⟨[], .unknownReceiver known missing, .refl w, nofun⟩
  | heldBack nodes leaves =>
    obtain ⟨verdict, here, out, ⟨⟩, judges, noted⟩ := judges_of_makes leaves discreet
    exact ⟨out, .heldBack nodes judges, noted, nofun⟩
  | outboundPanic nodes leaves =>
    -- Discreet callbacks do not panic.
    obtain ⟨verdict, here, out, ⟨⟩, -⟩ := judges_of_makes leaves discreet
  | keptOut nodes leaves waits enters =>
    obtain ⟨first, second⟩ := List.forall_mem_append.mp discreet
    obtain ⟨verdict, here, out, ⟨⟩, judges, noted⟩ := judges_of_makes leaves first
    obtain ⟨verdict', there, into, ⟨⟩, judges', noted'⟩ := judges_of_makes enters second
    exact ⟨out ++ into, .keptOut nodes judges waits judges', noted.trans noted', nofun⟩
  | inboundPanic nodes leaves waits enters =>
    obtain ⟨first, second⟩ := List.forall_mem_append.mp discreet
    obtain ⟨verdict', there, into, ⟨⟩, -⟩ := judges_of_makes enters second
  | permitted nodes leaves waits enters waits' length =>
    -- Each direction notes the rule that has decided, the second one in the world that the
    -- first one has left.
    obtain ⟨first, second⟩ := List.forall_mem_append.mp discreet
    obtain ⟨verdict, here, out, ⟨⟩, judges, noted⟩ := judges_of_makes leaves first
    obtain ⟨verdict', there, into, ⟨⟩, judges', noted'⟩ := judges_of_makes enters second
    exact ⟨out ++ into, .permitted nodes judges waits judges' waits' length, noted.trans noted',
      nofun⟩

/-- What becomes of a message that both chains permit. -/
theorem sendLog_of_permitted {target : Node} {total : Duration} {told : List Event}
    {there : World σ} (ruled : Ruled (Judges cb) network e w (.permitted target total there) told)
    (noted : Noted w told there)
    (discreet : ∀ h ∈ (Ruling.permitted target total there).prompted network e,
      ∀ visit ∈ h.visits, visit.Discreet cb) :
    ∃ answer all left, network.forward cb target.address e total there = .ok answer left ∧
      SendLog cb network e w answer all
        ((Ruling.permitted target total there).prompted network e) ∧
      left.events.toList = w.events.toList ++ all := by
  cases takes : total.isZero with
  | true =>
    obtain rfl := Duration.isZero_iff.mp takes
    rw [prompted_of_zero takes] at discreet ⊢
    obtain ⟨answer, left, ends, handed, events⟩ :=
      handed_outcome (discreet _ (List.mem_singleton_self _))
    rw [forward_of_zero takes, ends, noted.clock]
    -- The rules have noted what they decided, and the handover notes itself behind that.
    have log : left.events.toList = w.events.toList
        ++ (told ++ [.delivering e (w.network network).sink.isSome]) := by
      rw [events, noted.events, List.append_assoc, Handover.note, noted.network]
    cases handed with
    | taken place =>
      rw [noted.network] at place
      exact ⟨_, _, left, rfl, .delivered ruled place, log⟩
    | lost bare closed =>
      rw [noted.network] at bare closed
      exact ⟨_, _, left, rfl, .lost ruled bare closed, log⟩
  | false =>
    have slow : total ≠ .zero := mt Duration.isZero_iff.mpr (Bool.eq_false_iff.mp takes)
    rw [prompted_of_slow takes]
    cases runtime : w.hasRuntime with
    | true =>
      rw [forward_of_runtime takes (noted.hasRuntime.trans runtime)]
      exact ⟨_, _, _, rfl, .delayed ruled slow runtime, noted.events⟩
    | false =>
      rw [forward_of_frozen takes (noted.hasRuntime.trans runtime)]
      exact ⟨_, _, _, rfl, .stranded ruled slow runtime, noted.events⟩

/-- Sending with discreet callbacks returns, and the log tells what has become of the
message. -/
theorem sendLog_send (discreet : ∀ visit ∈ network.visits cb e w, visit.Discreet cb) :
    ∃ answer told left, network.send cb e w = .ok answer left ∧
      SendLog cb network e w answer told (network.prompt cb e w) ∧
      left.events.toList = w.events.toList ++ told := by
  obtain ⟨ruling, ruled⟩ := ruled_calls cb network e w
  have way := ruled.route_eq Makes.ends
  -- The visits are the calls of the rules and then those of the sink.
  obtain ⟨asked, handed⟩ := List.forall_mem_append.mp discreet
  obtain ⟨told, judged, noted, returns⟩ :=
    ruled_judges ruled fun made there => asked _ (List.mem_map_of_mem there)
  have handed : ∀ h ∈ network.prompt cb e w, ∀ visit ∈ h.visits, visit.Discreet cb :=
    fun h there visit run => handed visit (List.mem_flatMap.mpr ⟨h, there, run⟩)
  rw [send_eq]
  rw [prompt_of_route way] at handed ⊢
  cases ruling with
  | unknown id =>
    obtain ⟨-, -, rfl⟩ := judged.missing
    rw [bind_of_ok way]
    exact ⟨_, [], w, rfl, .unknown judged, noted.events⟩
  | dropped direction here =>
    rw [bind_of_ok way]
    exact ⟨_, _, _, rfl, .dropped judged, (noted.record _).events⟩
  | panicked p here => exact absurd rfl (returns p here)
  | permitted target total there =>
    rw [bind_of_ok way]
    exact sendLog_of_permitted judged noted handed

end Send

end Netsieve
