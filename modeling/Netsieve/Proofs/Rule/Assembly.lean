import Mathlib.Data.List.Forall2
import Netsieve.Engine
import Netsieve.Proofs.Rule.Draft

/-!
# `Netsieve.Proofs.Rule.Assembly`: the order of the parts does not matter

A draft remembers what it was given and nothing else: not in which order, and of a list of
ids only the members. If no kind of part is given twice, the draft is told by its entries
(`Draft.Made`), so that the same parts in any order make the same draft. Otherwise the first
part that is given again is answered with a misuse, which tells the direction that was given
before.

* `give_eq`: what giving one part does.
* `assembly`: what giving a row of parts does, and what the finished rule follows.
-/

set_option autoImplicit false

namespace Netsieve

variable {P S : Type}

/-! ## What parts enter into a draft -/

/-- Something that a draft has been given. -/
inductive Draft.Entry (P : Type) where
  | direction (direction : Direction)
  | senders (scope : Scope)
  | receivers (scope : Scope)
  | content (predicate : P)

/-- What a part is about. -/
inductive RulePart.Kind where
  | direction
  | senders
  | receivers
  | content
  deriving DecidableEq

namespace Draft.Entry

/-- What an entry is about. -/
def kind : Entry P → RulePart.Kind
  | .direction _ => .direction
  | .senders _ => .senders
  | .receivers _ => .receivers
  | .content _ => .content

/-- The misuse of giving a part of this kind again. -/
def misuse : Entry P → Misuse
  | .direction given => .direction given
  | .senders _ => .senders
  | .receivers _ => .receivers
  | .content _ => .content

end Draft.Entry

namespace RulePart

/-- What a part enters into a draft. -/
def entry : RulePart P → Draft.Entry P
  | .direction inbound => .direction (.ofInbound inbound)
  | .senders ids => .senders (.ofList ids)
  | .receivers ids => .receivers (.ofList ids)
  | .content predicate => .content predicate

/-- What a part is about. -/
def kind (part : RulePart P) : Kind :=
  part.entry.kind

/-- The misuse of giving a part of this kind again, once this one was given. -/
def misuse (part : RulePart P) : Misuse :=
  part.entry.misuse

/-- The direction that a part gives. -/
def direction? : RulePart P → Option Direction
  | .direction inbound => some (.ofInbound inbound)
  | _ => none

/-- The senders that a part gives. -/
def senders? : RulePart P → Option (List UInt32)
  | .senders ids => some ids
  | _ => none

/-- The receivers that a part gives. -/
def receivers? : RulePart P → Option (List UInt32)
  | .receivers ids => some ids
  | _ => none

/-- The content predicate that a part gives. -/
def content? : RulePart P → Option P
  | .content predicate => some predicate
  | _ => none

/-- Two parts give the same; of a list of ids that is the members. -/
inductive Alike : RulePart P → RulePart P → Prop where
  | direction (inbound : Bool) : Alike (.direction inbound) (.direction inbound)
  | senders {ids ids' : List UInt32} (same : ∀ id, id ∈ ids ↔ id ∈ ids') :
      Alike (.senders ids) (.senders ids')
  | receivers {ids ids' : List UInt32} (same : ∀ id, id ∈ ids ↔ id ∈ ids') :
      Alike (.receivers ids) (.receivers ids')
  | content (predicate : P) : Alike (.content predicate) (.content predicate)

/-- The same parts in another order. -/
def Rearranged (parts parts' : List (RulePart P)) : Prop :=
  ∃ between, parts.Perm between ∧ List.Forall₂ Alike between parts'

/-- Parts that are alike enter the same. -/
theorem Alike.entry_eq {part part' : RulePart P} (alike : Alike part part') :
    part.entry = part'.entry := by
  cases alike with
  | direction | content => rfl
  | senders same | receivers same =>
    simp only [entry, Scope.ofList]
    rw [Ascending.ofList_congr same]

/-- The same parts in another order enter the same. -/
theorem Rearranged.perm {parts parts' : List (RulePart P)} (h : Rearranged parts parts') :
    (parts.map entry).Perm (parts'.map entry) := by
  obtain ⟨between, perm, alike⟩ := h
  refine (perm.map entry).trans (.of_eq ?_)
  induction alike generalizing parts with
  | nil => rfl
  | cons first _ ih => rw [List.map_cons, List.map_cons, first.entry_eq, ih (.refl _)]

end RulePart

open RulePart (Rearranged)

/-! ## Giving parts -/

namespace Draft

/-- A draft that begins with these verbs, or with all of them. -/
def begin (verbs : Option (List UInt32)) : Draft P :=
  match verbs with
  | none => allVerbs
  | some verbs => ofVerbs verbs

/-- What a draft has of a kind, once it was given. -/
def get? (d : Draft P) : RulePart.Kind → Option (Entry P)
  | .direction => d.direction.map .direction
  | .senders => d.senders.map .senders
  | .receivers => d.receivers.map .receivers
  | .content => d.content.map .content

/-- Enters something into a draft. -/
def put (d : Draft P) : Entry P → Draft P
  | .direction direction => { d with direction := some direction }
  | .senders scope => { d with senders := some scope }
  | .receivers scope => { d with receivers := some scope }
  | .content predicate => { d with content := some predicate }

/-- Entering something leaves the verbs alone. -/
@[simp] theorem verbs_put (d : Draft P) (entry : Entry P) : (d.put entry).verbs = d.verbs := by
  cases entry <;> rfl

/-- What was entered is found under its kind, and the other kinds are as they were. -/
theorem get?_put (d : Draft P) (entry : Entry P) (kind : RulePart.Kind) :
    (d.put entry).get? kind = if entry.kind = kind then some entry else d.get? kind := by
  cases entry <;> cases kind <;> rfl

/-- A part of a kind that the draft has is a misuse, and any other one is entered. -/
theorem give_eq (d : Draft P) (part : RulePart P) :
    d.give part = match d.get? part.kind with
      | some entry => .error entry.misuse
      | none => .ok (d.put part.entry) := by
  obtain ⟨verbs, direction, senders, receivers, content⟩ := d
  cases part with
  | direction inbound => cases direction <;> rfl
  | senders ids => cases senders <;> rfl
  | receivers ids => cases receivers <;> rfl
  | content predicate => cases content <;> rfl

/-- A draft is told by its verbs and its entries. -/
theorem ext_get? {d d' : Draft P} (verbs : d.verbs = d'.verbs)
    (same : ∀ kind, d.get? kind = d'.get? kind) : d = d' := by
  obtain ⟨_, _, _, _, _⟩ := d
  obtain ⟨_, _, _, _, _⟩ := d'
  rw [Draft.mk.injEq]
  exact ⟨verbs, Option.map_injective (fun _ _ => Entry.direction.inj) (same .direction),
    Option.map_injective (fun _ _ => Entry.senders.inj) (same .senders),
    Option.map_injective (fun _ _ => Entry.receivers.inj) (same .receivers),
    Option.map_injective (fun _ _ => Entry.content.inj) (same .content)⟩

/-- A draft is what these parts make of these verbs. -/
structure Made (d : Draft P) (verbs : Scope) (parts : List (RulePart P)) : Prop where
  verbs : d.verbs = verbs
  entries : ∀ kind entry, d.get? kind = some entry ↔
    entry.kind = kind ∧ entry ∈ parts.map RulePart.entry

/-- A draft that begins with verbs has been given no parts. -/
theorem made_begin (verbs : Option (List UInt32)) :
    (begin verbs : Draft P).Made (begin verbs : Draft P).verbs [] where
  verbs := rfl
  entries kind entry := by cases verbs <;> cases kind <;> simp [begin, allVerbs, ofVerbs, get?]

/-- A part of a new kind is added to those that make a draft. -/
theorem Made.put {d : Draft P} {verbs : Scope} {parts : List (RulePart P)}
    (h : d.Made verbs parts) {part : RulePart P} (new : d.get? part.kind = none) :
    (d.put part.entry).Made verbs (parts ++ [part]) where
  verbs := (verbs_put d _).trans h.verbs
  entries kind entry := by
    -- Each kind has one entry. The one that is put is of a kind that has had none.
    have known : ∀ {kind entry}, entry.kind = kind → entry ∈ parts.map RulePart.entry →
        d.get? kind = some entry := fun same there => (h.entries _ _).mpr ⟨same, there⟩
    rw [get?_put, List.map_append, List.mem_append, List.map_singleton, List.mem_singleton]
    split
    · next here =>
      subst here
      constructor
      · rintro ⟨⟩
        exact ⟨rfl, .inr rfl⟩
      · rintro ⟨same, there | rfl⟩
        · exact absurd (new.symm.trans (known same there)) (by simp)
        · rfl
    · next apart =>
      rw [h.entries]
      constructor
      · exact fun ⟨same, there⟩ => ⟨same, .inl there⟩
      · rintro ⟨same, there | rfl⟩
        · exact ⟨same, there⟩
        · exact absurd same apart

/-- What parts make is told by their entries. -/
theorem Made.ext {d d' : Draft P} {verbs : Scope} {parts parts' : List (RulePart P)}
    (h : d.Made verbs parts) (h' : d'.Made verbs parts')
    (same : (parts.map RulePart.entry).Perm (parts'.map RulePart.entry)) : d = d' := by
  refine ext_get? (h.verbs.trans h'.verbs.symm) fun kind => Option.ext fun entry => ?_
  rw [h.entries, h'.entries, same.mem_iff]

/-! ## Giving a row of parts -/

/-- Two lists of parts are given one after the other. -/
theorem giveAll_append (d : Draft P) (first second : List (RulePart P)) :
    d.giveAll (first ++ second) = d.giveAll first >>= fun d => d.giveAll second :=
  List.foldlM_append

/-- The first part of a list is given first. -/
theorem giveAll_cons (d : Draft P) (part : RulePart P) (rest : List (RulePart P)) :
    d.giveAll (part :: rest) = d.give part >>= fun d => d.giveAll rest :=
  List.foldlM_cons

variable {start : Draft P}

/-- Parts of different kinds make a draft. -/
theorem giveAll_of_nodup (new : start.Made start.verbs []) {parts : List (RulePart P)}
    (distinct : (parts.map RulePart.kind).Nodup) :
    ∃ d, start.giveAll parts = .ok d ∧ d.Made start.verbs parts := by
  induction parts using List.reverseRecOn with
  | nil => exact ⟨start, rfl, new⟩
  | append_singleton parts part ih =>
    rw [List.map_append, List.nodup_append] at distinct
    obtain ⟨distinct, -, apart⟩ := distinct
    obtain ⟨d, gives, made⟩ := ih distinct
    rw [giveAll_append, gives]
    show ∃ d', d.giveAll [part] = .ok d' ∧ _
    rw [giveAll_cons]
    cases has : d.get? part.kind with
    | some entry =>
      -- The draft has a part of this kind, which is among those that were given.
      obtain ⟨same, given⟩ := (made.entries _ entry).mp has
      obtain ⟨other, there, rfl⟩ := List.mem_map.mp given
      exact absurd same (apart _ (List.mem_map_of_mem there) _ (List.mem_singleton_self _))
    | none =>
      have gives' : d.give part = .ok (d.put part.entry) := by rw [give_eq, has]
      exact ⟨d.put part.entry, by rw [gives']; rfl, made.put has⟩

/-- A part of a kind that was given before is a misuse, whatever comes behind it. -/
theorem giveAll_of_repeat (new : start.Made start.verbs []) {before : List (RulePart P)}
    {part : RulePart P} (distinct : (before.map RulePart.kind).Nodup)
    (repeats : part.kind ∈ before.map RulePart.kind) (after : List (RulePart P)) :
    ∃ earlier ∈ before, earlier.kind = part.kind ∧
      start.giveAll (before ++ part :: after) = .error earlier.misuse := by
  obtain ⟨d, gives, made⟩ := giveAll_of_nodup new distinct
  obtain ⟨earlier, given, same⟩ := List.mem_map.mp repeats
  have has : d.get? part.kind = some earlier.entry :=
    (made.entries _ _).mpr ⟨same, List.mem_map_of_mem given⟩
  have misused : d.give part = .error earlier.misuse := by
    rw [give_eq, has]
    rfl
  refine ⟨earlier, given, same, ?_⟩
  rw [giveAll_append, gives]
  show d.giveAll (part :: after) = _
  rw [giveAll_cons, misused]
  rfl

/-- Among things of which two are of one kind there is a first that is of a kind that was
there before. -/
theorem exists_first_repeat {α β : Type} (kind : α → β) {items : List α}
    (repeats : ¬ (items.map kind).Nodup) :
    ∃ before item after, items = before ++ item :: after ∧ (before.map kind).Nodup ∧
      kind item ∈ before.map kind := by
  -- From the end, as the first repeat of a longer list is that of its front, or its last
  -- item.
  induction items using List.reverseRecOn with
  | nil => exact absurd List.nodup_nil repeats
  | append_singleton items last ih =>
    by_cases distinct : (items.map kind).Nodup
    · refine ⟨items, last, [], rfl, distinct, ?_⟩
      by_contra new
      rw [List.map_append, List.map_singleton, List.nodup_append] at repeats
      refine repeats ⟨distinct, List.pairwise_singleton _ _, fun a there b isLast => ?_⟩
      rw [List.mem_singleton.mp isLast]
      rintro rfl
      exact new there
    · obtain ⟨before, item, after, rfl, front, again⟩ := ih distinct
      exact ⟨before, item, after ++ [last], by simp, front, again⟩

/-! ## What a draft has -/

section Made

variable {d : Draft P} {verbs : Scope} {parts : List (RulePart P)} (made : d.Made verbs parts)
include made

/-- A part that was given is found under its kind. -/
theorem Made.get?_of_mem {part : RulePart P} (there : part ∈ parts) :
    d.get? part.kind = some part.entry :=
  (made.entries _ _).mpr ⟨rfl, List.mem_map_of_mem there⟩

/-- A kind of which no part was given is missing. -/
theorem Made.get?_of_none {kind : RulePart.Kind} (missing : ∀ part ∈ parts, part.kind ≠ kind) :
    d.get? kind = none := by
  refine Option.eq_none_iff_forall_ne_some.mpr fun entry has => ?_
  obtain ⟨same, there⟩ := (made.entries kind entry).mp has
  obtain ⟨part, given, rfl⟩ := List.mem_map.mp there
  exact missing part given same

/-- A draft has of a kind what the first part of this kind gives. -/
theorem Made.get?_eq {α : Type} (kind : RulePart.Kind) (pick : RulePart P → Option α)
    (enter : α → Entry P)
    (picks : ∀ part a, pick part = some a → part.kind = kind ∧ part.entry = enter a)
    (skips : ∀ part, pick part = none → part.kind ≠ kind) :
    d.get? kind = (parts.findSome? pick).map enter := by
  cases found : parts.findSome? pick with
  | none =>
    rw [List.findSome?_eq_none_iff] at found
    exact made.get?_of_none fun part there => skips part (found part there)
  | some a =>
    obtain ⟨part, there, gives⟩ := List.exists_of_findSome?_eq_some found
    obtain ⟨rfl, entered⟩ := picks part a gives
    rw [made.get?_of_mem there, entered]
    rfl

/-- The direction of a draft is the one that was given. -/
theorem Made.direction_eq : d.direction = parts.findSome? RulePart.direction? := by
  refine Option.map_injective (fun _ _ => Entry.direction.inj) (made.get?_eq .direction _ _ ?_ ?_)
  · rintro (_ | _ | _ | _) a ⟨⟩
    exact ⟨rfl, rfl⟩
  · rintro (_ | _ | _ | _) ⟨⟩ ⟨⟩

/-- The senders of a draft are those that were given. -/
theorem Made.senders_eq :
    d.senders = (parts.findSome? RulePart.senders?).map Scope.ofList := by
  refine Option.map_injective (f := Entry.senders (P := P)) (fun _ _ => Entry.senders.inj) ?_
  rw [Option.map_map]
  refine made.get?_eq .senders _ _ ?_ ?_
  · rintro (_ | _ | _ | _) a ⟨⟩
    exact ⟨rfl, rfl⟩
  · rintro (_ | _ | _ | _) ⟨⟩ ⟨⟩

/-- The receivers of a draft are those that were given. -/
theorem Made.receivers_eq :
    d.receivers = (parts.findSome? RulePart.receivers?).map Scope.ofList := by
  refine Option.map_injective (f := Entry.receivers (P := P)) (fun _ _ => Entry.receivers.inj) ?_
  rw [Option.map_map]
  refine made.get?_eq .receivers _ _ ?_ ?_
  · rintro (_ | _ | _ | _) a ⟨⟩
    exact ⟨rfl, rfl⟩
  · rintro (_ | _ | _ | _) ⟨⟩ ⟨⟩

/-- The content predicate of a draft is the one that was given. -/
theorem Made.content_eq : d.content = parts.findSome? RulePart.content? := by
  refine Option.map_injective (fun _ _ => Entry.content.inj) (made.get?_eq .content _ _ ?_ ?_)
  · rintro (_ | _ | _ | _) a ⟨⟩
    exact ⟨rfl, rfl⟩
  · rintro (_ | _ | _ | _) ⟨⟩ ⟨⟩

end Made

end Draft

/-! ## The finished rule -/

open Draft (begin)

/-- The limit that a list of ids makes; without a list there is none. -/
def Scope.ofList? : Option (List UInt32) → Scope
  | none => .any
  | some ids => .ofList ids

/-- Without a list the scope is the default one. -/
theorem Scope.ofList?_eq (ids : Option (List UInt32)) :
    ofList? ids = (ids.map ofList).getD default := by
  cases ids <;> rfl

/-- An id is within the limit if it is in the list, or if there is no list. -/
theorem Scope.contains_ofList? (ids : Option (List UInt32)) (id : UInt32) :
    (ofList? ids).contains id = true ↔ ∀ members, ids = some members → id ∈ members := by
  cases ids with
  | none => simp [ofList?, contains]
  | some ids => simp [ofList?, ofList, contains, Ascending.mem_ofList]

/-- A list has the members of another one, in ascending order and each once. -/
def Enumerates (sorted ids : List UInt32) : Prop :=
  sorted.Pairwise (· < ·) ∧ ∀ id, id ∈ sorted ↔ id ∈ ids

/-- The members of a scope are those of its list, in order and each once. -/
theorem Scope.enumerates_members? (ids : Option (List UInt32)) :
    Option.Rel Enumerates (ofList? ids).members? ids := by
  cases ids with
  | none => exact .none
  | some ids =>
    refine .some ⟨(Ascending.ascending_ofList ids).imp ?_, fun id => Ascending.mem_ofList ids⟩
    exact fun less => Std.compare_eq_lt.mp less

/-- A rule is what parts make of verbs, with an action. What was not given is outbound and
without limits. -/
structure RuleSpec.Follows (spec : RuleSpec P S) (verbs : Option (List UInt32))
    (parts : List (RulePart P)) (action : Action S) : Prop where
  verbs : spec.verbs = .ofList? verbs
  direction : spec.direction = (parts.findSome? RulePart.direction?).getD .outbound
  senders : spec.senders = .ofList? (parts.findSome? RulePart.senders?)
  receivers : spec.receivers = .ofList? (parts.findSome? RulePart.receivers?)
  content : spec.content = parts.findSome? RulePart.content?
  action : spec.action = action

/-- A rule matches and is described by the ids that were given.

- `scope`: it is about the transfers with these verbs, senders and receivers, of none if
  no id was given and of all if not even a list was;
- `verbs`, `senders`, `receivers`: its description tells them in order. -/
structure Rule.Shows (rule : Rule P S) (verbs : Option (List UInt32))
    (parts : List (RulePart P)) : Prop where
  scope : ∀ direction e, rule.inScope direction e = true ↔
    rule.direction = direction ∧
    (∀ ids, verbs = some ids → e.message.verb ∈ ids) ∧
    (∀ ids, parts.findSome? RulePart.senders? = some ids → e.sender ∈ ids) ∧
    ∀ ids, parts.findSome? RulePart.receivers? = some ids → e.receiver ∈ ids
  verbs : ∀ enabled, Option.Rel Enumerates (rule.describe enabled).verbs verbs
  senders : ∀ enabled, Option.Rel Enumerates (rule.describe enabled).senders
    (parts.findSome? RulePart.senders?)
  receivers : ∀ enabled, Option.Rel Enumerates (rule.describe enabled).receivers
    (parts.findSome? RulePart.receivers?)

/-- What parts make becomes a rule that says so. -/
theorem Draft.Made.follows {draft : Draft P} {verbs : Option (List UInt32)}
    {parts : List (RulePart P)} (made : draft.Made (begin verbs : Draft P).verbs parts)
    (action : Action S) : (draft.finish action).Follows verbs parts action where
  verbs := by
    show draft.verbs = _
    rw [made.verbs]
    cases verbs <;> rfl
  direction := congrArg (·.getD default) made.direction_eq
  senders := by
    rw [Scope.ofList?_eq, ← made.senders_eq]
    rfl
  receivers := by
    rw [Scope.ofList?_eq, ← made.receivers_eq]
    rfl
  content := made.content_eq
  action := rfl

/-- A rule that follows parts matches and is described by the ids in them. -/
theorem RuleSpec.Follows.shows {rule : Rule P S} {verbs : Option (List UInt32)}
    {parts : List (RulePart P)} {action : Action S}
    (follows : rule.toRuleSpec.Follows verbs parts action) : rule.Shows verbs parts where
  scope direction e := by
    simp only [Rule.inScope, Bool.and_eq_true, decide_eq_true_eq, follows.verbs, follows.senders,
      follows.receivers, Scope.contains_ofList?, and_assoc]
  verbs enabled := by
    -- The lists are shown in order and without repetition, but with the same members.
    show Option.Rel Enumerates rule.verbs.members? verbs
    rw [follows.verbs]
    exact Scope.enumerates_members? verbs
  senders enabled := by
    show Option.Rel Enumerates rule.senders.members? _
    rw [follows.senders]
    exact Scope.enumerates_members? _
  receivers enabled := by
    show Option.Rel Enumerates rule.receivers.members? _
    rw [follows.receivers]
    exact Scope.enumerates_members? _

/-- A rule has been added at the end of a chain, switched on, and the others are as they
were. -/
structure Engine.Appends (engine : Engine P S) (rule : Rule P S) (engine' : Engine P S) :
    Prop where
  rules : engine'.rules = engine.rules ++ [rule]
  enabled : engine'.isEnabled rule = true
  others : ∀ other : Rule P S, other.serial < engine.flags.size →
    engine'.isEnabled other = engine.isEnabled other

/-- A registered rule is added at the end of the chain and is on. -/
theorem Engine.appends_register (engine : Engine P S) (spec : RuleSpec P S) :
    engine.Appends (engine.nextRule spec) (engine.register spec) where
  rules := rfl
  enabled := isEnabled_register_nextRule engine spec
  others _ known := isEnabled_register_of_lt engine spec known

/-! ## What comes of a row of parts -/

/-- What giving these parts to a draft that begins with these verbs comes to.

- `distinct`: if no kind is given twice, it comes to a draft;
- `follows`: the rule that is made of it says what was given;
- `rearranged`: the same parts in another order come to the same draft;
- `repeated`: otherwise the first part of a kind that was given before is a misuse. -/
structure Assembly (verbs : Option (List UInt32)) (parts : List (RulePart P))
    (outcome : Except Misuse (Draft P)) : Prop where
  distinct : (parts.map RulePart.kind).Nodup → ∃ draft, outcome = .ok draft
  follows : ∀ {S : Type} draft, outcome = .ok draft → ∀ (action : Action S) (engine : Engine P S),
    (draft.finish action).Follows verbs parts action ∧
    (engine.nextRule (draft.finish action)).Shows verbs parts ∧
    engine.Appends (engine.nextRule (draft.finish action)) (engine.register (draft.finish action))
  rearranged : ∀ draft, outcome = .ok draft → ∀ verbs' parts',
    Option.Rel (fun ids ids' => ∀ id, id ∈ ids ↔ id ∈ ids') verbs verbs' →
    Rearranged parts parts' → (begin verbs').giveAll parts' = .ok draft
  repeated : ¬ (parts.map RulePart.kind).Nodup → ∃ before part after, ∃ earlier ∈ before,
    parts = before ++ part :: after ∧ (before.map RulePart.kind).Nodup ∧
    earlier.kind = part.kind ∧ outcome = .error earlier.misuse

/-- It does not matter in which order the verbs are given, or how often each of them. -/
theorem Draft.begin_congr {verbs verbs' : Option (List UInt32)}
    (same : Option.Rel (fun ids ids' => ∀ id, id ∈ ids ↔ id ∈ ids') verbs verbs') :
    (begin verbs : Draft P) = begin verbs' := by
  cases same with
  | none => rfl
  | some same =>
    show ofVerbs _ = ofVerbs _
    rw [ofVerbs, ofVerbs, Scope.ofList, Scope.ofList, Ascending.ofList_congr same]

/-- Giving parts comes to a draft exactly if no kind is given twice. -/
theorem assembly (verbs : Option (List UInt32)) (parts : List (RulePart P)) :
    Assembly verbs parts ((begin verbs).giveAll parts) := by
  by_cases distinct : (parts.map RulePart.kind).Nodup
  · obtain ⟨draft, gives, made⟩ := Draft.giveAll_of_nodup (Draft.made_begin verbs) distinct
    rw [gives]
    refine ⟨fun _ => ⟨draft, rfl⟩, ?_, ?_, fun repeats => absurd distinct repeats⟩
    · rintro S _ ⟨⟩ action engine
      have follows := made.follows action
      exact ⟨follows, RuleSpec.Follows.shows follows, engine.appends_register _⟩
    · rintro _ ⟨⟩ verbs' parts' sameVerbs rearranged
      have perm := rearranged.perm
      -- Parts that are rearranged have the same kinds, so that these draft the rule as
      -- well.
      have kinds : ∀ others : List (RulePart P), others.map RulePart.kind
          = (others.map RulePart.entry).map Draft.Entry.kind := fun _ => (List.map_map ..).symm
      have distinct' : (parts'.map RulePart.kind).Nodup := by
        rw [kinds] at distinct ⊢
        exact ((perm.map _).nodup_iff).mp distinct
      obtain ⟨draft', gives', made'⟩ :=
        Draft.giveAll_of_nodup (Draft.made_begin verbs') distinct'
      rw [← Draft.begin_congr sameVerbs] at gives' made' ⊢
      rw [gives', made.ext made' perm]
  · obtain ⟨before, part, after, rfl, front, again⟩ :=
      Draft.exists_first_repeat RulePart.kind distinct
    obtain ⟨earlier, given, same, misused⟩ :=
      Draft.giveAll_of_repeat (Draft.made_begin verbs) front again after
    rw [misused]
    refine ⟨fun distinct' => absurd distinct' distinct, by rintro S _ ⟨⟩, by rintro _ ⟨⟩,
      fun _ => ⟨before, part, after, earlier, given, rfl, front, same, rfl⟩⟩

end Netsieve
