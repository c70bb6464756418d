import Netsieve.Rule

/-!
# `Netsieve.Rule.Draft`: rules under construction

A draft starts from the verbs of a rule and collects the rest part by part. Each
part may be given once; giving it again is a mistake in the script that does so,
and is answered with a `Misuse` instead of a draft. Parts that are never given
take their defaults when the draft is finished, so the order of the parts does not
matter.
-/

set_option autoImplicit false

namespace Netsieve

/-- A rule under construction. -/
structure Draft (P : Type) where
  verbs : Scope
  /-- The direction, once given. -/
  direction : Option Direction := none
  /-- The senders, once given. -/
  senders : Option Scope := none
  /-- The receivers, once given. -/
  receivers : Option Scope := none
  /-- The content predicate, once given. -/
  content : Option P := none

/-- Giving a part of a rule that has it already. -/
inductive Misuse where
  /-- The direction is given, namely this one. -/
  | direction (given : Direction)
  | senders
  | receivers
  /-- The content predicate is given. -/
  | content
  deriving DecidableEq

namespace Misuse

/-- What a person is told. -/
def message : Misuse → String
  | .direction given => "filter direction is already set to " ++ given.name
  | .senders => "filter source nodes are already set"
  | .receivers => "filter destination nodes are already set"
  | .content => "filter content predicate is already set"

end Misuse

/-- A part of a rule. -/
inductive RulePart (P : Type) where
  | direction (inbound : Bool)
  | senders (ids : List UInt32)
  | receivers (ids : List UInt32)
  | content (predicate : P)

namespace Draft

variable {P S : Type}

/-- A draft for every verb. -/
def allVerbs : Draft P := { verbs := .any }

/-- A draft for the verbs in a list. -/
def ofVerbs (verbs : List UInt32) : Draft P := { verbs := .ofList verbs }

/-- Gives one part. -/
def give (d : Draft P) : RulePart P → Except Misuse (Draft P)
  | .direction inbound =>
    match d.direction with
    -- Each part may be given once, even if it would be given the same again.
    | some given => .error (.direction given)
    | none => .ok { d with direction := some (.ofInbound inbound) }
  | .senders ids =>
    match d.senders with
    | some _ => .error .senders
    | none => .ok { d with senders := some (.ofList ids) }
  | .receivers ids =>
    match d.receivers with
    | some _ => .error .receivers
    | none => .ok { d with receivers := some (.ofList ids) }
  | .content predicate =>
    match d.content with
    | some _ => .error .content
    | none => .ok { d with content := some predicate }

/-- Gives parts in order, up to the first misuse. -/
def giveAll (d : Draft P) (parts : List (RulePart P)) : Except Misuse (Draft P) :=
  parts.foldlM give d

/-- The rule with an action. A part that was not given takes its default: the
outbound direction, and no limit on senders and receivers. -/
def finish (d : Draft P) (action : Action S) : RuleSpec P S where
  direction := d.direction.getD default
  verbs := d.verbs
  senders := d.senders.getD default
  receivers := d.receivers.getD default
  content := d.content
  action

/-- The diagnostic text of a draft. -/
def inspect (d : Draft P) : List Char :=
  Inspect.openRecord "FilterBuilder"
    [("verbs", d.verbs.inspect), ("direction", Inspect.option Direction.inspect d.direction),
      ("from", Inspect.option Scope.inspect d.senders),
      ("to", Inspect.option Scope.inspect d.receivers),
      ("matcher", Inspect.bool d.content.isSome)]

end Draft

end Netsieve
