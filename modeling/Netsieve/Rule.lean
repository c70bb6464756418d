import Netsieve.Direction
import Netsieve.Duration
import Netsieve.Message
import Netsieve.Text.Inspect

/-!
# `Netsieve.Rule`: rules and what they do

A rule has conditions of two kinds. The cheap ones, direction and scopes, are data
and are checked here (`inScope`). A scope is either no limit or a set of ids, and an
empty set is not the same as no limit: it admits nothing. The content predicate is a
callback, as is a supplier that computes a delay. A rule only names them: `P` and `S`
are the types of these names, and what they do when called is somebody else's
business.

`serial` counts the rules registered with one engine, from zero. It is what makes
a rule this rule and no other; the id that people see is its 64-bit word.

What a chain of rules decides about a message is a `Verdict`: the message is delivered,
dropped or delayed. A delayed message is still permitted.
-/

set_option autoImplicit false

namespace Netsieve

/-! ## Scopes and verdicts -/

/-- A set of ids, or no limit at all. -/
inductive Scope where
  | any
  /-- These ids, ascending and without repeats. -/
  | only (ids : List UInt32)
  deriving DecidableEq

namespace Scope

/-- No limit. -/
instance : Inhabited Scope := ⟨.any⟩

/-- The set of the ids in a list. -/
def ofList (ids : List UInt32) : Scope :=
  .only (Ascending.ofList compare ids)

/-- Whether an id is inside the limit. -/
def contains : Scope → UInt32 → Bool
  | .any, _ => true
  | .only ids, id => ids.contains id

/-- The members of the set, if there is a limit. -/
def members? : Scope → Option (List UInt32)
  | .any => none
  | .only ids => some ids

/-- The diagnostic text of a scope. -/
def inspect : Scope → List Char
  | .any => "Any".toList
  | .only ids => Inspect.wrapped "Only" (Inspect.set (ids.map fun id => Inspect.nat id.toNat))

end Scope

/-- The decision about one transfer. -/
inductive Verdict where
  /-- No rule applies. -/
  | deliver
  /-- The message never arrives. -/
  | drop
  /-- The message arrives later. -/
  | delay (wait : Duration)
  deriving DecidableEq

namespace Verdict

/-- Whether the message may go on, now or later. -/
def permits : Verdict → Bool
  | .drop => false
  | _ => true

/-- How long the message is held back, unless it is dropped. -/
def wait? : Verdict → Option Duration
  | .deliver => some Duration.zero
  | .drop => none
  | .delay d => some d

/-- The diagnostic text of a verdict. -/
def inspect : Verdict → List Char
  | .deliver => "Deliver".toList
  | .drop => "Drop".toList
  | .delay d => Inspect.wrapped "Delay" d.inspect

end Verdict

/-! ## Rules -/

/-- Where a delay comes from. -/
inductive Delay (S : Type) where
  /-- The same delay for every message. -/
  | fixed (delay : Duration)
  | computed (supplier : S)

/-- What happens to a message that a rule matches. -/
inductive Action (S : Type) where
  | drop
  /-- It is held back. -/
  | delay (delay : Delay S)

/-- The content of a rule, before it is registered. -/
structure RuleSpec (P S : Type) where
  /-- The side of a transfer the rule is about. -/
  direction : Direction
  /-- The verbs it is limited to. -/
  verbs : Scope
  /-- The senders it is limited to. -/
  senders : Scope
  /-- The receivers it is limited to. -/
  receivers : Scope
  /-- The content predicate, if there is one. -/
  content : Option P
  action : Action S

/-- A registered rule. -/
structure Rule (P S : Type) extends RuleSpec P S where
  /-- How many rules were registered before it. -/
  serial : Nat

namespace Delay

variable {S : Type}

/-- The diagnostic text of a delay. A supplier is not shown. -/
def inspect : Delay S → List Char
  | .fixed d => Inspect.wrapped "Fixed" d.inspect
  | .computed _ => "Computed(..)".toList

end Delay

namespace Action

variable {S : Type}

/-- The diagnostic text of an action. -/
def inspect : Action S → List Char
  | .drop => "Drop".toList
  | .delay d => Inspect.wrapped "Delay" d.inspect

end Action

namespace Rule

variable {P S : Type}

/-- The id that people see. -/
def id (r : Rule P S) : UInt64 :=
  UInt64.ofNat r.serial

/-- Whether direction, verb, sender and receiver fit. -/
def inScope (r : Rule P S) (direction : Direction) (e : Envelope) : Bool :=
  r.direction = direction && r.verbs.contains e.message.verb && r.senders.contains e.sender
    && r.receivers.contains e.receiver

/-- The diagnostic text of a rule that is switched on or off. -/
def inspect (r : Rule P S) (enabled : Bool) : List Char :=
  Inspect.record "Filter"
    [("id", Inspect.nat r.id.toNat), ("direction", r.direction.inspect),
      ("verbs", r.verbs.inspect), ("from", r.senders.inspect), ("to", r.receivers.inspect),
      ("matcher", Inspect.bool r.content.isSome), ("action", r.action.inspect),
      ("enabled", Inspect.bool enabled)]

end Rule

end Netsieve
