import Netsieve.Scenario.Answer
import Netsieve.Scenario.Language

/-!
# `Netsieve.Scenario.Stage`: what a running scenario remembers

A scenario keeps engines, handles, networks and inboxes under names of its own
choosing (`Names`). A name stands for one thing; giving it to another takes it away
from the first.

The memory of a scenario's callbacks (`Stage`) has the names in use, a count of
calls for every callback, and the log. With it the types of `Netsieve.World` can
be filled in: a predicate is a condition together with the rule it belongs to and
the place of its count, and likewise for suppliers; a sink is a reaction together
with the name of its network.
-/

set_option autoImplicit false

namespace Netsieve

/-- Things by name, each name at most once. -/
structure Names (α : Type) where
  /-- The names and what they stand for. -/
  toList : List (String × α) := []

namespace Names

variable {α : Type}

/-- What a name stands for. -/
def get? (ns : Names α) (name : String) : Option α :=
  (ns.toList.find? (·.1 = name)).map (·.2)

/-- Takes a name out of use. -/
def erase (ns : Names α) (name : String) : Names α :=
  ⟨ns.toList.filter (·.1 ≠ name)⟩

/-- Gives a name to a thing. -/
def insert (ns : Names α) (name : String) (a : α) : Names α :=
  ⟨(name, a) :: (ns.erase name).toList⟩

/-- Whether some name stands for a thing with a property. -/
def any (ns : Names α) (p : α → Bool) : Bool :=
  ns.toList.any fun n => p n.2

/-- A name stands for what it was last given to. -/
theorem get?_insert_self (ns : Names α) (name : String) (a : α) :
    (ns.insert name a).get? name = some a := by
  simp [get?, insert]

end Names

end Netsieve

namespace Netsieve.Scenario

/-- A condition in use as the predicate of a rule. -/
structure Predicate where
  /-- The name of the rule. -/
  rule : String
  counter : Nat
  condition : Condition

/-- A plan in use as the supplier of a rule. -/
structure Supplier where
  /-- The name of the rule. -/
  rule : String
  counter : Nat
  plan : Plan

/-- A reaction in use as a sink. -/
structure Sink where
  /-- The name of the network. -/
  network : String
  reaction : Reaction

/-- The receiving end of a node. -/
structure InboxRef where
  /-- The network of the node. -/
  network : NetworkRef
  id : NodeId

/-- What a running scenario remembers. -/
structure Stage where
  engines : Names EngineRef := {}
  drafts : Names (EngineRef × Draft Predicate) := {}
  handles : Names (RuleHandle Predicate Supplier) := {}
  networks : Names NetworkRef := {}
  inboxes : Names InboxRef := {}
  /-- How often each callback was called. -/
  counters : Array Nat := #[]
  /-- The callbacks that ran, the latest last. -/
  log : Array LogEntry := #[]

/-- The callbacks of a scenario. -/
abbrev script : Signature where
  Predicate := Predicate
  Supplier := Supplier
  Sink := Sink
  Memory := Stage

/-- A program of a scenario. -/
abbrev Program : Type → Type :=
  Run script

/-- What the scenario remembers now. -/
def stage : Program Stage := do
  return (← get).memory

/-- Changes what the scenario remembers. -/
def remember (change : Stage → Stage) : Program Unit :=
  modify fun w => { w with memory := change w.memory }

/-- Adds a line to the log. -/
def log (entry : LogEntry) : Program Unit :=
  remember fun s => { s with log := s.log.push entry }

/-- Starts a count. -/
def newCounter : Program Nat := do
  let s ← stage
  remember fun s => { s with counters := s.counters.push 0 }
  pure s.counters.size

/-- Counts a call, and tells how many came before. -/
def countCall (counter : Nat) : Program Nat := do
  let before := (← stage).counters.getD counter 0
  remember fun s => { s with counters := s.counters.setIfInBounds counter (before + 1) }
  pure before

/-- Goes on with the engine of a name. -/
def withEngine (name : String) (next : EngineRef → Program Answer) : Program Answer := do
  match (← stage).engines.get? name with
  | some engine => next engine
  | none => pure (.failed .noSuchName)

/-- Goes on with the network of a name. -/
def withNetwork (name : String) (next : NetworkRef → Program Answer) : Program Answer := do
  match (← stage).networks.get? name with
  | some network => next network
  | none => pure (.failed .noSuchName)

/-- Goes on with the inbox of a name. -/
def withInbox (name : String) (next : InboxRef → Program Answer) : Program Answer := do
  match (← stage).inboxes.get? name with
  | some inbox => next inbox
  | none => pure (.failed .noSuchName)

/-- Goes on with what was read from a text. -/
def withRead {α : Type} (result : Except EndpointError α) (next : α → Program Answer) :
    Program Answer :=
  match result with
  | .ok a => next a
  | .error e => pure (.failed (.endpoint e))

/-- Goes on with the transfer that a scenario writes. -/
def withTransfer (spec : TransferSpec) (next : Envelope → Program Answer) : Program Answer :=
  withRead spec.message.build fun message => next ⟨spec.sender, spec.receiver, message⟩

/-- Gives up an inbox. -/
def closeInbox (inbox : InboxRef) : Program Unit :=
  modify fun w => w.setNetwork inbox.network ((w.network inbox.network).closeInbox inbox.id)

/-- Gives a name to an inbox. The inbox that had the name is given up. -/
def nameInbox (name : String) (inbox : InboxRef) : Program Unit := do
  match (← stage).inboxes.get? name with
  | some old => closeInbox old
  | none => pure ()
  remember fun s => { s with inboxes := s.inboxes.insert name inbox }

end Netsieve.Scenario
