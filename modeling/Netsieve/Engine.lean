import Netsieve.Rule.Description

/-!
# `Netsieve.Engine`: a chain of rules

An engine is shared: every clone of it, every network that uses it and every
handle of one of its rules works on the same value. It holds the rules that are in
force, in the order they were registered, and one flag for every rule that was
ever registered.

The flags are kept apart from the rules because they are read and written at
different times. An evaluation works on the list of rules it started with, but
looks up each flag when it gets to the rule; and a handle may switch a rule that
`reset` has long taken out of the chain, which changes a flag that nobody looks up
any more. The number of flags is also the number of the next rule, so numbers are
never used again.
-/

set_option autoImplicit false

namespace Netsieve

/-- The rules of an engine. -/
structure Engine (P S : Type) where
  /-- The rules in force, in order of registration. -/
  rules : List (Rule P S) := []
  /-- Whether each rule ever registered is switched on, by serial number. -/
  flags : Array Bool := #[]

namespace Engine

variable {P S : Type}

/-- An engine without rules. -/
instance : Inhabited (Engine P S) := ⟨{}⟩

/-- The rule that registering a content would give. -/
def nextRule (e : Engine P S) (spec : RuleSpec P S) : Rule P S :=
  { spec with serial := e.flags.size }

/-- Adds a rule at the end of the chain, switched on. -/
def register (e : Engine P S) (spec : RuleSpec P S) : Engine P S where
  rules := e.rules ++ [e.nextRule spec]
  flags := e.flags.push true

/-- Takes all rules out of force. -/
def reset (e : Engine P S) : Engine P S :=
  { e with rules := [] }

/-- Switches a rule on or off. -/
def switch (e : Engine P S) (rule : Rule P S) (on : Bool) : Engine P S :=
  { e with flags := e.flags.setIfInBounds rule.serial on }

/-- Whether a rule is switched on. -/
def isEnabled (e : Engine P S) (rule : Rule P S) : Bool :=
  e.flags.getD rule.serial true

/-- How many rules are in force. -/
def size (e : Engine P S) : Nat :=
  e.rules.length

/-- What can be told about the rules in force. -/
def describe (e : Engine P S) : List Description :=
  e.rules.map fun r => r.describe (e.isEnabled r)

/-- The diagnostic text of an engine. -/
def inspect (e : Engine P S) : List Char :=
  Inspect.record "MessageFilters"
    [("filters", Inspect.list (e.rules.map fun r => r.inspect (e.isEnabled r)))]

/-! ## What each operation does to the chain and to the flags -/

/-- A new rule comes last in the chain. -/
@[simp] theorem rules_register (e : Engine P S) (spec : RuleSpec P S) :
    (e.register spec).rules = e.rules ++ [e.nextRule spec] :=
  rfl

/-- A new rule has a flag of its own. -/
@[simp] theorem size_flags_register (e : Engine P S) (spec : RuleSpec P S) :
    (e.register spec).flags.size = e.flags.size + 1 := by
  simp [register]

/-- Switching a rule adds no flag and takes none away. -/
@[simp] theorem size_flags_switch (e : Engine P S) (rule : Rule P S) (on : Bool) :
    (e.switch rule on).flags.size = e.flags.size := by
  simp [switch]

/-- The flags outlive the rules, because handles still refer to them. -/
@[simp] theorem isEnabled_reset (e : Engine P S) (rule : Rule P S) :
    e.reset.isEnabled rule = e.isEnabled rule :=
  rfl

/-- A new rule is switched on. -/
@[simp] theorem isEnabled_register_nextRule (e : Engine P S) (spec : RuleSpec P S) :
    (e.register spec).isEnabled (e.nextRule spec) = true := by
  simp [isEnabled, register, nextRule]

/-- Registering a rule leaves the flags of the rules before it alone. -/
theorem isEnabled_register_of_lt (e : Engine P S) (spec : RuleSpec P S) {rule : Rule P S}
    (h : rule.serial < e.flags.size) :
    (e.register spec).isEnabled rule = e.isEnabled rule := by
  have older : rule.serial < e.flags.size + 1 := by omega
  simp [isEnabled, register, Array.getD, h, older, Array.getElem_push_lt h]

/-- A rule is switched to what was asked for, if it has a flag. -/
theorem isEnabled_switch_self (e : Engine P S) {rule : Rule P S} (on : Bool)
    (h : rule.serial < e.flags.size) : (e.switch rule on).isEnabled rule = on := by
  simp [isEnabled, switch, Array.getD, h]

/-- A handle switches its own rule and no other. -/
theorem isEnabled_switch_of_ne (e : Engine P S) {rule other : Rule P S} (on : Bool)
    (h : rule.serial ≠ other.serial) :
    (e.switch rule on).isEnabled other = e.isEnabled other := by
  unfold isEnabled switch
  rw [Array.getD_eq_getD_getElem?, Array.getD_eq_getD_getElem?, Array.getElem?_setIfInBounds_ne h]

end Engine

end Netsieve
