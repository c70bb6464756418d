import Mathlib.Data.List.Induction
import Netsieve.Message

/-!
# `Netsieve.Proofs.Message.Setters`: the last one to set an attribute wins

A setter writes one attribute of a message, but for the origin, which also writes the port
(`Setter.port?`). One more setter overwrites what it writes and keeps all else, so after a
row of setters each attribute is what was last written to it (`applyAll_eq_settled`).

* `applyAll_settles`: what follows for a new message.
-/

set_option autoImplicit false

namespace Netsieve.Message

namespace Setter

/-- The id that a setter writes. -/
def id? : Setter → Option UInt64
  | .id value => some value
  | _ => none

/-- The version that a setter writes. -/
def version? : Setter → Option UInt32
  | .version value => some value
  | _ => none

/-- The origin that a setter writes. -/
def origin? : Setter → Option Endpoint
  | .origin value => some value
  | _ => none

/-- The port that a setter writes: its own, or that of the origin. -/
def port? : Setter → Option UInt16
  | .origin value => some value.port
  | .fromPort value => some value
  | _ => none

end Setter

section Last

variable {α : Type} (writes : Setter → Option α)

/-- What was written last, if anything was written. -/
def lastWritten (setters : List Setter) : Option α :=
  (setters.filterMap writes).getLast?

/-- The later setters win over the earlier ones. -/
theorem lastWritten_append (first rest : List Setter) :
    lastWritten writes (first ++ rest)
      = (lastWritten writes rest).or (lastWritten writes first) := by
  rw [lastWritten, List.filterMap_append, List.getLast?_append]
  rfl

/-- A setter alone is the last to write what it writes. -/
theorem lastWritten_singleton (s : Setter) : lastWritten writes [s] = writes s := by
  cases written : writes s <;> simp [lastWritten, written]

variable {writes}

/-- Setters that write nothing do not count. -/
theorem lastWritten_of_none {setters : List Setter} (none : ∀ s ∈ setters, writes s = none) :
    lastWritten writes setters = Option.none := by
  rw [lastWritten, List.filterMap_eq_nil_iff.mpr none]
  rfl

end Last

/-- A message on whose attributes setters have written, as far as that was not overwritten. -/
def settled (m : Message) (setters : List Setter) : Message where
  verb := m.verb
  payload := m.payload
  id := (lastWritten Setter.id? setters).getD m.id
  version := (lastWritten Setter.version? setters).getD m.version
  origin := (lastWritten Setter.origin? setters).or m.origin
  fromPort := (lastWritten Setter.port? setters).getD m.fromPort

/-- One setter overwrites what it writes and keeps all else. -/
theorem apply_eq_settled (m : Message) (s : Setter) : m.apply s = m.settled [s] := by
  cases s <;> rfl

/-- What was written later overwrites what was written before. -/
theorem settled_settled (m : Message) (first rest : List Setter) :
    (m.settled first).settled rest = m.settled (first ++ rest) := by
  simp only [settled, lastWritten_append, Option.getD_or, Option.or_assoc]

/-- After a row of setters every attribute is what was last written to it. -/
theorem applyAll_eq_settled (m : Message) (setters : List Setter) :
    m.applyAll setters = m.settled setters := by
  induction setters using List.reverseRecOn with
  | nil => rfl
  | append_singleton setters s ih =>
    have last : m.applyAll (setters ++ [s]) = (m.applyAll setters).apply s := List.foldl_append
    rw [last, ih, apply_eq_settled, settled_settled]

/-- What setters make of a new message.

- `last`: each attribute is what was last written to it, and empty if nothing was;
- `congr`: so nothing counts but what was last written;
- `ids`: the id and the version can be set before any other attribute or after it;
- `origins`: an origin keeps its port, whatever other attributes are set after it;
- `ports`: for an origin and a port it matters which is set first, unless they agree. -/
structure Settles (verb : UInt32) (payload : List UInt8) : Prop where
  last : ∀ setters : List Setter, (new verb payload).applyAll setters =
    { verb, payload
      id := (lastWritten Setter.id? setters).getD 0
      version := (lastWritten Setter.version? setters).getD 0
      origin := lastWritten Setter.origin? setters
      fromPort := (lastWritten Setter.port? setters).getD 0 }
  congr : ∀ setters others : List Setter,
    lastWritten Setter.id? setters = lastWritten Setter.id? others →
    lastWritten Setter.version? setters = lastWritten Setter.version? others →
    lastWritten Setter.origin? setters = lastWritten Setter.origin? others →
    lastWritten Setter.port? setters = lastWritten Setter.port? others →
    (new verb payload).applyAll setters = (new verb payload).applyAll others
  ids : ∀ before value s after, s.id? = none →
    (new verb payload).applyAll (before ++ .id value :: s :: after)
      = (new verb payload).applyAll (before ++ s :: .id value :: after)
  versions : ∀ before value s after, s.version? = none →
    (new verb payload).applyAll (before ++ .version value :: s :: after)
      = (new verb payload).applyAll (before ++ s :: .version value :: after)
  origins : ∀ before origin after, (∀ s ∈ after, s.origin? = none) →
    ((new verb payload).applyAll (before ++ .origin origin :: after)).origin = some origin
  ports : ∀ before origin port,
    (new verb payload).applyAll (before ++ [.origin origin, .fromPort port])
      = (new verb payload).applyAll (before ++ [.fromPort port, .origin origin]) ↔
    port = origin.port

/-- Setters that write different attributes can change places. -/
theorem apply_comm {s s' : Setter} (id : s.id? = none ∨ s'.id? = none)
    (version : s.version? = none ∨ s'.version? = none) (port : s.port? = none ∨ s'.port? = none)
    (m : Message) : (m.apply s).apply s' = (m.apply s').apply s := by
  cases s <;> cases s' <;> simp_all [Setter.id?, Setter.version?, Setter.port?] <;> rfl

/-- Setters of which neither overwrites the other can change places in a row of setters. -/
theorem applyAll_swap (m : Message) {s s' : Setter}
    (comm : ∀ m : Message, (m.apply s).apply s' = (m.apply s').apply s)
    (before after : List Setter) :
    m.applyAll (before ++ s :: s' :: after) = m.applyAll (before ++ s' :: s :: after) := by
  simp only [applyAll, List.foldl_append, List.foldl_cons, comm]

/-- After any row of setters each attribute of a new message is what was last written to it.

Two rows that agree on what was last written make the same message of it. The id and the
version can change places with every other attribute. The origin and the port cannot, since
the origin writes the port as well. The port of an origin is never overwritten. -/
theorem applyAll_settles (verb : UInt32) (payload : List UInt8) : Settles verb payload where
  last setters := by
    rw [applyAll_eq_settled, settled, new, Option.or_none]
  congr setters others id version origin port := by
    rw [applyAll_eq_settled, applyAll_eq_settled, settled, settled, id, version, origin, port]
  ids before value s after other :=
    applyAll_swap _ (apply_comm (.inr other) (.inl rfl) (.inl rfl)) before after
  versions before value s after other :=
    applyAll_swap _ (apply_comm (.inl rfl) (.inr other) (.inl rfl)) before after
  origins before origin after none := by
    have last : lastWritten Setter.origin? (before ++ .origin origin :: after) = some origin := by
      -- No later setter writes the origin, so that this one is the last.
      have split : before ++ .origin origin :: after = before ++ [.origin origin] ++ after := by
        simp
      rw [split, lastWritten_append, lastWritten_of_none none, lastWritten_append,
        lastWritten_singleton]
      rfl
    rw [applyAll_eq_settled, settled, last]
    rfl
  ports before origin port := by
    rw [applyAll, applyAll, List.foldl_append, List.foldl_append]
    refine ⟨congrArg Message.fromPort, ?_⟩
    rintro rfl
    rfl

end Netsieve.Message
