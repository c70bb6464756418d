import Mathlib.Data.Nat.Count
import Netsieve.Proofs.Engine.History

/-!
# `Netsieve.Proofs.Engine.Selection`: a history without some of its rules

What would an engine be if some rules had never been registered? `only` takes them out of
a history: their registrations, and whatever was done with their handles. The rules that
are left have lower numbers then, so their handles are others (`Rule.renumber`): a rule is
called by the number of rules before it that are left.

* `selects_applyAll`: the engine that comes of it has the rules that are left, in the same
  order and with the same contents, and each of them is on or off as it was.
* `about`, `never`: the rules of one direction, and all rules but one.
-/

set_option autoImplicit false

namespace Netsieve

variable {P S : Type}

section Selection

variable (kept : Nat → Prop) [DecidablePred kept]

/-- A rule under the number it has if only certain rules are registered. -/
def Rule.renumber (rule : Rule P S) : Rule P S :=
  { rule with serial := Nat.count kept rule.serial }

namespace Engine

/-- What is left of a change if only certain rules are registered, at a time when so many
were registered before. -/
def Change.only (before : Nat) : Change P S → List (Change P S)
  | .register spec => if kept before then [.register spec] else []
  | .reset => [.reset]
  | .switch rule on => if kept rule.serial then [.switch (rule.renumber kept) on] else []

/-- What is left of changes if only certain rules are registered, from a time on when so many
were registered before. -/
def only (before : Nat) : List (Change P S) → List (Change P S)
  | [] => []
  | change :: rest =>
    change.only kept before ++ only (before + (registered [change]).length) rest

/-- An engine has certain rules of another one, under their new numbers. -/
structure Selects (engine engine' : Engine P S) : Prop where
  rules : engine'.rules
    = (engine.rules.filter fun rule => kept rule.serial).map (Rule.renumber kept)
  flags : ∀ rule : Rule P S, kept rule.serial →
    engine'.isEnabled (rule.renumber kept) = engine.isEnabled rule
  count : engine'.flags.size = Nat.count kept engine.flags.size

variable {kept}

/-- A rule without a flag counts as switched on. -/
theorem isEnabled_of_size_le {engine : Engine P S} {rule : Rule P S}
    (new : engine.flags.size ≤ rule.serial) : engine.isEnabled rule = true :=
  -- A reset leaves the flags as they are.
  isEnabled_apply_of_size_le new .reset

/-- What is left of a change does to the flag of a rule that is left what the change does to
it. -/
theorem isEnabled_only (before : Nat) (change : Change P S) (engine' : Engine P S)
    {rule : Rule P S} (left : kept rule.serial)
    (known : (rule.renumber kept).serial < engine'.flags.size) :
    (engine'.applyAll (change.only kept before)).isEnabled (rule.renumber kept)
      = (change.switched? rule.serial).getD (engine'.isEnabled (rule.renumber kept)) := by
  cases change with
  | register spec =>
    rw [Change.only]
    split
    · exact isEnabled_register_of_lt engine' spec known
    · rfl
  | reset => rfl
  | switch other on =>
    rw [Change.only]
    split
    · next kept_other =>
      -- Rules that are left have the same new number only if they have the same number.
      have same_iff : (other.renumber kept).serial = (rule.renumber kept).serial
          ↔ other.serial = rule.serial :=
        ⟨fun same => Nat.count_injective kept_other left same,
          fun same => congrArg (Nat.count kept) same⟩
      have switched : (Change.switch (other.renumber kept) on).switched?
            (rule.renumber kept).serial
          = (Change.switch other on).switched? rule.serial :=
        if_congr same_iff rfl rfl
      rw [← switched]
      exact isEnabled_apply engine' (.switch (other.renumber kept) on) known
    · next gone =>
      have apart : other.serial ≠ rule.serial := fun same => gone (same ▸ left)
      rw [Change.switched?, if_neg apart]
      rfl

/-- A rule that is not registered yet counts as switched on. -/
theorem isEnabled_only_of_size_le (before : Nat) (change : Change P S) {engine' : Engine P S}
    {rule : Rule P S} (new : engine'.flags.size ≤ rule.serial) :
    (engine'.applyAll (change.only kept before)).isEnabled rule = true := by
  cases change with
  | register spec =>
    rw [Change.only]
    split
    · exact isEnabled_apply_of_size_le new (.register spec)
    · exact isEnabled_of_size_le new
  | reset => exact isEnabled_of_size_le new
  | switch other on =>
    rw [Change.only]
    split
    · exact isEnabled_apply_of_size_le new (.switch (other.renumber kept) on)
    · exact isEnabled_of_size_le new

namespace Selects

variable {engine engine' : Engine P S}

/-- A new engine has nothing to select from. -/
theorem new : Selects kept ({} : Engine P S) {} where
  rules := rfl
  flags _ _ := rfl
  count := (Nat.count_zero kept).symm

/-- A change keeps as many flags as there are kept rules below the new count. -/
theorem size_apply (h : Selects kept engine engine') (change : Change P S) :
    (engine'.applyAll (change.only kept engine.flags.size)).flags.size
      = Nat.count kept (engine.apply change).flags.size := by
  cases change with
  | register spec =>
    have more : ((engine.apply (.register spec)).flags.size) = engine.flags.size + 1 :=
      size_flags_register engine spec
    -- One more rule counts if it is kept, and then it is registered there too.
    rw [more, Nat.count_succ, Change.only, ← h.count]
    split
    · exact size_flags_register engine' spec
    · rfl
  | reset => exact h.count
  | switch rule on =>
    have same : (engine.apply (.switch rule on)).flags.size = engine.flags.size :=
      size_flags_switch engine rule on
    rw [same, ← h.count, Change.only]
    split
    · exact size_flags_switch engine' (rule.renumber kept) on
    · rfl

/-- After a change the rules in force are still the kept ones under their new numbers. -/
theorem rules_apply (h : Selects kept engine engine') (change : Change P S) :
    (engine'.applyAll (change.only kept engine.flags.size)).rules
      = ((engine.apply change).rules.filter fun rule => kept rule.serial).map
          (Rule.renumber kept) := by
  cases change with
  | register spec =>
    have named : (engine.apply (.register spec)).rules
        = engine.rules ++ [engine.nextRule spec] := rfl
    rw [named, List.filter_append, List.map_append, ← h.rules, Change.only]
    split
    · next left =>
      have stays : ([engine.nextRule spec].filter fun rule => kept rule.serial)
          = [engine.nextRule spec] := List.filter_cons_of_pos (decide_eq_true left)
      -- Its new number is how many were kept before it, and that is how many flags there
      -- are.
      have renamed : (engine.nextRule spec).renumber kept = engine'.nextRule spec := by
        rw [Rule.renumber, nextRule, nextRule, h.count]
      rw [stays, List.map_singleton, renamed]
      rfl
    · next gone =>
      have goes : ([engine.nextRule spec].filter fun rule => kept rule.serial) = [] :=
        List.filter_cons_of_neg fun stays => gone (of_decide_eq_true stays)
      rw [goes, List.map_nil, List.append_nil]
      rfl
  | reset => rfl
  | switch rule on =>
    rw [Change.only]
    split
    · exact h.rules
    · exact h.rules

/-- A change is made, and what is left of it. -/
theorem apply (h : Selects kept engine engine') (change : Change P S) :
    Selects kept (engine.apply change)
      (engine'.applyAll (change.only kept engine.flags.size)) where
  rules := h.rules_apply change
  flags rule left := by
    by_cases known : rule.serial < engine.flags.size
    · have known' : (rule.renumber kept).serial < engine'.flags.size := by
        rw [h.count]
        -- A kept rule below the count has fewer kept ones before it than there are in all.
        exact Nat.count_strict_mono left known
      rw [isEnabled_only _ change engine' left known', isEnabled_apply engine change known,
        h.flags rule left]
    · have new := Nat.le_of_not_lt known
      have new' : engine'.flags.size ≤ (rule.renumber kept).serial := by
        rw [h.count]
        exact Nat.count_monotone kept new
      rw [isEnabled_apply_of_size_le new change, isEnabled_only_of_size_le _ change new']
  count := h.size_apply change

/-- Changes are made, and what is left of them. -/
theorem applyAll (h : Selects kept engine engine') (changes : List (Change P S)) :
    Selects kept (engine.applyAll changes)
      (engine'.applyAll (only kept engine.flags.size changes)) := by
  induction changes generalizing engine engine' with
  | nil => exact h
  | cons change rest ih =>
    have step := ih (h.apply change)
    rw [size_flags_apply, ← applyAll_append] at step
    exact step

end Selects

/-- What is left of a history makes of a new engine one that has the rules that are left. -/
theorem selects_applyAll (kept : Nat → Prop) [DecidablePred kept] (history : List (Change P S)) :
    Selects kept (applyAll {} history) (applyAll {} (only kept 0 history)) :=
  Selects.new.applyAll history

end Engine

end Selection

namespace Engine

/-- A history without the rules of other directions than this one. -/
def about (direction : Direction) (history : List (Change P S)) : List (Change P S) :=
  only (fun serial => (registered history)[serial]?.map RuleSpec.direction = some direction)
    0 history

/-- A history in which a rule is never registered. -/
def never (serial : Nat) (history : List (Change P S)) : List (Change P S) :=
  only (· ≠ serial) 0 history

end Engine

end Netsieve
