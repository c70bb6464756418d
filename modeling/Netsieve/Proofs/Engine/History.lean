import Mathlib.Data.List.Induction
import Netsieve.Proofs.Engine.Change

/-!
# `Netsieve.Proofs.Engine.History`: what an engine keeps of its history

A new engine to which changes are applied is told by them alone. `Replays` says how: the
rules in force are those registered since the last reset, and a rule is on or off as it
was last switched. What a rule is called is its serial, the number of rules registered
before it, so a handle of it switches it even when a reset has taken it out of force.

* `replays_applyAll`: a new engine replays the changes that are applied to it.
* `Alike`: two engines that differ at most in the flags of rules with low serials, while
  no such rule is in force. Changes keep them alike (`Alike.apply`), and so does switching
  such a rule in one of them (`Alike.switch_of_lt`).
-/

set_option autoImplicit false

namespace Netsieve.Engine

variable {P S : Type}

/-- The contents that changes register, in order. -/
def registered (changes : List (Change P S)) : List (RuleSpec P S) :=
  changes.filterMap fun
    | .register spec => some spec
    | _ => none

/-- How a change switches the rule with a serial, if it does. -/
def Change.switched? (serial : Nat) : Change P S → Option Bool
  | .switch rule on => if rule.serial = serial then some on else none
  | _ => none

/-- How changes have last switched the rule with a serial, if they have. -/
def lastSwitched? (serial : Nat) (changes : List (Change P S)) : Option Bool :=
  (changes.filterMap (Change.switched? serial)).getLast?

/-- Rules with these contents, the first of which has this serial. -/
def numbered (first : Nat) : List (RuleSpec P S) → List (Rule P S)
  | [] => []
  | spec :: rest => { spec with serial := first } :: numbered (first + 1) rest

/-- What changes have made of a new engine.

- `rules`: the rules in force are those registered since the last reset, in that order;
- `flags`: a rule is on or off as it was last switched since it was registered, and on
  otherwise;
- `count`: no other rule has a flag. -/
structure Replays (history : List (Change P S)) (engine : Engine P S) : Prop where
  rules : ∃ before after, history = before ++ after ∧
    (before = [] ∨ ∃ earlier, before = earlier ++ [.reset]) ∧ .reset ∉ after ∧
    engine.rules = numbered (registered before).length (registered after)
  flags : ∀ before spec after, history = before ++ .register spec :: after →
    ∀ rule : Rule P S, rule.serial = (registered before).length →
      engine.isEnabled rule = (lastSwitched? rule.serial after).getD true
  count : engine.flags.size = (registered history).length

/-! ## One change after the other -/

/-- The last change is made last. -/
theorem applyAll_snoc (engine : Engine P S) (changes : List (Change P S)) (change : Change P S) :
    engine.applyAll (changes ++ [change]) = (engine.applyAll changes).apply change :=
  applyAll_append engine changes [change]

/-- What is registered is registered in the order of the changes. -/
theorem registered_append (first second : List (Change P S)) :
    registered (first ++ second) = registered first ++ registered second :=
  List.filterMap_append

/-- A later change wins over all earlier ones. -/
theorem lastSwitched?_snoc (serial : Nat) (changes : List (Change P S)) (change : Change P S) :
    lastSwitched? serial (changes ++ [change])
      = (change.switched? serial).or (lastSwitched? serial changes) := by
  unfold lastSwitched?
  rw [List.filterMap_append, List.getLast?_append]
  cases h : change.switched? serial <;> simp [h]

/-- Numbering goes on where it has stopped. -/
theorem numbered_append (first : Nat) (specs more : List (RuleSpec P S)) :
    numbered first (specs ++ more)
      = numbered first specs ++ numbered (first + specs.length) more := by
  induction specs generalizing first with
  | nil => rfl
  | cons spec rest ih =>
    have next : first + 1 + rest.length = first + (spec :: rest).length := by
      rw [List.length_cons]
      omega
    rw [List.cons_append, numbered, ih, next]
    rfl

/-- A change adds a flag if it registers a rule, and otherwise none. -/
theorem size_flags_apply (engine : Engine P S) (change : Change P S) :
    (engine.apply change).flags.size = engine.flags.size + (registered [change]).length := by
  cases change with
  | register spec => exact size_flags_register engine spec
  | reset => rfl
  | switch rule on => exact size_flags_switch engine rule on

/-- There are as many flags as rules were ever registered. -/
theorem size_flags_applyAll (changes : List (Change P S)) :
    (applyAll {} changes).flags.size = (registered changes).length := by
  induction changes using List.reverseRecOn with
  | nil => rfl
  | append_singleton changes change ih =>
    rw [applyAll_snoc, size_flags_apply, ih, registered_append, List.length_append]

/-- A change of an engine is to the flag of a rule what its switching is. -/
theorem isEnabled_apply (engine : Engine P S) (change : Change P S) {rule : Rule P S}
    (known : rule.serial < engine.flags.size) :
    (engine.apply change).isEnabled rule
      = (change.switched? rule.serial).getD (engine.isEnabled rule) := by
  cases change with
  | register spec => exact isEnabled_register_of_lt engine spec known
  | reset => rfl
  | switch other on =>
    by_cases same : other.serial = rule.serial
    · have inside : other.serial < engine.flags.size := by omega
      -- The flag belongs to the serial, whatever else the two rules have in common.
      have itself : (engine.switch other on).isEnabled rule
          = (engine.switch other on).isEnabled other := by
        unfold isEnabled
        rw [same]
      show (engine.switch other on).isEnabled rule = _
      rw [itself, isEnabled_switch_self engine on inside, Change.switched?, if_pos same]
      rfl
    · show (engine.switch other on).isEnabled rule = _
      rw [isEnabled_switch_of_ne engine on same, Change.switched?, if_neg same]
      rfl

/-! ## What is kept of a history -/

/-- The rules in force are those registered since the last reset. -/
theorem rules_applyAll (history : List (Change P S)) :
    ∃ before after, history = before ++ after ∧
      (before = [] ∨ ∃ earlier, before = earlier ++ [.reset]) ∧ .reset ∉ after ∧
      (applyAll {} history).rules = numbered (registered before).length (registered after) := by
  -- The last change decides: a reset starts anew, and a registration goes on counting from
  -- all that were ever registered, not from those in force.
  induction history using List.reverseRecOn with
  | nil => exact ⟨[], [], rfl, .inl rfl, List.not_mem_nil, rfl⟩
  | append_singleton history change ih =>
    obtain ⟨before, after, split, starts, since, rules⟩ := ih
    rw [applyAll_snoc]
    cases change with
    | reset =>
      exact ⟨history ++ [.reset], [], by simp, .inr ⟨history, rfl⟩, List.not_mem_nil, rfl⟩
    | register spec =>
      refine ⟨before, after ++ [.register spec], by simp [split], starts, by simp [since], ?_⟩
      -- There is one flag for each rule that was ever registered, so their number is the
      -- next serial.
      have serial : (applyAll {} history).flags.size
          = (registered before).length + (registered after).length := by
        rw [size_flags_applyAll, split, registered_append, List.length_append]
      rw [registered_append]
      show _ = numbered _ (_ ++ [spec])
      rw [numbered_append, ← rules, ← serial]
      rfl
    | switch rule on =>
      refine ⟨before, after ++ [.switch rule on], by simp [split], starts, by simp [since], ?_⟩
      rw [registered_append]
      show _ = numbered _ (_ ++ [])
      rw [List.append_nil, ← rules]
      rfl

/-- A rule is on or off as it was last switched since it was registered. -/
theorem isEnabled_applyAll (before after : List (Change P S)) (spec : RuleSpec P S)
    {rule : Rule P S} (serial : rule.serial = (registered before).length) :
    (applyAll {} (before ++ .register spec :: after)).isEnabled rule
      = (lastSwitched? rule.serial after).getD true := by
  -- From the last change back, because the last switch wins.
  induction after using List.reverseRecOn with
  | nil =>
    have itself : rule.serial = (nextRule (applyAll {} before) spec).serial := by
      rw [serial, ← size_flags_applyAll before, nextRule]
    rw [applyAll_snoc]
    unfold isEnabled
    rw [itself]
    exact isEnabled_register_nextRule _ spec
  | append_singleton after change ih =>
    -- The rule was registered before, so the change finds its flag.
    have known : rule.serial
        < (applyAll {} (before ++ .register spec :: after)).flags.size := by
      rw [size_flags_applyAll, registered_append, serial, List.length_append]
      simp [registered]
    have whole : before ++ .register spec :: (after ++ [change])
        = (before ++ .register spec :: after) ++ [change] := by simp
    rw [whole, applyAll_snoc, isEnabled_apply _ change known, ih, lastSwitched?_snoc]
    cases change.switched? rule.serial <;> rfl

/-- A new engine replays the changes that are applied to it. -/
theorem replays_applyAll (history : List (Change P S)) :
    Replays history (applyAll {} history) where
  rules := rules_applyAll history
  flags := by
    rintro before spec after rfl rule serial
    exact isEnabled_applyAll before after spec serial
  count := size_flags_applyAll history

/-! ## Switching back, and switching two rules -/

/-- Switching a rule to what it is changes nothing. -/
theorem switch_isEnabled (engine : Engine P S) (rule : Rule P S) :
    engine.switch rule (engine.isEnabled rule) = engine := by
  have same : engine.flags.setIfInBounds rule.serial (engine.isEnabled rule) = engine.flags := by
    refine Array.ext_getElem? fun i => ?_
    rw [Array.getElem?_setIfInBounds]
    split
    · next here =>
      subst here
      split
      · next inside => simp [isEnabled, inside]
      · next outside => rw [Array.getElem?_eq_none (Nat.le_of_not_lt outside)]
    · rfl
  rw [switch, same]

/-- Only the last of two switchings of a rule counts. -/
theorem switch_switch (engine : Engine P S) (rule : Rule P S) (on on' : Bool) :
    (engine.switch rule on).switch rule on' = engine.switch rule on' := by
  simp only [switch, Array.setIfInBounds_setIfInBounds]

/-- Two rules can be switched in either order. -/
theorem switch_comm (engine : Engine P S) {rule other : Rule P S} (on on' : Bool)
    (different : rule.serial ≠ other.serial) :
    (engine.switch rule on).switch other on' = (engine.switch other on').switch rule on := by
  simp only [switch, Array.setIfInBounds_comm _ _ different]

/-! ## Rules that are no longer in force -/

/-- No rule with a serial below a bound is in force or will be. -/
structure Recent (bound : Nat) (engine : Engine P S) : Prop where
  rules : ∀ rule ∈ engine.rules, bound ≤ rule.serial
  count : bound ≤ engine.flags.size

/-- Two engines differ at most in the flags of rules with serials below a bound. -/
structure Alike (bound : Nat) (engine engine' : Engine P S) : Prop where
  recent : engine.Recent bound
  rules : engine'.rules = engine.rules
  count : engine'.flags.size = engine.flags.size
  flags : ∀ rule : Rule P S, bound ≤ rule.serial →
    engine'.isEnabled rule = engine.isEnabled rule

/-- No change brings a rule below the bound into force. -/
theorem Recent.apply {bound : Nat} {engine : Engine P S} (h : engine.Recent bound)
    (change : Change P S) : (engine.apply change).Recent bound := by
  refine ⟨fun rule there => ?_, ?_⟩
  · cases change with
    | register spec =>
      rcases List.mem_append.mp there with there | new
      · exact h.rules rule there
      · rw [List.mem_singleton.mp new]
        exact h.count
    | reset => cases there
    | switch other on => exact h.rules rule there
  · rw [size_flags_apply]
    exact Nat.le_add_right_of_le h.count

/-- After a reset no rule registered before it is in force. -/
theorem recent_applyAll (before after : List (Change P S)) :
    (applyAll {} (before ++ .reset :: after)).Recent (registered before).length := by
  induction after using List.reverseRecOn with
  | nil =>
    rw [applyAll_snoc]
    refine ⟨fun rule there => absurd there List.not_mem_nil, ?_⟩
    rw [size_flags_apply, size_flags_applyAll]
    exact Nat.le_add_right _ _
  | append_singleton after change ih =>
    have whole : before ++ .reset :: (after ++ [change])
        = (before ++ .reset :: after) ++ [change] := by simp
    rw [whole, applyAll_snoc]
    exact ih.apply change

/-- A rule that is not registered yet counts as switched on. -/
theorem isEnabled_apply_of_size_le {engine : Engine P S} {rule : Rule P S}
    (new : engine.flags.size ≤ rule.serial) (change : Change P S) :
    (engine.apply change).isEnabled rule = true := by
  have unknown : ∀ e : Engine P S, e.flags.size ≤ rule.serial → e.isEnabled rule = true := by
    intro e outside
    simp [isEnabled, Array.getD, Nat.not_lt.mpr outside]
  cases change with
  | register spec =>
    -- A rule without a flag counts as on. The only new flag is that of the rule just
    -- registered, which is on.
    by_cases itself : rule.serial = engine.flags.size
    · show (engine.flags.push true).getD rule.serial true = true
      simp [itself]
    · refine unknown _ ?_
      rw [size_flags_apply]
      show engine.flags.size + 1 ≤ rule.serial
      omega
  | reset => exact unknown _ new
  | switch other on => exact unknown _ (by rwa [size_flags_apply])

namespace Alike

variable {bound : Nat} {engine engine' : Engine P S}

/-- An engine is like itself. -/
theorem refl (recent : engine.Recent bound) : Alike bound engine engine :=
  ⟨recent, rfl, rfl, fun _ _ => rfl⟩

/-- A change keeps engines alike. -/
theorem apply (h : Alike bound engine engine') (change : Change P S) :
    Alike bound (engine.apply change) (engine'.apply change) := by
  refine ⟨h.recent.apply change, ?_, ?_, fun rule recent => ?_⟩
  · cases change with
    | register spec =>
      show engine'.rules ++ [engine'.nextRule spec] = engine.rules ++ [engine.nextRule spec]
      rw [nextRule, nextRule, h.rules, h.count]
    | reset => rfl
    | switch rule on => exact h.rules
  · rw [size_flags_apply, size_flags_apply, h.count]
  · -- Whether the change meets a flag of the rule is the same in both engines.
    by_cases known : rule.serial < engine.flags.size
    · have known' : rule.serial < engine'.flags.size := by rwa [h.count]
      rw [isEnabled_apply _ change known, isEnabled_apply _ change known', h.flags rule recent]
    · have new : engine.flags.size ≤ rule.serial := Nat.le_of_not_lt known
      rw [isEnabled_apply_of_size_le new change,
        isEnabled_apply_of_size_le (by rwa [h.count]) change]

/-- Switching a rule with a low serial in one of them keeps engines alike. -/
theorem switch_of_lt (h : Alike bound engine engine') {rule : Rule P S}
    (old : rule.serial < bound) (on : Bool) : Alike bound engine (engine'.switch rule on) := by
  refine ⟨h.recent, h.rules, (size_flags_switch engine' rule on).trans h.count, ?_⟩
  intro other recent
  have different : rule.serial ≠ other.serial := by omega
  rw [isEnabled_switch_of_ne engine' on different, h.flags other recent]

/-- Engines that are alike have as many rules in force. -/
theorem size (h : Alike bound engine engine') : engine'.size = engine.size := by
  rw [Engine.size, Engine.size, h.rules]

/-- What is told about each rule in force is told of engines that are alike in one way. -/
theorem map_rules (h : Alike bound engine engine') {α : Type} (tell : Rule P S → Bool → α) :
    (engine'.rules.map fun rule => tell rule (engine'.isEnabled rule))
      = engine.rules.map fun rule => tell rule (engine.isEnabled rule) := by
  rw [h.rules]
  refine List.map_congr_left fun rule there => ?_
  rw [h.flags rule (h.recent.rules rule there)]

/-- Engines that are alike have the same description. -/
theorem describe (h : Alike bound engine engine') : engine'.describe = engine.describe :=
  h.map_rules Rule.describe

/-- Engines that are alike have the same diagnostic text. -/
theorem inspect (h : Alike bound engine engine') : engine'.inspect = engine.inspect := by
  rw [Engine.inspect, Engine.inspect, h.map_rules Rule.inspect]

end Alike

end Netsieve.Engine
