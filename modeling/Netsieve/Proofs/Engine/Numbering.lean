import Netsieve.Proofs.Engine.History

/-!
# `Netsieve.Proofs.Engine.Numbering`: no two rules have the same id

An engine numbers its rules in the order in which they are registered, and it never starts
again: a reset takes rules out of force, but not their numbers out of use. `issued` are the
rules that changes register, as their handles name them, whether they are still in force
or not.

* `issued_eq`: the rules issued from an engine on are numbered from its next serial on.
* `map_id_issued`: the ids of the rules that a new engine issues are 0, 1, 2 and so on, as
  long as there are not more of them than there are ids.
* `id_lt_nextRule`: the next rule has a greater id than every rule that was issued before.
* `rules_suffix_issued`: the rules in force are the latest of those that were issued.
* `inOrder_applyAll`: all this together.
-/

set_option autoImplicit false

namespace Netsieve

variable {P S : Type}

namespace Rule

/-- The id of a rule is its serial, if that is a 64-bit number. -/
theorem toNat_id {rule : Rule P S} (small : rule.serial < UInt64.size) :
    rule.id.toNat = rule.serial := by
  rw [id, UInt64.toNat_ofNat']
  exact Nat.mod_eq_of_lt small

end Rule

namespace Engine

/-- The rule that a change registers, if it does. -/
def Change.issues (engine : Engine P S) : Change P S → List (Rule P S)
  | .register spec => [engine.nextRule spec]
  | _ => []

/-- The rules that changes register, in order. -/
def issued (engine : Engine P S) : List (Change P S) → List (Rule P S)
  | [] => []
  | change :: rest => change.issues engine ++ issued (engine.apply change) rest

/-- The numbering of an engine that these changes have made of a new one is in order.

- `counted`: the k-th rule that was ever registered, counted from zero, has the id k;
- `unique`: so no two of them have the same id;
- `latest`, `ascending`: the rules in force are the latest of them, so their ids are
  ascending;
- `next`: the next rule goes on counting;
- `above`: its id is greater than that of every rule before it, in force or not. -/
structure InOrder (history : List (Change P S)) (engine : Engine P S) : Prop where
  counted : ((issued {} history).map fun rule => rule.id.toNat)
    = List.range (registered history).length
  unique : (issued {} history).Pairwise fun rule later => rule.id < later.id
  latest : engine.rules <:+ issued {} history
  ascending : engine.rules.Pairwise fun rule later => rule.id < later.id
  next : ∀ spec, (engine.nextRule spec).id.toNat = (registered history).length
  above : ∀ spec, ∀ rule ∈ issued {} history, rule.id < (engine.nextRule spec).id

/-! ## Numbered rules -/

/-- Numbered rules have consecutive serials. -/
theorem map_serial_numbered (first : Nat) (specs : List (RuleSpec P S)) :
    (numbered first specs).map Rule.serial = List.range' first specs.length := by
  induction specs generalizing first with
  | nil => rfl
  | cons spec rest ih => rw [numbered, List.map_cons, ih, List.length_cons, List.range'_succ]

/-- The serials of numbered rules lie between the first one and the next one to be given. -/
theorem serial_of_mem_numbered {first : Nat} {specs : List (RuleSpec P S)} {rule : Rule P S}
    (there : rule ∈ numbered first specs) :
    first ≤ rule.serial ∧ rule.serial < first + specs.length := by
  have listed : rule.serial ∈ List.range' first specs.length := by
    rw [← map_serial_numbered]
    exact List.mem_map_of_mem there
  exact List.mem_range'_1.mp listed

/-- A numbered rule has the content that stands at its place. -/
theorem getElem?_of_mem_numbered {first : Nat} {specs : List (RuleSpec P S)} {rule : Rule P S}
    (there : rule ∈ numbered first specs) :
    specs[rule.serial - first]? = some rule.toRuleSpec := by
  induction specs generalizing first with
  | nil => cases there
  | cons spec rest ih =>
    rcases List.mem_cons.mp there with rfl | there
    · rw [Nat.sub_self]
      rfl
    · have later := (serial_of_mem_numbered there).1
      have place : rule.serial - first = rule.serial - (first + 1) + 1 := by omega
      rw [place, List.getElem?_cons_succ, ih there]

/-! ## The rules that are issued -/

/-- The rules issued from an engine on are numbered from its next serial on. -/
theorem issued_eq (engine : Engine P S) (changes : List (Change P S)) :
    engine.issued changes = numbered engine.flags.size (registered changes) := by
  induction changes generalizing engine with
  | nil => rfl
  | cons change rest ih =>
    have split : registered (change :: rest) = registered [change] ++ registered rest :=
      registered_append [change] rest
    rw [issued, ih, size_flags_apply, split]
    cases change with
    | register spec => rfl
    | reset => rfl
    | switch rule on => rfl

/-- A new engine numbers its rules from zero on. -/
theorem issued_new (changes : List (Change P S)) :
    issued {} changes = numbered 0 (registered changes) :=
  issued_eq {} changes

/-- A rule that is registered last is issued last, with the next number. -/
theorem issued_snoc (engine : Engine P S) (changes : List (Change P S)) (spec : RuleSpec P S) :
    engine.issued (changes ++ [.register spec])
      = engine.issued changes ++ [(engine.applyAll changes).nextRule spec] := by
  induction changes generalizing engine with
  | nil => rfl
  | cons change rest ih =>
    rw [List.cons_append, issued, ih, issued, List.append_assoc]
    rfl

/-- The rules in force are the latest of those that were issued. -/
theorem rules_suffix_issued (history : List (Change P S)) :
    (applyAll {} history).rules <:+ issued {} history := by
  obtain ⟨before, after, split, -, -, rules⟩ := rules_applyAll history
  refine ⟨numbered 0 (registered before), ?_⟩
  rw [rules, issued_new, split, registered_append, numbered_append, Nat.zero_add]

/-- A rule in force has the content with which it was registered. -/
theorem registered_getElem?_of_mem_rules {history : List (Change P S)} {rule : Rule P S}
    (there : rule ∈ (applyAll {} history).rules) :
    (registered history)[rule.serial]? = some rule.toRuleSpec := by
  have issued_rule := (rules_suffix_issued history).subset there
  rw [issued_new] at issued_rule
  exact getElem?_of_mem_numbered issued_rule

/-- Every issued serial is less than the number of registrations. -/
theorem serial_lt_of_mem_issued {history : List (Change P S)} {rule : Rule P S}
    (there : rule ∈ issued {} history) : rule.serial < (registered history).length := by
  rw [issued_new] at there
  have bounds := serial_of_mem_numbered there
  rw [Nat.zero_add] at bounds
  exact bounds.2

section New

variable {history : List (Change P S)} (few : (registered history).length < UInt64.size)
include few

/-- The ids that a new engine issues are 0, 1, 2 and so on. -/
theorem map_id_issued :
    ((issued {} history).map fun rule => rule.id.toNat)
      = List.range (registered history).length := by
  have serials : (issued {} history).map (fun rule => rule.id.toNat)
      = (issued {} history).map Rule.serial :=
    List.map_congr_left fun rule there =>
      Rule.toNat_id (Nat.lt_trans (serial_lt_of_mem_issued there) few)
  rw [serials, issued_new, map_serial_numbered, List.range_eq_range']

/-- The ids that a new engine issues are ascending. -/
theorem issued_pairwise : (issued {} history).Pairwise fun rule later => rule.id < later.id := by
  have ascending : ((issued {} history).map fun rule => rule.id.toNat).Pairwise (· < ·) := by
    rw [map_id_issued few]
    exact List.pairwise_lt_range
  exact (List.pairwise_map.mp ascending).imp fun less => UInt64.lt_iff_toNat_lt.mpr less

/-- The id of the next rule is the number of rules registered so far. -/
theorem toNat_id_nextRule (spec : RuleSpec P S) :
    ((applyAll {} history).nextRule spec).id.toNat = (registered history).length := by
  have serial : ((applyAll {} history).nextRule spec).serial = (registered history).length :=
    size_flags_applyAll history
  rw [Rule.toNat_id (serial ▸ few), serial]

/-- The next rule has a greater id than every rule that was issued, in force or not. -/
theorem id_lt_nextRule {rule : Rule P S} (there : rule ∈ issued {} history)
    (spec : RuleSpec P S) : rule.id < ((applyAll {} history).nextRule spec).id := by
  have below := serial_lt_of_mem_issued there
  rw [UInt64.lt_iff_toNat_lt, toNat_id_nextRule few, Rule.toNat_id (Nat.lt_trans below few)]
  exact below

/-- The numbering of a new engine is in order, whatever changes are applied to it. -/
theorem inOrder_applyAll : InOrder history (applyAll {} history) where
  counted := map_id_issued few
  unique := issued_pairwise few
  latest := rules_suffix_issued history
  ascending := (issued_pairwise few).sublist (rules_suffix_issued history).sublist
  next := toNat_id_nextRule few
  above spec _ there := id_lt_nextRule few there spec

end New

end Engine

end Netsieve
