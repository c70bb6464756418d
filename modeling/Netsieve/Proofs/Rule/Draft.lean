import Netsieve.Proofs.Ascending
import Netsieve.Rule.Draft

/-!
# `Netsieve.Proofs.Rule.Draft`: what drafts can be made of

Rules start as drafts, and the scopes of a draft come from lists of ids. So a limit is a list
that is ascending already, and the same limit comes of it again.

* `ofList_members?`: an orderly scope comes again of its members.
* `orderly_of_drafted`: a rule that was drafted has orderly scopes.
-/

set_option autoImplicit false

namespace Netsieve

/-- The members of a scope, if it is a limit, are ascending. -/
def Scope.Orderly (scope : Scope) : Prop :=
  ∀ ids, scope.members? = some ids → Ascending.IsAscending compare ids

namespace Scope

/-- Without a limit there is nothing to be out of order. -/
theorem orderly_any : Orderly any := by
  intro ids limit
  cases limit

/-- A limit that is made of a list is orderly. -/
theorem orderly_ofList (ids : List UInt32) : Orderly (ofList ids) := by
  intro members limit
  cases limit
  exact Ascending.ascending_ofList ids

/-- An orderly scope comes again of its members, if it is a limit, and is no limit otherwise. -/
theorem ofList_members? {scope : Scope} (h : scope.Orderly) :
    (scope.members?.map ofList).getD any = scope := by
  cases scope with
  | any => rfl
  | only ids =>
    show ofList ids = only ids
    rw [ofList, Ascending.ofList_of_ascending (h ids rfl)]

end Scope

namespace Draft

variable {P S : Type}

/-- The scopes that a draft has so far are orderly. -/
structure Orderly (d : Draft P) : Prop where
  verbs : d.verbs.Orderly
  senders : ∀ scope, d.senders = some scope → scope.Orderly
  receivers : ∀ scope, d.receivers = some scope → scope.Orderly

/-- A draft for all verbs is orderly. -/
theorem orderly_allVerbs : Orderly (allVerbs : Draft P) :=
  ⟨Scope.orderly_any, by simp [allVerbs], by simp [allVerbs]⟩

/-- A draft for the verbs in a list is orderly. -/
theorem orderly_ofVerbs (verbs : List UInt32) : Orderly (ofVerbs verbs : Draft P) :=
  ⟨Scope.orderly_ofList verbs, by simp [ofVerbs], by simp [ofVerbs]⟩

/-- A scope that a draft has behind a part is one it had before it, or comes from a list. -/
theorem scopes_of_give {d d' : Draft P} {part : RulePart P} (given : d.give part = .ok d') :
    d'.verbs = d.verbs ∧
    (d'.senders = d.senders ∨ ∃ ids, d'.senders = some (.ofList ids)) ∧
    (d'.receivers = d.receivers ∨ ∃ ids, d'.receivers = some (.ofList ids)) := by
  cases part <;> simp only [give] at given <;> split at given <;> cases given <;> simp

/-- A part that is given keeps a draft orderly. -/
theorem Orderly.give {d d' : Draft P} (h : d.Orderly) {part : RulePart P}
    (given : d.give part = .ok d') : d'.Orderly := by
  obtain ⟨verbs, senders, receivers⟩ := scopes_of_give given
  have listed : ∀ {scopes : Option Scope}, (∃ ids, scopes = some (.ofList ids)) →
      ∀ scope, scopes = some scope → scope.Orderly := by
    rintro _ ⟨ids, rfl⟩ _ ⟨⟩
    exact Scope.orderly_ofList ids
  refine ⟨verbs ▸ h.verbs, ?_, ?_⟩
  · exact senders.elim (fun same => same ▸ h.senders) listed
  · exact receivers.elim (fun same => same ▸ h.receivers) listed

/-- Parts that are given keep a draft orderly. -/
theorem Orderly.giveAll {d d' : Draft P} (h : d.Orderly) {parts : List (RulePart P)}
    (given : d.giveAll parts = .ok d') : d'.Orderly := by
  induction parts generalizing d with
  | nil =>
    cases given
    exact h
  | cons part rest ih =>
    rw [Draft.giveAll, List.foldlM_cons] at given
    cases first : d.give part with
    -- A part that is refused ends the chain, and no draft is given.
    | error misuse =>
      rw [first] at given
      cases given
    | ok between =>
      rw [first] at given
      exact ih (h.give first) given

end Draft

namespace RuleSpec

variable {P S : Type}

/-- A rule was made by starting a draft, for all verbs or for the verbs in a list, giving it
parts, and finishing it. -/
inductive Drafted : RuleSpec P S → Prop where
  | intro {start draft : Draft P} {parts : List (RulePart P)}
      (starts : start = .allVerbs ∨ ∃ verbs, start = .ofVerbs verbs)
      (given : start.giveAll parts = .ok draft) (action : Action S) :
      Drafted (draft.finish action)

/-- The scopes of a rule are orderly. -/
structure Orderly (spec : RuleSpec P S) : Prop where
  verbs : spec.verbs.Orderly
  senders : spec.senders.Orderly
  receivers : spec.receivers.Orderly

/-- A rule that was drafted has orderly scopes. -/
theorem orderly_of_drafted {spec : RuleSpec P S} (h : spec.Drafted) : spec.Orderly := by
  cases h with
  | @intro start draft parts starts given action =>
    have orderly : draft.Orderly := by
      rcases starts with rfl | ⟨verbs, rfl⟩
      · exact Draft.orderly_allVerbs.giveAll given
      · exact (Draft.orderly_ofVerbs verbs).giveAll given
    have side : ∀ scope : Option Scope, (∀ s, scope = some s → s.Orderly) →
        (scope.getD default).Orderly := by
      rintro (_ | scope) h
      · exact Scope.orderly_any
      · exact h scope rfl
    exact ⟨orderly.verbs, side _ orderly.senders, side _ orderly.receivers⟩

end RuleSpec

end Netsieve
