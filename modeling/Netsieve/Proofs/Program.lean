import Netsieve.World

/-!
# `Netsieve.Proofs.Program`: programs, one step after the other

A program of type `Run` ends with a value or with a panic, and leaves a world behind
in both cases (`worldAfter`). The equations `bind_of_ok` and `bind_of_error` take a
program apart at its first step.

Much of what is to be said about a program is a relation between the world it starts
in and the world it leaves: no time passes, the networks stay as they are. `Leads R`
says that a program leads only to worlds that `R` relates to where it started. For a
relation that can be chained, it is enough to look at the parts of the program.
-/

set_option autoImplicit false

namespace Netsieve

variable {σ : Signature} {α β : Type}

/-- What a program ends with: a value or a panic, and a world in either case. -/
abbrev Outcome (σ : Signature) (α : Type) : Type :=
  EStateM.Result Panic (World σ) α

/-- The world of an outcome. -/
def Outcome.world : Outcome σ α → World σ
  | .ok _ w => w
  | .error _ w => w

/-- The world that a program leaves behind, with a value or with a panic. -/
def worldAfter (program : Run σ α) (w : World σ) : World σ :=
  Outcome.world (program w)

/-- A program that returns leaves the world that it returns with. -/
theorem worldAfter_of_ok {program : Run σ α} {w w' : World σ} {a : α}
    (h : program w = .ok a w') : worldAfter program w = w' := by
  rw [worldAfter, h, Outcome.world]

/-- A program that panics leaves the world in which it does. -/
theorem worldAfter_of_error {program : Run σ α} {w w' : World σ} {p : Panic}
    (h : program w = .error p w') : worldAfter program w = w' := by
  rw [worldAfter, h, Outcome.world]

/-- A program whose first step gives a value goes on with that value. -/
theorem bind_of_ok {first : Run σ α} {next : α → Run σ β} {w w' : World σ} {a : α}
    (h : first w = .ok a w') : (first >>= next) w = next a w' := by
  show EStateM.bind first next w = next a w'
  rw [EStateM.bind, h]

/-- A program whose first step panics ends there. -/
theorem bind_of_error {first : Run σ α} {next : α → Run σ β} {w w' : World σ} {p : Panic}
    (h : first w = .error p w') : (first >>= next) w = .error p w' := by
  show EStateM.bind first next w = .error p w'
  rw [EStateM.bind, h]

/-- A program that first reads the world goes on with what it read. -/
theorem get_then (next : World σ → Run σ β) (w : World σ) : (get >>= next) w = next w w :=
  rfl

/-- What comes after a note runs in the world with the note. -/
theorem emit_then (event : Event) (next : Unit → Run σ β) (w : World σ) :
    (emit event >>= next) w = next () (w.record event) :=
  rfl

/-- A program that forgets a panic goes on in the world that the panic left. -/
theorem isolated_eq (program : Run σ Unit) (w : World σ) :
    isolated program w = .ok () (worldAfter program w) := by
  unfold isolated worldAfter
  cases program w <;> rfl

/-- A relation that can be chained and does not look at the log. -/
structure Frame (R : World σ → World σ → Prop) : Prop where
  refl : ∀ w, R w w
  trans : ∀ {a b c}, R a b → R b c → R a c
  record : ∀ w event, R w (w.record event)

/-- A program leads from every world only to worlds that a relation allows. -/
def Leads (R : World σ → World σ → Prop) (program : Run σ α) : Prop :=
  ∀ w, R w (worldAfter program w)

namespace Leads

variable {R : World σ → World σ → Prop}

/-- A program that returns has led to a world that the relation allows. -/
theorem of_ok {program : Run σ α} (h : Leads R program) {w w' : World σ} {a : α}
    (ends : program w = .ok a w') : R w w' :=
  worldAfter_of_ok ends ▸ h w

/-- A program that panics has led to a world that the relation allows. -/
theorem of_error {program : Run σ α} (h : Leads R program) {w w' : World σ} {p : Panic}
    (ends : program w = .error p w') : R w w' :=
  worldAfter_of_error ends ▸ h w

/-- To answer at once leads nowhere. -/
theorem pure (frame : Frame R) (a : α) : Leads R (Pure.pure a : Run σ α) :=
  fun w => frame.refl w

/-- One program after the other leads where both allow. -/
theorem bind (frame : Frame R) {first : Run σ α} {next : α → Run σ β}
    (hfirst : Leads R first) (hnext : ∀ a, Leads R (next a)) : Leads R (first >>= next) := by
  intro w
  cases h : first w with
  | ok a w₁ =>
    have rest : worldAfter (first >>= next) w = worldAfter (next a) w₁ := by
      rw [worldAfter, bind_of_ok h, worldAfter]
    rw [rest]
    exact frame.trans (hfirst.of_ok h) (hnext a w₁)
  | error p w₁ =>
    rw [worldAfter_of_error (bind_of_error h)]
    exact hfirst.of_error h

/-- A program that first reads the world leads where it leads for each reading. -/
theorem get_bind {next : World σ → Run σ β} (h : ∀ w, R w (worldAfter (next w) w)) :
    Leads R (get >>= next) :=
  h

/-- A note leads to a world that differs in the log alone. -/
theorem emit (frame : Frame R) (event : Event) : Leads R (Netsieve.emit event) :=
  fun w => frame.record w event

end Leads

end Netsieve
