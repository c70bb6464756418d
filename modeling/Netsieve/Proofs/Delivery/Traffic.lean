import Netsieve.Proofs.Delivery.Send
import Netsieve.Proofs.Engine.Change
import Netsieve.Timeline

/-!
# `Netsieve.Proofs.Delivery.Traffic`: what is on its way only grows

As long as no time passes, parcels are put on their way and none of them leaves it
(`World.Extends`). That is so for everything a network does (`extends_send` and the
lemmas before it), as long as its callbacks keep to it (`Callbacks.Lawful`). Callbacks
that use networks and engines do: they cannot make time pass, since they have to return
first, and of what is on its way they never learn.
-/

set_option autoImplicit false

namespace Netsieve

variable {σ : Signature}

namespace World

/-- What was put on its way between two worlds. -/
def added (w w' : World σ) : List Pending :=
  w'.pending.drop w.pending.length

/-- No time has passed, and nothing has left its way. What was added is due later. -/
structure Extends (w w' : World σ) : Prop where
  clock : w'.clock = w.clock
  pending : w'.pending = w.pending ++ w.added w'
  later : ∀ p ∈ w.added w', w.clock < p.due

/-- What is put at the end of the parcels on their way is what has been added. -/
theorem added_of_pending {w w' : World σ} {ps : List Pending}
    (h : w'.pending = w.pending ++ ps) : w.added w' = ps := by
  rw [added, h, List.drop_left]

namespace Extends

/-- Parcels that are put on their way at one moment and are due later extend the world. -/
theorem of_pending {w w' : World σ} {ps : List Pending} (clock : w'.clock = w.clock)
    (pending : w'.pending = w.pending ++ ps) (later : ∀ p ∈ ps, w.clock < p.due) :
    Extends w w' := by
  have added := added_of_pending pending
  exact ⟨clock, by rw [added, pending], by rw [added]; exact later⟩

/-- Nothing was put on its way. -/
theorem of_same {w w' : World σ} (clock : w'.clock = w.clock) (pending : w'.pending = w.pending) :
    Extends w w' :=
  of_pending clock (by rw [pending, List.append_nil]) (by simp)

/-- What is added one after the other is added in that order. -/
theorem added_trans {a b c : World σ} (first : Extends a b) (second : Extends b c) :
    a.added c = a.added b ++ b.added c := by
  refine added_of_pending ?_
  rw [second.pending, first.pending, List.append_assoc]

/-- What is added first and what is added next have both been added in the end. -/
theorem trans {a b c : World σ} (first : Extends a b) (second : Extends b c) : Extends a c := by
  have pending : c.pending = a.pending ++ (a.added b ++ b.added c) := by
    rw [second.pending, first.pending, List.append_assoc]
  refine of_pending (second.clock.trans first.clock) pending fun p hp => ?_
  rcases List.mem_append.mp hp with hp | hp
  · exact first.later p hp
  · rw [← first.clock]
    exact second.later p hp

/-- `Extends` can be chained and does not look at the log. -/
theorem frame : Frame (Extends (σ := σ)) where
  refl _ := of_same rfl rfl
  trans := trans
  record _ _ := of_same rfl rfl

end Extends

end World

open World (Extends)

/-- Callbacks put parcels on their way at most. -/
abbrev Callbacks.Lawful (cb : Callbacks σ) : Prop :=
  cb.Obeys Extends

section Lawful

variable {cb : Callbacks σ} (lawful : cb.Lawful) (network : NetworkRef)
include lawful

/-- A handover puts parcels on their way at most. -/
theorem extends_handOver (address : Endpoint) (e : Envelope) :
    Leads Extends (network.handOver cb address e) :=
  leads_handOver network e address Extends.frame lawful.accept fun _ _ _ _ => .of_same rfl rfl

/-- An arrival puts parcels on their way at most. -/
theorem extends_arrive (p : Pending) : Leads Extends (p.arrive cb) := by
  refine Leads.bind Extends.frame (extends_handOver lawful p.network p.address p.envelope) ?_
  intro answer
  cases answer with
  | ok _ => exact Leads.pure Extends.frame _
  | error refusal => exact Leads.emit Extends.frame _

/-- A send puts parcels on their way at most. -/
theorem extends_send (e : Envelope) : Leads Extends (network.send cb e) := by
  refine leads_send network e Extends.frame lawful (fun _ _ _ _ => .of_same rfl rfl) ?_
  intro w p later
  refine .of_pending rfl rfl fun q hq => ?_
  rw [List.mem_singleton.mp hq]
  exact later

end Lawful

/-! ## The other operations put nothing on its way -/

namespace World

/-- No time has passed, and what is on its way is the same. -/
structure Calm (w w' : World σ) : Prop where
  clock : w'.clock = w.clock
  pending : w'.pending = w.pending

/-- `Calm` can be chained and does not look at the log. -/
theorem Calm.frame : Frame (Calm (σ := σ)) where
  refl _ := ⟨rfl, rfl⟩
  trans first second := ⟨second.clock.trans first.clock, second.pending.trans first.pending⟩
  record _ _ := ⟨rfl, rfl⟩

/-- Where time and the parcels stand still, the world is extended by nothing. -/
theorem Extends.of_calm {w w' : World σ} (h : Calm w w') : Extends w w' :=
  .of_same h.clock h.pending

/-- Where the parcels stand still, none is added. -/
theorem added_of_calm {w w' : World σ} (h : Calm w w') : w.added w' = [] :=
  added_of_pending (by rw [h.pending, List.append_nil])

end World

section Calm

open World (Calm)

variable (network : NetworkRef)

/-- A direct delivery puts nothing on its way. -/
theorem calm_deliver (address : Endpoint) (e : Envelope) :
    Leads Calm (network.deliver address e : Run σ Bool) :=
  leads_deliver network Calm.frame (fun _ _ _ _ => ⟨rfl, rfl⟩) address e

/-- The registration of a node puts nothing on its way. -/
theorem calm_register (id : NodeId) (address : Endpoint) :
    Leads Calm (network.register id address : Run σ (Except Refusal Unit)) :=
  leads_register network Calm.frame (fun _ _ _ _ _ _ => ⟨rfl, rfl⟩) id address

/-- The choice of a sink puts nothing on its way. -/
theorem calm_setSink (sink : σ.Sink) : Leads Calm (network.setSink sink : Run σ Unit) :=
  fun _ => ⟨rfl, rfl⟩

/-- The removal of a sink puts nothing on its way. -/
theorem calm_clearSink : Leads Calm (network.clearSink : Run σ Unit) :=
  fun _ => ⟨rfl, rfl⟩

/-- The change of an engine puts nothing on its way. -/
theorem calm_change (engine : EngineRef) (change : Engine.Change σ.Predicate σ.Supplier) :
    Leads Calm (engine.change change : Run σ Unit) := by
  intro w
  cases change <;> exact ⟨rfl, rfl⟩

end Calm

end Netsieve
