import Netsieve.Proofs.Delivery.Traffic
import Netsieve.Proofs.Timeline.Timetable

/-!
# `Netsieve.Proofs.Timeline.Passage`: what happens while time passes

While time passes parcels are handed over and nothing else happens. `late` is the row of
these handovers, each with the world in which it takes place, and `advanceFrom_eq` says
that between them only the clock moves.

* `onSchedule_advance`: every parcel is handed over at the moment at which it is due, in
  the order of the timetable of what was on its way and what sinks have sent meanwhile.
* `advanceFrom_split`: it does not matter whether time passes at once or with a stop on
  the way.
-/

set_option autoImplicit false

namespace Netsieve

variable {σ : Signature}

namespace World

/-- Between two worlds nothing has happened but that time has passed. -/
structure Idle (w w' : World σ) : Prop where
  engines : w'.engines = w.engines
  networks : w'.networks = w.networks
  hasRuntime : w'.hasRuntime = w.hasRuntime
  memory : w'.memory = w.memory

/-- `Idle` can be chained and does not look at the log. -/
theorem Idle.frame : Frame (Idle (σ := σ)) where
  refl _ := ⟨rfl, rfl, rfl, rfl⟩
  trans first second :=
    ⟨second.engines.trans first.engines, second.networks.trans first.networks,
      second.hasRuntime.trans first.hasRuntime, second.memory.trans first.memory⟩
  record _ _ := ⟨rfl, rfl, rfl, rfl⟩

/-- The world when a moment has come and its deliveries are about to be made. -/
def reach (w : World σ) (now : Nat) : World σ :=
  { w with clock := now, pending := w.pending.filter fun p => now < p.due }

/-- When a moment comes, nothing has happened yet but that time has passed. -/
theorem idle_reach (w : World σ) (now : Nat) : Idle w (w.reach now) :=
  ⟨rfl, rfl, rfl, rfl⟩

end World

open World (Idle Extends)

namespace Handover

variable (cb : Callbacks σ)

/-- What is sent in the course of a handover. -/
def sent (h : Handover σ) : List Pending :=
  h.before.added (h.after cb)

/-- Handovers follow each other, and between them only time passes. -/
def Linked : World σ → List (Handover σ) → World σ → Prop
  | w, [], w' => Idle w w'
  | w, h :: rest, w' => Idle w h.before ∧ Linked (h.after cb) rest w'

variable {cb}

/-- Time may pass before the first handover. -/
theorem Linked.of_idle {w here w' : World σ} {hs : List (Handover σ)} (idle : Idle w here)
    (linked : Linked cb here hs w') : Linked cb w hs w' := by
  cases hs with
  | nil => exact Idle.frame.trans idle linked
  | cons h rest => exact ⟨Idle.frame.trans idle linked.1, linked.2⟩

/-- Handovers that follow each other can be put together. -/
theorem Linked.append {w here w' : World σ} {first second : List (Handover σ)}
    (h : Linked cb w first here) (rest : Linked cb here second w') :
    Linked cb w (first ++ second) w' := by
  induction first generalizing w with
  | nil => exact rest.of_idle h
  | cons a first ih => exact ⟨h.1, ih h.2⟩

end Handover

/-! ## The deliveries of one moment -/

/-- A delivery leaves what its handover leaves. If the handover is refused, that is noted. -/
theorem worldAfter_arrive (cb : Callbacks σ) (p : Pending) (w : World σ) :
    worldAfter (p.arrive cb) w =
      match Handover.outcome cb ⟨p, w⟩ with
      | .ok (.error refusal) left => left.record (.deliveryFailed p.envelope refusal)
      | outcome => Outcome.world outcome := by
  unfold Handover.outcome
  cases answer : p.network.handOver cb p.address p.envelope w with
  | error panic left => exact worldAfter_of_error (bind_of_error answer)
  | ok said left =>
    cases said with
    | ok _ => exact worldAfter_of_ok (bind_of_ok answer)
    | error refusal => exact worldAfter_of_ok (bind_of_ok answer)

/-- A delivery ends like the handover that it makes, up to a line in the log. -/
theorem idle_arrive (cb : Callbacks σ) (p : Pending) (w : World σ) :
    Idle (Handover.after cb ⟨p, w⟩) (worldAfter (p.arrive cb) w) ∧
      (worldAfter (p.arrive cb) w).clock = (Handover.after cb ⟨p, w⟩).clock ∧
      (worldAfter (p.arrive cb) w).pending = (Handover.after cb ⟨p, w⟩).pending := by
  rw [worldAfter_arrive]
  unfold Handover.after
  rcases Handover.outcome cb ⟨p, w⟩ with ⟨refusal | _, left⟩ | ⟨panic, left⟩
  · exact ⟨Idle.frame.record left _, rfl, rfl⟩
  · exact ⟨Idle.frame.refl left, rfl, rfl⟩
  · exact ⟨Idle.frame.refl left, rfl, rfl⟩

/-- The handovers of parcels that are delivered one after the other. -/
def handovers (cb : Callbacks σ) : List Pending → World σ → List (Handover σ)
  | [], _ => []
  | p :: rest, w => ⟨p, w⟩ :: handovers cb rest (worldAfter (p.arrive cb) w)

/-- The world in which these deliveries end. -/
def arriveAll (cb : Callbacks σ) : List Pending → World σ → World σ
  | [], w => w
  | p :: rest, w => arriveAll cb rest (worldAfter (p.arrive cb) w)

section Moment

variable (cb : Callbacks σ)

/-- A failed or panicking arrival does not keep the others from arriving. -/
theorem forM_arrive (ps : List Pending) (w : World σ) :
    (ps.forM fun p => isolated (p.arrive cb)) w = .ok () (arriveAll cb ps w) := by
  induction ps generalizing w with
  | nil => rfl
  | cons p rest ih =>
    show (isolated (p.arrive cb) >>= fun _ => rest.forM fun p => isolated (p.arrive cb)) w = _
    rw [bind_of_ok (isolated_eq (p.arrive cb) w), ih]
    rfl

/-- What is due at a moment arrives in the order in which it was sent. -/
theorem deliverDue_eq (now : Nat) (w : World σ) :
    deliverDue cb now w
      = .ok () (arriveAll cb (w.pending.filter fun p => p.due ≤ now) (w.reach now)) :=
  forM_arrive cb _ (w.reach now)

/-- The handovers are those of these parcels, in order. -/
@[simp] theorem map_parcel_handovers (ps : List Pending) (w : World σ) :
    (handovers cb ps w).map Handover.parcel = ps := by
  induction ps generalizing w with
  | nil => rfl
  | cons p rest ih => rw [handovers, List.map_cons, ih]

/-- Deliveries one after the other follow each other without time passing. -/
theorem linked_handovers (ps : List Pending) (w : World σ) :
    Handover.Linked cb w (handovers cb ps w) (arriveAll cb ps w) := by
  induction ps generalizing w with
  | nil => exact Idle.frame.refl w
  | cons p rest ih => exact ⟨Idle.frame.refl w, (ih _).of_idle (idle_arrive cb p w).1⟩

variable {cb}

/-- While the deliveries of a moment are made no time passes, and what they send is
added to what is on its way. -/
theorem extends_arriveAll (lawful : cb.Lawful) (ps : List Pending) (w : World σ) :
    Extends w (arriveAll cb ps w) ∧
      w.added (arriveAll cb ps w) = (handovers cb ps w).flatMap (Handover.sent cb) ∧
      ∀ h ∈ handovers cb ps w, h.before.clock = w.clock := by
  induction ps generalizing w with
  | nil =>
    have nothing : w.added w = [] := World.added_of_calm (World.Calm.frame.refl w)
    exact ⟨Extends.frame.refl w, nothing, by simp [handovers]⟩
  | cons p rest ih =>
    have first : Extends w (worldAfter (p.arrive cb) w) := extends_arrive lawful p w
    obtain ⟨extends_rest, added_rest, clocks⟩ := ih (worldAfter (p.arrive cb) w)
    -- The note after the handover sends nothing.
    have same : w.added (worldAfter (p.arrive cb) w) = Handover.sent cb ⟨p, w⟩ := by
      rw [World.added, (idle_arrive cb p w).2.2]
      rfl
    refine ⟨first.trans extends_rest, ?_, ?_⟩
    · rw [arriveAll, first.added_trans extends_rest, same, added_rest, handovers,
        List.flatMap_cons]
    · intro h hh
      rcases List.mem_cons.mp hh with rfl | hh
      · rfl
      · rw [clocks h hh, first.clock]

end Moment

/-! ## All deliveries up to a moment -/

/-- The handovers of a moment. -/
def World.passing (cb : Callbacks σ) (w : World σ) (now : Nat) : List (Handover σ) :=
  handovers cb (w.pending.filter fun p => p.due ≤ now) (w.reach now)

/-- The world after the deliveries of a moment. -/
def World.pass (cb : Callbacks σ) (w : World σ) (now : Nat) : World σ :=
  arriveAll cb (w.pending.filter fun p => p.due ≤ now) (w.reach now)

/-- The handovers while time passes from `now` to `limit`. -/
def late (cb : Callbacks σ) (now limit : Nat) (w : World σ) : List (Handover σ) :=
  match nextDue? now limit w.pending with
  | none => []
  | some ⟨due, _⟩ => w.passing cb due ++ late cb due limit (w.pass cb due)
termination_by limit - now
decreasing_by omega

section Passage

variable (cb : Callbacks σ) {now limit : Nat} {w : World σ}

/-- Where nothing falls due, nothing is handed over. -/
theorem late_of_none (h : nextDue? now limit w.pending = none) : late cb now limit w = [] := by
  rw [late, h]

/-- The next parcels to fall due are handed over first. -/
theorem late_of_some {due : { due // now < due ∧ due ≤ limit }}
    (h : nextDue? now limit w.pending = some due) :
    late cb now limit w = w.passing cb due.1 ++ late cb due.1 limit (w.pass cb due.1) := by
  rw [late, h]

/-- Where nothing falls due, only the clock moves. -/
theorem advanceFrom_of_none (h : nextDue? now limit w.pending = none) :
    advanceFrom cb now limit w = .ok () { w with clock := limit } := by
  rw [advanceFrom, h]

/-- Time passes up to the next moment at which something is due, and then goes on. -/
theorem advanceFrom_of_some {due : { due // now < due ∧ due ≤ limit }}
    (h : nextDue? now limit w.pending = some due) :
    advanceFrom cb now limit w = advanceFrom cb due.1 limit (w.pass cb due.1) := by
  rw [advanceFrom, h]
  simp only [deliverDue_eq]
  rfl

/-- Time passes without a panic, and at the end the clock shows the end. -/
theorem advanceFrom_eq (now limit : Nat) (w : World σ) :
    ∃ w', advanceFrom cb now limit w = .ok () w' ∧ w'.clock = limit ∧
      Handover.Linked cb w (late cb now limit w) w' := by
  induction now, w using late.induct cb limit with
  | case1 now w found =>
    refine ⟨_, advanceFrom_of_none cb found, rfl, ?_⟩
    rw [late_of_none cb found]
    exact ⟨rfl, rfl, rfl, rfl⟩
  | case2 now w due inside found ih =>
    obtain ⟨w', ends, clock, linked⟩ := ih
    refine ⟨w', (advanceFrom_of_some cb found).trans ends, clock, ?_⟩
    rw [late_of_some cb found]
    exact ((linked_handovers cb _ _).of_idle (World.idle_reach w due)).append linked

/-- As long as nothing is due, it does not matter that time has passed. -/
theorem advanceFrom_of_quiet {mid : Nat} (h : now ≤ mid)
    (quiet : ∀ p ∈ w.pending, now < p.due → mid < p.due) :
    advanceFrom cb now limit w = advanceFrom cb mid limit { w with clock := mid } ∧
      late cb now limit w = late cb mid limit { w with clock := mid } := by
  -- Nothing is due up to the middle, so that the next moment is the same from there.
  cases found : nextDue? now limit w.pending with
  | none =>
    have nothing := nextDue?_eq_none_iff.mp found
    have still : nextDue? mid limit { w with clock := mid }.pending = none :=
      nextDue?_eq_none_iff.mpr fun p hp later => nothing p hp (by omega)
    rw [advanceFrom_of_none cb found, late_of_none cb found, advanceFrom_of_none cb still,
      late_of_none cb still]
    exact ⟨rfl, rfl⟩
  | some due =>
    obtain ⟨⟨p, hp, attained⟩, least⟩ := nextDue?_eq_some_iff.mp found
    have inside : now < due.1 ∧ due.1 ≤ limit := due.2
    have beyond : mid < due.1 := attained ▸ quiet p hp (by omega)
    have still : nextDue? mid limit { w with clock := mid }.pending
        = some ⟨due.1, beyond, inside.2⟩ :=
      nextDue?_eq_some_iff.mpr ⟨⟨p, hp, attained⟩, fun q hq later => least q hq (by omega)⟩
    rw [advanceFrom_of_some cb found, late_of_some cb found, advanceFrom_of_some cb still,
      late_of_some cb still]
    exact ⟨rfl, rfl⟩

/-- Time can pass at once or with a stop on the way. -/
theorem advanceFrom_split {now mid limit : Nat} (h : now ≤ mid) (h' : mid ≤ limit) (w : World σ) :
    advanceFrom cb now limit w
        = advanceFrom cb mid limit (worldAfter (advanceFrom cb now mid) w) ∧
      late cb now limit w
        = late cb now mid w ++ late cb mid limit (worldAfter (advanceFrom cb now mid) w) := by
  -- By induction on the moments up to the middle.
  induction now, w using late.induct cb mid with
  | case1 now w found =>
    have quiet := nextDue?_eq_none_iff.mp found
    rw [worldAfter_of_ok (advanceFrom_of_none cb found), late_of_none cb found]
    exact advanceFrom_of_quiet cb h quiet
  | case2 now w due inside found ih =>
    obtain ⟨attained, least⟩ := nextDue?_eq_some_iff.mp found
    -- A moment before the middle is also one before the limit, and still the first.
    have same : nextDue? now limit w.pending = some ⟨due, inside.1, by omega⟩ :=
      nextDue?_eq_some_iff.mpr ⟨attained, least⟩
    obtain ⟨rest, late_rest⟩ := ih inside.2
    have stop : worldAfter (advanceFrom cb now mid) w
        = worldAfter (advanceFrom cb due mid) (w.pass cb due) := by
      rw [worldAfter, advanceFrom_of_some cb found, worldAfter]
    rw [advanceFrom_of_some cb same, late_of_some cb same, late_of_some cb found, stop, rest,
      late_rest, List.append_assoc]
    exact ⟨rfl, rfl⟩

end Passage

/-! ## The order of the handovers -/

/-- What is on its way is due later. -/
def World.Early (w : World σ) : Prop :=
  ∀ p ∈ w.pending, w.clock < p.due

/-- Between two worlds parcels were handed over as they have to be: each at the moment at
which it is due, and all in the order of the timetable of what was on its way and what was
sent meanwhile, as far as it is due by now. The others are still on their way. -/
structure OnSchedule (w w' : World σ) (hs : List (Handover σ)) (sent : List Pending) : Prop where
  clock : w.clock ≤ w'.clock
  later : ∀ p ∈ sent, w.clock < p.due
  arrivals : hs.map Handover.parcel
    = timetable ((w.pending ++ sent).filter fun p => p.due ≤ w'.clock)
  pending : w'.pending = (w.pending ++ sent).filter fun p => w'.clock < p.due
  punctual : ∀ h ∈ hs, h.before.clock = h.parcel.due

namespace OnSchedule

/-- On schedule, what is still on its way is due later. -/
theorem early {w w' : World σ} {hs : List (Handover σ)} {sent : List Pending}
    (h : OnSchedule w w' hs sent) : w'.Early := by
  intro p hp
  rw [h.pending] at hp
  exact of_decide_eq_true (List.mem_filter.mp hp).2

/-- Nothing gets lost and nothing is doubled. -/
theorem perm {w w' : World σ} {hs : List (Handover σ)} {sent : List Pending}
    (h : OnSchedule w w' hs sent) :
    (hs.map Handover.parcel ++ w'.pending).Perm (w.pending ++ sent) := by
  have rest : w'.pending = (w.pending ++ sent).filter fun p => !decide (p.due ≤ w'.clock) := by
    rw [h.pending]
    refine List.filter_congr fun p _ => ?_
    rw [← decide_not]
    exact decide_eq_decide.mpr Nat.not_le.symm
  rw [h.arrivals, rest]
  exact ((timetable_perm _).append_right _).trans (List.filter_append_perm _ _)

/-- As long as no time passes, nothing has to be handed over. -/
theorem of_extends {w w' : World σ} (h : Extends w w') (early : w.Early) :
    OnSchedule w w' [] (w.added w') := by
  have all_later : ∀ p ∈ w.pending ++ w.added w', w'.clock < p.due := by
    rw [h.clock]
    exact List.forall_mem_append.mpr ⟨early, h.later⟩
  refine ⟨Nat.le_of_eq h.clock.symm, h.later, ?_, ?_, by simp⟩
  · rw [filter_due_of_later all_later, timetable_of_pairwise List.Pairwise.nil]
    rfl
  · rw [filter_later_of_later all_later, h.pending]

/-- Nothing happens on schedule if nothing is due. -/
theorem refl {w : World σ} (early : w.Early) : OnSchedule w w [] [] := by
  have nothing : w.added w = [] := World.added_of_calm (World.Calm.frame.refl w)
  have still := of_extends (Extends.frame.refl w) early
  rw [nothing] at still
  exact still

/-- What happens on schedule up to one moment and from then on happens on schedule. -/
theorem trans {a b c : World σ} {hs hs' : List (Handover σ)} {sent sent' : List Pending}
    (first : OnSchedule a b hs sent) (second : OnSchedule b c hs' sent') :
    OnSchedule a c (hs ++ hs') (sent ++ sent') := by
  refine ⟨Nat.le_trans first.clock second.clock, ?_, ?_, ?_, ?_⟩
  · exact List.forall_mem_append.mpr
      ⟨first.later, fun p hp => Nat.lt_of_le_of_lt first.clock (second.later p hp)⟩
  · rw [List.map_append, first.arrivals, second.arrivals, first.pending, ← List.append_assoc]
    exact (timetable_later second.clock second.later).symm
  · rw [second.pending, first.pending, ← List.append_assoc]
    exact (remaining_later second.clock).symm
  · exact List.forall_mem_append.mpr ⟨first.punctual, second.punctual⟩

end OnSchedule

section Schedule

variable {cb : Callbacks σ} (lawful : cb.Lawful)
include lawful

/-- The deliveries of the next moment are made on schedule. -/
theorem onSchedule_pass {w : World σ} {due : Nat} (later : w.clock < due)
    (first : ∀ p ∈ w.pending, due ≤ p.due) :
    OnSchedule w (w.pass cb due) (w.passing cb due)
      ((w.passing cb due).flatMap (Handover.sent cb)) := by
  obtain ⟨extends_pass, added, clocks⟩ :=
    extends_arriveAll lawful (w.pending.filter fun p => p.due ≤ due) (w.reach due)
  have clock : (w.pass cb due).clock = due := extends_pass.clock
  have parcels : (w.passing cb due).map Handover.parcel = w.pending.filter fun p => p.due ≤ due :=
    map_parcel_handovers cb _ (w.reach due)
  -- Whatever is sent waits for a millisecond at least.
  have sent_later : ∀ p ∈ (w.passing cb due).flatMap (Handover.sent cb), due < p.due := by
    have later := extends_pass.later
    rw [added] at later
    exact later
  have pending : (w.pass cb due).pending = (w.pending.filter fun p => due < p.due)
      ++ (w.passing cb due).flatMap (Handover.sent cb) := by
    have pending := extends_pass.pending
    rw [added] at pending
    exact pending
  refine ⟨by omega, fun p hp => Nat.lt_trans later (sent_later p hp), ?_, ?_, ?_⟩
  · -- What is sent at this moment is due later, so it is not handed over now.
    rw [parcels, clock, List.filter_append, filter_due_of_later sent_later, List.append_nil,
      timetable_of_moment first]
  · rw [pending, clock, List.filter_append, filter_later_of_later sent_later]
  · intro h hh
    have parcel : h.parcel ∈ w.pending.filter fun p => p.due ≤ due := by
      rw [← parcels]
      exact List.mem_map_of_mem hh
    obtain ⟨hp, atMost⟩ := List.mem_filter.mp parcel
    have same_moment : h.before.clock = due := clocks h hh
    have atLeast : due ≤ h.parcel.due := first h.parcel hp
    have below : h.parcel.due ≤ due := of_decide_eq_true atMost
    omega

/-- All deliveries up to some moment are made on schedule. -/
theorem onSchedule_advanceFrom {now limit : Nat} {w : World σ} (clock : w.clock = now)
    (h : now ≤ limit) (early : w.Early) :
    OnSchedule w (worldAfter (advanceFrom cb now limit) w) (late cb now limit w)
      ((late cb now limit w).flatMap (Handover.sent cb)) := by
  induction now, w using late.induct cb limit with
  | case1 now w found =>
    have quiet := nextDue?_eq_none_iff.mp found
    have all_later : ∀ p ∈ w.pending, limit < p.due := fun p hp =>
      quiet p hp (clock ▸ early p hp)
    rw [late_of_none cb found, worldAfter_of_ok (advanceFrom_of_none cb found)]
    refine ⟨clock ▸ h, by simp, ?_, ?_, by simp⟩
    · simp only [List.flatMap_nil, List.append_nil, filter_due_of_later all_later]
      rw [timetable_of_pairwise List.Pairwise.nil]
      rfl
    · simp only [List.flatMap_nil, List.append_nil, filter_later_of_later all_later]
  -- What is due first is delivered in its order, and the rest follows from there.
  | case2 now w due inside found ih =>
    obtain ⟨-, least⟩ := nextDue?_eq_some_iff.mp found
    have first : ∀ p ∈ w.pending, due ≤ p.due := fun p hp => least p hp (clock ▸ early p hp)
    have batch := onSchedule_pass lawful (clock ▸ inside.1) first
    have reached : (w.pass cb due).clock = due :=
      (extends_arriveAll lawful _ (w.reach due)).1.clock
    have stop : worldAfter (advanceFrom cb now limit) w
        = worldAfter (advanceFrom cb due limit) (w.pass cb due) := by
      rw [worldAfter, advanceFrom_of_some cb found, worldAfter]
    rw [stop, late_of_some cb found, List.flatMap_append]
    exact batch.trans (ih reached inside.2 batch.early)

/-- While time passes, all deliveries are made on schedule. -/
theorem onSchedule_advance (ms : Nat) {w : World σ} (early : w.Early) :
    OnSchedule w (worldAfter (advance cb ms) w) (late cb w.clock (w.clock + ms) w)
      ((late cb w.clock (w.clock + ms) w).flatMap (Handover.sent cb)) :=
  onSchedule_advanceFrom lawful rfl (Nat.le_add_right _ _) early

end Schedule

end Netsieve
