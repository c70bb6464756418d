import Mathlib.Data.List.Basic
import Mathlib.Data.List.Induction
import Netsieve.Timeline

/-!
# `Netsieve.Proofs.Timeline.Timetable`: parcels in the order in which they are due

`timetable` puts parcels in the order in which they have to arrive: by the moment at which
they are due, and those of the same moment in the order they were sent. It can be built up
as time goes on (`timetable_later`): first comes what is due by some moment, and then what
is due later, together with what is sent from that moment on.

`nextDue?` finds that earliest moment (`nextDue?_eq_none_iff`, `nextDue?_eq_some_iff`).
-/

set_option autoImplicit false

namespace Netsieve

/-! ## The next moment at which something is due -/

/-- One more parcel is next if it falls due in time and before the others. -/
theorem nextDue?_concat (now limit : Nat) (ps : List Pending) (p : Pending) :
    nextDue? now limit (ps ++ [p]) =
      if h : now < p.due ∧ p.due ≤ limit then
        match nextDue? now limit ps with
        | none => some ⟨p.due, h⟩
        | some due => if p.due < due.1 then some ⟨p.due, h⟩ else some due
      else nextDue? now limit ps := by
  unfold nextDue?
  rw [List.foldl_append]
  rfl

/-- What is found is a moment at which something is due, and nothing is due before it; if
nothing is found, nothing is due. -/
theorem nextDue?_spec (now limit : Nat) (ps : List Pending) :
    match nextDue? now limit ps with
    | none => ∀ p ∈ ps, now < p.due → limit < p.due
    | some due => (∃ p ∈ ps, p.due = due.1) ∧ ∀ p ∈ ps, now < p.due → due.1 ≤ p.due := by
  induction ps using List.reverseRecOn with
  | nil => simp [nextDue?]
  | append_singleton ps p ih =>
    rw [nextDue?_concat]
    -- The last parcel is a candidate or not, and then it competes with what was found before.
    by_cases h : now < p.due ∧ p.due ≤ limit
    · rw [dif_pos h]
      cases found : nextDue? now limit ps with
      | none =>
        rw [found] at ih
        refine ⟨⟨p, by simp, rfl⟩, ?_⟩
        rw [List.forall_mem_append, List.forall_mem_singleton]
        refine ⟨fun q hq later => ?_, fun _ => Nat.le_refl _⟩
        have beyond : limit < q.due := ih q hq later
        exact Nat.le_of_lt (Nat.lt_of_le_of_lt h.2 beyond)
      | some due =>
        rw [found] at ih
        obtain ⟨⟨first, hfirst, attained⟩, least⟩ := ih
        by_cases earlier : p.due < due.1
        · simp only [if_pos earlier, List.forall_mem_append, List.forall_mem_singleton]
          refine ⟨⟨p, by simp, rfl⟩, fun q hq later => ?_, fun _ => Nat.le_refl _⟩
          exact Nat.le_of_lt (Nat.lt_of_lt_of_le earlier (least q hq later))
        · simp only [if_neg earlier, List.forall_mem_append, List.forall_mem_singleton]
          exact ⟨⟨first, by simp [hfirst], attained⟩, least, fun _ => Nat.le_of_not_lt earlier⟩
    · rw [dif_neg h]
      cases found : nextDue? now limit ps with
      | none =>
        rw [found] at ih
        simp only [List.forall_mem_append, List.forall_mem_singleton]
        refine ⟨ih, fun later => ?_⟩
        omega
      | some due =>
        rw [found] at ih
        obtain ⟨⟨first, hfirst, attained⟩, least⟩ := ih
        simp only [List.forall_mem_append, List.forall_mem_singleton]
        refine ⟨⟨first, by simp [hfirst], attained⟩, least, fun later => ?_⟩
        have inside : due.1 ≤ limit := due.2.2
        omega

/-- There is no next moment exactly if nothing falls due in time. -/
theorem nextDue?_eq_none_iff {now limit : Nat} {ps : List Pending} :
    nextDue? now limit ps = none ↔ ∀ p ∈ ps, now < p.due → limit < p.due := by
  have spec := nextDue?_spec now limit ps
  cases found : nextDue? now limit ps with
  | none =>
    rw [found] at spec
    simpa using spec
  | some due =>
    rw [found] at spec
    obtain ⟨⟨p, hp, attained⟩, -⟩ := spec
    have inside : now < due.1 ∧ due.1 ≤ limit := due.2
    refine ⟨(nomatch ·), fun h => ?_⟩
    have beyond : limit < p.due := h p hp (by omega)
    omega

/-- The next moment is the earliest one at which something falls due. -/
theorem nextDue?_eq_some_iff {now limit : Nat} {ps : List Pending}
    {due : { due // now < due ∧ due ≤ limit }} :
    nextDue? now limit ps = some due ↔
      (∃ p ∈ ps, p.due = due.1) ∧ ∀ p ∈ ps, now < p.due → due.1 ≤ p.due := by
  have spec := nextDue?_spec now limit ps
  constructor
  · intro h
    rw [h] at spec
    exact spec
  · -- There is only one such moment, so that it is the one that is found.
    rintro ⟨⟨p, hp, attained⟩, least⟩
    have inside : now < due.1 ∧ due.1 ≤ limit := due.2
    cases found : nextDue? now limit ps with
    | none =>
      have beyond : limit < p.due := nextDue?_eq_none_iff.mp found p hp (by omega)
      omega
    | some other =>
      rw [found] at spec
      obtain ⟨⟨q, hq, reached⟩, first⟩ := spec
      have later : now < other.1 := other.2.1
      have below : due.1 ≤ q.due := least q hq (by omega)
      have above : other.1 ≤ p.due := first p hp (by omega)
      exact congrArg some (Subtype.ext (by omega))

/-! ## What is due later -/

/-- Of what is due later nothing is due yet. -/
theorem filter_due_of_later {ps : List Pending} {t : Nat} (later : ∀ p ∈ ps, t < p.due) :
    (ps.filter fun p => p.due ≤ t) = [] := by
  rw [List.filter_eq_nil_iff]
  intro p hp
  simpa using later p hp

/-- Where everything is due later, nothing is taken out. -/
theorem filter_later_of_later {ps : List Pending} {t : Nat} (later : ∀ p ∈ ps, t < p.due) :
    (ps.filter fun p => t < p.due) = ps := by
  rw [List.filter_eq_self]
  intro p hp
  simpa using later p hp

/-! ## The order of all arrivals -/

/-- Whether a parcel is due no later than another one. -/
def Pending.notAfter (p q : Pending) : Bool :=
  p.due ≤ q.due

/-- Due times are in order: what is due before the second is due before the third. -/
theorem notAfter_trans (p q r : Pending) (first : p.notAfter q = true)
    (second : q.notAfter r = true) : p.notAfter r = true :=
  decide_eq_true (Nat.le_trans (of_decide_eq_true first) (of_decide_eq_true second))

/-- Of two parcels one is due no later than the other. -/
theorem notAfter_total (p q : Pending) : (p.notAfter q || q.notAfter p) = true := by
  unfold Pending.notAfter
  rw [Bool.or_eq_true, decide_eq_true_eq, decide_eq_true_eq]
  exact Nat.le_total p.due q.due

/-- Parcels in the order in which they have to arrive: by the moment at which they are
due, and in the order they were sent for the same moment. -/
def timetable (ps : List Pending) : List Pending :=
  ps.mergeSort Pending.notAfter

/-- A timetable has the same parcels. -/
theorem timetable_perm (ps : List Pending) : (timetable ps).Perm ps :=
  List.mergeSort_perm ps _

/-- The parcels of a timetable are in the order of their due times. -/
theorem timetable_pairwise (ps : List Pending) :
    (timetable ps).Pairwise fun p q => p.due ≤ q.due :=
  (List.pairwise_mergeSort notAfter_trans notAfter_total ps).imp of_decide_eq_true

/-- Of two parcels the one sent first arrives first, unless it is due later. -/
theorem pair_sublist_timetable {ps : List Pending} {p q : Pending} (sent : [p, q].Sublist ps)
    (h : p.due ≤ q.due) : [p, q].Sublist (timetable ps) :=
  List.pair_sublist_mergeSort notAfter_trans notAfter_total (decide_eq_true h) sent

/-- Parcels that are in the order of their due times stay as they are. -/
theorem timetable_of_pairwise {ps : List Pending} (h : ps.Pairwise fun p q => p.due ≤ q.due) :
    timetable ps = ps :=
  List.mergeSort_of_pairwise (h.imp decide_eq_true)

/-- A parcel comes after all that are due earlier and before the others. -/
theorem timetable_cons (p : Pending) (ps : List Pending) :
    timetable (p :: ps) = (timetable ps).filter (fun q => q.due < p.due)
      ++ p :: (timetable ps).filter fun q => p.due ≤ q.due := by
  obtain ⟨earlier, later, whole, others, before⟩ :=
    List.mergeSort_cons notAfter_trans notAfter_total p ps
  -- Sorting is stable, so that a parcel in front stays before all others that are due with
  -- it.
  have hearlier : ∀ q ∈ earlier, q.due < p.due := fun q hq => by
    simpa [Pending.notAfter] using before q hq
  have sorted := timetable_pairwise (p :: ps)
  rw [timetable, whole] at sorted
  have hlater : ∀ q ∈ later, p.due ≤ q.due :=
    (List.pairwise_cons.mp (List.pairwise_append.mp sorted).2.1).1
  have parts : timetable ps = earlier ++ later := others
  have first : (earlier ++ later).filter (fun q => q.due < p.due) = earlier := by
    rw [List.filter_append, List.filter_eq_self.mpr fun q hq => decide_eq_true (hearlier q hq),
      List.filter_eq_nil_iff.mpr fun q hq => by simpa using hlater q hq, List.append_nil]
  have second : (earlier ++ later).filter (fun q => p.due ≤ q.due) = later := by
    rw [List.filter_append, List.filter_eq_self.mpr fun q hq => decide_eq_true (hlater q hq),
      List.filter_eq_nil_iff.mpr fun q hq => by simpa using hearlier q hq, List.nil_append]
  rw [parts, first, second]
  exact whole

/-- A timetable up to some moment, and then the timetable from there on. -/
theorem timetable_split (ps : List Pending) (t : Nat) :
    timetable ps = timetable (ps.filter fun p => p.due ≤ t)
      ++ timetable (ps.filter fun p => t < p.due) := by
  induction ps with
  | nil => simp [timetable]
  | cons p ps ih =>
    have low : ∀ q ∈ timetable (ps.filter fun p => p.due ≤ t), q.due ≤ t := by
      intro q hq
      have := (timetable_perm _).mem_iff.mp hq
      simpa using (List.mem_filter.mp this).2
    have high : ∀ q ∈ timetable (ps.filter fun p => t < p.due), t < q.due := by
      intro q hq
      have := (timetable_perm _).mem_iff.mp hq
      simpa using (List.mem_filter.mp this).2
    rw [timetable_cons, ih, List.filter_append, List.filter_append]
    by_cases h : p.due ≤ t
    · -- Nothing from beyond that moment comes before this parcel.
      have none_before : (timetable (ps.filter fun p => t < p.due)).filter
          (fun q => q.due < p.due) = [] :=
        List.filter_eq_nil_iff.mpr fun q hq => by have := high q hq; simp; omega
      have all_after : (timetable (ps.filter fun p => t < p.due)).filter
          (fun q => p.due ≤ q.due) = timetable (ps.filter fun p => t < p.due) :=
        List.filter_eq_self.mpr fun q hq => by have := high q hq; simp; omega
      rw [none_before, all_after, List.filter_cons_of_pos (by simpa using h),
        List.filter_cons_of_neg (by simpa using h), timetable_cons]
      simp only [List.append_nil, List.append_assoc, List.cons_append]
    · -- Everything up to that moment comes before this parcel.
      have all_before : (timetable (ps.filter fun p => p.due ≤ t)).filter
          (fun q => q.due < p.due) = timetable (ps.filter fun p => p.due ≤ t) :=
        List.filter_eq_self.mpr fun q hq => by have := low q hq; simp; omega
      have none_after : (timetable (ps.filter fun p => p.due ≤ t)).filter
          (fun q => p.due ≤ q.due) = [] :=
        List.filter_eq_nil_iff.mpr fun q hq => by have := low q hq; simp; omega
      rw [all_before, none_after, List.filter_cons_of_neg (by simpa using h),
        List.filter_cons_of_pos (by simpa using h), timetable_cons]
      simp only [List.nil_append, List.append_assoc]

/-- Parcels of the same moment stay in the order in which they were sent. -/
theorem timetable_of_moment {ps : List Pending} {t : Nat} (h : ∀ p ∈ ps, t ≤ p.due) :
    timetable (ps.filter fun p => p.due ≤ t) = ps.filter fun p => p.due ≤ t := by
  refine timetable_of_pairwise (List.pairwise_of_forall_mem_list fun p hp q hq => ?_)
  have atMost : p.due ≤ t := by simpa using (List.mem_filter.mp hp).2
  exact Nat.le_trans atMost (h q (List.mem_filter.mp hq).1)

section Later

variable {ps sent : List Pending} {t limit : Nat}

/-- What is sent from some moment on and is due later comes after what is due by then. -/
theorem timetable_later (h : t ≤ limit) (later : ∀ p ∈ sent, t < p.due) :
    timetable ((ps ++ sent).filter fun p => p.due ≤ limit)
      = timetable (ps.filter fun p => p.due ≤ t)
        ++ timetable (((ps.filter fun p => t < p.due) ++ sent).filter fun p => p.due ≤ limit) := by
  -- What is sent later does not mix with what is due by then.
  have first : ((ps ++ sent).filter fun p => p.due ≤ limit).filter (fun p => p.due ≤ t)
      = ps.filter fun p => p.due ≤ t := by
    have small : ∀ p : Pending, (decide (p.due ≤ t) && decide (p.due ≤ limit))
        = decide (p.due ≤ t) := by
      intro p
      by_cases hp : p.due ≤ t
      · simp [hp, Nat.le_trans hp h]
      · simp [hp]
    rw [List.filter_filter, List.filter_append]
    simp only [small, filter_due_of_later later, List.append_nil]
  have others : ((ps ++ sent).filter fun p => p.due ≤ limit).filter (fun p => t < p.due)
      = ((ps.filter fun p => t < p.due) ++ sent).filter fun p => p.due ≤ limit := by
    rw [List.filter_comm, List.filter_append, filter_later_of_later later]
  rw [timetable_split _ t, first, others]

/-- What is due by some moment is not among what is left after a later one. -/
theorem remaining_later (h : t ≤ limit) :
    (ps ++ sent).filter (fun p => limit < p.due)
      = ((ps.filter fun p => t < p.due) ++ sent).filter fun p => limit < p.due := by
  have great : ∀ p : Pending, (decide (limit < p.due) && decide (t < p.due))
      = decide (limit < p.due) := by
    intro p
    by_cases hp : limit < p.due
    · simp [hp, Nat.lt_of_le_of_lt h hp]
    · simp [hp]
  rw [List.filter_append, List.filter_append, List.filter_filter]
  simp only [great]

end Later

end Netsieve
