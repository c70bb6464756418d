import Netsieve.Duration

/-!
# `Netsieve.Proofs.Duration`: durations are lengths

A duration is a pair of seconds and nanoseconds, but everything that is done with one is
meant for its length (`Duration.toNanos`). The fields are told by the length, and so are the
order of durations, the shorter of two and their sum, which is exact up to the greatest
duration.

* `toNat_secs`, `toNat_nanos`: the fields.
* `lt_iff_toNanos_lt`, `toNanos_min`: the order.
* `ofParts?_eq_some_iff`: the duration that seconds and nanoseconds make, if there is one.
* `toNanos_saturatingAdd`: the sum.
* `isZero_iff`, `toNanos_eq_zero_iff`: when no time passes.
-/

set_option autoImplicit false

namespace Netsieve.Duration

/-- The longest duration is one nanosecond short of `2^64` seconds. -/
theorem toNanos_max : max.toNanos = 18446744073709551616 * 1000000000 - 1 := by
  decide

/-- No duration is longer than the longest one. -/
theorem toNanos_le_max (d : Duration) : d.toNanos ≤ max.toNanos := by
  have secs := d.secs.toNat_lt
  have nanos := d.nanos_lt
  rw [toNanos_max, toNanos]
  omega

/-- The fields are told by the length. -/
theorem toNat_secs (d : Duration) : d.secs.toNat = d.toNanos / 1000000000 := by
  have nanos := d.nanos_lt
  unfold toNanos
  omega

/-- The part below a second is what is left over when the whole seconds are taken out. -/
theorem toNat_nanos (d : Duration) : d.nanos.toNat = d.toNanos % 1000000000 := by
  have nanos := d.nanos_lt
  unfold toNanos
  omega

/-- Durations are ordered as their lengths in nanoseconds are. -/
theorem lt_iff_toNanos_lt {a b : Duration} : a < b ↔ a.toNanos < b.toNanos := by
  have first := a.nanos_lt
  have second := b.nanos_lt
  show a.secs < b.secs ∨ a.secs = b.secs ∧ a.nanos < b.nanos ↔ _
  rw [UInt64.lt_iff_toNat_lt, UInt32.lt_iff_toNat_lt, ← UInt64.toNat_inj, toNanos, toNanos]
  omega

/-- The shorter of two durations is the one that has fewer nanoseconds. -/
@[simp] theorem toNanos_min (a b : Duration) : (min a b).toNanos = min a.toNanos b.toNanos := by
  show (if b < a then b else a).toNanos = _
  split
  · next less => rw [Nat.min_eq_right (Nat.le_of_lt (lt_iff_toNanos_lt.mp less))]
  · next most => rw [Nat.min_eq_left (Nat.le_of_not_lt (mt lt_iff_toNanos_lt.mpr most))]

/-- There is one duration of the length that seconds and nanoseconds have, or none. -/
theorem ofParts?_eq_some_iff {secs nanos : Nat} {d : Duration} :
    ofParts? secs nanos = some d ↔ d.toNanos = secs * 1000000000 + nanos := by
  constructor
  · exact toNanos_of_ofParts?
  · intro length
    cases parts : ofParts? secs nanos with
    | some d' => rw [eq_of_toNanos_eq ((toNanos_of_ofParts? parts).trans length.symm)]
    | none =>
      have beyond := ofParts?_eq_none_iff.mp parts
      have most := d.toNanos_le_max
      rw [toNanos_max] at most
      omega

/-- Addition is exact up to the greatest duration. -/
@[simp] theorem toNanos_saturatingAdd (a b : Duration) :
    (a.saturatingAdd b).toNanos = min max.toNanos (a.toNanos + b.toNanos) := by
  have parts : (a.secs.toNat + b.secs.toNat) * 1000000000 + (a.nanos.toNat + b.nanos.toNat)
      = a.toNanos + b.toNanos := by
    unfold toNanos
    omega
  rw [saturatingAdd]
  cases carried : ofParts? (a.secs.toNat + b.secs.toNat) (a.nanos.toNat + b.nanos.toNat) with
  | some d =>
    have sum : d.toNanos = a.toNanos + b.toNanos := (toNanos_of_ofParts? carried).trans parts
    rw [Option.getD_some, ← sum, Nat.min_eq_right d.toNanos_le_max]
  | none =>
    -- If the seconds do not fit, the lengths add up to more than any duration has.
    have beyond := ofParts?_eq_none_iff.mp carried
    rw [Option.getD_none, ← parts, toNanos_max]
    omega

/-- Only `zero` has no length. -/
theorem toNanos_eq_zero_iff {d : Duration} : d.toNanos = 0 ↔ d = .zero :=
  ⟨fun none => eq_of_toNanos_eq none, fun none => none ▸ rfl⟩

/-- What is tested by looking at both fields is whether a duration is `zero`. -/
theorem isZero_iff {d : Duration} : d.isZero = true ↔ d = .zero := by
  constructor
  · intro none
    obtain ⟨secs, nanos⟩ : d.secs = 0 ∧ d.nanos = 0 := by simpa [isZero] using none
    cases d
    cases secs
    cases nanos
    rfl
  · rintro rfl
    rfl

end Netsieve.Duration
