import Mathlib.Order.MinMax
import Netsieve.Network.Latency
import Netsieve.Proofs.Duration

/-!
# `Netsieve.Proofs.Network.Latency`: what a network adds up for a message

What a network adds up for a message are durations, pairs of seconds and nanoseconds, but
what it gets is the sum of their lengths, up to the greatest duration. Two additions one
after the other stop there as one does, so it makes no difference which delay is added first.

* `Latency.sum`: the base latency and two delays, as far as these count.
* `totals`: the total for any settings and any two delays, and what follows from the sum.
-/

set_option autoImplicit false

namespace Netsieve.Latency

/-- What the base latency and two delays add up to, each of these as far as it counts. -/
def sum (l : Latency) (outbound inbound : Duration) : Nat :=
  l.base.toNanos + min outbound.toNanos l.maxRuleDelay.toNanos
    + min inbound.toNanos l.maxRuleDelay.toNanos

/-- How long a message takes for which the rules ask for two delays.

- `length`: it is the sum, up to the greatest duration;
- `secs`, `nanos`: the fields are those of this number, so that what makes a second is carried;
- `symmetric`: it makes no difference which direction asks for which delay;
- `atLeast`, `atMost`: it lies between the base latency and that with the most that both
  directions can add;
- `zero`: a message takes no time only if nothing takes time;
- `monotone`: it takes no less time with longer delays and higher settings. -/
structure Totals (l : Latency) (outbound inbound : Duration) : Prop where
  length : (l.total outbound inbound).toNanos
    = min Duration.max.toNanos (l.sum outbound inbound)
  secs : (l.total outbound inbound).secs.toNat
    = min Duration.max.toNanos (l.sum outbound inbound) / 1000000000
  nanos : (l.total outbound inbound).nanos.toNat
    = min Duration.max.toNanos (l.sum outbound inbound) % 1000000000
  symmetric : l.total inbound outbound = l.total outbound inbound
  atLeast : l.base.toNanos ≤ (l.total outbound inbound).toNanos
  atMost : (l.total outbound inbound).toNanos
    ≤ min Duration.max.toNanos (l.base.toNanos + 2 * l.maxRuleDelay.toNanos)
  zero : l.total outbound inbound = .zero ↔
    l.base = .zero ∧ (l.maxRuleDelay = .zero ∨ (outbound = .zero ∧ inbound = .zero))
  monotone : ∀ (l' : Latency) (outbound' inbound' : Duration),
    l.base.toNanos ≤ l'.base.toNanos → l.maxRuleDelay.toNanos ≤ l'.maxRuleDelay.toNanos →
    outbound.toNanos ≤ outbound'.toNanos → inbound.toNanos ≤ inbound'.toNanos →
    (l.total outbound inbound).toNanos ≤ (l'.total outbound' inbound').toNanos

/-- Stopping at the greatest duration twice is stopping there once. -/
theorem toNanos_total (l : Latency) (outbound inbound : Duration) :
    (l.total outbound inbound).toNanos = min Duration.max.toNanos (l.sum outbound inbound) := by
  simp only [total, Duration.toNanos_saturatingAdd, Duration.toNanos_min, sum]
  omega

/-- The sum is at most the base latency and twice the limit. -/
theorem sum_le (l : Latency) (outbound inbound : Duration) :
    l.sum outbound inbound ≤ l.base.toNanos + 2 * l.maxRuleDelay.toNanos := by
  unfold sum
  omega

/-- The sum grows with the settings and with both delays. -/
theorem sum_mono {l l' : Latency} {outbound outbound' inbound inbound' : Duration}
    (base : l.base.toNanos ≤ l'.base.toNanos)
    (most : l.maxRuleDelay.toNanos ≤ l'.maxRuleDelay.toNanos)
    (out : outbound.toNanos ≤ outbound'.toNanos) (into : inbound.toNanos ≤ inbound'.toNanos) :
    l.sum outbound inbound ≤ l'.sum outbound' inbound' :=
  Nat.add_le_add (Nat.add_le_add base (min_le_min out most)) (min_le_min into most)

/-- The sum is zero only if the base latency is, and the limit or both delays. -/
theorem sum_eq_zero_iff {l : Latency} {outbound inbound : Duration} :
    l.sum outbound inbound = 0 ↔
      l.base = .zero ∧ (l.maxRuleDelay = .zero ∨ (outbound = .zero ∧ inbound = .zero)) := by
  simp only [← Duration.toNanos_eq_zero_iff]
  unfold sum
  omega

/-- The total is the sum, as far as there are durations. -/
theorem totals (l : Latency) (outbound inbound : Duration) : l.Totals outbound inbound where
  length := l.toNanos_total outbound inbound
  secs := by rw [Duration.toNat_secs, toNanos_total]
  nanos := by rw [Duration.toNat_nanos, toNanos_total]
  symmetric := by
    refine Duration.eq_of_toNanos_eq ?_
    rw [toNanos_total, toNanos_total, sum, sum, Nat.add_right_comm]
  atLeast := by
    have base := l.base.toNanos_le_max
    rw [toNanos_total]
    exact Nat.le_min.mpr ⟨base, Nat.le_add_right_of_le (Nat.le_add_right _ _)⟩
  atMost := by
    rw [toNanos_total]
    exact min_le_min_left _ (l.sum_le outbound inbound)
  zero := by
    have limit : Duration.max.toNanos ≠ 0 := by decide
    rw [← Duration.toNanos_eq_zero_iff, toNanos_total, Nat.min_eq_zero_iff, or_iff_right limit,
      sum_eq_zero_iff]
  monotone l' outbound' inbound' base most out into := by
    rw [toNanos_total, toNanos_total]
    exact min_le_min_left _ (sum_mono base most out into)

end Netsieve.Latency
