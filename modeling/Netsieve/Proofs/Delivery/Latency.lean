import Netsieve.Proofs.Delivery.Trail

/-!
# `Netsieve.Proofs.Delivery.Latency`: how long a message takes

What a network adds up for a message is the total of `Latency.totals`, for the waits that the
rules ask for. It is this total that sending answers if a message is delayed.

* `ruled_of_delayed`: a message is delayed if both directions permit it and the total of what
  they ask for is not zero.
* `send_delayed`: so there are bounds for every delay that sending answers.
-/

set_option autoImplicit false

namespace Netsieve

variable {σ : Signature}

section Sending

variable {cb : Callbacks σ} {network : NetworkRef} {e : Envelope} {w left : World σ} {d : Duration}

/-- What is put on its way takes as long as was asked for, and takes time. -/
theorem eq_of_forward {address : Endpoint} {delay : Duration}
    (h : network.forward cb address e delay w = .ok (.ok (.delayed d)) left) :
    d = delay ∧ delay ≠ .zero := by
  cases prompt : delay.isZero with
  | true =>
    rw [forward_of_zero prompt] at h
    -- What is handed over at once is answered in some other way.
    exact absurd h (handedOver_ne_delayed _ _ _)
  | false =>
    have takes : delay ≠ .zero := by
      rintro rfl
      cases prompt
    cases runtime : w.hasRuntime with
    | false => cases (forward_of_frozen prompt runtime).symm.trans h
    | true =>
      cases (forward_of_runtime prompt runtime).symm.trans h
      exact ⟨rfl, takes⟩

/-- A message is delayed if both directions permit it and its total is not zero. -/
theorem ruled_of_delayed (h : network.send cb e w = .ok (.ok (.delayed d)) left) :
    d ≠ .zero ∧ ∃ target there calls,
      Ruled (Asked cb) network e w (.permitted target d there) calls := by
  obtain ⟨ruling, calls, ruled⟩ := ruled_asked cb network e w
  have way := route_of_asked ruled
  rw [send_eq] at h
  cases ruling with
  | unknown id => cases (bind_of_ok way).symm.trans h
  | dropped direction here => cases (bind_of_ok way).symm.trans h
  | panicked p here => cases (bind_of_error way).symm.trans h
  | permitted target total there =>
    rw [bind_of_ok way] at h
    obtain ⟨rfl, takes⟩ := eq_of_forward h
    exact ⟨takes, target, there, calls, ruled⟩

end Sending

/-- The total of a message is within bounds.

For whatever settings and delays the total in nanoseconds is the base latency and both delays,
each of these limited on its own, and no more than the greatest duration. Seconds and
nanoseconds are those of this number. It is the same if the delays are exchanged, it grows
with delays and settings, it lies between the base latency and that with twice the limit, and
it is zero only if the base latency is zero and so are the limit or both delays. So if sending
answers that a message is delayed, then both directions permit it, and the delay is the total
of what they ask for. It is not zero and within these bounds, whatever callbacks do. -/
theorem send_delayed (cb : Callbacks σ) (network : NetworkRef) (e : Envelope) (w : World σ) :
    (∀ (l : Latency) (outbound inbound : Duration), l.Totals outbound inbound) ∧
    ∀ d left, network.send cb e w = .ok (.ok (.delayed d)) left →
      let l := (w.network network).latency
      (∃ target there calls, Ruled (Asked cb) network e w (.permitted target d there) calls) ∧
      0 < d.toNanos ∧ l.base.toNanos ≤ d.toNanos ∧
      d.toNanos ≤ min Duration.max.toNanos (l.base.toNanos + 2 * l.maxRuleDelay.toNanos) := by
  refine ⟨Latency.totals, fun d left h => ?_⟩
  obtain ⟨takes, target, there, calls, ruled⟩ := ruled_of_delayed h
  have positive : 0 < d.toNanos :=
    Nat.pos_of_ne_zero (mt Duration.toNanos_eq_zero_iff.mp takes)
  refine ⟨⟨target, there, calls, ruled⟩, positive, ?_⟩
  cases ruled with
  | @permitted _ _ _ _ wait wait' _ _ _ _ _ nodes leaves waits enters waits' length =>
    have totals := (w.network network).latency.totals wait wait'
    rw [length, ← totals.length]
    exact ⟨totals.atLeast, totals.atMost⟩

/-- At the top of the range: the sum just fits, or it is one nanosecond more. -/
example :
    Latency.total ⟨⟨18446744073709551614, 600000000, by decide⟩, .ofSecs 1⟩
        ⟨0, 799999999, by decide⟩ ⟨0, 600000000, by decide⟩ = .max ∧
    Latency.total ⟨⟨18446744073709551614, 600000000, by decide⟩, .ofSecs 1⟩
        ⟨0, 799999999, by decide⟩ ⟨0, 600000001, by decide⟩ = .max := by
  decide

/-! ## A message that both directions delay -/

namespace Delayed

open Steady (signature callbacks letter)

/-- An engine that delays the letter for less than the limit, and then for more. -/
def engine : Engine Bool Duration where
  rules := [Steady.rule .any none (.delay (.fixed ⟨0, 600000000, by decide⟩)) 0,
    { Steady.rule .any none (.delay (.computed (.ofSecs 9))) 1 with direction := .inbound }]
  flags := #[true, true]

/-- A network that takes 1.7 seconds, to which a rule can add 0.7 seconds. -/
def world : World signature where
  engines := ⟨#[engine]⟩
  networks := ⟨#[
    { engine := ⟨0⟩
      latency := ⟨⟨1, 700000000, by decide⟩, ⟨0, 700000000, by decide⟩⟩
      nodes := [⟨1, ⟨.v4 127 0 0 1, 1⟩, .opened []⟩, ⟨2, ⟨.v4 127 0 0 2, 1⟩, .opened []⟩] }]⟩
  hasRuntime := true
  memory := []

/-- The letter takes three seconds. -/
theorem send_delayed_carried :
    ∃ left, NetworkRef.send callbacks ⟨0⟩ letter world
        = .ok (.ok (.delayed (.ofSecs 3))) left ∧
      (∃ target there calls,
        Ruled (Asked callbacks) ⟨0⟩ letter world (.permitted target (.ofSecs 3) there) calls) ∧
      0 < (Duration.ofSecs 3).toNanos ∧
      (world.network ⟨0⟩).latency.base.toNanos ≤ (Duration.ofSecs 3).toNanos ∧
      (Duration.ofSecs 3).toNanos ≤ min Duration.max.toNanos
        ((world.network ⟨0⟩).latency.base.toNanos
          + 2 * (world.network ⟨0⟩).latency.maxRuleDelay.toNanos) := by
  have sends : ∃ left, NetworkRef.send callbacks ⟨0⟩ letter world
      = .ok (.ok (.delayed (.ofSecs 3))) left := ⟨_, by rfl⟩
  obtain ⟨left, sends⟩ := sends
  obtain ⟨-, delayed⟩ := send_delayed callbacks ⟨0⟩ letter world
  exact ⟨left, sends, delayed (.ofSecs 3) left sends⟩

end Delayed

end Netsieve
