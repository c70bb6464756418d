import Netsieve.Json.Record
import Netsieve.Text.Inspect

/-!
# `Netsieve.Duration`: lengths of time

A duration is a number of whole seconds in a 64-bit word and a rest of less than
one second in nanoseconds. The bound on the rest is part of the type, so equal
durations have equal fields. `toNanos` is the view through which every operation
is meant: addition is exact until the seconds no longer fit their word, and then
stops at the greatest duration (`max`).

Time in a scripted network passes in whole milliseconds. `floorMillis` and
`ceilMillis` are the two ways from a duration to that grid.

A duration is shown in the greatest of the units second, millisecond, microsecond
and nanosecond that goes into it at least once. What remains is the fraction
behind the point. The fraction is exact, so two durations with the same text are
equal.

As JSON a duration is a record of seconds and nanoseconds, and the only record that
refuses members it does not know. It may be written with a second or more in its
nanoseconds; they are carried, and the text is refused only if there is no such
duration.
-/

set_option autoImplicit false

namespace Netsieve

/-- A length of time, from zero to a little less than `2 ^ 64` seconds. -/
structure Duration where
  /-- Whole seconds. -/
  secs : UInt64
  /-- The rest, in nanoseconds. -/
  nanos : UInt32
  /-- The rest is less than a second. -/
  nanos_lt : nanos.toNat < 1000000000 := by decide
  deriving DecidableEq

namespace Duration

/-- The length in nanoseconds. -/
def toNanos (d : Duration) : Nat :=
  d.secs.toNat * 1000000000 + d.nanos.toNat

/-- No time at all. -/
def zero : Duration := ⟨0, 0, by decide⟩

/-- The greatest duration. -/
def max : Duration := ⟨18446744073709551615, 999999999, by decide⟩

/-- So many whole seconds. -/
def ofSecs (secs : UInt64) : Duration := ⟨secs, 0, by decide⟩

/-- Seconds and nanoseconds of any size. Nanoseconds beyond a second are carried
into the seconds, and there is no result if those then need more than 64 bits. -/
def ofParts? (secs nanos : Nat) : Option Duration :=
  if secs + nanos / 1000000000 < 18446744073709551616 then
    some ⟨UInt64.ofNat (secs + nanos / 1000000000), UInt32.ofNat (nanos % 1000000000), by
      rw [UInt32.toNat_ofNat']; omega⟩
  else none

/-- So many milliseconds. -/
def ofMillis (ms : UInt64) : Duration :=
  ⟨ms / 1000, UInt32.ofNat (ms.toNat % 1000 * 1000000), by
    rw [UInt32.toNat_ofNat']
    exact Nat.lt_of_le_of_lt (Nat.mod_le _ _) (by omega)⟩

/-- Whether no time passes. -/
def isZero (d : Duration) : Bool :=
  d.secs == 0 && d.nanos == 0

/-- Shorter means fewer seconds, or as many and fewer nanoseconds. -/
instance : LT Duration :=
  ⟨fun a b => a.secs < b.secs ∨ (a.secs = b.secs ∧ a.nanos < b.nanos)⟩

instance (a b : Duration) : Decidable (a < b) :=
  inferInstanceAs (Decidable (_ ∨ _))

/-- The shorter of two durations. -/
instance : Min Duration :=
  ⟨fun a b => if b < a then b else a⟩

/-- The sum, or `max` where the sum is greater than any duration. -/
def saturatingAdd (a b : Duration) : Duration :=
  (ofParts? (a.secs.toNat + b.secs.toNat) (a.nanos.toNat + b.nanos.toNat)).getD max

/-- Carrying keeps the length. -/
theorem toNanos_of_ofParts? {secs nanos : Nat} {d : Duration} (h : ofParts? secs nanos = some d) :
    d.toNanos = secs * 1000000000 + nanos := by
  unfold ofParts? at h
  split at h
  · next fits =>
    obtain rfl := Option.some.inj h
    have rest : nanos % 1000000000 < 4294967296 := by omega
    simp only [toNanos, UInt64.toNat_ofNat', UInt32.toNat_ofNat']
    rw [Nat.mod_eq_of_lt fits, Nat.mod_eq_of_lt rest]
    omega
  · cases h

/-- There is no duration exactly where the seconds do not fit. -/
theorem ofParts?_eq_none_iff {secs nanos : Nat} :
    ofParts? secs nanos = none ↔ 18446744073709551616 ≤ secs + nanos / 1000000000 := by
  unfold ofParts?
  split <;> simp <;> omega

/-- The length tells durations apart. -/
theorem eq_of_toNanos_eq {a b : Duration} (h : a.toNanos = b.toNanos) : a = b := by
  have := a.nanos_lt
  have := b.nanos_lt
  unfold toNanos at h
  have secs : a.secs = b.secs := UInt64.toNat_inj.mp (by omega)
  have nanos : a.nanos = b.nanos := UInt32.toNat_inj.mp (by omega)
  cases a; cases b; cases secs; cases nanos; rfl

/-- Whole milliseconds, rounded down. -/
def floorMillis (d : Duration) : Nat :=
  d.toNanos / 1000000

/-- Whole milliseconds, rounded up. -/
def ceilMillis (d : Duration) : Nat :=
  (d.toNanos + 999999) / 1000000

/-! ## Durations for people -/

/-- So many whole units, and a rest that is counted in units of `10 ^ -places`. -/
def quantity (whole places rest : Nat) (unit : List Char) : List Char :=
  let fraction := Decimal.fraction places rest
  Decimal.digits whole ++ (if fraction.isEmpty then [] else '.' :: fraction) ++ unit

/-- The text of a duration, such as `1.5s`, `250ms`, `1.5µs` or `0ns`. -/
def inspect (d : Duration) : List Char :=
  let nanos := d.nanos.toNat
  if d.secs ≠ 0 then quantity d.secs.toNat 9 nanos ['s']
  else if 1000000 ≤ nanos then quantity (nanos / 1000000) 6 (nanos % 1000000) ['m', 's']
  else if 1000 ≤ nanos then quantity (nanos / 1000) 3 (nanos % 1000) ['µ', 's']
  else quantity nanos 0 0 ['n', 's']

/-! ## Durations as JSON -/

/-- The names of the fields. -/
def fieldNames : List (List Char) :=
  ["secs".toList, "nanos".toList]

/-- The JSON form of a duration. -/
def toJson (d : Duration) : Json :=
  Json.object [("secs", Json.ofNat d.secs.toNat), ("nanos", Json.ofNat d.nanos.toNat)]

/-- Reads a duration from JSON. -/
def ofJson? (v : Json) : Option Duration :=
  match v.closedRecord? fieldNames with
  | some [secs, nanos] =>
    match Json.required? Json.uint64? secs, Json.required? Json.uint32? nanos with
    | some secs, some nanos => ofParts? secs.toNat nanos.toNat
    | _, _ => none
  | _ => none

end Duration

end Netsieve
