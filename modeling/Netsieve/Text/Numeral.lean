/-!
# `Netsieve.Text.Numeral`: natural numbers as text

Most numbers this library prints or reads are natural numbers in decimal, and
there are three ways they are written: with the fewest digits (`digits`), with
exactly so many digits (`fixed`), and as the fraction behind a decimal point,
where zeros at the end say nothing and are left out (`fraction`).

`Decimal.read?` is the reader for the first form. It also takes zeros in front, which
some of the texts that call it allow and others refuse before they ask.

Address groups and payload bytes are written with lower-case hexadecimal digits.
Groups are read back in either case, so the reader of one digit (`Hex.digit?`)
accepts both.
-/

set_option autoImplicit false

namespace Netsieve

/-! ## Base ten -/

namespace Decimal

/-- The decimal digits of `n`, without zeros in front; `0` is one digit. -/
def digits (n : Nat) : List Char :=
  Nat.toDigits 10 n

/-- The number a list of decimal digits stands for. -/
def value (cs : List Char) : Nat :=
  Nat.ofDigitChars 10 cs 0

/-- Reads one or more ASCII digits, and nothing else. -/
def read? (cs : List Char) : Option Nat :=
  if !cs.isEmpty && cs.all Char.isDigit then some (value cs) else none

/-- The last `width` digits of `n`, padded with zeros in front. -/
def fixed : (width n : Nat) → List Char
  | 0, _ => []
  | width + 1, n => fixed width (n / 10) ++ [Nat.digitChar (n % 10)]

/-- Leaves out the zeros at the end. -/
def trimZeros (cs : List Char) : List Char :=
  (cs.reverse.dropWhile (· == '0')).reverse

/-- The decimals behind the point when `n` counts units of `10 ^ -width`. The
result is empty exactly when there is nothing behind the point. -/
def fraction (width n : Nat) : List Char :=
  trimZeros (fixed width n)

/-- A number is read back from its digits. -/
theorem read?_digits (n : Nat) : read? (digits n) = some n := by
  have nonempty : digits n ≠ [] := Nat.toDigits_ne_nil
  have digit : (digits n).all Char.isDigit = true := by
    rw [List.all_eq_true]
    exact fun c h => Nat.isDigit_of_mem_toDigits (by decide) (by decide) h
  have back : value (digits n) = n := Nat.ofDigitChars_toDigits (by decide) (by decide)
  simp [read?, nonempty, digit, back]

/-- Digits of a fixed width have that width. -/
theorem length_fixed (width n : Nat) : (fixed width n).length = width := by
  induction width generalizing n with
  | zero => rfl
  | succ width ih => simp [fixed, ih]

end Decimal

/-! ## Base sixteen -/

namespace Hex

/-- The lower-case hexadecimal digits of `n`, without zeros in front. -/
def digits (n : Nat) : List Char :=
  Nat.toDigits 16 n

/-- The value of one hexadecimal digit, in either case. -/
def digit? (c : Char) : Option Nat :=
  if '0' ≤ c ∧ c ≤ '9' then some (c.toNat - '0'.toNat)
  else if 'a' ≤ c ∧ c ≤ 'f' then some (c.toNat - 'a'.toNat + 10)
  else if 'A' ≤ c ∧ c ≤ 'F' then some (c.toNat - 'A'.toNat + 10)
  else none

/-- The number that a list of digit values stands for. -/
def value (ds : List Nat) : Nat :=
  ds.foldl (fun total d => 16 * total + d) 0

/-- Reads one or more hexadecimal digits, and nothing else. -/
def read? (cs : List Char) : Option Nat :=
  if cs.isEmpty then none else (cs.mapM digit?).map value

/-- Two digits for one byte, the high half first. -/
def pair (byte : UInt8) : List Char :=
  [Nat.digitChar (byte.toNat / 16), Nat.digitChar (byte.toNat % 16)]

/-- Two digits for each byte, in order. -/
def ofBytes (bytes : List UInt8) : List Char :=
  bytes.flatMap pair

end Hex

end Netsieve
