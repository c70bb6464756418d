import Mathlib.Algebra.Ring.Nat
import Mathlib.Data.List.Induction
import Netsieve.Text.Numeral

/-!
# `Netsieve.Proofs.Text.Numeral`: what a row of digits stands for

`Numeral base cs n` says that the characters `cs` are a numeral of a base and stand for
the number `n`. It is built from the front: one more digit at the end multiplies by the
base and adds the digit. The readers take exactly the numerals of their base, with the
number they stand for (`Decimal.read?_eq_some_iff`, `Hex.read?_eq_some_iff`), however
long they are and however many zeros stand in front.

What is printed is a numeral of the number that was to be printed, with no zero in front
(`numeral_toDigits`, `head?_toDigits`).
-/

set_option autoImplicit false

namespace Netsieve

/-- A character is a digit of a base and stands for a number. From ten on the digits are
letters, in either case. -/
def IsDigit (base : Nat) (c : Char) (d : Nat) : Prop :=
  d < base ∧ (d < 10 ∧ c.toNat = '0'.toNat + d ∨
    10 ≤ d ∧ (c.toNat = 'a'.toNat + (d - 10) ∨ c.toNat = 'A'.toNat + (d - 10)))

/-- Digits are letters and digits, and no marks. -/
theorem IsDigit.isAlphanum {base d : Nat} {c : Char} (h : IsDigit base c d)
    (most : base ≤ 36) : c.isAlphanum = true := by
  have code : ∀ c : Char, c.val.toNat = c.toNat := fun _ => rfl
  have codes : '0'.toNat = 48 ∧ '9'.toNat = 57 ∧ 'a'.toNat = 97 ∧ 'z'.toNat = 122 ∧
      'A'.toNat = 65 ∧ 'Z'.toNat = 90 := ⟨rfl, rfl, rfl, rfl, rfl, rfl⟩
  unfold IsDigit at h
  show (decide ('A'.val ≤ c.val ∧ c.val ≤ 'Z'.val)
    || (decide ('a'.val ≤ c.val) && decide (c.val ≤ 'z'.val))
    || (decide ('0'.val ≤ c.val) && decide (c.val ≤ '9'.val))) = true
  simp only [Bool.or_eq_true, Bool.and_eq_true, decide_eq_true_eq, UInt32.le_iff_toNat_le, code]
  omega

/-- A row of one or more digits of a base, and the number it stands for.

- `one`: one digit;
- `snoc`: a numeral with one more digit behind it. -/
inductive Numeral (base : Nat) : List Char → Nat → Prop where
  | one {c : Char} {d : Nat} (digit : IsDigit base c d) : Numeral base [c] d
  | snoc {cs : List Char} {n : Nat} {c : Char} {d : Nat} (front : Numeral base cs n)
      (digit : IsDigit base c d) : Numeral base (cs ++ [c]) (base * n + d)

namespace Numeral

variable {base n : Nat} {cs : List Char}

/-- A numeral has a digit. -/
theorem ne_nil (h : Numeral base cs n) : cs ≠ [] := by
  cases h <;> simp

/-- Every character of a numeral is a digit. -/
theorem exists_digit (h : Numeral base cs n) : ∀ c ∈ cs, ∃ d, IsDigit base c d := by
  induction h with
  | one digit => simpa using ⟨_, digit⟩
  | snoc front digit ih =>
    intro c hc
    rcases List.mem_append.mp hc with hc | hc
    · exact ih c hc
    · rw [List.mem_singleton.mp hc]
      exact ⟨_, digit⟩

/-- A mark does not occur in a numeral. -/
theorem not_mem {mark : Char} (h : Numeral base cs n) (most : base ≤ 36)
    (other : mark.isAlphanum = false) : mark ∉ cs := by
  intro there
  obtain ⟨d, digit⟩ := h.exists_digit mark there
  rw [digit.isAlphanum most] at other
  cases other

/-- So many digits stand for less than that power of the base. -/
theorem lt_pow (h : Numeral base cs n) : n < base ^ cs.length := by
  induction h with
  | one digit => simpa using digit.1
  | @snoc cs n c d front digit ih =>
    have next : base * (n + 1) ≤ base * base ^ cs.length := Nat.mul_le_mul_left base ih
    have small : d < base := digit.1
    rw [List.length_append, List.length_singleton, Nat.pow_succ, Nat.mul_comm _ base]
    rw [Nat.mul_add, Nat.mul_one] at next
    omega

end Numeral

/-! ## The readers -/

/-- The digits of base ten are the decimal digits. -/
theorem isDigit_ten_iff {c : Char} {d : Nat} :
    IsDigit 10 c d ↔ c.isDigit = true ∧ d = c.toNat - '0'.toNat := by
  have zero : '0'.toNat = 48 := rfl
  have bounds : c.isDigit = true ↔ 48 ≤ c.toNat ∧ c.toNat ≤ 57 := by
    simp only [Char.isDigit, Bool.and_eq_true, decide_eq_true_eq]
    exact Iff.rfl
  unfold IsDigit
  rw [bounds]
  omega

namespace Decimal

/-- What is read is a row of decimal digits, with the value that they have. -/
theorem read?_eq_some {cs : List Char} {n : Nat} :
    read? cs = some n ↔ cs ≠ [] ∧ (∀ c ∈ cs, c.isDigit = true) ∧ n = value cs := by
  have test : (!cs.isEmpty && cs.all Char.isDigit) = true ↔
      cs ≠ [] ∧ ∀ c ∈ cs, c.isDigit = true := by
    simp
  unfold read?
  rw [Option.ite_none_right_eq_some, test, and_assoc, Option.some.injEq, eq_comm]

/-- The reader takes exactly the decimal numerals. -/
theorem read?_eq_some_iff {cs : List Char} {n : Nat} : read? cs = some n ↔ Numeral 10 cs n := by
  rw [read?_eq_some]
  -- The reader goes from the left, and so does the grammar. Each adds the last digit.
  have value_snoc : ∀ (cs : List Char) (c : Char),
      value (cs ++ [c]) = 10 * value cs + (c.toNat - '0'.toNat) := by
    intro cs c
    simp [value, Nat.ofDigitChars_append, Nat.ofDigitChars_cons]
  constructor
  · rintro ⟨some_digit, digits, rfl⟩
    induction cs using List.reverseRecOn with
    | nil => exact absurd rfl some_digit
    | append_singleton cs c ih =>
      have last : IsDigit 10 c (c.toNat - '0'.toNat) :=
        isDigit_ten_iff.mpr ⟨digits c (by simp), rfl⟩
      rw [value_snoc]
      cases cs with
      | nil =>
        have nothing : value [] = 0 := rfl
        rw [nothing, Nat.mul_zero, Nat.zero_add]
        exact .one last
      | cons a rest =>
        exact .snoc (ih (by simp) fun b hb => digits b (List.mem_append_left _ hb)) last
  · intro h
    refine ⟨h.ne_nil, fun c hc => ?_, ?_⟩
    · obtain ⟨d, digit⟩ := h.exists_digit c hc
      exact (isDigit_ten_iff.mp digit).1
    · induction h with
      | one digit =>
        rw [(isDigit_ten_iff.mp digit).2]
        simp [value, Nat.ofDigitChars_cons]
      | snoc front digit ih => rw [value_snoc, ← ih, (isDigit_ten_iff.mp digit).2]

end Decimal

namespace Hex

/-- What is read as a hexadecimal digit is a digit of base sixteen. -/
theorem digit?_eq_some_iff {c : Char} {d : Nat} : digit? c = some d ↔ IsDigit 16 c d := by
  have codes : '0'.toNat = 48 ∧ '9'.toNat = 57 ∧ 'a'.toNat = 97 ∧ 'f'.toNat = 102 ∧
      'A'.toNat = 65 ∧ 'F'.toNat = 70 := ⟨rfl, rfl, rfl, rfl, rfl, rfl⟩
  have order : ∀ a b : Char, a ≤ b ↔ a.toNat ≤ b.toNat := fun _ _ => Iff.rfl
  -- The three ranges of codes, and everything else.
  unfold digit? IsDigit
  simp only [order, codes]
  split
  · rw [Option.some.injEq]
    omega
  · split
    · rw [Option.some.injEq]
      omega
    · split
      · rw [Option.some.injEq]
        omega
      · rw [iff_false_left (by simp)]
        omega

/-- One more digit counts for itself, and sixteenfold for those in front. -/
theorem value_snoc (ds : List Nat) (d : Nat) : value (ds ++ [d]) = 16 * value ds + d := by
  simp [value]

/-- What is read is a row of hexadecimal digits, with the value that they have. -/
theorem read?_eq_some {cs : List Char} {n : Nat} :
    read? cs = some n ↔ cs ≠ [] ∧ ∃ ds, cs.mapM digit? = some ds ∧ n = value ds := by
  unfold read?
  rw [Option.ite_none_left_eq_some, Option.map_eq_some_iff, List.isEmpty_iff]
  simp only [eq_comm]

/-- The last digit is read by itself. -/
theorem mapM_digit?_snoc {cs : List Char} {c : Char} {ds : List Nat} :
    (cs ++ [c]).mapM digit? = some ds ↔
      ∃ front d, ds = front ++ [d] ∧ cs.mapM digit? = some front ∧ IsDigit 16 c d := by
  rw [List.mapM_append]
  simp only [List.mapM_cons, List.mapM_nil, Option.bind_eq_bind, Option.bind_eq_some_iff,
    Option.pure_def, Option.some.injEq, digit?_eq_some_iff]
  constructor
  · rintro ⟨front, before, _, ⟨d, digit, _, rfl, rfl⟩, rfl⟩
    exact ⟨front, d, rfl, before, digit⟩
  · rintro ⟨front, d, rfl, before, digit⟩
    exact ⟨front, before, [d], ⟨d, digit, [], rfl, rfl⟩, rfl⟩

/-- The reader takes exactly the hexadecimal numerals. -/
theorem read?_eq_some_iff {cs : List Char} {n : Nat} : read? cs = some n ↔ Numeral 16 cs n := by
  rw [read?_eq_some]
  constructor
  · rintro ⟨some_digit, ds, digits, rfl⟩
    induction cs using List.reverseRecOn generalizing ds with
    | nil => exact absurd rfl some_digit
    | append_singleton cs c ih =>
      obtain ⟨front, d, rfl, before, digit⟩ := mapM_digit?_snoc.mp digits
      rw [value_snoc]
      cases cs with
      | nil =>
        obtain rfl : front = [] := by simpa using before.symm
        have nothing : value [] = 0 := rfl
        rw [nothing, Nat.mul_zero, Nat.zero_add]
        exact .one digit
      | cons a rest => exact .snoc (ih (by simp) front before) digit
  · intro h
    refine ⟨h.ne_nil, ?_⟩
    induction h with
    | @one c d digit => exact ⟨[d], by simp [digit?_eq_some_iff.mpr digit], by simp [value]⟩
    | @snoc cs n c d front digit ih =>
      obtain ⟨ds, digits, same⟩ := ih
      refine ⟨ds ++ [d], mapM_digit?_snoc.mpr ⟨ds, d, rfl, digits, digit⟩, ?_⟩
      rw [value_snoc, same]

end Hex

/-! ## The printers -/

/-- The character for a digit is one. -/
theorem isDigit_digitChar {base d : Nat} (most : base ≤ 16) (h : d < base) :
    IsDigit base (Nat.digitChar d) d := by
  have codes : ∀ d < 16, (Nat.digitChar d).toNat = if d < 10 then 48 + d else 87 + d := by
    decide
  have code := codes d (Nat.lt_of_lt_of_le h most)
  have zero : '0'.toNat = 48 ∧ 'a'.toNat = 97 := ⟨rfl, rfl⟩
  unfold IsDigit
  split at code <;> omega

section Printer

variable {base : Nat} (least : 1 < base) (most : base ≤ 16)
include least most

/-- The printed digits of a number are a numeral of it. -/
theorem numeral_toDigits (n : Nat) : Numeral base (Nat.toDigits base n) n := by
  induction n using Nat.strongRecOn with
  | ind n ih =>
    rw [Nat.toDigits_eq_if least]
    split
    · next small => exact .one (isDigit_digitChar most small)
    · next large =>
      have shorter : n / base < n := Nat.div_lt_self (by omega) least
      have last : n % base < base := Nat.mod_lt n (by omega)
      have whole := (ih (n / base) shorter).snoc (isDigit_digitChar most last)
      rwa [Nat.div_add_mod] at whole

/-- The digits of a number start with a zero only if that is all there is. -/
theorem head?_toDigits {n : Nat} (h : 0 < n) : (Nat.toDigits base n).head? ≠ some '0' := by
  have zero_only : ∀ d < 16, Nat.digitChar d = '0' → d = 0 := by decide
  induction n using Nat.strongRecOn with
  | ind n ih =>
    rw [Nat.toDigits_eq_if least]
    split
    · next small =>
      intro zero
      have := zero_only n (by omega) (by simpa using zero)
      omega
    · next large =>
      have shorter : n / base < n := Nat.div_lt_self h least
      have positive : 0 < n / base := Nat.div_pos (by omega) (by omega)
      -- The first digit is that of the number without its last digit.
      have same : (Nat.toDigits base (n / base) ++ [Nat.digitChar (n % base)]).head?
          = (Nat.toDigits base (n / base)).head? := by
        cases digits : Nat.toDigits base (n / base) with
        | nil => exact absurd digits Nat.toDigits_ne_nil
        | cons c rest => rfl
      rw [same]
      exact ih (n / base) shorter positive

end Printer

end Netsieve
