import Mathlib.Data.List.TakeWhile
import Netsieve.Duration
import Netsieve.Proofs.Duration
import Netsieve.Proofs.Text.Inspect

/-!
# `Netsieve.Proofs.Duration.Text`: durations are told by their texts

`Shown length cs` says what the text of a duration is, without saying how it is found: the
greatest unit that goes into the length, an amount of it with no zeros to spare at either
end, and nothing is rounded. The last of these makes the text tell the duration
(`Shown.unique`): from the digits and the unit the length can be calculated.
-/

set_option autoImplicit false

namespace Netsieve

/-! ## Decimals behind the point -/

/-- A numeral of more than one digit is a numeral with a digit behind it. -/
theorem Numeral.of_snoc {base n : Nat} {cs : List Char} {c : Char}
    (h : Numeral base (cs ++ [c]) n) (front : cs ≠ []) :
    ∃ m d, Numeral base cs m ∧ IsDigit base c d ∧ n = base * m + d := by
  generalize whole : cs ++ [c] = ds at h
  cases h with
  | one digit => exact absurd (List.append_eq_singleton_iff.mp whole) (by simp [front])
  | snoc before digit =>
    obtain ⟨rfl, last⟩ := List.append_inj' whole rfl
    obtain rfl := (List.cons.inj last).1
    exact ⟨_, _, before, digit, rfl⟩

/-- A row of decimal digits stands for one number. -/
theorem Numeral.unique {cs : List Char} {m n : Nat} (h : Numeral 10 cs m) (h' : Numeral 10 cs n) :
    m = n := by
  rw [← Decimal.read?_eq_some_iff] at h h'
  exact Option.some.inj (h.symm.trans h')

namespace Decimal

variable {cs : List Char} {n : Nat}

/-- A number of fixed width behind a numeral. -/
theorem numeral_append_fixed (h : Numeral 10 cs n) {width rest : Nat} (small : rest < 10 ^ width) :
    Numeral 10 (cs ++ fixed width rest) (n * 10 ^ width + rest) := by
  induction width generalizing rest with
  | zero =>
    obtain rfl : rest = 0 := Nat.lt_one_iff.mp small
    simpa [fixed] using h
  | succ width ih =>
    rw [Nat.pow_succ] at small
    have last : IsDigit 10 (Nat.digitChar (rest % 10)) (rest % 10) :=
      isDigit_digitChar (by decide) (Nat.mod_lt rest (by decide))
    have shorter : rest / 10 < 10 ^ width := by omega
    -- All digits but the last one are those of a tenth of the rest, in one place less.
    have whole := (ih shorter).snoc last
    have value : 10 * (n * 10 ^ width + rest / 10) + rest % 10 = n * 10 ^ (width + 1) + rest := by
      rw [Nat.pow_succ, ← Nat.mul_assoc]
      omega
    rw [value, List.append_assoc] at whole
    exact whole

/-- Zeros at the end are factors of ten. -/
theorem numeral_of_append_zeros {zeros : Nat} (front : cs ≠ [])
    (h : Numeral 10 (cs ++ List.replicate zeros '0') n) :
    ∃ m, Numeral 10 cs m ∧ n = m * 10 ^ zeros := by
  induction zeros generalizing n with
  | zero => exact ⟨n, by simpa using h, by simp⟩
  | succ zeros ih =>
    rw [List.replicate_succ', ← List.append_assoc] at h
    obtain ⟨m, d, before, digit, rfl⟩ := h.of_snoc (by simp [front])
    obtain ⟨k, numeral, rfl⟩ := ih before
    obtain rfl : d = 0 := (isDigit_ten_iff.mp digit).2
    refine ⟨k, numeral, ?_⟩
    rw [Nat.add_zero, Nat.pow_succ, Nat.mul_comm, Nat.mul_assoc]

/-- What is left out at the end are zeros. -/
theorem trimZeros_append (cs : List Char) :
    ∃ zeros, cs = trimZeros cs ++ List.replicate zeros '0' := by
  have zeros : ∀ c ∈ cs.reverse.takeWhile (· == '0'), c = '0' :=
    fun c there => by simpa using List.mem_takeWhile_imp there
  refine ⟨(cs.reverse.takeWhile (· == '0')).length, ?_⟩
  calc cs = (cs.reverse.takeWhile (· == '0') ++ cs.reverse.dropWhile (· == '0')).reverse := by
        rw [List.takeWhile_append_dropWhile, List.reverse_reverse]
    _ = trimZeros cs ++ (cs.reverse.takeWhile (· == '0')).reverse := List.reverse_append
    _ = _ := by rw [List.eq_replicate_of_mem zeros, List.reverse_replicate, List.length_replicate]

/-- All zeros at the end are left out. -/
theorem getLast?_trimZeros (cs : List Char) : (trimZeros cs).getLast? ≠ some '0' := by
  rw [trimZeros, List.getLast?_reverse]
  intro zero
  have other := List.head?_dropWhile_not (· == '0') cs.reverse
  rw [zero] at other
  simp at other

/-- The decimals behind the point are exact: leaving out zeros divides by the same power of
ten as the shorter row of decimals says. -/
theorem numeral_append_fraction (h : Numeral 10 cs n) {places rest : Nat}
    (small : rest < 10 ^ places) : ∃ amount, Numeral 10 (cs ++ fraction places rest) amount ∧
      amount * 10 ^ places = (n * 10 ^ places + rest) * 10 ^ (fraction places rest).length := by
  obtain ⟨zeros, padded⟩ := trimZeros_append (fixed places rest)
  have whole := numeral_append_fixed h small
  rw [padded, ← List.append_assoc] at whole
  obtain ⟨amount, numeral, value⟩ := numeral_of_append_zeros (by simp [h.ne_nil]) whole
  have width : places = (fraction places rest).length + zeros := by
    have length := congrArg List.length padded
    rwa [length_fixed, List.length_append, List.length_replicate] at length
  refine ⟨amount, numeral, ?_⟩
  rw [value, Nat.mul_assoc, ← Nat.pow_add, Nat.add_comm zeros, ← width]

end Decimal

/-! ## The text -/

namespace Duration

/-- The units, with the number of decimals that make one of them a nanosecond. -/
inductive Scale : Nat → List Char → Prop where
  | second : Scale 9 ['s']
  | millisecond : Scale 6 ['m', 's']
  | microsecond : Scale 3 ['µ', 's']
  | nanosecond : Scale 0 ['n', 's']

/-- Decimals with the point in front of them, if there are any. -/
def pointed : List Char → List Char
  | [] => []
  | c :: cs => '.' :: c :: cs

/-- The text of a length of so many nanoseconds.

- `scale`, `fits`, `greatest`: the unit is the greatest one that goes into the length, or the
  last one;
- `front`, `short`: in front of the point is how often it does, with no zeros in front;
- `digits`, `exact`, `trimmed`: with the decimals behind the point the amount is exact, with
  no zeros at the end. -/
inductive Shown (length : Nat) : List Char → Prop where
  | intro {places amount : Nat} {whole fraction unit : List Char}
      (scale : Scale places unit)
      (fits : 10 ^ places ≤ length ∨ places = 0)
      (greatest : ∀ more name, Scale more name → places < more → length < 10 ^ more)
      (front : Numeral 10 whole (length / 10 ^ places))
      (short : whole.head? = some '0' → whole = ['0'])
      (digits : Numeral 10 (whole ++ fraction) amount)
      (exact : amount * 10 ^ places = length * 10 ^ fraction.length)
      (trimmed : fraction.getLast? ≠ some '0') :
      Shown length (whole ++ pointed fraction ++ unit)

/-- A unit has one number of decimals. -/
theorem Scale.unique {places places' : Nat} {unit : List Char} (h : Scale places unit)
    (h' : Scale places' unit) : places = places' := by
  cases h <;> cases h' <;> rfl

/-- A unit cannot be taken for more digits. -/
theorem Scale.starts {places : Nat} {unit : List Char} (h : Scale places unit) :
    ∀ c, unit.head? = some c → c.isDigit = false ∧ c ≠ '.' := by
  cases h <;> · rintro _ ⟨rfl⟩; decide

/-- No unit has a mark of the layout in it. -/
theorem Scale.not_isMark {places : Nat} {unit : List Char} (h : Scale places unit) :
    ∀ c ∈ unit, ¬ Inspect.IsMark c := by
  cases h <;> simp [Inspect.IsMark]

/-- A decimal numeral is made of digits. -/
theorem isDigit_of_numeral {cs : List Char} {n : Nat} (h : Numeral 10 cs n) :
    ∀ c ∈ cs, c.isDigit = true := by
  intro c there
  obtain ⟨d, digit⟩ := h.exists_digit c there
  exact (isDigit_ten_iff.mp digit).1

/-- Decimals and the unit behind them are told apart. -/
theorem pointed_inj {places places' : Nat} {fraction fraction' unit unit' : List Char}
    (scale : Scale places unit) (scale' : Scale places' unit')
    (digits : ∀ c ∈ fraction, c.isDigit = true) (digits' : ∀ c ∈ fraction', c.isDigit = true)
    (same : pointed fraction ++ unit = pointed fraction' ++ unit') :
    fraction = fraction' ∧ unit = unit' := by
  cases fraction with
  | nil =>
    cases fraction' with
    | nil => exact ⟨rfl, same⟩
    | cons c rest => exact absurd rfl (scale.starts '.' (by rw [show unit = _ from same]; rfl)).2
  | cons c rest =>
    cases fraction' with
    | nil => exact absurd rfl (scale'.starts '.' (by rw [show unit' = _ from same.symm]; rfl)).2
    | cons c' rest' =>
      exact Inspect.append_inj_of_stop digits digits'
        (fun c first => by simp [(scale.starts c first).1])
        (fun c first => by simp [(scale'.starts c first).1]) (List.cons.inj same).2

/-- Decimals bring nothing but their digits and the point. -/
theorem mem_pointed {fraction : List Char} {c : Char} (h : c ∈ pointed fraction) :
    c = '.' ∨ c ∈ fraction := by
  cases fraction with
  | nil => cases h
  | cons => exact List.mem_cons.mp h

/-- No digit follows the whole units. -/
theorem stop_pointed {places : Nat} {fraction unit : List Char} (scale : Scale places unit) :
    ∀ c, (pointed fraction ++ unit).head? = some c → ¬ c.isDigit = true := by
  intro c first
  cases fraction with
  | nil => simp [(scale.starts c first).1]
  | cons =>
    obtain ⟨rfl⟩ := first
    decide

/-- There is one length that a text can be of. -/
theorem Shown.unique {m n : Nat} {cs cs' : List Char} (h : Shown m cs) (h' : Shown n cs')
    (same : cs = cs') : m = n := by
  obtain ⟨scale, -, -, front, -, digits, exact, -⟩ := h
  obtain ⟨scale', -, -, front', -, digits', exact', -⟩ := h'
  rw [List.append_assoc, List.append_assoc] at same
  obtain ⟨rfl, rest⟩ := Inspect.append_inj_of_stop (isDigit_of_numeral front)
    (isDigit_of_numeral front') (stop_pointed scale) (stop_pointed scale') same
  obtain ⟨rfl, rfl⟩ := pointed_inj scale scale'
    (fun c there => isDigit_of_numeral digits c (List.mem_append_right _ there))
    (fun c there => isDigit_of_numeral digits' c (List.mem_append_right _ there)) rest
  obtain rfl := scale.unique scale'
  obtain rfl := digits.unique digits'
  exact Nat.eq_of_mul_eq_mul_right (Nat.pow_pos (by decide)) (exact.symm.trans exact')

/-- The text of a duration has no marks. -/
theorem Shown.not_isMark {length : Nat} {cs : List Char} (h : Shown length cs) :
    ∀ c ∈ cs, ¬ Inspect.IsMark c := by
  obtain ⟨scale, -, -, front, -, digits, -, -⟩ := h
  have digit : ∀ c : Char, c.isDigit = true → ¬ Inspect.IsMark c := fun c digit =>
    Inspect.not_isMark_of_isAlphanum (by simp [Char.isAlphanum, digit])
  intro c there
  rcases List.mem_append.mp there with there | there
  · rcases List.mem_append.mp there with there | there
    · exact digit c (isDigit_of_numeral front c there)
    · rcases mem_pointed there with rfl | there
      · simp [Inspect.IsMark]
      · exact digit c (isDigit_of_numeral digits c (List.mem_append_right _ there))
  · exact scale.not_isMark c there

/-! ## What is printed -/

/-- The greatest unit that goes into a length shows it. -/
theorem shown_quantity {length places : Nat} {unit : List Char} (scale : Scale places unit)
    (fits : 10 ^ places ≤ length ∨ places = 0)
    (greatest : ∀ more name, Scale more name → places < more → length < 10 ^ more) :
    Shown length (quantity (length / 10 ^ places) places (length % 10 ^ places) unit) := by
  have positive : 0 < 10 ^ places := Nat.pow_pos (by decide)
  have front : Numeral 10 (Decimal.digits (length / 10 ^ places)) (length / 10 ^ places) :=
    numeral_toDigits (by decide) (by decide) _
  -- The decimals are trimmed, so the amount is a multiple of what they leave out. `exact`
  -- says so without a division.
  obtain ⟨amount, digits, exact⟩ :=
    Decimal.numeral_append_fraction front (Nat.mod_lt length positive)
  rw [Nat.mul_comm, Nat.mul_comm (length / _), Nat.div_add_mod] at exact
  have text : ∀ whole rest, quantity whole places rest unit
      = Decimal.digits whole ++ pointed (Decimal.fraction places rest) ++ unit := by
    intro whole rest
    rw [quantity]
    cases Decimal.fraction places rest <;> rfl
  rw [text]
  refine .intro scale fits greatest front (fun zero => ?_) digits (Nat.mul_comm _ _ ▸ exact)
    (Decimal.getLast?_trimZeros _)
  -- Only the numeral of zero starts with a zero.
  rcases Nat.eq_zero_or_pos (length / 10 ^ places) with none | some_unit
  · rw [none]
    rfl
  · exact absurd zero (head?_toDigits (by decide) (by decide) some_unit)

/-- The text of a duration shows its length. -/
theorem shown_inspect (d : Duration) : Shown d.toNanos d.inspect := by
  -- Each unit is asked for only if no greater one goes into the length.
  simp only [inspect]
  split
  · next some_second =>
    have positive : d.secs.toNat ≠ 0 := fun none => some_second (UInt64.toNat_inj.mp none)
    rw [d.toNat_secs] at positive ⊢
    rw [d.toNat_nanos]
    refine shown_quantity .second (.inl (by omega)) fun more name scale less => ?_
    cases scale <;> omega
  · next no_second =>
    have few : d.secs.toNat = 0 := by rw [not_not.mp no_second]; rfl
    rw [d.toNat_secs] at few
    have all : d.nanos.toNat = d.toNanos := by
      rw [d.toNat_nanos]
      omega
    rw [all]
    split
    · refine shown_quantity .millisecond (.inl ‹_›) fun more name scale less => ?_
      cases scale <;> omega
    · split
      · refine shown_quantity .microsecond (.inl ‹_›) fun more name scale less => ?_
        cases scale <;> omega
      · have short : ∀ more name, Scale more name → 0 < more → d.toNanos < 10 ^ more := by
          intro more name scale less
          cases scale <;> omega
        have nanos := shown_quantity .nanosecond (.inr rfl) short
        rwa [Nat.pow_zero, Nat.div_one, Nat.mod_one] at nanos

/-- Durations are told by their texts. -/
theorem legible_inspect : Inspect.Legible inspect :=
  Inspect.legible_of_words (fun d => (shown_inspect d).not_isMark) fun d d' same =>
    eq_of_toNanos_eq ((shown_inspect d).unique (shown_inspect d') same)

end Duration

end Netsieve
