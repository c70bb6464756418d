import Netsieve.Proofs.Text.Inspect
import Netsieve.Text.Inspect

/-!
# `Netsieve.Proofs.Text.ByteLiteral`: payloads are told by their literals

A payload can hold every byte, those of the text around it too. `Spells` is the table of
what stands for a byte in the literal. No spelling is the start of another one
(`Spells.unique`) and none of them starts with the quote that ends the literal
(`Spells.head?_ne`). So a literal can be read from the front, and there is one way to read it.
-/

set_option autoImplicit false

namespace Netsieve.ByteLiteral

/-- The bytes with an escape of one letter. -/
inductive Letter : UInt8 → Char → Prop where
  | newline : Letter 0x0a 'n'
  | carriageReturn : Letter 0x0d 'r'
  | tab : Letter 0x09 't'
  | backslash : Letter 0x5c '\\'
  | quote : Letter 0x22 '"'
  | zero : Letter 0x00 '0'

/-- How a byte is spelt.

- `letter`: a letter behind a backslash, for the bytes that have one;
- `itself`: the character with this code, if it can be printed;
- `digits`: two hexadecimal digits, for every other byte. -/
inductive Spells : UInt8 → List Char → Prop where
  | letter {byte : UInt8} {c : Char} (short : Letter byte c) : Spells byte ['\\', c]
  | itself {byte : UInt8} {c : Char} (printable : 0x20 ≤ byte.toNat ∧ byte.toNat < 0x7f)
      (long : ∀ c, ¬ Letter byte c) (code : c.toNat = byte.toNat) : Spells byte [c]
  | digits {byte : UInt8} {high low : Nat} (other : ¬ (0x20 ≤ byte.toNat ∧ byte.toNat < 0x7f))
      (long : ∀ c, ¬ Letter byte c) (digits : high < 16 ∧ low < 16)
      (value : byte.toNat = 16 * high + low) :
      Spells byte ['\\', 'x', Nat.digitChar high, Nat.digitChar low]

/-- The letters are different. -/
theorem Letter.unique {b b' : UInt8} {c : Char} (h : Letter b c) (h' : Letter b' c) : b = b' := by
  cases h <;> cases h' <;> rfl

/-- No digits follow a letter. -/
theorem Letter.ne_x {b : UInt8} {c : Char} (h : Letter b c) : c ≠ 'x' := by
  cases h <;> decide

namespace Spells

variable {b b' : UInt8} {cs cs' s t : List Char}

/-- The backslash and the quote have a letter, so a byte that stands for itself is neither. -/
theorem itself_ne {c : Char} (long : ∀ c, ¬ Letter b c) (code : c.toNat = b.toNat) :
    c ≠ '\\' ∧ c ≠ '"' := by
  constructor
  · rintro rfl
    obtain rfl : b = 0x5c := UInt8.toNat_inj.mp code.symm
    exact long _ .backslash
  · rintro rfl
    obtain rfl : b = 0x22 := UInt8.toNat_inj.mp code.symm
    exact long _ .quote

/-- Different hexadecimal digits are different characters. -/
theorem digitChar_inj {d e : Nat} (h : d < 16) (h' : e < 16)
    (same : Nat.digitChar d = Nat.digitChar e) : d = e := by
  have table : ∀ d < 16, ∀ e < 16, Nat.digitChar d = Nat.digitChar e → d = e := by decide
  exact table d h e h' same

/-- A text starts with the spelling of one byte at most. -/
theorem unique (h : Spells b cs) (h' : Spells b' cs') (same : cs ++ s = cs' ++ t) :
    b = b' ∧ s = t := by
  cases h with
  -- The character after the backslash tells a letter from two digits, as none of the
  -- letters is an x.
  | letter short =>
    cases h' with
    | letter short' =>
      simp only [List.cons_append, List.nil_append, List.cons.injEq, true_and] at same
      obtain ⟨rfl, rest⟩ := same
      exact ⟨short.unique short', rest⟩
    -- A byte that stands for itself begins with no backslash.
    | itself _ long code => exact absurd (List.cons.inj same).1.symm (itself_ne long code).1
    | digits => simp [short.ne_x] at same
  | itself _ long code =>
    have plain := (itself_ne long code).1
    cases h' with
    | letter => exact absurd (List.cons.inj same).1 plain
    | itself _ _ code' =>
      obtain ⟨rfl, rest⟩ := List.cons.inj same
      exact ⟨UInt8.toNat_inj.mp (code.symm.trans code'), rest⟩
    | digits => exact absurd (List.cons.inj same).1 plain
  | digits _ _ small value =>
    cases h' with
    | letter short => simp [short.ne_x.symm] at same
    | itself _ long code => exact absurd (List.cons.inj same).1.symm (itself_ne long code).1
    | digits _ _ small' value' =>
      simp only [List.cons_append, List.nil_append, List.cons.injEq, true_and] at same
      obtain ⟨high, low, rest⟩ := same
      have high := digitChar_inj small.1 small'.1 high
      have low := digitChar_inj small.2 small'.2 low
      exact ⟨UInt8.toNat_inj.mp (by omega), rest⟩

/-- What spells a byte does not end the literal. -/
theorem head?_ne (h : Spells b cs) : (cs ++ s).head? ≠ some '"' := by
  cases h with
  | letter => simp
  | itself _ long code => simpa using (itself_ne long code).2
  | digits => simp

end Spells

/-- Every byte is spelt by its escape. -/
theorem spells_escape (byte : UInt8) : Spells byte (escape byte) := by
  have code : ∀ n : Nat, n < 0x7f → (Char.ofNat n).toNat = n := by decide
  have small : byte.toNat < 256 := byte.toNat_lt
  by_cases known : ∃ c, Letter byte c
  · obtain ⟨c, letter⟩ := known
    have escaped : escape byte = ['\\', c] := by cases letter <;> rfl
    rw [escaped]
    exact .letter letter
  · have long := not_exists.mp known
    -- A byte without a letter is none of the six that have one.
    have others : byte ≠ 0x0a ∧ byte ≠ 0x0d ∧ byte ≠ 0x09 ∧ byte ≠ 0x5c ∧ byte ≠ 0x22 ∧
        byte ≠ 0x00 := by
      refine ⟨?_, ?_, ?_, ?_, ?_, ?_⟩ <;> rintro rfl
      exacts [long _ .newline, long _ .carriageReturn, long _ .tab, long _ .backslash,
        long _ .quote, long _ .zero]
    obtain ⟨newline, carriageReturn, tab, backslash, quote, zero⟩ := others
    rw [escape, if_neg newline, if_neg carriageReturn, if_neg tab, if_neg backslash, if_neg quote,
      if_neg zero]
    split
    · next printable => exact .itself printable long (code _ printable.2)
    · next other => exact .digits other long (by omega) (by omega)

/-- The literal is quoted, and each byte is spelt in it. -/
theorem inspect_eq (bytes : List UInt8) : ∃ pieces, List.Forall₂ Spells bytes pieces ∧
    inspect bytes = 'b' :: '"' :: pieces.flatten ++ ['"'] := by
  refine ⟨bytes.map escape, ?_, ?_⟩
  · rw [List.forall₂_map_right_iff, List.forall₂_same]
    exact fun byte _ => spells_escape byte
  · simp [inspect, List.flatMap_def]

/-- Spelt bytes are told up to the quote behind them. -/
theorem escapes_inj {bytes bytes' : List UInt8} {s t : List Char}
    (same : bytes.flatMap escape ++ '"' :: s = bytes'.flatMap escape ++ '"' :: t) :
    bytes = bytes' ∧ s = t := by
  -- By induction on the first literal. The quote that ends it begins no escape.
  induction bytes generalizing bytes' with
  | nil =>
    cases bytes' with
    | nil => exact ⟨rfl, (List.cons.inj same).2⟩
    | cons byte bytes' =>
      rw [List.flatMap_cons, List.append_assoc] at same
      exact absurd (congrArg List.head? same).symm (spells_escape byte).head?_ne
  | cons byte bytes ih =>
    rw [List.flatMap_cons, List.append_assoc] at same
    cases bytes' with
    | nil => exact absurd (congrArg List.head? same) (spells_escape byte).head?_ne
    | cons byte' bytes' =>
      rw [List.flatMap_cons, List.append_assoc] at same
      obtain ⟨rfl, rest⟩ := (spells_escape byte).unique (spells_escape byte') same
      obtain ⟨rfl, last⟩ := ih rest
      exact ⟨rfl, last⟩

/-- Payloads are told by their literals, whatever follows. -/
theorem legible_inspect : Inspect.Legible inspect := by
  intro bytes bytes' s t _ _ same
  have shape : ∀ bytes s,
      inspect bytes ++ s = 'b' :: '"' :: (bytes.flatMap escape ++ '"' :: s) := by
    simp [inspect]
  rw [shape, shape] at same
  exact escapes_inj (List.cons.inj (List.cons.inj same).2).2

end Netsieve.ByteLiteral
