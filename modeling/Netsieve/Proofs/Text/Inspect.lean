import Mathlib.Data.List.Forall2
import Netsieve.Proofs.Text.Numeral
import Netsieve.Text.Inspect

/-!
# `Netsieve.Proofs.Text.Inspect`: values are told by their diagnostic texts

A text inside a text has to tell where it ends. In the diagnostic layout a value is followed
by a mark (`IsMark`), or by nothing. `Legible inspect` says that values are told by their
texts also if they are followed like that. So it can be shown for one layout after the other:

* `legible_of_words`: a text without marks goes on up to the next mark.
* `legible_option`, `legible_list`, `legible_record`: what stands inside another text is told
  by its own text. A record is told if its parts tell it.
-/

set_option autoImplicit false

namespace Netsieve.Inspect

/-- Two texts that have a property in common end together if what follows has not. -/
theorem append_inj_of_stop {p : Char → Prop} {x y s t : List Char} (inside : ∀ c ∈ x, p c)
    (inside' : ∀ c ∈ y, p c) (stop : ∀ c, s.head? = some c → ¬ p c)
    (stop' : ∀ c, t.head? = some c → ¬ p c) (same : x ++ s = y ++ t) : x = y ∧ s = t := by
  rcases List.append_eq_append_iff.mp same with ⟨more, rfl, rfl⟩ | ⟨more, rfl, rfl⟩
  all_goals
    cases more with
    | nil => simp
    | cons c more => ?_
  · exact absurd (inside' c (by simp)) (stop c rfl)
  · exact absurd (inside c (by simp)) (stop' c rfl)

/-- What can follow a value. -/
def IsMark (c : Char) : Prop :=
  c = ',' ∨ c = ' ' ∨ c = ')' ∨ c = ']'

/-- Nothing follows, or a mark does. -/
def Closes (s : List Char) : Prop :=
  ∀ c, s.head? = some c → IsMark c

/-- Where nothing follows, a value is closed. -/
theorem closes_nil : Closes [] :=
  fun _ none => nomatch none

/-- A mark closes the value in front of it. -/
theorem closes_cons {c : Char} (mark : IsMark c) (s : List Char) : Closes (c :: s) := by
  rintro _ ⟨rfl⟩
  exact mark

/-- Two texts end together, if they are closed. -/
def EndTogether (x y : List Char) : Prop :=
  ∀ s t, Closes s → Closes t → x ++ s = y ++ t → x = y ∧ s = t

section Legible

variable {α β : Type}

/-- Values are told by their texts, which also tell where they end. -/
def Legible (inspect : α → List Char) : Prop :=
  ∀ a b s t, Closes s → Closes t → inspect a ++ s = inspect b ++ t → a = b ∧ s = t

variable {inspect : α → List Char}

/-- Values with the same text are the same. -/
theorem Legible.injective (h : Legible inspect) : Function.Injective inspect := by
  intro a b same
  exact (h a b [] [] closes_nil closes_nil (by rw [same])).1

/-- Legible texts end together. -/
theorem Legible.endTogether (h : Legible inspect) (a b : α) :
    EndTogether (inspect a) (inspect b) := by
  intro s t closes closes' same
  obtain ⟨rfl, rest⟩ := h a b s t closes closes' same
  exact ⟨rfl, rest⟩

/-- A value can be shown by the text of what it is told by. -/
theorem Legible.comp (h : Legible inspect) {f : β → α} (injective : Function.Injective f) :
    Legible fun b => inspect (f b) := by
  intro b b' s t closes closes' same
  obtain ⟨eq, rest⟩ := h (f b) (f b') s t closes closes' same
  exact ⟨injective eq, rest⟩

/-- A text without marks goes on up to the next mark. -/
theorem legible_of_words (words : ∀ a, ∀ c ∈ inspect a, ¬ IsMark c)
    (injective : Function.Injective inspect) : Legible inspect := by
  intro a b s t closes closes' same
  obtain ⟨text, rest⟩ := append_inj_of_stop (words a) (words b)
    (fun c first => not_not_intro (closes c first)) (fun c first => not_not_intro (closes' c first))
    same
  exact ⟨injective text, rest⟩

/-! ## Numbers and truth values -/

/-- No letter and no digit is a mark. -/
theorem not_isMark_of_isAlphanum {c : Char} (h : c.isAlphanum = true) : ¬ IsMark c := by
  rintro (rfl | rfl | rfl | rfl) <;> cases h

/-- The digits of a number have no mark among them. -/
theorem not_isMark_of_mem_digits {n : Nat} : ∀ c ∈ Decimal.digits n, ¬ IsMark c := by
  intro c there
  obtain ⟨d, digit⟩ := (numeral_toDigits (by decide) (by decide) n).exists_digit c there
  exact not_isMark_of_isAlphanum (digit.isAlphanum (by decide : 10 ≤ 36))

/-- Different numbers have different digits. -/
theorem digits_injective : Function.Injective Decimal.digits := by
  intro m n same
  have read := Decimal.read?_digits m
  rw [same, Decimal.read?_digits] at read
  exact (Option.some.inj read).symm

/-- Numbers are told by their digits. -/
theorem legible_nat : Legible nat :=
  legible_of_words (fun _ => not_isMark_of_mem_digits) digits_injective

/-- Truth values are told by their names. -/
theorem legible_bool : Legible bool := by
  refine legible_of_words (fun b => ?_) fun a b same => ?_
  · cases b <;> simp [bool, IsMark]
  · revert a b
    decide

/-! ## Values inside other values -/

/-- What follows a wrapped value stands behind its closing bracket. -/
theorem wrapped_append (name : String) (value s : List Char) :
    wrapped name value ++ s = name.toList ++ '(' :: (value ++ ')' :: s) := by
  simp [wrapped]

/-- A value that may be missing is told by its text, if it is told when it is there. -/
theorem legible_option (h : Legible inspect) : Legible (option inspect) := by
  intro a b s t closes closes' same
  cases a with
  | none =>
    cases b with
    | none => exact ⟨rfl, List.append_cancel_left same⟩
    | some b => simp [option, wrapped] at same
  | some a =>
    cases b with
    | none => simp [option, wrapped] at same
    | some b =>
      rw [option, option, wrapped_append, wrapped_append] at same
      have inner := List.cons.inj (List.append_cancel_left same)
      obtain ⟨rfl, rest⟩ := h a b _ _ (closes_cons (by simp [IsMark]) s)
        (closes_cons (by simp [IsMark]) t) inner.2
      exact ⟨rfl, (List.cons.inj rest).2⟩

/-- What follows the first item of a list. -/
def further : List (List Char) → List Char → List Char
  | [], s => s
  | x :: xs, s => ',' :: ' ' :: (x ++ further xs s)

/-- The first of several texts is followed by the further ones. -/
theorem separated_cons_append (x : List Char) (xs : List (List Char)) (s : List Char) :
    separated (x :: xs) ++ s = x ++ further xs s := by
  induction xs generalizing x with
  | nil => simp [separated, further]
  | cons y ys ih =>
    rw [further, ← ih y, separated, List.intercalate_cons_cons, separated]
    simp

/-- What follows an item closes it: a comma, or what follows the list. -/
theorem closes_further (xs : List (List Char)) {s : List Char} (closes : Closes s) :
    Closes (further xs s) := by
  cases xs with
  | nil => exact closes
  | cons x xs => exact closes_cons (.inl rfl) _

/-- Items that stand one behind the other are told up to the bracket behind them. -/
theorem further_inj (h : Legible inspect) {as bs : List α} {s t : List Char}
    (same : further (as.map inspect) (']' :: s) = further (bs.map inspect) (']' :: t)) :
    as = bs ∧ s = t := by
  -- What follows an item is a comma or the bracket, and both are marks.
  have closes : ∀ (as : List α) s, Closes (further (as.map inspect) (']' :: s)) :=
    fun as s => closes_further _ (closes_cons (by simp [IsMark]) s)
  induction as generalizing bs with
  | nil =>
    cases bs with
    | nil => exact ⟨rfl, (List.cons.inj same).2⟩
    | cons b bs => simp [further] at same
  | cons a as ih =>
    cases bs with
    | nil => simp [further] at same
    | cons b bs =>
      simp only [List.map_cons, further, List.cons.injEq, true_and] at same
      obtain ⟨rfl, rest⟩ := h a b _ _ (closes as s) (closes bs t) same
      obtain ⟨rfl, last⟩ := ih rest
      exact ⟨rfl, last⟩

/-- A list is told by its items, if these cannot be mistaken for its end. -/
theorem legible_list (h : Legible inspect) (starts : ∀ a s, ¬ Closes (inspect a ++ s)) :
    Legible fun as : List α => list (as.map inspect) := by
  intro as bs s t _ _ same
  have shape : ∀ xs s, list xs ++ s = '[' :: (separated xs ++ ']' :: s) := by simp [list]
  have bracket : ∀ s, Closes (']' :: s) := closes_cons (by simp [IsMark])
  rw [shape, shape, List.cons.injEq] at same
  have items := same.2
  have empty : ∀ s, separated (([] : List α).map inspect) ++ s = s := fun _ => rfl
  -- An item never begins with a mark, so that the empty list is told from the others by its
  -- bracket.
  cases as with
  | nil =>
    cases bs with
    | nil => exact ⟨rfl, (List.cons.inj items).2⟩
    | cons b bs =>
      rw [empty, List.map_cons, separated_cons_append] at items
      exact absurd (items ▸ bracket s) (starts b _)
  | cons a as =>
    rw [List.map_cons, separated_cons_append] at items
    cases bs with
    | nil =>
      rw [empty] at items
      exact absurd (items ▸ bracket t) (starts a _)
    | cons b bs =>
      rw [List.map_cons, separated_cons_append] at items
      obtain ⟨rfl, rest⟩ := h a b _ _ (closes_further _ (bracket s)) (closes_further _ (bracket t))
        items
      obtain ⟨rfl, last⟩ := further_inj h rest
      exact ⟨rfl, last⟩

/-- Rows of texts that end together one by one do so as a whole. -/
theorem further_eq {xs ys : List (List Char)} (h : List.Forall₂ EndTogether xs ys)
    {s t : List Char} (closes : Closes s) (closes' : Closes t)
    (same : further xs s = further ys t) : xs = ys ∧ s = t := by
  induction h with
  | nil => exact ⟨rfl, same⟩
  | cons first _ ih =>
    simp only [further, List.cons.injEq, true_and] at same
    obtain ⟨rfl, rest⟩ := first _ _ (closes_further _ closes) (closes_further _ closes') same
    obtain ⟨rfl, last⟩ := ih rest
    exact ⟨rfl, last⟩

/-- Lists of texts end together if their items do. -/
theorem endTogether_separated {xs ys : List (List Char)} (h : List.Forall₂ EndTogether xs ys)
    {s t : List Char} (closes : Closes s) (closes' : Closes t)
    (same : separated xs ++ s = separated ys ++ t) : xs = ys ∧ s = t := by
  cases h with
  | nil => exact ⟨rfl, same⟩
  | cons first others =>
    rw [separated_cons_append, separated_cons_append] at same
    obtain ⟨rfl, rest⟩ := first _ _ (closes_further _ closes) (closes_further _ closes') same
    obtain ⟨rfl, last⟩ := further_eq others closes closes' rest
    exact ⟨rfl, last⟩

/-- A field ends where its value ends. -/
theorem endTogether_field (name : String) {x y : List Char} (h : EndTogether x y) :
    EndTogether (field name x) (field name y) := by
  intro s t closes closes' same
  have shape : ∀ value s, field name value ++ s = (name.toList ++ [':', ' ']) ++ (value ++ s) := by
    simp [field]
  rw [shape, shape] at same
  obtain ⟨rfl, rest⟩ := h s t closes closes' (List.append_cancel_left same)
  exact ⟨rfl, rest⟩

/-- The fields of a record, each with the text of what it holds, and what it means that all
of them agree in two records.

- `cons`: one more field in front, whose values are told by their texts. -/
inductive Tells : (α → List (String × List Char)) → (α → α → Prop) → Prop where
  | nil : Tells (fun _ => []) fun _ _ => True
  | cons {β : Type} {value : β → List Char} {fields : α → List (String × List Char)}
      {agree : α → α → Prop} (legible : Legible value) (name : String) (f : α → β)
      (others : Tells fields agree) :
      Tells (fun a => (name, value (f a)) :: fields a) fun a b => f a = f b ∧ agree a b

variable {fields : α → List (String × List Char)} {agree : α → α → Prop}

/-- The fields of two records end together, one by one. -/
theorem Tells.endTogether (h : Tells fields agree) (a b : α) :
    List.Forall₂ EndTogether ((fields a).map fun f => field f.1 f.2)
      ((fields b).map fun f => field f.1 f.2) := by
  induction h with
  | nil => exact .nil
  | cons legible name f _ ih =>
    exact .cons (endTogether_field name (legible.endTogether (f a) (f b))) ih

/-- Records that show the same fields agree in all of them. -/
theorem Tells.agree_of_texts (h : Tells fields agree) {a b : α}
    (same : ((fields a).map fun f => field f.1 f.2) = (fields b).map fun f => field f.1 f.2) :
    agree a b := by
  induction h with
  | nil => trivial
  | cons legible name f _ ih =>
    obtain ⟨first, others⟩ := List.cons.inj same
    exact ⟨legible.injective (List.append_cancel_left first), ih others⟩

/-- A record is told by its text, if its fields tell it. -/
theorem legible_record (h : Tells fields agree) (name : String)
    (whole : ∀ a b, agree a b → a = b) : Legible fun a => record name (fields a) := by
  intro a b s t _ _ same
  have shape : ∀ a s, record name (fields a) ++ s = name.toList ++ ' ' :: '{' :: ' ' ::
      (separated ((fields a).map fun f => field f.1 f.2) ++ ' ' :: '}' :: s) := by
    simp [record]
  have blank : ∀ s, Closes (' ' :: s) := closes_cons (by simp [IsMark])
  rw [shape, shape] at same
  have inner := List.append_cancel_left same
  simp only [List.cons.injEq, true_and] at inner
  obtain ⟨texts, rest⟩ := endTogether_separated (h.endTogether a b) (blank _) (blank _) inner
  simp only [List.cons.injEq, true_and] at rest
  exact ⟨whole a b (h.agree_of_texts texts), rest⟩

end Legible

end Netsieve.Inspect
