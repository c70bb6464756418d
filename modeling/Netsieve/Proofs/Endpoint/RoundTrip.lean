import Netsieve.Proofs.Endpoint.Grammar
import Netsieve.Proofs.Ip.Printed

/-!
# `Netsieve.Proofs.Endpoint.RoundTrip`: what is printed is read back

`Shown e cs` says what the text of an endpoint looks like. It spells the endpoint, so
that reading it gives the endpoint again.

* `parse_toString`: reading what was printed gives what was to be printed, and no two
  endpoints have the same text.
-/

set_option autoImplicit false

namespace Netsieve.Endpoint

open Ip (IsLiteral)

/-- The text of an endpoint. A long address stands in brackets. -/
inductive Shown : Endpoint → List Char → Prop where
  | short {a b c d : UInt8} {port : UInt16} :
      Shown ⟨.v4 a b c d, port⟩ (Ip.dotted a b c d ++ ':' :: Decimal.digits port.toNat)
  | long {groups : Groups} {port : UInt16} {cs : List Char}
      (printed : Ip.Printed groups.toList cs) :
      Shown ⟨.v6 groups, port⟩ ('[' :: (cs ++ ']' :: ':' :: Decimal.digits port.toNat))

/-- The text of an endpoint is laid out as `Shown` says. -/
theorem shown_text (e : Endpoint) : Shown e e.text := by
  obtain ⟨ip, port⟩ := e
  cases ip with
  | v4 a b c d => exact .short
  | v6 groups => exact .long (Ip.printed_groupsText groups.toList)

/-- The text of an endpoint spells it. -/
theorem spelling_of_shown {e : Endpoint} {cs : List Char} (h : Shown e cs) :
    ∃ ip port, Spelling cs ip port e := by
  have numeral : ∀ port : UInt16, Numeral 10 (Decimal.digits port.toNat) port.toNat :=
    fun port => numeral_toDigits (by decide) (by decide) port.toNat
  cases h with
  | @short a b c d port =>
    have literal : IsLiteral (Ip.dotted a b c d) (.v4 a b c d) := .v4 (Ip.isQuad_dotted a b c d)
    -- A short address starts with a digit, so no bracket is seen in front of it.
    have bare : (Ip.dotted a b c d ++ ':' :: Decimal.digits port.toNat).head? ≠ some '[' := by
      intro bracket
      cases text : Ip.dotted a b c d with
      | nil => exact Ip.quad_ne_nil (Ip.isQuad_dotted a b c d) text
      | cons first rest =>
        rw [text] at bracket literal
        cases bracket
        exact Ip.not_mem_literal literal rfl (by decide) (by decide) List.mem_cons_self
    have last : ':' ∉ Decimal.digits port.toNat := (numeral port).not_mem (by decide) rfl
    exact ⟨_, _, .plain bare last, literal, _, .inl rfl, numeral port⟩
  | @long groups port cs printed =>
    have literal : IsLiteral cs (.v6 groups) :=
      .v6 (Ip.isLong_of_printed printed groups.length_eq)
    exact ⟨_, _, .bracketed, literal, _, .inl rfl, numeral port⟩

/-- An endpoint is read back from its characters. -/
theorem ofText_text (e : Endpoint) : ofText e.text = .ok e := by
  obtain ⟨ip, port, spelt⟩ := spelling_of_shown (shown_text e)
  exact ofText_of_reads (.endpoint spelt)

/-- Reading the text of an endpoint gives the endpoint.

So two endpoints with the same text are the same. The text is as `Shown` says: a short
address in dotted form, or a long one in brackets; and then a colon and the port. In a
long address the longest run of zero groups is left out wherever it stands, the first one
on a tie and none if no run has two of them, and an embedded short address keeps its
dots. -/
theorem parse_toString (e other : Endpoint) :
    parse e.toString = .ok e ∧
    (other.toString = e.toString ↔ other = e) ∧
    Shown e e.toString.toList := by
  have read : ∀ e : Endpoint, parse e.toString = .ok e := by
    intro e
    rw [parse, toString, String.toList_ofList, ofText_text]
  refine ⟨read e, ⟨fun same => ?_, congrArg toString⟩, ?_⟩
  · have both : (.ok other : Except EndpointError Endpoint) = .ok e := by
      rw [← read other, same, read e]
    cases both
    rfl
  · rw [toString, String.toList_ofList]
    exact shown_text e

/-- The run that is left out may stand at either end or in the middle, and a single zero
is no run. -/
example :
    (⟨.v6 ⟨[0, 0, 0, 1, 0, 0, 0, 1], rfl⟩, 80⟩ : Endpoint).text = "[::1:0:0:0:1]:80".toList ∧
    (⟨.v6 ⟨[1, 0, 0, 2, 0, 0, 0, 1], rfl⟩, 80⟩ : Endpoint).text = "[1:0:0:2::1]:80".toList ∧
    (⟨.v6 ⟨[1, 0, 2, 3, 0, 4, 0, 0], rfl⟩, 80⟩ : Endpoint).text = "[1:0:2:3:0:4::]:80".toList ∧
    (⟨.v6 ⟨[1, 0, 2, 3, 0, 4, 5, 0], rfl⟩, 80⟩ : Endpoint).text = "[1:0:2:3:0:4:5:0]:80".toList :=
  ⟨rfl, rfl, rfl, rfl⟩

end Netsieve.Endpoint
