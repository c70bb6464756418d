import Netsieve.Message.Codec
import Netsieve.Network.Latency
import Netsieve.Proofs.Duration.Text
import Netsieve.Proofs.Ip.Printed
import Netsieve.Proofs.Text.ByteLiteral
import Netsieve.Rule.Description

/-!
# `Netsieve.Proofs.Inspection`: diagnostic texts identify values

A text for people who debug a network is of use only if different values do not look the
same. The values of this library do not: the text of a record is put together from the
texts of its fields, and each of these is told apart from the others of its kind and from what
stands behind it (`Inspect.Legible`). A payload may hold any bytes, and those of the text
around it are escaped.

* `Message.legible_inspect`, `Latency.legible_inspect`, `Description.legible_inspect`
* `inspect_identifies`: the three of them, with the texts of payloads and durations.
-/

set_option autoImplicit false

namespace Netsieve

open Inspect (Legible Tells)

/-! ## The fields -/

namespace Inspect

/-- Numbers of 16 bits are told by their digits. -/
theorem legible_uint16 : Legible fun n : UInt16 => nat n.toNat :=
  legible_nat.comp fun _ _ => UInt16.toNat_inj.mp

/-- Numbers of 32 bits are told by their digits. -/
theorem legible_uint32 : Legible fun n : UInt32 => nat n.toNat :=
  legible_nat.comp fun _ _ => UInt32.toNat_inj.mp

/-- Numbers of 64 bits are told by their digits. -/
theorem legible_uint64 : Legible fun n : UInt64 => nat n.toNat :=
  legible_nat.comp fun _ _ => UInt64.toNat_inj.mp

/-- A number does not start with a mark. -/
theorem not_closes_nat (n : Nat) (s : List Char) : ¬ Closes (nat n ++ s) := by
  intro closes
  cases digits : nat n with
  | nil => exact absurd digits Nat.toDigits_ne_nil
  | cons c cs =>
    have first : (nat n ++ s).head? = some c := by rw [digits]; rfl
    exact not_isMark_of_mem_digits c (by rw [← nat, digits]; simp) (closes c first)

end Inspect

/-- Addresses are told by their texts, because a text is a literal of one address. -/
theorem Ip.legible_text : Legible text := by
  refine Inspect.legible_of_words (fun ip c there => ?_) fun ip ip' same => ?_
  · rintro (rfl | rfl | rfl | rfl) <;>
      exact not_mem_literal ip.isLiteral_text rfl (by decide) (by decide) there
  · have read := read?_eq_some_iff.mpr ip.isLiteral_text
    rw [same, read?_eq_some_iff.mpr ip'.isLiteral_text] at read
    exact (Option.some.inj read).symm

/-- Endpoints are told by their texts. -/
theorem Endpoint.legible_inspect : Legible inspect := by
  have fields := Tells.cons Ip.legible_text "address" ip <|
    Tells.cons Inspect.legible_uint16 "port" port Tells.nil
  refine Inspect.legible_record fields "AddressAndPort" ?_
  rintro ⟨⟩ ⟨⟩ ⟨rfl, rfl, -⟩
  rfl

/-- Directions are told by their names. -/
theorem Direction.legible_inspect : Legible inspect := by
  have letters : ∀ d : Direction, d.inspect.all Char.isAlphanum = true := by
    intro d
    cases d <;> rfl
  refine Inspect.legible_of_words (fun d c there => ?_) fun d d' same => ?_
  · exact Inspect.not_isMark_of_isAlphanum (List.all_eq_true.mp (letters d) c there)
  · cases d <;> cases d' <;> first | rfl | cases (List.cons.inj same).1

/-- Ids are numbers, so a list of them shows where each of them ends. -/
theorem Description.legible_inspectIds : Legible inspectIds :=
  Inspect.legible_option (Inspect.legible_list Inspect.legible_uint32
    fun id => Inspect.not_closes_nat id.toNat)

/-- Actions are told by their texts, with the exact length of a fixed delay. -/
theorem ActionSummary.legible_inspect : Legible inspect := by
  have fields := Tells.cons (Inspect.legible_option Inspect.legible_uint64) "millis" id Tells.nil
  have delays : Legible fun millis : Option UInt64 => inspect (.delay millis) :=
    Inspect.legible_record fields "Delay" fun _ _ h => h.1
  intro a b s t closes closes' same
  -- The two kinds of actions differ in the second letter of their texts.
  cases a with
  | drop =>
    cases b with
    | drop => exact ⟨rfl, List.append_cancel_left same⟩
    | delay millis => cases (List.cons.inj (List.cons.inj same).2).1
  | delay millis =>
    cases b with
    | drop => cases (List.cons.inj (List.cons.inj same).2).1
    | delay millis' =>
      obtain ⟨rfl, rest⟩ := delays millis millis' s t closes closes' same
      exact ⟨rfl, rest⟩

/-! ## The records -/

/-- Messages are told by their texts. -/
theorem Message.legible_inspect : Legible inspect := by
  have fields := Tells.cons Inspect.legible_uint32 "verb" verb <|
    Tells.cons ByteLiteral.legible_inspect "bytes" payload <|
    Tells.cons Inspect.legible_uint64 "id" id <|
    Tells.cons Inspect.legible_uint32 "version" version <|
    Tells.cons (Inspect.legible_option Endpoint.legible_inspect) "from" origin <|
    Tells.cons Inspect.legible_uint16 "from_port" fromPort Tells.nil
  refine Inspect.legible_record fields "Message" ?_
  rintro ⟨⟩ ⟨⟩ ⟨rfl, rfl, rfl, rfl, rfl, rfl, -⟩
  rfl

/-- Settings are told by their texts. -/
theorem Latency.legible_inspect : Legible inspect := by
  have fields := Tells.cons Duration.legible_inspect "base_latency" base <|
    Tells.cons Duration.legible_inspect "max_filter_delay" maxRuleDelay Tells.nil
  refine Inspect.legible_record fields "NetworkConfiguration" ?_
  rintro ⟨⟩ ⟨⟩ ⟨rfl, rfl, -⟩
  rfl

/-- Descriptions are told by their texts. -/
theorem Description.legible_inspect : Legible inspect := by
  have fields := Tells.cons Inspect.legible_uint64 "id" id <|
    Tells.cons Direction.legible_inspect "direction" direction <|
    Tells.cons legible_inspectIds "verbs" verbs <|
    Tells.cons legible_inspectIds "from" senders <|
    Tells.cons legible_inspectIds "to" receivers <|
    Tells.cons Inspect.legible_bool "content_predicate" hasContent <|
    Tells.cons ActionSummary.legible_inspect "action" action <|
    Tells.cons Inspect.legible_bool "enabled" enabled Tells.nil
  refine Inspect.legible_record fields "FilterDescription" ?_
  rintro ⟨⟩ ⟨⟩ ⟨rfl, rfl, rfl, rfl, rfl, rfl, rfl, rfl, -⟩
  rfl

/-- What diagnostic texts tell.

- `message`, `latency`, `description`: values with the same text are equal;
- `payload`: a payload stands between quotes, and each of its bytes is spelt there;
- `duration`: the text of a duration is exact. -/
structure Identifying : Prop where
  message : Function.Injective Message.inspect
  latency : Function.Injective Latency.inspect
  description : Function.Injective Description.inspect
  payload (bytes : List UInt8) : ∃ pieces, List.Forall₂ ByteLiteral.Spells bytes pieces ∧
    ByteLiteral.inspect bytes = 'b' :: '"' :: pieces.flatten ++ ['"']
  duration (d : Duration) : Duration.Shown d.toNanos d.inspect

/-- The diagnostic texts of messages, latency settings and descriptions identify them. -/
theorem inspect_identifies : Identifying where
  message := Message.legible_inspect.injective
  latency := Latency.legible_inspect.injective
  description := Description.legible_inspect.injective
  payload := ByteLiteral.inspect_eq
  duration := Duration.shown_inspect

end Netsieve
