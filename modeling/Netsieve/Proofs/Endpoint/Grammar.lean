import Netsieve.Endpoint.Codec
import Netsieve.Proofs.Ip.Grammar

/-!
# `Netsieve.Proofs.Endpoint.Grammar`: which texts are endpoints, and what is wrong with others

A text spells an endpoint if it is made up of a literal of the address and a numeral of
the port, with the right separators (`Spelling`). `Reads` says what every text has to
give: the endpoint that it spells, or else the error that comes first when the
separators are looked at before the address and the address before the port. It is
stated about texts alone, and not about how they are taken apart.

* `parse_grammar`: reading a text gives what it has to give, and nothing else. There is
  one way at most in which a text spells an endpoint.
-/

set_option autoImplicit false

namespace Netsieve.Endpoint

open Ip (IsLiteral)

/-! ## The grammar -/

/-- A port: a decimal numeral of any length, with an optional plus sign in front. -/
def IsPort (cs : List Char) (port : UInt16) : Prop :=
  ∃ digits, (cs = digits ∨ cs = '+' :: digits) ∧ Numeral 10 digits port.toNat

/-- How a text is made up of a part for the address and a part for the port.

- `bracketed`: the address stands in brackets;
- `plain`: the address is all that stands before the last colon. -/
inductive Layout : List Char → List Char → List Char → Prop where
  | bracketed {ip port : List Char} : Layout ('[' :: (ip ++ ']' :: ':' :: port)) ip port
  | plain {ip port : List Char} (bare : (ip ++ ':' :: port).head? ≠ some '[')
      (last : ':' ∉ port) : Layout (ip ++ ':' :: port) ip port

/-- A text spells an endpoint with a literal of its address and a numeral of its port. -/
structure Spelling (cs ip port : List Char) (e : Endpoint) : Prop where
  layout : Layout cs ip port
  literal : IsLiteral ip e.ip
  numeral : IsPort port e.port

/-- The two parts of a text, where a bracket is closed at the first place at which it can
be closed. -/
structure Separated (cs ip port : List Char) : Prop where
  layout : Layout cs ip port
  first : cs.head? = some '[' → ']' ∉ ip

/-- What reading a text has to give.

- `endpoint`: the text spells an endpoint;
- `unclosed`: a bracket is not closed;
- `portless`: there is no colon behind the bracket;
- `colonless`: there is no colon at all;
- `noAddress`: the separators are there, but the part for the address is no address;
- `noPort`: the address is one, but the part for the port is no port. -/
inductive Reads : List Char → Except EndpointError Endpoint → Prop where
  | endpoint {cs ip port : List Char} {e : Endpoint} (spelt : Spelling cs ip port e) :
      Reads cs (.ok e)
  | unclosed {rest : List Char} (opened : ']' ∉ rest) :
      Reads ('[' :: rest) (.error .invalidIp)
  | portless {ip tail : List Char} (first : ']' ∉ ip) (other : tail.head? ≠ some ':') :
      Reads ('[' :: (ip ++ ']' :: tail)) (.error .missingPort)
  | colonless {cs : List Char} (bare : cs.head? ≠ some '[') (absent : ':' ∉ cs) :
      Reads cs (.error .missingPort)
  | noAddress {cs ip port : List Char} (parts : Separated cs ip port)
      (other : ∀ address, ¬ IsLiteral ip address) : Reads cs (.error .invalidIp)
  | noPort {cs ip port : List Char} {address : Ip} (parts : Separated cs ip port)
      (literal : IsLiteral ip address) (other : ∀ number, ¬ IsPort port number) :
      Reads cs (.error .invalidPort)

/-! ## The parts -/

/-- A literal has no closing bracket in it, so a spelt text is taken apart at its own
separators. -/
theorem Spelling.separated {cs ip port : List Char} {e : Endpoint} (h : Spelling cs ip port e) :
    Separated cs ip port :=
  ⟨h.layout, fun _ => Ip.not_mem_literal h.literal rfl (by decide) (by decide)⟩

/-- A text without a bracket in front is taken apart at its last colon. -/
theorem separate_of_bare {cs : List Char} (bare : cs.head? ≠ some '[') :
    separate cs = match Split.atLast? ':' cs with
      | none => .error .missingPort
      | some parts => .ok parts := by
  unfold separate
  split
  · exact absurd rfl bare
  · rfl

/-- A text that starts with a bracket has its two parts around the first place where the
bracket can be closed, if a colon follows there. -/
theorem separate_of_closed {ip tail : List Char} (first : ']' ∉ ip) :
    separate ('[' :: (ip ++ ']' :: tail)) = match tail with
      | ':' :: port => .ok (ip, port)
      | _ => .error .missingPort := by
  simp only [separate, Split.atFirst?_append ip tail first]
  cases tail with
  | nil => rfl
  | cons c port =>
    by_cases colon : c = ':'
    · subst colon
      rfl
    · simp [colon]

/-- A bracket that is never closed is an error of the address. -/
theorem separate_of_unclosed {rest : List Char} (opened : ']' ∉ rest) :
    separate ('[' :: rest) = .error .invalidIp := by
  simp only [separate, Split.atFirst?_eq_none_iff.mpr opened]

/-- A text is taken apart into the parts that its layout gives it. -/
theorem separate_of_separated {cs ip port : List Char} (h : Separated cs ip port) :
    separate cs = .ok (ip, port) := by
  obtain ⟨layout, first⟩ := h
  cases layout with
  | bracketed => exact separate_of_closed (first rfl)
  | plain bare last => rw [separate_of_bare bare, Split.atLast?_append ip port last]

/-- Behind a closed bracket nothing but a colon is accepted. -/
theorem separate_of_portless {ip tail : List Char} (first : ']' ∉ ip)
    (other : tail.head? ≠ some ':') :
    separate ('[' :: (ip ++ ']' :: tail)) = .error .missingPort := by
  rw [separate_of_closed first]
  split
  · exact absurd rfl other
  · rfl

/-- Without a colon there is no port. -/
theorem separate_of_colonless {cs : List Char} (bare : cs.head? ≠ some '[')
    (absent : ':' ∉ cs) : separate cs = .error .missingPort := by
  rw [separate_of_bare bare, Split.atLast?_eq_none absent]

/-- A text has its two parts, or its separators are not right in one of three ways. -/
theorem separate_cases (cs : List Char) :
    (∃ ip port, Separated cs ip port) ∨
    (∃ rest, cs = '[' :: rest ∧ ']' ∉ rest) ∨
    (∃ ip tail, cs = '[' :: (ip ++ ']' :: tail) ∧ ']' ∉ ip ∧ tail.head? ≠ some ':') ∨
    (cs.head? ≠ some '[' ∧ ':' ∉ cs) := by
  -- A bracket in front decides which separator is looked for: the first closing bracket, or
  -- else the last colon.
  by_cases bracket : cs.head? = some '['
  · obtain ⟨rest, rfl⟩ := List.head?_eq_some_iff.mp bracket
    cases cut : Split.atFirst? ']' rest with
    | none => exact .inr (.inl ⟨rest, rfl, Split.atFirst?_eq_none_iff.mp cut⟩)
    | some parts =>
      obtain ⟨ip, tail⟩ := parts
      obtain ⟨rfl, first⟩ := Split.atFirst?_eq_some_iff.mp cut
      by_cases colon : tail.head? = some ':'
      · obtain ⟨port, rfl⟩ := List.head?_eq_some_iff.mp colon
        exact .inl ⟨ip, port, .bracketed, fun _ => first⟩
      · exact .inr (.inr (.inl ⟨ip, tail, rfl, first, colon⟩))
  · cases cut : Split.atLast? ':' cs with
    | none => exact .inr (.inr (.inr ⟨bracket, Split.atLast?_eq_none_iff.mp cut⟩))
    | some parts =>
      obtain ⟨ip, port⟩ := parts
      obtain ⟨rfl, last⟩ := Split.atLast?_eq_some_iff.mp cut
      exact .inl ⟨ip, port, .plain bracket last, fun there => absurd there bracket⟩

/-! ## The port -/

/-- A port is read from a numeral behind an optional plus sign, if it fits into 16 bits. -/
theorem port?_eq_some_iff_numeral {cs : List Char} {port : UInt16} :
    port? cs = some port ↔ Numeral 10 (dropPlus cs) port.toNat := by
  unfold port?
  constructor
  · intro h
    split at h
    · next n read =>
      rw [Option.ite_none_right_eq_some] at h
      obtain ⟨small, same⟩ := h
      cases same
      -- The number fits, so nothing of it is cut off.
      have value : (UInt16.ofNat n).toNat = n := by
        rw [UInt16.toNat_ofNat']
        omega
      rw [value]
      exact Decimal.read?_eq_some_iff.mp read
    · cases h
  · intro numeral
    have small : port.toNat ≤ 65535 := by
      have := port.toNat_lt
      omega
    rw [Decimal.read?_eq_some_iff.mpr numeral]
    simp [small]

/-- A sign is no digit. -/
theorem not_numeral_plus {digits : List Char} {n : Nat} : ¬ Numeral 10 ('+' :: digits) n := by
  intro numeral
  exact numeral.not_mem (by decide) rfl List.mem_cons_self

/-- The reader of ports takes exactly the ports. -/
theorem port?_eq_some_iff {cs : List Char} {port : UInt16} :
    port? cs = some port ↔ IsPort cs port := by
  rw [port?_eq_some_iff_numeral]
  unfold dropPlus IsPort
  constructor
  · intro numeral
    split at numeral
    · next digits => exact ⟨digits, .inr rfl, numeral⟩
    · exact ⟨cs, .inl rfl, numeral⟩
  · rintro ⟨digits, rfl | rfl, numeral⟩
    · split
      · exact absurd numeral not_numeral_plus
      · exact numeral
    · exact numeral

/-! ## Reading -/

/-- The parts of a text are read, the address before the port. -/
theorem ofText_of_separated {cs ip port : List Char} (h : Separated cs ip port) :
    ofText cs = ofParts ip port := by
  unfold ofText
  rw [separate_of_separated h]

/-- What goes wrong with the separators is reported before all else. -/
theorem ofText_of_error {cs : List Char} {error : EndpointError}
    (h : separate cs = .error error) : ofText cs = .error error := by
  unfold ofText
  rw [h]

/-- What a text has to give is what reading it gives. -/
theorem ofText_of_reads {cs : List Char} {result : Except EndpointError Endpoint}
    (h : Reads cs result) : ofText cs = result := by
  -- Both readers take all that the grammar has, so what is not in it is not taken.
  have no_literal : ∀ {ip : List Char}, (∀ address, ¬ IsLiteral ip address) →
      Ip.read? ip = none := by
    intro ip other
    refine Option.eq_none_iff_forall_ne_some.mpr fun address read => ?_
    exact other address (Ip.read?_eq_some_iff.mp read)
  have no_port : ∀ {port : List Char}, (∀ number, ¬ IsPort port number) → port? port = none := by
    intro port other
    refine Option.eq_none_iff_forall_ne_some.mpr fun number read => ?_
    exact other number (port?_eq_some_iff.mp read)
  cases h with
  | endpoint spelt =>
    rw [ofText_of_separated spelt.separated, ofParts, Ip.read?_eq_some_iff.mpr spelt.literal]
    simp only [port?_eq_some_iff.mpr spelt.numeral]
  | unclosed opened => exact ofText_of_error (separate_of_unclosed opened)
  | portless first other => exact ofText_of_error (separate_of_portless first other)
  | colonless bare absent => exact ofText_of_error (separate_of_colonless bare absent)
  | noAddress parts other => rw [ofText_of_separated parts, ofParts, no_literal other]
  | noPort parts literal other =>
    rw [ofText_of_separated parts, ofParts, Ip.read?_eq_some_iff.mpr literal]
    simp only [no_port other]

/-- Every text has something to give. -/
theorem reads_ofText (cs : List Char) : Reads cs (ofText cs) := by
  -- Reading gives whatever `Reads` allows. So it is enough that `Reads` allows something.
  suffices some_result : ∃ result, Reads cs result by
    obtain ⟨result, reads⟩ := some_result
    rw [ofText_of_reads reads]
    exact reads
  rcases separate_cases cs with ⟨ip, port, parts⟩ | ⟨rest, rfl, opened⟩ |
    ⟨ip, tail, rfl, first, other⟩ | ⟨bare, absent⟩
  · by_cases literal : ∃ address, IsLiteral ip address
    · obtain ⟨address, literal⟩ := literal
      by_cases numeral : ∃ number, IsPort port number
      · obtain ⟨number, numeral⟩ := numeral
        exact ⟨.ok ⟨address, number⟩, .endpoint ⟨parts.layout, literal, numeral⟩⟩
      · exact ⟨_, .noPort parts literal (not_exists.mp numeral)⟩
    · exact ⟨_, .noAddress parts (not_exists.mp literal)⟩
  · exact ⟨_, .unclosed opened⟩
  · exact ⟨_, .portless first other⟩
  · exact ⟨_, .colonless bare absent⟩

/-- A text spells an endpoint in one way at most. -/
theorem spelling_unique {cs ip port ip' port' : List Char} {e e' : Endpoint}
    (h : Spelling cs ip port e) (h' : Spelling cs ip' port' e') :
    ip = ip' ∧ port = port' ∧ e = e' := by
  have parts : (.ok (ip, port) : Except EndpointError _) = .ok (ip', port') := by
    rw [← separate_of_separated h.separated, separate_of_separated h'.separated]
  have same : (.ok e : Except EndpointError Endpoint) = .ok e' := by
    rw [← ofText_of_reads (.endpoint h), ofText_of_reads (.endpoint h')]
  cases parts
  cases same
  exact ⟨rfl, rfl, rfl⟩

/-- Reading a text gives what it has to give.

It gives an endpoint exactly if the text spells it: brackets around a literal of the
address and a colon and a port behind them, or no bracket in front and a literal, a colon
and a port without a colon in it. The parts and the endpoint are then determined by the
text. Otherwise it gives the error that comes first: a bracket that is not closed, no
colon where it has to be, a part for the address that is no literal, whatever the other
part is, and only then a part for the port that is no port. -/
theorem parse_grammar (s : String) :
    (∀ result, parse s = result ↔ Reads s.toList result) ∧
    ∀ ip port ip' port' e e', Spelling s.toList ip port e → Spelling s.toList ip' port' e' →
      ip = ip' ∧ port = port' ∧ e = e' := by
  refine ⟨fun result => ⟨?_, ofText_of_reads⟩, fun _ _ _ _ _ _ => spelling_unique⟩
  rintro rfl
  exact reads_ofText s.toList

/-- An address with brackets, a gap and a dotted end is spelt in one way. -/
theorem parse_grammar_bracketed :
    let e : Endpoint := ⟨.v6 ⟨[1, 0, 0, 0, 0, 0, 0x203, 0x405], rfl⟩, 7⟩
    let spelt := Spelling "[1::2.3.4.5]:+007".toList "1::2.3.4.5".toList "+007".toList e
    spelt ∧ parse "[1::2.3.4.5]:+007" = .ok e ∧
      ∀ ip port other, Spelling "[1::2.3.4.5]:+007".toList ip port other → other = e := by
  intro e spelt
  have once : spelt :=
    ⟨@Layout.bracketed "1::2.3.4.5".toList "+007".toList, Ip.read?_eq_some_iff.mp (by decide),
      port?_eq_some_iff.mp (by decide)⟩
  obtain ⟨reads, unique⟩ := parse_grammar "[1::2.3.4.5]:+007"
  refine ⟨once, (reads _).mpr (.endpoint once), fun ip port other again => ?_⟩
  exact (unique _ _ _ _ _ _ again once).2.2

/-- Without brackets the last colon is the separator, even if it is part of a gap. -/
example : parse "1::80" = .error .invalidIp ∧
    parse "1:::80" = .ok ⟨.v6 ⟨[1, 0, 0, 0, 0, 0, 0, 0], rfl⟩, 80⟩ := by
  decide

/-- What is wrong with the address comes before what is wrong with the port. -/
example : parse "[1]:x" = .error .invalidIp ∧ parse "[::1]:x" = .error .invalidPort := by
  decide

end Netsieve.Endpoint
