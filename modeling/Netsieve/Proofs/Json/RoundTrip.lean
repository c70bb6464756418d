import Mathlib.Data.List.TakeWhile
import Netsieve.Json.Parser
import Netsieve.Json.Printer
import Netsieve.Json.Record
import Netsieve.Proofs.Reading
import Netsieve.Proofs.Text.Numeral

/-!
# `Netsieve.Proofs.Json.RoundTrip`: what is printed is read back

A value is `Plain` if its numbers are number literals and its strings hold characters and
nothing else. Such a value is printed as a text of its own, whatever its depth:

* `parse?_toString`: reading the text of a plain value gives the value.

Reading goes through the text and then through the tokens, and so does the proof. `tokens`
are the tokens of a value. The texts of two values cannot stand side by side, because a word
or a number has no end of its own: it lasts until another character comes. So there are two
kinds of text. One `Scans` when it starts where a token may start. The other one `Follows`:
it starts with a mark, and can also stand right behind a word.
-/

set_option autoImplicit false

namespace Netsieve.Json

/-- A value that has a text: its numbers are literals, and its strings are characters. -/
inductive Plain : Json → Prop where
  | null : Plain .null
  | bool (b : Bool) : Plain (.bool b)
  | num {literal : List Char} (number : isNumber literal = true) : Plain (.num literal)
  | str (cs : List Char) : Plain (ofText cs)
  | arr {items : List Json} (plain : ∀ v ∈ items, Plain v) : Plain (.arr items)
  | obj {members : List (List Glyph × Json)} (named : ∀ m ∈ members, ∃ cs, m.1 = glyphs cs)
      (plain : ∀ m ∈ members, Plain m.2) : Plain (.obj members)

mutual

/-- The tokens of a value. -/
def tokens : Json → List Token
  | .str content => [.text content]
  | .arr [] => [.openArray, .closeArray]
  | .arr (v :: vs) => .openArray :: (tokens v ++ (itemTokens vs ++ [.closeArray]))
  | .obj [] => [.openObject, .closeObject]
  | .obj ((name, v) :: ms) =>
    .openObject :: .text name :: .colon :: (tokens v ++ (memberTokens ms ++ [.closeObject]))
  | v => [.scalar v]

/-- The tokens of further items of an array. -/
def itemTokens : List Json → List Token
  | [] => []
  | v :: vs => .comma :: (tokens v ++ itemTokens vs)

/-- The tokens of further members of an object. -/
def memberTokens : List (List Glyph × Json) → List Token
  | [] => []
  | (name, v) :: ms => .comma :: .text name :: .colon :: (tokens v ++ memberTokens ms)

end

/-! ## Number literals -/

/-- Digits can stand in a word. -/
theorem isWordChar_of_isDigit {c : Char} (h : c.isDigit = true) : isWordChar c = true := by
  simp [isWordChar, Char.isAlphanum, h]

/-- An exponent is part of one word. -/
theorem isWordChar_of_isExponent {cs : List Char} (h : isExponent cs = true) :
    ∀ c ∈ cs, isWordChar c = true := by
  cases cs with
  | nil => simp
  | cons e rest =>
    simp only [isExponent, Bool.and_eq_true, Bool.or_eq_true, beq_iff_eq, List.all_eq_true] at h
    obtain ⟨mark, -, digits⟩ := h
    have first : isWordChar e = true := by
      rcases mark with rfl | rfl <;> decide
    have others : ∀ c ∈ rest, isWordChar c = true := by
      intro c hc
      split at digits
      · rcases List.mem_cons.mp hc with rfl | hc
        · decide
        · exact isWordChar_of_isDigit (digits c hc)
      · rcases List.mem_cons.mp hc with rfl | hc
        · decide
        · exact isWordChar_of_isDigit (digits c hc)
      · exact isWordChar_of_isDigit (digits c hc)
    simpa [first] using others

/-- Digits, and behind them characters of words. -/
theorem isWordChar_of_dropWhile {cs : List Char}
    (h : ∀ c ∈ cs.dropWhile Char.isDigit, isWordChar c = true) :
    ∀ c ∈ cs, isWordChar c = true := by
  intro c hc
  rw [← List.takeWhile_append_dropWhile (p := Char.isDigit) (l := cs)] at hc
  rcases List.mem_append.mp hc with digit | rest
  · exact isWordChar_of_isDigit (List.mem_takeWhile_imp digit)
  · exact h c rest

/-- The decimals of a number and its exponent are part of one word. -/
theorem isWordChar_of_isFractionAndExponent {cs : List Char}
    (h : isFractionAndExponent cs = true) : ∀ c ∈ cs, isWordChar c = true := by
  unfold isFractionAndExponent at h
  split at h
  · next rest =>
    rw [Bool.and_eq_true] at h
    have point : isWordChar '.' = true := by decide
    simpa [point] using isWordChar_of_dropWhile (isWordChar_of_isExponent h.2)
  · exact isWordChar_of_isExponent h

/-- A number without a sign is one word, and not empty. -/
theorem isWordChar_of_isUnsigned {cs : List Char} (h : isUnsigned cs = true) :
    cs ≠ [] ∧ ∀ c ∈ cs, isWordChar c = true := by
  unfold isUnsigned at h
  split at h
  · next rest =>
    have zero : isWordChar '0' = true := by decide
    simpa [zero] using isWordChar_of_isFractionAndExponent h
  · next c rest _ =>
    rw [Bool.and_eq_true] at h
    have others := isWordChar_of_dropWhile (isWordChar_of_isFractionAndExponent h.2)
    simpa [isWordChar_of_isDigit h.1] using others
  · cases h

/-- A number literal is a word. -/
theorem isWordChar_of_isNumber {cs : List Char} (h : isNumber cs = true) :
    cs ≠ [] ∧ ∀ c ∈ cs, isWordChar c = true := by
  unfold isNumber at h
  split at h
  · next rest =>
    have sign : isWordChar '-' = true := by decide
    simpa [sign] using (isWordChar_of_isUnsigned h).2
  · exact isWordChar_of_isUnsigned h

/-- The literal of a number is read as that number. -/
theorem word?_of_isNumber {cs : List Char} (h : isNumber cs = true) :
    word? cs = some (.num cs) := by
  have other : cs ≠ ['n', 'u', 'l', 'l'] ∧ cs ≠ ['t', 'r', 'u', 'e'] ∧
      cs ≠ ['f', 'a', 'l', 's', 'e'] := by
    refine ⟨?_, ?_, ?_⟩ <;> rintro rfl <;> cases h
  simp [word?, other, h]

/-- The digits of a number are a literal. -/
theorem isNumber_digits (n : Nat) : isNumber (Decimal.digits n) = true := by
  have digit : ∀ c ∈ Decimal.digits n, c.isDigit = true := fun c hc =>
    Nat.isDigit_of_mem_toDigits (by decide) (by decide) hc
  -- Zero is the only number that may begin with a zero.
  by_cases zero : n = 0
  · subst zero
    decide
  · have front : (Decimal.digits n).head? ≠ some '0' :=
      head?_toDigits (by decide) (by decide) (Nat.pos_of_ne_zero zero)
    cases shape : Decimal.digits n with
    | nil => exact absurd shape Nat.toDigits_ne_nil
    | cons c rest =>
      rw [shape] at digit front
      have first : c.isDigit = true := digit c List.mem_cons_self
      have unsigned : c ≠ '-' := by
        rintro rfl
        cases first
      have leading : c ≠ '0' := fun same => front (by simp [same])
      have others : rest.dropWhile Char.isDigit = [] :=
        List.dropWhile_eq_nil_iff.mpr fun d hd => digit d (List.mem_cons_of_mem _ hd)
      -- There is no sign and no leading zero, and the digits are followed by nothing.
      rw [isNumber.eq_def]
      split
      · next same => exact absurd (List.cons.inj same).1 unsigned
      · rw [isUnsigned.eq_def]
        split
        · next same => exact absurd (List.cons.inj same).1 leading
        · next same =>
          obtain ⟨rfl, rfl⟩ := List.cons.inj same
          rw [first, others]
          rfl
        · next same => cases same

/-- A natural number has a text. -/
theorem plain_ofNat (n : Nat) : Plain (ofNat n) :=
  .num (isNumber_digits n)

/-! ## From characters to tokens -/

/-- The reading of a text stands between two tokens, or in a word that may end here. These
are the tokens so far. -/
inductive Scan.Stands : Scan → List Token → Prop where
  | blank {read : List Token} : Stands ⟨.blank, read⟩ read
  | word {seen : List Char} {read all : List Token} (ends : Scan.endWord seen read = some all) :
      Stands ⟨.word seen, read⟩ all

/-- A text has these tokens if a token may start where it does. -/
def Scans (cs : List Char) (ts : List Token) : Prop :=
  ∀ read, ∃ s, cs.foldlM Scan.step ⟨.blank, read⟩ = some s ∧ s.Stands (ts.reverse ++ read)

/-- A text has these tokens, also right behind a word. -/
def Follows (cs : List Char) (ts : List Token) : Prop :=
  ∀ s read, s.Stands read →
    ∃ s', cs.foldlM Scan.step s = some s' ∧ s'.Stands (ts.reverse ++ read)

/-- An empty text has no tokens. -/
theorem follows_nil : Follows [] [] :=
  fun s _ stands => ⟨s, rfl, stands⟩

/-- What follows what follows has the tokens of both, in that order. -/
theorem Follows.append {cs ds : List Char} {ts us : List Token} (h : Follows cs ts)
    (rest : Follows ds us) : Follows (cs ++ ds) (ts ++ us) := by
  intro s read stands
  obtain ⟨mid, first, stands⟩ := h s read stands
  obtain ⟨s', second, stands⟩ := rest mid _ stands
  exact ⟨s', (foldlM_append_of first ds).trans second, by simpa using stands⟩

/-- What follows a text that scans adds its tokens. -/
theorem Scans.append {cs ds : List Char} {ts us : List Token} (h : Scans cs ts)
    (rest : Follows ds us) : Scans (cs ++ ds) (ts ++ us) := by
  intro read
  obtain ⟨mid, first, stands⟩ := h read
  obtain ⟨s', second, stands⟩ := rest mid _ stands
  exact ⟨s', (foldlM_append_of first ds).trans second, by simpa using stands⟩

/-- What may follow a word may also stand alone. -/
theorem Follows.scans {cs : List Char} {ts : List Token} (h : Follows cs ts) : Scans cs ts :=
  fun read => h ⟨.blank, read⟩ read .blank

/-- A mark ends a word, and is a token by itself. -/
theorem step_mark {c : Char} {token : Token} (mark : punctuation? c = some token) {s : Scan}
    {read : List Token} (stands : s.Stands read) : s.step c = some ⟨.blank, token :: read⟩ := by
  have cases : c = '[' ∨ c = ']' ∨ c = '{' ∨ c = '}' ∨ c = ',' ∨ c = ':' := by
    unfold punctuation? at mark
    grind
  have other : isWordChar c = false ∧ isBlank c = false ∧ c ≠ '"' := by
    rcases cases with rfl | rfl | rfl | rfl | rfl | rfl <;> decide
  have starts : ∀ read, Scan.start read c = some ⟨.blank, token :: read⟩ := by
    intro read
    simp [Scan.start, other, mark]
  cases stands with
  | blank => exact starts read
  | word ends => simp [Scan.step, other, ends, starts]

/-- A mark of punctuation ends a word, and is a token of its own. -/
theorem follows_mark {c : Char} {token : Token} (mark : punctuation? c = some token)
    {cs : List Char} {ts : List Token} (h : Scans cs ts) : Follows (c :: cs) (token :: ts) := by
  intro s read stands
  obtain ⟨s', reads, stands'⟩ := h (token :: read)
  exact ⟨s', (foldlM_cons_of (step_mark mark stands) cs).trans reads, by simpa using stands'⟩

/-- A mark alone is one token. -/
theorem follows_single {c : Char} {token : Token} (mark : punctuation? c = some token) :
    Follows [c] [token] :=
  follows_mark mark follows_nil.scans

/-! ### Words -/

/-- The characters of a word are collected, the last one first. -/
theorem foldlM_word {cs : List Char} (word : ∀ c ∈ cs, isWordChar c = true) (seen : List Char)
    (read : List Token) :
    cs.foldlM Scan.step ⟨.word seen, read⟩ = some ⟨.word (cs.reverse ++ seen), read⟩ := by
  induction cs generalizing seen with
  | nil => rfl
  | cons c cs ih =>
    have first : Scan.step ⟨.word seen, read⟩ c = some ⟨.word (c :: seen), read⟩ := by
      simp [Scan.step, word c List.mem_cons_self]
    rw [foldlM_cons_of first, ih fun d hd => word d (List.mem_cons_of_mem _ hd)]
    simp

/-- A word or number is one token. -/
theorem scans_word {cs : List Char} {v : Json} (some_char : cs ≠ [])
    (word : ∀ c ∈ cs, isWordChar c = true) (value : word? cs = some v) :
    Scans cs [.scalar v] := by
  intro read
  cases cs with
  | nil => exact absurd rfl some_char
  | cons c cs =>
    have first : isWordChar c = true := word c List.mem_cons_self
    -- A word begins with none of the characters that the scanner treats otherwise.
    have other : isBlank c = false ∧ c ≠ '"' := by
      have blank : isBlank c = true → c = ' ' ∨ c = '\n' ∨ c = '\t' ∨ c = '\r' := by
        simp [isBlank, or_assoc]
      refine ⟨Bool.eq_false_iff.mpr fun h => ?_, ?_⟩
      · rcases blank h with rfl | rfl | rfl | rfl <;> cases first
      · rintro rfl
        cases first
    have starts : Scan.step ⟨.blank, read⟩ c = some ⟨.word [c], read⟩ := by
      simp [Scan.step, Scan.start, other, first]
    refine ⟨⟨.word (cs.reverse ++ [c]), read⟩, ?_, .word ?_⟩
    · rw [foldlM_cons_of starts]
      exact foldlM_word (fun d hd => word d (List.mem_cons_of_mem _ hd)) [c] read
    · simp [Scan.endWord, value]

/-! ### Strings -/

/-- Four hexadecimal digits name a unit. -/
theorem foldlM_unit {unit : Nat} (small : unit < 65536) (content : List Glyph)
    (read : List Token) :
    (unitEscape unit).foldlM Scan.step ⟨.text content, read⟩
      = some ⟨.text (addUnit content unit), read⟩ := by
  have digit : ∀ d < 16, Hex.digit? (Nat.digitChar d) = some d := fun d hd =>
    Hex.digit?_eq_some_iff.mpr (isDigit_digitChar (by decide) hd)
  -- The escape writes a unit as two bytes, and each of these as two digits.
  have high : (UInt8.ofNat (unit / 256)).toNat = unit / 256 := by
    rw [UInt8.toNat_ofNat']
    omega
  have low : (UInt8.ofNat (unit % 256)).toNat = unit % 256 := by
    rw [UInt8.toNat_ofNat']
    omega
  -- The value of the four digits is the unit again.
  have whole : Hex.value [unit / 256 / 16, unit / 256 % 16, unit % 256 / 16, unit % 256 % 16]
      = unit := by
    simp only [Hex.value, List.foldl_cons, List.foldl_nil]
    omega
  have d₁ := digit (unit / 256 / 16) (by omega)
  have d₂ := digit (unit / 256 % 16) (by omega)
  have d₃ := digit (unit % 256 / 16) (by omega)
  have d₄ := digit (unit % 256 % 16) (by omega)
  rw [unitEscape, Hex.pair, Hex.pair, high, low]
  simp [-Nat.mod_mod_of_dvd, Scan.step, d₁, d₂, d₃, d₄, whole]

/-- A character of a string is read back. -/
theorem foldlM_char (c : Char) (content : List Glyph) (read : List Token) :
    (Glyph.char c).render.foldlM Scan.step ⟨.text content, read⟩
      = some ⟨.text (.char c :: content), read⟩ := by
  have order : ∀ d : Char, d < ' ' ↔ d.toNat < 32 := fun _ => Iff.rfl
  rw [Glyph.render]
  split
  · next marked =>
    rcases marked with rfl | rfl <;> rfl
  · next plain =>
    rw [not_or] at plain
    split
    · -- A control character is escaped. It is no half of a pair, so that it stands for
      -- itself.
      next low =>
      have unit : c.toNat < 32 := (order c).mp low
      have lone : addUnit content c.toNat = .char c :: content := by
        have single : loneUnit c.toNat = .char c := by
          have outside : opensPair c.toNat = false ∧ closesPair c.toNat = false := by
            simp [opensPair, closesPair]
            omega
          simp [loneUnit, outside]
        -- It cannot complete a pair either, whatever has been read before.
        have closes : closesPair c.toNat = false := by
          simp [closesPair]
          omega
        unfold addUnit
        split <;> simp [closes, single]
      rw [foldlM_unit (by omega), lone]
    · next high => simp [Scan.step, plain, high]

/-- The characters of a string are collected, whatever escapes stand for them. -/
theorem foldlM_chars (cs : List Char) (content : List Glyph) (read : List Token) :
    ((glyphs cs).flatMap Glyph.render).foldlM Scan.step ⟨.text content, read⟩
      = some ⟨.text ((glyphs cs).reverse ++ content), read⟩ := by
  induction cs generalizing content with
  | nil => rfl
  | cons c cs ih =>
    have split : (glyphs (c :: cs)).flatMap Glyph.render
        = (Glyph.char c).render ++ (glyphs cs).flatMap Glyph.render := rfl
    rw [split, foldlM_append_of (foldlM_char c content read), ih]
    simp [glyphs]

/-- A string is one token. -/
theorem scans_string (cs : List Char) :
    Scans (renderString (glyphs cs)) [.text (glyphs cs)] := by
  intro read
  have opens : Scan.step ⟨.blank, read⟩ '"' = some ⟨.text [], read⟩ := rfl
  have closes : ∀ content, Scan.step ⟨.text content, read⟩ '"'
      = some ⟨.blank, .text content.reverse :: read⟩ := fun _ => rfl
  refine ⟨_, ?_, .blank⟩
  rw [renderString, List.cons_append, foldlM_cons_of opens,
    foldlM_append_of (foldlM_chars cs [] read), foldlM_cons_of (closes _)]
  simp

/-! ### Values -/

/-- Further items add a comma and their own tokens each. -/
theorem follows_items {vs : List Json} (h : ∀ v ∈ vs, Scans v.render v.tokens) :
    Follows (renderItems vs) (itemTokens vs) := by
  induction vs with
  | nil => exact follows_nil
  | cons v vs ih =>
    have first : Follows (',' :: v.render) (.comma :: v.tokens) :=
      follows_mark rfl (h v List.mem_cons_self)
    exact first.append (ih fun w hw => h w (List.mem_cons_of_mem _ hw))

/-- A member of an object behind a mark: its name, a colon and its value. -/
theorem follows_member {c : Char} {token : Token} (mark : punctuation? c = some token)
    (name : List Char) {v : Json} (h : Scans v.render v.tokens) :
    Follows (c :: (renderString (glyphs name) ++ ':' :: v.render))
      (token :: .text (glyphs name) :: .colon :: v.tokens) :=
  follows_mark mark ((scans_string name).append (follows_mark rfl h))

/-- Further members add a comma, their name, a colon and their own tokens each. -/
theorem follows_members {ms : List (List Glyph × Json)}
    (named : ∀ m ∈ ms, ∃ cs, m.1 = glyphs cs) (h : ∀ m ∈ ms, Scans m.2.render m.2.tokens) :
    Follows (renderMembers ms) (memberTokens ms) := by
  induction ms with
  | nil => exact follows_nil
  | cons m ms ih =>
    obtain ⟨cs, name⟩ := named m List.mem_cons_self
    obtain ⟨_, v⟩ := m
    subst name
    have first := follows_member (c := ',') rfl cs (h (_, v) List.mem_cons_self)
    have rest := ih (fun m hm => named m (List.mem_cons_of_mem _ hm))
      fun m hm => h m (List.mem_cons_of_mem _ hm)
    simpa [renderMembers, memberTokens] using first.append rest

/-- The text of a value has the tokens of the value. -/
theorem scans_render {v : Json} (plain : Plain v) : Scans v.render v.tokens := by
  -- By induction on the value. Words need a mark or the end of the text after them, and all
  -- that follows an item begins with a mark.
  induction plain with
  | null => exact scans_word (by decide) (List.all_eq_true.mp rfl) rfl
  | bool b =>
    cases b with
    | true => exact scans_word (by decide) (List.all_eq_true.mp rfl) rfl
    | false => exact scans_word (by decide) (List.all_eq_true.mp rfl) rfl
  | num number =>
    obtain ⟨some_char, word⟩ := isWordChar_of_isNumber number
    exact scans_word some_char word (word?_of_isNumber number)
  | str cs => exact scans_string cs
  | @arr items _ ih =>
    cases items with
    | nil => exact (follows_mark rfl (follows_single rfl).scans).scans
    | cons v vs =>
      have inside := (ih v List.mem_cons_self).append
        ((follows_items fun w hw => ih w (List.mem_cons_of_mem _ hw)).append
          (follows_single (c := ']') rfl))
      simpa [render, tokens] using (follows_mark (c := '[') rfl inside).scans
  | @obj members named _ ih =>
    cases members with
    | nil => exact (follows_mark rfl (follows_single rfl).scans).scans
    | cons m ms =>
      obtain ⟨cs, name⟩ := named m List.mem_cons_self
      obtain ⟨_, v⟩ := m
      subst name
      have first := follows_member (c := '{') rfl cs (ih (_, v) List.mem_cons_self)
      have rest := (follows_members (fun m hm => named m (List.mem_cons_of_mem _ hm))
        fun m hm => ih m (List.mem_cons_of_mem _ hm)).append (follows_single (c := '}') rfl)
      simpa [render, tokens] using (first.append rest).scans

/-- The tokens of a text that has these tokens. -/
theorem tokens?_of_scans {cs : List Char} {ts : List Token} (h : Scans cs ts) :
    tokens? cs = some ts := by
  obtain ⟨s, reads, stands⟩ := h []
  rw [tokens?, reads, Option.bind_some]
  rw [List.append_nil] at stands
  cases stands with
  | blank => simp [Scan.finish]
  | word ends => simp [Scan.finish, ends]

/-! ## From tokens to the value -/

/-- The tokens of a value are read as the value, whatever is open around it. -/
def Reads (v : Json) : Prop :=
  ∀ stack, v.tokens.foldlM Reader.step ⟨stack, .value⟩ = some ⟨stack, .after v⟩

/-- A value can also be the first item of an array. -/
theorem foldlM_firstItem (v : Json) (stack : List Frame) :
    v.tokens.foldlM Reader.step ⟨.array [] :: stack, .itemOrEnd⟩
      = v.tokens.foldlM Reader.step ⟨.array [] :: stack, .value⟩ := by
  cases v with
  | arr items => cases items <;> rfl
  | obj members => cases members <;> rfl
  | _ => rfl

/-- What is left of an array behind an item. -/
theorem reads_items {vs : List Json} (h : ∀ v ∈ vs, Reads v) (done : List Json) (v : Json)
    (stack : List Frame) :
    (itemTokens vs ++ [Token.closeArray]).foldlM Reader.step ⟨.array done :: stack, .after v⟩
      = some ⟨stack, .after (.arr ((v :: done).reverse ++ vs))⟩ := by
  induction vs generalizing done v with
  | nil => simp [itemTokens, Reader.step, Reader.continue?]
  | cons w ws ih =>
    have next : Reader.step ⟨.array done :: stack, .after v⟩ .comma
        = some ⟨.array (v :: done) :: stack, .value⟩ := rfl
    rw [itemTokens, List.cons_append, List.append_assoc, foldlM_cons_of next,
      foldlM_append_of (h w List.mem_cons_self _),
      ih fun u hu => h u (List.mem_cons_of_mem _ hu)]
    simp

/-- What is left of an object behind a member. -/
theorem reads_members {ms : List (List Glyph × Json)} (h : ∀ m ∈ ms, Reads m.2)
    (done : List (List Glyph × Json)) (name : List Glyph) (v : Json) (stack : List Frame) :
    (memberTokens ms ++ [Token.closeObject]).foldlM Reader.step
        ⟨.member done name :: stack, .after v⟩
      = some ⟨stack, .after (.obj (((name, v) :: done).reverse ++ ms))⟩ := by
  -- By induction on the members that are left, for any that are done.
  induction ms generalizing done name v with
  | nil => simp [memberTokens, Reader.step, Reader.continue?]
  | cons m ms ih =>
    obtain ⟨other, w⟩ := m
    have next : ([.comma, .text other, .colon] : List Token).foldlM Reader.step
        ⟨.member done name :: stack, .after v⟩
          = some ⟨.member ((name, v) :: done) other :: stack, .value⟩ := rfl
    have split : memberTokens ((other, w) :: ms) ++ [.closeObject]
        = [.comma, .text other, .colon] ++ (w.tokens ++ (memberTokens ms ++ [.closeObject])) := by
      simp [memberTokens]
    rw [split, foldlM_append_of next, foldlM_append_of (h (other, w) List.mem_cons_self _),
      ih fun n hn => h n (List.mem_cons_of_mem _ hn)]
    simp

/-- The tokens of a value are read as the value. -/
theorem reads_tokens {v : Json} (plain : Plain v) : Reads v := by
  -- By induction on the value, for any stack of open brackets.
  induction plain with
  | null | bool | num | str => exact fun _ => rfl
  | @arr items _ ih =>
    intro stack
    cases items with
    | nil => rfl
    | cons v vs =>
      have opens : Reader.step ⟨stack, .value⟩ .openArray
          = some ⟨.array [] :: stack, .itemOrEnd⟩ := rfl
      have first := (foldlM_firstItem v stack).trans (ih v List.mem_cons_self _)
      rw [tokens, foldlM_cons_of opens, foldlM_append_of first,
        reads_items fun w hw => ih w (List.mem_cons_of_mem _ hw)]
      rfl
  | @obj members _ _ ih =>
    intro stack
    cases members with
    | nil => rfl
    | cons m ms =>
      obtain ⟨name, v⟩ := m
      have opens : ([.openObject, .text name, .colon] : List Token).foldlM Reader.step
          ⟨stack, .value⟩ = some ⟨.member [] name :: stack, .value⟩ := rfl
      have split : tokens (.obj ((name, v) :: ms))
          = [.openObject, .text name, .colon]
            ++ (v.tokens ++ (memberTokens ms ++ [.closeObject])) := by
        simp [tokens]
      rw [split, foldlM_append_of opens, foldlM_append_of (ih (name, v) List.mem_cons_self _),
        reads_members fun n hn => ih n (List.mem_cons_of_mem _ hn)]
      rfl

/-- Reading the text of a plain value gives the value. -/
theorem parse?_toString {v : Json} (plain : Plain v) : parse? v.toString = some v := by
  rw [parse?, toString, String.toList_ofList, ofChars?, tokens?_of_scans (scans_render plain),
    Option.bind_some, ofTokens?, reads_tokens plain [], Option.bind_some]
  rfl

/-! ## Values that are plain -/

/-- An object with these members is plain if their values are. -/
theorem plain_object {members : List (String × Json)} (plain : ∀ m ∈ members, Plain m.2) :
    Plain (object members) := by
  refine .obj (fun m there => ?_) fun m there => ?_
  · obtain ⟨n, _, rfl⟩ := List.mem_map.mp there
    exact ⟨n.1.toList, rfl⟩
  · obtain ⟨n, known, rfl⟩ := List.mem_map.mp there
    exact plain n known

end Netsieve.Json
