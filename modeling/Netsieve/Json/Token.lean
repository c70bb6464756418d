import Netsieve.Json
import Netsieve.Text.Numeral

/-!
# `Netsieve.Json.Token`: the tokens of a JSON text

Reading goes through the text one character at a time (`Scan.step`), so that the
tokens of a text followed by another are found by going on from where the first
one ended. What has been seen of an unfinished token is the `Mode`.

The three words and the numbers are told apart only when a word ends: a maximal
run of letters, digits, signs and points is one word, and it is refused unless it
is one of the words or a number literal. No two values can therefore run together.
-/

set_option autoImplicit false

namespace Netsieve.Json

/-- A token. -/
inductive Token where
  | openArray
  | closeArray
  | openObject
  | closeObject
  | comma
  | colon
  | text (content : List Glyph)
  /-- A word or number, as the value it stands for. -/
  | scalar (value : Json)

/-- Blank characters between tokens. -/
def isBlank (c : Char) : Bool :=
  c == ' ' || c == '\n' || c == '\t' || c == '\r'

/-- Characters of words and numbers. -/
def isWordChar (c : Char) : Bool :=
  c.isAlphanum || c == '+' || c == '-' || c == '.'

/-- An exponent with at least one digit, or nothing. -/
def isExponent : List Char → Bool
  | [] => true
  | e :: rest =>
    (e == 'e' || e == 'E') &&
      (let digits := match rest with
        | '+' :: ds => ds
        | '-' :: ds => ds
        | ds => ds
       !digits.isEmpty && digits.all Char.isDigit)

/-- A fraction with at least one digit, if there is one, and then an exponent. -/
def isFractionAndExponent : List Char → Bool
  | '.' :: rest =>
    (rest.head?.map Char.isDigit).getD false && isExponent (rest.dropWhile Char.isDigit)
  | rest => isExponent rest

/-- A whole part without zeros in front, and what may follow it. -/
def isUnsigned : List Char → Bool
  | '0' :: rest => isFractionAndExponent rest
  | c :: rest => c.isDigit && isFractionAndExponent (rest.dropWhile Char.isDigit)
  | [] => false

/-- The number literals. -/
def isNumber : List Char → Bool
  | '-' :: rest => isUnsigned rest
  | cs => isUnsigned cs

/-- The value a word stands for. -/
def word? (cs : List Char) : Option Json :=
  if cs = ['n', 'u', 'l', 'l'] then some .null
  else if cs = ['t', 'r', 'u', 'e'] then some (.bool true)
  else if cs = ['f', 'a', 'l', 's', 'e'] then some (.bool false)
  else if isNumber cs then some (.num cs)
  else none

/-- The token that a character is by itself. -/
def punctuation? (c : Char) : Option Token :=
  if c = '[' then some .openArray
  else if c = ']' then some .closeArray
  else if c = '{' then some .openObject
  else if c = '}' then some .closeObject
  else if c = ',' then some .comma
  else if c = ':' then some .colon
  else none

/-- The character that an escape of one letter stands for. -/
def escaped? (c : Char) : Option Char :=
  if c = '"' then some '"'
  else if c = '\\' then some '\\'
  else if c = '/' then some '/'
  else if c = 'b' then some '\x08'
  else if c = 'f' then some '\x0c'
  else if c = 'n' then some '\n'
  else if c = 'r' then some '\r'
  else if c = 't' then some '\t'
  else none

/-- Whether a unit opens a surrogate pair. -/
def opensPair (unit : Nat) : Bool := 0xd800 ≤ unit && unit ≤ 0xdbff

/-- Whether a unit closes a surrogate pair. -/
def closesPair (unit : Nat) : Bool := 0xdc00 ≤ unit && unit ≤ 0xdfff

/-- The glyph of a unit that stands alone. -/
def loneUnit (unit : Nat) : Glyph :=
  if opensPair unit || closesPair unit then .half (UInt16.ofNat unit)
  else .char (Char.ofNat unit)

/-- Adds an escaped unit to a content whose last glyph comes first. A unit that
closes a pair joins the half in front of it. -/
def addUnit (content : List Glyph) (unit : Nat) : List Glyph :=
  match content with
  | .half first :: rest =>
    -- Two halves make a character beyond the first plane.
    if opensPair first.toNat && closesPair unit then
      .char (Char.ofNat (0x10000 + (first.toNat - 0xd800) * 1024 + (unit - 0xdc00))) :: rest
    else loneUnit unit :: content
  | _ => loneUnit unit :: content

/-- The token that is being read. What has been seen of it is kept backwards. -/
inductive Mode where
  | blank
  /-- A word or number. -/
  | word (seen : List Char)
  | text (content : List Glyph)
  /-- A string, behind a backslash. -/
  | escape (content : List Glyph)
  /-- A string, inside an escape that names a unit. -/
  | unit (content : List Glyph) (digits : List Nat)

/-- How far the reading has come. The finished tokens are kept backwards. -/
structure Scan where
  mode : Mode
  tokens : List Token

namespace Scan

/-- Reads a character that starts a token or stands between two. -/
def start (tokens : List Token) (c : Char) : Option Scan :=
  if isBlank c then some ⟨.blank, tokens⟩
  else if c = '"' then some ⟨.text [], tokens⟩
  else if isWordChar c then some ⟨.word [c], tokens⟩
  else (punctuation? c).map fun token => ⟨.blank, token :: tokens⟩

/-- Ends a word. -/
def endWord (seen : List Char) (tokens : List Token) : Option (List Token) :=
  (word? seen.reverse).map fun value => .scalar value :: tokens

/-- Reads one character. -/
def step (s : Scan) (c : Char) : Option Scan :=
  match s.mode with
  | .blank => start s.tokens c
  | .word seen =>
    if isWordChar c then some ⟨.word (c :: seen), s.tokens⟩
    -- A word has no end of its own. The character behind it is read once more.
    else (endWord seen s.tokens).bind (start · c)
  | .text content =>
    if c = '"' then some ⟨.blank, .text content.reverse :: s.tokens⟩
    else if c = '\\' then some ⟨.escape content, s.tokens⟩
    else if c < ' ' then some ⟨.text (.control c :: content), s.tokens⟩
    else some ⟨.text (.char c :: content), s.tokens⟩
  | .escape content =>
    if c = 'u' then some ⟨.unit content [], s.tokens⟩
    else (escaped? c).map fun e => ⟨.text (.char e :: content), s.tokens⟩
  | .unit content digits =>
    (Hex.digit? c).map fun d =>
      -- The fourth digit completes the unit.
      if digits.length < 3 then ⟨.unit content (d :: digits), s.tokens⟩
      else ⟨.text (addUnit content (Hex.value (d :: digits).reverse)), s.tokens⟩

/-- Ends the text. -/
def finish (s : Scan) : Option (List Token) :=
  match s.mode with
  | .blank => some s.tokens.reverse
  | .word seen => (endWord seen s.tokens).map List.reverse
  | _ => none

end Scan

/-- The tokens of a text. -/
def tokens? (cs : List Char) : Option (List Token) :=
  (cs.foldlM Scan.step ⟨.blank, []⟩).bind Scan.finish

end Netsieve.Json
