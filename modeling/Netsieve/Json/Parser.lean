import Netsieve.Json.Token

/-!
# `Netsieve.Json.Parser`: from tokens to a value

The reader takes one token after another and keeps the containers that are still
open on a stack. Nesting is therefore limited by nothing, and reading the tokens
of a value in front of others leaves the stack as it was and the value in focus.

There is one value, with blanks around it, and nothing behind it.
-/

set_option autoImplicit false

namespace Netsieve.Json

/-- A container that is not closed yet. What it holds so far is kept backwards. -/
inductive Frame where
  | array (items : List Json)
  /-- An object, between two members. -/
  | object (members : List (List Glyph × Json))
  /-- An object, behind the name of a member. -/
  | member (members : List (List Glyph × Json)) (name : List Glyph)

/-- What may come next. -/
inductive Focus where
  | value
  /-- The first item of an array, or its end. -/
  | itemOrEnd
  /-- The name of a member. -/
  | name
  /-- The name of the first member of an object, or its end. -/
  | nameOrEnd
  /-- The colon behind a name. -/
  | colon
  /-- What continues or closes the container of this finished value. -/
  | after (value : Json)

/-- How far the reading has come. -/
structure Reader where
  /-- The open containers, innermost first. -/
  stack : List Frame
  /-- What may come next. -/
  focus : Focus

namespace Reader

/-- Reads a token that starts a value. -/
def start (stack : List Frame) : Token → Option Reader
  | .scalar value => some ⟨stack, .after value⟩
  | .text content => some ⟨stack, .after (.str content)⟩
  | .openArray => some ⟨.array [] :: stack, .itemOrEnd⟩
  | .openObject => some ⟨.object [] :: stack, .nameOrEnd⟩
  | _ => none

/-- Reads the name of a member. -/
def name (stack : List Frame) (token : Token) : Option Reader :=
  match stack, token with
  | .object members :: stack, .text content => some ⟨.member members content :: stack, .colon⟩
  | _, _ => none

/-- Reads the token behind a finished value. -/
def continue? (stack : List Frame) (value : Json) (token : Token) : Option Reader :=
  match stack, token with
  | .array items :: stack, .comma => some ⟨.array (value :: items) :: stack, .value⟩
  | .array items :: stack, .closeArray => some ⟨stack, .after (.arr (value :: items).reverse)⟩
  | .member members name :: stack, .comma =>
    some ⟨.object ((name, value) :: members) :: stack, .name⟩
  | .member members name :: stack, .closeObject =>
    some ⟨stack, .after (.obj ((name, value) :: members).reverse)⟩
  | _, _ => none

/-- Reads one token. -/
def step (r : Reader) (token : Token) : Option Reader :=
  match r.focus with
  | .value => start r.stack token
  | .itemOrEnd =>
    match r.stack, token with
    -- Only an array without items may be closed here, so that no comma comes last.
    | .array [] :: stack, .closeArray => some ⟨stack, .after (.arr [])⟩
    | stack, token => start stack token
  | .name => name r.stack token
  | .nameOrEnd =>
    match r.stack, token with
    -- The same holds of objects.
    | .object [] :: stack, .closeObject => some ⟨stack, .after (.obj [])⟩
    | stack, token => name stack token
  | .colon =>
    match token with
    | .colon => some ⟨r.stack, .value⟩
    | _ => none
  | .after value => continue? r.stack value token

/-- The value that has been read, if it is complete. -/
def finish (r : Reader) : Option Json :=
  match r.stack, r.focus with
  | [], .after value => some value
  | _, _ => none

end Reader

/-- The value that a list of tokens stands for. -/
def ofTokens? (tokens : List Token) : Option Json :=
  (tokens.foldlM Reader.step ⟨[], .value⟩).bind Reader.finish

/-- The value that a text stands for. -/
def ofChars? (cs : List Char) : Option Json :=
  (tokens? cs).bind ofTokens?

/-- Reads a text. -/
def parse? (s : String) : Option Json :=
  ofChars? s.toList

end Netsieve.Json
