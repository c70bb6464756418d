import Netsieve.Json
import Netsieve.Text.Numeral

/-!
# `Netsieve.Json.Printer`: compact JSON text

A value is written without blanks, and its members in the order they have. Only
what has to be escaped in a string is.
-/

set_option autoImplicit false

namespace Netsieve.Json

/-- The escape that names a 16-bit unit. -/
def unitEscape (unit : Nat) : List Char :=
  ['\\', 'u'] ++ Hex.pair (UInt8.ofNat (unit / 256)) ++ Hex.pair (UInt8.ofNat (unit % 256))

/-- How one glyph is written. -/
def Glyph.render : Glyph → List Char
  | .char c =>
    if c = '"' ∨ c = '\\' then ['\\', c]
    else if c < ' ' then unitEscape c.toNat
    else [c]
  | .control c => [c]
  | .half unit => unitEscape unit.toNat

/-- A string with its quotes. -/
def renderString (content : List Glyph) : List Char :=
  '"' :: content.flatMap Glyph.render ++ ['"']

mutual

/-- The text of a value. -/
def render : Json → List Char
  | .null => ['n', 'u', 'l', 'l']
  | .bool true => ['t', 'r', 'u', 'e']
  | .bool false => ['f', 'a', 'l', 's', 'e']
  | .num literal => literal
  | .str content => renderString content
  | .arr [] => ['[', ']']
  | .arr (v :: vs) => '[' :: render v ++ renderItems vs ++ [']']
  | .obj [] => ['{', '}']
  | .obj ((name, v) :: ms) =>
    '{' :: renderString name ++ ':' :: render v ++ renderMembers ms ++ ['}']

/-- Further items of an array, each behind a comma. -/
def renderItems : List Json → List Char
  | [] => []
  | v :: vs => ',' :: render v ++ renderItems vs

/-- Further members of an object, each behind a comma. -/
def renderMembers : List (List Glyph × Json) → List Char
  | [] => []
  | (name, v) :: ms => ',' :: renderString name ++ ':' :: render v ++ renderMembers ms

end

/-- The text of a value as a string. -/
def toString (v : Json) : String :=
  String.ofList v.render

end Netsieve.Json
