import Netsieve.Text.Numeral

/-!
# `Netsieve.Text.Inspect`: the diagnostic layout of values

Every type of the library has a text for people who debug a scripted network. The
layout is the same everywhere: a record shows its name and its fields between
braces, a wrapped value stands in parentheses behind the name of what wraps it,
and lists and sets are separated by a comma and a blank. This module holds the
layout, and each type's `inspect` says which names and fields it shows.

A payload is shown as `b"..."`. Printable ASCII stands for itself; the quote, the
backslash, newline, carriage return, tab and zero have an escape of one letter;
every other byte is `\x` and two digits. A backslash never stands for itself, so
the literal can be read back byte by byte.
-/

set_option autoImplicit false

namespace Netsieve

namespace Inspect

/-- The items with a comma and a blank between them. -/
def separated (items : List (List Char)) : List Char :=
  [',', ' '].intercalate items

/-- One field of a record. -/
def field (name : String) (value : List Char) : List Char :=
  name.toList ++ [':', ' '] ++ value

/-- A record with all its fields. -/
def record (name : String) (fields : List (String × List Char)) : List Char :=
  name.toList ++ [' ', '{', ' '] ++ separated (fields.map fun f => field f.1 f.2) ++ [' ', '}']

/-- A record that has more fields than it shows. -/
def openRecord (name : String) (fields : List (String × List Char)) : List Char :=
  name.toList ++ [' ', '{', ' '] ++ separated (fields.map fun f => field f.1 f.2)
    ++ [',', ' ', '.', '.', ' ', '}']

/-- One value inside a named wrapper. -/
def wrapped (name : String) (value : List Char) : List Char :=
  name.toList ++ ['('] ++ value ++ [')']

/-- A list in brackets. -/
def list (items : List (List Char)) : List Char :=
  ['['] ++ separated items ++ [']']

/-- A set in braces. -/
def set (items : List (List Char)) : List Char :=
  ['{'] ++ separated items ++ ['}']

/-- A value that may be absent. -/
def option {α : Type} (inspect : α → List Char) : Option α → List Char
  | none => "None".toList
  | some a => wrapped "Some" (inspect a)

/-- A truth value. -/
def bool (b : Bool) : List Char :=
  if b then "true".toList else "false".toList

/-- A number. -/
def nat (n : Nat) : List Char :=
  Decimal.digits n

end Inspect

/-! ## Payloads -/

namespace ByteLiteral

/-- How one byte is written inside the literal. -/
def escape (byte : UInt8) : List Char :=
  if byte = 0x0a then ['\\', 'n']
  else if byte = 0x0d then ['\\', 'r']
  else if byte = 0x09 then ['\\', 't']
  else if byte = 0x5c then ['\\', '\\']
  else if byte = 0x22 then ['\\', '"']
  else if byte = 0x00 then ['\\', '0']
  else if 0x20 ≤ byte ∧ byte < 0x7f then [Char.ofNat byte.toNat]
  else ['\\', 'x'] ++ Hex.pair byte

/-- The quoted literal of a payload. -/
def inspect (bytes : List UInt8) : List Char :=
  ['b', '"'] ++ bytes.flatMap escape ++ ['"']

end ByteLiteral

end Netsieve
