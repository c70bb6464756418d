/-!
# `Netsieve.Json`: JSON values

A value keeps what a decoder may ask about and nothing else. Numbers stay the
literals they were, because whether `1.0` is an integer is for the decoder to
say. Objects keep their members in order and with repeats, because a repeated
member is an error for one decoder and noise for another.

The content of a string is a list of `Glyph`s. Most are characters. Two other
kinds can stand in a text that is not well-formed everywhere: half of a surrogate
pair, written by an escape, and a control character that was not escaped. A
decoder that wants text refuses both (`text?`), while one that wants bytes has a
use for either (`Glyph.bytes`).
-/

set_option autoImplicit false

namespace Netsieve

/-- One element of a string's content. -/
inductive Json.Glyph where
  /-- A character, written plainly or by an escape. -/
  | char (c : Char)
  /-- A control character that was written without an escape. -/
  | control (c : Char)
  /-- Half of a surrogate pair whose other half is missing. -/
  | half (unit : UInt16)
  deriving DecidableEq

/-- A JSON value. -/
inductive Json where
  | null
  | bool (b : Bool)
  /-- A number, as its literal. -/
  | num (literal : List Char)
  /-- A string, as its content. -/
  | str (content : List Json.Glyph)
  | arr (items : List Json)
  /-- An object, as its members in order. -/
  | obj (members : List (List Json.Glyph × Json))

namespace Json

/-- The content of a string that holds exactly these characters. -/
def glyphs (cs : List Char) : List Glyph :=
  cs.map .char

/-- A string value. -/
def ofText (cs : List Char) : Json :=
  .str (glyphs cs)

/-- An object whose members have these names. -/
def object (members : List (String × Json)) : Json :=
  .obj (members.map fun m => (glyphs m.1.toList, m.2))

/-- The character of a glyph that is one. -/
def Glyph.char? : Glyph → Option Char
  | .char c => some c
  | .control _ => none
  | .half _ => none

/-- The characters of a content that has nothing else. -/
def proper? (content : List Glyph) : Option (List Char) :=
  content.mapM Glyph.char?

/-- The bytes of a glyph: a character in UTF-8, and half a surrogate pair in the
three bytes that the same scheme gives to its number. -/
def Glyph.bytes : Glyph → List UInt8
  | .char c => String.utf8EncodeChar c
  | .control c => String.utf8EncodeChar c
  | .half unit =>
    [UInt8.ofNat (0xe0 + unit.toNat / 4096), UInt8.ofNat (0x80 + unit.toNat / 64 % 64),
      UInt8.ofNat (0x80 + unit.toNat % 64)]

/-- Whether a glyph may stand in a string that nobody reads. -/
def Glyph.isStrict : Glyph → Bool
  | .control _ => false
  | _ => true

mutual

/-- Whether no string inside a value has a control character that is not escaped.
A value that is skipped has to be strict, and so is every value that is read,
unless it is read as bytes. -/
def isStrict : Json → Bool
  | .str content => content.all Glyph.isStrict
  | .arr items => allStrict items
  | .obj members => membersStrict members
  | _ => true

/-- Whether every item of an array is strict. -/
def allStrict : List Json → Bool
  | [] => true
  | v :: vs => isStrict v && allStrict vs

/-- Whether every member of an object is strict, its name included. -/
def membersStrict : List (List Glyph × Json) → Bool
  | [] => true
  | (name, v) :: ms => name.all Glyph.isStrict && isStrict v && membersStrict ms

end

end Json

end Netsieve
