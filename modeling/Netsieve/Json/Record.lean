import Netsieve.Json
import Netsieve.Text.Numeral

/-!
# `Netsieve.Json.Record`: records, variants and numbers inside JSON

A record with known fields is written as an object or as an array. In an object
the fields stand in any order, each at most once, and members with other names
are passed over; in an array all fields stand in their order. Either way the
record is reduced to one optional value per known field (`record?`), so that a
decoder has one case and cannot depend on anything else.

A variant is written as its name, or as an object with its name as the only
member (`tagged?`).
-/

set_option autoImplicit false

namespace Netsieve.Json

/-- The characters of a string. -/
def text? : Json → Option (List Char)
  | .str content => proper? content
  | _ => none

/-- A natural number below `limit`, written with digits only. -/
def nat? (limit : Nat) : Json → Option Nat
  | .num literal =>
    match Decimal.read? literal with
    | some n => if n < limit then some n else none
    | none => none
  | _ => none

/-- A byte. -/
def uint8? (v : Json) : Option UInt8 := (v.nat? 256).map UInt8.ofNat

/-- A 16-bit number. -/
def uint16? (v : Json) : Option UInt16 := (v.nat? 65536).map UInt16.ofNat

/-- A 32-bit number. -/
def uint32? (v : Json) : Option UInt32 := (v.nat? 4294967296).map UInt32.ofNat

/-- A 64-bit number. -/
def uint64? (v : Json) : Option UInt64 := (v.nat? 18446744073709551616).map UInt64.ofNat

/-- A truth value. -/
def bool? : Json → Option Bool
  | .bool b => some b
  | _ => none

/-- The items of an array, each read by `read?`. -/
def list? {α : Type} (read? : Json → Option α) : Json → Option (List α)
  | .arr items => items.mapM read?
  | _ => none

/-- Bytes: an array of them, or a string that is taken as its bytes. -/
def bytes? : Json → Option (List UInt8)
  | .arr items => items.mapM uint8?
  | .str content => some (content.flatMap Glyph.bytes)
  | _ => none

/-- The values of the members with this name, in order. -/
def occurrences (name : List Char) (members : List (List Char × Json)) : List Json :=
  (members.filter (·.1 = name)).map (·.2)

/-- The value of a member that occurs at most once. -/
def single? : List Json → Option (Option Json)
  | [] => some none
  | [v] => some (some v)
  | _ => none

/-- The members of an object with their names as text. -/
def named? (members : List (List Glyph × Json)) : Option (List (List Char × Json)) :=
  members.mapM fun m => (proper? m.1).map fun name => (name, m.2)

/-- One optional value for each known field of a record. A member with another
name has to satisfy `passable`. -/
def fields? (passable : Json → Bool) (names : List (List Char)) : Json →
    Option (List (Option Json))
  -- An array gives all fields in their order, and none may be missing.
  | .arr items => if items.length = names.length then some (items.map some) else none
  | .obj members =>
    match named? members with
    | some members =>
      if members.all fun m => names.contains m.1 || passable m.2 then
        -- A name that occurs twice is refused, but only if it is the name of a field.
        names.mapM fun name => single? (occurrences name members)
      else none
    | none => none
  | _ => none

/-- The fields of a record; members with other names are passed over. -/
def record? (names : List (List Char)) (v : Json) : Option (List (Option Json)) :=
  v.fields? isStrict names

/-- The fields of a record that may have no other members. -/
def closedRecord? (names : List (List Char)) (v : Json) : Option (List (Option Json)) :=
  v.fields? (fun _ => false) names

/-- A field that has to be there. -/
def required? {α : Type} (read? : Json → Option α) : Option Json → Option α
  | none => none
  | some v => read? v

/-- A field that may be missing or null. -/
def optional? {α : Type} (read? : Json → Option α) : Option Json → Option (Option α)
  | none => some none
  | some .null => some none
  | some v => (read? v).map some

/-- The value of an optional field. -/
def ofOption {α : Type} (write : α → Json) : Option α → Json
  | none => .null
  | some a => write a

/-- A number. -/
def ofNat (n : Nat) : Json := .num (Decimal.digits n)

/-- The name of a variant and what it carries, if it is written with something. -/
def tagged? : Json → Option (List Char × Option Json)
  | .str content => (proper? content).map fun name => (name, none)
  | .obj [(name, v)] => (proper? name).map fun name => (name, some v)
  | _ => none

/-- Whether a variant that carries nothing is written as one. -/
def carriesNothing : Option Json → Bool
  | none => true
  | some .null => true
  | some _ => false

end Netsieve.Json
