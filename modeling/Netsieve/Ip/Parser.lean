import Netsieve.Ip
import Netsieve.Text.Numeral
import Netsieve.Text.Split

/-!
# `Netsieve.Ip.Parser`: reading an IP address

The reader takes exactly the standard literals. An octet has one to three digits
and no zero in front; a group has one to four hexadecimal digits in either case;
the last two groups may be written as a dotted quad; and a double colon may stand
for one or more groups that are zero. Blanks, zones and signs are refused.

The text is cut at its double colon first and into pieces at single colons
afterwards. An empty piece is never a group, so a stray colon is refused wherever
it stands.
-/

set_option autoImplicit false

namespace Netsieve.Ip

/-- One octet of a dotted quad. -/
def octet? (cs : List Char) : Option UInt8 :=
  -- There are three digits at most, and a zero comes first only if it is alone.
  if 3 < cs.length ∨ (cs.head? = some '0' ∧ cs.length ≠ 1) then none
  else match Decimal.read? cs with
    | some n => if n ≤ 255 then some (UInt8.ofNat n) else none
    | none => none

/-- Four octets with dots between them. -/
def quad? (cs : List Char) : Option (UInt8 × UInt8 × UInt8 × UInt8) :=
  match (cs.splitOn '.').mapM octet? with
  | some [a, b, c, d] => some (a, b, c, d)
  | _ => none

/-- One group of up to four hexadecimal digits. -/
def group? (cs : List Char) : Option UInt16 :=
  if 4 < cs.length then none else (Hex.read? cs).map UInt16.ofNat

/-- The two groups that a dotted quad stands for. -/
def quadGroups : UInt8 × UInt8 × UInt8 × UInt8 → List UInt16
  | (a, b, c, d) =>
    [UInt16.ofNat (a.toNat * 256 + b.toNat), UInt16.ofNat (c.toNat * 256 + d.toNat)]

/-- The pieces between colons; an empty text has none. -/
def pieces (cs : List Char) : List (List Char) :=
  if cs.isEmpty then [] else cs.splitOn ':'

/-- Groups, the last of which may be a dotted quad that counts as two. -/
def tailGroups? : List (List Char) → Option (List UInt16)
  | [] => some []
  -- Only the last piece may be a dotted quad, and a group is tried first.
  | [last] =>
    match group? last with
    | some g => some [g]
    | none => (quad? last).map quadGroups
  | piece :: rest =>
    match group? piece, tailGroups? rest with
    | some g, some gs => some (g :: gs)
    | _, _ => none

/-- Eight groups, some of which a double colon may stand for. -/
def groups? (cs : List Char) : Option Groups :=
  match Split.atDouble? ':' cs with
  | none =>
    match tailGroups? (pieces cs) with
    | some gs => if h : gs.length = 8 then some ⟨gs, h⟩ else none
    | none => none
  | some (front, back) =>
    match (pieces front).mapM group?, tailGroups? (pieces back) with
    | some fs, some bs =>
      -- The double colon stands for one group of zeros at least.
      if h : fs.length + bs.length ≤ 7 then
        some ⟨fs ++ List.replicate (8 - (fs.length + bs.length)) 0 ++ bs, by simp; omega⟩
      else none
    | _, _ => none

/-- Reads an address of either kind. -/
def read? (cs : List Char) : Option Ip :=
  match quad? cs with
  | some (a, b, c, d) => some (.v4 a b c d)
  | none => (groups? cs).map .v6

end Netsieve.Ip
