import Netsieve.Text.Numeral

/-!
# `Netsieve.Ip`: IP addresses

An address is four octets or eight groups of sixteen bits. `parts` reads both
kinds as a list of numbers, most significant first, so that comparing two
addresses of one kind by `parts` compares their 32-bit or 128-bit values. Across
kinds the shorter addresses come first.

The text of a short address is four numbers with dots. A long one is eight
hexadecimal groups with colons, in which the longest run of two or more zero groups,
the first of them on a tie, is left out and marked by a double colon. A long address
that only embeds a short one keeps the dots for its last part.
-/

set_option autoImplicit false

namespace Netsieve

/-- The eight groups of a long address. -/
structure Groups where
  /-- The groups, most significant first. -/
  toList : List UInt16
  /-- There are eight of them. -/
  length_eq : toList.length = 8 := by rfl
  deriving DecidableEq

/-- An IP address of either kind. -/
inductive Ip where
  | v4 (a b c d : UInt8)
  | v6 (groups : Groups)
  deriving DecidableEq

namespace Ip

/-- Whether the address has eight groups. -/
def isV6 : Ip → Bool
  | .v4 .. => false
  | .v6 _ => true

/-- The kinds in their order. -/
def family : Ip → Nat
  | .v4 .. => 0
  | .v6 _ => 1

/-- The octets or groups as numbers, most significant first. -/
def parts : Ip → List Nat
  | .v4 a b c d => [a.toNat, b.toNat, c.toNat, d.toNat]
  | .v6 groups => groups.toList.map UInt16.toNat

/-- Orders addresses by kind and then by value. -/
def order (a b : Ip) : Ordering :=
  (compare a.family b.family).then (List.compareLex compare a.parts b.parts)

/-! ## The text of an address -/

/-- Four numbers with dots between them. -/
def dotted (a b c d : UInt8) : List Char :=
  ['.'].intercalate
    [Decimal.digits a.toNat, Decimal.digits b.toNat, Decimal.digits c.toNat, Decimal.digits d.toNat]

/-- Groups with a colon between them. -/
def colonSeparated (groups : List UInt16) : List Char :=
  [':'].intercalate (groups.map fun g => Hex.digits g.toNat)

/-- How many zero groups a list starts with. -/
def leadingZeros (groups : List UInt16) : Nat :=
  (groups.takeWhile (· == 0)).length

/-- Where the longest run of zero groups starts and how long it is; the first one
on a tie. -/
def longestZeroRun (groups : List UInt16) : Nat × Nat :=
  (List.range groups.length).foldl (fun best start =>
    let run := leadingZeros (groups.drop start)
    -- A later run has to be longer, so that the first one wins on a tie.
    if best.2 < run then (start, run) else best) (0, 0)

/-- The groups with their longest run of zeros left out, if it has at least two. -/
def compressed (groups : List UInt16) : List Char :=
  let run := longestZeroRun groups
  if 2 ≤ run.2 then
    colonSeparated (groups.take run.1) ++ [':', ':']
      ++ colonSeparated (groups.drop (run.1 + run.2))
  else colonSeparated groups

/-- The high half of a group. -/
def highOctet (g : UInt16) : UInt8 := UInt8.ofNat (g.toNat / 256)

/-- The low half of a group. -/
def lowOctet (g : UInt16) : UInt8 := UInt8.ofNat (g.toNat % 256)

/-- The text of the groups: an embedded short address keeps its dots. -/
def groupsText : List UInt16 → List Char
  | [0, 0, 0, 0, 0, 0xffff, g, h] =>
    [':', ':', 'f', 'f', 'f', 'f', ':']
      ++ dotted (highOctet g) (lowOctet g) (highOctet h) (lowOctet h)
  | groups => compressed groups

/-- The text of an address. -/
def text : Ip → List Char
  | .v4 a b c d => dotted a b c d
  | .v6 groups => groupsText groups.toList

end Ip

end Netsieve
