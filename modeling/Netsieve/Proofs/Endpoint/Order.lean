import Mathlib.Data.List.Dedup
import Netsieve.Endpoint
import Netsieve.Proofs.Ascending

/-!
# `Netsieve.Proofs.Endpoint.Order`: endpoints in ascending order

An address is a number of 32 or 128 bits, whose digits are its octets or groups
(`Ip.value`). Comparing two rows of digits of one length from the front compares the
numbers they stand for (`compareLex_eq_compare_positional`), so addresses of one kind are
ordered by their numbers (`Ip.order_eq`). That makes the order of endpoints a total one,
in which only equal endpoints compare equal.

* `sorted_canonical`: so there is one ascending list of the members of any list of
  endpoints, and sorting gives it.
-/

set_option autoImplicit false

namespace Netsieve

/-- The number for which digits of a base stand, the most significant first. -/
def positional (base : Nat) (digits : List Nat) : Nat :=
  digits.foldl (fun total d => base * total + d) 0

section Positional

variable {base : Nat} {xs ys : List Nat}

/-- What is less in front stays less, whatever digits follow. -/
theorem foldl_lt_foldl {n m : Nat} (less : n < m) (length : xs.length = ys.length)
    (digits : ∀ d ∈ xs, d < base) :
    xs.foldl (fun total d => base * total + d) n
      < ys.foldl (fun total d => base * total + d) m := by
  induction xs generalizing ys n m with
  | nil =>
    obtain rfl : ys = [] := List.length_eq_zero_iff.mp length.symm
    exact less
  | cons x xs ih =>
    obtain ⟨y, ys, rfl⟩ := List.exists_cons_of_length_eq_add_one length.symm
    have digit : x < base := digits x List.mem_cons_self
    -- One more in front outweighs any digit behind it.
    have step : base * (n + 1) ≤ base * m := Nat.mul_le_mul_left base less
    have front : base * n + x < base * m + y := by
      rw [Nat.mul_succ] at step
      omega
    rw [List.foldl_cons, List.foldl_cons]
    exact ih front (by simpa using length) fun d there => digits d (List.mem_cons_of_mem x there)

/-- Digits are compared like the numbers they stand for. -/
theorem compareLex_eq_compare_positional (length : xs.length = ys.length)
    (digits : ∀ d ∈ xs, d < base) (digits' : ∀ d ∈ ys, d < base) :
    List.compareLex compare xs ys = compare (positional base xs) (positional base ys) := by
  unfold positional
  -- What stands in front of the digits that are left is the same on both sides.
  generalize 0 = front
  induction xs generalizing ys front with
  | nil =>
    obtain rfl : ys = [] := List.length_eq_zero_iff.mp length.symm
    exact (Nat.compare_eq_eq.mpr rfl).symm
  | cons x xs ih =>
    obtain ⟨y, ys, rfl⟩ := List.exists_cons_of_length_eq_add_one length.symm
    have rest : ∀ d ∈ xs, d < base := fun d there => digits d (List.mem_cons_of_mem x there)
    have rest' : ∀ d ∈ ys, d < base := fun d there => digits' d (List.mem_cons_of_mem y there)
    have lengths : xs.length = ys.length := by simpa using length
    rw [List.compareLex_cons_cons, List.foldl_cons, List.foldl_cons]
    rcases Nat.lt_trichotomy x y with less | rfl | greater
    · rw [Nat.compare_eq_lt.mpr less,
        Nat.compare_eq_lt.mpr (foldl_lt_foldl (by omega) lengths rest)]
      rfl
    · rw [Nat.compare_eq_eq.mpr rfl, ih lengths rest rest']
      rfl
    · rw [Nat.compare_eq_gt.mpr greater,
        Nat.compare_eq_gt.mpr (foldl_lt_foldl (by omega) lengths.symm rest')]
      rfl

end Positional

/-! ## Addresses -/

namespace Ip

/-- How many values an octet or a group can have. -/
def base : Ip → Nat
  | .v4 .. => 256
  | .v6 _ => 65536

/-- The number that an address is, of 32 bits or of 128. -/
def value (ip : Ip) : Nat :=
  positional ip.base ip.parts

/-- Octets and groups are digits of their base. -/
theorem parts_lt (ip : Ip) : ∀ d ∈ ip.parts, d < ip.base := by
  cases ip with
  | v4 a b c d =>
    intro n there
    simp only [parts, List.mem_cons, List.not_mem_nil, or_false] at there
    rcases there with rfl | rfl | rfl | rfl <;> exact UInt8.toNat_lt _
  | v6 groups =>
    intro n there
    obtain ⟨g, -, rfl⟩ := List.mem_map.mp there
    exact g.toNat_lt

/-- Addresses of one kind are written to one base. -/
theorem base_of_family {a b : Ip} (same : a.family = b.family) : a.base = b.base := by
  cases a <;> cases b <;> first | rfl | cases same

/-- Addresses of one kind have the same number of digits. -/
theorem length_parts_of_family {a b : Ip} (same : a.family = b.family) :
    a.parts.length = b.parts.length := by
  cases a with
  | v4 =>
    cases b with
    | v4 => rfl
    | v6 => cases same
  | v6 groups =>
    cases b with
    | v4 => cases same
    | v6 groups' => rw [parts, parts, List.length_map, List.length_map, groups.length_eq,
        groups'.length_eq]

/-- Addresses are ordered by their kind and then by their number. -/
theorem order_eq (a b : Ip) :
    a.order b = (compare a.family b.family).then (compare a.value b.value) := by
  by_cases same : a.family = b.family
  · have base := base_of_family same
    rw [order, value, value, ← base, compareLex_eq_compare_positional (length_parts_of_family same)
      a.parts_lt fun d there => base ▸ b.parts_lt d there]
  · have apart : compare a.family b.family ≠ .eq := fun h => same (Nat.compare_eq_eq.mp h)
    unfold order
    cases order : compare a.family b.family with
    | lt => rfl
    | gt => rfl
    | eq => exact absurd order apart

/-- An address is told by its kind and its parts. -/
theorem eq_of_parts {a b : Ip} (family : a.family = b.family) (parts : a.parts = b.parts) :
    a = b := by
  cases a with
  | v4 =>
    cases b with
    | v6 => cases family
    | v4 =>
      simp only [Ip.parts, List.cons.injEq, UInt8.toNat_inj, and_true] at parts
      obtain ⟨rfl, rfl, rfl, rfl⟩ := parts
      rfl
  | v6 groups =>
    cases b with
    | v4 => cases family
    | v6 groups' =>
      obtain ⟨gs, _⟩ := groups
      obtain ⟨gs', _⟩ := groups'
      have same : gs = gs' := List.map_injective_iff.mpr (fun _ _ => UInt16.toNat_inj.mp) parts
      subst same
      rfl

/-- Only an address compares equal to itself. -/
theorem eq_of_order {a b : Ip} (h : a.order b = .eq) : a = b := by
  obtain ⟨family, parts⟩ := Ordering.then_eq_eq.mp h
  exact eq_of_parts (Nat.compare_eq_eq.mp family) (Std.LawfulEqCmp.eq_of_compare parts)

end Ip

/-! ## Endpoints -/

namespace Endpoint

open Ascending (IsAscending)

/-- Endpoints are ordered by the kind of their address, by its number and by their port. -/
theorem order_eq_compareLex :
    order = compareLex (compareLex (compareOn fun e => e.ip.family) (compareOn fun e => e.ip.value))
      (compareOn fun e => e.port.toNat) := by
  funext a b
  rw [order, Ip.order_eq]
  rfl

instance : Std.TransCmp order := by
  rw [order_eq_compareLex]
  infer_instance

instance : Std.LawfulEqCmp order where
  eq_of_compare {a b} h := by
    obtain ⟨ip, port⟩ := Ordering.then_eq_eq.mp h
    have ip : a.ip = b.ip := Ip.eq_of_order ip
    have port : a.port = b.port := UInt16.toNat_inj.mp (Nat.compare_eq_eq.mp port)
    cases a; cases b; cases ip; cases port; rfl

/-- Endpoints have a total order, by numbers.

- `same`, `swap`: only equal endpoints compare equal, and of two others one is less;
- `trans`: the order is transitive;
- `kinds`: every short address is less than every long one;
- `numbers`: within one kind the number of the address counts, and then the port. -/
structure Ordered : Prop where
  same : ∀ a b, order a b = .eq ↔ a = b
  swap : ∀ a b, order b a = (order a b).swap
  trans : ∀ a b c, order a b ≠ .gt → order b c ≠ .gt → order a c ≠ .gt
  kinds : ∀ a b, a.ip.isV6 = false → b.ip.isV6 = true → order a b = .lt
  numbers : ∀ a b, a.ip.isV6 = b.ip.isV6 →
    order a b = (compare a.ip.value b.ip.value).then (compare a.port.toNat b.port.toNat)

/-- The order goes by the kind of the address, then its number, then the port. -/
theorem ordered : Ordered where
  same _ _ := Std.LawfulEqCmp.compare_eq_iff_eq
  swap _ _ := Std.OrientedCmp.eq_swap
  trans _ _ _ first second :=
    Ordering.isLE_iff_ne_gt.mp (Std.TransCmp.isLE_trans (Ordering.isLE_iff_ne_gt.mpr first)
      (Ordering.isLE_iff_ne_gt.mpr second))
  kinds a b short long := by
    obtain ⟨ip, port⟩ := a
    obtain ⟨ip', port'⟩ := b
    cases ip with
    | v6 => cases short
    | v4 =>
      cases ip' with
      | v4 => cases long
      | v6 => rfl
  numbers a b kind := by
    -- Within one kind the comparison of the kinds says nothing, and the rest is as stated.
    have family : compare a.ip.family b.ip.family = .eq := by
      obtain ⟨ip, port⟩ := a
      obtain ⟨ip', port'⟩ := b
      cases ip <;> cases ip' <;> first | rfl | cases kind
    rw [order, Ip.order_eq, family]
    rfl

/-- A list of endpoints has one ascending list of its members.

- `ascending`, `members`: that list is ascending, and its members are those of the list;
- `unique`: there is no other list like that;
- `perm`: it does not depend on the order of the list;
- `dedup`: however the list is sorted, it is what remains if repeats are left out. -/
structure Sorts (es : List Endpoint) : Prop where
  ascending : IsAscending order (sorted es)
  members : ∀ e, e ∈ sorted es ↔ e ∈ es
  unique : ∀ row : List Endpoint, IsAscending order row → (∀ e, e ∈ row ↔ e ∈ es) →
    row = sorted es
  perm : ∀ other : List Endpoint, other.Perm es → sorted other = sorted es
  dedup : ∀ row : List Endpoint, row.Perm es → row.Pairwise (fun a b => order a b ≠ .gt) →
    row.dedup = sorted es

/-- A list in which nothing descends is ascending if it has no repeats. -/
theorem ascending_of_nodup {row : List Endpoint} (sorted : row.Pairwise fun a b => order a b ≠ .gt)
    (nodup : row.Nodup) : IsAscending order row := by
  refine (sorted.and nodup).imp fun {a b} ⟨most, apart⟩ => ?_
  cases less : order a b with
  | lt => rfl
  | eq => exact absurd (Std.LawfulEqCmp.eq_of_compare less) apart
  | gt => exact absurd less most

/-- The order of endpoints is total and goes by numbers, so there is one way to list the
members of a list in ascending order, and sorting takes it. -/
theorem sorted_canonical (es : List Endpoint) : Ordered ∧ Sorts es := by
  have unique : ∀ row, IsAscending order row → (∀ e, e ∈ row ↔ e ∈ es) → row = sorted es := by
    intro row ascending members
    refine Ascending.eq_of_ascending ascending (Ascending.ascending_ofList es) fun e => ?_
    rw [members]
    exact (Ascending.mem_ofList es).symm
  refine ⟨ordered, Ascending.ascending_ofList es, fun _ => Ascending.mem_ofList es, unique,
    fun other perm => Ascending.ofList_congr fun _ => perm.mem_iff, fun row perm descends => ?_⟩
  refine unique row.dedup ?_ fun e => List.mem_dedup.trans perm.mem_iff
  exact ascending_of_nodup (descends.sublist row.dedup_sublist) row.nodup_dedup

/-- Nine comes before ten, the port counts last, and long addresses come after short ones. -/
example :
    sorted [⟨.v6 ⟨[0, 0, 0, 0, 0, 0, 0, 1], rfl⟩, 1⟩, ⟨.v4 10 0 0 0, 2⟩, ⟨.v4 9 255 0 0, 3⟩,
        ⟨.v4 10 0 0 0, 1⟩, ⟨.v4 10 0 0 0, 2⟩]
      = [⟨.v4 9 255 0 0, 3⟩, ⟨.v4 10 0 0 0, 1⟩, ⟨.v4 10 0 0 0, 2⟩,
        ⟨.v6 ⟨[0, 0, 0, 0, 0, 0, 0, 1], rfl⟩, 1⟩] :=
  rfl

end Endpoint

end Netsieve
