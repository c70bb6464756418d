import Netsieve.Ip
import Netsieve.Proofs.Ip.Grammar

/-!
# `Netsieve.Proofs.Ip.Printed`: the printed text of an address

A long address has many literals and one printed text. `Printed gs cs` says which one it
is for the groups `gs`, in terms of the runs of zeros among them: the longest one is left
out, the first of them on a tie, if it has two zeros at least; and an embedded short
address keeps its dots.

* `printed_groupsText`: the printer prints this text.
* `isLong_of_printed`, `isLiteral_text`: what is printed is a literal of what is printed.
-/

set_option autoImplicit false

namespace Netsieve.Ip

/-! ## Runs of zeros -/

/-- So many zeros stand in a row behind some groups and before others. -/
def ZeroRun (gs front : List UInt16) (n : Nat) (back : List UInt16) : Prop :=
  gs = front ++ List.replicate n 0 ++ back

/-- The printed text of eight groups.

- `mapped`: the last two groups are a short address;
- `compressed`: the longest run of zeros is left out;
- `plain`: there are no two zeros in a row. -/
inductive Printed : List UInt16 → List Char → Prop where
  | mapped {g h : UInt16} {a b c d : UInt8} (high : g.toNat = a.toNat * 256 + b.toNat)
      (low : h.toNat = c.toNat * 256 + d.toNat) :
      Printed [0, 0, 0, 0, 0, 0xffff, g, h] ("::ffff:".toList ++ dotted a b c d)
  | compressed {gs front back : List UInt16} {n : Nat}
      (whole : ∀ g h, gs ≠ [0, 0, 0, 0, 0, 0xffff, g, h])
      (run : ZeroRun gs front n back) (two : 2 ≤ n)
      (longest : ∀ front' m back', ZeroRun gs front' m back' → m ≤ n)
      (first : ∀ front' back', ZeroRun gs front' n back' → front.length ≤ front'.length) :
      Printed gs (colonSeparated front ++ [':', ':'] ++ colonSeparated back)
  | plain {gs : List UInt16} (none : ∀ front n back, ZeroRun gs front n back → n ≤ 1) :
      Printed gs (colonSeparated gs)

/-- So many zeros are leading if the list starts with as many. -/
theorem le_leadingZeros_iff {gs : List UInt16} {n : Nat} :
    n ≤ leadingZeros gs ↔ ∃ back, gs = List.replicate n 0 ++ back := by
  induction n generalizing gs with
  | zero => simp
  | succ n ih =>
    cases gs with
    | nil => simp [leadingZeros, List.replicate_succ]
    | cons g gs =>
      -- The run goes on only behind a zero.
      by_cases zero : g = 0
      · subst zero
        have step : leadingZeros (0 :: gs) = leadingZeros gs + 1 := by simp [leadingZeros]
        rw [step, Nat.add_le_add_iff_right, ih]
        simp [List.replicate_succ]
      · have none : leadingZeros (g :: gs) = 0 := by simp [leadingZeros, zero]
        rw [none]
        simp [List.replicate_succ, zero]

/-- A run is no longer than the zeros that lead where it starts. -/
theorem ZeroRun.le {gs front back : List UInt16} {n : Nat} (h : ZeroRun gs front n back) :
    n ≤ leadingZeros (gs.drop front.length) := by
  refine le_leadingZeros_iff.mpr ⟨back, ?_⟩
  rw [h, List.append_assoc, List.drop_left]

/-- A run with zeros starts inside the groups. -/
theorem ZeroRun.lt {gs front back : List UInt16} {n : Nat} (h : ZeroRun gs front n back)
    (positive : 0 < n) : front.length < gs.length := by
  rw [h]
  simp only [List.length_append, List.length_replicate]
  omega

/-- There is a run wherever zeros lead. -/
theorem zeroRun_of_le {gs : List UInt16} {start n : Nat}
    (h : n ≤ leadingZeros (gs.drop start)) :
    ZeroRun gs (gs.take start) n (gs.drop (start + n)) := by
  obtain ⟨back, same⟩ := le_leadingZeros_iff.mp h
  have behind : gs.drop (start + n) = back := by
    rw [← List.drop_drop, same, List.drop_left' List.length_replicate]
  rw [behind]
  unfold ZeroRun
  rw [List.append_assoc, ← same, List.take_append_drop]

/-- The best of the starts that were looked at: the run there is as long as it says, no
run is longer, and all runs before it are shorter. -/
structure Best (length : Nat → Nat) (seen : Nat) (best : Nat × Nat) : Prop where
  reached : best.2 ≤ length best.1
  longest : ∀ start < seen, length start ≤ best.2
  first : ∀ start < best.1, length start < best.2

/-- The fold keeps the best of the starts that it has looked at. -/
theorem best_foldl (length : Nat → Nat) (seen : Nat) :
    Best length seen ((List.range seen).foldl (fun best start =>
      if best.2 < length start then (start, length start) else best) (0, 0)) := by
  induction seen with
  | zero => exact ⟨Nat.zero_le _, by simp, by simp⟩
  | succ seen ih =>
    rw [List.range_succ, List.foldl_append, List.foldl_cons, List.foldl_nil]
    generalize (List.range seen).foldl _ (0, 0) = best at ih ⊢
    obtain ⟨reached, longest, first⟩ := ih
    -- A later start wins only if its run is longer, so the first of the longest is kept.
    split
    · next longer =>
      refine ⟨Nat.le_refl _, fun start before => ?_, fun start before => ?_⟩
      · rcases Nat.lt_succ_iff_lt_or_eq.mp before with before | rfl
        · exact Nat.le_of_lt (Nat.lt_of_le_of_lt (longest start before) longer)
        · exact Nat.le_refl _
      · exact Nat.lt_of_le_of_lt (longest start before) longer
    · next other =>
      refine ⟨reached, fun start before => ?_, first⟩
      rcases Nat.lt_succ_iff_lt_or_eq.mp before with before | rfl
      · exact longest start before
      · exact Nat.le_of_not_lt other

/-- The run that is found is the best of all. -/
theorem best_longestZeroRun (gs : List UInt16) :
    Best (fun start => leadingZeros (gs.drop start)) gs.length (longestZeroRun gs) :=
  best_foldl (fun start => leadingZeros (gs.drop start)) gs.length

/-- No run of zeros is longer than the one that is found. -/
theorem ZeroRun.le_longest {gs front back : List UInt16} {n : Nat}
    (h : ZeroRun gs front n back) : n ≤ (longestZeroRun gs).2 := by
  rcases Nat.eq_zero_or_pos n with rfl | positive
  · exact Nat.zero_le _
  · exact Nat.le_trans h.le ((best_longestZeroRun gs).longest front.length (h.lt positive))

/-! ## What is printed -/

/-- The printer leaves out the longest run of zeros, if it is long enough. -/
theorem printed_compressed {gs : List UInt16}
    (whole : ∀ g h, gs ≠ [0, 0, 0, 0, 0, 0xffff, g, h]) : Printed gs (compressed gs) := by
  have best := best_longestZeroRun gs
  unfold compressed
  dsimp only
  split
  · next two =>
    refine .compressed whole (zeroRun_of_le best.reached) two (fun _ _ _ run => run.le_longest) ?_
    intro front' back' run
    rw [List.length_take]
    -- An earlier run would be shorter than the best one.
    by_contra earlier
    have before : front'.length < (longestZeroRun gs).1 := by omega
    have shorter := best.first front'.length before
    have := run.le
    omega
  · next short =>
    refine .plain fun front n back run => ?_
    have := run.le_longest
    omega

/-- The text of eight groups is the one that the rules for printing ask for. -/
theorem printed_groupsText (gs : List UInt16) : Printed gs (groupsText gs) := by
  unfold groupsText
  split
  · next g h =>
    have octets : ∀ g : UInt16,
        g.toNat = (highOctet g).toNat * 256 + (lowOctet g).toNat := by
      intro g
      have := g.toNat_lt
      unfold highOctet lowOctet
      rw [UInt8.toNat_ofNat', UInt8.toNat_ofNat']
      omega
    exact .mapped (octets g) (octets h)
  · next other => exact printed_compressed other

/-! ## What is printed is a literal -/

/-- The digits of an octet are a literal of it. -/
theorem isOctet_digits (b : UInt8) : IsOctet (Decimal.digits b.toNat) b := by
  have small := b.toNat_lt
  refine ⟨numeral_toDigits (by decide) (by decide) b.toNat, ?_, fun zero => ?_⟩
  · exact (Nat.length_toDigits_le_iff (by decide) (by decide)).mpr (by omega)
  · have nothing : b.toNat = 0 := by
      by_contra some_value
      exact head?_toDigits (by decide) (by decide) (Nat.pos_of_ne_zero some_value) zero
    rw [nothing]
    rfl

/-- Four printed octets are a literal of them. -/
theorem isQuad_dotted (a b c d : UInt8) : IsQuad (dotted a b c d) a b c d :=
  ⟨_, _, _, _, rfl, isOctet_digits a, isOctet_digits b, isOctet_digits c, isOctet_digits d⟩

/-- The digits of a group are a literal of it. -/
theorem isGroup_digits (g : UInt16) : IsGroup (Hex.digits g.toNat) g := by
  have small := g.toNat_lt
  refine ⟨numeral_toDigits (by decide) (by decide) g.toNat, ?_⟩
  exact (Nat.length_toDigits_le_iff (by decide) (by decide)).mpr (by omega)

/-- Groups without a quad at the end are groups that may have one. -/
theorem areGroups_of_groups {pieces : List (List Char)} {gs : List UInt16}
    (h : List.Forall₂ IsGroup pieces gs) : AreGroups pieces gs := by
  induction h with
  | nil => exact .nil
  | cons first others ih => exact .group first ih

/-- Printed groups are a row of them. -/
theorem isRow_colonSeparated (gs : List UInt16) : IsRow (colonSeparated gs) gs := by
  refine ⟨gs.map fun g => Hex.digits g.toNat, rfl, ?_⟩
  rw [List.forall₂_map_left_iff, List.forall₂_same]
  exact fun g _ => isGroup_digits g

/-- Printed groups can stand at the end of a long address. -/
theorem isTail_colonSeparated (gs : List UInt16) : IsTail (colonSeparated gs) gs := by
  obtain ⟨pieces, same, groups⟩ := isRow_colonSeparated gs
  exact ⟨pieces, same, areGroups_of_groups groups⟩

/-- The printed text of eight groups is a literal of them. -/
theorem isLong_of_printed {gs : List UInt16} {cs : List Char} (h : Printed gs cs)
    (eight : gs.length = 8) : IsLong cs gs := by
  cases h with
  | @mapped g h a b c d high low =>
    -- The double colon stands for the five zeros in front of `ffff`.
    have group : IsGroup "ffff".toList 0xffff := isGroup_digits 0xffff
    have tail : IsTail ("ffff:".toList ++ dotted a b c d) [0xffff, g, h] :=
      ⟨["ffff".toList, dotted a b c d], by simp,
        .group group (.quad (isQuad_dotted a b c d) high low)⟩
    have row : IsRow [] [] := ⟨[], rfl, .nil⟩
    exact @IsLong.gap [] _ [] _ 5 row tail (by decide) (by simp)
  | @compressed gs front back n whole run two longest first =>
    have length := congrArg List.length run
    rw [eight, List.length_append, List.length_append, List.length_replicate] at length
    have literal : IsLong _ _ := .gap (isRow_colonSeparated front) (isTail_colonSeparated back)
      (by omega : 1 ≤ n) length.symm
    rw [run]
    simpa using literal
  | plain none => exact .full (isTail_colonSeparated gs) eight

/-- The text of an address is a literal of the address. -/
theorem isLiteral_text (ip : Ip) : IsLiteral ip.text ip := by
  cases ip with
  | v4 a b c d => exact .v4 (isQuad_dotted a b c d)
  | v6 groups =>
    exact .v6 (isLong_of_printed (printed_groupsText groups.toList) groups.length_eq)

end Netsieve.Ip
