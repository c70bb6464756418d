import Netsieve.Ip.Parser
import Netsieve.Proofs.Reading
import Netsieve.Proofs.Text.Numeral

/-!
# `Netsieve.Proofs.Ip.Grammar`: which texts are IP addresses

`IsLiteral cs ip` says that the characters `cs` are a literal of the address `ip`. It is
written down the way a grammar is: an octet is a short decimal numeral (`IsOctet`), a
quad is four of them with dots between them (`IsQuad`), a group is a short hexadecimal
numeral (`IsGroup`), and a long address is a row of groups with colons between them, in
which one double colon may stand for the zeros that are missing and the last two groups
may be a quad (`IsLong`). Nothing in it says how a text is to be read.

* `read?_eq_some_iff`: the reader takes exactly the literals, each with its address. So
  no text is a literal of two addresses.
* `chars_literal`: the characters of a literal are digits, dots and colons.
-/

set_option autoImplicit false

namespace Netsieve.Ip

/-! ## The grammar -/

/-- An octet: a decimal numeral of at most three digits, without a zero in front. -/
structure IsOctet (cs : List Char) (b : UInt8) : Prop where
  numeral : Numeral 10 cs b.toNat
  short : cs.length ≤ 3
  plain : cs.head? = some '0' → cs.length = 1

/-- Four octets with dots between them. -/
def IsQuad (cs : List Char) (a b c d : UInt8) : Prop :=
  ∃ p q r s, cs = ['.'].intercalate [p, q, r, s] ∧
    IsOctet p a ∧ IsOctet q b ∧ IsOctet r c ∧ IsOctet s d

/-- A group: a hexadecimal numeral of at most four digits. -/
structure IsGroup (cs : List Char) (g : UInt16) : Prop where
  numeral : Numeral 16 cs g.toNat
  short : cs.length ≤ 4

/-- Pieces of a text that are groups, the last of which may be a quad that stands for
two.

- `group`: the first piece is a group;
- `quad`: the last piece is a quad. -/
inductive AreGroups : List (List Char) → List UInt16 → Prop where
  | nil : AreGroups [] []
  | group {piece : List Char} {pieces : List (List Char)} {g : UInt16} {gs : List UInt16}
      (first : IsGroup piece g) (others : AreGroups pieces gs) :
      AreGroups (piece :: pieces) (g :: gs)
  | quad {piece : List Char} {a b c d : UInt8} {g h : UInt16} (last : IsQuad piece a b c d)
      (high : g.toNat = a.toNat * 256 + b.toNat) (low : h.toNat = c.toNat * 256 + d.toNat) :
      AreGroups [piece] [g, h]

/-- A row of groups with a colon between neighbours. -/
def IsRow (cs : List Char) (gs : List UInt16) : Prop :=
  ∃ pieces, cs = [':'].intercalate pieces ∧ List.Forall₂ IsGroup pieces gs

/-- A row of groups with a colon between neighbours, the last two of which may be written
as a quad. -/
def IsTail (cs : List Char) (gs : List UInt16) : Prop :=
  ∃ pieces, cs = [':'].intercalate pieces ∧ AreGroups pieces gs

/-- The eight groups of a long address.

- `full`: all of them are written;
- `gap`: a double colon stands for one or more of them, which are zero. -/
inductive IsLong : List Char → List UInt16 → Prop where
  | full {cs : List Char} {gs : List UInt16} (row : IsTail cs gs) (eight : gs.length = 8) :
      IsLong cs gs
  | gap {front back : List Char} {fs bs : List UInt16} {n : Nat} (before : IsRow front fs)
      (behind : IsTail back bs) (some_left : 1 ≤ n) (eight : fs.length + n + bs.length = 8) :
      IsLong (front ++ ':' :: ':' :: back) (fs ++ List.replicate n 0 ++ bs)

/-- The literals of an address. -/
inductive IsLiteral : List Char → Ip → Prop where
  | v4 {cs : List Char} {a b c d : UInt8} (quad : IsQuad cs a b c d) :
      IsLiteral cs (.v4 a b c d)
  | v6 {cs : List Char} {groups : Groups} (long : IsLong cs groups.toList) :
      IsLiteral cs (.v6 groups)

/-! ## The characters of a literal -/

/-- What stands in a joined text is the separator or stands in one of the pieces. -/
theorem mem_intercalate {sep c : Char} {pieces : List (List Char)}
    (h : c ∈ [sep].intercalate pieces) : c = sep ∨ ∃ piece ∈ pieces, c ∈ piece := by
  induction pieces with
  | nil => cases h
  | cons piece pieces ih =>
    cases pieces with
    | nil => exact .inr ⟨piece, by simp, by simpa using h⟩
    | cons next pieces =>
      rw [List.intercalate_cons_cons, List.append_assoc, List.mem_append, List.mem_append,
        List.mem_singleton] at h
      -- It stands in the first piece, it is the separator, or it stands further back.
      rcases h with h | h | h
      · exact .inr ⟨piece, by simp, h⟩
      · exact .inl h
      · rcases ih h with h | ⟨other, there, h⟩
        · exact .inl h
        · exact .inr ⟨other, List.mem_cons_of_mem _ there, h⟩

/-- What can stand between the colons of a literal. -/
def PieceChar (c : Char) : Prop :=
  c = '.' ∨ ∃ d, IsDigit 16 c d

/-- No mark but the dot stands there. -/
theorem not_pieceChar {mark : Char} (other : mark.isAlphanum = false) (dot : mark ≠ '.') :
    ¬ PieceChar mark := by
  rintro (same | ⟨d, digit⟩)
  · exact dot same
  · rw [digit.isAlphanum (by decide)] at other
    cases other

/-- An octet is written in digits. -/
theorem pieceChar_octet {cs : List Char} {b : UInt8} (h : IsOctet cs b) :
    ∀ c ∈ cs, PieceChar c := by
  intro c hc
  obtain ⟨d, digit⟩ := h.numeral.exists_digit c hc
  refine .inr ⟨d, ?_⟩
  unfold IsDigit at digit ⊢
  omega

/-- Four octets are written in digits and dots. -/
theorem pieceChar_quad {cs : List Char} {a b c d : UInt8} (h : IsQuad cs a b c d) :
    ∀ x ∈ cs, PieceChar x := by
  obtain ⟨p, q, r, s, rfl, hp, hq, hr, hs⟩ := h
  intro x hx
  rcases mem_intercalate hx with dot | ⟨piece, there, inside⟩
  · exact .inl dot
  · simp only [List.mem_cons, List.not_mem_nil, or_false] at there
    rcases there with rfl | rfl | rfl | rfl
    · exact pieceChar_octet hp x inside
    · exact pieceChar_octet hq x inside
    · exact pieceChar_octet hr x inside
    · exact pieceChar_octet hs x inside

/-- A group is written in hexadecimal digits. -/
theorem pieceChar_group {cs : List Char} {g : UInt16} (h : IsGroup cs g) :
    ∀ c ∈ cs, PieceChar c :=
  fun c hc => .inr (h.numeral.exists_digit c hc)

/-- Four octets have a dot between them. -/
theorem dot_mem_quad {cs : List Char} {a b c d : UInt8} (h : IsQuad cs a b c d) : '.' ∈ cs := by
  obtain ⟨p, q, r, s, rfl, -⟩ := h
  simp

/-- Four octets are not written as nothing. -/
theorem quad_ne_nil {cs : List Char} {a b c d : UInt8} (h : IsQuad cs a b c d) : cs ≠ [] :=
  List.ne_nil_of_mem (dot_mem_quad h)

/-- Pieces that are neither empty nor contain a colon. -/
def Solid (pieces : List (List Char)) : Prop :=
  ∀ piece ∈ pieces, piece ≠ [] ∧ ∀ c ∈ piece, PieceChar c

/-- One more piece without colons leaves the pieces solid. -/
theorem solid_cons {piece : List Char} {pieces : List (List Char)} (some_char : piece ≠ [])
    (chars : ∀ c ∈ piece, PieceChar c) (others : Solid pieces) : Solid (piece :: pieces) := by
  intro other there
  rcases List.mem_cons.mp there with rfl | there
  · exact ⟨some_char, chars⟩
  · exact others other there

/-- Groups have no colons in them. -/
theorem solid_groups {pieces : List (List Char)} {gs : List UInt16}
    (h : List.Forall₂ IsGroup pieces gs) : Solid pieces := by
  induction h with
  | nil => exact fun _ none => nomatch none
  | cons first others ih => exact solid_cons first.numeral.ne_nil (pieceChar_group first) ih

/-- Groups that end in a quad have no colons in them either. -/
theorem solid_areGroups {pieces : List (List Char)} {gs : List UInt16}
    (h : AreGroups pieces gs) : Solid pieces := by
  induction h with
  | nil => exact fun _ none => nomatch none
  | group first others ih => exact solid_cons first.numeral.ne_nil (pieceChar_group first) ih
  | quad last high low =>
    exact solid_cons (quad_ne_nil last) (pieceChar_quad last) fun _ none => nomatch none

/-- Solid pieces have no colons in them. -/
theorem colon_not_mem_of_solid {pieces : List (List Char)} (h : Solid pieces) :
    ∀ piece ∈ pieces, ':' ∉ piece :=
  fun piece there colon => not_pieceChar rfl (by decide) ((h piece there).2 ':' colon)

/-- A long address is written in colons and in what may stand between them. -/
theorem chars_long {cs : List Char} {gs : List UInt16} (h : IsLong cs gs) :
    ∀ c ∈ cs, c = ':' ∨ PieceChar c := by
  have row : ∀ {pieces : List (List Char)}, Solid pieces →
      ∀ c ∈ [':'].intercalate pieces, c = ':' ∨ PieceChar c := by
    intro pieces solid c hc
    rcases mem_intercalate hc with colon | ⟨piece, there, inside⟩
    · exact .inl colon
    · exact .inr ((solid piece there).2 c inside)
  intro c hc
  cases h with
  | full tail =>
    obtain ⟨pieces, rfl, groups⟩ := tail
    exact row (solid_areGroups groups) c hc
  | gap before behind =>
    obtain ⟨pieces, rfl, groups⟩ := before
    obtain ⟨others, rfl, more⟩ := behind
    simp only [List.mem_append, List.mem_cons] at hc
    rcases hc with hc | rfl | rfl | hc
    · exact row (solid_groups groups) c hc
    · exact .inl rfl
    · exact .inl rfl
    · exact row (solid_areGroups more) c hc

/-- The characters of a literal. -/
theorem chars_literal {cs : List Char} {ip : Ip} (h : IsLiteral cs ip) :
    ∀ c ∈ cs, c = ':' ∨ PieceChar c := by
  cases h with
  | v4 quad => exact fun c hc => .inr (pieceChar_quad quad c hc)
  | v6 long => exact chars_long long

/-- A literal has no other marks. -/
theorem not_mem_literal {mark : Char} {cs : List Char} {ip : Ip} (h : IsLiteral cs ip)
    (other : mark.isAlphanum = false) (colon : mark ≠ ':') (dot : mark ≠ '.') : mark ∉ cs := by
  intro there
  rcases chars_literal h mark there with same | inside
  · exact colon same
  · exact not_pieceChar other dot inside

/-- A literal of a long address has a colon. -/
theorem colon_mem_long {cs : List Char} {gs : List UInt16} (h : IsLong cs gs) : ':' ∈ cs := by
  cases h with
  | gap => simp
  | full tail eight =>
    obtain ⟨pieces, rfl, groups⟩ := tail
    cases groups with
    | nil => cases eight
    | quad => cases eight
    | group first others =>
      cases others with
      | nil => cases eight
      | group second others => simp
      | quad second high low => simp

/-! ## Reading octets and quads -/

/-- The reader of octets takes the octets of the grammar, and nothing else. -/
theorem octet?_eq_some_iff {cs : List Char} {b : UInt8} : octet? cs = some b ↔ IsOctet cs b := by
  unfold octet?
  constructor
  · intro h
    split at h
    · cases h
    · next fits =>
      simp only [not_or, not_and, Nat.not_lt] at fits
      split at h
      · next n read =>
        rw [Option.ite_none_right_eq_some] at h
        obtain ⟨small, same⟩ := h
        obtain rfl := Option.some.inj same
        -- At most 255, so nothing of it is cut off.
        have value : (UInt8.ofNat n).toNat = n := by
          rw [UInt8.toNat_ofNat']
          omega
        refine ⟨?_, fits.1, fun zero => ?_⟩
        · rw [value]
          exact Decimal.read?_eq_some_iff.mp read
        · exact Decidable.not_not.mp (fits.2 zero)
      · cases h
  · rintro ⟨numeral, short, plain⟩
    have fits : ¬ (3 < cs.length ∨ (cs.head? = some '0' ∧ cs.length ≠ 1)) := by
      rintro (long | ⟨zero, more⟩)
      · omega
      · exact more (plain zero)
    have small : b.toNat ≤ 255 := by
      have := b.toNat_lt
      omega
    rw [if_neg fits, Decimal.read?_eq_some_iff.mpr numeral]
    simp [small]

/-- The reader of four octets takes the quads of the grammar, and nothing else. -/
theorem quad?_eq_some_iff {cs : List Char} {a b c d : UInt8} :
    quad? cs = some (a, b, c, d) ↔ IsQuad cs a b c d := by
  unfold quad?
  constructor
  · intro h
    split at h
    · next a' b' c' d' octets =>
      cases h
      -- The text is what joins its pieces, and there are four of them because four were
      -- read.
      have whole : ['.'].intercalate (cs.splitOn '.') = cs := List.intercalate_splitOn '.'
      have read := mapM_eq_some_iff.mp octets
      generalize cs.splitOn '.' = pieces at whole read
      cases read with
      | cons hp read => cases read with
        | cons hq read => cases read with
          | cons hr read => cases read with
            | cons hs read =>
              cases read
              exact ⟨_, _, _, _, whole.symm, octet?_eq_some_iff.mp hp, octet?_eq_some_iff.mp hq,
                octet?_eq_some_iff.mp hr, octet?_eq_some_iff.mp hs⟩
    · cases h
  · rintro ⟨p, q, r, s, rfl, hp, hq, hr, hs⟩
    -- No piece has a dot in it, so splitting undoes the joining.
    have apart : ∀ piece ∈ [p, q, r, s], '.' ∉ piece := by
      intro piece there
      simp only [List.mem_cons, List.not_mem_nil, or_false] at there
      rcases there with rfl | rfl | rfl | rfl
      · exact hp.numeral.not_mem (by decide) rfl
      · exact hq.numeral.not_mem (by decide) rfl
      · exact hr.numeral.not_mem (by decide) rfl
      · exact hs.numeral.not_mem (by decide) rfl
    rw [List.splitOn_intercalate '.' apart (by simp)]
    have read : [p, q, r, s].mapM octet? = some [a, b, c, d] :=
      mapM_eq_some_iff.mpr (by simp [octet?_eq_some_iff, hp, hq, hr, hs])
    rw [read]

/-! ## Reading groups -/

/-- The reader of groups takes the groups of the grammar, and nothing else. -/
theorem group?_eq_some_iff {cs : List Char} {g : UInt16} : group? cs = some g ↔ IsGroup cs g := by
  unfold group?
  rw [Option.ite_none_left_eq_some, Option.map_eq_some_iff]
  constructor
  · rintro ⟨short, n, read, rfl⟩
    have numeral := Hex.read?_eq_some_iff.mp read
    -- Four digits make at most 16 bits.
    have fits : n < 16 ^ 4 :=
      Nat.lt_of_lt_of_le numeral.lt_pow (Nat.pow_le_pow_right (by decide) (by omega))
    have value : (UInt16.ofNat n).toNat = n := by
      rw [UInt16.toNat_ofNat']
      omega
    refine ⟨?_, by omega⟩
    rw [value]
    exact numeral
  · rintro ⟨numeral, short⟩
    exact ⟨by omega, g.toNat, Hex.read?_eq_some_iff.mpr numeral, by simp⟩

/-- A group is no quad. -/
theorem group?_of_quad {cs : List Char} {a b c d : UInt8} (h : IsQuad cs a b c d) :
    group? cs = none := by
  cases read : group? cs with
  | none => rfl
  | some g =>
    have group := group?_eq_some_iff.mp read
    exact absurd (dot_mem_quad h) (group.numeral.not_mem (by decide) rfl)

/-- Two octets make up a group. -/
theorem ofNat_octets_eq_iff {a b : UInt8} {g : UInt16} :
    UInt16.ofNat (a.toNat * 256 + b.toNat) = g ↔ g.toNat = a.toNat * 256 + b.toNat := by
  constructor
  · rintro rfl
    have := a.toNat_lt
    have := b.toNat_lt
    rw [UInt16.toNat_ofNat']
    omega
  · intro value
    rw [← value, UInt16.ofNat_toNat]

/-- The reader of pieces takes groups that may end in a quad, and nothing else. -/
theorem tailGroups?_eq_some_iff {pieces : List (List Char)} {gs : List UInt16} :
    tailGroups? pieces = some gs ↔ AreGroups pieces gs := by
  constructor
  · intro h
    -- The cases are those of the reader: only the last piece may be a quad.
    fun_induction tailGroups? pieces generalizing gs with
    | case1 =>
      cases h
      exact .nil
    | case2 last g read =>
      cases h
      exact .group (group?_eq_some_iff.mp read) .nil
    | case3 last no_group =>
      obtain ⟨⟨a, b, c, d⟩, read, rfl⟩ := Option.map_eq_some_iff.mp h
      exact .quad (quad?_eq_some_iff.mp read) (ofNat_octets_eq_iff.mp rfl)
        (ofNat_octets_eq_iff.mp rfl)
    | case4 piece rest more g gs' others read ih =>
      cases h
      exact .group (group?_eq_some_iff.mp read) (ih others)
    | case5 => cases h
  · intro h
    induction h with
    | nil => rfl
    | @group piece pieces g gs first others ih =>
      have read : group? piece = some g := group?_eq_some_iff.mpr first
      cases pieces with
      | nil =>
        cases others
        simp [tailGroups?, read]
      | cons next pieces => simp [tailGroups?, read, ih]
    | @quad piece a b c d g h last high low =>
      simp [tailGroups?, group?_of_quad last, quad?_eq_some_iff.mpr last, quadGroups,
        ofNat_octets_eq_iff.mpr high, ofNat_octets_eq_iff.mpr low]

/-! ## Cutting at colons -/

/-- A text is put together again from its pieces. -/
theorem intercalate_pieces (cs : List Char) : [':'].intercalate (pieces cs) = cs := by
  unfold pieces
  cases cs with
  | nil => rfl
  | cons c cs => exact List.intercalate_splitOn ':'

/-- A text that is put together from solid pieces falls into them again. -/
theorem pieces_intercalate {ps : List (List Char)} (h : Solid ps) :
    pieces ([':'].intercalate ps) = ps := by
  unfold pieces
  cases ps with
  | nil => rfl
  | cons p ps =>
    have some_char : [':'].intercalate (p :: ps) ≠ [] := by
      have first : p ≠ [] := (h p List.mem_cons_self).1
      cases ps <;> simp [first]
    rw [if_neg (by simpa using some_char),
      List.splitOn_intercalate ':' (colon_not_mem_of_solid h) (List.cons_ne_nil p ps)]

/-- A double colon behind pieces is the first one. -/
theorem atDouble?_intercalate {ps : List (List Char)} (h : Solid ps) (rest : List Char) :
    Split.atDouble? ':' ([':'].intercalate ps ++ rest) = (Split.atDouble? ':' rest).map
      fun (before, after) => ([':'].intercalate ps ++ before, after) := by
  induction ps with
  | nil => simp
  | cons p ps ih =>
    have apart : ':' ∉ p := colon_not_mem_of_solid h p List.mem_cons_self
    cases ps with
    | nil => simpa using Split.atDouble?_append apart rest
    | cons q ps =>
      -- The next piece is not empty, so the colon before it stands alone.
      have others : Solid (q :: ps) := fun piece there => h piece (List.mem_cons_of_mem _ there)
      obtain ⟨d, q', rfl⟩ := List.exists_cons_of_ne_nil (others q List.mem_cons_self).1
      have single : d ≠ ':' := by
        rintro rfl
        exact colon_not_mem_of_solid others _ List.mem_cons_self List.mem_cons_self
      have step := ih others
      rw [List.intercalate_cons_cons_left, List.cons_append] at step
      simp only [List.intercalate_cons_cons, List.intercalate_cons_cons_left, List.append_assoc,
        List.cons_append, List.nil_append]
      rw [Split.atDouble?_append apart, Split.atDouble?_cons single, step, Option.map_map,
        Option.map_map]
      rfl

/-! ## Reading addresses -/

/-- What can stand in front of a double colon is a row of groups. -/
theorem mapM_group?_eq_some_iff {cs : List Char} {gs : List UInt16} :
    (pieces cs).mapM group? = some gs ↔ IsRow cs gs := by
  constructor
  · intro read
    refine ⟨pieces cs, (intercalate_pieces cs).symm, ?_⟩
    simpa only [group?_eq_some_iff] using mapM_eq_some_iff.mp read
  · rintro ⟨ps, rfl, groups⟩
    rw [pieces_intercalate (solid_groups groups), mapM_eq_some_iff]
    simpa only [group?_eq_some_iff] using groups

/-- What can stand at the end of a long address is a row that may end in a quad. -/
theorem tailGroups?_pieces_eq_some_iff {cs : List Char} {gs : List UInt16} :
    tailGroups? (pieces cs) = some gs ↔ IsTail cs gs := by
  constructor
  · intro read
    exact ⟨pieces cs, (intercalate_pieces cs).symm, tailGroups?_eq_some_iff.mp read⟩
  · rintro ⟨ps, rfl, groups⟩
    rw [pieces_intercalate (solid_areGroups groups)]
    exact tailGroups?_eq_some_iff.mpr groups

/-- The first double colon of a text is the one behind a row of groups. -/
theorem atDouble?_of_row {front : List Char} {fs : List UInt16} (h : IsRow front fs)
    (back : List Char) :
    Split.atDouble? ':' (front ++ ':' :: ':' :: back) = some (front, back) := by
  obtain ⟨ps, rfl, groups⟩ := h
  rw [atDouble?_intercalate (solid_groups groups)]
  simp [Split.atDouble?]

/-- A row of groups has no double colon. -/
theorem atDouble?_of_tail {cs : List Char} {gs : List UInt16} (h : IsTail cs gs) :
    Split.atDouble? ':' cs = none := by
  obtain ⟨ps, rfl, groups⟩ := h
  simpa [Split.atDouble?] using atDouble?_intercalate (solid_areGroups groups) []

/-- The reader of long addresses takes those of the grammar, with the same groups. -/
theorem groups?_eq_some_iff {cs : List Char} {groups : Groups} :
    groups? cs = some groups ↔ IsLong cs groups.toList := by
  obtain ⟨gs, eight⟩ := groups
  unfold groups?
  constructor
  · intro h
    split at h
    · split at h
      · next gs' read =>
        rw [Option.dite_none_right_eq_some] at h
        obtain ⟨length, same⟩ := h
        cases same
        exact .full (tailGroups?_pieces_eq_some_iff.mp read) length
      · cases h
    · next front back cut =>
      split at h
      · next fs bs before behind =>
        rw [Option.dite_none_right_eq_some] at h
        obtain ⟨length, same⟩ := h
        cases same
        -- The first double colon cuts the text. In front of it there are groups only,
        -- behind it there may be a quad at the end.
        have row : IsRow front fs := mapM_group?_eq_some_iff.mp before
        have tail : IsTail back bs := tailGroups?_pieces_eq_some_iff.mp behind
        rw [Split.eq_of_atDouble? cut]
        exact .gap row tail (by omega) (by omega)
      · cases h
  · intro h
    cases h with
    | full tail length =>
      rw [atDouble?_of_tail tail]
      simp [tailGroups?_pieces_eq_some_iff.mpr tail, length]
    | @gap front back fs bs n before behind some_left length =>
      -- A double colon stands for at least one group, and it is clear for how many.
      have room : fs.length + bs.length ≤ 7 := by omega
      have missing : 8 - (fs.length + bs.length) = n := by omega
      rw [atDouble?_of_row before]
      simp only [mapM_group?_eq_some_iff.mpr before, tailGroups?_pieces_eq_some_iff.mpr behind,
        room, missing, dite_true]
      rfl

/-- The reader takes exactly the literals. -/
theorem read?_eq_some_iff {cs : List Char} {ip : Ip} : read? cs = some ip ↔ IsLiteral cs ip := by
  unfold read?
  constructor
  · intro h
    split at h
    · next a b c d read =>
      cases h
      exact .v4 (quad?_eq_some_iff.mp read)
    · obtain ⟨groups, read, rfl⟩ := Option.map_eq_some_iff.mp h
      exact .v6 (groups?_eq_some_iff.mp read)
  · intro h
    cases h with
    | v4 quad => rw [quad?_eq_some_iff.mpr quad]
    | v6 long =>
      -- A long address has a colon, so it is not read as a short one.
      have no_quad : quad? cs = none := by
        cases read : quad? cs with
        | none => rfl
        | some octets =>
          obtain ⟨a, b, c, d⟩ := octets
          have chars := pieceChar_quad (quad?_eq_some_iff.mp read)
          exact absurd (chars ':' (colon_mem_long long)) (not_pieceChar rfl (by decide))
      rw [no_quad, groups?_eq_some_iff.mpr long]
      rfl

end Netsieve.Ip
