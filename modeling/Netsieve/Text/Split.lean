/-!
# `Netsieve.Text.Split`: cutting a text at a separator

Each function cuts at one particular place: at the first or the last occurrence
of a character, or at the first place where a character stands twice in a row.
The separator itself belongs to neither part, and `none` means that it does not
occur.
-/

set_option autoImplicit false

namespace Netsieve.Split

/-- Cuts at the first `sep`. -/
def atFirst? (sep : Char) : List Char → Option (List Char × List Char)
  | [] => none
  | c :: cs =>
    if c = sep then some ([], cs)
    else (atFirst? sep cs).map fun (before, after) => (c :: before, after)

/-- Cuts at the last `sep`. -/
def atLast? (sep : Char) : List Char → Option (List Char × List Char)
  | [] => none
  | c :: cs =>
    match atLast? sep cs with
    | some (before, after) => some (c :: before, after)
    | none => if c = sep then some ([], cs) else none

/-- Cuts at the first place where `sep` stands twice in a row. -/
def atDouble? (sep : Char) : List Char → Option (List Char × List Char)
  | [] => none
  | [_] => none
  | c :: d :: cs =>
    if c = sep ∧ d = sep then some ([], cs)
    else (atDouble? sep (d :: cs)).map fun (before, after) => (c :: before, after)

/-- A text is cut at a separator that has none before it. -/
theorem atFirst?_append {sep : Char} (before after : List Char) (h : sep ∉ before) :
    atFirst? sep (before ++ sep :: after) = some (before, after) := by
  induction before with
  | nil => simp [atFirst?]
  | cons c cs ih =>
    simp only [List.mem_cons, not_or] at h
    simp [atFirst?, ih h.2, Ne.symm h.1]

/-- The first cut is at a separator with none before it. -/
theorem atFirst?_eq_some_iff {sep : Char} {cs before after : List Char} :
    atFirst? sep cs = some (before, after) ↔ cs = before ++ sep :: after ∧ sep ∉ before := by
  constructor
  · intro h
    induction cs generalizing before with
    | nil => cases h
    | cons c cs ih =>
      unfold atFirst? at h
      split at h
      · next here =>
        cases h
        exact ⟨by rw [here, List.nil_append], List.not_mem_nil⟩
      · next other =>
        obtain ⟨⟨front, rest⟩, found, same⟩ := Option.map_eq_some_iff.mp h
        cases same
        obtain ⟨rfl, none_before⟩ := ih found
        exact ⟨rfl, by simp [none_before, Ne.symm other]⟩
  · rintro ⟨rfl, none_before⟩
    exact atFirst?_append before after none_before

/-- A text is not cut exactly if the separator is missing. -/
theorem atFirst?_eq_none_iff {sep : Char} {cs : List Char} :
    atFirst? sep cs = none ↔ sep ∉ cs := by
  constructor
  · intro nothing there
    obtain ⟨before, after, rfl, none_before⟩ := List.eq_append_cons_of_mem there
    rw [atFirst?_append before after none_before] at nothing
    cases nothing
  · intro absent
    cases cut : atFirst? sep cs with
    | none => rfl
    | some parts =>
      obtain ⟨rfl, -⟩ := atFirst?_eq_some_iff.mp cut
      simp at absent

/-- Without a separator there is no cut. -/
theorem atLast?_eq_none {sep : Char} {cs : List Char} (h : sep ∉ cs) :
    atLast? sep cs = none := by
  induction cs with
  | nil => rfl
  | cons c cs ih =>
    simp only [List.mem_cons, not_or] at h
    simp [atLast?, ih h.2, Ne.symm h.1]

/-- A text is cut at a separator that has none after it. -/
theorem atLast?_append {sep : Char} (before after : List Char) (h : sep ∉ after) :
    atLast? sep (before ++ sep :: after) = some (before, after) := by
  induction before with
  | nil => simp [atLast?, atLast?_eq_none h]
  | cons c cs ih => simp [atLast?, ih]

/-- A text is not cut exactly if the separator is missing. -/
theorem atLast?_eq_none_iff {sep : Char} {cs : List Char} :
    atLast? sep cs = none ↔ sep ∉ cs := by
  refine ⟨fun nothing => ?_, atLast?_eq_none⟩
  induction cs with
  | nil => exact List.not_mem_nil
  | cons c cs ih =>
    unfold atLast? at nothing
    split at nothing
    · cases nothing
    · next rest =>
      have other : c ≠ sep := by
        intro same
        rw [if_pos same] at nothing
        cases nothing
      simp [ih rest, Ne.symm other]

/-- The last cut is at a separator with none behind it. -/
theorem atLast?_eq_some_iff {sep : Char} {cs before after : List Char} :
    atLast? sep cs = some (before, after) ↔ cs = before ++ sep :: after ∧ sep ∉ after := by
  constructor
  · intro h
    induction cs generalizing before with
    | nil => cases h
    | cons c cs ih =>
      unfold atLast? at h
      split at h
      · next found =>
        cases h
        obtain ⟨rfl, none_behind⟩ := ih found
        exact ⟨rfl, none_behind⟩
      · next rest =>
        rw [Option.ite_none_right_eq_some] at h
        obtain ⟨rfl, same⟩ := h
        cases same
        exact ⟨rfl, atLast?_eq_none_iff.mp rest⟩
  · rintro ⟨rfl, none_behind⟩
    exact atLast?_append before after none_behind

/-- The parts of a cut make up the text again. -/
theorem eq_of_atDouble? {sep : Char} {cs before after : List Char}
    (h : atDouble? sep cs = some (before, after)) : cs = before ++ sep :: sep :: after := by
  fun_induction atDouble? sep cs generalizing before with
  | case1 => cases h
  | case2 => cases h
  | case3 c d cs both =>
    cases h
    rw [both.1, both.2, List.nil_append]
  | case4 c d cs apart ih =>
    obtain ⟨⟨front, rest⟩, found, same⟩ := Option.map_eq_some_iff.mp h
    cases same
    rw [ih found, List.cons_append]

/-- A stretch without separators does not matter for where they stand twice in a row. -/
theorem atDouble?_append {sep : Char} {front : List Char} (h : sep ∉ front)
    (rest : List Char) :
    atDouble? sep (front ++ rest)
      = (atDouble? sep rest).map fun (before, after) => (front ++ before, after) := by
  induction front with
  | nil => simp
  | cons c front ih =>
    simp only [List.mem_cons, not_or] at h
    have alone : atDouble? sep (c :: (front ++ rest))
        = (atDouble? sep (front ++ rest)).map fun (before, after) => (c :: before, after) := by
      cases front ++ rest with
      | nil => rfl
      | cons d more => rw [atDouble?, if_neg fun both => h.1 both.1.symm]
    rw [List.cons_append, alone, ih h.2, Option.map_map]
    rfl

/-- A separator that is followed by another character does not matter either. -/
theorem atDouble?_cons {sep d : Char} (h : d ≠ sep) (rest : List Char) :
    atDouble? sep (sep :: d :: rest)
      = (atDouble? sep (d :: rest)).map fun (before, after) => (sep :: before, after) := by
  rw [atDouble?, if_neg fun both => h both.2]

end Netsieve.Split
