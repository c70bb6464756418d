import Netsieve.Json.Parser
import Netsieve.Json.Record
import Netsieve.Proofs.Reading

/-!
# `Netsieve.Proofs.Json.Fields`: records are read by their fields

A `Field` of a record has a name, and the values given under this name tell something about
the record. There are two kinds: one that has to be given (`Field.required`) and one that may
be missing, which is the same as null (`Field.optional`). Nothing in this tells in which
order a decoder meets the members of an object, or what it does with the others.

A decoder that goes by the fields of a record (`Decodes`) can therefore do nothing else, and
what it does is told at once for all records.

* `byFields_of_decodes`: a decoder of texts takes an object exactly if every known field is
  given as it should be, whatever other members there are and in whatever order, and an array
  like the object with the same values.
-/

set_option autoImplicit false

namespace Netsieve.Json

/-! ## Names and values -/

/-- A content that is text is the text of its characters. -/
theorem proper?_eq_some_iff {content : List Glyph} {cs : List Char} :
    proper? content = some cs ↔ content = glyphs cs := by
  have char : ∀ (g : Glyph) (c : Char), g.char? = some c ↔ g = .char c := by
    intro g c
    cases g <;> simp [Glyph.char?]
  rw [proper?, mapM_eq_some_iff, glyphs, ← forall₂_eq_map_iff]
  simp only [char]

/-- The names of these members are text. -/
def Named (members : List (List Glyph × Json)) : Prop :=
  ∀ m ∈ members, ∃ cs, m.1 = glyphs cs

/-- The values that members with this name have, in order. -/
def valuesOf (name : List Char) (members : List (List Glyph × Json)) : List Json :=
  (members.filter (·.1 = glyphs name)).map (·.2)

/-- The members with one of these names, in order. -/
def known (names : List (List Char)) (members : List (List Glyph × Json)) :
    List (List Glyph × Json) :=
  members.filter fun m => m.1 ∈ names.map glyphs

/-- Different texts have different contents. -/
theorem glyphs_inj {cs ds : List Char} : glyphs cs = glyphs ds ↔ cs = ds :=
  List.map_inj_right fun _ _ => Glyph.char.inj

/-- Members whose names are text are those that are written with these names. -/
theorem named?_eq_some_iff {members : List (List Glyph × Json)}
    {named : List (List Char × Json)} :
    named? members = some named ↔ members = named.map fun m => (glyphs m.1, m.2) := by
  have member : ∀ (m : List Glyph × Json) (n : List Char × Json),
      ((proper? m.1).map fun name => (name, m.2)) = some n ↔ m = (glyphs n.1, n.2) := by
    rintro ⟨content, v⟩ ⟨name, w⟩
    simp [proper?_eq_some_iff]
  rw [named?, mapM_eq_some_iff, ← forall₂_eq_map_iff]
  simp only [member]

/-- The names can be read exactly if all of them are text. -/
theorem named_iff {members : List (List Glyph × Json)} :
    Named members ↔ ∃ named, named? members = some named := by
  have partner : ∀ m : List Glyph × Json,
      (∃ cs, m.1 = glyphs cs) ↔ ∃ n : List Char × Json, m = (glyphs n.1, n.2) := by
    rintro ⟨content, v⟩
    simp [Prod.ext_iff]
  simp only [named?_eq_some_iff, ← forall₂_eq_map_iff, exists_forall₂_iff, Named, partner]

/-- The values under a name are the same whether names are compared as text or as content. -/
theorem occurrences_eq (name : List Char) (named : List (List Char × Json)) :
    occurrences name named = valuesOf name (named.map fun m => (glyphs m.1, m.2)) := by
  simp [occurrences, valuesOf, List.filter_map, Function.comp_def, glyphs_inj]

/-- A name that is given at most once has at most one value. -/
theorem single?_eq_some_iff {values : List Json} {v : Option Json} :
    single? values = some v ↔ values = v.toList := by
  unfold single?
  split <;> cases v <;> simp_all [eq_comm]

/-- The fields of an object are read if the names of all members are text, no known name
occurs twice, and the other members are passable. -/
theorem fields?_obj_eq_some_iff {passable : Json → Bool} {names : List (List Char)}
    {members : List (List Glyph × Json)} {given : List (Option Json)} :
    fields? passable names (.obj members) = some given ↔
      Named members ∧ (∀ m ∈ members, m.1 ∈ names.map glyphs ∨ passable m.2 = true) ∧
      List.Forall₂ (fun name v => valuesOf name members = v.toList) names given := by
  -- The reader tests names that are decoded. As decoding names is injective, it may as well
  -- look at the members themselves.
  have test : ∀ named : List (List Char × Json),
      (named.all fun m => names.contains m.1 || passable m.2) = true ↔
        ∀ m ∈ named.map fun m => (glyphs m.1, m.2),
          m.1 ∈ names.map glyphs ∨ passable m.2 = true := by
    intro named
    simp only [List.all_eq_true, Bool.or_eq_true, List.contains_iff_mem, List.forall_mem_map,
      List.mem_map_of_injective fun _ _ => glyphs_inj.mp]
  rw [fields?]
  constructor
  · intro h
    split at h
    · next named read =>
      have same := named?_eq_some_iff.mp read
      rw [Option.ite_none_right_eq_some, test, ← same, mapM_eq_some_iff] at h
      refine ⟨named_iff.mpr ⟨named, read⟩, h.1, ?_⟩
      simpa only [occurrences_eq, ← same, single?_eq_some_iff] using h.2
    · cases h
  · rintro ⟨text, passes, values⟩
    obtain ⟨named, read⟩ := named_iff.mp text
    have same := named?_eq_some_iff.mp read
    simp only [read]
    rw [Option.ite_none_right_eq_some, test, ← same, mapM_eq_some_iff]
    refine ⟨passes, ?_⟩
    simpa only [occurrences_eq, ← same, single?_eq_some_iff] using values

/-- An array gives every field exactly if it has as many items as there are fields. -/
theorem fields?_arr_eq_some_iff {passable : Json → Bool} {names : List (List Char)}
    {items : List Json} {given : List (Option Json)} :
    fields? passable names (.arr items) = some given ↔
      items.length = names.length ∧ given = items.map some := by
  rw [fields?, Option.ite_none_right_eq_some, Option.some.injEq, eq_comm (a := given)]

/-- In an object with distinct names each name has one value. -/
theorem valuesOf_zip {names : List (List Char)} (distinct : names.Nodup) {items : List Json}
    (length : items.length = names.length) :
    List.Forall₂ (fun name v => valuesOf name ((names.map glyphs).zip items) = v.toList) names
      (items.map some) := by
  induction names generalizing items with
  | nil =>
    rw [List.length_eq_zero_iff.mp length]
    exact .nil
  | cons name names ih =>
    obtain ⟨fresh, distinct⟩ := List.nodup_cons.mp distinct
    cases items with
    | nil => cases length
    | cons v items =>
      have rest := ih distinct (Nat.succ.inj length)
      -- The first name is not among the others, so that it has its own value only.
      have nothing : valuesOf name ((names.map glyphs).zip items) = [] := by
        rw [valuesOf, List.map_eq_nil_iff, List.filter_eq_nil_iff]
        rintro ⟨content, w⟩ there same
        obtain ⟨other, known, rfl⟩ := List.mem_map.mp (List.of_mem_zip there).1
        exact fresh (glyphs_inj.mp (of_decide_eq_true same) ▸ known)
      have others : List.Forall₂ (fun other w => other ∈ names ∧
          valuesOf other ((names.map glyphs).zip items) = w.toList) names (items.map some) :=
        (List.forall₂_and_left names _).mpr ⟨fun _ there => there, rest⟩
      refine .cons ?_ (others.imp ?_)
      · simpa [valuesOf] using nothing
      · rintro other w ⟨there, values⟩
        have different : name ≠ other := by
          rintro rfl
          exact fresh there
        simpa [valuesOf, glyphs_inj, different] using values

/-- An object that has the known names in order gives the same fields as the array of its
values. -/
theorem fields?_zip {passable : Json → Bool} {names : List (List Char)} (distinct : names.Nodup)
    {items : List Json} (length : items.length = names.length) :
    fields? passable names (.obj ((names.map glyphs).zip items))
      = fields? passable names (.arr items) := by
  have array : fields? passable names (.arr items) = some (items.map some) :=
    fields?_arr_eq_some_iff.mpr ⟨length, rfl⟩
  rw [array, fields?_obj_eq_some_iff]
  have name : ∀ m ∈ (names.map glyphs).zip items, m.1 ∈ names.map glyphs :=
    fun m there => (List.of_mem_zip there).1
  refine ⟨fun m there => ?_, fun m there => .inl (name m there), valuesOf_zip distinct length⟩
  obtain ⟨cs, _, same⟩ := List.mem_map.mp (name m there)
  exact ⟨cs, same.symm⟩

/-! ## Fields -/

/-- A field of a record: its name, and what values tell about the record if they are given
under its name. -/
structure Field (α : Type) where
  name : List Char
  Tells : List Json → α → Prop
  /-- Two values tell nothing. -/
  once : ∀ {values a}, Tells values a → values.length ≤ 1

namespace Field

variable {α β : Type}

/-- A field that has to be given: once, and with a value that can be read. -/
def required (name : String) (read? : Json → Option β) (part : α → β) : Field α where
  name := name.toList
  Tells values a := ∃ v, values = [v] ∧ read? v = some (part a)
  once := by
    rintro _ _ ⟨v, rfl, -⟩
    exact Nat.le_refl 1

/-- A field that may be given: once, and with null or a value that can be read. If it is not
given, that counts as null. -/
def optional (name : String) (read? : Json → Option β) (part : α → Option β) : Field α where
  name := name.toList
  Tells values a := ∃ v, (values = [v] ∨ values = [] ∧ v = .null) ∧
    optional? read? (some v) = some (part a)
  once := by
    rintro _ _ ⟨v, rfl | ⟨rfl, -⟩, -⟩
    · exact Nat.le_refl 1
    · exact Nat.zero_le 1

/-- A required field tells what its value is read as. -/
theorem tells_required_iff {name : String} {read? : Json → Option β} {part : α → β}
    {v : Option Json} {a : α} :
    (required name read? part).Tells v.toList a ↔ required? read? v = some (part a) := by
  cases v <;> simp [required, required?]

/-- An optional field tells what its value is read as, or that there is none. -/
theorem tells_optional_iff {name : String} {read? : Json → Option β} {part : α → Option β}
    {v : Option Json} {a : α} :
    (optional name read? part).Tells v.toList a ↔ optional? read? v = some (part a) := by
  cases v <;> simp [optional, optional?]

/-- A field is given as it should be: the values tell something. -/
def Given (field : Field α) (values : List Json) : Prop :=
  ∃ a, field.Tells values a

/-- It makes no difference in which order values are given, as long as they tell something. -/
theorem tells_perm (field : Field α) {values values' : List Json} (same : values.Perm values')
    {a : α} (h : field.Tells values a) : field.Tells values' a := by
  have short := field.once h
  match values with
  | [] => rwa [List.nil_perm.mp same]
  | [v] => rwa [← List.singleton_perm.mp same]
  | _ :: _ :: _ => simp at short

end Field

/-! ## Decoders that go by fields -/

section Decodes

variable {α : Type}

/-- A decoder takes a value for a record exactly if all fields tell so. -/
def Decodes (fields : List (Field α)) (ofJson? : Json → Option α) : Prop :=
  ∀ v a, ofJson? v = some a ↔ ∃ given, v.record? (fields.map Field.name) = some given ∧
    List.Forall₂ (fun field (v : Option Json) => field.Tells v.toList a) fields given

/-- No field depends on another one: what each of them tells of some record, they all tell of
one. -/
def Independent (fields : List (Field α)) : Prop :=
  ∀ values : List Char → List Json, (∀ field ∈ fields, field.Given (values field.name)) →
    ∃ a, ∀ field ∈ fields, field.Tells (values field.name) a

variable {fields : List (Field α)} {ofJson? : Json → Option α}

/-- The fields of an object tell something exactly if the values of each name do. -/
theorem exists_given_iff {members : List (List Glyph × Json)} {a : α} :
    (∃ given : List (Option Json),
      List.Forall₂ (fun field v => valuesOf field.name members = v.toList) fields given ∧
      List.Forall₂ (fun field v => field.Tells v.toList a) fields given) ↔
    ∀ field ∈ fields, field.Tells (valuesOf field.name members) a := by
  -- A field that tells something occurs at most once, so that its values are those of an
  -- option.
  have one : ∀ field : Field α, field.Tells (valuesOf field.name members) a ↔
      ∃ v : Option Json, valuesOf field.name members = v.toList ∧ field.Tells v.toList a := by
    intro field
    constructor
    · intro h
      generalize valuesOf field.name members = values at h ⊢
      have short := field.once h
      match values with
      | [] => exact ⟨none, rfl, h⟩
      | [v] => exact ⟨some v, rfl, h⟩
      | _ :: _ :: _ => simp at short
    · rintro ⟨v, values, h⟩
      rwa [values]
  have both : ∀ given : List (Option Json),
      List.Forall₂ (fun field v => valuesOf field.name members = v.toList) fields given ∧
        List.Forall₂ (fun field v => field.Tells v.toList a) fields given ↔
      List.Forall₂ (fun field v => valuesOf field.name members = v.toList ∧
        field.Tells v.toList a) fields given := by
    intro given
    constructor
    · rintro ⟨values, tells⟩
      induction values with
      | nil => exact .nil
      | cons value _ ih =>
        obtain ⟨tell, tells⟩ := List.forall₂_cons.mp tells
        exact .cons ⟨value, tell⟩ (ih tells)
    · intro h
      exact ⟨h.imp fun _ _ h => h.1, h.imp fun _ _ h => h.2⟩
  simp only [both, exists_forall₂_iff, one]

namespace Decodes

variable (h : Decodes fields ofJson?)
include h

/-- An object stands for a record exactly if the values given under each known name tell
so. -/
theorem obj_iff {members : List (List Glyph × Json)} (named : Named members)
    (strict : ∀ m ∈ members, isStrict m.2 = true) {a : α} :
    ofJson? (.obj members) = some a ↔
      ∀ field ∈ fields, field.Tells (valuesOf field.name members) a := by
  have passes : ∀ m ∈ members,
      m.1 ∈ (fields.map Field.name).map glyphs ∨ isStrict m.2 = true :=
    fun m there => .inr (strict m there)
  rw [h, ← exists_given_iff]
  simp only [record?, fields?_obj_eq_some_iff, List.forall₂_map_left_iff]
  simp only [and_iff_right named, and_iff_right passes]

/-- Values with the same fields stand for the same record. -/
theorem congr {v w : Json}
    (same : v.record? (fields.map Field.name) = w.record? (fields.map Field.name)) :
    ofJson? v = ofJson? w := by
  ext a
  rw [h, h, same]

/-- What is no record of these fields is no value. -/
theorem eq_none {v : Json} (nothing : v.record? (fields.map Field.name) = none) :
    ofJson? v = none := by
  rw [Option.eq_none_iff_forall_ne_some]
  intro a read
  obtain ⟨given, found, -⟩ := (h v a).mp read
  rw [nothing] at found
  cases found

end Decodes

/-- Members with other names make no difference to the values of a known one. -/
theorem valuesOf_known {names : List (List Char)} {name : List Char} (there : name ∈ names)
    (members : List (List Glyph × Json)) :
    valuesOf name (known names members) = valuesOf name members := by
  have itself : ∀ m : List Glyph × Json,
      (decide (m.1 = glyphs name) && decide (m.1 ∈ names.map glyphs))
        = decide (m.1 = glyphs name) := by
    intro m
    by_cases same : m.1 = glyphs name
    · simp [same, glyphs_inj, there]
    · simp [same]
  rw [valuesOf, known, List.filter_filter]
  simp only [itself, valuesOf]

/-! ## Decoders of texts -/

/-- A text is a JSON object with these members. No string in it has a control character
that is not escaped. -/
structure IsObject (s : String) (members : List (List Glyph × Json)) : Prop where
  reads : parse? s = some (.obj members)
  strict : isStrict (.obj members) = true

/-- The values of an object that was read are passable. -/
theorem IsObject.strict_of_mem {s : String} {members : List (List Glyph × Json)}
    (h : IsObject s members) : ∀ m ∈ members, isStrict m.2 = true := by
  have strict : membersStrict members = true := h.strict
  clear h
  induction members with
  | nil => simp
  | cons m ms ih =>
    rw [membersStrict, Bool.and_eq_true, Bool.and_eq_true] at strict
    simpa [strict.1.2] using ih strict.2

/-- How a decoder of texts goes by the fields of a record.

- `taken`: an object with names that are text stands for a record exactly if every field
  is given as it should be;
- `object`: and it stands for the record that the values of the fields tell of;
- `known`: the order of the members makes no difference, nor do members with other names;
- `unnamed`: a name that is not text is refused;
- `array`: an array of a value for each field stands for what the object with these values
  does;
- `length`: an array of another length is refused. -/
structure ByFields (fields : List (Field α)) (decode? : String → Option α) : Prop where
  taken : ∀ s members, IsObject s members → Named members → ((∃ a, decode? s = some a) ↔
    ∀ field ∈ fields, field.Given (valuesOf field.name members))
  object : ∀ s members, IsObject s members → Named members → ∀ a, decode? s = some a ↔
    ∀ field ∈ fields, field.Tells (valuesOf field.name members) a
  known : ∀ s members, IsObject s members → Named members →
    ∀ s' members', IsObject s' members' → Named members' →
      (known (fields.map Field.name) members).Perm (known (fields.map Field.name) members') →
      decode? s' = decode? s
  unnamed : ∀ s members, IsObject s members → ¬ Named members → decode? s = none
  array : ∀ s items, parse? s = some (.arr items) → items.length = fields.length →
    ∀ s', parse? s' = some (.obj (((fields.map Field.name).map glyphs).zip items)) →
      decode? s = decode? s'
  length : ∀ s items, parse? s = some (.arr items) → items.length ≠ fields.length →
    decode? s = none

/-- A decoder that asks its fields, which do not depend on each other, goes by them alone. -/
theorem byFields_of_decodes (h : Decodes fields ofJson?) (independent : Independent fields)
    (distinct : (fields.map Field.name).Nodup) {decode? : String → Option α}
    (decodes : ∀ s, decode? s = (parse? s).bind ofJson?) : ByFields fields decode? := by
  have read : ∀ {s v}, parse? s = some v → decode? s = ofJson? v := by
    intro s v reads
    rw [decodes, reads, Option.bind_some]
  -- An object is read by its fields, each by the values that are given for it. All the
  -- clauses about objects follow from this.
  have object : ∀ s members, IsObject s members → Named members → ∀ a, decode? s = some a ↔
      ∀ field ∈ fields, field.Tells (valuesOf field.name members) a := by
    intro s members isObject named a
    rw [read isObject.reads, h.obj_iff named isObject.strict_of_mem]
  refine ⟨?_, object, ?_, ?_, ?_, ?_⟩
  · intro s members isObject named
    simp only [object s members isObject named]
    constructor
    · rintro ⟨a, tells⟩ field there
      exact ⟨a, tells field there⟩
    · exact independent fun name => valuesOf name members
  · intro s members isObject named s' members' isObject' named' same
    -- The order of members may only matter to members of one name, and those are not
    -- allowed.
    have values : ∀ field ∈ fields,
        (valuesOf field.name members).Perm (valuesOf field.name members') := by
      intro field there
      have name : field.name ∈ fields.map Field.name := List.mem_map_of_mem there
      rw [← valuesOf_known name members, ← valuesOf_known name members']
      exact (same.filter _).map _
    ext a
    rw [object s' members' isObject' named', object s members isObject named]
    constructor
    · exact fun tells field there => field.tells_perm (values field there).symm (tells field there)
    · exact fun tells field there => field.tells_perm (values field there) (tells field there)
  · intro s members isObject unnamed
    rw [read isObject.reads]
    refine h.eq_none (Option.eq_none_iff_forall_ne_some.mpr fun given found => ?_)
    exact unnamed (fields?_obj_eq_some_iff.mp found).1
  · intro s items reads length s' reads'
    rw [read reads, read reads']
    exact h.congr (fields?_zip distinct (by simpa using length)).symm
  · intro s items reads length
    rw [read reads]
    refine h.eq_none (Option.eq_none_iff_forall_ne_some.mpr fun given found => ?_)
    exact length (by simpa using (fields?_arr_eq_some_iff.mp found).1)

end Decodes

end Netsieve.Json
