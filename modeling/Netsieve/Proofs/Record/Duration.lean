import Netsieve.Proofs.Duration
import Netsieve.Proofs.Record.RoundTrip

/-!
# `Netsieve.Proofs.Record.Duration`: durations and latency settings as JSON

A duration is a closed record: it has its two fields and no other. So there are few ways to
write one, an object with the two members in either order or an array of the two values
(`Gives`). The nanoseconds may be a second or more, up to what their word holds. They are
carried into the seconds, which may need more than their word then.

* `Gives.fields?`, `gives_of_closedRecord?`: a closed record with all its fields gives each of
  them once, and nothing else.
* `Duration.ofJson?_eq_some_iff`: what is read as a duration, and as which.
* `Duration.carries`: two numbers are a duration of that length, if there is one.
* `Latency.decode?_carries`: so settings are read back, and are what they give.
-/

set_option autoImplicit false

namespace Netsieve

namespace Json

/-! ## Records without other members -/

/-- A record is given by these fields and no other: in an object in whatever order, or in an
array in theirs. -/
inductive Gives (fields : List (List Char × Json)) : Json → Prop where
  | object {members : List (List Glyph × Json)}
      (order : members.Perm (fields.map fun field => (glyphs field.1, field.2))) :
      Gives fields (.obj members)
  | array : Gives fields (.arr (fields.map (·.2)))

/-- The order of the members does not matter for which values a name has. -/
theorem valuesOf_perm {members members' : List (List Glyph × Json)} (h : members.Perm members')
    (name : List Char) : (valuesOf name members).Perm (valuesOf name members') :=
  (h.filter _).map _

/-- If a name has one value, there is one member of that name. -/
theorem filter_of_valuesOf {name : List Char} {members : List (List Glyph × Json)} {v : Json}
    (h : valuesOf name members = [v]) :
    members.filter (·.1 = glyphs name) = [(glyphs name, v)] := by
  obtain ⟨m, only, rfl⟩ := List.map_eq_singleton_iff.mp h
  have there : m ∈ members.filter (·.1 = glyphs name) := only ▸ List.mem_singleton_self m
  have same : m.1 = glyphs name := of_decide_eq_true (List.mem_filter.mp there).2
  rw [only, ← same]

/-- Members that have known names only, and each of these once, are the known members in some
order. -/
theorem perm_of_valuesOf {fields : List (List Char × Json)} {members : List (List Glyph × Json)}
    (distinct : (fields.map (·.1)).Nodup)
    (known : ∀ m ∈ members, m.1 ∈ (fields.map (·.1)).map glyphs)
    (values : ∀ field ∈ fields, valuesOf field.1 members = [field.2]) :
    members.Perm (fields.map fun field => (glyphs field.1, field.2)) := by
  induction fields generalizing members with
  | nil => rw [List.eq_nil_iff_forall_not_mem.mpr fun m there => nomatch known m there]; rfl
  | cons field rest ih =>
    obtain ⟨fresh, distinct⟩ := List.nodup_cons.mp distinct
    -- The members of the first name are taken out, and the others have the names that are left.
    have first := filter_of_valuesOf (values field List.mem_cons_self)
    have others : (members.filter fun m => !decide (m.1 = glyphs field.1)).Perm
        (rest.map fun field => (glyphs field.1, field.2)) := by
      refine ih distinct (fun m there => ?_) fun other there => ?_
      · obtain ⟨there, different⟩ := List.mem_filter.mp there
        rcases List.mem_cons.mp (known m there) with same | later
        · simp [same] at different
        · exact later
      · have different : glyphs other.1 ≠ glyphs field.1 := fun same =>
          fresh (List.mem_map.mpr ⟨other, there, glyphs_inj.mp same⟩)
        rw [← values other (List.mem_cons_of_mem _ there), valuesOf, List.filter_filter, valuesOf]
        refine congrArg _ (List.filter_congr fun m _ => ?_)
        by_cases same : m.1 = glyphs other.1
        · simp [same, different]
        · simp [same]
    have whole := (List.filter_append_perm (fun m => decide (m.1 = glyphs field.1)) members).symm
    rw [first] at whole
    exact whole.trans (others.cons _)

/-- Among members with distinct names each name has its value. -/
theorem valuesOf_map {fields : List (List Char × Json)} (distinct : (fields.map (·.1)).Nodup) :
    ∀ field ∈ fields,
      valuesOf field.1 (fields.map fun field => (glyphs field.1, field.2)) = [field.2] := by
  have zipped : ((fields.map (·.1)).map glyphs).zip (fields.map (·.2))
      = fields.map fun field => (glyphs field.1, field.2) := by
    rw [List.map_map, List.zip_map']
    rfl
  have length : (fields.map (·.2)).length = (fields.map (·.1)).length := by simp
  have values := valuesOf_zip distinct length
  rwa [zipped, List.map_map, List.forall₂_map_left_iff, List.forall₂_map_right_iff,
    List.forall₂_same] at values

/-- A record that is given by its fields is read as their values. -/
theorem Gives.fields? {fields : List (List Char × Json)} {v : Json} (h : Gives fields v)
    (distinct : (fields.map (·.1)).Nodup) (passable : Json → Bool) :
    v.fields? passable (fields.map (·.1)) = some (fields.map fun field => some field.2) := by
  cases h with
  | array =>
    refine fields?_arr_eq_some_iff.mpr ⟨by simp, ?_⟩
    rw [List.map_map]
    rfl
  -- The members are the fields in another order, and no name occurs twice.
  | @object members order =>
    have known : ∀ m ∈ members, ∃ field ∈ fields, (glyphs field.1, field.2) = m :=
      fun m there => List.mem_map.mp (order.mem_iff.mp there)
    refine fields?_obj_eq_some_iff.mpr ⟨fun m there => ?_, fun m there => .inl ?_, ?_⟩
    · obtain ⟨field, -, rfl⟩ := known m there
      exact ⟨field.1, rfl⟩
    · obtain ⟨field, given, rfl⟩ := known m there
      exact List.mem_map_of_mem (List.mem_map_of_mem given)
    · rw [List.forall₂_map_left_iff, List.forall₂_map_right_iff, List.forall₂_same]
      intro field given
      have same := valuesOf_perm order field.1
      rw [valuesOf_map distinct field given] at same
      exact List.perm_singleton.mp same

/-- A closed record with all its fields gives each of them once, and nothing else. -/
theorem gives_of_closedRecord? {fields : List (List Char × Json)} {v : Json}
    (distinct : (fields.map (·.1)).Nodup)
    (h : v.closedRecord? (fields.map (·.1)) = some (fields.map fun field => some field.2)) :
    Gives fields v := by
  cases v with
  | arr items =>
    obtain ⟨-, same⟩ := fields?_arr_eq_some_iff.mp h
    have items_eq : fields.map (·.2) = items :=
      List.map_injective_iff.mpr (fun _ _ => Option.some.inj) ((List.map_map).trans same)
    exact items_eq ▸ .array
  | obj members =>
    obtain ⟨-, known, values⟩ := fields?_obj_eq_some_iff.mp h
    rw [List.forall₂_map_left_iff, List.forall₂_map_right_iff, List.forall₂_same] at values
    exact .object (perm_of_valuesOf distinct
      (fun m there => (known m there).resolve_right Bool.false_ne_true) values)
  | null | bool _ | num _ | str _ => cases h

/-! ## Numbers that fit their words -/

/-- A number that is accepted stays below the limit. -/
theorem nat?_lt {limit n : Nat} {v : Json} (h : v.nat? limit = some n) : n < limit := by
  unfold nat? at h
  split at h
  · split at h
    · next small =>
      split at h
      · next fits =>
        cases h
        exact fits
      · cases h
    · cases h
  · cases h

/-- Every number of 64 bits is accepted where one is wanted, and nothing else. -/
theorem uint64?_eq_some_iff {v : Json} {n : UInt64} :
    v.uint64? = some n ↔ v.nat? (2 ^ 64) = some n.toNat := by
  rw [uint64?, Option.map_eq_some_iff]
  constructor
  · rintro ⟨m, read, rfl⟩
    rw [UInt64.toNat_ofNat', Nat.mod_eq_of_lt (nat?_lt read)]
    exact read
  · exact fun read => ⟨n.toNat, read, UInt64.ofNat_toNat⟩

/-- Every number of 32 bits is accepted where one is wanted, and nothing else. -/
theorem uint32?_eq_some_iff {v : Json} {n : UInt32} :
    v.uint32? = some n ↔ v.nat? (2 ^ 32) = some n.toNat := by
  rw [uint32?, Option.map_eq_some_iff]
  constructor
  · rintro ⟨m, read, rfl⟩
    rw [UInt32.toNat_ofNat', Nat.mod_eq_of_lt (nat?_lt read)]
    exact read
  · exact fun read => ⟨n.toNat, read, UInt32.ofNat_toNat⟩

end Json

/-! ## Durations -/

namespace Duration

open Json (Gives ofNat)

/-- The fields of a duration, with values. -/
def fieldsWith (secs nanos : Json) : List (List Char × Json) :=
  [("secs".toList, secs), ("nanos".toList, nanos)]

/-- The two fields of a duration have different names. -/
theorem nodup_fieldsWith (secs nanos : Json) :
    ((fieldsWith secs nanos).map (·.1)).Nodup := by
  show fieldNames.Nodup
  decide

/-- Two numbers that fit their words are read as the duration with these parts, if there is
one. -/
theorem ofJson?_of_gives {secs nanos v : Json} {s n : Nat} (h : Gives (fieldsWith secs nanos) v)
    (hsecs : secs.nat? (2 ^ 64) = some s) (hnanos : nanos.nat? (2 ^ 32) = some n) :
    ofJson? v = ofParts? s n := by
  have read : v.closedRecord? fieldNames = some [some secs, some nanos] :=
    h.fields? (nodup_fieldsWith secs nanos) _
  have small : s % 2 ^ 64 = s := Nat.mod_eq_of_lt (Json.nat?_lt hsecs)
  have little : n % 2 ^ 32 = n := Nat.mod_eq_of_lt (Json.nat?_lt hnanos)
  have secs64 : secs.uint64? = some (UInt64.ofNat s) := by
    rw [Json.uint64?_eq_some_iff, UInt64.toNat_ofNat', small, hsecs]
  have nanos32 : nanos.uint32? = some (UInt32.ofNat n) := by
    rw [Json.uint32?_eq_some_iff, UInt32.toNat_ofNat', little, hnanos]
  simp only [ofJson?, read, Json.required?, secs64, nanos32]
  rw [UInt64.toNat_ofNat', UInt32.toNat_ofNat', small, little]

/-- What is read as a duration is a record of its fields and no others, the values of which
are numbers that fit their words. -/
theorem ofJson?_eq_some_iff {v : Json} {d : Duration} :
    ofJson? v = some d ↔ ∃ secs nanos s n, Gives (fieldsWith secs nanos) v ∧
      secs.nat? (2 ^ 64) = some s ∧ nanos.nat? (2 ^ 32) = some n ∧
      d.toNanos = s * 1000000000 + n := by
  constructor
  · intro h
    unfold ofJson? at h
    split at h
    · next secs nanos found =>
      split at h
      · next s n hsecs hnanos =>
        cases secs with
        | none => cases hsecs
        | some secs =>
          cases nanos with
          | none => cases hnanos
          | some nanos =>
            exact ⟨secs, nanos, _, _,
              Json.gives_of_closedRecord? (nodup_fieldsWith secs nanos) found,
              Json.uint64?_eq_some_iff.mp hsecs, Json.uint32?_eq_some_iff.mp hnanos,
              toNanos_of_ofParts? h⟩
      · cases h
    · cases h
  · rintro ⟨secs, nanos, s, n, gives, hsecs, hnanos, length⟩
    rw [ofJson?_of_gives gives hsecs hnanos, ofParts?_eq_some_iff, length]

/-- An object with a member that is missing, repeated or unknown is not read as a duration. -/
theorem ofJson?_obj_eq_none {members : List (List Json.Glyph × Json)}
    (other : ¬ (members.map (·.1)).Perm (fieldNames.map Json.glyphs)) :
    ofJson? (.obj members) = none := by
  refine Option.eq_none_iff_forall_ne_some.mpr fun d read => other ?_
  obtain ⟨secs, nanos, -, -, gives, -⟩ := ofJson?_eq_some_iff.mp read
  cases gives with
  | object order => exact order.map _

/-- How a duration is read that is given by seconds and nanoseconds.

- `fits`: it has exactly that length, and less than a second in its nanoseconds;
- `refused`: it is refused exactly if it would need more than 64 bits for its seconds. -/
structure Carries (s n : Nat) (read : Option Duration) : Prop where
  fits : s + n / 1000000000 < 2 ^ 64 → ∃ d, read = some d ∧ d.toNanos = s * 1000000000 + n ∧
    d.secs.toNat = s + n / 1000000000 ∧ d.nanos.toNat = n % 1000000000
  refused : read = none ↔ 2 ^ 64 ≤ s + n / 1000000000

/-- Putting a duration together carries whole seconds out of the nanoseconds, and refuses
only what is then too long. -/
theorem carries_ofParts? (s n : Nat) : Carries s n (ofParts? s n) where
  fits small := by
    cases parts : ofParts? s n with
    | none => exact absurd (ofParts?_eq_none_iff.mp parts) (Nat.not_le_of_lt small)
    | some d =>
      have length := toNanos_of_ofParts? parts
      refine ⟨d, rfl, length, ?_, ?_⟩
      · rw [toNat_secs, length]
        omega
      · rw [toNat_nanos, length]
        omega
  refused := ofParts?_eq_none_iff

/-- Two numbers are a duration of that length, if there is one. -/
theorem carries {s n : Nat} {v : Json} (small : s < 2 ^ 64) (little : n < 2 ^ 32)
    (h : Gives (fieldsWith (ofNat s) (ofNat n)) v) : Carries s n (ofJson? v) := by
  rw [ofJson?_of_gives h (Json.nat?_ofNat small) (Json.nat?_ofNat little)]
  exact carries_ofParts? s n

/-- What is written for a duration gives each of its two fields. -/
theorem gives_toJson (d : Duration) :
    Gives (fieldsWith (ofNat d.secs.toNat) (ofNat d.nanos.toNat)) d.toJson :=
  .object (.refl _)

/-- Durations are written with what they are read from. -/
theorem roundTrips : Json.RoundTrips toJson ofJson? where
  plain d := Json.plain_object fun m there => by
    rcases List.mem_pair.mp there with rfl | rfl
    · exact Json.plain_ofNat _
    · exact Json.plain_ofNat _
  back d := by
    rw [ofJson?_of_gives d.gives_toJson (Json.nat?_ofNat d.secs.toNat_lt)
      (Json.nat?_ofNat d.nanos.toNat_lt), ofParts?_eq_some_iff]
    rfl

end Duration

/-! ## Latency settings -/

namespace Latency

open Json (Gives ofNat)

/-- The fields of latency settings, with values. -/
def fieldsWith (base most : Json) : List (List Char × Json) :=
  [("base_latency".toList, base), ("max_filter_delay".toList, most)]

/-- A duration is read back from what is written for it. -/
theorem roundTrips : Json.RoundTrips toJson ofJson? :=
  decodes.roundTrips (by decide) fun l =>
    .cons (Json.Field.writes_required Duration.roundTrips "base_latency" _ l) <|
    .cons (Json.Field.writes_required Duration.roundTrips "max_filter_delay" _ l) .nil

/-- Settings are read if both values are read as durations. -/
theorem ofJson?_of_gives {base most v : Json} (h : Gives (fieldsWith base most) v) (l : Latency) :
    ofJson? v = some l ↔
      Duration.ofJson? base = some l.base ∧ Duration.ofJson? most = some l.maxRuleDelay := by
  have distinct : ((fieldsWith base most).map (·.1)).Nodup := by
    show fieldNames.Nodup
    decide
  have read : v.record? fieldNames = some [some base, some most] := h.fields? distinct _
  cases l
  simp only [ofJson?, read, Json.required?, Option.bind_eq_bind, Option.bind_eq_some_iff,
    Option.some.injEq, mk.injEq]
  constructor
  · rintro ⟨_, hbase, _, hmost, rfl, rfl⟩
    exact ⟨hbase, hmost⟩
  · rintro ⟨hbase, hmost⟩
    exact ⟨_, hbase, _, hmost, rfl, rfl⟩

/-- Latency settings are read back, and durations in them are what their numbers say.

Every setting is read back from its text, with any two durations, and so are settings that
were read from any text and written again. A text that gives both fields, in an object in
either order or in an array, and no others stands for settings exactly if both values stand for
their durations. Seconds of 64 bits and nanoseconds of 32 bits, again in an object in
either order or in an array, stand for the duration of exactly that length, with less than a
second in its nanoseconds; they are refused exactly if the seconds do not fit their word when
the nanoseconds are carried. No object is a duration in which one of the two members is missing
or repeated, or which has another one. -/
theorem decode?_carries :
    (∀ l : Latency, decode? l.encode = some l) ∧
    (∀ text l, decode? text = some l → decode? l.encode = decode? text) ∧
    (∀ text v base most, Json.parse? text = some v → Gives (fieldsWith base most) v →
      ∀ l, decode? text = some l ↔
        Duration.ofJson? base = some l.base ∧ Duration.ofJson? most = some l.maxRuleDelay) ∧
    (∀ s n v, s < 2 ^ 64 → n < 2 ^ 32 → Gives (Duration.fieldsWith (ofNat s) (ofNat n)) v →
      Duration.Carries s n (Duration.ofJson? v)) ∧
    ∀ members : List (List Json.Glyph × Json),
      ¬ (members.map (·.1)).Perm (Duration.fieldNames.map Json.glyphs) →
      Duration.ofJson? (.obj members) = none := by
  refine ⟨roundTrips.parse, fun text l read => ?_, fun text v base most reads gives l => ?_,
    fun s n v => Duration.carries, fun members => Duration.ofJson?_obj_eq_none⟩
  · rw [read]
    exact roundTrips.parse l
  · rw [decode?, reads, Option.bind_some]
    exact ofJson?_of_gives gives l

end Latency

/-! ## At the top of the range -/

namespace Carried

open Json (Gives Plain ofNat)

/-- A duration with its members the other way round, and with more than four seconds in its
nanoseconds. -/
def value (secs : Nat) : Json :=
  Json.object [("nanos", ofNat 4294967295), ("secs", ofNat secs)]

/-- The greatest duration, as an array. -/
def most : Json :=
  .arr [ofNat 18446744073709551615, ofNat 999999999]

/-- Settings with their members the other way round. -/
def settings (secs : Nat) : Json :=
  Json.object [("max_filter_delay", most), ("base_latency", value secs)]

/-- The settings have a text, whatever their seconds are. -/
theorem plain_settings (secs : Nat) : Plain (settings secs) := by
  refine Json.plain_object (List.forall_mem_cons.mpr ⟨?_, List.forall_mem_singleton.mpr ?_⟩)
  · refine .arr (List.forall_mem_cons.mpr ⟨Json.plain_ofNat _, ?_⟩)
    exact List.forall_mem_singleton.mpr (Json.plain_ofNat _)
  · refine Json.plain_object (List.forall_mem_cons.mpr ⟨Json.plain_ofNat _, ?_⟩)
    exact List.forall_mem_singleton.mpr (Json.plain_ofNat _)

/-- Four seconds are carried where they just fit. One second more, and they are refused. -/
theorem decode?_carries_four :
    (settings 18446744073709551611).toString
      = "\x7b\"max_filter_delay\":[18446744073709551615,999999999],\"base_latency\":" ++
        "\x7b\"nanos\":4294967295,\"secs\":18446744073709551611\x7d\x7d" ∧
    (∃ l, Latency.decode? (settings 18446744073709551611).toString = some l ∧
      l.base.toNanos = 18446744073709551615294967295 ∧ l.maxRuleDelay = .max ∧
      Latency.decode? l.encode = some l) ∧
    Latency.decode? (settings 18446744073709551612).toString = none := by
  obtain ⟨back, -, read, durations, -⟩ := Latency.decode?_carries
  -- The two members may be swapped, and so may the parts of the first duration.
  have given : ∀ secs l, Latency.decode? (settings secs).toString = some l ↔
      Duration.ofJson? (value secs) = some l.base ∧
      Duration.ofJson? most = some l.maxRuleDelay := fun secs =>
    read _ _ _ _ (Json.parse?_toString (plain_settings secs)) (.object (.swap _ _ _))
  have base : ∀ secs, secs < 2 ^ 64 → Duration.Carries secs 4294967295
      (Duration.ofJson? (value secs)) := fun secs small =>
    durations secs 4294967295 _ small (by decide) (.object (.swap _ _ _))
  obtain ⟨d, hd, length, -⟩ := (base 18446744073709551611 (by decide)).fits (by decide)
  obtain ⟨d', hd', length', -⟩ := (durations 18446744073709551615 999999999 most (by decide)
    (by decide) .array).fits (by decide)
  -- The greatest duration is the only one of its length.
  have limit : d' = .max := Duration.eq_of_toNanos_eq (length'.trans (by decide))
  refine ⟨by decide +kernel, ⟨⟨d, d'⟩, (given _ _).mpr ⟨hd, hd'⟩, length, limit, back _⟩, ?_⟩
  refine Option.eq_none_iff_forall_ne_some.mpr fun l accepted => ?_
  rw [given, (base 18446744073709551612 (by decide)).refused.mpr (by decide)] at accepted
  cases accepted.1

end Carried

end Netsieve
