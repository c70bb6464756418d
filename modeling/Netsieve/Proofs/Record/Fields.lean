import Netsieve.Endpoint.Codec
import Netsieve.Message.Codec
import Netsieve.Network.Latency
import Netsieve.Proofs.Json.Fields
import Netsieve.Rule.Description

/-!
# `Netsieve.Proofs.Record.Fields`: the fields of the records that are read from JSON

Endpoints, messages, latency settings and descriptions of rules are records. For each of them
`fields` lists what can be given, under which name, and which part of the record that is; and
the decoder goes by these fields (`decodes`).

* `decode?_byFields`: so it takes an object exactly if each field is given as it should be.
  In which order that is done, and what else the object has, makes no difference.
* `refused_for_half_a_pair`: but the names of all members have to be text.
-/

set_option autoImplicit false

namespace Netsieve

open Json (Decodes Independent ByFields IsObject Named valuesOf)

namespace Endpoint

/-- The fields of an endpoint. -/
def fields : List (Json.Field Endpoint) :=
  [.required "address" Ip.ofJson? (·.ip), .required "port" Json.uint16? (·.port)]

/-- An endpoint is read field by field. -/
theorem decodes : Decodes fields ofJson? := by
  intro v e
  have names : fields.map Json.Field.name = fieldNames := rfl
  rw [names]
  constructor
  · -- Whatever is decoded, the fields tell the values that have been read.
    intro h
    unfold ofJson? at h
    split at h
    · next ip port found =>
      split at h
      · next ip' port' hip hport =>
        cases h
        exact ⟨_, found, by simp [fields, Json.Field.tells_required_iff, hip, hport]⟩
      · cases h
    · cases h
  · rintro ⟨given, found, tells⟩
    simp only [fields, List.forall₂_cons_left_iff, List.forall₂_nil_left_iff,
      Json.Field.tells_required_iff] at tells
    obtain ⟨ip, _, hip, ⟨port, _, hport, rfl, rfl⟩, rfl⟩ := tells
    simp [ofJson?, found, hip, hport]

/-- The address and the port of an endpoint do not depend on each other. -/
theorem independent : Independent fields := by
  intro values h
  simp only [fields, List.forall_mem_cons] at h ⊢
  obtain ⟨⟨e, hip⟩, ⟨e', hport⟩, -⟩ := h
  exact ⟨⟨e.ip, e'.port⟩, hip, hport, by simp⟩

end Endpoint

namespace Message

/-- The fields of a message. -/
def fields : List (Json.Field Message) :=
  [.required "verb" Json.uint32? (·.verb), .required "bytes" Json.bytes? (·.payload),
    .required "id" Json.uint64? (·.id), .required "version" Json.uint32? (·.version),
    .optional "from" Endpoint.ofJson? (·.origin),
    .required "from_port" Json.uint16? (·.fromPort)]

/-- A message is read field by field. -/
theorem decodes : Decodes fields ofJson? := by
  intro v m
  have names : fields.map Json.Field.name = fieldNames := rfl
  rw [names]
  constructor
  · -- Whatever is decoded, the fields tell the values that have been read.
    intro h
    unfold ofJson? at h
    split at h
    · next verb payload id version origin fromPort found =>
      simp only [Option.bind_eq_bind, Option.bind_eq_some_iff, Option.some.injEq] at h
      obtain ⟨_, hverb, _, hpayload, _, hid, _, hversion, _, horigin, _, hport, rfl⟩ := h
      exact ⟨_, found, by
        simp [fields, Json.Field.tells_required_iff, Json.Field.tells_optional_iff, hverb, hpayload,
          hid, hversion, horigin, hport]⟩
    · cases h
  · rintro ⟨given, found, tells⟩
    simp only [fields, List.forall₂_cons_left_iff, List.forall₂_nil_left_iff,
      Json.Field.tells_required_iff, Json.Field.tells_optional_iff] at tells
    obtain ⟨_, _, hverb, ⟨_, _, hpayload, ⟨_, _, hid, ⟨_, _, hversion, ⟨_, _, horigin,
      ⟨_, _, hport, rfl, rfl⟩, rfl⟩, rfl⟩, rfl⟩, rfl⟩, rfl⟩ := tells
    simp [ofJson?, found, hverb, hpayload, hid, hversion, horigin, hport]

/-- The six fields of a message do not depend on each other. -/
theorem independent : Independent fields := by
  intro values h
  simp only [fields, List.forall_mem_cons] at h ⊢
  obtain ⟨⟨m₁, hverb⟩, ⟨m₂, hpayload⟩, ⟨m₃, hid⟩, ⟨m₄, hversion⟩, ⟨m₅, horigin⟩,
    ⟨m₆, hport⟩, -⟩ := h
  exact ⟨⟨m₁.verb, m₂.payload, m₃.id, m₄.version, m₅.origin, m₆.fromPort⟩, hverb, hpayload, hid,
    hversion, horigin, hport, by simp⟩

end Message

namespace Latency

/-- The fields of latency settings. -/
def fields : List (Json.Field Latency) :=
  [.required "base_latency" Duration.ofJson? (·.base),
    .required "max_filter_delay" Duration.ofJson? (·.maxRuleDelay)]

/-- Latency settings are read field by field. -/
theorem decodes : Decodes fields ofJson? := by
  intro v l
  have names : fields.map Json.Field.name = fieldNames := rfl
  rw [names]
  constructor
  · intro h
    unfold ofJson? at h
    split at h
    · next base most found =>
      simp only [Option.bind_eq_bind, Option.bind_eq_some_iff, Option.some.injEq] at h
      obtain ⟨_, hbase, _, hmost, rfl⟩ := h
      exact ⟨_, found, by simp [fields, Json.Field.tells_required_iff, hbase, hmost]⟩
    · cases h
  · rintro ⟨given, found, tells⟩
    simp only [fields, List.forall₂_cons_left_iff, List.forall₂_nil_left_iff,
      Json.Field.tells_required_iff] at tells
    obtain ⟨_, _, hbase, ⟨_, _, hmost, rfl, rfl⟩, rfl⟩ := tells
    simp [ofJson?, found, hbase, hmost]

/-- The two durations do not depend on each other. -/
theorem independent : Independent fields := by
  intro values h
  simp only [fields, List.forall_mem_cons] at h ⊢
  obtain ⟨⟨l, hbase⟩, ⟨l', hmost⟩, -⟩ := h
  exact ⟨⟨l.base, l'.maxRuleDelay⟩, hbase, hmost, by simp⟩

end Latency

namespace Description

/-- The fields of a description. -/
def fields : List (Json.Field Description) :=
  [.required "id" Json.uint64? (·.id), .required "direction" Direction.ofJson? (·.direction),
    .optional "verbs" (Json.list? Json.uint32?) (·.verbs),
    .optional "from" (Json.list? Json.uint32?) (·.senders),
    .optional "to" (Json.list? Json.uint32?) (·.receivers),
    .required "content_predicate" Json.bool? (·.hasContent),
    .required "action" ActionSummary.ofJson? (·.action),
    .required "enabled" Json.bool? (·.enabled)]

/-- A description is read field by field. -/
theorem decodes : Decodes fields ofJson? := by
  intro v d
  have names : fields.map Json.Field.name = fieldNames := rfl
  rw [names]
  constructor
  · intro h
    unfold ofJson? at h
    split at h
    · next id direction verbs senders receivers hasContent action enabled found =>
      simp only [Option.bind_eq_bind, Option.bind_eq_some_iff, Option.some.injEq] at h
      obtain ⟨_, hid, _, hdirection, _, hverbs, _, hsenders, _, hreceivers, _, hcontent, _,
        haction, _, henabled, rfl⟩ := h
      exact ⟨_, found, by
        simp [fields, Json.Field.tells_required_iff, Json.Field.tells_optional_iff, hid, hdirection,
          hverbs, hsenders, hreceivers, hcontent, haction, henabled]⟩
    · cases h
  · rintro ⟨given, found, tells⟩
    simp only [fields, List.forall₂_cons_left_iff, List.forall₂_nil_left_iff,
      Json.Field.tells_required_iff, Json.Field.tells_optional_iff] at tells
    obtain ⟨_, _, hid, ⟨_, _, hdirection, ⟨_, _, hverbs, ⟨_, _, hsenders, ⟨_, _, hreceivers,
      ⟨_, _, hcontent, ⟨_, _, haction, ⟨_, _, henabled, rfl, rfl⟩, rfl⟩, rfl⟩, rfl⟩, rfl⟩, rfl⟩,
      rfl⟩, rfl⟩ := tells
    simp [ofJson?, found, hid, hdirection, hverbs, hsenders, hreceivers, hcontent, haction,
      henabled]

/-- The eight fields of a description do not depend on each other. -/
theorem independent : Independent fields := by
  intro values h
  simp only [fields, List.forall_mem_cons] at h ⊢
  obtain ⟨⟨d₁, hid⟩, ⟨d₂, hdirection⟩, ⟨d₃, hverbs⟩, ⟨d₄, hsenders⟩, ⟨d₅, hreceivers⟩,
    ⟨d₆, hcontent⟩, ⟨d₇, haction⟩, ⟨d₈, henabled⟩, -⟩ := h
  exact ⟨⟨d₁.id, d₂.direction, d₃.verbs, d₄.senders, d₅.receivers, d₆.hasContent, d₇.action,
    d₈.enabled⟩, hid, hdirection, hverbs, hsenders, hreceivers, hcontent, haction, henabled,
    by simp⟩

end Description

/-- Endpoints, messages, latency settings and descriptions are read by their fields.

An object whose names are text stands for a record exactly if every field that has to be
given is given once, with a value that can be read, and every other field is given at most
once, with null or such a value; not to be given is the same as null. The parts of the record
are then the values of these fields. The order of the members makes no difference, and neither
do members with other names, however many there are, whatever they are called and whatever
values they have. An array of one value for each field, in order, stands for what the object
with these values does, and no other array stands for anything. -/
theorem decode?_byFields :
    ByFields Endpoint.fields Endpoint.decode? ∧ ByFields Message.fields Message.decode? ∧
    ByFields Latency.fields Latency.decode? ∧ ByFields Description.fields Description.decode? :=
  ⟨Json.byFields_of_decodes Endpoint.decodes Endpoint.independent (by decide) fun _ => rfl,
    Json.byFields_of_decodes Message.decodes Message.independent (by decide) fun _ => rfl,
    Json.byFields_of_decodes Latency.decodes Latency.independent (by decide) fun _ => rfl,
    Json.byFields_of_decodes Description.decodes Description.independent (by decide) fun _ => rfl⟩

/-! ## Two objects and an array for one endpoint -/

namespace Jumbled

/-- An endpoint. -/
def endpoint : Endpoint := ⟨.v6 ⟨[0, 0, 0, 0, 0, 0, 0, 1], rfl⟩, 5⟩

/-- The values of its fields. -/
def values : List Json :=
  [.ofText "::1".toList, .num "5".toList]

/-- Its fields in their order. -/
def plain : List (List Json.Glyph × Json) :=
  [(Json.glyphs "address".toList, .ofText "::1".toList),
    (Json.glyphs "port".toList, .num "5".toList)]

/-- Its fields in another order, and members with other names that are repeated and have known
names inside. -/
def jumbled : List (List Json.Glyph × Json) :=
  [(Json.glyphs "note".toList, .arr [.obj [(Json.glyphs "port".toList, .num "-1.5e3".toList)]]),
    (Json.glyphs "port".toList, .num "5".toList), (Json.glyphs "note".toList, .null),
    (Json.glyphs "address".toList, .ofText "::1".toList)]

/-- The fields, and a member whose name is half of a surrogate pair. -/
def halved : List (List Json.Glyph × Json) :=
  [(Json.glyphs "address".toList, .ofText "::1".toList), ([.half 0xd800], .null),
    (Json.glyphs "port".toList, .num "5".toList)]

/-- The plain members are those of this text. -/
theorem isObject_plain : IsObject "\x7b\"address\":\"::1\",\"port\":5\x7d" plain :=
  ⟨rfl, rfl⟩

/-- The jumbled members are those of this text, in which an escape stands for a letter. -/
theorem isObject_jumbled :
    IsObject ("\x7b\"note\":[\x7b\"port\":-1.5e3\x7d],\"po\\u0072t\":5 ," ++
      "\"note\":null,\"address\":\"::1\"\x7d") jumbled :=
  ⟨rfl, rfl⟩

/-- The member with half a surrogate pair in its name is one of this text. -/
theorem isObject_halved :
    IsObject "\x7b\"address\":\"::1\",\"\\ud800\":null,\"port\":5\x7d" halved :=
  ⟨rfl, rfl⟩

/-- The plain members have names that are text. -/
theorem named_plain : Named plain :=
  Json.named_iff.mpr ⟨_, rfl⟩

/-- The jumbled members have names that are text. -/
theorem named_jumbled : Named jumbled :=
  Json.named_iff.mpr ⟨_, rfl⟩

/-- The plain object and the jumbled one stand for the endpoint, and so does the array. -/
theorem read_alike :
    Endpoint.decode? "\x7b\"address\":\"::1\",\"port\":5\x7d" = some endpoint ∧
    Endpoint.decode? ("\x7b\"note\":[\x7b\"port\":-1.5e3\x7d],\"po\\u0072t\":5 ," ++
      "\"note\":null,\"address\":\"::1\"\x7d") = some endpoint ∧
    Endpoint.decode? "[\"::1\", 5]" = some endpoint := by
  have byFields := decode?_byFields.1
  have tells : ∀ field ∈ Endpoint.fields,
      field.Tells (valuesOf field.name plain) endpoint := by
    simp only [Endpoint.fields, List.forall_mem_cons]
    exact ⟨⟨_, rfl, rfl⟩, ⟨_, rfl, rfl⟩, by simp⟩
  have first := (byFields.object _ _ isObject_plain named_plain endpoint).mpr tells
  have same := byFields.known _ _ isObject_plain named_plain _ _ isObject_jumbled named_jumbled
    (List.Perm.swap _ _ _)
  have array := byFields.array "[\"::1\", 5]" values rfl rfl _ isObject_plain.reads
  exact ⟨first, same.trans first, array.trans first⟩

/-- The object with the half of a surrogate pair gives each field of the endpoint as the plain
object does, but it is refused. -/
theorem refused_for_half_a_pair :
    IsObject "\x7b\"address\":\"::1\",\"\\ud800\":null,\"port\":5\x7d" halved ∧
    (∀ field ∈ Endpoint.fields, field.Tells (valuesOf field.name halved) endpoint) ∧
    Endpoint.decode? "\x7b\"address\":\"::1\",\"\\ud800\":null,\"port\":5\x7d" = none := by
  refine ⟨isObject_halved, ?_, rfl⟩
  simp only [Endpoint.fields, List.forall_mem_cons]
  exact ⟨⟨_, rfl, rfl⟩, ⟨_, rfl, rfl⟩, by simp⟩

end Jumbled

end Netsieve
