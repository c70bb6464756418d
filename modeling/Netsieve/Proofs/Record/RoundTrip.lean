import Netsieve.Engine
import Netsieve.Proofs.Endpoint.RoundTrip
import Netsieve.Proofs.Json.RoundTrip
import Netsieve.Proofs.Record.Fields

/-!
# `Netsieve.Proofs.Record.RoundTrip`: what is written as JSON is read back

A way to write something as JSON and a way to read it go together (`RoundTrips`) if whatever
is written is plain and is read back. They do for numbers and addresses, and if they do for
some things they do for lists and options of them, and for records that have them as fields.

* `decode?_encode`: the text of a message or an endpoint is read back.
* `decode?_encode_list`: so is the text of a description, and the text of all descriptions of an
  engine. They keep apart what has to be kept apart.
-/

set_option autoImplicit false

namespace Netsieve

namespace Json

section RoundTrips

variable {α β : Type}

/-- Whatever is written is plain, and it is read back. -/
structure RoundTrips (write : α → Json) (read? : Json → Option α) : Prop where
  plain : ∀ a, Plain (write a)
  back : ∀ a, read? (write a) = some a

/-- The text of what is written is read back. -/
theorem RoundTrips.parse {write : α → Json} {read? : Json → Option α} (h : RoundTrips write read?)
    (a : α) : (parse? (write a).toString).bind read? = some a := by
  rw [parse?_toString (h.plain a), Option.bind_some, h.back]

/-! ## Numbers, lists and options -/

/-- A number below the limit is read back. -/
theorem nat?_ofNat {limit n : Nat} (small : n < limit) : (ofNat n).nat? limit = some n := by
  simp [ofNat, nat?, Decimal.read?_digits, small]

/-- Numbers that are below a limit, and come again of their values, are read back. -/
theorem roundTrips_word {toNat : α → Nat} {word : Nat → α} {limit : Nat}
    (small : ∀ a, toNat a < limit) (back : ∀ a, word (toNat a) = a) :
    RoundTrips (fun a => ofNat (toNat a)) fun v => (v.nat? limit).map word where
  plain a := plain_ofNat (toNat a)
  back a := by
    rw [nat?_ofNat (small a), Option.map_some, back]

/-- Numbers of 8 bits are written and read back. -/
theorem roundTrips_uint8 : RoundTrips (fun n : UInt8 => ofNat n.toNat) uint8? :=
  roundTrips_word UInt8.toNat_lt fun _ => UInt8.ofNat_toNat

/-- Numbers of 16 bits are written and read back. -/
theorem roundTrips_uint16 : RoundTrips (fun n : UInt16 => ofNat n.toNat) uint16? :=
  roundTrips_word UInt16.toNat_lt fun _ => UInt16.ofNat_toNat

/-- Numbers of 32 bits are written and read back. -/
theorem roundTrips_uint32 : RoundTrips (fun n : UInt32 => ofNat n.toNat) uint32? :=
  roundTrips_word UInt32.toNat_lt fun _ => UInt32.ofNat_toNat

/-- Numbers of 64 bits are written and read back. -/
theorem roundTrips_uint64 : RoundTrips (fun n : UInt64 => ofNat n.toNat) uint64? :=
  roundTrips_word UInt64.toNat_lt fun _ => UInt64.ofNat_toNat

/-- Truth values are written and read back. -/
theorem roundTrips_bool : RoundTrips .bool bool? where
  plain := .bool
  back _ := rfl

variable {write : α → Json} {read? : Json → Option α} (h : RoundTrips write read?)
include h

/-- Lists are written and read back if their items are. -/
theorem roundTrips_list : RoundTrips (fun as : List α => .arr (as.map write)) (list? read?) where
  plain as := .arr (List.forall_mem_map.mpr fun a _ => h.plain a)
  back as := by
    rw [list?, mapM_eq_some_iff, List.forall₂_map_left_iff, List.forall₂_same]
    exact fun a _ => h.back a

/-- Null stands for nothing, so it may not stand for something. -/
theorem roundTrips_option (something : ∀ a, write a ≠ .null) :
    RoundTrips (ofOption write) fun v => optional? read? (some v) where
  plain a? := by
    cases a? with
    | none => exact .null
    | some a => exact h.plain a
  back a? := by
    cases a? with
    | none => rfl
    | some a =>
      -- Nothing is written as null, so that the value is not taken for its absence.
      have given : optional? read? (some (write a)) = (read? (write a)).map some := by
        have := something a
        unfold optional?
        split <;> simp_all
      rw [ofOption, given, h.back, Option.map_some]

end RoundTrips

/-! ## Records -/

section Records

variable {α β : Type}

/-- A member is what is written for a field of a record. -/
structure Field.Writes (field : Field α) (m : String × Json) (a : α) : Prop where
  name : m.1.toList = field.name
  plain : Plain m.2
  tells : field.Tells [m.2] a

/-- A required field is written as its part, which it then tells. -/
theorem Field.writes_required {write : β → Json} {read? : Json → Option β}
    (h : RoundTrips write read?) (name : String) (part : α → β) (a : α) :
    (required name read? part).Writes (name, write (part a)) a where
  name := rfl
  plain := h.plain (part a)
  tells := ⟨write (part a), rfl, h.back (part a)⟩

/-- An optional field is written as its part or as null, which it then tells. -/
theorem Field.writes_optional {write : β → Json} {read? : Json → Option β}
    (h : RoundTrips write read?) (something : ∀ b, write b ≠ .null) (name : String)
    (part : α → Option β) (a : α) :
    (optional name read? part).Writes (name, ofOption write (part a)) a where
  name := rfl
  plain := (roundTrips_option h something).plain (part a)
  tells := ⟨ofOption write (part a), .inl rfl, (roundTrips_option h something).back (part a)⟩

/-- An object with a member for each field, in order, is read back. -/
theorem Decodes.roundTrips {fields : List (Field α)} {ofJson? : Json → Option α}
    (h : Decodes fields ofJson?) (distinct : (fields.map Field.name).Nodup)
    {members : α → List (String × Json)}
    (writes : ∀ a, List.Forall₂ (fun field m => field.Writes m a) fields (members a)) :
    RoundTrips (fun a => object (members a)) ofJson? where
  plain a := plain_object fun m there => by
    obtain ⟨field, written⟩ := exists_forall₂_iff.mp ⟨fields, (writes a).flip⟩ m there
    exact written.plain
  back a := by
    have names : fields.map Field.name = (members a).map (·.1.toList) := by
      have same : List.Forall₂ (fun field (m : String × Json) => field.name = m.1.toList) fields
          (members a) := (writes a).imp fun _ _ written => written.name.symm
      rwa [← List.forall₂_eq_eq_eq, List.forall₂_map_left_iff, List.forall₂_map_right_iff]
    have items : ((members a).map (·.2)).length = (fields.map Field.name).length := by
      rw [names, List.length_map, List.length_map]
    -- An object that has the fields in their order is read like the array of their values.
    have zipped : object (members a)
        = .obj (((fields.map Field.name).map glyphs).zip ((members a).map (·.2))) := by
      rw [names, List.map_map, List.zip_map']
      rfl
    refine (h _ a).mpr ⟨((members a).map (·.2)).map some, ?_, ?_⟩
    · rw [zipped, record?, fields?_zip distinct items]
      exact fields?_arr_eq_some_iff.mpr ⟨items, rfl⟩
    · rw [List.map_map, List.forall₂_map_right_iff]
      exact (writes a).imp fun _ _ written => written.tells

end Records

end Json

open Json (RoundTrips)

/-! ## Endpoints and messages -/

/-- Addresses are written as text and read back. -/
theorem Ip.roundTrips : RoundTrips toJson ofJson? where
  plain ip := .str ip.text
  back ip := by
    have text : ip.toJson.text? = some ip.text := Json.proper?_eq_some_iff.mpr rfl
    rw [ofJson?, text, Option.bind_some]
    exact read?_eq_some_iff.mpr ip.isLiteral_text

/-- Endpoints are written and read back, field by field. -/
theorem Endpoint.roundTrips : RoundTrips toJson ofJson? :=
  decodes.roundTrips (by decide) fun e =>
    .cons (Json.Field.writes_required Ip.roundTrips "address" _ e) <|
    .cons (Json.Field.writes_required Json.roundTrips_uint16 "port" _ e) .nil

/-- Bytes are an array of numbers. -/
theorem Json.roundTrips_bytes :
    RoundTrips (fun payload : List UInt8 => .arr (payload.map fun b => ofNat b.toNat)) bytes? where
  plain := (roundTrips_list roundTrips_uint8).plain
  back := (roundTrips_list roundTrips_uint8).back

/-- Messages are written and read back, field by field. -/
theorem Message.roundTrips : RoundTrips toJson ofJson? :=
  decodes.roundTrips (by decide) fun m =>
    .cons (Json.Field.writes_required Json.roundTrips_uint32 "verb" _ m) <|
    .cons (Json.Field.writes_required Json.roundTrips_bytes "bytes" _ m) <|
    .cons (Json.Field.writes_required Json.roundTrips_uint64 "id" _ m) <|
    .cons (Json.Field.writes_required Json.roundTrips_uint32 "version" _ m) <|
    .cons (Json.Field.writes_optional Endpoint.roundTrips (fun _ => Json.noConfusion) "from" _ m) <|
    .cons (Json.Field.writes_required Json.roundTrips_uint16 "from_port" _ m) .nil

/-- Messages and endpoints are read back from their texts.

This goes for every message: any numbers, any payload, and with or without an origin, whose
port need not be the one that the message names. -/
theorem Message.decode?_encode :
    (∀ m : Message, decode? m.encode = some m) ∧
    ∀ e : Endpoint, Endpoint.decode? e.encode = some e :=
  ⟨Message.roundTrips.parse, Endpoint.roundTrips.parse⟩

/-- A message without an origin, and one from a long address. -/
example :
    Message.encode { verb := 7, payload := [], id := 0, version := 1, fromPort := 9 }
      = "\x7b\"verb\":7,\"bytes\":[],\"id\":0,\"version\":1,\"from\":null,\"from_port\":9\x7d" ∧
    Message.encode
        { verb := 7, payload := [0, 255], id := 18446744073709551615, version := 1,
          origin := some ⟨.v6 ⟨[0, 0, 0, 0, 0, 0, 0, 1], rfl⟩, 5⟩, fromPort := 9 }
      = "\x7b\"verb\":7,\"bytes\":[0,255],\"id\":18446744073709551615,\"version\":1," ++
        "\"from\":\x7b\"address\":\"::1\",\"port\":5\x7d,\"from_port\":9\x7d" :=
  ⟨rfl, rfl⟩

/-! ## Descriptions -/

/-- An object with one member is tagged by its name. -/
theorem Json.tagged?_object (name : String) (v : Json) :
    (object [(name, v)]).tagged? = some (name.toList, some v) := by
  have text : proper? (glyphs name.toList) = some name.toList := proper?_eq_some_iff.mpr rfl
  rw [object, List.map_cons, List.map_nil, tagged?, text, Option.map_some]

/-- A variant that carries nothing is written as its name. -/
theorem Direction.roundTrips : RoundTrips toJson ofJson? where
  plain d := .str d.variant
  back d := by
    cases d <;> rfl

namespace ActionSummary

/-- What a delay carries is a record of one field. -/
theorem decodes_millis :
    Json.Decodes [.optional "millis" Json.uint64? id] millisOfJson? := by
  intro v millis
  have names : [Json.Field.optional "millis" Json.uint64? id].map Json.Field.name
      = ["millis".toList] := rfl
  rw [names]
  constructor
  · intro h
    unfold millisOfJson? at h
    split at h
    · next given found =>
      exact ⟨_, found, by simp [Json.Field.tells_optional_iff, h]⟩
    · cases h
  · rintro ⟨given, found, tells⟩
    simp only [List.forall₂_cons_left_iff, List.forall₂_nil_left_iff,
      Json.Field.tells_optional_iff] at tells
    obtain ⟨_, _, hmillis, rfl, rfl⟩ := tells
    rw [millisOfJson?, found]
    exact hmillis

/-- What is written for a delay. -/
def millisToJson (millis : Option UInt64) : Json :=
  Json.object [("millis", Json.ofOption (fun (n : UInt64) => Json.ofNat n.toNat) millis)]

/-- A delay is written and read back, with or without its milliseconds. -/
theorem roundTrips_millis : RoundTrips millisToJson millisOfJson? :=
  decodes_millis.roundTrips (by decide) fun millis =>
    .cons (Json.Field.writes_optional Json.roundTrips_uint64 (fun _ => Json.noConfusion) "millis" id
      millis) .nil

/-- A variant that carries something is written as an object with its name. -/
theorem roundTrips : RoundTrips toJson ofJson? where
  plain
    | .drop => .str "drop".toList
    | .delay millis => Json.plain_object (List.forall_mem_singleton.mpr
      (roundTrips_millis.plain millis))
  back
    | .drop => rfl
    | .delay millis => by
      have tagged : (toJson (.delay millis)).tagged?
          = some ("delay".toList, some (millisToJson millis)) := Json.tagged?_object _ _
      have other : "delay".toList ≠ "drop".toList := by decide
      rw [ofJson?, tagged]
      simp only [if_neg other, if_pos, roundTrips_millis.back, Option.map_some]

end ActionSummary

namespace Description

/-- Descriptions are written and read back, field by field. -/
theorem roundTrips : RoundTrips toJson ofJson? :=
  have ids := Json.roundTrips_list Json.roundTrips_uint32
  decodes.roundTrips (by decide) fun d =>
    .cons (Json.Field.writes_required Json.roundTrips_uint64 "id" _ d) <|
    .cons (Json.Field.writes_required Direction.roundTrips "direction" _ d) <|
    .cons (Json.Field.writes_optional ids (fun _ => Json.noConfusion) "verbs" _ d) <|
    .cons (Json.Field.writes_optional ids (fun _ => Json.noConfusion) "from" _ d) <|
    .cons (Json.Field.writes_optional ids (fun _ => Json.noConfusion) "to" _ d) <|
    .cons (Json.Field.writes_required Json.roundTrips_bool "content_predicate" _ d) <|
    .cons (Json.Field.writes_required ActionSummary.roundTrips "action" _ d) <|
    .cons (Json.Field.writes_required Json.roundTrips_bool "enabled" _ d) .nil

end Description

/-- What a description keeps apart: a limit that is missing and one that admits nothing, and
the three things a rule may do. -/
structure Rule.Apart {P S : Type} (r : Rule P S) (d : Description) : Prop where
  verbs : (d.verbs = none ↔ r.verbs = .any) ∧ (d.verbs = some [] ↔ r.verbs = .only [])
  senders : (d.senders = none ↔ r.senders = .any) ∧ (d.senders = some [] ↔ r.senders = .only [])
  receivers : (d.receivers = none ↔ r.receivers = .any) ∧
    (d.receivers = some [] ↔ r.receivers = .only [])
  drop : d.action = .drop ↔ r.action = .drop
  fixed : (∃ millis, d.action = .delay (some millis)) ↔ ∃ wait, r.action = .delay (.fixed wait)
  computed : d.action = .delay none ↔ ∃ supplier, r.action = .delay (.computed supplier)

/-- A scope that admits everything and one that admits nothing are told apart. -/
theorem Scope.members?_apart (scope : Scope) :
    (scope.members? = none ↔ scope = .any) ∧ (scope.members? = some [] ↔ scope = .only []) := by
  cases scope <;> simp [members?]

/-- The description of a rule keeps apart what its limits and its action keep apart. -/
theorem Rule.apart_describe {P S : Type} (r : Rule P S) (enabled : Bool) :
    r.Apart (r.describe enabled) := by
  have action : (r.describe enabled).action = .ofAction r.action := rfl
  refine ⟨r.verbs.members?_apart, r.senders.members?_apart, r.receivers.members?_apart, ?_, ?_, ?_⟩
  all_goals
    rw [action]
    rcases r.action with _ | (wait | supplier) <;> simp [ActionSummary.ofAction]

/-- Descriptions are read back from their texts, and so are all descriptions of an engine.

This goes for every description: any list of ids, also an empty one or one with repeats, any
number of milliseconds or none. For the rules of an engine it goes in whatever state the engine
is. What is read then keeps apart what has to be kept apart about each rule. -/
theorem Description.decode?_encode_list {P S : Type} (e : Engine P S) :
    (∀ d : Description, decode? d.encode = some d) ∧
    ∃ read, (Json.parse? (Json.arr (e.describe.map toJson)).toString).bind (Json.list? ofJson?)
        = some read ∧
      read = e.describe ∧ List.Forall₂ Rule.Apart e.rules read := by
  refine ⟨roundTrips.parse, e.describe, (Json.roundTrips_list roundTrips).parse e.describe, rfl, ?_⟩
  rw [Engine.describe, List.forall₂_map_right_iff, List.forall₂_same]
  exact fun r _ => r.apart_describe (e.isEnabled r)

/-- No limit is written as null, and a limit that admits nothing as an empty array. A delay
that is computed has null where another one has its milliseconds. -/
example :
    (Description.idsToJson none).toString = "null" ∧
    (Description.idsToJson (some [])).toString = "[]" ∧
    (Description.idsToJson (some [5, 5])).toString = "[5,5]" ∧
    ActionSummary.encode .drop = "\"drop\"" ∧
    ActionSummary.encode (.delay (some 20))
      = "\x7b\"delay\":\x7b\"millis\":20\x7d\x7d" ∧
    ActionSummary.encode (.delay none) = "\x7b\"delay\":\x7b\"millis\":null\x7d\x7d" :=
  ⟨rfl, rfl, rfl, rfl, rfl, rfl⟩

end Netsieve
