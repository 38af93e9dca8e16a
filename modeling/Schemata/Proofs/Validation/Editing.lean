import Schemata.Proofs.Validation.Conformance
import Schemata.Proofs.Validation.Shape
namespace Schemata

/-! How far a body is edited.

`Shape.Edits` bounds the edits member by member and at every depth: defaults stand in for what
is absent, single values take the form of their types where they can be read that way, and all
else stays.  `Shape.normalize` keeps within these bounds where fields are told apart by their
names, and so does validation. -/

/-- What a value becomes that can be read in the form of a type. -/
inductive FieldType.Converts : FieldType → Value → Value → Prop
  | date {text : String} {date : Date} (read : Date.read text = .ok date) :
      Converts .date (.text text) (.date date)
  | dateOf (instant : Instant) : Converts .date (.instant instant) (.date instant.date)
  | datetime {text : String} {instant : Instant} (read : Instant.read text = .ok instant) :
      Converts .datetime (.text text) (.instant instant)
  | timestamp {text : String} {instant : Instant} (read : Instant.read text = .ok instant) :
      Converts .timestamp (.text text) (.instant instant)
  | buffer {members : Members} {bytes : List UInt8}
      (decoded : Value.decodeBuffer (.object members) = some bytes) :
      Converts .buffer (.object members) (.buffer bytes)

mutual

/-- Each stored field edits what is under its name, and no other member changes. -/
inductive Shape.Edits : Shape → Members → Members → Prop
  | intro {shape : Shape} {before after : Members}
      (fields : ∀ field ∈ shape.fields, field.isPersisted = true →
        FieldShape.Edits field (Keyed.get? before field.name) (Keyed.get? after field.name))
      (others : ∀ key, (∀ field ∈ shape.fields, field.isPersisted = true → field.name ≠ key) →
        Keyed.get? after key = Keyed.get? before key) : Shape.Edits shape before after

/-- What is held under the name of a field, before and after. -/
inductive FieldShape.Edits : FieldShape → Option Value → Option Value → Prop
  | absent {field : FieldShape} {held : Option Value} (absent : Value.isAbsent held = true)
      (default : field.default = none) : FieldShape.Edits field held held
  | default {field : FieldShape} {held : Option Value} {value after : Value}
      (absent : Value.isAbsent held = true) (default : field.default = some value)
      (turns : FieldShape.Turns field value after) : FieldShape.Edits field held (some after)
  | present {field : FieldShape} {value after : Value} (present : value.isNull = false)
      (turns : FieldShape.Turns field value after) :
      FieldShape.Edits field (some value) (some after)

/-- What a field makes of a value: it takes a single one, or each item of an array. -/
inductive FieldShape.Turns : FieldShape → Value → Value → Prop
  | items {field : FieldShape} {items after : List Value} (array : field.isArray = true)
      (length : after.length = items.length)
      (each : ∀ (index : Nat) (item edited : Value), items[index]? = some item →
        after[index]? = some edited → FieldShape.Takes field item edited) :
      FieldShape.Turns field (.array items) (.array after)
  | mismatch {field : FieldShape} {value : Value} (array : field.isArray = true)
      (other : value.items? = none) : FieldShape.Turns field value value
  | single {field : FieldShape} {value after : Value} (single : field.isArray = false)
      (takes : FieldShape.Takes field value after) : FieldShape.Turns field value after

/-- The form that a single value takes. -/
inductive FieldShape.Takes : FieldShape → Value → Value → Prop
  | converted {field : FieldShape} {value after : Value}
      (converts : field.type.Converts value after) : FieldShape.Takes field value after
  | document {field : FieldShape} {inner : Shape} {members after : Members}
      (type : field.type = .subschema) (shape : field.shape = some inner)
      (edits : Shape.Edits inner members after) :
      FieldShape.Takes field (.object members) (.object after)
  | kept {field : FieldShape} {value : Value}
      (unread : ∀ after, ¬ field.type.Converts value after)
      (undescribed : field.type = .subschema → field.shape = none ∨ value.members? = none) :
      FieldShape.Takes field value value

end

namespace FieldType

variable {type : FieldType} {value after : Value}

theorem Converts.coerce_eq (converts : type.Converts value after) :
    type.coerce value = after ∧ after ≠ value := by
  cases converts with
  | date read | datetime read | timestamp read =>
      exact ⟨by simp [coerce, read, Except.toOption], by simp⟩
  | dateOf instant => exact ⟨rfl, by simp⟩
  | buffer decoded => exact ⟨by simp [coerce, decoded], by simp⟩

/-- A value is converted when its type makes another of it. -/
theorem converts_iff :
    type.Converts value after ↔ type.coerce value = after ∧ after ≠ value := by
  refine ⟨Converts.coerce_eq, ?_⟩
  rintro ⟨rfl, changed⟩
  fun_cases coerce type value with
  | case1 text =>
      cases read : Date.read text with
      | error failure => simp [coerce, read, Except.toOption] at changed
      | ok date => exact .date read
  | case2 instant => exact .dateOf instant
  | case3 text =>
      cases read : Instant.read text with
      | error failure => simp [coerce, read, Except.toOption] at changed
      | ok instant => exact .datetime read
  | case4 text =>
      cases read : Instant.read text with
      | error failure => simp [coerce, read, Except.toOption] at changed
      | ok instant => exact .timestamp read
  | case5 members =>
      cases decoded : Value.decodeBuffer (.object members) with
      | none => simp [coerce, decoded] at changed
      | some bytes => exact .buffer decoded
  | case6 unread => simp_all [coerce]

end FieldType

/-- What there is to show of a shape: it edits no further than it says. -/
def Shape.Bounded (shape : Shape) : Prop :=
  ∀ members, shape.Edits members (shape.normalize members)

namespace FieldShape

variable {field : FieldShape}

/-- A value that is no document of a schema takes the form of its type or stays. -/
theorem takes_coerce (value : Value)
    (undescribed : field.type = .subschema → field.shape = none ∨ value.members? = none) :
    field.Takes value (field.type.coerce value) := by
  by_cases same : field.type.coerce value = value
  · rw [same]
    refine .kept (fun after converts => ?_) undescribed
    exact converts.coerce_eq.2 (converts.coerce_eq.1 ▸ same)
  · exact .converted (FieldType.converts_iff.mpr ⟨rfl, same⟩)

theorem takes_item (inner : ∀ shape, field.shape = some shape → shape.Bounded) (value : Value) :
    field.Takes value (field.item (normalizeNested field.shape) value) := by
  by_cases type : field.type = .subschema
  · cases value with
    | object members =>
        rw [Slot.item_object type]
        cases declared : field.shape with
        | none =>
            rw [normalizeNested]
            have kept := field.takes_coerce (.object members) fun _ => .inl declared
            rwa [FieldType.coerce_subschema type] at kept
        | some shape =>
            rw [normalizeNested]
            exact .document type declared (inner shape declared members)
    | _ => exact field.takes_coerce _ fun _ => .inr rfl
  · rw [Slot.item_of_plain type]
    exact field.takes_coerce value fun subschema => absurd subschema type

theorem turns_value (inner : ∀ shape, field.shape = some shape → shape.Bounded) (value : Value) :
    field.Turns value (field.value (normalizeNested field.shape) value) := by
  cases declared : field.isArray with
  | false =>
      rw [Slot.value_of_single declared]
      exact .single declared (takes_item inner value)
  | true =>
      cases value with
      | array items =>
          rw [Slot.value_array declared]
          refine .items declared (List.length_map _) fun index item edited before after => ?_
          rw [List.getElem?_map, before, Option.map_some, Option.some.injEq] at after
          exact after ▸ takes_item inner item
      | _ =>
          rw [Slot.value_of_mismatch declared rfl]
          exact .mismatch declared rfl

theorem edits_normalized (inner : ∀ shape, field.shape = some shape → shape.Bounded)
    (held : Option Value) : field.Edits held (field.normalized held) := by
  rw [normalized, Slot.held]
  cases absent : Value.isAbsent held with
  | true =>
      cases default : field.default with
      | none =>
          rw [if_pos rfl, Option.none_or, Slot.map_value_of_absent absent]
          exact .absent absent default
      | some value => exact .default absent default (turns_value inner value)
  | false =>
      cases held with
      | none => simp [Value.isAbsent] at absent
      | some value => exact .present absent (turns_value inner value)

theorem normalized_eq_none {held : Option Value} (empty : field.normalized held = none) :
    held = none := by
  rw [normalized, Slot.held, Option.map_eq_none_iff] at empty
  split at empty
  · exact (Option.or_eq_none_iff.mp empty).2
  · exact empty

theorem get?_normalize_of_ne {body : Members} {key : String}
    (apart : field.isPersisted = true → field.name ≠ key) :
    Keyed.get? (field.normalize body) key = Keyed.get? body key := by
  rw [normalize_eq]
  split
  · rename_i persisted
    exact Keyed.get?_write_of_ne body _ (apart persisted)
  · rfl

theorem get?_normalize_self {body : Members} (persisted : field.isPersisted = true) :
    Keyed.get? (field.normalize body) field.name =
      field.normalized (Keyed.get? body field.name) := by
  rw [normalize_eq, if_pos persisted]
  exact Keyed.get?_write_self normalized_eq_none

end FieldShape

/-- Fields of different names normalize what each finds under its own, and nothing else. -/
theorem get?_foldl_normalize {fields : List FieldShape}
    (names : (fields.map fun field => field.name).Nodup) (body : Members) :
    (∀ field ∈ fields, field.isPersisted = true →
      Keyed.get? (fields.foldl (fun body field => field.normalize body) body) field.name =
        field.normalized (Keyed.get? body field.name)) ∧
    ∀ key, (∀ field ∈ fields, field.isPersisted = true → field.name ≠ key) →
      Keyed.get? (fields.foldl (fun body field => field.normalize body) body) key =
        Keyed.get? body key := by
  induction fields generalizing body with
  | nil => exact ⟨by simp, fun _ _ => rfl⟩
  | cons field rest inductionHypothesis =>
      obtain ⟨apart, restNames⟩ := nodup_names_cons names
      obtain ⟨each, frame⟩ := inductionHypothesis restNames (field.normalize body)
      rw [List.foldl_cons]
      refine ⟨fun other member persisted => ?_, fun key others => ?_⟩
      · rcases List.mem_cons.mp member with rfl | later
        · rw [frame other.name fun different inside _ => (apart different inside).symm,
            FieldShape.get?_normalize_self persisted]
        · rw [each other later persisted,
            FieldShape.get?_normalize_of_ne fun _ => apart other later]
      · obtain ⟨here, later⟩ := List.forall_mem_cons.mp others
        rw [frame key later, FieldShape.get?_normalize_of_ne here]

theorem Schema.shape_bounded {schema : Schema} (distinct : schema.Distinct) :
    schema.shape.Bounded := by
  induction distinct with
  | @intro schema names _ inductionHypothesis =>
      intro members
      have same : (schema.shape.fields.map fun field => field.name) =
          schema.fields.map fun field => field.name := by
        rw [Schema.shape_fields, List.map_map]
        exact List.map_congr_left fun field _ => by simp [FieldRule.slot]
      obtain ⟨each, frame⟩ := get?_foldl_normalize (same ▸ names) members
      rw [Shape.normalize_eq]
      refine .intro (fun field member persisted => ?_) frame
      rw [each field member persisted]
      refine FieldShape.edits_normalized (fun shape declared => ?_) _
      rw [Schema.shape_fields] at member
      obtain ⟨origin, declaredField, rfl⟩ := List.mem_map.mp member
      rw [Field.fieldShape_shape] at declared
      obtain ⟨inner, nested, rfl⟩ := Option.map_eq_some_iff.mp declared
      exact inductionHypothesis origin declaredField inner nested

theorem FieldShape.Edits.isSome {field : FieldShape} {held after : Option Value}
    (edits : field.Edits held after) (some : held.isSome = true) : after.isSome = true := by
  cases edits with
  | absent _ _ => exact some
  | default _ _ _ => rfl
  | present _ _ => rfl

namespace Shape.Edits

variable {shape : Shape} {before after : Members} {key : String}

theorem keeps_key (edits : shape.Edits before after) (held : key ∈ Keyed.keys before) :
    key ∈ Keyed.keys after := by
  obtain ⟨fields, others⟩ := edits
  rw [Keyed.mem_keys_iff, Keyed.contains] at held ⊢
  by_cases declared : ∃ field ∈ shape.fields, field.isPersisted = true ∧ field.name = key
  · obtain ⟨field, member, persisted, rfl⟩ := declared
    exact (fields field member persisted).isSome held
  · rw [others key fun field member persisted same => declared ⟨field, member, persisted, same⟩]
    exact held

/-- A key that is added is that of a stored field with a default. -/
theorem adds_key (edits : shape.Edits before after) (absent : key ∉ Keyed.keys before)
    (held : key ∈ Keyed.keys after) :
    ∃ field ∈ shape.fields, field.isPersisted = true ∧ field.name = key ∧
      field.default.isSome = true := by
  obtain ⟨fields, others⟩ := edits
  rw [Keyed.mem_keys_iff, Keyed.contains] at absent held
  by_cases declared : ∃ field ∈ shape.fields, field.isPersisted = true ∧ field.name = key
  · obtain ⟨field, member, persisted, rfl⟩ := declared
    refine ⟨field, member, persisted, rfl, ?_⟩
    have edited := fields field member persisted
    rw [Option.not_isSome_iff_eq_none.mp absent] at edited
    generalize Keyed.get? after field.name = now at edited held
    cases edited with
    | absent _ _ => simp at held
    | default _ default _ => rw [default, Option.isSome_some]
  · rw [others key fun field member persisted same => declared ⟨field, member, persisted, same⟩]
      at held
    exact absurd held absent

end Shape.Edits

/-- Of a schema whose fields are told apart by their names, only the shape counts for what a
validation makes of a body: it normalizes the body, which edits it no further than the shape
allows, takes no key away, and adds one only for the default of an absent field. -/
theorem Schema.validate_edits {schema : Schema} {body after : Members} {outcome : Outcome}
    (distinct : schema.Distinct) (validated : schema.validate body = ⟨after, .ok outcome⟩) :
    after = schema.shape.normalize body ∧ schema.shape.Edits body after ∧
      (∀ key ∈ Keyed.keys body, key ∈ Keyed.keys after) ∧
      ∀ key ∈ Keyed.keys after, key ∉ Keyed.keys body →
        ∃ field ∈ schema.fields, field.isPersisted = true ∧ field.name = key ∧
          field.default.isSome = true := by
  have normalized := Schema.validate_normalizes validated
  have edits : schema.shape.Edits body after :=
    normalized ▸ Schema.shape_bounded distinct body
  refine ⟨normalized, edits, fun key held => edits.keeps_key held, fun key held absent => ?_⟩
  obtain ⟨shape, member, persisted, name, default⟩ := edits.adds_key absent held
  rw [Schema.shape_fields] at member
  obtain ⟨field, declared, rfl⟩ := List.mem_map.mp member
  rw [Field.fieldShape_toSlot] at persisted name default
  exact ⟨field, declared, persisted, name, default⟩

namespace Sample

theorem december_mem : 1 ≤ 12 ∧ 12 ≤ 12 := by decide

/-- Ada once she has been validated. -/
def enteredAda : Members :=
  [("born", .date ⟨1815, 12, 10, december_mem, by decide⟩), ("kind", .text "mobile"),
    ("phones", .array [.object [("number", .text "55")], .object [("number", .text "7½")]]),
    ("photo", .buffer [137, 80]), ("tags", .array [.null, .text "née"])]

end Sample

open Sample in
theorem Schema.validate_edits_of_person :
    (person.Distinct ∧
      person.validate ada = ⟨(person.validate ada).edited, .ok (person.validate ada).outcome⟩) ∧
    (Value.object (person.validate ada).edited).same (.object enteredAda) = true ∧
    (person.validate ada).edited = person.shape.normalize ada ∧
    person.shape.Edits ada (person.validate ada).edited := by
  obtain ⟨normalized, edits, _⟩ := Schema.validate_edits person_distinct person_validate_ada
  exact ⟨⟨person_distinct, person_validate_ada⟩, by decide +kernel, normalized, edits⟩

end Schemata
