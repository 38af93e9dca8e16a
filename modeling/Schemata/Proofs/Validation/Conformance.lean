import Schemata.Proofs.Validation.Examination
namespace Schemata

/-! What a document has to be for its schema, apart from how that is found out.

`Schema.Conforms` is said of a body as it is after validation, and
`Schema.passed_iff_conforms` says that a validation passes exactly these bodies. -/

inductive FieldType.Form : FieldType → Value → Prop
  | text (text : String) : Form .string (.text text)
  | bool (value : Bool) : Form .boolean (.bool value)
  | number (number : Number) : Form .number (.number number)
  | date (date : Date) : Form .date (.date date)
  | datetime (instant : Instant) : Form .datetime (.instant instant)
  | timestamp (instant : Instant) : Form .timestamp (.instant instant)
  | buffer (bytes : List UInt8) : Form .buffer (.buffer bytes)

/-- The values that are within the type and the bounds of a rule. -/
structure FieldRule.Fits (rule : FieldRule) (value : Value) : Prop where
  form : rule.type.Form value
  notBelow : ∀ size min, FieldRule.measure? value = some size → rule.min = some min →
    size.lt min = false
  notAbove : ∀ size max, FieldRule.measure? value = some size → rule.max = some max →
    max.lt size = false

/-- A single value that a field may hold: it fits, and the validator approves of it. -/
structure FieldRule.Accepts (rule : FieldRule) (value : Value) : Prop extends rule.Fits value where
  approved : ∀ validator, rule.validator = some validator → validator.run value = .ok true

mutual

/-- Every stored field of the schema holds what it has to under its name. -/
inductive Schema.Conforms : Schema → Members → Prop
  | intro {schema : Schema} {body : Members}
      (fields : ∀ field ∈ schema.fields, field.isPersisted = true →
        Field.Holds field (Keyed.get? body field.name)) : Schema.Conforms schema body

inductive Schema.Describes : Schema → Value → Prop
  | object {schema : Schema} {body : Members} (conforms : Schema.Conforms schema body) :
      Schema.Describes schema (.object body)

/-- What a field may hold, if anything. -/
inductive Field.Holds : Field → Option Value → Prop
  | nothing {field : Field} {held : Option Value} (absent : Value.isAbsent held = true)
      (optional : field.required = false) : Field.Holds field held
  | document {field : Field} {inner : Schema} {value : Value}
      (type : field.type = .subschema) (single : field.isArray = false)
      (schema : field.schema = some inner) (described : Schema.Describes inner value) :
      Field.Holds field (some value)
  | documents {field : Field} {inner : Schema} {items : List Value}
      (type : field.type = .subschema) (array : field.isArray = true)
      (schema : field.schema = some inner)
      (described : ∀ item ∈ items, Schema.Describes inner item) :
      Field.Holds field (some (.array items))
  | plain {field : Field} {value : Value}
      (type : field.type ≠ .subschema) (single : field.isArray = false)
      (accepted : field.Accepts value) : Field.Holds field (some value)
  | plains {field : Field} {items : List Value}
      (type : field.type ≠ .subschema) (array : field.isArray = true)
      (accepted : ∀ item ∈ items,
        (item = .null ∧ field.required = false) ∨ field.Accepts item) :
      Field.Holds field (some (.array items))

end

/-- Fields are told apart by their names, in the schema and in all that it refers to. -/
inductive Schema.Distinct : Schema → Prop
  | intro {schema : Schema} (names : (schema.fields.map fun field => field.name).Nodup)
      (inner : ∀ field ∈ schema.fields, ∀ inner, field.schema = some inner → inner.Distinct) :
      schema.Distinct

theorem FieldType.admits_iff {type : FieldType} {value : Value} :
    type.admits value = true ↔ type.Form value := by
  constructor
  · intro admitted
    cases type <;> cases value <;> first
      | constructor
      | simp [admits] at admitted
  · intro form
    cases form <;> rfl

theorem FieldType.Form.plain {type : FieldType} {value : Value} (form : type.Form value) :
    type ≠ .subschema ∧ type ≠ .calculated := by
  cases form <;> exact ⟨nofun, nofun⟩

theorem FieldType.Form.present {type : FieldType} {value : Value} (form : type.Form value) :
    value.isNull = false ∧ value.items? = none ∧ value.members? = none := by
  cases form <;> exact ⟨rfl, rfl, rfl⟩

namespace FieldRule

variable {rule : FieldRule} {path : String} {value : Value} {part : Outcome}

theorem passed_absent (rule : FieldRule) (path : String) :
    (rule.absent path).passed = true ↔ rule.required = false := by
  rw [absent]
  cases rule.required <;> simp

theorem boundsText?_ne_none {min max : Option Number}
    (declared : min.isSome = true ∨ max.isSome = true) : boundsText? min max ≠ none := by
  cases min <;> cases max <;> simp_all [boundsText?]

/-- A bound that is missed is declared, so there are always words for it. -/
theorem boundsFault?_eq_none_iff :
    rule.boundsFault? path value = none ↔
      ∀ size, measure? value = some size → rule.outOfBounds size = false := by
  rw [boundsFault?]
  cases measured : measure? value with
  | none => simp
  | some size =>
      cases missed : rule.outOfBounds size with
      | false => simp [missed]
      | true =>
          have declared : rule.min.isSome = true ∨ rule.max.isSome = true := by
            cases min : rule.min <;> cases max : rule.max <;> simp_all [outOfBounds]
          simp [missed, boundsText?_ne_none declared]

theorem outOfBounds_eq_false_iff {size : Number} :
    rule.outOfBounds size = false ↔
      (∀ min, rule.min = some min → size.lt min = false) ∧
      ∀ max, rule.max = some max → max.lt size = false := by
  rw [outOfBounds]
  cases rule.min <;> cases rule.max <;> simp

theorem consult_passed_iff (consulted : rule.consult path value = .ok part) :
    part.passed = true ↔
      ∀ validator, rule.validator = some validator → validator.run value = .ok true := by
  rw [consult] at consulted
  cases declared : rule.validator with
  | none =>
      simp only [declared, Except.ok.injEq] at consulted
      simp [← consulted]
  | some validator =>
      cases answer : validator.run value with
      | error message => simp [declared, answer] at consulted
      | ok approved =>
          cases approved <;> simp only [declared, answer, Except.ok.injEq] at consulted <;>
            simp [← consulted, answer]

theorem fits_iff (path : String) : rule.Fits value ↔
    rule.type.admits value = true ∧ rule.boundsFault? path value = none := by
  rw [boundsFault?_eq_none_iff, FieldType.admits_iff]
  constructor
  · intro fits
    exact ⟨fits.form, fun size measured => outOfBounds_eq_false_iff.mpr
      ⟨fun min => fits.notBelow size min measured, fun max => fits.notAbove size max measured⟩⟩
  · intro ⟨form, within⟩
    have bounds := fun size measured => outOfBounds_eq_false_iff.mp (within size measured)
    exact ⟨form, fun size min measured => (bounds size measured).1 min,
      fun size max measured => (bounds size measured).2 max⟩

theorem matches?_of_plain (plain : rule.type ≠ .subschema) (stored : rule.type ≠ .calculated)
    (path : String) (value : Value) : rule.matches? path value = .ok (rule.type.admits value) := by
  rw [matches?]
  split <;> first | contradiction | rfl

theorem admits_of_matches? {answer : Bool} (answered : rule.matches? path value = .ok answer) :
    rule.type.admits value = answer := by
  rw [matches?] at answered
  split at answered
  · simp at answered
  · simp at answered
  · exact Except.ok.inj answered

theorem judge_null (rule : FieldRule) (path : String) :
    rule.judge path .null = .ok (rule.absent path) := rfl

theorem judge_eq (present : value.isNull = false) (single : value.items? = none) :
    rule.judge path value =
      match rule.matches? path value with
      | .error fault => .error fault
      | .ok true =>
          match rule.boundsFault? path value with
          | some message => .ok (.ofFailure path message)
          | none => rule.consult path value
      | .ok false =>
          .ok (.ofFailure path
            s!"{path} must be of type {rule.type.name}, got {value.typeName}") := by
  cases value with
  | null => simp [Value.isNull] at present
  | array items => simp [Value.items?] at single
  | _ => rfl

theorem judge_of_fits (fits : rule.Fits value) :
    rule.judge path value = rule.consult path value := by
  obtain ⟨admitted, within⟩ := (fits_iff path).mp fits
  obtain ⟨present, single, _⟩ := fits.form.present
  obtain ⟨plain, stored⟩ := fits.form.plain
  rw [judge_eq present single, matches?_of_plain plain stored, admitted, within]

/-- A value that does not fit is judged without the validator: it fails, or there is no judging
by the type of the field. -/
theorem judge_of_not_fits (unfit : ¬ rule.Fits value) (present : value.isNull = false)
    (path : String) :
    (∃ fault, rule.matches? path value = .error fault ∧ ∀ validator,
      ({ rule with validator } : FieldRule).judge path value = .error fault) ∨
    ∃ message, ∀ validator,
      ({ rule with validator } : FieldRule).judge path value = .ok (.ofFailure path message) := by
  cases listed : value.items? with
  | some items =>
      cases value with
      | array items => exact .inr ⟨_, fun validator => rfl⟩
      | _ => simp [Value.items?] at listed
  | none =>
      have judged := fun validator =>
        @judge_eq { rule with validator } path value present listed
      have same : ∀ validator, ({ rule with validator } : FieldRule).matches? path value =
          rule.matches? path value := fun _ => rfl
      cases matched : rule.matches? path value with
      | error fault =>
          exact .inl ⟨fault, rfl, fun validator => by rw [judged, same, matched]⟩
      | ok answer =>
          cases answer with
          | false =>
              exact .inr ⟨s!"{path} must be of type {rule.type.name}, got {value.typeName}",
                fun validator => by rw [judged, same, matched]⟩
          | true =>
              cases missed : rule.boundsFault? path value with
              | none =>
                  exact absurd ((fits_iff path).mpr ⟨admits_of_matches? matched, missed⟩) unfit
              | some message =>
                  have kept : ∀ validator, ({ rule with validator } : FieldRule).boundsFault?
                      path value = some message := fun _ => missed
                  exact .inr ⟨message, fun validator => by rw [judged, same, matched, kept]⟩

/-- Of single values only what fits is shown to a validator, so a fault is that of one. -/
theorem fits_of_fault {fault : ValidationFault} (plain : rule.type ≠ .subschema)
    (stored : rule.type ≠ .calculated) (failed : rule.judge path value = .error fault) :
    rule.Fits value := by
  apply Classical.byContradiction
  intro unfit
  cases null : value.isNull with
  | true =>
      cases value with
      | null => simp [judge_null] at failed
      | _ => simp [Value.isNull] at null
  | false =>
      rcases judge_of_not_fits unfit null path with ⟨_, matched, _⟩ | ⟨message, unasked⟩
      · simp [matches?_of_plain plain stored] at matched
      · rw [unasked rule.validator] at failed
        simp at failed

theorem judge_passed_iff_accepts (present : value.isNull = false)
    (judged : rule.judge path value = .ok part) :
    part.passed = true ↔ rule.Accepts value := by
  by_cases fits : rule.Fits value
  · rw [judge_of_fits fits] at judged
    rw [consult_passed_iff judged]
    exact ⟨fun approved => ⟨fits, approved⟩, fun accepted => accepted.approved⟩
  · refine iff_of_false ?_ fun accepted => fits accepted.toFits
    rcases judge_of_not_fits fits present path with ⟨fault, _, unasked⟩ | ⟨message, unasked⟩
    · simp [unasked rule.validator] at judged
    · rw [unasked rule.validator, Except.ok.injEq] at judged
      simp [← judged]

theorem judge_passed_iff (judged : rule.judge path value = .ok part) :
    part.passed = true ↔ (value = .null ∧ rule.required = false) ∨ rule.Accepts value := by
  cases null : value.isNull with
  | true =>
      cases value with
      | null =>
          simp only [judge_null, Except.ok.injEq] at judged
          subst part
          rw [passed_absent]
          constructor
          · exact fun optional => .inl ⟨rfl, optional⟩
          · rintro (⟨_, optional⟩ | accepted)
            · exact optional
            · have present := accepted.form.present.1
              simp [Value.isNull] at present
      | _ => simp [Value.isNull] at null
  | false =>
      rw [judge_passed_iff_accepts null judged]
      constructor
      · exact .inr
      · rintro (⟨rfl, _⟩ | accepted)
        · simp [Value.isNull] at null
        · exact accepted

end FieldRule

theorem examineItems_passed_iff {examine : String → Value → Examined Value} {path : String}
    {position : Nat} {items after : List Value} {outcome total : Outcome}
    {Fits : Value → Prop}
    (each : ∀ {path item edited part}, examine path item = ⟨edited, .ok part⟩ →
      (part.passed = true ↔ Fits edited))
    (ran : examineItems examine path position items outcome = ⟨after, .ok total⟩) :
    total.passed = true ↔ outcome.passed = true ∧ ∀ item ∈ after, Fits item := by
  induction items generalizing position after outcome with
  | nil =>
      simp only [examineItems, Examined.mk.injEq, Except.ok.injEq] at ran
      obtain ⟨rfl, rfl⟩ := ran
      simp
  | cons item rest inductionHypothesis =>
      obtain ⟨first, others, part, examined, rest_ran, rfl⟩ := examineItems_cons_ok ran
      rw [inductionHypothesis rest_ran]
      simp [each examined, and_assoc]

theorem examineArray_passed_iff {examine : String → Value → Examined Value} {path : String}
    {items : List Value} {edited : Value} {part : Outcome} {Fits : Value → Prop}
    (each : ∀ {path item edited part}, examine path item = ⟨edited, .ok part⟩ →
      (part.passed = true ↔ Fits edited))
    (examined : examineArray examine path items = ⟨edited, .ok part⟩) :
    ∃ after, edited = .array after ∧ (part.passed = true ↔ ∀ item ∈ after, Fits item) := by
  obtain ⟨after, total, ran, rfl, rfl⟩ := examineArray_ok examined
  refine ⟨after, rfl, ?_⟩
  rw [Outcome.passed_closed, examineItems_passed_iff each ran]
  simp

/-- What there is to prove of a schema: its validation passes what conforms. -/
def Schema.Judges (schema : Schema) : Prop :=
  ∀ {body after : Members} {outcome : Outcome}, schema.validate body = ⟨after, .ok outcome⟩ →
    (outcome.passed = true ↔ schema.Conforms after)

theorem examineDocument_passed_iff {inner : Schema} {path : String} {value edited : Value}
    {part : Outcome} (nested : inner.Judges)
    (examined : examineDocument inner.validate path value = ⟨edited, .ok part⟩) :
    part.passed = true ↔ inner.Describes edited := by
  rcases examineDocument_ok examined with
    ⟨members, body, outcome, rfl, validated, rfl, rfl⟩ | ⟨other, rfl, rfl⟩
  · rw [Outcome.passed_closed, Outcome.passed_merge, Outcome.passed_empty, Bool.true_and,
      nested validated]
    constructor
    · exact .object
    · rintro ⟨conforms⟩
      exact conforms
  · constructor
    · intro impossible
      simp at impossible
    · rintro ⟨_⟩
      simp [Value.members?] at other

namespace Field

variable {field : Field} {inner : Schema} {held after : Option Value} {value edited : Value}
  {part : Outcome}

theorem holds_iff_of_absent (absent : Value.isAbsent held = true) :
    field.Holds held ↔ field.required = false := by
  constructor
  · intro holds
    cases holds with
    | nothing _ optional => exact optional
    | document _ _ _ described =>
        cases described
        simp [Value.isAbsent, Value.isNull] at absent
    | documents => simp [Value.isAbsent, Value.isNull] at absent
    | plain _ _ accepted => simp [Value.isAbsent, accepted.form.present.1] at absent
    | plains => simp [Value.isAbsent, Value.isNull] at absent
  · exact .nothing absent

theorem holds_nested_iff (type : field.type = .subschema) (schema : field.schema = some inner)
    (present : value.isNull = false) :
    field.Holds (some value) ↔
      (field.isArray = false ∧ inner.Describes value) ∨
      (field.isArray = true ∧ ∃ items, value = .array items ∧
        ∀ item ∈ items, inner.Describes item) := by
  constructor
  · intro holds
    cases holds with
    | nothing absent _ => simp [Value.isAbsent, present] at absent
    | document _ single same described =>
        rw [schema, Option.some.injEq] at same
        exact .inl ⟨single, same ▸ described⟩
    | documents _ array same described =>
        rw [schema, Option.some.injEq] at same
        exact .inr ⟨array, _, rfl, same ▸ described⟩
    | plain plain _ _ => exact absurd type plain
    | plains plain _ _ => exact absurd type plain
  · rintro (⟨single, described⟩ | ⟨array, items, rfl, described⟩)
    · exact .document type single schema described
    · exact .documents type array schema described

theorem holds_plain_iff (type : field.type ≠ .subschema) (present : value.isNull = false) :
    field.Holds (some value) ↔
      (field.isArray = false ∧ field.Accepts value) ∨
      (field.isArray = true ∧ ∃ items, value = .array items ∧
        ∀ item ∈ items, (item = .null ∧ field.required = false) ∨ field.Accepts item) := by
  constructor
  · intro holds
    cases holds with
    | nothing absent _ => simp [Value.isAbsent, present] at absent
    | document nested _ _ _ => exact absurd nested type
    | documents nested _ _ _ => exact absurd nested type
    | plain _ single accepted => exact .inl ⟨single, accepted⟩
    | plains _ array accepted => exact .inr ⟨array, _, rfl, accepted⟩
  · rintro (⟨single, accepted⟩ | ⟨array, items, rfl, accepted⟩)
    · exact .plain type single accepted
    · exact .plains type array accepted

theorem nested_passed_iff (type : field.type = .subschema)
    (schema : field.schema = some inner) (present : value.isNull = false)
    (nested : inner.Judges)
    (examined : field.examineNested inner.validate value = ⟨edited, .ok part⟩) :
    part.passed = true ↔ field.Holds (some edited) := by
  rcases FieldRule.examineNested_ok examined with
    ⟨array, items, rfl, found⟩ | ⟨single, _, found⟩ | ⟨mismatch, rfl, message, rfl⟩
  · obtain ⟨after, rfl, passed⟩ :=
      examineArray_passed_iff (examineDocument_passed_iff nested) found
    rw [passed, holds_nested_iff type schema rfl]
    simp [array]
  · have kept : edited.isNull = false := by
      rcases examineDocument_ok found with ⟨_, _, _, _, _, rfl, _⟩ | ⟨_, rfl, _⟩
      · rfl
      · exact present
    rw [examineDocument_passed_iff nested found, holds_nested_iff type schema kept]
    simp [single]
  · rw [holds_nested_iff type schema present, mismatch]
    constructor
    · intro impossible
      simp at impossible
    · rintro (⟨single, ⟨_⟩⟩ | ⟨array, items, rfl, _⟩)
      · simp [Value.items?] at single
      · simp [Value.items?] at array

theorem plain_passed_iff (type : field.type ≠ .subschema) (present : value.isNull = false)
    (examined : field.examinePlain value = ⟨edited, .ok part⟩) :
    part.passed = true ↔ field.Holds (some edited) := by
  rcases FieldRule.examinePlain_ok examined with
    ⟨array, items, rfl, found⟩ | ⟨array, other, rfl, rfl⟩ | ⟨single, rfl, judged⟩
  · have each : ∀ {path item edited part},
        (⟨item, field.judge path item⟩ : Examined Value) = ⟨edited, .ok part⟩ →
          (part.passed = true ↔
            (edited = .null ∧ field.required = false) ∨ field.Accepts edited) := by
      intro path item edited part judged
      rw [Examined.mk.injEq] at judged
      obtain ⟨rfl, judged⟩ := judged
      exact FieldRule.judge_passed_iff judged
    obtain ⟨after, rfl, passed⟩ := examineArray_passed_iff each found
    rw [passed, holds_plain_iff type rfl]
    simp [array]
  · rw [holds_plain_iff type present]
    constructor
    · intro impossible
      simp at impossible
    · rintro (⟨single, _⟩ | ⟨_, items, rfl, _⟩)
      · simp [array] at single
      · simp [Value.items?] at other
  · have kept : (field.type.coerce value).isNull = false := by
      rw [FieldType.isNull_coerce, present]
    rw [FieldRule.judge_passed_iff_accepts kept judged, holds_plain_iff type kept]
    simp [single]

theorem settle_passed_iff (nested : ∀ inner, field.schema = some inner → inner.Judges)
    (settled : field.settle held = ⟨after, .ok part⟩) :
    part.passed = true ↔ field.Holds after := by
  rcases FieldRule.settle_ok settled with ⟨validate, type, declared, settled⟩ | ⟨type, _, settled⟩
  · obtain ⟨inner, schema, rfl⟩ := Option.map_eq_some_iff.mp declared
    rcases FieldRule.settleBy_ok settled with
      ⟨_, absent, rfl⟩ | ⟨value, edited, _, present, examined, rfl⟩
    · rw [FieldRule.passed_absent, holds_iff_of_absent absent]
    · exact nested_passed_iff type schema present (nested inner schema) examined
  · rcases FieldRule.settleBy_ok settled with
      ⟨_, absent, rfl⟩ | ⟨value, edited, _, present, examined, rfl⟩
    · rw [FieldRule.passed_absent, holds_iff_of_absent absent]
    · exact plain_passed_iff type present examined

end Field

theorem Schema.judges {schema : Schema} (distinct : schema.Distinct) : schema.Judges := by
  induction distinct with
  | @intro schema names _ inductionHypothesis =>
      intro body after outcome validated
      rw [Schema.validate_eq] at validated
      obtain ⟨each, rfl, _⟩ := validateFields_parts names validated
      rw [passed_outcomeOfFields]
      have holds : ∀ field ∈ storedFields schema.fields,
          (field.outcomeIn body).passed = true ↔ field.Holds (Keyed.get? after field.name) :=
        fun field member => Field.settle_passed_iff
          (inductionHypothesis field (mem_storedFields.mp member).1) (each field member)
      constructor
      · rintro ⟨_, passed⟩
        refine .intro fun field member persisted => ?_
        have stored := mem_storedFields.mpr ⟨member, persisted⟩
        exact (holds field stored).mp (passed field stored)
      · rintro ⟨fields⟩
        refine ⟨rfl, fun field stored => ?_⟩
        obtain ⟨member, persisted⟩ := mem_storedFields.mp stored
        exact (holds field stored).mpr (fields field member persisted)

/-- A validation that ends with an outcome passes exactly when the body, with defaults and
forms as the validation leaves them, conforms to the schema. -/
theorem Schema.passed_iff_conforms {schema : Schema} {body after : Members} {outcome : Outcome}
    (distinct : schema.Distinct) (validated : schema.validate body = ⟨after, .ok outcome⟩) :
    outcome.passed = true ↔ schema.Conforms after :=
  schema.judges distinct validated

namespace Sample

def phone : Schema where
  name := "Phone"
  version := 1
  fields := [{ name := "number", type := .string, max := some (.ofInt 5) }]

/-- A person: the day of birth, telephones that are documents, an optional photograph, and an
optional list of texts that a validator looks at. -/
def person : Schema where
  name := "Person"
  version := 1
  fields :=
    [{ name := "born", type := .date },
      { name := "phones", type := .subschema, isArray := true, schema := some phone },
      { name := "photo", type := .buffer, required := false },
      { name := "kind", type := .string, default := some (.text "mobile") },
      { name := "tags", type := .string, isArray := true, required := false,
        validator := some ⟨"short", fun value => .ok (value.display.length < 4)⟩ }]

def ada : Members :=
  [("born", .text "1815-12-10"),
    ("phones", .array [.object [("number", .text "55")], .object [("number", .text "7½")]]),
    ("photo", .object [("data", .array [.nat 137, .nat 80]), ("type", .text "Buffer")]),
    ("tags", .array [.null, .text "née"])]

/-- The number of the telephone has three characters, each of two units. -/
def grace : Members :=
  [("born", .text "1906-12-09"), ("phones", .array [.object [("number", .text "𝟙𝟚𝟛")]])]

theorem phone_distinct : phone.Distinct := by
  refine .intro (by decide) fun field member inner schema => ?_
  simp only [phone, List.mem_singleton] at member
  simp [member] at schema

theorem person_distinct : person.Distinct := by
  refine .intro (by decide) fun field member inner schema => ?_
  simp only [person, List.mem_cons, List.not_mem_nil, or_false] at member
  rcases member with rfl | rfl | rfl | rfl | rfl
  · simp at schema
  · simp only [Option.some.injEq] at schema
    exact schema ▸ phone_distinct
  · simp at schema
  · simp at schema
  · simp at schema

theorem person_validate_ada :
    person.validate ada = ⟨(person.validate ada).edited, .ok (person.validate ada).outcome⟩ :=
  Examined.eq_of_ok (by decide +kernel)

end Sample

open Sample in
theorem Schema.passed_iff_conforms_of_person :
    (person.Distinct ∧
      person.validate ada = ⟨(person.validate ada).edited, .ok (person.validate ada).outcome⟩ ∧
      person.validate grace =
        ⟨(person.validate grace).edited, .ok (person.validate grace).outcome⟩) ∧
    person.Conforms (person.validate ada).edited ∧
    ¬ person.Conforms (person.validate grace).edited := by
  have validated : person.validate grace = _ := Examined.eq_of_ok (by decide +kernel)
  have conforms := (Schema.passed_iff_conforms person_distinct person_validate_ada).mp
    (by decide +kernel)
  have unfit := mt (Schema.passed_iff_conforms person_distinct validated).mpr (by decide +kernel)
  exact ⟨⟨person_distinct, person_validate_ada, validated⟩, conforms, unfit⟩

end Schemata
