import Schemata.Proofs.Description.Restated
namespace Schemata

/-! The language of descriptions.

`Json.IsDescription` says part by part which values of JSON are descriptions, and
`SchemaDescription.StatedBy` what such a value states.  `SchemaDescription.ofJson_grammar` is the
main statement: these values are accepted and no others, and each is read as what it states.  The
order in which the parts are checked does not come into it, as it only decides which of several
faults is reported. -/

/-- The text is the word, whatever the size of its ASCII letters. -/
def Text.Spells (text word : String) : Prop := Text.toSmallAscii text = word

instance (text word : String) : Decidable (Text.Spells text word) :=
  inferInstanceAs (Decidable (Text.toSmallAscii text = word))

/-- What is under the key, if anything, is of a kind. -/
def Keyed.IfAny {α : Type} (members : Keyed α) (key : String) (kind : α → Prop) : Prop :=
  ∀ value, Keyed.get? members key = some value → kind value

theorem Keyed.ifAny_of_absent {α : Type} {members : Keyed α} {key : String} {kind : α → Prop}
    (absent : (Keyed.get? members key).isNone = true) : members.IfAny key kind := by
  simp [IfAny, Option.isNone_iff_eq_none.mp absent]

theorem Keyed.ifAny_of_some {α : Type} {members : Keyed α} {key : String} {kind : α → Prop}
    {value : α} (held : Keyed.get? members key = some value) (fits : kind value) :
    members.IfAny key kind := by
  intro other same
  rw [held, Option.some.injEq] at same
  exact same ▸ fits

namespace Json

def IsText (json : Json) : Prop := ∃ text, json = .text text

def IsNumber (json : Json) : Prop := ∃ number, json = .number number

/-- A truth value, as such or spelled out. -/
def IsFlag (json : Json) : Prop :=
  (∃ value, json = .bool value) ∨
    ∃ text, json = .text text ∧ (Text.Spells text "true" ∨ Text.Spells text "false")

/-- A descriptor for a field of the type: each of its parts has its form, and what the type asks
for is there. -/
structure IsDescriptor (descriptor : Keyed Json) (type : FieldType) : Prop where
  typed : ∃ text, Keyed.get? descriptor "type" = some (.text text) ∧ Text.Spells text type.name
  texts : ∀ key ∈ ["values", "validate", "validateFailMsg", "formatter", "calculator",
    "calculatedType"], Keyed.IfAny descriptor key IsText
  computed : type = .calculated → ∀ key ∈ ["calculator", "calculatedType"],
    (Keyed.get? descriptor key).isSome = true
  bounds : ∀ key ∈ ["min", "max"],
    Keyed.IfAny descriptor key fun bound => bound.IsNumber ∨ bound.IsText
  schema : type = .subschema → Keyed.IfAny descriptor "schema" IsText
  required : Keyed.IfAny descriptor "required" IsFlag

inductive IsSingleField : Json → Prop
  | shorthand {text : String} {shorthand : Shorthand} (listed : shorthand ∈ Shorthand.all)
      (spelled : Text.Spells text shorthand.name) : IsSingleField (.text text)
  | descriptor {descriptor : Keyed Json} {type : FieldType}
      (described : IsDescriptor descriptor type) : IsSingleField (.object descriptor)

inductive IsField : Json → Prop
  | single {json : Json} (single : json.IsSingleField) : IsField json
  | array {item : Json} (single : item.IsSingleField) : IsField (.array [item])

structure IsFieldName (name : String) : Prop where
  nonempty : name ≠ ""
  unreserved : name ∉ reservedFieldNames.map Prod.fst
  unmarked : name.toList.head? ≠ some '_'

instance (name : String) : Decidable (IsFieldName name) :=
  decidable_of_iff (name ≠ "" ∧ name ∉ reservedFieldNames.map Prod.fst ∧
      name.toList.head? ≠ some '_')
    ⟨fun ⟨nonempty, unreserved, unmarked⟩ => ⟨nonempty, unreserved, unmarked⟩,
      fun ⟨nonempty, unreserved, unmarked⟩ => ⟨nonempty, unreserved, unmarked⟩⟩

/-- The values of JSON that describe a schema. -/
inductive IsDescription : Json → Prop
  | object {members : Keyed Json} {name : String} {version : Nat} {fields : Keyed Json}
      (named : Keyed.get? members "name" = some (.text name)) (nonempty : name ≠ "")
      (versioned : Keyed.get? members "version" = some (.nat version))
      (bounded : version < SchemaDescription.versionLimit)
      (imports : Keyed.IfAny members "customImportLines" fun lines =>
        ∃ values, lines = texts values)
      (declared : Keyed.get? members "fields" = some (.object fields))
      (names : ∀ entry ∈ fields, IsFieldName entry.1)
      (each : ∀ entry ∈ fields, entry.2.IsField) : IsDescription (.object members)

end Json

/-- What stands for a limit, if there is one. -/
inductive Bound.StatedBy : Option Bound → Option Json → Prop
  | absent : StatedBy none none
  | text (text : String) : StatedBy (some (.text text)) (some (.text text))
  | number {number : JsonNumber} {value : Finite} (finite : number.toNumber = .finite value) :
      StatedBy (some (.number value)) (some (.number number))

/-- What says whether a field is required, which it is unless something else is said. -/
inductive FieldSpec.RequiredBy : Bool → Option Json → Prop
  | absent : RequiredBy true none
  | bool (value : Bool) : RequiredBy value (some (.bool value))
  | spelled {text : String} {value : Bool}
      (spelled : Text.Spells text (if value then "true" else "false")) :
      RequiredBy value (some (.text text))

namespace FieldSpec

/-- What a descriptor states of a field, part by part. -/
structure DescribedBy (spec : FieldSpec) (descriptor : Keyed Json) : Prop where
  type : ∃ text, Keyed.get? descriptor "type" = some (.text text) ∧
    Text.Spells text spec.type.name
  required : RequiredBy spec.required (Keyed.get? descriptor "required")
  default : Keyed.get? descriptor "default" = spec.default
  values : Keyed.get? descriptor "values" = spec.values.map .text
  validator : Keyed.get? descriptor "validate" = spec.validator.map .text
  failMessage : Keyed.get? descriptor "validateFailMsg" = spec.failMessage.map .text
  formatter : Keyed.get? descriptor "formatter" = spec.formatter.map .text
  calculator : Keyed.get? descriptor "calculator" = spec.calculator.map .text
  calculatedType : Keyed.get? descriptor "calculatedType" = spec.calculatedType.map .text
  reference : spec.type = .subschema →
    Keyed.get? descriptor "schema" = spec.reference.map fun reference => .text reference.name
  unlinked : ∀ reference, spec.reference = some reference → reference.position = none
  unreferenced : spec.type ≠ .subschema → spec.reference = none
  min : Bound.StatedBy spec.min (Keyed.get? descriptor "min")
  max : Bound.StatedBy spec.max (Keyed.get? descriptor "max")

inductive StatedSingly : FieldSpec → Json → Prop
  | shorthand {text : String} {shorthand : Shorthand} (listed : shorthand ∈ Shorthand.all)
      (spelled : Text.Spells text shorthand.name) :
      StatedSingly (ofShorthand shorthand) (.text text)
  | descriptor {spec : FieldSpec} {descriptor : Keyed Json} (single : spec.isArray = false)
      (described : spec.DescribedBy descriptor) : StatedSingly spec (.object descriptor)

/-- What a field states; a list of one states the same of each item of an array. -/
inductive StatedBy : FieldSpec → Json → Prop
  | single {spec : FieldSpec} {json : Json} (stated : spec.StatedSingly json) : StatedBy spec json
  | array {spec : FieldSpec} {item : Json} (stated : spec.StatedSingly item) :
      StatedBy { spec with isArray := true } (.array [item])

end FieldSpec

/-- What a description states; the fields are in the order in which they are written. -/
inductive SchemaDescription.StatedBy : SchemaDescription → Json → Prop
  | object {description : SchemaDescription} {members fields : Keyed Json}
      (named : Keyed.get? members "name" = some (.text description.name))
      (versioned : Keyed.get? members "version" = some (.nat description.version))
      (imports : Keyed.get? members "customImportLines" =
          some (Json.texts description.customImportLines) ∨
        Keyed.get? members "customImportLines" = none ∧ description.customImportLines = [])
      (declared : Keyed.get? members "fields" = some (.object fields))
      (each : List.Forall₂ (fun entry field => field.1 = entry.1 ∧ field.2.StatedBy entry.2)
        fields description.fields)
      (unlinked : description.imports = [] ∧ description.requiresDateOnly = false) :
      StatedBy description (.object members)

theorem Json.eq_object_of_members? {json : Json} {members : Keyed Json}
    (found : json.members? = some members) : json = .object members := by
  cases json with
  | object held => exact congrArg Json.object (Option.some.inj found)
  | _ => simp [members?] at found

theorem FieldType.ofName?_eq_some_iff {text : String} {type : FieldType} :
    FieldType.ofName? text = some type ↔ Text.Spells text type.name := by
  constructor
  · intro found
    rw [ofName?] at found
    have same := List.find?_some found
    rw [decide_eq_true_eq] at same
    exact same.symm
  · intro spelled
    have read := FieldType.ofName?_name type
    have small : Text.toSmallAscii type.name = type.name := by cases type <;> decide
    rw [ofName?, small] at read
    rw [ofName?, spelled]
    exact read

theorem Shorthand.ofName?_spells {text : String} {shorthand : Shorthand}
    (found : Shorthand.ofName? text = some shorthand) :
    shorthand ∈ Shorthand.all ∧ Text.Spells text shorthand.name := by
  rw [ofName?] at found
  have same := List.find?_some found
  rw [decide_eq_true_eq] at same
  exact ⟨List.mem_of_find?_eq_some found, same.symm⟩

theorem Shorthand.ofName?_of_spells {text : String} {shorthand : Shorthand}
    (listed : shorthand ∈ Shorthand.all) (spelled : Text.Spells text shorthand.name) :
    Shorthand.ofName? text = some shorthand := by
  have each : ∀ listed ∈ all, all.find? (fun other => other.name = listed.name) = some listed := by
    decide
  rw [ofName?, spelled]
  exact each shorthand listed

theorem Json.isFieldName_iff {name : String} :
    Json.IsFieldName name ↔ fieldNameFault? name = none := by
  rw [fieldNameFault?_eq_none_iff]
  exact ⟨fun ⟨nonempty, unreserved, unmarked⟩ => ⟨unreserved, unmarked, nonempty⟩,
    fun ⟨unreserved, unmarked, nonempty⟩ => ⟨nonempty, unreserved, unmarked⟩⟩

example : ¬ Json.IsFieldName "_seat" := by decide

namespace FieldSpec

variable {descriptor : Keyed Json} {key : String} {type : FieldType} {spec : FieldSpec}

theorem get?_of_optionalText {value : Option String}
    (read : optionalText descriptor key = .ok value) :
    Keyed.get? descriptor key = value.map .text := by
  rw [optionalText] at read
  split at read
  · rename_i found
    rw [found, ← Except.ok.inj read, Option.map_none]
  · rename_i text found
    rw [found, ← Except.ok.inj read, Option.map_some]
  · simp at read

theorem get?_of_mandatoryText {value : String}
    (read : mandatoryText descriptor key = .ok value) :
    Keyed.get? descriptor key = some (.text value) := by
  rw [mandatoryText] at read
  obtain ⟨found, stated, read⟩ := ok_of_bind read
  have held := get?_of_optionalText stated
  cases found with
  | none => simp at read
  | some text => rw [held, ← Except.ok.inj read, Option.map_some]

theorem get?_of_calculatorText {value : Option String}
    (read : calculatorText type descriptor key = .ok value) :
    Keyed.get? descriptor key = value.map .text := by
  rw [calculatorText] at read
  split at read
  · exact get?_of_optionalText read
  · cases stated : mandatoryText descriptor key with
    | error fault => simp [stated, Except.map] at read
    | ok text =>
        rw [stated] at read
        rw [get?_of_mandatoryText stated, ← Except.ok.inj read, Option.map_some]

theorem optionalBound_ok_iff {bound : Option Bound} :
    optionalBound descriptor key = .ok bound ↔
      Bound.StatedBy bound (Keyed.get? descriptor key) := by
  rw [optionalBound]
  constructor
  · intro read
    split at read
    · rename_i found
      rw [found, ← Except.ok.inj read]
      exact .absent
    · rename_i text found
      rw [found, ← Except.ok.inj read]
      exact .text text
    · rename_i number found
      split at read
      · rename_i value finite
        rw [found, ← Except.ok.inj read]
        exact .number finite
      · simp at read
    · simp at read
  · intro stated
    generalize Keyed.get? descriptor key = held at stated
    cases stated with
    | absent => rfl
    | text => rfl
    | number finite => simp only [finite]

theorem requiredFlag_ok_iff {required : Bool} :
    requiredFlag descriptor = .ok required ↔
      RequiredBy required (Keyed.get? descriptor "required") := by
  rw [requiredFlag]
  constructor
  · intro read
    split at read
    · rename_i found
      rw [found, ← Except.ok.inj read]
      exact .absent
    · rename_i value found
      rw [found, ← Except.ok.inj read]
      exact .bool value
    · rename_i text found
      split at read
      · rename_i spelled
        rw [found, ← Except.ok.inj read]
        exact .spelled spelled
      · rename_i spelled
        rw [found, ← Except.ok.inj read]
        exact .spelled spelled
      · simp at read
    · simp at read
  · intro stated
    generalize Keyed.get? descriptor "required" = held at stated
    cases stated with
    | absent => rfl
    | bool => rfl
    | spelled spelled =>
        dsimp only
        rw [spelled]
        cases required <;> rfl

theorem Reads.describedBy (reads : Reads descriptor spec) : spec.DescribedBy descriptor := by
  obtain ⟨typeName, named, known⟩ := reads.type
  refine ⟨⟨typeName, get?_of_mandatoryText named, FieldType.ofName?_eq_some_iff.mp known⟩,
    requiredFlag_ok_iff.mp reads.required, reads.default.symm, get?_of_optionalText reads.values,
    get?_of_optionalText reads.validator, get?_of_optionalText reads.failMessage,
    get?_of_optionalText reads.formatter, get?_of_calculatorText reads.calculator,
    get?_of_calculatorText reads.calculatedType, fun subschema => ?_,
    reads.canonical.unlinked, reads.unreferenced, optionalBound_ok_iff.mp reads.min,
    optionalBound_ok_iff.mp reads.max⟩
  obtain ⟨name, read, referring⟩ := reads.reference subschema
  rw [get?_of_optionalText read, referring, Option.map_map]
  rfl

theorem DescribedBy.reads (described : spec.DescribedBy descriptor)
    (single : spec.isArray = false)
    (calculator : spec.type = .calculated → spec.calculator.isSome = true)
    (calculatedType : spec.type = .calculated → spec.calculatedType.isSome = true) :
    Reads descriptor spec := by
  obtain ⟨text, typed, spelled⟩ := described.type
  refine ⟨⟨text, mandatoryText_eq typed, FieldType.ofName?_eq_some_iff.mpr spelled⟩, single,
    requiredFlag_ok_iff.mpr described.required, described.default.symm,
    optionalText_eq described.values, optionalText_eq described.validator,
    optionalText_eq described.failMessage, optionalText_eq described.formatter,
    fun subschema => ?_, described.unreferenced, optionalBound_ok_iff.mpr described.min,
    optionalBound_ok_iff.mpr described.max, calculatorText_eq described.calculator calculator,
    calculatorText_eq described.calculatedType calculatedType⟩
  refine ⟨spec.reference.map Reference.name, optionalText_eq ?_, ?_⟩
  · rw [described.reference subschema, Option.map_map]
    rfl
  · rw [Option.map_map]
    cases referring : spec.reference with
    | none => rfl
    | some reference =>
        rw [Option.map_some, Function.comp_apply, ← described.unlinked reference referring]

theorem exists_text (optional : Keyed.IfAny descriptor key Json.IsText) :
    ∃ value : Option String, Keyed.get? descriptor key = value.map .text := by
  cases found : Keyed.get? descriptor key with
  | none => exact ⟨none, rfl⟩
  | some value =>
      obtain ⟨text, rfl⟩ := optional value found
      exact ⟨some text, rfl⟩

theorem ifAny_text {value : Option String} (found : Keyed.get? descriptor key = value.map .text) :
    Keyed.IfAny descriptor key Json.IsText := by
  intro held same
  rw [found] at same
  obtain ⟨text, _, rfl⟩ := Option.map_eq_some_iff.mp same
  exact ⟨text, rfl⟩

theorem exists_bound (wellFormed : (Json.object descriptor).WellFormed)
    (optional : Keyed.IfAny descriptor key fun bound => bound.IsNumber ∨ bound.IsText) :
    ∃ bound, Bound.StatedBy bound (Keyed.get? descriptor key) := by
  cases found : Keyed.get? descriptor key with
  | none => exact ⟨none, .absent⟩
  | some value =>
      rcases optional value found with ⟨number, rfl⟩ | ⟨text, rfl⟩
      · cases wellFormed.of_get? found with
        | number fits =>
            obtain ⟨finite, same⟩ := fits.toNumber_finite
            exact ⟨some (.number finite), .number same⟩
      · exact ⟨some (.text text), .text text⟩

theorem ifAny_bound {bound : Option Bound}
    (stated : Bound.StatedBy bound (Keyed.get? descriptor key)) :
    Keyed.IfAny descriptor key fun bound => bound.IsNumber ∨ bound.IsText := by
  intro held same
  rw [same] at stated
  cases stated with
  | text text => exact .inr ⟨text, rfl⟩
  | number => exact .inl ⟨_, rfl⟩

theorem exists_required (optional : Keyed.IfAny descriptor "required" Json.IsFlag) :
    ∃ required, RequiredBy required (Keyed.get? descriptor "required") := by
  cases found : Keyed.get? descriptor "required" with
  | none => exact ⟨true, .absent⟩
  | some value =>
      rcases optional value found with ⟨flag, rfl⟩ | ⟨text, rfl, affirmed | denied⟩
      · exact ⟨flag, .bool flag⟩
      · exact ⟨true, .spelled affirmed⟩
      · exact ⟨false, .spelled denied⟩

theorem ifAny_flag {required : Bool}
    (stated : RequiredBy required (Keyed.get? descriptor "required")) :
    Keyed.IfAny descriptor "required" Json.IsFlag := by
  intro held same
  rw [same] at stated
  cases stated with
  | bool => exact .inl ⟨required, rfl⟩
  | @spelled text _ spelled =>
      cases required with
      | true => exact .inr ⟨text, rfl, .inl spelled⟩
      | false => exact .inr ⟨text, rfl, .inr spelled⟩

theorem Reads.isDescriptor (reads : Reads descriptor spec) :
    Json.IsDescriptor descriptor spec.type := by
  have described := reads.describedBy
  refine ⟨described.type, ?_, fun calculated => ?_, ?_, fun subschema => ?_,
    ifAny_flag described.required⟩
  · simp only [List.forall_mem_cons, List.not_mem_nil, false_implies, implies_true, and_true]
    exact ⟨ifAny_text described.values, ifAny_text described.validator,
      ifAny_text described.failMessage, ifAny_text described.formatter,
      ifAny_text described.calculator, ifAny_text described.calculatedType⟩
  · simp only [List.forall_mem_cons, List.not_mem_nil, false_implies, implies_true, and_true]
    rw [described.calculator, described.calculatedType, Option.isSome_map, Option.isSome_map]
    exact ⟨reads.canonical.calculator calculated, reads.canonical.calculatedType calculated⟩
  · simp only [List.forall_mem_cons, List.not_mem_nil, false_implies, implies_true, and_true]
    exact ⟨ifAny_bound described.min, ifAny_bound described.max⟩
  · obtain ⟨name, read, _⟩ := reads.reference subschema
    exact ifAny_text (get?_of_optionalText read)

/-- Every descriptor can be read: its parts are read one by one. -/
theorem exists_reads (wellFormed : (Json.object descriptor).WellFormed)
    (descriptor_of : Json.IsDescriptor descriptor type) : ∃ spec, Reads descriptor spec := by
  obtain ⟨typed, texts, computed, bounds, schema, required⟩ := descriptor_of
  simp only [List.forall_mem_cons, List.not_mem_nil, false_implies, implies_true, and_true]
    at texts computed bounds
  obtain ⟨values, readValues⟩ := exists_text texts.1
  obtain ⟨validator, readValidator⟩ := exists_text texts.2.1
  obtain ⟨failMessage, readFailMessage⟩ := exists_text texts.2.2.1
  obtain ⟨formatter, readFormatter⟩ := exists_text texts.2.2.2.1
  obtain ⟨calculator, readCalculator⟩ := exists_text texts.2.2.2.2.1
  obtain ⟨calculatedType, readCalculatedType⟩ := exists_text texts.2.2.2.2.2
  obtain ⟨min, readMin⟩ := exists_bound wellFormed bounds.1
  obtain ⟨max, readMax⟩ := exists_bound wellFormed bounds.2
  obtain ⟨required, readRequired⟩ := exists_required required
  have referring : ∃ reference : Option Reference,
      (type = .subschema → Keyed.get? descriptor "schema" =
        reference.map fun reference => .text reference.name) ∧
      (∀ target, reference = some target → target.position = none) ∧
      (type ≠ .subschema → reference = none) := by
    by_cases subschema : type = .subschema
    · obtain ⟨name, read⟩ := exists_text (schema subschema)
      refine ⟨name.map (⟨·, none⟩), fun _ => ?_, fun target same => ?_, absurd subschema⟩
      · rw [read, Option.map_map]
        rfl
      · obtain ⟨_, _, rfl⟩ := Option.map_eq_some_iff.mp same
        rfl
    · exact ⟨none, fun same => absurd same subschema, by simp, fun _ => rfl⟩
  obtain ⟨reference, readReference, unlinked, unreferenced⟩ := referring
  rw [readCalculator, readCalculatedType, Option.isSome_map, Option.isSome_map] at computed
  let spec : FieldSpec :=
    { type, required, default := Keyed.get? descriptor "default", values, validator, failMessage,
      formatter, reference, min, max, calculator, calculatedType }
  have described : spec.DescribedBy descriptor :=
    ⟨typed, readRequired, rfl, readValues, readValidator, readFailMessage, readFormatter,
      readCalculator, readCalculatedType, readReference, unlinked, unreferenced, readMin, readMax⟩
  exact ⟨spec, described.reads rfl (fun calculated => (computed calculated).1)
    fun calculated => (computed calculated).2⟩

variable {raw : Json} {name : String}

theorem ofSingle_statedSingly (described : ofSingle raw = .ok spec) :
    spec.StatedSingly raw ∧ raw.IsSingleField := by
  cases raw with
  | text text =>
      rw [ofSingle] at described
      split at described
      · rename_i shorthand found
        obtain ⟨listed, spelled⟩ := Shorthand.ofName?_spells found
        rw [← Except.ok.inj described]
        exact ⟨.shorthand listed spelled, .shorthand listed spelled⟩
      · simp at described
  | object descriptor =>
      have reads := reads_of_ofDescriptor described
      exact ⟨.descriptor reads.single reads.describedBy, .descriptor reads.isDescriptor⟩
  | _ => simp [ofSingle] at described

theorem ofSingle_exists (wellFormed : raw.WellFormed) (single : raw.IsSingleField) :
    ∃ spec, ofSingle raw = .ok spec := by
  cases single with
  | @shorthand _ shorthand listed spelled =>
      refine ⟨ofShorthand shorthand, ?_⟩
      rw [ofSingle, Shorthand.ofName?_of_spells listed spelled]
  | descriptor described =>
      obtain ⟨spec, reads⟩ := exists_reads wellFormed described
      exact ⟨spec, ofDescriptor_of_reads reads⟩

theorem ofJson_statedBy (described : ofJson name raw = .ok spec) :
    spec.StatedBy raw ∧ Json.IsFieldName name ∧ raw.IsField := by
  rw [ofJson.eq_def] at described
  cases allowed : fieldNameFault? name with
  | some fault => simp [allowed] at described
  | none =>
      simp only [allowed] at described
      have named := Json.isFieldName_iff.mpr allowed
      split at described
      · rename_i item
        cases single : ofSingle item with
        | error fault => simp [single, Except.map] at described
        | ok inner =>
            rw [single] at described
            obtain ⟨stated, formed⟩ := ofSingle_statedSingly single
            rw [← Except.ok.inj described]
            exact ⟨.array stated, named, .array formed⟩
      · simp at described
      · obtain ⟨stated, formed⟩ := ofSingle_statedSingly described
        exact ⟨.single stated, named, .single formed⟩

theorem ofJson_exists (wellFormed : raw.WellFormed) (named : Json.IsFieldName name)
    (field : raw.IsField) : ∃ spec, ofJson name raw = .ok spec := by
  rw [ofJson.eq_def, Json.isFieldName_iff.mp named]
  cases field with
  | single single =>
      obtain ⟨spec, described⟩ := ofSingle_exists wellFormed single
      cases single with
      | shorthand | descriptor => exact ⟨spec, described⟩
  | array single =>
      obtain ⟨spec, described⟩ :=
        ofSingle_exists (Json.wellFormed_array_iff.mp wellFormed _ List.mem_cons_self) single
      exact ⟨{ spec with isArray := true }, by simp only [described, Except.map]⟩

end FieldSpec

theorem Json.eq_map_text {items : List Json} {values : List String}
    (read : items.mapM text? = some values) : items = values.map .text := by
  induction items generalizing values with
  | nil =>
      rw [List.mapM_nil] at read
      rw [← Option.some.inj read, List.map_nil]
  | cons item rest inductionHypothesis =>
      rw [List.mapM_cons] at read
      obtain ⟨text, first, read⟩ := Option.bind_eq_some_iff.mp read
      obtain ⟨texts, others, read⟩ := Option.bind_eq_some_iff.mp read
      cases item with
      | text value =>
          obtain rfl := Option.some.inj first
          rw [← Option.some.inj read, List.map_cons, ← inductionHypothesis others]
      | _ => simp [text?] at first

theorem Json.texts?_eq_some_iff {json : Json} {values : List String} :
    json.texts? = some values ↔ json = .texts values := by
  constructor
  · intro read
    obtain ⟨items, listed, each⟩ := Option.bind_eq_some_iff.mp read
    cases json with
    | array found =>
        obtain rfl := Option.some.inj listed
        exact congrArg array (eq_map_text each)
    | _ => simp [items?] at listed
  · rintro rfl
    exact texts?_texts values

namespace SchemaDescription

variable {json : Json} {origin : String} {description : SchemaDescription}

theorem version?_eq_some_iff {version : Nat} :
    version? json = some version ↔ json = .nat version ∧ version < versionLimit := by
  constructor
  · intro read
    obtain ⟨whole, integral, small⟩ := Option.bind_eq_some_iff.mp read
    refine ⟨?_, version?_lt read⟩
    split at small
    · rename_i bounds
      have same := Option.some.inj small
      cases json with
      | number number =>
          cases number with
          | int value =>
              have held : value = whole := Option.some.inj integral
              rw [Json.nat, Json.int, ← same, Int.toNat_of_nonneg bounds.1, held]
          | float value => simp [Json.int?] at integral
      | _ => simp [Json.int?] at integral
    · simp at small
  · rintro ⟨rfl, small⟩
    exact version?_nat small

theorem nonEmptyText?_eq_some_iff {name : String} :
    nonEmptyText? json = some name ↔ json = .text name ∧ name ≠ "" := by
  constructor
  · intro read
    refine ⟨?_, ne_empty_of_nonEmptyText? read⟩
    cases json with
    | text text =>
        rw [nonEmptyText?] at read
        split at read
        · simp at read
        · rw [Option.some.inj read]
    | _ => simp [nonEmptyText?] at read
  · rintro ⟨rfl, nonempty⟩
    exact nonEmptyText?_text nonempty

theorem customImportLines?_eq_some_iff {held : Option Json} {lines : List String} :
    customImportLines? held = some lines ↔
      held = some (.texts lines) ∨ held = none ∧ lines = [] := by
  constructor
  · intro read
    cases held with
    | none => exact .inr ⟨rfl, (Option.some.inj read).symm⟩
    | some json => exact .inl (congrArg some (Json.texts?_eq_some_iff.mp read))
  · rintro (rfl | ⟨rfl, rfl⟩)
    · exact Json.texts?_texts lines
    · rfl

/-- What is accepted is a description, and is read as what it states. -/
theorem ofJson_statedBy (accepted : ofJson json origin = .ok description) :
    description.StatedBy json ∧ description.origin = origin ∧ json.IsDescription := by
  rw [ofJson] at accepted
  obtain ⟨header, read, accepted⟩ := ok_of_bind accepted
  obtain ⟨fields, normalized, accepted⟩ := ok_of_bind accepted
  obtain rfl := Except.ok.inj accepted
  obtain ⟨members, object, named, declared, versioned, imported⟩ := Header.ofJson_ok_iff.mp read
  obtain ⟨_, nameHeld, named⟩ := Option.bind_eq_some_iff.mp named
  obtain ⟨rfl, nonempty⟩ := nonEmptyText?_eq_some_iff.mp named
  obtain ⟨_, versionHeld, versioned⟩ := Option.bind_eq_some_iff.mp versioned
  obtain ⟨rfl, small⟩ := version?_eq_some_iff.mp versioned
  obtain ⟨_, fieldsHeld, declared⟩ := Option.bind_eq_some_iff.mp declared
  obtain rfl := Json.eq_object_of_members? declared
  obtain rfl := Json.eq_object_of_members? object
  have imports := customImportLines?_eq_some_iff.mp imported
  have parts : List.Forall₂ (fun entry result =>
      (Json.IsFieldName entry.1 ∧ entry.2.IsField) ∧
        (result.1 = entry.1 ∧ result.2.StatedBy entry.2)) header.fields fields := by
    refine (mapM_ok_iff.mp normalized).imp fun entry result normalized => ?_
    obtain ⟨same, described⟩ := normalizedField_ok normalized
    obtain ⟨stated, formed⟩ := FieldSpec.ofJson_statedBy described
    exact ⟨formed, same, stated⟩
  obtain ⟨formed, each⟩ := (List.forall₂_and_left _ _).mp parts
  refine ⟨.object nameHeld versionHeld imports fieldsHeld each ⟨rfl, rfl⟩, rfl,
    .object nameHeld nonempty versionHeld small ?_ fieldsHeld (fun entry member =>
      (formed entry member).1) fun entry member => (formed entry member).2⟩
  intro lines held
  rw [held] at imports
  rcases imports with stated | ⟨absent, _⟩
  · exact ⟨_, Option.some.inj stated⟩
  · simp at absent

theorem ofJson_exists (wellFormed : json.WellFormed) (described : json.IsDescription)
    (origin : String) : ∃ description, ofJson json origin = .ok description := by
  cases described with
  | @object members name version fields named nonempty versioned bounded imports declared names
      each =>
      have stated : ∃ lines,
          customImportLines? (Keyed.get? members "customImportLines") = some lines := by
        cases found : Keyed.get? members "customImportLines" with
        | none => exact ⟨[], rfl⟩
        | some held =>
            obtain ⟨lines, rfl⟩ := imports held found
            exact ⟨lines, Json.texts?_texts lines⟩
      obtain ⟨customImportLines, imported⟩ := stated
      have header : Header.ofJson (.object members) origin =
          .ok { name, version, customImportLines, fields } := by
        refine Header.ofJson_ok_iff.mpr ⟨members, rfl, ?_, ?_, ?_, imported⟩
        · rw [named, Option.bind_some, nonEmptyText?_text nonempty]
        · rw [declared, Option.bind_some, Json.members?]
        · rw [versioned, Option.bind_some, version?_eq_some_iff.mpr ⟨rfl, bounded⟩]
      have readable : ∀ entry ∈ fields, ∃ result, normalizedField name entry = .ok result := by
        intro entry member
        have inner := wellFormed.of_get? declared
        obtain ⟨spec, read⟩ := FieldSpec.ofJson_exists
          ((Json.wellFormed_object_iff.mp inner).2 entry member) (names entry member)
          (each entry member)
        exact ⟨(entry.1, spec), by rw [normalizedField, read]⟩
      obtain ⟨results, normalized⟩ := mapM_exists readable
      refine ⟨{ name, version, origin, fields := results, customImportLines }, ?_⟩
      rw [ofJson, header]
      simp only [bind, Except.bind, normalized]

/-- The descriptions that are accepted are those of the grammar, and what is read of one is what
it states, with the fields in the order in which they are written. -/
theorem ofJson_grammar (wellFormed : json.WellFormed) (origin : String) :
    ((∃ description, ofJson json origin = .ok description) ↔ json.IsDescription) ∧
    ∀ description, ofJson json origin = .ok description →
      description.StatedBy json ∧ description.origin = origin := by
  refine ⟨⟨?_, fun described => ofJson_exists wellFormed described origin⟩, ?_⟩
  · rintro ⟨description, accepted⟩
    exact (ofJson_statedBy accepted).2.2
  · intro description accepted
    exact ⟨(ofJson_statedBy accepted).1, (ofJson_statedBy accepted).2.1⟩

end SchemaDescription

namespace Sample

def ticketPrice : Keyed Json :=
  [("type", .text "Number"), ("min", .nat 0), ("max", .text "100"), ("required", .text "FALSE"),
    ("currency", .text "EUR")]

def ticketStop : Keyed Json := [("type", .text "subschema"), ("schema", .text "Stop")]

def ticketTotal : Keyed Json :=
  [("type", .text "calculated"), ("calculator", .text "sum"), ("calculatedType", .text "number")]

def ticketFields : Keyed Json :=
  [("seat", .text "OptString"), ("price", .object ticketPrice),
    ("stops", .array [.object ticketStop]), ("total", .object ticketTotal)]

def ticket : Json :=
  .object [("name", .text "Ticket"), ("version", .nat 2),
    ("customImportLines", .texts ["seats"]), ("fields", .object ticketFields)]

theorem ticket_wellFormed : ticket.WellFormed := by
  simp [ticket, ticketFields, ticketPrice, ticketStop, ticketTotal, Json.nat, Json.int,
    Json.texts, Keyed.keys]

theorem ticketPrice_isDescriptor : Json.IsDescriptor ticketPrice .number where
  typed := ⟨"Number", rfl, by decide⟩
  texts key member := Keyed.ifAny_of_absent (by revert key; decide)
  computed := by simp
  bounds := by
    simp only [List.forall_mem_cons, List.not_mem_nil, false_implies, implies_true, and_true]
    exact ⟨Keyed.ifAny_of_some rfl (.inl ⟨_, rfl⟩), Keyed.ifAny_of_some rfl (.inr ⟨_, rfl⟩)⟩
  schema := by simp
  required := Keyed.ifAny_of_some rfl (.inr ⟨"FALSE", rfl, .inr (by decide)⟩)

theorem ticketStop_isDescriptor : Json.IsDescriptor ticketStop .subschema where
  typed := ⟨"subschema", rfl, by decide⟩
  texts key member := Keyed.ifAny_of_absent (by revert key; decide)
  computed := by simp
  bounds key member := Keyed.ifAny_of_absent (by revert key; decide)
  schema _ := Keyed.ifAny_of_some rfl ⟨_, rfl⟩
  required := Keyed.ifAny_of_absent rfl

theorem ticketTotal_isDescriptor : Json.IsDescriptor ticketTotal .calculated where
  typed := ⟨"calculated", rfl, by decide⟩
  texts := by
    simp only [List.forall_mem_cons, List.not_mem_nil, false_implies, implies_true, and_true]
    exact ⟨Keyed.ifAny_of_absent rfl, Keyed.ifAny_of_absent rfl, Keyed.ifAny_of_absent rfl,
      Keyed.ifAny_of_absent rfl, Keyed.ifAny_of_some rfl ⟨_, rfl⟩,
      Keyed.ifAny_of_some rfl ⟨_, rfl⟩⟩
  computed _ := by decide
  bounds key member := Keyed.ifAny_of_absent (by revert key; decide)
  schema := by simp
  required := Keyed.ifAny_of_absent rfl

theorem ticket_isDescription : ticket.IsDescription := by
  refine .object rfl (by decide) rfl (by decide) ?_ rfl ?_ ?_
  · intro lines held
    exact ⟨["seats"], (Option.some.inj held).symm⟩
  · decide
  · simp only [ticketFields, List.forall_mem_cons, List.not_mem_nil, false_implies, implies_true,
      and_true]
    have seat : (⟨"optstring", .string, false⟩ : Shorthand) ∈ Shorthand.all := by decide
    exact ⟨.single (.shorthand seat (by decide)), .single (.descriptor ticketPrice_isDescriptor),
      .array (.descriptor ticketStop_isDescriptor), .single (.descriptor ticketTotal_isDescriptor)⟩

end Sample

open Sample in
theorem SchemaDescription.ofJson_grammar_of_ticket :
    (ticket.WellFormed ∧ ticket.IsDescription) ∧
    ∃ description, ofJson ticket "ticket.json" = .ok description ∧
      description.StatedBy ticket := by
  obtain ⟨accepted, states⟩ := SchemaDescription.ofJson_grammar ticket_wellFormed "ticket.json"
  obtain ⟨description, read⟩ := accepted.mpr ticket_isDescription
  exact ⟨⟨ticket_wellFormed, ticket_isDescription⟩, description, read,
    (states description read).1⟩

end Schemata
