import Schemata.Registry
import Schemata.Proofs.Collect
import Schemata.Proofs.Graph.Resolution
import Schemata.Proofs.Value.Stored
namespace Schemata

/-! What is known of a description once it has been accepted, however it is loaded and
linked afterwards. -/

theorem Json.WellFormed.members {json : Json} {members : Keyed Json}
    (wellFormed : json.WellFormed) (found : json.members? = some members) :
    (Json.object members).WellFormed := by
  cases wellFormed with
  | object names each =>
      rw [members?, Option.some.injEq] at found
      exact found ▸ .object names each
  | _ => simp [members?] at found

theorem Json.WellFormed.of_get? {members : Keyed Json} {key : String} {value : Json}
    (wellFormed : (Json.object members).WellFormed)
    (found : Keyed.get? members key = some value) : value.WellFormed := by
  cases wellFormed with
  | object _ each => exact each (key, value) (Keyed.mem_of_get? found)

namespace FieldSpec

variable {raw : Json} {descriptor : Keyed Json} {spec : FieldSpec}

/-- What a descriptor says, part by part. -/
structure Reads (descriptor : Keyed Json) (spec : FieldSpec) : Prop where
  type : ∃ name, mandatoryText descriptor "type" = .ok name ∧
    FieldType.ofName? name = some spec.type
  single : spec.isArray = false
  required : requiredFlag descriptor = .ok spec.required
  default : spec.default = Keyed.get? descriptor "default"
  values : optionalText descriptor "values" = .ok spec.values
  validator : optionalText descriptor "validate" = .ok spec.validator
  failMessage : optionalText descriptor "validateFailMsg" = .ok spec.failMessage
  formatter : optionalText descriptor "formatter" = .ok spec.formatter
  reference : spec.type = .subschema →
    ∃ name, optionalText descriptor "schema" = .ok name ∧ spec.reference = name.map (⟨·, none⟩)
  unreferenced : spec.type ≠ .subschema → spec.reference = none
  min : optionalBound descriptor "min" = .ok spec.min
  max : optionalBound descriptor "max" = .ok spec.max
  calculator : calculatorText spec.type descriptor "calculator" = .ok spec.calculator
  calculatedType :
    calculatorText spec.type descriptor "calculatedType" = .ok spec.calculatedType

theorem reads_of_ofDescriptor (described : ofDescriptor descriptor = .ok spec) :
    Reads descriptor spec := by
  rw [ofDescriptor] at described
  obtain ⟨typeName, named, described⟩ := ok_of_bind described
  cases known : FieldType.ofName? typeName with
  | none => simp [known, bind, Except.bind] at described
  | some found =>
      simp only [known] at described
      obtain ⟨type, same, described⟩ := ok_of_bind described
      obtain ⟨values, readValues, described⟩ := ok_of_bind described
      obtain ⟨validator, readValidator, described⟩ := ok_of_bind described
      obtain ⟨formatter, readFormatter, described⟩ := ok_of_bind described
      obtain ⟨failMessage, readFailMessage, described⟩ := ok_of_bind described
      obtain ⟨min, readMin, described⟩ := ok_of_bind described
      obtain ⟨max, readMax, described⟩ := ok_of_bind described
      obtain ⟨calculator, readCalculator, described⟩ := ok_of_bind described
      obtain ⟨calculatedType, readCalculatedType, described⟩ := ok_of_bind described
      have readType : ∃ name, mandatoryText descriptor "type" = .ok name ∧
          FieldType.ofName? name = some type := ⟨typeName, named, Except.ok.inj same ▸ known⟩
      split at described
      · rename_i subschema
        obtain ⟨reference, readReference, described⟩ := ok_of_bind described
        obtain ⟨required, readRequired, described⟩ := ok_of_bind described
        obtain rfl := Except.ok.inj described
        have stated : ∃ name, optionalText descriptor "schema" = .ok name ∧
            reference = name.map (⟨·, none⟩) := by
          cases read : optionalText descriptor "schema" with
          | error fault => simp [read, Except.map] at readReference
          | ok name =>
              rw [read] at readReference
              exact ⟨name, rfl, (Except.ok.inj readReference).symm⟩
        exact ⟨readType, rfl, readRequired, rfl, readValues, readValidator, readFailMessage,
          readFormatter, fun _ => stated,
          fun other => absurd (of_decide_eq_true subschema) other, readMin, readMax,
          readCalculator, readCalculatedType⟩
      · rename_i other
        obtain ⟨reference, unnamed, described⟩ := ok_of_bind described
        obtain ⟨required, readRequired, described⟩ := ok_of_bind described
        obtain rfl := Except.ok.inj described
        exact ⟨readType, rfl, readRequired, rfl, readValues, readValidator, readFailMessage,
          readFormatter, fun subschema => absurd (decide_eq_true subschema) other,
          fun _ => (Except.ok.inj unnamed).symm, readMin, readMax, readCalculator,
          readCalculatedType⟩

theorem ofDescriptor_of_reads (reads : Reads descriptor spec) :
    ofDescriptor descriptor = .ok spec := by
  obtain ⟨⟨name, named, known⟩, single, required, default, values, validator, failMessage,
    formatter, reference, unreferenced, min, max, calculator, calculatedType⟩ := reads
  rw [ofDescriptor, named]
  simp only [bind, Except.bind, known, values, validator, formatter, failMessage, min, max,
    calculator, calculatedType, required, ← default]
  split
  · rename_i subschema
    obtain ⟨stated, read, referring⟩ := reference (of_decide_eq_true subschema)
    simp only [read, Except.map, ← referring, ← single]
  · rename_i other
    have plain := unreferenced fun subschema => other (decide_eq_true subschema)
    rw [← plain, ← single]

theorem ofDescriptor_ok (described : ofDescriptor descriptor = .ok spec) :
    spec.default = Keyed.get? descriptor "default" ∧
      (spec.type ≠ .subschema → spec.reference = none) :=
  ⟨(reads_of_ofDescriptor described).default, (reads_of_ofDescriptor described).unreferenced⟩

theorem ofSingle_default {default : Json} (wellFormed : raw.WellFormed)
    (described : ofSingle raw = .ok spec) (declared : spec.default = some default) :
    default.WellFormed := by
  cases raw with
  | text text =>
      rw [ofSingle] at described
      split at described
      · rw [← Except.ok.inj described] at declared
        simp [ofShorthand] at declared
      · simp at described
  | object descriptor =>
      rw [(ofDescriptor_ok described).1] at declared
      exact wellFormed.of_get? declared
  | _ => simp [ofSingle] at described

theorem ofSingle_reference (described : ofSingle raw = .ok spec) (other : spec.type ≠ .subschema) :
    spec.reference = none := by
  cases raw with
  | text text =>
      rw [ofSingle] at described
      split at described
      · rw [← Except.ok.inj described]
        rfl
      · simp at described
  | object descriptor => exact (ofDescriptor_ok described).2 other
  | _ => simp [ofSingle] at described

theorem ofJson_ok {name : String} (described : ofJson name raw = .ok spec) :
    fieldNameFault? name = none ∧ (spec.type ≠ .subschema → spec.reference = none) ∧
      (raw.WellFormed → ∀ default, spec.default = some default → default.WellFormed) := by
  rw [ofJson.eq_def] at described
  cases allowed : fieldNameFault? name with
  | some fault => simp [allowed] at described
  | none =>
      simp only [allowed] at described
      refine ⟨rfl, ?_⟩
      split at described
      · rename_i item
        cases single : ofSingle item with
        | error fault => simp [single, Except.map] at described
        | ok inner =>
            rw [single] at described
            rw [← Except.ok.inj described]
            have unreferenced : inner.type ≠ .subschema → inner.reference = none :=
              ofSingle_reference single
            refine ⟨unreferenced, fun wellFormed default declared => ?_⟩
            cases wellFormed with
            | array each => exact ofSingle_default (each item List.mem_cons_self) single declared
      · simp at described
      · exact ⟨fun other => ofSingle_reference described other,
          fun wellFormed default => ofSingle_default wellFormed described⟩

end FieldSpec

namespace SchemaDescription

/-- What every description that is accepted has: fields under distinct names that are
allowed, defaults that are JSON and a version that fits. -/
structure Accepted (description : SchemaDescription) : Prop where
  names : (Keyed.keys description.fields).Nodup
  allowed : ∀ entry ∈ description.fields, fieldNameFault? entry.1 = none
  defaults : ∀ entry ∈ description.fields, ∀ default, entry.2.default = some default →
    default.WellFormed
  version_lt : description.version < versionLimit

/-- What a description has however it is written: a version that fits, names that are
allowed, and references only where the values of a field are documents. -/
structure Regular (description : SchemaDescription) : Prop where
  version_lt : description.version < versionLimit
  allowed : ∀ entry ∈ description.fields, fieldNameFault? entry.1 = none
  references : ∀ entry ∈ description.fields, entry.2.type ≠ .subschema →
    entry.2.reference = none

variable {json : Json} {origin : String} {description : SchemaDescription}

theorem part_ok {α : Type} {fault : DescriptionError} {found : Option α} {value : α}
    (present : part fault found = .ok value) : found = some value := by
  cases found with
  | none => simp [part] at present
  | some found => rw [← Except.ok.inj present]

theorem version?_lt {version : Nat} (read : version? json = some version) :
    version < versionLimit := by
  obtain ⟨whole, _, small⟩ := Option.bind_eq_some_iff.mp read
  split at small
  · have same := Option.some.inj small
    omega
  · simp at small

theorem Header.ofJson_ok_iff {header : Header} :
    Header.ofJson json origin = .ok header ↔ ∃ members, json.members? = some members ∧
      (Keyed.get? members "name").bind nonEmptyText? = some header.name ∧
      (Keyed.get? members "fields").bind Json.members? = some header.fields ∧
      (Keyed.get? members "version").bind version? = some header.version ∧
      customImportLines? (Keyed.get? members "customImportLines") =
        some header.customImportLines := by
  rw [Header.ofJson]
  constructor
  · intro read
    obtain ⟨members, object, read⟩ := ok_of_bind read
    obtain ⟨name, named, read⟩ := ok_of_bind read
    obtain ⟨fields, declared, read⟩ := ok_of_bind read
    obtain ⟨version, versioned, read⟩ := ok_of_bind read
    obtain ⟨lines, imported, read⟩ := ok_of_bind read
    rw [← Except.ok.inj read]
    exact ⟨members, part_ok object, part_ok named, part_ok declared, part_ok versioned,
      part_ok imported⟩
  · rintro ⟨members, object, named, declared, versioned, imported⟩
    simp only [object, named, declared, versioned, imported, part, bind, Except.bind]

theorem Header.ofJson_ok {header : Header} (read : Header.ofJson json origin = .ok header) :
    header.version < versionLimit ∧
      (json.WellFormed → (Json.object header.fields).WellFormed) := by
  obtain ⟨members, object, _, declared, versioned, _⟩ := Header.ofJson_ok_iff.mp read
  obtain ⟨_, _, small⟩ := Option.bind_eq_some_iff.mp versioned
  obtain ⟨_, found, nested⟩ := Option.bind_eq_some_iff.mp declared
  exact ⟨version?_lt small, fun wellFormed =>
    ((wellFormed.members object).of_get? found).members nested⟩

theorem normalizedField_ok {schema : String} {entry : String × Json}
    {result : String × FieldSpec} (normalized : normalizedField schema entry = .ok result) :
    result.1 = entry.1 ∧ FieldSpec.ofJson entry.1 entry.2 = .ok result.2 := by
  rw [normalizedField] at normalized
  split at normalized
  · rename_i spec described
    rw [← Except.ok.inj normalized]
    exact ⟨rfl, described⟩
  · simp at normalized

theorem ofJson_accepted (wellFormed : json.WellFormed)
    (accepted : ofJson json origin = .ok description) : description.Accepted := by
  rw [ofJson] at accepted
  obtain ⟨header, read, accepted⟩ := ok_of_bind accepted
  obtain ⟨fields, normalized, accepted⟩ := ok_of_bind accepted
  rw [← Except.ok.inj accepted]
  obtain ⟨small, object⟩ := Header.ofJson_ok read
  have names : Keyed.keys fields = Keyed.keys header.fields :=
    map_of_mapM (fun normalized => (normalizedField_ok normalized).1) normalized
  cases object wellFormed with
  | object distinct each =>
      refine ⟨names ▸ distinct, ?_, ?_, small⟩
      · intro result member
        obtain ⟨entry, _, normalized⟩ := mem_of_mapM normalized member
        obtain ⟨same, described⟩ := normalizedField_ok normalized
        exact same ▸ (FieldSpec.ofJson_ok described).1
      · intro result member
        obtain ⟨entry, inside, normalized⟩ := mem_of_mapM normalized member
        exact (FieldSpec.ofJson_ok (normalizedField_ok normalized).2).2.2 (each entry inside)

theorem ofJson_regular (accepted : ofJson json origin = .ok description) :
    description.Regular := by
  rw [ofJson] at accepted
  obtain ⟨header, read, accepted⟩ := ok_of_bind accepted
  obtain ⟨fields, normalized, accepted⟩ := ok_of_bind accepted
  rw [← Except.ok.inj accepted]
  have origin : ∀ result ∈ fields, fieldNameFault? result.1 = none ∧
      (result.2.type ≠ .subschema → result.2.reference = none) := by
    intro result member
    obtain ⟨entry, _, normalized⟩ := mem_of_mapM normalized member
    obtain ⟨same, described⟩ := normalizedField_ok normalized
    obtain ⟨allowed, unreferenced, _⟩ := FieldSpec.ofJson_ok described
    exact ⟨same ▸ allowed, unreferenced⟩
  exact ⟨(Header.ofJson_ok read).1, fun result member => (origin result member).1,
    fun result member => (origin result member).2⟩

end SchemaDescription

namespace Registry

variable {registry : Registry} {calls : List (Json × String)}

/-- What holds of every description that is accepted holds of all that are registered. -/
theorem registerAll_forall {holds : SchemaDescription → Prop}
    (initial : ∀ description ∈ registry.schemas, holds description)
    (accepted : ∀ call ∈ calls, ∀ description,
      SchemaDescription.ofJson call.1 call.2 = .ok description → holds description) :
    ∀ description ∈ (registry.registerAll calls).schemas, holds description := by
  induction calls generalizing registry with
  | nil => exact initial
  | cons call rest inductionHypothesis =>
      rw [registerAll, List.foldl_cons]
      refine inductionHypothesis ?_ fun other later => accepted other (List.mem_cons_of_mem _ later)
      split
      · rename_i next position registered
        rw [register] at registered
        split at registered
        · rename_i description read
          rw [add] at registered
          split at registered
          · simp at registered
          · obtain ⟨rfl, _⟩ := Prod.mk.inj (Except.ok.inj registered)
            intro other member
            rcases List.mem_append.mp member with earlier | last
            · exact initial other earlier
            · rw [List.mem_singleton.mp last]
              exact accepted call List.mem_cons_self description read
        · simp at registered
      · exact initial

theorem registerAll_accepted (accepted : ∀ description ∈ registry.schemas, description.Accepted)
    (wellFormed : ∀ call ∈ calls, call.1.WellFormed) :
    ∀ description ∈ (registry.registerAll calls).schemas, description.Accepted :=
  registerAll_forall accepted fun call member _ read =>
    SchemaDescription.ofJson_accepted (wellFormed call member) read

theorem registerAll_regular (calls : List (Json × String)) :
    ∀ description ∈ (empty.registerAll calls).schemas, description.Regular :=
  registerAll_forall (by simp [empty]) fun _ _ _ read => SchemaDescription.ofJson_regular read

end Registry

namespace Resolution

variable {index : Table Nat} {registry : Registry} {graph : ResolvedGraph}

theorem linkedField_default (entry : String × FieldSpec) :
    (linkedField index entry).2.default = entry.2.default := by
  rw [linkedField]
  split <;> rfl

theorem linkedSchema_accepted {description : SchemaDescription}
    (accepted : description.Accepted) : (linkedSchema index description).Accepted := by
  have names : Keyed.keys (linkedSchema index description).fields =
      Keyed.keys description.fields := by
    simp only [linkedSchema, Keyed.keys, List.map_map]
    exact List.map_congr_left fun entry _ => linkedField_fst index entry
  refine ⟨names ▸ accepted.names, ?_, ?_, accepted.version_lt⟩
  · intro linked member
    obtain ⟨entry, declared, rfl⟩ := List.mem_map.mp member
    rw [linkedField_fst]
    exact accepted.allowed entry declared
  · intro linked member
    obtain ⟨entry, declared, rfl⟩ := List.mem_map.mp member
    rw [linkedField_default]
    exact accepted.defaults entry declared

theorem resolve_parts (resolved : resolve registry = .ok graph) :
    registry.citations.findSome? (Citation.fault? registry.names) = none ∧
      graph = linkedGraph registry ∧
      ∃ order, Graph.finishingOrder graph.schemas = .ok order := by
  rw [resolve_eq] at resolved
  split at resolved
  · simp at resolved
  · rename_i known
    split at resolved
    · rename_i order ended
      obtain rfl := Except.ok.inj resolved
      exact ⟨known, rfl, order, ended⟩
    · simp at resolved

theorem resolve_accepted (accepted : ∀ description ∈ registry.schemas, description.Accepted)
    (resolved : resolve registry = .ok graph) :
    ∀ description ∈ graph.schemas, description.Accepted := by
  rw [(resolve_parts resolved).2.1, linkedGraph]
  intro linked member
  obtain ⟨description, loaded, rfl⟩ := List.mem_map.mp member
  exact linkedSchema_accepted (accepted description loaded)

end Resolution

end Schemata
