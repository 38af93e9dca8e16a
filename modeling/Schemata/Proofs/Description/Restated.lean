import Schemata.Files.Emission
import Schemata.Proofs.Description.Canonical
namespace Schemata

/-! Descriptions made of manifests.

A manifest has the fields of a schema in their normal form.  Stated as the fields of a
description again, each is read as the same normal form, so a manifest says all that its
description has said (`SchemaDescription.ofJson_statement`). -/

theorem Json.texts?_texts (values : List String) : (Json.texts values).texts? = some values := by
  rw [texts?, texts, items?, Option.bind_some,
    mapM_map_eq_pure fun value _ => show (Json.text value).text? = pure value from rfl]
  simp

theorem FieldType.ofName?_name (type : FieldType) : FieldType.ofName? type.name = some type := by
  cases type <;> decide

namespace Emission

/-- A field of a manifest as a field of a description: its name, and all that is said of it
but whether it is an array, in a list if it is one. -/
def restatedField? (field : Json) : Option (String × Json) := do
  let members ← field.members?
  let name ← (Keyed.get? members "name").bind Json.text?
  let isArray ← (Keyed.get? members "isArray").bind Json.bool?
  let descriptor := Json.object (members.filter fun entry => entry.1 ∉ ["name", "isArray"])
  return (name, if isArray then .array [descriptor] else descriptor)

def restatedSchema? (manifest : Json) : Option Json := do
  let members ← manifest.members?
  let name ← Keyed.get? members "name"
  let version ← Keyed.get? members "version"
  let items ← (Keyed.get? members "fields").bind Json.items?
  let fields ← items.mapM restatedField?
  return .object ([("name", name), ("version", version)] ++
    Keyed.optional "customImportLines" (Keyed.get? members "customImportLines") ++
    [("fields", .object fields)])

def manifestOf? (manifests : List Json) (model : String) : Option Json :=
  manifests.find? fun manifest => (manifest.get? "name").bind Json.text? = some model

/-- The descriptions that manifests give, in the order in which an index lists them. -/
def restated? (manifests : List Json) (index : Json) : Option (List Json) := do
  let models ← (index.get? "models").bind Json.texts?
  models.mapM fun model => (manifestOf? manifests model).bind restatedSchema?

end Emission

namespace FieldSpec

variable {descriptor : Keyed Json} {spec : FieldSpec} {name key : String}

theorem optionalText_eq {value : Option String}
    (found : Keyed.get? descriptor key = value.map .text) :
    optionalText descriptor key = .ok value := by
  rw [optionalText, found]
  cases value <;> rfl

theorem optionalBound_eq {value : Option Bound}
    (found : Keyed.get? descriptor key = value.map Bound.toJson) :
    optionalBound descriptor key = .ok value := by
  rw [optionalBound, found]
  cases value with
  | none => rfl
  | some bound => cases bound <;> rfl

theorem mandatoryText_eq {value : String}
    (found : Keyed.get? descriptor key = some (.text value)) :
    mandatoryText descriptor key = .ok value := by
  have read : optionalText descriptor key = .ok (some value) := optionalText_eq found
  rw [mandatoryText, read]
  rfl

theorem calculatorText_eq {type : FieldType} {value : Option String}
    (found : Keyed.get? descriptor key = value.map .text)
    (present : type = .calculated → value.isSome = true) :
    calculatorText type descriptor key = .ok value := by
  rw [calculatorText]
  split
  · exact optionalText_eq found
  · rename_i computed
    have calculated : type = .calculated := by simpa [FieldType.isPersisted] using computed
    obtain ⟨text, rfl⟩ := Option.isSome_iff_exists.mp (present calculated)
    rw [mandatoryText_eq found]
    rfl

theorem keys_members_nodup (spec : FieldSpec) : (Keyed.keys spec.members).Nodup := by
  have all : (Keyed.keys spec.members).Sublist
      (["type", "isArray", "required"] ++ ["default"] ++ ["values"] ++ ["validate"] ++
        ["validateFailMsg"] ++ ["formatter"] ++ ["schema"] ++ ["min"] ++ ["max"] ++
        ["calculator"] ++ ["calculatedType"]) := by
    simp only [members, Keyed.keys, List.map_append]
    iterate 10 refine List.Sublist.append ?_ (Keyed.keys_optional_sublist _ _)
    exact List.Sublist.refl _
  exact all.nodup (by decide)

theorem members_wellFormed
    (default : ∀ default, spec.default = some default → default.WellFormed) :
    ∀ entry ∈ spec.members, entry.2.WellFormed := by
  have bound : ∀ bound : Bound, bound.toJson.WellFormed := by
    rintro (value | value)
    · exact .number (.float value)
    · exact .text value
  simp only [members, List.forall_mem_append, Keyed.forall_mem_optional]
  simpa [bound, Json.WellFormed.bool] using default

/-- What is said of a field but for its name and whether it is an array. -/
def stated (spec : FieldSpec) : Keyed Json :=
  spec.members.filter fun entry => entry.1 ∉ ["name", "isArray"]

/-- A field as it stands in a description. -/
def statement (spec : FieldSpec) : Json :=
  if spec.isArray then .array [.object spec.stated] else .object spec.stated

theorem get?_stated (named : key ≠ "name") (marked : key ≠ "isArray") :
    Keyed.get? spec.stated key = Keyed.get? spec.members key := by
  rw [stated, Keyed.get?_filter fun key => key ∉ ["name", "isArray"]]
  simp [named, marked]

theorem reads_stated (canonical : spec.Canonical) :
    Reads spec.stated { spec with isArray := false } := by
  have found : ∀ key, key ≠ "name" → key ≠ "isArray" →
      Keyed.get? spec.stated key = Keyed.get? spec.members key :=
    fun key named marked => get?_stated named marked
  simp only [members, Keyed.get?_append, Keyed.get?_optional, Keyed.get?] at found
  have type : Keyed.get? spec.stated "type" = some (.text spec.type.name) := by simp [found]
  have unlinked : spec.reference = (spec.reference.map Reference.name).map (⟨·, none⟩) := by
    cases referring : spec.reference with
    | none => rfl
    | some reference =>
        simp only [Option.map_some, Option.some.injEq]
        rw [← canonical.unlinked reference referring]
  exact
    { type := ⟨_, mandatoryText_eq type, FieldType.ofName?_name _⟩
      single := rfl
      required := by simp [requiredFlag, found]
      default := by simp [found]
      values := optionalText_eq (by simp [found])
      validator := optionalText_eq (by simp [found])
      failMessage := optionalText_eq (by simp [found])
      formatter := optionalText_eq (by simp [found])
      reference := fun _ => ⟨_, optionalText_eq (by simp [found, Function.comp_def]), unlinked⟩
      unreferenced := canonical.unreferenced
      min := optionalBound_eq (by simp [found])
      max := optionalBound_eq (by simp [found])
      calculator := calculatorText_eq (by simp [found]) canonical.calculator
      calculatedType := calculatorText_eq (by simp [found]) canonical.calculatedType }

theorem ofJson_statement (allowed : fieldNameFault? name = none) (canonical : spec.Canonical) :
    ofJson name spec.statement = .ok spec := by
  have single : ofSingle (.object spec.stated) = .ok { spec with isArray := false } :=
    ofDescriptor_of_reads (reads_stated canonical)
  rw [ofJson.eq_def, allowed, statement]
  cases array : spec.isArray with
  | true =>
      simp only [↓reduceIte, single, Except.map]
      rw [← array]
  | false =>
      simp only [Bool.false_eq_true, ↓reduceIte, single]
      rw [← array]

theorem statement_wellFormed
    (default : ∀ default, spec.default = some default → default.WellFormed) :
    spec.statement.WellFormed := by
  have kept : spec.stated.Sublist spec.members := List.filter_sublist
  have object : (Json.object spec.stated).WellFormed :=
    .object ((kept.map Prod.fst).nodup (keys_members_nodup spec)) fun entry member =>
      members_wellFormed default entry (kept.subset member)
  rw [statement]
  split
  · exact .array fun item member => List.mem_singleton.mp member ▸ object
  · exact object

theorem restatedField?_members (name : String) (spec : FieldSpec) :
    Emission.restatedField? (.object (("name", .text name) :: spec.members)) =
      some (name, spec.statement) := by
  have array : Keyed.get? spec.members "isArray" = some (.bool spec.isArray) := by
    simp [members, Keyed.get?]
  simp [Emission.restatedField?, Json.members?, Keyed.get?, Json.text?, array, Json.bool?,
    statement, stated]

end FieldSpec

namespace SchemaDescription

variable {description : SchemaDescription}

/-- A description as it may be registered. -/
def statement (description : SchemaDescription) : Json :=
  .object ([("name", .text description.name), ("version", .nat description.version)] ++
    Keyed.optional "customImportLines"
      (if description.customImportLines.isEmpty then none
        else some (.texts description.customImportLines)) ++
    [("fields", .object (description.fields.map fun entry => (entry.1, entry.2.statement)))])

theorem restatedSchema?_manifest (description : SchemaDescription) (package : String) :
    Emission.restatedSchema? (description.manifest package) = some description.statement := by
  have fields : (description.fields.map fun entry =>
        Json.object (("name", .text entry.1) :: entry.2.members)).mapM Emission.restatedField? =
      some (description.fields.map fun entry => (entry.1, entry.2.statement)) :=
    mapM_map_eq_pure fun entry _ => FieldSpec.restatedField?_members entry.1 entry.2
  cases plain : description.customImportLines.isEmpty with
  | true =>
      simp [Emission.restatedSchema?, manifest, plain, Json.members?, Keyed.get?, Json.items?,
        fields, statement, Keyed.optional]
  | false =>
      simp [Emission.restatedSchema?, manifest, plain, Json.members?, Keyed.get?, Json.items?,
        fields, statement, Keyed.optional]

theorem nonEmptyText?_text {name : String} (named : name ≠ "") :
    nonEmptyText? (.text name) = some name := by
  rw [nonEmptyText?, if_neg (by simpa using named)]

theorem version?_nat {version : Nat} (small : version < versionLimit) :
    version? (.nat version) = some version := by
  have fits : (0 : Int) ≤ version ∧ (version : Int) < versionLimit := by omega
  rw [version?, Json.nat, Json.int, Json.int?, Option.bind_some, if_pos fits, Int.toNat_natCast]

theorem ofJson_statement (canonical : description.Canonical) (origin : String) :
    ofJson description.statement origin = .ok { description with origin } := by
  have header : Header.ofJson description.statement origin = .ok
      ⟨description.name, description.version, description.customImportLines,
        description.fields.map fun entry => (entry.1, entry.2.statement)⟩ := by
    refine Header.ofJson_ok_iff.mpr ⟨_, rfl, ?_, ?_, ?_, ?_⟩
    · simp [Keyed.get?, nonEmptyText?_text canonical.named]
    · simp [Keyed.get?_append, Keyed.get?, Keyed.get?_optional, Json.members?]
    · exact Option.bind_eq_some_iff.mpr
        ⟨.nat description.version, by simp [Keyed.get?], version?_nat canonical.version_lt⟩
    · cases lines : description.customImportLines with
      | nil => simp [Keyed.get?_append, Keyed.get?, Keyed.get?_optional, customImportLines?]
      | cons line rest =>
          simp [Keyed.get?_append, Keyed.get?, Keyed.get?_optional, customImportLines?,
            Json.texts?_texts]
  have each : ∀ entry ∈ description.fields,
      normalizedField description.name (entry.1, entry.2.statement) = pure entry := by
    intro entry declared
    rw [normalizedField, FieldSpec.ofJson_statement (canonical.allowed entry declared)
      (canonical.fields entry declared)]
    rfl
  have fields : (description.fields.map fun entry => (entry.1, entry.2.statement)).mapM
      (normalizedField description.name) = .ok description.fields :=
    (mapM_map_eq_pure each).trans (by simp [pure, Except.pure])
  rw [ofJson, header]
  simp only [bind, Except.bind, fields, canonical.imports, canonical.requiresDateOnly]

theorem statement_wellFormed (accepted : description.Accepted) :
    description.statement.WellFormed := by
  have fields : (Json.object (description.fields.map fun entry =>
      (entry.1, entry.2.statement))).WellFormed := by
    refine .object ?_ fun stated member => ?_
    · rw [Keyed.keys, List.map_map]
      exact accepted.names
    · obtain ⟨entry, declared, rfl⟩ := List.mem_map.mp member
      exact FieldSpec.statement_wellFormed (accepted.defaults entry declared)
  have version : (Json.nat description.version).WellFormed := by
    have small : description.version < 2 ^ 32 := accepted.version_lt
    exact .number (.int (by omega) (by omega))
  have lines : ∀ values, (Json.texts values).WellFormed := by
    intro values
    simp [Json.texts]
  have all : (Keyed.keys (description.statement.members?.getD [])).Sublist
      (["name", "version"] ++ ["customImportLines"] ++ ["fields"]) := by
    simp only [statement, Json.members?, Option.getD_some, Keyed.keys, List.map_append]
    exact ((List.Sublist.refl _).append (Keyed.keys_optional_sublist _ _)).append
      (List.Sublist.refl _)
  refine .object (all.nodup (by decide)) ?_
  simp only [List.forall_mem_append, Keyed.forall_mem_optional]
  refine ⟨⟨?_, ?_⟩, ?_⟩
  · simpa using version
  · intro present stated
    split at stated
    · simp at stated
    · exact Option.some.inj stated ▸ lines _
  · simpa using fields

end SchemaDescription

end Schemata
