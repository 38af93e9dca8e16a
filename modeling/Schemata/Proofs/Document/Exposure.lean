import Mathlib.Logic.Relation
import Schemata.Proofs.Document.Reload
namespace Schemata

/-! Calculated fields in what is stored of a document.

A stored document has others in it, each governed by a schema of its own.  What is written of
a document leaves out its own calculated fields, but knows of no schema below the first level:
there it has exactly what the body carries (`Document.written_exposes`). -/

/-- A document as it is stored, and the schema that it is held to. -/
structure Governed where
  schema : Schema
  members : Keyed Json

namespace Governed

/-- The other is a document that a field of the first holds, as its value or among its
items. -/
inductive Holds (outer : Governed) : Governed → Prop
  | document {key : String} {field : Field} {inner : Schema} {inside : Keyed Json}
      (declared : outer.schema.field? key = some field) (type : field.type = .subschema)
      (nested : field.schema = some inner) (single : field.isArray = false)
      (held : Keyed.get? outer.members key = some (.object inside)) : Holds outer ⟨inner, inside⟩
  | item {key : String} {field : Field} {inner : Schema} {items : List Json}
      {inside : Keyed Json} (declared : outer.schema.field? key = some field)
      (type : field.type = .subschema) (nested : field.schema = some inner)
      (array : field.isArray = true)
      (held : Keyed.get? outer.members key = some (.array items))
      (member : Json.object inside ∈ items) : Holds outer ⟨inner, inside⟩

/-- The document has a member under the name of a calculated field of its schema. -/
def Exposes (governed : Governed) (key : String) : Prop :=
  key ∈ Keyed.keys governed.members ∧
    ∃ field, governed.schema.field? key = some field ∧ field.type = .calculated

/-- No calculated field is exposed, by the document itself or by one in it at any depth. -/
def Conceals (governed : Governed) : Prop :=
  ∀ part, Relation.ReflTransGen Holds governed part → ∀ key, ¬ part.Exposes key

/-- Of the members only those count for what a document holds that its subschema fields
are named after. -/
theorem Holds.congr {left right part : Governed} (schema : left.schema = right.schema)
    (alike : ∀ key field, left.schema.field? key = some field → field.type = .subschema →
      Keyed.get? left.members key = Keyed.get? right.members key)
    (holds : left.Holds part) : right.Holds part := by
  cases holds with
  | document declared type nested single held =>
      rw [alike _ _ declared type] at held
      exact .document (schema ▸ declared) type nested single held
  | item declared type nested array held member =>
      rw [alike _ _ declared type] at held
      exact .item (schema ▸ declared) type nested array held member

end Governed

namespace Document

variable (document : Document)

/-- What is written of the document. -/
def written : Governed := ⟨document.schema, Keyed.mapValues Value.toJson document.stored.entries⟩

/-- The document with all members of its body. -/
def whole : Governed := ⟨document.schema, Keyed.mapValues Value.toJson document.body.entries⟩

theorem toJson_written : document.toJson = .object document.written.members :=
  Value.toJson_object document.stored.entries

theorem isStored_eq_false_iff {schema : Schema} {key : String} :
    isStored schema key = false ↔ ∃ field, schema.field? key = some field ∧
      field.type = .calculated := by
  rw [isStored]
  cases schema.field? key with
  | none => simp
  | some field => simp [FieldRule.isPersisted, FieldType.isPersisted]

theorem written_not_exposes (key : String) : ¬ document.written.Exposes key := by
  intro ⟨member, calculated⟩
  have omitted : isStored document.schema key = false := isStored_eq_false_iff.mpr calculated
  rw [written, Keyed.keys_mapValues, Keyed.mem_keys_iff, Keyed.contains, Table.get?_entries,
    get?_stored, omitted] at member
  simp at member

/-- A field that holds documents is stored, so its member is written as it is. -/
theorem get?_written (key : String) (field : Field)
    (declared : document.schema.field? key = some field) (type : field.type = .subschema) :
    Keyed.get? document.written.members key = Keyed.get? document.whole.members key := by
  have stored : isStored document.schema key = true := by
    rw [isStored, declared]
    simp [FieldRule.isPersisted, FieldType.isPersisted, type]
  rw [written, whole, Keyed.get?_mapValues, Keyed.get?_mapValues, Table.get?_entries,
    Table.get?_entries, get?_stored, stored, if_pos rfl]

theorem written_holds_iff (part : Governed) :
    document.written.Holds part ↔ document.whole.Holds part :=
  ⟨Governed.Holds.congr rfl document.get?_written,
    Governed.Holds.congr rfl fun key field declared type =>
      (document.get?_written key field declared type).symm⟩

theorem written_reaches_iff (part : Governed) :
    Relation.TransGen Governed.Holds document.written part ↔
      Relation.TransGen Governed.Holds document.whole part := by
  rw [Relation.TransGen.head'_iff, Relation.TransGen.head'_iff]
  exact exists_congr fun first => and_congr_left fun _ => document.written_holds_iff first

/-- What is written of a document has none of its own calculated fields, and the documents in
it are those of the body, whatever they carry: calculated fields stay out of it at every depth
exactly when no document in the body carries one of its own. -/
theorem written_exposes :
    document.toJson = .object document.written.members ∧
      (∀ key, ¬ document.written.Exposes key) ∧
      (∀ part, Relation.TransGen Governed.Holds document.written part ↔
        Relation.TransGen Governed.Holds document.whole part) ∧
      (document.written.Conceals ↔
        ∀ part, Relation.TransGen Governed.Holds document.whole part →
          ∀ key, ¬ part.Exposes key) := by
  refine ⟨document.toJson_written, document.written_not_exposes, document.written_reaches_iff, ?_⟩
  constructor
  · intro conceals part below
    exact conceals part ((document.written_reaches_iff part).mpr below).to_reflTransGen
  · intro within part reached key
    rcases Relation.reflTransGen_iff_eq_or_transGen.mp reached with rfl | below
    · exact document.written_not_exposes key
    · exact within part ((document.written_reaches_iff part).mp below) key

end Document

namespace Sample

/-- A household has an address, which has a label that is calculated. -/
def householdDescriptions : List (Json × String) :=
  [(.object [("name", .text "Address"), ("version", .nat 1),
      ("fields", .object
        [("city", .text "string"),
          ("label", .object [("type", .text "calculated"), ("calculator", .text "count"),
            ("calculatedType", .text "number")])])], "address.json"),
    (.object [("name", .text "Household"), ("version", .nat 1),
      ("fields", .object
        [("home", .object [("type", .text "subschema"), ("schema", .text "Address")])])],
      "household.json")]

def householdGraph : ResolvedGraph :=
  Resolution.linkedGraph (Registry.empty.registerAll householdDescriptions)

def householdHooks : Hooks := Hooks.addCalculator {} "count" fun body => .nat body.size

def address : Schema where
  name := "Address"
  version := 1
  fields :=
    [{ name := "city", type := .string },
      { name := "label", type := .calculated, calculator := householdHooks.calculator? "count" }]

def household : Schema where
  name := "Household"
  version := 1
  fields := [{ name := "home", type := .subschema, schema := some address }]

def householdSchemas : SchemaSet :=
  ⟨["Address", "Household"], [("Address", address), ("Household", household)]⟩

/-- The address has been given a label. -/
def householdPayload : Json :=
  .object [("home", .object [("city", .text "Oslo"), ("label", .text "x")])]

def settled : Document :=
  ((Document.ofJson household householdPayload).1.toOption).getD
    ⟨household, .empty, .unbound, .empty⟩

theorem household_ended : Graph.finishingOrder householdGraph.schemas = .ok [0, 1] :=
  Graph.finishingOrder_of_backward (by decide)

theorem household_resolved :
    Resolution.resolve (Registry.empty.registerAll householdDescriptions) =
      .ok householdGraph :=
  Resolution.resolve_of_order rfl household_ended

theorem household_built :
    SchemaSet.build householdGraph householdHooks [] = .ok householdSchemas := by
  rw [SchemaSet.build_of_ended household_ended]
  rfl

end Sample

open Sample in
/-- The label of an address is calculated, and is stored when a payload has brought one. -/
theorem Document.household_label_written :
    Resolution.resolve (Registry.empty.registerAll householdDescriptions) = .ok householdGraph ∧
    SchemaSet.build householdGraph householdHooks [] = .ok householdSchemas ∧
    householdSchemas.get? "Household" = some household ∧
    (Document.ofJson household householdPayload).1 = .ok settled ∧
    settled.isValid = true ∧
    settled.toJson = .object settled.written.members ∧ ¬ settled.written.Conceals := by
  have loaded : (Document.ofJson household householdPayload).1 = .ok settled :=
    eq_ok_of_isOk (by decide +kernel) _
  refine ⟨household_resolved, household_built, rfl, loaded, by decide +kernel,
    settled.toJson_written, fun conceals => ?_⟩
  have held : Keyed.get? settled.written.members "home" =
      some (.object [("city", .text "Oslo"), ("label", .text "x")]) := rfl
  exact conceals ⟨address, [("city", .text "Oslo"), ("label", .text "x")]⟩
    (.single (.document rfl rfl rfl rfl held)) "label" ⟨by decide, _, rfl, rfl⟩

end Schemata
