import Schemata.Collect
import Schemata.Graph.Search
namespace Schemata

/-! Resolution: references are linked to the schemas that they name, and a registry
whose references lead in a circle is refused.

The index of the registry becomes that of the graph.  Linking leaves names as they are and
gives a field no other position than one from the index, so the index is right for the graph
and references lead to its schemas. -/

/-- Descriptions whose references are linked and lead in no circle. -/
structure ResolvedGraph where
  schemas : List SchemaDescription
  /-- The names of the schemas, each with its position. -/
  index : Table Nat
  indexes : Indexes index (schemas.map SchemaDescription.name)
  closed : ∀ position, ∀ reference ∈ references schemas position,
    reference.2 < schemas.length

namespace ResolvedGraph

def size (graph : ResolvedGraph) : Nat := graph.schemas.length

def names (graph : ResolvedGraph) : List String := graph.schemas.map SchemaDescription.name

def get? (graph : ResolvedGraph) (name : String) : Option SchemaDescription :=
  (graph.index.get? name).bind fun position => graph.schemas[position]?

def subschema? (graph : ResolvedGraph) (spec : FieldSpec) : Option SchemaDescription :=
  spec.target?.bind fun position => graph.schemas[position]?

end ResolvedGraph

/-- The fields of a schema refer to positions from the index only. -/
def SchemaDescription.LinkedBy (index : Table Nat) (schema : SchemaDescription) : Prop :=
  ∀ entry ∈ schema.fields, ∀ position, entry.2.target? = some position →
    ∃ name, index.get? name = some position

theorem Indexes.closed {index : Table Nat} {schemas : List SchemaDescription}
    (indexes : Indexes index (schemas.map SchemaDescription.name))
    (linked : ∀ schema ∈ schemas, schema.LinkedBy index) (position : Nat) :
    ∀ reference ∈ references schemas position, reference.2 < schemas.length := by
  intro reference member
  rw [references] at member
  split at member
  · simp at member
  · rename_i schema found
    obtain ⟨entry, declared, target⟩ := List.mem_filterMap.mp member
    obtain ⟨other, leads, rfl⟩ := Option.map_eq_some_iff.mp target
    obtain ⟨name, there⟩ := linked schema (List.mem_of_getElem? found) entry declared other leads
    simpa using indexes.lt_length there

namespace Resolution

def linkField (index : Table Nat) (schema : String) (entry : String × FieldSpec) :
    Except GenerationError (String × FieldSpec) :=
  if entry.2.type.isSubschema then
    match entry.2.reference with
    | none => .error (.unnamedReference schema entry.1)
    | some reference =>
        match index.get? reference.name with
        | none => .error (.danglingReference schema entry.1 reference.name)
        | some position =>
            .ok (entry.1, { entry.2 with reference := some ⟨reference.name, some position⟩ })
  else .ok entry

/-- The names that subschema fields refer to, each once, by first occurrence. -/
def importsOf (fields : List (String × FieldSpec)) : List String :=
  (fields.filterMap fun entry =>
    if entry.2.type.isSubschema then entry.2.reference.map Reference.name else none).eraseDups

def linkSchema (index : Table Nat) (schema : SchemaDescription) :
    Except GenerationError SchemaDescription := do
  let fields ← schema.fields.mapM (linkField index schema.name)
  .ok
    { schema with
      fields
      imports := importsOf fields
      requiresDateOnly := fields.any fun entry => entry.2.type = .date }

theorem linkField_target {index : Table Nat} {owner : String} {entry after : String × FieldSpec}
    {position : Nat} (linked : linkField index owner entry = .ok after)
    (leads : after.2.target? = some position) : ∃ name, index.get? name = some position := by
  rw [linkField] at linked
  split at linked
  · rename_i subschema
    split at linked
    · simp at linked
    · split at linked
      · simp at linked
      · rename_i reference _ _ _ found
        rw [← Except.ok.inj linked] at leads
        simp only [FieldSpec.target?, subschema, ↓reduceIte, Option.bind_some] at leads
        exact ⟨reference.name, leads ▸ found⟩
  · rename_i plain
    rw [← Except.ok.inj linked] at leads
    simp [FieldSpec.target?, plain] at leads

theorem linkSchema_ok {index : Table Nat} {schema after : SchemaDescription}
    (linked : linkSchema index schema = .ok after) :
    after.name = schema.name ∧ after.LinkedBy index := by
  obtain ⟨fields, each, linked⟩ := ok_of_bind linked
  rw [← Except.ok.inj linked]
  refine ⟨rfl, fun entry declared position leads => ?_⟩
  obtain ⟨_, _, stepped⟩ := mem_of_mapM each declared
  exact linkField_target stepped leads

section Schemas

variable {index : Table Nat} {schemas linkedSchemas : List SchemaDescription}

theorem indexes_of_linked (indexes : Indexes index (schemas.map SchemaDescription.name))
    (linked : schemas.mapM (linkSchema index) = .ok linkedSchemas) :
    Indexes index (linkedSchemas.map SchemaDescription.name) := by
  rwa [map_of_mapM (fun step => (linkSchema_ok step).1) linked]

theorem linkedBy_of_linked (linked : schemas.mapM (linkSchema index) = .ok linkedSchemas) :
    ∀ schema ∈ linkedSchemas, schema.LinkedBy index := by
  intro schema member
  obtain ⟨_, _, stepped⟩ := mem_of_mapM linked member
  exact (linkSchema_ok stepped).2

end Schemas

def nameAt (schemas : List SchemaDescription) (position : Nat) : String :=
  (schemas[position]?.map SchemaDescription.name).getD ""

/-- A cycle as an error about the schema that it starts from. -/
def circularError (schemas : List SchemaDescription) (cycle : List Edge) :
    GenerationError :=
  .circular (nameAt schemas ((cycle.head?.map Edge.source).getD 0))
    (cycle.map fun edge => (nameAt schemas edge.source, edge.field))

/-- Links all schemas in the order of loading, unless their references lead in a circle. -/
def resolve (registry : Registry) : Except GenerationError ResolvedGraph :=
  match linked : registry.schemas.mapM (linkSchema registry.index) with
  | .error error => .error error
  | .ok schemas =>
      match Graph.finishingOrder schemas with
      | .error cycle => .error (circularError schemas cycle)
      | .ok _ =>
          let indexes := indexes_of_linked registry.indexes linked
          .ok ⟨schemas, registry.index, indexes, indexes.closed (linkedBy_of_linked linked)⟩

end Resolution

end Schemata
