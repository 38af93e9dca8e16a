import Schemata.Proofs.Description.Accepted
import Schemata.Proofs.Graph.Placement
namespace Schemata

/-! What is known of a graph once it has been resolved.

Its references lead to the schemas that they name, and there is an order in which its schemas
are put out, each once and after all that it refers to. -/

/-- A field refers to the schema of its documents, if it holds documents, and to none
otherwise. -/
inductive FieldSpec.Linked (schemas : List SchemaDescription) (spec : FieldSpec) : Prop
  | plain (type : spec.type ≠ .subschema) (unreferenced : spec.reference = none)
  | subschema {position : Nat} {target : SchemaDescription} (type : spec.type = .subschema)
      (reference : spec.reference = some ⟨target.name, some position⟩)
      (found : schemas[position]? = some target)

theorem FieldSpec.target?_of_subschema {spec : FieldSpec} {reference : Reference}
    (type : spec.type = .subschema) (refers : spec.reference = some reference) :
    spec.target? = reference.position := by
  have subschema : spec.type.isSubschema = true := decide_eq_true type
  rw [target?, if_pos subschema, refers, Option.bind_some]

namespace ResolvedGraph

structure Sound (graph : ResolvedGraph) : Prop where
  version_lt : ∀ description ∈ graph.schemas,
    description.version < SchemaDescription.versionLimit
  allowed : ∀ description ∈ graph.schemas, ∀ entry ∈ description.fields,
    fieldNameFault? entry.1 = none
  linked : ∀ description ∈ graph.schemas, ∀ entry ∈ description.fields,
    entry.2.Linked graph.schemas
  ordered : ∃ order, graph.Orders order

variable {graph : ResolvedGraph} {description : SchemaDescription}

theorem mem_dependencyOrder_iff (sound : graph.Sound) :
    description ∈ graph.dependencyOrder ↔ description ∈ graph.schemas := by
  obtain ⟨order, orders⟩ := sound.ordered
  exact orders.mem_dependencyOrder_iff

theorem names_nodup (graph : ResolvedGraph) : graph.names.Nodup := graph.indexes.nodup

/-- The index follows from the schemas. -/
@[ext] theorem ext {other : ResolvedGraph} (same : graph.schemas = other.schemas) :
    graph = other := by
  obtain ⟨schemas, index, indexes, closed⟩ := graph
  obtain ⟨_, second, others, _⟩ := other
  obtain rfl : schemas = _ := same
  obtain rfl := indexes.unique others
  rfl

theorem get?_of_there {position : Nat} (there : graph.schemas[position]? = some description) :
    graph.get? description.name = some description := by
  rw [get?, graph.indexes.get?_of_there there, Option.bind_some, there]

theorem get?_eq_some_iff {name : String} :
    graph.get? name = some description ↔
      description ∈ graph.schemas ∧ description.name = name :=
  graph.indexes.bind_eq_some_iff

theorem get?_isSome_iff {name : String} : (graph.get? name).isSome = true ↔ name ∈ graph.names := by
  rw [Option.isSome_iff_exists, names, List.mem_map]
  exact exists_congr fun description => get?_eq_some_iff

/-- The schema that a linked field refers to is among the references of its position. -/
theorem mem_references {position target : Nat} {entry : String × FieldSpec}
    (found : graph.schemas[position]? = some description) (declared : entry ∈ description.fields)
    (linked : entry.2.target? = some target) :
    (entry.1, target) ∈ references graph.schemas position := by
  rw [references, found]
  exact List.mem_filterMap.mpr ⟨entry, declared, by rw [linked]; rfl⟩

end ResolvedGraph

namespace Resolution

variable {registry : Registry} {graph : ResolvedGraph}

/-- A field whose reference has no fault is linked to the schema of that name. -/
theorem linkedField_linked (owner : String) {entry : String × FieldSpec}
    (unreferenced : entry.2.type ≠ .subschema → entry.2.reference = none)
    (known : ∀ citation, citation? owner entry = some citation →
      citation.fault? registry.names = none) :
    (linkedField registry.index entry).2.Linked (linkedGraph registry).schemas := by
  by_cases type : entry.2.type = .subschema
  · have subschema : entry.2.type.isSubschema = true := decide_eq_true type
    have faultless := known ⟨owner, entry.1, entry.2.reference.map Reference.name⟩
      (by rw [citation?, if_pos subschema])
    rw [linkedField, if_pos subschema]
    cases declared : entry.2.reference with
    | none => simp [Citation.fault?, declared] at faultless
    | some reference =>
        cases found : registry.index.get? reference.name with
        | none =>
            have absent := registry.indexes.get?_eq_none_iff.mp found
            simp only [Citation.fault?, declared, Option.map_some, Registry.names, absent,
              ↓reduceIte, reduceCtorEq] at faultless
        | some position =>
            obtain ⟨target, inside, named⟩ := registry.indexes.get?_eq_some_iff.mp found
            have there : (linkedGraph registry).schemas[position]? =
                some (linkedSchema registry.index target) := by
              rw [linkedGraph, List.getElem?_map, inside, Option.map_some]
            refine .subschema type ?_ there
            simp only [Option.map_some, found, linkedSchema, named]
  · have other : entry.2.type.isSubschema = false := decide_eq_false type
    rw [linkedField, if_neg (by simp [other])]
    exact .plain type (unreferenced type)

theorem resolve_sound {calls : List (Json × String)}
    (resolved : resolve (Registry.empty.registerAll calls) = .ok graph) : graph.Sound := by
  have regular := Registry.registerAll_regular calls
  generalize Registry.empty.registerAll calls = registry at resolved regular
  obtain ⟨known, rfl, order, ended⟩ := resolve_parts resolved
  have origin : ∀ description ∈ (linkedGraph registry).schemas,
      ∀ entry ∈ description.fields, fieldNameFault? entry.1 = none ∧
        entry.2.Linked (linkedGraph registry).schemas := by
    intro description loaded entry declared
    obtain ⟨stated, before, rfl⟩ := List.mem_map.mp loaded
    obtain ⟨field, there, rfl⟩ := List.mem_map.mp declared
    refine ⟨?_, linkedField_linked stated.name
      ((regular stated before).references field there) fun citation cited => ?_⟩
    · rw [linkedField_fst]
      exact (regular stated before).allowed field there
    · exact List.findSome?_eq_none_iff.mp known citation
        (Registry.mem_citations.mpr ⟨stated, before, field, there, cited⟩)
  refine ⟨fun description loaded => ?_,
    fun description loaded entry declared => (origin description loaded entry declared).1,
    fun description loaded entry declared => (origin description loaded entry declared).2,
    order, ResolvedGraph.orders_of_ended ended⟩
  obtain ⟨stated, before, rfl⟩ := List.mem_map.mp loaded
  exact (regular stated before).version_lt

end Resolution

end Schemata
