import Schemata.Graph.Resolution
import Schemata.Proofs.Collect
import Schemata.Proofs.Graph.Finishing
namespace Schemata

/-! Resolution answers for the references of a registry: with the first that has no schema
to go to, else with a circle if there is one, else with the graph. -/

open Relation

/-- A subschema field of a schema and the name that it refers to, if it gives one. -/
structure Citation where
  schema : String
  field : String
  target : Option String

/-- Why a reference cannot be followed among schemas of these names. -/
def Citation.fault? (names : List String) (citation : Citation) : Option GenerationError :=
  match citation.target with
  | none => some (.unnamedReference citation.schema citation.field)
  | some target =>
      if target ∈ names then none
      else some (.danglingReference citation.schema citation.field target)

def citation? (schema : String) (entry : String × FieldSpec) : Option Citation :=
  if entry.2.type.isSubschema then
    some ⟨schema, entry.1, entry.2.reference.map Reference.name⟩
  else none

namespace Registry

def citations (registry : Registry) : List Citation :=
  registry.schemas.flatMap fun schema => schema.fields.filterMap (citation? schema.name)

/-- A subschema field of the first schema refers to the second. -/
def Cites (registry : Registry) (source target : String) : Prop :=
  ∃ citation ∈ registry.citations, citation.schema = source ∧ citation.target = some target

/-- Registers descriptions one after the other; one that is refused leaves the registry as
it is. -/
def registerAll (registry : Registry) (calls : List (Json × String)) : Registry :=
  calls.foldl (fun registry call =>
    match registry.register call.1 call.2 with
    | .ok (next, _) => next
    | .error _ => registry) registry

end Registry

namespace Indexes

variable {index : Table Nat} {names : List String} {schemas : List SchemaDescription}
  {name : String} {position : Nat}

theorem get?_eq_none_iff (indexes : Indexes index names) :
    index.get? name = none ↔ name ∉ names := by
  rw [← indexes.contains_iff, Table.contains, Option.not_isSome_iff_eq_none]

theorem get?_eq_some_iff (indexes : Indexes index (schemas.map SchemaDescription.name)) :
    index.get? name = some position ↔
      ∃ schema, schemas[position]? = some schema ∧ schema.name = name := by
  rw [indexes name position, List.getElem?_map, Option.map_eq_some_iff]

theorem get?_of_there (indexes : Indexes index (schemas.map SchemaDescription.name))
    {schema : SchemaDescription} (there : schemas[position]? = some schema) :
    index.get? schema.name = some position :=
  indexes.get?_eq_some_iff.mpr ⟨schema, there, rfl⟩

/-- What is found by way of the index is the schema of the name. -/
theorem bind_eq_some_iff (indexes : Indexes index (schemas.map SchemaDescription.name))
    {schema : SchemaDescription} :
    ((index.get? name).bind fun position => schemas[position]?) = some schema ↔
      schema ∈ schemas ∧ schema.name = name := by
  rw [Option.bind_eq_some_iff]
  constructor
  · rintro ⟨position, found, there⟩
    obtain ⟨other, same, named⟩ := indexes.get?_eq_some_iff.mp found
    rw [there, Option.some.injEq] at same
    exact ⟨List.mem_of_getElem? there, same ▸ named⟩
  · rintro ⟨member, rfl⟩
    obtain ⟨position, there⟩ := List.getElem?_of_mem member
    exact ⟨position, indexes.get?_of_there there, there⟩

end Indexes

namespace Registry

variable {registry next : Registry} {schema : SchemaDescription}

theorem names_nodup (registry : Registry) : registry.names.Nodup := registry.indexes.nodup

/-- The index follows from the schemas. -/
@[ext] theorem ext (same : registry.schemas = next.schemas) : registry = next := by
  obtain ⟨schemas, index, indexes⟩ := registry
  obtain ⟨_, other, others⟩ := next
  obtain rfl : schemas = _ := same
  obtain rfl := indexes.unique others
  rfl

theorem contains_eq_false (free : schema.name ∉ registry.names) :
    registry.index.contains schema.name = false := by
  rw [← Bool.not_eq_true, registry.indexes.contains_iff]
  exact free

theorem add_of_taken (taken : schema.name ∈ registry.names) :
    registry.add schema = .error (.duplicate schema.name) := by
  rw [add]
  split
  · rfl
  · rename_i absent
    exact absurd (registry.indexes.contains_iff.mpr taken) (by simp [absent])

theorem add_of_free (free : schema.name ∉ registry.names) :
    registry.add schema = .ok (registry.push schema (contains_eq_false free), registry.size) := by
  rw [add]
  split
  · rename_i present
    exact absurd (registry.indexes.contains_iff.mp present) free
  · rfl

theorem mem_citations {registry : Registry} {citation : Citation} :
    citation ∈ registry.citations ↔ ∃ schema ∈ registry.schemas, ∃ entry ∈ schema.fields,
      citation? schema.name entry = some citation := by
  simp [citations, List.mem_flatMap, List.mem_filterMap]

end Registry

namespace Resolution

def linkedField (index : Table Nat) (entry : String × FieldSpec) : String × FieldSpec :=
  if entry.2.type.isSubschema then
    (entry.1, { entry.2 with
      reference := entry.2.reference.map fun reference =>
        ⟨reference.name, index.get? reference.name⟩ })
  else entry

def linkedSchema (index : Table Nat) (schema : SchemaDescription) : SchemaDescription :=
  let fields := schema.fields.map (linkedField index)
  { schema with
    fields
    imports := importsOf fields
    requiresDateOnly := fields.any fun entry => entry.2.type = .date }

section Linking

variable {index : Table Nat} {names : List String}

theorem linkField_eq (indexes : Indexes index names) (schema : String)
    (entry : String × FieldSpec) :
    linkField index schema entry =
      ((citation? schema entry).bind (Citation.fault? names)).elim
        (.ok (linkedField index entry)) .error := by
  rw [linkField, citation?, linkedField]
  cases entry.2.type.isSubschema with
  | false => rfl
  | true =>
      cases declared : entry.2.reference with
      | none => rfl
      | some reference =>
          cases found : index.get? reference.name with
          | none =>
              have absent := indexes.get?_eq_none_iff.mp found
              simp only [Citation.fault?, absent, ↓reduceIte, Option.map_some,
                Option.bind_some, found, Option.elim_some]
          | some position =>
              have present : reference.name ∈ names :=
                indexes.contains_iff.mp (by rw [Table.contains, found, Option.isSome_some])
              simp only [Citation.fault?, present, ↓reduceIte, Option.map_some,
                Option.bind_some, found, Option.elim_none]

theorem linkSchema_eq (indexes : Indexes index names) (schema : SchemaDescription) :
    linkSchema index schema =
      ((schema.fields.filterMap (citation? schema.name)).findSome?
        (Citation.fault? names)).elim (.ok (linkedSchema index schema)) .error := by
  rw [linkSchema]
  rw [mapM_of_faults fun entry _ => linkField_eq indexes schema.name entry,
    findSome?_filterMap]
  cases schema.fields.findSome? _ with
  | some error => rfl
  | none => rfl

theorem target?_linkedField (schema : String) {entry : String × FieldSpec} {position : Nat} :
    (linkedField index entry).2.target? = some position ↔
      ∃ citation target, citation? schema entry = some citation ∧
        citation.target = some target ∧ index.get? target = some position := by
  rw [linkedField, citation?, FieldSpec.target?]
  cases subschema : entry.2.type.isSubschema with
  | false => simp [subschema]
  | true =>
      cases entry.2.reference with
      | none => simp [subschema]
      | some reference => simp [subschema]

theorem linkedSchema_linkedBy (schema : SchemaDescription) :
    (linkedSchema index schema).LinkedBy index := by
  intro linked member position leads
  obtain ⟨entry, _, rfl⟩ := List.mem_map.mp member
  obtain ⟨_, target, _, _, found⟩ := (target?_linkedField schema.name).mp leads
  exact ⟨target, found⟩

end Linking

/-- The descriptions of a registry, each field of documents with the position of the schema that
it names, under the index of the registry. -/
def linkedGraph (registry : Registry) : ResolvedGraph :=
  have indexes : Indexes registry.index
      ((registry.schemas.map (linkedSchema registry.index)).map SchemaDescription.name) := by
    rw [List.map_map]
    exact registry.indexes
  ⟨registry.schemas.map (linkedSchema registry.index), registry.index, indexes,
    indexes.closed (List.forall_mem_map.mpr fun schema _ => linkedSchema_linkedBy schema)⟩

theorem schemas_linkedGraph (registry : Registry) :
    (linkedGraph registry).schemas = registry.schemas.map (linkedSchema registry.index) := rfl

/-- Linking fails with the fault of the first reference that has one, and leaves the linked
schemas to the search for a circle otherwise. -/
theorem resolve_eq (registry : Registry) :
    resolve registry =
      match registry.citations.findSome? (Citation.fault? registry.names) with
      | some error => .error error
      | none =>
          match Graph.finishingOrder (linkedGraph registry).schemas with
          | .ok _ => .ok (linkedGraph registry)
          | .error cycle => .error (circularError (linkedGraph registry).schemas cycle) := by
  have linking : registry.schemas.mapM (linkSchema registry.index) =
      (registry.citations.findSome? (Citation.fault? registry.names)).elim
        (.ok (linkedGraph registry).schemas) .error := by
    rw [mapM_of_faults fun schema _ => linkSchema_eq registry.indexes schema,
      Registry.citations, findSome?_flatMap]
    rfl
  rw [resolve]
  cases known : registry.citations.findSome? (Citation.fault? registry.names) with
  | some error =>
      rw [known, Option.elim_some] at linking
      split
      · rename_i other linked
        exact congrArg Except.error (Except.error.inj (linked.symm.trans linking))
      · rename_i schemas linked
        simp [linking] at linked
  | none =>
      rw [known, Option.elim_none] at linking
      split
      · rename_i error linked
        simp [linking] at linked
      · rename_i schemas linked
        obtain rfl := Except.ok.inj (linking.symm.trans linked)
        cases Graph.finishingOrder (linkedGraph registry).schemas <;> rfl

theorem resolve_of_order {registry : Registry} {order : List Nat}
    (known : (registry.citations.findSome? (Citation.fault? registry.names)).isNone = true)
    (ended : Graph.finishingOrder (linkedGraph registry).schemas = .ok order) :
    resolve registry = .ok (linkedGraph registry) := by
  rw [resolve_eq, Option.isNone_iff_eq_none.mp known]
  simp only [ended]

theorem citation?_schema {schema : String} {entry : String × FieldSpec} {citation : Citation}
    (cited : citation? schema entry = some citation) : citation.schema = schema := by
  rw [citation?] at cited
  split at cited
  · rw [← Option.some.inj cited]
  · simp at cited

theorem linkedField_fst (index : Table Nat) (entry : String × FieldSpec) :
    (linkedField index entry).1 = entry.1 := by
  rw [linkedField]
  split <;> rfl

/-- A linked field leads to the schema that it has named before. -/
theorem refers_linked {registry : Registry} {edge : Edge}
    (refers : Refers (linkedGraph registry).schemas edge) :
    ∃ schema entry citation, registry.schemas[edge.source]? = some schema ∧
      entry ∈ schema.fields ∧ entry.1 = edge.field ∧
      citation? schema.name entry = some citation ∧
      citation.target = some (nameAt registry.schemas edge.target) := by
  simp only [Refers, references, linkedGraph, List.getElem?_map] at refers
  cases found : registry.schemas[edge.source]? with
  | none => simp [found] at refers
  | some schema =>
      simp only [found, Option.map_some, linkedSchema, List.mem_filterMap, List.mem_map,
        Option.map_eq_some_iff, Prod.mk.injEq] at refers
      obtain ⟨_, ⟨entry, declared, rfl⟩, position, linked, field, rfl⟩ := refers
      rw [linkedField_fst] at field
      obtain ⟨citation, name, cited, named, at_position⟩ :=
        (target?_linkedField schema.name).mp linked
      obtain ⟨other, there, rfl⟩ := registry.indexes.get?_eq_some_iff.mp at_position
      exact ⟨schema, entry, citation, rfl, declared, field, cited, by simp [nameAt, there, named]⟩

theorem nameAt_of_getElem? {schemas : List SchemaDescription} {position : Nat}
    {schema : SchemaDescription} (found : schemas[position]? = some schema) :
    nameAt schemas position = schema.name := by
  rw [nameAt, found, Option.map_some, Option.getD_some]

theorem refersTo_linked {registry : Registry} {source target : Nat}
    (refers : RefersTo (linkedGraph registry).schemas source target) :
    registry.Cites (nameAt registry.schemas source) (nameAt registry.schemas target) := by
  obtain ⟨field, reference⟩ := refers
  obtain ⟨schema, entry, citation, found, declared, _, cited, named⟩ := refers_linked reference
  refine ⟨citation, Registry.mem_citations.mpr
    ⟨schema, List.mem_of_getElem? found, entry, declared, cited⟩, ?_, named⟩
  rw [citation?_schema cited, nameAt_of_getElem? found]

theorem linked_refersTo {registry : Registry} {source target : String}
    (known : registry.citations.findSome? (Citation.fault? registry.names) = none)
    (cites : registry.Cites source target) :
    RefersTo (linkedGraph registry).schemas
      ((registry.index.get? source).getD 0) ((registry.index.get? target).getD 0) := by
  obtain ⟨citation, member, rfl, named⟩ := cites
  obtain ⟨schema, loaded, entry, declared, cited⟩ := Registry.mem_citations.mp member
  obtain ⟨source, found⟩ := List.getElem?_of_mem loaded
  have faultless := List.findSome?_eq_none_iff.mp known citation member
  cases there : registry.index.get? target with
  | none =>
      have absent : target ∉ registry.names := registry.indexes.get?_eq_none_iff.mp there
      simp [Citation.fault?, named, absent] at faultless
  | some position =>
      have linked := (target?_linkedField schema.name).mpr ⟨citation, target, cited, named, there⟩
      refine ⟨entry.1, ?_⟩
      rw [citation?_schema cited, registry.indexes.get?_of_there found]
      simp only [Refers, references, linkedGraph, List.getElem?_map, found, Option.map_some,
        Option.getD_some, linkedSchema, List.mem_filterMap, List.mem_map]
      refine ⟨linkedField registry.index entry, ⟨entry, declared, rfl⟩, ?_⟩
      rw [linked, Option.map_some, linkedField_fst]

/-- The positions lead in a circle exactly when the names do. -/
theorem cyclic_iff {registry : Registry}
    (known : registry.citations.findSome? (Citation.fault? registry.names) = none) :
    (∃ position, TransGen
        (RefersTo (linkedGraph registry).schemas) position position) ↔
      ∃ name, TransGen registry.Cites name name := by
  constructor
  · rintro ⟨position, cycle⟩
    exact ⟨_, cycle.lift (nameAt registry.schemas) fun _ _ => refersTo_linked⟩
  · rintro ⟨name, cycle⟩
    exact ⟨_, cycle.lift (fun name => (registry.index.get? name).getD 0)
      fun _ _ => linked_refersTo known⟩

/-- A registry is resolved exactly as far as its references go: the first one without a
schema to go to is reported, whatever circles there are; without any such, a circle is
reported exactly when the references make one; and there is a graph in all other cases. -/
theorem resolve_exact (calls : List (Json × String)) :
    let registry := Registry.empty.registerAll calls
    match registry.citations.findSome? (Citation.fault? registry.names) with
    | some error => resolve registry = .error error
    | none =>
        ((∃ schema steps, resolve registry = .error (.circular schema steps)) ↔
          ∃ name, TransGen registry.Cites name name) ∧
        ((¬ ∃ name, TransGen registry.Cites name name) →
          ∃ graph, resolve registry = .ok graph) := by
  intro registry
  rw [resolve_eq]
  cases known : registry.citations.findSome? (Citation.fault? registry.names) with
  | some error => rfl
  | none =>
      rw [← cyclic_iff known]
      have searched : (∃ order, Graph.finishingOrder
            (linkedGraph registry).schemas = .ok order) ↔
          ¬ ∃ position, TransGen
            (RefersTo (linkedGraph registry).schemas)
            position position := Graph.finishingOrder_ok_iff
      cases ended : Graph.finishingOrder
          (linkedGraph registry).schemas with
      | ok order =>
          have acyclic := searched.mp ⟨order, ended⟩
          exact ⟨by simpa using acyclic, fun _ => ⟨_, rfl⟩⟩
      | error cycle =>
          have cyclic : ∃ position, TransGen (RefersTo
              (linkedGraph registry).schemas) position position := by
            apply Classical.byContradiction
            intro acyclic
            obtain ⟨order, found⟩ := searched.mpr acyclic
            simp [ended] at found
          exact ⟨by simpa [circularError] using cyclic, fun acyclic => absurd cyclic acyclic⟩

end Resolution

end Schemata
