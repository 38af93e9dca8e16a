import Schemata.Document.State
import Schemata.Proofs.Graph.Linked
import Schemata.Proofs.Schema.Fault
import Schemata.Proofs.Validation.Reloading
namespace Schemata

/-! What is known of the schemas that are built from accepted descriptions.

The schema of a subschema field is one that has been made before, so a property of schemas
that rests on that of the nested ones holds of all that are made. -/

/-- A schema that leaves bodies as they are but for defaults and coercions, and whose fields
do not pass for the tag of the doctype. -/
structure Schema.Dormant (schema : Schema) : Prop where
  inert : schema.Inert
  upgrader : schema.upgrader = none
  version_lt : schema.version < SchemaDescription.versionLimit
  untagged : ∀ field ∈ schema.fields, field.name ≠ doctypeKey

def SchemaDescription.Unchecked (description : SchemaDescription) : Prop :=
  ∀ entry ∈ description.fields, entry.2.validator = none

namespace SchemaSet

/-- The schemas that have been made so far are dormant. -/
def AllDormant (made : Keyed Schema) : Prop :=
  ∀ name schema, Keyed.get? made name = some schema → schema.Dormant

variable {hooks : Hooks} {made after : Keyed Schema} {description : SchemaDescription}
  {schema : Schema}

theorem fieldOf_ok {owner : String} {entry : String × FieldSpec} {field : Field}
    (stated : fieldOf hooks made owner entry = .ok field) :
    field.name = entry.1 ∧ field.default = entry.2.default.map Value.ofJson ∧
      field.validator = entry.2.validator.bind hooks.validator? ∧
      field.schema = (entry.2.reference.map Reference.name).bind (Keyed.get? made) := by
  rw [fieldOf_eq] at stated
  generalize (fieldFault? hooks owner entry).or _ = fault? at stated
  cases fault? with
  | some error => simp at stated
  | none =>
      rw [← Except.ok.inj stated]
      exact ⟨rfl, rfl, rfl, rfl⟩

theorem doctypeKey_refused : fieldNameFault? doctypeKey ≠ none := by decide

theorem schemaOf_dormant (accepted : description.Accepted) (unchecked : description.Unchecked)
    (earlier : AllDormant made)
    (stated : schemaOf hooks [] made description = .ok schema) : schema.Dormant := by
  rw [schemaOf] at stated
  obtain ⟨fields, each, stated⟩ := ok_of_bind stated
  have origin : ∀ field ∈ fields, ∃ entry ∈ description.fields,
      fieldOf hooks made description.name entry = .ok field := fun field => mem_of_mapM each
  have names : fields.map (fun field => field.name) = Keyed.keys description.fields :=
    map_of_mapM (fun stated => (fieldOf_ok stated).1) each
  rw [← Except.ok.inj stated]
  refine ⟨.intro (names ▸ accepted.names) ?_ ?_ ?_, rfl, accepted.version_lt, ?_⟩
  · intro field member
    obtain ⟨entry, declared, stated⟩ := origin field member
    obtain ⟨_, _, validator, _⟩ := fieldOf_ok stated
    rw [validator, unchecked entry declared, Option.bind_none]
  · intro field member value default
    obtain ⟨entry, declared, stated⟩ := origin field member
    obtain ⟨_, defaults, _⟩ := fieldOf_ok stated
    obtain ⟨json, written, rfl⟩ := Option.map_eq_some_iff.mp (defaults ▸ default)
    exact (accepted.defaults entry declared json written).plain
  · intro field member inner nested
    obtain ⟨entry, declared, stated⟩ := origin field member
    obtain ⟨_, _, _, reference⟩ := fieldOf_ok stated
    obtain ⟨name, _, found⟩ := Option.bind_eq_some_iff.mp (reference ▸ nested)
    exact (earlier name inner found).inert
  · intro field member same
    obtain ⟨entry, declared, stated⟩ := origin field member
    obtain ⟨named, _⟩ := fieldOf_ok stated
    exact doctypeKey_refused (same ▸ named ▸ accepted.allowed entry declared)

theorem addSchema_dormant (accepted : description.Accepted) (unchecked : description.Unchecked)
    (earlier : AllDormant made)
    (added : addSchema hooks [] made description = .ok after) : AllDormant after := by
  rw [addSchema] at added
  obtain ⟨schema, stated, added⟩ := ok_of_bind added
  rw [← Except.ok.inj added]
  intro name inner found
  by_cases same : description.name = name
  · rw [same, Keyed.get?_put_self, Option.some.injEq] at found
    exact found ▸ schemaOf_dormant accepted unchecked earlier stated
  · rw [Keyed.get?_put_of_ne made schema same] at found
    exact earlier name inner found

/-- Every schema of a set is dormant that is built without upgraders from descriptions that
name no validators. -/
theorem build_dormant {graph : ResolvedGraph} {set : SchemaSet} {name : String}
    (sound : graph.Sound) (accepted : ∀ description ∈ graph.schemas, description.Accepted)
    (unchecked : ∀ description ∈ graph.schemas, description.Unchecked)
    (built : build graph hooks [] = .ok set) (found : set.get? name = some schema) :
    schema.Dormant := by
  rw [build, List.find?_nil] at built
  obtain ⟨schemas, folded, built⟩ := ok_of_bind built
  rw [← Except.ok.inj built] at found
  have preserved : ∀ {before after description}, description ∈ graph.dependencyOrder →
      AllDormant before → addSchema hooks [] before description = .ok after →
      AllDormant after := by
    intro before after description member earlier added
    have loaded := (ResolvedGraph.mem_dependencyOrder_iff sound).mp member
    exact addSchema_dormant (accepted description loaded) (unchecked description loaded) earlier
      added
  have none_made : AllDormant [] := fun name schema found => by simp at found
  exact foldlM_preserves preserved none_made folded name schema found

end SchemaSet

end Schemata
