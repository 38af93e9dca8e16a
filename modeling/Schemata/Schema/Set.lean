import Schemata.Graph.Placement
import Schemata.Schema.Hooks
import Schemata.Value.Json
namespace Schemata

/-! Schemas from linked descriptions.

The schemas are made in the order of their references, so the schema of a subschema
field is at hand when the field is made. -/

inductive SchemaError where
  | unknownHook (schema field : String) (kind : HookKind) (name : String)
  /-- A text that should be a bound is no number. -/
  | invalidBound (schema field key value : String)
  | missingSubschema (schema field target : String)
  | unknownUpgraderTarget (schema : String)
deriving DecidableEq

def SchemaError.message : SchemaError → String
  | unknownHook schema field kind name =>
      s!"{schema}.{field}: no {kind.name} named '{name}' is registered"
  | invalidBound schema field key value =>
      s!"{schema}.{field}.{key}: '{value}' is not a number"
  | missingSubschema schema field target =>
      s!"{schema}.{field}: subschema '{target}' is not available"
  | unknownUpgraderTarget schema =>
      s!"upgrader registered for unknown schema '{schema}'"

structure SchemaSet where
  /-- In the order of loading. -/
  names : List String
  schemas : Keyed Schema

namespace SchemaSet

def get? (set : SchemaSet) (name : String) : Option Schema := Keyed.get? set.schemas name

def size (set : SchemaSet) : Nat := set.schemas.length

def lookUp {α : Type} (find : String → Option α) (missing : String → SchemaError) :
    Option String → Except SchemaError (Option α)
  | none => .ok none
  | some name =>
      match find name with
      | some found => .ok (some found)
      | none => .error (missing name)

/-- A declared bound as a number; a type without bounds drops it. -/
def boundOf (type : FieldType) (invalid : String → SchemaError) :
    Option Bound → Except SchemaError (Option Number)
  | none => .ok none
  | some bound =>
      if type.isBounded then
        match bound.value? with
        | some value => .ok (some value)
        | none => .error (invalid bound.display)
      else .ok none

/-- The field that a description states, given the schemas made so far. -/
def fieldOf (hooks : Hooks) (made : Keyed Schema) (schema : String)
    (entry : String × FieldSpec) : Except SchemaError Field := do
  let (name, spec) := entry
  let min ← boundOf spec.type (.invalidBound schema name "min") spec.min
  let max ← boundOf spec.type (.invalidBound schema name "max") spec.max
  let validator ← lookUp hooks.validator? (.unknownHook schema name .validator) spec.validator
  let formatter ← lookUp hooks.formatter? (.unknownHook schema name .formatter) spec.formatter
  let calculator ←
    lookUp hooks.calculator? (.unknownHook schema name .calculator) spec.calculator
  let nested ← lookUp (Keyed.get? made) (.missingSubschema schema name)
    (spec.reference.map Reference.name)
  .ok
    { name, type := spec.type, isArray := spec.isArray, required := spec.required,
      default := spec.default.map Value.ofJson, min, max, validator,
      failMessage := spec.failMessage, formatter, calculator, schema := nested }

def schemaOf (hooks : Hooks) (upgraders : Keyed Upgrader) (made : Keyed Schema)
    (description : SchemaDescription) : Except SchemaError Schema := do
  let fields ← description.fields.mapM (fieldOf hooks made description.name)
  .ok
    { name := description.name, version := description.version, fields,
      upgrader := Keyed.get? upgraders description.name }

def addSchema (hooks : Hooks) (upgraders : Keyed Upgrader) (made : Keyed Schema)
    (description : SchemaDescription) : Except SchemaError (Keyed Schema) := do
  let schema ← schemaOf hooks upgraders made description
  .ok (Keyed.put made description.name schema)

/-- Makes the schemas of a graph; upgraders go by the names of their schemas. -/
def build (graph : ResolvedGraph) (hooks : Hooks) (upgraders : Keyed Upgrader) :
    Except SchemaError SchemaSet :=
  match upgraders.find? fun upgrader => (graph.get? upgrader.1).isNone with
  | some upgrader => .error (.unknownUpgraderTarget upgrader.1)
  | none => do
      let schemas ← graph.dependencyOrder.foldlM (addSchema hooks upgraders) []
      .ok ⟨graph.names, schemas⟩

end SchemaSet

end Schemata
