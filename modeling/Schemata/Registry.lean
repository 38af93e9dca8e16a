import Schemata.GenerationError
import Schemata.Json.Reader
import Schemata.Keyed.Table
namespace Schemata

/-! Descriptions under distinct names, in the order of loading, before their references
are followed.

Beside the list stands an index of the names, by which everything is looked up. -/

/-- The index answers for a name with its position, and for nothing else. -/
def Indexes (index : Table Nat) (names : List String) : Prop :=
  ∀ name position, index.get? name = some position ↔ names[position]? = some name

namespace Indexes

variable {index other : Table Nat} {names : List String} {name : String}

theorem nil : Indexes .empty [] := fun name position => by simp

/-- A name that is free is added to both, with the position that it takes. -/
theorem concat (indexes : Indexes index names) (free : index.contains name = false) :
    Indexes (index.insert name names.length) (names ++ [name]) := by
  have absent : index.get? name = none := by simpa [Table.contains] using free
  intro key position
  rw [List.getElem?_append]
  by_cases same : name = key
  · subst same
    rw [Table.get?_insert_self]
    split
    · rename_i inside
      have elsewhere : names[position]? ≠ some name :=
        mt (indexes name position).mpr (by simp [absent])
      simp only [elsewhere, iff_false, Option.some.injEq]
      omega
    · rw [List.getElem?_singleton]
      split <;> simp <;> omega
  · rw [Table.get?_insert_of_ne index names.length same, indexes key position]
    split
    · exact Iff.rfl
    · rename_i outside
      rw [List.getElem?_eq_none (by omega), List.getElem?_singleton]
      simp [same]

/-- What a list is indexed by is determined by the list. -/
theorem unique (indexes : Indexes index names) (others : Indexes other names) :
    index = other :=
  Table.ext fun name => Option.ext fun position =>
    (indexes name position).trans (others name position).symm

theorem lt_length {position : Nat} (indexes : Indexes index names)
    (found : index.get? name = some position) : position < names.length :=
  (List.getElem?_eq_some_iff.mp ((indexes name position).mp found)).1

theorem contains_iff (indexes : Indexes index names) :
    index.contains name = true ↔ name ∈ names := by
  rw [Table.contains, Option.isSome_iff_exists, List.mem_iff_getElem?]
  exact exists_congr fun position => indexes name position

theorem nodup (indexes : Indexes index names) : names.Nodup := by
  refine List.pairwise_iff_getElem.mpr fun first second inside outside before same => ?_
  have here := (indexes _ first).mpr (List.getElem?_eq_getElem inside)
  have there := (indexes _ second).mpr (List.getElem?_eq_getElem outside)
  rw [same, there, Option.some.injEq] at here
  omega

end Indexes

structure Registry where
  schemas : List SchemaDescription
  /-- The names of the schemas, each with its position. -/
  index : Table Nat
  indexes : Indexes index (schemas.map SchemaDescription.name)

namespace Registry

def empty : Registry := ⟨[], .empty, .nil⟩

def size (registry : Registry) : Nat := registry.schemas.length

def names (registry : Registry) : List String :=
  registry.schemas.map SchemaDescription.name

def get? (registry : Registry) (name : String) : Option SchemaDescription :=
  (registry.index.get? name).bind fun position => registry.schemas[position]?

/-- The registry with one description more, after the others. -/
def push (registry : Registry) (schema : SchemaDescription)
    (free : registry.index.contains schema.name = false) : Registry where
  schemas := registry.schemas ++ [schema]
  index := registry.index.insert schema.name registry.size
  indexes := by
    rw [List.map_append, size, ← List.length_map]
    exact registry.indexes.concat free

/-- Adds a description under a name that is free; its position is the number of those
before it. -/
def add (registry : Registry) (schema : SchemaDescription) :
    Except GenerationError (Registry × Nat) :=
  match taken : registry.index.contains schema.name with
  | true => .error (.duplicate schema.name)
  | false => .ok (registry.push schema taken, registry.size)

def register (registry : Registry) (json : Json) (origin : String) :
    Except GenerationError (Registry × Nat) :=
  match SchemaDescription.ofJson json origin with
  | .ok schema => registry.add schema
  | .error error => .error (.description error)

/-- A file that was read; no text stands for one that cannot be read. -/
structure SourceFile where
  path : String
  text : Option String

def SourceFile.json (file : SourceFile) : Except GenerationError Json :=
  match file.text with
  | none => .error (.inputOutput file.path)
  | some text =>
      match Json.parse? text with
      | some json => .ok json
      | none => .error (.malformed file.path)

def registerFile (registry : Registry) (file : SourceFile) :
    Except GenerationError (Registry × Nat) := do
  registry.register (← file.json) file.path

/-- Registers files one after the other, up to the first that fails. -/
def registerFiles (registry : Registry) (files : List SourceFile) :
    Except GenerationError Registry :=
  files.foldlM (fun registry file => (registry.registerFile file).map Prod.fst) registry

def SourceFile.notices (file : SourceFile) : List Notice :=
  match file.json with
  | .ok json => SchemaDescription.notices json
  | .error _ => []

/-- Remarks on files, up to and including the first that fails. -/
def noticesOfFiles (registry : Registry) : List SourceFile → List Notice
  | [] => []
  | file :: rest =>
      file.notices ++ match registry.registerFile file with
        | .ok (next, _) => noticesOfFiles next rest
        | .error _ => []

end Registry

end Schemata
