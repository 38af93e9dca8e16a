import Schemata.Files.System
import Schemata.Graph.Resolution
namespace Schemata

/-! Artifacts of a resolved graph: a manifest for each schema and an index of all. -/

namespace SchemaDescription

def manifest (schema : SchemaDescription) (package : String) : Json :=
  let customImports : Keyed Json :=
    if schema.customImportLines.isEmpty then []
    else [("customImportLines", .texts schema.customImportLines)]
  .object
    ([("name", .text schema.name), ("doctype", .text schema.doctype),
        ("version", .nat schema.version), ("package", .text package),
        ("imports", .texts schema.imports),
        ("requiresDateOnly", .bool schema.requiresDateOnly)] ++
      customImports ++
      [("fields", .array (schema.fields.map fun entry =>
        .object (("name", .text entry.1) :: entry.2.members)))])

end SchemaDescription

namespace ResolvedGraph

def indexJson (graph : ResolvedGraph) (package : String) : Json :=
  .object [("package", .text package), ("models", .texts graph.names)]

end ResolvedGraph

inductive Artifact where
  | manifest (schema : SchemaDescription)
  | index

structure EmissionOptions where
  directory : String
  /-- Existing files are overwritten. -/
  force : Bool
  package : String

structure EmissionReport where
  written : List String
  failures : List (Artifact × GenerationError)

namespace EmissionReport

def isSuccess (report : EmissionReport) : Bool := report.failures.isEmpty

def errors (report : EmissionReport) : List GenerationError :=
  report.failures.map Prod.snd

end EmissionReport

namespace Emission

def indexName : String := "models.json"

def path (options : EmissionOptions) : Artifact → String
  | .manifest schema => Path.join options.directory (schema.name ++ ".json")
  | .index => Path.join options.directory indexName

def json (options : EmissionOptions) (graph : ResolvedGraph) : Artifact → Json
  | .manifest schema => schema.manifest options.package
  | .index => graph.indexJson options.package

def content (options : EmissionOptions) (graph : ResolvedGraph) (artifact : Artifact) :
    String :=
  (json options graph artifact).indented ++ "\n"

def artifacts (graph : ResolvedGraph) : List Artifact :=
  graph.schemas.map .manifest ++ [.index]

section

variable {m : Type → Type} [Monad m] [FileSystem m]

/-- Writes one artifact, unless its path is taken and overwriting was not asked for. -/
def emitOne (options : EmissionOptions) (graph : ResolvedGraph) (artifact : Artifact) :
    m (Except GenerationError String) := do
  let target := path options artifact
  let taken ← if options.force then pure false else FileSystem.exists? target
  if taken then return .error (.outputExists target)
  if ← FileSystem.write target (content options graph artifact) then return .ok target
  return .error (.inputOutput target)

/-- Writes artifacts one after the other; a failure does not stop the others. -/
def emitEach (options : EmissionOptions) (graph : ResolvedGraph) :
    List Artifact → m EmissionReport
  | [] => return ⟨[], []⟩
  | artifact :: rest => do
      let result ← emitOne options graph artifact
      let report ← emitEach options graph rest
      match result with
      | .ok target => return { report with written := target :: report.written }
      | .error error => return { report with failures := (artifact, error) :: report.failures }

def emit (options : EmissionOptions) (graph : ResolvedGraph) : m EmissionReport :=
  emitEach options graph (artifacts graph)

end

end Emission

end Schemata
