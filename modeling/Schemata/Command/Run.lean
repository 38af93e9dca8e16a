import Schemata.Command.Arguments
import Schemata.Files.Emission
import Schemata.Files.Loading
import Schemata.Text.Control
namespace Schemata

/-! Runs of the commands.

Nothing is written before all descriptions are loaded and resolved; from then on each
artifact succeeds or fails on its own. -/

inductive RunError where
  | settings (error : SettingsError)
  | missingDirectory (role path : String)
  | loading (source : String) (error : GenerationError)
  | resolving (error : GenerationError)

namespace RunError

def message : RunError → String
  | settings error => error.message
  | missingDirectory role path => s!"{role} directory {path} does not exist"
  | loading source error =>
      s!"failed to load schema descriptions from {source}: {error.message}"
  | resolving error => s!"failed to resolve schemas: {error.message}"

/-- The error of loading or resolving behind this one. -/
def generation? : RunError → Option GenerationError
  | loading _ error => some error
  | resolving error => some error
  | _ => none

end RunError

inductive RunEvent where
  | notice (notice : Notice)
  | emissionFailure (artifact : Artifact) (error : GenerationError)
  | failure (error : RunError)

def RunEvent.text : RunEvent → String
  | notice (.unknownKey schema field key) =>
      s!"WARN ignoring unrecognized descriptor key schema={Text.quoted schema} " ++
        s!"field={Text.quoted field} key={key}"
  | notice (.upgraded schema found current) =>
      s!"WARN upgraded document schema={schema} from={Notice.foundText found} to={current}"
  | emissionFailure (.manifest schema) error =>
      s!"ERROR failed to emit schema schema={schema.name} error={error.message}"
  | emissionFailure .index error =>
      s!"ERROR failed to emit initializer error={error.message}"
  | failure error => s!"ERROR {Text.showControls error.message}"

/-- The end of a run that was carried through. -/
structure RunResult where
  code : Nat
  output : String
  events : List RunEvent := []

namespace Run

section

variable {m : Type → Type} [Monad m] [FileSystem m]

def requireDirectory (role path : String) : m (Except RunError Unit) := do
  if ← FileSystem.isDirectory path then return .ok ()
  return .error (.missingDirectory role path)

def loadAndResolve (source : String) : m (Except RunError ResolvedGraph × List Notice) := do
  let (loaded, notices) ← Registry.loadDirectory source
  let resolved := match loaded with
    | .error error => .error (.loading source error)
    | .ok registry =>
        match Resolution.resolve registry with
        | .error error => .error (.resolving error)
        | .ok graph => .ok graph
  return (resolved, notices)

def generated (settings : Settings) (graph : ResolvedGraph) (report : EmissionReport)
    (notices : List Notice) : RunResult :=
  let failures := report.errors.map fun error => s!"  FAIL: {error.message}\n"
  { code := if report.isSuccess then 0 else 1
    output :=
      s!"Generated {report.written.length} artifact(s) for {graph.size} schema(s) " ++
        s!"in {settings.output}\n" ++ String.join failures
    events := notices.map .notice ++
      report.failures.map fun failure => .emissionFailure failure.1 failure.2 }

def emissionOptions (settings : Settings) : EmissionOptions :=
  ⟨settings.output, settings.force, settings.package⟩

def generate (flags : Flags) (config : Config) :
    m (Except RunError RunResult × List Notice) := do
  match Settings.merge flags config with
  | .error error => return (.error (.settings error), [])
  | .ok settings =>
      match ← requireDirectory "source" settings.source with
      | .error error => return (.error error, [])
      | .ok () =>
          match ← requireDirectory "output" settings.output with
          | .error error => return (.error error, [])
          | .ok () =>
              match ← loadAndResolve settings.source with
              | (.error error, notices) => return (.error error, notices)
              | (.ok graph, notices) =>
                  let report ← Emission.emit (emissionOptions settings) graph
                  return (.ok (generated settings graph report notices), notices)

def check (source : Option String) (config : Config) :
    m (Except RunError RunResult × List Notice) := do
  match Settings.sourceOf { source } config with
  | .error error => return (.error (.settings error), [])
  | .ok source =>
      match ← requireDirectory "source" source with
      | .error error => return (.error error, [])
      | .ok () =>
          match ← loadAndResolve source with
          | (.error error, notices) => return (.error error, notices)
          | (.ok graph, notices) =>
              let names := graph.names.map fun name => s!"  {name}\n"
              return (.ok
                { code := 0
                  output := s!"OK: {graph.size} schema(s) resolved from {source}\n" ++
                    String.join names
                  events := notices.map .notice }, notices)

def command (config : Config) : Command → m (Except RunError RunResult × List Notice)
  | .generate flags => generate flags config
  | .check source => check source config

def loadConfig : Option String → m (Except SettingsError Config)
  | none => return .ok {}
  | some path => Config.load path

/-- A failed run ends with code 1 and its error as the last event. -/
def resultOf : Except RunError RunResult × List Notice → RunResult
  | (.ok result, _) => result
  | (.error error, notices) =>
      ⟨1, "", notices.map .notice ++ [.failure error]⟩

def versionLine : String := "docmodel-gen 0.1.0"

def misuseCode : Nat := 2

def main (arguments : List String) : m RunResult := do
  match Arguments.ofList arguments with
  | .misuse => return ⟨misuseCode, "", []⟩
  | .version => return ⟨0, versionLine ++ "\n", []⟩
  | .help => return ⟨0, "", []⟩
  | .run config given =>
      match ← loadConfig config with
      | .error error => return ⟨1, "", [.failure (.settings error)]⟩
      | .ok config => return resultOf (← command config given)

end

end Run

end Schemata
