import Schemata.Files.System
import Schemata.Yaml.Document
namespace Schemata

/-! Settings of a run: a configuration file, overridden by what the command line
says. -/

structure Config where
  source : Option String := none
  output : Option String := none
  force : Option Bool := none
  package : Option String := none
deriving DecidableEq

structure Flags where
  source : Option String := none
  output : Option String := none
  force : Bool := false
  package : Option String := none
deriving DecidableEq

structure Settings where
  source : String
  output : String
  force : Bool
  package : String
deriving DecidableEq

/-- The package from which artifacts take what they need, unless it is set. -/
def defaultPackage : String := "docmodel-runtime"

inductive SettingsError where
  | unreadableConfig (path : String)
  | malformedConfig (path : String)
  | noSource
  | noOutput
deriving DecidableEq

def SettingsError.message : SettingsError → String
  | unreadableConfig path => s!"failed to read config file {path}"
  | malformedConfig path => s!"failed to parse config file {path}"
  | noSource => "no source directory: pass --src or set `src` in the config file"
  | noOutput => "no output directory: pass --out or set `out` in the config file"

namespace Config

open Yaml

def isNullWord (text : String) : Bool :=
  text = "~" || text = "null" || text = "Null" || text = "NULL"

/-- Whether a scalar names nothing.  Only a plain one does: it is empty or a word for
nothing, and must be such a word if its tag says that it is nothing. -/
def isNothing? (scalar : Scalar) : Option Bool :=
  if scalar.style ≠ .plain then some false
  else match scalar.tag with
    | none => some (scalar.text = "" || isNullWord scalar.text)
    | some "tag:yaml.org,2002:null" => if isNullWord scalar.text then some true else none
    | some _ => some false

def textOf? (scalar : Scalar) : Option (Option String) :=
  (isNothing? scalar).map fun nothing => if nothing then none else some scalar.text

/-- Whether words of a scalar may be read as a truth value. -/
def isOpenToReading (scalar : Scalar) : Bool :=
  scalar.style = .plain ||
    (scalar.style = .literal && scalar.tag = some "tag:yaml.org,2002:bool")

/-- A truth value or nothing; any other scalar is refused. -/
def flagOf? (scalar : Scalar) : Option (Option Bool) := do
  if ← isNothing? scalar then some none
  else if !isOpenToReading scalar then none
  else if scalar.text ∈ ["true", "True", "TRUE"] then some (some true)
  else if scalar.text ∈ ["false", "False", "FALSE"] then some (some false)
  else none

def setEntry (config : Config) (entry : Scalar × Scalar) : Option Config :=
  match entry.1.text with
  | "src" => (textOf? entry.2).map fun source => { config with source }
  | "out" => (textOf? entry.2).map fun output => { config with output }
  | "force" => (flagOf? entry.2).map fun force => { config with force }
  | "pkg_path" => (textOf? entry.2).map fun package => { config with package }
  | _ => none

/-- The configuration that a text writes; each key may come once. -/
def ofText? (text : String) : Option Config := do
  let entries ← entriesOf? text
  let keys := entries.map fun entry => entry.1.text
  if keys.eraseDups ≠ keys then none else entries.foldlM setEntry {}

/-- Directories of a configuration are seen from the directory that holds it. -/
def seenFrom (config : Config) (base : String) : Config :=
  { config with
    source := config.source.map (Path.resolve · base)
    output := config.output.map (Path.resolve · base) }

def ofFile (path : String) (content : Option ByteArray) : Except SettingsError Config :=
  match content.bind String.fromUTF8? with
  | none => .error (.unreadableConfig path)
  | some text =>
      match ofText? text with
      | none => .error (.malformedConfig path)
      | some config => .ok (config.seenFrom ((Path.parent? path).getD "."))

def load {m : Type → Type} [Monad m] [FileSystem m] (path : String) :
    m (Except SettingsError Config) := do
  return ofFile path (← FileSystem.read path)

end Config

namespace Settings

def sourceOf (flags : Flags) (config : Config) : Except SettingsError String :=
  match flags.source <|> config.source with
  | some source => .ok source
  | none => .error .noSource

/-- Flags go before the configuration; overwriting is on if either asks for it. -/
def merge (flags : Flags) (config : Config) : Except SettingsError Settings := do
  let source ← sourceOf flags config
  match flags.output <|> config.output with
  | none => .error .noOutput
  | some output =>
      .ok
        { source, output
          force := flags.force || config.force.getD false
          package := (flags.package <|> config.package).getD defaultPackage }

end Settings

end Schemata
